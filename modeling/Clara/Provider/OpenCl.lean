import Clara.Common.Api
import Clara.Provider.State

/-! The handlers in `opencl_*.c` of the provider, which pass a call on to the OpenCL library, and
the table that names them. -/
namespace Clara.Provider

open Conc PProg

/-- What a call returns, and the code it stores where `errcode_ret` points. -/
structure ClResult where
  ret : Arg
  errcode : UInt32

/-- The OpenCL library of the provider's machine: its state at the start, and what a call with
the given arguments does to its state and to the memory. Results and arguments are 64-bit words
as the handlers convert them. -/
structure OpenCl (Cl : Type) where
  init : Cl
  call : ClFunction → List Arg → Cl → Memory → Cl × Memory × ClResult

/-- The mappings that `provider_startup` makes for its platforms and their devices. -/
def registrations (platforms : List Platform) : List (GlobalId × Arg) :=
  platforms.flatMap fun platform =>
    (platform.globalId, platform.id) :: platform.devices.map fun device =>
      (device.globalId, device.id)

/-- Each of them is asserted to be new. -/
def Registered (platforms : List Platform) : Prop :=
  ((registrations platforms).map Prod.fst).Nodup

/-- The provider when it begins to serve. -/
def State.initial {Cl : Type} (lib : OpenCl Cl) (platforms : List Platform)
    (addresses : ℕ → Arg) : State Cl where
  net _ := .fresh
  buf := ⟨List.replicate recvbufsz 0, List.length_replicate⟩
  platforms := platforms
  idMap := .ofList (registrations platforms)
  allocations := .empty
  mem _ := none
  addresses := addresses
  draws := 0
  cl := lib.init

/-- `cl_function_handler`: it gets `argv` and returns what it leaves in `argv[0]`. -/
abbrev Handler (Cl : Type) := (ℕ → Arg) → PProg Cl Arg

def toUint (w : Arg) : Arg := w.toUInt32.toUInt64

variable {Cl : Type} (lib : OpenCl Cl)

def callCl (f : ClFunction) (args : List Arg) : PProg Cl ClResult := fun s =>
  let (cl, mem, r) := lib.call f args s.cl s.mem
  .done { s with cl := cl, mem := mem } r

def claraPassOn (f : ClFunction) (args : (ℕ → Arg) → List Arg) : Handler Cl := fun argv => do
  let r ← callCl lib f (args argv)
  pure r.ret

def claraGetObjectInfo (f : ClFunction) : Handler Cl :=
  claraPassOn lib f fun argv => [argv 1, toUint (argv 2), argv 3, argv 4, argv 5]

def claraObject (f : ClFunction) : Handler Cl := claraPassOn lib f fun argv => [argv 1]

/-- The enqueue functions: the event wait list holds ids and is translated before the call. -/
def claraEnqueue (f : ClFunction) (numEvents waitList : ℕ) (args : (ℕ → Arg) → List Arg) :
    Handler Cl := fun argv => do
  let n := (argv numEvents).toUInt32.toNat
  let m ← mappingTranslateListToReal (argv waitList) (argv waitList) n
  assert (m == n) .waitList
  let r ← callCl lib f (args argv)
  pure r.ret

def copyErrcode (errcodeRet : Arg) (errcode : UInt32) : PProg Cl Unit :=
  if errcodeRet = 0 then pure () else store errcodeRet 0 (Bytes.ofNat 4 errcode.toNat)

def clContextPlatform : Arg := 0x1084

/-- The first loop over the properties: the last platform they name. -/
def contextPlatform (properties : Arg) : (fuel i : ℕ) → (platform : Arg) → PProg Cl Arg
  | 0, _, _ => fail .overflow
  | fuel + 1, i, platform => do
    let prop ← loadWord properties i
    if prop = 0 then pure platform
    else if prop = clContextPlatform then
      let value ← loadWord properties (i + 1)
      contextPlatform properties fuel (i + 2) value
    else contextPlatform properties fuel (i + 2) platform

/-- The second loop: the global id of the platform is replaced by its real id. -/
def contextReplace (properties : Arg) (id : Arg) : (fuel i : ℕ) → PProg Cl Unit
  | 0, _ => fail .overflow
  | fuel + 1, i => do
    let prop ← loadWord properties i
    if prop = 0 then pure ()
    else
      if prop = clContextPlatform then store properties (8 * (i + 1)) (Bytes.word id)
      contextReplace properties id fuel (i + 2)

/-- A list of properties that does not end runs out of its block. -/
def contextProperties (properties : Arg) : PProg Cl Platform := do
  let block ← get fun s => s.mem properties
  let fuel := (block.getD []).length + 1
  let id ← contextPlatform properties fuel 0 0
  let platforms ← get fun s => s.platforms
  match platforms.find? fun platform => platform.globalId == id with
  | none => fail (.assertion .contextPlatform)
  | some platform =>
    contextReplace properties platform.id fuel 0
    pure platform

/-- `devices[i] = device->id` for the devices of the platform; `i` is an `int`. -/
def contextDevices (platform : Platform) (devices : Arg) : (n i : ℕ) → PProg Cl Unit
  | 0, _ => pure ()
  | n + 1, i => do
    let id ← loadWord devices i
    match platform.devices.find? fun device => device.globalId == id with
    | none => fail .nullPointer
    | some device =>
      store devices (8 * i) (Bytes.word device.id)
      if i + 1 < 2 ^ 31 then contextDevices platform devices n (i + 1) else fail .overflow

def claraClCreateContext : Handler Cl := fun argv => do
  let platform ← contextProperties (argv 1)
  contextDevices platform (argv 3) (toUint (argv 2)).toNat 0
  let r ← callCl lib .createContext [argv 1, toUint (argv 2), argv 3, 0, 0]
  copyErrcode (argv 6) r.errcode
  pure r.ret

def claraClCreateContextFromType : Handler Cl := fun argv => do
  let _ ← contextProperties (argv 1)
  let r ← callCl lib .createContextFromType [argv 1, argv 2, 0, 0]
  copyErrcode (argv 5) r.errcode
  pure r.ret

def claraClCreateProgramWithSource : Handler Cl := fun argv => do
  let count := (toUint (argv 2)).toNat
  let n ← mappingTranslateListToReal (argv 3) (argv 3) count
  assert (n == count) .programStrings
  let r ← callCl lib .createProgramWithSource [argv 1, toUint (argv 2), argv 3, argv 4]
  copyErrcode (argv 5) r.errcode
  pure r.ret

/-- The handler begins with `assert(0)`. -/
def claraClCreateProgramWithBinary : Handler Cl := fun _ => fail (.assertion .programBinary)

def claraClBuildProgram : Handler Cl := fun argv => do
  assert (argv 5 == 0) .buildNotify
  assert (argv 6 == 0) .buildNotify
  let numDevices := (toUint (argv 2)).toNat
  let n ← mappingTranslateListToReal (argv 3) (argv 3) numDevices
  assert (n == numDevices) .buildDevices
  let r ← callCl lib .buildProgram [argv 1, toUint (argv 2), argv 3, argv 4, 0, 0]
  pure r.ret

/-- An argument as long as an id that is one is replaced by the pointer it stands for. -/
def claraClSetKernelArg : Handler Cl := fun argv => do
  if argv 3 = 8 then
    let id ← loadWord (argv 4) 0
    match ← mappingFindByVirt id with
    | none => pure ()
    | some real => store (argv 4) 0 (Bytes.word real)
  let r ← callCl lib .setKernelArg [argv 1, toUint (argv 2), argv 3, argv 4]
  pure r.ret

def clEventCommandQueue : Arg := 0x11D0

/-- The one query whose result is translated back to an id. -/
def claraClGetEventInfo : Handler Cl := fun argv => do
  let r ← callCl lib .getEventInfo [argv 1, toUint (argv 2), argv 3, argv 4, argv 5]
  if toUint (argv 2) = clEventCommandQueue ∧ r.ret = 0 ∧ argv 4 ≠ 0 then
    match ← mappingFindByReal (← loadWord (argv 4) 0) with
    | none => fail (.assertion .eventQueue)
    | some virt => store (argv 4) 0 (Bytes.word virt)
  pure r.ret

/-- The arguments of `clEnqueueReadBuffer` and `clEnqueueWriteBuffer`, and those of
`clEnqueueNDRangeKernel`: the third and the number of events are 32 bits wide. -/
def enqueueArgs (argv : ℕ → Arg) : List Arg :=
  [argv 1, argv 2, toUint (argv 3), argv 4, argv 5, argv 6, toUint (argv 7), argv 8, argv 9]

def copyBufferArgs (argv : ℕ → Arg) : List Arg :=
  [argv 1, argv 2, argv 3, argv 4, argv 5, argv 6, toUint (argv 7), argv 8, argv 9]

/-- `exec_fun_table`, with the numbers of the pointer arguments. -/
def execFunTable : ClFunction → Option (Handler Cl × List ℕ)
  | .getDeviceInfo => some (claraGetObjectInfo lib .getDeviceInfo, [1, 4, 5])
  | .createContext => some (claraClCreateContext lib, [1, 3, 4, 5, 6])
  | .createContextFromType => some (claraClCreateContextFromType lib, [1, 3, 4, 5])
  | .retainContext => some (claraObject lib .retainContext, [1])
  | .releaseContext => some (claraObject lib .releaseContext, [1])
  | .createCommandQueue => some (claraPassOn lib .createCommandQueue
      fun argv => [argv 1, argv 2, argv 3, argv 4], [1, 2, 4])
  | .retainCommandQueue => some (claraObject lib .retainCommandQueue, [1])
  | .releaseCommandQueue => some (claraObject lib .releaseCommandQueue, [1])
  | .getCommandQueueInfo => some (claraGetObjectInfo lib .getCommandQueueInfo, [1, 4, 5])
  | .createBuffer => some (claraPassOn lib .createBuffer
      fun argv => [argv 1, argv 2, argv 3, argv 4, argv 5], [1, 4, 5])
  | .retainMemObject => some (claraObject lib .retainMemObject, [1])
  | .releaseMemObject => some (claraObject lib .releaseMemObject, [1])
  | .enqueueReadBuffer =>
    some (claraEnqueue lib .enqueueReadBuffer 7 8 enqueueArgs, [1, 2, 6, 8, 9])
  | .enqueueWriteBuffer =>
    some (claraEnqueue lib .enqueueWriteBuffer 7 8 enqueueArgs, [1, 2, 6, 8, 9])
  | .enqueueCopyBuffer =>
    some (claraEnqueue lib .enqueueCopyBuffer 7 8 copyBufferArgs, [1, 2, 3, 8, 9])
  | .getMemObjectInfo => some (claraGetObjectInfo lib .getMemObjectInfo, [1, 4, 5])
  | .createProgramWithSource => some (claraClCreateProgramWithSource lib, [1, 3, 4, 5])
  | .createProgramWithBinary => some (claraClCreateProgramWithBinary, [1, 3, 4, 5, 6, 7])
  | .retainProgram => some (claraObject lib .retainProgram, [1])
  | .releaseProgram => some (claraObject lib .releaseProgram, [1])
  | .buildProgram => some (claraClBuildProgram lib, [1, 3, 4])
  | .unloadCompiler => some (claraPassOn lib .unloadCompiler fun _ => [], [])
  | .getProgramInfo => some (claraGetObjectInfo lib .getProgramInfo, [1, 4, 5])
  | .getProgramBuildInfo => some (claraPassOn lib .getProgramBuildInfo
      fun argv => [argv 1, argv 2, toUint (argv 3), argv 4, argv 5, argv 6], [1, 2, 5, 6])
  | .createKernel => some (claraPassOn lib .createKernel
      fun argv => [argv 1, argv 2, argv 3], [1, 2, 3])
  | .retainKernel => some (claraObject lib .retainKernel, [1])
  | .releaseKernel => some (claraObject lib .releaseKernel, [1])
  | .setKernelArg => some (claraClSetKernelArg lib, [1, 4])
  | .enqueueNDRangeKernel =>
    some (claraEnqueue lib .enqueueNDRangeKernel 7 8 enqueueArgs, [1, 2, 4, 5, 6, 8, 9])
  | .enqueueTask => some (claraEnqueue lib .enqueueTask 3 4
      fun argv => [argv 1, argv 2, toUint (argv 3), argv 4, argv 5], [1, 2, 4, 5])
  | .getKernelInfo => some (claraGetObjectInfo lib .getKernelInfo, [1, 4, 5])
  | .waitForEvents => some (claraPassOn lib .waitForEvents
      fun argv => [toUint (argv 1), argv 2], [2])
  | .getEventInfo => some (claraClGetEventInfo lib, [1, 4, 5])
  | .retainEvent => some (claraObject lib .retainEvent, [1])
  | .releaseEvent => some (claraObject lib .releaseEvent, [1])
  | .enqueueMarker => some (claraPassOn lib .enqueueMarker fun argv => [argv 1, argv 2], [1, 2])
  | .enqueueWaitForEvents => some (claraPassOn lib .enqueueWaitForEvents
      fun argv => [argv 1, toUint (argv 2), argv 3], [1, 3])
  | .enqueueBarrier => some (claraObject lib .enqueueBarrier, [1])
  | .getEventProfilingInfo => some (claraGetObjectInfo lib .getEventProfilingInfo, [1, 4, 5])
  | .flush => some (claraObject lib .flush, [1])
  | .finish => some (claraObject lib .finish, [1])
  | _ => none

end Clara.Provider
