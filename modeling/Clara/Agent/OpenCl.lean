import Clara.Agent.Peers
import Clara.Common.Api

/-! The handlers in `opencl_*.c`, which the agent runs before and after it has passed an
EXECUTE request on, and the two tables that name them. -/
namespace Clara.Agent

open Conc

/-- `object_type_t`, as far as `invalid_object_status` knows it. -/
inductive ObjectType
  | context | commandqueue | memobject | sampler | program | kernel | event
  deriving DecidableEq

/-- A negative status of OpenCL as it stands in a 64-bit argument. -/
def clStatus (n : ℕ) : Arg := 0 - UInt64.ofNat n

def clSuccess : Arg := 0
def clInvalidValue : Arg := clStatus 30
def clInvalidPlatform : Arg := clStatus 32
def clInvalidDevice : Arg := clStatus 33

def invalidObjectStatus : ObjectType → Arg
  | .context => clStatus 34
  | .commandqueue => clStatus 36
  | .memobject => clStatus 38
  | .sampler => clStatus 41
  | .program => clStatus 44
  | .kernel => clStatus 48
  | .event => clStatus 58

/-- `cl_function_handler`: the request, `target` and `source`. -/
abbrev Handler := ExecuteRequest → Option Addr → Addr → AProg ExecuteRequest

def agentGenericCreate : Handler := fun params target source => do
  let id ← clCreateObject target source (params.argv 0) invalidId
  pure (params.setArg 0 id)

/-- `AGENT_GENERIC_RETAIN`. -/
def agentGenericRetain (type : ObjectType) : Handler := fun params _ source => do
  let b ← clRetainObject source (params.argv 1)
  pure (params.setArg 0 (if b then clSuccess else invalidObjectStatus type))

/-- `AGENT_GENERIC_RELEASE`. -/
def agentGenericRelease (type : ObjectType) : Handler := fun params _ source => do
  let b ← clReleaseObject source (params.argv 1)
  pure (params.setArg 0 (if b then clSuccess else invalidObjectStatus type))

def agentGenericMapEvent (n : ℕ) : Handler := fun params target source => do
  let handle := params.argv n
  if handle = invalidId then pure params
  else
    let provider ← deref target
    let _ ← read .provider provider
    let virt ← idCreate
    providerLock provider
    assert (← net (claraSendMapatptrRequest (.provider provider) virt handle)) .mapEventRequest
    match ← net (claraRecvMapatptrResponse (.provider provider)) with
    | none => fail (.assertion .mapEventResponse)
    | some real =>
      let id ← clCreateObject (some provider) source real virt
      assert (id == virt) .mapEventCreate
      providerUnlock provider
      pure params

def agentNop : Handler := fun params _ _ => pure params

/-- A store of `cl_uint` through a pointer argument that may be `NULL`. -/
def pokeUint (ptr : Arg) (n : ℕ) : AProg Unit :=
  if ptr = 0 then pure () else poke ptr 0 (Bytes.ofNat 4 n)

/-- A store of `size_t` through a pointer argument that may be `NULL`. -/
def pokeSize (ptr : Arg) (n : ℕ) : AProg Unit :=
  if ptr = 0 then pure () else poke ptr 0 (Bytes.ofNat 8 n)

def intSucc (i : ℕ) : AProg ℕ := if i + 1 < 2 ^ 31 then pure (i + 1) else fail .overflow

def countPlatforms : List Addr → AProg ℕ
  | [] => pure 0
  | provider :: providers => do
    let _ ← read .provider provider
    let n ← setCount (.platforms provider)
    let m ← countPlatforms providers
    pure (n + m)

def putPlatforms (platforms : Arg) (numEntries : ℕ) : ℕ → List Addr → AProg ℕ
  | c, [] => pure c
  | c, platform :: rest =>
    if c = numEntries then pure c
    else do
      let pf ← read .platform platform
      poke platforms (8 * c) (Bytes.word pf.globalId)
      let c ← intSucc c
      putPlatforms platforms numEntries c rest

def putPlatformsOf (platforms : Arg) (numEntries : ℕ) : ℕ → List Addr → AProg Unit
  | _, [] => pure ()
  | c, provider :: providers =>
    if c = numEntries then pure ()
    else do
      let l ← setStart (.platforms provider)
      let c ← putPlatforms platforms numEntries c l
      setFinish (.platforms provider)
      putPlatformsOf platforms numEntries c providers

/-- With load balancing a consumer sees the one platform allocated to it. -/
def claraPostClGetPlatformIDs : Handler := fun params _ source => do
  let params := params.setArg 0 clSuccess
  let numEntries := (params.argv 1).toUInt32.toNat
  let platforms := params.argv 2
  let numPlatforms := params.argv 3
  if ← loadBalancing then
    let c ← read .consumer source
    let allocated ← (if c.platform = none then lbAllocatePlatform source else pure true :
      AProg Bool)
    if allocated then
      pokeUint numPlatforms 1
      if platforms ≠ 0 then
        let c ← read .consumer source
        let platform ← deref c.platform
        let pf ← read .platform platform
        poke platforms 0 (Bytes.word pf.globalId)
    else pokeUint numPlatforms 0
    pure params
  else
    if numPlatforms ≠ 0 then
      pokeUint numPlatforms 0
      let providers ← setStart .providers
      let n ← countPlatforms providers
      pokeUint numPlatforms n
      setFinish .providers
    if platforms ≠ 0 then
      let providers ← setStart .providers
      putPlatformsOf platforms numEntries 0 providers
      setFinish .providers
    pure params

def isPlatformInfo (name : UInt32) : Bool := 0x0900 ≤ name ∧ name ≤ 0x0904

def claraPostClGetPlatformInfo : Handler := fun params _ _ => do
  let params := params.setArg 0 clSuccess
  match ← agentFindPlatformByGlobalId (params.argv 1) with
  | none => pure (params.setArg 0 clInvalidPlatform)
  | some platform =>
    let name := (params.argv 2).toUInt32
    if isPlatformInfo name then
      let pf ← read .platform platform
      let str := pf.info name
      pokeSize (params.argv 5) (str.length + 1)
      if params.argv 4 = 0 then pure params
      else if (params.argv 3).toNat < str.length + 1 then
        pure (params.setArg 0 clInvalidValue)
      else
        poke (params.argv 4) 0 (str ++ [0])
        pure params
    else pure (params.setArg 0 clInvalidValue)

def putDevices (devices : Arg) (numEntries : ℕ) (type : UInt64) : ℕ → List Addr → AProg Unit
  | _, [] => pure ()
  | b, device :: rest =>
    if b = numEntries then pure ()
    else do
      let dv ← read .device device
      if dv.type &&& type = 0 then putDevices devices numEntries type b rest
      else
        poke devices (8 * b) (Bytes.word dv.globalId)
        let b ← intSucc b
        putDevices devices numEntries type b rest

def claraPostClGetDeviceIDs : Handler := fun params _ _ => do
  let params := params.setArg 0 clSuccess
  let numDevices := params.argv 5
  pokeUint numDevices 0
  if params.argv 1 = invalidId then pure params
  else
    match ← agentFindPlatformByGlobalId (params.argv 1) with
    | none => pure (params.setArg 0 clInvalidPlatform)
    | some platform =>
      if numDevices ≠ 0 then
        let n ← setCount (.devices platform)
        pokeUint numDevices n
      if params.argv 4 ≠ 0 then
        let l ← setStart (.devices platform)
        putDevices (params.argv 4) (params.argv 3).toUInt32.toNat (params.argv 2) 0 l
        setFinish (.devices platform)
      pure params

/-- The owner has already been looked up under the original hint. -/
def claraPreClGetDeviceInfo : Handler := fun params _ _ => pure { params with hint := 0 }

/-- `CL_DEVICE_TYPE` to `CL_DEVICE_PLATFORM`; the switch has a case for each. -/
def isDeviceInfo (name : UInt32) : Bool := 0x1000 ≤ name ∧ name ≤ 0x1031

def clDeviceAvailable : UInt32 := 0x1027

def clDevicePlatform : UInt32 := 0x1031

/-- The bytes that `param_buf` points to in `clara_post_clGetDeviceInfo`. -/
def Device.value (dv : Device) (name : UInt32) : Bytes :=
  if name = clDevicePlatform then Bytes.word dv.platformId else dv.info name

/-- The conversation with the provider in `agent_device_is_available`: the `cl_bool` it yields. -/
def queryAvailable (lzo : Lzo) (fuel : ℕ) (device provider : Addr) : AProg Bytes := do
  let clFalse := Bytes.ofNat 4 0
  let dv ← read .device device
  let handle ← idCreate
  match ← agentRemoteAllocate provider ⟨handle, 1, 4, invalidHandle⟩ [] with
  | none => pure clFalse
  | some result =>
    if ← net (claraSendExecuteRequest (.provider provider) 3
        [dv.globalId, clDeviceAvailable.toUInt64, 4, result, 0] invalidHandle) then
      match ← net (claraRecvExecuteResponse (.provider provider)) with
      | none => pure clFalse
      | some retval =>
        if ← claraSendFetchRequest (.provider provider) result 4 0 none then
          let (received, buf) ← net (claraRecvFetchResponse lzo (.provider provider) fuel 4)
          pure (if received ∧ retval.toUInt32 = 0 then buf else clFalse)
        else pure clFalse
    else pure clFalse

def agentDeviceIsAvailable (lzo : Lzo) (fuel : ℕ) (device : Addr) : AProg Bytes := do
  let dv ← read .device device
  if dv.available then
    providerLock dv.provider
    let result ← queryAvailable lzo fuel device dv.provider
    providerUnlock dv.provider
    pure result
  else pure (Bytes.ofNat 4 0)

def claraPostClGetDeviceInfo (lzo : Lzo) (fuel : ℕ) : Handler := fun params _ _ => do
  let params := params.setArg 0 clSuccess
  match ← agentFindDeviceByGlobalId (params.argv 1) with
  | none => pure (params.setArg 0 clInvalidDevice)
  | some device =>
    let name := (params.argv 2).toUInt32
    if isDeviceInfo name then
      let value ← (if name = clDeviceAvailable then agentDeviceIsAvailable lzo fuel device
        else do
          let dv ← read .device device
          pure (dv.value name) : AProg Bytes)
      pokeSize (params.argv 5) value.length
      if params.argv 4 = 0 then pure params
      else if (params.argv 3).toNat < value.length then
        pure (params.setArg 0 clInvalidValue)
      else
        poke (params.argv 4) 0 value
        pure params
    else pure (params.setArg 0 clInvalidValue)

/-- What the providers answer is only written to the log. -/
def claraPostClUnloadCompiler : Handler := fun params _ _ => do
  let providers ← setStart .providers
  forEach (fun provider => do
    let _ ← agentRemoteExecute (some provider) params) providers
  setFinish .providers
  pure (params.setArg 0 clSuccess)

/-- `pre_exec_fun_table`. No entry has pointer arguments. -/
def preExecFunTable : ClFunction → Option (Handler × List ℕ)
  | .getDeviceInfo => some (claraPreClGetDeviceInfo, [])
  | .retainContext => some (agentGenericRetain .context, [])
  | .releaseContext => some (agentGenericRelease .context, [])
  | .retainCommandQueue => some (agentGenericRetain .commandqueue, [])
  | .releaseCommandQueue => some (agentGenericRelease .commandqueue, [])
  | .retainMemObject => some (agentGenericRetain .memobject, [])
  | .releaseMemObject => some (agentGenericRelease .memobject, [])
  | .retainProgram => some (agentGenericRetain .program, [])
  | .releaseProgram => some (agentGenericRelease .program, [])
  | .retainKernel => some (agentGenericRetain .kernel, [])
  | .releaseKernel => some (agentGenericRelease .kernel, [])
  | .retainEvent => some (agentGenericRetain .event, [])
  | .releaseEvent => some (agentGenericRelease .event, [])
  | .enqueueBarrier | .flush | .finish => some (agentNop, [])
  | _ => none

/-- `post_exec_fun_table`, with the numbers of the pointer arguments. -/
def postExecFunTable (lzo : Lzo) (fuel : ℕ) : ClFunction → Option (Handler × List ℕ)
  | .getPlatformIDs => some (claraPostClGetPlatformIDs, [2, 3])
  | .getPlatformInfo => some (claraPostClGetPlatformInfo, [4, 5])
  | .getDeviceIDs => some (claraPostClGetDeviceIDs, [4, 5])
  | .getDeviceInfo => some (claraPostClGetDeviceInfo lzo fuel, [4, 5])
  | .createContext | .createContextFromType | .createCommandQueue | .createBuffer
  | .createProgramWithSource | .createProgramWithBinary | .createKernel =>
    some (agentGenericCreate, [])
  | .enqueueReadBuffer | .enqueueWriteBuffer | .enqueueCopyBuffer | .enqueueNDRangeKernel =>
    some (agentGenericMapEvent 9, [])
  | .enqueueTask => some (agentGenericMapEvent 5, [])
  | .unloadCompiler => some (claraPostClUnloadCompiler, [])
  | _ => none

/-- The loop of `clara_execute` over the arguments `i`, ..., `i + n - 1`. -/
def translateArgs (idMap : GlobalId → AProg Arg) (ptrargs : List ℕ) (i : ℕ) : ℕ →
    ExecuteRequest → AProg ExecuteRequest
  | 0, params => pure params
  | n + 1, params =>
    if params.argv i ≠ 0 ∧ i ∈ ptrargs then do
      let arg ← idMap (params.argv i)
      translateArgs idMap ptrargs (i + 1) n (params.setArg i arg)
    else translateArgs idMap ptrargs (i + 1) n params

/-- Returns the request as the handler leaves it and `*retval`. -/
def claraExecute (fntbl : ClFunction → Option (Handler × List ℕ))
    (idMap : GlobalId → AProg Arg) (params : ExecuteRequest) (retval : Arg)
    (target : Option Addr) (source : Addr) : AProg (ExecuteRequest × Arg) := do
  match ClFunction.ofArg params.func with
  | none => pure (params, retval)
  | some (d, argc) =>
    match fntbl d with
    | none => pure (params, retval)
    | some (pfn, ptrargs) =>
      let params ← translateArgs idMap ptrargs 1 argc (params.setArg 0 retval)
      let params ← pfn params target source
      pure (params, params.argv 0)

end Clara.Agent
