import Clara.Common.Api
import Clara.Consumer.Calls
import Clara.Lib.Buffer

/-! `consumer.h` and the functions in `opencl_*.c` with which the consumer library stands in for
OpenCL, as programs over the calls of `consumer.c`. A pointer to read from is `NULL` or the memory
behind it; of a pointer to write to only matters whether it is `NULL`. -/
namespace Clara.Consumer

open Conc

/-- What ends the consumer's process in the middle of a function. -/
inductive StubFault
  | assertion
  | nullPointer
  | overflow
  deriving DecidableEq

inductive Call
  | allocate (nmemb size : UInt64) (data : Option Bytes) (hint : GlobalId)
  | execute (d : Arg) (retbuflen : ℕ) (hint : GlobalId) (argv : List Arg)
  | memcpy (dst : Handle) (src : Option Bytes) (size : UInt64) (hint : GlobalId)
  | fetch (src : Handle) (dst : Bool) (n : UInt64) (hint : GlobalId)
  | fail (f : StubFault)
  deriving DecidableEq

/-- A handle; the return value of the function, unless the execution failed; and with the result of
a fetch what it stored at `dst`. -/
abbrev Call.Res : Call → Type
  | .allocate .. => Handle
  | .execute .. => Option Bytes
  | .memcpy .. => Bool
  | .fetch .. => Bool × Bytes
  | .fail _ => Empty

/-- What a call does on the connection to the agent. -/
def Call.program (lzo : Lzo) (fuel : ℕ) : (c : Call) → NetProg Unit c.Res
  | .allocate nmemb size data hint => consumerAllocate nmemb size data hint
  | .execute d retbuflen hint argv => consumerExecute d retbuflen hint argv
  | .memcpy dst src size hint => consumerMemcpy lzo dst src size hint
  | .fetch src dst n hint => consumerFetch lzo fuel src (if dst then n else 0) hint
  | .fail _ => NetProg.fail .uninitialised

abbrev CProg (α : Type) := Prog Call Call.Res α

def perform (c : Call) : CProg c.Res := Prog.perform c

def fail {α : Type} (f : StubFault) : CProg α := do
  let e ← perform (.fail f)
  nomatch e

def consumerFree (src : Handle) (hint : GlobalId) : CProg Bool := do
  let (b, _) ← perform (.fetch src false 0 hint)
  pure b

/-- `MALLOC`. -/
def malloc (var : Option Bytes) (size : UInt64) (hint : GlobalId) : CProg Handle :=
  match var with
  | none => pure invalidHandle
  | some mem => perform (.allocate 1 size (some (mem.take size.toNat)) hint)

def calloc (var : Bool) (nmemb size : UInt64) (hint : GlobalId) : CProg Handle :=
  if var then perform (.allocate nmemb size none hint) else pure invalidHandle

/-- `FETCH`. -/
def fetch (handle : Handle) (var : Bool) (size : UInt64) (hint : GlobalId) : CProg Bytes :=
  if handle ≠ invalidHandle then do
    let (_, data) ← perform (.fetch handle var size hint)
    pure data
  else pure []

/-- `FREE`. -/
def free (handle : Handle) (hint : GlobalId) : CProg Unit :=
  if handle ≠ invalidHandle then do
    let _ ← consumerFree handle hint
    pure ()
  else pure ()

/-- `MEMPUT`. -/
def memput (handle : Handle) (var : Option Bytes) (size : UInt64) (hint : GlobalId) : CProg Unit := do
  let _ ← perform (.memcpy handle (var.map fun mem => mem.take size.toNat) size hint)
  pure ()

/-- `EXECUTE`. -/
def execute (fn : ClFunction) (retbuflen : ℕ) (hint : GlobalId) (args : List Arg) :
    CProg Bytes := do
  match ← perform (.execute fn.toArg retbuflen hint args) with
  | none => fail .assertion
  | some rv => pure rv

/-- What a function returns, and what it has stored through its pointers, in their order. -/
structure Reply where
  rv : Bytes
  out : List Bytes
  deriving DecidableEq

/-- A negative `cl_int`. -/
def status (n : ℕ) : Bytes := Bytes.ofNat 4 (2 ^ 32 - n)

def clSuccess : Bytes := Bytes.ofNat 4 0
def clOutOfHostMemory : Bytes := status 6
def clInvalidValue : Bytes := status 30
def clInvalidPlatform : Bytes := status 32
def clInvalidContext : Bytes := status 34
def clInvalidCommandQueue : Bytes := status 36
def clInvalidMemObject : Bytes := status 38
def clInvalidProgram : Bytes := status 44
def clInvalidKernel : Bytes := status 48
def clInvalidEvent : Bytes := status 58

def nullObject : Bytes := Bytes.ofNat 8 0

def sizeofId : UInt64 := 8
def sizeofInt : UInt64 := 4
def sizeofSize : UInt64 := 8

/-- `DECLARE_HINT`: without a hint the function returns what it has initialised its result with. -/
def declareHint (var : Arg) (init : Bytes) (k : GlobalId → CProg Reply) : CProg Reply :=
  if var = invalidHandle then pure ⟨init, []⟩ else k var

/-- The functions that ask for information, after the declarations: the words of `lead` come before
the size. -/
def queryInfo (fn : ClFunction) (lead : List Arg) (paramValueSize : UInt64)
    (paramValue paramValueSizeRet : Bool) (hint : GlobalId) : CProg Reply := do
  let hParamValue ← calloc paramValue 1 paramValueSize hint
  let hParamValueSizeRet ← calloc paramValueSizeRet 1 sizeofSize hint
  let rv ← execute fn 4 hint (lead ++ [paramValueSize, hParamValue, hParamValueSizeRet])
  let value ← fetch hParamValue paramValue paramValueSize hint
  let size ← fetch hParamValueSizeRet paramValueSizeRet sizeofSize hint
  pure ⟨rv, [value, size]⟩

def getObjectInfo (fn : ClFunction) (object : Arg) (paramName : UInt32) (paramValueSize : UInt64)
    (paramValue paramValueSizeRet : Bool) : CProg Reply :=
  declareHint object clSuccess
    (queryInfo fn [object, paramName.toUInt64] paramValueSize paramValue paramValueSizeRet)

def objectCall (fn : ClFunction) (init : Bytes) (object : Arg) : CProg Reply :=
  declareHint object init fun hint => do
    let rv ← execute fn 4 hint [object]
    pure ⟨rv, []⟩

def strlen (s : Bytes) : ℕ := (s.takeWhile (· ≠ 0)).length

def stringSize (s : Option Bytes) : UInt64 := UInt64.ofNat (strlen (s.getD []) + 1)

def idList (l : Option (List Arg)) : Option Bytes := l.map Bytes.words

def idListSize (n : UInt32) : UInt64 := n.toUInt64 * sizeofId

/-- The arguments of `clGetPlatformIDs` and of `clGetDeviceIDs` that are refused at once. -/
def badList (numEntries : UInt32) (list num : Bool) : Bool :=
  (numEntries == 0 && list) || (!list && !num)

/-- The list of ids and their number; zero is stored as the number before the call. -/
def getIDs (fn : ClFunction) (lead : List Arg) (numEntries : UInt32) (list num : Bool) :
    CProg Reply := do
  if badList numEntries list num then pure ⟨clInvalidValue, []⟩
  else
    let hList ← calloc list numEntries.toUInt64 sizeofId invalidHandle
    let hNum ← calloc num 1 sizeofInt invalidHandle
    let rv ← execute fn 4 invalidHandle (lead ++ [numEntries.toUInt64, hList, hNum])
    let ids ← fetch hList list (idListSize numEntries) invalidHandle
    let n ← fetch hNum num sizeofInt invalidHandle
    pure ⟨rv, [ids, if num then (Bytes.ofNat 4 0).overwrite 0 n else []]⟩

def clGetPlatformIDs (numEntries : UInt32) (platforms numPlatforms : Bool) : CProg Reply :=
  getIDs .getPlatformIDs [] numEntries platforms numPlatforms

def clGetPlatformInfo (platform : Arg) (paramName : UInt32) (paramValueSize : UInt64)
    (paramValue paramValueSizeRet : Bool) : CProg Reply :=
  queryInfo .getPlatformInfo [platform, paramName.toUInt64] paramValueSize paramValue
    paramValueSizeRet invalidHandle

def clGetDeviceIDs (platform : Arg) (deviceType : UInt64) (numEntries : UInt32)
    (devices numDevices : Bool) : CProg Reply :=
  getIDs .getDeviceIDs [platform, deviceType] numEntries devices numDevices

def clGetDeviceInfo (device : Arg) (paramName : UInt32) (paramValueSize : UInt64)
    (paramValue paramValueSizeRet : Bool) : CProg Reply :=
  queryInfo .getDeviceInfo [device, paramName.toUInt64] paramValueSize paramValue
    paramValueSizeRet invalidHandle

def clContextPlatform : Arg := 0x1084

def errcodeSet (errcodeRet : Bool) (value : Bytes) : List Bytes := if errcodeRet then [value] else []

/-- The loop over the properties: the platform and the size of the list up to its end, or `none` at
a property that is not known. -/
def contextProperties : List Arg → (platformId : Arg) → (ctxPropSize : ℕ) →
    CProg (Option (Arg × ℕ))
  | 0 :: _, platformId, ctxPropSize => pure (some (platformId, ctxPropSize + 8))
  | prop :: value :: rest, _, ctxPropSize =>
    if prop = clContextPlatform then contextProperties rest value (ctxPropSize + 16) else pure none
  | [prop], _, _ => if prop = clContextPlatform then fail .overflow else pure none
  | [], _, _ => fail .overflow

def contextPlatform (properties : List Arg) : CProg (Bytes ⊕ Arg × UInt64) := do
  match ← contextProperties properties 0 0 with
  | none => pure (.inl clInvalidValue)
  | some (platformId, ctxPropSize) =>
    if platformId = 0 then pure (.inl clInvalidPlatform)
    else pure (.inr (platformId, UInt64.ofNat ctxPropSize))

def clCreateContext (properties : Option (List Arg)) (numDevices : UInt32)
    (devices : Option (List Arg)) (pfnNotify userData errcodeRet : Bool) : CProg Reply := do
  match properties with
  | none => pure ⟨nullObject, errcodeSet errcodeRet clInvalidPlatform⟩
  | some properties =>
    if devices = none ∨ numDevices = 0 then
      pure ⟨nullObject, errcodeSet errcodeRet clInvalidValue⟩
    else if pfnNotify = false ∧ userData = true then
      pure ⟨nullObject, errcodeSet errcodeRet clInvalidValue⟩
    else match ← contextPlatform properties with
    | .inl errcode => pure ⟨nullObject, errcodeSet errcodeRet errcode⟩
    | .inr (hint, ctxPropSize) =>
      let hProperties ← malloc (some (Bytes.words properties)) ctxPropSize hint
      if hProperties = invalidHandle then
        pure ⟨nullObject, errcodeSet errcodeRet clOutOfHostMemory⟩
      else
        let hDevices ← perform (.allocate numDevices.toUInt64 sizeofId
          ((idList devices).map fun mem => mem.take (idListSize numDevices).toNat) hint)
        if hDevices = invalidHandle then
          -- clCreateContext_free_h_properties
          free hProperties hint
          pure ⟨nullObject, errcodeSet errcodeRet clOutOfHostMemory⟩
        else
          let hErrcodeRet ← perform (.allocate 1 sizeofInt none hint)
          if hErrcodeRet = invalidHandle then
            -- clCreateContext_free_h_devices
            free hDevices hint
            free hProperties hint
            pure ⟨nullObject, errcodeSet errcodeRet clOutOfHostMemory⟩
          else
            let rv ← execute .createContext 8 hint
              [hProperties, numDevices.toUInt64, hDevices, 0, 0, hErrcodeRet]
            let (_, errcode) ← perform (.fetch hErrcodeRet errcodeRet sizeofInt hint)
            free hDevices hint
            free hProperties hint
            pure ⟨rv, errcodeSet errcodeRet errcode⟩

def clCreateContextFromType (properties : Option (List Arg)) (deviceType : UInt64)
    (pfnNotify userData errcodeRet : Bool) : CProg Reply := do
  match properties with
  | none => pure ⟨nullObject, errcodeSet errcodeRet clInvalidPlatform⟩
  | some properties =>
    if pfnNotify = false ∧ userData = true then
      pure ⟨nullObject, errcodeSet errcodeRet clInvalidValue⟩
    else match ← contextPlatform properties with
    | .inl errcode => pure ⟨nullObject, errcodeSet errcodeRet errcode⟩
    | .inr (hint, ctxPropSize) =>
      let hProperties ← malloc (some (Bytes.words properties)) ctxPropSize hint
      if hProperties = invalidHandle then
        pure ⟨nullObject, errcodeSet errcodeRet clOutOfHostMemory⟩
      else
        let hErrcodeRet ← perform (.allocate 1 sizeofInt none hint)
        if hErrcodeRet = invalidHandle then
          -- clCreateContextFromType_free_h_properties
          free hProperties hint
          pure ⟨nullObject, errcodeSet errcodeRet clOutOfHostMemory⟩
        else
          let rv ← execute .createContextFromType 8 hint
            [hProperties, deviceType, 0, 0, hErrcodeRet]
          let (_, errcode) ← perform (.fetch hErrcodeRet errcodeRet sizeofInt hint)
          free hProperties hint
          pure ⟨rv, errcodeSet errcodeRet errcode⟩

def clRetainContext (context : Arg) : CProg Reply :=
  objectCall .retainContext clInvalidContext context

def clReleaseContext (context : Arg) : CProg Reply :=
  objectCall .releaseContext clInvalidContext context

def clCreateCommandQueue (context device : Arg) (properties : UInt64) (errcodeRet : Bool) :
    CProg Reply :=
  declareHint context nullObject fun hint => do
    let hErrcodeRet ← calloc errcodeRet 1 sizeofInt hint
    let rv ← execute .createCommandQueue 8 hint [context, device, properties, hErrcodeRet]
    let errcode ← fetch hErrcodeRet errcodeRet sizeofInt hint
    pure ⟨rv, [errcode]⟩

def clRetainCommandQueue (commandQueue : Arg) : CProg Reply :=
  objectCall .retainCommandQueue clInvalidCommandQueue commandQueue

def clReleaseCommandQueue (commandQueue : Arg) : CProg Reply :=
  objectCall .releaseCommandQueue clInvalidCommandQueue commandQueue

def clGetCommandQueueInfo : Arg → UInt32 → UInt64 → Bool → Bool → CProg Reply :=
  getObjectInfo .getCommandQueueInfo

def clCreateBuffer (context : Arg) (flags size : UInt64) (hostPtr : Option Bytes)
    (errcodeRet : Bool) : CProg Reply :=
  declareHint context nullObject fun hint => do
    let hErrcodeRet ← calloc errcodeRet 1 sizeofInt hint
    let hHostPtr ← malloc hostPtr size hint
    let rv ← execute .createBuffer 8 hint [context, flags, size, hHostPtr, hErrcodeRet]
    let errcode ← fetch hErrcodeRet errcodeRet sizeofInt hint
    free hHostPtr hint
    pure ⟨rv, [errcode]⟩

def clEnqueueReadBuffer (commandQueue buffer : Arg) (blockingRead : UInt32) (offset cb : UInt64)
    (ptr : Bool) (numEventsInWaitList : UInt32) (eventWaitList : Option (List Arg))
    (event : Bool) : CProg Reply :=
  declareHint commandQueue clInvalidCommandQueue fun hint => do
    let hPtr ← calloc ptr 1 cb hint
    let hEventWaitList ← malloc (idList eventWaitList) (idListSize numEventsInWaitList) hint
    let hEvent ← calloc event 1 sizeofId hint
    let rv ← execute .enqueueReadBuffer 4 hint
      [commandQueue, buffer, blockingRead.toUInt64, offset, cb, hPtr, numEventsInWaitList.toUInt64,
        hEventWaitList, hEvent]
    let data ← fetch hPtr ptr cb hint
    free hEventWaitList hint
    let id ← fetch hEvent event sizeofId hint
    pure ⟨rv, [data, id]⟩

def clEnqueueWriteBuffer (commandQueue buffer : Arg) (blockingWrite : UInt32) (offset cb : UInt64)
    (ptr : Option Bytes) (numEventsInWaitList : UInt32) (eventWaitList : Option (List Arg))
    (event : Bool) : CProg Reply :=
  declareHint commandQueue clInvalidCommandQueue fun hint => do
    let hPtr ← calloc ptr.isSome 1 cb hint
    memput hPtr ptr cb hint
    let hEventWaitList ← malloc (idList eventWaitList) (idListSize numEventsInWaitList) hint
    let hEvent ← calloc event 1 sizeofId hint
    let rv ← execute .enqueueWriteBuffer 4 hint
      [commandQueue, buffer, blockingWrite.toUInt64, offset, cb, hPtr,
        numEventsInWaitList.toUInt64, hEventWaitList, hEvent]
    free hPtr hint
    free hEventWaitList hint
    let id ← fetch hEvent event sizeofId hint
    pure ⟨rv, [id]⟩

def enqueueAfter (fn : ClFunction) (lead : List Arg) (numEventsInWaitList : UInt32)
    (eventWaitList : Option (List Arg)) (event : Bool) (hint : GlobalId) : CProg Reply := do
  let hEventWaitList ← malloc (idList eventWaitList) (idListSize numEventsInWaitList) hint
  let hEvent ← calloc event 1 sizeofId hint
  let rv ← execute fn 4 hint
    (lead ++ [numEventsInWaitList.toUInt64, hEventWaitList, hEvent])
  free hEventWaitList hint
  let id ← fetch hEvent event sizeofId hint
  pure ⟨rv, [id]⟩

def clEnqueueCopyBuffer (commandQueue srcBuffer dstBuffer : Arg) (srcOffset dstOffset cb : UInt64)
    (numEventsInWaitList : UInt32) (eventWaitList : Option (List Arg)) (event : Bool) :
    CProg Reply :=
  declareHint commandQueue clInvalidCommandQueue
    (enqueueAfter .enqueueCopyBuffer
      [commandQueue, srcBuffer, dstBuffer, srcOffset, dstOffset, cb] numEventsInWaitList
      eventWaitList event)

def clRetainMemObject (memobj : Arg) : CProg Reply :=
  objectCall .retainMemObject clInvalidMemObject memobj

def clReleaseMemObject (memobj : Arg) : CProg Reply :=
  objectCall .releaseMemObject clInvalidMemObject memobj

def clGetMemObjectInfo : Arg → UInt32 → UInt64 → Bool → Bool → CProg Reply :=
  getObjectInfo .getMemObjectInfo

def givenLength (lengths : Option (List Arg)) (i : ℕ) : CProg UInt64 :=
  match lengths with
  | none => pure 0
  | some lengths =>
    match lengths[i]? with
    | none => fail .overflow
    | some len => pure len

def stringLength (string : Option Bytes) (lengths : Option (List Arg)) (i : ℕ) :
    CProg UInt64 := do
  let len ← givenLength lengths i
  if len ≠ 0 then pure len
  else match string with
  | none => fail .nullPointer
  | some string => pure (stringSize (some string))

def stringHandle (strings : List (Option Bytes)) (lengths : Option (List Arg)) (hint : GlobalId)
    (i : ℕ) : CProg Handle := do
  match strings[i]? with
  | none => fail .overflow
  | some string =>
    let len ← stringLength string lengths i
    let handle ← perform
      (.allocate len 1 (string.map fun mem => mem.take len.toNat) hint)
    if handle = invalidHandle then fail .assertion else pure handle

/-- The loop from its turn `i` on, `n` turns before its end; `i` is an `int`. -/
def stringHandles (strings : List (Option Bytes)) (lengths : Option (List Arg))
    (hint : GlobalId) : (n i : ℕ) → CProg (List Handle)
  | 0, _ => pure []
  | n + 1, i => do
    let handle ← stringHandle strings lengths hint i
    if i + 1 < 2 ^ 31 then
      let handles ← stringHandles strings lengths hint n (i + 1)
      pure (handle :: handles)
    else fail .overflow

def freeStrings (hint : GlobalId) : List Handle → CProg Unit
  | [] => pure ()
  | handle :: handles => do
    free handle hint
    freeStrings hint handles

/-- The array `strings` is not looked at when it has no entries. -/
def clCreateProgramWithSource (context : Arg) (count : UInt32)
    (strings : Option (List (Option Bytes))) (lengths : Option (List Arg)) (errcodeRet : Bool) :
    CProg Reply :=
  declareHint context nullObject fun hint => do
    if strings = none ∧ count ≠ 0 then fail .nullPointer
    else
      let hString ← stringHandles (strings.getD []) lengths hint count.toNat 0
      let hStrings ← perform
        (.allocate count.toUInt64 sizeofId (some (Bytes.words hString)) hint)
      if hStrings = invalidHandle then fail .assertion
      else
        let hLengths ← malloc (idList lengths) (idListSize count) hint
        let hErrcodeRet ← calloc errcodeRet 1 sizeofInt hint
        let rv ← execute .createProgramWithSource 8 hint
          [context, count.toUInt64, hStrings, hLengths, hErrcodeRet]
        let errcode ← fetch hErrcodeRet errcodeRet sizeofInt hint
        free hLengths hint
        freeStrings hint hString
        free hStrings hint
        pure ⟨rv, [errcode]⟩

def clRetainProgram (program : Arg) : CProg Reply :=
  objectCall .retainProgram clInvalidProgram program

def clReleaseProgram (program : Arg) : CProg Reply :=
  objectCall .releaseProgram clInvalidProgram program

/-- The callback and its data are not passed on. -/
def clBuildProgram (program : Arg) (numDevices : UInt32) (deviceList : Option (List Arg))
    (options : Option Bytes) : CProg Reply :=
  declareHint program clSuccess fun hint => do
    let hDeviceList ← malloc (idList deviceList) (idListSize numDevices) hint
    let hOptions ← malloc options (stringSize options) hint
    let rv ← execute .buildProgram 4 hint
      [program, numDevices.toUInt64, hDeviceList, hOptions, invalidHandle, invalidHandle]
    free hDeviceList hint
    free hOptions hint
    pure ⟨rv, []⟩

def clUnloadCompiler : CProg Reply := do
  let rv ← execute .unloadCompiler 4 invalidHandle []
  pure ⟨rv, []⟩

def clGetProgramInfo : Arg → UInt32 → UInt64 → Bool → Bool → CProg Reply :=
  getObjectInfo .getProgramInfo

def clGetProgramBuildInfo (program device : Arg) (paramName : UInt32) (paramValueSize : UInt64)
    (paramValue paramValueSizeRet : Bool) : CProg Reply :=
  declareHint program clSuccess
    (queryInfo .getProgramBuildInfo [program, device, paramName.toUInt64] paramValueSize paramValue
      paramValueSizeRet)

/-- The name is read with `strlen` only when there is one. -/
def clCreateKernel (program : Arg) (kernelName : Option Bytes) (errcodeRet : Bool) :
    CProg Reply :=
  declareHint program nullObject fun hint => do
    let hKernelName ← malloc kernelName (stringSize kernelName) hint
    let hErrcodeRet ← calloc errcodeRet 1 sizeofInt hint
    let rv ← execute .createKernel 8 hint [program, hKernelName, hErrcodeRet]
    free hKernelName hint
    let errcode ← fetch hErrcodeRet errcodeRet sizeofInt hint
    pure ⟨rv, [errcode]⟩

def clRetainKernel (kernel : Arg) : CProg Reply := objectCall .retainKernel clInvalidKernel kernel

def clReleaseKernel (kernel : Arg) : CProg Reply :=
  objectCall .releaseKernel clInvalidKernel kernel

def clSetKernelArg (kernel : Arg) (argIndex : UInt32) (argSize : UInt64)
    (argValue : Option Bytes) : CProg Reply :=
  declareHint kernel clInvalidKernel fun hint => do
    let hArgValue ← malloc argValue argSize hint
    let rv ← execute .setKernelArg 4 hint [kernel, argIndex.toUInt64, argSize, hArgValue]
    free hArgValue hint
    pure ⟨rv, []⟩

def clGetKernelInfo : Arg → UInt32 → UInt64 → Bool → Bool → CProg Reply :=
  getObjectInfo .getKernelInfo

def clEnqueueNDRangeKernel (commandQueue kernel : Arg) (workDim : UInt32)
    (globalWorkOffset globalWorkSize localWorkSize : Option (List Arg))
    (numEventsInWaitList : UInt32) (eventWaitList : Option (List Arg)) (event : Bool) :
    CProg Reply :=
  declareHint commandQueue clInvalidCommandQueue fun hint => do
    let hGlobalWorkOffset ← malloc (idList globalWorkOffset) (idListSize workDim) hint
    let hGlobalWorkSize ← malloc (idList globalWorkSize) (idListSize workDim) hint
    let hLocalWorkSize ← malloc (idList localWorkSize) (idListSize workDim) hint
    let hEventWaitList ← malloc (idList eventWaitList) (idListSize numEventsInWaitList) hint
    let hEvent ← calloc event 1 sizeofId hint
    let rv ← execute .enqueueNDRangeKernel 4 hint
      [commandQueue, kernel, workDim.toUInt64, hGlobalWorkOffset, hGlobalWorkSize, hLocalWorkSize,
        numEventsInWaitList.toUInt64, hEventWaitList, hEvent]
    free hGlobalWorkOffset hint
    free hGlobalWorkSize hint
    free hLocalWorkSize hint
    free hEventWaitList hint
    let id ← fetch hEvent event sizeofId hint
    pure ⟨rv, [id]⟩

def clEnqueueTask (commandQueue kernel : Arg) (numEventsInWaitList : UInt32)
    (eventWaitList : Option (List Arg)) (event : Bool) : CProg Reply :=
  declareHint commandQueue clInvalidCommandQueue
    (enqueueAfter .enqueueTask [commandQueue, kernel] numEventsInWaitList eventWaitList event)

/-- The hint is the first event, which is read without a look at the pointer. -/
def clWaitForEvents (numEvents : UInt32) (eventList : Option (List Arg)) : CProg Reply := do
  if numEvents = 0 then pure ⟨clInvalidValue, []⟩
  else match eventList with
  | none => fail .nullPointer
  | some [] => fail .overflow
  | some (event :: events) =>
    declareHint event clInvalidValue fun hint => do
      let hEventList ← malloc (idList (some (event :: events))) (idListSize numEvents) hint
      let rv ← execute .waitForEvents 4 hint [numEvents.toUInt64, hEventList]
      free hEventList hint
      pure ⟨rv, []⟩

def clGetEventInfo : Arg → UInt32 → UInt64 → Bool → Bool → CProg Reply :=
  getObjectInfo .getEventInfo

def clRetainEvent (event : Arg) : CProg Reply := objectCall .retainEvent clInvalidEvent event

def clReleaseEvent (event : Arg) : CProg Reply := objectCall .releaseEvent clInvalidEvent event

def clEnqueueMarker (commandQueue : Arg) (event : Bool) : CProg Reply :=
  declareHint commandQueue clInvalidCommandQueue fun hint => do
    let hEvent ← calloc event 1 sizeofId hint
    let rv ← execute .enqueueMarker 4 hint [commandQueue, hEvent]
    let id ← fetch hEvent event sizeofId hint
    pure ⟨rv, [id]⟩

def clEnqueueWaitForEvents (commandQueue : Arg) (numEvents : UInt32)
    (eventList : Option (List Arg)) : CProg Reply :=
  declareHint commandQueue clInvalidCommandQueue fun hint => do
    let hEventList ← malloc (idList eventList) (idListSize numEvents) hint
    let rv ← execute .enqueueWaitForEvents 4 hint [commandQueue, numEvents.toUInt64, hEventList]
    free hEventList hint
    pure ⟨rv, []⟩

def clEnqueueBarrier (commandQueue : Arg) : CProg Reply :=
  objectCall .enqueueBarrier clInvalidCommandQueue commandQueue

def clGetEventProfilingInfo (event : Arg) (paramName : UInt32) (paramValueSize : UInt64)
    (paramValue paramValueSizeRet : Bool) : CProg Reply :=
  declareHint event clInvalidEvent
    (queryInfo .getEventProfilingInfo [event, paramName.toUInt64] paramValueSize paramValue
      paramValueSizeRet)

def clFlush (commandQueue : Arg) : CProg Reply :=
  objectCall .flush clInvalidCommandQueue commandQueue

def clFinish (commandQueue : Arg) : CProg Reply :=
  objectCall .finish clInvalidCommandQueue commandQueue

end Clara.Consumer
