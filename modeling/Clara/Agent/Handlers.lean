import Clara.Agent.OpenCl
import Clara.Lib.Interleave

/-! `consumer_handler.c`, `provider_handler.c` and the loop of `agent_main`: what the agent's
threads do with each message, and the system of all of them. -/
namespace Clara.Agent

open Conc

/-- A message from a consumer, or the end of its connection. -/
inductive ConsumerRequest
  | allocate (params : AllocateRequest) (extra : Bytes)
  | memput (params : MemputStreamParams)
  | execute (params : ExecuteRequest)
  | fetch (params : FetchRequest)
  | shutdown

/-- A message from a provider, the next ping, or the end of its connection. -/
inductive ProviderRequest
  | platformInfo (info : PlatformInfo)
  | deviceInfo (info : DeviceInfo)
  | idle
  | ping (sec : UInt64)
  | shutdown

/-- The object that a hint names; the look-up is asserted to succeed. -/
def findHint (hint : GlobalId) (site : Assertion) : AProg Addr := do
  match ← setFind .objects hint with
  | none => fail (.assertion site)
  | some object => pure object

def executeOwner (hint : GlobalId) : AProg (Option Addr) := do
  if hint ≠ invalidHandle then
    let object ← findHint hint .executeHint
    let o ← read .object object
    pure (some o.provider)
  else pure none

def executeRemote (owner : Option Addr) (params : ExecuteRequest) (retval : Arg) : AProg Arg := do
  if owner.isSome then
    match ← agentRemoteExecute owner params with
    | none => fail (.assertion .executeRemote)
    | some retval => pure retval
  else pure retval

/-- Returns `*pretval`; the C function returns `true`. -/
def agentExecute (lzo : Lzo) (fuel : ℕ) (params : ExecuteRequest) (source : Addr) :
    AProg Arg := do
  let owner ← executeOwner params.hint
  let (params, retval) ←
    claraExecute preExecFunTable (agentIdMap source) params 0 owner source
  let retval ← executeRemote owner params retval
  let (_, retval) ←
    claraExecute (postExecFunTable lzo fuel) (agentIdMap source) params retval owner source
  pure retval

def allocateLocal (consumer : Addr) (params : AllocateRequest) (extra : Bytes) :
    AProg Addr := do
  let id ← idCreate
  let allocation ← claraCreateAllocation { params with handle := id }
  assert (← setInsert (.allocations consumer) id allocation) .allocateInsert
  if 0 < extra.length then
    assert (extra.length == (params.nmemb * params.size).toNat) .allocateExtra
    let a ← read .allocation allocation
    let ptr ← deref a.ptr
    poke (ptr2Arg (some ptr)) 0 extra
  pure allocation

/-- An allocation at the provider of the hint; the handle of a failed one is invalid. -/
def allocateRemote (params : AllocateRequest) (extra : Bytes) : AProg Handle := do
  let object ← findHint params.hint .allocateHint
  let id ← idCreate
  let o ← read .object object
  let handle ← agentRemoteAllocate o.provider { params with handle := id } extra
  pure (handle.getD invalidHandle)

/-- After a response that could not be sent; there is no local allocation to undo for a
remote one. -/
def allocateUndo (consumer : Addr) (allocation : Option Addr) : AProg Unit := do
  let allocation ← deref allocation
  let a ← read .allocation allocation
  assert (← setRemove (.allocations consumer) a.handle) .allocateUndo
  let oldHandle ← claraDestroyAllocation allocation
  assert (← idRelease oldHandle) .allocateUndo

def handleAllocate (consumer : Addr) (params : AllocateRequest) (extra : Bytes) :
    AProg Unit := do
  let _ ← read .consumer consumer
  if params.handle ≠ invalidHandle then
    let _ ← net (claraSendAllocateResponse (.consumer consumer) invalidHandle)
  else if params.hint = invalidHandle then
    let allocation ← allocateLocal consumer params extra
    let a ← read .allocation allocation
    if ← net (claraSendAllocateResponse (.consumer consumer) a.handle) then pure ()
    else allocateUndo consumer (some allocation)
  else
    let handle ← allocateRemote params extra
    if ← net (claraSendAllocateResponse (.consumer consumer) handle) then pure ()
    else allocateUndo consumer none

def handleMemput (fuel : ℕ) (consumer : Addr) (params : MemputStreamParams) : AProg Unit := do
  let object ← findHint params.hint .memputHint
  let o ← read .object object
  agentForwardMemput fuel consumer o.provider params

def handleExecute (lzo : Lzo) (fuel : ℕ) (consumer : Addr) (params : ExecuteRequest) :
    AProg Unit := do
  let retval ← agentExecute lzo fuel params consumer
  let _ ← net (claraSendExecuteResponse (.consumer consumer) retval true)

def fetchLocal (lzo : Lzo) (consumer : Addr) (params : FetchRequest) : AProg Unit := do
  let allocation ← deref (← claraFindAllocation consumer params.handle)
  let a ← read .allocation allocation
  let respbufsz := min params.size (a.nmemb * a.size)
  if 0 < params.size then
    let buf ← (if respbufsz = 0 then pure [] else do
      let ptr ← deref a.ptr
      let buf ← read .buffer ptr
      pure (buf.take respbufsz.toNat) : AProg Bytes)
    let _ ← net (claraSendFetchResponse lzo (.consumer consumer) buf params.streamOpts)
  assert (← setRemove (.allocations consumer) a.handle) .fetchRemove
  let oldHandle ← claraDestroyAllocation allocation
  assert (← idRelease oldHandle) .fetchId

def handleFetch (lzo : Lzo) (fuel : ℕ) (consumer : Addr) (params : FetchRequest) :
    AProg Unit := do
  if params.hint = invalidHandle then fetchLocal lzo consumer params
  else
    let object ← findHint params.hint .fetchHint
    let o ← read .object object
    agentForwardFetch fuel consumer o.provider params

def consumerShutdown (consumer : Addr) : AProg Unit := do
  assert (← consumerDetach consumer) .consumerDetach
  assert (← consumerDestroy consumer) .consumerDestroy
  setPhase (.consumer consumer) .finished

/-- One turn of the loop in `agent_consumer_handler`. -/
def agentConsumerHandler (lzo : Lzo) (fuel : ℕ) (consumer : Addr) :
    ConsumerRequest → AProg Unit
  | .allocate params extra => handleAllocate consumer params extra
  | .memput params => handleMemput fuel consumer params
  | .execute params => handleExecute lzo fuel consumer params
  | .fetch params => handleFetch lzo fuel consumer params
  | .shutdown => consumerShutdown consumer

def handlePlatformInfo (provider : Addr) (info : PlatformInfo) : AProg Unit := do
  let platform ← platformCreate provider info
  let pf ← read .platform platform
  assert (← setInsert (.platforms provider) pf.globalId platform) .platformInsert
  assert (← objectCreate provider pf.id pf.globalId).isSome .platformObject
  let _ ← net (claraSendmsg (.provider provider) Msg.openclPlatformId (Bytes.word pf.globalId))

def handleDeviceInfo (provider : Addr) (info : DeviceInfo) : AProg Unit := do
  let device ← deviceCreate provider info
  let dv ← read .device device
  match ← agentFindPlatformByLocalId provider dv.platformId with
  | none => fail (.assertion .devicePlatform)
  | some platform =>
    assert (← setInsert (.devices platform) dv.globalId device) .deviceInsert
    assert (← objectCreate provider dv.id dv.globalId).isSome .deviceObject
    let _ ← net (claraSendmsg (.provider provider) Msg.openclDeviceId (Bytes.word dv.globalId))

def handleIdle (provider : Addr) : AProg Unit := do
  let _ ← read .provider provider
  if ← loadBalancing then
    let platforms ← setStart (.platforms provider)
    forEach (fun platform => do
      let _ ← lbAddPlatform platform) platforms
    setFinish (.platforms provider)
  setPhase (.provider provider) .serving

def handlePing (provider : Addr) (sec : UInt64) : AProg Unit := do
  providerLock provider
  let _ ← net (claraSendmsg (.provider provider) Msg.ping (Bytes.word sec))
  let _ ← net (claraRecvmsg (.provider provider) 10000)
  providerUnlock provider

/-- The end of `agent_provider_handler`. -/
def providerShutdown (provider : Addr) : AProg Unit := do
  assert (← providerDetach provider) .providerDetach
  assert (← providerDestroy provider) .providerDestroy
  setPhase (.provider provider) .finished

def agentProviderHandler (provider : Addr) : ProviderRequest → AProg Unit
  | .platformInfo info => handlePlatformInfo provider info
  | .deviceInfo info => handleDeviceInfo provider info
  | .idle => handleIdle provider
  | .ping sec => handlePing provider sec
  | .shutdown => providerShutdown provider

def agentFindProviderWithAddr (addr : UInt32) : AProg (Option Addr) := do
  let providers ← setStart .providers
  let provider ← findFirst (fun a => do
    let p ← read .provider a
    pure (p.addr == addr)) providers
  setFinish .providers
  pure provider

/-- What a registration can fail for: `sctp_peeloff`, the memory that `provider_create` or
`consumer_create` asks for, or `pthread_create`. -/
inductive Obstacle
  | peeloff
  | memory
  | thread
  deriving DecidableEq

/-- How `agent_main` answered, and whether it goes on. -/
structure Answer where
  sd : Option Sd
  type : MessageType
  goesOn : Bool
  deriving DecidableEq

/-- Nothing can be sent on the descriptor `-1`, which is `none`. -/
def agentAnswer (sd : Option Sd) (type : MessageType) : AProg Answer :=
  match sd with
  | none => pure ⟨none, type, false⟩
  | some sd => do
    let retval ← net (claraSendmsg sd type [])
    pure ⟨some sd, type, retval.isSome⟩

/-- `provider_create` when `set_create` fails. The record only leaves its name to the descriptor. -/
def providerCreateFailed (addr : UInt32) : AProg Addr := do
  let provider ← new .provider ⟨addr, 0, false⟩
  free .provider provider
  pure provider

/-- `consumer_create` without memory. The address only names the descriptor. -/
def consumerCreateFailed : AProg Addr := do
  let consumer ← new .consumer ⟨false, none⟩
  free .consumer consumer
  pure consumer

def agentMainProvider (fails : Option Obstacle) (addr : UInt32) : AProg Answer := do
  match ← agentFindProviderWithAddr addr with
  | some _ => agentAnswer (some .listener) Msg.nack
  | none =>
    if fails = some .peeloff then agentAnswer none Msg.nack
    else if fails = some .memory then
      let provider ← providerCreateFailed addr
      agentAnswer (some (.provider provider)) Msg.nack
    else
      let provider ← providerCreate addr
      if ← providerAttach provider then
        if fails = some .thread then agentAnswer (some (.provider provider)) Msg.nack
        else
          setPhase (.provider provider) .registering
          agentAnswer (some (.provider provider)) Msg.ack
      else agentAnswer (some (.provider provider)) Msg.nack

def agentMainConsumer (fails : Option Obstacle) : AProg Answer := do
  if fails = some .peeloff then agentAnswer none Msg.nack
  else if fails = some .memory then
    let consumer ← consumerCreateFailed
    agentAnswer (some (.consumer consumer)) Msg.nack
  else
    let consumer ← consumerCreate
    if ← consumerAttach consumer then
      if fails = some .thread then agentAnswer (some (.consumer consumer)) Msg.nack
      else
        setPhase (.consumer consumer) .serving
        agentAnswer (some (.consumer consumer)) Msg.ack
    else agentAnswer (some (.consumer consumer)) Msg.nack

def agentNewProvider (addr : UInt32) : AProg Unit := do
  let _ ← agentMainProvider none addr

def agentNewConsumer : AProg Unit := do
  let _ ← agentMainConsumer none

inductive Request
  | newProvider (addr : UInt32)
  | newConsumer
  | provider (q : ProviderRequest)
  | consumer (q : ConsumerRequest)
  | arrive (sd : Sd) (i : Incoming)

def serve (lzo : Lzo) (fuel : ℕ) : Tid → Request → AProg Unit
  | .main, .newProvider addr => agentNewProvider addr
  | .main, .newConsumer => agentNewConsumer
  | .provider p, .provider q => agentProviderHandler p q
  | .consumer c, .consumer q => agentConsumerHandler lzo fuel c q
  | .network, .arrive sd i => perform (.deliver sd i)
  | _, _ => pure ()

def reaches (t : Tid) (q : Request) (s : State) : Bool :=
  match t, q with
  | .main, .newProvider _ | .main, .newConsumer => true
  | .provider p, .provider (.platformInfo _) | .provider p, .provider (.deviceInfo _)
  | .provider p, .provider .idle => s.phase (.provider p) = .registering
  | .provider p, .provider (.ping _) => s.phase (.provider p) = .serving
  | .provider p, .provider .shutdown =>
    s.phase (.provider p) = .registering ∨ s.phase (.provider p) = .serving
  | .consumer c, .consumer _ => s.phase (.consumer c) = .serving
  | .network, .arrive _ _ => true
  | _, _ => false

/-- The agent with any number of providers and consumers. -/
def system (lzo : Lzo) (fuel : ℕ) : System Op Op.Res State Fault Tid Request where
  exec := exec
  body := serve lzo fuel
  enabled := reaches

end Clara.Agent
