import Clara.Agent.Object
import Clara.Common.Rpc

/-! `remote.c`, `forward.c` and the shared functions of `alloc.c`, as the agent's threads use them. -/
namespace Clara.Agent

open Conc

/-- `false` and the handle left alone is `none`. -/
def agentRemoteAllocate (provider : Addr) (params : AllocateRequest) (extra : Bytes) :
    AProg (Option Handle) := do
  providerLock provider
  match ← net (claraSendmsg (.provider provider) Msg.allocateRequest (params.bytes ++ extra)) with
  | none => pure none
  | some _ =>
    let response ← net (claraRecvmsg (.provider provider) 8)
    providerUnlock provider
    match response.stored with
    | none => pure none
    | some b =>
      assert (b.length == 8) .remoteAllocateSize
      pure (some (b.wordAt 0))

/-- `false` and the value left alone is `none`. -/
def agentRemoteExecute (provider : Option Addr) (params : ExecuteRequest) :
    AProg (Option Arg) := do
  match provider with
  | none => pure none
  | some provider =>
    providerLock provider
    match ← net (claraSendmsg (.provider provider) Msg.executeRequest params.bytes) with
    | none => pure none
    | some _ =>
      let response ← net (claraRecvmsg (.provider provider) 8)
      providerUnlock provider
      match response.stored with
      | none => pure none
      | some b =>
        assert (b.length == 8) .remoteExecuteSize
        pure (some (b.wordAt 0))

/-- What has been stored in the structures on the stacks of `agent_forward_fetch` and
`stream_forward` makes them `whole`. -/
def agentForwardFetchWith (whole : Received → Option (MessageType × Bytes))
    (wholeStart : Bytes → Option Bytes) (fuel : ℕ) (consumer provider : Addr)
    (params : FetchRequest) : AProg Unit := do
  providerLock provider
  let _ ← net (claraSendmsg (.provider provider) Msg.fetchRequest params.bytes)
  if 0 < params.size then
    match whole (← net (claraRecvmsg (.provider provider) 8)) with
    | none => fail .uninitialised
    | some (type, frp) =>
      let _ ← net (claraSendmsg (.consumer consumer) type frp)
      let _ ← net (streamForwardWith wholeStart (.provider provider) (.consumer consumer) fuel)
  providerUnlock provider

/-- A response too short for its structure leaves the rest of it uninitialised. -/
def agentForwardFetch (fuel : ℕ) (consumer provider : Addr) (params : FetchRequest) :
    AProg Unit :=
  agentForwardFetchWith wholeResponse (Bytes.whole 16) fuel consumer provider params
where
  wholeResponse : Received → Option (MessageType × Bytes)
    | .failed => none
    | .message type msg => (Bytes.whole 8 msg).map (type, ·)
    | .notification msg => (Bytes.whole 8 msg).map (Msg.fetchResponse, ·)

def agentForwardMemputWith (wholeStart : Bytes → Option Bytes) (fuel : ℕ)
    (consumer provider : Addr) (params : MemputStreamParams) : AProg Unit := do
  providerLock provider
  match ← net (claraSendmsg (.provider provider) Msg.memputStream params.bytes) with
  | none => pure ()
  | some _ =>
    let _ ← net (streamForwardWith wholeStart (.consumer consumer) (.provider provider) fuel)
  providerUnlock provider

def agentForwardMemput (fuel : ℕ) (consumer provider : Addr) (params : MemputStreamParams) :
    AProg Unit :=
  agentForwardMemputWith (Bytes.whole 16) fuel consumer provider params

/-- `clara_send_fetch_request` with stream options that are copied from wherever `opts` points. -/
def claraSendFetchRequest (sd : Sd) (src : Handle) (n : UInt64) (hint : GlobalId)
    (opts : Option StreamOptions) : AProg Bool := do
  if src = invalidHandle then pure false
  else
    let opts ← deref opts
    net (Clara.claraSendFetchRequest sd src n hint opts)

def findFirst (test : Addr → AProg Bool) : List Addr → AProg (Option Addr)
  | [] => pure none
  | a :: as => do
    if ← test a then pure (some a) else findFirst test as

/-- `calloc`, which returns `NULL` when the product overflows or the memory is used up. -/
def calloc (nmemb size : UInt64) : AProg (Option Addr) := do
  if nmemb.toNat * size.toNat < 2 ^ 64 then
    if ← memory (nmemb.toNat * size.toNat) then
      let ptr ← new .buffer (List.replicate (nmemb.toNat * size.toNat) 0)
      pure (some ptr)
    else pure none
  else pure none

def claraCreateAllocation (params : AllocateRequest) : AProg Addr := do
  let ptr ← calloc params.nmemb params.size
  new .allocation ⟨params.handle, params.nmemb, params.size, ptr⟩

def claraFindAllocation (consumer : Addr) (handle : Handle) : AProg (Option Addr) := do
  let allocations ← setStart (.allocations consumer)
  let allocation ← findFirst (fun a => do
    let allocation ← read .allocation a
    pure (allocation.handle == handle)) allocations
  setFinish (.allocations consumer)
  pure allocation

def claraDestroyAllocation (allocation : Addr) : AProg Handle := do
  let a ← read .allocation allocation
  match a.ptr with
  | none => pure ()
  | some ptr => free .buffer ptr
  free .allocation allocation
  pure a.handle

def ptr2Arg : Option Addr → Arg
  | none => 0
  | some a => UInt64.ofNat a

/-- A store through a pointer that `agent_id_map` has produced. -/
def poke (ptr : Arg) (off : ℕ) (b : Bytes) : AProg Unit := do
  let buf ← read .buffer ptr.toNat
  if off + b.length ≤ buf.length then store .buffer ptr.toNat (off, b)
  else fail .overflow

def agentIdMap (consumer : Addr) (id : GlobalId) : AProg Arg := do
  match ← claraFindAllocation consumer id with
  | none => fail (.assertion .idMapAllocation)
  | some allocation =>
    let allocation ← read .allocation allocation
    pure (ptr2Arg allocation.ptr)

end Clara.Agent
