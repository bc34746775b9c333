import Clara.Common.Requests

/-! `rpc_client.c` and `rpc_server.c`: the requests and their responses, over one connection. -/
namespace Clara

open Conc

variable {Sd : Type}

def sendRequest (sd : Sd) (type : MessageType) (msg : Bytes) : NetProg Sd Bool := do
  match ← claraSendmsg sd type msg with
  | none => pure false
  | some _ => pure true

/-- The data is `NULL` or as long as `nmemb * size` says. -/
def claraSendAllocateRequest (sd : Sd) (nmemb size : UInt64) (data : Option Bytes)
    (hint : GlobalId) : NetProg Sd Bool :=
  sendRequest sd Msg.allocateRequest
    (AllocateRequest.bytes ⟨invalidHandle, nmemb, size, hint⟩ ++ data.getD [])

def recvWord (sd : Sd) : NetProg Sd (Option UInt64) := do
  match (← claraRecvmsg sd 8).stored with
  | none => pure none
  | some b => if b.length = 8 then pure (some (b.wordAt 0)) else pure none

def claraRecvAllocateResponse (sd : Sd) : NetProg Sd (Option Handle) := recvWord sd

def claraSendExecuteRequest (sd : Sd) (d : Arg) (argv : List Arg) (hint : GlobalId) :
    NetProg Sd Bool :=
  sendRequest sd Msg.executeRequest (Bytes.words (hint :: d :: 0 :: argv))

/-- An empty response says that the execution was not successful. -/
def claraRecvExecuteResponse (sd : Sd) : NetProg Sd (Option Arg) := recvWord sd

def claraSendFetchRequest (sd : Sd) (src : Handle) (n : UInt64) (hint : GlobalId)
    (opts : StreamOptions) : NetProg Sd Bool :=
  if src = invalidHandle then pure false
  else sendRequest sd Msg.fetchRequest (FetchRequest.bytes ⟨src, n, hint, opts⟩)

/-- Returns the result of the C function and the bytes it wrote to the buffer. -/
def claraRecvFetchResponse (lzo : Lzo) (sd : Sd) (fuel count : ℕ) : NetProg Sd (Bool × Bytes) := do
  match (← claraRecvmsg sd 8).stored with
  | none => pure (false, [])
  | some b =>
    NetProg.assert (b.length == 8) .fetchResponseSize
    let (bytesReceived, data) ← streamRecv lzo sd fuel count
    pure (bytesReceived == count, data)

def claraSendMapatptrRequest (sd : Sd) (virt ptr : GlobalId) : NetProg Sd Bool :=
  sendRequest sd Msg.mapatptrRequest (Bytes.words [virt, ptr])

/-- What has been stored in the structure on the stack of `clara_recv_mapatptr_response` makes it
`whole`; the length of the response is not looked at. -/
def claraRecvMapatptrResponseWith (whole : Bytes → Option Bytes) (sd : Sd) :
    NetProg Sd (Option Arg) := do
  match (← claraRecvmsg sd 8).stored with
  | none => pure none
  | some b =>
    match whole b with
    | none => .fail .uninitialised
    | some b => pure (some (b.wordAt 0))

/-- A response too short for its structure leaves the rest of it uninitialised. -/
def claraRecvMapatptrResponse (sd : Sd) : NetProg Sd (Option Arg) :=
  claraRecvMapatptrResponseWith (Bytes.whole 8) sd

def claraSendAllocateResponse (sd : Sd) (handle : Handle) : NetProg Sd Bool := do
  match ← claraSendmsg sd Msg.allocateResponse (Bytes.word handle) with
  | none => pure false
  | some ssz => pure (ssz == 8)

def claraSendExecuteResponse (sd : Sd) (retval : Arg) (successful : Bool) : NetProg Sd Bool :=
  sendRequest sd Msg.executeResponse (if successful then Bytes.word retval else [])

def claraSendFetchResponse (lzo : Lzo) (sd : Sd) (buf : Bytes) (opts : StreamOptions) :
    NetProg Sd Bool := do
  match ← claraSendmsg sd Msg.fetchResponse (Bytes.word (UInt64.ofNat buf.length)) with
  | none => pure false
  | some _ =>
    let bytesSent ← streamSend lzo sd buf (some opts)
    pure (bytesSent == buf.length)

def Responds (lzo : Lzo) (opts : StreamOptions) (out : List Sent) : Prop :=
  ∃ b : Bytes, b.length < 2 ^ 64 ∧ out =
    .msg Msg.fetchResponse (Bytes.word (UInt64.ofNat b.length)) :: streamRecords lzo opts b

def claraSendMapatptrResponse (sd : Sd) (real : Arg) : NetProg Sd Bool :=
  sendRequest sd Msg.mapatptrResponse (Bytes.word real)

section
variable [DecidableEq Sd] {net : Net Sd} {sd : Sd}

theorem Net.run_sendRequest (hf : (net sd).sendFails = []) (type : MessageType) (msg : Bytes) :
    Net.run (sendRequest sd type msg) net = .done (net.push sd [.msg type msg]) true := by
  rw [sendRequest, Net.run_bind, Net.run_claraSendmsg hf]
  rfl

theorem Net.run_claraSendAllocateResponse (hf : (net sd).sendFails = []) (handle : Handle) :
    Net.run (claraSendAllocateResponse sd handle) net =
      .done (net.push sd [.msg Msg.allocateResponse (Bytes.word handle)]) true := by
  rw [claraSendAllocateResponse, Net.run_bind, Net.run_claraSendmsg hf]
  rfl

theorem Net.run_claraSendFetchResponse {lzo : Lzo} {opts : StreamOptions}
    (hblk : 0 < opts.blksz.toNat) {b : Bytes} (hfit : opts.Fits lzo b)
    (hf : (net sd).sendFails = []) :
    Net.run (claraSendFetchResponse lzo sd b opts) net =
      .done (net.push sd (.msg Msg.fetchResponse (Bytes.word (UInt64.ofNat b.length)) ::
        streamRecords lzo opts b)) true := by
  rw [claraSendFetchResponse, Net.run_bind, Net.run_claraSendmsg hf, Outcome.bind_done]
  simp only
  rw [Net.run_bind, run_streamSend hblk hfit (by rwa [Net.push_sendFails]), Outcome.bind_done,
    Net.run_pure, Net.push_push, List.singleton_append, beq_self_eq_true]

end

end Clara
