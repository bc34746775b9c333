import Clara.Agent.Handlers
import Clara.Agent.Run
import Clara.Lib.Buffer

/-! The loop of `agent_consumer_handler`: its messages are read from the receive buffer of the
thread, which keeps what it held behind a short one. -/
namespace Clara.Agent

open Conc

/-- `AGENT_RECVBUFSZ`. -/
def recvbufsz : ℕ := 10240

/-- The request that a message of `ssz` bytes in the buffer is; others are only noted in the log.
Consumers send whole structures. -/
def ConsumerRequest.parse (buf : Buffer recvbufsz) (type : MessageType) (ssz : ℕ) :
    Option ConsumerRequest :=
  if type = Msg.allocateRequest then
    some (.allocate ⟨buf.word 0, buf.word 1, buf.word 2, buf.word 3⟩
      (buf.bytes.slice 32 (ssz - 32)))
  else if type = Msg.memputStream then
    some (.memput ⟨buf.word 0, buf.word 1, buf.word 2, buf.word 3⟩)
  else if type = Msg.executeRequest then
    some (.execute ⟨buf.word 0, buf.word 1, fun i => buf.word (2 + i), ssz / 8 - 3⟩)
  else if type = Msg.fetchRequest then
    some (.fetch ⟨buf.word 0, buf.word 1, buf.word 2, (buf.word 3).toUInt32, buf.word 4⟩)
  else none

def sctpShutdownEvent : ℕ := 0x8005

/-- One turn of the loop, and what follows the loop when it is left. -/
def agentConsumerTurn (lzo : Lzo) (fuel : ℕ) (consumer : Addr) (buf : Buffer recvbufsz) :
    AProg Unit := do
  match ← net (claraRecvmsg (.consumer consumer) recvbufsz) with
  | .failed => agentConsumerHandler lzo fuel consumer .shutdown
  | .notification msg =>
    if Bytes.toNat (msg.take 2) = sctpShutdownEvent then
      agentConsumerHandler lzo fuel consumer .shutdown
    else pure ()
  | .message type msg =>
    match ConsumerRequest.parse (buf.receive msg) type msg.length with
    | none => pure ()
    | some q => agentConsumerHandler lzo fuel consumer q

section
variable (buf : Buffer recvbufsz)

theorem parse_allocate {params : AllocateRequest} {extra : Bytes}
    (hm : 32 + extra.length ≤ recvbufsz) :
    ConsumerRequest.parse (buf.receive (params.bytes ++ extra)) Msg.allocateRequest
      (params.bytes ++ extra).length = some (.allocate params extra) := by
  have hlen : params.bytes.length = 32 := by simp [AllocateRequest.bytes]
  have hm' : (params.bytes ++ extra).length ≤ recvbufsz := by
    rw [List.length_append, hlen]
    exact hm
  have hextra : (buf.receive (params.bytes ++ extra)).bytes.slice 32
      ((params.bytes ++ extra).length - 32) = extra := by
    rw [Buffer.receive_bytes _ hm', Bytes.slice, List.append_assoc, List.drop_left' hlen,
      List.length_append, hlen, Nat.add_sub_cancel_left, List.take_left]
  have hword : ∀ {i w}, [params.handle, params.nmemb, params.size, params.hint][i]? = some w →
      (buf.receive (params.bytes ++ extra)).word i = w := fun h => buf.word_receive_words hm' h
  rw [ConsumerRequest.parse, if_pos rfl, hextra, hword (i := 0) rfl,
    hword (i := 1) rfl, hword (i := 2) rfl, hword (i := 3) rfl]

theorem parse_fetch (params : FetchRequest) :
    ConsumerRequest.parse (buf.receive params.bytes) Msg.fetchRequest params.bytes.length =
      some (.fetch params) := by
  have hbytes : params.bytes = Bytes.words [params.handle, params.size, params.hint,
      params.streamOpts.fmt.toUInt64, params.streamOpts.blksz] ++ [] := by
    simp [FetchRequest.bytes, StreamOptions.bytes, Bytes.words]
  have hm : params.bytes.length ≤ recvbufsz := by
    rw [hbytes, List.append_nil, Bytes.length_words]
    unfold recvbufsz
    simp
  have hne : Msg.fetchRequest ≠ Msg.allocateRequest ∧ Msg.fetchRequest ≠ Msg.memputStream ∧
      Msg.fetchRequest ≠ Msg.executeRequest := by decide
  rw [hbytes] at hm ⊢
  rw [ConsumerRequest.parse, if_neg hne.1, if_neg hne.2.1, if_neg hne.2.2, if_pos rfl,
    buf.word_receive_words (i := 0) hm rfl, buf.word_receive_words (i := 1) hm rfl,
    buf.word_receive_words (i := 2) hm rfl, buf.word_receive_words (i := 3) hm rfl,
    buf.word_receive_words (i := 4) hm rfl]
  simp

theorem parse_executeRequest (ssz : ℕ) :
    ∃ params, ConsumerRequest.parse buf Msg.executeRequest ssz = some (.execute params) := by
  have hne : Msg.executeRequest ≠ Msg.allocateRequest ∧
      Msg.executeRequest ≠ Msg.memputStream := by decide
  rw [ConsumerRequest.parse, if_neg hne.1, if_neg hne.2, if_pos rfl]
  exact ⟨_, rfl⟩

theorem parse_memputStream (ssz : ℕ) :
    ∃ params, ConsumerRequest.parse buf Msg.memputStream ssz = some (.memput params) := by
  have hne : Msg.memputStream ≠ Msg.allocateRequest := by decide
  rw [ConsumerRequest.parse, if_neg hne, if_pos rfl]
  exact ⟨_, rfl⟩

/-- The arguments are those of the message; what is behind them is not looked at. -/
theorem parse_execute (hint : GlobalId) (func : Arg) {args : List Arg} (hargs : args.length ≤ 12) :
    ∃ params, ConsumerRequest.parse (buf.receive (Bytes.words (hint :: func :: 0 :: args)))
        Msg.executeRequest (Bytes.words (hint :: func :: 0 :: args)).length =
          some (.execute params) ∧
      params.hint = hint ∧ params.func = func ∧ params.argv 0 = 0 ∧
      params.argc = args.length ∧ ∀ i, (h : i < args.length) → params.argv (i + 1) = args[i] := by
  have hm : (Bytes.words (hint :: func :: 0 :: args) ++ []).length ≤ recvbufsz := by
    rw [List.append_nil, Bytes.length_words]
    simp only [List.length_cons]
    unfold recvbufsz
    omega
  have hne : Msg.executeRequest ≠ Msg.allocateRequest ∧
      Msg.executeRequest ≠ Msg.memputStream := by decide
  rw [ConsumerRequest.parse, if_neg hne.1, if_neg hne.2, if_pos rfl]
  rw [← List.append_nil (Bytes.words _)]
  refine ⟨_, rfl, buf.word_receive_words (i := 0) hm rfl, buf.word_receive_words (i := 1) hm rfl,
    buf.word_receive_words (i := 2) hm rfl, ?_, fun i hi => ?_⟩
  · rw [List.append_nil, Bytes.length_words]
    simp
  · apply buf.word_receive_words hm
    rw [show 2 + (i + 1) = i + 3 by omega]
    simp [hi]

end

end Clara.Agent
