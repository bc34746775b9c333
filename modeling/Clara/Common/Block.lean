import Clara.Common.Net

/-! `block.c`: a block is a header with its length and then its bytes, at most `BLOCKSIZE` of
them to a record. -/
namespace Clara

open Conc

variable {Sd : Type}

@[irreducible] def blocksize : ℕ := 1024

theorem blocksize_pos : 0 < blocksize := by
  unfold blocksize
  decide

def blockParams (length : ℕ) : Bytes := Bytes.word (UInt64.ofNat length)

def blockSendLoop (sd : Sd) : (fuel blocksize : ℕ) → (ptr : Bytes) → (bytesSent : ℕ) →
    NetProg Sd ℕ
  | _, _, [], bytesSent => pure bytesSent
  | 0, _, _ :: _, _ => .spin
  | fuel + 1, blocksize, ptr, bytesSent => do
    let blocksize := min blocksize ptr.length
    match ← claraSend sd (ptr.take blocksize) with
    | none => pure bytesSent
    | some ssz => blockSendLoop sd fuel blocksize (ptr.drop ssz) (bytesSent + ssz)

/-- A send that succeeds sends at least one byte, so there are at most as many as bytes. -/
def blockSend (sd : Sd) (data : Bytes) : NetProg Sd ℕ := do
  match ← claraSendmsg sd Msg.block (blockParams data.length) with
  | none => pure 0
  | some _ => blockSendLoop sd data.length blocksize data 0

def blockRecvLoop (sd : Sd) : (fuel remainingBytes : ℕ) → (ptr : Bytes) → NetProg Sd Bytes
  | _, 0, ptr => pure ptr
  | 0, _ + 1, _ => .spin
  | fuel + 1, remainingBytes, ptr => do
    match ← claraRecv sd remainingBytes with
    | none => pure ptr
    | some msg => blockRecvLoop sd fuel (remainingBytes - msg.length) (ptr ++ msg)

/-- Returns the bytes written to the buffer, whose number is the C function's result. -/
def blockRecv (sd : Sd) (fuel len : ℕ) (length : UInt64) : NetProg Sd Bytes := do
  NetProg.assert (decide (length.toNat ≤ len)) .blockBufferTooSmall
  blockRecvLoop sd fuel length.toNat []

/-- `block_recv` to `NULL`: the first record cannot be stored, which ends its loop. -/
def blockRecvNull (sd : Sd) (len : ℕ) (length : UInt64) : NetProg Sd Unit := do
  NetProg.assert (decide (length.toNat ≤ len)) .blockBufferTooSmall
  if length = 0 then pure ()
  else
    let _ ← claraRecv sd length.toNat
    pure ()

def blockForwardSend (sdOut : Sd) : (fuel : ℕ) → (ptr : Bytes) → (bytesForwarded : ℕ) →
    NetProg Sd (Bool × ℕ)
  | _, [], bytesForwarded => pure (true, bytesForwarded)
  | 0, _ :: _, _ => .spin
  | fuel + 1, ptr, bytesForwarded => do
    match ← claraSend sdOut ptr with
    | none => pure (false, bytesForwarded)
    | some ssz => blockForwardSend sdOut fuel (ptr.drop ssz) (bytesForwarded + ssz)

def blockForwardLoop (sdIn sdOut : Sd) : (fuel blocksize remainingBytes bytesForwarded : ℕ) →
    NetProg Sd ℕ
  | _, _, 0, bytesForwarded => pure bytesForwarded
  | 0, _, _ + 1, _ => .spin
  | fuel + 1, blocksize, remainingBytes, bytesForwarded => do
    let blocksize := min blocksize remainingBytes
    match ← claraRecv sdIn blocksize with
    | none => pure bytesForwarded
    | some buf =>
      match ← blockForwardSend sdOut buf.length buf bytesForwarded with
      | (false, forwarded) => pure forwarded
      | (true, forwarded) =>
        blockForwardLoop sdIn sdOut fuel blocksize (remainingBytes - buf.length) forwarded

def blockForward (sdIn sdOut : Sd) (fuel : ℕ) (length : UInt64) : NetProg Sd ℕ := do
  match ← claraSendmsg sdOut Msg.block (Bytes.word length) with
  | none => pure 0
  | some _ => blockForwardLoop sdIn sdOut fuel blocksize length.toNat 0

def blockData (data : Bytes) : List Sent := (data.pieces blocksize).map .data

def blockRecords (data : Bytes) : List Sent :=
  .msg Msg.block (blockParams data.length) :: blockData data

theorem blockData_of_ne {data : Bytes} (h : data ≠ []) :
    blockData data = .data (data.take blocksize) :: blockData (data.drop blocksize) := by
  rw [blockData, List.pieces_of_ne blocksize_pos h, List.map_cons, blockData]

@[simp] theorem blockData_nil : blockData [] = [] := by simp [blockData]

theorem blockData_of_length_le {data : Bytes} (h : data ≠ []) (hlen : data.length ≤ blocksize) :
    blockData data = [.data data] := by
  rw [blockData_of_ne h, List.take_of_length_le hlen, List.drop_of_length_le hlen, blockData_nil]

theorem blockSendLoop_of_ne {ptr : Bytes} (h : ptr ≠ []) (sd : Sd) (fuel bs n : ℕ) :
    blockSendLoop sd (fuel + 1) bs ptr n = claraSend sd (ptr.take (min bs ptr.length)) >>=
      fun ssz => match ssz with
        | none => pure n
        | some ssz => blockSendLoop sd fuel (min bs ptr.length) (ptr.drop ssz) (n + ssz) := by
  cases ptr with
  | nil => exact absurd rfl h
  | cons b ptr => rfl

theorem blockRecvLoop_of_pos {n : ℕ} (h : 0 < n) (sd : Sd) (fuel : ℕ) (ptr : Bytes) :
    blockRecvLoop sd (fuel + 1) n ptr = claraRecv sd n >>= fun msg => match msg with
      | none => pure ptr
      | some msg => blockRecvLoop sd fuel (n - msg.length) (ptr ++ msg) := by
  cases n with
  | zero => exact absurd h (Nat.lt_irrefl 0)
  | succ n => rfl

section
variable [DecidableEq Sd] {net : Net Sd} {sd : Sd}

private theorem run_blockSendLoop (fuel bs : ℕ) (ptr : Bytes) (bytesSent : ℕ)
    (hf : (net sd).sendFails = []) (hfuel : ptr.length ≤ fuel)
    (hbs : min bs ptr.length = min blocksize ptr.length) :
    Net.run (blockSendLoop sd fuel bs ptr bytesSent) net =
      .done (net.push sd (blockData ptr)) (bytesSent + ptr.length) := by
  induction fuel generalizing net bs ptr bytesSent with
  | zero =>
    obtain rfl := List.eq_nil_of_length_eq_zero (Nat.le_zero.mp hfuel)
    simp [blockSendLoop]
  | succ fuel ih =>
    rcases eq_or_ne ptr [] with rfl | hne
    · simp [blockSendLoop]
    have hpos := List.length_pos_iff.mpr hne
    have hbpos := blocksize_pos
    have htake : ptr.take (min blocksize ptr.length) = ptr.take blocksize :=
      List.take_eq_take_min.symm
    have hlen : (ptr.take blocksize).length = min blocksize ptr.length := List.length_take
    have hdrop : ptr.drop (min blocksize ptr.length) = ptr.drop blocksize := by
      rcases le_total blocksize ptr.length with h | h
      · rw [min_eq_left h]
      · rw [min_eq_right h, List.drop_length, List.drop_of_length_le h]
    have hrest : (ptr.drop blocksize).length = ptr.length - blocksize := List.length_drop
    rw [blockSendLoop_of_ne hne, Net.run_bind, Net.run_claraSend hf, Outcome.bind_done, hbs, htake]
    simp only [hlen, hdrop]
    rw [ih _ _ _ (by simpa using hf) (by omega) (by omega), Net.push_push, hrest,
      blockData_of_ne hne, List.singleton_append]
    congr 1
    omega

theorem run_blockSend (data : Bytes) (hf : (net sd).sendFails = []) :
    Net.run (blockSend sd data) net =
      .done (net.push sd (blockRecords data)) data.length := by
  rw [blockSend, Net.run_bind, Net.run_claraSendmsg hf, Outcome.bind_done]
  simp only
  rw [run_blockSendLoop _ _ _ _ (by simpa using hf) le_rfl rfl, Net.push_push, Nat.zero_add]
  rfl

private theorem run_blockRecvLoop (fuel : ℕ) (data ptr : Bytes) (q : List Incoming)
    (hq : (net sd).inq = Net.incoming (blockData data) ++ q)
    (hfuel : data.length ≤ fuel) :
    Net.run (blockRecvLoop sd fuel data.length ptr) net =
      .done (net.withInq sd q) (ptr ++ data) := by
  induction fuel generalizing net data ptr with
  | zero =>
    obtain rfl := List.eq_nil_of_length_eq_zero (Nat.le_zero.mp hfuel)
    rw [blockData_nil, Net.incoming_nil, List.nil_append] at hq
    simp [blockRecvLoop, Net.withInq_self hq]
  | succ fuel ih =>
    rcases eq_or_ne data [] with rfl | hne
    · rw [blockData_nil, Net.incoming_nil, List.nil_append] at hq
      simp [blockRecvLoop, Net.withInq_self hq]
    have hpos := List.length_pos_iff.mpr hne
    have hbpos := blocksize_pos
    have hlen : (data.take blocksize).length = min blocksize data.length := List.length_take
    have hrest : (data.drop blocksize).length = data.length - blocksize := List.length_drop
    rw [blockData_of_ne hne, Net.incoming_cons, List.cons_append] at hq
    rw [blockRecvLoop_of_pos hpos, Net.run_bind,
      Net.run_claraRecv hq (by rw [Sent.record, hlen]; exact min_le_right _ _), Outcome.bind_done]
    simp only [Sent.record]
    rw [show data.length - (data.take blocksize).length = (data.drop blocksize).length by omega,
      ih _ _ (Net.withInq_inq ..) (by omega), Net.withInq_withInq, List.append_assoc,
      List.take_append_drop]

/-- `block_recv` reads exactly the data records of the block it has the length of. -/
theorem run_blockRecv {fuel len : ℕ} {data : Bytes} {q : List Incoming}
    (hq : (net sd).inq = Net.incoming (blockData data) ++ q) (hfuel : data.length ≤ fuel)
    (hlen : data.length ≤ len) (hsize : data.length < 2 ^ 64) :
    Net.run (blockRecv sd fuel len (UInt64.ofNat data.length)) net =
      .done (net.withInq sd q) data := by
  have hn : (UInt64.ofNat data.length).toNat = data.length := by
    rw [UInt64.toNat_ofNat', Nat.mod_eq_of_lt hsize]
  rw [blockRecv, Net.run_bind, hn, decide_eq_true hlen, Net.run_assert_true, Outcome.bind_done,
    run_blockRecvLoop fuel data [] q hq hfuel, List.nil_append]

/-- To `NULL` no block is received, and its buffer is read all the same. -/
theorem run_blockRecvNull {len : ℕ} {length : UInt64} {α : Type} {f : NetFault}
    (hq : length ≠ 0 → ∃ r q, (net sd).inq = .record r :: q ∧ r.length ≤ length.toNat) :
    Net.run (blockRecvNull sd len length >>= fun _ => (NetProg.fail f : NetProg Sd α)) net =
      .fault (if length.toNat ≤ len then f else .blockBufferTooSmall) := by
  rw [blockRecvNull, Net.run_bind, Net.run_bind]
  by_cases hlen : length.toNat ≤ len
  · rw [if_pos hlen, decide_eq_true hlen, Net.run_assert_true, Outcome.bind_done]
    split_ifs with h0
    · rfl
    · obtain ⟨r, q, hinq, hr⟩ := hq h0
      rw [Net.run_bind, Net.run_claraRecv hinq hr]
      rfl
  · rw [if_neg hlen, decide_eq_false hlen]
    rfl

theorem run_blockRecv_tooLong {len : ℕ} {data : Bytes} (hlen : len < data.length)
    (hsize : data.length < 2 ^ 64) (fuel : ℕ) :
    Net.run (blockRecv sd fuel len (UInt64.ofNat data.length)) net =
      .fault .blockBufferTooSmall := by
  have hn : (UInt64.ofNat data.length).toNat = data.length := by
    rw [UInt64.toNat_ofNat', Nat.mod_eq_of_lt hsize]
  have hfalse : decide (data.length ≤ len) = false := decide_eq_false (by omega)
  rw [blockRecv, Net.run_bind, hn, hfalse, Net.run_assert_false, Outcome.bind_fault]

end

end Clara
