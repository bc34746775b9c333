import Clara.Common.Chunks
import Clara.Common.Drain
import Clara.Common.Rpc

/-! Which messages the callers of `clara_recvmsg` take for the one that they expect. The type is
compared with the caller's own variable, so it is only the length that they look at, if at all. -/
namespace Clara

open Conc

variable {Sd α : Type}

namespace Incoming

/-- It is a message of this type, and no notification. -/
def IsMessage (type : MessageType) (i : Incoming) : Prop :=
  ∃ payload, i = .record (Sent.msg type payload).record

end Incoming

/-- `stream_recv` with what the structure on its stack held before: of a message that is too short
the rest is read from there. -/
def streamRecvOver (junk : Bytes) (lzo : Lzo) (sd : Sd) (fuel len : ℕ) : NetProg Sd (ℕ × Bytes) :=
  streamRecvWith (fun b => some (readOptions (Bytes.over b junk))) lzo sd fuel len len
where
  readOptions (b : Bytes) : StreamOptions := ⟨(b.wordAt 0).toUInt32, b.wordAt 1⟩

def streamForwardOver (junk : Bytes) (sdIn sdOut : Sd) (fuel : ℕ) : NetProg Sd ℕ :=
  streamForwardWith (fun b => some (Bytes.over b junk)) sdIn sdOut fuel

section
variable [DecidableEq Sd] {net net' : Net Sd} {sd sdIn sdOut : Sd} {lzo : Lzo} {junk : Bytes}
  {i : Incoming} {later : List Incoming}

/-- With the message first on the connection the program can return something that satisfies `Q`,
whatever it needs behind it. -/
def NetAccepts (sd : Sd) (p : NetProg Sd α) (Q : α → Prop) (i : Incoming) : Prop :=
  ∃ (net net' : Net Sd) (later : List Incoming) (a : α),
    (net sd).inq = i :: later ∧ Net.run p net = .done net' a ∧ Q a

def Net.offering (i : Incoming) (later : List Incoming) : Net Sd := fun _ => ⟨i :: later, [], []⟩

theorem netAccepts_of_stored {Q : α → Prop} {f : Received → NetProg Sd α} {len : ℕ} {b : Bytes}
    (hb : i.stored len = some b) (later : List Incoming)
    (h : ∀ r, r.stored = some b →
      (Net.run (f r) ((Net.offering i later).withInq sd later)).Ends fun _ a => Q a) :
    NetAccepts sd (claraRecvmsg sd len >>= f) Q i := by
  have hq : (Net.offering i later sd).inq = i :: later := rfl
  obtain ⟨r, hrecv, hr⟩ := Net.run_claraRecvmsg_stored hq hb
  obtain ⟨net', a, hrun, ha⟩ := Outcome.ends_iff.mp (h r hr)
  refine ⟨Net.offering i later, net', later, a, hq, ?_, ha⟩
  rw [Net.run_bind, hrecv, Outcome.bind_done, hrun]

theorem NetAccepts.stored {Q : α → Prop} {f : Received → NetProg Sd α} {len : ℕ}
    (h : NetAccepts sd (claraRecvmsg sd len >>= f) Q i)
    (hf : ∀ r net net' a, r.stored = none → Net.run (f r) net = .done net' a → ¬ Q a) :
    ∃ r b, i.stored len = some b ∧ r.stored = some b ∧
      ∃ net net' a, Net.run (f r) net = .done net' a ∧ Q a := by
  obtain ⟨net, net', later, a, hq, hrun, ha⟩ := h
  rw [Net.run_bind] at hrun
  obtain ⟨net₁, r, hrecv, hrest⟩ := Outcome.bind_eq_done hrun
  cases hr : r.stored with
  | none => exact absurd ha (hf r net₁ net' a hr hrest)
  | some b => exact ⟨r, b, Net.stored_of_run hq hrecv hr, hr, net₁, net', a, hrest, ha⟩

theorem netAccepts_recvWord (sd : Sd) :
    NetAccepts sd (recvWord sd) (fun x => x.isSome) i ↔
      ∃ b, i.stored 8 = some b ∧ b.length = 8 := by
  constructor
  · intro h
    obtain ⟨r, b, hb, hr, net, net', a, hrun, ha⟩ := h.stored (by
      intro r net net' a hr hrun ha
      rw [hr] at hrun
      obtain ⟨-, rfl⟩ := Outcome.done.inj hrun
      cases ha)
    refine ⟨b, hb, ?_⟩
    by_contra hlen
    simp only [hr, if_neg hlen] at hrun
    obtain ⟨-, rfl⟩ := Outcome.done.inj hrun
    cases ha
  · rintro ⟨b, hb, hlen⟩
    refine netAccepts_of_stored hb [] fun r hr => ?_
    simp only [hr, if_pos hlen]
    exact rfl

def oneByte : Chunked := ⟨[[7]], by decide, by decide⟩

theorem netAccepts_claraRecvFetchResponse (lzo : Lzo) (sd : Sd) :
    (∃ fuel count, NetAccepts sd (claraRecvFetchResponse lzo sd fuel count)
      (fun x => x.1 = true) i) ↔ ∃ b, i.stored 8 = some b ∧ b.length = 8 := by
  constructor
  · rintro ⟨fuel, count, h⟩
    obtain ⟨r, b, hb, hr, net, net', a, hrun, ha⟩ := h.stored (by
      intro r net net' a hr hrun ha
      rw [hr] at hrun
      obtain ⟨-, rfl⟩ := Outcome.done.inj hrun
      cases ha)
    refine ⟨b, hb, ?_⟩
    by_contra hlen
    simp only [hr, beq_eq_false_iff_ne.mpr hlen, Net.run_bind, Net.run_assert_false] at hrun
    cases hrun
  · rintro ⟨b, hb, hlen⟩
    obtain ⟨later, hlater⟩ : ∃ q, q = Net.incoming (streamChunks .default [oneByte]) := ⟨_, rfl⟩
    have haccepts : StreamOptions.default.Accepts lzo StreamOptions.default.blksz.toNat 1
        [oneByte] := by
      refine ⟨?_, trivial⟩
      have hfmt : StreamOptions.default.fmt ≠ streamFormatLzo1x1 := by decide
      rw [StreamOptions.Takes, if_neg hfmt]
      decide
    have hdecoded : (StreamOptions.default.decoded lzo [oneByte]).length = 1 := rfl
    refine ⟨10, 1, netAccepts_of_stored hb later fun r hr => ?_⟩
    have hq : ((Net.offering i later).withInq sd later sd).inq =
        Net.incoming (streamChunks .default [oneByte]) ++ [] := by
      rw [Net.withInq_inq, hlater, List.append_nil]
    have hfuel : (streamChunks .default [oneByte]).length ≤ 10 := by decide
    have hstream := (run_streamRecvInto_chunks .default [oneByte] 1 1 hq hfuel).1
      ⟨haccepts, hdecoded.le⟩
    simp only [hr, hlen, beq_self_eq_true, Net.run_bind, Net.run_assert_true, Outcome.bind_done,
      streamRecv, hstream, Net.run_pure, Outcome.ends_done, hdecoded]

/-- A block with these options can decode to something. -/
def StreamOptions.Yields (lzo : Lzo) (stp : StreamOptions) : Prop :=
  if stp.fmt = streamFormatLzo1x1 then
    lzo.malloc stp.encBlksz.toNat = true ∧
      ∃ b : Bytes, b.length ≤ stp.encBlksz.toNat ∧ 0 < (lzo.decompress b).length
  else 0 < stp.blksz.toNat

omit [DecidableEq Sd] in
/-- The loop counts nothing where no block decodes to anything. -/
private theorem returns_streamRecvLoop {stp : StreamOptions} (h : ¬ stp.Yields lzo)
    (fuel room rawBlksz rem n : ℕ) (data : Bytes)
    (hraw : stp.fmt ≠ streamFormatLzo1x1 → rawBlksz = 0) :
    (streamRecvLoop lzo sd stp fuel room rawBlksz rem n data).Returns fun x => x.1 = n := by
  induction fuel generalizing room rawBlksz rem data with
  | zero =>
    intro e
    exact Empty.elim e
  | succ fuel ih =>
    rw [streamRecvLoop]
    apply Prog.Returns.bind
    intro r
    cases r with
    | failed => exact rfl
    | notification b =>
      intro e
      exact Empty.elim e
    | message type blp =>
      simp only
      split_ifs with hend hblock
      · exact rfl
      · refine Prog.Returns.bind_of (P := fun x => x.1 = 0) ?_ ?_
        · rw [StreamOptions.Yields] at h
          rw [streamRecvBlock]
          split_ifs at h ⊢ with hfmt hmalloc
          · apply Prog.Returns.bind
            intro blk
            by_cases hblk : blk.length ≤ stp.encBlksz.toNat
            · have hzero : (lzo.decompress blk).length = 0 := by
                by_contra hne
                exact h ⟨hmalloc, blk, hblk, Nat.pos_of_ne_zero hne⟩
              apply Prog.Returns.bind
              intro _
              apply Prog.Returns.bind
              intro _
              exact hzero
            · rw [decide_eq_false hblk]
              intro e
              exact Empty.elim e
          · apply Prog.Returns.bind
            intro _ e
            exact Empty.elim e
          · have hzero := hraw hfmt
            apply Prog.Returns.bind
            intro received
            apply Prog.Returns.bind
            intro _
            apply Prog.Returns.bind
            intro _
            show min rawBlksz rem = 0
            rw [hzero, Nat.zero_min]
        · rintro ⟨m, out⟩ hm
          obtain rfl : m = 0 := hm
          exact ih _ _ _ _ fun _ => rfl
      · intro e
        exact Empty.elim e

omit [DecidableEq Sd] in
/-- A block that is taken first and decodes to something. -/
private theorem StreamOptions.Yields.block {stp : StreamOptions} (h : stp.Yields lzo) :
    ∃ blk : Chunked, blk.chunks.length ≤ 1 ∧ 0 < (stp.decoded lzo [blk]).length ∧
      stp.Accepts lzo stp.blksz.toNat (stp.decoded lzo [blk]).length [blk] := by
  rw [Yields] at h
  split_ifs at h with hfmt
  · obtain ⟨hmalloc, b, hb, hpos⟩ := h
    have hlt : b.length < 2 ^ 64 := hb.trans_lt stp.encBlksz.toNat_lt
    obtain ⟨blk, hblk, hone⟩ : ∃ blk : Chunked, blk.bytes = b ∧ blk.chunks.length ≤ 1 := by
      cases b with
      | nil => exact ⟨⟨[], nofun, by decide⟩, rfl, Nat.zero_le 1⟩
      | cons x xs =>
        have hflat : [x :: xs].flatten = x :: xs := List.append_nil _
        refine ⟨⟨[x :: xs], ?_, ?_⟩, hflat, le_rfl⟩
        · intro c hc
          rw [List.mem_singleton.mp hc]
          exact List.cons_ne_nil _ _
        · rwa [hflat]
    have hdecoded : stp.decoded lzo [blk] = lzo.decompress b := by
      rw [decoded, List.flatMap_cons, List.flatMap_nil, List.append_nil, decode, if_pos hfmt, hblk]
    refine ⟨blk, hone, ?_, ?_, trivial⟩
    · rwa [hdecoded]
    · rw [Takes, if_pos hfmt, hblk]
      exact ⟨hmalloc, hb⟩
  · have hdecoded : stp.decoded lzo [oneByte] = [7] := by
      rw [decoded, List.flatMap_cons, List.flatMap_nil, List.append_nil, decode, if_neg hfmt]
      rfl
    refine ⟨oneByte, le_rfl, ?_, ?_, trivial⟩
    · rw [hdecoded]
      exact Nat.one_pos
    · rw [Takes, if_neg hfmt, hdecoded]
      show 1 = min stp.blksz.toNat 1
      omega

/-- `stream_recv` takes whatever has the options of a stream that can decode to something, be it
from the stack. -/
theorem netAccepts_streamRecvOver (lzo : Lzo) (sd : Sd) :
    (∃ junk fuel len, junk.length = 16 ∧ 0 < len ∧
      NetAccepts sd (streamRecvOver junk lzo sd fuel len) (fun x => x.1 = len) i) ↔
    ∃ b, ∃ junk : Bytes, i.stored 16 = some b ∧ junk.length = 16 ∧
      (streamRecvOver.readOptions (Bytes.over b junk)).Yields lzo := by
  constructor
  · rintro ⟨junk, fuel, len, hj, hpos, h⟩
    obtain ⟨r, b, hb, hr, net, net', a, hrun, ha⟩ := h.stored (by
      intro r net net' a hr hrun ha
      rw [hr] at hrun
      obtain ⟨-, rfl⟩ := Outcome.done.inj hrun
      exact hpos.ne ha)
    refine ⟨b, junk, hb, hj, ?_⟩
    by_contra hnot
    rw [hr] at hrun
    have hzero := Prog.Returns.run (returns_streamRecvLoop hnot fuel len
      (streamRecvOver.readOptions (Bytes.over b junk)).blksz.toNat len 0 []
      (by
        intro hfmt
        rw [StreamOptions.Yields, if_neg hfmt] at hnot
        exact Nat.eq_zero_of_not_pos hnot)) hrun
    exact hpos.ne (hzero.symm.trans ha)
  · rintro ⟨b, junk, hb, hj, hyields⟩
    obtain ⟨blk, hone, hpos, haccepts⟩ := hyields.block
    obtain ⟨stp, hstp⟩ : ∃ x, x = streamRecvOver.readOptions (Bytes.over b junk) :=
      ⟨_, rfl⟩
    rw [← hstp] at hpos haccepts
    obtain ⟨later, hlater⟩ : ∃ q, q = Net.incoming
      ([blk].flatMap Chunked.records ++ [.msg Msg.streamEnd []]) := ⟨_, rfl⟩
    refine ⟨junk, 10, (stp.decoded lzo [blk]).length, hj, hpos,
      netAccepts_of_stored hb later fun r hr => ?_⟩
    have hq : ((Net.offering i later).withInq sd later sd).inq =
        Net.incoming ([blk].flatMap Chunked.records ++ [.msg Msg.streamEnd []]) ++ [] := by
      rw [Net.withInq_inq, hlater, List.append_nil]
    have hfuel : ([blk].flatMap Chunked.records).length + 1 ≤ 10 := by
      simp only [List.flatMap_cons, List.flatMap_nil, List.append_nil, Chunked.records,
        List.length_cons, List.length_map]
      omega
    have hloop := (run_streamRecvLoop_chunks [blk] 10
      (stp.decoded lzo [blk]).length stp.blksz.toNat (stp.decoded lzo [blk]).length 0 [] [] hq
      hfuel).1 ⟨haccepts, le_rfl⟩
    simp only [hr, ← hstp, hloop, Outcome.ends_done, Nat.zero_add]

/-- `stream_forward` takes whatever it can receive, and sends it on. -/
theorem netAccepts_streamForwardOver (hne : sdIn ≠ sdOut) :
    (∃ junk fuel, junk.length = 16 ∧
      NetAccepts sdIn (streamForwardOver junk sdIn sdOut fuel) (fun n => 0 < n) i) ↔
    ∃ b, i.stored 16 = some b := by
  constructor
  · rintro ⟨junk, fuel, hj, h⟩
    obtain ⟨r, b, hb, -⟩ := h.stored (by
      intro r net net' a hr hrun ha
      cases r with
      | failed =>
        obtain ⟨-, rfl⟩ := Outcome.done.inj hrun
        exact Nat.lt_irrefl 0 ha
      | message type b => cases hr
      | notification b => cases hr)
    exact ⟨b, hb⟩
  · rintro ⟨b, hb⟩
    obtain ⟨junk, hjunk⟩ : ∃ x : Bytes, x = List.replicate 16 0 := ⟨_, rfl⟩
    have hj : junk.length = 16 := by rw [hjunk, List.length_replicate]
    have hdata : blockData [7] = [.data [7]] :=
      blockData_of_length_le (by decide) blocksize_pos
    obtain ⟨later, hlater⟩ : ∃ q, q = Net.incoming
      ([[7]].flatMap blockRecords ++ [.msg Msg.streamEnd []]) := ⟨_, rfl⟩
    have hfrom : ∀ type, (Net.run (streamForwardWith.streamForwardFrom
        (fun b => some (Bytes.over b junk)) sdIn sdOut 10 type b)
          ((Net.offering i later).withInq sdIn later)).Ends fun _ n => 0 < n := by
      intro type
      have hf : ((Net.offering i later).withInq sdIn later sdOut).sendFails = [] := by
        rw [Net.withInq_of_ne _ _ hne.symm, Net.offering]
      simp only [streamForwardWith.streamForwardFrom]
      rw [Net.run_bind, Net.run_claraSendmsg hf, Outcome.bind_done]
      simp only
      rw [run_streamForwardLoop hne 10 [[7]] 0 [] (by decide) (by rwa [Net.push_sendFails])
        (by rw [Net.push_of_ne _ _ hne, Net.withInq_inq, hlater, List.append_nil])
        (by simp [blockRecords, hdata, dataBytes])]
      simp
    refine ⟨junk, 10, hj, netAccepts_of_stored hb later fun r hr => ?_⟩
    cases r with
    | failed => cases hr
    | message type b' =>
      obtain rfl := Option.some.inj hr
      exact hfrom type
    | notification b' =>
      obtain rfl := Option.some.inj hr
      exact hfrom _

end

end Clara
