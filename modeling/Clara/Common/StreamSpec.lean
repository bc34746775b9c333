import Clara.Common.Rpc

/-! What a stream comes to at its two ends when the peer chooses the block size and the length
of the data: whether the sender stops, whether the buffers for compressed blocks are large
enough, and what the receiver makes of a stream of another length than its buffer. -/
namespace Clara

open Conc

variable {Sd : Type}

/-- `clara_send_fetch_response` comes to an end, and what it has sent is a stream with the blocks
of pieces whose lengths sum to that of the buffer. -/
def SendsWhole [DecidableEq Sd] (lzo : Lzo) (sd : Sd) (buf : Bytes) (opts : StreamOptions)
    (net : Net Sd) : Prop :=
  ∃ raws : List Bytes, (raws.map List.length).sum = buf.length ∧
    Net.run (claraSendFetchResponse lzo sd buf opts) net =
      .done (net.push sd
        (.msg Msg.fetchResponse (Bytes.word (UInt64.ofNat buf.length)) ::
          .msg Msg.streamStart opts.bytes ::
          ((raws.flatMap fun raw => blockRecords (opts.encode lzo raw)) ++
            [.msg Msg.streamEnd []]))) true

section
variable [DecidableEq Sd] {net : Net Sd} {sd : Sd} {lzo : Lzo} {opts : StreamOptions}

theorem sum_length_pieces {n : ℕ} {data : Bytes} (hn : data ≠ [] → 0 < n) :
    ((data.pieces n).map List.length).sum = data.length := by
  rcases eq_or_ne data [] with rfl | hne
  · simp
  · rw [← List.length_flatten, List.flatten_pieces (hn hne)]

private theorem run_sendFetchResponse (hf : (net sd).sendFails = []) (lzo : Lzo) (buf : Bytes)
    (opts : StreamOptions) :
    Net.run (claraSendFetchResponse lzo sd buf opts) net =
      (Net.run (streamSend lzo sd buf (some opts))
        (net.push sd [.msg Msg.fetchResponse (Bytes.word (UInt64.ofNat buf.length))])).bind
          fun net n => .done net (n == buf.length) := by
  rw [claraSendFetchResponse, Net.run_bind, Net.run_claraSendmsg hf, Outcome.bind_done]
  simp only
  rw [Net.run_bind]
  rfl

theorem run_streamSend_nil (hf : (net sd).sendFails = []) :
    Net.run (streamSend lzo sd [] (some opts)) net =
      .done (net.push sd (streamRecords lzo opts [])) 0 := by
  rw [streamSend, Net.run_bind, Option.getD_some, Net.run_claraSendmsg hf, Outcome.bind_done]
  simp only [streamSendLoop, Net.run_bind, Net.run_pure, Outcome.bind_done]
  rw [Net.run_claraSendmsg (by simpa using hf), Outcome.bind_done, Net.push_push, streamRecords,
    streamBlocks_nil]
  rfl

/-- A block size of zero is taken from the message as it is, and the loop never ends. -/
theorem run_streamSend_zero (hl : lzo.Correct) (h0 : opts.blksz = 0) (hm : opts.Buffered lzo)
    {data : Bytes}
    (hne : data ≠ []) (hf : (net sd).sendFails = []) :
    Net.run (streamSend lzo sd data (some opts)) net = .blocked := by
  have hbuf : opts.encBlksz.toNat = 67 := by
    rw [StreamOptions.toNat_encBlksz (by rw [h0]; decide), h0]
    rfl
  have hempty : opts.fmt = streamFormatLzo1x1 → lzo.malloc opts.encBlksz.toNat = true ∧
      (lzo.compress []).length ≤ opts.encBlksz.toNat := by
    intro hfmt
    refine ⟨hm hfmt, ?_⟩
    rw [hbuf]
    exact hl.length_le []
  have hzero : opts.blksz.toNat = 0 := by rw [h0]; rfl
  rw [streamSend, Net.run_bind, Option.getD_some, Net.run_claraSendmsg hf, Outcome.bind_done]
  simp only [hzero]
  rw [Net.run_bind, run_streamSendLoop_zero hne hempty (by simpa using hf),
    Outcome.bind_blocked]

/-- Without a buffer the first block ends `stream_send`, whatever the block size. -/
theorem run_streamSend_unbuffered (hm : ¬ opts.Buffered lzo) {data : Bytes} (hne : data ≠ [])
    (hf : (net sd).sendFails = []) :
    Net.run (streamSend lzo sd data (some opts)) net = .fault .nullPointer := by
  obtain ⟨hfmt, hmalloc⟩ := Classical.not_imp.mp hm
  obtain ⟨n, hn⟩ : ∃ n, data.length = n + 1 :=
    Nat.exists_eq_add_one.mpr (List.length_pos_iff.mpr hne)
  rw [streamSend, Net.run_bind, Option.getD_some, Net.run_claraSendmsg hf, Outcome.bind_done]
  simp only
  rw [hn, streamSendLoop_of_ne hne, streamSendBlock, if_pos hfmt, Bool.eq_false_iff.mpr hmalloc]
  rfl

/-- `stream_send` goes on for ever when it is asked for blocks of no bytes and has a buffer for
them; and it stops with the whole of the data sent unless there is no buffer for compressed blocks
or one of them is larger than that. -/
theorem claraSendFetchResponse_sendsWhole_iff (hl : lzo.Correct) (hf : (net sd).sendFails = [])
    (buf : Bytes) (opts : StreamOptions) :
    (Net.run (claraSendFetchResponse lzo sd buf opts) net = .blocked ↔
      buf ≠ [] ∧ opts.blksz = 0 ∧ opts.Buffered lzo) ∧
    (SendsWhole lzo sd buf opts net ↔
      buf = [] ∨ 0 < opts.blksz ∧ opts.Fits lzo buf) := by
  have hf' : (net.push sd [.msg Msg.fetchResponse
      (Bytes.word (UInt64.ofNat buf.length))] sd).sendFails = [] := by
    rwa [Net.push_sendFails]
  have hpos : 0 < opts.blksz ↔ 0 < opts.blksz.toNat := UInt64.lt_iff_toNat_lt
  have hwhole : (buf ≠ [] → 0 < opts.blksz.toNat) → Net.run (streamSend lzo sd buf (some opts))
      (net.push sd [.msg Msg.fetchResponse (Bytes.word (UInt64.ofNat buf.length))]) =
        .done ((net.push sd [.msg Msg.fetchResponse
          (Bytes.word (UInt64.ofNat buf.length))]).push sd (streamRecords lzo opts buf))
            buf.length → SendsWhole lzo sd buf opts net := by
    intro hb hrun
    refine ⟨buf.pieces opts.blksz.toNat, sum_length_pieces hb, ?_⟩
    rw [run_sendFetchResponse hf, hrun, Outcome.bind_done, Net.push_push, beq_self_eq_true]
    rfl
  have hdone : SendsWhole lzo sd buf opts net →
      Net.run (claraSendFetchResponse lzo sd buf opts) net ≠ .blocked := by
    rintro ⟨raws, -, hrun⟩ hblocked
    rw [hrun] at hblocked
    cases hblocked
  have hstop : ∀ f, Net.run (claraSendFetchResponse lzo sd buf opts) net = .fault f →
      Net.run (claraSendFetchResponse lzo sd buf opts) net ≠ .blocked ∧
        ¬ SendsWhole lzo sd buf opts net := by
    intro f hfault
    rw [SendsWhole, hfault]
    constructor
    · intro hrun
      cases hrun
    · rintro ⟨raws, -, hrun⟩
      cases hrun
  rcases eq_or_ne buf [] with rfl | hne
  · have hsends := hwhole (fun h => absurd rfl h) (run_streamSend_nil hf')
    exact ⟨iff_of_false (hdone hsends) fun h => h.1 rfl, iff_of_true hsends (.inl rfl)⟩
  rcases Nat.eq_zero_or_pos opts.blksz.toNat with h0 | hb
  · have h0 : opts.blksz = 0 := UInt64.toNat_inj.mp h0
    have hnot : ¬ (buf = [] ∨ 0 < opts.blksz ∧ opts.Fits lzo buf) := by
      rintro (h | ⟨h, -⟩)
      · exact hne h
      · rw [h0] at h
        exact absurd h (by decide)
    by_cases hm : opts.Buffered lzo
    · have hspin : Net.run (claraSendFetchResponse lzo sd buf opts) net = .blocked := by
        rw [run_sendFetchResponse hf, run_streamSend_zero hl h0 hm hne hf', Outcome.bind_blocked]
      exact ⟨iff_of_true hspin ⟨hne, h0, hm⟩, iff_of_false (fun h => hdone h hspin) hnot⟩
    · have hnull : Net.run (claraSendFetchResponse lzo sd buf opts) net = .fault .nullPointer := by
        rw [run_sendFetchResponse hf, run_streamSend_unbuffered hm hne hf', Outcome.bind_fault]
      obtain ⟨hends, hnone⟩ := hstop _ hnull
      exact ⟨iff_of_false hends fun h => hm h.2.2, iff_of_false hnone hnot⟩
  have hne0 : ¬ (buf ≠ [] ∧ opts.blksz = 0 ∧ opts.Buffered lzo) := by
    rintro ⟨-, h0, -⟩
    rw [h0] at hb
    exact absurd hb (by decide)
  by_cases hfit : opts.Fits lzo buf
  · have hsends := hwhole (fun _ => hb) (run_streamSend hb hfit hf')
    exact ⟨iff_of_false (hdone hsends) hne0, iff_of_true hsends (.inr ⟨hpos.mpr hb, hfit⟩)⟩
  · have hover : Net.run (claraSendFetchResponse lzo sd buf opts) net =
        .fault (opts.sendFault lzo) := by
      rw [run_sendFetchResponse hf, run_streamSend_overflow hb hfit hf', Outcome.bind_fault]
    obtain ⟨hends, hnone⟩ := hstop _ hover
    refine ⟨iff_of_false hends hne0, iff_of_false hnone ?_⟩
    rintro (h | ⟨-, h⟩)
    · exact hne h
    · exact hfit h

end

theorem claraSendFetchResponse_sendsWhole_iff_two_bytes :
    (Net.run (claraSendFetchResponse literalLzo () [1, 2] ⟨streamFormatLzo1x1, 1⟩)
        (Net.wire [] []) = .blocked ↔ ([1, 2] : Bytes) ≠ [] ∧ (1 : UInt64) = 0 ∧
          StreamOptions.Buffered literalLzo ⟨streamFormatLzo1x1, 1⟩) ∧
      (SendsWhole literalLzo () [1, 2] ⟨streamFormatLzo1x1, 1⟩ (Net.wire [] []) ↔
        ([1, 2] : Bytes) = [] ∨ (0 : UInt64) < 1 ∧
          StreamOptions.Fits literalLzo ⟨streamFormatLzo1x1, 1⟩ [1, 2]) :=
  claraSendFetchResponse_sendsWhole_iff literalLzo_correct rfl [1, 2] ⟨streamFormatLzo1x1, 1⟩

/-- One byte asked for in blocks of no bytes. -/
theorem not_sendsWhole_zero :
    ¬ SendsWhole literalLzo () [1] ⟨streamFormatRaw, 0⟩ (Net.wire [] []) := by
  rintro ⟨raws, -, hrun⟩
  have hspin : Net.run (claraSendFetchResponse literalLzo () [1] ⟨streamFormatRaw, 0⟩)
      (Net.wire [] []) = .blocked := by
    rw [run_sendFetchResponse rfl, run_streamSend_zero literalLzo_correct rfl (by decide)
      (by decide) rfl, Outcome.bind_blocked]
  rw [hspin] at hrun
  cases hrun

namespace StreamOptions

/-- The buffer of a compressed block is large enough for data of `len` bytes: its size does not
wrap around, or wraps around to something that is still enough. -/
def Ample (stp : StreamOptions) (len : ℕ) : Prop :=
  len = 0 ∨ stp.blksz.toNat + stp.blksz.toNat / 16 + 67 < 2 ^ 64 ∨
    len + len / 16 + 2 ^ 64 ≤ stp.blksz.toNat + stp.blksz.toNat / 16

variable {stp : StreamOptions}

theorem toNat_encBlksz_eq (stp : StreamOptions) : stp.encBlksz.toNat =
    (((stp.blksz.toNat + stp.blksz.toNat / 16) % 2 ^ 64 + 64) % 2 ^ 64 + 3) % 2 ^ 64 := by
  simp only [encBlksz, UInt64.toNat_add, UInt64.toNat_div, UInt64.reduceToNat]

theorem le_encBlksz_iff {len : ℕ} (hpos : 0 < len) :
    min stp.blksz.toNat len + min stp.blksz.toNat len / 16 + 67 ≤ stp.encBlksz.toNat ↔
      stp.Ample len := by
  have hlt := stp.blksz.toNat_lt
  rw [toNat_encBlksz_eq, Ample]
  rcases le_total stp.blksz.toNat len with h | h
  · rw [min_eq_left h]
    omega
  · rw [min_eq_right h]
    omega

theorem ample_zero (h0 : stp.blksz.toNat = 0) (len : ℕ) : stp.Ample len := by
  right
  left
  omega

/-- Where the size of the buffer wraps around it is far from the end of its range. -/
theorem encBlksz_lt {len : ℕ} (h : ¬ stp.Ample len) : stp.encBlksz.toNat + 1 < 2 ^ 64 := by
  have hlt := stp.blksz.toNat_lt
  have hwrap : 2 ^ 64 ≤ stp.blksz.toNat + stp.blksz.toNat / 16 + 67 := by
    by_contra hle
    exact h (.inr (.inl (by omega)))
  rw [toNat_encBlksz_eq]
  omega

theorem Ample.le_encBlksz {data : Bytes} (h : stp.Ample data.length) {raw : Bytes}
    (hlen : raw.length ≤ min stp.blksz.toNat data.length) (hpos : 0 < data.length) :
    raw.length + raw.length / 16 + 67 ≤ stp.encBlksz.toNat := by
  have hmax := (le_encBlksz_iff hpos).mpr h
  omega

end StreamOptions

theorem length_le_of_mem_pieces {n : ℕ} {data raw : Bytes} (h : raw ∈ data.pieces n) :
    raw.length ≤ min n data.length := by
  have hn := List.mem_pieces h
  have hflat := List.flatten_pieces (n := n) (by omega) data
  have hsub := (List.sublist_flatten_of_mem h).length_le
  rw [hflat] at hsub
  exact le_min hn.2 hsub

/-- A library within the bound: it has a long code for `x` and a mark before everything else. -/
def paddedLzo (x : Bytes) (n : ℕ) : Lzo where
  compress b := if b = x then 0 :: List.replicate n 0 else 1 :: b
  decompress
    | [] => []
    | c :: b => if c = 0 then x else b
  malloc _ := true

theorem paddedLzo_correct {x : Bytes} {n : ℕ} (h : n + 1 ≤ x.length + x.length / 16 + 67) :
    (paddedLzo x n).Correct where
  length_le b := by
    simp only [paddedLzo]
    split_ifs with hb
    · subst hb
      rw [List.length_cons, List.length_replicate]
      exact h
    · rw [List.length_cons]
      omega
  decompress_compress b := by
    simp only [paddedLzo]
    split_ifs with hb
    · subst hb
      rfl
    · rfl

/-- No access of the program is past the end of a buffer. -/
def NetProg.Bounded {α : Type} (p : NetProg Sd α) : Prop := p.All fun o => o ≠ .fail .overflow

theorem NetProg.Bounded.run_ne_overflow [DecidableEq Sd] {α : Type} {p : NetProg Sd α}
    (hp : p.Bounded) (net : Net Sd) : Net.run p net ≠ .fault .overflow := by
  refine Prog.All.run_ne_fault (fun o net hne => ?_) hp net
  intro hf
  cases o with
  | sendmsg sd type msg =>
    simp only [Net.exec, Net.post] at hf
    split at hf <;> cases hf
  | send sd msg =>
    simp only [Net.exec, Net.post] at hf
    split at hf <;> cases hf
  | recv sd len =>
    simp only [Net.exec] at hf
    cases ht : net.take sd len with
    | done net' i => rw [ht] at hf; cases i <;> cases hf
    | fault f => exact absurd ht (Net.take_ne_fault net sd len f)
    | blocked => rw [ht] at hf; cases hf
  | recvmsg sd len =>
    simp only [Net.exec] at hf
    cases ht : net.take sd (2 + len) with
    | done net' i =>
      rw [ht] at hf
      cases i with
      | failure => cases hf
      | notification b =>
        simp only [Outcome.bind_done] at hf
        split_ifs at hf
        cases hf
      | record b =>
        simp only [Outcome.bind_done] at hf
        split_ifs at hf
        cases hf
    | fault f => exact absurd ht (Net.take_ne_fault net sd (2 + len) f)
    | blocked => rw [ht] at hf; cases hf
  | fail f =>
    obtain rfl := Outcome.fault.inj hf
    exact hne rfl
  | spin => cases hf

section
variable {lzo : Lzo} {stp : StreamOptions}

private theorem bounded_blockSendLoop (sd : Sd) (fuel bs : ℕ) (ptr : Bytes) (n : ℕ) :
    (blockSendLoop sd fuel bs ptr n).Bounded := by
  induction fuel generalizing bs ptr n with
  | zero =>
    cases ptr with
    | nil => trivial
    | cons b ptr => exact ⟨nofun, nofun⟩
  | succ fuel ih =>
    cases ptr with
    | nil => trivial
    | cons b ptr =>
      refine Prog.All.bind (Prog.all_perform.mpr nofun) fun ssz => ?_
      cases ssz with
      | none => trivial
      | some ssz => exact ih _ _ _

private theorem bounded_blockSend (sd : Sd) (data : Bytes) : (blockSend sd data).Bounded := by
  refine Prog.All.bind (Prog.all_perform.mpr nofun) fun ssz => ?_
  cases ssz with
  | none => trivial
  | some ssz => exact bounded_blockSendLoop sd _ _ _ _

private theorem bounded_assert {b : Bool} {f : NetFault} (h : b = true ∨ f ≠ .overflow) :
    (NetProg.assert b f : NetProg Sd Unit).Bounded := by
  cases b with
  | true => trivial
  | false =>
    refine ⟨fun hf => ?_, nofun⟩
    rw [NetOp.fail.injEq] at hf
    exact h.elim nofun fun h => h hf

/-- With ample buffers no turn of the sending loop compresses past the end, whether the sends
succeed or not. -/
private theorem bounded_streamSendLoop (hl : lzo.Correct) {len : ℕ} (hample : stp.Ample len)
    (sd : Sd) (fuel rawBlksz : ℕ) (ptr : Bytes) (bytesEncoded : ℕ)
    (hraw : rawBlksz ≤ stp.blksz.toNat) (hptr : ptr.length ≤ len) :
    (streamSendLoop lzo sd stp fuel rawBlksz ptr bytesEncoded).Bounded := by
  induction fuel generalizing rawBlksz ptr bytesEncoded with
  | zero =>
    cases ptr with
    | nil => trivial
    | cons b ptr =>
      constructor
      · intro heq
        cases heq
      · intro r
        cases r
  | succ fuel ih =>
    rcases eq_or_ne ptr [] with rfl | hne
    · trivial
    have hpos := List.length_pos_iff.mpr hne
    have hlen : (ptr.take (min rawBlksz ptr.length)).length = min rawBlksz ptr.length := by
      rw [List.length_take]
      omega
    have hfit : (lzo.compress (ptr.take (min rawBlksz ptr.length))).length ≤
        stp.encBlksz.toNat := by
      have hworst := hl.length_le (ptr.take (min rawBlksz ptr.length))
      have hmax := (StreamOptions.le_encBlksz_iff (by omega)).mpr hample
      omega
    rw [streamSendLoop_of_ne hne]
    refine Prog.All.bind ?_ fun _ => ih _ _ _ (by omega) (by rw [List.length_drop]; omega)
    rw [streamSendBlock]
    split_ifs with hfmt
    · refine Prog.All.bind (bounded_assert (.inr (by decide))) fun _ => ?_
      exact Prog.All.bind (bounded_assert (.inl (decide_eq_true hfit))) fun _ =>
        Prog.All.bind (bounded_blockSend sd _) fun _ => bounded_assert (.inr (by decide))
    · exact Prog.All.bind (bounded_blockSend sd _) fun _ => bounded_assert (.inr (by decide))

theorem bounded_streamSend (hl : lzo.Correct) {data : Bytes} (hample : stp.Ample data.length)
    (sd : Sd) : (streamSend lzo sd data (some stp)).Bounded := by
  refine Prog.All.bind (Prog.all_perform.mpr nofun) fun ssz => ?_
  cases ssz with
  | none => trivial
  | some ssz =>
    exact Prog.All.bind (bounded_streamSendLoop hl hample sd _ _ _ _ le_rfl le_rfl) fun _ =>
      Prog.All.bind (Prog.all_perform.mpr nofun) fun _ => trivial

theorem StreamOptions.Ample.fits (hl : lzo.Correct) {data : Bytes}
    (hample : stp.Ample data.length) (hm : stp.Buffered lzo) : stp.Fits lzo data := by
  intro hfmt raw hmem
  have hlen := length_le_of_mem_pieces hmem
  have hpos := (List.mem_pieces hmem).1
  exact ⟨hm hfmt, (hl.length_le raw).trans (hample.le_encBlksz hlen (by omega))⟩

end

section
variable [DecidableEq Sd] {net : Net Sd} {sd : Sd} {lzo : Lzo} {stp : StreamOptions}
  {data : Bytes}

private theorem run_streamRecv_first (hb : 0 < stp.blksz.toNat) (hne : data ≠ []) {lzo' : Lzo}
    {q : List Incoming} (hq : (net sd).inq = Net.incoming (streamRecords lzo stp data) ++ q)
    {fuel n : ℕ} {f : NetFault}
    (hblock : ∀ (net : Net Sd) (q : List Incoming), (net sd).inq =
        Net.incoming (blockData (stp.encode lzo (data.take stp.blksz.toNat))) ++ q →
      Net.run (streamRecvBlock lzo' sd stp fuel (min stp.blksz.toNat n) n
        (UInt64.ofNat (stp.encode lzo (data.take stp.blksz.toNat)).length)) net = .fault f) :
    Net.run (streamRecv lzo' sd (fuel + 1) n) net = .fault f := by
  rw [streamRecords, Net.incoming_cons, List.cons_append, streamBlocks_of_ne hb hne,
    blockRecords, List.cons_append, List.cons_append, Net.incoming_cons, List.cons_append,
    List.append_assoc, Net.incoming_append, List.append_assoc] at hq
  have hend : Msg.block ≠ Msg.streamEnd := by decide
  rw [streamRecv, streamRecvInto, streamRecvWith, Net.run_bind, Net.run_claraRecvmsg hq (by simp),
    Outcome.bind_done]
  simp only [Received.stored, StreamOptions.ofBytes_bytes]
  rw [streamRecvLoop, Net.run_bind,
    Net.run_claraRecvmsg (Net.withInq_inq ..) (by simp [blockParams]), Outcome.bind_done]
  simp only [hend, false_and, if_false, blockParams, Bytes.length_word, and_self, if_true,
    Bytes.wordAt_word]
  rw [Net.run_bind, hblock _ _ (Net.withInq_inq ..), Outcome.bind_fault]

/-- A first block that the buffer of the receiver cannot hold. -/
theorem run_streamRecv_tooLong (hfmt : stp.fmt = streamFormatLzo1x1) (hm : stp.Buffered lzo)
    (hb : 0 < stp.blksz.toNat) (hne : data ≠ [])
    (hlong : stp.encBlksz.toNat < (lzo.compress (data.take stp.blksz.toNat)).length)
    (hsize : (lzo.compress (data.take stp.blksz.toNat)).length < 2 ^ 64) {q : List Incoming}
    (hq : (net sd).inq = Net.incoming (streamRecords lzo stp data) ++ q) (fuel n : ℕ) :
    Net.run (streamRecv lzo sd (fuel + 1) n) net = .fault .blockBufferTooSmall := by
  refine run_streamRecv_first hb hne hq fun net q _ => ?_
  rw [StreamOptions.encode, if_pos hfmt, streamRecvBlock, if_pos hfmt, if_pos (hm hfmt),
    Net.run_bind, run_blockRecv_tooLong hlong hsize, Outcome.bind_fault]

/-- A receiver without a buffer reads the first block through `NULL`. -/
theorem run_streamRecv_unbuffered {lzo' : Lzo} (hm : ¬ stp.Buffered lzo')
    (hb : 0 < stp.blksz.toNat) (hne : data ≠ [])
    (hfit : (lzo.compress (data.take stp.blksz.toNat)).length ≤ stp.encBlksz.toNat)
    {q : List Incoming}
    (hq : (net sd).inq = Net.incoming (streamRecords lzo stp data) ++ q) (fuel n : ℕ) :
    Net.run (streamRecv lzo' sd (fuel + 1) n) net = .fault .nullPointer := by
  obtain ⟨hfmt, hmalloc⟩ := Classical.not_imp.mp hm
  have hlen : (UInt64.ofNat (lzo.compress (data.take stp.blksz.toNat)).length).toNat =
      (lzo.compress (data.take stp.blksz.toNat)).length := by
    rw [UInt64.toNat_ofNat', Nat.mod_eq_of_lt (hfit.trans_lt stp.encBlksz.toNat_lt)]
  refine run_streamRecv_first hb hne hq fun net q hinq => ?_
  rw [StreamOptions.encode, if_pos hfmt] at hinq ⊢
  rw [streamRecvBlock, if_pos hfmt, if_neg hmalloc, run_blockRecvNull, hlen, if_pos hfit]
  intro h0
  have hcode : lzo.compress (data.take stp.blksz.toNat) ≠ [] := by
    intro hnil
    rw [hnil] at h0
    exact h0 rfl
  rw [blockData_of_ne hcode, Net.incoming_cons, List.cons_append] at hinq
  refine ⟨_, _, hinq, ?_⟩
  rw [hlen, Sent.record, List.length_take]
  exact min_le_right ..

/-- A library within the bound and a first block for which the buffer is too small. -/
private theorem exists_lzo_of_not_ample (h : ¬ stp.Ample data.length) :
    ∃ lzo : Lzo, lzo.Correct ∧ stp.Buffered lzo ∧ 0 < stp.blksz.toNat ∧ data ≠ [] ∧
      stp.encBlksz.toNat < (lzo.compress (data.take stp.blksz.toNat)).length ∧
      (lzo.compress (data.take stp.blksz.toNat)).length < 2 ^ 64 := by
  have hb : 0 < stp.blksz.toNat := by
    by_contra h0
    exact h (StreamOptions.ample_zero (by omega) _)
  have hpos : 0 < data.length := by
    by_contra h0
    exact h (.inl (by omega))
  have hshort := mt (StreamOptions.le_encBlksz_iff hpos).mp h
  have hlen : (data.take stp.blksz.toNat).length = min stp.blksz.toNat data.length :=
    List.length_take
  have hcode : ((paddedLzo (data.take stp.blksz.toNat) stp.encBlksz.toNat).compress
      (data.take stp.blksz.toNat)).length = stp.encBlksz.toNat + 1 := by
    simp only [paddedLzo, if_true, List.length_cons, List.length_replicate]
  have hlt := StreamOptions.encBlksz_lt h
  exact ⟨paddedLzo (data.take stp.blksz.toNat) stp.encBlksz.toNat,
    paddedLzo_correct (by omega), fun _ => rfl, hb, List.length_pos_iff.mp hpos, by omega, by omega⟩

/-- The buffer of `stream_send` holds the worst case of every block that is compressed into it:
no library within the bound writes past its end, whether the sends succeed or not. -/
def StreamOptions.SendSuffices (stp : StreamOptions) (data : Bytes) (sd : Sd) : Prop :=
  (∀ raw ∈ data.pieces stp.blksz.toNat,
    raw.length + raw.length / 16 + 67 ≤ stp.encBlksz.toNat) ∧
  ∀ lzo : Lzo, lzo.Correct → ∀ net : Net Sd,
    Net.run (streamSend lzo sd data (some stp)) net ≠ .fault .overflow

/-- The buffer of `stream_recv` holds every block of a stream with its block size. -/
def StreamOptions.RecvSuffices (stp : StreamOptions) (data : Bytes) (sd : Sd) : Prop :=
  ∀ lzo : Lzo, lzo.Correct → ∀ (net : Net Sd) (q : List Incoming) (fuel : ℕ),
    2 * data.length + 68 ≤ fuel →
    (net sd).inq = Net.incoming (streamRecords lzo stp data) ++ q →
    Net.run (streamRecv lzo sd fuel data.length) net ≠ .fault .blockBufferTooSmall

private theorem sendSuffices (h : stp.Ample data.length) : stp.SendSuffices data sd := by
  refine ⟨fun raw hmem => ?_, fun lzo hl net => (bounded_streamSend hl h sd).run_ne_overflow net⟩
  have hpos := (List.mem_pieces hmem).1
  have hlen := length_le_of_mem_pieces hmem
  exact h.le_encBlksz hlen (by omega)

private theorem recvSuffices (h : stp.Ample data.length) : stp.RecvSuffices data sd := by
  intro lzo hl net q fuel hfuel hq
  rcases Nat.eq_zero_or_pos stp.blksz.toNat with h0 | hb
  · -- without a block size there are no blocks
    have hsame : streamRecords lzo stp data = streamRecords lzo stp [] := by
      simp only [streamRecords, streamBlocks, h0, List.pieces_zero]
    have hnil : stp.Receivable ([] : Bytes).length data.length :=
      ⟨Nat.zero_le _, .inr (.inr (Nat.dvd_zero _))⟩
    have hfits : stp.Fits lzo [] := fun _ raw hmem => by simp at hmem
    have hfuel' : 2 * ([] : Bytes).length + 68 ≤ fuel := by
      rw [List.length_nil]
      omega
    rw [hsame] at hq
    rw [run_streamRecv_of hl (fun h => absurd rfl h) hfits _ hfuel' hq, if_pos hnil]
    intro heq
    cases heq
  rcases eq_or_ne data [] with rfl | hne
  · rw [run_streamRecv hl hb (fun _ raw hmem => by simp at hmem) hfuel hq]
    intro heq
    cases heq
  by_cases hm : stp.Buffered lzo
  · rw [run_streamRecv hl hb (h.fits hl hm) hfuel hq]
    intro heq
    cases heq
  · have hpos := List.length_pos_iff.mpr hne
    have hlen : (data.take stp.blksz.toNat).length ≤ min stp.blksz.toNat data.length := by
      rw [List.length_take]
    have hfit := (hl.length_le (data.take stp.blksz.toNat)).trans (h.le_encBlksz hlen hpos)
    obtain ⟨fuel, rfl⟩ : ∃ k, fuel = k + 1 := Nat.exists_eq_add_one.mpr (by omega)
    rw [run_streamRecv_unbuffered hm hb hne hfit hq]
    intro heq
    cases heq

/-- Both buffers are large enough for data of a length exactly when their size, taken from the
block size before that is cut down to the length of the data, does not wrap around below what
the largest block needs. -/
theorem streamBuffers_iff (stp : StreamOptions) (hfmt : stp.fmt = streamFormatLzo1x1)
    (data : Bytes) (sd : Sd) :
    (stp.SendSuffices data sd ↔ stp.Ample data.length) ∧
      (stp.RecvSuffices data sd ↔ stp.Ample data.length) := by
  constructor
  · refine ⟨fun h => ?_, sendSuffices⟩
    by_contra hnot
    obtain ⟨lzo, hl, hm, hb, hne, hlong, -⟩ := exists_lzo_of_not_ample hnot
    have hfit : ¬ stp.Fits lzo data := fun hfit => by
      have hle := (hfit.take hb hne hfmt).2
      omega
    refine h.2 lzo hl (fun _ => .fresh) ?_
    rw [run_streamSend_overflow hb hfit rfl, StreamOptions.sendFault, if_pos (hm hfmt)]
  · refine ⟨fun h => ?_, recvSuffices⟩
    by_contra hnot
    obtain ⟨lzo, hl, hm, hb, hne, hlong, hsize⟩ := exists_lzo_of_not_ample hnot
    have hq : Net.incoming (streamRecords lzo stp data) =
        Net.incoming (streamRecords lzo stp data) ++ [] := (List.append_nil _).symm
    exact h lzo hl (fun _ => ⟨Net.incoming (streamRecords lzo stp data), [], []⟩) [] _ le_rfl hq
      (run_streamRecv_tooLong hfmt hm hb hne hlong hsize hq _ _)

end

theorem streamBuffers_iff_two_bytes :
    (StreamOptions.SendSuffices ⟨streamFormatLzo1x1, 1⟩ [1, 2] () ↔
        StreamOptions.Ample ⟨streamFormatLzo1x1, 1⟩ 2) ∧
      (StreamOptions.RecvSuffices ⟨streamFormatLzo1x1, 1⟩ [1, 2] () ↔
        StreamOptions.Ample ⟨streamFormatLzo1x1, 1⟩ 2) :=
  streamBuffers_iff ⟨streamFormatLzo1x1, 1⟩ rfl [1, 2] ()

/-- A block size for which the size of the buffer wraps around to nothing. -/
theorem not_sendSuffices_wrapped :
    ¬ StreamOptions.SendSuffices ⟨streamFormatLzo1x1, 17361641481138401458⟩ [1] () := by
  intro h
  have hbuf : (StreamOptions.encBlksz
      ⟨streamFormatLzo1x1, 17361641481138401458⟩).toNat = 0 := by decide
  have hcode : (literalLzo.compress (([1] : Bytes).take
      (StreamOptions.blksz ⟨streamFormatLzo1x1, 17361641481138401458⟩).toNat)).length = 5 := by
    rw [List.take_of_length_le (by decide)]
    rfl
  have hnot : ¬ StreamOptions.Fits literalLzo ⟨streamFormatLzo1x1, 17361641481138401458⟩ [1] := by
    intro hfit
    have hle := (hfit.take (by decide) (by decide) rfl).2
    rw [hbuf, hcode] at hle
    exact absurd hle (by decide)
  refine h.2 literalLzo literalLzo_correct (Net.wire [] []) ?_
  rw [run_streamSend_overflow (by decide) hnot rfl, StreamOptions.sendFault, hbuf]
  rfl

section
variable [DecidableEq Sd] {net : Net Sd} {sd : Sd} {lzo : Lzo} {stp : StreamOptions}
  {data : Bytes}

/-- `stream_send` sends records of which `stream_recv` of the length of the data writes just
the data, with what follows them left in place. The receiver has memory as `malloc` says. -/
def RoundTrips (lzo : Lzo) (malloc : ℕ → Bool) (stp : StreamOptions) (data : Bytes)
    (net : Net Sd) (sd : Sd) : Prop :=
  ∃ rs, Net.run (streamSend lzo sd data (some stp)) net = .done (net.push sd rs) data.length ∧
    ∀ (fuel : ℕ) (net' : Net Sd) (sd' : Sd) (q : List Incoming),
      2 * data.length + 68 ≤ fuel → (net' sd').inq = Net.incoming rs ++ q →
      Net.run (streamRecv { lzo with malloc } sd' fuel data.length) net' =
        .done (net'.withInq sd' q) (data.length, data)

/-- Both ends have to find a buffer for compressed blocks, unless there is nothing to compress. -/
theorem streamRecv_streamSend_iff (hl : lzo.Correct) (malloc : ℕ → Bool) (hb : 1 ≤ stp.blksz)
    (hsize : stp.blksz.toNat + stp.blksz.toNat / 16 + 67 < 2 ^ 64) (data : Bytes)
    (hf : (net sd).sendFails = []) :
    RoundTrips lzo malloc stp data net sd ↔
      stp.fmt ≠ streamFormatLzo1x1 ∨ data = [] ∨
        lzo.malloc stp.encBlksz.toNat = true ∧ malloc stp.encBlksz.toNat = true := by
  have hb : 0 < stp.blksz.toNat := UInt64.le_iff_toNat_le.mp hb
  have hl' : Lzo.Correct { lzo with malloc } := ⟨hl.length_le, hl.decompress_compress⟩
  constructor
  · rintro ⟨rs, hsend, hrecv⟩
    by_contra hnot
    obtain ⟨hlzo, hrest⟩ := not_or.mp hnot
    obtain ⟨hne, hbuf⟩ := not_or.mp hrest
    have hfmt := not_not.mp hlzo
    by_cases hm : stp.Buffered lzo
    · have hfit := StreamOptions.fits hl hsize hm data
      obtain rfl : rs = streamRecords lzo stp data := by
        rw [run_streamSend hb hfit hf] at hsend
        have hsent := congrArg Conn.sent (congrFun (Outcome.done.inj hsend).1 sd)
        rw [Net.push_sent, Net.push_sent] at hsent
        exact (List.append_cancel_left hsent).symm
      have hm' : ¬ stp.Buffered { lzo with malloc } := fun h => hbuf ⟨hm hfmt, h hfmt⟩
      have hq : (net.withInq sd (Net.incoming (streamRecords lzo stp data)) sd).inq =
          Net.incoming (streamRecords lzo stp data) ++ [] := by
        rw [Net.withInq_inq, List.append_nil]
      have hdone := hrecv _ _ sd [] le_rfl hq
      rw [run_streamRecv_unbuffered hm' hb hne (hfit.take hb hne hfmt).2 hq] at hdone
      cases hdone
    · rw [run_streamSend_unbuffered hm hne hf] at hsend
      cases hsend
  · intro h
    have hfits : stp.Fits lzo data ∧ stp.Fits { lzo with malloc } data := by
      rcases h with hraw | rfl | ⟨hm, hm'⟩
      · exact ⟨fun hfmt => absurd hfmt hraw, fun hfmt => absurd hfmt hraw⟩
      · exact ⟨fun _ raw hmem => by simp at hmem, fun _ raw hmem => by simp at hmem⟩
      · exact ⟨StreamOptions.fits hl hsize (fun _ => hm) data,
          StreamOptions.fits hl' hsize (fun _ => hm') data⟩
    exact ⟨streamRecords lzo stp data, run_streamSend hb hfits.1 hf,
      fun fuel net' sd' q hfuel hq => run_streamRecv hl' hb hfits.2 hfuel hq⟩

end

theorem streamRecv_streamSend_iff_five_bytes :
    RoundTrips literalLzo (fun n => decide (n < 100)) ⟨streamFormatLzo1x1, 2⟩ [1, 2, 3, 4, 5]
        (Net.wire [] []) () ↔
      streamFormatLzo1x1 ≠ streamFormatLzo1x1 ∨ ([1, 2, 3, 4, 5] : Bytes) = [] ∨
        literalLzo.malloc 69 = true ∧ decide (69 < 100) = true :=
  streamRecv_streamSend_iff literalLzo_correct (fun n => decide (n < 100)) (by decide) (by decide)
    [1, 2, 3, 4, 5] rfl

/-- One byte, for which there is to be a buffer of more than 2^62 bytes. -/
theorem not_roundTrips_huge_block :
    ¬ RoundTrips literalLzo literalLzo.malloc ⟨streamFormatLzo1x1, 4611686018427387904⟩ [1]
      (Net.wire [] []) () := by
  rintro ⟨rs, hsend, -⟩
  have hm : ¬ StreamOptions.Buffered literalLzo ⟨streamFormatLzo1x1, 4611686018427387904⟩ := by decide
  rw [run_streamSend_unbuffered hm (by decide) rfl] at hsend
  cases hsend

/-- `rs` is the stream that `stream_send` makes of the data. -/
def Produces (lzo : Lzo) (stp : StreamOptions) (data : Bytes) (rs : List Sent) : Prop :=
  Net.run (streamSend lzo () data (some stp)) (Net.wire [] []) =
    .done (Net.wire [] rs) data.length

/-- What the callers of `stream_recv` rely on: it returns, data that fits in the `n` bytes of
the buffer is written and counted, and of longer data nothing is written past the end while the
count is not the one expected. -/
def Reports (data : Bytes) (n : ℕ) (o : Outcome (Net Sd) NetFault (ℕ × Bytes)) : Prop :=
  o.Ends fun _ r =>
    if data.length ≤ n then r = (data.length, data) else r.2.length ≤ n ∧ r.1 ≠ n

section
variable [DecidableEq Sd] {net : Net Sd} {sd : Sd} {lzo : Lzo} {stp : StreamOptions}
  {data : Bytes} {rs : List Sent}

theorem Produces.fits (h : Produces lzo stp data rs) (hb : 0 < stp.blksz.toNat) :
    stp.Fits lzo data := by
  by_contra hfit
  rw [Produces, run_streamSend_overflow hb hfit rfl] at h
  cases h

theorem Produces.eq_streamRecords (h : Produces lzo stp data rs) (hb : 0 < stp.blksz.toNat) :
    rs = streamRecords lzo stp data := by
  have hrun : Net.run (streamSend lzo () data (some stp)) (Net.wire [] []) =
      .done ((Net.wire [] []).push () (streamRecords lzo stp data)) data.length :=
    run_streamSend hb (h.fits hb) rfl
  rw [Produces, hrun, Net.wire_push, List.nil_append] at h
  have hsent := congrArg Conn.sent (congrFun (Outcome.done.inj h).1 ())
  exact hsent.symm

theorem Produces.run_streamRecv (h : Produces lzo stp data rs) (hl : lzo.Correct)
    (hb : 1 ≤ stp.blksz) {fuel : ℕ} (hfuel : 2 * data.length + 68 ≤ fuel) (net : Net Sd)
    (sd : Sd) (n : ℕ) (q : List Incoming) :
    Net.run (streamRecv lzo sd fuel n) (net.withInq sd (Net.incoming rs ++ q)) =
      if stp.Receivable data.length n then .done (net.withInq sd q) (data.length, data)
      else .fault (stp.recvFault data.length n) := by
  have hb : 0 < stp.blksz.toNat := UInt64.le_iff_toNat_le.mp hb
  rw [h.eq_streamRecords hb, run_streamRecv_of hl (fun _ => hb) (h.fits hb) n hfuel
    (Net.withInq_inq ..), Net.withInq_withInq]

/-- `stream_recv` reports what it received exactly when the data fits in the buffer and, in raw
blocks, either fills it or ends with a full block; and only then do both formats come to the
same. -/
theorem streamRecv_reports_iff (hl : lzo.Correct) (data : Bytes) (n : ℕ) (net : Net Sd) (sd : Sd)
    (q : List Incoming) {fuel : ℕ} (hfuel : 2 * data.length + 68 ≤ fuel) :
    (∀ (stp : StreamOptions) (rs : List Sent), 1 ≤ stp.blksz → Produces lzo stp data rs →
      (Reports data n (Net.run (streamRecv lzo sd fuel n)
          (net.withInq sd (Net.incoming rs ++ q))) ↔ stp.Receivable data.length n)) ∧
    ∀ (blksz : UInt64) (raw enc : List Sent), 1 ≤ blksz →
      Produces lzo ⟨streamFormatRaw, blksz⟩ data raw →
      Produces lzo ⟨streamFormatLzo1x1, blksz⟩ data enc →
      (Net.run (streamRecv lzo sd fuel n) (net.withInq sd (Net.incoming raw ++ q)) =
          Net.run (streamRecv lzo sd fuel n) (net.withInq sd (Net.incoming enc ++ q)) ↔
        data.length ≤ n ∧ (data.length = n ∨ blksz.toNat ∣ data.length)) := by
  constructor
  · intro stp rs hb hrs
    rw [hrs.run_streamRecv hl hb hfuel]
    split_ifs with hrecv
    · refine iff_of_true ?_ hrecv
      rw [Reports, Outcome.ends_done, if_pos hrecv.1]
    · exact iff_of_false (Outcome.not_ends_fault _ _) hrecv
  · intro blksz raw enc hb hraw henc
    have hne : streamFormatRaw ≠ streamFormatLzo1x1 := by decide
    rw [hraw.run_streamRecv hl hb hfuel, henc.run_streamRecv hl hb hfuel]
    simp only [StreamOptions.Receivable, StreamOptions.recvFault, hne, false_or, true_or,
      and_true, if_true, if_false]
    by_cases hle : data.length ≤ n
    · simp only [hle, true_and, if_true]
      split_ifs with hwhole
      · exact iff_of_true rfl hwhole
      · apply iff_of_false _ hwhole
        intro heq
        cases heq
    · simp only [hle, false_and, if_false, iff_false]
      intro heq
      split_ifs at heq <;> cases heq

theorem produces (hb : 0 < stp.blksz.toNat) (hfit : stp.Fits lzo data) :
    Produces lzo stp data (streamRecords lzo stp data) := by
  rw [Produces, run_streamSend hb hfit rfl, Net.wire_push, List.nil_append]

end

theorem streamRecv_reports_iff_three_bytes :
    (∀ (stp : StreamOptions) (rs : List Sent), 1 ≤ stp.blksz →
      Produces literalLzo stp [1, 2, 3] rs →
      (Reports [1, 2, 3] 4 (Net.run (streamRecv literalLzo () 74 4)
          ((Net.wire [] []).withInq () (Net.incoming rs ++ []))) ↔ stp.Receivable 3 4)) ∧
    ∀ (blksz : UInt64) (raw enc : List Sent), 1 ≤ blksz →
      Produces literalLzo ⟨streamFormatRaw, blksz⟩ [1, 2, 3] raw →
      Produces literalLzo ⟨streamFormatLzo1x1, blksz⟩ [1, 2, 3] enc →
      (Net.run (streamRecv literalLzo () 74 4)
          ((Net.wire [] []).withInq () (Net.incoming raw ++ [])) =
        Net.run (streamRecv literalLzo () 74 4)
          ((Net.wire [] []).withInq () (Net.incoming enc ++ [])) ↔
        3 ≤ 4 ∧ (3 = 4 ∨ blksz.toNat ∣ 3)) :=
  streamRecv_reports_iff literalLzo_correct [1, 2, 3] 4 (Net.wire [] []) () [] (by decide)

/-- Three bytes in raw blocks of two: the receiver of up to four expects the second block to be
a full one. -/
theorem not_reports_short_block :
    ∃ rs, Produces literalLzo ⟨streamFormatRaw, 2⟩ [1, 2, 3] rs ∧
      ¬ Reports [1, 2, 3] 4 (Net.run (streamRecv literalLzo () 74 4)
        ((Net.wire [] []).withInq () (Net.incoming rs ++ []))) := by
  have hrs : Produces literalLzo ⟨streamFormatRaw, 2⟩ [1, 2, 3]
      (streamRecords literalLzo ⟨streamFormatRaw, 2⟩ [1, 2, 3]) :=
    produces (by decide) fun hfmt => absurd hfmt (by decide)
  have hnot : ¬ StreamOptions.Receivable ⟨streamFormatRaw, 2⟩ ([1, 2, 3] : Bytes).length 4 := by
    decide
  refine ⟨_, hrs, ?_⟩
  rw [hrs.run_streamRecv literalLzo_correct (by decide) (by decide), if_neg hnot]
  exact Outcome.not_ends_fault _ _

end Clara
