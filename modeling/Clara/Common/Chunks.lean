import Clara.Common.Stream

/-! Streams as they may arrive: any blocks, each in records of any size. Which of them
`stream_recv` takes, and what it writes. -/
namespace Clara

open Conc

variable {Sd : Type}

/-- A block, in the records that its data comes in. -/
structure Chunked where
  chunks : List Bytes
  nonempty : ∀ c ∈ chunks, c ≠ []
  /-- The length fits in the header. -/
  length_lt : chunks.flatten.length < 2 ^ 64

namespace Chunked

def bytes (b : Chunked) : Bytes := b.chunks.flatten

def records (b : Chunked) : List Sent :=
  .msg Msg.block (blockParams b.bytes.length) :: b.chunks.map .data

/-- Two bytes, each in its own record. -/
def twoBytes : Chunked := ⟨[[7], [9]], by decide, by decide⟩

end Chunked

/-- The records of a stream of these blocks. -/
def streamChunks (stp : StreamOptions) (blks : List Chunked) : List Sent :=
  .msg Msg.streamStart stp.bytes :: (blks.flatMap Chunked.records ++ [.msg Msg.streamEnd []])

namespace StreamOptions

def decode (lzo : Lzo) (stp : StreamOptions) (b : Bytes) : Bytes :=
  if stp.fmt = streamFormatLzo1x1 then lzo.decompress b else b

def decoded (lzo : Lzo) (stp : StreamOptions) (blks : List Chunked) : Bytes :=
  blks.flatMap fun b => stp.decode lzo b.bytes

/-- A compressed block has a buffer and fits in it; a raw one is as long as the receiver expects. -/
def Takes (lzo : Lzo) (stp : StreamOptions) (rawBlksz : ℕ) (b : Bytes) : Prop :=
  if stp.fmt = streamFormatLzo1x1 then
    lzo.malloc stp.encBlksz.toNat = true ∧ b.length ≤ stp.encBlksz.toNat
  else b.length = rawBlksz

instance (lzo : Lzo) (stp : StreamOptions) (rawBlksz : ℕ) (b : Bytes) :
    Decidable (stp.Takes lzo rawBlksz b) :=
  inferInstanceAs (Decidable
    (if stp.fmt = streamFormatLzo1x1 then
      lzo.malloc stp.encBlksz.toNat = true ∧ b.length ≤ stp.encBlksz.toNat
    else b.length = rawBlksz))

/-- `stream_recv` takes one block after the other. The last one says how long the next is at most,
and `rem` bytes are still expected. -/
def Accepts (lzo : Lzo) (stp : StreamOptions) : (rawBlksz rem : ℕ) → List Chunked → Prop
  | _, _, [] => True
  | rawBlksz, rem, b :: blks => stp.Takes lzo (min rawBlksz rem) b.bytes ∧
    stp.Accepts lzo (stp.decode lzo b.bytes).length
      (sizeSub rem (stp.decode lzo b.bytes).length) blks

end StreamOptions

section
variable [DecidableEq Sd] {net : Net Sd} {sd : Sd} {lzo : Lzo} {stp : StreamOptions}

omit [DecidableEq Sd] in
/-- A block that is not empty begins with a record that is not longer. -/
private theorem Chunked.first_record (b : Chunked) {q : List Incoming}
    (hq : (net sd).inq = Net.incoming (b.chunks.map .data) ++ q)
    (h0 : UInt64.ofNat b.bytes.length ≠ 0) :
    ∃ r q, (net sd).inq = .record r :: q ∧ r.length ≤ (UInt64.ofNat b.bytes.length).toNat := by
  have hn : (UInt64.ofNat b.bytes.length).toNat = b.bytes.length := by
    rw [UInt64.toNat_ofNat']
    exact Nat.mod_eq_of_lt b.length_lt
  rw [hn]
  cases hchunks : b.chunks with
  | nil =>
    rw [Chunked.bytes, hchunks] at h0
    exact absurd rfl h0
  | cons c chunks =>
    rw [hchunks, List.map_cons, Net.incoming_cons, List.cons_append] at hq
    refine ⟨_, _, hq, ?_⟩
    rw [Chunked.bytes, hchunks, List.flatten_cons, List.length_append]
    exact Nat.le_add_right _ _

private theorem run_blockRecvLoop_chunks (chunks : List Bytes) (hne : ∀ c ∈ chunks, c ≠ [])
    (fuel : ℕ) (ptr : Bytes) (q : List Incoming)
    (hq : (net sd).inq = Net.incoming (chunks.map .data) ++ q) (hfuel : chunks.length ≤ fuel) :
    Net.run (blockRecvLoop sd fuel chunks.flatten.length ptr) net =
      .done (net.withInq sd q) (ptr ++ chunks.flatten) := by
  induction chunks generalizing net fuel ptr with
  | nil =>
    rw [List.map_nil, Net.incoming_nil, List.nil_append] at hq
    rw [List.flatten_nil, List.append_nil, Net.withInq_self hq]
    cases fuel <;> rfl
  | cons c chunks ih =>
    obtain ⟨fuel, rfl⟩ : ∃ k, fuel = k + 1 := Nat.exists_eq_add_one.mpr (by
      rw [List.length_cons] at hfuel
      omega)
    have hpos : 0 < c.length := List.length_pos_iff.mpr (hne c List.mem_cons_self)
    have hlen : (c :: chunks).flatten.length = c.length + chunks.flatten.length := by
      rw [List.flatten_cons, List.length_append]
    have hrest : (c :: chunks).flatten.length - c.length = chunks.flatten.length := by omega
    rw [List.map_cons, Net.incoming_cons, List.cons_append] at hq
    rw [blockRecvLoop_of_pos (by omega), Net.run_bind,
      Net.run_claraRecv hq (by rw [Sent.record]; omega), Outcome.bind_done]
    simp only [Sent.record]
    rw [hrest, ih (fun d hd => hne d (List.mem_cons_of_mem _ hd)) fuel _
      (Net.withInq_inq ..) (by rw [List.length_cons] at hfuel; omega), Net.withInq_withInq,
      List.append_assoc, List.flatten_cons]

private theorem run_blockRecv_chunks (b : Chunked) {fuel len : ℕ} {q : List Incoming}
    (hq : (net sd).inq = Net.incoming (b.chunks.map .data) ++ q) (hfuel : b.chunks.length ≤ fuel)
    (hlen : b.bytes.length ≤ len) :
    Net.run (blockRecv sd fuel len (UInt64.ofNat b.bytes.length)) net =
      .done (net.withInq sd q) b.bytes := by
  have hn : (UInt64.ofNat b.bytes.length).toNat = b.bytes.length := by
    rw [UInt64.toNat_ofNat']
    exact Nat.mod_eq_of_lt b.length_lt
  rw [blockRecv, Net.run_bind, hn, decide_eq_true hlen, Net.run_assert_true, Outcome.bind_done]
  exact run_blockRecvLoop_chunks b.chunks b.nonempty fuel [] q hq hfuel

/-- A block that is taken is written where there is room for it. -/
private theorem run_streamRecvBlock_takes (b : Chunked) {fuel rawBlksz room : ℕ}
    {q : List Incoming} (hq : (net sd).inq = Net.incoming (b.chunks.map .data) ++ q)
    (hfuel : b.chunks.length ≤ fuel) (ht : stp.Takes lzo rawBlksz b.bytes)
    (hroom : (stp.decode lzo b.bytes).length ≤ room) :
    Net.run (streamRecvBlock lzo sd stp fuel rawBlksz room (UInt64.ofNat b.bytes.length)) net =
      .done (net.withInq sd q)
        ((stp.decode lzo b.bytes).length, stp.decode lzo b.bytes) := by
  rw [streamRecvBlock]
  rw [StreamOptions.Takes] at ht
  rw [StreamOptions.decode] at hroom ⊢
  split_ifs at ht hroom ⊢ with hfmt hmalloc
  · rw [Net.run_bind, run_blockRecv_chunks b hq hfuel ht.2, Outcome.bind_done]
    simp only [Net.run_bind, decide_eq_true ht.2, decide_eq_true hroom, Net.run_assert_true,
      Outcome.bind_done, Net.run_pure]
  · exact absurd ht.1 hmalloc
  · rw [Net.run_bind, run_blockRecv_chunks b hq hfuel ht.le, Outcome.bind_done]
    subst ht
    simp only [Net.run_bind, decide_eq_true hroom, beq_self_eq_true, Net.run_assert_true,
      Outcome.bind_done, Net.run_pure]

private theorem run_streamRecvBlock_not_takes (b : Chunked) {fuel rawBlksz room : ℕ}
    {q : List Incoming} (hq : (net sd).inq = Net.incoming (b.chunks.map .data) ++ q)
    (hfuel : b.chunks.length ≤ fuel)
    (hnot : ¬ (stp.Takes lzo rawBlksz b.bytes ∧ (stp.decode lzo b.bytes).length ≤ room)) :
    ∃ f, Net.run (streamRecvBlock lzo sd stp fuel rawBlksz room
      (UInt64.ofNat b.bytes.length)) net = .fault f := by
  have hlong : ∀ len : ℕ, len < b.bytes.length →
      Net.run (blockRecv sd fuel len (UInt64.ofNat b.bytes.length)) net =
        .fault .blockBufferTooSmall := fun len hlen =>
    run_blockRecv_tooLong hlen b.length_lt fuel
  rw [streamRecvBlock]
  rw [StreamOptions.Takes, StreamOptions.decode] at hnot
  split_ifs at hnot ⊢ with hfmt hmalloc
  · by_cases hlen : b.bytes.length ≤ stp.encBlksz.toNat
    · have hroom : ¬ (lzo.decompress b.bytes).length ≤ room := fun h => hnot ⟨⟨hmalloc, hlen⟩, h⟩
      refine ⟨.overflow, ?_⟩
      rw [Net.run_bind, run_blockRecv_chunks b hq hfuel hlen, Outcome.bind_done]
      simp only [Net.run_bind, decide_eq_true hlen, decide_eq_false hroom, Net.run_assert_true,
        Net.run_assert_false, Outcome.bind_done, Outcome.bind_fault]
    · refine ⟨.blockBufferTooSmall, ?_⟩
      rw [Net.run_bind, hlong _ (Nat.not_le.mp hlen), Outcome.bind_fault]
  · exact ⟨_, run_blockRecvNull (b.first_record hq)⟩
  · by_cases hlen : b.bytes.length ≤ rawBlksz
    · rw [Net.run_bind, run_blockRecv_chunks b hq hfuel hlen, Outcome.bind_done, Net.run_bind]
      by_cases hroom : b.bytes.length ≤ room
      · have hne : b.bytes.length ≠ rawBlksz := fun heq => hnot ⟨heq, hroom⟩
        refine ⟨.blockNotReceived, ?_⟩
        rw [decide_eq_true hroom, Net.run_assert_true, Outcome.bind_done, Net.run_bind,
          beq_eq_false_iff_ne.mpr hne, Net.run_assert_false, Outcome.bind_fault]
      · refine ⟨.overflow, ?_⟩
        rw [decide_eq_false hroom, Net.run_assert_false, Outcome.bind_fault]
    · refine ⟨.blockBufferTooSmall, ?_⟩
      rw [Net.run_bind, hlong _ (Nat.not_le.mp hlen), Outcome.bind_fault]

theorem run_streamRecvLoop_chunks (blks : List Chunked) (fuel room rawBlksz rem n : ℕ)
    (data : Bytes) (q : List Incoming)
    (hq : (net sd).inq =
      Net.incoming (blks.flatMap Chunked.records ++ [.msg Msg.streamEnd []]) ++ q)
    (hfuel : (blks.flatMap Chunked.records).length + 1 ≤ fuel) :
    (stp.Accepts lzo rawBlksz rem blks ∧ (stp.decoded lzo blks).length ≤ room →
      Net.run (streamRecvLoop lzo sd stp fuel room rawBlksz rem n data) net =
        .done (net.withInq sd q)
          (n + (stp.decoded lzo blks).length, data ++ stp.decoded lzo blks)) ∧
    (¬ (stp.Accepts lzo rawBlksz rem blks ∧ (stp.decoded lzo blks).length ≤ room) →
      ∃ f, Net.run (streamRecvLoop lzo sd stp fuel room rawBlksz rem n data) net = .fault f) := by
  obtain ⟨fuel, rfl⟩ : ∃ k, fuel = k + 1 := Nat.exists_eq_add_one.mpr (by omega)
  induction blks generalizing net fuel room rawBlksz rem n data with
  | nil =>
    have hq : (net sd).inq = .record (Sent.msg Msg.streamEnd []).record :: q := by
      simpa [Net.incoming] using hq
    have hrun : Net.run (streamRecvLoop lzo sd stp (fuel + 1) room rawBlksz rem n data) net =
        .done (net.withInq sd q) (n, data) := by
      rw [streamRecvLoop, Net.run_bind, Net.run_claraRecvmsg hq (Nat.zero_le _),
        Outcome.bind_done]
      simp
    constructor
    · intro _
      rw [hrun]
      simp [StreamOptions.decoded]
    · intro hnot
      exact absurd ⟨trivial, Nat.zero_le _⟩ hnot
  | cons b blks ih =>
    obtain ⟨out, hout⟩ : ∃ out, out = stp.decode lzo b.bytes := ⟨_, rfl⟩
    have hdecoded : stp.decoded lzo (b :: blks) = out ++ stp.decoded lzo blks := by
      rw [hout]
      rfl
    have haccepts : stp.Accepts lzo rawBlksz rem (b :: blks) ↔
        stp.Takes lzo (min rawBlksz rem) b.bytes ∧
          stp.Accepts lzo out.length (sizeSub rem out.length) blks := by
      rw [hout]
      rfl
    rw [List.flatMap_cons, Chunked.records, List.cons_append, List.cons_append,
      Net.incoming_cons, List.append_assoc, Net.incoming_append, List.cons_append,
      List.append_assoc] at hq
    rw [List.flatMap_cons, Chunked.records, List.length_append, List.length_cons,
      List.length_map] at hfuel
    have hend : Msg.block ≠ Msg.streamEnd := by decide
    have hhead : Net.run (streamRecvLoop lzo sd stp (fuel + 1) room rawBlksz rem n data) net =
        (Net.run (streamRecvBlock lzo sd stp fuel (min rawBlksz rem) room
          (UInt64.ofNat b.bytes.length))
            (net.withInq sd (Net.incoming (b.chunks.map .data) ++
              (Net.incoming (blks.flatMap Chunked.records ++ [.msg Msg.streamEnd []]) ++ q)))).bind
          fun net x => Net.run (streamRecvLoop lzo sd stp fuel (room - x.2.length) x.1
            (sizeSub rem x.1) (n + x.1) (data ++ x.2)) net := by
      rw [streamRecvLoop, Net.run_bind, Net.run_claraRecvmsg hq (by simp [blockParams]),
        Outcome.bind_done]
      simp only [hend, false_and, if_false, blockParams, Bytes.length_word, and_self, if_true,
        Bytes.wordAt_word]
      rw [Net.run_bind]
    obtain ⟨fuel, rfl⟩ : ∃ k, fuel = k + 1 := Nat.exists_eq_add_one.mpr (by omega)
    by_cases hfirst : stp.Takes lzo (min rawBlksz rem) b.bytes ∧ out.length ≤ room
    · have hroom : (stp.decode lzo b.bytes).length ≤ room := by
        rw [← hout]
        exact hfirst.2
      rw [run_streamRecvBlock_takes b (Net.withInq_inq ..) (by omega) hfirst.1 hroom,
        Outcome.bind_done, ← hout, Net.withInq_withInq] at hhead
      obtain ⟨hdone, hfault⟩ := ih (room - out.length) out.length (sizeSub rem out.length)
        (n + out.length) (data ++ out)
        (Net.withInq_inq net sd (Net.incoming
          (blks.flatMap Chunked.records ++ [.msg Msg.streamEnd []]) ++ q)) fuel (by omega)
      have hsame : stp.Accepts lzo rawBlksz rem (b :: blks) ∧
          (stp.decoded lzo (b :: blks)).length ≤ room ↔
            stp.Accepts lzo out.length (sizeSub rem out.length) blks ∧
              (stp.decoded lzo blks).length ≤ room - out.length := by
        rw [haccepts, hdecoded, List.length_append]
        constructor
        · rintro ⟨⟨-, hacc⟩, hlen⟩
          exact ⟨hacc, by omega⟩
        · rintro ⟨hacc, hlen⟩
          exact ⟨⟨hfirst.1, hacc⟩, by omega⟩
      rw [hhead, hsame, hdecoded, List.length_append, ← Nat.add_assoc, ← List.append_assoc]
      rw [Net.withInq_withInq] at hdone
      exact ⟨hdone, hfault⟩
    · have hnot : ¬ (stp.Takes lzo (min rawBlksz rem) b.bytes ∧
          (stp.decode lzo b.bytes).length ≤ room) := by rwa [← hout]
      have hlater : b.chunks.length ≤ fuel + 1 := by omega
      obtain ⟨f, hf⟩ := run_streamRecvBlock_not_takes b (Net.withInq_inq net sd _) hlater hnot
      rw [hf, Outcome.bind_fault] at hhead
      constructor
      · rintro ⟨hacc, hlen⟩
        rw [haccepts] at hacc
        rw [hdecoded, List.length_append] at hlen
        exact absurd ⟨hacc.1, by omega⟩ hfirst
      · exact fun _ => ⟨f, hhead⟩

/-- `stream_recv` takes the whole of a stream and writes what it decodes to, or it stops. -/
theorem run_streamRecvInto_chunks (stp : StreamOptions) (blks : List Chunked) {fuel : ℕ}
    (room len : ℕ) {q : List Incoming}
    (hq : (net sd).inq = Net.incoming (streamChunks stp blks) ++ q)
    (hfuel : (streamChunks stp blks).length ≤ fuel) :
    (stp.Accepts lzo stp.blksz.toNat len blks ∧ (stp.decoded lzo blks).length ≤ room →
      Net.run (streamRecvInto lzo sd fuel room len) net =
        .done (net.withInq sd q) ((stp.decoded lzo blks).length, stp.decoded lzo blks)) ∧
    (¬ (stp.Accepts lzo stp.blksz.toNat len blks ∧ (stp.decoded lzo blks).length ≤ room) →
      ∃ f, Net.run (streamRecvInto lzo sd fuel room len) net = .fault f) := by
  rw [streamChunks, Net.incoming_cons, List.cons_append] at hq
  rw [streamChunks, List.length_cons, List.length_append, List.length_singleton] at hfuel
  have hhead : Net.run (streamRecvInto lzo sd fuel room len) net =
      Net.run (streamRecvLoop lzo sd stp fuel room stp.blksz.toNat len 0 [])
        (net.withInq sd (Net.incoming
          (blks.flatMap Chunked.records ++ [.msg Msg.streamEnd []]) ++ q)) := by
    rw [streamRecvInto, streamRecvWith, Net.run_bind, Net.run_claraRecvmsg hq (by simp),
      Outcome.bind_done]
    simp only [Received.stored, StreamOptions.ofBytes_bytes]
  obtain ⟨hdone, hfault⟩ := run_streamRecvLoop_chunks blks fuel room stp.blksz.toNat len 0 [] q
    (Net.withInq_inq net sd (Net.incoming
      (blks.flatMap Chunked.records ++ [.msg Msg.streamEnd []]) ++ q)) (by omega)
  rw [Net.withInq_withInq, Nat.zero_add, List.nil_append, ← hhead] at hdone
  rw [← hhead] at hfault
  exact ⟨hdone, hfault⟩

end

section
variable {lzo : Lzo} {stp : StreamOptions}

/-- The records of a block are those that `block_send` makes of it. -/
theorem exists_chunked (b : Bytes) (hb : b.length < 2 ^ 64) :
    ∃ blk : Chunked, blk.bytes = b ∧ blk.records = blockRecords b := by
  have hflat : (b.pieces blocksize).flatten = b := List.flatten_pieces blocksize_pos b
  have hne : ∀ c ∈ b.pieces blocksize, c ≠ [] := fun c hc =>
    List.length_pos_iff.mp (List.mem_pieces hc).1
  have hbytes : Chunked.bytes ⟨b.pieces blocksize, hne, by rw [hflat]; exact hb⟩ = b := hflat
  refine ⟨⟨b.pieces blocksize, hne, by rw [hflat]; exact hb⟩, hbytes, ?_⟩
  rw [Chunked.records, hbytes, blockRecords, blockData]

theorem exists_chunked_pieces (hl : lzo.Correct) (raws : List Bytes)
    (hraws : ∀ raw ∈ raws, (stp.encode lzo raw).length < 2 ^ 64) :
    ∃ blks, stp.decoded lzo blks = raws.flatten ∧ blks.flatMap Chunked.records =
      raws.flatMap fun raw => blockRecords (stp.encode lzo raw) := by
  induction raws with
  | nil => exact ⟨[], rfl, rfl⟩
  | cons raw raws ih =>
    obtain ⟨blks, hdecoded, hrecords⟩ := ih fun r hr => hraws r (List.mem_cons_of_mem _ hr)
    obtain ⟨blk, hbytes, hblk⟩ :=
      exists_chunked (stp.encode lzo raw) (hraws raw List.mem_cons_self)
    have hraw : stp.decode lzo blk.bytes = raw := by
      rw [hbytes, StreamOptions.decode, StreamOptions.encode]
      split_ifs with hfmt
      · exact hl.decompress_compress raw
      · rfl
    refine ⟨blk :: blks, ?_, ?_⟩
    · rw [StreamOptions.decoded, List.flatMap_cons, hraw, List.flatten_cons, ← hdecoded]
      rfl
    · rw [List.flatMap_cons, List.flatMap_cons, hblk, hrecords]

theorem exists_streamChunks (hl : lzo.Correct) (hb : 0 < stp.blksz.toNat)
    (hsize : stp.blksz.toNat + stp.blksz.toNat / 16 + 67 < 2 ^ 64) (data : Bytes) :
    ∃ blks, streamRecords lzo stp data = streamChunks stp blks ∧
      stp.decoded lzo blks = data := by
  have hraws : ∀ raw ∈ data.pieces stp.blksz.toNat, (stp.encode lzo raw).length < 2 ^ 64 := by
    intro raw hraw
    have hlen := (List.mem_pieces hraw).2
    have hle : (stp.encode lzo raw).length ≤ _ := StreamOptions.length_encode hl raw
    omega
  obtain ⟨blks, hdecoded, hrecords⟩ := exists_chunked_pieces hl (data.pieces stp.blksz.toNat) hraws
  refine ⟨blks, ?_, ?_⟩
  · rw [streamRecords, streamBlocks, streamChunks, hrecords]
  · rw [hdecoded, List.flatten_pieces hb]

end

section
variable [DecidableEq Sd] {net : Net Sd} {sd : Sd} {lzo : Lzo} {stp : StreamOptions}

/-- A stream of more data than there is room for is not received. -/
theorem run_streamRecvInto_overfull (hl : lzo.Correct) (hb : 0 < stp.blksz.toNat)
    (hsize : stp.blksz.toNat + stp.blksz.toNat / 16 + 67 < 2 ^ 64) {data : Bytes}
    {fuel room len : ℕ} {q : List Incoming}
    (hq : (net sd).inq = Net.incoming (streamRecords lzo stp data) ++ q)
    (hfuel : (streamRecords lzo stp data).length ≤ fuel) (hroom : room < data.length) :
    ∃ f, Net.run (streamRecvInto lzo sd fuel room len) net = .fault f := by
  obtain ⟨blks, hrecords, hdecoded⟩ := exists_streamChunks hl hb hsize data
  rw [hrecords] at hq hfuel
  apply (run_streamRecvInto_chunks stp blks room len hq hfuel).2
  rintro ⟨-, hle⟩
  rw [hdecoded] at hle
  omega

end

end Clara
