import Clara.Common.Block

/-! `stream.c`: data cut into blocks, each sent raw or compressed, between a start message
with the format and the block size and an end message. -/
namespace Clara

open Conc

variable {Sd : Type}

/-- The two functions of the LZO library, without their working memory, and whether `malloc` has a
buffer of so many bytes for what they write and read. -/
structure Lzo where
  compress : Bytes → Bytes
  decompress : Bytes → Bytes
  malloc : ℕ → Bool

/-- What the library promises: a bound on the size of a compressed block, and the round trip. -/
structure Lzo.Correct (lzo : Lzo) : Prop where
  length_le : ∀ b, (lzo.compress b).length ≤ b.length + b.length / 16 + 67
  decompress_compress : ∀ b, lzo.decompress (lzo.compress b) = b

/-- `STREAM_FORMAT_RAW`. -/
def streamFormatRaw : UInt32 := 0

/-- `STREAM_FORMAT_LZO1X_1`. -/
def streamFormatLzo1x1 : UInt32 := 1

/-- `struct stream_options`, and `struct stream_params` with the same members. -/
structure StreamOptions where
  fmt : UInt32
  blksz : UInt64
  deriving DecidableEq

namespace StreamOptions

/-- `default_opts`. -/
def default : StreamOptions := ⟨streamFormatRaw, (1 : UInt64) <<< 20⟩

/-- The members in memory: `fmt`, four bytes of padding, `blksz`. -/
def bytes (opts : StreamOptions) : Bytes :=
  Bytes.words [opts.fmt.toUInt64, opts.blksz]

/-- The members read from a record, if it is as long as the structure. -/
def ofBytes (b : Bytes) : Option StreamOptions :=
  if 16 ≤ b.length then some ⟨(b.wordAt 0).toUInt32, b.wordAt 1⟩ else none

/-- The size of the buffer for a compressed block. -/
def encBlksz (opts : StreamOptions) : UInt64 := opts.blksz + opts.blksz / 16 + 64 + 3

@[simp] theorem length_bytes (opts : StreamOptions) : opts.bytes.length = 16 := by
  simp [bytes]

@[simp] theorem ofBytes_bytes (opts : StreamOptions) : ofBytes opts.bytes = some opts := by
  have h : (16 : ℕ) ≤ opts.bytes.length := by simp
  rw [ofBytes, if_pos h]
  simp [bytes, Bytes.words]

theorem toNat_encBlksz {opts : StreamOptions}
    (h : opts.blksz.toNat + opts.blksz.toNat / 16 + 67 < 2 ^ 64) :
    opts.encBlksz.toNat = opts.blksz.toNat + opts.blksz.toNat / 16 + 67 := by
  simp only [encBlksz, UInt64.toNat_add, UInt64.toNat_div, UInt64.reduceToNat]
  omega

end StreamOptions

def streamSendBlock (lzo : Lzo) (sd : Sd) (stp : StreamOptions) (raw : Bytes) :
    NetProg Sd Unit := do
  if stp.fmt = streamFormatLzo1x1 then
    NetProg.assert (lzo.malloc stp.encBlksz.toNat) .nullPointer
    let blkbuf := lzo.compress raw
    NetProg.assert (decide (blkbuf.length ≤ stp.encBlksz.toNat)) .overflow
    let sent ← blockSend sd blkbuf
    NetProg.assert (sent == blkbuf.length) .blockNotSent
  else
    let sent ← blockSend sd raw
    NetProg.assert (sent == raw.length) .blockNotSent

def streamSendLoop (lzo : Lzo) (sd : Sd) (stp : StreamOptions) :
    (fuel rawBlksz : ℕ) → (ptr : Bytes) → (bytesEncoded : ℕ) → NetProg Sd ℕ
  | _, _, [], bytesEncoded => pure bytesEncoded
  | 0, _, _ :: _, _ => .spin
  | fuel + 1, rawBlksz, ptr, bytesEncoded => do
    let rawBlksz := min rawBlksz ptr.length
    streamSendBlock lzo sd stp (ptr.take rawBlksz)
    streamSendLoop lzo sd stp fuel rawBlksz (ptr.drop rawBlksz) (bytesEncoded + rawBlksz)

/-- With blocks of at least one byte there are at most as many as bytes. -/
def streamSend (lzo : Lzo) (sd : Sd) (data : Bytes) (opts : Option StreamOptions) :
    NetProg Sd ℕ := do
  let stp := opts.getD .default
  match ← claraSendmsg sd Msg.streamStart stp.bytes with
  | none => pure 0
  | some _ =>
    let bytesEncoded ← streamSendLoop lzo sd stp data.length stp.blksz.toNat data 0
    let _ ← claraSendmsg sd Msg.streamEnd []
    pure bytesEncoded

/-- The difference of two values of type `size_t`. -/
def sizeSub (a b : ℕ) : ℕ := if b ≤ a then a - b else a + 2 ^ 64 - b

/-- A turn of the loop of `stream_recv` that reads a block of `length` bytes: the new value of
`raw_blksz` and the bytes written at `ptr`, where there is room for `room`. -/
def streamRecvBlock (lzo : Lzo) (sd : Sd) (stp : StreamOptions)
    (fuel rawBlksz room : ℕ) (length : UInt64) : NetProg Sd (ℕ × Bytes) := do
  if stp.fmt = streamFormatLzo1x1 then
    if lzo.malloc stp.encBlksz.toNat then
      let blkbuf ← blockRecv sd fuel stp.encBlksz.toNat length
      NetProg.assert (decide (blkbuf.length ≤ stp.encBlksz.toNat)) .blockTooLong
      let out := lzo.decompress blkbuf
      NetProg.assert (decide (out.length ≤ room)) .overflow
      pure (out.length, out)
    else
      blockRecvNull sd stp.encBlksz.toNat length
      .fail .nullPointer
  else
    let received ← blockRecv sd fuel rawBlksz length
    NetProg.assert (decide (received.length ≤ room)) .overflow
    NetProg.assert (received.length == rawBlksz) .blockNotReceived
    pure (rawBlksz, received)

/-- The loop of `stream_recv`; `data` is what has been written so far. A compressed block can be
longer than what remains, so that `bytesRemaining` wraps around. -/
def streamRecvLoop (lzo : Lzo) (sd : Sd) (stp : StreamOptions) :
    (fuel room rawBlksz bytesRemaining bytesDecoded : ℕ) → (data : Bytes) →
      NetProg Sd (ℕ × Bytes)
  | 0, _, _, _, _, _ => .spin
  | fuel + 1, room, rawBlksz, bytesRemaining, bytesDecoded, data => do
    match ← claraRecvmsg sd 8 with
    | .failed => pure (bytesDecoded, data)
    | .notification _ => .fail .unexpectedMessage
    | .message type blp =>
      if type = Msg.streamEnd ∧ blp.length = 0 then pure (bytesDecoded, data)
      else if type = Msg.block ∧ blp.length = 8 then
        let (rawBlksz, out) ← streamRecvBlock lzo sd stp fuel (min rawBlksz bytesRemaining)
          room (blp.wordAt 0)
        streamRecvLoop lzo sd stp fuel (room - out.length) rawBlksz
          (sizeSub bytesRemaining rawBlksz) (bytesDecoded + rawBlksz) (data ++ out)
      else .fail .unexpectedMessage

/-- `stream_recv` of `len` bytes to an address where there is room for `room`. What has been stored
in the structure on its stack is read by `read`. Returns the result of the C function and the bytes
it wrote. -/
def streamRecvWith (read : Bytes → Option StreamOptions) (lzo : Lzo) (sd : Sd)
    (fuel room len : ℕ) : NetProg Sd (ℕ × Bytes) := do
  match (← claraRecvmsg sd 16).stored with
  | none => pure (0, [])
  | some stp =>
    match read stp with
    | none => .fail .uninitialised
    | some stp => streamRecvLoop lzo sd stp fuel room stp.blksz.toNat len 0 []

/-- The structure has to be received whole. -/
def streamRecvInto (lzo : Lzo) (sd : Sd) (fuel room len : ℕ) : NetProg Sd (ℕ × Bytes) :=
  streamRecvWith StreamOptions.ofBytes lzo sd fuel room len

/-- `stream_recv` to a buffer of just the bytes it is told to receive. -/
def streamRecv (lzo : Lzo) (sd : Sd) (fuel len : ℕ) : NetProg Sd (ℕ × Bytes) :=
  streamRecvInto lzo sd fuel len len

def streamForwardLoop (sdIn sdOut : Sd) : (fuel bytesForwarded : ℕ) → NetProg Sd ℕ
  | 0, _ => .spin
  | fuel + 1, bytesForwarded => do
    match ← claraRecvmsg sdIn 8 with
    | .failed => pure bytesForwarded
    | .notification _ => .fail .unexpectedMessage
    | .message type blp =>
      if type = Msg.streamEnd ∧ blp.length = 0 then
        let _ ← claraSendmsg sdOut type []
        pure bytesForwarded
      else if type = Msg.block ∧ blp.length = 8 then
        let n ← blockForward sdIn sdOut fuel (blp.wordAt 0)
        streamForwardLoop sdIn sdOut fuel (bytesForwarded + n)
      else .fail .unexpectedMessage

/-- `stream_forward`: the start message is passed on with whatever type it came with. What has been
stored in the structure on its stack makes it `whole`. -/
def streamForwardWith (whole : Bytes → Option Bytes) (sdIn sdOut : Sd) (fuel : ℕ) :
    NetProg Sd ℕ := do
  match ← claraRecvmsg sdIn 16 with
  | .failed => pure 0
  | .notification stp => streamForwardFrom Msg.streamStart stp
  | .message type stp => streamForwardFrom type stp
where
  streamForwardFrom (type : MessageType) (stp : Bytes) : NetProg Sd ℕ := do
    match whole stp with
    | none => .fail .uninitialised
    | some stp =>
      match ← claraSendmsg sdOut type stp with
      | none => pure 0
      | some _ => streamForwardLoop sdIn sdOut fuel 0

def Bytes.whole (n : ℕ) (b : Bytes) : Option Bytes := if b.length = n then some b else none

/-- What has been received of a structure, over what the structure held before. -/
def Bytes.over (b junk : Bytes) : Bytes := b ++ junk.drop b.length

/-- The structure has to be received whole. -/
def streamForward (sdIn sdOut : Sd) (fuel : ℕ) : NetProg Sd ℕ :=
  streamForwardWith (Bytes.whole 16) sdIn sdOut fuel

/-- The block that stands for a piece of the data. -/
def StreamOptions.encode (lzo : Lzo) (stp : StreamOptions) (raw : Bytes) : Bytes :=
  if stp.fmt = streamFormatLzo1x1 then lzo.compress raw else raw

def streamBlocks (lzo : Lzo) (stp : StreamOptions) (data : Bytes) : List Sent :=
  (data.pieces stp.blksz.toNat).flatMap fun raw => blockRecords (stp.encode lzo raw)

/-- The records of a stream. -/
def streamRecords (lzo : Lzo) (stp : StreamOptions) (data : Bytes) : List Sent :=
  .msg Msg.streamStart stp.bytes :: (streamBlocks lzo stp data ++ [.msg Msg.streamEnd []])

section
variable {lzo : Lzo} {stp : StreamOptions}

theorem StreamOptions.length_encode (hl : lzo.Correct) (raw : Bytes) :
    (stp.encode lzo raw).length ≤ raw.length + raw.length / 16 + 67 := by
  rw [encode]
  split_ifs
  · exact hl.length_le raw
  · omega

@[simp] theorem streamBlocks_nil : streamBlocks lzo stp [] = [] := by simp [streamBlocks]

theorem streamBlocks_of_ne (hb : 0 < stp.blksz.toNat) {data : Bytes} (h : data ≠ []) :
    streamBlocks lzo stp data = blockRecords (stp.encode lzo (data.take stp.blksz.toNat)) ++
      streamBlocks lzo stp (data.drop stp.blksz.toNat) := by
  rw [streamBlocks, List.pieces_of_ne hb h, List.flatMap_cons, streamBlocks]

theorem streamSendLoop_of_ne {ptr : Bytes} (h : ptr ≠ []) (sd : Sd) (fuel rawBlksz n : ℕ) :
    streamSendLoop lzo sd stp (fuel + 1) rawBlksz ptr n =
      streamSendBlock lzo sd stp (ptr.take (min rawBlksz ptr.length)) >>= fun _ =>
        streamSendLoop lzo sd stp fuel (min rawBlksz ptr.length)
          (ptr.drop (min rawBlksz ptr.length)) (n + min rawBlksz ptr.length) := by
  cases ptr with
  | nil => exact absurd rfl h
  | cons b ptr => rfl

/-- The buffer for compressed blocks can be allocated, where the format needs one. -/
def StreamOptions.Buffered (lzo : Lzo) (stp : StreamOptions) : Prop :=
  stp.fmt = streamFormatLzo1x1 → lzo.malloc stp.encBlksz.toNat = true

instance (lzo : Lzo) (stp : StreamOptions) : Decidable (stp.Buffered lzo) :=
  inferInstanceAs (Decidable (_ → _))

/-- There is a buffer for every compressed block, and the block fits in it. -/
def StreamOptions.Fits (lzo : Lzo) (stp : StreamOptions) (data : Bytes) : Prop :=
  stp.fmt = streamFormatLzo1x1 → ∀ raw ∈ data.pieces stp.blksz.toNat,
    lzo.malloc stp.encBlksz.toNat = true ∧ (lzo.compress raw).length ≤ stp.encBlksz.toNat

/-- They fit as long as the size of the buffer does not wrap around. -/
theorem StreamOptions.fits (hl : lzo.Correct)
    (hsize : stp.blksz.toNat + stp.blksz.toNat / 16 + 67 < 2 ^ 64) (hm : stp.Buffered lzo)
    (data : Bytes) : stp.Fits lzo data := by
  intro hfmt raw hraw
  have hlen := (List.mem_pieces hraw).2
  have hle := hl.length_le raw
  refine ⟨hm hfmt, ?_⟩
  rw [toNat_encBlksz hsize]
  omega

theorem StreamOptions.Fits.take {data : Bytes} (h : stp.Fits lzo data)
    (hb : 0 < stp.blksz.toNat) (hne : data ≠ []) (hfmt : stp.fmt = streamFormatLzo1x1) :
    lzo.malloc stp.encBlksz.toNat = true ∧
      (lzo.compress (data.take stp.blksz.toNat)).length ≤ stp.encBlksz.toNat := by
  apply h hfmt
  rw [List.pieces_of_ne hb hne]
  exact List.mem_cons_self

theorem StreamOptions.Fits.drop {data : Bytes} (h : stp.Fits lzo data)
    (hb : 0 < stp.blksz.toNat) (hne : data ≠ []) :
    stp.Fits lzo (data.drop stp.blksz.toNat) := by
  intro hfmt raw hraw
  apply h hfmt
  rw [List.pieces_of_ne hb hne]
  exact List.mem_cons_of_mem _ hraw

/-- What is left after a piece, whether the piece is full or the last one. -/
private theorem drop_min (n : ℕ) (l : Bytes) : l.drop (min n l.length) = l.drop n := by
  rcases le_total n l.length with h | h
  · rw [min_eq_left h]
  · rw [min_eq_right h, List.drop_length, List.drop_of_length_le h]

end

section
variable [DecidableEq Sd] {net : Net Sd} {sd : Sd} {lzo : Lzo} {stp : StreamOptions}

private theorem run_streamSendBlock {raw : Bytes}
    (hfit : stp.fmt = streamFormatLzo1x1 →
      lzo.malloc stp.encBlksz.toNat = true ∧ (lzo.compress raw).length ≤ stp.encBlksz.toNat)
    (hf : (net sd).sendFails = []) :
    Net.run (streamSendBlock lzo sd stp raw) net =
      .done (net.push sd (blockRecords (stp.encode lzo raw))) () := by
  rw [streamSendBlock, StreamOptions.encode]
  split_ifs with hfmt
  · obtain ⟨hmalloc, hlen⟩ := hfit hfmt
    simp only [hmalloc, decide_eq_true hlen, Net.run_bind, Net.run_assert_true, Outcome.bind_done,
      run_blockSend _ hf, beq_self_eq_true]
  · simp only [Net.run_bind, run_blockSend _ hf, Outcome.bind_done, beq_self_eq_true,
      Net.run_assert_true]

private theorem run_streamSendLoop (hb : 0 < stp.blksz.toNat) (fuel rawBlksz : ℕ)
    (ptr : Bytes) (hfit : stp.Fits lzo ptr) (bytesEncoded : ℕ) (hf : (net sd).sendFails = [])
    (hfuel : ptr.length ≤ fuel)
    (hraw : min rawBlksz ptr.length = min stp.blksz.toNat ptr.length) :
    Net.run (streamSendLoop lzo sd stp fuel rawBlksz ptr bytesEncoded) net =
      .done (net.push sd (streamBlocks lzo stp ptr)) (bytesEncoded + ptr.length) := by
  induction fuel generalizing net rawBlksz ptr bytesEncoded with
  | zero =>
    obtain rfl := List.eq_nil_of_length_eq_zero (Nat.le_zero.mp hfuel)
    simp [streamSendLoop]
  | succ fuel ih =>
    rcases eq_or_ne ptr [] with rfl | hne
    · simp [streamSendLoop]
    have hpos := List.length_pos_iff.mpr hne
    have htake : ptr.take (min stp.blksz.toNat ptr.length) = ptr.take stp.blksz.toNat :=
      List.take_eq_take_min.symm
    have hlen : (ptr.take stp.blksz.toNat).length = min stp.blksz.toNat ptr.length :=
      List.length_take
    have hrest : (ptr.drop stp.blksz.toNat).length = ptr.length - stp.blksz.toNat :=
      List.length_drop
    rw [streamSendLoop_of_ne hne, hraw, htake, drop_min, Net.run_bind,
      run_streamSendBlock (hfit.take hb hne) hf, Outcome.bind_done,
      ih _ _ (hfit.drop hb hne) _ (by simpa using hf) (by omega) (by omega), Net.push_push,
      ← streamBlocks_of_ne hb hne, hrest]
    congr 1
    omega

theorem run_streamSend (hb : 0 < stp.blksz.toNat) {data : Bytes} (hfit : stp.Fits lzo data)
    (hf : (net sd).sendFails = []) :
    Net.run (streamSend lzo sd data (some stp)) net =
      .done (net.push sd (streamRecords lzo stp data)) data.length := by
  rw [streamSend, Net.run_bind, Option.getD_some, Net.run_claraSendmsg hf, Outcome.bind_done]
  simp only
  rw [Net.run_bind, run_streamSendLoop hb _ _ _ hfit _ (by simpa using hf) le_rfl rfl,
    Outcome.bind_done, Net.run_bind, Net.run_claraSendmsg (by simpa using hf), Outcome.bind_done,
    Net.run_pure, Net.push_push, Net.push_push, Nat.zero_add, streamRecords,
    List.singleton_append]

/-- How `stream_send` ends when a block has no buffer, or does not fit. -/
def StreamOptions.sendFault (lzo : Lzo) (stp : StreamOptions) : NetFault :=
  if lzo.malloc stp.encBlksz.toNat then .overflow else .nullPointer

private theorem run_streamSendLoop_overflow (hb : 0 < stp.blksz.toNat) (fuel rawBlksz : ℕ)
    (ptr : Bytes) (hfit : ¬ stp.Fits lzo ptr) (bytesEncoded : ℕ) (hf : (net sd).sendFails = [])
    (hfuel : ptr.length ≤ fuel)
    (hraw : min rawBlksz ptr.length = min stp.blksz.toNat ptr.length) :
    Net.run (streamSendLoop lzo sd stp fuel rawBlksz ptr bytesEncoded) net =
      .fault (stp.sendFault lzo) := by
  have hne : ptr ≠ [] := by
    rintro rfl
    exact hfit fun _ raw hmem => by simp at hmem
  have hfmt : stp.fmt = streamFormatLzo1x1 := by
    by_contra h
    exact hfit fun h' => absurd h' h
  induction fuel generalizing net rawBlksz ptr bytesEncoded with
  | zero => exact absurd (List.eq_nil_of_length_eq_zero (Nat.le_zero.mp hfuel)) hne
  | succ fuel ih =>
    have hpos := List.length_pos_iff.mpr hne
    have htake : ptr.take (min stp.blksz.toNat ptr.length) = ptr.take stp.blksz.toNat :=
      List.take_eq_take_min.symm
    have hrest : (ptr.drop stp.blksz.toNat).length = ptr.length - stp.blksz.toNat :=
      List.length_drop
    rw [streamSendLoop_of_ne hne, hraw, htake, drop_min, Net.run_bind]
    by_cases hfirst : lzo.malloc stp.encBlksz.toNat = true ∧
        (lzo.compress (ptr.take stp.blksz.toNat)).length ≤ stp.encBlksz.toNat
    · have hlater : ¬ stp.Fits lzo (ptr.drop stp.blksz.toNat) := by
        intro h
        apply hfit
        intro hfmt raw hmem
        rw [List.pieces_of_ne hb hne, List.mem_cons] at hmem
        rcases hmem with rfl | hmem
        · exact hfirst
        · exact h hfmt raw hmem
      have hne' : ptr.drop stp.blksz.toNat ≠ [] := by
        intro hnil
        rw [hnil] at hlater
        exact hlater fun _ raw hmem => by simp at hmem
      rw [run_streamSendBlock (fun _ => hfirst) hf, Outcome.bind_done]
      exact ih _ _ hlater _ (by simpa using hf) (by omega) (by omega) hne'
    · rw [streamSendBlock, if_pos hfmt, StreamOptions.sendFault]
      by_cases hmalloc : lzo.malloc stp.encBlksz.toNat = true
      · rw [if_pos hmalloc, hmalloc]
        simp only [decide_eq_false fun h => hfirst ⟨hmalloc, h⟩]
        rfl
      · rw [if_neg hmalloc, Bool.eq_false_iff.mpr hmalloc]
        rfl

/-- A block without a buffer is compressed to `NULL`, one that does not fit over the end of it. -/
theorem run_streamSend_overflow (hb : 0 < stp.blksz.toNat) {data : Bytes}
    (hfit : ¬ stp.Fits lzo data) (hf : (net sd).sendFails = []) :
    Net.run (streamSend lzo sd data (some stp)) net = .fault (stp.sendFault lzo) := by
  rw [streamSend, Net.run_bind, Option.getD_some, Net.run_claraSendmsg hf, Outcome.bind_done]
  simp only
  rw [Net.run_bind, run_streamSendLoop_overflow hb _ _ _ hfit _ (by simpa using hf) le_rfl rfl,
    Outcome.bind_fault]

/-- With blocks of no bytes the loop makes no progress, however long it runs. -/
theorem run_streamSendLoop_zero {ptr : Bytes} (hne : ptr ≠ [])
    (hfit : stp.fmt = streamFormatLzo1x1 →
      lzo.malloc stp.encBlksz.toNat = true ∧ (lzo.compress []).length ≤ stp.encBlksz.toNat)
    (hf : (net sd).sendFails = []) (fuel bytesEncoded : ℕ) :
    Net.run (streamSendLoop lzo sd stp fuel 0 ptr bytesEncoded) net = .blocked := by
  induction fuel generalizing net bytesEncoded with
  | zero =>
    cases ptr with
    | nil => exact absurd rfl hne
    | cons b ptr => rfl
  | succ fuel ih =>
    rw [streamSendLoop_of_ne hne, Nat.zero_min, List.take_zero, List.drop_zero, Net.run_bind,
      run_streamSendBlock hfit hf, Outcome.bind_done]
    exact ih (by simpa using hf) _

private theorem run_streamRecvBlock_raw {raw : Bytes} (hfmt : stp.fmt ≠ streamFormatLzo1x1)
    (hraw : raw.length ≤ stp.blksz.toNat) {fuel : ℕ} {q : List Incoming}
    (hfuel : raw.length ≤ fuel) (hq : (net sd).inq = Net.incoming (blockData raw) ++ q)
    {rawBlksz room : ℕ} (hroom : rawBlksz ≤ room) :
    Net.run (streamRecvBlock lzo sd stp fuel rawBlksz room
        (UInt64.ofNat raw.length)) net =
      if raw.length = rawBlksz then .done (net.withInq sd q) (raw.length, raw)
      else .fault (if rawBlksz < raw.length then .blockBufferTooSmall else .blockNotReceived) := by
  have hblk := stp.blksz.toNat_lt
  rw [streamRecvBlock, if_neg hfmt, Net.run_bind]
  rcases lt_or_ge rawBlksz raw.length with hlong | hshort
  · rw [run_blockRecv_tooLong hlong (by omega), Outcome.bind_fault, if_neg (by omega),
      if_pos hlong]
  have hfits : raw.length ≤ room := hshort.trans hroom
  rw [run_blockRecv hq hfuel hshort (by omega), Outcome.bind_done, Net.run_bind,
    decide_eq_true hfits, Net.run_assert_true, Outcome.bind_done]
  rcases eq_or_ne raw.length rawBlksz with heq | hne
  · simp only [heq, Net.run_bind, beq_self_eq_true, Net.run_assert_true, Outcome.bind_done,
      Net.run_pure, if_true]
  · have hbeq : (raw.length == rawBlksz) = false := beq_eq_false_iff_ne.mpr hne
    rw [if_neg hne, if_neg (by omega), Net.run_bind, hbeq, Net.run_assert_false,
      Outcome.bind_fault]

private theorem run_streamRecvBlock_lzo (hl : lzo.Correct) {raw : Bytes}
    (hfmt : stp.fmt = streamFormatLzo1x1) (hmalloc : lzo.malloc stp.encBlksz.toNat = true)
    (hfit : (lzo.compress raw).length ≤ stp.encBlksz.toNat) {fuel : ℕ} {q : List Incoming}
    (hfuel : (lzo.compress raw).length ≤ fuel)
    (hq : (net sd).inq = Net.incoming (blockData (lzo.compress raw)) ++ q)
    (rawBlksz bytesRemaining : ℕ) :
    Net.run (streamRecvBlock lzo sd stp fuel rawBlksz bytesRemaining
        (UInt64.ofNat (lzo.compress raw).length)) net =
      if raw.length ≤ bytesRemaining then .done (net.withInq sd q) (raw.length, raw)
      else .fault .overflow := by
  have hbuf := stp.encBlksz.toNat_lt
  rw [streamRecvBlock, if_pos hfmt, if_pos hmalloc, Net.run_bind,
    run_blockRecv hq hfuel hfit (by omega), Outcome.bind_done]
  simp only [Net.run_bind, decide_eq_true hfit, Net.run_assert_true, Outcome.bind_done,
    hl.decompress_compress]
  split_ifs with hrem
  · rw [decide_eq_true hrem, Net.run_assert_true, Outcome.bind_done, Net.run_pure]
  · rw [decide_eq_false hrem, Net.run_assert_false, Outcome.bind_fault]

/-- Whether `stream_recv` takes a stream of `len` bytes into a buffer of `n`. A raw block has to
be as long as the receiver expects: the last one is, if it is full or ends with the buffer. -/
def StreamOptions.Receivable (stp : StreamOptions) (len n : ℕ) : Prop :=
  len ≤ n ∧ (stp.fmt = streamFormatLzo1x1 ∨ len = n ∨ stp.blksz.toNat ∣ len)

instance (len n : ℕ) : Decidable (stp.Receivable len n) := inferInstanceAs (Decidable (_ ∧ _))

def StreamOptions.recvFault (stp : StreamOptions) (len n : ℕ) : NetFault :=
  if stp.fmt = streamFormatLzo1x1 then .overflow
  else if n < len then .blockBufferTooSmall else .blockNotReceived

/-- Past an accepted block the question is the same for what remains. -/
private theorem receivable_sub {len n : ℕ} (hle : min stp.blksz.toNat len ≤ n)
    (hraw : stp.fmt ≠ streamFormatLzo1x1 →
      min stp.blksz.toNat len = min stp.blksz.toNat n) :
    stp.Receivable (len - stp.blksz.toNat) (n - min stp.blksz.toNat len) ↔
      stp.Receivable len n := by
  unfold StreamOptions.Receivable
  by_cases hfmt : stp.fmt = streamFormatLzo1x1
  · simp only [hfmt, true_or, and_true]
    omega
  have hraw := hraw hfmt
  simp only [hfmt, false_or]
  rcases le_or_gt stp.blksz.toNat len with hfull | hlast
  · have hdvd : stp.blksz.toNat ∣ len - stp.blksz.toNat ↔ stp.blksz.toNat ∣ len :=
      Nat.dvd_sub_iff_left hfull dvd_rfl
    rw [hdvd, min_eq_left hfull] at *
    constructor <;> rintro ⟨h, h' | h'⟩ <;> first
      | exact ⟨by omega, .inl (by omega)⟩
      | exact ⟨by omega, .inr h'⟩
  · have heq : len = n := by omega
    have hzero : n - stp.blksz.toNat = 0 := by omega
    simp [heq, hzero]

private theorem recvFault_sub (len n : ℕ) (hle : min stp.blksz.toNat len ≤ n) :
    stp.recvFault (len - stp.blksz.toNat) (n - min stp.blksz.toNat len) =
      stp.recvFault len n := by
  have hlt : n - min stp.blksz.toNat len < len - stp.blksz.toNat ↔ n < len := by omega
  simp only [StreamOptions.recvFault, hlt]

/-- A block of the stream is either accepted, or the buffer does not suit the stream. -/
private theorem run_streamRecvBlock (hl : lzo.Correct) (hb : 0 < stp.blksz.toNat) {ptr : Bytes}
    (hne : ptr ≠ []) (hfit : stp.Fits lzo ptr) {fuel rawBlksz n : ℕ} {q : List Incoming}
    (hfuel : 2 * ptr.length + 67 ≤ fuel)
    (hraw : stp.fmt ≠ streamFormatLzo1x1 → rawBlksz = stp.blksz.toNat)
    (hq : (net sd).inq =
      Net.incoming (blockData (stp.encode lzo (ptr.take stp.blksz.toNat))) ++ q) :
    (Net.run (streamRecvBlock lzo sd stp fuel (min rawBlksz n) n
        (UInt64.ofNat (stp.encode lzo (ptr.take stp.blksz.toNat)).length)) net =
      .done (net.withInq sd q) (min stp.blksz.toNat ptr.length, ptr.take stp.blksz.toNat) ∧
      min stp.blksz.toNat ptr.length ≤ n ∧
      (stp.fmt ≠ streamFormatLzo1x1 → min stp.blksz.toNat ptr.length = min stp.blksz.toNat n)) ∨
    (Net.run (streamRecvBlock lzo sd stp fuel (min rawBlksz n) n
        (UInt64.ofNat (stp.encode lzo (ptr.take stp.blksz.toNat)).length)) net =
      .fault (stp.recvFault ptr.length n) ∧ ¬ stp.Receivable ptr.length n) := by
  have hpos := List.length_pos_iff.mpr hne
  have hlen : (ptr.take stp.blksz.toNat).length = min stp.blksz.toNat ptr.length :=
    List.length_take
  have henc : (stp.encode lzo (ptr.take stp.blksz.toNat)).length ≤ _ :=
    StreamOptions.length_encode hl (ptr.take stp.blksz.toNat)
  by_cases hfmt : stp.fmt = streamFormatLzo1x1
  · rw [StreamOptions.encode, if_pos hfmt] at hq henc ⊢
    obtain ⟨hmalloc, hlong⟩ := hfit.take hb hne hfmt
    rw [run_streamRecvBlock_lzo hl hfmt hmalloc hlong (by omega) hq, hlen]
    split_ifs with hrem
    · exact .inl ⟨rfl, hrem, fun h => absurd hfmt h⟩
    · refine .inr ⟨by rw [StreamOptions.recvFault, if_pos hfmt], fun h => ?_⟩
      have hle := h.1
      omega
  · rw [StreamOptions.encode, if_neg hfmt] at hq ⊢
    rw [run_streamRecvBlock_raw hfmt (by omega) (by omega) hq (Nat.min_le_right ..), hlen,
      hraw hfmt]
    split_ifs with heq hlong
    · exact .inl ⟨rfl, by omega, fun _ => heq⟩
    · refine .inr ⟨by rw [StreamOptions.recvFault, if_neg hfmt, if_pos (by omega)], fun h => ?_⟩
      have hle := h.1
      omega
    · refine .inr ⟨by rw [StreamOptions.recvFault, if_neg hfmt, if_neg (by omega)], fun h => ?_⟩
      rcases h.2 with h' | h' | h'
      · exact hfmt h'
      · omega
      · have hle := Nat.le_of_dvd hpos h'
        omega

private theorem run_streamRecvLoop (hl : lzo.Correct)
    (fuel rawBlksz n : ℕ) (data ptr : Bytes) (hb : ptr ≠ [] → 0 < stp.blksz.toNat)
    (hfit : stp.Fits lzo ptr) (bytesDecoded : ℕ) (q : List Incoming)
    (hfuel : 2 * ptr.length + 68 ≤ fuel)
    (hraw : ptr ≠ [] → stp.fmt ≠ streamFormatLzo1x1 → rawBlksz = stp.blksz.toNat)
    (hq : (net sd).inq = Net.incoming (streamBlocks lzo stp ptr ++ [.msg Msg.streamEnd []]) ++ q) :
    Net.run (streamRecvLoop lzo sd stp fuel n rawBlksz n bytesDecoded data) net =
      if stp.Receivable ptr.length n then
        .done (net.withInq sd q) (bytesDecoded + ptr.length, data ++ ptr)
      else .fault (stp.recvFault ptr.length n) := by
  induction fuel generalizing net rawBlksz n ptr data bytesDecoded with
  | zero => omega
  | succ fuel ih =>
    rcases eq_or_ne ptr [] with rfl | hne
    · have hq : (net sd).inq = .record (Sent.msg Msg.streamEnd []).record :: q := by
        simpa [Net.incoming] using hq
      have hnil : stp.Receivable ([] : Bytes).length n :=
        ⟨Nat.zero_le n, .inr (.inr (Nat.dvd_zero _))⟩
      rw [if_pos hnil, streamRecvLoop, Net.run_bind, Net.run_claraRecvmsg hq (Nat.zero_le _),
        Outcome.bind_done]
      simp
    have hb := hb hne
    have hpos := List.length_pos_iff.mpr hne
    have hrest : (ptr.drop stp.blksz.toNat).length = ptr.length - stp.blksz.toNat :=
      List.length_drop
    rw [streamBlocks_of_ne hb hne, blockRecords, List.cons_append, List.cons_append,
      Net.incoming_cons, List.append_assoc, Net.incoming_append, List.cons_append,
      List.append_assoc] at hq
    have hend : Msg.block ≠ Msg.streamEnd := by decide
    rw [streamRecvLoop, Net.run_bind, Net.run_claraRecvmsg hq (by simp [blockParams]),
      Outcome.bind_done]
    simp only [hend, false_and, if_false, blockParams, Bytes.length_word, and_self, if_true,
      Bytes.wordAt_word]
    rw [Net.run_bind]
    have hfuel : 2 * ptr.length + 67 ≤ fuel := by omega
    rcases run_streamRecvBlock hl hb hne hfit (n := n) hfuel (hraw hne)
        (Net.withInq_inq net sd _) with ⟨hrun, hle, hacc⟩ | ⟨hrun, hnot⟩
    · -- what follows an accepted block starts on a full one
      have hfull : ptr.drop stp.blksz.toNat ≠ [] →
          min stp.blksz.toNat ptr.length = stp.blksz.toNat := by
        intro h
        have hpos' := List.length_pos_iff.mpr h
        omega
      have hroom : n - (ptr.take stp.blksz.toNat).length =
          sizeSub n (min stp.blksz.toNat ptr.length) := by
        rw [sizeSub, if_pos hle, List.length_take]
      have hsub : sizeSub n (min stp.blksz.toNat ptr.length) =
          n - min stp.blksz.toNat ptr.length := if_pos hle
      rw [hrun, Outcome.bind_done]
      simp only [hroom, hsub]
      rw [ih _ _ _ _ (fun _ => hb) (hfit.drop hb hne) _ (by omega) (fun h _ => hfull h)
        (Net.withInq_inq ..), Net.withInq_withInq, Net.withInq_withInq, List.append_assoc,
        List.take_append_drop, hrest, recvFault_sub _ _ hle,
        if_congr (receivable_sub hle hacc) rfl rfl]
      congr 3
      omega
    · rw [hrun, Outcome.bind_fault, if_neg hnot]

/-- `stream_recv` of a stream into a buffer of `n` bytes: either all of the data is there and
counted, or it does not return. -/
theorem run_streamRecv_of (hl : lzo.Correct) {data : Bytes}
    (hb : data ≠ [] → 0 < stp.blksz.toNat) (hfit : stp.Fits lzo data) (n : ℕ) {fuel : ℕ}
    (hfuel : 2 * data.length + 68 ≤ fuel) {q : List Incoming}
    (hq : (net sd).inq = Net.incoming (streamRecords lzo stp data) ++ q) :
    Net.run (streamRecv lzo sd fuel n) net =
      if stp.Receivable data.length n then .done (net.withInq sd q) (data.length, data)
      else .fault (stp.recvFault data.length n) := by
  rw [streamRecords, Net.incoming_cons, List.cons_append] at hq
  rw [streamRecv, streamRecvInto, streamRecvWith, Net.run_bind, Net.run_claraRecvmsg hq (by simp),
    Outcome.bind_done]
  simp only [Received.stored, StreamOptions.ofBytes_bytes]
  rw [run_streamRecvLoop hl _ _ _ _ _ hb hfit _ q hfuel (fun _ _ => rfl) (Net.withInq_inq ..),
    Net.withInq_withInq, Nat.zero_add, List.nil_append]

/-- `stream_recv` reads exactly the records of a stream and writes its data. -/
theorem run_streamRecv (hl : lzo.Correct) (hb : 0 < stp.blksz.toNat)
    {data : Bytes} (hfit : stp.Fits lzo data) {fuel : ℕ}
    (hfuel : 2 * data.length + 68 ≤ fuel) {q : List Incoming}
    (hq : (net sd).inq = Net.incoming (streamRecords lzo stp data) ++ q) :
    Net.run (streamRecv lzo sd fuel data.length) net =
      .done (net.withInq sd q) (data.length, data) := by
  have hsame : stp.Receivable data.length data.length := ⟨le_rfl, .inr (.inl rfl)⟩
  rw [run_streamRecv_of hl (fun _ => hb) hfit _ hfuel hq, if_pos hsame]

omit [DecidableEq Sd] in
private theorem assert_decide_mono {a b : ℕ} (h : a ≤ b) {x : ℕ} {f : NetFault} {α : Type}
    [DecidableEq Sd] {p : NetProg Sd α} {r : Outcome (Net Sd) NetFault α} {net' : Net Sd} {y : α}
    (hr : r = .done net' y)
    (hrun : Net.run (NetProg.assert (decide (x ≤ a)) f >>= fun _ => p) net = r) :
    Net.run (NetProg.assert (decide (x ≤ b)) f >>= fun _ => p) net = .done net' y := by
  by_cases hx : x ≤ a
  · rw [decide_eq_true hx] at hrun
    rw [decide_eq_true (hx.trans h), ← hr, ← hrun]
  · rw [decide_eq_false hx, Net.run_bind, Net.run_assert_false, Outcome.bind_fault, hr] at hrun
    cases hrun

private theorem run_streamRecvBlock_mono {fuel bs room room' : ℕ} (hle : room ≤ room')
    {length : UInt64} {net' : Net Sd} {r : ℕ × Bytes}
    (h : Net.run (streamRecvBlock lzo sd stp fuel bs room length) net = .done net' r) :
    Net.run (streamRecvBlock lzo sd stp fuel bs room' length) net = .done net' r := by
  rw [streamRecvBlock] at h ⊢
  split_ifs at h ⊢
  case neg => exact h
  · rw [Net.run_bind] at h
    obtain ⟨n₁, blkbuf, hrecv, h⟩ := Outcome.bind_eq_done h
    rw [Net.run_bind] at h
    obtain ⟨n₂, u, hassert, h⟩ := Outcome.bind_eq_done h
    rw [Net.run_bind, hrecv, Outcome.bind_done, Net.run_bind, hassert, Outcome.bind_done]
    exact assert_decide_mono hle rfl h
  · rw [Net.run_bind] at h
    obtain ⟨n₁, received, hrecv, h⟩ := Outcome.bind_eq_done h
    rw [Net.run_bind, hrecv, Outcome.bind_done]
    exact assert_decide_mono hle rfl h

private theorem run_streamRecvLoop_mono (fuel room room' bs rem bytesDecoded : ℕ) (data : Bytes)
    (hle : room ≤ room') {net' : Net Sd} {r : ℕ × Bytes}
    (h : Net.run (streamRecvLoop lzo sd stp fuel room bs rem bytesDecoded data) net =
      .done net' r) :
    Net.run (streamRecvLoop lzo sd stp fuel room' bs rem bytesDecoded data) net =
      .done net' r := by
  induction fuel generalizing net room room' bs rem bytesDecoded data with
  | zero => cases h
  | succ fuel ih =>
    rw [streamRecvLoop, Net.run_bind] at h ⊢
    obtain ⟨n₁, i, hrecv, h⟩ := Outcome.bind_eq_done h
    rw [hrecv, Outcome.bind_done]
    cases i with
    | failed => exact h
    | notification b => exact h
    | message type blp =>
      simp only at h ⊢
      split_ifs at h ⊢
      · exact h
      · rw [Net.run_bind] at h ⊢
        obtain ⟨n₂, x, hblock, h⟩ := Outcome.bind_eq_done h
        rw [run_streamRecvBlock_mono hle hblock, Outcome.bind_done]
        exact ih _ _ _ _ _ _ (by omega) h
      · exact h

theorem run_streamRecvInto_mono {fuel room room' len : ℕ} (hle : room ≤ room') {net' : Net Sd}
    {r : ℕ × Bytes} (h : Net.run (streamRecvInto lzo sd fuel room len) net = .done net' r) :
    Net.run (streamRecvInto lzo sd fuel room' len) net = .done net' r := by
  rw [streamRecvInto, streamRecvWith, Net.run_bind] at h ⊢
  obtain ⟨n₁, i, hrecv, h⟩ := Outcome.bind_eq_done h
  rw [hrecv, Outcome.bind_done]
  cases hstored : i.stored with
  | none =>
    rw [hstored] at h
    exact h
  | some stp =>
    rw [hstored] at h
    cases hof : StreamOptions.ofBytes stp with
    | none =>
      simp only [hof] at h
      cases h
    | some stp =>
      simp only [hof] at h ⊢
      exact run_streamRecvLoop_mono _ _ _ _ _ _ _ hle h

end

/-- What LZO1X-1 does to up to 13 bytes, too few for a match: one literal run and the end
marker. Longer blocks are stored under a byte that starts no such run. There are 4 GiB of memory. -/
def literalLzo : Lzo where
  compress b := if b.length ≤ 13 then
      if b = [] then [17, 0, 0] else (17 + UInt8.ofNat b.length) :: (b ++ [17, 0, 0])
    else 0 :: b
  decompress
    | [] => []
    | 0 :: b => b
    | t :: b => b.take (t.toNat - 17)
  malloc n := decide (n < 2 ^ 32)

theorem literalLzo_correct : literalLzo.Correct where
  length_le b := by
    simp only [literalLzo]
    split_ifs <;> simp only [List.length_cons, List.length_append, List.length_nil] <;> omega
  decompress_compress b := by
    simp only [literalLzo]
    split_ifs with hlen hnil
    · simp [hnil]
    · have ht : (17 + UInt8.ofNat b.length).toNat = 17 + b.length := by
        simp [UInt8.toNat_add, UInt8.toNat_ofNat']
        omega
      have h0 : 17 + UInt8.ofNat b.length ≠ 0 := fun h => by
        rw [h, UInt8.toNat_zero] at ht
        omega
      split
      · next h => cases h
      · next h => exact absurd (List.cons.inj h).1 h0
      · next t b' _ h =>
        obtain ⟨rfl, rfl⟩ := List.cons.inj h
        rw [ht, Nat.add_sub_cancel_left, List.take_left]
    · rfl

end Clara
