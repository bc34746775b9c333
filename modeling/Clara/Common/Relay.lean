import Clara.Common.Stream

/-! Streams passed on by `block_forward` and `stream_forward`: the records of a stream leave a
forwarding agent as they came, through any number of agents. -/
namespace Clara

open Conc

variable {Sd : Type}

/-- The bytes of the data records. -/
def dataBytes : List Sent → ℕ
  | [] => 0
  | .msg _ _ :: rs => dataBytes rs
  | .data b :: rs => b.length + dataBytes rs

@[simp] theorem dataBytes_append (rs rs' : List Sent) :
    dataBytes (rs ++ rs') = dataBytes rs + dataBytes rs' := by
  induction rs with
  | nil => simp [dataBytes]
  | cons r rs ih => cases r <;> simp [dataBytes, ih, Nat.add_assoc]

theorem dataBytes_blockData (data : Bytes) : dataBytes (blockData data) = data.length := by
  induction h : data.length using Nat.strong_induction_on generalizing data with
  | _ n ih =>
    subst h
    rcases eq_or_ne data [] with rfl | hne
    · simp [dataBytes]
    have hpos := List.length_pos_iff.mpr hne
    have hbpos := blocksize_pos
    have hrest : (data.drop blocksize).length = data.length - blocksize := List.length_drop
    have hlen : (data.take blocksize).length = min blocksize data.length := List.length_take
    rw [blockData_of_ne hne, dataBytes, ih _ (by omega) _ rfl]
    omega

@[simp] theorem dataBytes_blockRecords (data : Bytes) :
    dataBytes (blockRecords data) = data.length := dataBytes_blockData data

theorem length_blockRecords_le (data : Bytes) : (blockRecords data).length ≤ data.length + 1 := by
  have hle := data.length_pieces_le (n := blocksize)
  simp only [blockRecords, blockData, List.length_cons, List.length_map]
  omega

private theorem fuel_streamBlocks {lzo : Lzo} (hl : lzo.Correct) {stp : StreamOptions}
    (hb : 0 < stp.blksz.toNat) (data : Bytes) :
    (streamBlocks lzo stp data).length + dataBytes (streamBlocks lzo stp data) ≤
      140 * data.length := by
  induction h : data.length using Nat.strong_induction_on generalizing data with
  | _ n ih =>
    subst h
    rcases eq_or_ne data [] with rfl | hne
    · simp [dataBytes]
    have hpos := List.length_pos_iff.mpr hne
    have hrest : (data.drop stp.blksz.toNat).length = data.length - stp.blksz.toNat :=
      List.length_drop
    have hpiece : (data.take stp.blksz.toNat).length = min stp.blksz.toNat data.length :=
      List.length_take
    have hlen := stp.length_encode hl (data.take stp.blksz.toNat)
    have hrec := length_blockRecords_le (stp.encode lzo (data.take stp.blksz.toNat))
    have hind := ih _ (by omega) (data.drop stp.blksz.toNat) rfl
    rw [streamBlocks_of_ne hb hne, List.length_append, dataBytes_append, dataBytes_blockRecords]
    omega

/-- A bound on the turns of a forwarding loop. -/
theorem fuel_streamRecords {lzo : Lzo} (hl : lzo.Correct) {stp : StreamOptions}
    (hb : 0 < stp.blksz.toNat) (data : Bytes) :
    (streamRecords lzo stp data).length + dataBytes (streamRecords lzo stp data) ≤
      140 * data.length + 2 := by
  have hblocks := fuel_streamBlocks hl hb data
  simp only [streamRecords, List.length_cons, List.length_append, List.length_nil, dataBytes,
    dataBytes_append]
  omega

section
variable [DecidableEq Sd] {net : Net Sd} {sdIn sdOut : Sd}

omit [DecidableEq Sd] in
theorem blockForwardSend_nil (fuel n : ℕ) :
    blockForwardSend sdOut fuel [] n = pure (true, n) := by
  cases fuel <;> rfl

omit [DecidableEq Sd] in
theorem blockForwardSend_cons (fuel : ℕ) (b : UInt8) (ptr : Bytes) (n : ℕ) :
    blockForwardSend sdOut (fuel + 1) (b :: ptr) n = claraSend sdOut (b :: ptr) >>= fun r =>
      match r with
      | none => pure (false, n)
      | some ssz => blockForwardSend sdOut fuel ((b :: ptr).drop ssz) (n + ssz) := rfl

private theorem run_blockForwardSend {buf : Bytes} (h : buf ≠ []) (n : ℕ)
    (hf : (net sdOut).sendFails = []) :
    Net.run (blockForwardSend sdOut buf.length buf n) net =
      .done (net.push sdOut [.data buf]) (true, n + buf.length) := by
  cases buf with
  | nil => exact absurd rfl h
  | cons b buf =>
    rw [List.length_cons, blockForwardSend_cons, Net.run_bind, Net.run_claraSend hf,
      Outcome.bind_done]
    simp only [List.length_cons, List.drop_succ_cons, List.drop_length, blockForwardSend_nil,
      Net.run_pure]

omit [DecidableEq Sd] in
theorem blockForwardLoop_of_pos {n : ℕ} (h : 0 < n) (fuel bs m : ℕ) :
    blockForwardLoop sdIn sdOut (fuel + 1) bs n m = claraRecv sdIn (min bs n) >>= fun msg =>
      match msg with
      | none => pure m
      | some buf => blockForwardSend sdOut buf.length buf m >>= fun r => match r with
        | (false, forwarded) => pure forwarded
        | (true, forwarded) =>
          blockForwardLoop sdIn sdOut fuel (min bs n) (n - buf.length) forwarded := by
  cases n with
  | zero => exact absurd h (Nat.lt_irrefl 0)
  | succ n => rfl

/-- The length of the buffer, what remains of the block and what has been passed on shrink and
grow together: the buffer is full as long as the rest of the block does not fit in it. -/
private theorem run_blockForwardLoop (hne : sdIn ≠ sdOut) (fuel bs : ℕ) (data : Bytes) (n : ℕ)
    (q : List Incoming) (hf : (net sdOut).sendFails = [])
    (hq : (net sdIn).inq = Net.incoming (blockData data) ++ q) (hfuel : data.length ≤ fuel)
    (hbs : min bs data.length = min blocksize data.length) :
    Net.run (blockForwardLoop sdIn sdOut fuel bs data.length n) net =
      .done ((net.withInq sdIn q).push sdOut (blockData data)) (n + data.length) := by
  induction fuel generalizing net bs data n with
  | zero =>
    obtain rfl := List.eq_nil_of_length_eq_zero (Nat.le_zero.mp hfuel)
    rw [blockData_nil, Net.incoming_nil, List.nil_append] at hq
    simp [blockForwardLoop, Net.withInq_self hq]
  | succ fuel ih =>
    rcases eq_or_ne data [] with rfl | hdata
    · rw [blockData_nil, Net.incoming_nil, List.nil_append] at hq
      simp [blockForwardLoop, Net.withInq_self hq]
    have hpos := List.length_pos_iff.mpr hdata
    have hbpos := blocksize_pos
    have hlen : (data.take blocksize).length = min blocksize data.length := List.length_take
    have hrest : (data.drop blocksize).length = data.length - blocksize := List.length_drop
    have htake : data.take blocksize ≠ [] := by
      apply List.ne_nil_of_length_pos
      omega
    rw [blockData_of_ne hdata, Net.incoming_cons, List.cons_append] at hq
    have hfits : (Sent.data (data.take blocksize)).record.length ≤ min bs data.length := by
      rw [Sent.record, hlen, hbs]
    rw [blockForwardLoop_of_pos hpos, Net.run_bind, Net.run_claraRecv hq hfits, Outcome.bind_done]
    simp only [Sent.record]
    have hf₁ : (net.withInq sdIn (Net.incoming (blockData (data.drop blocksize)) ++ q)
        sdOut).sendFails = [] := by rw [Net.withInq_of_ne (h := hne.symm), hf]
    rw [Net.run_bind, run_blockForwardSend htake n hf₁, Outcome.bind_done]
    simp only
    have hremaining : data.length - (data.take blocksize).length =
        (data.drop blocksize).length := by omega
    rw [hremaining, ih _ _ _ (by rwa [Net.push_sendFails])
      (by rw [Net.push_of_ne (h := hne), Net.withInq_inq]) (by omega) (by omega),
      Net.withInq_push (h := hne),
      Net.withInq_withInq, Net.push_push, blockData_of_ne hdata, List.singleton_append]
    congr 1
    omega

theorem run_blockForward (hne : sdIn ≠ sdOut) {fuel : ℕ} {data : Bytes} {q : List Incoming}
    (hf : (net sdOut).sendFails = [])
    (hq : (net sdIn).inq = Net.incoming (blockData data) ++ q) (hfuel : data.length ≤ fuel)
    (hsize : data.length < 2 ^ 64) :
    Net.run (blockForward sdIn sdOut fuel (UInt64.ofNat data.length)) net =
      .done ((net.withInq sdIn q).push sdOut (blockRecords data)) data.length := by
  have hn : (UInt64.ofNat data.length).toNat = data.length := by
    rw [UInt64.toNat_ofNat', Nat.mod_eq_of_lt hsize]
  rw [blockForward, Net.run_bind, Net.run_claraSendmsg hf, Outcome.bind_done]
  simp only [hn]
  rw [run_blockForwardLoop hne fuel _ data 0 q (by rwa [Net.push_sendFails])
    (by rw [Net.push_of_ne (h := hne), hq]) hfuel rfl, Net.withInq_push (h := hne), Net.push_push,
    Nat.zero_add]
  rfl

end

/-- The records of a stream with the blocks `blks`. -/
def streamOf (stp : StreamOptions) (blks : List Bytes) : List Sent :=
  .msg Msg.streamStart stp.bytes :: (blks.flatMap blockRecords ++ [.msg Msg.streamEnd []])

section
variable [DecidableEq Sd] {net net' : Net Sd} {sd sdIn sdOut : Sd} {lzo : Lzo}
  {stp : StreamOptions}

/-- The length of a block that `stream_send` has sent fits in its header. -/
private theorem run_streamSendBlock_done {raw : Bytes} (hraw : raw.length < 2 ^ 64)
    (hf : (net sd).sendFails = [])
    (h : Net.run (streamSendBlock lzo sd stp raw) net = .done net' ()) :
    ∃ blk : Bytes, blk.length < 2 ^ 64 ∧ net' = net.push sd (blockRecords blk) := by
  rw [streamSendBlock] at h
  split_ifs at h with hfmt
  · cases hmalloc : lzo.malloc stp.encBlksz.toNat with
    | false =>
      rw [hmalloc] at h
      cases h
    | true =>
    rw [hmalloc] at h
    by_cases henc : (lzo.compress raw).length ≤ stp.encBlksz.toNat
    · simp only [decide_eq_true henc, Net.run_bind, Net.run_assert_true, Outcome.bind_done,
        run_blockSend _ hf, beq_self_eq_true, Outcome.done.injEq, and_true] at h
      exact ⟨lzo.compress raw, henc.trans_lt stp.encBlksz.toNat_lt, h.symm⟩
    · simp only [decide_eq_false henc] at h
      cases h
  · simp only [Net.run_bind, run_blockSend _ hf, Outcome.bind_done, beq_self_eq_true,
      Net.run_assert_true, Outcome.done.injEq, and_true] at h
    exact ⟨raw, hraw, h.symm⟩

private theorem run_streamSendLoop_done (fuel rawBlksz : ℕ) (ptr : Bytes) (bytesEncoded n : ℕ)
    (hraw : rawBlksz < 2 ^ 64) (hf : (net sd).sendFails = [])
    (h : Net.run (streamSendLoop lzo sd stp fuel rawBlksz ptr bytesEncoded) net = .done net' n) :
    ∃ blks : List Bytes, (∀ b ∈ blks, b.length < 2 ^ 64) ∧
      net' = net.push sd (blks.flatMap blockRecords) := by
  induction fuel generalizing net rawBlksz ptr bytesEncoded with
  | zero =>
    cases ptr with
    | nil =>
      obtain ⟨rfl, -⟩ := Outcome.done.inj h
      exact ⟨[], by simp, by simp⟩
    | cons b ptr => cases h
  | succ fuel ih =>
    rcases eq_or_ne ptr [] with rfl | hne
    · obtain ⟨rfl, -⟩ := Outcome.done.inj h
      exact ⟨[], by simp, by simp⟩
    rw [streamSendLoop_of_ne hne, Net.run_bind] at h
    obtain ⟨net₁, u, hblock, hrest⟩ := Outcome.bind_eq_done h
    have hlen : (ptr.take (min rawBlksz ptr.length)).length < 2 ^ 64 := by
      rw [List.length_take]
      omega
    obtain ⟨blk, hblk, rfl⟩ := run_streamSendBlock_done hlen hf hblock
    obtain ⟨blks, hblks, rfl⟩ := ih _ _ _ (by omega) (by rwa [Net.push_sendFails]) hrest
    refine ⟨blk :: blks, ?_, ?_⟩
    · simpa using ⟨hblk, hblks⟩
    · rw [Net.push_push, List.flatMap_cons]

/-- What `stream_send` sends when it returns, whatever the format and the block size. -/
theorem run_streamSend_done {data : Bytes} {opts : Option StreamOptions} {n : ℕ}
    (hf : (net sd).sendFails = [])
    (h : Net.run (streamSend lzo sd data opts) net = .done net' n) :
    ∃ blks : List Bytes, (∀ b ∈ blks, b.length < 2 ^ 64) ∧
      net' = net.push sd (streamOf (opts.getD .default) blks) := by
  rw [streamSend, Net.run_bind, Net.run_claraSendmsg hf, Outcome.bind_done] at h
  simp only [Net.run_bind] at h
  obtain ⟨net₁, m, hloop, hrest⟩ := Outcome.bind_eq_done h
  obtain ⟨blks, hblks, rfl⟩ := run_streamSendLoop_done _ _ _ _ _ (UInt64.toNat_lt _)
    (by rwa [Net.push_sendFails]) hloop
  rw [Net.run_claraSendmsg (by simpa using hf), Outcome.bind_done, Net.run_pure] at hrest
  obtain ⟨rfl, -⟩ := Outcome.done.inj hrest
  refine ⟨blks, hblks, ?_⟩
  rw [Net.push_push, Net.push_push, List.singleton_append]
  rfl

theorem run_streamForwardLoop (hne : sdIn ≠ sdOut) (fuel : ℕ) (blks : List Bytes)
    (n : ℕ) (q : List Incoming) (hblks : ∀ b ∈ blks, b.length < 2 ^ 64)
    (hf : (net sdOut).sendFails = [])
    (hq : (net sdIn).inq =
      Net.incoming (blks.flatMap blockRecords ++ [.msg Msg.streamEnd []]) ++ q)
    (hfuel : (blks.flatMap blockRecords).length + dataBytes (blks.flatMap blockRecords) < fuel) :
    Net.run (streamForwardLoop sdIn sdOut fuel n) net =
      .done ((net.withInq sdIn q).push sdOut
          (blks.flatMap blockRecords ++ [.msg Msg.streamEnd []]))
        (n + dataBytes (blks.flatMap blockRecords)) := by
  induction blks generalizing net fuel n with
  | nil =>
    have hq : (net sdIn).inq = .record (Sent.msg Msg.streamEnd []).record :: q := by
      simpa [Net.incoming] using hq
    cases fuel with
    | zero => omega
    | succ fuel =>
      rw [streamForwardLoop, Net.run_bind, Net.run_claraRecvmsg hq (Nat.zero_le _),
        Outcome.bind_done]
      simp only [List.length_nil, and_self, if_true]
      rw [Net.run_bind, Net.run_claraSendmsg (by rwa [Net.withInq_of_ne (h := hne.symm)]),
        Outcome.bind_done]
      simp [dataBytes]
  | cons blk blks ih =>
    simp only [List.mem_cons, forall_eq_or_imp] at hblks
    obtain ⟨hblk, hblks⟩ := hblks
    simp only [List.flatMap_cons, List.length_append, dataBytes_append,
      dataBytes_blockRecords] at hfuel ⊢
    have hrecords : 1 ≤ (blockRecords blk).length := by simp [blockRecords]
    cases fuel with
    | zero => omega
    | succ fuel =>
      rw [List.flatMap_cons, blockRecords, List.cons_append, List.cons_append, Net.incoming_cons,
        List.append_assoc, Net.incoming_append, List.cons_append, List.append_assoc] at hq
      have hend : Msg.block ≠ Msg.streamEnd := by decide
      rw [streamForwardLoop, Net.run_bind, Net.run_claraRecvmsg hq (by simp [blockParams]),
        Outcome.bind_done]
      simp only [hend, false_and, if_false, blockParams, Bytes.length_word, and_self, if_true,
        Bytes.wordAt_word]
      rw [Net.run_bind, run_blockForward hne (by rwa [Net.withInq_of_ne (h := hne.symm)])
        (Net.withInq_inq ..) (by omega) hblk, Outcome.bind_done, Net.withInq_withInq,
        ih _ _ hblks (by rwa [Net.push_sendFails, Net.withInq_of_ne (h := hne.symm)])
          (by rw [Net.push_of_ne (h := hne), Net.withInq_inq]) (by omega),
        Net.withInq_push (h := hne), Net.withInq_withInq, Net.push_push, Nat.add_assoc,
        List.append_assoc]

/-- `stream_forward` passes on the records of a stream and returns the length of its blocks. -/
theorem run_streamForward (hne : sdIn ≠ sdOut) {fuel : ℕ} {blks : List Bytes}
    {q : List Incoming} (hblks : ∀ b ∈ blks, b.length < 2 ^ 64)
    (hf : (net sdOut).sendFails = [])
    (hq : (net sdIn).inq = Net.incoming (streamOf stp blks) ++ q)
    (hfuel : (streamOf stp blks).length + dataBytes (streamOf stp blks) ≤ fuel) :
    Net.run (streamForward sdIn sdOut fuel) net =
      .done ((net.withInq sdIn q).push sdOut (streamOf stp blks))
        (dataBytes (streamOf stp blks)) := by
  simp only [streamOf, List.length_cons, List.length_append, List.length_nil, dataBytes,
    dataBytes_append] at hfuel ⊢
  rw [streamOf, Net.incoming_cons, List.cons_append] at hq
  rw [streamForward, streamForwardWith, Net.run_bind, Net.run_claraRecvmsg hq (by simp),
    Outcome.bind_done]
  simp only [streamForwardWith.streamForwardFrom, Bytes.whole, StreamOptions.length_bytes, if_true]
  rw [Net.run_bind, Net.run_claraSendmsg (by rwa [Net.withInq_of_ne (h := hne.symm)]),
    Outcome.bind_done]
  simp only
  rw [run_streamForwardLoop hne fuel blks 0 q hblks
    (by rwa [Net.push_sendFails, Net.withInq_of_ne (h := hne.symm)])
    (by rw [Net.push_of_ne (h := hne), Net.withInq_inq]) (by omega), Net.withInq_push (h := hne),
    Net.withInq_withInq,
    Net.push_push, Nat.zero_add, Nat.add_zero, List.singleton_append]

theorem run_streamForward_records (hne : sdIn ≠ sdOut) {lzo : Lzo} {data : Bytes}
    (hfit : stp.Fits lzo data) {fuel : ℕ} {q : List Incoming} (hf : (net sdOut).sendFails = [])
    (hq : (net sdIn).inq = Net.incoming (streamRecords lzo stp data) ++ q)
    (hfuel : (streamRecords lzo stp data).length + dataBytes (streamRecords lzo stp data) ≤ fuel) :
    Net.run (streamForward sdIn sdOut fuel) net =
      .done ((net.withInq sdIn q).push sdOut (streamRecords lzo stp data))
        (dataBytes (streamRecords lzo stp data)) := by
  have hrecords : streamRecords lzo stp data =
      streamOf stp ((data.pieces stp.blksz.toNat).map (stp.encode lzo)) := by
    rw [streamRecords, streamOf, streamBlocks, List.flatMap_map]
  have hblks : ∀ b ∈ (data.pieces stp.blksz.toNat).map (stp.encode lzo), b.length < 2 ^ 64 := by
    intro b hb
    obtain ⟨raw, hraw, rfl⟩ := List.mem_map.mp hb
    rw [StreamOptions.encode]
    split_ifs with hfmt
    · have hlen := hfit hfmt raw hraw
      have hbuf := stp.encBlksz.toNat_lt
      omega
    · have hlen := (List.mem_pieces hraw).2
      have hbuf := stp.blksz.toNat_lt
      omega
  rw [hrecords] at hq hfuel ⊢
  exact run_streamForward hne hblks hf hq hfuel

end

/-- A forwarding agent between two connections, of which the one it sends on does not fail. -/
structure Forwarder (Sd : Type) where
  net : Net Sd
  sdIn : Sd
  sdOut : Sd
  ne : sdIn ≠ sdOut
  sends : (net sdOut).sendFails = []

section
variable [DecidableEq Sd]

/-- What the agent passes on when the records `rs` come before what waits for it already. -/
def Forwarder.pass (f : Forwarder Sd) (fuel : ℕ) (rs : List Sent) : Option (List Sent) :=
  match Net.run (streamForward f.sdIn f.sdOut fuel)
      (f.net.withInq f.sdIn (Net.incoming rs ++ (f.net f.sdIn).inq)) with
  | .done net' _ => some ((net' f.sdOut).sent.drop (f.net f.sdOut).sent.length)
  | _ => none

/-- What comes out behind a row of agents. -/
def relay (fuel : ℕ) : List (Forwarder Sd) → List Sent → Option (List Sent)
  | [], rs => some rs
  | f :: fs, rs => (f.pass fuel rs).bind (relay fuel fs)

variable {stp : StreamOptions} {blks : List Bytes} {fuel : ℕ}

theorem Forwarder.pass_streamOf (f : Forwarder Sd) (hblks : ∀ b ∈ blks, b.length < 2 ^ 64)
    (hfuel : (streamOf stp blks).length + dataBytes (streamOf stp blks) ≤ fuel) :
    f.pass fuel (streamOf stp blks) = some (streamOf stp blks) := by
  have hf : ∀ q, (f.net.withInq f.sdIn q f.sdOut).sendFails = [] := by
    intro q
    rw [Net.withInq_of_ne (h := f.ne.symm), f.sends]
  have hsent : ∀ q, (f.net.withInq f.sdIn q f.sdOut).sent = (f.net f.sdOut).sent := by
    intro q
    rw [Net.withInq, Function.update_of_ne f.ne.symm]
  rw [Forwarder.pass, run_streamForward f.ne hblks (hf _) (Net.withInq_inq ..) hfuel]
  simp only [Net.withInq_withInq, Net.push_sent, hsent, List.drop_left]

theorem relay_streamOf (fs : List (Forwarder Sd)) (hblks : ∀ b ∈ blks, b.length < 2 ^ 64)
    (hfuel : (streamOf stp blks).length + dataBytes (streamOf stp blks) ≤ fuel) :
    relay fuel fs (streamOf stp blks) = some (streamOf stp blks) := by
  induction fs with
  | nil => rfl
  | cons f fs ih => rw [relay, f.pass_streamOf hblks hfuel, Option.bind_some, ih]

variable {net net' : Net Sd} {sd : Sd} {lzo : Lzo}

/-- Whatever `stream_send` puts on a connection leaves a forwarding agent record by record as it
came, and any number of them are invisible to `stream_recv`. -/
theorem streamForward_streamSend {data : Bytes} {opts : Option StreamOptions} {n : ℕ}
    (hf : (net sd).sendFails = [])
    (h : Net.run (streamSend lzo sd data opts) net = .done net' n) :
    ∃ rs, net' = net.push sd rs ∧
      (∀ (fuel : ℕ) (agent : Net Sd) (sdIn sdOut : Sd) (q : List Incoming), sdIn ≠ sdOut →
        (agent sdOut).sendFails = [] → (agent sdIn).inq = Net.incoming rs ++ q →
        rs.length + dataBytes rs ≤ fuel →
        Net.run (streamForward sdIn sdOut fuel) agent =
          .done ((agent.withInq sdIn q).push sdOut rs) (dataBytes rs)) ∧
      ∀ (fuel : ℕ) (fs : List (Forwarder Sd)), rs.length + dataBytes rs ≤ fuel →
        ∃ rs', relay fuel fs rs = some rs' ∧
          ∀ (recvFuel len : ℕ) (receiver : Net Sd) (sd : Sd) (q : List Incoming),
            Net.run (streamRecv lzo sd recvFuel len)
                (receiver.withInq sd (Net.incoming rs' ++ q)) =
              Net.run (streamRecv lzo sd recvFuel len)
                (receiver.withInq sd (Net.incoming rs ++ q)) := by
  obtain ⟨blks, hblks, rfl⟩ := run_streamSend_done hf h
  refine ⟨streamOf (opts.getD .default) blks, rfl, ?_, ?_⟩
  · intro fuel agent sdIn sdOut q hne hout hq hfuel
    exact run_streamForward hne hblks hout hq hfuel
  · intro fuel fs hfuel
    have hrelay := relay_streamOf fs hblks hfuel
    exact ⟨_, hrelay, fun _ _ _ _ _ => rfl⟩

end

theorem streamForward_streamSend_five_bytes :
    ∃ rs, Net.push (fun _ : Bool => .fresh) true
        (streamRecords literalLzo ⟨streamFormatLzo1x1, 2⟩ [1, 2, 3, 4, 5]) =
        Net.push (fun _ => .fresh) true rs ∧
      (∀ (fuel : ℕ) (agent : Net Bool) (sdIn sdOut : Bool) (q : List Incoming), sdIn ≠ sdOut →
        (agent sdOut).sendFails = [] → (agent sdIn).inq = Net.incoming rs ++ q →
        rs.length + dataBytes rs ≤ fuel →
        Net.run (streamForward sdIn sdOut fuel) agent =
          .done ((agent.withInq sdIn q).push sdOut rs) (dataBytes rs)) ∧
      ∀ (fuel : ℕ) (fs : List (Forwarder Bool)), rs.length + dataBytes rs ≤ fuel →
        ∃ rs', relay fuel fs rs = some rs' ∧
          ∀ (recvFuel len : ℕ) (receiver : Net Bool) (sd : Bool) (q : List Incoming),
            Net.run (streamRecv literalLzo sd recvFuel len)
                (receiver.withInq sd (Net.incoming rs' ++ q)) =
              Net.run (streamRecv literalLzo sd recvFuel len)
                (receiver.withInq sd (Net.incoming rs ++ q)) :=
  streamForward_streamSend rfl
    (run_streamSend (by decide)
      (StreamOptions.fits literalLzo_correct (by decide) (by decide) [1, 2, 3, 4, 5]) rfl)

end Clara
