import Clara.Provider.Turn

/-! What the provider makes of the requests that wait for it: the records it takes, those it
sends, and the state it is left in, whatever waits behind them. -/
namespace Clara.Provider

open Conc PProg

variable {Cl : Type}

/-- The provider takes the records `rs` and sends `out`; the network apart, it goes from `s`
to `s'`. -/
def Works (lzo : Lzo) (fuel : ℕ) (lib : OpenCl Cl) (rs out : List Sent) (s s' : State Cl) :
    Prop :=
  ∃ n ≤ rs.length, ∀ q o m,
    providerMain lzo fuel lib (n + m) (s.withNet (.wire (Net.incoming rs ++ q) o)) =
      providerMain lzo fuel lib m (s'.withNet (.wire q (o ++ out)))

section
variable {lzo : Lzo} {fuel : ℕ} {lib : OpenCl Cl} {rs rs' out out' : List Sent}
  {s s₁ s' : State Cl}

theorem Works.refl (s : State Cl) : Works lzo fuel lib [] [] s s := by
  refine ⟨0, le_rfl, fun q o m => ?_⟩
  rw [Nat.zero_add, Net.incoming_nil, List.nil_append, List.append_nil]

theorem Works.trans (h : Works lzo fuel lib rs out s s₁) (h' : Works lzo fuel lib rs' out' s₁ s') :
    Works lzo fuel lib (rs ++ rs') (out ++ out') s s' := by
  obtain ⟨n, hn, hrun⟩ := h
  obtain ⟨n', hn', hrun'⟩ := h'
  refine ⟨n + n', ?_, fun q o m => ?_⟩
  · rw [List.length_append]
    omega
  · rw [Net.incoming_append, List.append_assoc, Nat.add_assoc, hrun, hrun', List.append_assoc]

theorem Works.turn (hrs : rs ≠ []) (h : ∀ q o,
      providerTurn lzo fuel lib (s.withNet (.wire (Net.incoming rs ++ q) o)) =
        .done (s'.withNet (.wire q (o ++ out))) true) : Works lzo fuel lib rs out s s' := by
  have hpos := List.length_pos_iff.mpr hrs
  refine ⟨1, hpos, fun q o m => ?_⟩
  rw [Nat.add_comm, providerMain_succ, h]

/-- When nothing else waits, the provider works until it waits itself. -/
theorem Works.providerMain (h : Works lzo fuel lib rs out s s') :
    providerMain lzo fuel lib (rs.length + 1) (s.withNet (.wire (Net.incoming rs) [])) =
      .done (s'.withNet (.wire [] out)) true := by
  obtain ⟨n, hn, hrun⟩ := h
  have hsplit : rs.length + 1 = n + (rs.length - n + 1) := by omega
  have hq := hrun [] [] (rs.length - n + 1)
  rw [List.append_nil, List.nil_append] at hq
  rw [hsplit, hq, providerMain_succ, providerTurn_idle rfl]

/-- The provider takes some of the records `rs`, and aborts. -/
def Breaks (lzo : Lzo) (fuel : ℕ) (lib : OpenCl Cl) (rs : List Sent) (f : Fault) (s : State Cl) :
    Prop :=
  ∃ n ≤ rs.length, ∀ q o m,
    providerMain lzo fuel lib (n + m) (s.withNet (.wire (Net.incoming rs ++ q) o)) = .fault f

theorem Works.breaks {f : Fault} (h : Works lzo fuel lib rs [] s s₁)
    (hb : Breaks lzo fuel lib rs' f s₁) : Breaks lzo fuel lib (rs ++ rs') f s := by
  obtain ⟨n, hn, hrun⟩ := h
  obtain ⟨n', hn', hbreak⟩ := hb
  refine ⟨n + n', ?_, fun q o m => ?_⟩
  · rw [List.length_append]
    omega
  · rw [Net.incoming_append, List.append_assoc, Nat.add_assoc, hrun, hbreak]

theorem providerMain_idle (n : ℕ) (s : State Cl) (o : List Sent) :
    providerMain lzo fuel lib n (s.withNet (.wire [] o)) = .done (s.withNet (.wire [] o)) true := by
  cases n with
  | zero => rfl
  | succ n => rw [providerMain_succ, providerTurn_idle rfl]

theorem Breaks.not_works {f : Fault} (h : Breaks lzo fuel lib rs f s) :
    ¬ Works lzo fuel lib rs out s s' := by
  rintro ⟨n, -, hrun⟩
  obtain ⟨n', -, hbreak⟩ := h
  have hfault := hbreak [] [] n
  rw [Nat.add_comm, hrun [] [] n', providerMain_idle] at hfault
  cases hfault

theorem Breaks.providerMain {f : Fault} (h : Breaks lzo fuel lib rs f s) :
    providerMain lzo fuel lib (rs.length + 1) (s.withNet (.wire (Net.incoming rs) [])) =
      .fault f := by
  obtain ⟨n, hn, hrun⟩ := h
  have hsplit : rs.length + 1 = n + (rs.length - n + 1) := by omega
  have hq := hrun [] [] (rs.length - n + 1)
  rwa [List.append_nil, ← hsplit] at hq

end

section
variable {s : State Cl}

theorem State.Sound.withNet (h : s.Sound) (n : Net Unit) : (s.withNet n).Sound :=
  ⟨h.idMap, h.allocations, h.keyed⟩

theorem State.Sound.of_kept {s' : State Cl} (h : s.Sound) (hk : Kept s s') : s'.Sound where
  idMap := by rw [hk.idMap, h.idMap]
  allocations := by rw [hk.allocations, h.allocations]
  keyed := by rw [hk.allocations]; exact h.keyed

theorem State.Sound.mapped (h : s.Sound) {virt : GlobalId} (hv : virt ∉ s.idMap) (real : Arg) :
    (s.mapped virt real).Sound where
  idMap := by simp [State.mapped, hv, h.idMap]
  allocations := h.allocations
  keyed := h.keyed

theorem State.Sound.wrote (h : s.Sound) (ptr : Arg) (b : Bytes) : (s.wrote ptr b).Sound :=
  ⟨h.idMap, h.allocations, h.keyed⟩

theorem State.Sound.mappedAt (h : s.Sound) {virt : GlobalId} (hv : virt ∉ s.idMap) (p : Arg)
    (b : Bytes) : (s.mappedAt virt p b).Sound where
  idMap := (h.mapped hv (b.wordAt 0)).idMap
  allocations := h.allocations
  keyed := h.keyed

theorem State.Sound.allocated (h : s.Sound) {params : AllocateRequest}
    (ha : params.handle ∉ s.allocations) (hv : params.handle ∉ s.idMap) (ptr : Arg) (b : Bytes) :
    (s.allocated params ptr b).Sound where
  idMap := by simp [State.allocated, hv, h.idMap]
  allocations := by simp [State.allocated, ha, h.allocations]
  keyed := by
    intro handle a hlook
    rw [State.allocated, IdSet.lookup_add ha] at hlook
    split_ifs at hlook with heq
    · rw [← Option.some.inj hlook, heq]
    · exact h.keyed handle a hlook

theorem State.Sound.freed (h : s.Sound) (handle : Handle) (a : Allocation) :
    (s.freed handle a).Sound where
  idMap := h.idMap
  allocations := h.allocations
  keyed := by
    intro handle' a' hlook
    rw [State.freed, IdSet.lookup_erase] at hlook
    split_ifs at hlook
    exact h.keyed handle' a' hlook

end

def State.took (s : State Cl) (msg : Bytes) : State Cl := { s with buf := s.buf.receive msg }

section
variable {lzo : Lzo} {fuel : ℕ} {lib : OpenCl Cl} {s : State Cl}

theorem Works.message {type : MessageType} {msg : Bytes} {out : List Sent} {s' : State Cl}
    (hm : msg.length ≤ recvbufsz)
    (h : ∀ q o, handleMessage lzo fuel lib type msg.length
      ((s.took msg).withNet (.wire q o)) = .done (s'.withNet (.wire q (o ++ out))) ()) :
    Works lzo fuel lib [.msg type msg] out s s' := by
  apply Works.turn (List.cons_ne_nil _ _)
  intro q o
  rw [providerTurn_message rfl hm]
  exact congrArg (Outcome.bind · _) (h q o)

theorem Breaks.message {type : MessageType} {msg : Bytes} {f : Fault}
    (hm : msg.length ≤ recvbufsz)
    (h : ∀ q o, handleMessage lzo fuel lib type msg.length
      ((s.took msg).withNet (.wire q o)) = .fault f) :
    Breaks lzo fuel lib [.msg type msg] f s := by
  refine ⟨1, le_rfl, fun q o m => ?_⟩
  have hturn : providerTurn lzo fuel lib
      (s.withNet (.wire (Net.incoming [.msg type msg] ++ q) o)) = .fault f := by
    rw [providerTurn_message rfl hm]
    exact congrArg (Outcome.bind · _) (h q o)
  rw [Nat.add_comm, providerMain_succ, hturn]

theorem State.took_word (s : State Cl) {ws : List UInt64} {b : Bytes} {i : ℕ} {w : UInt64}
    (hm : (Bytes.words ws ++ b).length ≤ recvbufsz) (h : ws[i]? = some w) :
    (s.took (Bytes.words ws ++ b)).buf.word i = w := s.buf.word_receive_words hm h

theorem State.took_word_words (s : State Cl) {ws : List UInt64} {i : ℕ} {w : UInt64}
    (hm : (Bytes.words ws).length ≤ recvbufsz) (h : ws[i]? = some w) :
    (s.took (Bytes.words ws)).buf.word i = w := by
  rw [← List.append_nil (Bytes.words ws)] at hm ⊢
  exact s.took_word hm h

theorem State.Sound.took (hs : s.Sound) (msg : Bytes) : (s.took msg).Sound :=
  ⟨hs.idMap, hs.allocations, hs.keyed⟩

theorem State.withNet_sends (s : State Cl) (q : List Incoming) (o rs : List Sent) :
    (s.withNet (.wire q o)).sends rs = s.withNet (.wire q (o ++ rs)) := by
  rw [State.sends, State.withNet_net, Net.wire_push]
  rfl

theorem length_words_le (ws : List UInt64) (h : ws.length ≤ 5) :
    (Bytes.words ws).length ≤ recvbufsz := by
  rw [Bytes.length_words]
  unfold recvbufsz
  omega

theorem works_ping (sec : UInt64) :
    Works lzo fuel lib [.msg Msg.ping (Bytes.words [sec])] [.msg Msg.pong (Bytes.word sec)] s
      (s.took (Bytes.words [sec])) := by
  have hm := length_words_le [sec] (by decide : 1 ≤ 5)
  have hword := s.took_word_words (i := 0) hm rfl
  apply Works.message hm
  intro q o
  show handlePing _ = _
  rw [handlePing_run (by rfl), State.withNet_buf, hword, State.withNet_sends]

theorem works_mapping (hs : s.Sound) {virt : GlobalId} (real : Arg) (hv : virt ∉ s.idMap) :
    Works lzo fuel lib [.msg Msg.mapping (Bytes.words [virt, real])] [] s
      ((s.took (Bytes.words [virt, real])).mapped virt real) := by
  have hm := length_words_le [virt, real] (by decide : 2 ≤ 5)
  have h0 := s.took_word_words (i := 0) hm rfl
  have h1 := s.took_word_words (i := 1) hm rfl
  apply Works.message hm
  intro q o
  show handleMapping _ = _
  rw [handleMapping_run (s := (s.took _).withNet (.wire q o)) ((hs.took _).withNet _) h0 h1 hv,
    List.append_nil]
  rfl

theorem works_mapatptr (hs : s.Sound) {virt ptr : GlobalId} {p : Arg} {b : Bytes}
    (hp : s.idMap.lookup ptr = some p) (hb : s.mem p = some b) (hlen : 8 ≤ b.length)
    (hv : virt ∉ s.idMap) :
    Works lzo fuel lib [.msg Msg.mapatptrRequest (Bytes.words [virt, ptr])]
      [.msg Msg.mapatptrResponse (Bytes.word (b.wordAt 0))] s
      ((s.took (Bytes.words [virt, ptr])).mappedAt virt p b) := by
  have hm := length_words_le [virt, ptr] (by decide : 2 ≤ 5)
  have h0 := s.took_word_words (i := 0) hm rfl
  have h1 := s.took_word_words (i := 1) hm rfl
  apply Works.message hm
  intro q o
  have hmap := mapatptr_run ((hs.took (Bytes.words [virt, ptr])).withNet (.wire q o)) hp hb hlen hv
  show handleMapatptr _ = _
  rw [handleMapatptr_run (s := (s.took _).withNet (.wire q o)) (by rfl) h0 h1 hmap]
  exact congrArg (Outcome.done · ()) (State.withNet_sends (State.mappedAt _ _ _ _) _ _ _)

theorem breaks_mapatptr (hs : s.Sound) {virt ptr : GlobalId} {p : Arg} {b : Bytes}
    (hp : s.idMap.lookup ptr = some p) (hb : s.mem p = some b) (hlen : 8 ≤ b.length)
    (hv : virt ∈ s.idMap) :
    Breaks lzo fuel lib [.msg Msg.mapatptrRequest (Bytes.words [virt, ptr])]
      (.assertion .mapatptrInsert) s := by
  have hm := length_words_le [virt, ptr] (by decide : 2 ≤ 5)
  have h0 := s.took_word_words (i := 0) hm rfl
  have h1 := s.took_word_words (i := 1) hm rfl
  apply Breaks.message hm
  intro q o
  have hmap := mapatptr_taken ((hs.took (Bytes.words [virt, ptr])).withNet (.wire q o)) hp hb hlen
    hv
  show handleMapatptr _ = _
  rw [handleMapatptr]
  simp only [bufWord, bind_run, get_run, Outcome.bind_done, State.withNet_buf, h0, h1, hmap,
    Outcome.bind_fault]

theorem works_execute {msg : Bytes} {s₁ : State Cl} {ret : Arg} (hm : msg.length ≤ recvbufsz)
    (hx : claraExecute lib 0 (s.took msg) = .done s₁ ret) :
    Works lzo fuel lib [.msg Msg.executeRequest msg]
      [.msg Msg.executeResponse (Bytes.word ret)] s s₁ := by
  apply Works.message hm
  intro q o
  have hblind := (keeping_claraExecute lib 0).blind (s.took msg) (.wire q o)
  rw [hx, Outcome.map_done] at hblind
  show handleExecute lib _ = _
  rw [handleExecute_run (by rfl) hblind, State.withNet_sends]

theorem works_allocate (hs : s.Sound) {params : AllocateRequest} {extra : Bytes}
    (hm : 32 + extra.length ≤ recvbufsz)
    (hsize : params.nmemb.toNat * params.size.toNat < 2 ^ 64)
    (hextra : extra = [] ∨ 32 + params.nmemb.toNat * params.size.toNat ≤ recvbufsz)
    (hptr : s.addresses s.draws ≠ 0) (ha : params.handle ∉ s.allocations)
    (hv : params.handle ∉ s.idMap) :
    Works lzo fuel lib [.msg Msg.allocateRequest (params.bytes ++ extra)]
      [.msg Msg.allocateResponse (Bytes.word params.handle)] s
      ((s.took (params.bytes ++ extra)).allocated params (s.addresses s.draws)
        (allocateContents (s.took (params.bytes ++ extra)) params (32 + extra.length))) := by
  have hlen : (params.bytes ++ extra).length = 32 + extra.length := by
    simp [AllocateRequest.bytes]
  have hm' : (params.bytes ++ extra).length ≤ recvbufsz := by omega
  have hasks : ∀ n, ((s.took (params.bytes ++ extra)).withNet n).Asks params := fun n =>
    ⟨s.took_word (i := 0) hm' rfl, s.took_word (i := 1) hm' rfl, s.took_word (i := 2) hm' rfl⟩
  have hssz : 32 + extra.length = 32 ∨
      32 + params.nmemb.toNat * params.size.toNat ≤ recvbufsz := by
    rcases hextra with rfl | h
    · exact .inl rfl
    · exact .inr h
  apply Works.message hm'
  intro q o
  rw [hlen]
  show handleAllocate _ _ = _
  rw [handleAllocate_run ((hs.took _).withNet _) (by rfl) (hasks _) hsize hptr ha hv hssz]
  exact congrArg (Outcome.done · ()) (State.withNet_sends (State.allocated _ _ _ _) _ _ _)

theorem breaks_allocate (hs : s.Sound) (params : AllocateRequest) {extra : Bytes}
    (hm : 32 + extra.length ≤ recvbufsz)
    (hsize : params.nmemb.toNat * params.size.toNat < 2 ^ 64)
    (hptr : s.addresses s.draws ≠ 0)
    (hused : params.handle ∈ s.allocations ∨ params.handle ∈ s.idMap) :
    ∃ f, Breaks lzo fuel lib [.msg Msg.allocateRequest (params.bytes ++ extra)] f s := by
  have hlen : (params.bytes ++ extra).length = 32 + extra.length := by
    simp [AllocateRequest.bytes]
  have hm' : (params.bytes ++ extra).length ≤ recvbufsz := by omega
  have hasks : ∀ n, ((s.took (params.bytes ++ extra)).withNet n).Asks params := fun n =>
    ⟨s.took_word (i := 0) hm' rfl, s.took_word (i := 1) hm' rfl, s.took_word (i := 2) hm' rfl⟩
  have hsound : ∀ n, ((s.took (params.bytes ++ extra)).withNet n).Sound := fun n =>
    (hs.took _).withNet n
  by_cases ha : params.handle ∈ s.allocations
  · refine ⟨.assertion .allocateInsert, Breaks.message hm' fun q o => ?_⟩
    exact handleAllocate_inserted (hsound _) (hasks _) hsize hptr ha
  · refine ⟨.assertion .allocateMapping, Breaks.message hm' fun q o => ?_⟩
    exact handleAllocate_mapped (hsound _) (hasks _) hsize hptr ha (hused.resolve_left ha)

/-- The data behind the parameters is what the allocation holds. -/
theorem allocateContents_took (s : State Cl) {params : AllocateRequest} {extra : Bytes}
    (hm : 32 + extra.length ≤ recvbufsz) (hpos : 0 < extra.length)
    (hlen : extra.length = params.nmemb.toNat * params.size.toNat) :
    allocateContents (s.took (params.bytes ++ extra)) params (32 + extra.length) = extra := by
  have hparams : params.bytes.length = 32 := by simp [AllocateRequest.bytes]
  have hm' : (params.bytes ++ extra).length ≤ recvbufsz := by
    rw [List.length_append, hparams]
    exact hm
  have hne : 32 + extra.length ≠ 32 := by omega
  have hbytes : (s.took (params.bytes ++ extra)).buf.bytes =
      (params.bytes ++ extra) ++ s.buf.bytes.drop (params.bytes ++ extra).length :=
    s.buf.receive_bytes hm'
  rw [allocateContents, if_neg hne, hbytes, ← hlen, Bytes.slice, List.append_assoc,
    List.drop_left' hparams, List.take_left]

theorem State.holds_allocated (s : State Cl) (params : AllocateRequest)
    (hsize : params.nmemb.toNat * params.size.toNat < 2 ^ 64) (ha : params.handle ∉ s.allocations)
    (hv : params.handle ∉ s.idMap) {ptr : Arg} (hptr : ptr ≠ 0) {b : Bytes}
    (hb : b.length = params.nmemb.toNat * params.size.toNat) :
    (s.allocated params ptr b).Holds params.handle
      ⟨params.handle, params.nmemb, params.size, ptr⟩ b where
  allocation := by rw [State.allocated, IdSet.lookup_add ha, if_pos rfl]
  mapping := by rw [State.allocated, IdSet.lookup_add hv, if_pos rfl]
  block := Memory.put_self s.mem ptr (some b)
  length := by rw [toNat_mul hsize, hb]
  ptr := hptr

theorem works_memput (hl : lzo.Correct) {stp : StreamOptions} (hblk : 0 < stp.blksz.toNat)
    (hs : s.Sound) {params : MemputStreamParams} {data b : Bytes} {real : Arg}
    (hfit : stp.Fits lzo data) (hdst : s.idMap.lookup params.dst = some real)
    (hb : s.mem real = some b) (hlen : params.length.toNat = data.length)
    (hoff : params.offset.toNat + data.length ≤ b.length) (hfuel : 2 * data.length + 68 ≤ fuel) :
    Works lzo fuel lib (.msg Msg.memputStream params.bytes :: streamRecords lzo stp data) [] s
      ((s.took params.bytes).wrote real (b.overwrite params.offset.toNat data)) := by
  have hm : params.bytes.length ≤ recvbufsz := length_words_le _ (by decide : 4 ≤ 5)
  have h0 := s.took_word_words (i := 0) hm rfl
  have h1 := s.took_word_words (i := 1) hm rfl
  have h2 := s.took_word_words (i := 2) hm rfl
  apply Works.turn (List.cons_ne_nil _ _)
  intro q o
  have hrun := handleMemput_run (s := (s.took params.bytes).withNet
    (.wire (Net.incoming (streamRecords lzo stp data) ++ q) o)) hl hblk ((hs.took _).withNet _)
    hfit (by rfl)
    h0 h1 h2 hdst hb hlen hoff hfuel
  rw [providerTurn_message (by rfl) hm, List.append_nil]
  exact congrArg (Outcome.bind · _) hrun

structure State.Fetches (s : State Cl) (params : FetchRequest) : Prop where
  handle : s.buf.word 0 = params.handle
  size : s.buf.word 1 = params.size
  fmt : (s.buf.word 3).toUInt32 = params.streamOpts.fmt
  blksz : s.buf.word 4 = params.streamOpts.blksz

theorem FetchRequest.bytes_eq (params : FetchRequest) : params.bytes = Bytes.words [params.handle,
    params.size, params.hint, params.streamOpts.fmt.toUInt64, params.streamOpts.blksz] := by
  simp [Clara.FetchRequest.bytes, StreamOptions.bytes, Bytes.words]

theorem FetchRequest.length_bytes_le (params : FetchRequest) :
    params.bytes.length ≤ recvbufsz := by
  rw [FetchRequest.bytes_eq]
  exact length_words_le _ (by decide : 5 ≤ 5)

theorem State.took_fetches (s : State Cl) (params : FetchRequest) :
    (s.took params.bytes).Fetches params := by
  have hm := FetchRequest.length_bytes_le params
  rw [FetchRequest.bytes_eq] at hm ⊢
  have h0 := s.took_word_words (i := 0) hm rfl
  have h1 := s.took_word_words (i := 1) hm rfl
  have h3 := s.took_word_words (i := 3) hm rfl
  have h4 := s.took_word_words (i := 4) hm rfl
  exact ⟨h0, h1, by rw [h3]; simp, h4⟩

theorem works_fetch (hs : s.Sound) {params : FetchRequest}
    (hblk : 0 < params.streamOpts.blksz.toNat) {a : Allocation} {b : Bytes}
    (hfit : params.streamOpts.Fits lzo b) (ha : s.Holds params.handle a b) :
    Works lzo fuel lib [.msg Msg.fetchRequest params.bytes]
      (fetchRecords lzo params.streamOpts b params.size) s
      ((s.took params.bytes).freed params.handle a) := by
  have hf := s.took_fetches params
  apply Works.message (FetchRequest.length_bytes_le params)
  intro q o
  show handleFetch lzo _ = _
  rw [handleFetch_run (s := (s.took _).withNet (.wire q o)) ((hs.took _).withNet _) (by rfl)
    hf.handle hf.size hf.fmt hf.blksz hblk hfit
    ⟨ha.allocation, ha.mapping, ha.block, ha.length, ha.ptr⟩]
  exact congrArg (Outcome.done · ()) (State.withNet_sends (State.freed _ _ _) _ _ _)

/-- A compressed block has no buffer, or does not fit in it. -/
theorem breaks_fetch (hs : s.Sound) {params : FetchRequest} (hsize : 0 < params.size)
    (hblk : 0 < params.streamOpts.blksz.toNat) {a : Allocation} {b : Bytes}
    (hfit : ¬ params.streamOpts.Fits lzo b) (ha : s.Holds params.handle a b) :
    Breaks lzo fuel lib [.msg Msg.fetchRequest params.bytes]
      (.net (params.streamOpts.sendFault lzo)) s := by
  have hf := s.took_fetches params
  apply Breaks.message (FetchRequest.length_bytes_le params)
  intro q o
  show handleFetch lzo _ = _
  exact handleFetch_overflow (s := (s.took _).withNet (.wire q o)) ((hs.took _).withNet _)
    (by rfl) hf.handle hf.size hf.fmt hf.blksz hsize hblk hfit
    ⟨ha.allocation, ha.mapping, ha.block, ha.length, ha.ptr⟩

end

end Clara.Provider
