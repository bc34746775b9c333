import Clara.Provider.Custody

/-! The sizes of the provider's allocations, as unbounded numbers, and what the data that comes
with a request has to do with the receive buffer it stands in. -/
namespace Clara.Provider

open Conc PProg

variable {Cl : Type}

/-- The provider has in a buffer what the request asked for, neither more nor less. -/
structure State.Records (s : State Cl) (params : AllocateRequest) (ptr : Arg) (b : Bytes) :
    Prop where
  holds : s.Holds params.handle ⟨params.handle, params.nmemb, params.size, ptr⟩ b
  length : b.length = params.length

/-- Whenever `n` bytes of the allocation are fetched, as many are sent, or as there are. -/
def FetchesExact (lzo : Lzo) (fuel : ℕ) (lib : OpenCl Cl) (params : AllocateRequest)
    (n : UInt64) : Prop :=
  ∀ (s : State Cl) (ptr : Arg) (b : Bytes) (fetch : FetchRequest), s.Sound →
    s.Records params ptr b → fetch.handle = params.handle → fetch.size = n →
    0 < fetch.streamOpts.blksz.toNat → fetch.streamOpts.Fits lzo (b.take n.toNat) →
    ∃ s', Works lzo fuel lib [.msg Msg.fetchRequest fetch.bytes] (fetch.answer lzo b) s s'

/-- The request is refused and changes nothing, or the allocation has just the size asked for. -/
inductive SizesExact (lzo : Lzo) (fuel : ℕ) (lib : OpenCl Cl) (params : AllocateRequest)
    (extra : Bytes) (n : UInt64) (s : State Cl) : Prop
  | refused {s' : State Cl}
    (hworks : Works lzo fuel lib [.msg Msg.allocateRequest (params.bytes ++ extra)]
      [.msg Msg.allocateResponse (Bytes.word invalidHandle)] s s')
    (hmem : s'.mem = s.mem) (hmap : s'.idMap = s.idMap)
    (hallocations : s'.allocations = s.allocations)
  | made {s' : State Cl} {ptr : Arg}
    (hworks : Works lzo fuel lib [.msg Msg.allocateRequest (params.bytes ++ extra)]
      [.msg Msg.allocateResponse (Bytes.word params.handle)] s s')
    (hrecord : s'.Records params ptr (params.contents extra))
    (hfetch : FetchesExact lzo fuel lib params n)

/-- What the buffer held before the request makes no difference. -/
def SizesExactly (lzo : Lzo) (fuel : ℕ) (lib : OpenCl Cl) (params : AllocateRequest)
    (extra : Bytes) (n : UInt64) (s : State Cl) : Prop :=
  ∀ buf, SizesExact lzo fuel lib params extra n { s with buf := buf }

section
variable {lzo : Lzo} {fuel : ℕ} {lib : OpenCl Cl} {s s' : State Cl} {params : AllocateRequest}
  {extra : Bytes} {n : UInt64}

theorem Works.message_done {type : MessageType} {msg : Bytes} {out : List Sent}
    (h : Works lzo fuel lib [.msg type msg] out s s') :
    msg.length ≤ recvbufsz ∧ handleMessage lzo fuel lib type msg.length
      ((s.took msg).withNet (.wire [] [])) = .done (s'.withNet (.wire [] out)) () := by
  obtain ⟨k, hk, hrun⟩ := h
  rw [List.length_singleton] at hk
  have hone : k + (1 - k) = 1 := by omega
  have hmain := hrun [] [] (1 - k)
  rw [hone, providerMain_idle, List.append_nil, List.nil_append, providerMain_succ] at hmain
  by_cases hm : msg.length ≤ recvbufsz
  · refine ⟨hm, ?_⟩
    have hreceived : (s.withNet (.wire (Net.incoming [.msg type msg]) [])).received msg
        (List.map (fun r : Sent => Incoming.record r.record) []) [] =
        (s.took msg).withNet (.wire [] []) := rfl
    rw [providerTurn_message rfl hm, hreceived] at hmain
    cases hdone : handleMessage lzo fuel lib type msg.length
        ((s.took msg).withNet (.wire [] [])) with
    | done s₁ u =>
      rw [hdone] at hmain
      obtain ⟨rfl, -⟩ := Outcome.done.inj hmain
      rfl
    | fault f =>
      rw [hdone] at hmain
      cases hmain
    | blocked =>
      rw [hdone] at hmain
      have hinq := congrArg (fun s : State Cl => (s.net ()).inq) (Outcome.done.inj hmain).1
      cases hinq
  · obtain ⟨s₁, hturn⟩ := providerTurn_tooLong lzo fuel lib
      (s := s.withNet (.wire (Net.incoming [.msg type msg]) [])) rfl (Nat.not_le.mp hm)
    rw [hturn] at hmain
    cases hmain

theorem Works.message_unique {type : MessageType} {msg : Bytes} {out out' : List Sent}
    {s₁ s₂ : State Cl} (h₁ : Works lzo fuel lib [.msg type msg] out s s₁)
    (h₂ : Works lzo fuel lib [.msg type msg] out' s s₂) :
    s₁.withNet (.wire [] out) = s₂.withNet (.wire [] out') := by
  have hdone := h₁.message_done.2.symm.trans h₂.message_done.2
  exact (Outcome.done.inj hdone).1

theorem calloc_cases (nmemb size : UInt64) (s : State Cl) :
    ∃ mem draws ptr, calloc nmemb size s = .done { s with mem := mem, draws := draws } ptr ∧
      (ptr ≠ 0 → nmemb.toNat * size.toNat < 2 ^ 64 ∧ s.addresses s.draws ≠ 0) := by
  by_cases hsize : nmemb.toNat * size.toNat < 2 ^ 64
  · by_cases hptr : s.addresses s.draws = 0
    · refine ⟨s.mem, s.draws + 1, 0, ?_, fun h => absurd rfl h⟩
      rw [calloc, if_pos hsize, bind_run, get_run, Outcome.bind_done, bind_run, modify_run,
        Outcome.bind_done, hptr, if_neg (not_not_intro rfl)]
      rfl
    · exact ⟨_, _, _, calloc_run hsize hptr, fun _ => ⟨hsize, hptr⟩⟩
  · refine ⟨s.mem, s.draws, 0, ?_, fun h => absurd rfl h⟩
    rw [calloc, if_neg hsize]
    rfl

/-- An ALLOCATE request that is answered has entered an allocation under a new id, and has read
no more than the receive buffer. -/
theorem handleAllocate_entered {ssz : ℕ} {q : List Incoming} {out : List Sent} (hs : s.Sound)
    (hn : s.net = .wire q out) (hp : s.Asks params) (h : handleAllocate ssz s = .done s' ()) :
    params.handle ∉ s.allocations ∧ params.handle ∉ s.idMap ∧
      (∃ ptr, s'.allocations.lookup params.handle =
          some ⟨params.handle, params.nmemb, params.size, ptr⟩ ∧
        (ptr ≠ 0 → params.length < 2 ^ 64 ∧ s.addresses s.draws ≠ 0)) ∧
      (ssz ≠ 32 → 0 < (params.nmemb * params.size).toNat →
        32 + (params.nmemb * params.size).toNat ≤ recvbufsz) := by
  obtain ⟨mem, draws, ptr, hcalloc, hptr⟩ := calloc_cases params.nmemb params.size s
  rw [handleAllocate] at h
  simp only [bufWord, bind_run, get_run, Outcome.bind_done, hp.handle, hp.nmemb, hp.size,
    claraCreateAllocation, hcalloc, pure_run] at h
  rw [allocationInsert_run (by exact hs.allocations)] at h
  simp only [Outcome.bind_done, assert_run] at h
  by_cases ha : params.handle ∈ s.allocations
  · rw [decide_eq_false (not_not_intro ha), if_neg Bool.false_ne_true] at h
    cases h
  rw [decide_eq_true ha, if_pos rfl, Outcome.bind_done,
    mappingInsert_run (by exact hs.idMap)] at h
  simp only [Outcome.bind_done] at h
  by_cases hv : params.handle ∈ s.idMap
  · rw [decide_eq_false (not_not_intro hv), if_neg Bool.false_ne_true] at h
    cases h
  rw [decide_eq_true hv, if_pos rfl, Outcome.bind_done] at h
  have hlast : ∀ s₁ : State Cl, s₁.net = s.net →
      s₁.allocations = s.allocations.add params.handle
        ⟨params.handle, params.nmemb, params.size, ptr⟩ →
      (do
        if ← net (claraSendAllocateResponse () params.handle) then pure ()
        else allocateUndo ⟨params.handle, params.nmemb, params.size, ptr⟩ : PProg Cl Unit) s₁ =
          .done s' () →
      s'.allocations.lookup params.handle =
        some ⟨params.handle, params.nmemb, params.size, ptr⟩ := by
    intro s₁ hnet hall hrun
    rw [bind_run, net_claraSendAllocateResponse (hnet.trans hn), Outcome.bind_done,
      if_pos rfl] at hrun
    obtain ⟨rfl, -⟩ := Outcome.done.inj hrun
    show s₁.allocations.lookup _ = _
    rw [hall, IdSet.lookup_add ha, if_pos rfl]
  by_cases hssz : ssz = 32
  · rw [if_neg (not_not_intro hssz)] at h
    have hlook := hlast _ (by rfl) (by rfl) h
    exact ⟨ha, hv, ⟨ptr, hlook, hptr⟩, fun hne => absurd hssz hne⟩
  · rw [if_pos hssz] at h
    obtain ⟨s₁, u, hinit, hrest⟩ := bind_done h
    have hkept := (keeping_allocateInit _).kept _ _ _ hinit
    refine ⟨ha, hv, ⟨ptr, hlast s₁ hkept.net hkept.allocations hrest, hptr⟩, fun _ hpos => ?_⟩
    by_contra hlong
    rw [allocateInit] at hinit
    simp only at hinit
    rw [if_neg hpos.ne', if_neg hlong] at hinit
    cases hinit

theorem State.took_asks (s : State Cl) (params : AllocateRequest) (extra : Bytes)
    (hm : 32 + extra.length ≤ recvbufsz) : (s.took (params.bytes ++ extra)).Asks params := by
  have hlen : (params.bytes ++ extra).length = 32 + extra.length := by
    simp [AllocateRequest.bytes]
  have hm' : (params.bytes ++ extra).length ≤ recvbufsz := by omega
  exact ⟨s.took_word (i := 0) hm' rfl, s.took_word (i := 1) hm' rfl,
    s.took_word (i := 2) hm' rfl⟩

/-- What a new allocation holds: behind the data stands what the buffer held before. -/
theorem allocateContents_eq (s : State Cl) {params : AllocateRequest} {extra : Bytes}
    (hm : 32 + extra.length ≤ recvbufsz) (hne : extra ≠ []) :
    allocateContents (s.took (params.bytes ++ extra)) params (32 + extra.length) =
      (extra ++ s.buf.bytes.drop (32 + extra.length)).take params.length := by
  have hparams : params.bytes.length = 32 := by simp [AllocateRequest.bytes]
  have hlen : (params.bytes ++ extra).length = 32 + extra.length := by
    rw [List.length_append, hparams]
  have hpos : 0 < extra.length := List.length_pos_iff.mpr hne
  have hneq : 32 + extra.length ≠ 32 := by omega
  have hbytes : (s.took (params.bytes ++ extra)).buf.bytes =
      (params.bytes ++ extra) ++ s.buf.bytes.drop (params.bytes ++ extra).length :=
    s.buf.receive_bytes (by rwa [hlen])
  rw [allocateContents, if_neg hneq, hbytes, Bytes.slice, List.append_assoc,
    List.drop_left' hparams, hlen]
  rfl

/-- The size does not overflow, there is memory for it, and the id is new. -/
structure Fresh (params : AllocateRequest) (s : State Cl) : Prop where
  size : params.length < 2 ^ 64
  address : s.addresses s.draws ≠ 0
  allocation : params.handle ∉ s.allocations
  mapping : params.handle ∉ s.idMap

/-- An allocation that is made is recorded with its size. -/
theorem Fresh.works (lzo : Lzo) (fuel : ℕ) (lib : OpenCl Cl) (h : Fresh params s) (hs : s.Sound)
    (hm : 32 + extra.length ≤ recvbufsz) (hextra : extra = [] ∨ 32 + params.length ≤ recvbufsz) :
    ∃ s' b, Works lzo fuel lib [.msg Msg.allocateRequest (params.bytes ++ extra)]
        [.msg Msg.allocateResponse (Bytes.word params.handle)] s s' ∧ s'.Sound ∧
      (b = if extra = [] then List.replicate params.length 0
        else (extra ++ s.buf.bytes.drop (32 + extra.length)).take params.length) ∧
      s'.Records params (s.addresses s.draws) b := by
  obtain ⟨b, hb⟩ : ∃ b, b = allocateContents (s.took (params.bytes ++ extra)) params
    (32 + extra.length) := ⟨_, rfl⟩
  have hbytes : b = if extra = [] then List.replicate params.length 0
      else (extra ++ s.buf.bytes.drop (32 + extra.length)).take params.length := by
    rw [hb]
    split_ifs with hnil
    · rw [allocateContents, hnil, List.length_nil, Nat.add_zero, if_pos rfl]
      rfl
    · exact allocateContents_eq s hm hnil
  have hlen : b.length = params.length := by
    rw [hbytes]
    split_ifs with hnil
    · rw [List.length_replicate]
    · have hbuf := s.buf.length_bytes
      have hfit := hextra.resolve_left hnil
      rw [List.length_take, List.length_append, List.length_drop]
      omega
  have hworks : Works lzo fuel lib _ _ s _ := works_allocate hs hm h.size hextra h.address
    h.allocation h.mapping
  rw [← hb] at hworks
  exact ⟨_, b, hworks, (hs.took _).allocated h.allocation h.mapping _ b, hbytes,
    State.holds_allocated (s.took _) params h.size h.allocation h.mapping h.address hlen, hlen⟩

theorem Works.entered {out : List Sent} (hs : s.Sound)
    (h : Works lzo fuel lib [.msg Msg.allocateRequest (params.bytes ++ extra)] out s s') :
    32 + extra.length ≤ recvbufsz ∧ params.handle ∉ s.allocations ∧ params.handle ∉ s.idMap ∧
      (∃ ptr, s'.allocations.lookup params.handle =
          some ⟨params.handle, params.nmemb, params.size, ptr⟩ ∧
        (ptr ≠ 0 → params.length < 2 ^ 64 ∧ s.addresses s.draws ≠ 0)) ∧
      (32 + extra.length ≠ 32 → 0 < (params.nmemb * params.size).toNat →
        32 + (params.nmemb * params.size).toNat ≤ recvbufsz) := by
  have hlen : (params.bytes ++ extra).length = 32 + extra.length := by
    simp [AllocateRequest.bytes]
  obtain ⟨hm, hdone⟩ := h.message_done
  rw [hlen] at hm hdone
  obtain ⟨h0, h1, h2⟩ := s.took_asks params extra hm
  have hrun : handleAllocate (32 + extra.length)
      ((s.took (params.bytes ++ extra)).withNet (.wire [] [])) =
        .done (s'.withNet (.wire [] out)) () := hdone
  have hsound := (hs.took (params.bytes ++ extra)).withNet (.wire [] [])
  have hentered := handleAllocate_entered hsound (by rfl) ⟨h0, h1, h2⟩ hrun
  exact ⟨hm, hentered⟩

/-- A request whose allocation has the size asked for is one that can be served. -/
theorem SizesExact.fresh (h : SizesExact lzo fuel lib params extra n s) (hs : s.Sound) :
    32 + extra.length ≤ recvbufsz ∧ Fresh params s ∧
      (extra = [] ∨ 32 + params.length ≤ recvbufsz ∨ params.length = 0) ∧
      ∃ s' ptr, Works lzo fuel lib [.msg Msg.allocateRequest (params.bytes ++ extra)]
          [.msg Msg.allocateResponse (Bytes.word params.handle)] s s' ∧
        s'.Records params ptr (params.contents extra) ∧ FetchesExact lzo fuel lib params n := by
  cases h with
  | refused hworks hmem hmap hallocations =>
    obtain ⟨-, hnew, -, ⟨ptr, hlook, -⟩, -⟩ := hworks.entered hs
    rw [hallocations] at hlook
    exact absurd (IdSet.mem_of_lookup hlook) hnew
  | made hworks hrecord hfetch =>
    obtain ⟨hm, hnew, hnew', ⟨ptr', hlook, hptr⟩, hread⟩ := hworks.entered hs
    have hsame := hlook.symm.trans hrecord.holds.allocation
    have hne : ptr' ≠ 0 := by
      have heq := congrArg Allocation.ptr (Option.some.inj hsame)
      simp only at heq
      rw [heq]
      exact hrecord.holds.ptr
    obtain ⟨hsize, haddress⟩ := hptr hne
    refine ⟨hm, ⟨hsize, haddress, hnew, hnew'⟩, ?_, _, _, hworks, hrecord, hfetch⟩
    by_cases hnil : extra = []
    · exact .inl hnil
    · have hpos : 0 < extra.length := List.length_pos_iff.mpr hnil
      have hmul : (params.nmemb * params.size).toNat = params.length := toNat_mul hsize
      rw [hmul] at hread
      rcases Nat.eq_zero_or_pos params.length with hzero | hlong
      · exact .inr (.inr hzero)
      · exact .inr (.inl (hread (by omega) hlong))

theorem works_fetch_none (hs : s.Sound) {fetch : FetchRequest} (hpos : ¬ 0 < fetch.size)
    {a : Allocation} {b : Bytes} (ha : s.Holds fetch.handle a b) :
    Works lzo fuel lib [.msg Msg.fetchRequest fetch.bytes] [] s
      ((s.took fetch.bytes).freed fetch.handle a) := by
  have hf := s.took_fetches fetch
  apply Works.message (FetchRequest.length_bytes_le fetch)
  intro q o
  have hfree := fetchFree_run (s := (s.took fetch.bytes).withNet (.wire q o))
    ((hs.took _).withNet _) ⟨ha.allocation, ha.mapping, ha.block, ha.length, ha.ptr⟩
  have hfind := claraFindAllocation_lookup (s := (s.took fetch.bytes).withNet (.wire q o))
    ((hs.took _).withNet _) ha.allocation
  have h0 : ((s.took fetch.bytes).withNet (.wire q o)).buf.word 0 = fetch.handle := hf.handle
  have h1 : ((s.took fetch.bytes).withNet (.wire q o)).buf.word 1 = fetch.size := hf.size
  show handleFetch lzo _ = _
  rw [handleFetch]
  simp only [bufWord, bind_run, get_run, Outcome.bind_done, h0, h1, hfind, if_neg hpos, hfree,
    List.append_nil]
  rfl

theorem fetchesExact (hn : n = 0 ∨ params.length ≤ n.toNat) :
    FetchesExact lzo fuel lib params n := by
  intro s ptr b fetch hs hr hhandle hsz hblk hfit
  rw [FetchRequest.answer]
  by_cases hpos : 0 < fetch.size
  · have hle : b.length ≤ n.toNat := by
      rw [hr.length]
      refine hn.resolve_left fun hzero => ?_
      rw [hsz, hzero] at hpos
      exact absurd hpos (lt_irrefl 0)
    have htake : b.take n.toNat = b := List.take_of_length_le hle
    rw [htake] at hfit
    have hholds := hr.holds
    rw [← hhandle] at hholds
    have hworks : Works lzo fuel lib [.msg Msg.fetchRequest fetch.bytes] _ s _ :=
      works_fetch hs hblk hfit hholds
    rw [fetchRecords, if_pos hpos] at hworks
    rw [if_pos hpos, hsz, htake]
    exact ⟨_, hworks⟩
  · rw [if_neg hpos]
    have hholds := hr.holds
    rw [← hhandle] at hholds
    exact ⟨_, works_fetch_none hs hpos hholds⟩

/-- The answer to a fetch says how many bytes follow. -/
theorem FetchesExact.le (h : FetchesExact lzo fuel lib params n)
    (hsize : params.length < 2 ^ 64) (hs : s.Sound) {ptr : Arg} {b : Bytes}
    (hr : s.Records params ptr b) : n = 0 ∨ params.length ≤ n.toNat := by
  by_contra hcond
  obtain ⟨hzero, hlt⟩ := not_or.mp hcond
  have hpos : 0 < n := UInt64.pos_iff_ne_zero.mpr hzero
  have hblk : 0 < StreamOptions.default.blksz.toNat := by decide
  have hfit : ∀ b, StreamOptions.default.Fits lzo b := fun b heq => absurd heq (by decide)
  obtain ⟨s', hworks⟩ := h s ptr b ⟨params.handle, n, 0, .default⟩ hs hr rfl rfl hblk
    (hfit _)
  have hwhole : Works lzo fuel lib [.msg Msg.fetchRequest
      (FetchRequest.bytes ⟨params.handle, n, 0, .default⟩)] _ s _ :=
    works_fetch hs hblk (hfit _) hr.holds
  have hsame := congrArg (fun s : State Cl => (s.net ()).sent) (hworks.message_unique hwhole)
  rw [FetchRequest.answer, if_pos hpos, fetchRecords, if_pos hpos] at hsame
  injection hsame with hhead
  injection hhead with _ hword
  have hlen : UInt64.ofNat (b.take n.toNat).length = UInt64.ofNat b.length := by
    rw [← Bytes.ofNat_toNat_word (UInt64.ofNat (b.take n.toNat).length), hword,
      Bytes.ofNat_toNat_word]
  have htake : (b.take n.toNat).length = n.toNat := by
    rw [List.length_take, hr.length]
    omega
  rw [htake, hr.length, UInt64.ofNat_toNat] at hlen
  have hnat := congrArg UInt64.toNat hlen
  rw [UInt64.toNat_ofNat', Nat.mod_eq_of_lt hsize] at hnat
  omega

theorem State.Records.withNet {ptr : Arg} {b : Bytes} (h : s.Records params ptr b)
    (m : Net Unit) : (s.withNet m).Records params ptr b :=
  ⟨⟨h.holds.allocation, h.holds.mapping, h.holds.block, h.holds.length, h.holds.ptr⟩, h.length⟩

theorem State.Records.unique {ptr ptr' : Arg} {b b' : Bytes} (h : s.Records params ptr b)
    (h' : s.Records params ptr' b') : b = b' := by
  have hsame := h.holds.allocation.symm.trans h'.holds.allocation
  injection hsame with hsame
  injection hsame with _ _ _ hptr
  have hblock := h.holds.block
  simp only [hptr] at hblock
  exact Option.some.inj (hblock.symm.trans h'.holds.block)

def onesBuffer : Buffer recvbufsz := ⟨List.replicate recvbufsz 1, List.length_replicate⟩

/-- Data that does not fill the allocation is followed by what the buffer held before. -/
theorem SizesExact.fills (h : SizesExact lzo fuel lib params extra n { s with buf := onesBuffer })
    (hs : s.Sound) : extra = [] ∨ params.length ≤ extra.length := by
  have hs' : ({ s with buf := onesBuffer } : State Cl).Sound :=
    ⟨hs.idMap, hs.allocations, hs.keyed⟩
  obtain ⟨hm, hfresh, hextra, s₁, ptr, hworks, hrecord, -⟩ := h.fresh hs'
  by_contra hcond
  obtain ⟨hnil, hshort⟩ := not_or.mp hcond
  have hbuf : 32 + params.length ≤ recvbufsz := by
    rcases hextra with hextra | hextra | hextra
    · exact absurd hextra hnil
    · exact hextra
    · omega
  obtain ⟨s₂, b, hworks', -, hb, hrecord'⟩ := hfresh.works lzo fuel lib hs' hm (.inr hbuf)
  have hsame := (hrecord.withNet (.wire [] [.msg Msg.allocateResponse
    (Bytes.word params.handle)]))
  rw [hworks.message_unique hworks'] at hsame
  have hcontents := hsame.unique (hrecord'.withNet _)
  have hdrop := congrArg (List.drop extra.length) hcontents
  have htake : extra.take params.length = extra := List.take_of_length_le (by omega)
  rw [hb, if_neg hnil, AllocateRequest.contents, htake, List.drop_left, List.drop_take,
    List.drop_left] at hdrop
  have hones : onesBuffer.bytes.drop (32 + extra.length) =
      List.replicate (recvbufsz - (32 + extra.length)) 1 := List.drop_replicate
  simp only [hones, List.take_replicate] at hdrop
  have hhead := congrArg List.head? hdrop
  rw [List.head?_replicate, List.head?_replicate, if_neg (by omega), if_neg (by omega)] at hhead
  cases hhead

/-- The provider's allocations have the sizes asked for exactly as long as the size does not
overflow, the data that comes with a request fills them, and a fetch asks for all of them. -/
theorem sizesExactly_iff (hs : s.Sound) (lzo : Lzo) (fuel : ℕ) (lib : OpenCl Cl) :
    SizesExactly lzo fuel lib params extra n s ↔ 32 + extra.length ≤ recvbufsz ∧
      Fresh params s ∧ (extra = [] ∨ params.length ≤ extra.length) ∧
        (n = 0 ∨ params.length ≤ n.toNat) := by
  have hsound : ∀ buf, ({ s with buf := buf } : State Cl).Sound := fun buf =>
    ⟨hs.idMap, hs.allocations, hs.keyed⟩
  constructor
  · intro h
    have hfills := (h onesBuffer).fills hs
    obtain ⟨hm, hfresh, hextra, s₁, ptr, -, -, hfetch⟩ := (h onesBuffer).fresh (hsound _)
    have hnew : Fresh params s :=
      ⟨hfresh.size, hfresh.address, hfresh.allocation, hfresh.mapping⟩
    have hbuf : extra = [] ∨ 32 + params.length ≤ recvbufsz := by
      refine hfills.imp_right fun hle => ?_
      omega
    obtain ⟨s₂, b, -, hs₂, -, hrecord⟩ := hfresh.works lzo fuel lib (hsound _) hm hbuf
    exact ⟨hm, hnew, hfills, hfetch.le hnew.size hs₂ hrecord⟩
  · rintro ⟨hm, hfresh, hfills, hn⟩ buf
    have hnew : Fresh params { s with buf := buf } :=
      ⟨hfresh.size, hfresh.address, hfresh.allocation, hfresh.mapping⟩
    have hbuf : extra = [] ∨ 32 + params.length ≤ recvbufsz := by
      refine hfills.imp_right fun hle => ?_
      omega
    obtain ⟨s₁, b, hworks, -, hb, hrecord⟩ := hnew.works lzo fuel lib (hsound buf) hm hbuf
    have hcontents : b = params.contents extra := by
      rw [hb]
      split_ifs with hnil
      · rw [hnil, AllocateRequest.contents_nil]
      · have hle := hfills.resolve_left hnil
        rw [AllocateRequest.contents_of_le hle, List.take_append_of_le_length hle]
    rw [hcontents] at hrecord
    exact .made hworks hrecord (fetchesExact hn)

end

end Clara.Provider
