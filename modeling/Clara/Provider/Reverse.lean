import Clara.Provider.Runs

/-! The way back from a pointer of the OpenCL library to the id that stands for it. The map keeps the
ids of objects when the objects are released, and the library may use a pointer again. -/
namespace Clara.Provider

open Conc PProg

variable {Cl : Type} {lzo : Lzo} {fuel : ℕ} {lib : OpenCl Cl} {s s' : State Cl}
  {R : Set GlobalId}

/-- The id of a platform or a device, or that of an object that its owner has not released. -/
def State.Live (s : State Cl) (R : Set GlobalId) (virt : GlobalId) : Prop :=
  virt ∈ s.idMap ∧ virt ∉ s.allocations ∧ virt ∉ R

/-- Runs of the provider while owners release their objects: the second set has the ids that were
released so far, and `G` holds whenever a turn begins. -/
inductive ReleasingRuns (lzo : Lzo) (fuel : ℕ) (lib : OpenCl Cl)
    (G : State Cl → Set GlobalId → Prop) : State Cl → Set GlobalId → Prop
  /-- Platforms and devices are different objects of the library. -/
  | initial (platforms : List Platform) (hp : Registered platforms)
    (hreal : ((registrations platforms).map Prod.snd).Nodup) (addresses : ℕ → Arg) :
    ReleasingRuns lzo fuel lib G (.initial lib platforms addresses) ∅
  | arrive {s : State Cl} {R : Set GlobalId} (n : Net Unit) (h : ReleasingRuns lzo fuel lib G s R) :
    ReleasingRuns lzo fuel lib G (s.withNet n) R
  | release {s : State Cl} {R : Set GlobalId} (virt : GlobalId)
    (h : ReleasingRuns lzo fuel lib G s R) (hv : s.Live R virt)
    (hobject : virt ∉ (registrations s.platforms).map Prod.fst) :
    ReleasingRuns lzo fuel lib G s (insert virt R)
  | turn {s s' : State Cl} {R : Set GlobalId} {b : Bool} (h : ReleasingRuns lzo fuel lib G s R)
    (hg : G s R) (hrun : providerTurn lzo fuel lib s = .done s' b) :
    ReleasingRuns lzo fuel lib G s' R

/-- The library returns a pointer again only when the object behind it has been released. -/
def Reissues (s : State Cl) (R : Set GlobalId) : Prop :=
  ∀ virt real, s.Maps virt real → ∀ u, s.idMap.lookup u = some real → ¬ s.Live R u

/-- Looking an id up and back again leads to the same id, and so the query for the queue of an event
answers with the id of that queue. -/
structure Inverts (lib : OpenCl Cl) (s : State Cl) (R : Set GlobalId) : Prop where
  find : ∀ virt real, s.Live R virt → mappingFindByVirt virt s = .done s (some real) →
    mappingFindByReal real s = .done s (some virt)
  queue : ∀ virt real, s.Live R virt → mappingFindByVirt virt s = .done s (some real) →
    ∀ (argv : ℕ → Arg) (cl : Cl) (mem : Memory) (r : ClResult) (b : Bytes),
      toUint (argv 2) = clEventCommandQueue → argv 4 ≠ 0 →
      lib.call .getEventInfo [argv 1, toUint (argv 2), argv 3, argv 4, argv 5] s.cl s.mem =
        (cl, mem, r) → r.ret = 0 → mem (argv 4) = some b → 8 ≤ b.length → b.wordAt 0 = real →
      claraClGetEventInfo lib argv s = .done { s with
        cl := cl
        mem := mem.put (argv 4) (some (b.overwrite 0 (Bytes.word virt))) } r.ret

/-- What the next turn enters neither hides a live id nor is hidden: the ids that the map has for the
pointer of a new object were released and are greater than the new one, and a live id for the
pointer of a new allocation is less than its handle. -/
structure Unhidden (s : State Cl) (R : Set GlobalId) : Prop where
  mapped : ∀ virt real, s.Maps virt real → ∀ u, s.idMap.lookup u = some real →
    ¬ s.Live R u ∧ virt < u
  allocated : ∀ a, s.Allocates a → ∀ u, s.idMap.lookup u = some a.ptr → s.Live R u → u < a.handle

/-- A live id comes before all others that stand for the same pointer. -/
def State.First (s : State Cl) (R : Set GlobalId) : Prop :=
  ∀ virt real, s.Live R virt → s.idMap.lookup virt = some real →
    ∀ u, s.idMap.lookup u = some real → virt ≤ u

theorem mappingFindByReal_first (hd : s.idMap.damaged = false) {virt : GlobalId} {real : Arg}
    (hv : s.idMap.lookup virt = some real) (hmin : ∀ u, s.idMap.lookup u = some real → virt ≤ u) :
    mappingFindByReal real s = .done s (some virt) := by
  have hfind : s.idMap.items.find? (fun x => x.2 == real) = some (virt, real) := by
    apply KeyedList.find?_of_least s.idMap.ordered (IdSet.mem_items.mpr hv) (beq_self_eq_true real)
    rintro ⟨u, w⟩ hmem hw
    have hw : w = real := eq_of_beq hw
    exact hmin u (IdSet.mem_items.mp (hw ▸ hmem))
  rw [mappingFindByReal, bind_run, get_run, Outcome.bind_done, IdSet.setList, if_neg (by simp [hd])]
  simp only [ofSet, bind_run, pure_run, get_run, Outcome.bind_done, hfind, Option.map_some]

theorem State.First.inverts_of_undamaged (h : s.First R) (hd : s.idMap.damaged = false)
    (lib : OpenCl Cl) :
    Inverts lib s R := by
  have hlook : ∀ virt real, mappingFindByVirt virt s = .done s (some real) →
      s.idMap.lookup virt = some real := by
    intro virt real hfind
    rw [mappingFindByVirt_run hd] at hfind
    exact (Outcome.done.inj hfind).2
  constructor
  · intro virt real hlive hfind
    have hv := hlook virt real hfind
    exact mappingFindByReal_first hd hv (h virt real hlive hv)
  · intro virt real hlive hfind argv cl mem r b hname hptr hcall hret hb hlen hreal
    have hv := hlook virt real hfind
    obtain ⟨s₁, hs₁⟩ : ∃ s₁, s₁ = { s with cl := cl, mem := mem } := ⟨_, rfl⟩
    have hback : mappingFindByReal real s₁ = .done s₁ (some virt) := by
      rw [hs₁]
      exact mappingFindByReal_first (s := { s with cl := cl, mem := mem }) hd hv
        (h virt real hlive hv)
    have hload : loadWord (argv 4) 0 s₁ = .done s₁ real := by
      rw [hs₁, loadWord_run (s := { s with cl := cl, mem := mem }) hb (by omega), hreal]
    have hstore : store (argv 4) 0 (Bytes.word virt) s₁ = .done { s₁ with
        mem := s₁.mem.put (argv 4) (some (b.overwrite 0 (Bytes.word virt))) } () := by
      rw [hs₁]
      exact store_run (s := { s with cl := cl, mem := mem }) hb (by simpa using hlen)
    have hcalls : callCl lib .getEventInfo [argv 1, toUint (argv 2), argv 3, argv 4, argv 5] s =
        .done s₁ r := by
      rw [callCl, hcall, hs₁]
    rw [claraClGetEventInfo, bind_run, hcalls, Outcome.bind_done, if_pos ⟨hname, hret, hptr⟩]
    simp only [bind_run, hload, hback, hstore, Outcome.bind_done, pure_run]
    rw [hs₁]

theorem State.First.turned (h : s.First R) (hg : Unhidden s R) (ht : Turned s s') :
    s'.First R := by
  cases ht with
  | same hi ha =>
    intro virt real hlive
    rw [State.Live, hi, ha] at hlive
    rw [hi]
    exact h virt real hlive
  | allocated a hentry hi ha hi' ha' =>
    rintro virt real ⟨hmem, hnot, hR⟩ hv u hu
    rw [ha', IdSet.mem_add ha, not_or] at hnot
    rw [hi', IdSet.lookup_add hi, if_neg hnot.1] at hv
    have hlive : s.Live R virt := ⟨IdSet.mem_of_lookup hv, hnot.2, hR⟩
    rw [hi', IdSet.lookup_add hi] at hu
    split_ifs at hu with heq
    · rw [heq]
      exact (hg.allocated a hentry virt (hv.trans hu.symm) hlive).le
    · exact h virt real hlive hv u hu
  | mapped virt' real' hentry hnew hi' ha' =>
    rintro virt real ⟨hmem, hnot, hR⟩ hv u hu
    rw [ha'] at hnot
    rw [hi', IdSet.lookup_add hnew] at hv hu
    split_ifs at hv hu with heq hequ hequ
    · rw [heq, hequ]
    · rw [heq]
      exact (hg.mapped virt' real' hentry u (hu.trans hv.symm)).2.le
    · have hlive : s.Live R virt := ⟨IdSet.mem_of_lookup hv, hnot, hR⟩
      exact absurd hlive (hg.mapped virt' real' hentry virt (hv.trans hu.symm)).1
    · exact h virt real ⟨IdSet.mem_of_lookup hv, hnot, hR⟩ hv u hu
  | removed handle hmem' hi' ha' =>
    rintro virt real ⟨hmem, hnot, hR⟩ hv u hu
    rw [hi', IdSet.lookup_erase] at hv hu
    split_ifs at hv hu with hne hne'
    rw [ha', IdSet.mem_erase, not_and] at hnot
    exact h virt real ⟨IdSet.mem_of_lookup hv, hnot hne, hR⟩ hv u hu

theorem first_initial (lib : OpenCl Cl) {platforms : List Platform} (hp : Registered platforms)
    (hreal : ((registrations platforms).map Prod.snd).Nodup) (addresses : ℕ → Arg) :
    (State.initial lib platforms addresses).First ∅ := by
  intro virt real _ hv u hu
  have hlook : ∀ id, (State.initial lib platforms addresses).idMap.lookup id =
      (registrations platforms).lookup id := IdSet.lookup_ofList hp
  rw [hlook] at hv hu
  have hmem : ∀ {id}, (registrations platforms).lookup id = some real →
      (id, real) ∈ registrations platforms := by
    intro id hid
    obtain ⟨l, k, hl, -⟩ := List.lookup_eq_some_iff.mp hid
    rw [hl]
    simp
  have heq := List.inj_on_of_nodup_map hreal (hmem hv) (hmem hu) rfl
  rw [(Prod.mk.inj heq).1]

theorem ReleasingRuns.paired {G : State Cl → Set GlobalId → Prop}
    (h : ReleasingRuns lzo fuel lib G s R) : s.Paired := by
  induction h with
  | initial platforms hp _ addresses =>
    have hrun : Reachable lzo fuel lib (.initial lib platforms addresses) :=
      .initial platforms hp addresses
    exact hrun.paired
  | arrive n _ ih => exact ih.of_same rfl rfl
  | release _ _ _ _ ih => exact ih
  | turn _ _ hrun ih => exact ih.turned (ih.sound.turned hrun)

/-- In a run in which no id is hidden, each leads to its pointer and back. -/
theorem ReleasingRuns.inverts (h : ReleasingRuns lzo fuel lib Unhidden s R) : Inverts lib s R := by
  have hfirst : s.First R := by
    induction h with
    | initial platforms hp hreal addresses => exact first_initial lib hp hreal addresses
    | arrive n _ ih => exact ih
    | release virt _ _ _ ih =>
      rintro virt' real ⟨hmem, hnot, hR⟩
      exact ih virt' real ⟨hmem, hnot, fun hmem' => hR (Set.mem_insert_of_mem virt hmem')⟩
    | turn h hg hrun ih => exact ih.turned hg (h.paired.sound.turned hrun)
  exact hfirst.inverts_of_undamaged h.paired.sound.idMap lib

def State.Offered (s : State Cl) (type : MessageType) (msg : Bytes) : Prop :=
  s.net = .wire [.record (Sent.msg type msg).record] []

theorem State.Next.unique {type type' : MessageType} {msg msg' : Bytes}
    (h : s.Next type' msg') (ho : s.Offered type msg) (hm : msg.length ≤ recvbufsz) :
    type' = type ∧ msg' = msg := by
  obtain ⟨n, hn⟩ := h
  rw [ho, Net.run_claraRecvmsg rfl hm] at hn
  obtain ⟨-, hr⟩ := Outcome.done.inj hn
  obtain ⟨rfl, rfl⟩ := Received.message.inj hr
  exact ⟨rfl, rfl⟩

theorem State.Maps.unique {virt virt' : GlobalId} {real real' : Arg} (h : s.Maps virt' real')
    (ho : s.Offered Msg.mapping (Bytes.words [virt, real])) : virt' = virt ∧ real' = real := by
  have hm := length_words_le [virt, real] (by decide : 2 ≤ 5)
  cases h with
  | mapping hnext =>
    obtain ⟨-, rfl⟩ := hnext.unique ho hm
    exact ⟨s.took_word_words hm rfl, s.took_word_words hm rfl⟩
  | mapatptr hnext _ _ =>
    obtain ⟨htype, -⟩ := hnext.unique ho hm
    exact absurd htype (by decide)

theorem unhidden_mapping {virt : GlobalId} {real : Arg}
    (ho : s.Offered Msg.mapping (Bytes.words [virt, real]))
    (h : ∀ u, s.idMap.lookup u = some real → ¬ s.Live R u ∧ virt < u) : Unhidden s R where
  mapped virt' real' hmaps := by
    obtain ⟨rfl, rfl⟩ := hmaps.unique ho
    exact h
  allocated a hallocates := by
    obtain ⟨hnext, -⟩ := hallocates
    obtain ⟨htype, -⟩ := hnext.unique ho (length_words_le [virt, real] (by decide : 2 ≤ 5))
    exact absurd htype (by decide)

theorem reissues_mapping {virt : GlobalId} {real : Arg}
    (ho : s.Offered Msg.mapping (Bytes.words [virt, real]))
    (h : ∀ u, s.idMap.lookup u = some real → ¬ s.Live R u) : Reissues s R := by
  intro virt' real' hmaps
  obtain ⟨rfl, rfl⟩ := hmaps.unique ho
  exact h

/-- A MAPPING message arrives and is served. -/
def State.served (s : State Cl) (virt : GlobalId) (real : Arg) : State Cl :=
  ((s.took (Bytes.words [virt, real])).mapped virt real).withNet (.wire [] [])

theorem ReleasingRuns.served {G : State Cl → Set GlobalId → Prop}
    (h : ReleasingRuns lzo fuel lib G s R) {virt : GlobalId} {real : Arg} (hv : virt ∉ s.idMap)
    (hg : G (s.withNet (.wire (Net.incoming [.msg Msg.mapping (Bytes.words [virt, real])]) [])) R) :
    ReleasingRuns lzo fuel lib G (s.served virt real) R := by
  have hm := length_words_le [virt, real] (by decide : 2 ≤ 5)
  have hhandle : handleMapping ((s.took (Bytes.words [virt, real])).withNet (.wire [] [])) =
      .done (s.served virt real) () :=
    handleMapping_run ((h.paired.sound.took _).withNet _) (s.took_word_words hm rfl)
      (s.took_word_words hm rfl) hv
  have hrun : providerTurn lzo fuel lib
      (s.withNet (.wire (Net.incoming [.msg Msg.mapping (Bytes.words [virt, real])]) [])) =
        .done (s.served virt real) true := by
    rw [providerTurn_message rfl hm]
    exact congrArg (Outcome.bind · fun s _ => .done s true) hhandle
  exact .turn (h.arrive _) hg hrun

/-- The provider when an object has come into being. -/
def oneObject (virt : GlobalId) : State Unit :=
  (State.initial silentCl [] fun _ => 0).served virt 4096

theorem lookup_oneObject (virt u : GlobalId) :
    (oneObject virt).idMap.lookup u = if u = virt then some 4096 else none :=
  IdSet.lookup_add (IdSet.not_mem_empty virt) 4096 u

/-- The object is released and followed by one with the same pointer. -/
theorem releasingRuns_reused {G : State Unit → Set GlobalId → Prop} {virt virt' : GlobalId}
    (hne : virt' ≠ virt)
    (hg : ∀ s, s.Offered Msg.mapping (Bytes.words [virt, 4096]) →
      (∀ u, s.idMap.lookup u ≠ some 4096) → G s ∅)
    (hg' : ∀ s, s.Offered Msg.mapping (Bytes.words [virt', 4096]) →
      (∀ u, s.idMap.lookup u = some 4096 → u = virt) → G s {virt}) :
    ReleasingRuns literalLzo 100 silentCl G ((oneObject virt).served virt' 4096) {virt} := by
  have hinit : ReleasingRuns literalLzo 100 silentCl G
      (.initial silentCl [] fun _ => 0) ∅ := .initial [] registered_nil List.nodup_nil _
  have hfirst : ReleasingRuns literalLzo 100 silentCl G (oneObject virt) ∅ :=
    hinit.served (IdSet.not_mem_empty virt) (hg _ rfl fun u hu => nomatch hu)
  have hmem : virt ∈ (oneObject virt).idMap := by
    rw [IdSet.mem_iff, lookup_oneObject, if_pos rfl]
    exact ⟨4096, rfl⟩
  have hreleased := hfirst.release virt
    ⟨hmem, IdSet.not_mem_empty virt, Set.notMem_empty virt⟩ List.not_mem_nil
  rw [insert_empty_eq] at hreleased
  have hone : ∀ u, (oneObject virt).idMap.lookup u = some 4096 → u = virt := by
    intro u hu
    by_contra hnot
    rw [lookup_oneObject, if_neg hnot] at hu
    cases hu
  have hnew : virt' ∉ (oneObject virt).idMap := by
    rw [IdSet.not_mem_iff, lookup_oneObject, if_neg hne]
  exact hreleased.served hnew (hg' ((oneObject virt).withNet _) rfl hone)

/-- The new object's id is the lesser one. -/
theorem inverts_reused : Inverts silentCl ((oneObject 10).served 9 4096) {10} := by
  have hrun : ReleasingRuns literalLzo 100 silentCl Unhidden ((oneObject 10).served 9 4096)
      {10} := by
    apply releasingRuns_reused (by decide)
    · intro s ho hnone
      exact unhidden_mapping ho fun u hu => absurd hu (hnone u)
    · intro s ho hone
      refine unhidden_mapping ho fun u hu => ?_
      rw [hone u hu]
      exact ⟨fun hlive => hlive.2.2 rfl, by decide⟩
  exact hrun.inverts

/-- Here it is the greater one, and the released id is found for it. -/
theorem not_inverts_reused : ¬ ∀ (s : State Unit) (R : Set GlobalId),
    ReleasingRuns literalLzo 100 silentCl Reissues s R → Inverts silentCl s R := by
  intro h
  have hrun : ReleasingRuns literalLzo 100 silentCl Reissues ((oneObject 9).served 10 4096) {9} := by
    apply releasingRuns_reused (by decide)
    · intro s ho hnone
      exact reissues_mapping ho fun u hu => absurd hu (hnone u)
    · intro s ho hone
      refine reissues_mapping ho fun u hu hlive => ?_
      rw [hone u hu] at hlive
      exact hlive.2.2 rfl
  have hlive : ((oneObject 9).served 10 4096).Live {9} 10 :=
    ⟨by decide, by decide, by simp⟩
  have hfind := (h _ _ hrun).find 10 4096 hlive rfl
  have hstale : mappingFindByReal 4096 ((oneObject 9).served 10 4096) =
      .done ((oneObject 9).served 10 4096) (some 9) := rfl
  rw [hstale] at hfind
  have hids := Option.some.inj (Outcome.done.inj hfind).2
  exact absurd hids (by decide)

end Clara.Provider
