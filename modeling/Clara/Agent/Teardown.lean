import Clara.Agent.Store

/-! The end of a consumer: what its thread cleans up, and what it would have to. -/
namespace Clara.Agent

open Conc

variable {t : Tid} {s s' : State} {c : Addr} {r : SetRef}

structure OthersKept (s s' : State) (c : Addr) : Prop where
  consumer : ∀ d, d ≠ c → s'.heap .consumer d = s.heap .consumer d ∧
    (d ∈ s'.sets .consumers ↔ d ∈ s.sets .consumers)
  sets : ∀ d, d ≠ c → s'.sets (.objectsOf d) = s.sets (.objectsOf d) ∧
    s'.sets (.allocations d) = s.sets (.allocations d)
  allocations : ∀ d, d ≠ c → ∀ id a, (s.sets (.allocations d)).lookup id = some a →
    s'.heap .allocation a = s.heap .allocation a ∧
      ∀ al ptr, s.heap .allocation a = some al → al.ptr = some ptr →
        s'.heap .buffer ptr = s.heap .buffer ptr
  objects : ∀ id a o, (s.sets .objects).lookup id = some a → s.heap .object a = some o →
    o.consumer ≠ some c → (s'.sets .objects).lookup id = some a ∧ s'.heap .object a = some o
  pool : ∀ id, id ∉ s.sets (.allocations c) → id ∉ s.sets (.objectsOf c) →
    (id ∈ s'.sets .idPool ↔ id ∈ s.sets .idPool)
  platforms : ∀ p pf, s.heap .platform p = some pf → pf.consumer ≠ some c →
    s'.heap .platform p = some pf

structure Forgotten (s s' : State) (c : Addr) : Prop where
  ids : ∀ id ∈ s.sets (.allocations c), id ∉ s'.sets .idPool
  objects : ∀ id a o, (s'.sets .objects).lookup id = some a → s'.heap .object a = some o →
    o.consumer ≠ some c
  platforms : ∀ p pf, s'.heap .platform p = some pf → pf.consumer ≠ some c
  consumers : c ∉ s'.sets .consumers
  others : OthersKept s s' c

/-- The end of the consumer's thread completes and leaves nothing of the consumer. -/
def CleansUp (s : State) (c : Addr) : Prop :=
  ∃ s', run (.consumer c) (consumerShutdown c) s = .done s' () ∧ Forgotten s s' c

structure CanDetach (s : State) (c : Addr) (consumer : Consumer) : Prop where
  record : s.heap .consumer c = some consumer
  attached : consumer.attached = true
  platform : s.loadBalancing = true → ∀ p, consumer.platform = some p →
    (s.heap .platform p).isSome
  consumers : Usable (.consumer c) .consumers s
  listed : c ∈ s.sets .consumers

/-- A consumer whose end can be run: besides, its sets are intact and it has no allocations. -/
structure CanLeave (s : State) (c : Addr) (consumer : Consumer) : Prop
    extends CanDetach s c consumer where
  allocations : Usable (.consumer c) (.allocations c) s
  fetched : (s.sets (.allocations c)).items = []
  objectsOf : Usable (.consumer c) (.objectsOf c) s

/-- A consumer that leaves nothing behind: besides, no object is its own, and no platform but the
one that it releases. -/
structure LeavesNothing (s : State) (c : Addr) (consumer : Consumer) : Prop
    extends CanLeave s c consumer where
  released : ∀ id a o, (s.sets .objects).lookup id = some a → s.heap .object a = some o →
    o.consumer ≠ some c
  holder : ∀ p pf, s.heap .platform p = some pf → pf.consumer = some c →
    s.loadBalancing = true ∧ consumer.platform = some p

theorem Lock.exists_wait {l : Lock} (h : l.admits t = true) :
    ∃ l₁ l₂, l.wait t = some l₁ ∧ l₁.post t = some l₂ ∧ l₂.admits t = true := by
  obtain ⟨owner, cnt⟩ := l
  have hpost : ∃ l₂ : Lock, Lock.post t ⟨some t, cnt + 1⟩ = some l₂ ∧ l₂.admits t = true := by
    by_cases hcnt : cnt = 0
    · exact ⟨.free, by simp [Lock.post, hcnt, Lock.free], rfl⟩
    · exact ⟨⟨some t, cnt⟩, by simp [Lock.post, hcnt], by simp [Lock.admits]⟩
  obtain ⟨l₂, h₂, hadm⟩ := hpost
  refine ⟨⟨some t, cnt + 1⟩, l₂, ?_, h₂, hadm⟩
  cases owner with
  | none => rfl
  | some u =>
    have hu : u = t := by simpa [Lock.admits] using h
    simp [Lock.wait, hu]

theorem Lock.admits_of_wait {l l' : Lock} (h : l.wait t = some l') : l.admits t = true := by
  obtain ⟨owner, cnt⟩ := l
  cases owner with
  | none => rfl
  | some u =>
    have hu : u = t := by
      by_contra hne
      simp [Lock.wait, hne] at h
    simp [Lock.admits, hu]

theorem run_visit (hu : Usable t r s) : ∃ l₁ l₂, l₂.admits t = true ∧
    run t (setStart r) s = .done (s.putLock r l₁) ((s.sets r).items.map Prod.snd) ∧
    run t (setFinish r) (s.putLock r l₁) = .done (s.putLock r l₂) () := by
  obtain ⟨l₁, l₂, hwait, hpost, hadm⟩ := Lock.exists_wait hu.admits
  have hown : (s.putLock r l₁).setLock r = l₁ := Function.update_self ..
  refine ⟨l₁, l₂, hadm, ?_, ?_⟩
  · rw [setStart, perform, run, Prog.run_perform, exec, hwait]
    simp [IdSet.setList, hu.sound, ofSet]
  · have hput : (s.putLock r l₁).putLock r l₂ = s.putLock r l₂ := by
      rw [State.putLock, State.putLock, Function.update_idem]
      rfl
    rw [setFinish, perform, run, Prog.run_perform, exec, hown, hpost, ← hput]

theorem run_setStart_done {l : List Addr} (h : run t (setStart r) s = .done s' l) :
    Usable t r s ∧ ∃ l₁, s' = s.putLock r l₁ ∧ l = (s.sets r).items.map Prod.snd := by
  rw [setStart, perform, run, Prog.run_perform, exec] at h
  split at h
  · cases h
  · next lock hwait =>
    rw [IdSet.setList] at h
    split_ifs at h with hd
    · cases h
    · obtain ⟨rfl, rfl⟩ := Outcome.done.inj h
      exact ⟨⟨by simpa using hd, Lock.admits_of_wait hwait⟩, lock, rfl, rfl⟩

theorem run_setDestroy (hl : (s.setLock r).admits t = true) :
    run t (setDestroy r) s = .done (s.putSet r { IdSet.empty with damaged := true }) () := by
  rw [setDestroy, perform, run, Prog.run_perform, exec, if_pos hl]

def State.releasedPlatform (s : State) (c : Addr) (consumer : Consumer) (p : Addr)
    (pf : Platform) : Platform :=
  if s.loadBalancing = true ∧ consumer.platform = some p ∧ pf.consumer = some c then
    { pf with consumer := none }
  else pf

structure Left (s s' : State) (c : Addr) (consumer : Consumer) : Prop where
  heap : ∀ k, k ≠ .consumer → k ≠ .platform → s'.heap k = s.heap k
  platforms : ∀ p, s'.heap .platform p =
    (s.heap .platform p).map (s.releasedPlatform c consumer p)
  consumer : ∀ d, d ≠ c → s'.heap .consumer d = s.heap .consumer d
  consumers : s'.sets .consumers = (s.sets .consumers).erase c
  sets : ∀ r, r ≠ .consumers → r ≠ .allocations c → r ≠ .objectsOf c → s'.sets r = s.sets r

structure Released (s s₁ : State) (c : Addr) (consumer : Consumer) : Prop where
  record : ∃ consumer₁, s₁.heap .consumer c = some consumer₁ ∧
    consumer₁.attached = consumer.attached
  heap : ∀ k, k ≠ .consumer → k ≠ .platform → s₁.heap k = s.heap k
  platforms : ∀ p, s₁.heap .platform p =
    (s.heap .platform p).map (s.releasedPlatform c consumer p)
  consumer : ∀ d, d ≠ c → s₁.heap .consumer d = s.heap .consumer d
  sets : s₁.sets = s.sets
  setLock : s₁.setLock = s.setLock

section
variable {consumer : Consumer}

theorem released_self (hc : s.heap .consumer c = some consumer)
    (h : ∀ p pf, s.heap .platform p = some pf → s.releasedPlatform c consumer p pf = pf) :
    Released s s c consumer where
  record := ⟨consumer, hc, rfl⟩
  heap _ _ _ := rfl
  platforms p := by
    cases hp : s.heap .platform p with
    | none => rfl
    | some pf => rw [Option.map_some, h p pf hp]
  consumer _ _ := rfl
  sets := rfl
  setLock := rfl

theorem run_lbReleasePlatform (hlb : s.loadBalancing = true)
    (hc : s.heap .consumer c = some consumer)
    (hp : ∀ p, consumer.platform = some p → (s.heap .platform p).isSome) :
    ∃ s₁ b, run t (lbReleasePlatform c) s = .done s₁ b ∧ Released s s₁ c consumer := by
  cases hplatform : consumer.platform with
  | none =>
    refine ⟨s, false, ?_, released_self hc fun p pf _ => ?_⟩
    · rw [lbReleasePlatform, run_bind, run_read hc, Outcome.bind_done, hplatform]
      rfl
    · rw [State.releasedPlatform, hplatform, if_neg (by simp)]
  | some p =>
    obtain ⟨pf, hpf⟩ := Option.isSome_iff_exists.mp (hp p hplatform)
    by_cases hown : pf.consumer = some c
    · let consumer₁ : Consumer := { consumer with platform := none }
      let pf₁ : Platform := { pf with consumer := none }
      refine ⟨(s.put .consumer c (some consumer₁)).put .platform p (some pf₁), true, ?_, ?_⟩
      · have hpf' : (s.put .consumer c (some consumer₁)).heap .platform p = some pf := by
          rw [State.put_heap_kind _ _ _ (by decide), hpf]
        rw [lbReleasePlatform, run_bind, run_read hc, Outcome.bind_done, hplatform]
        simp only
        rw [run_bind, run_read hpf, Outcome.bind_done, if_neg (not_not_intro hown), run_bind,
          run_store hc, Outcome.bind_done, run_bind]
        change ((run t (store .platform p none) (s.put .consumer c (some consumer₁))).bind _) = _
        rw [run_store hpf']
        rfl
      · refine ⟨⟨consumer₁, ?_, rfl⟩, fun k hk hk' => ?_, fun q => ?_, fun d hd => ?_, rfl, rfl⟩
        · rw [State.put_heap_kind _ _ _ (by decide), State.put_heap_self]
        · rw [State.put_heap_kind _ _ _ hk', State.put_heap_kind _ _ _ hk]
        · by_cases hq : q = p
          · rw [hq, State.put_heap_self, hpf, Option.map_some, State.releasedPlatform,
              if_pos ⟨hlb, hplatform, hown⟩]
          · have hne : consumer.platform ≠ some q := by
              rw [hplatform]
              exact fun h => hq (Option.some.inj h).symm
            rw [State.put_heap_of_ne _ _ hq, State.put_heap_kind _ _ _ (by decide)]
            cases hpq : s.heap .platform q with
            | none => rfl
            | some pf' =>
              rw [Option.map_some, State.releasedPlatform, if_neg fun h => hne h.2.1]
        · rw [State.put_heap_kind _ _ _ (by decide), State.put_heap_of_ne _ _ hd]
    · refine ⟨s, false, ?_, released_self hc fun q pf' hq => ?_⟩
      · rw [lbReleasePlatform, run_bind, run_read hc, Outcome.bind_done, hplatform]
        simp only
        rw [run_bind, run_read hpf, Outcome.bind_done, if_pos hown]
        rfl
      · rw [State.releasedPlatform, if_neg]
        rintro ⟨-, hq', hown'⟩
        obtain rfl := Option.some.inj (hplatform.symm.trans hq')
        obtain rfl := Option.some.inj (hpf.symm.trans hq)
        exact hown hown'

theorem CanDetach.run_consumerDetach (h : CanDetach s c consumer) :
    ∃ s₁ consumer₁, Released s s₁ c consumer ∧ s₁.heap .consumer c = some consumer₁ ∧
      run (.consumer c) (consumerDetach c) s =
        .done ((s₁.putSet .consumers ((s₁.sets .consumers).erase c)).put .consumer c
          (some { consumer₁ with attached := false })) true := by
  obtain ⟨s₁, hrel, hrun⟩ : ∃ s₁, Released s s₁ c consumer ∧
      run (.consumer c) (consumerDetach c) s = run (.consumer c) (do
        if ← setRemove .consumers c then
          store .consumer c (.attached false)
          pure true
        else pure false) s₁ := by
    have hlb : run (.consumer c) loadBalancing s = .done s s.loadBalancing := rfl
    have hattached : ¬ consumer.attached = false := by
      simp [h.attached]
    rw [consumerDetach, run_bind, run_read h.record, Outcome.bind_done, if_neg hattached, run_bind,
      hlb, Outcome.bind_done]
    by_cases hb : s.loadBalancing = true
    · obtain ⟨s₁, b, hrun, hrel⟩ := run_lbReleasePlatform hb h.record (h.platform hb)
      refine ⟨s₁, hrel, ?_⟩
      rw [if_pos hb, run_bind, hrun]
      rfl
    · refine ⟨s, released_self h.record fun p pf _ => ?_, ?_⟩
      · rw [State.releasedPlatform, if_neg fun h => hb h.1]
      · rw [if_neg hb]
  obtain ⟨consumer₁, hc₁, -⟩ := hrel.record
  have hu : Usable (.consumer c) .consumers s₁ :=
    ⟨by rw [hrel.sets, h.consumers.sound], by rw [hrel.setLock, h.consumers.admits]⟩
  have hmem : c ∈ s₁.sets .consumers := by
    rw [hrel.sets]
    exact h.listed
  refine ⟨s₁, consumer₁, hrel, hc₁, ?_⟩
  rw [hrun, run_bind, run_setRemove hu, Outcome.bind_done, decide_eq_true hmem, if_pos rfl, run_bind,
    run_store (by exact hc₁)]
  rfl

theorem run_consumerDestroy (hc : s.heap .consumer c = some consumer)
    (hattached : consumer.attached = false) (ha : Usable t (.allocations c) s)
    (hempty : (s.sets (.allocations c)).items = []) (ho : Usable t (.objectsOf c) s) :
    ∃ s', run t (consumerDestroy c) s = .done s' true ∧
      s'.heap = (s.put .consumer c none).heap ∧
      ∀ r, r ≠ .allocations c → r ≠ .objectsOf c → s'.sets r = s.sets r := by
  have hne : ¬ consumer.attached = true := by
    simp [hattached]
  obtain ⟨l₁, l, hadm, hstart, hfinish⟩ := run_visit ha
  have hdestroy := run_setDestroy (s := s.putLock (.allocations c) l) (r := .allocations c)
    (t := t) (by rwa [State.putLock_setLock_self])
  let s₁ : State := (s.putLock (.allocations c) l).putSet (.allocations c)
    { IdSet.empty with damaged := true }
  have ho₁ : Usable t (.objectsOf c) s₁ := by
    refine ⟨?_, ?_⟩
    · rw [State.putSet_sets_of_ne _ _ (by simp), State.putLock_sets, ho.sound]
    · rw [State.putSet_setLock, State.putLock_setLock_of_ne _ _ _ (by simp), ho.admits]
  obtain ⟨m₁, l', hadm', hstart', hfinish'⟩ := run_visit ho₁
  have hdestroy' := run_setDestroy (s := s₁.putLock (.objectsOf c) l') (r := .objectsOf c)
    (t := t) (by rwa [State.putLock_setLock_self])
  have hc' : ((s₁.putLock (.objectsOf c) l').putSet (.objectsOf c)
      { IdSet.empty with damaged := true }).heap .consumer c = some consumer := hc
  refine ⟨((s₁.putLock (.objectsOf c) l').putSet (.objectsOf c)
    { IdSet.empty with damaged := true }).put .consumer c none, ?_, rfl, fun r hr hr' => ?_⟩
  · rw [consumerDestroy, run_bind, run_read hc, Outcome.bind_done, if_neg hne, run_bind, hstart,
      hempty, Outcome.bind_done, List.map_nil, forEach, Prog.pure_bind', run_bind, hfinish,
      Outcome.bind_done, run_bind, hdestroy, Outcome.bind_done, run_bind, hstart', Outcome.bind_done,
      run_bind, hfinish', Outcome.bind_done, run_bind, hdestroy', Outcome.bind_done, run_bind,
      run_free hc']
    rfl
  · rw [State.put_sets, State.putSet_sets_of_ne _ _ hr', State.putLock_sets,
      State.putSet_sets_of_ne _ _ hr, State.putLock_sets]

theorem CanLeave.run_consumerShutdown (h : CanLeave s c consumer) :
    ∃ s', run (.consumer c) (consumerShutdown c) s = .done s' () ∧ Left s s' c consumer := by
  obtain ⟨s₁, consumer₁, hrel, hc₁, hdetach⟩ := h.run_consumerDetach
  let s₂ : State := (s₁.putSet .consumers ((s₁.sets .consumers).erase c)).put .consumer c
    (some { consumer₁ with attached := false })
  have hsets : ∀ r, r ≠ .consumers → s₂.sets r = s.sets r := by
    intro r hr
    rw [State.put_sets, State.putSet_sets_of_ne _ _ hr, hrel.sets]
  have hlock : s₂.setLock = s.setLock := by
    rw [State.put_setLock, State.putSet_setLock, hrel.setLock]
  have husable : ∀ r, r ≠ .consumers → Usable (.consumer c) r s → Usable (.consumer c) r s₂ :=
    fun r hr hu => ⟨by rw [hsets r hr, hu.sound], by rw [hlock, hu.admits]⟩
  obtain ⟨s₃, hdestroy, hheap₃, hsets₃⟩ := run_consumerDestroy (t := .consumer c) (s := s₂)
    (State.put_heap_self ..) rfl (husable _ (by simp) h.allocations)
    (by rw [hsets _ (by simp), h.fetched]) (husable _ (by simp) h.objectsOf)
  refine ⟨{ s₃ with phase := Function.update s₃.phase (.consumer c) .finished }, ?_, ?_⟩
  · rw [consumerShutdown, run_bind, hdetach, Outcome.bind_done, run_bind, run_assert, if_pos rfl,
      Outcome.bind_done, run_bind, hdestroy, Outcome.bind_done, run_bind, run_assert, if_pos rfl,
      Outcome.bind_done]
    rfl
  · have hheap : ∀ k, k ≠ .consumer → s₃.heap k = s₁.heap k := by
      intro k hk
      rw [hheap₃, State.put_heap_kind _ _ _ hk, State.put_heap_kind _ _ _ hk]
      rfl
    refine ⟨fun k hk hk' => ?_, fun p => ?_, fun d hd => ?_, ?_, fun r hr ha ho => ?_⟩
    · exact (hheap k hk).trans (hrel.heap k hk hk')
    · exact (congrFun (hheap .platform (by decide)) p).trans (hrel.platforms p)
    · show s₃.heap .consumer d = _
      rw [hheap₃, State.put_heap_of_ne _ _ hd, State.put_heap_of_ne _ _ hd]
      exact hrel.consumer d hd
    · show s₃.sets .consumers = _
      rw [hsets₃ _ (by simp) (by simp), State.put_sets, State.putSet_sets_self, hrel.sets]
    · exact (hsets₃ r ha ho).trans (hsets r hr)

theorem run_setRemove_done {key : r.Key} {b : Bool}
    (h : run t (setRemove r key) s = .done s' b) : Usable t r s ∧ b = decide (key ∈ s.sets r) := by
  have hu : Usable t r s := by
    rw [setRemove, perform, run, Prog.run_perform, exec] at h
    split_ifs at h with hadm
    rw [IdSet.setRemove] at h
    split_ifs at h with hd
    · cases h
    · exact ⟨by simpa using hd, hadm⟩
  rw [run_setRemove hu] at h
  obtain ⟨-, rfl⟩ := Outcome.done.inj h
  exact ⟨hu, rfl⟩

theorem platform_of_run {b : Bool} (hc : s.heap .consumer c = some consumer)
    (h : run t (lbReleasePlatform c) s = .done s' b) :
    ∀ p, consumer.platform = some p → (s.heap .platform p).isSome := by
  intro p hp
  rw [lbReleasePlatform, run_bind, run_read hc, Outcome.bind_done, hp] at h
  obtain ⟨s₁, pf, hread, -⟩ := run_bind_done h
  obtain ⟨-, hpf⟩ := run_read_done hread
  exact Option.isSome_iff_exists.mpr ⟨pf, hpf⟩

theorem listed_of_run (h : run t (do
      if ← setRemove .consumers c then
        store .consumer c (.attached false)
        pure true
      else pure false) s = .done s' true) :
    Usable t .consumers s ∧ c ∈ s.sets .consumers := by
  obtain ⟨s₁, b, hremove, h₁⟩ := run_bind_done h
  obtain ⟨hu, rfl⟩ := run_setRemove_done hremove
  by_cases hmem : c ∈ s.sets .consumers
  · exact ⟨hu, hmem⟩
  · rw [if_neg (by simpa using hmem)] at h₁
    cases h₁

theorem canDetach_of_run (h : run (.consumer c) (consumerDetach c) s = .done s' true) :
    ∃ consumer, CanDetach s c consumer := by
  rw [consumerDetach] at h
  obtain ⟨s₁, consumer, hread, h₁⟩ := run_bind_done h
  obtain ⟨rfl, hc⟩ := run_read_done hread
  by_cases hattached : consumer.attached = false
  · rw [if_pos hattached] at h₁
    cases h₁
  have hlb : run (.consumer c) loadBalancing s₁ = .done s₁ s₁.loadBalancing := rfl
  rw [if_neg hattached, run_bind, hlb, Outcome.bind_done] at h₁
  by_cases hb : s₁.loadBalancing = true
  · rw [if_pos hb] at h₁
    obtain ⟨s₂, b, hrelease, h₂⟩ := run_bind_done h₁
    have hplatform := platform_of_run hc hrelease
    obtain ⟨s₃, b', hrun, hrel⟩ := run_lbReleasePlatform hb hc hplatform
    obtain ⟨rfl, -⟩ := Outcome.done.inj (hrelease.symm.trans hrun)
    obtain ⟨hu, hmem⟩ := listed_of_run h₂
    refine ⟨consumer, hc, by simpa using hattached, fun _ => hplatform, ⟨?_, ?_⟩, ?_⟩
    · rw [← hrel.sets, hu.sound]
    · rw [← hrel.setLock, hu.admits]
    · rw [← hrel.sets]
      exact hmem
  · rw [if_neg hb] at h₁
    obtain ⟨hu, hmem⟩ := listed_of_run h₁
    exact ⟨consumer, hc, by simpa using hattached, fun h => absurd h hb, hu, hmem⟩

theorem destroyable_of_run {b : Bool} (h : run t (consumerDestroy c) s = .done s' b)
    (hc : s.heap .consumer c = some consumer) (hattached : consumer.attached = false) :
    Usable t (.allocations c) s ∧ (s.sets (.allocations c)).items = [] ∧
      Usable t (.objectsOf c) s := by
  have hne : ¬ consumer.attached = true := by
    simp [hattached]
  rw [consumerDestroy, run_bind, run_read hc, Outcome.bind_done, if_neg hne] at h
  have hfirst : Usable t (.allocations c) s ∧ (s.sets (.allocations c)).items = [] := by
    obtain ⟨s₁, l, hstart, h₁⟩ := run_bind_done h
    obtain ⟨ha, lock, rfl, rfl⟩ := run_setStart_done hstart
    obtain ⟨s₂, u, hvisit, h₂⟩ := run_bind_done h₁
    refine ⟨ha, ?_⟩
    cases hl : (s.sets (.allocations c)).items with
    | nil => rfl
    | cons x l =>
      rw [hl, List.map_cons, forEach] at hvisit
      obtain ⟨s₃, v, hentry, hrest⟩ := run_bind_done hvisit
      obtain ⟨s₄, handle, hdestroy, hfail⟩ := run_bind_done hentry
      cases hfail
  obtain ⟨ha, hempty⟩ := hfirst
  obtain ⟨l₁, l, hadm, hstart, hfinish⟩ := run_visit ha
  have hdestroy := run_setDestroy (s := s.putLock (.allocations c) l) (r := .allocations c)
    (t := t) (by rwa [State.putLock_setLock_self])
  rw [run_bind, hstart, hempty, Outcome.bind_done, List.map_nil, forEach, Prog.pure_bind',
    run_bind, hfinish, Outcome.bind_done, run_bind, hdestroy, Outcome.bind_done] at h
  obtain ⟨s₁, objects, hstart', -⟩ := run_bind_done h
  obtain ⟨ho, -⟩ := run_setStart_done hstart'
  refine ⟨ha, hempty, ?_, ?_⟩
  · rw [← ho.sound, State.putSet_sets_of_ne _ _ (by simp), State.putLock_sets]
  · rw [← ho.admits, State.putSet_setLock, State.putLock_setLock_of_ne _ _ _ (by simp)]

/-- A consumer whose end completes was one that can leave. -/
theorem canLeave_of_run (h : run (.consumer c) (consumerShutdown c) s = .done s' ()) :
    ∃ consumer, CanLeave s c consumer := by
  rw [consumerShutdown] at h
  obtain ⟨s₁, b, hdetach, h₁⟩ := run_bind_done h
  obtain ⟨s₂, u, hassert, h₂⟩ := run_bind_done h₁
  obtain ⟨rfl, rfl⟩ := run_assert_done hassert
  obtain ⟨s₃, b', hdestroy, h₃⟩ := run_bind_done h₂
  obtain ⟨consumer, hcan⟩ := canDetach_of_run hdetach
  obtain ⟨s₄, consumer₁, hrel, hc₁, hrun⟩ := hcan.run_consumerDetach
  obtain ⟨rfl, -⟩ := Outcome.done.inj (hdetach.symm.trans hrun)
  obtain ⟨ha, hempty, ho⟩ := destroyable_of_run hdestroy (State.put_heap_self ..) rfl
  have hsets : ∀ r, r ≠ .consumers → ((s₄.putSet .consumers ((s₄.sets .consumers).erase c)).put
      .consumer c (some { consumer₁ with attached := false })).sets r = s.sets r := by
    intro r hr
    rw [State.put_sets, State.putSet_sets_of_ne _ _ hr, hrel.sets]
  have hback : ∀ r, r ≠ .consumers → Usable (.consumer c) r _ → Usable (.consumer c) r s :=
    fun r hr hu => ⟨by rw [← hsets r hr, hu.sound], by rw [← hrel.setLock, ← hu.admits]; rfl⟩
  refine ⟨consumer, hcan, hback _ (by simp) ha, ?_, hback _ (by simp) ho⟩
  rw [← hsets _ (by simp), hempty]

theorem releasedPlatform_of_ne {p : Addr} {pf : Platform} (h : pf.consumer ≠ some c) :
    s.releasedPlatform c consumer p pf = pf := by
  rw [State.releasedPlatform, if_neg fun hcond => h hcond.2.2]

theorem Left.othersKept (h : Left s s' c consumer) : OthersKept s s' c := by
  have hobjects : s'.sets .objects = s.sets .objects :=
    h.sets .objects (by simp) (by simp) (by simp)
  have hpool : s'.sets .idPool = s.sets .idPool :=
    h.sets .idPool (by simp) (by simp) (by simp)
  have hheap : s'.heap .object = s.heap .object := h.heap .object (by decide) (by decide)
  have hrecords : s'.heap .allocation = s.heap .allocation :=
    h.heap .allocation (by decide) (by decide)
  have hblocks : s'.heap .buffer = s.heap .buffer := h.heap .buffer (by decide) (by decide)
  constructor
  case consumer =>
    intro d hd
    refine ⟨h.consumer d hd, ?_⟩
    rw [h.consumers, IdSet.mem_erase]
    exact and_iff_right hd
  case sets =>
    intro d hd
    exact ⟨h.sets _ (by simp) (by simp) (by simpa using hd),
      h.sets _ (by simp) (by simpa using hd) (by simp)⟩
  case allocations =>
    intro d _ id a _
    rw [hrecords, hblocks]
    exact ⟨rfl, fun _ _ _ _ => rfl⟩
  case objects =>
    intro id a o hid ho _
    rw [hobjects, hheap]
    exact ⟨hid, ho⟩
  case pool =>
    intro id _ _
    rw [hpool]
  case platforms =>
    intro p pf hp hne
    rw [h.platforms, hp, Option.map_some, releasedPlatform_of_ne hne]

/-- After the consumer has left nothing of it remains exactly when no object was its own and no
platform but the one released. -/
theorem Left.forgotten_iff (h : Left s s' c consumer)
    (hempty : (s.sets (.allocations c)).items = []) :
    Forgotten s s' c ↔
      (∀ id a o, (s.sets .objects).lookup id = some a → s.heap .object a = some o →
        o.consumer ≠ some c) ∧
      (∀ p pf, s.heap .platform p = some pf → pf.consumer = some c →
        s.loadBalancing = true ∧ consumer.platform = some p) := by
  have hobjects : s'.sets .objects = s.sets .objects :=
    h.sets .objects (by simp) (by simp) (by simp)
  have hheap : s'.heap .object = s.heap .object := h.heap .object (by decide) (by decide)
  constructor
  · intro hf
    constructor
    · intro id a o hid ho
      exact hf.objects id a o (by rw [hobjects, hid]) (by rw [hheap, ho])
    · intro p pf hp hown
      have hleft : s'.heap .platform p = some (s.releasedPlatform c consumer p pf) := by
        rw [h.platforms, hp, Option.map_some]
      have hne := hf.platforms p _ hleft
      by_contra hcond
      have hkept : s.releasedPlatform c consumer p pf = pf := by
        rw [State.releasedPlatform, if_neg fun hall => hcond ⟨hall.1, hall.2.1⟩]
      rw [hkept] at hne
      exact hne hown
  · rintro ⟨hreleased, hholder⟩
    constructor
    case ids =>
      intro id hid
      obtain ⟨a, ha⟩ := IdSet.mem_iff.mp hid
      have hitem := IdSet.mem_items.mpr ha
      rw [hempty] at hitem
      cases hitem
    case objects =>
      intro id a o hid ho
      rw [hobjects] at hid
      rw [hheap] at ho
      exact hreleased id a o hid ho
    case platforms =>
      intro p pf' hp
      rw [h.platforms] at hp
      obtain ⟨pf, hpf, rfl⟩ := Option.map_eq_some_iff.mp hp
      by_cases hown : pf.consumer = some c
      · obtain ⟨hb, hplatform⟩ := hholder p pf hpf hown
        rw [State.releasedPlatform, if_pos ⟨hb, hplatform, hown⟩]
        exact Option.some_ne_none c ∘ Eq.symm
      · rw [releasedPlatform_of_ne hown]
        exact hown
    case consumers =>
      rw [h.consumers, IdSet.mem_erase]
      exact fun hmem => hmem.1 rfl
    case others => exact h.othersKept

/-- A consumer's end completes and leaves nothing exactly when it has no allocation, no object, and
no platform but the one it releases, which must still be there. -/
theorem cleansUp_iff (s : State) (c : Addr) :
    CleansUp s c ↔ ∃ consumer, LeavesNothing s c consumer := by
  constructor
  · rintro ⟨s', hrun, hforgotten⟩
    obtain ⟨consumer, hcan⟩ := canLeave_of_run hrun
    obtain ⟨s₁, hrun₁, hleft⟩ := hcan.run_consumerShutdown
    obtain ⟨rfl, -⟩ := Outcome.done.inj (hrun.symm.trans hrun₁)
    obtain ⟨hreleased, hholder⟩ := (hleft.forgotten_iff hcan.fetched).mp hforgotten
    exact ⟨consumer, hcan, hreleased, hholder⟩
  · rintro ⟨consumer, h⟩
    obtain ⟨s', hrun, hleft⟩ := h.run_consumerShutdown
    exact ⟨s', hrun, (hleft.forgotten_iff h.fetched).mpr ⟨h.released, h.holder⟩⟩

end

/-- A consumer comes, has the agent keep four bytes, and leaves: its thread dereferences the agent
that `consumer_detach` has set to `NULL`. -/
theorem not_cleansUp_allocation :
    (run .main agentNewConsumer (.initial someIds false unlimited)).Ends fun s _ =>
      (run (.consumer 1) (agentConsumerHandler literalLzo 1 1 (.allocate ⟨0, 1, 4, 0⟩ [])) s).Ends
        fun s _ => ¬ CleansUp s 1 := by
  have hfault : (run .main agentNewConsumer (.initial someIds false unlimited)).Ends fun s _ =>
      (run (.consumer 1) (agentConsumerHandler literalLzo 1 1 (.allocate ⟨0, 1, 4, 0⟩ [])) s).Ends
        fun s _ => (run (.consumer 1) (consumerShutdown 1) s).fault? = some .nullPointer := by
    decide
  obtain ⟨s₁, u, hnew, hfault⟩ := Outcome.ends_iff.mp hfault
  obtain ⟨s₂, v, hallocate, hfault⟩ := Outcome.ends_iff.mp hfault
  refine Outcome.ends_iff.mpr ⟨s₁, u, hnew, Outcome.ends_iff.mpr ⟨s₂, v, hallocate, ?_⟩⟩
  rintro ⟨s', hrun, -⟩
  rw [hrun] at hfault
  cases hfault

end Clara.Agent
