import Clara.Agent.Forwarding

/-! The objects of platforms and devices. They are entered with no references and without an
owner, and go with their provider; but they take part in retains and releases as any other. -/
namespace Clara.Agent

open Conc

variable {lzo : Lzo} {fuel : ℕ} {s s' : State} {id : GlobalId} {a : Addr} {q : Forwarded}

/-- The requests complete one after the other. -/
def runRequests (lzo : Lzo) (fuel : ℕ) : List Forwarded → State → Outcome State Fault Unit
  | [], s => .done s ()
  | q :: qs, s => (q.run lzo fuel s).bind fun s _ => runRequests lzo fuel qs s

/-- A retain or release by some consumer whose hint and argument are the id. -/
structure Forwarded.Names (q : Forwarded) (s : State) (id : GlobalId) : Prop where
  counting : ∃ type, q.counting = some (.retain type) ∨ q.counting = some (.release type)
  hint : q.params.hint = id
  id : q.id = id
  consumer : (s.heap .consumer q.consumer).isSome

/-- The object at `a` after `n` requests: still in place, owned by nobody, and with no more
references than there have been requests. -/
structure Permanent (s : State) (id : GlobalId) (a : Addr) (n : ℕ) : Prop where
  entry : (s.sets .objects).lookup id = some a
  pool : id ∈ s.sets .idPool
  object : ∃ o, s.heap .object a = some o ∧ o.consumer = none ∧ o.refcnt.toNat ≤ n

/-- The object as it is created with its platform or device. -/
structure Registered (s : State) (id : GlobalId) (a : Addr) : Prop where
  entry : (s.sets .objects).lookup id = some a
  object : ∃ o, s.heap .object a = some o ∧ o.consumer = none ∧ o.refcnt = 0

theorem Registered.permanent (h : Registered s id a) (hs : Settled s) : Permanent s id a 0 where
  entry := h.entry
  pool := (hs.entry id a h.entry).1
  object := by
    obtain ⟨o, ho, hc, hr⟩ := h.object
    exact ⟨o, ho, hc, by rw [hr, UInt32.toNat_zero]⟩

section
variable {t : Tid} {c : Addr} {o : Object} {consumer : Consumer}

/-- The retain of an object without references makes its consumer the owner. -/
theorem run_clRetainObject_first (hc : s.heap .consumer c = some consumer)
    (hu : Usable t .objects s) (hid : (s.sets .objects).lookup id = some a)
    (ho : s.heap .object a = some o) (hl : s.heap .lock o.lock = some .free)
    (hr : o.refcnt = 0) (huc : Usable t (.objectsOf c) s) :
    (∃ f, run t (clRetainObject c id) s = .fault f) ∨
    run t (clRetainObject c id) s =
      .done ((s.put .object a (some { o with refcnt := 1, consumer := some c })).putSet
        (.objectsOf c) ((s.sets (.objectsOf c)).add o.id a)) true := by
  rw [clRetainObject, run_bind, run_read hc, Outcome.bind_done, run_bind, run_setFind hu,
    Outcome.bind_done, hid]
  simp only
  rw [run_bind]
  by_cases hk : o.id ∈ s.sets (.objectsOf c)
  · rw [run_objectRetain_listed ho hl hr huc hk]
    exact .inl ⟨_, rfl⟩
  · rw [run_objectRetain_first ho hl hr huc hk, Outcome.bind_done, run_bind, run_assert, if_pos rfl,
      Outcome.bind_done]
    exact .inr rfl

end

/-- The first retain makes its consumer the owner. -/
theorem Registered.retained (h : Registered s id a) (hs : Settled s) {type : ObjectType}
    (hq : q.counting = some (.retain type)) (hn : q.Names s id) {retval : Arg}
    (hrun : q.run lzo fuel s = .done s' retval) :
    ∃ o, s'.heap .object a = some o ∧ o.consumer = some q.consumer := by
  obtain ⟨o, ho, hown, hr⟩ := h.object
  obtain ⟨consumer, hc⟩ := Option.isSome_iff_exists.mp hn.consumer
  obtain ⟨⟨d, argc⟩, hd, hdk⟩ := Option.bind_eq_some_iff.mp hq
  obtain ⟨htab, htab'⟩ := Prod.mk.inj (entries_counting lzo fuel hdk)
  obtain ⟨n, hans⟩ := q.answered_eq s
  have hs₀ := hs.withNet n
  obtain ⟨s₁, b, hf⟩ := q.run_before clRetainObject hd htab hrun
  rw [hans, hn.id] at hf
  rcases run_clRetainObject_first (s := s.withNet n) hc hs₀.usable_objects h.entry ho
    (hs.lock_free h.entry ho) hr (hs₀.usable_objectsOf hn.consumer) with ⟨f, hfault⟩ | hdone
  · rw [hfault] at hf
    cases hf
  · rw [← hn.id, ← hans] at hdone
    obtain ⟨m, rfl⟩ := q.run_counted clRetainObject hs hd htab htab' hdone (by rw [hans]; rfl)
      (by simp [hans]) (by simpa [hans] using hs.providerLock) hrun
    refine ⟨{ o with refcnt := 1, consumer := some q.consumer }, ?_, rfl⟩
    simp

/-- The first release takes a reference from none. -/
theorem Registered.released (h : Registered s id a) (hs : Settled s) {type : ObjectType}
    (hq : q.counting = some (.release type)) (hn : q.Names s id) {retval : Arg}
    (hrun : q.run lzo fuel s = .done s' retval) :
    ∃ o, s'.heap .object a = some o ∧ o.refcnt = 0 - 1 := by
  obtain ⟨o, ho, hown, hr⟩ := h.object
  obtain ⟨consumer, hc⟩ := Option.isSome_iff_exists.mp hn.consumer
  obtain ⟨⟨d, argc⟩, hd, hdk⟩ := Option.bind_eq_some_iff.mp hq
  obtain ⟨htab, htab'⟩ := Prod.mk.inj (entries_counting lzo fuel hdk)
  obtain ⟨n, hans⟩ := q.answered_eq s
  have hs₀ := hs.withNet n
  have hdone := run_clReleaseObject_more (t := .consumer q.consumer) (s := s.withNet n) hc
    hs₀.usable_objects h.entry ho (hs.lock_free h.entry ho) (by rw [hr]; decide)
  rw [← hn.id, ← hans] at hdone
  obtain ⟨m, rfl⟩ := q.run_counted clReleaseObject hs hd htab htab' hdone (by rw [hans]; rfl)
    (by simp [hans]) (by simpa [hans] using hs.providerLock) hrun
  refine ⟨{ o with refcnt := o.refcnt - 1 }, ?_, by rw [hr]⟩
  simp

/-- After either the object is no longer what it was. -/
theorem Registered.not_permanent (h : Registered s id a) (hs : Settled s) (hn : q.Names s id)
    {retval : Arg} (hrun : q.run lzo fuel s = .done s' retval) : ¬ Permanent s' id a 1 := by
  rintro ⟨-, -, o, ho, hown, hr⟩
  obtain ⟨type, hq | hq⟩ := hn.counting
  · obtain ⟨o', ho', hown'⟩ := h.retained hs hq hn hrun
    obtain rfl := Option.some.inj (ho.symm.trans ho')
    rw [hown] at hown'
    cases hown'
  · obtain ⟨o', ho', hr'⟩ := h.released hs hq hn hrun
    obtain rfl := Option.some.inj (ho.symm.trans ho')
    rw [hr'] at hr
    exact absurd hr (by decide)

/-- The object stays through a sequence of retains and releases exactly when there are none. -/
theorem permanent_iff (hs : Settled s) (h : Registered s id a) {qs : List Forwarded}
    (hqs : ∀ q ∈ qs, q.Names s id) :
    (∀ pre, pre <+: qs → ∃ s', runRequests lzo fuel pre s = .done s' () ∧
      Permanent s' id a pre.length) ↔ qs = [] := by
  constructor
  · intro hall
    by_contra hne
    obtain ⟨q, rest, rfl⟩ := List.exists_cons_of_ne_nil hne
    obtain ⟨s', hrun, hperm⟩ := hall [q] (by simp)
    obtain ⟨s₁, retval, hq, hdone⟩ := Outcome.bind_eq_done hrun
    obtain ⟨rfl, -⟩ := Outcome.done.inj hdone
    exact h.not_permanent hs (hqs q List.mem_cons_self) hq hperm
  · rintro rfl pre hpre
    obtain rfl := List.prefix_nil.mp hpre
    exact ⟨s, rfl, h.permanent hs⟩

/-- Consumer 3 retains the platform as a context; the provider refuses. -/
def platformRetain : Forwarded := ⟨3, ⟨9, 6, fun _ => 9, 1⟩, invalidObjectStatus .context⟩

def platformRelease : Forwarded := ⟨3, ⟨9, 7, fun _ => 9, 1⟩, invalidObjectStatus .context⟩

private theorem registered_small : Registered (.small someIds) 9 6 where
  entry := by decide
  object := ⟨_, rfl, rfl, rfl⟩

private theorem platformRetain_names : platformRetain.Names (.small someIds) 9 where
  counting := ⟨.context, .inl (by decide)⟩
  hint := rfl
  id := rfl
  consumer := rfl

private theorem platformRelease_names : platformRelease.Names (.small someIds) 9 where
  counting := ⟨.context, .inr (by decide)⟩
  hint := rfl
  id := rfl
  consumer := rfl

theorem not_permanent_retain : ¬ ∀ pre, pre <+: [platformRetain] → ∃ s',
    runRequests literalLzo 1 pre (.small someIds) = .done s' () ∧
      Permanent s' 9 6 pre.length := by
  intro h
  have hnames : ∀ q ∈ [platformRetain], q.Names (.small someIds) 9 := by
    intro q hq
    rw [List.mem_singleton.mp hq]
    exact platformRetain_names
  exact List.cons_ne_nil _ _ ((permanent_iff (small_settled someIds) registered_small hnames).mp h)

/-- A retain and a release, and neither the object nor its id is left. -/
theorem not_permanent_retain_release : ¬ ∀ qs : List Forwarded,
    (∀ q ∈ qs, q.Names (.small someIds) 9) → ∀ pre, pre <+: qs → ∃ s',
      runRequests literalLzo 1 pre (.small someIds) = .done s' () ∧
        Permanent s' 9 6 pre.length := by
  intro h
  have hgone : (runRequests literalLzo 1 [platformRetain, platformRelease] (.small someIds)).Ends
      fun s _ => 9 ∉ s.sets .objects ∧ 9 ∉ s.sets .idPool := by decide
  obtain ⟨s, _, hrun, -, hpool⟩ := Outcome.ends_iff.mp hgone
  have hnames : ∀ q ∈ [platformRetain, platformRelease], q.Names (.small someIds) 9 := by
    intro q hq
    rcases List.mem_cons.mp hq with rfl | hq
    · exact platformRetain_names
    · rw [List.mem_singleton.mp hq]
      exact platformRelease_names
  obtain ⟨s', hrun', hperm⟩ := h _ hnames _ (List.prefix_refl _)
  obtain ⟨rfl, -⟩ := Outcome.done.inj (hrun.symm.trans hrun')
  exact hpool hperm.pool

end Clara.Agent
