import Clara.Agent.Run

/-! What the functions of `object.c` and `opencl_object.c` do when they run alone. -/
namespace Clara.Agent

open Conc

variable {t : Tid} {s : State} {a c : Addr} {o : Object}

theorem run_objectRetain_again (ho : s.heap .object a = some o)
    (hl : s.heap .lock o.lock = some .free) (hr : 0 < o.refcnt) (hc : o.consumer = some c) :
    run t (objectRetain a c) s =
      .done (s.put .object a (some { o with refcnt := o.refcnt + 1 })) true := by
  have hne : o.refcnt ≠ 0 := fun h => by simp [h] at hr
  rw [objectRetain, run_bind, run_read ho, Outcome.bind_done, run_bind,
    run_lockWait_free hl, Outcome.bind_done, run_bind, run_read (by simpa using ho),
    Outcome.bind_done, if_neg fun h => h.2 hc, if_neg hne, run_bind, 
    run_store (by simpa using ho), Outcome.bind_done, run_bind,
    run_lockPost_last (by simp), Outcome.bind_done, State.put_object_lock, State.put_put,
    State.put_self hl]
  rfl

theorem run_objectRetain_first (ho : s.heap .object a = some o)
    (hl : s.heap .lock o.lock = some .free) (hr : o.refcnt = 0) (hu : Usable t (.objectsOf c) s)
    (hk : o.id ∉ s.sets (.objectsOf c)) :
    run t (objectRetain a c) s =
      .done ((s.put .object a (some { o with refcnt := 1, consumer := some c })).putSet
        (.objectsOf c) ((s.sets (.objectsOf c)).add o.id a)) true := by
  have hpos : ¬ (0 < o.refcnt ∧ o.consumer ≠ some c) := fun h => by simp [hr] at h
  rw [objectRetain, run_bind, run_read ho, Outcome.bind_done, run_bind,
    run_lockWait_free hl, Outcome.bind_done, run_bind, run_read (by simpa using ho),
    Outcome.bind_done, if_neg hpos, if_pos hr, run_bind, run_store (by simpa using ho),
    Outcome.bind_done, run_bind, run_setInsert hu.put.put, Outcome.bind_done, run_bind,
    State.put_sets, State.put_sets, decide_eq_true hk, run_assert, if_pos rfl, Outcome.bind_done,
    run_bind, run_store (v := Kind.object.store (.consumer (some c)) o) (by simp), Outcome.bind_done,
    run_bind, run_lockPost_last (by simp), Outcome.bind_done]
  simp [hr, Kind.store, State.put_self hl]

/-- A consumer that has the object already: the insertion into its set fails. -/
theorem run_objectRetain_listed (ho : s.heap .object a = some o)
    (hl : s.heap .lock o.lock = some .free) (hr : o.refcnt = 0) (hu : Usable t (.objectsOf c) s)
    (hk : o.id ∈ s.sets (.objectsOf c)) :
    run t (objectRetain a c) s = .fault (.assertion .objectRetainInsert) := by
  have hpos : ¬ (0 < o.refcnt ∧ o.consumer ≠ some c) := fun h => by simp [hr] at h
  rw [objectRetain, run_bind, run_read ho, Outcome.bind_done, run_bind,
    run_lockWait_free hl, Outcome.bind_done, run_bind, run_read (by simpa using ho),
    Outcome.bind_done, if_neg hpos, if_pos hr, run_bind, run_store (by simpa using ho),
    Outcome.bind_done, run_bind, run_setInsert hu.put.put, Outcome.bind_done, run_bind,
    State.put_sets, State.put_sets, decide_eq_false (not_not_intro hk), run_assert,
    if_neg Bool.false_ne_true, Outcome.bind_fault]

theorem run_objectRelease_more {n : ℕ} (ho : s.heap .object a = some o)
    (hl : s.heap .lock o.lock = some ⟨some t, n + 1⟩) (hr : o.refcnt - 1 ≠ 0) :
    run t (objectRelease a) s =
      .done (s.put .object a (some { o with refcnt := o.refcnt - 1 })) true := by
  rw [objectRelease, run_bind, run_read ho, Outcome.bind_done, run_bind,
    run_lockWait_own hl, Outcome.bind_done, run_bind, run_read (by simpa using ho),
    Outcome.bind_done, run_bind, run_store (by simpa using ho), Outcome.bind_done, if_neg hr,
    run_bind, run_lockPost (n := n) (by simp), Outcome.bind_done]
  simp [Kind.store, State.put_self hl]

theorem run_objectRelease_last {n : ℕ} (ho : s.heap .object a = some o)
    (hl : s.heap .lock o.lock = some ⟨some t, n + 1⟩) (hr : o.refcnt = 1)
    (hc : o.consumer = some c) (hu : Usable t (.objectsOf c) s)
    (hk : o.id ∈ s.sets (.objectsOf c)) :
    run t (objectRelease a) s =
      .done ((s.put .object a (some { o with refcnt := 0, consumer := none })).putSet
        (.objectsOf c) ((s.sets (.objectsOf c)).erase o.id)) true := by
  have hr' : o.refcnt - 1 = 0 := by simp [hr]
  rw [objectRelease, run_bind, run_read ho, Outcome.bind_done, run_bind,
    run_lockWait_own hl, Outcome.bind_done, run_bind, run_read (by simpa using ho),
    Outcome.bind_done, run_bind, run_store (by simpa using ho), Outcome.bind_done, if_pos hr',
    hc, run_bind, run_deref_some, Outcome.bind_done, run_bind,
    run_setRemove hu.put.put, Outcome.bind_done, run_bind, State.put_sets,
    State.put_sets, decide_eq_true hk, run_assert, if_pos rfl, Outcome.bind_done, run_bind,
    run_store (v := Kind.object.store (.refcnt (o.refcnt - 1)) o) (by simp), Outcome.bind_done,
    run_bind, run_lockPost (n := n) (by simp), Outcome.bind_done]
  simp [hr', Kind.store, State.put_self hl]

/-- Destroying an object whose lock the caller holds, with nobody else waiting for it. -/
theorem run_objectDestroy {p : Provider} (ho : s.heap .object a = some o)
    (hl : s.heap .lock o.lock = some ⟨some t, 1⟩) (hr : o.refcnt = 0)
    (hp : s.heap .provider o.provider = some p) (hu : Usable t .objects s)
    (hk : o.id ∈ s.sets .objects) :
    run t (objectDestroy a) s =
      .done (((s.put .lock o.lock none).put .object a none).putSet .objects
        ((s.sets .objects).erase o.id)) true := by
  rw [objectDestroy, run_bind, run_read ho, Outcome.bind_done, if_neg (not_not_intro hr), run_bind,
    run_read hp, Outcome.bind_done, run_bind, run_setRemove hu, Outcome.bind_done, run_bind,
    decide_eq_true hk, run_assert, if_pos rfl, Outcome.bind_done, run_bind,
    run_free (v := o) (by simpa using ho), Outcome.bind_done, run_bind,
    run_lockPost_last (by simpa using hl), Outcome.bind_done, lockDestroy, run_bind, run_bind,
    run_lockWait_free (State.put_heap_self ..), Outcome.bind_done,
    run_free (State.put_heap_self ..), Outcome.bind_done]
  simp

variable {id : GlobalId} {consumer : Consumer}

theorem run_clRetainObject_absent (hc : s.heap .consumer c = some consumer)
    (hu : Usable t .objects s) (hid : (s.sets .objects).lookup id = none) :
    run t (clRetainObject c id) s = .done s false := by
  rw [clRetainObject, run_bind, run_read hc, Outcome.bind_done, run_bind, run_setFind hu,
    Outcome.bind_done, hid]
  rfl

theorem run_clReleaseObject_absent (hc : s.heap .consumer c = some consumer)
    (hu : Usable t .objects s) (hid : (s.sets .objects).lookup id = none) :
    run t (clReleaseObject c id) s = .done s false := by
  rw [clReleaseObject, run_bind, run_read hc, Outcome.bind_done, run_bind, run_setFind hu,
    Outcome.bind_done, hid]
  rfl

theorem run_clRetainObject_owner (hc : s.heap .consumer c = some consumer)
    (hu : Usable t .objects s) (hid : (s.sets .objects).lookup id = some a)
    (ho : s.heap .object a = some o) (hl : s.heap .lock o.lock = some .free)
    (hr : 0 < o.refcnt) (hown : o.consumer = some c) :
    run t (clRetainObject c id) s =
      .done (s.put .object a (some { o with refcnt := o.refcnt + 1 })) true := by
  rw [clRetainObject, run_bind, run_read hc, Outcome.bind_done, run_bind, run_setFind hu,
    Outcome.bind_done, hid]
  simp only
  rw [run_bind, run_objectRetain_again ho hl hr hown, Outcome.bind_done, run_bind, run_assert,
    if_pos rfl, Outcome.bind_done]
  rfl

theorem run_clReleaseObject_more (hc : s.heap .consumer c = some consumer)
    (hu : Usable t .objects s) (hid : (s.sets .objects).lookup id = some a)
    (ho : s.heap .object a = some o) (hl : s.heap .lock o.lock = some .free)
    (hr : o.refcnt - 1 ≠ 0) :
    run t (clReleaseObject c id) s =
      .done (s.put .object a (some { o with refcnt := o.refcnt - 1 })) true := by
  rw [clReleaseObject, run_bind, run_read hc, Outcome.bind_done, run_bind, run_setFind hu,
    Outcome.bind_done, hid]
  simp only
  rw [run_bind, run_read ho, Outcome.bind_done, run_bind, run_lockWait_free hl, Outcome.bind_done,
    run_bind, run_objectRelease_more (n := 0) (by simpa using ho) (State.put_heap_self ..) hr,
    Outcome.bind_done, run_bind, run_read (State.put_heap_self ..), Outcome.bind_done, if_neg hr,
    run_bind, run_lockPost_last (by simp), Outcome.bind_done]
  simp [State.put_self hl]

theorem run_clReleaseObject_last {d : Addr} {p : Provider}
    (hc : s.heap .consumer c = some consumer) (hu : Usable t .objects s)
    (hid : (s.sets .objects).lookup o.id = some a) (ho : s.heap .object a = some o)
    (hl : s.heap .lock o.lock = some .free) (hr : o.refcnt = 1) (hown : o.consumer = some d)
    (hp : s.heap .provider o.provider = some p) (hud : Usable t (.objectsOf d) s)
    (hd : o.id ∈ s.sets (.objectsOf d)) (hui : Usable t .idPool s) (hi : o.id ∈ s.sets .idPool) :
    run t (clReleaseObject c o.id) s =
      .done (((((s.put .lock o.lock none).put .object a none).putSet (.objectsOf d)
        ((s.sets (.objectsOf d)).erase o.id)).putSet .idPool
          ((s.sets .idPool).erase o.id)).putSet .objects ((s.sets .objects).erase o.id)) true := by
  rw [clReleaseObject, run_bind, run_read hc, Outcome.bind_done, run_bind, run_setFind hu,
    Outcome.bind_done, hid]
  simp only
  -- the object between its last release and its destruction
  let o' : Object := { o with refcnt := 0, consumer := none }
  let s' : State := ((s.put .lock o.lock (some ⟨some t, 1⟩)).put .object a (some o')).putSet
    (.objectsOf d) ((s.sets (.objectsOf d)).erase o.id)
  let s'' : State := s'.putSet .idPool ((s.sets .idPool).erase o.id)
  have ho' : s'.heap .object a = some o' := by simp [s']
  have hl' : s''.heap .lock o'.lock = some ⟨some t, 1⟩ := by simp [s'', s', o']
  have hp' : s'.heap .provider o'.provider = some p := by simpa [s', o'] using hp
  have hui' : Usable t .idPool s' :=
    ⟨by simpa [s', State.putSet_sets_of_ne] using hui.sound, hui.admits⟩
  have hu' : Usable t .objects s'' :=
    ⟨by simpa [s'', s', State.putSet_sets_of_ne] using hu.sound, hu.admits⟩
  have hpool : s'.sets .idPool = s.sets .idPool := by simp [s', State.putSet_sets_of_ne]
  have hmem : o'.id ∈ s''.sets .objects := by
    simpa [s'', s', o', State.putSet_sets_of_ne] using IdSet.mem_of_lookup hid
  rw [run_bind, run_read ho, Outcome.bind_done, run_bind, run_lockWait_free hl, Outcome.bind_done,
    run_bind, run_objectRelease_last (n := 0) (by simpa using ho) (State.put_heap_self ..) hr hown
      hud.put (by simpa using hd), Outcome.bind_done, run_bind]
  change ((run t (read .object a) s').bind _) = _
  rw [run_read ho', Outcome.bind_done, if_pos rfl, run_bind, run_read hp', Outcome.bind_done,
    run_bind, idRelease, run_setRemove hui', Outcome.bind_done, run_bind, hpool,
    decide_eq_true hi, run_assert, if_pos rfl, Outcome.bind_done, run_bind]
  change ((run t (objectDestroy a) s'').bind _) = _
  rw [run_objectDestroy (s := s'') ho' hl' rfl hp' hu' hmem, Outcome.bind_done, run_bind, run_assert,
    if_pos rfl, Outcome.bind_done]
  simp [s'', s', o', State.putSet_sets_of_ne]

def State.withObject (s : State) (o : Object) : State :=
  { (s.put .lock s.next (some Lock.free)).put .object (s.next + 1) (some o) with
    next := s.next + 2 }

namespace State
variable (s : State)

@[simp] theorem withObject_object : (s.withObject o).heap .object (s.next + 1) = some o := by
  simp [withObject]

@[simp] theorem withObject_lock : (s.withObject o).heap .lock s.next = some .free := by
  simp [withObject]

theorem withObject_heap_of_ne {k : Kind} {b : Addr} (h : b ≠ s.next) (h' : b ≠ s.next + 1) :
    (s.withObject o).heap k b = s.heap k b := by
  rcases eq_or_ne k .object with rfl | hk
  · simp [withObject, put_heap_of_ne, h']
  · rcases eq_or_ne k .lock with rfl | hl
    · simp [withObject, put_heap_of_ne, h]
    · simp [withObject, put_heap_kind, hk, hl]

theorem withObject_heap_kind {k : Kind} (h : k ≠ .object) (h' : k ≠ .lock) :
    (s.withObject o).heap k = s.heap k := by
  simp [withObject, put_heap_kind, h, h']

@[simp] theorem withObject_put (o' : Object) :
    (s.withObject o).put .object (s.next + 1) (some o') = s.withObject o' := by
  simp [withObject, put]

@[simp] theorem withObject_sets : (s.withObject o).sets = s.sets := rfl

@[simp] theorem withObject_setLock : (s.withObject o).setLock = s.setLock := rfl

@[simp] theorem withObject_next : (s.withObject o).next = s.next + 2 := rfl

end State

variable {p : Addr} {provider : Provider} {realId : Arg}

/-- Every kind of record other than locks and objects is found as before. -/
theorem State.withObject_read {k : Kind} {b : Addr} {v : k.Rec} (hf : s.Fresh)
    (h : s.heap k b = some v) : (s.withObject o).heap k b = some v := by
  have hlt : b < s.next := Nat.lt_of_not_le fun hle => by simp [hf k b hle] at h
  rw [s.withObject_heap_of_ne (Nat.ne_of_lt hlt) (Nat.ne_of_lt (Nat.lt_succ_of_lt hlt)), h]

theorem run_objectCreate (hf : s.Fresh) (hp : s.heap .provider p = some provider)
    (hreal : realId ≠ 0) (hid : id ≠ invalidId) (hu : Usable t .objects s)
    (hk : id ∉ s.sets .objects) :
    run t (objectCreate p realId id) s =
      .done ((s.withObject ⟨id, realId, 0, s.next, p, none⟩).putSet .objects
        ((s.sets .objects).add id (s.next + 1))) (some (s.next + 1)) := by
  have hs : (s.withObject ⟨id, realId, 0, s.next, p, none⟩).heap .provider p = some provider :=
    State.withObject_read hf hp
  have hu' : Usable t .objects (s.withObject ⟨id, realId, 0, s.next, p, none⟩) := ⟨hu.1, hu.2⟩
  rw [objectCreate, if_neg (by simp [hreal, hid]), run_bind, lockCreate, run_new,
    Outcome.bind_done, run_bind, run_new, Outcome.bind_done, run_bind]
  change ((run t (read .provider p) (s.withObject ⟨id, realId, 0, s.next, p, none⟩)).bind _) = _
  rw [run_read hs, Outcome.bind_done, run_bind, run_setInsert hu', Outcome.bind_done, run_bind,
    State.withObject_sets, decide_eq_true hk, run_assert, if_pos rfl, Outcome.bind_done]
  rfl

theorem run_agentRemoteMap (hp : s.heap .provider p = some provider) (real : Arg)
    (virt : GlobalId) :
    ∃ n b, run t (agentRemoteMap p real virt) s = .done (s.withNet n) b := by
  obtain ⟨n, hn | hn⟩ := Net.run_claraSendmsg_cases s.net (.provider p) Msg.mapping
    (mappingParams virt real)
  · refine ⟨n, false, ?_⟩
    rw [agentRemoteMap, run_bind, run_read hp, Outcome.bind_done, run_bind, run_net, hn]
    rfl
  · refine ⟨n, true, ?_⟩
    rw [agentRemoteMap, run_bind, run_read hp, Outcome.bind_done, run_bind, run_net, hn]
    simp only [Outcome.bind_done]
    rw [run_bind, beq_self_eq_true, run_assert, if_pos rfl, Outcome.bind_done]
    rfl

/-- The state after `id_create` whose first draw is not in the pool. -/
def State.withId (s : State) : State :=
  { s with draws := s.draws + 1 }.putSet .idPool
    ((s.sets .idPool).add (s.candidates s.draws) 0)

theorem run_idCreate (hu : Usable t .idPool s) (hk : (s.candidates s.draws).val ∉ s.sets .idPool) :
    run t idCreate s = .done s.withId (s.candidates s.draws).val := by
  have hu' : Usable t .idPool { s with draws := s.draws + 1 } := ⟨hu.1, hu.2⟩
  rw [idCreate, idCreateLoop, run_bind, run_rand, Outcome.bind_done, run_bind,
    run_setInsert hu', Outcome.bind_done, decide_eq_true hk, if_pos rfl]
  rfl

/-- A draw that is in the pool ends in a use of the item `set_insert` freed. -/
theorem run_idCreate_collision (hu : Usable t .idPool s)
    (hk : (s.candidates s.draws).val ∈ s.sets .idPool) :
    run t idCreate s = .fault .freedMemory := by
  have hu' : Usable t .idPool { s with draws := s.draws + 1 } := ⟨hu.1, hu.2⟩
  have hd : (s.withId.sets .idPool).damaged = true := by simp [State.withId, hk]
  rw [idCreate, idCreateLoop, run_bind, run_rand, Outcome.bind_done, run_bind,
    run_setInsert hu', Outcome.bind_done, decide_eq_false (not_not_intro hk),
    if_neg Bool.false_ne_true, idCreateLoop, run_bind, run_rand, Outcome.bind_done, run_bind]
  exact congrArg (Outcome.bind · _)
    (run_setInsert_damaged (s := { s.withId with draws := s.draws + 2 }) hu.admits hd _ 0)

/-- A new object of consumer `c` with one reference, entered under its id. -/
def State.withOwned (s : State) (p c : Addr) (realId : Arg) (id : GlobalId) : State :=
  ((s.withObject ⟨id, realId, 1, s.next, p, some c⟩).putSet .objects
    ((s.sets .objects).add id (s.next + 1))).putSet (.objectsOf c)
      ((s.sets (.objectsOf c)).add id (s.next + 1))

theorem State.withOwned_put_lock {l : Addr} (h : l ≠ s.next) (v : Option Lock) :
    (s.put .lock l v).withOwned p c realId id = (s.withOwned p c realId id).put .lock l v := by
  have hobject : ∀ o : Object, (s.put .lock l v).withObject o = (s.withObject o).put .lock l v := by
    intro o
    have hput : ((s.put .lock l v).put .lock s.next (some Lock.free)).put .object (s.next + 1)
        (some o) = ((s.put .lock s.next (some Lock.free)).put .object (s.next + 1) (some o)).put
          .lock l v := by
      rw [State.put_object_lock, State.put_comm_of_ne s h]
    show { ((s.put .lock l v).put .lock s.next (some Lock.free)).put .object (s.next + 1)
      (some o) with next := s.next + 2 } = _
    rw [hput]
    rfl
  rw [State.withOwned, State.withOwned, State.put_next, hobject]
  rfl

private theorem run_objectRetain_new (hc : Usable t (.objectsOf c) s)
    (hck : id ∉ s.sets (.objectsOf c)) :
    run t (objectRetain (s.next + 1) c)
        ((s.withObject ⟨id, realId, 0, s.next, p, none⟩).putSet .objects
          ((s.sets .objects).add id (s.next + 1))) =
      .done (s.withOwned p c realId id) true := by
  have hu : Usable t (.objectsOf c) ((s.withObject ⟨id, realId, 0, s.next, p, none⟩).putSet
      .objects ((s.sets .objects).add id (s.next + 1))) :=
    ⟨by simpa [State.putSet_sets_of_ne] using hc.sound, hc.admits⟩
  rw [run_objectRetain_first (o := ⟨id, realId, 0, s.next, p, none⟩) (by simp) (by simp) rfl hu
    (by simpa [State.putSet_sets_of_ne] using hck)]
  simp only [State.withOwned, State.putSet_put]
  rw [State.withObject_put]
  simp [State.putSet_sets_of_ne]

/-- `clCreateObject` up to the message to the provider, with an id `id_create` has just drawn or
one the caller wishes for. -/
private theorem run_clCreateObject_until {wish : GlobalId} (realId : Arg) {s₁ : State}
    (hs₁ : run t (if wish = invalidId then idCreate else pure wish) s = .done s₁ id)
    (hf : s₁.Fresh) (hp : s.heap .provider p = some provider)
    (hp₁ : s₁.heap .provider p = some provider) (hreal : realId ≠ 0) (hid : id ≠ invalidId)
    (hu : Usable t .objects s₁) (hk : id ∉ s₁.sets .objects) (hc : Usable t (.objectsOf c) s₁)
    (hck : id ∉ s₁.sets (.objectsOf c)) :
    run t (clCreateObject (some p) c realId wish) s =
      if wish = invalidId then
        (run t (agentRemoteMap p realId id) (s₁.withOwned p c realId id)).bind
          fun s _ => .done s id
      else .done (s₁.withOwned p c realId id) id := by
  rw [clCreateObject, run_bind, run_deref_some, Outcome.bind_done, run_bind, run_read hp,
    Outcome.bind_done, if_neg hreal, run_bind, hs₁, Outcome.bind_done, run_bind,
    run_objectCreate hf hp₁ hreal hid hu hk, Outcome.bind_done]
  simp only
  rw [run_bind, run_objectRetain_new hc hck, Outcome.bind_done, run_bind, run_assert, if_pos rfl,
    Outcome.bind_done]
  split_ifs with hw
  · rw [run_bind]
    rfl
  · rfl

theorem run_clCreateObject {wish : GlobalId} (realId : Arg) {s₁ : State}
    (hs₁ : run t (if wish = invalidId then idCreate else pure wish) s = .done s₁ id)
    (hf : s₁.Fresh) (hp : s.heap .provider p = some provider)
    (hp₁ : s₁.heap .provider p = some provider) (hreal : realId ≠ 0) (hid : id ≠ invalidId)
    (hu : Usable t .objects s₁) (hk : id ∉ s₁.sets .objects) (hc : Usable t (.objectsOf c) s₁)
    (hck : id ∉ s₁.sets (.objectsOf c)) :
    ∃ n, run t (clCreateObject (some p) c realId wish) s =
      .done ((s₁.withOwned p c realId id).withNet n) id := by
  have hp' : (s₁.withOwned p c realId id).heap .provider p = some provider := by
    simpa [State.withOwned] using State.withObject_read hf hp₁
  obtain ⟨n, b, hmap⟩ := run_agentRemoteMap (t := t) hp' realId id
  rw [run_clCreateObject_until realId hs₁ hf hp hp₁ hreal hid hu hk hc hck]
  split_ifs with hw
  · rw [hmap]
    exact ⟨n, rfl⟩
  · exact ⟨(s₁.withOwned p c realId id).net, rfl⟩

theorem run_clCreateObject_wish (realId : Arg) (hf : s.Fresh)
    (hp : s.heap .provider p = some provider) (hreal : realId ≠ 0) (hid : id ≠ invalidId)
    (hu : Usable t .objects s) (hk : id ∉ s.sets .objects) (hc : Usable t (.objectsOf c) s)
    (hck : id ∉ s.sets (.objectsOf c)) :
    run t (clCreateObject (some p) c realId id) s = .done (s.withOwned p c realId id) id := by
  have hs : run t (if id = invalidId then idCreate else pure id) s = .done s id := by
    rw [if_neg hid]
    rfl
  rw [run_clCreateObject_until realId hs hf hp hp hreal hid hu hk hc hck, if_neg hid]

/-- An id that a table has already: one of the two insertions is asserted in vain. -/
theorem run_clCreateObject_taken (realId : Arg) (hf : s.Fresh)
    (hp : s.heap .provider p = some provider) (hreal : realId ≠ 0) (hid : id ≠ invalidId)
    (hu : Usable t .objects s) (hc : Usable t (.objectsOf c) s)
    (hk : id ∈ s.sets .objects ∨ id ∈ s.sets (.objectsOf c)) :
    ∃ f, run t (clCreateObject (some p) c realId id) s = .fault f := by
  have hs : run t (if id = invalidId then idCreate else pure id) s = .done s id := by
    rw [if_neg hid]
    rfl
  rw [clCreateObject, run_bind, run_deref_some, Outcome.bind_done, run_bind, run_read hp,
    Outcome.bind_done, if_neg hreal, run_bind, hs, Outcome.bind_done, run_bind]
  by_cases hobject : id ∈ s.sets .objects
  · have hs : (s.withObject ⟨id, realId, 0, s.next, p, none⟩).heap .provider p = some provider :=
      State.withObject_read hf hp
    have hu' : Usable t .objects (s.withObject ⟨id, realId, 0, s.next, p, none⟩) := ⟨hu.1, hu.2⟩
    refine ⟨.assertion .objectCreateInsert, ?_⟩
    rw [objectCreate, if_neg (by simp [hreal, hid]), run_bind, lockCreate, run_new,
      Outcome.bind_done, run_bind, run_new, Outcome.bind_done, run_bind]
    change ((run t (read .provider p) (s.withObject ⟨id, realId, 0, s.next, p, none⟩)).bind
      _).bind _ = _
    rw [run_read hs, Outcome.bind_done, run_bind, run_setInsert hu', Outcome.bind_done, run_bind,
      State.withObject_sets, decide_eq_false (not_not_intro hobject), run_assert,
      if_neg Bool.false_ne_true]
    rfl
  · have howned := hk.resolve_left hobject
    have huc : Usable t (.objectsOf c) ((s.withObject ⟨id, realId, 0, s.next, p, none⟩).putSet
        .objects ((s.sets .objects).add id (s.next + 1))) :=
      ⟨by simpa [State.putSet_sets_of_ne] using hc.sound, hc.admits⟩
    refine ⟨.assertion .objectRetainInsert, ?_⟩
    rw [run_objectCreate hf hp hreal hid hu hobject, Outcome.bind_done]
    simp only
    rw [run_bind, run_objectRetain_listed (o := ⟨id, realId, 0, s.next, p, none⟩) (by simp)
      (by simp) rfl huc (by simpa [State.putSet_sets_of_ne] using howned)]
    rfl

end Clara.Agent
