import Clara.Agent.Intake
import Clara.Agent.Query
import Clara.Agent.RefCount
import Clara.Agent.Registration

/-! What the messages of a registering provider leave in the agent: the record of the platform or
of the device, its entry in the set it belongs to, and an object under the same id. -/
namespace Clara.Agent

open Conc

variable {t : Tid} {s s' : State} {p a : Addr} {realId : Arg}

/-- The id is in none of the tables: not in use, and not left over from something that has gone. -/
def State.New (s : State) (id : GlobalId) : Prop :=
  id ∉ s.sets .idPool ∧ id ∉ s.sets .objects ∧ id ∉ s.sets .lbPlatforms

/-- Something that the provider calls `realId` has an object under the next id. Everything that was
there is still there, and the records of the peers are the same. -/
structure Enters (p : Addr) (realId : Arg) (s s' : State) : Prop where
  fresh : s'.Fresh
  next : s.next ≤ s'.next
  old : ∀ k a, a < s.next → s'.heap k a = s.heap k a
  provider : s'.heap .provider = s.heap .provider
  consumer : s'.heap .consumer = s.heap .consumer
  setLock : s'.setLock = s.setLock
  candidates : s'.candidates = s.candidates
  draws : s'.draws = s.draws + 1
  net : s'.net = s.net
  phase : s'.phase = s.phase
  loadBalancing : s'.loadBalancing = s.loadBalancing
  pool : s'.sets .idPool = (s.sets .idPool).add s.nextId 0
  object : ∃ a lock, s'.heap .object a = some ⟨s.nextId, realId, 0, lock, p, none⟩ ∧
    s'.sets .objects = (s.sets .objects).add s.nextId a
  sets : ∀ r : SetRef, r ≠ .idPool → r ≠ .objects → r ≠ .platforms p → (∀ a, r ≠ .devices a) →
    s'.sets r = s.sets r

structure EntersPlatform (p : Addr) (info : PlatformInfo) (s s' : State) : Prop
    extends Enters p info.id s s' where
  platform : s'.heap .platform s.next = some ⟨p, none, info.id, s.nextId, info.info⟩
  platforms : s'.sets (.platforms p) = (s.sets (.platforms p)).add s.nextId s.next
  noDevices : s'.sets (.devices s.next) = .empty
  devices : ∀ a, a ≠ s.next → s'.sets (.devices a) = s.sets (.devices a)

/-- The device is entered at the platform `a`. -/
structure EntersDevice (p a : Addr) (info : DeviceInfo) (s s' : State) : Prop
    extends Enters p info.id s s' where
  device : s'.heap .device s.next =
    some ⟨p, info.platformId, info.id, s.nextId, info.type, info.available, info.info⟩
  platforms : s'.sets (.platforms p) = s.sets (.platforms p)
  entered : s'.sets (.devices a) = (s.sets (.devices a)).add s.nextId s.next
  devices : ∀ a', a' ≠ a → s'.sets (.devices a') = s.sets (.devices a')

def State.drew (s : State) (k : Kind) (x : k.Rec) : State :=
  (s.withId.put k s.next (some x)).withNext (s.next + 1)

def State.withEntry (s : State) (p : Addr) (realId : Arg) (id : GlobalId) : State :=
  (s.withObject ⟨id, realId, 0, s.next, p, none⟩).putSet .objects
    ((s.sets .objects).add id (s.next + 1))

structure Records (p : Addr) (k : Kind) (x : k.Rec) (s s₁ : State) : Prop where
  heap : s₁.heap = (s.drew k x).heap
  next : s₁.next = s.next + 1
  setLock : s₁.setLock = s.setLock
  candidates : s₁.candidates = s.candidates
  draws : s₁.draws = s.draws + 1
  net : s₁.net = s.net
  phase : s₁.phase = s.phase
  loadBalancing : s₁.loadBalancing = s.loadBalancing
  pool : s₁.sets .idPool = (s.sets .idPool).add s.nextId 0
  sets : ∀ r : SetRef, r ≠ .idPool → r ≠ .platforms p → (∀ a, r ≠ .devices a) →
    s₁.sets r = s.sets r

section
variable {k : Kind} {x : k.Rec} {s₁ : State}

private theorem before_next {n b : ℕ} (h : b < n) : b ≠ n ∧ b ≠ n + 1 ∧ b ≠ n + 1 + 1 := by
  omega

private theorem beyond_next {n b : ℕ} (h : n + 1 + 2 ≤ b) :
    n ≤ b ∧ b ≠ n ∧ b ≠ n + 1 ∧ b ≠ n + 1 + 1 := by
  omega

theorem drew_heap_self : (s.drew k x).heap k s.next = some x := State.put_heap_self ..

theorem drew_heap_of_ne {k' : Kind} {b : Addr} (hb : b ≠ s.next) :
    (s.drew k x).heap k' b = s.heap k' b := by
  show (s.withId.put k s.next (some x)).heap k' b = _
  rcases eq_or_ne k' k with rfl | hk
  · rw [State.put_heap_of_ne _ _ hb]
    rfl
  · rw [State.put_heap_kind _ _ _ hk]
    rfl

theorem drew_heap_kind {k' : Kind} (hk : k' ≠ k) : (s.drew k x).heap k' = s.heap k' :=
  State.put_heap_kind _ _ _ hk

theorem drew_sets {r : SetRef} (hr : r ≠ .idPool) : (s.drew k x).sets r = s.sets r :=
  State.putSet_sets_of_ne _ _ hr

theorem drew_pool : (s.drew k x).sets .idPool = (s.sets .idPool).add s.nextId 0 :=
  State.putSet_sets_self { s with draws := s.draws + 1 } ((s.sets .idPool).add s.nextId 0)

theorem withEntry_heap_of_ne {id : GlobalId} {k' : Kind} {b : Addr} (hb : b ≠ s.next)
    (hb' : b ≠ s.next + 1) : (s.withEntry p realId id).heap k' b = s.heap k' b :=
  s.withObject_heap_of_ne hb hb'

theorem withEntry_heap_kind {id : GlobalId} {k' : Kind} (hk : k' ≠ .object) (hk' : k' ≠ .lock) :
    (s.withEntry p realId id).heap k' = s.heap k' :=
  s.withObject_heap_kind hk hk'

theorem withEntry_sets {id : GlobalId} {r : SetRef} (hr : r ≠ .objects) :
    (s.withEntry p realId id).sets r = s.sets r :=
  State.putSet_sets_of_ne _ _ hr

theorem Records.enters (h : Records p k x s s₁) (hf : s.Fresh)
    (hprovider : k ≠ .provider) (hconsumer : k ≠ .consumer) (realId : Arg) :
    Enters p realId s (s₁.withEntry p realId s.nextId) where
  fresh k' b hb := by
    have hle : s₁.next + 2 ≤ b := hb
    rw [h.next] at hle
    obtain ⟨hb, hrecord, hlock, hobject⟩ := beyond_next hle
    rw [withEntry_heap_of_ne (h.next ▸ hlock) (h.next ▸ hobject), h.heap, drew_heap_of_ne hrecord]
    exact hf k' b hb
  next := by
    show s.next ≤ s₁.next + 2
    rw [h.next]
    exact Nat.le_trans (Nat.le_succ _) (Nat.le_add_right _ 2)
  old k' b hb := by
    obtain ⟨hrecord, hlock, hobject⟩ := before_next hb
    rw [withEntry_heap_of_ne (h.next ▸ hlock) (h.next ▸ hobject), h.heap, drew_heap_of_ne hrecord]
  provider := by
    rw [withEntry_heap_kind (by decide) (by decide), h.heap, drew_heap_kind hprovider.symm]
  consumer := by
    rw [withEntry_heap_kind (by decide) (by decide), h.heap, drew_heap_kind hconsumer.symm]
  setLock := h.setLock
  candidates := h.candidates
  draws := h.draws
  net := h.net
  phase := h.phase
  loadBalancing := h.loadBalancing
  pool := by rw [withEntry_sets (by decide), h.pool]
  object := by
    refine ⟨s₁.next + 1, s₁.next, s₁.withObject_object, ?_⟩
    rw [State.withEntry, State.putSet_sets_self, h.sets .objects (by decide) (by simp) (by simp)]
  sets r hpool hobjects hplatforms hdevices := by
    rw [withEntry_sets hobjects, h.sets r hpool hplatforms hdevices]

end

section
variable {provider : Provider} {info : PlatformInfo} {dinfo : DeviceInfo}

theorem run_setCreate (r : SetRef) : run t (setCreate r) s = .done (s.putSet r .empty) () := rfl

theorem run_platformCreate (hp : s.heap .provider p = some provider) (hu : Usable t .idPool s)
    (hid : s.nextId ∉ s.sets .idPool) (info : PlatformInfo) :
    run t (platformCreate p info) s =
      .done ((s.drew .platform ⟨p, none, info.id, s.nextId, info.info⟩).putSet
        (.devices s.next) .empty) s.next := by
  rw [platformCreate, run_bind, run_read hp, Outcome.bind_done, run_bind, run_idCreate hu hid,
    Outcome.bind_done, run_bind, run_new, Outcome.bind_done, run_bind, run_setCreate,
    Outcome.bind_done]
  rfl

theorem run_deviceCreate (hp : s.heap .provider p = some provider) (hu : Usable t .idPool s)
    (hid : s.nextId ∉ s.sets .idPool) (dinfo : DeviceInfo) :
    run t (deviceCreate p dinfo) s =
      .done (s.drew .device
        ⟨p, dinfo.platformId, dinfo.id, s.nextId, dinfo.type, dinfo.available, dinfo.info⟩)
        s.next := by
  rw [deviceCreate, run_bind, run_read hp, Outcome.bind_done, run_bind, run_idCreate hu hid,
    Outcome.bind_done, run_new]
  rfl

theorem Records.run_objectCreate {k : Kind} {x : k.Rec} {s₁ : State} (h : Records p k x s s₁)
    (hs : Serviceable s) (hp : s.heap .provider p = some provider) (hprovider : k ≠ .provider)
    (hid : s.New s.nextId) (hreal : realId ≠ 0) :
    run t (objectCreate p realId s.nextId) s₁ =
      .done (s₁.withEntry p realId s.nextId) (some (s₁.next + 1)) := by
  have hobjects : s₁.sets .objects = s.sets .objects :=
    h.sets .objects (by decide) (by simp) (by simp)
  have hfresh : s₁.Fresh := by
    intro k' b hb
    rw [h.next] at hb
    rw [h.heap, drew_heap_of_ne (Nat.ne_of_gt hb)]
    exact hs.fresh k' b (Nat.le_of_succ_le hb)
  have hrecord : s₁.heap .provider p = some provider := by
    rw [h.heap, drew_heap_kind hprovider.symm, hp]
  have husable : Usable t .objects s₁ :=
    ⟨by rw [hobjects]; exact hs.objects, by rw [h.setLock]; exact hs.admits _⟩
  have hnew : s.nextId ∉ s₁.sets .objects := by
    rw [hobjects]
    exact hid.2.1
  exact Agent.run_objectCreate hfresh hrecord hreal (s.candidates s.draws).2 husable hnew

theorem run_claraSendmsg {sd : Sd} (hsend : (s.net sd).sendFails = []) (type : MessageType)
    (msg : Bytes) : run t (net (claraSendmsg sd type msg)) s =
      .done (s.withNet (s.net.push sd [.msg type msg])) (some msg.length) := by
  rw [run_net, Net.run_claraSendmsg hsend]

theorem run_handlePlatformInfo (hs : Serviceable s) (hp : s.heap .provider p = some provider)
    (hset : (s.sets (.platforms p)).damaged = false) (hnew : s.nextId ∉ s.sets (.platforms p))
    (hid : s.New s.nextId) (hreal : info.id ≠ 0)
    (hsend : (s.net (.provider p)).sendFails = []) :
    ∃ s', EntersPlatform p info s s' ∧ run t (handlePlatformInfo p info) s =
      .done (s'.withNet (s'.net.push (.provider p)
        [.msg Msg.openclPlatformId (Bytes.word s.nextId)])) () := by
  let x : Platform := ⟨p, none, info.id, s.nextId, info.info⟩
  let s₀ : State := (s.drew .platform x).putSet (.devices s.next) .empty
  let s₁ : State := s₀.putSet (.platforms p) ((s.sets (.platforms p)).add s.nextId s.next)
  have hplatforms : s₀.sets (.platforms p) = s.sets (.platforms p) := by
    simp [s₀, State.putSet_sets_of_ne, drew_sets]
  have hrecord : s₀.heap .platform s.next = some x := drew_heap_self (k := .platform)
  have hrecords : Records p .platform x s s₁ := {
    heap := rfl
    next := rfl
    setLock := rfl
    candidates := rfl
    draws := rfl
    net := rfl
    phase := rfl
    loadBalancing := rfl
    pool := by simp [s₁, s₀, State.putSet_sets_of_ne, drew_pool]
    sets := by
      intro r hr hr' hr''
      simp [s₁, s₀, State.putSet_sets_of_ne, drew_sets, hr, hr', hr''] }
  refine ⟨s₁.withEntry p info.id s.nextId, ⟨hrecords.enters hs.fresh (by decide)
    (by decide) info.id, ?_, ?_, ?_, ?_⟩, ?_⟩
  · rw [withEntry_heap_kind (by decide) (by decide)]
    exact hrecord
  · simp [withEntry_sets, s₁]
  · simp [withEntry_sets, s₁, s₀, State.putSet_sets_of_ne]
  · intro a ha
    simp [withEntry_sets, s₁, s₀, State.putSet_sets_of_ne, drew_sets, ha]
  · have hu : Usable t (.platforms p) s₀ := ⟨by rw [hplatforms, hset], hs.admits _⟩
    have hinsert : run t (setInsert (.platforms p) s.nextId s.next) s₀ = .done s₁ true := by
      rw [run_setInsert hu, hplatforms, decide_eq_true hnew]
    have hcreate : run t (objectCreate p info.id s.nextId) s₁ =
        .done (s₁.withEntry p info.id s.nextId) (some (s₁.next + 1)) :=
      hrecords.run_objectCreate hs hp (by decide) hid hreal
    rw [handlePlatformInfo, run_bind, run_platformCreate hp hs.usable_pool hid.1, Outcome.bind_done,
      run_bind, run_read hrecord, Outcome.bind_done, run_bind, hinsert, Outcome.bind_done, run_bind,
      run_assert, if_pos rfl, Outcome.bind_done, run_bind, hcreate, Outcome.bind_done, run_bind,
      run_assert, Option.isSome_some, if_pos rfl, Outcome.bind_done, run_bind,
      run_claraSendmsg (by exact hsend)]
    rfl

theorem run_agentFindPlatformByLocalId {pf : Platform}
    (hset : AtRest (.platforms p) s) (hlist : s.list (.platforms p) = [a])
    (ha : s.heap .platform a = some pf) :
    run t (agentFindPlatformByLocalId p pf.id) s = .done s (some a) := by
  have hfirst : ∀ lk, run t (findFirst (fun a => do
      let r ← read .platform a
      pure (r.id == pf.id)) (s.list (.platforms p))) (s.putLock (.platforms p) lk) =
        .done (s.putLock (.platforms p) lk) (some a) := by
    intro lk
    have hread : run t (read .platform a) (s.putLock (.platforms p) lk) = .done _ pf := run_read ha
    rw [hlist, findFirst, run_bind, run_bind, hread, Outcome.bind_done]
    simp
  exact (hset.visitable t).run_visit hfirst

theorem run_handleDeviceInfo {pf : Platform} (hs : Serviceable s)
    (hp : s.heap .provider p = some provider) (hset : (s.sets (.platforms p)).damaged = false)
    (hlist : s.list (.platforms p) = [a]) (ha : s.heap .platform a = some pf)
    (hid' : dinfo.platformId = pf.id) (hdevices : (s.sets (.devices a)).damaged = false)
    (hnew : s.nextId ∉ s.sets (.devices a)) (hid : s.New s.nextId)
    (hreal : dinfo.id ≠ 0) (hsend : (s.net (.provider p)).sendFails = []) :
    ∃ s', EntersDevice p a dinfo s s' ∧ run t (handleDeviceInfo p dinfo) s =
      .done (s'.withNet (s'.net.push (.provider p)
        [.msg Msg.openclDeviceId (Bytes.word s.nextId)])) () := by
  let x : Device :=
    ⟨p, dinfo.platformId, dinfo.id, s.nextId, dinfo.type, dinfo.available, dinfo.info⟩
  let s₀ : State := s.drew .device x
  let s₁ : State := s₀.putSet (.devices a) ((s.sets (.devices a)).add s.nextId s.next)
  have hsame : s₀.sets (.devices a) = s.sets (.devices a) := by
    simp [s₀, drew_sets]
  have hrecord : s₀.heap .device s.next = some x := drew_heap_self (k := .device)
  have hrecords : Records p .device x s s₁ := {
    heap := rfl
    next := rfl
    setLock := rfl
    candidates := rfl
    draws := rfl
    net := rfl
    phase := rfl
    loadBalancing := rfl
    pool := by simp [s₁, s₀, State.putSet_sets_of_ne, drew_pool]
    sets := by
      intro r hr hr' hr''
      simp [s₁, s₀, State.putSet_sets_of_ne, drew_sets, hr, hr''] }
  refine ⟨s₁.withEntry p dinfo.id s.nextId, ⟨hrecords.enters hs.fresh (by decide)
    (by decide) dinfo.id, ?_, ?_, ?_, ?_⟩, ?_⟩
  · rw [withEntry_heap_kind (by decide) (by decide)]
    exact hrecord
  · simp [withEntry_sets, s₁, s₀, State.putSet_sets_of_ne, drew_sets]
  · simp [withEntry_sets, s₁]
  · intro a' ha'
    simp [withEntry_sets, s₁, s₀, State.putSet_sets_of_ne, drew_sets, ha']
  · have hu : Usable t (.devices a) s₀ := ⟨by rw [hsame, hdevices], hs.admits _⟩
    have hplatforms : s₀.sets (.platforms p) = s.sets (.platforms p) := by
      simp [s₀, drew_sets]
    have hfind : run t (agentFindPlatformByLocalId p dinfo.platformId) s₀ = .done s₀ (some a) := by
      rw [hid']
      refine run_agentFindPlatformByLocalId ⟨by rw [hplatforms, hset], hs.setLocks _⟩ ?_ ?_
      · rw [State.list, hplatforms]
        exact hlist
      · rw [drew_heap_kind (by decide), ha]
    have hinsert : run t (setInsert (.devices a) s.nextId s.next) s₀ = .done s₁ true := by
      rw [run_setInsert hu, hsame, decide_eq_true hnew]
    have hcreate : run t (objectCreate p dinfo.id s.nextId) s₁ =
        .done (s₁.withEntry p dinfo.id s.nextId) (some (s₁.next + 1)) :=
      hrecords.run_objectCreate hs hp (by decide) hid hreal
    rw [handleDeviceInfo, run_bind, run_deviceCreate hp hs.usable_pool hid.1, Outcome.bind_done,
      run_bind, run_read hrecord, Outcome.bind_done, run_bind, hfind, Outcome.bind_done]
    simp only
    rw [run_bind, hinsert, Outcome.bind_done, run_bind, run_assert, if_pos rfl, Outcome.bind_done,
      run_bind, hcreate, Outcome.bind_done, run_bind, run_assert, Option.isSome_some, if_pos rfl,
      Outcome.bind_done, run_bind, run_claraSendmsg (by exact hsend)]
    rfl

end

theorem Enters.lbPlatforms (h : Enters p realId s s') :
    s'.sets .lbPlatforms = s.sets .lbPlatforms :=
  h.sets .lbPlatforms (by simp) (by simp) (by simp) (by simp)

section
variable {id : GlobalId} {b : Addr}

/-- What is found under an id is the new object or what was found before. -/
theorem Enters.entry_cases (h : Enters p realId s s') (hs : Serviceable s) (hid : s.New s.nextId)
    (hb : (s'.sets .objects).lookup id = some b) :
    (id = s.nextId ∧ ∃ lock, s'.heap .object b = some ⟨s.nextId, realId, 0, lock, p, none⟩) ∨
      (s.sets .objects).lookup id = some b ∧ b < s.next := by
  obtain ⟨a, lock, ho, hobjects⟩ := h.object
  rw [hobjects, IdSet.lookup_add hid.2.1] at hb
  split_ifs at hb with heq
  · obtain rfl := Option.some.inj hb
    exact .inl ⟨heq, lock, ho⟩
  · exact .inr ⟨hb, hs.below id b hb⟩

theorem Enters.serviceable (h : Enters p realId s s') (hs : Serviceable s) (hid : s.New s.nextId) :
    Serviceable s' where
  fresh := h.fresh
  setLocks r := by rw [h.setLock, hs.setLocks]
  pool := by simp [h.pool, hid.1, hs.pool]
  objects := by
    obtain ⟨a, -, -, hobjects⟩ := h.object
    simp [hobjects, hid.2.1, hs.objects]
  objectsOf c hc := by
    rw [h.sets (.objectsOf c) (by simp) (by simp) (by simp) (by simp)]
    exact hs.objectsOf c (h.consumer ▸ hc)
  below id b hb := by
    rcases h.entry_cases hs hid hb with ⟨-, lock, ho⟩ | ⟨-, hlt⟩
    · exact h.fresh.lt ho
    · exact Nat.lt_of_lt_of_le hlt h.next

end

/-- The provider has an object under the id, and calls it `realId`. -/
def State.Knows (s : State) (p : Addr) (id : GlobalId) (realId : Arg) : Prop :=
  ∃ a o, (s.sets .objects).lookup id = some a ∧ s.heap .object a = some o ∧ o.provider = p ∧
    o.realId = realId

section
variable {id : GlobalId} {q : Addr} {r : Arg}

theorem State.Knows.mem_objects (h : s.Knows q id r) : id ∈ s.sets .objects := by
  obtain ⟨a, -, ha, -⟩ := h
  exact IdSet.mem_of_lookup ha

theorem Enters.knows_iff (h : Enters p realId s s') (hs : Serviceable s) (hid : s.New s.nextId) :
    s'.Knows q id r ↔ s.Knows q id r ∨ q = p ∧ id = s.nextId ∧ r = realId := by
  constructor
  · rintro ⟨b, o, hb, ho, hq, hr⟩
    rcases h.entry_cases hs hid hb with ⟨heq, lock, ho'⟩ | ⟨hb₀, hlt⟩
    · obtain rfl := Option.some.inj (ho'.symm.trans ho)
      exact .inr ⟨hq.symm, heq, hr.symm⟩
    · exact .inl ⟨b, o, hb₀, (h.old .object b hlt).symm.trans ho, hq, hr⟩
  · obtain ⟨a, lock, ho, hobjects⟩ := h.object
    have hnew := hid.2.1
    rintro (⟨b, o, hb, ho₀, hq, hr⟩ | ⟨rfl, rfl, rfl⟩)
    · have hne : id ≠ s.nextId := fun heq => hnew (heq ▸ IdSet.mem_of_lookup hb)
      exact ⟨b, o, by rw [hobjects, IdSet.lookup_add hnew, if_neg hne, hb],
        (h.old .object b (hs.fresh.lt ho₀)).trans ho₀, hq, hr⟩
    · exact ⟨a, _, by rw [hobjects, IdSet.lookup_add hnew, if_pos rfl], ho, rfl, rfl⟩

end

/-- The next `n` ids that are drawn are new and different. -/
def State.DrawsDistinct (s : State) (n : ℕ) : Prop :=
  ∀ i < n, s.New (s.candidates (s.draws + i)).val ∧
    ∀ j < i, s.candidates (s.draws + j) ≠ s.candidates (s.draws + i)

theorem State.DrawsDistinct.nextId {n : ℕ} (h : s.DrawsDistinct (n + 1)) : s.New s.nextId :=
  (h 0 n.succ_pos).1

/-- The others are still new when the first has been drawn. -/
theorem State.DrawsDistinct.enters {n : ℕ} (h : s.DrawsDistinct (n + 1)) (he : Enters p realId s s') :
    s'.DrawsDistinct n := by
  intro i hi
  have hshift : ∀ j, s'.candidates (s'.draws + j) = s.candidates (s.draws + (j + 1)) := by
    intro j
    rw [he.candidates, he.draws, Nat.add_assoc, Nat.add_comm 1 j]
  obtain ⟨⟨hpool, hobjects, hoffers⟩, hdistinct⟩ := h (i + 1) (Nat.succ_lt_succ hi)
  have hne : (s.candidates (s.draws + (i + 1))).val ≠ s.nextId := fun heq =>
    hdistinct 0 i.succ_pos (Subtype.ext heq).symm
  refine ⟨?_, fun j hj => ?_⟩
  · obtain ⟨a, lock, -, hentered⟩ := he.object
    rw [hshift, State.New, he.pool, IdSet.mem_add h.nextId.1, hentered,
      IdSet.mem_add h.nextId.2.1, Enters.lbPlatforms he]
    exact ⟨not_or.mpr ⟨hne, hpool⟩, not_or.mpr ⟨hne, hobjects⟩, hoffers⟩
  · rw [hshift, hshift]
    exact hdistinct (j + 1) (Nat.succ_lt_succ hj)

/-- What the registration of `p` does not touch: everything below the address `n`, the records and
the sets of the other peers, and what was in the tables. -/
structure Leaves (n : Addr) (p : Addr) (s s' : State) : Prop where
  old : ∀ k a, a < n → s'.heap k a = s.heap k a
  provider : s'.heap .provider = s.heap .provider
  consumer : s'.heap .consumer = s.heap .consumer
  setLock : s'.setLock = s.setLock
  loadBalancing : s'.loadBalancing = s.loadBalancing
  phase : ∀ t, t ≠ .provider p → s'.phase t = s.phase t
  net : ∀ sd, sd ≠ .provider p → s'.net sd = s.net sd
  pool : ∀ id ∈ s.sets .idPool, id ∈ s'.sets .idPool
  knows : ∀ q, q ≠ p → ∀ id realId, s'.Knows q id realId ↔ s.Knows q id realId
  offers : ∀ id a, (s.sets .lbPlatforms).lookup id = some a →
    (s'.sets .lbPlatforms).lookup id = some a
  sets : ∀ r : SetRef, r ≠ .idPool → r ≠ .objects → r ≠ .lbPlatforms → r ≠ .platforms p →
    (∀ a, n ≤ a → r ≠ .devices a) → s'.sets r = s.sets r

section
variable {n : Addr} {s'' : State}

theorem Leaves.trans (h : Leaves n p s s') (h' : Leaves n p s' s'') : Leaves n p s s'' where
  old k a ha := (h'.old k a ha).trans (h.old k a ha)
  provider := h'.provider.trans h.provider
  consumer := h'.consumer.trans h.consumer
  setLock := h'.setLock.trans h.setLock
  loadBalancing := h'.loadBalancing.trans h.loadBalancing
  phase t ht := (h'.phase t ht).trans (h.phase t ht)
  net sd hsd := (h'.net sd hsd).trans (h.net sd hsd)
  pool id hid := h'.pool id (h.pool id hid)
  knows q hq id r := (h'.knows q hq id r).trans (h.knows q hq id r)
  offers id a ha := h'.offers id a (h.offers id a ha)
  sets r hpool hobjects hlb hplatforms hdevices :=
    (h'.sets r hpool hobjects hlb hplatforms hdevices).trans
      (h.sets r hpool hobjects hlb hplatforms hdevices)

/-- One registration, whichever sets of devices it concerns. -/
theorem Enters.leaves (h : Enters p realId s s') (hs : Serviceable s) (hid : s.New s.nextId)
    (hn : n ≤ s.next) (hdevices : ∀ a, a < n → s'.sets (.devices a) = s.sets (.devices a)) :
    Leaves n p s s' where
  old k a ha := h.old k a (Nat.lt_of_lt_of_le ha hn)
  provider := h.provider
  consumer := h.consumer
  setLock := h.setLock
  loadBalancing := h.loadBalancing
  phase t _ := by rw [h.phase]
  net sd _ := by rw [h.net]
  pool id hmem := by
    rw [h.pool, IdSet.mem_add hid.1]
    exact .inr hmem
  knows q hq id r := by
    rw [h.knows_iff hs hid]
    simp [hq]
  offers id a ha := by rwa [Enters.lbPlatforms h]
  sets r hpool hobjects _ hplatforms hr := by
    cases r with
    | devices a =>
      rcases Nat.lt_or_ge a n with ha | ha
      · exact hdevices a ha
      · exact absurd rfl (hr a ha)
    | _ => exact h.sets _ hpool hobjects hplatforms (by simp)

theorem EntersPlatform.leaves {info : PlatformInfo} (h : EntersPlatform p info s s')
    (hs : Serviceable s) (hid : s.New s.nextId) (hn : n ≤ s.next) : Leaves n p s s' :=
  h.toEnters.leaves hs hid hn fun a ha => h.devices a (Nat.ne_of_lt (Nat.lt_of_lt_of_le ha hn))

theorem EntersDevice.leaves {info : DeviceInfo} (h : EntersDevice p a info s s') (hs : Serviceable s)
    (hid : s.New s.nextId) (hn : n ≤ s.next) (ha : n ≤ a) : Leaves n p s s' :=
  h.toEnters.leaves hs hid hn fun a' ha' => h.devices a' (Nat.ne_of_lt (Nat.lt_of_lt_of_le ha' ha))

end

/-- The platform has been offered for load balancing, and the thread has left its first loop. -/
def State.registered (s : State) (p a : Addr) (id : GlobalId) : State :=
  (if s.loadBalancing then s.putSet .lbPlatforms ((s.sets .lbPlatforms).add id a)
    else s).withPhase (.provider p) .serving

/-- The tables of the agent between two registrations. -/
structure Receptive (s : State) : Prop extends Serviceable s where
  lbPlatforms : (s.sets .lbPlatforms).damaged = false

theorem Enters.receptive (h : Enters p realId s s') (hs : Receptive s) (hid : s.New s.nextId) :
    Receptive s' where
  toServiceable := h.serviceable hs.toServiceable hid
  lbPlatforms := by rw [Enters.lbPlatforms h, hs.lbPlatforms]

section
variable {provider : Provider} {pf : Platform}

theorem run_handleIdle (hs : Receptive s) (hp : s.heap .provider p = some provider)
    (hset : (s.sets (.platforms p)).damaged = false) (hlist : s.list (.platforms p) = [a])
    (ha : s.heap .platform a = some pf) :
    run t (handleIdle p) s = .done (s.registered p a pf.globalId) () := by
  have hread : run t (read .provider p) s = .done s provider := run_read hp
  have hbalancing : run t loadBalancing s = .done s s.loadBalancing := rfl
  rw [handleIdle, run_bind, hread, Outcome.bind_done, run_bind, hbalancing, Outcome.bind_done,
    State.registered]
  cases hlb : s.loadBalancing with
  | false => rfl
  | true =>
    let s₁ : State := s.putSet .lbPlatforms ((s.sets .lbPlatforms).add pf.globalId a)
    have heach : ∀ lk, run t (forEach (fun platform => do
        let _ ← lbAddPlatform platform) (s.list (.platforms p))) (s.putLock (.platforms p) lk) =
          .done (s₁.putLock (.platforms p) lk) () := by
      intro lk
      have hread : run t (read .platform a) (s.putLock (.platforms p) lk) = .done _ pf :=
        run_read ha
      have hu : Usable t .lbPlatforms (s.putLock (.platforms p) lk) :=
        ⟨hs.lbPlatforms, by rw [State.putLock_setLock_of_ne _ _ _ (by simp)]; exact hs.admits _⟩
      rw [hlist, forEach, run_bind, run_bind, lbAddPlatform, run_bind, hread, Outcome.bind_done,
        run_setInsert hu]
      rfl
    have hvisit : AtRest (.platforms p) s := ⟨hset, hs.setLocks _⟩
    rw [if_pos rfl, if_pos rfl]
    have hlock : s₁.setLock (.platforms p) = s.setLock (.platforms p) := rfl
    exact (hvisit.visitable t).run_visit_to hlock heach

end

section
variable {id : GlobalId}

theorem registered_heap : (s.registered p a id).heap = s.heap := by
  rw [State.registered, State.withPhase_heap]
  split_ifs <;> rfl

theorem registered_setLock : (s.registered p a id).setLock = s.setLock := by
  show (if _ then _ else _ : State).setLock = _
  split_ifs <;> rfl

theorem registered_net : (s.registered p a id).net = s.net := by
  show (if _ then _ else _ : State).net = _
  split_ifs <;> rfl

theorem registered_next : (s.registered p a id).next = s.next := by
  show (if _ then _ else _ : State).next = _
  split_ifs <;> rfl

theorem registered_loadBalancing : (s.registered p a id).loadBalancing = s.loadBalancing := by
  show (if _ then _ else _ : State).loadBalancing = _
  split_ifs <;> rfl

theorem registered_draws : (s.registered p a id).draws = s.draws := by
  show (if _ then _ else _ : State).draws = _
  split_ifs <;> rfl

theorem registered_candidates : (s.registered p a id).candidates = s.candidates := by
  show (if _ then _ else _ : State).candidates = _
  split_ifs <;> rfl

theorem registered_phase {u : Tid} (hu : u ≠ .provider p) :
    (s.registered p a id).phase u = s.phase u := by
  rw [State.registered, State.withPhase_of_ne _ _ _ hu]
  split_ifs <;> rfl

theorem registered_sets {r : SetRef} (hr : r ≠ .lbPlatforms) :
    (s.registered p a id).sets r = s.sets r := by
  rw [State.registered, State.withPhase_sets]
  split_ifs
  · exact State.putSet_sets_of_ne _ _ hr
  · rfl

theorem registered_lookup (hid : id ∉ s.sets .lbPlatforms) (id' : GlobalId) :
    ((s.registered p a id).sets .lbPlatforms).lookup id' =
      if s.loadBalancing = true ∧ id' = id then some a else (s.sets .lbPlatforms).lookup id' := by
  rw [State.registered, State.withPhase_sets]
  by_cases hlb : s.loadBalancing = true
  · rw [if_pos hlb, State.putSet_sets_self, IdSet.lookup_add hid]
    simp [hlb]
  · rw [if_neg hlb, if_neg fun h => hlb h.1]

theorem registered_knows {q : Addr} {id' : GlobalId} {r : Arg} :
    (s.registered p a id).Knows q id' r ↔ s.Knows q id' r := by
  rw [State.Knows, State.Knows, registered_sets (by simp), registered_heap]

theorem Receptive.registered (h : Receptive s) (hid : id ∉ s.sets .lbPlatforms) (p a : Addr) :
    Receptive (s.registered p a id) where
  fresh k b hb := by
    rw [registered_heap]
    exact h.fresh k b (registered_next (s := s) ▸ hb)
  setLocks r := by rw [registered_setLock, h.setLocks]
  pool := by rw [registered_sets (by simp), h.pool]
  objects := by rw [registered_sets (by simp), h.objects]
  objectsOf c hc := by
    rw [registered_sets (by simp)]
    exact h.objectsOf c (registered_heap (s := s) ▸ hc)
  below id' b hb := by
    rw [registered_sets (by simp)] at hb
    rw [registered_next]
    exact h.below id' b hb
  lbPlatforms := by
    rw [State.registered, State.withPhase_sets]
    split_ifs
    · rw [State.putSet_sets_self, IdSet.damaged_add, decide_eq_false hid, h.lbPlatforms]
      rfl
    · exact h.lbPlatforms

/-- The ids to come are still new, as the platform's own is one that stands for an object. -/
theorem State.DrawsDistinct.registered {n : ℕ} (h : s.DrawsDistinct n)
    (hid : id ∉ s.sets .lbPlatforms) (hknown : id ∈ s.sets .objects) (p a : Addr) :
    (s.registered p a id).DrawsDistinct n := by
  intro i hi
  obtain ⟨⟨hpool, hobjects, hoffers⟩, hdistinct⟩ := h i hi
  have hne : ¬ (s.loadBalancing = true ∧ (s.candidates (s.draws + i)).val = id) := fun heq =>
    hobjects (heq.2 ▸ hknown)
  rw [registered_draws, registered_candidates]
  refine ⟨⟨?_, ?_, ?_⟩, hdistinct⟩
  · rwa [registered_sets (by simp)]
  · rwa [registered_sets (by simp)]
  · rw [IdSet.not_mem_iff, registered_lookup hid, if_neg hne]
    exact IdSet.not_mem_iff.mp hoffers

theorem registered_leaves {n : Addr} (hid : id ∉ s.sets .lbPlatforms) :
    Leaves n p s (s.registered p a id) where
  old k b _ := by rw [registered_heap]
  provider := by rw [registered_heap]
  consumer := by rw [registered_heap]
  setLock := registered_setLock
  loadBalancing := registered_loadBalancing
  phase _ hu := registered_phase hu
  net _ _ := by rw [registered_net]
  pool id' hmem := by rwa [registered_sets (by simp)]
  knows _ _ _ _ := registered_knows
  offers id' b hb := by
    have hne : id' ≠ id := fun heq => hid (heq ▸ IdSet.mem_of_lookup hb)
    rw [registered_lookup hid, if_neg fun h => hne h.2, hb]
  sets r _ _ hlb _ _ := registered_sets hlb

end

section
variable {sizes : Arg} {buf : Buffer infobufsz} {msg : Bytes}

theorem run_agentProviderTurn_info (k : InfoMessage) (hfresh : s.net (.provider p) = .fresh)
    (hlen : msg.length ≤ infobufsz) (hc : k.Complete msg) :
    run t (agentProviderTurn p sizes buf) (s.withNet (s.net.withInq (.provider p)
      (Net.incoming [.msg k.type msg]))) =
      run t (agentProviderHandler p (k.request sizes (buf.receive msg).bytes)) s := by
  have hinq : (s.net.withInq (.provider p) (Net.incoming [.msg k.type msg]) (.provider p)).inq =
      [.record (Sent.msg k.type msg).record] := Net.withInq_inq _ _ _
  have hself : (s.net.withInq (.provider p) (Net.incoming [.msg k.type msg])).withInq (.provider p)
      [] = s.net := by
    rw [Net.withInq_withInq, Net.withInq_self (by rw [hfresh]; rfl)]
  have hrecv := Net.run_claraRecvmsg hinq hlen
  rw [hself] at hrecv
  have hread : k.read (buf.receive msg).bytes ≤ infobufsz :=
    Nat.le_trans ((k.read_le_iff hlen buf).mpr hc) hlen
  have hinfo : infoMessage k.type = some k := by cases k <;> rfl
  rw [agentProviderTurn, run_bind, run_net, State.withNet_net, hrecv, Outcome.bind_done]
  simp only [hinfo, if_pos hread]
  rfl

theorem run_agentProviderTurn_idle (hfresh : s.net (.provider p) = .fresh) :
    run t (agentProviderTurn p sizes buf) (s.withNet (s.net.withInq (.provider p)
      (Net.incoming [.msg Msg.idle []]))) = run t (handleIdle p) s := by
  have hinq : (s.net.withInq (.provider p) (Net.incoming [.msg Msg.idle []]) (.provider p)).inq =
      [.record (Sent.msg Msg.idle []).record] := Net.withInq_inq _ _ _
  have hself : (s.net.withInq (.provider p) (Net.incoming [.msg Msg.idle []])).withInq (.provider p)
      [] = s.net := by
    rw [Net.withInq_withInq, Net.withInq_self (by rw [hfresh]; rfl)]
  have hrecv := Net.run_claraRecvmsg hinq (Nat.zero_le infobufsz)
  rw [hself] at hrecv
  have hinfo : infoMessage Msg.idle = none := rfl
  rw [agentProviderTurn, run_bind, run_net, State.withNet_net, hrecv, Outcome.bind_done]
  simp only [hinfo, if_true]
  rfl

end

/-- The agent has accepted two providers, at 1 and at 3, with their locks at 2 and 4. -/
def State.expecting : State :=
  { State.initial someIds true unlimited with
    heap := fun
      | .provider => fun a => if a = 1 then some ⟨0, 2, true⟩ else
          if a = 3 then some ⟨0, 4, true⟩ else none
      | .lock => fun a => if a = 2 ∨ a = 4 then some .free else none
      | _ => fun _ => none
    next := 5
    sets := fun
      | .providers => (IdSet.empty.add 1 1).add 3 3
      | .platforms 1 | .platforms 3 => .empty
      | r => (State.initial someIds true unlimited).sets r
    phase := fun
      | .main => .serving
      | .provider 1 | .provider 3 => .registering
      | _ => .absent }

theorem expecting_receptive : Receptive .expecting where
  fresh k a h := by
    have hne : ∀ n < 5, a ≠ n := fun n hn => Nat.ne_of_gt (Nat.lt_of_lt_of_le hn h)
    cases k <;> simp [State.expecting, hne]
  setLocks _ := rfl
  pool := rfl
  objects := rfl
  objectsOf c hc := absurd hc nofun
  below id a h := absurd h nofun
  lbPlatforms := rfl

end Clara.Agent
