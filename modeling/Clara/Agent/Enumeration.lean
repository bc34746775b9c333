import Clara.Agent.Query

/-! What the agent knows of platforms and devices, as a consumer sees it: the look-ups by global id,
and the list of devices that `clGetDeviceIDs` fills in. -/
namespace Clara.Agent

open Conc

variable {t : Tid} {s s' : State} {c a : Addr} {id : GlobalId}

/-- An id names one platform at most, and one device at most. -/
structure State.Distinct (s : State) : Prop where
  platforms : ∀ a ∈ s.platformsOf (s.list .providers), ∀ b ∈ s.platformsOf (s.list .providers),
    ∀ id, s.platformHas id a = true → s.platformHas id b = true → a = b
  devices : ∀ a ∈ s.devicesOf (s.platformsOf (s.list .providers)),
    ∀ b ∈ s.devicesOf (s.platformsOf (s.list .providers)),
      ∀ id, s.deviceHas id a = true → s.deviceHas id b = true → a = b

/-- The look-up returns the entry of the list that has the id, and `NULL` where none has. The state
is as it was, with the depth of every lock in it. -/
def LooksUp (t : Tid) (s : State) (find : GlobalId → AProg (Option Addr)) (l : List Addr)
    (has : GlobalId → Addr → Bool) : Prop :=
  ∀ id, ∃ r, run t (find id) s = .done s r ∧ ∀ a, r = some a ↔ a ∈ l ∧ has id a = true

/-- A platform with a processor and a graphics card, and two allocations of a consumer. -/
def State.twoDevices : State :=
  { State.small someIds with
    heap := fun
      | .provider => fun a => if a = 1 then some ⟨0, 2, true⟩ else none
      | .platform => fun a => if a = 5 then some ⟨1, none, 77, 9, fun _ => []⟩ else none
      | .device => fun a => if a = 8 then some ⟨1, 77, 1, 10, 2, true, fun _ => []⟩
          else if a = 15 then some ⟨1, 77, 2, 12, 4, true, fun _ => []⟩ else none
      | .allocation => fun a => if a = 11 then some ⟨20, 2, 8, some 12⟩
          else if a = 13 then some ⟨21, 1, 4, some 14⟩ else none
      | .buffer => fun a => if a = 12 then some (List.replicate 16 0)
          else if a = 14 then some (List.replicate 4 0) else none
      | _ => fun _ => none
    sets := fun
      | .providers => IdSet.empty.add 1 1
      | .idPool => ((((IdSet.empty.add 9 0).add 10 0).add 12 0).add 20 0).add 21 0
      | .platforms 1 => IdSet.empty.add 9 5
      | .devices 5 => (IdSet.empty.add 10 8).add 12 15
      | .allocations 3 => (IdSet.empty.add 20 11).add 21 13
      | _ => .empty }

theorem twoDevices_searchable (t : Tid) : Searchable t State.twoDevices := by
  have hfree : ∀ r, (State.twoDevices.sets r).damaged = false → Visitable t r State.twoDevices :=
    fun r hr => (AtRest.mk hr rfl).visitable t
  have hproviders : ∀ p ∈ State.twoDevices.list .providers, p = 1 :=
    fun p hp => List.mem_singleton.mp hp
  have hplatforms : ∀ a ∈ State.twoDevices.list (.platforms 1), a = 5 :=
    fun a ha => List.mem_singleton.mp ha
  constructor
  · exact hfree _ rfl
  · intro p hp
    rw [hproviders p hp]
    exact hfree _ rfl
  · intro p hp a ha
    rw [hproviders p hp] at ha
    rw [hplatforms a ha]
    rfl
  · intro p hp a ha
    rw [hproviders p hp] at ha
    rw [hplatforms a ha]
    exact hfree _ rfl
  · intro p hp a ha d hd
    rw [hproviders p hp] at ha
    rw [hplatforms a ha] at hd
    have hcases : d = 8 ∨ d = 15 := by
      have hmem : d ∈ ([8, 15] : List Addr) := hd
      simpa using hmem
    rcases hcases with rfl | rfl
    · rfl
    · rfl

theorem twoDevices_distinct : State.twoDevices.Distinct := by
  constructor
  · intro a ha b hb id _ _
    have ha' : a ∈ ([5] : List Addr) := ha
    have hb' : b ∈ ([5] : List Addr) := hb
    rw [List.mem_singleton.mp ha', List.mem_singleton.mp hb']
  · intro a ha b hb id hida hidb
    have ha' : a ∈ ([8, 15] : List Addr) := ha
    have hb' : b ∈ ([8, 15] : List Addr) := hb
    have h8 : State.twoDevices.deviceHas id 8 = true → id = 10 := fun h => (eq_of_beq h).symm
    have h15 : State.twoDevices.deviceHas id 15 = true → id = 12 := fun h => (eq_of_beq h).symm
    have hne : ¬ ((10 : GlobalId) = 12) := by decide
    rcases List.mem_pair.mp ha' with rfl | rfl
    · rcases List.mem_pair.mp hb' with rfl | rfl
      · rfl
      · exact absurd ((h8 hida).symm.trans (h15 hidb)) hne
    · rcases List.mem_pair.mp hb' with rfl | rfl
      · exact absurd ((h8 hidb).symm.trans (h15 hida)) hne
      · rfl

theorem find?_eq_some_iff_of_unique {l : List Addr} {p : Addr → Bool}
    (h : ∀ a ∈ l, ∀ b ∈ l, p a = true → p b = true → a = b) (a : Addr) :
    l.find? p = some a ↔ a ∈ l ∧ p a = true := by
  constructor
  · intro ha
    exact ⟨List.mem_of_find?_eq_some ha, List.find?_some ha⟩
  · rintro ⟨hmem, ha⟩
    obtain ⟨b, hb⟩ := Option.isSome_iff_exists.mp (List.find?_isSome.mpr ⟨a, hmem, ha⟩)
    have hfirst := List.find?_some hb
    rw [hb, h a hmem b (List.mem_of_find?_eq_some hb) ha hfirst]

theorem Searchable.looksUp_platform (h : Searchable t s) (hd : s.Distinct)
    (hne : s.list .providers ≠ []) :
    LooksUp t s agentFindPlatformByGlobalId (s.platformsOf (s.list .providers)) s.platformHas :=
  fun id => ⟨_, h.run_agentFindPlatformByGlobalId hne id,
    find?_eq_some_iff_of_unique fun a ha b hb => hd.platforms a ha b hb id⟩

theorem Searchable.looksUp_device (h : Searchable t s) (hd : s.Distinct) :
    LooksUp t s agentFindDeviceByGlobalId (s.devicesOf (s.platformsOf (s.list .providers)))
      s.deviceHas :=
  fun id => ⟨_, h.run_agentFindDeviceByGlobalId id,
    find?_eq_some_iff_of_unique fun a ha b hb => hd.devices a ha b hb id⟩

/-- Both look-ups are sound and complete as long as a provider is attached; without one the
platform that is returned has never been set. -/
theorem looksUp_iff (h : Searchable t s) (hd : s.Distinct) :
    (LooksUp t s agentFindPlatformByGlobalId (s.platformsOf (s.list .providers)) s.platformHas ∧
      LooksUp t s agentFindDeviceByGlobalId (s.devicesOf (s.platformsOf (s.list .providers)))
        s.deviceHas) ↔ s.list .providers ≠ [] := by
  constructor
  · rintro ⟨hplatform, -⟩ hnil
    obtain ⟨r, hrun, -⟩ := hplatform 0
    rw [h.run_agentFindPlatformByGlobalId_nil hnil] at hrun
    cases hrun
  · intro hne
    exact ⟨h.looksUp_platform hd hne, h.looksUp_device hd⟩

/-- Both devices and their platform are found, and nothing else. -/
theorem looksUp_twoDevices :
    LooksUp .main State.twoDevices agentFindPlatformByGlobalId [5] State.twoDevices.platformHas ∧
      LooksUp .main State.twoDevices agentFindDeviceByGlobalId [8, 15]
        State.twoDevices.deviceHas :=
  (looksUp_iff (twoDevices_searchable .main) twoDevices_distinct).mpr (List.cons_ne_nil _ _)

/-- An agent to which no provider has come returns a platform that was never set. -/
theorem not_looksUp_initial :
    Searchable .main (State.initial someIds false unlimited) ∧
      (State.initial someIds false unlimited).Distinct ∧
      run .main (agentFindPlatformByGlobalId 9) (State.initial someIds false unlimited) =
        .fault .uninitialised ∧
      ¬ LooksUp .main (State.initial someIds false unlimited) agentFindPlatformByGlobalId []
        (State.initial someIds false unlimited).platformHas := by
  have hs : Searchable .main (State.initial someIds false unlimited) :=
    ⟨AtRest.visitable ⟨rfl, rfl⟩ .main, nofun, nofun, nofun, nofun⟩
  have hfault := fun id => hs.run_agentFindPlatformByGlobalId_nil rfl id
  refine ⟨hs, ⟨nofun, nofun⟩, hfault 9, fun h => ?_⟩
  obtain ⟨r, hrun, -⟩ := h 9
  rw [hfault 9] at hrun
  cases hrun

section
variable {ptr : Arg} {v w : Bytes} {r : SetRef}

theorem State.poked_nil : s.poked ptr [] = s := by
  rw [State.poked]
  split_ifs
  · rfl
  · exact State.put_self (by cases s.heap .buffer ptr.toNat <;> rfl)

/-- A second store of as many bytes leaves nothing of the first. -/
theorem State.poked_poked (h : w.length = v.length) : (s.poked ptr v).poked ptr w =
    s.poked ptr w := by
  by_cases hptr : ptr = 0
  · rw [State.poked_null hptr, State.poked_null hptr, State.poked_null hptr]
  · have hover : ∀ b : Bytes, w ++ (v ++ b.drop v.length).drop w.length = w ++ b.drop w.length := by
      intro b
      rw [h, List.drop_left]
    simp only [State.poked, if_neg hptr, State.put_heap_self, State.put_put]
    congr 1
    cases s.heap .buffer ptr.toNat with
    | none => rfl
    | some b => exact congrArg some (hover b)

theorem State.putLock_poked (lk : Lock) :
    (s.putLock r lk).poked ptr v = (s.poked ptr v).putLock r lk := by
  simp only [State.poked]
  split_ifs <;> rfl

@[simp] theorem State.poked_setLock : (s.poked ptr v).setLock = s.setLock := by
  rw [State.poked]
  split_ifs <;> rfl

theorem State.CanPoke.mono {m n : ℕ} (h : s.CanPoke n ptr) (hm : m ≤ n) : s.CanPoke m ptr := by
  intro hne
  obtain ⟨b, hb, hlen⟩ := h hne
  exact ⟨b, hb, hm.trans hlen⟩

theorem run_poke_next (h : s.CanPoke (v ++ w).length ptr) (hne : ptr ≠ 0) :
    run t (poke ptr v.length w) (s.poked ptr v) = .done (s.poked ptr (v ++ w)) () := by
  obtain ⟨b, hb, hlen⟩ := h hne
  rw [List.length_append] at hlen
  have hbuffer : (s.poked ptr v).heap .buffer ptr.toNat = some (v ++ b.drop v.length) :=
    State.poked_buffer hb hne
  have hfits : v.length + w.length ≤ (v ++ b.drop v.length).length := by
    rw [List.length_append, List.length_drop]
    omega
  have hstore : Kind.buffer.store (v.length, w) (v ++ b.drop v.length) =
      (v ++ w) ++ b.drop (v ++ w).length := by
    show (v ++ b.drop v.length).take v.length ++ w ++
      (v ++ b.drop v.length).drop (v.length + w.length) = _
    rw [List.take_left, List.drop_append, List.drop_eq_nil_of_le (by omega), List.drop_drop,
      List.length_append, List.nil_append]
    congr 2
    omega
  rw [poke, run_bind, run_read hbuffer, Outcome.bind_done, if_pos hfits, run_store hbuffer, hstore,
    State.poked, State.poked, if_neg hne, if_neg hne, State.put_put, hb]
  rfl

end

/-- The global ids of the devices that share a bit with the mask, in the order of the visit. -/
def State.matching (s : State) (mask : UInt64) (l : List Addr) : List GlobalId :=
  l.filterMap fun d => (s.heap .device d).bind fun dv =>
    if dv.type &&& mask = 0 then none else some dv.globalId

section
variable {ptr : Arg} {mask : UInt64} {n : ℕ} {l : List Addr}

theorem State.matching_cons_of_zero {d : Addr} {dv : Device} (hd : s.heap .device d = some dv)
    (h : dv.type &&& mask = 0) : s.matching mask (d :: l) = s.matching mask l := by
  rw [State.matching, List.filterMap_cons, hd, Option.bind_some, if_pos h]
  rfl

theorem State.matching_cons_of_ne {d : Addr} {dv : Device} (hd : s.heap .device d = some dv)
    (h : dv.type &&& mask ≠ 0) :
    s.matching mask (d :: l) = dv.globalId :: s.matching mask l := by
  rw [State.matching, List.filterMap_cons, hd, Option.bind_some, if_neg h]
  rfl

/-- The entries of the array after the traversal, when the ones before hold `ids`. -/
def State.filled (s : State) (mask : UInt64) (n : ℕ) (ids : List GlobalId) (l : List Addr) :
    List GlobalId :=
  ids ++ (s.matching mask l).take (n - ids.length)

theorem State.filled_full {ids : List GlobalId} (h : ids.length = n) :
    s.filled mask n ids l = ids := by
  rw [State.filled, h, Nat.sub_self, List.take_zero, List.append_nil]

/-- A device of the requested type takes the next entry. -/
theorem State.filled_cons {ids : List GlobalId} {d : Addr} {dv : Device} (hids : ids.length < n)
    (hd : s.heap .device d = some dv) (h : dv.type &&& mask ≠ 0) :
    s.filled mask n ids (d :: l) = s.filled mask n (ids ++ [dv.globalId]) l := by
  have hleft : n - ids.length = n - (ids ++ [dv.globalId]).length + 1 := by
    rw [List.length_append, List.length_singleton]
    omega
  rw [State.filled, State.filled, State.matching_cons_of_ne hd h, hleft, List.take_succ_cons,
    List.append_assoc, List.singleton_append]

theorem State.le_length_filled (ids : List GlobalId) :
    ids.length ≤ (s.filled mask n ids l).length := by
  rw [State.filled, List.length_append]
  omega

/-- The traversal; with 2³¹ entries to fill in, the `int` that counts them overflows. -/
theorem run_putDevices (mask : UInt64) (ids : List GlobalId) (hne : ptr ≠ 0)
    (hroom : s.CanPoke (8 * n) ptr) (hrec : ∀ d ∈ l, (s.heap .device d).isSome)
    (hids : ids.length ≤ n) (hint : ids.length < 2 ^ 31) :
    run t (putDevices ptr n mask ids.length l) (s.poked ptr (Bytes.words ids)) =
      if (s.filled mask n ids l).length < 2 ^ 31 then
        .done (s.poked ptr (Bytes.words (s.filled mask n ids l))) ()
      else .fault .overflow := by
  induction l generalizing ids with
  | nil =>
    have hnil : s.filled mask n ids [] = ids := by
      rw [State.filled, State.matching, List.filterMap_nil, List.take_nil, List.append_nil]
    rw [hnil, if_pos hint]
    rfl
  | cons d l ih =>
    have hrest := fun d' hd' => hrec d' (List.mem_cons_of_mem _ hd')
    obtain ⟨dv, hdv⟩ := Option.isSome_iff_exists.mp (hrec d List.mem_cons_self)
    have hdevice : (s.poked ptr (Bytes.words ids)).heap .device d = some dv := by
      rw [State.poked_heap_of_ne (.inl (by decide)), hdv]
    rw [putDevices]
    by_cases hfull : ids.length = n
    · rw [if_pos hfull, State.filled_full hfull, if_pos hint]
      rfl
    · rw [if_neg hfull, run_bind, run_read hdevice, Outcome.bind_done]
      by_cases hmask : dv.type &&& mask = 0
      · have hskip : s.filled mask n ids (d :: l) = s.filled mask n ids l := by
          rw [State.filled, State.filled, State.matching_cons_of_zero hdv hmask]
        rw [if_pos hmask, hskip]
        exact ih ids hrest hids hint
      · have hlength : (ids ++ [dv.globalId]).length = ids.length + 1 := List.length_append
        have hwords : Bytes.words (ids ++ [dv.globalId]) =
            Bytes.words ids ++ Bytes.word dv.globalId := by
          rw [Bytes.words_append, Bytes.words, Bytes.words, List.append_nil]
        have hpoke : run t (poke ptr (8 * ids.length) (Bytes.word dv.globalId))
            (s.poked ptr (Bytes.words ids)) =
              .done (s.poked ptr (Bytes.words (ids ++ [dv.globalId]))) () := by
          have hfits : s.CanPoke (Bytes.words ids ++ Bytes.word dv.globalId).length ptr := by
            apply hroom.mono
            rw [List.length_append, Bytes.length_words, Bytes.length_word]
            omega
          rw [hwords, ← Bytes.length_words]
          exact run_poke_next hfits hne
        rw [if_neg hmask, State.filled_cons (by omega) hdv hmask, run_bind, hpoke,
          Outcome.bind_done, intSucc]
        by_cases hnext : ids.length + 1 < 2 ^ 31
        · have hrun := ih (ids ++ [dv.globalId]) hrest (by omega) (by omega)
          rw [hlength] at hrun
          rw [if_pos hnext]
          exact hrun
        · have hlong : ¬ (s.filled mask n (ids ++ [dv.globalId]) l).length < 2 ^ 31 := by
            have hle : (ids ++ [dv.globalId]).length ≤
                (s.filled mask n (ids ++ [dv.globalId]) l).length :=
              State.le_length_filled (ids ++ [dv.globalId])
            omega
          rw [if_neg hnext, if_neg hlong]
          rfl

end

section
variable {ptr : Arg} {v : Bytes} {r : SetRef}

@[simp] theorem State.poked_list : (s.poked ptr v).list r = s.list r := by
  rw [State.list, State.poked_sets, State.list]

theorem State.poked_record {k : Kind} (h : k ≠ .buffer) : (s.poked ptr v).heap k = s.heap k :=
  funext fun _ => State.poked_heap_of_ne (.inl h)

theorem State.poked_platformAt : (s.poked ptr v).platformAt id = s.platformAt id := by
  have hhas : (s.poked ptr v).platformHas id = s.platformHas id := by
    funext a
    rw [State.platformHas, State.poked_record (by decide), State.platformHas]
  simp only [State.platformAt, State.platformsOf, State.poked_list, hhas]

theorem State.poked_matching (mask : UInt64) (l : List Addr) :
    (s.poked ptr v).matching mask l = s.matching mask l := by
  rw [State.matching, State.poked_record (by decide), State.matching]

theorem Visitable.poked (h : Visitable t r s) : Visitable t r (s.poked ptr v) := by
  constructor
  · rw [State.poked_sets]
    exact h.sound
  · rw [State.poked_setLock]
    exact h.lock
  · rw [State.poked_setLock]
    exact h.admits

/-- A store to an allocation is no store to what a search visits. -/
theorem Searchable.poked (h : Searchable t s) : Searchable t (s.poked ptr v) := by
  constructor
  · exact h.providers.poked
  · intro p hp
    rw [State.poked_list] at hp
    exact (h.platforms p hp).poked
  · intro p hp a ha
    rw [State.poked_list] at hp ha
    rw [State.poked_record (by decide)]
    exact h.platform p hp a ha
  · intro p hp a ha
    rw [State.poked_list] at hp ha
    exact (h.devices p hp a ha).poked
  · intro p hp a ha d hd
    rw [State.poked_list] at hp ha hd
    rw [State.poked_record (by decide)]
    exact h.device p hp a ha d hd

theorem Visitable.run_setCount (h : Visitable t r s) :
    run t (setCount r) s = .done s (s.list r).length := by
  rw [setCount, perform, run, Prog.run_perform, exec]
  simp [IdSet.setList, h.sound, ofSet, State.list]

theorem State.CanPoke.poked {n : ℕ} {ptr' : Arg} (h : s.CanPoke n ptr')
    (hne : ptr' ≠ 0 → ptr'.toNat ≠ ptr.toNat) : (s.poked ptr v).CanPoke n ptr' := by
  intro hptr
  obtain ⟨b, hb, hlen⟩ := h hptr
  exact ⟨b, by rw [State.poked_heap_of_ne (.inr (hne hptr)), hb], hlen⟩

theorem State.CanPoke.poked_self {n : ℕ} (h : s.CanPoke n ptr) :
    (s.poked ptr v).CanPoke n ptr := by
  intro hptr
  obtain ⟨b, hb, hlen⟩ := h hptr
  refine ⟨v ++ b.drop v.length, State.poked_buffer hb hptr, ?_⟩
  rw [List.length_append, List.length_drop]
  omega

theorem run_pokeUint (n : ℕ) (h : s.CanPoke 4 ptr) :
    run t (pokeUint ptr n) s = .done (s.poked ptr (Bytes.ofNat 4 n)) () := by
  have hlen : (Bytes.ofNat 4 n).length = 4 := Bytes.length_ofNat 4 n
  rw [pokeUint, run_ite]
  split_ifs with hptr
  · rw [State.poked_null hptr]
    rfl
  · exact run_poke_start (by rwa [hlen]) hptr

theorem Searchable.of_platformAt (h : Searchable t s) (ha : s.platformAt id = some a) :
    Visitable t (.devices a) s ∧ ∀ d ∈ s.list (.devices a), (s.heap .device d).isSome := by
  have hmem : a ∈ s.platformsOf (s.list .providers) := List.mem_of_find?_eq_some ha
  obtain ⟨p, hp, hap⟩ := List.mem_flatMap.mp hmem
  exact ⟨h.devices p hp a hap, h.device p hp a hap⟩

end

section
variable {params : ExecuteRequest}

/-- `num_entries`. -/
def numEntries (params : ExecuteRequest) : ℕ := (params.argv 3).toUInt32.toNat

def State.listed (s : State) (params : ExecuteRequest) (a : Addr) : List GlobalId :=
  (s.matching (params.argv 2) (s.list (.devices a))).take (numEntries params)

/-- The allocations of the consumer when the handler is done. -/
def State.enumerated (s : State) (params : ExecuteRequest) (a : Addr) : State :=
  (s.poked (params.argv 5) (Bytes.ofNat 4 (s.list (.devices a)).length)).poked (params.argv 4)
    (Bytes.words (s.listed params a))

variable (params) in
theorem Searchable.run_listDevices (h : Searchable t s) (ha : s.platformAt id = some a)
    (h4 : s.CanPoke (8 * numEntries params) (params.argv 4)) :
    run t (do
      if params.argv 4 ≠ 0 then
        let l ← setStart (.devices a)
        putDevices (params.argv 4) (params.argv 3).toUInt32.toNat (params.argv 2) 0 l
        setFinish (.devices a)
      pure params) s =
      if params.argv 4 = 0 ∨ (s.listed params a).length < 2 ^ 31 then
        .done (s.poked (params.argv 4) (Bytes.words (s.listed params a))) params
      else .fault .overflow := by
  obtain ⟨hdevices, hrec⟩ := h.of_platformAt ha
  by_cases hnull : params.argv 4 = 0
  · rw [if_neg (not_not.mpr hnull), if_pos (.inl hnull), State.poked_null hnull]
    rfl
  · have hfilled : ∀ lk, (s.putLock (.devices a) lk).filled (params.argv 2) (numEntries params) []
        (s.list (.devices a)) = s.listed params a := fun lk => rfl
    have hput : ∀ lk, run t (putDevices (params.argv 4) (numEntries params) (params.argv 2) 0
        (s.list (.devices a))) (s.putLock (.devices a) lk) =
          if (s.listed params a).length < 2 ^ 31 then
            .done ((s.poked (params.argv 4) (Bytes.words (s.listed params a))).putLock
              (.devices a) lk) ()
          else .fault .overflow := by
      intro lk
      have hrun := run_putDevices (t := t) (s := s.putLock (.devices a) lk) (params.argv 2) []
        hnull h4 hrec (Nat.zero_le _) (by decide)
      rwa [Bytes.words, State.poked_nil, hfilled, State.putLock_poked] at hrun
    rw [if_pos hnull]
    by_cases hshort : (s.listed params a).length < 2 ^ 31
    · simp only [hshort, if_true] at hput
      rw [if_pos (.inr hshort)]
      exact hdevices.run_visit_to (by rw [State.poked_setLock]) hput
    · obtain ⟨lk, hstart, -⟩ := hdevices.visit
      have hor : ¬ (params.argv 4 = 0 ∨ (s.listed params a).length < 2 ^ 31) := by
        rintro (h0 | hlt)
        · exact hnull h0
        · exact hshort hlt
      have hfault := hput lk
      rw [if_neg hshort] at hfault
      show run t (setStart (.devices a) >>= fun l => putDevices (params.argv 4)
        (numEntries params) (params.argv 2) 0 l >>= _) s = _
      rw [run_bind, hstart, Outcome.bind_done, run_bind, hfault, Outcome.bind_fault, if_neg hor]

/-- The handler counts all the devices of the platform and lists those of the type. -/
theorem run_claraPostClGetDeviceIDs (h : Searchable t s) (h0 : params.argv 0 = clSuccess)
    (h1 : params.argv 1 ≠ invalidId) (ha : s.platformAt (params.argv 1) = some a)
    (h4 : s.CanPoke (8 * numEntries params) (params.argv 4)) (h5 : s.CanPoke 4 (params.argv 5))
    (hne : params.argv 4 ≠ 0 → (params.argv 4).toNat ≠ (params.argv 5).toNat) :
    run t (claraPostClGetDeviceIDs params none c) s =
      if params.argv 4 = 0 ∨ (s.listed params a).length < 2 ^ 31 then
        .done (s.enumerated params a) params
      else .fault .overflow := by
  have hsize : ∀ n, (Bytes.ofNat 4 n).length = 4 := Bytes.length_ofNat 4
  have hfound : run t (agentFindPlatformByGlobalId (params.argv 1))
      (s.poked (params.argv 5) (Bytes.ofNat 4 0)) =
        .done (s.poked (params.argv 5) (Bytes.ofNat 4 0)) (some a) := by
    have hproviders : (s.poked (params.argv 5) (Bytes.ofNat 4 0)).list .providers ≠ [] := by
      rw [State.poked_list]
      exact State.providers_ne_nil ha
    rw [h.poked.run_agentFindPlatformByGlobalId hproviders, State.poked_platformAt, ha]
  have hlist : ∀ n, run t (do
      if params.argv 4 ≠ 0 then
        let l ← setStart (.devices a)
        putDevices (params.argv 4) (params.argv 3).toUInt32.toNat (params.argv 2) 0 l
        setFinish (.devices a)
      pure params) (s.poked (params.argv 5) (Bytes.ofNat 4 n)) =
        if params.argv 4 = 0 ∨ (s.listed params a).length < 2 ^ 31 then
          .done ((s.poked (params.argv 5) (Bytes.ofNat 4 n)).poked (params.argv 4)
            (Bytes.words (s.listed params a))) params
        else .fault .overflow := by
    intro n
    have hlisted : (s.poked (params.argv 5) (Bytes.ofNat 4 n)).listed params a =
        s.listed params a := by
      rw [State.listed, State.poked_matching, State.poked_list, State.listed]
    have hat : (s.poked (params.argv 5) (Bytes.ofNat 4 n)).platformAt (params.argv 1) = some a := by
      rw [State.poked_platformAt, ha]
    have hrun := h.poked.run_listDevices params hat (h4.poked hne)
    rwa [hlisted] at hrun
  rw [claraPostClGetDeviceIDs]
  simp only [setArg_self h0]
  rw [run_bind, run_pokeUint 0 h5, Outcome.bind_done, if_neg h1, run_bind, hfound,
    Outcome.bind_done]
  show run t (if params.argv 5 ≠ 0 then _ else _) _ = _
  by_cases hnull : params.argv 5 = 0
  · have hsame : s.poked (params.argv 5) (Bytes.ofNat 4 0) =
        s.poked (params.argv 5) (Bytes.ofNat 4 (s.list (.devices a)).length) := by
      rw [State.poked_null hnull, State.poked_null hnull]
    rw [if_neg (not_not.mpr hnull), hsame]
    exact hlist _
  · have hcount : run t (setCount (.devices a)) (s.poked (params.argv 5) (Bytes.ofNat 4 0)) =
        .done (s.poked (params.argv 5) (Bytes.ofNat 4 0)) (s.list (.devices a)).length := by
      rw [(h.of_platformAt ha).1.poked.run_setCount, State.poked_list]
    have hagain : (s.poked (params.argv 5) (Bytes.ofNat 4 0)).CanPoke 4 (params.argv 5) :=
      h5.poked_self
    have hover : (s.poked (params.argv 5) (Bytes.ofNat 4 0)).poked (params.argv 5)
        (Bytes.ofNat 4 (s.list (.devices a)).length) =
          s.poked (params.argv 5) (Bytes.ofNat 4 (s.list (.devices a)).length) :=
      State.poked_poked (by rw [hsize, hsize])
    rw [if_pos hnull, run_bind, hcount, Outcome.bind_done, run_bind, run_pokeUint _ hagain,
      Outcome.bind_done, hover]
    exact hlist _

/-- The answer to `clGetDeviceIDs`: one allocation starts with the number of the devices, the other
with the first of their global ids, all different, and the rest of both is as it was. -/
structure Enumerates (s s' : State) (c : Addr) (params : ExecuteRequest) (ids : List GlobalId) :
    Prop where
  count : params.argv 5 ≠ 0 → ∀ a ptr b, s.Stores c (params.argv 5) a ptr b →
    ∃ w : Bytes, w.length = 4 ∧ w.toNat = ids.length ∧
      s'.Stores c (params.argv 5) a ptr (w ++ b.drop 4)
  entries : params.argv 4 ≠ 0 → ∀ a ptr b, s.Stores c (params.argv 4) a ptr b →
    s'.Stores c (params.argv 4) a ptr (Bytes.words (ids.take (numEntries params)) ++
      b.drop (8 * min (numEntries params) ids.length))
  distinct : ids.Nodup

/-- The devices of a platform are entered under their global ids. -/
def State.DevicesKeyed (s : State) (a : Addr) : Prop :=
  ∀ key d dv, (s.sets (.devices a)).lookup key = some d → s.heap .device d = some dv →
    dv.globalId = key

/-- A set has one entry for a key, so the ids that are listed are different. -/
theorem State.DevicesKeyed.nodup_matching (h : s.DevicesKeyed a) (mask : UInt64) :
    (s.matching mask (s.list (.devices a))).Nodup := by
  rw [State.matching, State.list, List.filterMap_map, List.Nodup, List.pairwise_filterMap]
  have hkey : ∀ x ∈ (s.sets (.devices a)).items, ∀ g, ((s.heap .device x.2).bind fun dv =>
      if dv.type &&& mask = 0 then none else some dv.globalId) = some g → g = x.1 := by
    intro x hx g hg
    obtain ⟨dv, hdv, hif⟩ := Option.bind_eq_some_iff.mp hg
    split_ifs at hif
    obtain rfl := Option.some.inj hif
    exact h x.1 x.2 dv (IdSet.mem_items.mp hx) hdv
  refine (s.sets (.devices a)).ordered.imp_of_mem ?_
  intro x y hx hy hlt g hg g' hg'
  rw [hkey x hx g hg, hkey y hy g' hg']
  exact hlt.ne

theorem listed_pointers : s.listed (pointers s c params) a =
    (s.matching (params.argv 2) (s.list (.devices a))).take (numEntries params) := by
  rw [State.listed, numEntries, Asks.pointers_other (by decide) (by decide) (by decide),
    Asks.pointers_other (by decide) (by decide) (by decide), numEntries]

/-- Where the second pointer leads, the state that the handler leaves has the count. -/
theorem Points.count_enumerated (h : Points s c params (8 * numEntries params) 4)
    (h5 : params.argv 5 ≠ 0) {x ptr : Addr} {b : Bytes}
    (hs : s.Stores c (params.argv 5) x ptr b) :
    (s.enumerated (pointers s c params) a).Stores c (params.argv 5) x ptr
      (Bytes.ofNat 4 (s.list (.devices a)).length ++ b.drop 4) := by
  have hsize : (Bytes.ofNat 4 (s.list (.devices a)).length).length = 4 := Bytes.length_ofNat 4 _
  have hstores := h.stores_five (v := Bytes.words (s.listed (pointers s c params) a)) hsize.le h5 hs
  rwa [hsize] at hstores

/-- Where the first pointer leads, it has the ids. -/
theorem Points.entries_enumerated (h : Points s c params (8 * numEntries params) 4)
    (h4 : params.argv 4 ≠ 0) {x ptr : Addr} {b : Bytes}
    (hs : s.Stores c (params.argv 4) x ptr b) :
    (s.enumerated (pointers s c params) a).Stores c (params.argv 4) x ptr
      (Bytes.words ((s.matching (params.argv 2) (s.list (.devices a))).take (numEntries params)) ++
        b.drop (8 * min (numEntries params)
          (s.matching (params.argv 2) (s.list (.devices a))).length)) := by
  have hlen : (Bytes.words (s.listed (pointers s c params) a)).length =
      8 * min (numEntries params) (s.matching (params.argv 2) (s.list (.devices a))).length := by
    rw [Bytes.length_words, listed_pointers, List.length_take]
  have hstores := h.stores_four (v := Bytes.words (s.listed (pointers s c params) a))
    (w := Bytes.ofNat 4 (s.list (.devices a)).length) (by omega) h4 hs
  rw [hlen] at hstores
  rw [listed_pointers] at hstores
  rw [State.enumerated, listed_pointers]
  exact hstores

end

section
variable {lzo : Lzo} {fuel : ℕ} {params : ExecuteRequest}

/-- A request for the devices of a platform, as the consumer's library sends it. -/
structure AsksDevices (s : State) (c : Addr) (params : ExecuteRequest) (a : Addr) : Prop where
  func : ClFunction.ofArg params.func = some (.getDeviceIDs, 5)
  hint : params.hint = invalidHandle
  valid : params.argv 1 ≠ invalidId
  platform : s.platformAt (params.argv 1) = some a
  points : Points s c params (8 * numEntries params) 4

variable (lzo fuel) in
theorem AsksDevices.run_agentExecute (h : AsksDevices s c params a) (hs : Searchable t s)
    (hk : Keeps c s) :
    run t (agentExecute lzo fuel params c) s =
      if params.argv 4 = 0 ∨
          min (numEntries params) (s.matching (params.argv 2) (s.list (.devices a))).length < 2 ^ 31
      then .done (s.enumerated (pointers s c params) a) clSuccess
      else .fault .overflow := by
  have h1 : (pointers s c params).argv 1 = params.argv 1 :=
    Asks.pointers_other (by decide) (by decide) (by decide)
  have h3 : numEntries (pointers s c params) = numEntries params := by
    rw [numEntries, Asks.pointers_other (by decide) (by decide) (by decide), numEntries]
  have hnull : (pointers s c params).argv 4 = 0 ↔ params.argv 4 = 0 := by
    rw [Asks.pointers_four]
    by_cases h4 : params.argv 4 = 0
    · rw [if_neg (not_not.mpr h4)]
    · obtain ⟨x, ptr, b, -, hne, -, -⟩ := h.points.value.pointer h4
      rw [if_pos h4]
      exact iff_of_false hne h4
  have hrun := run_claraPostClGetDeviceIDs (c := c) hs
    Asks.pointers_zero (by rw [h1]; exact h.valid) (by rw [h1]; exact h.platform)
    (by rw [h3]; exact h.points.canPoke_four) h.points.canPoke_five h.points.pointers_ne
  rw [run_agentExecute_here lzo fuel h.hint h.func rfl,
    h.points.run_claraExecute lzo fuel hk h.func rfl, hrun, listed_pointers, List.length_take]
  simp only [hnull]
  split_ifs
  · rw [Outcome.bind_done, Outcome.bind_done, Asks.pointers_zero]
    rfl
  · rfl

/-- A request is answered with the devices of the platform that have the type if and only if the
number of all its devices is the number of those, as a `cl_uint`, where it is asked for, and the
entries to fill in can be counted with an `int`. -/
theorem enumerates_iff (lzo : Lzo) (fuel : ℕ) (h : AsksDevices s c params a)
    (hs : Searchable t s) (hk : Keeps c s) (hkeyed : s.DevicesKeyed a) :
    (∃ s', run t (agentExecute lzo fuel params c) s = .done s' clSuccess ∧
      Enumerates s s' c params (s.matching (params.argv 2) (s.list (.devices a)))) ↔
    (params.argv 5 = 0 ∨ (s.list (.devices a)).length % 2 ^ 32 =
      (s.matching (params.argv 2) (s.list (.devices a))).length) ∧
    (params.argv 4 = 0 ∨
      min (numEntries params) (s.matching (params.argv 2) (s.list (.devices a))).length <
        2 ^ 31) := by
  have hrun := h.run_agentExecute (t := t) lzo fuel hs hk
  constructor
  · rintro ⟨s', hdone, hans⟩
    rw [hdone] at hrun
    split_ifs at hrun with hfits
    obtain ⟨rfl, -⟩ := Outcome.done.inj hrun
    refine ⟨?_, hfits⟩
    by_cases h5 : params.argv 5 = 0
    · exact .inl h5
    · obtain ⟨x, ptr, b, hstores, -⟩ := h.points.size h5
      obtain ⟨w, hlen, hcount, hw⟩ := hans.count h5 x ptr b hstores
      have heq := (hw.unique (h.points.count_enumerated h5 hstores)).2.2
      have hsame : w = Bytes.ofNat 4 (s.list (.devices a)).length :=
        (List.append_inj heq (by rw [hlen, Bytes.length_ofNat])).1
      rw [hsame, Bytes.toNat_ofNat] at hcount
      exact .inr hcount
  · rintro ⟨hcount, hfits⟩
    rw [if_pos hfits] at hrun
    refine ⟨_, hrun, ?_, ?_, hkeyed.nodup_matching _⟩
    · intro h5 x ptr b hstores
      refine ⟨_, Bytes.length_ofNat 4 _, ?_, h.points.count_enumerated h5 hstores⟩
      rw [Bytes.toNat_ofNat]
      exact hcount.resolve_left h5
    · intro h4 x ptr b hstores
      exact h.points.entries_enumerated h4 hstores

end

/-- Consumer 3 asks for the devices of the platform 9 that have a type of the mask. -/
def askDevices (mask : UInt64) : ExecuteRequest :=
  ⟨invalidHandle, 2, fun i => [0, 9, mask, 2, 20, 21].getD i 0, 5⟩

theorem twoDevices_stores_value :
    State.twoDevices.Stores 3 20 11 12 (List.replicate 16 0) :=
  ⟨rfl, ⟨2, 8, rfl, rfl⟩, rfl⟩

theorem twoDevices_stores_size : State.twoDevices.Stores 3 21 13 14 (List.replicate 4 0) :=
  ⟨rfl, ⟨1, 4, rfl, rfl⟩, rfl⟩

theorem twoDevices_asks (mask : UInt64) :
    AsksDevices State.twoDevices 3 (askDevices mask) 5 where
  func := rfl
  hint := rfl
  valid := by
    show (9 : GlobalId) ≠ invalidId
    decide
  platform := rfl
  points := by
    constructor
    · intro _
      exact ⟨11, 12, _, twoDevices_stores_value, by decide, by decide, le_refl 16⟩
    · intro _
      exact ⟨13, 14, _, twoDevices_stores_size, by decide, by decide, by decide⟩
    · intro a a' ptr b b' h h'
      have h12 := (h.unique twoDevices_stores_value).2.1
      have h14 := (h'.unique twoDevices_stores_size).2.1
      rw [h12] at h14
      exact absurd h14 (by decide)

theorem twoDevices_keeps : Keeps 3 State.twoDevices := by
  have hlook : ∀ handle a, (State.twoDevices.sets (.allocations 3)).lookup handle = some a →
      handle = 20 ∧ a = 11 ∨ handle = 21 ∧ a = 13 := by
    intro handle a h
    have hadd : ((IdSet.empty.add (20 : Handle) (11 : Addr)).add 21 13).lookup handle = some a := h
    rw [IdSet.lookup_add (by decide), IdSet.lookup_add (by decide)] at hadd
    split_ifs at hadd with h21 h20
    · exact .inr ⟨h21, (Option.some.inj hadd).symm⟩
    · exact .inl ⟨h20, (Option.some.inj hadd).symm⟩
    · cases hadd
  constructor
  · rfl
  · rfl
  · intro handle h
    obtain ⟨a, ha⟩ := IdSet.mem_iff.mp h
    rcases hlook handle a ha with ⟨rfl, -⟩ | ⟨rfl, -⟩
    · rfl
    · rfl
  · intro handle a h
    rcases hlook handle a h with ⟨rfl, rfl⟩ | ⟨rfl, rfl⟩
    · exact ⟨_, rfl, rfl⟩
    · exact ⟨_, rfl, rfl⟩

theorem twoDevices_keyed : State.twoDevices.DevicesKeyed 5 := by
  intro key d dv hkey hdv
  have hadd : ((IdSet.empty.add (10 : GlobalId) (8 : Addr)).add 12 15).lookup key = some d := hkey
  rw [IdSet.lookup_add (by decide), IdSet.lookup_add (by decide)] at hadd
  split_ifs at hadd with h12 h10
  · obtain rfl := Option.some.inj hadd
    rw [← Option.some.inj hdv, h12]
  · obtain rfl := Option.some.inj hadd
    rw [← Option.some.inj hdv, h10]
  · cases hadd

/-- With `CL_DEVICE_TYPE_ALL` both devices are counted and listed. -/
theorem enumerates_all : ∃ s',
    run (.consumer 3) (agentExecute literalLzo 0 (askDevices 0xffffffff) 3) State.twoDevices =
      .done s' clSuccess ∧ Enumerates State.twoDevices s' 3 (askDevices 0xffffffff) [10, 12] :=
  (enumerates_iff literalLzo 0 (twoDevices_asks 0xffffffff) (twoDevices_searchable _)
    twoDevices_keeps twoDevices_keyed).mpr ⟨.inr (by decide), .inr (by decide)⟩

/-- With `CL_DEVICE_TYPE_GPU` the graphics card alone is listed, but both devices are counted, and
the second entry is no device. -/
theorem not_enumerates_gpu :
    State.twoDevices.matching 4 (State.twoDevices.list (.devices 5)) = [12] ∧
      ∃ s', run (.consumer 3) (agentExecute literalLzo 0 (askDevices 4) 3) State.twoDevices =
        .done s' clSuccess ∧
      s'.heap .buffer 14 = some (Bytes.ofNat 4 2) ∧ s'.heap .buffer 12 = some (Bytes.words [12, 0]) ∧
      ¬ Enumerates State.twoDevices s' 3 (askDevices 4) [12] := by
  have hasks := twoDevices_asks 4
  have hrun := hasks.run_agentExecute (t := .consumer 3) literalLzo 0
    (twoDevices_searchable _) twoDevices_keeps
  rw [if_pos (.inr (by decide))] at hrun
  have hcount := hasks.points.count_enumerated (a := 5) (by decide) twoDevices_stores_size
  have hentries := hasks.points.entries_enumerated (a := 5) (by decide) twoDevices_stores_value
  refine ⟨rfl, _, hrun, hcount.block, hentries.block, fun h => ?_⟩
  obtain ⟨w, hlen, hone, hw⟩ := h.count (by decide) 13 14 _ twoDevices_stores_size
  have hsame := (List.append_inj (hw.unique hcount).2.2 hlen).1
  rw [hsame] at hone
  exact absurd hone (by decide)

end Clara.Agent
