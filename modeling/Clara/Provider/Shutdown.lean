import Clara.Common.RbTree

/-! `provider_shutdown`: the sets of platforms and devices are emptied while they are traversed. -/
namespace Clara.Shutdown

open Conc HeapProg Rb

/-- The records of a provider, with the pointers that `provider_shutdown` follows. -/
inductive Record
  | provider (platforms : Option Arg)
  | platform (devices : Option Arg)
  | device
  deriving DecidableEq

def providerPlatforms (provider : Arg) : RbProg Record (Option Arg) := do
  match ← load Kind.record provider with
  | .provider platforms => pure platforms
  | _ => fail (.freed Kind.record)

def platformDevices (platform : Arg) : RbProg Record (Option Arg) := do
  match ← load Kind.record platform with
  | .platform devices => pure devices
  | _ => fail (.freed Kind.record)

/-- The loops of `provider_shutdown`: each record of the set goes through `body`, and is taken out of
the set and freed. -/
def drain (set : Arg) (body : Arg → RbProg Record Unit) : (fuel : ℕ) → RbProg Record Unit
  | 0 => spin
  | fuel + 1 => do
    match ← setNext set with
    | none => pure ()
    | some x => do
      body x
      let _ ← setRemove set x
      free Kind.record x
      drain set body fuel

def shutdownDevices (fuel : ℕ) (platform : Arg) : RbProg Record Unit := do
  match ← platformDevices platform with
  | none => pure ()
  | some devices => do
    setStart devices
    drain devices (fun _ => pure ()) fuel
    setDestroy fuel devices
    store Kind.record platform (.platform none)

/-- The sockets are closed at the end. -/
def providerShutdown (provider : Option Arg) (fuel : ℕ) : RbProg Record Unit :=
  match provider with
  | none => pure ()
  | some provider => do
    match ← providerPlatforms provider with
    | none => pure ()
    | some platforms => do
      setStart platforms
      drain platforms (shutdownDevices fuel) fuel
      setDestroy fuel platforms
      store Kind.record provider (.provider none)

/-- A platform with its devices: it has no set of them, or a set with a tree of its own. -/
structure PlatformAt (m : Memory Record) (set tree : Arg) (t : Tree) (platform : Arg)
    (devices : List Arg) : Prop where
  record : ∃ ds, m.cell .record platform = some (.platform ds) ∧
    ((ds = none ∧ devices = []) ∨ ∃ dset dtree dt, ds = some dset ∧ SetAt m dset dtree dt ∧
      dt.records = devices ∧ dset ≠ set ∧ dtree ∉ tree :: t.nodes)
  devices : ∀ device ∈ devices, m.cell .record device = some .device

/-- The platforms of a provider with their devices, each entered under its address. -/
inductive Provides (m : Memory Record) : Option Arg → List (Arg × List Arg) → Prop
  | none : Provides m none []
  | noSet {provider : Arg} (h : m.cell .record provider = some (.provider none)) :
    Provides m (some provider) []
  | set {provider set tree : Arg} {t : Tree} {platforms : List (Arg × List Arg)}
    (h : m.cell .record provider = some (.provider (some set))) (hset : SetAt m set tree t)
    (hrecords : t.records = platforms.map Prod.fst)
    (hplatforms : ∀ x ∈ platforms, PlatformAt m set tree t x.1 x.2) :
    Provides m (some provider) platforms

/-- The shutdown comes to its end, without a step to a node that is not there, and has then freed
each platform and each device once. -/
def VisitsOnce (m : Memory Record) (provider : Option Arg) (platforms : List (Arg × List Arg)) :
    Prop :=
  ∃ fuel m', providerShutdown provider fuel m = .done m' () ∧ ∀ x ∈ platforms, ∀ a ∈ x.1 :: x.2,
    m'.freed.count (.record, a) = m.freed.count (.record, a) + 1

section
variable {m m' : Memory Record} {set tree z x : Arg} {t : Tree}

/-- A traversal that stands on a freed node goes no further. -/
theorem drain_freed {stack : List Arg} (htrav : m.cell .set set = some ⟨tree, ⟨true, stack, some z⟩⟩)
    (hgone : m.cell .node z = none) (body : Arg → RbProg Record Unit) (fuel : ℕ) :
    drain set body (fuel + 1) m = .fault (.freed .node) := by
  rw [drain, bind_run, setNext_freed htrav hgone]
  rfl

/-- A loop over a set that is not empty never comes to its end: the first turn frees the node on
which the traverser stands, and the second begins there. -/
theorem drain_ne_done (h : SetAt m set tree t) (hfirst : t.first = some (z, x)) {trav : Traverser}
    (htrav : m.cell .set set = some ⟨tree, trav⟩) (hinit : trav.init = false)
    {body : Arg → RbProg Record Unit}
    (hbody : ∀ trav m', body x (m.put .set set (some ⟨tree, trav⟩)) = .done m' () →
      m'.cell .set set = some ⟨tree, trav⟩ ∧ SetAt m' set tree t) (fuel : ℕ) :
    drain set body fuel m ≠ .done m' () := by
  intro hr
  cases fuel with
  | zero => cases hr
  | succ fuel =>
    rw [drain] at hr
    obtain ⟨m₁, next, hnext, hturn⟩ := Outcome.bind_eq_done hr
    obtain ⟨rfl, stack, rfl⟩ := h.setNext_done hfirst htrav hinit hnext
    obtain ⟨m₂, u, hb, hremoving⟩ := Outcome.bind_eq_done hturn
    obtain ⟨hset, hat⟩ := hbody _ _ hb
    obtain ⟨m₃, b, hremove, hfreeing⟩ := Outcome.bind_eq_done hremoving
    obtain ⟨hgone, hsets⟩ := hat.setRemove_done hfirst hremove
    obtain ⟨m₄, v, hfree, hrest⟩ := Outcome.bind_eq_done hfreeing
    have hrecords := rewrites_free _ _ _ _ _ hfree
    cases fuel with
    | zero => cases hrest
    | succ fuel =>
      have hset' : m₄.cell .set set = some ⟨tree, ⟨true, stack, some z⟩⟩ := by
        rw [hrecords.others .set (by decide), hsets, hset]
      have hgone' : m₄.cell .node z = none := by
        rw [hrecords.others .node (by decide), hgone]
      cases (drain_freed hset' hgone' body fuel).symm.trans hrest

/-- The loop over an empty set ends at once. -/
theorem drain_nil (h : SetAt m set tree .nil) {trav : Traverser}
    (htrav : m.cell .set set = some ⟨tree, trav⟩) (hinit : trav.init = false)
    (body : Arg → RbProg Record Unit) (fuel : ℕ) : drain set body (fuel + 1) m =
      .done (m.put .set set (some ⟨tree, ⟨false, [], none⟩⟩)) () := by
  rw [drain, bind_run, h.setNext_nil htrav hinit]
  rfl

/-- Only the root and the set itself are freed with an empty set. -/
theorem setDestroy_nil (h : SetAt m set tree .nil) (fuel : ℕ) :
    setDestroy (fuel + 1) set m = .done ((m.drop .node tree).drop .set set) () := by
  obtain ⟨trav, htrav⟩ := h.record
  obtain ⟨root, hroot, hleft⟩ := h.root
  have hnone : root.link .left = none := hleft
  have hset : (m.drop .node tree).cell .set set = some ⟨tree, trav⟩ := by
    rw [Heap.drop_kind (by decide), htrav]
  rw [setDestroy, bind_run, load_run htrav, Outcome.bind_done, bind_run, rbDestroy, bind_run,
    load_run hroot, Outcome.bind_done, hnone, bind_run, rbDestroyNodes, pure_run, Outcome.bind_done,
    free_run hroot, Outcome.bind_done, free_run hset]

/-- The set that is drained and destroyed, when that comes to its end, was empty. -/
theorem nil_of_drain_done (h : SetAt m set tree t) {trav : Traverser}
    (htrav : m.cell .set set = some ⟨tree, trav⟩) (hinit : trav.init = false)
    {body : Arg → RbProg Record Unit}
    (hbody : ∀ z x, t.first = some (z, x) → ∀ trav m',
      body x (m.put .set set (some ⟨tree, trav⟩)) = .done m' () →
        m'.cell .set set = some ⟨tree, trav⟩ ∧ SetAt m' set tree t) {fuel : ℕ}
    (hr : drain set body fuel m = .done m' ()) : t = .nil := by
  by_contra hne
  obtain ⟨z, x, hfirst⟩ := t.first_isSome fun hnil => hne (Tree.records_eq_nil hnil)
  exact drain_ne_done h hfirst htrav hinit (hbody z x hfirst) fuel hr

theorem setStart_run (h : SetAt m set tree t) : ∃ trav, trav.init = false ∧
    setStart set m = .done (m.put .set set (some ⟨tree, trav⟩)) () := by
  obtain ⟨trav, htrav⟩ := h.record
  refine ⟨{ trav with init := false }, rfl, ?_⟩
  rw [setStart, bind_run, load_run htrav, Outcome.bind_done, store_run htrav]

/-- The devices of the first platform: when the loop over them comes to its end there were none, and
the set of platforms is as it was. -/
theorem shutdownDevices_done {platform : Arg} {devices : List Arg}
    (hplatform : PlatformAt m set tree t platform devices) (h : SetAt m set tree t) {fuel : ℕ}
    (hr : shutdownDevices fuel platform m = .done m' ()) :
    m'.cell .set set = m.cell .set set ∧ SetAt m' set tree t := by
  obtain ⟨ds, hrecord, hds⟩ := hplatform.record
  rw [shutdownDevices, bind_run, platformDevices, bind_run, load_run hrecord,
    Outcome.bind_done] at hr
  simp only at hr
  rw [pure_run, Outcome.bind_done] at hr
  rcases hds with ⟨rfl, -⟩ | ⟨dset, dtree, dt, rfl, hdset, -, hne, hapart⟩
  · obtain ⟨rfl, -⟩ := Outcome.done.inj hr
    exact ⟨rfl, h⟩
  · obtain ⟨trav, hinit, hstart⟩ := setStart_run hdset
    have htrav : (m.put .set dset (some ⟨dtree, trav⟩)).cell .set dset = some ⟨dtree, trav⟩ :=
      Heap.put_self (h := m) (k := Kind.set) _
    have hstarted := hdset.restart trav
    simp only at hr
    rw [bind_run, hstart, Outcome.bind_done, bind_run] at hr
    obtain ⟨m₁, u, hdrain, hdestroying⟩ := Outcome.bind_eq_done hr
    obtain rfl := nil_of_drain_done hstarted htrav hinit (by
      intro z x hfirst trav' m₂ hpure
      obtain ⟨rfl, -⟩ := Outcome.done.inj hpure
      exact ⟨Heap.put_self _, hstarted.restart trav'⟩) hdrain
    cases fuel with
    | zero => cases hdrain
    | succ fuel =>
      rw [drain_nil hstarted htrav hinit] at hdrain
      obtain ⟨rfl, -⟩ := Outcome.done.inj hdrain
      have hended := hstarted.restart ⟨false, [], none⟩
      rw [bind_run, setDestroy_nil hended, Outcome.bind_done] at hdestroying
      have hstored := rewrites_store _ _ _ _ _ _ hdestroying
      have hsets : m'.cell .set set = m.cell .set set := by
        rw [hstored.others .set (by decide), Heap.drop_of_ne hne.symm, Heap.drop_kind (by decide),
          Heap.put_of_ne _ hne.symm, Heap.put_of_ne _ hne.symm]
      refine ⟨hsets, h.congr (by rw [hsets]; exact h.record) ?_ ?_⟩
      · intro a ha
        have hne' : a ≠ dtree := by
          rintro rfl
          exact hapart ha
        rw [hstored.others .node (by decide), Heap.drop_kind (by decide), Heap.drop_of_ne hne',
          Heap.put_kind _ (by decide), Heap.put_kind _ (by decide)]
      · rw [hstored.others .item (by decide), Heap.drop_kind (by decide), Heap.drop_kind (by decide),
          Heap.put_kind _ (by decide), Heap.put_kind _ (by decide)]

theorem PlatformAt.put_set {platform : Arg} {devices : List Arg}
    (h : PlatformAt m set tree t platform devices) (trav : Traverser) :
    PlatformAt (m.put .set set (some ⟨tree, trav⟩)) set tree t platform devices where
  record := by
    obtain ⟨ds, hrecord, hds⟩ := h.record
    refine ⟨ds, by rw [Heap.put_kind _ (by decide), hrecord], ?_⟩
    rcases hds with hnone | ⟨dset, dtree, dt, hds, hdset, hrecords, hne, hapart⟩
    · exact .inl hnone
    · exact .inr ⟨dset, dtree, dt, hds, hdset.put_set (fun heq => absurd heq hne.symm) trav, hrecords,
        hne, hapart⟩
  devices device hdevice := by
    rw [Heap.put_kind _ (by decide), h.devices device hdevice]

/-- With an empty set of platforms the shutdown comes to its end. -/
theorem providerShutdown_nil {provider : Arg}
    (h : m.cell .record provider = some (.provider (some set))) (hset : SetAt m set tree .nil) :
    ∃ m', providerShutdown (some provider) 1 m = .done m' () := by
  obtain ⟨trav, hinit, hstart⟩ := setStart_run hset
  have hstarted := hset.restart trav
  have htrav : (m.put .set set (some ⟨tree, trav⟩)).cell .set set = some ⟨tree, trav⟩ :=
    Heap.put_self (h := m) (k := Kind.set) _
  have hended := hstarted.restart ⟨false, [], none⟩
  have hprovider : ((((m.put .set set (some ⟨tree, trav⟩)).put .set set
      (some ⟨tree, ⟨false, [], none⟩⟩)).drop .node tree).drop .set set).cell .record provider =
        some (.provider (some set)) := by
    rw [Heap.drop_kind (by decide), Heap.drop_kind (by decide), Heap.put_kind _ (by decide),
      Heap.put_kind _ (by decide), h]
  constructor
  rw [providerShutdown, bind_run, providerPlatforms, bind_run, load_run h, Outcome.bind_done]
  simp only
  rw [pure_run, Outcome.bind_done]
  simp only
  rw [bind_run, hstart, Outcome.bind_done, bind_run, drain_nil hstarted htrav hinit,
    Outcome.bind_done, bind_run, setDestroy_nil hended, Outcome.bind_done, store_run hprovider]

end

/-- A shutdown that visits everything once has nothing to visit. -/
theorem Provides.eq_nil {m : Memory Record} {provider : Option Arg}
    {platforms : List (Arg × List Arg)} (h : Provides m provider platforms)
    (hvisits : VisitsOnce m provider platforms) : platforms = [] := by
  obtain ⟨fuel, m', hr, -⟩ := hvisits
  cases h with
  | none => rfl
  | noSet h => rfl
  | @set provider set tree t _ h hset hrecords hplatforms =>
    rw [providerShutdown, bind_run, providerPlatforms, bind_run, load_run h,
      Outcome.bind_done] at hr
    simp only at hr
    rw [pure_run, Outcome.bind_done] at hr
    obtain ⟨trav, hinit, hstart⟩ := setStart_run hset
    have htrav : (m.put .set set (some ⟨tree, trav⟩)).cell .set set = some ⟨tree, trav⟩ :=
      Heap.put_self (h := m) (k := Kind.set) _
    have hstarted := hset.restart trav
    simp only at hr
    rw [bind_run, hstart, Outcome.bind_done, bind_run] at hr
    obtain ⟨m₁, u, hdrain, -⟩ := Outcome.bind_eq_done hr
    have hnil : t = .nil := by
      apply nil_of_drain_done hstarted htrav hinit _ hdrain
      intro z x hfirst trav' m₂ hdevices
      have hmem := Tree.first_mem hfirst
      rw [hrecords] at hmem
      obtain ⟨y, hy, rfl⟩ := List.mem_map.mp hmem
      have hplatform := ((hplatforms y hy).put_set trav).put_set trav'
      obtain ⟨hset', hat⟩ := shutdownDevices_done hplatform (hstarted.restart trav') hdevices
      exact ⟨hset'.trans (Heap.put_self _), hat⟩
    rw [hnil, Tree.records] at hrecords
    exact List.map_eq_nil_iff.mp hrecords.symm

/-- A shutdown visits every platform and every device once exactly when there is no platform. -/
theorem visitsOnce_iff {m : Memory Record} {provider : Option Arg}
    {platforms : List (Arg × List Arg)} (h : Provides m provider platforms) :
    VisitsOnce m provider platforms ↔ platforms = [] := by
  constructor
  · exact h.eq_nil
  · rintro rfl
    cases h with
    | none => exact ⟨0, m, rfl, fun x hx => absurd hx List.not_mem_nil⟩
    | @noSet provider h =>
      refine ⟨0, m, ?_, fun x hx => absurd hx List.not_mem_nil⟩
      rw [providerShutdown, bind_run, providerPlatforms, bind_run, load_run h]
      rfl
    | @set provider set tree t _ h hset hrecords hplatforms =>
      obtain rfl := Tree.records_eq_nil hrecords
      obtain ⟨m', hr⟩ := providerShutdown_nil h hset
      exact ⟨1, m', hr, fun x hx => absurd hx List.not_mem_nil⟩

def nodeOf (data : Arg) (left right : Option Arg) (color : Color) : Node :=
  ⟨data, fun | .left => left | .right => right, color⟩

/-- A provider at 300 with the platforms 10, 20 and 30, the first of which has the devices 50
and 60. -/
def threePlatforms : Memory Record where
  cell
    | .node => fun a => [(101, nodeOf 0 (some 2) none .black), (1, nodeOf 21 none none .black),
        (2, nodeOf 22 (some 1) (some 3) .black), (3, nodeOf 23 none none .black),
        (201, nodeOf 0 (some 4) none .black), (4, nodeOf 24 none (some 5) .black),
        (5, nodeOf 25 none none .red)].lookup a
    | .item => fun a => [(21, ⟨10, 10⟩), (22, ⟨20, 20⟩), (23, ⟨30, 30⟩), (24, ⟨50, 50⟩),
        (25, ⟨60, 60⟩)].lookup a
    | .set => fun a => [(100, ⟨101, ⟨false, [], none⟩⟩), (200, ⟨201, ⟨false, [], none⟩⟩)].lookup a
    | .record => fun a => [(300, .provider (some 100)), (10, .platform (some 200)),
        (20, .platform none), (30, .platform none), (50, .device), (60, .device)].lookup a
  freed := []

theorem platforms_at : SetAt threePlatforms 100 101 (.node 2 .black
    (.node 1 .black .nil 21 10 .nil) 22 20 (.node 3 .black .nil 23 30 .nil)) where
  record := ⟨_, rfl⟩
  root := ⟨_, rfl, rfl, rfl, _, rfl, rfl, rfl, ⟨rfl, rfl, _, rfl, rfl, rfl, rfl, rfl⟩,
    ⟨rfl, rfl, _, rfl, rfl, rfl, rfl, rfl⟩⟩
  ordered := by decide

theorem devices_at : SetAt threePlatforms 200 201
    (.node 4 .black .nil 24 50 (.node 5 .red .nil 25 60 .nil)) where
  record := ⟨_, rfl⟩
  root := ⟨_, rfl, rfl, rfl, _, rfl, rfl, rfl, rfl, ⟨rfl, rfl, _, rfl, rfl, rfl, rfl, rfl⟩⟩
  ordered := by decide

theorem provides_threePlatforms :
    Provides threePlatforms (some 300) [(10, [50, 60]), (20, []), (30, [])] := by
  apply Provides.set rfl platforms_at rfl
  have hnone : ∀ platform, threePlatforms.cell .record platform = some (.platform none) →
      PlatformAt threePlatforms 100 101 (.node 2 .black (.node 1 .black .nil 21 10 .nil) 22 20
        (.node 3 .black .nil 23 30 .nil)) platform [] := by
    intro platform h
    exact ⟨⟨none, h, .inl ⟨rfl, rfl⟩⟩, fun _ hd => absurd hd List.not_mem_nil⟩
  simp only [List.forall_mem_cons]
  refine ⟨⟨⟨some 200, rfl, .inr ⟨200, 201, _, rfl, devices_at, rfl, by decide, by decide⟩⟩, ?_⟩,
    hnone 20 rfl, hnone 30 rfl, fun x hx => absurd hx List.not_mem_nil⟩
  simp only [List.forall_mem_cons]
  exact ⟨rfl, rfl, fun _ hd => absurd hd List.not_mem_nil⟩

theorem visitsOnce_threePlatforms :
    VisitsOnce threePlatforms (some 300) [(10, [50, 60]), (20, []), (30, [])] ↔
      [((10 : Arg), [(50 : Arg), 60]), (20, []), (30, [])] = [] :=
  visitsOnce_iff provides_threePlatforms

/-- The device 50 is freed, and the traversal goes on at its node, which is freed too. -/
theorem not_visitsOnce_threePlatforms :
    Provides threePlatforms (some 300) [(10, [50, 60]), (20, []), (30, [])] ∧
    (providerShutdown (some 300) 2 threePlatforms).fault? = some (.freed .node) ∧
    ¬ VisitsOnce threePlatforms (some 300) [(10, [50, 60]), (20, []), (30, [])] := by
  refine ⟨provides_threePlatforms, by decide, fun hvisits => ?_⟩
  cases provides_threePlatforms.eq_nil hvisits

end Clara.Shutdown
