import Clara.Agent.Store
import Clara.Agent.Phases

/-! `clGetPlatformInfo` and `clGetDeviceInfo`, from the request to the agent's answer: the look-up
of the record and the two stores to the allocations that the request names. -/
namespace Clara.Agent

open Conc

variable {t : Tid} {s s' : State} {c : Addr} {r : SetRef}

structure Visitable (t : Tid) (r : SetRef) (s : State) : Prop where
  sound : (s.sets r).damaged = false
  lock : (s.setLock r).Sound
  admits : (s.setLock r).admits t = true

theorem Visitable.putLock (h : Visitable t r s) {r' : SetRef} (hr : r ≠ r') (lk : Lock) :
    Visitable t r (s.putLock r' lk) := by
  have hlock : (s.putLock r' lk).setLock r = s.setLock r := State.putLock_setLock_of_ne _ _ _ hr
  exact ⟨h.sound, by rw [hlock]; exact h.lock, by rw [hlock]; exact h.admits⟩

/-- What is entered in a set, in the order in which it is visited. -/
def State.list (s : State) (r : SetRef) : List Addr := (s.sets r).items.map Prod.snd

theorem Visitable.visit (h : Visitable t r s) : ∃ lk,
    run t (setStart r) s = .done (s.putLock r lk) (s.list r) ∧
      ∀ s' : State, s'.setLock r = s.setLock r →
        run t (setFinish r) (s'.putLock r lk) = .done s' () := by
  obtain ⟨lk, hwait⟩ := Lock.exists_wait_of_admits h.admits
  refine ⟨lk, ?_, ?_⟩
  · rw [setStart, perform, run, Prog.run_perform, exec, hwait]
    simp [IdSet.setList, h.sound, ofSet, State.list]
  · intro s' hs'
    have hown : (s'.putLock r lk).setLock r = lk := Function.update_self ..
    have hback : (s'.putLock r lk).putLock r (s.setLock r) = s' := by
      rw [← hs', State.putLock, State.putLock, Function.update_idem, Function.update_eq_self]
    rw [setFinish, perform, run, Prog.run_perform, exec, hown, Lock.post_wait h.lock hwait]
    exact congrArg (Outcome.done · ()) hback

/-- A set between two visits of the thread, during which the rest of the state may change. -/
theorem Visitable.run_visit_to (h : Visitable t r s) {α β : Type} {p : List Addr → AProg α}
    {f : α → AProg β} {x : α} (hlock : s'.setLock r = s.setLock r)
    (hp : ∀ lk, run t (p (s.list r)) (s.putLock r lk) = .done (s'.putLock r lk) x) :
    run t (do
      let l ← setStart r
      let x ← p l
      setFinish r
      f x) s = run t (f x) s' := by
  obtain ⟨lk, hstart, hfinish⟩ := h.visit
  rw [run_bind, hstart, Outcome.bind_done, run_bind, hp lk, Outcome.bind_done, run_bind,
    hfinish s' hlock, Outcome.bind_done]

theorem Visitable.run_visit (h : Visitable t r s) {α β : Type} {p : List Addr → AProg α}
    {f : α → AProg β} {x : α} (hp : ∀ lk, run t (p (s.list r)) (s.putLock r lk) =
      .done (s.putLock r lk) x) :
    run t (do
      let l ← setStart r
      let x ← p l
      setFinish r
      f x) s = run t (f x) s :=
  h.run_visit_to rfl hp

structure AtRest (r : SetRef) (s : State) : Prop where
  sound : (s.sets r).damaged = false
  unlocked : s.setLock r = .free

theorem AtRest.visitable (h : AtRest r s) (t : Tid) : Visitable t r s where
  sound := h.sound
  lock := by
    rw [h.unlocked]
    exact Lock.sound_free
  admits := by
    rw [h.unlocked]
    rfl

/-- The records on the way to every platform and device are there, and the locks of the sets let
the thread in. -/
structure Searchable (t : Tid) (s : State) : Prop where
  providers : Visitable t .providers s
  platforms : ∀ p ∈ s.list .providers, Visitable t (.platforms p) s
  platform : ∀ p ∈ s.list .providers, ∀ a ∈ s.list (.platforms p), (s.heap .platform a).isSome
  devices : ∀ p ∈ s.list .providers, ∀ a ∈ s.list (.platforms p), Visitable t (.devices a) s
  device : ∀ p ∈ s.list .providers, ∀ a ∈ s.list (.platforms p), ∀ d ∈ s.list (.devices a),
    (s.heap .device d).isSome

/-- The records on the way to every platform and device are there, and nobody visits the sets. -/
structure Browsable (s : State) : Prop where
  providers : AtRest .providers s
  platforms : ∀ p ∈ s.list .providers, AtRest (.platforms p) s
  platform : ∀ p ∈ s.list .providers, ∀ a ∈ s.list (.platforms p), (s.heap .platform a).isSome
  devices : ∀ p ∈ s.list .providers, ∀ a ∈ s.list (.platforms p), AtRest (.devices a) s
  device : ∀ p ∈ s.list .providers, ∀ a ∈ s.list (.platforms p), ∀ d ∈ s.list (.devices a),
    (s.heap .device d).isSome

theorem Browsable.searchable (h : Browsable s) (t : Tid) : Searchable t s where
  providers := h.providers.visitable t
  platforms p hp := (h.platforms p hp).visitable t
  platform := h.platform
  devices p hp a ha := (h.devices p hp a ha).visitable t
  device := h.device

/-- The platform has the global id. -/
def State.platformHas (s : State) (id : GlobalId) (a : Addr) : Bool :=
  (s.heap .platform a).any fun pf => pf.globalId == id

/-- The device has the global id. -/
def State.deviceHas (s : State) (id : GlobalId) (d : Addr) : Bool :=
  (s.heap .device d).any fun dv => dv.globalId == id

/-- The platforms of the providers, in the order in which they are visited. -/
def State.platformsOf (s : State) (providers : List Addr) : List Addr :=
  providers.flatMap fun p => s.list (.platforms p)

/-- The devices of the platforms, in the order in which they are visited. -/
def State.devicesOf (s : State) (platforms : List Addr) : List Addr :=
  platforms.flatMap fun a => s.list (.devices a)

def State.platformAt (s : State) (id : GlobalId) : Option Addr :=
  (s.platformsOf (s.list .providers)).find? (s.platformHas id)

def State.deviceAt (s : State) (id : GlobalId) : Option Addr :=
  (s.devicesOf (s.platformsOf (s.list .providers))).find? (s.deviceHas id)

section
variable {id : GlobalId} {a : Addr} {l : List Addr}

theorem run_findFirst_platform (id : GlobalId) (hrec : ∀ a ∈ l, (s.heap .platform a).isSome) :
    run t (findFirst (fun a => do
      let pf ← read .platform a
      pure (pf.globalId == id)) l) s = .done s (l.find? (s.platformHas id)) := by
  apply run_findFirst
  intro a ha
  obtain ⟨pf, hpf⟩ := Option.isSome_iff_exists.mp (hrec a ha)
  rw [run_bind, run_read hpf, Outcome.bind_done, State.platformHas, hpf]
  rfl

theorem run_findFirst_device (id : GlobalId) (hrec : ∀ d ∈ l, (s.heap .device d).isSome) :
    run t (findFirst (fun d => do
      let dv ← read .device d
      pure (dv.globalId == id)) l) s = .done s (l.find? (s.deviceHas id)) := by
  apply run_findFirst
  intro d hd
  obtain ⟨dv, hdv⟩ := Option.isSome_iff_exists.mp (hrec d hd)
  rw [run_bind, run_read hdv, Outcome.bind_done, State.deviceHas, hdv]
  rfl

theorem run_findPlatform (id : GlobalId) (hset : ∀ p ∈ l, Visitable t (.platforms p) s)
    (hrec : ∀ p ∈ l, ∀ a ∈ s.list (.platforms p), (s.heap .platform a).isSome) :
    run t (findPlatform id none l) s =
      .done s ((s.platformsOf l).find? (s.platformHas id)) := by
  induction l with
  | nil => rfl
  | cons p l ih =>
    have hrest := ih (fun q hq => hset q (List.mem_cons_of_mem _ hq))
      fun q hq => hrec q (List.mem_cons_of_mem _ hq)
    have hfind : ∀ lk, run t (findFirst (fun a => do
        let pf ← read .platform a
        pure (pf.globalId == id)) (s.list (.platforms p))) (s.putLock (.platforms p) lk) =
          .done (s.putLock (.platforms p) lk)
            ((s.list (.platforms p)).find? (s.platformHas id)) := fun lk =>
      run_findFirst_platform (s := s.putLock (.platforms p) lk) id (hrec p List.mem_cons_self)
    have hcons : s.platformsOf (p :: l) = s.list (.platforms p) ++ s.platformsOf l :=
      List.flatMap_cons
    rw [findPlatform, (hset p List.mem_cons_self).run_visit hfind, hcons, List.find?_append]
    cases (s.list (.platforms p)).find? (s.platformHas id) with
    | some a => rfl
    | none => exact hrest

theorem run_findDevice (id : GlobalId) (hset : ∀ a ∈ l, Visitable t (.devices a) s)
    (hrec : ∀ a ∈ l, ∀ d ∈ s.list (.devices a), (s.heap .device d).isSome) :
    run t (findDevice id l) s = .done s ((s.devicesOf l).find? (s.deviceHas id)) := by
  induction l with
  | nil => rfl
  | cons a l ih =>
    have hrest := ih (fun b hb => hset b (List.mem_cons_of_mem _ hb))
      fun b hb => hrec b (List.mem_cons_of_mem _ hb)
    have hfind : ∀ lk, run t (findFirst (fun d => do
        let dv ← read .device d
        pure (dv.globalId == id)) (s.list (.devices a))) (s.putLock (.devices a) lk) =
          .done (s.putLock (.devices a) lk)
            ((s.list (.devices a)).find? (s.deviceHas id)) := fun lk =>
      run_findFirst_device (s := s.putLock (.devices a) lk) id (hrec a List.mem_cons_self)
    have hcons : s.devicesOf (a :: l) = s.list (.devices a) ++ s.devicesOf l := List.flatMap_cons
    rw [findDevice, (hset a List.mem_cons_self).run_visit hfind, hcons, List.find?_append]
    cases (s.list (.devices a)).find? (s.deviceHas id) with
    | some d => rfl
    | none => exact hrest

theorem run_findDeviceOf (id : GlobalId) (hplatforms : ∀ p ∈ l, Visitable t (.platforms p) s)
    (hset : ∀ p ∈ l, ∀ a ∈ s.list (.platforms p), Visitable t (.devices a) s)
    (hrec : ∀ p ∈ l, ∀ a ∈ s.list (.platforms p), ∀ d ∈ s.list (.devices a),
      (s.heap .device d).isSome) :
    run t (findDeviceOf id l) s =
      .done s ((s.devicesOf (s.platformsOf l)).find? (s.deviceHas id)) := by
  induction l with
  | nil => rfl
  | cons p l ih =>
    have hrest := ih (fun q hq => hplatforms q (List.mem_cons_of_mem _ hq))
      (fun q hq => hset q (List.mem_cons_of_mem _ hq))
      fun q hq => hrec q (List.mem_cons_of_mem _ hq)
    have hfind : ∀ lk, run t (findDevice id (s.list (.platforms p))) (s.putLock (.platforms p) lk) =
        .done (s.putLock (.platforms p) lk)
          ((s.devicesOf (s.list (.platforms p))).find? (s.deviceHas id)) := fun lk =>
      run_findDevice (s := s.putLock (.platforms p) lk) id
        (fun a ha => (hset p List.mem_cons_self a ha).putLock (by nofun) _)
        (hrec p List.mem_cons_self)
    have hcons : s.devicesOf (s.platformsOf (p :: l)) =
        s.devicesOf (s.list (.platforms p)) ++ s.devicesOf (s.platformsOf l) :=
      List.flatMap_append
    rw [findDeviceOf, (hplatforms p List.mem_cons_self).run_visit hfind, hcons,
      List.find?_append]
    cases (s.devicesOf (s.list (.platforms p))).find? (s.deviceHas id) with
    | some d => rfl
    | none => exact hrest

/-- The look-up of a platform among those of the providers. -/
theorem Searchable.run_agentFindPlatformByGlobalId (h : Searchable t s)
    (hne : s.list .providers ≠ []) (id : GlobalId) :
    run t (agentFindPlatformByGlobalId id) s = .done s (s.platformAt id) := by
  obtain ⟨lk, hstart, hfinish⟩ := h.providers.visit
  have hfind := run_findPlatform (t := t) (s := s.putLock .providers lk) id
    (fun p hp => (h.platforms p hp).putLock (by nofun) _) h.platform
  rw [agentFindPlatformByGlobalId, run_bind, hstart, Outcome.bind_done, if_neg hne, run_bind,
    hfind, Outcome.bind_done, run_bind, hfinish s rfl, Outcome.bind_done]
  rfl

/-- Without providers the variable that is returned has not been set. -/
theorem Searchable.run_agentFindPlatformByGlobalId_nil (h : Searchable t s)
    (hnil : s.list .providers = []) (id : GlobalId) :
    run t (agentFindPlatformByGlobalId id) s = .fault .uninitialised := by
  obtain ⟨lk, hstart, hfinish⟩ := h.providers.visit
  rw [agentFindPlatformByGlobalId, run_bind, hstart, Outcome.bind_done, if_pos hnil, run_bind,
    hfinish s rfl, Outcome.bind_done]
  rfl

theorem Searchable.run_agentFindDeviceByGlobalId (h : Searchable t s) (id : GlobalId) :
    run t (agentFindDeviceByGlobalId id) s = .done s (s.deviceAt id) := by
  have hfind : ∀ lk, run t (findDeviceOf id (s.list .providers)) (s.putLock .providers lk) =
      .done (s.putLock .providers lk) (s.deviceAt id) := fun lk =>
    run_findDeviceOf id (fun p hp => (h.platforms p hp).putLock (by nofun) _)
      (fun p hp a ha => (h.devices p hp a ha).putLock (by nofun) _) h.device
  rw [agentFindDeviceByGlobalId, h.providers.run_visit hfind]
  rfl

theorem State.providers_ne_nil (ha : s.platformAt id = some a) : s.list .providers ≠ [] := by
  intro hnil
  rw [State.platformAt, hnil] at ha
  cases ha

theorem Browsable.run_agentFindPlatformByGlobalId (h : Browsable s)
    (ha : s.platformAt id = some a) :
    run t (agentFindPlatformByGlobalId id) s = .done s (some a) := by
  rw [(h.searchable t).run_agentFindPlatformByGlobalId (State.providers_ne_nil ha), ha]

theorem Browsable.run_agentFindDeviceByGlobalId (h : Browsable s) (id : GlobalId) :
    run t (agentFindDeviceByGlobalId id) s = .done s (s.deviceAt id) :=
  (h.searchable t).run_agentFindDeviceByGlobalId id

end

/-- A pointer that a handler gets: `NULL`, or to at least `n` bytes. -/
def State.CanPoke (s : State) (n : ℕ) (ptr : Arg) : Prop :=
  ptr ≠ 0 → ∃ b, s.heap .buffer ptr.toNat = some b ∧ n ≤ b.length

/-- The first bytes behind a pointer that is not `NULL` have been overwritten. -/
def State.poked (s : State) (ptr : Arg) (v : Bytes) : State :=
  if ptr = 0 then s
  else s.put .buffer ptr.toNat
    ((s.heap .buffer ptr.toNat).map fun b => v ++ b.drop v.length)

section
variable {ptr : Arg} {v : Bytes}

theorem State.poked_null (h : ptr = 0) : s.poked ptr v = s := by
  rw [State.poked, if_pos h]

theorem run_poke_start (h : s.CanPoke v.length ptr) (hne : ptr ≠ 0) :
    run t (poke ptr 0 v) s = .done (s.poked ptr v) () := by
  obtain ⟨b, hb, hlen⟩ := h hne
  have hstore : Kind.buffer.store (0, v) b = v ++ b.drop v.length := by
    show b.take 0 ++ v ++ b.drop (0 + v.length) = v ++ b.drop v.length
    rw [List.take_zero, List.nil_append, Nat.zero_add]
  rw [poke, run_bind, run_read hb, Outcome.bind_done, if_pos (by omega), run_store hb, hstore,
    State.poked, if_neg hne, hb]
  rfl

theorem State.poked_heap_of_ne {k : Kind} {a : Addr} (h : k ≠ .buffer ∨ a ≠ ptr.toNat) :
    (s.poked ptr v).heap k a = s.heap k a := by
  rw [State.poked]
  split_ifs with hptr
  · rfl
  · by_cases hk : k = .buffer
    · subst hk
      exact State.put_heap_of_ne s _ (h.resolve_left (not_not.mpr rfl))
    · rw [State.put_heap_kind _ _ _ hk]

@[simp] theorem State.poked_sets : (s.poked ptr v).sets = s.sets := by
  rw [State.poked]
  split_ifs <;> rfl

theorem State.poked_buffer {b : Bytes} (hb : s.heap .buffer ptr.toNat = some b) (h : ptr ≠ 0) :
    (s.poked ptr v).heap .buffer ptr.toNat = some (v ++ b.drop v.length) := by
  rw [State.poked, if_neg h, State.put_heap_self, hb]
  rfl

theorem run_pokeSize (n : ℕ) (h : s.CanPoke 8 ptr) :
    run t (pokeSize ptr n) s = .done (s.poked ptr (Bytes.ofNat 8 n)) () := by
  have hlen : (Bytes.ofNat 8 n).length = 8 := Bytes.length_ofNat 8 n
  rw [pokeSize, run_ite]
  split_ifs with hptr
  · rw [State.poked_null hptr]
    rfl
  · exact run_poke_start (by rwa [hlen]) hptr

end

/-- The end of both handlers: the size and the value are stored where the arguments point. -/
theorem run_answer {params : ExecuteRequest} {v : Bytes} (h5 : s.CanPoke 8 (params.argv 5))
    (h4 : s.CanPoke v.length (params.argv 4))
    (hne : params.argv 4 ≠ 0 → (params.argv 4).toNat ≠ (params.argv 5).toNat)
    (hsize : params.argv 4 ≠ 0 → v.length ≤ (params.argv 3).toNat) :
    run t (do
      pokeSize (params.argv 5) v.length
      if params.argv 4 = 0 then pure params
      else if (params.argv 3).toNat < v.length then
        pure (params.setArg 0 clInvalidValue)
      else
        poke (params.argv 4) 0 v
        pure params) s =
      .done ((s.poked (params.argv 5) (Bytes.ofNat 8 v.length)).poked (params.argv 4) v)
        params := by
  rw [run_bind, run_pokeSize _ h5, Outcome.bind_done, run_ite]
  by_cases hnull : params.argv 4 = 0
  · rw [if_pos hnull, State.poked_null hnull]
    rfl
  · have hpoke : (s.poked (params.argv 5) (Bytes.ofNat 8 v.length)).CanPoke v.length
        (params.argv 4) := by
      intro _
      obtain ⟨b, hb, hlen⟩ := h4 hnull
      exact ⟨b, by rw [State.poked_heap_of_ne (.inr (hne hnull)), hb], hlen⟩
    have hlt : ¬ (params.argv 3).toNat < v.length := not_lt.mpr (hsize hnull)
    rw [if_neg hnull, if_neg hlt, run_bind, run_poke_start hpoke hnull]
    rfl

/-- The arguments after the loop of `clara_execute`. -/
def translated (f : Arg → Arg) (ptrargs : List ℕ) (i n : ℕ) (params : ExecuteRequest) :
    ExecuteRequest :=
  { params with
    argv := fun j => if (i ≤ j ∧ j < i + n) ∧ params.argv j ≠ 0 ∧ j ∈ ptrargs then
      f (params.argv j) else params.argv j }

theorem run_translateArgs {idMap : GlobalId → AProg Arg} {f : Arg → Arg} {ptrargs : List ℕ}
    {i n : ℕ} {params : ExecuteRequest}
    (h : ∀ j, i ≤ j → j < i + n → params.argv j ≠ 0 ∧ j ∈ ptrargs →
      run t (idMap (params.argv j)) s = .done s (f (params.argv j))) :
    run t (translateArgs idMap ptrargs i n params) s =
      .done s (translated f ptrargs i n params) := by
  induction n generalizing i params with
  | zero =>
    have hnone : ∀ j, ¬ ((i ≤ j ∧ j < i + 0) ∧ params.argv j ≠ 0 ∧ j ∈ ptrargs) := by
      intro j hj
      omega
    simp only [translated, hnone, if_false]
    rfl
  | succ n ih =>
    rw [translateArgs, run_ite]
    split_ifs with hi
    · have hafter : ∀ j, i + 1 ≤ j →
          (params.setArg i (f (params.argv i))).argv j = params.argv j := by
        intro j hj
        exact Function.update_of_ne (by omega) _ _
      have hrest : run t (translateArgs idMap ptrargs (i + 1) n
          (params.setArg i (f (params.argv i)))) s =
            .done s (translated f ptrargs (i + 1) n (params.setArg i (f (params.argv i)))) := by
        apply ih
        intro j hle hlt hj
        rw [hafter j hle] at hj ⊢
        exact h j (by omega) (by omega) hj
      rw [run_bind, h i le_rfl (by omega) hi, Outcome.bind_done, hrest]
      congr 1
      rw [translated, translated, ExecuteRequest.setArg]
      congr 1
      funext j
      rcases lt_trichotomy j i with hj | rfl | hj
      · have hne : j ≠ i := hj.ne
        have hlt : ¬ (i + 1 ≤ j) := by omega
        have hlt' : ¬ (i ≤ j) := by omega
        simp [hlt, hlt', Function.update_of_ne hne]
      · simp [hi.1, hi.2]
      · have hne : j ≠ i := hj.ne'
        have hle : i + 1 ≤ j ∧ j < i + 1 + n ↔ i ≤ j ∧ j < i + (n + 1) := by omega
        simp only [Function.update_of_ne hne, hle]
    · have hrest : run t (translateArgs idMap ptrargs (i + 1) n params) s =
          .done s (translated f ptrargs (i + 1) n params) :=
        ih fun j hle hlt hj => h j (by omega) (by omega) hj
      rw [hrest]
      congr 1
      rw [translated, translated]
      congr 1
      funext j
      rcases eq_or_ne j i with rfl | hj
      · rw [if_neg (by omega), if_neg (fun hj => hi hj.2)]
      · have hle : i + 1 ≤ j ∧ j < i + 1 + n ↔ i ≤ j ∧ j < i + (n + 1) := by omega
        simp only [hle]

def State.pointer (s : State) (c : Addr) (handle : Handle) : Arg :=
  (((s.sets (.allocations c)).lookup handle).bind (s.heap .allocation)).elim 0 fun a =>
    ptr2Arg a.ptr

theorem State.Stores.pointer {handle : Handle} {a ptr : Addr} {b : Bytes}
    (h : s.Stores c handle a ptr b) : s.pointer c handle = ptr2Arg (some ptr) := by
  obtain ⟨nmemb, size, hrecord, -⟩ := h.record
  rw [State.pointer, h.entry, Option.bind_some, hrecord]
  rfl

theorem State.Stores.unique {handle : Handle} {a a' ptr ptr' : Addr} {b b' : Bytes}
    (h : s.Stores c handle a ptr b) (h' : s.Stores c handle a' ptr' b') :
    a = a' ∧ ptr = ptr' ∧ b = b' := by
  obtain ⟨nmemb, size, hrecord, -⟩ := h.record
  obtain ⟨nmemb', size', hrecord', -⟩ := h'.record
  have ha : a = a' := Option.some.inj (h.entry.symm.trans h'.entry)
  subst ha
  have hptr : ptr = ptr' := by
    have heq := Option.some.inj (hrecord.symm.trans hrecord')
    exact Option.some.inj (congrArg Allocation.ptr heq)
  subst hptr
  exact ⟨rfl, rfl, Option.some.inj (h.block.symm.trans h'.block)⟩

theorem State.Stores.of_block {handle : Handle} {a ptr : Addr} {b b' : Bytes}
    (h : s.Stores c handle a ptr b) (hsets : s'.sets = s.sets)
    (hrecord : s'.heap .allocation a = s.heap .allocation a) (hlen : b'.length = b.length)
    (hblock : s'.heap .buffer ptr = some b') : s'.Stores c handle a ptr b' where
  entry := by rw [hsets, h.entry]
  record := by
    obtain ⟨nmemb, size, hr, hl⟩ := h.record
    exact ⟨nmemb, size, by rw [hrecord, hr], by rw [hlen, hl]⟩
  block := hblock

theorem Keeps.run_agentIdMap (hk : Keeps c s) {handle : Handle} {a ptr : Addr} {b : Bytes}
    (h : s.Stores c handle a ptr b) :
    run t (agentIdMap c handle) s = .done s (s.pointer c handle) := by
  obtain ⟨nmemb, size, hrecord, -⟩ := h.record
  rw [agentIdMap, run_bind, hk.run_claraFindAllocation, h.entry, Outcome.bind_done]
  show run t (read .allocation a >>= fun al => pure (ptr2Arg al.ptr)) s = _
  rw [run_bind, run_read hrecord, Outcome.bind_done, h.pointer]
  rfl

/-- A pointer argument of a request: `NULL`, or an allocation of the consumer that has room. -/
def State.Accepts (s : State) (c : Addr) (n : ℕ) (handle : Handle) : Prop :=
  handle ≠ 0 → ∃ a ptr b, s.Stores c handle a ptr b ∧ 0 < ptr ∧ ptr < 2 ^ 64 ∧ n ≤ b.length

/-- A request about a platform or a device, as the consumer's library sends it: it has no hint, and
the value of `n` bytes and its size go to two allocations that have room, or to neither. -/
structure Asks (s : State) (c : Addr) (params : ExecuteRequest) (n : ℕ) : Prop where
  hint : params.hint = invalidHandle
  value : s.Accepts c n (params.argv 4)
  size : s.Accepts c 8 (params.argv 5)
  room : params.argv 4 ≠ 0 → n ≤ (params.argv 3).toNat
  apart : ∀ a a' ptr b b', s.Stores c (params.argv 4) a ptr b →
    ¬ s.Stores c (params.argv 5) a' ptr b'

/-- The allocations hold the value and its size. -/
structure Answered (s s' : State) (c : Addr) (params : ExecuteRequest) (v : Bytes) : Prop where
  value : params.argv 4 ≠ 0 → ∀ a ptr b, s.Stores c (params.argv 4) a ptr b →
    s'.Stores c (params.argv 4) a ptr (v ++ b.drop v.length)
  size : params.argv 5 ≠ 0 → ∀ a ptr b, s.Stores c (params.argv 5) a ptr b →
    s'.Stores c (params.argv 5) a ptr (Bytes.ofNat 8 v.length ++ b.drop 8)

/-- Two allocations that a request points to: they have room for `n` and for `m` bytes, and are not
the same one. A pointer may also be `NULL`. -/
structure Points (s : State) (c : Addr) (params : ExecuteRequest) (n m : ℕ) : Prop where
  value : s.Accepts c n (params.argv 4)
  size : s.Accepts c m (params.argv 5)
  apart : ∀ a a' ptr b b', s.Stores c (params.argv 4) a ptr b →
    ¬ s.Stores c (params.argv 5) a' ptr b'

theorem Asks.points {params : ExecuteRequest} {n : ℕ} (h : Asks s c params n) :
    Points s c params n 8 :=
  ⟨h.value, h.size, h.apart⟩

def pointers (s : State) (c : Addr) (params : ExecuteRequest) : ExecuteRequest :=
  translated (s.pointer c) [4, 5] 1 5 (params.setArg 0 0)

namespace State.Accepts
variable {n : ℕ} {handle : Handle}

/-- The address of an allocation fits into an argument, and is not `NULL`. -/
theorem pointer (h : s.Accepts c n handle) (hne : handle ≠ 0) : ∃ a ptr b,
    s.Stores c handle a ptr b ∧ s.pointer c handle ≠ 0 ∧ (s.pointer c handle).toNat = ptr ∧
      n ≤ b.length := by
  obtain ⟨a, ptr, b, hs, hpos, hlt, hlen⟩ := h hne
  have haddr : (s.pointer c handle).toNat = ptr := by
    rw [hs.pointer, ptr2Arg, UInt64.toNat_ofNat', Nat.mod_eq_of_lt hlt]
  refine ⟨a, ptr, b, hs, fun hzero => ?_, haddr, hlen⟩
  rw [hzero] at haddr
  exact hpos.ne haddr

theorem canPoke (h : s.Accepts c n handle) :
    s.CanPoke n (if handle ≠ 0 then s.pointer c handle else handle) := by
  by_cases hne : handle ≠ 0
  · obtain ⟨a, ptr, b, hs, -, haddr, hlen⟩ := h.pointer hne
    rw [if_pos hne]
    intro _
    exact ⟨b, by rw [haddr, hs.block], hlen⟩
  · rw [if_neg hne]
    exact fun h => absurd h hne

end State.Accepts

namespace Asks
variable {params : ExecuteRequest} {n : ℕ}

theorem pointers_other {i : ℕ} (h0 : i ≠ 0) (h4 : i ≠ 4) (h5 : i ≠ 5) :
    (pointers s c params).argv i = params.argv i := by
  simp [pointers, translated, h4, h5, ExecuteRequest.setArg, Function.update_of_ne h0]

theorem pointers_four : (pointers s c params).argv 4 =
    if params.argv 4 ≠ 0 then s.pointer c (params.argv 4) else params.argv 4 := by
  simp [pointers, translated, ExecuteRequest.setArg]

theorem pointers_five : (pointers s c params).argv 5 =
    if params.argv 5 ≠ 0 then s.pointer c (params.argv 5) else params.argv 5 := by
  simp [pointers, translated, ExecuteRequest.setArg]

theorem pointers_zero : (pointers s c params).argv 0 = 0 := by
  simp [pointers, translated, ExecuteRequest.setArg]

end Asks

namespace Points
variable {params : ExecuteRequest} {n m : ℕ}

theorem run_translate (h : Points s c params n m) (hk : Keeps c s) :
    run t (translateArgs (agentIdMap c) [4, 5] 1 5 (params.setArg 0 0)) s =
      .done s (pointers s c params) := by
  apply run_translateArgs
  intro j hle hlt hj
  have hsame : (params.setArg 0 0).argv j = params.argv j := Function.update_of_ne (by omega) _ _
  have hcase : j = 4 ∨ j = 5 := by simpa using hj.2
  rw [hsame] at hj ⊢
  rcases hcase with rfl | rfl
  · obtain ⟨a, ptr, b, hs, -⟩ := h.value hj.1
    exact hk.run_agentIdMap hs
  · obtain ⟨a, ptr, b, hs, -⟩ := h.size hj.1
    exact hk.run_agentIdMap hs

theorem canPoke_four (h : Points s c params n m) :
    s.CanPoke n ((pointers s c params).argv 4) := by
  rw [Asks.pointers_four]
  exact h.value.canPoke

theorem canPoke_five (h : Points s c params n m) :
    s.CanPoke m ((pointers s c params).argv 5) := by
  rw [Asks.pointers_five]
  exact h.size.canPoke

/-- The stores of the answer are to two different blocks. -/
theorem pointers_ne (h : Points s c params n m) (h4 : (pointers s c params).argv 4 ≠ 0) :
    ((pointers s c params).argv 4).toNat ≠ ((pointers s c params).argv 5).toNat := by
  rw [Asks.pointers_four] at h4 ⊢
  rw [Asks.pointers_five]
  by_cases hv : params.argv 4 ≠ 0
  · rw [if_pos hv] at h4 ⊢
    obtain ⟨a, ptr, b, hs, hne, haddr, -⟩ := h.value.pointer hv
    by_cases hz : params.argv 5 ≠ 0
    · obtain ⟨a', ptr', b', hs', -, haddr', -⟩ := h.size.pointer hz
      rw [if_pos hz, haddr, haddr']
      rintro rfl
      exact h.apart a a' ptr b b' hs hs'
    · rw [if_neg hz, not_not.mp hz]
      intro heq
      exact hne (UInt64.toNat_inj.mp heq)
  · rw [if_neg hv] at h4
    exact absurd h4 hv

section
variable {v w : Bytes}

private theorem heap_stored (a : Addr) : ((s.poked ((pointers s c params).argv 5) w).poked
    ((pointers s c params).argv 4) v).heap .allocation a = s.heap .allocation a := by
  rw [State.poked_heap_of_ne (.inl (by decide)), State.poked_heap_of_ne (.inl (by decide))]

theorem stores_four (h : Points s c params n m) (hn : v.length ≤ n) (hv : params.argv 4 ≠ 0)
    {a ptr : Addr} {b : Bytes} (hs : s.Stores c (params.argv 4) a ptr b) :
    ((s.poked ((pointers s c params).argv 5) w).poked ((pointers s c params).argv 4) v).Stores c
      (params.argv 4) a ptr (v ++ b.drop v.length) := by
  obtain ⟨a', ptr', b', hs', hne, haddr, hlen⟩ := h.value.pointer hv
  obtain ⟨rfl, rfl, rfl⟩ := hs.unique hs'
  have h4 : (pointers s c params).argv 4 = s.pointer c (params.argv 4) := by
    rw [Asks.pointers_four, if_pos hv]
  have hapart := h.pointers_ne (by rwa [h4])
  rw [← h4] at hne haddr
  have hblock : (s.poked ((pointers s c params).argv 5) w).heap .buffer
      ((pointers s c params).argv 4).toNat = some b := by
    rw [State.poked_heap_of_ne (.inr hapart), haddr, hs.block]
  refine hs.of_block (by simp) (heap_stored a) ?_ ?_
  · rw [List.length_append, List.length_drop]
    omega
  · rw [← haddr]
    exact State.poked_buffer hblock hne

/-- What the two stores leave in the other allocation. -/
theorem stores_five (h : Points s c params n m) (hm : w.length ≤ m) (hz : params.argv 5 ≠ 0)
    {a ptr : Addr} {b : Bytes} (hs : s.Stores c (params.argv 5) a ptr b) :
    ((s.poked ((pointers s c params).argv 5) w).poked ((pointers s c params).argv 4) v).Stores c
      (params.argv 5) a ptr (w ++ b.drop w.length) := by
  obtain ⟨a', ptr', b', hs', hne, haddr, hlen⟩ := h.size.pointer hz
  obtain ⟨rfl, rfl, rfl⟩ := hs.unique hs'
  have h5 : (pointers s c params).argv 5 = s.pointer c (params.argv 5) := by
    rw [Asks.pointers_five, if_pos hz]
  rw [← h5] at hne haddr
  have hblock : (s.poked ((pointers s c params).argv 5) w).heap .buffer ptr =
      some (w ++ b.drop w.length) := by
    have hb : s.heap .buffer ((pointers s c params).argv 5).toNat = some b := by
      rw [haddr, hs.block]
    rw [← haddr, State.poked_buffer hb hne]
  refine hs.of_block (by simp) (heap_stored a) ?_ ?_
  · rw [List.length_append, List.length_drop]
    omega
  · by_cases h4 : (pointers s c params).argv 4 = 0
    · rw [State.poked_null h4, hblock]
    · have hapart := h.pointers_ne h4
      rw [haddr] at hapart
      rw [State.poked_heap_of_ne (.inr hapart.symm), hblock]

end

end Points

namespace Asks
variable {params : ExecuteRequest} {n : ℕ}

theorem room_pointers (h : Asks s c params n) (h4 : (pointers s c params).argv 4 ≠ 0) :
    n ≤ ((pointers s c params).argv 3).toNat := by
  have hne : params.argv 4 ≠ 0 := by
    intro hzero
    rw [pointers_four, hzero] at h4
    exact h4 rfl
  rw [pointers_other (by decide) (by decide) (by decide)]
  exact h.room hne

/-- What the two stores leave in the allocations. -/
theorem answered {v : Bytes} (h : Asks s c params v.length) :
    Answered s ((s.poked ((pointers s c params).argv 5) (Bytes.ofNat 8 v.length)).poked
      ((pointers s c params).argv 4) v) c params v := by
  have hsize : (Bytes.ofNat 8 v.length).length = 8 := Bytes.length_ofNat 8 _
  constructor
  · intro hv a ptr b hs
    exact h.points.stores_four le_rfl hv hs
  · intro hz a ptr b hs
    have hstores := h.points.stores_five (v := v) hsize.le hz hs
    rwa [hsize] at hstores

end Asks

section
variable {lzo : Lzo} {fuel : ℕ} {params : ExecuteRequest} {v : Bytes}

theorem Points.run_claraExecute (lzo : Lzo) (fuel : ℕ) {n m : ℕ} (h : Points s c params n m)
    (hk : Keeps c s) {d : ClFunction} (hd : ClFunction.ofArg params.func = some (d, 5))
    {pfn : Handler} (hf : postExecFunTable lzo fuel d = some (pfn, [4, 5])) :
    run t (claraExecute (postExecFunTable lzo fuel) (agentIdMap c) params 0 none c) s =
      (run t (pfn (pointers s c params) none c) s).bind fun s' p => .done s' (p, p.argv 0) := by
  rw [claraExecute, hd]
  simp only [hf]
  rw [run_bind, h.run_translate hk, Outcome.bind_done, run_bind]
  rfl

/-- A request without a hint or a first phase is left to the second. -/
theorem run_agentExecute_here (lzo : Lzo) (fuel : ℕ) (hhint : params.hint = invalidHandle)
    {d : ClFunction} (hd : ClFunction.ofArg params.func = some (d, 5))
    (hpre : preExecFunTable d = none) :
    run t (agentExecute lzo fuel params c) s =
      (run t (claraExecute (postExecFunTable lzo fuel) (agentIdMap c) params 0 none c) s).bind
        fun s' r => .done s' r.2 := by
  have hfirst : claraExecute preExecFunTable (agentIdMap c) params 0 none c = pure (params, 0) := by
    rw [claraExecute_none _ _ _ _ hd hpre]
  rw [agentExecute, executeOwner, if_neg (not_not.mpr hhint), run_bind]
  show run t (claraExecute preExecFunTable (agentIdMap c) params 0 none c >>= _) s = _
  rw [hfirst]
  show run t (claraExecute (postExecFunTable lzo fuel) (agentIdMap c) params 0 none c >>= _) s = _
  rw [run_bind]
  rfl

/-- The second phase of a request whose handler stores a value through the pointers. -/
theorem Asks.run_claraExecute (lzo : Lzo) (fuel : ℕ) (h : Asks s c params v.length)
    (hk : Keeps c s) {d : ClFunction}
    (hd : ClFunction.ofArg params.func = some (d, 5)) {pfn : Handler}
    (hf : postExecFunTable lzo fuel d = some (pfn, [4, 5]))
    (hpfn : ∀ s', s' = ((s.poked ((pointers s c params).argv 5) (Bytes.ofNat 8 v.length)).poked
        ((pointers s c params).argv 4) v) →
      run t (pfn (pointers s c params) none c) s = .done s' (pointers s c params)) :
    ∃ s', run t (claraExecute (postExecFunTable lzo fuel) (agentIdMap c) params 0 none c) s =
      .done s' (pointers s c params, clSuccess) ∧ Answered s s' c params v := by
  refine ⟨_, ?_, h.answered⟩
  rw [h.points.run_claraExecute lzo fuel hk hd hf, hpfn _ rfl, Outcome.bind_done, pointers_zero]
  rfl

theorem Asks.congr {params' : ExecuteRequest} {n : ℕ} (h : Asks s c params n)
    (hhint : params'.hint = invalidHandle) (hargv : ∀ i, i ≠ 0 → params'.argv i = params.argv i) :
    Asks s c params' n where
  hint := hhint
  value := by
    rw [hargv 4 (by decide)]
    exact h.value
  size := by
    rw [hargv 5 (by decide)]
    exact h.size
  room := by
    rw [hargv 3 (by decide), hargv 4 (by decide)]
    exact h.room
  apart := by
    rw [hargv 4 (by decide), hargv 5 (by decide)]
    exact h.apart

theorem pointers_success : (pointers s c params).setArg 0 clSuccess = pointers s c params :=
  setArg_self Asks.pointers_zero

/-- A device that is found answers every query but the one for its availability from its record. -/
theorem Browsable.run_getDeviceInfo (hb : Browsable s) (hk : Keeps c s) {d : Addr} {dv : Device}
    (hd : s.deviceAt (params.argv 1) = some d) (hr : s.heap .device d = some dv)
    (hfun : ClFunction.ofArg params.func = some (.getDeviceInfo, 5))
    (hname : isDeviceInfo (params.argv 2).toUInt32 = true)
    (havail : (params.argv 2).toUInt32 ≠ clDeviceAvailable)
    (h : Asks s c params (dv.value (params.argv 2).toUInt32).length) :
    ∃ s', run t (agentExecute lzo fuel params c) s = .done s' clSuccess ∧
      Answered s s' c params (dv.value (params.argv 2).toUInt32) := by
  let params' : ExecuteRequest := { params.setArg 0 0 with hint := 0 }
  have hargv : ∀ i, i ≠ 0 → params'.argv i = params.argv i :=
    fun i hi => Function.update_of_ne hi _ _
  have hasks : Asks s c params' (dv.value (params.argv 2).toUInt32).length := h.congr rfl hargv
  have hpre : claraExecute preExecFunTable (agentIdMap c) params 0 none c = pure (params', 0) := by
    rw [claraExecute_some _ _ _ _ hfun rfl]
    rfl
  have hpost : ∀ s', s' = ((s.poked ((pointers s c params').argv 5)
      (Bytes.ofNat 8 (dv.value (params.argv 2).toUInt32).length)).poked
        ((pointers s c params').argv 4) (dv.value (params.argv 2).toUInt32)) →
      run t (claraPostClGetDeviceInfo lzo fuel (pointers s c params') none c) s =
        .done s' (pointers s c params') := by
    rintro s' rfl
    have h1 : (pointers s c params').argv 1 = params.argv 1 := by
      rw [Asks.pointers_other (by decide) (by decide) (by decide), hargv 1 (by decide)]
    have h2 : (pointers s c params').argv 2 = params.argv 2 := by
      rw [Asks.pointers_other (by decide) (by decide) (by decide), hargv 2 (by decide)]
    have hvalue : run t (do
        let dv ← read .device d
        pure (dv.value (params.argv 2).toUInt32) : AProg Bytes) s =
        .done s (dv.value (params.argv 2).toUInt32) := by
      rw [run_bind, run_read hr, Outcome.bind_done]
      rfl
    rw [claraPostClGetDeviceInfo]
    simp only [pointers_success]
    rw [run_bind, h1, hb.run_agentFindDeviceByGlobalId, hd, Outcome.bind_done]
    simp only [h2, if_pos hname, if_neg havail]
    rw [run_bind, hvalue, Outcome.bind_done]
    exact run_answer hasks.points.canPoke_five hasks.points.canPoke_four hasks.points.pointers_ne
      hasks.room_pointers
  have hsecond := Asks.run_claraExecute (t := t) lzo fuel hasks hk (d := .getDeviceInfo) hfun rfl
    hpost
  obtain ⟨s', hrun, hans⟩ := hsecond
  refine ⟨s', ?_, ?_⟩
  · rw [agentExecute, executeOwner, if_neg (not_not.mpr h.hint), run_bind]
    show run t (claraExecute preExecFunTable (agentIdMap c) params 0 none c >>= _) s = _
    rw [hpre]
    show run t (claraExecute (postExecFunTable lzo fuel) (agentIdMap c) params' 0 none c >>= _) s
      = _
    rw [run_bind, hrun]
    rfl
  · have h4 := hargv 4 (by decide)
    have h5 := hargv 5 (by decide)
    constructor
    · rw [← h4]
      exact hans.value
    · rw [← h5]
      exact hans.size

/-- A platform that is found answers every query from its record. -/
theorem Browsable.run_getPlatformInfo (hb : Browsable s) (hk : Keeps c s) {a : Addr}
    {pf : Platform} (ha : s.platformAt (params.argv 1) = some a)
    (hr : s.heap .platform a = some pf)
    (hfun : ClFunction.ofArg params.func = some (.getPlatformInfo, 5))
    (hname : isPlatformInfo (params.argv 2).toUInt32 = true)
    (h : Asks s c params (pf.info (params.argv 2).toUInt32 ++ [0]).length) :
    ∃ s', run t (agentExecute lzo fuel params c) s = .done s' clSuccess ∧
      Answered s s' c params (pf.info (params.argv 2).toUInt32 ++ [0]) := by
  have hlen : (pf.info (params.argv 2).toUInt32).length + 1 =
      (pf.info (params.argv 2).toUInt32 ++ [0]).length := by simp
  have hpost : ∀ s', s' = ((s.poked ((pointers s c params).argv 5)
      (Bytes.ofNat 8 (pf.info (params.argv 2).toUInt32 ++ [0]).length)).poked
        ((pointers s c params).argv 4) (pf.info (params.argv 2).toUInt32 ++ [0])) →
      run t (claraPostClGetPlatformInfo (pointers s c params) none c) s =
        .done s' (pointers s c params) := by
    rintro s' rfl
    have h1 : (pointers s c params).argv 1 = params.argv 1 :=
      Asks.pointers_other (by decide) (by decide) (by decide)
    have h2 : (pointers s c params).argv 2 = params.argv 2 :=
      Asks.pointers_other (by decide) (by decide) (by decide)
    rw [claraPostClGetPlatformInfo]
    simp only [pointers_success]
    rw [run_bind, h1, hb.run_agentFindPlatformByGlobalId ha, Outcome.bind_done]
    simp only [h2, if_pos hname]
    rw [run_bind, run_read hr, Outcome.bind_done, hlen]
    exact run_answer h.points.canPoke_five h.points.canPoke_four h.points.pointers_ne
      h.room_pointers
  obtain ⟨s', hrun, hans⟩ := h.run_claraExecute (t := t) lzo fuel hk hfun rfl hpost
  refine ⟨s', ?_, hans⟩
  rw [run_agentExecute_here lzo fuel h.hint hfun rfl, hrun]
  rfl

end

end Clara.Agent
