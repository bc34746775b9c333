import Clara.Agent.Area
import Clara.Agent.Teardown
import Clara.Lib.Matching

/-! The load balancer: which consumer holds which platform, over sequences of `lb_add_platform`,
`lb_allocate_platform`, `consumer_detach` and disconnects of providers. -/
namespace Clara.Agent

open Conc

variable {t : Tid} {s s' : State} {c p a : Addr} {id : GlobalId}

def State.platformOf (s : State) (c : Addr) : Option Addr :=
  (s.heap .consumer c).bind Consumer.platform

def State.holderOf (s : State) (p : Addr) : Option Addr :=
  (s.heap .platform p).bind Platform.consumer

/-- What the load balancer keeps: both sides agree on who holds what, what is held is on offer, no
two hold one platform, and an allocation fails only when everything on offer is held. -/
structure Balances (s : State) : Prop where
  both : ∀ c p, s.platformOf c = some p ↔ s.holderOf p = some c
  offered : ∀ c p, s.platformOf c = some p → ∃ id, (s.sets .lbPlatforms).lookup id = some p
  once : ∀ c d p, s.platformOf c = some p → s.platformOf d = some p → c = d
  allocates : ∀ c, (s.heap .consumer c).isSome → s.platformOf c = none → ∃ s' b,
    run (.consumer c) (lbAllocatePlatform c) s = .done s' b ∧
      (b = false ↔ ∀ id p, (s.sets .lbPlatforms).lookup id = some p →
        ∃ d, s.platformOf d = some p)

/-- What happens to the load balancer, by whose thread. -/
inductive BalanceStep
  | add (provider platform : Addr)
  | allocate (consumer : Addr)
  | detach (consumer : Addr)
  | disconnect (provider : Addr)

namespace BalanceStep

def run : BalanceStep → State → Outcome State Fault Bool
  | .add p a, s => Agent.run (.provider p) (lbAddPlatform a) s
  | .allocate c, s => Agent.run (.consumer c) (lbAllocatePlatform c) s
  | .detach c, s => Agent.run (.consumer c) (consumerDetach c) s
  | .disconnect p, s =>
    (Agent.run (.provider p) (providerShutdown p) s).bind fun s _ => .done s true

/-- A platform is added once, and `clGetPlatformIDs` allocates only for a consumer that has none. -/
def Admissible (s : State) : BalanceStep → Prop
  | .add _ a => ∀ pf, s.heap .platform a = some pf → pf.globalId ∉ s.sets .lbPlatforms
  | .allocate c => (s.heap .consumer c).isSome ∧ s.platformOf c = none
  | .detach _ | .disconnect _ => True

/-- A provider that leaves has no platform that is held. -/
def Unheld (s : State) : BalanceStep → Prop
  | .disconnect p => ∀ id a, (s.sets (.platforms p)).lookup id = some a → s.holderOf a = none
  | _ => True

end BalanceStep

/-- The states after sequences of steps that satisfy `allow`. -/
inductive BalanceReach (allow : State → BalanceStep → Prop) (init : State) : State → Prop
  | refl : BalanceReach allow init init
  | step {s s' : State} {b : Bool} (o : BalanceStep) (h : BalanceReach allow init s)
      (hadm : o.Admissible s) (ha : allow s o) (hr : o.run s = .done s' b) :
      BalanceReach allow init s'

/-- An agent with load balancing, whose platforms have different ids, before any is on offer. -/
structure Unallocated (s : State) : Prop where
  loadBalancing : s.loadBalancing = true
  offer : s.sets .lbPlatforms = .empty
  unlocked : s.setLock .lbPlatforms = .free
  ids : ∀ a b pf pf', s.heap .platform a = some pf → s.heap .platform b = some pf' →
    pf.globalId = pf'.globalId → a = b
  consumers : ∀ c, s.platformOf c = none
  platforms : ∀ p, s.holderOf p = none

/-- The invariant. -/
structure Balanced (s : State) : Prop where
  loadBalancing : s.loadBalancing = true
  matched : Matching s.platformOf s.holderOf
  offered : ∀ c p, s.platformOf c = some p → ∃ id, (s.sets .lbPlatforms).lookup id = some p
  sound : (s.sets .lbPlatforms).damaged = false
  unlocked : s.setLock .lbPlatforms = .free
  entry : ∀ id a, (s.sets .lbPlatforms).lookup id = some a →
    ∃ pf, s.heap .platform a = some pf ∧ pf.globalId = id
  ids : ∀ a b pf pf', s.heap .platform a = some pf → s.heap .platform b = some pf' →
    pf.globalId = pf'.globalId → a = b

theorem Unallocated.balanced (h : Unallocated s) : Balanced s where
  loadBalancing := h.loadBalancing
  matched := by
    have hc : s.platformOf = fun _ => none := funext h.consumers
    have hp : s.holderOf = fun _ => none := funext h.platforms
    rw [hc, hp]
    exact Matching.empty
  offered c p hc := by
    rw [h.consumers] at hc
    cases hc
  sound := by
    rw [h.offer]
    rfl
  unlocked := h.unlocked
  entry id a hid := by
    rw [h.offer, IdSet.lookup_empty] at hid
    cases hid
  ids := h.ids

section
variable {consumer : Consumer} {pf : Platform}

theorem platformOf_eq (h : s.heap .consumer c = some consumer) :
    s.platformOf c = consumer.platform := by
  rw [State.platformOf, h, Option.bind_some]

theorem holderOf_eq (h : s.heap .platform p = some pf) : s.holderOf p = pf.consumer := by
  rw [State.holderOf, h, Option.bind_some]

/-- Both records are written: the consumer's pointer to the platform and the one back. -/
def State.linked (s : State) (c p : Addr) (consumer : Consumer) (pf : Platform) : State :=
  (s.put .consumer c (some consumer)).put .platform p (some pf)

theorem linked_platformOf :
    (s.linked c p consumer pf).platformOf = Function.update s.platformOf c consumer.platform := by
  funext d
  by_cases hd : d = c
  · rw [hd, Function.update_self, State.platformOf, State.linked,
      State.put_heap_kind _ _ _ (by decide), State.put_heap_self, Option.bind_some]
  · rw [Function.update_of_ne hd, State.platformOf, State.linked,
      State.put_heap_kind _ _ _ (by decide), State.put_heap_of_ne _ _ hd, State.platformOf]

theorem linked_holderOf :
    (s.linked c p consumer pf).holderOf = Function.update s.holderOf p pf.consumer := by
  funext q
  by_cases hq : q = p
  · rw [hq, Function.update_self, State.holderOf, State.linked, State.put_heap_self,
      Option.bind_some]
  · rw [Function.update_of_ne hq, State.holderOf, State.linked, State.put_heap_of_ne _ _ hq,
      State.put_heap_kind _ _ _ (by decide), State.holderOf]

theorem linked_globalId {pf₀ : Platform} (hp : s.heap .platform p = some pf₀)
    (hid : pf.globalId = pf₀.globalId) (q : Addr) :
    ((s.linked c p consumer pf).heap .platform q).map Platform.globalId =
      (s.heap .platform q).map Platform.globalId := by
  by_cases hq : q = p
  · rw [hq, State.linked, State.put_heap_self, hp, Option.map_some, Option.map_some, hid]
  · rw [State.linked, State.put_heap_of_ne _ _ hq, State.put_heap_kind _ _ _ (by decide)]

end

/-- The invariant survives what leaves the offer and the ids alone. -/
theorem Balanced.keep (h : Balanced s) (hb : s'.loadBalancing = s.loadBalancing)
    (hoffer : s'.sets .lbPlatforms = s.sets .lbPlatforms)
    (hlock : s'.setLock .lbPlatforms = s.setLock .lbPlatforms)
    (hids : ∀ q, (s'.heap .platform q).map Platform.globalId =
      (s.heap .platform q).map Platform.globalId)
    (hmatched : Matching s'.platformOf s'.holderOf)
    (hoffered : ∀ c p, s'.platformOf c = some p → ∃ id, (s.sets .lbPlatforms).lookup id = some p) :
    Balanced s' where
  loadBalancing := hb.trans h.loadBalancing
  matched := hmatched
  offered := by
    rw [hoffer]
    exact hoffered
  sound := by rw [hoffer, h.sound]
  unlocked := by rw [hlock, h.unlocked]
  entry := by
    intro id a hid
    rw [hoffer] at hid
    obtain ⟨pf, hpf, hpid⟩ := h.entry id a hid
    have hmap := hids a
    rw [hpf, Option.map_some] at hmap
    obtain ⟨pf', hpf', hid'⟩ := Option.map_eq_some_iff.mp hmap
    exact ⟨pf', hpf', hid'.trans hpid⟩
  ids := by
    intro a b pf pf' ha hb hsame
    have ha' := hids a
    have hb' := hids b
    rw [ha, Option.map_some] at ha'
    rw [hb, Option.map_some] at hb'
    obtain ⟨qf, hqf, hq⟩ := Option.map_eq_some_iff.mp ha'.symm
    obtain ⟨qf', hqf', hq'⟩ := Option.map_eq_some_iff.mp hb'.symm
    exact h.ids a b qf qf' hqf hqf' (hq.trans (hsame.trans hq'.symm))

def State.firstFree (s : State) : Option Addr :=
  ((s.sets .lbPlatforms).items.map Prod.snd).find? fun a =>
    (s.heap .platform a).any fun pf => pf.consumer.isNone

theorem Balanced.any_free (h : Balanced s) (hid : (s.sets .lbPlatforms).lookup id = some a) :
    ((s.heap .platform a).any fun pf => pf.consumer.isNone) = true ↔ s.holderOf a = none := by
  obtain ⟨pf, hpf, -⟩ := h.entry id a hid
  rw [hpf, Option.any_some, holderOf_eq hpf, Option.isNone_iff_eq_none]

theorem Balanced.firstFree_some (h : Balanced s) (hfree : s.firstFree = some a) :
    ∃ id pf, (s.sets .lbPlatforms).lookup id = some a ∧ s.heap .platform a = some pf ∧
      pf.consumer = none := by
  obtain ⟨x, hx, rfl⟩ := List.mem_map.mp (List.mem_of_find?_eq_some hfree)
  have hid := IdSet.mem_items.mp hx
  obtain ⟨pf, hpf, -⟩ := h.entry x.1 x.2 hid
  have htest := List.find?_some hfree
  have hnone := (h.any_free hid).mp htest
  exact ⟨x.1, pf, hid, hpf, (holderOf_eq hpf).symm.trans hnone⟩

theorem Balanced.firstFree_none (h : Balanced s) :
    s.firstFree = none ↔ ∀ id p, (s.sets .lbPlatforms).lookup id = some p →
      ∃ d, s.platformOf d = some p := by
  rw [State.firstFree, List.find?_eq_none]
  constructor
  · intro hall id p hid
    have hmem : p ∈ (s.sets .lbPlatforms).items.map Prod.snd :=
      List.mem_map_of_mem (f := Prod.snd) (IdSet.mem_items.mpr hid)
    have hheld : s.holderOf p ≠ none := fun hnone => hall p hmem ((h.any_free hid).mpr hnone)
    obtain ⟨d, hd⟩ := Option.ne_none_iff_exists'.mp hheld
    exact ⟨d, (h.matched d p).mpr hd⟩
  · intro hall p hp
    obtain ⟨x, hx, rfl⟩ := List.mem_map.mp hp
    have hid := IdSet.mem_items.mp hx
    obtain ⟨d, hd⟩ := hall x.1 x.2 hid
    rw [h.any_free hid, (h.matched d x.2).mp hd]
    exact Option.some_ne_none d

theorem Balanced.run_search (h : Balanced s) :
    run t (findFirst (fun a => do
      let pf ← read .platform a
      pure pf.consumer.isNone) ((s.sets .lbPlatforms).items.map Prod.snd))
        (s.putLock .lbPlatforms ⟨some t, 1⟩) =
      .done (s.putLock .lbPlatforms ⟨some t, 1⟩) s.firstFree := by
  apply run_findFirst
  intro a ha
  obtain ⟨x, hx, rfl⟩ := List.mem_map.mp ha
  obtain ⟨pf, hpf, -⟩ := h.entry x.1 x.2 (IdSet.mem_items.mp hx)
  have hread : (s.putLock .lbPlatforms ⟨some t, 1⟩).heap .platform x.2 = some pf := hpf
  rw [run_bind, run_read hread, Outcome.bind_done, hpf]
  rfl

theorem Balanced.run_lbAllocatePlatform_none (h : Balanced s) (hfree : s.firstFree = none) :
    run t (lbAllocatePlatform c) s = .done s false := by
  rw [lbAllocatePlatform, run_bind, run_setStart h.unlocked h.sound, Outcome.bind_done, run_bind,
    h.run_search, Outcome.bind_done, hfree]
  simp only
  rw [run_bind, run_setFinish h.unlocked, Outcome.bind_done]
  rfl

theorem Balanced.run_lbAllocatePlatform_some (h : Balanced s) (hfree : s.firstFree = some a)
    {consumer : Consumer} (hc : s.heap .consumer c = some consumer) {pf : Platform}
    (hpf : s.heap .platform a = some pf) :
    run t (lbAllocatePlatform c) s = .done
      (s.linked c a { consumer with platform := some a } { pf with consumer := some c }) true := by
  have hpf' : (s.putLock .lbPlatforms ⟨some t, 1⟩).heap .platform a = some pf := hpf
  let s₁ : State := s.put .platform a (some { pf with consumer := some c })
  have hc₁ : s₁.heap .consumer c = some consumer := by
    rw [State.put_heap_kind _ _ _ (by decide), hc]
  have hc' : (s₁.putLock .lbPlatforms ⟨some t, 1⟩).heap .consumer c = some consumer := hc₁
  let s₂ : State := s₁.put .consumer c (some { consumer with platform := some a })
  have hunlocked : s₂.setLock .lbPlatforms = .free := h.unlocked
  have hfinish : run t (setFinish .lbPlatforms) (s₂.putLock .lbPlatforms ⟨some t, 1⟩) =
      .done s₂ () := run_setFinish hunlocked
  have hlinked : s₂ = s.linked c a { consumer with platform := some a }
      { pf with consumer := some c } := State.put_comm s (by decide) ..
  rw [lbAllocatePlatform, run_bind, run_setStart h.unlocked h.sound, Outcome.bind_done, run_bind,
    h.run_search, Outcome.bind_done, hfree]
  simp only
  rw [run_bind, run_store hpf', Outcome.bind_done, run_bind]
  change ((run t (store .consumer c (.platform (some a)))
    (s₁.putLock .lbPlatforms ⟨some t, 1⟩)).bind _) = _
  rw [run_store hc', Outcome.bind_done, run_bind]
  change ((run t (setFinish .lbPlatforms) (s₂.putLock .lbPlatforms ⟨some t, 1⟩)).bind _) = _
  rw [hfinish, Outcome.bind_done, hlinked]
  rfl

theorem Balanced.allocated (h : Balanced s) (hid : (s.sets .lbPlatforms).lookup id = some a)
    (consumer : Consumer) (hnone : s.platformOf c = none) {pf : Platform}
    (hpf : s.heap .platform a = some pf)
    (hfree : pf.consumer = none) :
    Balanced (s.linked c a { consumer with platform := some a }
      { pf with consumer := some c }) := by
  have hheld : s.holderOf a = none := (holderOf_eq hpf).trans hfree
  refine h.keep rfl rfl rfl (linked_globalId hpf rfl) ?_ ?_
  · rw [linked_platformOf, linked_holderOf]
    exact h.matched.join hnone hheld
  · intro d p hd
    rw [linked_platformOf] at hd
    by_cases hdc : d = c
    · rw [hdc, Function.update_self] at hd
      obtain rfl := Option.some.inj hd
      exact ⟨id, hid⟩
    · rw [Function.update_of_ne hdc] at hd
      exact h.offered d p hd

theorem Balanced.balances (h : Balanced s) : Balances s where
  both := h.matched
  offered := h.offered
  once _ _ _ hc hd := h.matched.unique hc hd
  allocates := by
    intro c hsome hnone
    obtain ⟨consumer, hc⟩ := Option.isSome_iff_exists.mp hsome
    cases hfree : s.firstFree with
    | none =>
      refine ⟨s, false, h.run_lbAllocatePlatform_none hfree, ?_⟩
      exact iff_of_true rfl (h.firstFree_none.mp hfree)
    | some a =>
      obtain ⟨id, pf, hid, hpf, hnobody⟩ := h.firstFree_some hfree
      refine ⟨_, true, h.run_lbAllocatePlatform_some hfree hc hpf, ?_⟩
      refine iff_of_false (by simp) fun hall => ?_
      rw [h.firstFree_none.mpr hall] at hfree
      cases hfree

theorem Balanced.add (h : Balanced s) {b : Bool}
    (hadm : ∀ pf, s.heap .platform a = some pf → pf.globalId ∉ s.sets .lbPlatforms)
    (hr : run t (lbAddPlatform a) s = .done s' b) : Balanced s' := by
  rw [lbAddPlatform] at hr
  obtain ⟨s₁, pf, hread, hinsert⟩ := run_bind_done hr
  obtain ⟨rfl, hpf⟩ := run_read_done hread
  have hnew := hadm pf hpf
  have hu : Usable t .lbPlatforms s₁ := ⟨h.sound, by rw [h.unlocked]; rfl⟩
  rw [run_setInsert hu] at hinsert
  obtain ⟨rfl, -⟩ := Outcome.done.inj hinsert
  have hlook : ∀ id b, ((s₁.putSet .lbPlatforms ((s₁.sets .lbPlatforms).add pf.globalId a)).sets
      .lbPlatforms).lookup id = some b ↔
      id = pf.globalId ∧ a = b ∨ (s₁.sets .lbPlatforms).lookup id = some b := by
    intro id b
    rw [State.putSet_sets_self, IdSet.lookup_add hnew]
    by_cases hid : id = pf.globalId
    · have hnone := IdSet.not_mem_iff.mp hnew
      rw [if_pos hid, hid, hnone]
      simp
    · simp [hid]
  constructor
  case loadBalancing => exact h.loadBalancing
  case matched => exact h.matched
  case offered =>
    intro c p hc
    obtain ⟨id, hid⟩ := h.offered c p hc
    exact ⟨id, (hlook id p).mpr (.inr hid)⟩
  case sound =>
    rw [State.putSet_sets_self, IdSet.damaged_add, decide_eq_false hnew, h.sound]
    rfl
  case unlocked => exact h.unlocked
  case entry =>
    intro id b hid
    rcases (hlook id b).mp hid with ⟨rfl, rfl⟩ | hid
    · exact ⟨pf, hpf, rfl⟩
    · exact h.entry id b hid
  case ids => exact h.ids

theorem Balanced.allocate (h : Balanced s) {b : Bool} (hsome : (s.heap .consumer c).isSome)
    (hnone : s.platformOf c = none) (hr : run t (lbAllocatePlatform c) s = .done s' b) :
    Balanced s' := by
  obtain ⟨consumer, hc⟩ := Option.isSome_iff_exists.mp hsome
  cases hfree : s.firstFree with
  | none =>
    rw [h.run_lbAllocatePlatform_none hfree] at hr
    obtain ⟨rfl, -⟩ := Outcome.done.inj hr
    exact h
  | some a =>
    obtain ⟨id, pf, hid, hpf, hnobody⟩ := h.firstFree_some hfree
    rw [h.run_lbAllocatePlatform_some hfree hc hpf] at hr
    obtain ⟨rfl, -⟩ := Outcome.done.inj hr
    exact h.allocated hid consumer hnone hpf hnobody

theorem Balanced.run_lbReleasePlatform (h : Balanced s) {consumer : Consumer}
    (hc : s.heap .consumer c = some consumer) :
    ∃ s₁ b, run t (lbReleasePlatform c) s = .done s₁ b ∧ Balanced s₁ := by
  cases hplatform : consumer.platform with
  | none =>
    refine ⟨s, false, ?_, h⟩
    rw [lbReleasePlatform, run_bind, run_read hc, Outcome.bind_done, hplatform]
    rfl
  | some p =>
    have hof : s.platformOf c = some p := (platformOf_eq hc).trans hplatform
    have hheld : s.holderOf p = some c := (h.matched c p).mp hof
    obtain ⟨id, hid⟩ := h.offered c p hof
    obtain ⟨pf, hpf, -⟩ := h.entry id p hid
    have hback : pf.consumer = some c := (holderOf_eq hpf).symm.trans hheld
    let consumer₁ : Consumer := { consumer with platform := none }
    let pf₁ : Platform := { pf with consumer := none }
    have hpf' : (s.put .consumer c (some consumer₁)).heap .platform p = some pf := by
      rw [State.put_heap_kind _ _ _ (by decide), hpf]
    refine ⟨s.linked c p consumer₁ pf₁, true, ?_, ?_⟩
    · rw [lbReleasePlatform, run_bind, run_read hc, Outcome.bind_done, hplatform]
      simp only
      rw [run_bind, run_read hpf, Outcome.bind_done, if_neg (not_not_intro hback), run_bind,
        run_store hc, Outcome.bind_done, run_bind]
      change ((run t (store .platform p none) (s.put .consumer c (some consumer₁))).bind _) = _
      rw [run_store hpf']
      rfl
    · refine h.keep rfl rfl rfl (linked_globalId hpf rfl) ?_ ?_
      · rw [linked_platformOf, linked_holderOf]
        exact h.matched.part hof
      · intro d q hd
        rw [linked_platformOf] at hd
        by_cases hdc : d = c
        · rw [hdc, Function.update_self] at hd
          cases hd
        · rw [Function.update_of_ne hdc] at hd
          exact h.offered d q hd

/-- The part of `consumer_detach` after the release. -/
theorem Balanced.unlist (h : Balanced s) {b : Bool}
    (hr : run t (do
      if ← setRemove .consumers c then
        store .consumer c (.attached false)
        pure true
      else pure false) s = .done s' b) : Balanced s' := by
  obtain ⟨s₁, removed, hremove, hr⟩ := run_bind_done hr
  have hbalanced : Balanced s₁ := by
    rw [setRemove, perform, run, Prog.run_perform] at hremove
    obtain ⟨rfl, -⟩ := exec_setRemove_done hremove
    refine h.keep rfl ?_ rfl (fun _ => rfl) h.matched h.offered
    rw [State.putSet_sets_of_ne _ _ (by simp)]
  cases removed with
  | false =>
    obtain ⟨rfl, -⟩ := Outcome.done.inj hr
    exact hbalanced
  | true =>
    obtain ⟨s₂, u, hstore, hr⟩ := run_bind_done hr
    obtain ⟨rfl, -⟩ := Outcome.done.inj hr
    obtain ⟨consumer, hc, rfl⟩ := run_store_done hstore
    have hsame : (s₁.put .consumer c (some { consumer with attached := false })).platformOf =
        s₁.platformOf := by
      funext d
      by_cases hd : d = c
      · rw [hd, State.platformOf, State.platformOf, State.put_heap_self, hc, Option.bind_some,
          Option.bind_some]
      · rw [State.platformOf, State.platformOf, State.put_heap_of_ne _ _ hd]
    refine hbalanced.keep rfl rfl rfl (fun q => ?_) ?_ ?_
    · rw [State.put_heap_kind _ _ _ (by decide)]
    · have hholder : (s₁.put .consumer c (some { consumer with attached := false })).holderOf =
          s₁.holderOf := by
        funext q
        rw [State.holderOf, State.holderOf, State.put_heap_kind _ _ _ (by decide)]
      exact hsame ▸ hholder ▸ hbalanced.matched
    · exact hsame ▸ hbalanced.offered

theorem Balanced.detach (h : Balanced s) {b : Bool}
    (hr : run t (consumerDetach c) s = .done s' b) : Balanced s' := by
  rw [consumerDetach] at hr
  obtain ⟨s₁, consumer, hread, h₁⟩ := run_bind_done hr
  obtain ⟨rfl, hc⟩ := run_read_done hread
  by_cases hattached : consumer.attached = false
  · rw [if_pos hattached] at h₁
    obtain ⟨rfl, -⟩ := Outcome.done.inj h₁
    exact h
  · have hlb : run t Agent.loadBalancing s₁ = .done s₁ s₁.loadBalancing := rfl
    rw [if_neg hattached, run_bind, hlb, Outcome.bind_done, if_pos h.loadBalancing] at h₁
    obtain ⟨s₂, released, hrelease, h₂⟩ := run_bind_done h₁
    obtain ⟨s₃, b', hrun, hbalanced⟩ := h.run_lbReleasePlatform (t := t) hc
    obtain ⟨rfl, -⟩ := Outcome.done.inj (hrelease.symm.trans hrun)
    exact hbalanced.unlist h₂

/-- The platforms in `l` have been taken off the offer. -/
structure TakenOff (l : List Addr) (s s' : State) : Prop where
  heap : s'.heap = s.heap
  sets : ∀ r, r ≠ .lbPlatforms → s'.sets r = s.sets r
  setLock : s'.setLock = s.setLock
  loadBalancing : s'.loadBalancing = s.loadBalancing
  sound : (s'.sets .lbPlatforms).damaged = (s.sets .lbPlatforms).damaged
  offer : ∀ id a, (s'.sets .lbPlatforms).lookup id = some a ↔
    (s.sets .lbPlatforms).lookup id = some a ∧
      ∀ b ∈ l, ∀ pf, s.heap .platform b = some pf → pf.globalId ≠ id

theorem takenOff_of_run {l : List Addr}
    (hr : run t (forEach (fun platform => do
      let _ ← lbRemovePlatform platform) l) s = .done s' ()) : TakenOff l s s' := by
  induction l generalizing s with
  | nil =>
    obtain ⟨rfl, -⟩ := Outcome.done.inj hr
    exact ⟨rfl, fun _ _ => rfl, rfl, rfl, rfl, fun id a => by simp⟩
  | cons p l ih =>
    rw [forEach] at hr
    obtain ⟨s₁, u, hfirst, hrest⟩ := run_bind_done hr
    obtain ⟨s₂, b, hremove, hend⟩ := run_bind_done hfirst
    obtain ⟨rfl, -⟩ := Outcome.done.inj hend
    rw [lbRemovePlatform] at hremove
    obtain ⟨s₃, pf, hread, herase⟩ := run_bind_done hremove
    obtain ⟨rfl, hpf⟩ := run_read_done hread
    rw [setRemove, perform, run, Prog.run_perform] at herase
    obtain ⟨rfl, -⟩ := exec_setRemove_done herase
    have htaken := ih hrest
    refine ⟨htaken.heap, fun r hr => ?_, htaken.setLock, htaken.loadBalancing, ?_, fun id a => ?_⟩
    · rw [htaken.sets r hr, State.putSet_sets_of_ne _ _ hr]
    · rw [htaken.sound, State.putSet_sets_self, IdSet.damaged_erase]
    · rw [htaken.offer, State.putSet_sets_self, IdSet.lookup_erase, State.putSet_heap]
      simp only [List.mem_cons, forall_eq_or_imp]
      by_cases hid : id = pf.globalId
      · rw [if_pos hid]
        refine iff_of_false (by simp) fun hall => hall.2.1 pf hpf hid.symm
      · rw [if_neg hid]
        refine and_congr_right fun _ => ⟨fun hall => ⟨fun pf' hpf' => ?_, hall⟩, And.right⟩
        obtain rfl := Option.some.inj (hpf.symm.trans hpf')
        exact fun heq => hid heq.symm

/-- Between `s` and `s'` the links and the offer are left alone, but for platforms of `l` that are
freed. -/
structure Spared (l : List Addr) (s s' : State) : Prop where
  consumer : s'.heap .consumer = s.heap .consumer
  platform : ∀ a, s'.heap .platform a = s.heap .platform a ∨
    a ∈ l ∧ s'.heap .platform a = none
  offer : s'.sets .lbPlatforms = s.sets .lbPlatforms
  unlocked : s'.setLock .lbPlatforms = s.setLock .lbPlatforms
  loadBalancing : s'.loadBalancing = s.loadBalancing

theorem Spared.refl (l : List Addr) (s : State) : Spared l s s :=
  ⟨rfl, fun _ => .inl rfl, rfl, rfl, rfl⟩

theorem Spared.trans {l : List Addr} {s₁ : State} (h : Spared l s s₁) (h' : Spared l s₁ s') :
    Spared l s s' where
  consumer := h'.consumer.trans h.consumer
  platform a := by
    rcases h'.platform a with hsame | hgone
    · rcases h.platform a with hsame' | ⟨ha, hnone⟩
      · exact .inl (hsame.trans hsame')
      · exact .inr ⟨ha, hsame.trans hnone⟩
    · exact .inr hgone
  offer := h'.offer.trans h.offer
  unlocked := h'.unlocked.trans h.unlocked
  loadBalancing := h'.loadBalancing.trans h.loadBalancing

def Op.Spares (l : List Addr) : Op → Prop
  | .read _ _ | .lockWait _ | .lockPost _ | .fail _ => True
  | .free k a => k ≠ .consumer ∧ (k = .platform → a ∈ l)
  | .setStart r | .setFinish r | .setDestroy r => r ≠ .lbPlatforms
  | .setRemove r _ => r ≠ .lbPlatforms
  | .phase _ _ => True
  | _ => False

theorem spared_put {l : List Addr} {k : Kind} (v : Option k.Rec) (hc : k ≠ .consumer)
    (hp : k ≠ .platform) : Spared l s (s.put k a v) where
  consumer := State.put_heap_kind _ _ _ hc.symm
  platform b := .inl (by rw [State.put_heap_kind _ _ _ hp.symm])
  offer := rfl
  unlocked := rfl
  loadBalancing := rfl

theorem spared_putSet {l : List Addr} {r : SetRef} (v : IdSet r.Key Addr) (hr : r ≠ .lbPlatforms) :
    Spared l s (s.putSet r v) where
  consumer := rfl
  platform _ := .inl rfl
  offer := State.putSet_sets_of_ne _ _ hr.symm
  unlocked := rfl
  loadBalancing := rfl

theorem spared_putLock {l : List Addr} {r : SetRef} (v : Lock) (hr : r ≠ .lbPlatforms) :
    Spared l s (s.putLock r v) where
  consumer := rfl
  platform _ := .inl rfl
  offer := rfl
  unlocked := State.putLock_setLock_of_ne _ _ _ hr.symm
  loadBalancing := rfl

theorem spared_of_done {l : List Addr} {o : Op} {x : o.Res} (ho : o.Spares l)
    (h : exec t o s = .done s' x) : Spared l s s' := by
  cases o with
  | read k a =>
    obtain ⟨rfl, -⟩ := exec_read_done h
    exact .refl l s'
  | free k a =>
    obtain ⟨r, hr, rfl⟩ := exec_free_done h
    by_cases hk : k = .platform
    · subst hk
      refine ⟨State.put_heap_kind _ _ _ (by decide), fun b => ?_, rfl, rfl, rfl⟩
      by_cases hb : b = a
      · exact .inr ⟨hb ▸ ho.2 rfl, by rw [hb, State.put_heap_self]⟩
      · exact .inl (State.put_heap_of_ne _ _ hb)
    · exact spared_put none ho.1 hk
  | lockWait m =>
    cases change_of_done h with
    | same => exact .refl l s
    | lockWait _ lock lock' hl hw => exact spared_put _ (by decide) (by decide)
    | setLock _ r v hv => cases hv
    | net _ n => exact ⟨rfl, fun _ => .inl rfl, rfl, rfl, rfl⟩
  | lockPost m =>
    cases change_of_done h with
    | same => exact .refl l s
    | lockPost _ lock lock' hl hw => exact spared_put _ (by decide) (by decide)
    | setLock _ r v hv => cases hv
    | net _ n => exact ⟨rfl, fun _ => .inl rfl, rfl, rfl, rfl⟩
  | setDestroy r =>
    simp only [exec] at h
    split_ifs at h
    obtain ⟨rfl, -⟩ := Outcome.done.inj h
    exact spared_putSet _ ho
  | setRemove r key =>
    obtain ⟨rfl, -⟩ := exec_setRemove_done h
    exact spared_putSet _ ho
  | setStart r =>
    simp only [exec] at h
    split at h
    · cases h
    · obtain ⟨items, -, h⟩ := ofSet_done h
      obtain ⟨rfl, -⟩ := Outcome.done.inj h
      exact spared_putLock _ ho
  | setFinish r =>
    simp only [exec] at h
    split at h
    · cases h
    · obtain ⟨rfl, -⟩ := Outcome.done.inj h
      exact spared_putLock _ ho
  | phase u ph =>
    obtain ⟨rfl, -⟩ := Outcome.done.inj h
    exact ⟨rfl, fun _ => .inl rfl, rfl, rfl, rfl⟩
  | fail f => cases h
  | new k r => exact absurd ho id
  | store k b v => exact absurd ho id
  | setCreate r => exact absurd ho id
  | setInsert r key d => exact absurd ho id
  | setFind r key => exact absurd ho id
  | setCount r => exact absurd ho id
  | rand => exact absurd ho id
  | loadBalancing => exact absurd ho id
  | memory n => exact absurd ho id
  | net o => exact absurd ho id
  | deliver sd i => exact absurd ho id
  | spin => exact absurd ho id

theorem spared_of_run {l : List Addr} {α : Type} {q : AProg α} {x : α}
    (hq : q.All (Op.Spares l)) (hr : run t q s = .done s' x) : Spared l s s' :=
  hq.run_keeps (I := Spared l s) (fun _ _ _ _ ho he hs => hs.trans (spared_of_done ho he)) hr
    (.refl l s)

section
variable {l : List Addr}

theorem all_assert (b : Bool) (x : Assertion) : (assert b x).All (Op.Spares l) := by
  cases b with
  | true => trivial
  | false => exact ⟨trivial, nofun⟩

theorem all_forEach {P : Op → Prop} {f : Addr → AProg Unit} {m : List Addr}
    (h : ∀ a ∈ m, (f a).All P) : (forEach f m).All P := by
  induction m with
  | nil => trivial
  | cons a m ih =>
    have hrest : (forEach f m).All P := ih fun b hb => h b (List.mem_cons_of_mem _ hb)
    exact (h a List.mem_cons_self).bind fun _ => hrest

theorem all_idRelease (id : GlobalId) : (idRelease id).All (Op.Spares l) :=
  Prog.all_perform.mpr (by simp [Op.Spares])

theorem all_deviceDestroy (device : Addr) : (deviceDestroy device).All (Op.Spares l) := by
  refine Prog.All.bind (Prog.all_perform.mpr trivial) fun dv => ?_
  refine Prog.All.bind (Prog.all_perform.mpr trivial) fun _ => ?_
  refine Prog.All.bind (all_idRelease _) fun _ => ?_
  refine Prog.All.bind (all_assert _ _) fun _ => ?_
  exact Prog.all_perform.mpr (by simp [Op.Spares])

theorem all_platformDestroy (ha : a ∈ l) : (platformDestroy a).All (Op.Spares l) := by
  refine Prog.All.bind (Prog.all_perform.mpr trivial) fun pf => ?_
  refine Prog.All.bind (Prog.all_perform.mpr trivial) fun _ => ?_
  refine Prog.All.bind (all_idRelease _) fun released => ?_
  cases released with
  | false => trivial
  | true =>
    refine Prog.All.bind (Prog.all_perform.mpr (by simp [Op.Spares])) fun devices => ?_
    refine Prog.All.bind (all_forEach fun device _ => all_deviceDestroy device) fun _ => ?_
    refine Prog.All.bind (Prog.all_perform.mpr (by simp [Op.Spares])) fun _ => ?_
    refine Prog.All.bind (Prog.all_perform.mpr (by simp [Op.Spares])) fun _ => ?_
    refine Prog.All.bind (Prog.all_perform.mpr ?_) fun _ => trivial
    exact ⟨by decide, fun _ => ha⟩

end

/-- The provider `p` has left: its platforms are off the offer, and only they may be freed. -/
structure Departed (p : Addr) (s s' : State) : Prop where
  consumer : s'.heap .consumer = s.heap .consumer
  platform : ∀ a, s'.heap .platform a = s.heap .platform a ∨
    a ∈ (s.sets (.platforms p)).items.map Prod.snd ∧ s'.heap .platform a = none
  unlocked : s'.setLock .lbPlatforms = s.setLock .lbPlatforms
  loadBalancing : s'.loadBalancing = s.loadBalancing
  sound : (s'.sets .lbPlatforms).damaged = (s.sets .lbPlatforms).damaged
  offer : ∀ id a, (s'.sets .lbPlatforms).lookup id = some a ↔
    (s.sets .lbPlatforms).lookup id = some a ∧
      ∀ b ∈ (s.sets (.platforms p)).items.map Prod.snd, ∀ pf,
        s.heap .platform b = some pf → pf.globalId ≠ id

theorem run_lockDestroy_sets {lock : Addr} (h : run t (lockDestroy lock) s = .done s' ()) :
    s'.sets = s.sets := by
  obtain ⟨s₁, u, hwait, hfree⟩ := run_bind_done h
  rw [lockWait, perform, run, Prog.run_perform] at hwait
  rw [free, perform, run, Prog.run_perform] at hfree
  obtain ⟨r, -, rfl⟩ := exec_free_done hfree
  cases change_of_done hwait with
  | same => rfl
  | lockWait _ l l' hl hw => rfl
  | setLock _ r v hv => cases hv
  | net _ n => rfl

theorem spared_providerDestroy {b : Bool} (hr : run t (providerDestroy p) s = .done s' b) :
    Spared ((s.sets (.platforms p)).items.map Prod.snd) s s' := by
  rw [providerDestroy] at hr
  obtain ⟨s₁, provider, hread, h₁⟩ := run_bind_done hr
  obtain ⟨rfl, -⟩ := run_read_done hread
  obtain ⟨s₂, u, hlock, h₂⟩ := run_bind_done h₁
  obtain ⟨s₃, l, hstart, h₃⟩ := run_bind_done h₂
  obtain ⟨-, m, hm, hl⟩ := run_setStart_done hstart
  rw [run_lockDestroy_sets hlock] at hl
  subst hl
  have hlockAll : (lockDestroy provider.lock).All
      (Op.Spares ((s₁.sets (.platforms p)).items.map Prod.snd)) := by
    refine Prog.All.bind (Prog.all_perform.mpr trivial) fun _ => ?_
    exact Prog.all_perform.mpr (by simp [Op.Spares])
  have hstartAll : (setStart (.platforms p)).All
      (Op.Spares ((s₁.sets (.platforms p)).items.map Prod.snd)) :=
    Prog.all_perform.mpr (by simp [Op.Spares])
  have hfirst := (spared_of_run hlockAll hlock).trans (spared_of_run hstartAll hstart)
  refine hfirst.trans (spared_of_run ?_ h₃)
  refine Prog.All.bind (all_forEach fun a ha => ?_) fun _ => ?_
  · exact (all_platformDestroy ha).bind fun _ => trivial
  refine Prog.All.bind (Prog.all_perform.mpr (by simp [Op.Spares])) fun _ => ?_
  refine Prog.All.bind (Prog.all_perform.mpr (by simp [Op.Spares])) fun _ => ?_
  exact Prog.All.bind (Prog.all_perform.mpr (by simp [Op.Spares])) fun _ => trivial

theorem takenOff_providerDetach {b : Bool} (hlb : s.loadBalancing = true)
    (hr : run t (providerDetach p) s = .done s' b) (hb : b = true) :
    ∃ s₁ s₂, Spared [] s s₁ ∧ s₁.sets = s.sets ∧
      TakenOff ((s.sets (.platforms p)).items.map Prod.snd) s₁ s₂ ∧ Spared [] s₂ s' ∧
      s'.sets (.platforms p) = s₂.sets (.platforms p) := by
  subst hb
  rw [providerDetach] at hr
  obtain ⟨s₁, provider, hread, h₁⟩ := run_bind_done hr
  obtain ⟨rfl, -⟩ := run_read_done hread
  by_cases hattached : provider.attached = false
  · rw [if_pos hattached] at h₁
    cases h₁
  · have hflag : run t loadBalancing s₁ = .done s₁ s₁.loadBalancing := rfl
    rw [if_neg hattached, run_bind, hflag, Outcome.bind_done, if_pos hlb] at h₁
    obtain ⟨s₂, l, hstart, h₂⟩ := run_bind_done h₁
    obtain ⟨-, m, rfl, rfl⟩ := run_setStart_done hstart
    obtain ⟨s₃, u, hloop, h₃⟩ := run_bind_done h₂
    obtain ⟨s₄, v, hfinish, hremove⟩ := run_bind_done h₃
    refine ⟨s₁.putLock (.platforms p) m, s₃, ?_, rfl, takenOff_of_run hloop, ?_, ?_⟩
    · exact spared_putLock _ (by simp)
    · have hfinishAll : (setFinish (.platforms p)).All (Op.Spares []) :=
        Prog.all_perform.mpr (by simp [Op.Spares])
      have hremoveAll : (setRemove .providers p).All (Op.Spares []) :=
        Prog.all_perform.mpr (by simp [Op.Spares])
      exact (spared_of_run hfinishAll hfinish).trans (spared_of_run hremoveAll hremove)
    · rw [setRemove, perform, run, Prog.run_perform] at hremove
      obtain ⟨rfl, -⟩ := exec_setRemove_done hremove
      rw [State.putSet_sets_of_ne _ _ (by simp)]
      rw [setFinish, perform, run, Prog.run_perform, exec] at hfinish
      split at hfinish
      · cases hfinish
      · obtain ⟨rfl, -⟩ := Outcome.done.inj hfinish
        rfl

theorem departed_of_run (hlb : s.loadBalancing = true)
    (hr : run t (providerShutdown p) s = .done s' ()) : Departed p s s' := by
  rw [providerShutdown] at hr
  obtain ⟨s₁, b, hdetach, h₁⟩ := run_bind_done hr
  obtain ⟨s₂, u, hassert, h₂⟩ := run_bind_done h₁
  obtain ⟨rfl, hb⟩ := run_assert_done hassert
  obtain ⟨s₃, b', hdestroy, h₃⟩ := run_bind_done h₂
  obtain ⟨s₄, s₅, hbefore, hsets, htaken, hafter, hkept⟩ := takenOff_providerDetach hlb hdetach hb
  have hdestroyed := spared_providerDestroy hdestroy
  have hrestAll : (do
      assert b' .providerDestroy
      setPhase (.provider p) .finished : AProg Unit).All (Op.Spares []) :=
    (all_assert _ _).bind fun _ => Prog.all_perform.mpr trivial
  have hrest := spared_of_run hrestAll h₃
  have hplatforms : s₂.sets (.platforms p) = s.sets (.platforms p) := by
    rw [hkept, htaken.sets _ (by simp), hsets]
  rw [hplatforms] at hdestroyed
  -- nothing is freed but by `provider_destroy`
  have hnone : ∀ {x y : State}, Spared [] x y → y.heap .platform = x.heap .platform := by
    intro x y hxy
    funext a
    rcases hxy.platform a with hsame | ⟨ha, -⟩
    · exact hsame
    · cases ha
  have hearly : s₂.heap .platform = s.heap .platform := by
    rw [hnone hafter, htaken.heap, hnone hbefore]
  constructor
  case consumer =>
    rw [hrest.consumer, hdestroyed.consumer, hafter.consumer, htaken.heap, hbefore.consumer]
  case platform =>
    intro a
    rw [hnone hrest, ← hearly]
    exact hdestroyed.platform a
  case unlocked =>
    rw [hrest.unlocked, hdestroyed.unlocked, hafter.unlocked, htaken.setLock, hbefore.unlocked]
  case loadBalancing =>
    rw [hrest.loadBalancing, hdestroyed.loadBalancing, hafter.loadBalancing, htaken.loadBalancing,
      hbefore.loadBalancing]
  case sound =>
    rw [hrest.offer, hdestroyed.offer, hafter.offer, htaken.sound, hbefore.offer]
  case offer =>
    intro id a
    rw [hrest.offer, hdestroyed.offer, hafter.offer, htaken.offer, hbefore.offer, hnone hbefore]

theorem Departed.platformOf (h : Departed p s s') : s'.platformOf = s.platformOf := by
  funext c
  rw [State.platformOf, State.platformOf, h.consumer]

theorem Departed.mem_iff : a ∈ (s.sets (.platforms p)).items.map Prod.snd ↔
    ∃ id, (s.sets (.platforms p)).lookup id = some a := by
  constructor
  · intro ha
    obtain ⟨x, hx, rfl⟩ := List.mem_map.mp ha
    exact ⟨x.1, IdSet.mem_items.mp hx⟩
  · rintro ⟨id, hid⟩
    exact List.mem_map_of_mem (f := Prod.snd) (IdSet.mem_items.mpr hid)

/-- A provider none of whose platforms is held leaves the matching as it was. -/
theorem Balanced.depart (h : Balanced s) (hd : Departed p s s')
    (hfree : ∀ id a, (s.sets (.platforms p)).lookup id = some a → s.holderOf a = none) :
    Balanced s' := by
  have hholder : s'.holderOf = s.holderOf := by
    funext a
    rcases hd.platform a with hsame | ⟨ha, hgone⟩
    · rw [State.holderOf, State.holderOf, hsame]
    · obtain ⟨id, hid⟩ := Departed.mem_iff.mp ha
      rw [hfree id a hid, State.holderOf, hgone, Option.bind_none]
  have hstays : ∀ id a, (s'.sets .lbPlatforms).lookup id = some a →
      s'.heap .platform a = s.heap .platform a := by
    intro id a hid
    obtain ⟨hold, hno⟩ := (hd.offer id a).mp hid
    obtain ⟨pf, hpf, hpid⟩ := h.entry id a hold
    rcases hd.platform a with hsame | ⟨ha, -⟩
    · exact hsame
    · exact absurd hpid (hno a ha pf hpf)
  constructor
  case loadBalancing => rw [hd.loadBalancing, h.loadBalancing]
  case matched =>
    rw [hd.platformOf, hholder]
    exact h.matched
  case offered =>
    intro c q hc
    rw [hd.platformOf] at hc
    obtain ⟨id, hid⟩ := h.offered c q hc
    refine ⟨id, (hd.offer id q).mpr ⟨hid, fun b hb pf hpf hsame => ?_⟩⟩
    obtain ⟨qf, hqf, hqid⟩ := h.entry id q hid
    have hbq : b = q := h.ids b q pf qf hpf hqf (hsame.trans hqid.symm)
    obtain ⟨id', hid'⟩ := Departed.mem_iff.mp hb
    have hheld := (h.matched c q).mp hc
    rw [← hbq, hfree id' b hid'] at hheld
    cases hheld
  case sound => rw [hd.sound, h.sound]
  case unlocked => rw [hd.unlocked, h.unlocked]
  case entry =>
    intro id a hid
    rw [hstays id a hid]
    exact h.entry id a ((hd.offer id a).mp hid).1
  case ids =>
    have hold : ∀ a pf, s'.heap .platform a = some pf → s.heap .platform a = some pf := by
      intro a pf hpf
      rcases hd.platform a with hsame | ⟨-, hgone⟩
      · rw [← hsame, hpf]
      · rw [hgone] at hpf
        cases hpf
    intro a b pf pf' ha hb
    exact h.ids a b pf pf' (hold a pf ha) (hold b pf' hb)

/-- A provider with a platform that is held takes it off the offer. -/
theorem Balanced.not_balances (h : Balanced s) (hd : Departed p s s')
    (hid : (s.sets (.platforms p)).lookup id = some a) (hheld : s.holderOf a ≠ none) :
    ¬ Balances s' := by
  intro hbalances
  obtain ⟨c, hc⟩ := Option.ne_none_iff_exists'.mp hheld
  have hof : s.platformOf c = some a := (h.matched c a).mpr hc
  obtain ⟨id', hoffer⟩ := hbalances.offered c a (by rw [hd.platformOf, hof])
  obtain ⟨hold, hno⟩ := (hd.offer id' a).mp hoffer
  obtain ⟨pf, hpf, hpid⟩ := h.entry id' a hold
  exact hno a (Departed.mem_iff.mpr ⟨id, hid⟩) pf hpf hpid

theorem Balanced.step (h : Balanced s) {o : BalanceStep} {b : Bool} (hadm : o.Admissible s)
    (hfree : o.Unheld s) (hr : o.run s = .done s' b) : Balanced s' := by
  cases o with
  | add p a => exact h.add hadm hr
  | allocate c => exact h.allocate hadm.1 hadm.2 hr
  | detach c => exact h.detach hr
  | disconnect p =>
    obtain ⟨s₁, u, hrun, hend⟩ := Outcome.bind_eq_done hr
    obtain ⟨rfl, -⟩ := Outcome.done.inj hend
    exact h.depart (departed_of_run h.loadBalancing hrun) hfree

theorem balanced_of_reach {init : State} (hinit : Unallocated init)
    (h : BalanceReach (fun s o => o.Unheld s) init s) : Balanced s := by
  induction h with
  | refl => exact hinit.balanced
  | step o _ hadm hfree hr ih => exact ih.step hadm hfree hr

/-- In every run in which no provider leaves while a platform of its is held the load balancer is in
balance; and it stays so when a provider leaves exactly if none of its platforms is held. -/
theorem staysBalanced {init : State} (hinit : Unallocated init)
    (h : BalanceReach (fun s o => o.Unheld s) init s) :
    Balances s ∧ ∀ p s', (BalanceStep.disconnect p).run s = .done s' true →
      (Balances s' ↔ (BalanceStep.disconnect p).Unheld s) := by
  have hbalanced := balanced_of_reach hinit h
  refine ⟨hbalanced.balances, fun p s' hr => ?_⟩
  constructor
  · intro hafter id a hid
    by_contra hheld
    obtain ⟨s₁, u, hrun, hend⟩ := Outcome.bind_eq_done hr
    obtain ⟨rfl, -⟩ := Outcome.done.inj hend
    have hd := departed_of_run hbalanced.loadBalancing hrun
    exact hbalanced.not_balances hd hid hheld hafter
  · intro hfree
    have hadm : (BalanceStep.disconnect p).Admissible s := trivial
    exact (hbalanced.step hadm hfree hr).balances

/-- The small agent with load balancing. -/
def State.balancing : State := { State.small someIds with loadBalancing := true }

theorem unallocated_balancing : Unallocated State.balancing where
  loadBalancing := rfl
  offer := rfl
  unlocked := rfl
  ids := by
    intro a b pf pf' ha hb _
    have hplatform : ∀ a pf, State.balancing.heap .platform a = some pf → a = 5 := by
      intro a pf ha
      by_contra hne
      simp [State.balancing, State.small, hne] at ha
    rw [hplatform a pf ha, hplatform b pf' hb]
  consumers := by
    intro c
    by_cases hc : c = 3 ∨ c = 4
    · simp [State.platformOf, State.balancing, State.small, hc]
    · simp [State.platformOf, State.balancing, State.small, hc]
  platforms := by
    intro p
    by_cases hp : p = 5
    · simp [State.holderOf, State.balancing, State.small, hp]
    · simp [State.holderOf, State.balancing, State.small, hp]

theorem admissible_balancing : (BalanceStep.add 1 5).Admissible State.balancing :=
  fun _ _ => IdSet.not_mem_empty _

/-- The platform is put on offer, consumer 3 gets it, and lets go of it. -/
theorem staysBalanced_release :
    ((BalanceStep.add 1 5).run .balancing).Ends fun s _ =>
      ((BalanceStep.allocate 3).run s).Ends fun s b => b = true ∧
        ((BalanceStep.detach 3).run s).Ends fun s _ => Balances s := by
  have hends : ((BalanceStep.add 1 5).run .balancing).Ends fun s _ =>
      ((s.heap .consumer 3).isSome ∧ s.platformOf 3 = none) ∧
      ((BalanceStep.allocate 3).run s).Ends fun s b => b = true ∧
        ((BalanceStep.detach 3).run s).Ends fun _ _ => True := by
    decide
  obtain ⟨s₁, b₁, hadd, hadm, hends⟩ := Outcome.ends_iff.mp hends
  obtain ⟨s₂, b₂, hallocate, hb, hends⟩ := Outcome.ends_iff.mp hends
  obtain ⟨s₃, b₃, hdetach, -⟩ := Outcome.ends_iff.mp hends
  have hreach₁ : BalanceReach (fun s o => o.Unheld s) .balancing s₁ :=
    .step (.add 1 5) .refl admissible_balancing trivial hadd
  have hreach₂ : BalanceReach (fun s o => o.Unheld s) .balancing s₂ :=
    .step (.allocate 3) hreach₁ hadm trivial hallocate
  have hreach₃ : BalanceReach (fun s o => o.Unheld s) .balancing s₃ :=
    .step (.detach 3) hreach₂ trivial trivial hdetach
  refine Outcome.ends_iff.mpr ⟨s₁, b₁, hadd, Outcome.ends_iff.mpr ⟨s₂, b₂, hallocate, hb, ?_⟩⟩
  exact Outcome.ends_iff.mpr ⟨s₃, b₃, hdetach, (staysBalanced unallocated_balancing hreach₃).1⟩

/-- The provider leaves while consumer 3 holds the platform: the consumer's pointer stays. -/
theorem not_balances_departure : ¬ ∀ s : State,
    BalanceReach (fun _ _ => True) .balancing s → Balances s := by
  intro h
  have hends : ((BalanceStep.add 1 5).run .balancing).Ends fun s _ =>
      ((s.heap .consumer 3).isSome ∧ s.platformOf 3 = none) ∧
      ((BalanceStep.allocate 3).run s).Ends fun s _ =>
        ((BalanceStep.disconnect 1).run s).Ends fun s _ =>
          s.platformOf 3 = some 5 ∧ s.holderOf 5 = none := by
    decide
  obtain ⟨s₁, b₁, hadd, hadm, hends⟩ := Outcome.ends_iff.mp hends
  obtain ⟨s₂, b₂, hallocate, hends⟩ := Outcome.ends_iff.mp hends
  obtain ⟨s₃, b₃, hdisconnect, hof, hholder⟩ := Outcome.ends_iff.mp hends
  have hreach₁ : BalanceReach (fun _ _ => True) .balancing s₁ :=
    .step (.add 1 5) .refl admissible_balancing trivial hadd
  have hreach₂ : BalanceReach (fun _ _ => True) .balancing s₂ :=
    .step (.allocate 3) hreach₁ hadm trivial hallocate
  have hreach₃ : BalanceReach (fun _ _ => True) .balancing s₃ :=
    .step (.disconnect 1) hreach₂ trivial trivial hdisconnect
  have hback := ((h s₃ hreach₃).both 3 5).mp hof
  rw [hholder] at hback
  cases hback

end Clara.Agent
