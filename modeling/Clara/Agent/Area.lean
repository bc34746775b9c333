import Clara.Agent.State
import Clara.Common.Sockets
import Clara.Lib.Interleave

/-! The parts of the agent's state: which of them each operation changes, and properties of
programs that are closed under composition and hold of the operations on some parts. -/
namespace Clara.Agent

open Conc

/-- The parts of the state that operations change. -/
inductive Area
  /-- Nothing. -/
  | look
  /-- The locks of sets. -/
  | visit
  /-- Buffers, flags, the load balancer, phases of consumers. -/
  | scratch
  /-- Phases of providers. -/
  | turn
  /-- Connections other than to a provider. -/
  | answer
  /-- Connections to providers. -/
  | wire
  | arrival
  /-- Locks of providers and objects. -/
  | lock
  /-- Reference counts and the consumers' own sets of objects. -/
  | count
  /-- Objects and the agent's table of them. -/
  | object
  /-- Entries made in the pool of ids. -/
  | reserve
  /-- Entries taken out of it. -/
  | release
  /-- Allocations, and the sets of them as wholes. -/
  | allocation
  /-- The entries of the sets of allocations. -/
  | allocated
  /-- Platforms, devices and the entries of the sets of them. -/
  | platform
  /-- The sets of platforms and devices as wholes. -/
  | roster
  /-- Providers and the set of them. -/
  | provider
  /-- Consumers and the set of them. -/
  | consumer
  /-- The agent's own sets as wholes: no thread creates or destroys them. -/
  | agent
  deriving DecidableEq

def Sd.area : Sd → Area
  | .provider _ => .wire
  | .listener | .consumer _ => .answer

def Kind.area : Kind → Area
  | .lock => .lock
  | .object => .object
  | .provider => .provider
  | .consumer => .consumer
  | .platform | .device => .platform
  | .allocation => .allocation
  | .buffer => .scratch

def Kind.storeArea : Kind → Area
  | .object => .count
  | _ => .scratch

def SetRef.area : SetRef → Area
  | .providers => .provider
  | .consumers => .consumer
  | .idPool => .reserve
  | .objects => .object
  | .lbPlatforms => .scratch
  | .platforms _ | .devices _ => .platform
  | .objectsOf _ => .count
  | .allocations _ => .allocated

def SetRef.removeArea : SetRef → Area
  | .idPool => .release
  | r => r.area

/-- Creating or destroying a set of the agent is apart from using it. -/
def SetRef.wholeArea : SetRef → Area
  | .providers | .consumers | .idPool | .objects | .lbPlatforms => .agent
  | .platforms _ | .devices _ => .roster
  | .objectsOf _ => .count
  | .allocations _ => .allocation

def NetOp.area : NetOp Sd → Area
  | .sendmsg sd _ _ | .send sd _ | .recv sd _ | .recvmsg sd _ => sd.area
  | .fail _ | .spin => .look

/-- The assertion on the agent's table counts as an access to it. -/
def Op.area : Op → Area
  | .new k _ | .free k _ => k.area
  | .store k _ _ => k.storeArea
  | .phase (.provider _) _ => .turn
  | .phase _ _ => .scratch
  | .lockWait _ | .lockPost _ => .lock
  | .setCreate r | .setDestroy r => r.wholeArea
  | .setInsert r _ _ => r.area
  | .setRemove r _ => r.removeArea
  | .setStart _ | .setFinish _ => .visit
  | .net o => NetOp.area o
  | .deliver _ _ => .arrival
  | .fail (.assertion .objectCreateInsert) => .object
  | _ => .look

section
variable {t : Tid} {s s' : State} {o : Op} {x : o.Res}

theorem ofSet_done {α β : Type} {y : Option α} {f : α → Outcome State Fault β} {b : β}
    (h : ofSet y f = .done s' b) : ∃ a, y = some a ∧ f a = .done s' b := by
  cases y with
  | none => cases h
  | some a => exact ⟨a, rfl, h⟩

theorem exec_read_done {k : Kind} {a : Addr} {r : k.Rec} (h : exec t (.read k a) s = .done s' r) :
    s' = s ∧ s.heap k a = some r := by
  simp only [exec] at h
  split at h
  · cases h
  · next r' hr =>
    obtain ⟨rfl, rfl⟩ := Outcome.done.inj h
    exact ⟨rfl, hr⟩

theorem exec_free_done {k : Kind} {a : Addr} {x : Unit} (h : exec t (.free k a) s = .done s' x) :
    ∃ r, s.heap k a = some r ∧ s' = s.put k a none := by
  simp only [exec] at h
  split at h
  · cases h
  · next r hr =>
    obtain ⟨rfl, -⟩ := Outcome.done.inj h
    exact ⟨r, hr, rfl⟩

theorem exec_setInsert_done {r : SetRef} {key : r.Key} {d : Addr} {b : Bool}
    (h : exec t (.setInsert r key d) s = .done s' b) :
    s' = s.putSet r ((s.sets r).add key d) ∧ b = decide (key ∉ s.sets r) ∧
      (s.sets r).damaged = false := by
  simp only [exec] at h
  split_ifs at h
  obtain ⟨⟨b', v⟩, hv, h⟩ := ofSet_done h
  obtain ⟨rfl, rfl⟩ := Outcome.done.inj h
  rw [IdSet.setInsert] at hv
  split_ifs at hv with hd
  obtain ⟨rfl, rfl⟩ := Prod.mk.inj (Option.some.inj hv)
  exact ⟨rfl, rfl, by simpa using hd⟩

theorem exec_setRemove_done {r : SetRef} {key : r.Key} {b : Bool}
    (h : exec t (.setRemove r key) s = .done s' b) :
    s' = s.putSet r ((s.sets r).erase key) ∧ b = decide (key ∈ s.sets r) := by
  simp only [exec] at h
  split_ifs at h
  obtain ⟨⟨b', v⟩, hv, h⟩ := ofSet_done h
  obtain ⟨rfl, rfl⟩ := Outcome.done.inj h
  rw [IdSet.setRemove] at hv
  split_ifs at hv
  obtain ⟨rfl, rfl⟩ := Prod.mk.inj (Option.some.inj hv)
  exact ⟨rfl, rfl⟩

theorem exec_setFind_done {r : SetRef} {key : r.Key} {d : Option Addr}
    (h : exec t (.setFind r key) s = .done s' d) : s' = s ∧ d = (s.sets r).lookup key := by
  simp only [exec] at h
  split_ifs at h
  obtain ⟨d', hd, h⟩ := ofSet_done h
  obtain ⟨rfl, rfl⟩ := Outcome.done.inj h
  rw [IdSet.setFind] at hd
  split_ifs at hd
  exact ⟨rfl, (Option.some.inj hd).symm⟩

inductive Change (t : Tid) (s : State) : Op → State → Prop
  | same (o : Op) : Change t s o s
  | new (k : Kind) (r : k.Rec) :
    Change t s (.new k r) { s.put k s.next (some r) with next := s.next + 1 }
  | store (k : Kind) (a : Addr) (v : k.Store) (r : k.Rec) (h : s.heap k a = some r) :
    Change t s (.store k a v) (s.put k a (some (k.store v r)))
  | free (k : Kind) (a : Addr) (r : k.Rec) (h : s.heap k a = some r) :
    Change t s (.free k a) (s.put k a none)
  | lockWait (l : Addr) (lock lock' : Lock) (h : s.heap .lock l = some lock)
    (hw : lock.wait t = some lock') : Change t s (.lockWait l) (s.put .lock l (some lock'))
  | lockPost (l : Addr) (lock lock' : Lock) (h : s.heap .lock l = some lock)
    (hw : lock.post t = some lock') : Change t s (.lockPost l) (s.put .lock l (some lock'))
  | setCreate (r : SetRef) : Change t s (.setCreate r) (s.putSet r .empty)
  | setDestroy (r : SetRef) :
    Change t s (.setDestroy r) (s.putSet r { IdSet.empty with damaged := true })
  | setInsert (r : SetRef) (key : r.Key) (d : Addr) :
    Change t s (.setInsert r key d) (s.putSet r ((s.sets r).add key d))
  | setRemove (r : SetRef) (key : r.Key) :
    Change t s (.setRemove r key) (s.putSet r ((s.sets r).erase key))
  | setLock (o : Op) (r : SetRef) (l : Lock) (h : o.area = .visit) : Change t s o (s.putLock r l)
  | draw : Change t s .rand { s with draws := s.draws + 1 }
  | phase (u : Tid) (ph : Phase) :
    Change t s (.phase u ph) { s with phase := Function.update s.phase u ph }
  | net (o : Op) (n : Net Sd) : Change t s o { s with net := n }

theorem change_of_done (h : exec t o s = .done s' x) : Change t s o s' := by
  cases o with
  | new k r =>
    obtain ⟨rfl, -⟩ := Outcome.done.inj h
    exact .new k r
  | read k a =>
    obtain ⟨rfl, -⟩ := exec_read_done h
    exact .same _
  | store k a v =>
    simp only [exec] at h
    split at h
    · cases h
    · next r hr =>
      obtain ⟨rfl, -⟩ := Outcome.done.inj h
      exact .store k a v r hr
  | free k a =>
    obtain ⟨r, hr, rfl⟩ := exec_free_done h
    exact .free k a r hr
  | lockWait l =>
    simp only [exec] at h
    split at h
    · cases h
    · next lock hl =>
      split at h
      · cases h
      · next lock' hw =>
        obtain ⟨rfl, -⟩ := Outcome.done.inj h
        exact .lockWait l lock lock' hl hw
  | lockPost l =>
    simp only [exec] at h
    split at h
    · cases h
    · next lock hl =>
      split at h
      · cases h
      · next lock' hw =>
        obtain ⟨rfl, -⟩ := Outcome.done.inj h
        exact .lockPost l lock lock' hl hw
  | setCreate r =>
    obtain ⟨rfl, -⟩ := Outcome.done.inj h
    exact .setCreate r
  | setDestroy r =>
    simp only [exec] at h
    split_ifs at h
    obtain ⟨rfl, -⟩ := Outcome.done.inj h
    exact .setDestroy r
  | setInsert r key d =>
    obtain ⟨rfl, -⟩ := exec_setInsert_done h
    exact .setInsert r key d
  | setRemove r key =>
    obtain ⟨rfl, -⟩ := exec_setRemove_done h
    exact .setRemove r key
  | setFind r key =>
    obtain ⟨rfl, -⟩ := exec_setFind_done h
    exact .same _
  | setCount r =>
    obtain ⟨l, -, h⟩ := ofSet_done h
    obtain ⟨rfl, -⟩ := Outcome.done.inj h
    exact .same _
  | setStart r =>
    simp only [exec] at h
    split at h
    · cases h
    · obtain ⟨l, -, h⟩ := ofSet_done h
      obtain ⟨rfl, -⟩ := Outcome.done.inj h
      exact .setLock _ r _ rfl
  | setFinish r =>
    simp only [exec] at h
    split at h
    · cases h
    · obtain ⟨rfl, -⟩ := Outcome.done.inj h
      exact .setLock _ r _ rfl
  | rand =>
    obtain ⟨rfl, -⟩ := Outcome.done.inj h
    exact .draw
  | loadBalancing =>
    obtain ⟨rfl, -⟩ := Outcome.done.inj h
    exact .same _
  | memory n =>
    obtain ⟨rfl, -⟩ := Outcome.done.inj h
    exact .same _
  | phase u ph =>
    obtain ⟨rfl, -⟩ := Outcome.done.inj h
    exact .phase u ph
  | net o =>
    simp only [exec] at h
    split at h
    · obtain ⟨rfl, -⟩ := Outcome.done.inj h
      exact .net _ _
    · cases h
    · cases h
  | deliver sd i =>
    obtain ⟨rfl, -⟩ := Outcome.done.inj h
    exact .net _ _
  | fail f => cases h
  | spin => cases h

theorem exec_net_done {o : NetOp Sd} {x : o.Res} (h : exec t (.net o) s = .done s' x) :
    ∃ net, Net.exec o s.net = .done net x ∧ s' = { s with net := net } := by
  simp only [exec] at h
  split at h
  · next net r hn =>
    obtain ⟨rfl, rfl⟩ := Outcome.done.inj h
    exact ⟨net, hn, rfl⟩
  · cases h
  · cases h

theorem exec_net (h : exec t o s = .done s' x) :
    s'.net = s.net ∨ (∃ n r, o = .net n ∧ Net.exec n s.net = .done s'.net r) ∨
      ∃ sd i, o = .deliver sd i ∧ s'.net = s.net.withInq sd ((s.net sd).inq ++ [i]) := by
  cases o with
  | net n =>
    simp only [exec] at h
    split at h
    · next net r hn =>
      obtain ⟨rfl, -⟩ := Outcome.done.inj h
      exact .inr (.inl ⟨n, r, rfl, hn⟩)
    · cases h
    · cases h
  | deliver sd i =>
    obtain ⟨rfl, -⟩ := Outcome.done.inj h
    exact .inr (.inr ⟨sd, i, rfl, rfl⟩)
  | fail f => cases h
  | spin => cases h
  | _ =>
    left
    simp only [exec, ofSet] at h
    repeat' split at h
    all_goals first
      | (obtain ⟨rfl, -⟩ := Outcome.done.inj h
         rfl)
      | cases h

/-- A connection that the operation is not about stays as it is. -/
theorem exec_conn {sd : Sd} (h : exec t o s = .done s' x) (ho : o.area ≠ sd.area)
    (ha : o.area ≠ .arrival) : s'.net sd = s.net sd := by
  obtain hn | ⟨n, r, rfl, hn⟩ | ⟨sd', i, rfl, -⟩ := exec_net h
  · rw [hn]
  · refine Net.exec_conn (T := (· ≠ sd)) ?_ hn (not_not_intro rfl)
    cases n with
    | sendmsg sd' type msg => exact fun h => ho (congrArg Sd.area h)
    | send sd' msg => exact fun h => ho (congrArg Sd.area h)
    | recv sd' len => exact fun h => ho (congrArg Sd.area h)
    | recvmsg sd' len => exact fun h => ho (congrArg Sd.area h)
    | fail f => trivial
    | spin => trivial
  · exact absurd rfl ha

namespace Change

theorem next_le (h : Change t s o s') : s.next ≤ s'.next := by
  cases h with
  | new k r => exact Nat.le_succ _
  | _ => exact le_rfl

theorem heap (h : Change t s o s') {k : Kind} (hk : o.area ≠ k.area) (a : Addr) :
    s'.heap k a = s.heap k a ∨
      ∃ r v, s.heap k a = some r ∧ s'.heap k a = some (k.store v r) ∧ o = .store k a v := by
  cases h with
  | new k' r =>
    have hne : k ≠ k' := fun h => hk (by rw [h]; rfl)
    exact .inl (congrFun (s.put_heap_kind s.next (some r) hne) a)
  | store k' b v r hr =>
    by_cases hkk : k = k'
    · subst hkk
      rcases eq_or_ne a b with rfl | hne
      · exact .inr ⟨r, v, hr, by simp, rfl⟩
      · exact .inl (s.put_heap_of_ne _ hne)
    · exact .inl (congrFun (s.put_heap_kind b _ hkk) a)
  | free k' b r hr =>
    have hne : k ≠ k' := fun h => hk (by rw [h]; rfl)
    exact .inl (congrFun (s.put_heap_kind b none hne) a)
  | lockWait l lock lock' hl hw =>
    have hne : k ≠ .lock := fun h => hk (by rw [h]; rfl)
    exact .inl (congrFun (s.put_heap_kind l _ hne) a)
  | lockPost l lock lock' hl hw =>
    have hne : k ≠ .lock := fun h => hk (by rw [h]; rfl)
    exact .inl (congrFun (s.put_heap_kind l _ hne) a)
  | _ => exact .inl rfl

theorem sets (h : Change t s o s') {r : SetRef} (hr : o.area ≠ r.area)
    (hrem : o.area ≠ r.removeArea) (hw : o.area ≠ r.wholeArea) : s'.sets r = s.sets r := by
  cases h with
  | setCreate r' =>
    have hne : r ≠ r' := fun h => hw (by rw [h]; rfl)
    exact s.putSet_sets_of_ne _ hne
  | setDestroy r' =>
    have hne : r ≠ r' := fun h => hw (by rw [h]; rfl)
    exact s.putSet_sets_of_ne _ hne
  | setInsert r' key d =>
    have hne : r ≠ r' := fun h => hr (by rw [h]; rfl)
    exact s.putSet_sets_of_ne _ hne
  | setRemove r' key =>
    have hne : r ≠ r' := fun h => hrem (by rw [h]; rfl)
    exact s.putSet_sets_of_ne _ hne
  | _ => rfl

/-- A set that no entry is made in has no entries it did not have. -/
theorem lookup_of (h : Change t s o s') {r : SetRef} (hr : o.area ≠ r.area) {key : r.Key}
    {d : Addr} (hd : (s'.sets r).lookup key = some d) : (s.sets r).lookup key = some d := by
  have hput : ∀ (r' : SetRef) (v : IdSet r'.Key Addr), (∀ k, v.lookup k = none) →
      s' = s.putSet r' v → (s.sets r).lookup key = some d := fun r' v hv hs => by
    subst hs
    by_cases hrr : r = r'
    · subst hrr
      rw [State.putSet_sets_self, hv] at hd
      cases hd
    · rwa [s.putSet_sets_of_ne v hrr] at hd
  cases h with
  | setCreate r' => exact hput r' _ (fun _ => rfl) rfl
  | setDestroy r' => exact hput r' _ (fun _ => rfl) rfl
  | setInsert r' key' d' =>
    have hne : r ≠ r' := fun h => hr (by rw [h]; rfl)
    rwa [s.putSet_sets_of_ne _ hne] at hd
  | setRemove r' key' =>
    by_cases hrr : r = r'
    · subst hrr
      rw [State.putSet_sets_self, IdSet.lookup_erase] at hd
      split_ifs at hd
      exact hd
    · rwa [s.putSet_sets_of_ne _ hrr] at hd
  | _ => exact hd

/-- A record at a used address was there before, up to a store. -/
theorem old (h : Change t s o s') {k : Kind} (hk : k ≠ .lock) {a : Addr} (ha : a < s.next)
    {r' : k.Rec} (hr : s'.heap k a = some r') :
    ∃ r, s.heap k a = some r ∧ (r' = r ∨ ∃ v, r' = k.store v r) := by
  cases h with
  | new k' r =>
    have hold : (s.put k' s.next (some r)).heap k a = s.heap k a := by
      by_cases hkk : k = k'
      · subst hkk
        exact s.put_heap_of_ne _ ha.ne
      · exact congrFun (s.put_heap_kind _ _ hkk) a
    exact ⟨r', hold.symm.trans hr, .inl rfl⟩
  | store k' b v r hb =>
    by_cases hkk : k = k'
    · subst hkk
      rcases eq_or_ne a b with rfl | hne
      · rw [State.put_heap_self] at hr
        exact ⟨r, hb, .inr ⟨v, (Option.some.inj hr).symm⟩⟩
      · exact ⟨r', (s.put_heap_of_ne _ hne).symm.trans hr, .inl rfl⟩
    · exact ⟨r', (congrFun (s.put_heap_kind b _ hkk) a).symm.trans hr, .inl rfl⟩
  | free k' b r hb =>
    by_cases hkk : k = k'
    · subst hkk
      rcases eq_or_ne a b with rfl | hne
      · rw [State.put_heap_self] at hr
        cases hr
      · exact ⟨r', (s.put_heap_of_ne _ hne).symm.trans hr, .inl rfl⟩
    · exact ⟨r', (congrFun (s.put_heap_kind b _ hkk) a).symm.trans hr, .inl rfl⟩
  | lockWait l lock lock' hl hw =>
    exact ⟨r', (congrFun (s.put_heap_kind l _ hk) a).symm.trans hr, .inl rfl⟩
  | lockPost l lock lock' hl hw =>
    exact ⟨r', (congrFun (s.put_heap_kind l _ hk) a).symm.trans hr, .inl rfl⟩
  | _ => exact ⟨r', hr, .inl rfl⟩

theorem phase_provider (h : Change t s o s') (ho : o.area ≠ .turn) (p : Addr) :
    s'.phase (.provider p) = s.phase (.provider p) := by
  cases h with
  | phase u ph =>
    have hne : Tid.provider p ≠ u := fun h => ho (by rw [← h]; rfl)
    exact Function.update_of_ne hne ..
  | _ => rfl

theorem phase_consumer (h : Change t s o s') (ho : o.area ≠ .scratch) (c : Addr) :
    s'.phase (.consumer c) = s.phase (.consumer c) := by
  cases h with
  | phase u ph =>
    have hne : Tid.consumer c ≠ u := fun h => ho (by rw [← h]; rfl)
    exact Function.update_of_ne hne ..
  | _ => rfl

theorem fresh (h : Change t s o s') (hf : s.Fresh) : s'.Fresh := by
  have hput : ∀ (k : Kind) (b : Addr) (v : Option k.Rec), (b < s.next ∨ v = none) →
      (s.put k b v).Fresh := fun k b v hb k' a ha => by
    by_cases hk : k' = k
    · subst hk
      rcases eq_or_ne a b with rfl | hne
      · rcases hb with hb | rfl
        · exact absurd ha (not_le.mpr hb)
        · simp
      · rw [s.put_heap_of_ne _ hne, hf _ _ ha]
    · rw [s.put_heap_kind b v hk, hf _ _ ha]
  cases h with
  | new k r =>
    intro k' a ha
    have hne : a ≠ s.next := (Nat.lt_of_succ_le ha).ne'
    by_cases hk : k' = k
    · subst hk
      exact (s.put_heap_of_ne _ hne).trans (hf _ _ (Nat.le_of_succ_le ha))
    · exact (congrFun (s.put_heap_kind _ _ hk) a).trans (hf _ _ (Nat.le_of_succ_le ha))
  | store k b v r hr => exact hput k b _ (.inl (hf.lt hr))
  | free k b r hr => exact hput k b _ (.inr rfl)
  | lockWait l lock lock' hl hw => exact hput .lock l _ (.inl (hf.lt hl))
  | lockPost l lock lock' hl hw => exact hput .lock l _ (.inl (hf.lt hl))
  | _ => exact hf

end Change

end

/-- A property of programs that composition keeps and that holds of the operations within `S`. -/
structure Passes (S : List Area) (K : (α : Type) → AProg α → Prop) : Prop where
  pure : ∀ {α : Type} (a : α), K α (Pure.pure a)
  bind : ∀ {α β : Type} {p : AProg α} {f : α → AProg β}, K α p → (∀ a, K β (f a)) →
    K β (p >>= f)
  op : ∀ o : Op, o.area ∈ S → K o.Res (perform o)

theorem passes_all (S : List Area) : Passes S fun _ p => p.All fun o => o.area ∈ S where
  pure := Prog.all_pure
  bind := Prog.All.bind
  op _ h := Prog.all_perform.mpr h

section
variable {σ ρ : Type} {D : Discipline Op σ Fault Tid ρ}
  {e : Tid → (o : Op) → σ → Outcome σ Fault o.Res} {S : List Area} (t : Tid)
  (h : ∀ o : Op, o.area ∈ S → D.Harmless e o)

include h

theorem passes_steady : Passes S fun _ p => D.Steady e t p where
  pure := Discipline.steady_pure
  bind := Discipline.Steady.bind
  op o ho := (h o ho).steady

theorem passes_rests : Passes S fun _ p => D.Rests e t p where
  pure := Discipline.rests_pure
  bind := Discipline.Rests.bind
  op o ho := (h o ho).steady.rests

end

/-- What the operations come to on a state of which the agent's is a part: a failure is still the
end. -/
class Aborts {σ : Type} (e : Tid → (o : Op) → σ → Outcome σ Fault o.Res) : Prop where
  fault : ∀ t f s, e t (.fail f) s = .fault f

instance : Aborts exec := ⟨fun _ _ _ => rfl⟩

instance {ν : Type} (note : Tid → (o : Op) → State → o.Res → ν → ν) : Aborts (noted note exec) :=
  ⟨fun _ _ _ => rfl⟩

section
variable {σ ρ α : Type} {D : Discipline Op σ Fault Tid ρ}
  {e : Tid → (o : Op) → σ → Outcome σ Fault o.Res} {t : Tid} {r : ρ}

theorem keeps_ite {c : Prop} [Decidable c] {p q : AProg α} {Q : α → ρ → Prop}
    (hp : c → D.Keeps e t p r Q) (hq : ¬ c → D.Keeps e t q r Q) :
    D.Keeps e t (if c then p else q) r Q := by
  split_ifs with hc
  · exact hp hc
  · exact hq hc

variable [Aborts e]

theorem keeps_fail {f : Fault} (h : D.allowed f) {Q : α → ρ → Prop} :
    D.Keeps e t (fail f) r Q := by
  intro s own _ _ _
  rw [Aborts.fault (e := e)]
  exact h

theorem keeps_assert {b : Bool} {a : Assertion} {f : Unit → AProg α} {Q : α → ρ → Prop}
    (h : b = false → D.allowed (.assertion a)) (hf : b = true → D.Keeps e t (f ()) r Q) :
    D.Keeps e t (assert b a >>= f) r Q := by
  cases b with
  | true => exact hf rfl
  | false => exact (keeps_fail (h rfl) (Q := fun _ _ => False)).seq fun _ _ h => h.elim

theorem keeps_deref {β : Type} {x : Option β} {f : β → AProg α} {Q : α → ρ → Prop}
    (h : x = none → D.allowed .nullPointer) (hf : ∀ a, x = some a → D.Keeps e t (f a) r Q) :
    D.Keeps e t (deref x >>= f) r Q := by
  cases x with
  | none => exact (keeps_fail (h rfl) (Q := fun _ _ => False)).seq fun _ _ h => h.elim
  | some a => exact hf a rfl

end

section
variable {S : List Area} {K : (α : Type) → AProg α → Prop} (hK : Passes S K) {α : Type}

theorem passes_ite {c : Prop} [Decidable c] {p q : AProg α} (hp : K α p) (hq : K α q) :
    K α (if c then p else q) := by
  split_ifs
  · exact hp
  · exact hq

include hK

theorem passes_new (k : Kind) (r : k.Rec) (h : k.area ∈ S) : K Addr (new k r) := hK.op (.new k r) h

theorem passes_free (k : Kind) (a : Addr) (h : k.area ∈ S) : K Unit (free k a) := hK.op (.free k a) h

theorem passes_read (k : Kind) (a : Addr) (h : .look ∈ S) : K k.Rec (read k a) :=
  hK.op (.read k a) h

theorem passes_store (k : Kind) (a : Addr) (v : k.Store) (h : k.storeArea ∈ S) :
    K Unit (store k a v) := hK.op (.store k a v) h

theorem passes_lockWait (l : Addr) (h : .lock ∈ S) : K Unit (lockWait l) := hK.op (.lockWait l) h

theorem passes_lockPost (l : Addr) (h : .lock ∈ S) : K Unit (lockPost l) := hK.op (.lockPost l) h

theorem passes_setCreate (r : SetRef) (h : r.wholeArea ∈ S) : K Unit (setCreate r) :=
  hK.op (.setCreate r) h

theorem passes_setDestroy (r : SetRef) (h : r.wholeArea ∈ S) : K Unit (setDestroy r) :=
  hK.op (.setDestroy r) h

theorem passes_setInsert (r : SetRef) (key : r.Key) (d : Addr) (h : r.area ∈ S) :
    K Bool (setInsert r key d) := hK.op (.setInsert r key d) h

theorem passes_setRemove (r : SetRef) (key : r.Key) (h : r.removeArea ∈ S) :
    K Bool (setRemove r key) := hK.op (.setRemove r key) h

theorem passes_setFind (r : SetRef) (key : r.Key) (h : .look ∈ S) :
    K (Option Addr) (setFind r key) := hK.op (.setFind r key) h

theorem passes_setCount (r : SetRef) (h : .look ∈ S) : K ℕ (setCount r) := hK.op (.setCount r) h

theorem passes_setStart (r : SetRef) (h : .visit ∈ S) : K (List Addr) (setStart r) :=
  hK.op (.setStart r) h

theorem passes_setFinish (r : SetRef) (h : .visit ∈ S) : K Unit (setFinish r) :=
  hK.op (.setFinish r) h

theorem passes_rand (h : .look ∈ S) : K Candidate rand := hK.op .rand h

theorem passes_loadBalancing (h : .look ∈ S) : K Bool loadBalancing := hK.op .loadBalancing h

theorem passes_memory (n : ℕ) (h : .look ∈ S) : K Bool (memory n) := hK.op (.memory n) h

theorem passes_setPhase (u : Tid) (ph : Phase) (h : (Op.phase u ph).area ∈ S) :
    K Unit (setPhase u ph) := hK.op (.phase u ph) h

theorem passes_fail (f : Fault) (h : (Op.fail f).area ∈ S) : K α (fail f) :=
  hK.bind (hK.op (.fail f) h) nofun

theorem passes_spin (h : .look ∈ S) : K α spin := hK.bind (hK.op .spin h) nofun

theorem passes_assert (b : Bool) (a : Assertion) (h : (Op.fail (.assertion a)).area ∈ S) :
    K Unit (assert b a) := by
  cases b with
  | true => exact hK.pure ()
  | false => exact passes_fail hK _ h

theorem passes_deref (x : Option α) (h : .look ∈ S) : K α (deref x) := by
  cases x with
  | none => exact passes_fail hK _ h
  | some a => exact hK.pure a

/-- Programs that only use connections of certain areas. -/
theorem passes_net {p : NetProg Sd α} {T : Sd → Prop} (h : p.On T)
    (hT : ∀ sd, T sd → sd.area ∈ S) (hl : .look ∈ S) : K α (net p) := by
  induction p with
  | ret a => exact hK.pure a
  | op o k ih =>
    have ho : (Op.net o).area ∈ S := by
      have := h.1
      cases o with
      | sendmsg sd type msg => exact hT sd this
      | send sd msg => exact hT sd this
      | recv sd len => exact hT sd this
      | recvmsg sd len => exact hT sd this
      | fail f => exact hl
      | spin => exact hl
    exact hK.bind (hK.op (.net o) ho) fun r => ih r (h.2 r)

end

end Clara.Agent
