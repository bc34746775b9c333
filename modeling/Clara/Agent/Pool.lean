import Clara.Agent.Frame
import Clara.Agent.Query

/-! The pool of ids: what the ids in it stand for, and what the threads that are about to make them
stand for something, or have just ended that, have in hand. -/
namespace Clara.Agent

open Conc

/-- What is noted of a run about the allocations at providers. -/
structure Notes where
  /-- The requests for an allocation whose response has not been received. -/
  asked : List (Tid × Addr × Handle)
  /-- The allocations that a response was received for and that were not fetched since. -/
  made : List (Addr × Handle)

namespace Notes

def none : Notes := ⟨[], []⟩

/-- A request for an allocation asks for it, a response with its handle makes it, and the message
that a thread receives next is the response to its request. A request to fetch ends it. -/
def after (n : Notes) (t : Tid) : (o : Op) → o.Res → Notes
  | .net (.sendmsg (.provider p) type m), ssz =>
    if ssz.isNone then n
    else if type = Msg.allocateRequest then { n with asked := (t, p, m.wordAt 0) :: n.asked }
    else if type = Msg.fetchRequest then
      { n with made := n.made.filter fun x => x ≠ (p, m.wordAt 0) }
    else n
  | .net (.recvmsg (.provider p) _), response =>
    { asked := n.asked.filter fun x => ¬ (x.1 = t ∧ x.2.1 = p)
      made := ((n.asked.filter fun x => x.1 = t ∧ x.2.1 = p ∧
        response.stored = some (Bytes.word x.2.2)).map Prod.snd) ++ n.made }
  | _, _ => n

/-- The provider is attached and has an allocation with the handle. -/
def Outstanding (n : Notes) (s : State) (p : Addr) (handle : Handle) : Prop :=
  p ∈ s.sets .providers ∧ (p, handle) ∈ n.made

/-- The thread has asked the provider for the allocation, or got it. -/
def Awaits (n : Notes) (s : State) (t : Tid) (p : Addr) (handle : Handle) : Prop :=
  (t, p, handle) ∈ n.asked ∨ n.Outstanding s p handle

end Notes

abbrev execNoted : Tid → (o : Op) → State × Notes → Outcome (State × Notes) Fault o.Res :=
  noted (fun t o _ r n => n.after t o r) exec

def notingSystem (lzo : Lzo) (fuel : ℕ) : System Op Op.Res (State × Notes) Fault Tid Request :=
  (system lzo fuel).noting fun t o _ r n => n.after t o r

/-- The id names a registered platform or device, an object, an allocation of a consumer, or an
allocation at a provider. -/
def Accounted (x : State × Notes) (id : GlobalId) : Prop :=
  (x.1.platformAt id).isSome ∨ (x.1.deviceAt id).isSome ∨ id ∈ x.1.sets .objects ∨
    (∃ c, id ∈ x.1.sets (.allocations c)) ∨ ∃ p, x.2.Outstanding x.1 p id

/-- Between requests every id in the pool stands for something. So when nothing is left but what
was there before, the pool holds no id that it did not hold before. -/
def PoolAccounted (lzo : Lzo) (fuel : ℕ) (guard : Tid → Op → State × Notes → Prop) : Prop :=
  ∀ candidates loadBalancing memory c,
    (notingSystem lzo fuel).Reach guard (.idle (.initial candidates loadBalancing memory, .none)) c →
      c.Quiescent → (∀ id ∈ c.state.1.sets .idPool, Accounted c.state id) ∧
        ∀ c', (notingSystem lzo fuel).Reach guard c c' → c'.Quiescent →
          (∀ id, Accounted c'.state id → id ∈ c.state.1.sets .idPool) →
            ∀ id ∈ c'.state.1.sets .idPool, id ∈ c.state.1.sets .idPool

/-- No request for an allocation fails to be sent, no response to one is lost or has another handle,
and no allocation is fetched from its provider or left behind when the provider leaves. -/
def KeepsPool (t : Tid) : Op → State × Notes → Prop
  | .net (.sendmsg (.provider p) type m), (s, n) =>
    (type = Msg.allocateRequest → (s.net (.provider p)).sendFails.head? ≠ some true) ∧
    (type = Msg.fetchRequest → (s.net (.provider p)).sendFails.head? ≠ some true →
      ¬ n.Outstanding s p (m.wordAt 0))
  | .net (.recvmsg (.provider p) len), (s, n) => ∀ handle, (t, p, handle) ∈ n.asked →
    p ∈ s.sets .providers ∧ ∀ i later, (s.net (.provider p)).inq = i :: later →
      i.stored len = some (Bytes.word handle)
  | .setRemove .providers p, (s, n) => ∀ handle, ¬ n.Outstanding s p handle
  | _, _ => True

/-- What a thread knows about the ids in the pool that stand for nothing yet, or no more. -/
inductive Holding
  | empty
  /-- An id that was taken from the pool. -/
  | id (id : GlobalId)
  /-- An id for an allocation that the provider was asked for. -/
  | asked (provider : Addr) (id : GlobalId)
  /-- A platform without an object. -/
  | platform (platform : Addr) (id : GlobalId)
  /-- A device without an object. -/
  | device (device : Addr) (id : GlobalId)
  /-- An object that is not in the table yet. -/
  | fresh (object : Addr) (id : GlobalId)
  /-- An object that was found in the table. -/
  | seen (object : Addr) (id : GlobalId)
  /-- An object whose id is not in the pool any more. -/
  | dying (object : Addr) (id : GlobalId)
  /-- An object that is not in the table any more either. -/
  | erased (object : Addr)
  /-- An allocation of the thread's consumer. -/
  | opened (allocation : Addr) (handle : Handle)
  /-- An allocation that is not in its set any more. -/
  | removed (allocation : Addr) (handle : Handle)
  /-- The thread's consumer has no allocations. -/
  | emptied
  /-- A consumer whose thread has not been started. -/
  | coming (consumer : Addr)

namespace Holding

def object : Holding → Option Addr
  | .fresh a _ | .seen a _ | .dying a _ | .erased a => some a
  | _ => none

def ending : Holding → Option Addr
  | .dying a _ | .erased a => some a
  | _ => none

def keeps : Holding → Option GlobalId
  | .id i | .asked _ i | .platform _ i | .device _ i | .fresh _ i | .removed _ i => some i
  | _ => none

/-- The holding has nothing to do with the end or the beginning of an object. -/
def Light : Holding → Prop
  | .fresh _ _ | .dying _ _ | .erased _ => False
  | _ => True

/-- Records in hand have the names the thread knows, as long as they are there. -/
def Names (s : State) : Holding → Prop
  | .fresh a i | .seen a i | .dying a i => a < s.next ∧ ∀ o, s.heap .object a = some o → o.id = i
  | .platform a i => a < s.next ∧ ∀ r, s.heap .platform a = some r → r.globalId = i
  | .device a i => a < s.next ∧ ∀ r, s.heap .device a = some r → r.globalId = i
  | .opened a i | .removed a i => a < s.next ∧ ∀ r, s.heap .allocation a = some r → r.handle = i
  | .erased a => a < s.next
  | .coming c => c < s.next
  | .empty | .id _ | .asked _ _ | .emptied => True

section
variable {s : State} {r : Holding} {a : Addr}

theorem object_lt (h : r.Names s) (ha : r.object = some a) : a < s.next := by
  cases r with
  | fresh b i =>
    obtain rfl := Option.some.inj ha
    exact h.1
  | seen b i =>
    obtain rfl := Option.some.inj ha
    exact h.1
  | dying b i =>
    obtain rfl := Option.some.inj ha
    exact h.1
  | erased b =>
    obtain rfl := Option.some.inj ha
    exact h
  | _ => cases ha

theorem object_of_ending (h : r.ending = some a) : r.object = some a := by
  cases r with
  | dying b i => exact h
  | erased b => exact h
  | _ => cases h

theorem Light.ending (h : r.Light) : r.ending = none := by
  cases r with
  | dying b i => exact h.elim
  | erased b => exact h.elim
  | _ => rfl

theorem Light.ne_fresh (h : r.Light) (b : Addr) (i : GlobalId) : r ≠ .fresh b i := by
  rintro rfl
  exact h

theorem Light.ne_dying (h : r.Light) (b : Addr) (i : GlobalId) : r ≠ .dying b i := by
  rintro rfl
  exact h

end

/-- No operation gives a record another name. -/
theorem Names.change {s s' : State} {t : Tid} {o : Op} (hc : Change t s o s') {r : Holding}
    (h : r.Names s) : r.Names s' := by
  have hobj : ∀ {a i}, (a < s.next ∧ ∀ o, s.heap .object a = some o → o.id = i) →
      a < s'.next ∧ ∀ o, s'.heap .object a = some o → o.id = i := by
    rintro a i ⟨ha, hn⟩
    refine ⟨ha.trans_le hc.next_le, fun o' ho' => ?_⟩
    obtain ⟨o, ho, rfl | ⟨v, rfl⟩⟩ := hc.old (by decide) ha ho'
    · exact hn _ ho
    · cases v <;> exact hn o ho
  have hall : ∀ {a i}, (a < s.next ∧ ∀ r, s.heap .allocation a = some r → r.handle = i) →
      a < s'.next ∧ ∀ r, s'.heap .allocation a = some r → r.handle = i := by
    rintro a i ⟨ha, hn⟩
    refine ⟨ha.trans_le hc.next_le, fun r' hr' => ?_⟩
    obtain ⟨r, hr, rfl | ⟨v, -⟩⟩ := hc.old (by decide) ha hr'
    · exact hn _ hr
    · exact v.elim
  cases r with
  | fresh a i => exact hobj h
  | seen a i => exact hobj h
  | dying a i => exact hobj h
  | platform a i =>
    refine ⟨h.1.trans_le hc.next_le, fun r' hr' => ?_⟩
    obtain ⟨r, hr, rfl | ⟨v, rfl⟩⟩ := hc.old (by decide) h.1 hr'
    · exact h.2 _ hr
    · exact h.2 r hr
  | device a i =>
    refine ⟨h.1.trans_le hc.next_le, fun r' hr' => ?_⟩
    obtain ⟨r, hr, rfl | ⟨v, -⟩⟩ := hc.old (by decide) h.1 hr'
    · exact h.2 _ hr
    · exact v.elim
  | opened a i => exact hall h
  | removed a i => exact hall h
  | erased a => exact Nat.lt_of_lt_of_le h hc.next_le
  | coming c => exact Nat.lt_of_lt_of_le h hc.next_le
  | _ => trivial

end Holding

def State.Blank (s : State) (c : Addr) : Prop :=
  (s.sets (.allocations c)).damaged = true ∧ ∀ k, k ∉ s.sets (.allocations c)

/-- What threads have in hand fits the state, and they do not interfere. -/
structure Orderly (s : State) (own : Tid → Holding) : Prop where
  fresh : s.Fresh
  names : ∀ t, (own t).Names s
  entry : ∀ id a, (s.sets .objects).lookup id = some a →
    a < s.next ∧ ∀ o, s.heap .object a = some o → o.id = id
  untabled : ∀ t a id, own t = .fresh a id → ∀ k, (s.sets .objects).lookup k ≠ some a
  unshared : ∀ t u a id, own t = .fresh a id → (own u).object = some a → u = t
  unborn : ∀ c, s.next ≤ c → s.Blank c
  emptied : ∀ t, own t = .emptied → ∃ c, t = .consumer c ∧ ∀ k, k ∉ s.sets (.allocations c)
  coming : ∀ t c, own t = .coming c → t = .main ∧ s.Blank c

/-- An object is about to be freed a second time: the run cannot come to rest any more. -/
def Doomed (s : State) (own : Tid → Holding) : Prop :=
  ∃ t a, (own t).ending = some a ∧ (s.heap .object a = none ∨ ∃ u, u ≠ t ∧ (own u).ending = some a)

/-- The id is accounted for, or a thread answers for it. -/
def Explained (s : State) (n : Notes) (own : Tid → Holding) (id : GlobalId) : Prop :=
  (∃ a, (s.sets .objects).lookup id = some a ∧ ∀ t, own t ≠ .dying a id) ∨
    (∃ c, id ∈ s.sets (.allocations c)) ∨ (∃ p, n.Outstanding s p id) ∨
      ∃ t, (own t).keeps = some id

structure Accounts (s : State) (n : Notes) (own : Tid → Holding) : Prop where
  explained : ∀ id ∈ s.sets .idPool, Explained s n own id
  live : ∀ a o, s.heap .object a = some o → (s.sets .objects).lookup o.id = some a ∨
    ∃ t, own t = .fresh a o.id ∨ (own t).ending = some a
  dying : ∀ t a id, own t = .dying a id → (s.sets .objects).lookup id = some a

structure Pooled (s : State) (n : Notes) (own : Tid → Holding) : Prop extends Orderly s own where
  awaits : ∀ t p id, own t = .asked p id → n.Awaits s t p id
  accounts : ¬ Doomed s own → Accounts s n own

/-- While no thread is in the middle of anything the ids in the pool stand for something. -/
theorem Pooled.accounted {s : State} {n : Notes} {own : Tid → Holding} (h : Pooled s n own)
    (hrest : ∀ t, (own t).keeps = none ∧ (own t).ending = none) {id : GlobalId}
    (hid : id ∈ s.sets .idPool) : Accounted (s, n) id := by
  have hdoom : ¬ Doomed s own := by
    rintro ⟨t, a, ha, -⟩
    rw [(hrest t).2] at ha
    cases ha
  rcases (h.accounts hdoom).explained id hid with ⟨a, ha, -⟩ | hc | ho | ⟨t, ht⟩
  · exact .inr (.inr (.inl (IdSet.mem_of_lookup ha)))
  · exact .inr (.inr (.inr (.inl hc)))
  · exact .inr (.inr (.inr (.inr ho)))
  · rw [(hrest t).1] at ht
    cases ht

theorem pooled_initial (candidates : ℕ → Candidate) (lb : Bool) (memory : Addr → ℕ → Bool) :
    Pooled (.initial candidates lb memory) .none fun _ => .empty where
  fresh _ _ _ := rfl
  names _ := trivial
  entry _ _ h := by cases h
  untabled _ _ _ h := by cases h
  unshared _ _ _ _ h := by cases h
  unborn _ _ := ⟨rfl, fun k => IdSet.not_mem_iff.mpr rfl⟩
  emptied _ h := by cases h
  coming _ _ h := by cases h
  awaits _ _ _ h := by cases h
  accounts _ :=
    { explained := fun id h => absurd h (IdSet.not_mem_empty id)
      live := fun a o h => by cases h
      dying := fun t a id h => by cases h }

section
variable {s s' : State} {n n' : Notes} {own : Tid → Holding} {t : Tid} {r : Holding}

/-- Thread `t` goes on with `r` in hand: what may happen to the sets, and where `r` comes from. -/
structure Advance (s s' : State) (own : Tid → Holding) (t : Tid) (r : Holding) : Prop where
  change : ∃ o, Change t s o s'
  names : r.Names s'
  entry : ∀ id a, (s'.sets .objects).lookup id = some a → (s.sets .objects).lookup id = some a ∨
    own t = .fresh a id ∧ ∀ i, r ≠ .fresh a i
  allocated : ∀ c k, k ∈ s'.sets (.allocations c) → k ∈ s.sets (.allocations c) ∨
    t = .consumer c ∧ (s.sets (.allocations c)).damaged = false
  damaged : ∀ c, (s.sets (.allocations c)).damaged = true →
    (s'.sets (.allocations c)).damaged = true ∨ own t = .coming c ∧ r ≠ .coming c
  fresh : ∀ a id, r = .fresh a id → own t = .fresh a id ∨ s.next ≤ a
  object : ∀ a, r.object = some a → (own t).object = some a ∨ s.next ≤ a ∨
    ∃ k, (s.sets .objects).lookup k = some a
  emptied : r = .emptied → ∃ c, t = .consumer c ∧ ∀ k, k ∉ s'.sets (.allocations c)
  coming : ∀ c, r = .coming c → t = .main ∧ (own t = .coming c ∨ s.next ≤ c)

theorem Orderly.advance (h : Orderly s own) (ha : Advance s s' own t r) :
    Orderly s' (Function.update own t r) := by
  obtain ⟨o, hc⟩ := ha.change
  -- a set that no thread may use stays as it is
  have hblank : ∀ c, s.Blank c → (own t = .coming c → r = .coming c) → s'.Blank c := by
    rintro c ⟨hd, hn⟩ hcom
    constructor
    · rcases ha.damaged c hd with hd' | ⟨ho, hr⟩
      · exact hd'
      · exact absurd (hcom ho) hr
    · intro k hk
      rcases ha.allocated c k hk with hk | ⟨-, hk⟩
      · exact hn k hk
      · rw [hd] at hk
        cases hk
  have hentry : ∀ id a, (s'.sets .objects).lookup id = some a →
      a < s.next ∧ ∀ o, s.heap .object a = some o → o.id = id := by
    intro id a hid
    rcases ha.entry id a hid with hid | ⟨hf, -⟩
    · exact h.entry id a hid
    · have := h.names t
      rwa [hf] at this
  constructor
  · exact hc.fresh h.fresh
  · intro u
    rcases eq_or_ne u t with rfl | hu
    · rw [Function.update_self]
      exact ha.names
    · rw [Function.update_of_ne hu]
      exact (h.names u).change hc
  · intro id a hid
    have hn : (Holding.seen a id).Names s := hentry id a hid
    exact hn.change hc
  · intro u a id hu k hk
    rcases eq_or_ne u t with rfl | hut
    · rw [Function.update_self] at hu
      rcases ha.entry k a hk with hk | ⟨-, hr⟩
      · rcases ha.fresh a id hu with hf | hle
        · exact h.untabled u a id hf k hk
        · exact not_le.mpr (h.entry k a hk).1 hle
      · exact hr id hu
    · rw [Function.update_of_ne hut] at hu
      rcases ha.entry k a hk with hk | ⟨hf, -⟩
      · exact h.untabled u a id hu k hk
      · exact hut (h.unshared t u a k hf (by rw [hu]; rfl))
  · intro u v a id hu hv
    by_contra hne
    rcases eq_or_ne u t with rfl | hut
    · rw [Function.update_self] at hu
      rw [Function.update_of_ne hne] at hv
      rcases ha.fresh a id hu with hf | hle
      · exact hne (h.unshared u v a id hf hv)
      · exact not_le.mpr ((own v).object_lt (h.names v) hv) hle
    · rw [Function.update_of_ne hut] at hu
      have hlt : a < s.next := (own u).object_lt (h.names u) (by rw [hu]; rfl)
      rcases eq_or_ne v t with rfl | hvt
      · rw [Function.update_self] at hv
        rcases ha.object a hv with ho | hle | ⟨k, hk⟩
        · exact hne (h.unshared u v a id hu ho)
        · exact not_le.mpr hlt hle
        · exact h.untabled u a id hu k hk
      · rw [Function.update_of_ne hvt] at hv
        exact hne (h.unshared u v a id hu hv)
  · intro c hle
    refine hblank c (h.unborn c (hc.next_le.trans hle)) fun ho => ?_
    have hn := h.names t
    rw [ho] at hn
    exact absurd (hc.next_le.trans hle) (not_le.mpr hn)
  · intro u hu
    rcases eq_or_ne u t with rfl | hut
    · rw [Function.update_self] at hu
      exact ha.emptied hu
    · rw [Function.update_of_ne hut] at hu
      obtain ⟨c, rfl, hn⟩ := h.emptied u hu
      refine ⟨c, rfl, fun k hk => ?_⟩
      rcases ha.allocated c k hk with hk | ⟨rfl, -⟩
      · exact hn k hk
      · exact hut rfl
  · intro u c hu
    rcases eq_or_ne u t with rfl | hut
    · rw [Function.update_self] at hu
      obtain ⟨hmain, ho | hle⟩ := ha.coming c hu
      · exact ⟨hmain, hblank c (h.coming u c ho).2 fun _ => hu⟩
      · exact ⟨hmain, hblank c (h.unborn c hle) fun _ => hu⟩
    · rw [Function.update_of_ne hut] at hu
      obtain ⟨rfl, hb⟩ := h.coming u c hu
      exact ⟨rfl, hblank c hb fun ho => absurd (h.coming t c ho).1.symm hut⟩

structure Minds (s s' : State) (n n' : Notes) : Prop where
  outstanding : ∀ p id, n.Outstanding s p id → n'.Outstanding s' p id
  awaits : ∀ t p id, n.Awaits s t p id → n'.Awaits s' t p id

theorem minds_of_providers (h : s'.sets .providers = s.sets .providers) : Minds s s' n n := by
  have hout : ∀ p id, n.Outstanding s p id → n.Outstanding s' p id := by
    rintro p id ⟨hp, hmade⟩
    exact ⟨h ▸ hp, hmade⟩
  exact ⟨hout, fun t p id ha => ha.imp_right (hout p id)⟩

structure Justifies (s s' : State) (n' : Notes) (own : Tid → Holding) (t : Tid) (r : Holding) :
    Prop where
  pool : ∀ id ∈ s'.sets .idPool, id ∈ s.sets .idPool ∨ r.keeps = some id
  keeps : ∀ id ∈ s'.sets .idPool, (own t).keeps = some id → r.keeps = some id ∨
    (∃ a, own t = .fresh a id ∧ (s'.sets .objects).lookup id = some a) ∨
    (∃ c, id ∈ s'.sets (.allocations c)) ∨ ∃ p, n'.Outstanding s' p id
  lookup : ∀ id a, (s.sets .objects).lookup id = some a →
    (s'.sets .objects).lookup id = some a ∨ own t = .dying a id ∧ r = .erased a
  allocated : ∀ id ∈ s'.sets .idPool, ∀ c, id ∈ s.sets (.allocations c) →
    id ∈ s'.sets (.allocations c) ∨ r.keeps = some id
  live : ∀ a o', s'.heap .object a = some o' →
    (∃ o, s.heap .object a = some o ∧ o.id = o'.id) ∨ r = .fresh a o'.id
  fresh : ∀ a id, own t = .fresh a id → r = .fresh a id ∨ (s'.sets .objects).lookup id = some a
  dying : ∀ a id, r = .dying a id → own t = .dying a id ∨
    id ∉ s'.sets .idPool ∧ (s'.sets .objects).lookup id = some a

/-- The objects that a thread is about to free stay in hand until they are freed. -/
def Ends (s s' : State) (own : Tid → Holding) (t : Tid) (r : Holding) : Prop :=
  ∀ a, (own t).ending = some a →
    r.ending = some a ∨ (s.heap .object a).isSome ∧ s'.heap .object a = none

theorem Doomed.advance (h : Doomed s own) (ho : Orderly s own) (ha : Advance s s' own t r)
    (he : Ends s s' own t r) : Doomed s' (Function.update own t r) := by
  obtain ⟨o, hc⟩ := ha.change
  have hgone : ∀ u a, (own u).ending = some a → s.heap .object a = none →
      s'.heap .object a = none := by
    intro u a hu hn
    have hlt := (own u).object_lt (ho.names u) (Holding.object_of_ending hu)
    by_contra hne
    obtain ⟨o', ho'⟩ := Option.ne_none_iff_exists'.mp hne
    obtain ⟨o, hs, -⟩ := hc.old (by decide) hlt ho'
    rw [hn] at hs
    cases hs
  -- a thread that holds the object now, or nobody does and it is gone
  have hstay : ∀ u a, (own u).ending = some a →
      (Function.update own t r u).ending = some a ∨ u = t ∧ (s.heap .object a).isSome ∧
        s'.heap .object a = none := by
    intro u a hu
    rcases eq_or_ne u t with rfl | hut
    · rw [Function.update_self]
      rcases he a hu with hr | hn
      · exact .inl hr
      · exact .inr ⟨rfl, hn⟩
    · rw [Function.update_of_ne hut]
      exact .inl hu
  obtain ⟨u, a, hu, hcase⟩ := h
  rcases hstay u a hu with hu' | ⟨rfl, hsome, hnone⟩
  · refine ⟨u, a, hu', ?_⟩
    rcases hcase with hn | ⟨v, hvu, hv⟩
    · exact .inl (hgone u a hu hn)
    · rcases hstay v a hv with hv' | ⟨-, -, hnone⟩
      · exact .inr ⟨v, hvu, hv'⟩
      · exact .inl hnone
  · rcases hcase with hn | ⟨v, hvu, hv⟩
    · rw [hn] at hsome
      cases hsome
    · refine ⟨v, a, ?_, .inl hnone⟩
      rw [Function.update_of_ne hvu]
      exact hv

theorem Accounts.advance (h : Accounts s n own) (ho : Orderly s own) (hd : ¬ Doomed s own)
    (he : Ends s s' own t r) (hn : Minds s s' n n') (hs : Justifies s s' n' own t r) :
    Accounts s' n' (Function.update own t r) := by
  constructor
  · intro id hid
    rcases hs.pool id hid with hold | hr
    · rcases h.explained id hold with ⟨a, ha, hnot⟩ | ⟨c, hc⟩ | ⟨p, hout⟩ | ⟨u, hu⟩
      · rcases hs.lookup id a ha with ha' | ⟨hdy, -⟩
        · refine .inl ⟨a, ha', fun u hu => ?_⟩
          rcases eq_or_ne u t with rfl | hut
          · rw [Function.update_self] at hu
            rcases hs.dying a id hu with hdy | ⟨hout, -⟩
            · exact hnot u hdy
            · exact hout hid
          · rw [Function.update_of_ne hut] at hu
            exact hnot u hu
        · exact absurd hdy (hnot t)
      · rcases hs.allocated id hid c hc with hc' | hr
        · exact .inr (.inl ⟨c, hc'⟩)
        · exact .inr (.inr (.inr ⟨t, by rwa [Function.update_self]⟩))
      · exact .inr (.inr (.inl ⟨p, hn.outstanding p id hout⟩))
      · rcases eq_or_ne u t with rfl | hut
        · rcases hs.keeps id hid hu with hr | ⟨a, hf, ha⟩ | hc | hout
          · exact .inr (.inr (.inr ⟨u, by rwa [Function.update_self]⟩))
          · refine .inl ⟨a, ha, fun v hv => ?_⟩
            rcases eq_or_ne v u with rfl | hvu
            · rw [Function.update_self] at hv
              rcases hs.dying a id hv with hdy | ⟨hout, -⟩
              · rw [hf] at hdy
                cases hdy
              · exact hout hid
            · rw [Function.update_of_ne hvu] at hv
              exact hvu (ho.unshared u v a id hf (by rw [hv]; rfl))
          · exact .inr (.inl hc)
          · exact .inr (.inr (.inl hout))
        · exact .inr (.inr (.inr ⟨u, by rwa [Function.update_of_ne hut]⟩))
    · exact .inr (.inr (.inr ⟨t, by rwa [Function.update_self]⟩))
  · intro a o' ho'
    rcases hs.live a o' ho' with ⟨o, hobj, hid⟩ | hr
    · have hkeep : ∀ u, (own u).ending = some a →
          ∃ v, Function.update own t r v = .fresh a o'.id ∨
            (Function.update own t r v).ending = some a := by
        intro u hu
        refine ⟨u, .inr ?_⟩
        rcases eq_or_ne u t with rfl | hut
        · rw [Function.update_self]
          rcases he a hu with hr | ⟨-, hn⟩
          · exact hr
          · rw [hn] at ho'
            cases ho'
        · rwa [Function.update_of_ne hut]
      rcases h.live a o hobj with ha | ⟨u, hf | hu⟩
      · rcases hs.lookup o.id a ha with ha' | ⟨hdy, -⟩
        · left
          rwa [← hid]
        · exact .inr (hkeep t (by rw [hdy]; rfl))
      · rcases eq_or_ne u t with rfl | hut
        · rcases hs.fresh a o.id hf with hr | ha
          · exact .inr ⟨u, .inl (by rw [Function.update_self, hr, hid])⟩
          · left
            rwa [← hid]
        · exact .inr ⟨u, .inl (by rw [Function.update_of_ne hut, hf, hid])⟩
      · exact .inr (hkeep u hu)
    · exact .inr ⟨t, .inl (by rwa [Function.update_self])⟩
  · intro u a id hu
    rcases eq_or_ne u t with rfl | hut
    · rw [Function.update_self] at hu
      rcases hs.dying a id hu with hdy | ⟨-, ha⟩
      · rcases hs.lookup id a (h.dying u a id hdy) with ha | ⟨-, hr⟩
        · exact ha
        · rw [hr] at hu
          cases hu
      · exact ha
    · rw [Function.update_of_ne hut] at hu
      rcases hs.lookup id a (h.dying u a id hu) with ha | ⟨hdy, -⟩
      · exact ha
      · exact absurd ⟨t, a, by rw [hdy]; rfl, .inr ⟨u, hut, by rw [hu]; rfl⟩⟩ hd

/-- The invariant holds after a step if the step keeps in order what it should. -/
theorem Pooled.advance (h : Pooled s n own) (ha : Advance s s' own t r) (hn : Minds s s' n n')
    (hr : ∀ p id, r = .asked p id → n'.Awaits s' t p id) (he : Ends s s' own t r)
    (hs : Accounts s n own → ¬ Doomed s' (Function.update own t r) → Justifies s s' n' own t r) :
    Pooled s' n' (Function.update own t r) := by
  refine ⟨h.toOrderly.advance ha, fun u p id hu => ?_, fun hd' => ?_⟩
  · rcases eq_or_ne u t with rfl | hut
    · rw [Function.update_self] at hu
      exact hr p id hu
    · rw [Function.update_of_ne hut] at hu
      exact hn.awaits u p id (h.awaits u p id hu)
  · have hd : ¬ Doomed s own := fun hd => hd' (hd.advance h.toOrderly ha he)
    exact (h.accounts hd).advance h.toOrderly hd he hn (hs (h.accounts hd) hd')

/-- What ids stand for is as it was; there may be fewer ids in the pool. -/
structure State.Quiet (t : Tid) (s s' : State) (n n' : Notes) : Prop extends Minds s s' n n' where
  change : ∃ o, Change t s o s'
  objects : ∀ id, (s'.sets .objects).lookup id = (s.sets .objects).lookup id
  allocations : ∀ c, s'.sets (.allocations c) = s.sets (.allocations c)
  pool : ∀ id ∈ s'.sets .idPool, id ∈ s.sets .idPool
  object : ∀ a o', s'.heap .object a = some o' → ∃ o, s.heap .object a = some o ∧ o.id = o'.id

theorem Pooled.quiet (h : Pooled s n own) (hq : s.Quiet t s' n n') : Pooled s' n' own := by
  obtain ⟨o, hc⟩ := hq.change
  have hadv : Advance s s' own t (own t) :=
    { change := ⟨o, hc⟩
      names := (h.names t).change hc
      entry := fun id a hid => .inl (by rwa [← hq.objects])
      allocated := fun c k hk => .inl (by rwa [← hq.allocations])
      damaged := fun c hd => .inl (by rwa [hq.allocations])
      fresh := fun a id hf => .inl hf
      object := fun a ho => .inl ho
      emptied := fun he => by
        obtain ⟨c, ht, hn⟩ := h.emptied t he
        exact ⟨c, ht, by rwa [hq.allocations]⟩
      coming := fun c hcom => ⟨(h.coming t c hcom).1, .inl hcom⟩ }
  have hr : ∀ p id, own t = .asked p id → n'.Awaits s' t p id := fun p id ho =>
    hq.awaits t p id (h.awaits t p id ho)
  have hset := h.advance hadv hq.toMinds hr (fun a ha => .inl ha) fun _ _ =>
    { pool := fun id hid => .inl (hq.pool id hid)
      keeps := fun id _ hk => .inl hk
      lookup := fun id a ha => .inl (by rwa [hq.objects])
      allocated := fun id _ c hc => .inl (by rwa [hq.allocations])
      live := fun a o' ho' => .inl (hq.object a o' ho')
      fresh := fun a id hf => .inl hf
      dying := fun a id hd => .inl hd }
  rwa [Function.update_eq_self] at hset

/-- What a thread has in hand when it has put down the one thing and taken up another. -/
structure Exchange (s s' : State) (n' : Notes) (own : Tid → Holding) (t : Tid) (r : Holding) :
    Prop where
  before : (own t).Light
  after : r.Light
  names : r.Names s'
  object : ∀ a, r.object = some a → ∃ k, (s.sets .objects).lookup k = some a
  emptied : r = .emptied → ∃ c, t = .consumer c ∧ ∀ k, k ∉ s'.sets (.allocations c)
  coming : ∀ c, r = .coming c → t = .main ∧ (own t = .coming c ∨ s.next ≤ c)
  asked : ∀ p id, r = .asked p id → n'.Awaits s' t p id
  keeps : ∀ id ∈ s'.sets .idPool, (own t).keeps = some id →
    r.keeps = some id ∨ ∃ p, n'.Outstanding s' p id

theorem Pooled.exchange (h : Pooled s n own) (hq : s.Quiet t s' n n')
    (hx : Exchange s s' n' own t r) : Pooled s' n' (Function.update own t r) := by
  have hadv : Advance s s' own t r :=
    { change := hq.change
      names := hx.names
      entry := fun id a hid => .inl (by rwa [← hq.objects])
      allocated := fun c k hk => .inl (by rwa [← hq.allocations])
      damaged := fun c hd => .inl (by rwa [hq.allocations])
      fresh := fun a id hf => absurd hf (hx.after.ne_fresh a id)
      object := fun a ho => .inr (.inr (hx.object a ho))
      emptied := hx.emptied
      coming := hx.coming }
  refine h.advance hadv hq.toMinds hx.asked (fun a ha => ?_) fun _ _ => ?_
  · rw [hx.before.ending] at ha
    cases ha
  · exact
      { pool := fun id hid => .inl (hq.pool id hid)
        keeps := fun id hid hk => (hx.keeps id hid hk).imp_right fun ho => .inr (.inr ho)
        lookup := fun id a ha => .inl (by rwa [hq.objects])
        allocated := fun id _ c hc => .inl (by rwa [hq.allocations])
        live := fun a o' ho' => .inl (hq.object a o' ho')
        fresh := fun a id hf => absurd hf (hx.before.ne_fresh a id)
        dying := fun a id hd => absurd hd (hx.after.ne_dying a id) }

private theorem attached_of_done {o : Op} {x : o.Res} (he : exec t o s = .done s' x)
    (hg : KeepsPool t o (s, n)) (ho : o.area ≠ .agent) {p : Addr} {id : GlobalId}
    (h : n.Outstanding s p id) : p ∈ s'.sets .providers := by
  obtain ⟨hp, hmade⟩ := h
  have hput : ∀ (r : SetRef) (v : IdSet r.Key Addr), r ≠ .providers → s' = s.putSet r v →
      p ∈ s'.sets .providers := by
    rintro r v hr rfl
    rwa [s.putSet_sets_of_ne v hr.symm]
  cases change_of_done he with
  | setCreate r =>
    refine hput r _ ?_ rfl
    rintro rfl
    exact ho rfl
  | setDestroy r =>
    refine hput r _ ?_ rfl
    rintro rfl
    exact ho rfl
  | setInsert r key d =>
    by_cases hr : r = .providers
    · subst hr
      obtain ⟨a, ha⟩ := IdSet.mem_iff.mp hp
      rw [State.putSet_sets_self, IdSet.mem_iff, IdSet.lookup_add_eq]
      split_ifs
      · exact ⟨_, rfl⟩
      · exact ⟨a, ha⟩
    · exact hput r _ hr rfl
  | setRemove r key =>
    by_cases hr : r = .providers
    · subst hr
      rw [State.putSet_sets_self]
      refine IdSet.mem_erase.mpr ⟨?_, hp⟩
      rintro rfl
      exact hg id ⟨hp, hmade⟩
    · exact hput r _ hr rfl
  | _ => exact hp

/-- What the notes say after an operation that completes. -/
private theorem made_after {o : Op} {x : o.Res} (he : exec t o s = .done s' x)
    (hg : KeepsPool t o (s, n)) {p : Addr} {id : GlobalId} (h : n.Outstanding s p id) :
    (p, id) ∈ (n.after t o x).made := by
  unfold Notes.after
  split
  · next q type m ssz =>
    split_ifs with hnone halloc hfetch
    · exact h.2
    · exact h.2
    · refine List.mem_filter.mpr ⟨h.2, decide_eq_true ?_⟩
      rintro heq
      obtain ⟨rfl, rfl⟩ := Prod.mk.inj heq
      obtain ⟨net, hnet, -⟩ := exec_net_done he
      exact hg.2 hfetch (fun hf => hnone ((Net.exec_sendmsg_isNone hnet).mpr hf)) h
    · exact h.2
  · exact List.mem_append_right _ h.2
  · exact h.2

/-- Under the guard no step loses an allocation at a provider, or one that is asked for. -/
theorem minds_of_done {o : Op} {x : o.Res} (he : exec t o s = .done s' x)
    (hg : KeepsPool t o (s, n)) (ho : o.area ≠ .agent) : Minds s s' n (n.after t o x) := by
  have hout : ∀ p id, n.Outstanding s p id → (n.after t o x).Outstanding s' p id := fun p id h =>
    ⟨attached_of_done he hg ho h, made_after he hg h⟩
  refine ⟨hout, ?_⟩
  rintro u p id (hasked | h)
  · unfold Notes.after
    split
    · left
      split_ifs
      · exact hasked
      · exact List.mem_cons_of_mem _ hasked
      · exact hasked
      · exact hasked
    · next q len response =>
      by_cases hmine : u = t ∧ p = q
      · obtain ⟨rfl, rfl⟩ := hmine
        obtain ⟨hp, hstored⟩ := hg id hasked
        obtain ⟨net, hnet, rfl⟩ := exec_net_done he
        refine .inr ⟨hp, List.mem_append_left _ (List.mem_map.mpr ⟨(u, p, id), ?_, rfl⟩)⟩
        refine List.mem_filter.mpr ⟨hasked, decide_eq_true ⟨rfl, rfl, ?_⟩⟩
        exact Net.stored_of_exec hnet hstored
      · exact .inl (List.mem_filter.mpr ⟨hasked, decide_eq_true hmine⟩)
    · exact .inl hasked
  · exact .inr (hout p id h)

theorem quiet_of_done {o : Op} {x : o.Res} (he : exec t o s = .done s' x)
    (hg : KeepsPool t o (s, n)) (ho : o.area ∉ [.object, .reserve, .allocation, .allocated, .agent]) :
    s.Quiet t s' n (n.after t o x) := by
  simp only [List.mem_cons, List.not_mem_nil, or_false, not_or] at ho
  obtain ⟨hobj, hres, hall, hent, hag⟩ := ho
  have hc := change_of_done he
  have hpool : ∀ id ∈ s'.sets .idPool, id ∈ s.sets .idPool := by
    intro id hid
    obtain ⟨d, hd⟩ := IdSet.mem_iff.mp hid
    exact IdSet.mem_of_lookup (hc.lookup_of (r := .idPool) hres hd)
  refine ⟨minds_of_done he hg hag, ⟨o, hc⟩, fun id => ?_, fun c => hc.sets hent hent hall, hpool,
    fun a o' ho' => ?_⟩
  · rw [hc.sets (r := .objects) hobj hobj hag]
  · rcases hc.heap (k := .object) hobj a with hs | ⟨o, v, hs, hs', -⟩
    · exact ⟨o', hs.symm.trans ho', rfl⟩
    · obtain rfl := Option.some.inj (hs'.symm.trans ho')
      exact ⟨o, hs, by cases v <;> rfl⟩

theorem quiet_new {k : Kind} (hk : k ≠ .object) (v : k.Rec) :
    s.Quiet t { s.put k s.next (some v) with next := s.next + 1 } n n where
  change := ⟨_, .new k v⟩
  objects _ := rfl
  allocations _ := rfl
  pool _ hid := hid
  outstanding _ _ h := h
  awaits _ _ _ h := h
  object a o' ho' := ⟨o', (congrFun (s.put_heap_kind s.next (some v) hk.symm) a).symm.trans ho', rfl⟩

theorem quiet_free {k : Kind} (hk : k ≠ .object) {a : Addr} {v : k.Rec} (ha : s.heap k a = some v) :
    s.Quiet t (s.put k a none) n n where
  change := ⟨_, .free k a v ha⟩
  objects _ := rfl
  allocations _ := rfl
  pool _ hid := hid
  outstanding _ _ h := h
  awaits _ _ _ h := h
  object b o' ho' := ⟨o', (congrFun (s.put_heap_kind a none hk.symm) b).symm.trans ho', rfl⟩

theorem quiet_same (s : State) (n : Notes) : s.Quiet t s n n where
  change := ⟨.rand, .same _⟩
  objects _ := rfl
  allocations _ := rfl
  pool _ hid := hid
  outstanding _ _ h := h
  awaits _ _ _ h := h
  object _ o' ho' := ⟨o', ho', rfl⟩

end

end Clara.Agent
