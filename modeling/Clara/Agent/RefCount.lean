import Mathlib.Tactic.Linarith
import Clara.Agent.ObjectSpec

/-! Reference counting over sequences of calls. A ledger records what the calls answered, and
the agent's tables are compared with it. -/
namespace Clara.Agent

open Conc

private theorem objects_ne_idPool : SetRef.objects ≠ .idPool := by decide

private theorem objectsOf_ne_idPool (c : Addr) : SetRef.objectsOf c ≠ .idPool := by
  intro h
  cases h

/-- A call of one of the functions of `opencl_object.c`. -/
inductive ObjectCall
  | create (provider consumer : Addr) (localId : Arg) (wish : GlobalId)
  | retain (consumer : Addr) (id : GlobalId)
  | release (consumer : Addr) (id : GlobalId)

inductive ObjectAnswer
  | created (id : GlobalId)
  | success (b : Bool)

namespace ObjectCall

def consumer : ObjectCall → Addr
  | .create _ c _ _ | .retain c _ | .release c _ => c

def prog : ObjectCall → AProg ObjectAnswer
  | .create p c localId wish => do
    let id ← clCreateObject (some p) c localId wish
    pure (.created id)
  | .retain c id => do
    let b ← clRetainObject c id
    pure (.success b)
  | .release c id => do
    let b ← clReleaseObject c id
    pure (.success b)

/-- The call made by its consumer's thread. -/
def run (call : ObjectCall) (s : State) : Outcome State Fault ObjectAnswer :=
  Agent.run (.consumer call.consumer) call.prog s

section
variable (s : State) (p c : Addr) (localId : Arg) (wish id : GlobalId)

theorem run_create : (create p c localId wish).run s =
    (Agent.run (.consumer c) (clCreateObject (some p) c localId wish) s).bind
      fun s' id => .done s' (.created id) := run_bind ..

theorem run_retain : (retain c id).run s =
    (Agent.run (.consumer c) (clRetainObject c id) s).bind
      fun s' b => .done s' (.success b) := run_bind ..

theorem run_release : (release c id).run s =
    (Agent.run (.consumer c) (clReleaseObject c id) s).bind
      fun s' b => .done s' (.success b) := run_bind ..

end

end ObjectCall

/-- The creator of an object and 1 + retains − releases since its latest creation. -/
structure Account where
  creator : Addr
  refs : ℤ

abbrev Ledger := GlobalId → Option Account

def Ledger.add (l : Ledger) (id : GlobalId) (n : ℤ) : Ledger :=
  Function.update l id ((l id).map fun acc => { acc with refs := acc.refs + n })

/-- What the answer to a call adds to the ledger. -/
def Ledger.record (l : Ledger) : ObjectCall → ObjectAnswer → Ledger
  | .create _ c _ _, .created id =>
    if id = invalidId then l else Function.update l id (some ⟨c, 1⟩)
  | .retain _ id, .success true => l.add id 1
  | .release _ id, .success true => l.add id (-1)
  | _, _ => l

/-- Peers that exist, a wish the caller has reserved, objects that
only their creator retains and releases, and fewer than 2^32 references. -/
def Admissible (l : Ledger) (s : State) : ObjectCall → Prop
  | .create p c _ wish => (s.heap .provider p).isSome ∧ (s.heap .consumer c).isSome ∧
    (wish ≠ invalidId → wish ∈ s.sets .idPool ∧ wish ∉ s.sets .objects)
  | .retain c id => (s.heap .consumer c).isSome ∧ (l id = none → id ∉ s.sets .objects) ∧
    ∀ acc, l id = some acc → 0 < acc.refs → acc.creator = c ∧ acc.refs + 1 < 2 ^ 32
  | .release c id => (s.heap .consumer c).isSome ∧ (l id = none → id ∉ s.sets .objects) ∧
    ∀ acc, l id = some acc → 0 < acc.refs → acc.creator = c

/-- The next draw of `id_create`, if the call makes one, is not in the pool. -/
def DrawsFresh (s : State) : ObjectCall → Prop
  | .create _ _ localId wish => localId ≠ 0 → wish = invalidId →
    (s.candidates s.draws).val ∉ s.sets .idPool
  | _ => True

inductive CallReach (allow : State → ObjectCall → Prop) (init : State) :
    State → Ledger → Prop
  | refl : CallReach allow init init fun _ => none
  | call {s s' : State} {l : Ledger} {ans : ObjectAnswer} (call : ObjectCall)
      (h : CallReach allow init s l) (ha : Admissible l s call) (hd : allow s call)
      (hr : call.run s = .done s' ans) : CallReach allow init s' (l.record call ans)

/-- The tables are intact, and no thread is at work in them. What is left in them of a provider that
has gone does not matter. -/
structure Serviceable (s : State) : Prop where
  fresh : s.Fresh
  setLocks : ∀ r, s.setLock r = .free
  pool : (s.sets .idPool).damaged = false
  objects : (s.sets .objects).damaged = false
  objectsOf : ∀ c, (s.heap .consumer c).isSome → (s.sets (.objectsOf c)).damaged = false
  below : ∀ id a, (s.sets .objects).lookup id = some a → a < s.next

/-- Tables without an object of a consumer, between two calls. -/
structure Settled (s : State) : Prop extends Serviceable s where
  locks : ∀ a l, s.heap .lock a = some l → l = .free
  entry : ∀ id a, (s.sets .objects).lookup id = some a → id ∈ s.sets .idPool ∧
    ∃ o, s.heap .object a = some o ∧ o.id = id ∧ s.heap .lock o.lock = some .free ∧
      (s.heap .provider o.provider).isSome
  lock_ne : ∀ id id' a a' o o', (s.sets .objects).lookup id = some a →
    (s.sets .objects).lookup id' = some a' → s.heap .object a = some o →
    s.heap .object a' = some o' → a ≠ a' → o.lock ≠ o'.lock
  providerLock : ∀ p provider, s.heap .provider p = some provider →
    s.heap .lock provider.lock = some .free
  apart : ∀ id a o p provider, (s.sets .objects).lookup id = some a →
    s.heap .object a = some o → s.heap .provider p = some provider → provider.lock ≠ o.lock
  below := fun id a hid => by
    obtain ⟨-, o, ho, -⟩ := entry id a hid
    exact fresh.lt ho

/-- The tables agree with the ledger. -/
structure Books (l : Ledger) (s : State) : Prop extends Settled s where
  owned : ∀ id acc, l id = some acc → 0 < acc.refs → ∃ a o,
    (s.sets .objects).lookup id = some a ∧ s.heap .object a = some o ∧
    (o.refcnt.toNat : ℤ) = acc.refs ∧ o.consumer = some acc.creator ∧
    (s.heap .provider o.provider).isSome ∧ (s.heap .consumer acc.creator).isSome ∧
    (s.sets (.objectsOf acc.creator)).lookup id = some a
  dead : ∀ id acc, l id = some acc → ¬ 0 < acc.refs →
    id ∉ s.sets .objects ∧ id ∉ s.sets .idPool
  listed : ∀ c, (s.heap .consumer c).isSome → ∀ id ∈ s.sets (.objectsOf c),
    ∃ acc, l id = some acc ∧ 0 < acc.refs ∧ acc.creator = c

section
variable {s : State} {l : Ledger} {t : Tid}

theorem Serviceable.admits (h : Serviceable s) (r : SetRef) : (s.setLock r).admits t = true := by
  rw [h.setLocks r]
  rfl

theorem Serviceable.usable_pool (h : Serviceable s) : Usable t .idPool s := ⟨h.pool, h.admits _⟩

theorem Serviceable.usable_objects (h : Serviceable s) : Usable t .objects s := ⟨h.objects, h.admits _⟩

theorem Serviceable.usable_objectsOf (h : Serviceable s) {c : Addr}
    (hc : (s.heap .consumer c).isSome) : Usable t (.objectsOf c) s :=
  ⟨h.objectsOf c hc, h.admits _⟩

/-- An object found under an id carries that id and a free lock. -/
theorem Settled.lock_free (h : Settled s) {id : GlobalId} {a : Addr} {o : Object}
    (hid : (s.sets .objects).lookup id = some a) (ho : s.heap .object a = some o) :
    s.heap .lock o.lock = some .free := by
  obtain ⟨-, o', ho', -, hl, -⟩ := h.entry id a hid
  obtain rfl := Option.some.inj (ho.symm.trans ho')
  exact hl

theorem Settled.id_eq (h : Settled s) {id : GlobalId} {a : Addr} {o : Object}
    (hid : (s.sets .objects).lookup id = some a) (ho : s.heap .object a = some o) :
    o.id = id := by
  obtain ⟨-, o', ho', hi, -, -⟩ := h.entry id a hid
  obtain rfl := Option.some.inj (ho.symm.trans ho')
  exact hi

theorem Settled.mem_pool (h : Settled s) {id : GlobalId} (hid : id ∈ s.sets .objects) :
    id ∈ s.sets .idPool := by
  obtain ⟨a, ha⟩ := IdSet.mem_iff.mp hid
  exact (h.entry id a ha).1

/-- No ledger entry yet: an agent without objects of consumers. -/
theorem Settled.books (h : Settled s)
    (hc : ∀ c, (s.heap .consumer c).isSome → ∀ id, id ∉ s.sets (.objectsOf c)) :
    Books (fun _ => none) s where
  toSettled := h
  owned _ _ h := by cases h
  dead _ _ h := by cases h
  listed c hcs id hid := absurd hid (hc c hcs id)

theorem Settled.put_object (h : Settled s) {a : Addr} {o o' : Object}
    (ho : s.heap .object a = some o) (hi : o'.id = o.id) (hl : o'.lock = o.lock)
    (hp : o'.provider = o.provider) : Settled (s.put .object a (some o')) where
  fresh k b hb := by
    rcases eq_or_ne k .object with rfl | hk
    · rcases eq_or_ne b a with rfl | hne
      · rw [h.fresh .object b hb] at ho
        cases ho
      · rw [State.put_heap_of_ne _ _ hne, h.fresh _ _ hb]
    · rw [State.put_heap_kind _ _ _ hk, h.fresh _ _ hb]
  locks b l hb := h.locks b l (by simpa using hb)
  setLocks := h.setLocks
  pool := h.pool
  objects := h.objects
  objectsOf c hc := h.objectsOf c (by simpa using hc)
  entry id b hb := by
    obtain ⟨hpool, o₁, ho₁, hid, hfree, hpr⟩ := h.entry id b hb
    refine ⟨hpool, ?_⟩
    rcases eq_or_ne b a with rfl | hne
    · obtain rfl := Option.some.inj (ho.symm.trans ho₁)
      exact ⟨o', by simp, hi.trans hid, by simpa [hl] using hfree, by simpa [hp] using hpr⟩
    · exact ⟨o₁, by rw [State.put_heap_of_ne _ _ hne, ho₁], hid, by simpa using hfree,
        by simpa using hpr⟩
  lock_ne id id' b b' o₁ o₂ hb hb' ho₁ ho₂ hne := by
    have hsame : ∀ b o₁, (s.put .object a (some o')).heap .object b = some o₁ →
        ∃ o₀, s.heap .object b = some o₀ ∧ o₁.lock = o₀.lock := fun b o₁ hb => by
      rcases eq_or_ne b a with rfl | hne
      · rw [State.put_heap_self] at hb
        obtain rfl := Option.some.inj hb
        exact ⟨o, ho, hl⟩
      · exact ⟨o₁, by rwa [State.put_heap_of_ne _ _ hne] at hb, rfl⟩
    obtain ⟨o₃, ho₃, h₃⟩ := hsame b o₁ ho₁
    obtain ⟨o₄, ho₄, h₄⟩ := hsame b' o₂ ho₂
    rw [h₃, h₄]
    exact h.lock_ne id id' b b' o₃ o₄ hb hb' ho₃ ho₄ hne
  providerLock p provider hp := by simpa using h.providerLock p provider (by simpa using hp)
  apart id b o₁ p provider hb ho₁ hpr := by
    rw [State.put_object_heap_provider] at hpr
    rcases eq_or_ne b a with rfl | hne
    · rw [State.put_heap_self] at ho₁
      obtain rfl := Option.some.inj ho₁
      rw [hl]
      exact h.apart id b o p provider hb ho hpr
    · rw [State.put_heap_of_ne _ _ hne] at ho₁
      exact h.apart id b o₁ p provider hb ho₁ hpr

theorem Ledger.add_self {id : GlobalId} {acc : Account} (h : l id = some acc) (n : ℤ) :
    l.add id n id = some { acc with refs := acc.refs + n } := by
  simp [add, h]

theorem Ledger.add_of_ne {id id' : GlobalId} (h : id' ≠ id) (n : ℤ) :
    l.add id n id' = l id' := by
  simp [add, Function.update_of_ne h]

/-- An object whose count stays positive. -/
theorem Books.recount (hb : Books l s) {id : GlobalId} {acc : Account} {a : Addr} {o : Object}
    (hacc : l id = some acc) (hid : (s.sets .objects).lookup id = some a)
    (ho : s.heap .object a = some o) (hpos : 0 < acc.refs) {n : UInt32} {k : ℤ}
    (hn : (n.toNat : ℤ) = acc.refs + k) (hpos' : 0 < acc.refs + k) :
    Books (l.add id k) (s.put .object a (some { o with refcnt := n })) where
  toSettled := hb.toSettled.put_object ho rfl rfl rfl
  owned id' acc' hl hp := by
    rcases eq_or_ne id' id with rfl | hne
    · rw [Ledger.add_self hacc] at hl
      obtain rfl := Option.some.inj hl
      obtain ⟨a', o', hid', ho', -, hc, hprov, hcon, hof⟩ := hb.owned id' acc hacc hpos
      obtain rfl := Option.some.inj (hid.symm.trans hid')
      obtain rfl := Option.some.inj (ho.symm.trans ho')
      exact ⟨a, { o with refcnt := n }, hid, by simp, hn, hc, by simpa using hprov,
        by simpa using hcon, hof⟩
    · rw [Ledger.add_of_ne hne] at hl
      obtain ⟨a', o', hid', ho', hr, hc, hprov, hcon, hof⟩ := hb.owned id' acc' hl hp
      have hne' : a' ≠ a := fun h => by
        subst h
        rw [ho] at ho'
        obtain rfl := Option.some.inj ho'
        exact hne ((hb.id_eq hid' ho).symm.trans (hb.id_eq hid ho))
      exact ⟨a', o', hid', by rw [State.put_heap_of_ne _ _ hne', ho'], hr, hc,
        by simpa using hprov, by simpa using hcon, hof⟩
  dead id' acc' hl hp := by
    rcases eq_or_ne id' id with rfl | hne
    · rw [Ledger.add_self hacc] at hl
      obtain rfl := Option.some.inj hl
      exact absurd hpos' hp
    · rw [Ledger.add_of_ne hne] at hl
      exact hb.dead id' acc' hl hp
  listed c hc id' hid' := by
    obtain ⟨acc', hl, hp, hcr⟩ := hb.listed c (by simpa using hc) id' hid'
    rcases eq_or_ne id' id with rfl | hne
    · obtain rfl := Option.some.inj (hacc.symm.trans hl)
      exact ⟨_, Ledger.add_self hacc k, hpos', hcr⟩
    · exact ⟨acc', by rw [Ledger.add_of_ne hne, hl], hp, hcr⟩

/-- The tables after the last release of an object. -/
def State.withoutObject (s : State) (a d : Addr) (o : Object) : State :=
  ((((s.put .lock o.lock none).put .object a none).putSet (.objectsOf d)
    ((s.sets (.objectsOf d)).erase o.id)).putSet .idPool
      ((s.sets .idPool).erase o.id)).putSet .objects ((s.sets .objects).erase o.id)

section
variable (s : State) (a d : Addr) (o : Object)

@[simp] theorem State.withoutObject_next : (s.withoutObject a d o).next = s.next := rfl

@[simp] theorem State.withoutObject_setLock :
    (s.withoutObject a d o).setLock = s.setLock := rfl

@[simp] theorem State.withoutObject_objects :
    (s.withoutObject a d o).sets .objects = (s.sets .objects).erase o.id := by
  simp [withoutObject]

@[simp] theorem State.withoutObject_idPool :
    (s.withoutObject a d o).sets .idPool = (s.sets .idPool).erase o.id := by
  simp [withoutObject, putSet_sets_of_ne]

@[simp] theorem State.withoutObject_objectsOf :
    (s.withoutObject a d o).sets (.objectsOf d) = (s.sets (.objectsOf d)).erase o.id := by
  simp [withoutObject, putSet_sets_of_ne]

theorem State.withoutObject_objectsOf_of_ne {d d' : Addr} (h : d' ≠ d) :
    (s.withoutObject a d o).sets (.objectsOf d') = s.sets (.objectsOf d') := by
  simp [withoutObject, putSet_sets_of_ne, h]

@[simp] theorem State.withoutObject_consumer :
    (s.withoutObject a d o).heap .consumer = s.heap .consumer := by
  simp [withoutObject]

@[simp] theorem State.withoutObject_provider :
    (s.withoutObject a d o).heap .provider = s.heap .provider := by
  simp [withoutObject]

theorem State.withoutObject_object {b : Addr} :
    (s.withoutObject a d o).heap .object b = if b = a then none else s.heap .object b := by
  split_ifs with h
  · simp [withoutObject, h]
  · simp [withoutObject, put_heap_of_ne _ _ h]

theorem State.withoutObject_lock {b : Addr} :
    (s.withoutObject a d o).heap .lock b = if b = o.lock then none else s.heap .lock b := by
  split_ifs with h
  · simp [withoutObject, h]
  · simp [withoutObject, put_heap_of_ne _ _ h]

end

private theorem Settled.other (h : Settled s) {id : GlobalId} {a b d : Addr} {o : Object}
    (hid : (s.sets .objects).lookup o.id = some a) (ho : s.heap .object a = some o)
    (hb : ((s.withoutObject a d o).sets .objects).lookup id = some b) :
    id ≠ o.id ∧ (s.sets .objects).lookup id = some b ∧ b ≠ a := by
  rw [State.withoutObject_objects, IdSet.lookup_erase] at hb
  split_ifs at hb with hne
  refine ⟨hne, hb, fun hba => ?_⟩
  subst hba
  exact hne (h.id_eq hb ho).symm

theorem Settled.withoutObject (h : Settled s) {a d : Addr} {o : Object}
    (hid : (s.sets .objects).lookup o.id = some a) (ho : s.heap .object a = some o) :
    Settled (s.withoutObject a d o) where
  fresh k b hb := by
    have := h.fresh k b hb
    rcases eq_or_ne k .object with rfl | hk
    · rw [State.withoutObject_object]
      split_ifs
      · rfl
      · exact this
    · rcases eq_or_ne k .lock with rfl | hk'
      · rw [State.withoutObject_lock]
        split_ifs
        · rfl
        · exact this
      · simpa [State.withoutObject, State.put_heap_kind, hk, hk'] using this
  locks b lock hb := by
    rw [State.withoutObject_lock] at hb
    split_ifs at hb
    exact h.locks b lock hb
  setLocks := h.setLocks
  pool := by simpa using h.pool
  objects := by simpa using h.objects
  objectsOf c hc := by
    have := h.objectsOf c (by simpa using hc)
    rcases eq_or_ne c d with rfl | hne
    · simpa using this
    · rwa [State.withoutObject_objectsOf_of_ne _ _ _ hne]
  entry id b hb := by
    obtain ⟨hne, hb, hba⟩ := h.other hid ho hb
    obtain ⟨hp, o₁, ho₁, hi, hfree, hpr⟩ := h.entry id b hb
    refine ⟨by simpa [hne] using hp, o₁, by simpa [State.withoutObject_object, hba] using ho₁, hi,
      ?_, by simpa using hpr⟩
    rw [State.withoutObject_lock, if_neg (h.lock_ne id o.id b a o₁ o hb hid ho₁ ho hba), hfree]
  lock_ne id id' b b' o₁ o₂ hb hb' ho₁ ho₂ hne := by
    obtain ⟨-, hb, hba⟩ := h.other hid ho hb
    obtain ⟨-, hb', hba'⟩ := h.other hid ho hb'
    rw [State.withoutObject_object, if_neg hba] at ho₁
    rw [State.withoutObject_object, if_neg hba'] at ho₂
    exact h.lock_ne id id' b b' o₁ o₂ hb hb' ho₁ ho₂ hne
  providerLock p provider hp := by
    rw [State.withoutObject_provider] at hp
    rw [State.withoutObject_lock, if_neg (h.apart o.id a o p provider hid ho hp),
      h.providerLock p provider hp]
  apart id b o₁ p provider hb ho₁ hp := by
    obtain ⟨-, hb, hba⟩ := h.other hid ho hb
    rw [State.withoutObject_object, if_neg hba] at ho₁
    rw [State.withoutObject_provider] at hp
    exact h.apart id b o₁ p provider hb ho₁ hp

theorem Books.withoutObject (hb : Books l s) {acc : Account} {a : Addr} {o : Object}
    (hacc : l o.id = some acc) (hid : (s.sets .objects).lookup o.id = some a)
    (ho : s.heap .object a = some o) (hone : acc.refs = 1) :
    Books (l.add o.id (-1)) (s.withoutObject a acc.creator o) where
  toSettled := hb.toSettled.withoutObject hid ho
  owned id acc' hl hp := by
    have hne : id ≠ o.id := fun h => by
      subst h
      rw [Ledger.add_self hacc] at hl
      obtain rfl := Option.some.inj hl
      simp [hone] at hp
    rw [Ledger.add_of_ne hne] at hl
    obtain ⟨b, o', hid', ho', hr, hc, hprov, hcon, hof⟩ := hb.owned id acc' hl hp
    have hba : b ≠ a := fun h => by
      subst h
      exact hne (hb.id_eq hid' ho).symm
    refine ⟨b, o', by simp [hne, hid'], by rw [State.withoutObject_object, if_neg hba, ho'], hr, hc,
      by simpa using hprov, by simpa using hcon, ?_⟩
    rcases eq_or_ne acc'.creator acc.creator with h | h
    · rw [h] at hof ⊢
      simp [hne, hof]
    · rw [State.withoutObject_objectsOf_of_ne _ _ _ h, hof]
  dead id acc' hl hp := by
    rcases eq_or_ne id o.id with rfl | hne
    · simp
    · rw [Ledger.add_of_ne hne] at hl
      simpa [hne] using hb.dead id acc' hl hp
  listed c hc id hid' := by
    have hc' : (s.heap .consumer c).isSome := by simpa using hc
    have hmem : id ∈ s.sets (.objectsOf c) ∧ (c = acc.creator → id ≠ o.id) := by
      rcases eq_or_ne c acc.creator with rfl | hne
      · simpa [and_comm] using hid'
      · rw [State.withoutObject_objectsOf_of_ne _ _ _ hne] at hid'
        exact ⟨hid', fun h => absurd h hne⟩
    obtain ⟨acc', hl, hp, hcr⟩ := hb.listed c hc' id hmem.1
    have hne : id ≠ o.id := fun h => by
      subst h
      obtain rfl := Option.some.inj (hacc.symm.trans hl)
      exact hmem.2 hcr.symm rfl
    exact ⟨acc', by rw [Ledger.add_of_ne hne, hl], hp, hcr⟩

section
variable {p c : Addr} {realId : Arg} {id : GlobalId}

@[simp] theorem State.withOwned_objects :
    (s.withOwned p c realId id).sets .objects = (s.sets .objects).add id (s.next + 1) := by
  simp [withOwned, putSet_sets_of_ne]

@[simp] theorem State.withOwned_idPool :
    (s.withOwned p c realId id).sets .idPool = s.sets .idPool := by
  simp [withOwned, putSet_sets_of_ne]

@[simp] theorem State.withOwned_objectsOf :
    (s.withOwned p c realId id).sets (.objectsOf c) =
      (s.sets (.objectsOf c)).add id (s.next + 1) := by
  simp [withOwned]

theorem State.withOwned_objectsOf_of_ne {d : Addr} (h : d ≠ c) :
    (s.withOwned p c realId id).sets (.objectsOf d) = s.sets (.objectsOf d) := by
  simp [withOwned, putSet_sets_of_ne, h]

@[simp] theorem State.withOwned_heap : (s.withOwned p c realId id).heap =
    (s.withObject ⟨id, realId, 1, s.next, p, some c⟩).heap := rfl

theorem State.withOwned_read (hf : s.Fresh) {k : Kind} {b : Addr} {v : k.Rec}
    (h : s.heap k b = some v) : (s.withOwned p c realId id).heap k b = some v :=
  State.withObject_read hf h

@[simp] theorem State.withObject_consumer {o : Object} :
    (s.withObject o).heap .consumer = s.heap .consumer :=
  s.withObject_heap_kind (by decide) (by decide)

@[simp] theorem State.withObject_provider {o : Object} :
    (s.withObject o).heap .provider = s.heap .provider :=
  s.withObject_heap_kind (by decide) (by decide)

/-- A lock after a new object has come is one of before or the new object's. -/
private theorem State.withObject_lock_cases {o : Object} {b : Addr} {lock : Lock}
    (hb : (s.withObject o).heap .lock b = some lock) :
    lock = .free ∧ b = s.next ∨ s.heap .lock b = some lock := by
  rcases eq_or_ne b s.next with rfl | hne
  · rw [s.withObject_lock] at hb
    exact .inl ⟨(Option.some.inj hb).symm, rfl⟩
  · exact .inr (by simpa [withObject, put_heap_of_ne _ _ hne] using hb)

private theorem Settled.entry_withOwned (h : Settled s) (hk : id ∉ s.sets .objects)
    {id' : GlobalId} {b : Addr}
    (hb : ((s.withOwned p c realId id).sets .objects).lookup id' = some b) :
    id' = id ∧ b = s.next + 1 ∨ id' ≠ id ∧ (s.sets .objects).lookup id' = some b ∧
      ∃ o, s.heap .object b = some o ∧ o.lock < s.next ∧
        (s.withOwned p c realId id).heap .object b = some o := by
  rw [State.withOwned_objects, IdSet.lookup_add hk] at hb
  split_ifs at hb with he
  · exact .inl ⟨he, (Option.some.inj hb).symm⟩
  · obtain ⟨-, o, ho, -, hfree, -⟩ := h.entry id' b hb
    exact .inr ⟨he, hb, o, ho, h.fresh.lt hfree, State.withObject_read h.fresh ho⟩

theorem Settled.withOwned (h : Settled s) (hc : (s.heap .consumer c).isSome)
    (hp : (s.heap .provider p).isSome) (hi : id ∈ s.sets .idPool) (hk : id ∉ s.sets .objects)
    (hof : id ∉ s.sets (.objectsOf c)) : Settled (s.withOwned p c realId id) where
  fresh k b hb := by
    have hlt : s.next + 2 ≤ b := hb
    have hne : b ≠ s.next := Nat.ne_of_gt (Nat.lt_of_lt_of_le (Nat.lt_add_of_pos_right two_pos) hlt)
    have hne' : b ≠ s.next + 1 := Nat.ne_of_gt hlt
    rw [State.withOwned_heap, s.withObject_heap_of_ne hne hne']
    exact h.fresh k b (Nat.le_of_add_right_le hlt)
  locks b lock hb := by
    rw [State.withOwned_heap] at hb
    rcases State.withObject_lock_cases hb with ⟨rfl, -⟩ | hb
    · rfl
    · exact h.locks b lock hb
  setLocks := h.setLocks
  pool := by simpa using h.pool
  objects := by simp [h.objects, hk]
  objectsOf d hd := by
    rcases eq_or_ne d c with rfl | hne
    · simp [h.objectsOf d hc, hof]
    · rw [State.withOwned_objectsOf_of_ne hne]
      exact h.objectsOf d (by simpa using hd)
  entry id' b hb := by
    rw [State.withOwned_idPool]
    rcases h.entry_withOwned hk hb with ⟨rfl, rfl⟩ | ⟨-, hb, o, ho, -, ho'⟩
    · exact ⟨hi, ⟨id', realId, 1, s.next, p, some c⟩, s.withObject_object, rfl, by simp,
        by simpa using hp⟩
    · obtain ⟨hpool, o₁, ho₁, hid, hfree, hpr⟩ := h.entry id' b hb
      obtain rfl := Option.some.inj (ho.symm.trans ho₁)
      exact ⟨hpool, o, ho', hid, State.withOwned_read h.fresh hfree, by simpa using hpr⟩
  lock_ne id' id'' b b' o₁ o₂ hb hb' ho₁ ho₂ hne := by
    rcases h.entry_withOwned hk hb with ⟨rfl, rfl⟩ | ⟨-, hb, o₃, ho₃, hlt, ho₃'⟩ <;>
      rcases h.entry_withOwned hk hb' with ⟨rfl, rfl⟩ | ⟨-, hb', o₄, ho₄, hlt', ho₄'⟩
    · exact absurd rfl hne
    · obtain rfl := Option.some.inj (s.withObject_object.symm.trans ho₁)
      obtain rfl := Option.some.inj (ho₄'.symm.trans ho₂)
      exact Nat.ne_of_gt hlt'
    · obtain rfl := Option.some.inj (ho₃'.symm.trans ho₁)
      obtain rfl := Option.some.inj (s.withObject_object.symm.trans ho₂)
      exact Nat.ne_of_lt hlt
    · obtain rfl := Option.some.inj (ho₃'.symm.trans ho₁)
      obtain rfl := Option.some.inj (ho₄'.symm.trans ho₂)
      exact h.lock_ne id' id'' b b' o₃ o₄ hb hb' ho₃ ho₄ hne
  providerLock q provider hq := by
    rw [State.withOwned_heap, State.withObject_provider] at hq
    exact State.withOwned_read h.fresh (h.providerLock q provider hq)
  apart id' b o₁ q provider hb ho₁ hq := by
    rw [State.withOwned_heap, State.withObject_provider] at hq
    rcases h.entry_withOwned hk hb with ⟨rfl, rfl⟩ | ⟨-, hb, o, ho, -, ho'⟩
    · obtain rfl := Option.some.inj (s.withObject_object.symm.trans ho₁)
      exact Nat.ne_of_lt (h.fresh.lt (h.providerLock q provider hq))
    · obtain rfl := Option.some.inj (ho'.symm.trans ho₁)
      exact h.apart id' b o q provider hb ho hq

theorem Serviceable.withNet (hs : Serviceable s) (n : Net Sd) : Serviceable (s.withNet n) :=
  ⟨hs.fresh, hs.setLocks, hs.pool, hs.objects, hs.objectsOf, hs.below⟩

theorem Settled.withNet (hs : Settled s) (n : Net Sd) : Settled (s.withNet n) :=
  ⟨hs.toServiceable.withNet n, hs.locks, hs.entry, hs.lock_ne, hs.providerLock, hs.apart⟩

theorem Books.withNet (hb : Books l s) (n : Net Sd) : Books l (s.withNet n) :=
  ⟨hb.toSettled.withNet n, hb.owned, hb.dead, hb.listed⟩

/-- A new object, on top of tables `s` that agree with the books but for the reservation
of its id. -/
theorem Books.withOwned {s₀ : State} (hb : Books l s₀) (hs : Settled s)
    (hheap : s.heap = s₀.heap) (hsets : ∀ r, r ≠ .idPool → s.sets r = s₀.sets r)
    (hpool : ∀ id', id' ≠ id → id' ∈ s.sets .idPool → id' ∈ s₀.sets .idPool)
    (hc : (s.heap .consumer c).isSome) (hp : (s.heap .provider p).isSome)
    (hi : id ∈ s.sets .idPool) (hk : id ∉ s.sets .objects) (hof : id ∉ s.sets (.objectsOf c)) :
    Books (Function.update l id (some ⟨c, 1⟩)) (s.withOwned p c realId id) where
  toSettled := hs.withOwned hc hp hi hk hof
  owned id' acc hl hpos := by
    rcases eq_or_ne id' id with rfl | hne
    · rw [Function.update_self] at hl
      obtain rfl := Option.some.inj hl
      refine ⟨s.next + 1, _, by simp [IdSet.lookup_add hk], s.withObject_object, rfl, rfl,
        by simpa using hp, by simpa using hc, by simp [IdSet.lookup_add hof]⟩
    · rw [Function.update_of_ne hne] at hl
      obtain ⟨a, o, hid, ho, hr, hcr, hprov, hcon, hof'⟩ := hb.owned id' acc hl hpos
      rw [← hsets .objects objects_ne_idPool] at hid
      rw [← hsets (.objectsOf acc.creator) (objectsOf_ne_idPool acc.creator)] at hof'
      rw [← hheap] at ho hprov hcon
      refine ⟨a, o, by simp [IdSet.lookup_add hk, hne, hid], State.withObject_read hs.fresh ho, hr,
        hcr, by simpa using hprov, by simpa using hcon, ?_⟩
      rcases eq_or_ne acc.creator c with h | h
      · rw [h] at hof' ⊢
        simp [IdSet.lookup_add hof, hne, hof']
      · rw [State.withOwned_objectsOf_of_ne h, hof']
  dead id' acc hl hpos := by
    rcases eq_or_ne id' id with rfl | hne
    · rw [Function.update_self] at hl
      obtain rfl := Option.some.inj hl
      exact absurd one_pos hpos
    · rw [Function.update_of_ne hne] at hl
      obtain ⟨hno, hnp⟩ := hb.dead id' acc hl hpos
      refine ⟨?_, fun h => hnp (hpool id' hne (by simpa using h))⟩
      rw [State.withOwned_objects, IdSet.mem_add hk, not_or]
      exact ⟨hne, by rwa [hsets .objects objects_ne_idPool]⟩
  listed d hd id' hid' := by
    have hd' : (s₀.heap .consumer d).isSome := by
      rw [← hheap]
      simpa using hd
    rcases eq_or_ne id' id with rfl | hne
    · rcases eq_or_ne d c with rfl | hdc
      · exact ⟨⟨d, 1⟩, Function.update_self .., one_pos, rfl⟩
      · rw [State.withOwned_objectsOf_of_ne hdc, hsets (.objectsOf d) (objectsOf_ne_idPool d)] at hid'
        obtain ⟨acc, hl, hpos, -⟩ := hb.listed d hd' id' hid'
        obtain ⟨a, -, hida, -⟩ := hb.owned id' acc hl hpos
        rw [← hsets .objects objects_ne_idPool] at hida
        exact absurd (IdSet.mem_of_lookup hida) hk
    · have hmem : id' ∈ s₀.sets (.objectsOf d) := by
        rw [← hsets (.objectsOf d) (objectsOf_ne_idPool d)]
        rcases eq_or_ne d c with rfl | hdc
        · rw [State.withOwned_objectsOf, IdSet.mem_add hof] at hid'
          exact hid'.resolve_left hne
        · rwa [State.withOwned_objectsOf_of_ne hdc] at hid'
      obtain ⟨acc, hl, hpos, hcr⟩ := hb.listed d hd' id' hmem
      exact ⟨acc, by rw [Function.update_of_ne hne, hl], hpos, hcr⟩

end

theorem Serviceable.withId (h : Serviceable s) (hk : (s.candidates s.draws).val ∉ s.sets .idPool) :
    Serviceable s.withId where
  fresh := h.fresh
  setLocks := h.setLocks
  pool := by simp [State.withId, h.pool, hk]
  objects := by simpa [State.withId, State.putSet_sets_of_ne] using h.objects
  objectsOf c hc := by simpa [State.withId, State.putSet_sets_of_ne] using h.objectsOf c hc
  below id a hid := h.below id a (by simpa [State.withId, State.putSet_sets_of_ne] using hid)

theorem Settled.withId (h : Settled s) (hk : (s.candidates s.draws).val ∉ s.sets .idPool) :
    Settled s.withId where
  toServiceable := h.toServiceable.withId hk
  locks := h.locks
  entry id a hid := by
    obtain ⟨hp, ho⟩ := h.entry id a (by simpa [State.withId, State.putSet_sets_of_ne] using hid)
    exact ⟨by simp [State.withId, IdSet.mem_add hk, hp], ho⟩
  lock_ne id id' a a' o o' hid hid' :=
    h.lock_ne id id' a a' o o' (by simpa [State.withId, State.putSet_sets_of_ne] using hid)
      (by simpa [State.withId, State.putSet_sets_of_ne] using hid')
  providerLock := h.providerLock
  apart id a o p provider hid :=
    h.apart id a o p provider (by simpa [State.withId, State.putSet_sets_of_ne] using hid)

def Ledger.live (l : Ledger) : Ledger := fun id => (l id).filter fun acc => decide (0 < acc.refs)

theorem Books.mem_objects (hb : Books l s) {c : Addr} (hc : (s.heap .consumer c).isSome)
    {id : GlobalId} (hid : id ∈ s.sets (.objectsOf c)) : id ∈ s.sets .objects := by
  obtain ⟨acc, hl, hpos, -⟩ := hb.listed c hc id hid
  obtain ⟨a, -, hida, -⟩ := hb.owned id acc hl hpos
  exact IdSet.mem_of_lookup hida

/-- A call of `clCreateObject` that reserves its id, or is given a reserved one. -/
theorem Books.create (hb : Books l s) {p c : Addr} {localId : Arg} {wish : GlobalId}
    (ha : Admissible l s (.create p c localId wish))
    (hd : DrawsFresh s (.create p c localId wish)) :
    ∃ s' id, run (.consumer c) (clCreateObject (some p) c localId wish) s = .done s' id ∧
      Books (l.record (.create p c localId wish) (.created id)) s' := by
  obtain ⟨hps, hcs, hw⟩ := ha
  obtain ⟨provider, hp⟩ := Option.isSome_iff_exists.mp hps
  by_cases hreal : localId = 0
  · refine ⟨s, invalidId, ?_, by simpa [Ledger.record] using hb⟩
    rw [clCreateObject, run_bind, run_deref_some, Outcome.bind_done, run_bind, run_read hp,
      Outcome.bind_done, if_pos hreal]
    rfl
  -- the id, and the tables with it reserved
  obtain ⟨id, s₁, hs₁, hset, hheap, hsets, hpool, hid, hi, hk⟩ : ∃ id s₁,
      run (.consumer c) (if wish = invalidId then idCreate else pure wish) s = .done s₁ id ∧
      Settled s₁ ∧ s₁.heap = s.heap ∧ (∀ r, r ≠ .idPool → s₁.sets r = s.sets r) ∧
      (∀ id', id' ≠ id → id' ∈ s₁.sets .idPool → id' ∈ s.sets .idPool) ∧ id ≠ invalidId ∧
      id ∈ s₁.sets .idPool ∧ id ∉ s.sets .objects := by
    by_cases hwish : wish = invalidId
    · have hdraw := hd hreal hwish
      refine ⟨_, _, by rw [if_pos hwish, run_idCreate hb.usable_pool hdraw],
        hb.toSettled.withId hdraw, rfl,
        fun r hr => by simp [State.withId, State.putSet_sets_of_ne, hr],
        fun id' hne h => ?_, (s.candidates s.draws).2, by simp [State.withId, IdSet.mem_add hdraw],
        fun h => hdraw (hb.mem_pool h)⟩
      rw [State.withId, State.putSet_sets_self, IdSet.mem_add hdraw] at h
      exact h.resolve_left hne
    · exact ⟨wish, s, by rw [if_neg hwish]; rfl, hb.toSettled, rfl, fun _ _ => rfl,
        fun _ _ h => h, hwish, hw hwish⟩
  have hcs₁ : (s₁.heap .consumer c).isSome := by rwa [hheap]
  have hps₁ : (s₁.heap .provider p).isSome := by rwa [hheap]
  have hk₁ : id ∉ s₁.sets .objects := by rwa [hsets .objects objects_ne_idPool]
  have hof : id ∉ s₁.sets (.objectsOf c) := fun h => by
    rw [hsets (.objectsOf c) (objectsOf_ne_idPool c)] at h
    exact hk (hb.mem_objects hcs h)
  obtain ⟨n, hrun⟩ := run_clCreateObject (c := c) localId hs₁ hset.fresh hp
    (by rw [hheap, hp]) hreal hid hset.usable_objects hk₁ (hset.usable_objectsOf hcs₁) hof
  refine ⟨_, id, hrun, ?_⟩
  rw [Ledger.record, if_neg hid]
  exact (hb.withOwned hset hheap hsets hpool hcs₁ hps₁ hi hk₁ hof).withNet n

/-- A dead id is not found, and neither call changes anything. -/
theorem Books.absent (hb : Books l s) {c : Addr} (hc : (s.heap .consumer c).isSome)
    {id : GlobalId} (hid : id ∉ s.sets .objects) :
    run t (clRetainObject c id) s = .done s false ∧
      run t (clReleaseObject c id) s = .done s false := by
  obtain ⟨consumer, hc⟩ := Option.isSome_iff_exists.mp hc
  have hno := IdSet.not_mem_iff.mp hid
  exact ⟨run_clRetainObject_absent hc hb.usable_objects hno,
    run_clReleaseObject_absent hc hb.usable_objects hno⟩

private theorem absent_or_owned (hb : Books l s) {id : GlobalId}
    (hnone : l id = none → id ∉ s.sets .objects) :
    id ∉ s.sets .objects ∨ ∃ acc, l id = some acc ∧ 0 < acc.refs := by
  cases hl : l id with
  | none => exact .inl (hnone hl)
  | some acc =>
    by_cases hpos : 0 < acc.refs
    · exact .inr ⟨acc, rfl, hpos⟩
    · exact .inl (hb.dead id acc hl hpos).1

structure Local (s s' : State) (id : GlobalId) (b : Bool) : Prop where
  answer : b = true ↔ id ∈ s.sets .objects
  net : s'.net = s.net
  phase : s'.phase = s.phase
  provider : s'.heap .provider = s.heap .provider

private theorem Local.refl {id : GlobalId} (h : id ∉ s.sets .objects) : Local s s id false where
  answer := by simp [h]
  net := rfl
  phase := rfl
  provider := rfl

theorem Books.retain (hb : Books l s) {c : Addr} {id : GlobalId}
    (ha : Admissible l s (.retain c id)) :
    ∃ s' b, run (.consumer c) (clRetainObject c id) s = .done s' b ∧
      Books (l.record (.retain c id) (.success b)) s' ∧ Local s s' id b := by
  obtain ⟨hc, hnone, hacc⟩ := ha
  rcases absent_or_owned hb hnone with hid | ⟨acc, hl, hpos⟩
  · exact ⟨s, false, (hb.absent hc hid).1, hb, .refl hid⟩
  obtain ⟨rfl, hmax⟩ := hacc acc hl hpos
  obtain ⟨a, o, hid, ho, hr, hown, -, -, -⟩ := hb.owned id acc hl hpos
  obtain ⟨consumer, hc⟩ := Option.isSome_iff_exists.mp hc
  have hn : ((o.refcnt + 1).toNat : ℤ) = acc.refs + 1 := by
    rw [UInt32.toNat_add, UInt32.toNat_one]
    omega
  have hrpos : 0 < o.refcnt := by
    rw [UInt32.lt_iff_toNat_lt, UInt32.toNat_zero]
    omega
  exact ⟨_, true,
    run_clRetainObject_owner hc hb.usable_objects hid ho (hb.lock_free hid ho) hrpos hown,
    hb.recount hl hid ho hpos hn (by omega),
    ⟨by simp [IdSet.mem_of_lookup hid], rfl, rfl, State.put_object_heap_provider ..⟩⟩

theorem Books.release (hb : Books l s) {c : Addr} {id : GlobalId}
    (ha : Admissible l s (.release c id)) :
    ∃ s' b, run (.consumer c) (clReleaseObject c id) s = .done s' b ∧
      Books (l.record (.release c id) (.success b)) s' ∧ Local s s' id b := by
  obtain ⟨hc, hnone, hacc⟩ := ha
  rcases absent_or_owned hb hnone with hid | ⟨acc, hl, hpos⟩
  · exact ⟨s, false, (hb.absent hc hid).2, hb, .refl hid⟩
  obtain rfl := hacc acc hl hpos
  obtain ⟨a, o, hid, ho, hr, hown, hprov, -, hof⟩ := hb.owned id acc hl hpos
  have hcons := hc
  obtain ⟨consumer, hc⟩ := Option.isSome_iff_exists.mp hc
  obtain ⟨provider, hp⟩ := Option.isSome_iff_exists.mp hprov
  have hfree := hb.lock_free hid ho
  by_cases hone : acc.refs = 1
  · obtain rfl := hb.id_eq hid ho
    have hrc : o.refcnt = 1 := UInt32.toNat_inj.mp (by rw [UInt32.toNat_one]; omega)
    exact ⟨_, true,
      run_clReleaseObject_last hc hb.usable_objects hid ho hfree hrc hown hp
        (hb.usable_objectsOf hcons) (IdSet.mem_of_lookup hof) hb.usable_pool
        (hb.mem_pool (IdSet.mem_of_lookup hid)),
      hb.withoutObject hl hid ho hone,
      ⟨by simp [IdSet.mem_of_lookup hid], rfl, rfl, State.withoutObject_provider ..⟩⟩
  · have hn : ((o.refcnt - 1).toNat : ℤ) = acc.refs + -1 := by
      rw [UInt32.toNat_sub, UInt32.toNat_one]
      have := o.refcnt.toNat_lt
      omega
    have hne : o.refcnt - 1 ≠ 0 := fun h => by
      rw [h, UInt32.toNat_zero] at hn
      omega
    exact ⟨_, true, run_clReleaseObject_more hc hb.usable_objects hid ho hfree hne,
      hb.recount hl hid ho hpos hn (by omega),
      ⟨by simp [IdSet.mem_of_lookup hid], rfl, rfl, State.put_object_heap_provider ..⟩⟩

theorem Books.call (hb : Books l s) {call : ObjectCall} (ha : Admissible l s call)
    (hd : DrawsFresh s call) :
    ∃ s' ans, call.run s = .done s' ans ∧ Books (l.record call ans) s' := by
  cases call with
  | create p c localId wish =>
    obtain ⟨s', id, hr, hb'⟩ := hb.create ha hd
    exact ⟨s', .created id, by rw [ObjectCall.run_create, hr]; rfl, hb'⟩
  | retain c id =>
    obtain ⟨s', b, hr, hb', -⟩ := hb.retain ha
    exact ⟨s', .success b, by rw [ObjectCall.run_retain, hr]; rfl, hb'⟩
  | release c id =>
    obtain ⟨s', b, hr, hb', -⟩ := hb.release ha
    exact ⟨s', .success b, by rw [ObjectCall.run_release, hr]; rfl, hb'⟩

end

/-- What the agent's tables say about an object that `clCreateObject` has returned. -/
structure Exact (s : State) (id : GlobalId) (acc : Account) : Prop where
  mem_objects : id ∈ s.sets .objects ↔ 0 < acc.refs
  refcnt : 0 < acc.refs → ∃ a o, (s.sets .objects).lookup id = some a ∧
    s.heap .object a = some o ∧ (o.refcnt.toNat : ℤ) = acc.refs ∧
    o.consumer = some acc.creator ∧ (s.sets (.objectsOf acc.creator)).lookup id = some a
  others : ∀ c, (s.heap .consumer c).isSome → c ≠ acc.creator → id ∉ s.sets (.objectsOf c)
  mem_idPool : id ∈ s.sets .idPool ↔ 0 < acc.refs
  dead : ¬ 0 < acc.refs → ∀ c, (s.heap .consumer c).isSome → id ∉ s.sets (.objectsOf c) ∧
    (ObjectCall.retain c id).run s = .done s (.success false) ∧
    (ObjectCall.release c id).run s = .done s (.success false)

/-- Reference counting is exact over the sequences of calls that satisfy `allow`: every call
returns, no lock is held after it, and the tables say what the ledger says. -/
def CountsExactly (allow : State → ObjectCall → Prop) (init : State) : Prop :=
  ∀ s l, CallReach allow init s l →
    (∀ id acc, l id = some acc → Exact s id acc) ∧
    (∀ a lock, s.heap .lock a = some lock → lock.owner = none) ∧
    (∀ r, (s.setLock r).owner = none) ∧
    ∀ call, Admissible l s call → allow s call → ∃ s' ans, call.run s = .done s' ans

theorem Books.exact {s : State} {l : Ledger} (hb : Books l s) {id : GlobalId} {acc : Account}
    (hl : l id = some acc) : Exact s id acc where
  mem_objects := by
    refine ⟨fun h => by_contra fun hpos => (hb.dead id acc hl hpos).1 h, fun hpos => ?_⟩
    obtain ⟨a, o, hid, -⟩ := hb.owned id acc hl hpos
    exact IdSet.mem_of_lookup hid
  refcnt hpos := by
    obtain ⟨a, o, hid, ho, hr, hown, -, -, hof⟩ := hb.owned id acc hl hpos
    exact ⟨a, o, hid, ho, hr, hown, hof⟩
  others c hc hne hid := by
    obtain ⟨acc', hl', -, hcr⟩ := hb.listed c hc id hid
    obtain rfl := Option.some.inj (hl.symm.trans hl')
    exact hne hcr.symm
  mem_idPool := by
    refine ⟨fun h => by_contra fun hpos => (hb.dead id acc hl hpos).2 h, fun hpos => ?_⟩
    obtain ⟨a, o, hid, -⟩ := hb.owned id acc hl hpos
    exact hb.mem_pool (IdSet.mem_of_lookup hid)
  dead hpos c hc := by
    have hno := (hb.dead id acc hl hpos).1
    have habs := hb.absent (t := .consumer c) hc hno
    exact ⟨fun h => hno (hb.mem_objects hc h), by rw [ObjectCall.run_retain, habs.1]; rfl,
      by rw [ObjectCall.run_release, habs.2]; rfl⟩

theorem Books.of_reach {init s : State} {l : Ledger} (hi : Settled init)
    (hc : ∀ c, (init.heap .consumer c).isSome → ∀ id, id ∉ init.sets (.objectsOf c))
    (h : CallReach DrawsFresh init s l) : Books l s := by
  induction h with
  | refl => exact hi.books hc
  | call call _ ha hd hr ih =>
    obtain ⟨s', ans, hr', hb⟩ := ih.call ha hd
    obtain ⟨rfl, rfl⟩ := Outcome.done.inj (hr.symm.trans hr')
    exact hb

/-- As long as `id_create` never draws an id that is in the pool, reference counting is exact
for owners. -/
theorem countsExactly {init : State} (hi : Settled init)
    (hc : ∀ c, (init.heap .consumer c).isSome → ∀ id, id ∉ init.sets (.objectsOf c)) :
    CountsExactly DrawsFresh init := by
  intro s l h
  have hb := Books.of_reach hi hc h
  refine ⟨fun id acc hl => hb.exact hl, fun a lock ha => ?_, fun r => ?_, fun call ha hd => ?_⟩
  · rw [hb.locks a lock ha]
    rfl
  · rw [hb.setLocks r]
    rfl
  · obtain ⟨s', ans, hr, -⟩ := hb.call ha hd
    exact ⟨s', ans, hr⟩

private theorem small_lookup {cs : ℕ → Candidate} {id : GlobalId} {a : Addr}
    (h : ((State.small cs).sets .objects).lookup id = some a) : id = 9 ∧ a = 6 := by
  have h : (IdSet.empty.add 9 6 : IdSet GlobalId Addr).lookup id = some a := h
  rw [IdSet.lookup_add (IdSet.not_mem_empty 9), IdSet.lookup_empty] at h
  split_ifs at h with hid
  exact ⟨hid, (Option.some.inj h).symm⟩

private theorem small_object {cs : ℕ → Candidate} {a : Addr} {o : Object}
    (h : (State.small cs).heap .object a = some o) : o = ⟨9, 77, 0, 7, 1, none⟩ := by
  have h : (if a = 6 then some ⟨9, 77, 0, 7, 1, none⟩ else none) = some o := h
  split_ifs at h
  exact (Option.some.inj h).symm

private theorem small_provider {cs : ℕ → Candidate} {a : Addr} {p : Provider}
    (h : (State.small cs).heap .provider a = some p) : p = ⟨0, 2, true⟩ := by
  have h : (if a = 1 then some ⟨0, 2, true⟩ else none) = some p := h
  split_ifs at h
  exact (Option.some.inj h).symm

private theorem small_objectsOf {cs : ℕ → Candidate} {c : Addr}
    (h : ((State.small cs).heap .consumer c).isSome) :
    (State.small cs).sets (.objectsOf c) = .empty := by
  have h : (if c = 3 ∨ c = 4 then some (⟨true, none⟩ : Consumer) else none).isSome := h
  split_ifs at h with hc
  · rcases hc with rfl | rfl <;> rfl
  · cases h

theorem small_settled (cs : ℕ → Candidate) : Settled (.small cs) where
  fresh k a h := by
    have hne : ∀ n < 8, a ≠ n := fun n hn => Nat.ne_of_gt (Nat.lt_of_lt_of_le hn h)
    cases k <;> simp [State.small, hne]
  locks a l h := by
    have h : (if a = 2 ∨ a = 7 then some Lock.free else none) = some l := h
    split_ifs at h
    exact (Option.some.inj h).symm
  setLocks _ := rfl
  pool := rfl
  objects := rfl
  objectsOf c hc := by
    rw [small_objectsOf hc]
    rfl
  entry id a h := by
    obtain ⟨rfl, rfl⟩ := small_lookup h
    exact ⟨rfl, ⟨9, 77, 0, 7, 1, none⟩, rfl, rfl, rfl, rfl⟩
  lock_ne id id' a a' o o' h h' _ _ hne := by
    rw [(small_lookup h).2, (small_lookup h').2] at hne
    exact absurd rfl hne
  providerLock p provider hp := by
    rw [small_provider hp]
    rfl
  apart id a o p provider _ ho hp := by
    rw [small_object ho, small_provider hp]
    decide

theorem small_unowned (cs : ℕ → Candidate) (c : Addr)
    (hc : ((State.small cs).heap .consumer c).isSome) (id : GlobalId) :
    id ∉ (State.small cs).sets (.objectsOf c) := by
  rw [small_objectsOf hc]
  exact IdSet.not_mem_empty id

theorem countsExactly_small :
    CountsExactly DrawsFresh (.small someIds) :=
  countsExactly (small_settled _) (small_unowned _)

/-- A second object whose id is drawn like the first one's. -/
theorem not_countsExactly_collision :
    ¬ CountsExactly (fun _ _ => True) (.small fun _ => ⟨5, by decide⟩) := by
  intro h
  let init : State := .small fun _ => ⟨5, by decide⟩
  let call : ObjectCall := .create 1 3 7 invalidId
  have hrun : (call.run init).Ends fun s _ => (s.heap .provider 1).isSome ∧
      (s.heap .consumer 3).isSome ∧ (call.run s).fault? = some .freedMemory := by decide
  obtain ⟨s, ans, hs, hp, hc, hf⟩ := Outcome.ends_iff.mp hrun
  have hreach : CallReach (fun _ _ => True) init s _ :=
    .call call .refl ⟨rfl, rfl, fun hw => absurd rfl hw⟩ trivial hs
  obtain ⟨s', ans', hs'⟩ := (h s _ hreach).2.2.2 call ⟨hp, hc, fun hw => absurd rfl hw⟩ trivial
  rw [hs'] at hf
  cases hf

end Clara.Agent
