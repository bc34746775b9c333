import Clara.Agent.Frame

/-! Where objects lead: runs in which no object outlives its provider. -/
namespace Clara.Agent

open Conc

/-- Every object leads to an attached provider, and none leads to one that has finished. -/
structure Routes (s : State) : Prop where
  attached : ∀ id a, (s.sets .objects).lookup id = some a → ∃ o, s.heap .object a = some o ∧
    o.provider ∈ s.sets .providers ∧ (s.heap .provider o.provider).isSome
  finished : ∀ p, s.phase (.provider p) = .finished → ∀ id a o,
    (s.sets .objects).lookup id = some a → s.heap .object a = some o → o.provider ≠ p

/-- The providers and the objects that a run has left. -/
structure History where
  /-- The providers that have come and not gone. -/
  attached : List Addr
  /-- The objects that were created and not destroyed, with their providers. -/
  objects : List (Addr × Addr)

namespace History

def none : History := ⟨[], []⟩

/-- An object is there from its creation until it is taken out of `agent->objects`. -/
def after (n : History) : (o : Op) → State → o.Res → History
  | .setInsert .providers p _, _, _ => { n with attached := p :: n.attached }
  | .setRemove .providers p, _, _ => { n with attached := n.attached.filter (· ≠ p) }
  | .new .object o, _, a => { n with objects := (a, o.provider) :: n.objects }
  | .setRemove .objects id, s, _ =>
    { n with objects := n.objects.filter fun x => (s.sets .objects).lookup id ≠ some x.1 }
  | _, _, _ => n

theorem after_of_area {o : Op} (h : o.area ∉ [.object, .provider]) (n : History) (s : State)
    (r : o.Res) : n.after o s r = n := by
  unfold after
  split
  · exact absurd (List.mem_of_elem_eq_true rfl) h
  · exact absurd (List.mem_of_elem_eq_true rfl) h
  · exact absurd (List.mem_of_elem_eq_true rfl) h
  · exact absurd (List.mem_of_elem_eq_true rfl) h
  · rfl

end History

abbrev execRecorded : Tid → (o : Op) → State × History → Outcome (State × History) Fault o.Res :=
  noted (fun _ o s r n => n.after o s r) exec

def recordingSystem (lzo : Lzo) (fuel : ℕ) :
    System Op Op.Res (State × History) Fault Tid Request :=
  (system lzo fuel).noting fun _ o s r n => n.after o s r

/-- The objects lead to attached providers in every state of every run from the start. -/
def NoObjectOutlivesProvider (lzo : Lzo) (fuel : ℕ)
    (guard : Tid → Op → State × History → Prop) : Prop :=
  ∀ candidates loadBalancing memory c,
    (recordingSystem lzo fuel).Reach guard
      (.idle (.initial candidates loadBalancing memory, .none)) c → Routes c.state.1

/-- A provider goes when all objects that were created for it have been destroyed, and objects are
created for providers that are there. -/
def GoesLast (_ : Tid) : Op → State × History → Prop
  | .setRemove .providers p, (_, n) => ∀ a, (a, p) ∉ n.objects
  | .new .object o, (_, n) => o.provider ∈ n.attached
  | _, _ => True

inductive Hand
  | empty
  /-- The thread is that of a provider which has come. -/
  | running
  /-- An object that is not in the table yet. -/
  | fresh (object : Addr) (id : GlobalId)
  /-- An object that was found in the table. -/
  | seen (object : Addr) (id : GlobalId)
  /-- An object that was taken out of the table. -/
  | gone (object : Addr)
  /-- A provider that is not in the set yet. -/
  | joining (provider : Addr)
  /-- A provider whose thread has not been started. -/
  | joined (provider : Addr)
  /-- The thread's provider has been detached. -/
  | leaving

namespace Hand

def object : Hand → Option Addr
  | .fresh a _ | .seen a _ | .gone a => some a
  | _ => none

/-- What a thread may rely on. -/
def Holds (s : State) (n : History) (t : Tid) : Hand → Prop
  | .empty => True
  | .running => ∃ p, t = .provider p ∧ s.phase t ≠ .absent
  | .fresh a id => (∃ o, s.heap .object a = some o ∧ o.id = id ∧ (a, o.provider) ∈ n.objects) ∧
    ∀ k, (s.sets .objects).lookup k ≠ some a
  | .seen a id => a < s.next ∧ ∀ o, s.heap .object a = some o → o.id = id
  | .gone a => a < s.next ∧ ∀ k, (s.sets .objects).lookup k ≠ some a
  | .joining p => t = .main ∧ (s.heap .provider p).isSome ∧ s.phase (.provider p) = .absent ∧
    p ∉ s.sets .providers
  | .joined p => t = .main ∧ (s.heap .provider p).isSome ∧ s.phase (.provider p) = .absent
  | .leaving => ∃ p, t = .provider p ∧ s.phase t ≠ .absent ∧ p ∉ s.sets .providers

end Hand

structure Routed (s : State) (n : History) (own : Tid → Hand) : Prop where
  fresh : s.Fresh
  entry : ∀ id a, (s.sets .objects).lookup id = some a → ∃ o, s.heap .object a = some o ∧
    o.id = id ∧ (a, o.provider) ∈ n.objects
  served : ∀ x ∈ n.objects, x.2 ∈ n.attached
  present : ∀ p ∈ n.attached, p ∈ s.sets .providers
  attached : ∀ p ∈ s.sets .providers, (s.heap .provider p).isSome
  finished : ∀ p, s.phase (.provider p) = .finished → p ∉ s.sets .providers
  unborn : ∀ p, s.next ≤ p → s.phase (.provider p) = .absent
  holds : ∀ t, (own t).Holds s n t
  unshared : ∀ t u a id, own t = .fresh a id → (own u).object = some a → u = t

theorem Routed.routes {s : State} {n : History} {own : Tid → Hand} (h : Routed s n own) :
    Routes s := by
  have hentry : ∀ id a o, (s.sets .objects).lookup id = some a → s.heap .object a = some o →
      o.provider ∈ s.sets .providers := by
    intro id a o hid ho
    obtain ⟨o', ho', -, hp⟩ := h.entry id a hid
    obtain rfl := Option.some.inj (ho.symm.trans ho')
    exact h.present _ (h.served _ hp)
  constructor
  · intro id a hid
    obtain ⟨o, ho, -, -⟩ := h.entry id a hid
    exact ⟨o, ho, hentry id a o hid ho, h.attached _ (hentry id a o hid ho)⟩
  · rintro p hp id a o hid ho rfl
    exact h.finished _ hp (hentry id a o hid ho)

theorem routed_initial (candidates : ℕ → Candidate) (lb : Bool) (memory : Addr → ℕ → Bool) :
    Routed (.initial candidates lb memory) .none fun _ => .empty where
  fresh _ _ _ := rfl
  entry id a h := by cases h
  served _ h := by cases h
  present _ h := by cases h
  attached p h := absurd h (IdSet.not_mem_empty p)
  finished p _ := IdSet.not_mem_empty p
  unborn _ _ := rfl
  holds _ := trivial
  unshared _ _ _ _ h := by cases h

/-- Nothing that objects and providers depend on has changed; there may be new records. -/
structure State.Alike (s s' : State) : Prop where
  old : s.Fresh
  fresh : s'.Fresh
  next : s.next ≤ s'.next
  objects : s'.sets .objects = s.sets .objects
  providers : s'.sets .providers = s.sets .providers
  object : ∀ a < s.next, s'.heap .object a = s.heap .object a ∨ ∃ o v,
    s.heap .object a = some o ∧ s'.heap .object a = some (Kind.store .object v o)
  provider : ∀ p < s.next, (s'.heap .provider p).isSome = (s.heap .provider p).isSome
  phase : ∀ p, s'.phase (.provider p) = s.phase (.provider p)

section
variable {s s' : State} {n : History} {own : Tid → Hand} {t : Tid}

@[simp] theorem store_object_id (v : ObjectStore) (o : Object) :
    (Kind.store .object v o).id = o.id := by cases v <;> rfl

@[simp] theorem store_object_provider (v : ObjectStore) (o : Object) :
    (Kind.store .object v o).provider = o.provider := by cases v <;> rfl

/-- A record keeps the members that no store changes. -/
theorem State.Alike.object_some (h : s.Alike s') {a : Addr} {o : Object}
    (ho : s.heap .object a = some o) : ∃ o', s'.heap .object a = some o' ∧ o'.id = o.id ∧
      o'.provider = o.provider := by
  rcases h.object a (h.old.lt ho) with he | ⟨o', v, ho', he⟩
  · exact ⟨o, he.trans ho, rfl, rfl⟩
  · obtain rfl := Option.some.inj (ho.symm.trans ho')
    exact ⟨_, he, store_object_id v o, store_object_provider v o⟩

theorem State.Alike.object_of (h : s.Alike s') {a : Addr} (ha : a < s.next) {o' : Object}
    (ho : s'.heap .object a = some o') : ∃ o, s.heap .object a = some o ∧ o'.id = o.id := by
  rcases h.object a ha with he | ⟨o, v, hs, he⟩
  · exact ⟨o', he.symm.trans ho, rfl⟩
  · obtain rfl := Option.some.inj (ho.symm.trans he)
    exact ⟨o, hs, store_object_id v o⟩

theorem State.Alike.provider_some (h : s.Alike s') {p : Addr}
    (hp : (s.heap .provider p).isSome) : (s'.heap .provider p).isSome := by
  obtain ⟨r, hr⟩ := Option.isSome_iff_exists.mp hp
  rwa [h.provider p (h.old.lt hr)]

theorem Hand.Holds.alike {r : Hand} (h : r.Holds s n t) (ha : s.Alike s') : r.Holds s' n t := by
  cases r with
  | empty => trivial
  | running =>
    obtain ⟨p, rfl, hp⟩ := h
    exact ⟨p, rfl, by rwa [ha.phase]⟩
  | fresh a id =>
    obtain ⟨⟨o, ho, hid, hmade⟩, hn⟩ := h
    obtain ⟨o', ho', hid', hp'⟩ := ha.object_some ho
    exact ⟨⟨o', ho', hid'.trans hid, by rwa [hp']⟩, by rwa [ha.objects]⟩
  | seen a id =>
    refine ⟨h.1.trans_le ha.next, fun o' ho' => ?_⟩
    obtain ⟨o, ho, hid⟩ := ha.object_of h.1 ho'
    exact hid.trans (h.2 o ho)
  | gone a => exact ⟨h.1.trans_le ha.next, by rw [ha.objects]; exact h.2⟩
  | joining p =>
    obtain ⟨ht, hs, hp, hn⟩ := h
    exact ⟨ht, ha.provider_some hs, by rwa [ha.phase], by rwa [ha.providers]⟩
  | joined p =>
    obtain ⟨ht, hs, hp⟩ := h
    exact ⟨ht, ha.provider_some hs, by rwa [ha.phase]⟩
  | leaving =>
    obtain ⟨p, rfl, hp, hn⟩ := h
    exact ⟨p, rfl, by rwa [ha.phase], by rwa [ha.providers]⟩

theorem Routed.alike (h : Routed s n own) (ha : s.Alike s') : Routed s' n own where
  fresh := ha.fresh
  entry id a hid := by
    rw [ha.objects] at hid
    obtain ⟨o, ho, hoid, hp⟩ := h.entry id a hid
    obtain ⟨o', ho', hid', hp'⟩ := ha.object_some ho
    exact ⟨o', ho', hid'.trans hoid, by rwa [hp']⟩
  served := h.served
  present p hp := by
    rw [ha.providers]
    exact h.present p hp
  attached p hp := ha.provider_some (h.attached p (by rwa [← ha.providers]))
  finished p hp := by
    rw [ha.providers]
    exact h.finished p (by rwa [← ha.phase])
  unborn p hp := by
    rw [ha.phase]
    exact h.unborn p (ha.next.trans hp)
  holds u := (h.holds u).alike ha
  unshared := h.unshared

theorem Routed.take (h : Routed s n own) {r : Hand} (hr : r.Holds s n t)
    (hf : ∀ a id, r = .fresh a id → ∀ u, u ≠ t → (own u).object ≠ some a)
    (ho : ∀ u a id, u ≠ t → own u = .fresh a id → r.object ≠ some a) :
    Routed s n (Function.update own t r) where
  fresh := h.fresh
  entry := h.entry
  served := h.served
  present := h.present
  attached := h.attached
  finished := h.finished
  unborn := h.unborn
  holds u := by
    rcases eq_or_ne u t with rfl | hu
    · rwa [Function.update_self]
    · rw [Function.update_of_ne hu]
      exact h.holds u
  unshared u v a id hu hv := by
    by_contra hne
    rcases eq_or_ne u t with rfl | hut
    · rw [Function.update_self] at hu
      rw [Function.update_of_ne hne] at hv
      exact hf a id hu v hne hv
    · rw [Function.update_of_ne hut] at hu
      rcases eq_or_ne v t with rfl | hvt
      · rw [Function.update_self] at hv
        exact ho u a id hut hu hv
      · rw [Function.update_of_ne hvt] at hv
        exact hne (h.unshared u v a id hu hv)

theorem Routed.take_of_object (h : Routed s n own) {r : Hand} (hr : r.Holds s n t)
    (ho : r.object = none ∨ (r.object = (own t).object ∧ ∀ a id, r ≠ .fresh a id)) :
    Routed s n (Function.update own t r) := by
  refine h.take hr (fun a id ha u hu => ?_) fun u a id hu hua => ?_
  · rcases ho with ho | ⟨-, ho⟩
    · rw [ha] at ho
      cases ho
    · exact absurd ha (ho a id)
  · rcases ho with ho | ⟨ho, -⟩
    · rw [ho]
      exact nofun
    · rw [ho]
      exact fun hta => hu (h.unshared u t a id hua hta).symm

theorem alike_of_change {o : Op} (h : Change t s o s') (hf : s.Fresh)
    (ho : o.area ∉ [.object, .provider, .agent, .turn]) : s.Alike s' := by
  simp only [List.mem_cons, List.not_mem_nil, or_false, not_or] at ho
  obtain ⟨hobj, hprov, hag, hturn⟩ := ho
  refine ⟨hf, h.fresh hf, h.next_le, h.sets hobj hobj hag, h.sets hprov hprov hag, fun a _ => ?_,
    fun p _ => ?_, h.phase_provider hturn⟩
  · rcases h.heap (k := .object) hobj a with he | ⟨o, v, ho, he, -⟩
    · exact .inl he
    · exact .inr ⟨o, v, ho, he⟩
  · rcases h.heap (k := .provider) hprov p with he | ⟨o, v, ho, he, -⟩
    · rw [he]
    · rw [ho, he]
      rfl

/-- A new record is not one of those that were there. -/
theorem alike_new (hf : s.Fresh) (k : Kind) (r : k.Rec) :
    s.Alike { s.put k s.next (some r) with next := s.next + 1 } := by
  have hold : ∀ (k' : Kind) a, a < s.next →
      (s.put k s.next (some r)).heap k' a = s.heap k' a := fun k' a ha => by
    by_cases hk : k' = k
    · subst hk
      exact s.put_heap_of_ne _ ha.ne
    · exact congrFun (s.put_heap_kind _ _ hk) a
  exact ⟨hf, (Change.new (t := .main) k r).fresh hf, Nat.le_succ _, rfl, rfl,
    fun a ha => .inl (hold _ a ha), fun p ha => congrArg Option.isSome (hold _ p ha),
    fun _ => rfl⟩

/-- The discipline under which objects keep leading to attached providers. -/
def routing : Discipline Op (State × History) Fault Tid Hand where
  inv x own := Routed x.1 x.2 own
  guard := GoesLast
  allowed _ := True
  rest _ r := match r with
    | .empty | .running | .seen _ _ => True
    | _ => False

/-- What handlers may do without further thought. -/
def Area.away : List Area := [.look, .visit, .scratch, .answer, .wire, .arrival, .lock, .count,
  .reserve, .release, .allocation, .allocated, .platform, .roster, .consumer]

theorem routing_harmless (o : Op) (ho : o.area ∈ Area.away) : routing.Harmless execRecorded o := by
  rintro t ⟨s, n⟩ own hi _
  cases he : execRecorded t o (s, n) with
  | done x r =>
    obtain ⟨he, hn⟩ := noted_done _ he
    have hne : o.area ∉ [.object, .provider, .agent, .turn] ∧ o.area ∉ [.object, .provider] := by
      revert ho
      generalize o.area = area
      revert area
      decide
    change Routed x.1 x.2 own
    rw [hn, History.after_of_area hne.2]
    exact Routed.alike hi (alike_of_change (change_of_done he) hi.fresh hne.1)
  | fault f => trivial
  | blocked => trivial

private theorem keeps_op {o : Op} {r : Hand} {Q : o.Res → Hand → Prop}
    (hd : ∀ s n own s' x, Routed s n own → own t = r → GoesLast t o (s, n) →
      exec t o s = .done s' x →
        ∃ r', Routed s' (n.after o s x) (Function.update own t r') ∧ Q x r') :
    routing.Keeps execRecorded t (perform o) r Q := by
  refine Discipline.keeps_perform ?_ fun _ _ _ _ _ _ _ => trivial
  rintro ⟨s, n⟩ own ⟨s', n'⟩ x hi ht hg he
  obtain ⟨he, rfl⟩ := noted_done _ he
  exact hd s n own s' x hi ht hg he

theorem Routed.object_lt (h : Routed s n own) {u : Tid} {a : Addr} (hu : (own u).object = some a) :
    a < s.next := by
  have hh := h.holds u
  generalize own u = r at hu hh
  cases r with
  | fresh b id =>
    obtain rfl := Option.some.inj hu
    obtain ⟨⟨o, ho, -⟩, -⟩ := hh
    exact h.fresh.lt ho
  | seen b id =>
    obtain rfl := Option.some.inj hu
    exact hh.1
  | gone b =>
    obtain rfl := Option.some.inj hu
    exact hh.1
  | _ => cases hu

/-- An address that another thread keeps to itself is not in the table. -/
theorem Routed.not_fresh (h : Routed s n own) {id : GlobalId} {a : Addr}
    (hid : (s.sets .objects).lookup id = some a) {u : Tid} {b : Addr} {id' : GlobalId}
    (hu : own u = .fresh b id') : some a ≠ some b := by
  have hh := h.holds u
  rw [hu] at hh
  rintro hab
  exact hh.2 id (hid.trans hab)

theorem Routed.createObject (h : Routed s n own) {p : Addr} (hp : p ∈ n.attached) (a : Addr) :
    Routed s { n with objects := (a, p) :: n.objects } own := by
  refine ⟨h.fresh, fun id b hid => ?_, fun x hx => ?_, h.present, h.attached, h.finished, h.unborn,
    fun u => ?_, h.unshared⟩
  · obtain ⟨o, ho, hoid, hmade⟩ := h.entry id b hid
    exact ⟨o, ho, hoid, List.mem_cons_of_mem _ hmade⟩
  · rcases List.mem_cons.mp hx with rfl | hx
    · exact hp
    · exact h.served x hx
  · have hu := h.holds u
    generalize own u = r at hu
    cases r with
    | fresh b i =>
      obtain ⟨⟨o, ho, hid, hmade⟩, hn⟩ := hu
      exact ⟨⟨o, ho, hid, List.mem_cons_of_mem _ hmade⟩, hn⟩
    | _ => exact hu

theorem keeps_newObject {r : Hand} (o : Object) :
    routing.Keeps execRecorded t (new .object o) r fun a r' => r' = .fresh a o.id := by
  refine keeps_op fun s n own s' x hi _ hg he => ⟨_, ?_, rfl⟩
  obtain ⟨rfl, rfl⟩ := Outcome.done.inj he
  have hnew : ∀ u, (own u).object ≠ some s.next := fun u hu => (hi.object_lt hu).ne rfl
  have hself : (s.put .object s.next (some o)).heap .object s.next = some o := s.put_heap_self ..
  refine ((hi.alike (alike_new hi.fresh .object o)).createObject hg s.next).take
    ⟨⟨o, hself, rfl, List.mem_cons_self⟩, ?_⟩ (fun a id ha u _ => ?_)
    fun u a id _ hu ha => hnew u ?_
  · intro k hk
    obtain ⟨o', ho', -⟩ := hi.entry k _ hk
    exact (hi.fresh.lt ho').ne rfl
  · obtain ⟨rfl, -⟩ := Hand.fresh.inj ha
    exact hnew u
  · rw [hu]
    exact ha.symm

theorem Routed.insertObject (h : Routed s n own) {a : Addr} {o : Object}
    (ho : s.heap .object a = some o)
    (hmade : (a, o.provider) ∈ n.objects) (hn : ∀ u, (own u).object ≠ some a) :
    Routed (s.putSet .objects ((s.sets .objects).add o.id a)) n own := by
  have hlook : ∀ k b, ((s.sets .objects).add o.id a).lookup k = some b →
      (k = o.id ∧ b = a) ∨ (s.sets .objects).lookup k = some b := fun k b hk => by
    rw [IdSet.lookup_add_eq] at hk
    split_ifs at hk with hc
    · exact .inl ⟨hc.1, (Option.some.inj hk).symm⟩
    · exact .inr hk
  have hkeep : ∀ b, b ≠ a → (∀ k, (s.sets .objects).lookup k ≠ some b) →
      ∀ k, ((s.putSet .objects ((s.sets .objects).add o.id a)).sets .objects).lookup k ≠
        some b := fun b hb hnb k hk => by
    rw [State.putSet_sets_self] at hk
    rcases hlook k b hk with ⟨-, rfl⟩ | hk
    · exact hb rfl
    · exact hnb k hk
  refine ⟨(Change.setInsert (t := .main) .objects o.id a).fresh h.fresh, fun k b hk => ?_,
    h.served, h.present, h.attached, h.finished, h.unborn, fun u => ?_, h.unshared⟩
  · rw [State.putSet_sets_self] at hk
    rcases hlook k b hk with ⟨rfl, rfl⟩ | hk
    · exact ⟨o, ho, rfl, hmade⟩
    · exact h.entry k b hk
  · have hu := h.holds u
    have hobj := hn u
    generalize own u = r at hu hobj
    cases r with
    | fresh b i => exact ⟨hu.1, hkeep b (fun hb => hobj (congrArg some hb)) hu.2⟩
    | gone b => exact ⟨hu.1, hkeep b (fun hb => hobj (congrArg some hb)) hu.2⟩
    | _ => exact hu

/-- Putting down what nobody else has in hand. -/
theorem Routed.drop (h : Routed s n own) (t : Tid) : Routed s n (Function.update own t .empty) :=
  h.take_of_object trivial (.inl rfl)

theorem keeps_insertObject {a : Addr} {id : GlobalId} :
    routing.Keeps execRecorded t (setInsert .objects id a) (.fresh a id) fun _ r' => r' = .empty := by
  refine keeps_op fun s n own s' x hi ht _ he => ⟨_, ?_, rfl⟩
  obtain ⟨rfl, -, -⟩ := exec_setInsert_done he
  have hh := hi.holds t
  rw [ht] at hh
  obtain ⟨⟨o, ho, rfl, hmade⟩, -⟩ := hh
  refine (hi.drop t).insertObject ho hmade fun u hu => ?_
  rcases eq_or_ne u t with rfl | hut
  · rw [Function.update_self] at hu
    cases hu
  · rw [Function.update_of_ne hut] at hu
    exact hut (hi.unshared t u a o.id ht hu)

theorem keeps_findObject {r : Hand} (hr : routing.rest t r) (id : GlobalId) :
    routing.Keeps execRecorded t (setFind .objects id) r fun d r' =>
      match d with
      | none => routing.rest t r'
      | some a => r' = .seen a id := by
  refine keeps_op fun s n own s' d hi ht _ he => ?_
  obtain ⟨rfl, rfl⟩ := exec_setFind_done he
  cases hl : (s'.sets .objects).lookup id with
  | none => exact ⟨r, by rwa [← ht, Function.update_eq_self], hr⟩
  | some a =>
    obtain ⟨o, ho, hoid, -⟩ := hi.entry id a hl
    refine ⟨.seen a id, hi.take ⟨hi.fresh.lt ho, fun o' ho' => ?_⟩ (fun _ _ h => by cases h)
      fun u b id' _ hu => hi.not_fresh hl hu, rfl⟩
    obtain rfl := Option.some.inj (ho.symm.trans ho')
    exact hoid

theorem keeps_readObject {a : Addr} {id : GlobalId} :
    routing.Keeps execRecorded t (read .object a) (.seen a id) fun o r' =>
      r' = .seen a id ∧ o.id = id := by
  refine keeps_op fun s n own s' o hi ht _ he => ?_
  obtain ⟨rfl, ho⟩ := exec_read_done he
  have hh := hi.holds t
  rw [ht] at hh
  exact ⟨_, by rwa [← ht, Function.update_eq_self], rfl, hh.2 o ho⟩

/-- Removing an entry keeps everything in order. -/
theorem Routed.removeObject (h : Routed s n own) (id : GlobalId) :
    Routed (s.putSet .objects ((s.sets .objects).erase id))
      { n with objects := n.objects.filter fun x => (s.sets .objects).lookup id ≠ some x.1 }
      own := by
  have hlook : ∀ k b, ((s.putSet .objects ((s.sets .objects).erase id)).sets .objects).lookup k =
      some b → k ≠ id ∧ (s.sets .objects).lookup k = some b := fun k b hk => by
    rw [State.putSet_sets_self, IdSet.lookup_erase] at hk
    split_ifs at hk with hc
    exact ⟨hc, hk⟩
  have hleft : ∀ b q, (b, q) ∈ n.objects → (s.sets .objects).lookup id ≠ some b →
      (b, q) ∈ n.objects.filter fun x => (s.sets .objects).lookup id ≠ some x.1 :=
    fun b q hmade hne => List.mem_filter.mpr ⟨hmade, decide_eq_true hne⟩
  refine ⟨(Change.setRemove (t := .main) .objects id).fresh h.fresh, fun k b hk => ?_,
    fun x hx => h.served x (List.mem_filter.mp hx).1, h.present, h.attached, h.finished, h.unborn,
    fun u => ?_, h.unshared⟩
  · obtain ⟨hkid, hk⟩ := hlook k b hk
    obtain ⟨o, ho, hoid, hmade⟩ := h.entry k b hk
    refine ⟨o, ho, hoid, hleft b _ hmade fun hid => ?_⟩
    obtain ⟨o', ho', hoid', -⟩ := h.entry id b hid
    obtain rfl := Option.some.inj (ho.symm.trans ho')
    exact hkid (hoid.symm.trans hoid')
  · have hu := h.holds u
    generalize own u = r at hu
    cases r with
    | fresh b i =>
      obtain ⟨⟨o, ho, hid, hmade⟩, hn⟩ := hu
      exact ⟨⟨o, ho, hid, hleft b _ hmade (hn id)⟩, fun k hk => hn k (hlook k b hk).2⟩
    | gone b => exact ⟨hu.1, fun k hk => hu.2 k (hlook k b hk).2⟩
    | _ => exact hu

theorem keeps_removeObject {a : Addr} {id : GlobalId} :
    routing.Keeps execRecorded t (setRemove .objects id) (.seen a id) fun _ r' => r' = .gone a := by
  refine keeps_op fun s n own s' b hi ht _ he => ⟨_, ?_, rfl⟩
  obtain ⟨rfl, -⟩ := exec_setRemove_done he
  have hh := hi.holds t
  rw [ht] at hh
  refine (hi.removeObject id).take_of_object ⟨hh.1, fun k hk => ?_⟩
    (.inr ⟨by rw [ht]; rfl, fun _ _ h => by cases h⟩)
  rw [State.putSet_sets_self, IdSet.lookup_erase] at hk
  split_ifs at hk with hc
  obtain ⟨o, ho, hoid, -⟩ := hi.entry k a hk
  exact hc (hoid.symm.trans (hh.2 o ho))

/-- An object that is neither in the table nor in other hands is freed. -/
theorem Routed.freeObject (h : Routed s n own) {a : Addr} {o : Object}
    (ho : s.heap .object a = some o) (hn : ∀ k, (s.sets .objects).lookup k ≠ some a)
    (hf : ∀ u id, own u ≠ .fresh a id) : Routed (s.put .object a none) n own := by
  have hold : ∀ b, b ≠ a → (s.put .object a none).heap .object b = s.heap .object b :=
    fun b hb => s.put_heap_of_ne _ hb
  have hprov : (s.put .object a none).heap .provider = s.heap .provider :=
    s.put_heap_kind a none (by decide)
  refine ⟨(Change.free (t := .main) .object a o ho).fresh h.fresh, fun k b hk => ?_, h.served,
    h.present, fun p hp => ?_, h.finished, h.unborn, fun u => ?_, h.unshared⟩
  · rw [hold b fun hb => hn k (hb ▸ hk)]
    exact h.entry k b hk
  · rw [hprov]
    exact h.attached p hp
  · have hu := h.holds u
    have hfu := hf u
    generalize own u = r at hu hfu
    cases r with
    | fresh b i =>
      refine ⟨?_, hu.2⟩
      rw [hold b fun hb => hfu i (hb ▸ rfl)]
      exact hu.1
    | seen b i =>
      refine ⟨hu.1, fun o' ho' => ?_⟩
      rcases eq_or_ne b a with rfl | hb
      · rw [State.put_heap_self] at ho'
        cases ho'
      · exact hu.2 o' (by rwa [hold b hb] at ho')
    | joining p => exact ⟨hu.1, by rw [hprov]; exact hu.2.1, hu.2.2⟩
    | joined p => exact ⟨hu.1, by rw [hprov]; exact hu.2.1, hu.2.2⟩
    | _ => exact hu

theorem keeps_freeObject {a : Addr} :
    routing.Keeps execRecorded t (free .object a) (.gone a) fun _ r' => r' = .empty := by
  refine keeps_op fun s n own s' x hi ht _ he => ⟨_, ?_, rfl⟩
  obtain ⟨o, ho, rfl⟩ := exec_free_done he
  have hh := hi.holds t
  rw [ht] at hh
  refine (hi.drop t).freeObject ho hh.2 fun u id hu => ?_
  rcases eq_or_ne u t with rfl | hut
  · rw [Function.update_self] at hu
    cases hu
  · rw [Function.update_of_ne hut] at hu
    exact hut (hi.unshared u t a id hu (by rw [ht]; rfl)).symm

theorem Routed.setPhase (h : Routed s n own) {p : Addr} {ph : Phase} (hp : p < s.next)
    (hph : ph ≠ .absent) (hfin : ph = .finished → p ∉ s.sets .providers)
    (hj : ∀ u, own u ≠ .joining p ∧ own u ≠ .joined p) :
    Routed { s with phase := Function.update s.phase (.provider p) ph } n own := by
  have hother : ∀ q, q ≠ p →
      Function.update s.phase (.provider p) ph (.provider q) = s.phase (.provider q) :=
    fun q hq => Function.update_of_ne (fun h => hq (Tid.provider.inj h)) ..
  have hne : ∀ q, s.phase (.provider q) ≠ .absent →
      Function.update s.phase (.provider p) ph (.provider q) ≠ .absent := fun q hq => by
    rcases eq_or_ne q p with rfl | hqp
    · rwa [Function.update_self]
    · rwa [hother q hqp]
  refine ⟨h.fresh, h.entry, h.served, h.present, h.attached, fun q hq => ?_, fun q hq => ?_,
    fun u => ?_, h.unshared⟩
  · rcases eq_or_ne q p with rfl | hqp
    · exact hfin ((Function.update_self (Tid.provider q) ph s.phase).symm.trans hq)
    · exact h.finished q (by rwa [← hother q hqp])
  · have hqp : q ≠ p := (hp.trans_le hq).ne'
    exact (hother q hqp).trans (h.unborn q hq)
  · have hu := h.holds u
    have hju := hj u
    generalize own u = r at hu hju
    cases r with
    | running =>
      obtain ⟨q, rfl, hq⟩ := hu
      exact ⟨q, rfl, hne q hq⟩
    | leaving =>
      obtain ⟨q, rfl, hq, hn⟩ := hu
      exact ⟨q, rfl, hne q hq, hn⟩
    | joining q =>
      have hqp : q ≠ p := fun h => hju.1 (h ▸ rfl)
      exact ⟨hu.1, hu.2.1, (hother q hqp).trans hu.2.2.1, hu.2.2.2⟩
    | joined q =>
      have hqp : q ≠ p := fun h => hju.2 (h ▸ rfl)
      exact ⟨hu.1, hu.2.1, (hother q hqp).trans hu.2.2⟩
    | _ => exact hu

/-- While a provider's thread runs nobody has the provider in hand. -/
theorem Routed.not_joining (h : Routed s n own) {p : Addr}
    (hp : s.phase (.provider p) ≠ .absent) (u : Tid) :
    own u ≠ .joining p ∧ own u ≠ .joined p := by
  have hu := h.holds u
  constructor
  · intro he
    rw [he] at hu
    exact hp hu.2.2.1
  · intro he
    rw [he] at hu
    exact hp hu.2.2

theorem Routed.born (h : Routed s n own) {p : Addr} (hp : s.phase (.provider p) ≠ .absent) :
    p < s.next := by
  by_contra hle
  exact hp (h.unborn p (not_lt.mp hle))

theorem keeps_newProvider (provider : Provider) :
    routing.Keeps execRecorded .main (new .provider provider) .empty fun p r' => r' = .joining p := by
  refine keeps_op fun s n own s' x hi _ _ he => ⟨_, ?_, rfl⟩
  obtain ⟨rfl, rfl⟩ := Outcome.done.inj he
  have hself : (s.put .provider s.next (some provider)).heap .provider s.next = some provider :=
    s.put_heap_self ..
  refine (hi.alike (alike_new hi.fresh .provider provider)).take_of_object
    ⟨rfl, Option.isSome_iff_exists.mpr ⟨_, hself⟩, hi.unborn _ le_rfl, fun hp => ?_⟩ (.inl rfl)
  obtain ⟨r, hr⟩ := Option.isSome_iff_exists.mp (hi.attached _ hp)
  exact (hi.fresh.lt hr).ne rfl

/-- A provider whose thread has not been started is entered. -/
theorem Routed.insertProvider (h : Routed s n own) {p : Addr}
    (hs : (s.heap .provider p).isSome) (habs : s.phase (.provider p) = .absent)
    (hn : p ∉ s.sets .providers) (hj : ∀ u q, own u ≠ .joining q) :
    Routed (s.putSet .providers ((s.sets .providers).add p p))
      { n with attached := p :: n.attached } own := by
  have hmem : ∀ q, q ∈ (s.putSet .providers ((s.sets .providers).add p p)).sets .providers ↔
      q = p ∨ q ∈ s.sets .providers := fun q => by
    rw [State.putSet_sets_self]
    exact IdSet.mem_add hn p
  refine ⟨(Change.setInsert (t := .main) .providers p p).fresh h.fresh, h.entry,
    fun x hx => List.mem_cons_of_mem _ (h.served x hx), fun q hq => ?_, fun q hq => ?_,
    fun q hq hqm => ?_, h.unborn, fun u => ?_, h.unshared⟩
  · rcases List.mem_cons.mp hq with rfl | hq
    · exact (hmem q).mpr (.inl rfl)
    · exact (hmem q).mpr (.inr (h.present q hq))
  · rcases (hmem q).mp hq with rfl | hq
    · exact hs
    · exact h.attached q hq
  · rcases (hmem q).mp hqm with rfl | hqm
    · cases habs.symm.trans hq
    · exact h.finished q hq hqm
  · have hu := h.holds u
    have hju := hj u
    generalize own u = r at hu hju
    cases r with
    | joining q => exact absurd rfl (hju q)
    | leaving =>
      obtain ⟨q, rfl, hq, hqn⟩ := hu
      refine ⟨q, rfl, hq, fun hqm => ?_⟩
      rcases (hmem q).mp hqm with rfl | hqm
      · exact hq habs
      · exact hqn hqm
    | _ => exact hu

theorem keeps_insertProvider {p : Addr} :
    routing.Keeps execRecorded t (setInsert .providers p p) (.joining p) fun b r' =>
      b = true ∧ r' = .joined p := by
  refine keeps_op fun s n own s' b hi ht _ he => ⟨.joined p, ?_, ?_⟩
  all_goals
    obtain ⟨rfl, rfl, -⟩ := exec_setInsert_done he
    have hh := hi.holds t
    rw [ht] at hh
    obtain ⟨rfl, hs, habs, hn⟩ := hh
  · refine (hi.take_of_object (t := .main) (r := .joined p) ⟨rfl, hs, habs⟩
      (.inl rfl)).insertProvider hs habs hn fun u q hu => ?_
    rcases eq_or_ne u .main with rfl | hum
    · rw [Function.update_self] at hu
      cases hu
    · rw [Function.update_of_ne hum] at hu
      have hh := hi.holds u
      rw [hu] at hh
      exact hum hh.1
  · exact ⟨decide_eq_true hn, rfl⟩

theorem keeps_startProvider {p : Addr} :
    routing.Keeps execRecorded t (setPhase (.provider p) .registering) (.joined p) fun _ r' =>
      r' = .empty := by
  refine keeps_op fun s n own s' x hi ht _ he => ⟨_, ?_, rfl⟩
  obtain ⟨rfl, -⟩ := Outcome.done.inj he
  have hh := hi.holds t
  rw [ht] at hh
  obtain ⟨rfl, hs, habs⟩ := hh
  obtain ⟨r, hr⟩ := Option.isSome_iff_exists.mp hs
  refine (hi.drop .main).setPhase (hi.fresh.lt hr) (by decide) (fun h => by cases h) fun u => ?_
  rcases eq_or_ne u .main with rfl | hum
  · rw [Function.update_self]
    exact ⟨nofun, nofun⟩
  · rw [Function.update_of_ne hum]
    have hh := hi.holds u
    constructor
    · intro hu
      rw [hu] at hh
      exact hum hh.1
    · intro hu
      rw [hu] at hh
      exact hum hh.1

theorem Routed.removeProvider (h : Routed s n own) {p : Addr}
    (hg : ∀ a, (a, p) ∉ n.objects) :
    Routed (s.putSet .providers ((s.sets .providers).erase p))
      { n with attached := n.attached.filter (· ≠ p) } own := by
  have hmem : ∀ q, q ∈ (s.putSet .providers ((s.sets .providers).erase p)).sets .providers ↔
      q ≠ p ∧ q ∈ s.sets .providers := fun q => by
    rw [State.putSet_sets_self]
    exact IdSet.mem_erase
  refine ⟨(Change.setRemove (t := .main) .providers p).fresh h.fresh, h.entry, fun x hx => ?_,
    fun q hq => ?_, fun q hq => h.attached q ((hmem q).mp hq).2,
    fun q hq hqm => h.finished q hq ((hmem q).mp hqm).2, h.unborn, fun u => ?_, h.unshared⟩
  · refine List.mem_filter.mpr ⟨h.served x hx, decide_eq_true ?_⟩
    rintro rfl
    exact hg x.1 hx
  · obtain ⟨hq, hqp⟩ := List.mem_filter.mp hq
    exact (hmem q).mpr ⟨of_decide_eq_true hqp, h.present q hq⟩
  · have hu := h.holds u
    generalize own u = r at hu
    cases r with
    | joining q => exact ⟨hu.1, hu.2.1, hu.2.2.1, fun hqm => hu.2.2.2 ((hmem q).mp hqm).2⟩
    | leaving =>
      obtain ⟨q, rfl, hq, hqn⟩ := hu
      exact ⟨q, rfl, hq, fun hqm => hqn ((hmem q).mp hqm).2⟩
    | _ => exact hu

theorem keeps_removeProvider {p : Addr} :
    routing.Keeps execRecorded (.provider p) (setRemove .providers p) .running fun _ r' =>
      r' = .leaving := by
  refine keeps_op fun s n own s' x hi ht hg he => ⟨_, ?_, rfl⟩
  obtain ⟨rfl, -⟩ := exec_setRemove_done he
  have hh := hi.holds (.provider p)
  rw [ht] at hh
  obtain ⟨q, hq, hp⟩ := hh
  refine (hi.removeProvider hg).take_of_object ⟨p, rfl, hp, fun hpm => ?_⟩ (.inl rfl)
  rw [State.putSet_sets_self] at hpm
  exact (IdSet.mem_erase.mp hpm).1 rfl

theorem Routed.freeProvider (h : Routed s n own) {p : Addr} {provider : Provider}
    (hs : s.heap .provider p = some provider) (hp : s.phase (.provider p) ≠ .absent)
    (hn : p ∉ s.sets .providers) : Routed (s.put .provider p none) n own := by
  have hobj : (s.put .provider p none).heap .object = s.heap .object :=
    s.put_heap_kind p none (by decide)
  have hold : ∀ q, q ≠ p → (s.put .provider p none).heap .provider q = s.heap .provider q :=
    fun q hq => s.put_heap_of_ne _ hq
  refine ⟨(Change.free (t := .main) .provider p provider hs).fresh h.fresh, fun k b hk => ?_,
    h.served, h.present, fun q hq => ?_, h.finished, h.unborn, fun u => ?_, h.unshared⟩
  · rw [hobj]
    exact h.entry k b hk
  · rw [hold q fun hqp => hn (hqp ▸ hq)]
    exact h.attached q hq
  · have hu := h.holds u
    have hju := h.not_joining hp u
    generalize own u = r at hu hju
    cases r with
    | fresh b i =>
      refine ⟨?_, hu.2⟩
      rw [hobj]
      exact hu.1
    | seen b i =>
      refine ⟨hu.1, ?_⟩
      rw [hobj]
      exact hu.2
    | joining q =>
      refine ⟨hu.1, ?_, hu.2.2⟩
      rw [hold q fun hqp => hju.1 (hqp ▸ rfl)]
      exact hu.2.1
    | joined q =>
      refine ⟨hu.1, ?_, hu.2.2⟩
      rw [hold q fun hqp => hju.2 (hqp ▸ rfl)]
      exact hu.2.1
    | _ => exact hu

theorem keeps_freeProvider {p : Addr} :
    routing.Keeps execRecorded (.provider p) (free .provider p) .leaving
      fun _ r' => r' = .leaving := by
  refine keeps_op fun s n own s' x hi ht _ he => ⟨own (.provider p), ?_, ht⟩
  obtain ⟨provider, hs, rfl⟩ := exec_free_done he
  have hh := hi.holds (.provider p)
  rw [ht] at hh
  obtain ⟨q, hq, hp, hn⟩ := hh
  obtain rfl := Tid.provider.inj hq
  rw [Function.update_eq_self]
  exact hi.freeProvider hs hp hn

theorem keeps_finishProvider {p : Addr} :
    routing.Keeps execRecorded (.provider p) (setPhase (.provider p) .finished) .leaving fun _ r' =>
      r' = .empty := by
  refine keeps_op fun s n own s' x hi ht _ he => ⟨_, ?_, rfl⟩
  obtain ⟨rfl, -⟩ := Outcome.done.inj he
  have hh := hi.holds (.provider p)
  rw [ht] at hh
  obtain ⟨q, hq, hp, hn⟩ := hh
  obtain rfl := Tid.provider.inj hq
  exact (hi.drop (.provider p)).setPhase (hi.born hp) (by decide) (fun _ => hn)
    ((hi.drop (.provider p)).not_joining hp)

theorem keeps_serveProvider {p : Addr} :
    routing.Keeps execRecorded (.provider p) (setPhase (.provider p) .serving) .running fun _ r' =>
      r' = .running := by
  refine keeps_op fun s n own s' x hi ht _ he => ⟨own (.provider p), ?_, ht⟩
  obtain ⟨rfl, -⟩ := Outcome.done.inj he
  have hh := hi.holds (.provider p)
  rw [ht] at hh
  obtain ⟨q, -, hp⟩ := hh
  rw [Function.update_eq_self]
  exact hi.setPhase (hi.born hp) (by decide) (fun h => by cases h) (hi.not_joining hp)

private theorem steady (t : Tid) : Passes Area.away fun _ p => routing.Steady execRecorded t p :=
  passes_steady t routing_harmless

private theorem rests (t : Tid) : Passes Area.away fun _ p => routing.Rests execRecorded t p :=
  passes_rests t routing_harmless

theorem rests_objectCreate (p : Addr) (realId : Arg) (id : GlobalId) :
    routing.Rests execRecorded t (objectCreate p realId id) := by
  intro r hr
  rw [objectCreate]
  split_ifs
  · exact hr
  refine (passes_new (steady t) .lock .free (by decide)).step fun lock => ?_
  refine (keeps_newObject ⟨id, realId, 0, lock, p, none⟩).seq fun a r' h => ?_
  subst h
  refine (passes_read (steady t) .provider p (by decide)).step fun _ => ?_
  refine keeps_insertObject.step fun b => ?_
  exact keeps_assert (fun _ => trivial) fun _ => trivial

theorem rests_objectDestroy (a : Addr) (id : GlobalId) :
    routing.Keeps execRecorded t (objectDestroy a) (.seen a id) fun _ r' => routing.rest t r' := by
  refine keeps_readObject.seq fun o r' h => ?_
  obtain ⟨rfl, rfl⟩ := h
  split_ifs
  · trivial
  refine (passes_read (steady t) .provider o.provider (by decide)).step fun _ => ?_
  refine keeps_removeObject.step fun b => ?_
  refine keeps_assert (fun _ => trivial) fun _ => ?_
  refine keeps_freeObject.step fun _ => ?_
  refine (passes_lockPost (steady t) o.lock (by decide)).step fun _ => ?_
  have hlock : routing.Steady execRecorded t (lockDestroy o.lock) :=
    (steady t).bind (passes_lockWait (steady t) _ (by decide)) fun _ =>
      passes_free (steady t) _ _ (by decide)
  refine hlock.step fun _ => ?_
  trivial

theorem rests_clReleaseObject (c : Addr) (id : GlobalId) :
    routing.Rests execRecorded t (clReleaseObject c id) := by
  intro r hr
  refine (passes_read (steady t) .consumer c (by decide)).step fun _ => ?_
  refine (keeps_findObject hr id).seq fun d r' h => ?_
  cases d with
  | none => exact h
  | some a =>
    obtain rfl := h
    refine keeps_readObject.seq fun o r' h => ?_
    obtain ⟨rfl, -⟩ := h
    refine (passes_lockWait (steady t) o.lock (by decide)).step fun _ => ?_
    refine (passes_objectRelease (steady t) (by decide) a).step fun _ => ?_
    refine keeps_readObject.seq fun o r' h => ?_
    obtain ⟨rfl, -⟩ := h
    split_ifs
    · refine (passes_read (steady t) .provider o.provider (by decide)).step fun _ => ?_
      refine (passes_idRelease (steady t) (by decide) id).step fun _ => ?_
      refine keeps_assert (fun _ => trivial) fun _ => ?_
      exact (rests_objectDestroy a id).seq fun b r' h =>
        keeps_assert (fun _ => trivial) fun _ => h
    · refine (passes_lockPost (steady t) o.lock (by decide)).step fun _ => ?_
      trivial

theorem rests_consumer (lzo : Lzo) (fuel : ℕ) (c : Addr) (q : ConsumerRequest) :
    routing.Rests execRecorded t (agentConsumerHandler lzo fuel c q) :=
  serves_agentConsumerHandler ((rests t).serves (by decide) (by decide) (by decide) (by decide)
    lzo fuel rests_objectCreate (rests_clReleaseObject c)) (by decide) q

theorem rests_providerShutdown (p : Addr) :
    routing.Keeps execRecorded (.provider p) (providerShutdown p) .running fun _ r' =>
      routing.rest (.provider p) r' := by
  have hst := steady (.provider p)
  have hdetach : routing.Keeps execRecorded (.provider p) (providerDetach p) .running fun b r' =>
      b = true → r' = .leaving := by
    refine (passes_read hst .provider p (by decide)).step fun r => ?_
    split_ifs
    · exact fun h => by cases h
    refine (passes_loadBalancing hst (by decide)).step fun lb => ?_
    have hremove : routing.Keeps execRecorded (.provider p) (setRemove .providers p) .running
        fun b r' => b = true → r' = .leaving := keeps_removeProvider.mono fun _ _ h _ => h
    split_ifs
    · refine (passes_setStart hst (.platforms p) (by decide)).step fun l => ?_
      refine (passes_forEach hst (fun pf => hst.bind (passes_lbRemovePlatform hst (by decide) pf)
        fun _ => hst.pure _) l).step fun _ => ?_
      refine (passes_setFinish hst (.platforms p) (by decide)).step fun _ => ?_
      exact hremove
    · exact hremove
  have hdestroy : routing.Keeps execRecorded (.provider p) (providerDestroy p) .leaving fun _ r' =>
      r' = .leaving := by
    refine (passes_read hst .provider p (by decide)).step fun r => ?_
    have hlock : routing.Steady execRecorded (.provider p) (lockDestroy r.lock) :=
      hst.bind (passes_lockWait hst _ (by decide)) fun _ => passes_free hst _ _ (by decide)
    refine hlock.step fun _ => ?_
    refine (passes_setStart hst (.platforms p) (by decide)).step fun l => ?_
    refine (passes_forEach hst (fun pf => hst.bind (passes_platformDestroy hst (by decide) pf)
      fun _ => hst.pure _) l).step fun _ => ?_
    refine (passes_setFinish hst (.platforms p) (by decide)).step fun _ => ?_
    refine (passes_setDestroy hst (.platforms p) (by decide : Area.roster ∈ _)).step fun _ => ?_
    exact keeps_freeProvider.seq fun _ r' h => h
  refine hdetach.seq fun b r' h => keeps_assert (fun _ => trivial) fun hb => ?_
  rw [h hb]
  refine hdestroy.step fun b => keeps_assert (fun _ => trivial) fun _ => ?_
  exact keeps_finishProvider.mono fun _ r' h => h ▸ trivial

theorem rests_provider (p : Addr) (q : ProviderRequest) :
    routing.Keeps execRecorded (.provider p) (agentProviderHandler p q) .running fun _ r' =>
      routing.rest (.provider p) r' := by
  have hrs := rests (.provider p)
  cases q with
  | platformInfo info =>
    exact passes_handlePlatformInfo hrs (by decide) (rests_objectCreate p) (by decide) info _
      trivial
  | deviceInfo info =>
    exact passes_handleDeviceInfo hrs (by decide) (rests_objectCreate p) (by decide) info _
      trivial
  | idle =>
    -- the phase is set by a thread that knows it is running
    have hrun : Passes Area.away fun _ prog =>
        routing.Keeps execRecorded (.provider p) prog .running fun _ r' => r' = .running :=
      ⟨fun _ => rfl, fun hp hf => hp.step hf, fun o ho => (routing_harmless o ho).steady _⟩
    exact (passes_handleIdle hrun (by decide) p keeps_serveProvider).mono fun _ _ h => h ▸ trivial
  | ping sec => exact passes_handlePing hrs (by decide) p sec _ trivial
  | shutdown => exact rests_providerShutdown p

theorem rests_agentNewProvider (addr : UInt32) :
    routing.Keeps execRecorded .main (agentNewProvider addr) .empty
      fun _ r' => routing.rest .main r' := by
  have hst := steady .main
  have hsend : ∀ sd type, routing.Steady execRecorded .main (net (claraSendmsg sd type [])) :=
    fun sd type => passes_claraSendmsg hst (by decide) sd type []
  rw [agentNewProvider_eq]
  refine (passes_agentFindProviderWithAddr hst (by decide) addr).step fun x => ?_
  cases x with
  | some a => exact (hsend _ _).step fun _ => trivial
  | none =>
    have hcreate : routing.Keeps execRecorded .main (providerCreate addr) .empty fun p r' =>
        r' = .joining p := by
      refine (passes_new hst .lock .free (by decide)).step fun lock => ?_
      refine (keeps_newProvider ⟨addr, lock, false⟩).seq fun p r' h => ?_
      subst h
      exact (passes_setCreate hst (.platforms p) (by decide : Area.roster ∈ _)).step fun _ => rfl
    have hattach : ∀ p, routing.Keeps execRecorded .main (providerAttach p) (.joining p) fun b r' =>
        b = true ∧ r' = .joined p := fun p => by
      refine keeps_insertProvider.seq fun b r' h => ?_
      obtain ⟨rfl, rfl⟩ := h
      exact (passes_store hst .provider p true (by decide)).step fun _ => ⟨rfl, rfl⟩
    refine hcreate.seq fun p r' h => ?_
    subst h
    refine (hattach p).seq fun b r' h => ?_
    obtain ⟨rfl, rfl⟩ := h
    refine keeps_startProvider.step fun _ => ?_
    exact (hsend _ _).step fun _ => trivial

/-- A thread that is given a request starts it with nothing in hand, or running. -/
theorem routed_serve (lzo : Lzo) (fuel : ℕ) (s : State) (n : History) (own : Tid → Hand) (t : Tid)
    (q : Request) (h : Routed s n own) (hq : (system lzo fuel).enabled t q s = true) :
    ∃ r, Routed s n (Function.update own t r) ∧
      routing.Keeps execRecorded t (serve lzo fuel t q) r fun _ r' => routing.rest t r' := by
  have hnop : routing.Keeps execRecorded t (pure ()) .empty fun _ r' => routing.rest t r' := trivial
  cases t with
  | main =>
    refine ⟨.empty, h.drop _, ?_⟩
    cases q with
    | newProvider addr => exact rests_agentNewProvider addr
    | newConsumer =>
      exact passes_agentNewConsumer (rests .main) (by decide) (by decide) (by decide) _ trivial
    | _ => exact hnop
  | provider p =>
    cases q with
    | provider q =>
      have hp : s.phase (.provider p) ≠ .absent := fun hp => by
        cases q <;> simp [system, reaches, hp] at hq
      exact ⟨.running, h.take_of_object ⟨p, rfl, hp⟩ (.inl rfl), rests_provider p q⟩
    | _ => exact ⟨.empty, h.drop _, hnop⟩
  | consumer c =>
    refine ⟨.empty, h.drop _, ?_⟩
    cases q with
    | consumer q => exact rests_consumer lzo fuel c q _ trivial
    | _ => exact hnop
  | network =>
    refine ⟨.empty, h.drop _, ?_⟩
    cases q with
    | arrive sd i =>
      exact (rests .network).op (.deliver sd i) (by decide : Area.arrival ∈ _) _ trivial
    | _ => exact hnop

end

/-- In runs in which every provider goes after its objects no object outlives its provider. -/
theorem noObjectOutlivesProvider (lzo : Lzo) (fuel : ℕ) :
    NoObjectOutlivesProvider lzo fuel GoesLast := by
  intro candidates lb memory c hc
  have hinit : routing.inv (State.initial candidates lb memory, History.none) fun _ => .empty :=
    routed_initial candidates lb memory
  have hrest : ∀ t, routing.rest t .empty := fun _ => trivial
  obtain ⟨own, hinv, -⟩ := Discipline.inv_of_reach (D := routing) (S := recordingSystem lzo fuel)
    hinit ⟨rfl, fun _ => rfl⟩ hrest
    (fun x own t q hi _ hq => routed_serve lzo fuel x.1 x.2 own t q hi hq) hc
  exact Routed.routes hinv

def departure : List (Event Tid Request) :=
  .start .main (.newProvider 7) :: List.replicate 9 (.step .main) ++
  .start (.provider 2) (.provider (.platformInfo ⟨77, fun _ => []⟩)) ::
    List.replicate 12 (.step (.provider 2)) ++
  .start (.provider 2) (.provider .shutdown) :: List.replicate 18 (.step (.provider 2))

/-- The object of the platform stays behind and leads to the destroyed provider. -/
theorem not_noObjectOutlivesProvider_departure :
    ¬ NoObjectOutlivesProvider literalLzo 1 fun _ _ _ => True := by
  intro h
  have hplay : ((recordingSystem literalLzo 1).play (fun _ _ => true)
      (.idle (.initial someIds false unlimited, .none)) departure).map
        (fun c => ((c.state.1.sets .objects).lookup 10,
          (c.state.1.heap .object 5).map Object.provider, c.state.1.phase (.provider 2))) =
      some (some 5, some 2, .finished) := by decide
  obtain ⟨c, hc, hobs⟩ := System.exists_of_play hplay
  obtain ⟨hid, hobs⟩ := Prod.mk.inj hobs
  obtain ⟨hp, hfin⟩ := Prod.mk.inj hobs
  obtain ⟨o, ho, hop⟩ := Option.map_eq_some_iff.mp hp
  exact (h someIds false unlimited c hc).finished 2 hfin 10 5 o hid ho hop

end Clara.Agent
