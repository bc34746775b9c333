import Clara.Agent.Pool

/-! The lifecycles of ids: what each operation on the pool, on objects and on allocations makes of
what its thread has in hand. -/
namespace Clara.Agent

open Conc

def pooling : Discipline Op (State × Notes) Fault Tid Holding where
  inv x := Pooled x.1 x.2
  guard := KeepsPool
  allowed _ := True
  rest _ r := match r with
    | .empty | .seen _ _ => True
    | _ => False

/-- What programs may do without further thought. -/
def Area.calm : List Area := [.look, .visit, .scratch, .turn, .answer, .wire, .arrival, .lock, .count,
  .release, .platform, .roster, .provider, .consumer]

theorem quiet_of_calm {t : Tid} {s s' : State} {n : Notes} {o : Op} {x : o.Res}
    (he : exec t o s = .done s' x) (hg : KeepsPool t o (s, n)) (ho : o.area ∈ Area.calm) :
    s.Quiet t s' n (n.after t o x) := by
  apply quiet_of_done he hg
  revert ho
  generalize o.area = area
  revert area
  decide

theorem pooling_harmless (o : Op) (ho : o.area ∈ Area.calm) : pooling.Harmless execNoted o := by
  rintro t ⟨s, n⟩ own hi hg
  cases he : execNoted t o (s, n) with
  | done x r =>
    obtain ⟨he, hn⟩ := noted_done _ he
    change Pooled x.1 x.2 own
    rw [hn]
    exact Pooled.quiet hi (quiet_of_calm he hg ho)
  | fault f => trivial
  | blocked => trivial

section
variable {s s' : State} {n : Notes} {own : Tid → Holding} {t : Tid} {r : Holding}

theorem Holding.light_of_rest (h : pooling.rest t r) : r.Light := by
  cases r with
  | empty => trivial
  | seen a id => trivial
  | _ => exact h.elim

theorem Holding.keeps_of_rest (h : pooling.rest t r) : r.keeps = none := by
  cases r with
  | empty => rfl
  | seen a id => rfl
  | _ => exact h.elim

private theorem holds_op {o : Op} {Q : o.Res → Holding → Prop}
    (hd : ∀ s n own s' x, Pooled s n own → own t = r → KeepsPool t o (s, n) →
      exec t o s = .done s' x →
        ∃ r', Pooled s' (n.after t o x) (Function.update own t r') ∧ Q x r') :
    pooling.Keeps execNoted t (perform o) r Q := by
  refine Discipline.keeps_perform ?_ fun _ _ _ _ _ _ _ => trivial
  rintro ⟨s, n⟩ own ⟨s', n'⟩ x hi ht hg he
  obtain ⟨he, rfl⟩ := noted_done _ he
  exact hd s n own s' x hi ht hg he

/-- An operation that leaves objects and allocations alone, after which the thread has something
else in hand. -/
private theorem holds_exchange {o : Op} {Q : o.Res → Holding → Prop} (hr : r.Light)
    (hd : ∀ s n own s' x, Pooled s n own → own t = r → KeepsPool t o (s, n) →
      exec t o s = .done s' x → s.Quiet t s' n (n.after t o x) ∧
        ∃ r', Q x r' ∧ r'.Light ∧ r'.Names s' ∧
        (∀ a, r'.object = some a → ∃ k, (s.sets .objects).lookup k = some a) ∧
        (r' = .emptied → ∃ c, t = .consumer c ∧ ∀ k, k ∉ s'.sets (.allocations c)) ∧
        (∀ c, r' = .coming c → t = .main ∧ (r = .coming c ∨ s.next ≤ c)) ∧
        (∀ p id, r' = .asked p id → (n.after t o x).Awaits s' t p id) ∧
        ∀ id ∈ s'.sets .idPool, r.keeps = some id →
          r'.keeps = some id ∨ ∃ p, (n.after t o x).Outstanding s' p id) :
    pooling.Keeps execNoted t (perform o) r Q := by
  refine holds_op fun s n own s' x hi ht hg he => ?_
  obtain ⟨hq, r', hQ, hl, hn, ho, hem, hcom, hask, hk⟩ := hd s n own s' x hi ht hg he
  subst ht
  exact ⟨r', hi.exchange hq ⟨hr, hl, hn, ho, hem, hcom, hask, hk⟩, hQ⟩

theorem holds_reserve (hr : pooling.rest t r) (id : GlobalId) :
    pooling.Keeps execNoted t (setInsert .idPool id 0) r fun b r' =>
      if b = true then r' = .id id else r' = r := by
  refine holds_op fun s n own s' b hi ht _ he => ?_
  obtain ⟨rfl, rfl, -⟩ := exec_setInsert_done he
  have hc : Change t s (.setInsert .idPool id 0) (s.putSet .idPool ((s.sets .idPool).add id 0)) :=
    .setInsert .idPool id 0
  have hother : ∀ q : SetRef, q ≠ .idPool →
      (s.putSet .idPool ((s.sets .idPool).add id 0)).sets q = s.sets q :=
    fun q hq => s.putSet_sets_of_ne _ hq
  by_cases hid : id ∈ s.sets .idPool
  · refine ⟨r, ?_, ?_⟩
    · rw [← ht, Function.update_eq_self]
      refine hi.quiet ⟨minds_of_providers rfl, ⟨_, hc⟩, fun _ => rfl, fun _ => rfl, fun i hi => ?_,
        fun a o ho => ⟨o, ho, rfl⟩⟩
      rwa [State.putSet_sets_self, IdSet.add_of_mem hid] at hi
    · rw [if_neg (by simpa using hid)]
  · refine ⟨.id id, ?_, ?_⟩
    · have hadv : Advance s (s.putSet .idPool ((s.sets .idPool).add id 0)) own t (.id id) :=
        { change := ⟨_, hc⟩
          names := trivial
          entry := fun _ _ h => .inl h
          allocated := fun _ _ h => .inl h
          damaged := fun _ h => .inl h
          fresh := nofun
          object := nofun
          emptied := nofun
          coming := nofun }
      have hlight := Holding.light_of_rest hr
      subst ht
      refine hi.advance hadv (minds_of_providers rfl) nofun (fun a ha => ?_) fun _ _ => ?_
      · rw [hlight.ending] at ha
        cases ha
      · exact
          { pool := fun i hmem => by
              rw [State.putSet_sets_self, IdSet.mem_add hid] at hmem
              rcases hmem with rfl | hmem
              · exact .inr rfl
              · exact .inl hmem
            keeps := fun i _ hk => by
              rw [Holding.keeps_of_rest hr] at hk
              cases hk
            lookup := fun _ _ h => .inl h
            allocated := fun _ _ _ h => .inl h
            live := fun a o ho => .inl ⟨o, ho, rfl⟩
            fresh := fun a i hf => absurd hf (hlight.ne_fresh a i)
            dying := nofun }
    · rw [if_pos (by simpa using hid)]

theorem holds_idCreate (hr : pooling.rest t r) :
    pooling.Keeps execNoted t idCreate r fun id r' => r' = .id id ∧ id ≠ invalidId := by
  have hloop : ∀ n, pooling.Keeps execNoted t (idCreateLoop n) r fun id r' =>
      r' = .id id ∧ id ≠ invalidId := by
    intro n
    induction n with
    | zero => exact fun _ _ _ _ _ => trivial
    | succ n ih =>
      refine (passes_rand (passes_steady t pooling_harmless) (by decide)).step fun candidate => ?_
      refine (holds_reserve hr candidate.val).seq fun b r' h => ?_
      cases b with
      | true => exact ⟨h, candidate.property⟩
      | false =>
        obtain rfl : r' = r := h
        exact ih
  exact hloop 2

/-- The id of an allocation that was taken out of its set is given back. -/
theorem holds_releaseRemoved {a : Addr} {handle : Handle} :
    pooling.Keeps execNoted t (idRelease handle) (.removed a handle) fun _ r' => r' = .empty := by
  refine holds_exchange trivial fun s n own s' b hi _ hg he =>
    ⟨quiet_of_calm he hg (by decide : Area.release ∈ _), .empty, rfl, trivial, trivial, nofun, nofun,
      nofun, nofun, fun id hid hk => ?_⟩
  obtain ⟨rfl, -⟩ := exec_setRemove_done he
  obtain rfl := Option.some.inj hk
  rw [State.putSet_sets_self] at hid
  exact absurd rfl (IdSet.mem_erase.mp hid).1

theorem holds_findObject (hr : pooling.rest t r) (id : GlobalId) :
    pooling.Keeps execNoted t (setFind .objects id) r fun d r' =>
      match d with
      | none => pooling.rest t r'
      | some a => r' = .seen a id := by
  refine holds_op fun s n own s' d hi ht _ he => ?_
  obtain ⟨rfl, rfl⟩ := exec_setFind_done he
  cases hl : (s'.sets .objects).lookup id with
  | none => exact ⟨r, by rwa [← ht, Function.update_eq_self], hr⟩
  | some a =>
    subst ht
    refine ⟨.seen a id, hi.exchange (quiet_same s' n) ⟨Holding.light_of_rest hr, trivial,
      hi.entry id a hl, fun b hb => ?_, nofun, nofun, nofun, fun i _ hk => ?_⟩, rfl⟩
    · obtain rfl := Option.some.inj hb
      exact ⟨id, hl⟩
    · rw [Holding.keeps_of_rest hr] at hk
      cases hk

/-- A record in hand that is read has the name it should have. -/
theorem holds_readObject {a : Addr} {id : GlobalId} (h : r = .seen a id ∨ r = .dying a id) :
    pooling.Keeps execNoted t (read .object a) r fun o r' => r' = r ∧ o.id = id := by
  refine holds_op fun s n own s' o hi ht _ he => ?_
  obtain ⟨rfl, ho⟩ := exec_read_done he
  have hn := hi.names t
  rw [ht] at hn
  refine ⟨r, by rwa [← ht, Function.update_eq_self], rfl, ?_⟩
  rcases h with rfl | rfl
  · exact hn.2 o ho
  · exact hn.2 o ho

/-- The id of an object that was found is given back. -/
theorem holds_releaseSeen {a : Addr} {id : GlobalId} :
    pooling.Keeps execNoted t (idRelease id) (.seen a id) fun b r' => b = true → r' = .dying a id := by
  refine holds_op fun s n own s' b hi ht hg he => ?_
  have hq := quiet_of_calm he hg (by decide : Area.release ∈ _)
  obtain ⟨rfl, rfl⟩ := exec_setRemove_done he
  by_cases hid : id ∈ s.sets .idPool
  · refine ⟨.dying a id, ?_, fun _ => rfl⟩
    have hc : Change t s (.setRemove .idPool id) (s.putSet .idPool ((s.sets .idPool).erase id)) :=
      .setRemove .idPool id
    have hn := hi.names t
    have hn' := (hi.names t).change hc
    rw [ht] at hn hn'
    have hadv : Advance s (s.putSet .idPool ((s.sets .idPool).erase id)) own t (.dying a id) :=
      { change := ⟨_, hc⟩
        names := hn'
        entry := fun _ _ h => .inl h
        allocated := fun _ _ h => .inl h
        damaged := fun _ h => .inl h
        fresh := nofun
        object := fun b hb => .inl (by rw [ht]; exact hb)
        emptied := nofun
        coming := nofun }
    refine hi.advance hadv (minds_of_providers rfl) nofun (fun b hb => ?_) fun hacc hdoom => ?_
    · rw [ht] at hb
      cases hb
    have hpool : id ∉ (s.putSet .idPool ((s.sets .idPool).erase id)).sets .idPool := by
      rw [State.putSet_sets_self]
      exact fun h => (IdSet.mem_erase.mp h).1 rfl
    -- the object must be in the table still: if not, another thread is about to free it
    have hlook : (s.sets .objects).lookup id = some a := by
      have hself : (Function.update own t (.dying a id) t).ending = some a := by
        rw [Function.update_self]
        rfl
      cases ho : s.heap .object a with
      | none => exact absurd ⟨t, a, hself, .inl ho⟩ hdoom
      | some o =>
        obtain rfl := hn.2 o ho
        rcases hacc.live a o ho with hl | ⟨u, hf | hu⟩
        · exact hl
        · have hut : t = u := hi.unshared u t a o.id hf (by rw [ht]; rfl)
          rw [← hut, ht] at hf
          cases hf
        · refine absurd ⟨t, a, hself, .inr ⟨u, ?_, ?_⟩⟩ hdoom
          · rintro rfl
            rw [ht] at hu
            cases hu
          · rw [Function.update_of_ne]
            · exact hu
            · rintro rfl
              rw [ht] at hu
              cases hu
    exact
      { pool := fun i hmem => .inl (hq.pool i hmem)
        keeps := fun i _ hk => by
          rw [ht] at hk
          cases hk
        lookup := fun _ _ h => .inl h
        allocated := fun _ _ _ h => .inl h
        live := fun b o ho => .inl ⟨o, ho, rfl⟩
        fresh := fun b i hf => by
          rw [ht] at hf
          cases hf
        dying := fun b i hd => by
          obtain ⟨rfl, rfl⟩ := Holding.dying.inj hd
          exact .inr ⟨hpool, hlook⟩ }
  · refine ⟨.seen a id, ?_, fun hb => absurd hb (by simpa using hid)⟩
    rw [← ht, Function.update_eq_self]
    exact hi.quiet hq

theorem holds_eraseDying {a : Addr} {id : GlobalId} :
    pooling.Keeps execNoted t (setRemove .objects id) (.dying a id) fun _ r' => r' = .erased a := by
  refine holds_op fun s n own s' b hi ht hg he => ⟨.erased a, ?_, rfl⟩
  obtain ⟨rfl, -⟩ := exec_setRemove_done he
  have hlook : ∀ k, ((s.putSet .objects ((s.sets .objects).erase id)).sets .objects).lookup k =
      if k = id then none else (s.sets .objects).lookup k := by
    intro k
    rw [State.putSet_sets_self, IdSet.lookup_erase]
  have hn := hi.names t
  rw [ht] at hn
  have hadv : Advance s (s.putSet .objects ((s.sets .objects).erase id)) own t (.erased a) :=
    { change := ⟨_, .setRemove .objects id⟩
      names := hn.1
      entry := fun k b hk => by
        rw [hlook] at hk
        split_ifs at hk
        exact .inl hk
      allocated := fun _ _ h => .inl h
      damaged := fun _ h => .inl h
      fresh := nofun
      object := fun b hb => .inl (by rw [ht]; exact hb)
      emptied := nofun
      coming := nofun }
  refine hi.advance hadv (minds_of_providers rfl) nofun
    (fun b hb => .inl (by rw [ht] at hb; exact hb)) fun hacc _ => ?_
  exact
    { pool := fun _ h => .inl h
      keeps := fun i _ hk => by
        rw [ht] at hk
        cases hk
      lookup := fun k b hk => by
        rw [hlook]
        by_cases hkid : k = id
        · subst hkid
          have hself := hacc.dying t a k ht
          obtain rfl := Option.some.inj (hself.symm.trans hk)
          exact .inr ⟨ht, rfl⟩
        · rw [if_neg hkid]
          exact .inl hk
      allocated := fun _ _ _ h => .inl h
      live := fun b o ho => .inl ⟨o, ho, rfl⟩
      fresh := fun b i hf => by
        rw [ht] at hf
        cases hf
      dying := nofun }

theorem holds_freeErased {a : Addr} :
    pooling.Keeps execNoted t (free .object a) (.erased a) fun _ r' => r' = .empty := by
  refine holds_op fun s n own s' x hi ht hg he => ⟨.empty, ?_, rfl⟩
  obtain ⟨o, ho, rfl⟩ := exec_free_done he
  have hadv : Advance s (s.put .object a none) own t .empty :=
    { change := ⟨_, .free .object a o ho⟩
      names := trivial
      entry := fun _ _ h => .inl h
      allocated := fun _ _ h => .inl h
      damaged := fun _ h => .inl h
      fresh := nofun
      object := nofun
      emptied := nofun
      coming := nofun }
  refine hi.advance hadv (minds_of_providers rfl) nofun (fun b hb => ?_) fun _ _ => ?_
  · rw [ht] at hb
    obtain rfl := Option.some.inj hb
    right
    rw [ho, State.put_heap_self]
    exact ⟨rfl, rfl⟩
  · exact
      { pool := fun _ h => .inl h
        keeps := fun i _ hk => by
          rw [ht] at hk
          cases hk
        lookup := fun _ _ h => .inl h
        allocated := fun _ _ _ h => .inl h
        live := fun b o' ho' => by
          rcases eq_or_ne b a with rfl | hb
          · rw [State.put_heap_self] at ho'
            cases ho'
          · rw [s.put_heap_of_ne _ hb] at ho'
            exact .inl ⟨o', ho', rfl⟩
        fresh := fun b i hf => by
          rw [ht] at hf
          cases hf
        dying := nofun }

/-- An object is made for an id that the thread answers for. -/
theorem holds_newObject (hr : r.Light) {o : Object} (hk : r.keeps = some o.id) :
    pooling.Keeps execNoted t (new .object o) r fun a r' => r' = .fresh a o.id := by
  refine holds_op fun s n own s' a hi ht _ he => ⟨.fresh a o.id, ?_, rfl⟩
  obtain ⟨rfl, rfl⟩ := Outcome.done.inj he
  subst ht
  have hself : (s.put .object s.next (some o)).heap .object s.next = some o := s.put_heap_self ..
  have hadv : Advance s { s.put .object s.next (some o) with next := s.next + 1 } own t
      (.fresh s.next o.id) :=
    { change := ⟨_, .new .object o⟩
      names := ⟨Nat.lt_succ_self _, fun o' ho' => by
        obtain rfl := Option.some.inj (hself.symm.trans ho')
        rfl⟩
      entry := fun _ _ h => .inl h
      allocated := fun _ _ h => .inl h
      damaged := fun _ h => .inl h
      fresh := fun b i hb => by
        obtain ⟨rfl, -⟩ := Holding.fresh.inj hb
        exact .inr le_rfl
      object := fun b hb => by
        obtain rfl := Option.some.inj hb
        exact .inr (.inl le_rfl)
      emptied := nofun
      coming := nofun }
  refine hi.advance hadv (minds_of_providers rfl) nofun (fun b hb => ?_) fun _ _ => ?_
  · rw [hr.ending] at hb
    cases hb
  · exact
      { pool := fun _ h => .inl h
        keeps := fun i _ hki => .inl (hk.symm.trans hki)
        lookup := fun _ _ h => .inl h
        allocated := fun _ _ _ h => .inl h
        live := fun b o' ho' => by
          rcases eq_or_ne b s.next with rfl | hb
          · obtain rfl := Option.some.inj (hself.symm.trans ho')
            exact .inr rfl
          · exact .inl ⟨o', (s.put_heap_of_ne _ hb).symm.trans ho', rfl⟩
        fresh := fun b i hf => absurd hf (hr.ne_fresh b i)
        dying := nofun }

theorem holds_insertObject {a : Addr} {id : GlobalId} :
    pooling.Keeps execNoted t (setInsert .objects id a) (.fresh a id) fun b r' =>
      b = true → r' = .empty := by
  refine holds_op fun s n own s' b hi ht _ he => ?_
  obtain ⟨rfl, rfl, -⟩ := exec_setInsert_done he
  have hc : Change t s (.setInsert .objects id a) (s.putSet .objects ((s.sets .objects).add id a)) :=
    .setInsert .objects id a
  by_cases hid : id ∈ s.sets .objects
  · refine ⟨.fresh a id, ?_, fun hb => absurd hid (by simpa using hb)⟩
    rw [← ht, Function.update_eq_self]
    refine hi.quiet ⟨minds_of_providers rfl, ⟨_, hc⟩, fun k => ?_, fun _ => rfl, fun _ h => h,
      fun b o ho => ⟨o, ho, rfl⟩⟩
    rw [State.putSet_sets_self, IdSet.add_of_mem hid]
    rfl
  · refine ⟨.empty, ?_, fun _ => rfl⟩
    have hlook : ∀ k, ((s.putSet .objects ((s.sets .objects).add id a)).sets .objects).lookup k =
        if k = id then some a else (s.sets .objects).lookup k := by
      intro k
      rw [State.putSet_sets_self, IdSet.lookup_add hid]
    have hadv : Advance s (s.putSet .objects ((s.sets .objects).add id a)) own t .empty :=
      { change := ⟨_, hc⟩
        names := trivial
        entry := fun k b hk => by
          rw [hlook] at hk
          split_ifs at hk with hkid
          · obtain rfl := Option.some.inj hk
            exact .inr ⟨by rw [ht, hkid], nofun⟩
          · exact .inl hk
        allocated := fun _ _ h => .inl h
        damaged := fun _ h => .inl h
        fresh := nofun
        object := nofun
        emptied := nofun
        coming := nofun }
    refine hi.advance hadv (minds_of_providers rfl) nofun (fun b hb => ?_) fun _ _ => ?_
    · rw [ht] at hb
      cases hb
    · exact
        { pool := fun _ h => .inl h
          keeps := fun i _ hk => by
            rw [ht] at hk
            obtain rfl := Option.some.inj hk
            exact .inr (.inl ⟨a, ht, by rw [hlook, if_pos rfl]⟩)
          lookup := fun k b hk => by
            left
            rw [hlook, if_neg, hk]
            rintro rfl
            exact hid (IdSet.mem_of_lookup hk)
          allocated := fun _ _ _ h => .inl h
          live := fun b o ho => .inl ⟨o, ho, rfl⟩
          fresh := fun b i hf => by
            rw [ht] at hf
            obtain ⟨rfl, rfl⟩ := Holding.fresh.inj hf
            exact .inr (by rw [hlook, if_pos rfl])
          dying := nofun }

theorem holds_newPlatform (pf : Platform) :
    pooling.Keeps execNoted t (new .platform pf) (.id pf.globalId) fun a r' =>
      r' = .platform a pf.globalId := by
  refine holds_exchange trivial fun s n own s' a _ _ _ he => ?_
  obtain ⟨rfl, rfl⟩ := Outcome.done.inj he
  have hself : (s.put .platform s.next (some pf)).heap .platform s.next = some pf :=
    s.put_heap_self ..
  refine ⟨quiet_new (k := .platform) (by decide) pf, _, rfl, trivial,
    ⟨Nat.lt_succ_self _, fun r hr => ?_⟩, nofun,
    nofun, nofun, nofun, fun _ _ hk => .inl hk⟩
  obtain rfl := Option.some.inj (hself.symm.trans hr)
  rfl

theorem holds_newDevice (dv : Device) :
    pooling.Keeps execNoted t (new .device dv) (.id dv.globalId) fun a r' =>
      r' = .device a dv.globalId := by
  refine holds_exchange trivial fun s n own s' a _ _ _ he => ?_
  obtain ⟨rfl, rfl⟩ := Outcome.done.inj he
  have hself : (s.put .device s.next (some dv)).heap .device s.next = some dv :=
    s.put_heap_self ..
  refine ⟨quiet_new (k := .device) (by decide) dv, _, rfl, trivial,
    ⟨Nat.lt_succ_self _, fun r hr => ?_⟩, nofun,
    nofun, nofun, nofun, fun _ _ hk => .inl hk⟩
  obtain rfl := Option.some.inj (hself.symm.trans hr)
  rfl

theorem holds_readNamed {k : Kind} {a : Addr} {Q : k.Rec → Prop}
    (hQ : ∀ s x, r.Names s → s.heap k a = some x → Q x) :
    pooling.Keeps execNoted t (read k a) r fun x r' => r' = r ∧ Q x := by
  refine holds_op fun s n own s' x hi ht _ he => ?_
  obtain ⟨rfl, hx⟩ := exec_read_done he
  have hn := hi.names t
  rw [ht] at hn
  exact ⟨r, by rwa [← ht, Function.update_eq_self], rfl, hQ s' x hn hx⟩

theorem holds_readPlatform {a : Addr} {id : GlobalId} :
    pooling.Keeps execNoted t (read .platform a) (.platform a id) fun pf r' =>
      r' = .platform a id ∧ pf.globalId = id :=
  holds_readNamed fun _ pf hn hpf => hn.2 pf hpf

theorem holds_readDevice {a : Addr} {id : GlobalId} :
    pooling.Keeps execNoted t (read .device a) (.device a id) fun dv r' =>
      r' = .device a id ∧ dv.globalId = id :=
  holds_readNamed fun _ dv hn hdv => hn.2 dv hdv

theorem holds_sendAllocate {p : Addr} {id : GlobalId} {m : Bytes} (hm : m.wordAt 0 = id) :
    pooling.Keeps execNoted t (net (claraSendmsg (.provider p) Msg.allocateRequest m)) (.id id)
      fun ssz r' => ssz.isSome ∧ r' = .asked p id := by
  have hkeeps : pooling.Keeps execNoted t
      (perform (.net (.sendmsg (.provider p) Msg.allocateRequest m))) (.id id)
        fun ssz r' => ssz.isSome ∧ r' = .asked p id := by
    refine holds_exchange trivial fun s n own s' ssz _ _ hg he => ?_
    have hq := quiet_of_calm he hg (by decide : Area.wire ∈ _)
    obtain ⟨net, hnet, -⟩ := exec_net_done he
    have hsent : ¬ ssz.isNone := fun hno => hg.1 rfl ((Net.exec_sendmsg_isNone hnet).mp hno)
    refine ⟨hq, .asked p id, ⟨by cases ssz <;> simp_all, rfl⟩, trivial, trivial, nofun, nofun, nofun,
      fun q i heq => ?_, fun _ _ hk => .inl hk⟩
    obtain ⟨rfl, rfl⟩ := Holding.asked.inj heq
    left
    rw [Notes.after, if_neg hsent, if_pos rfl, hm]
    exact List.mem_cons_self
  exact hkeeps

/-- The response makes the id stand for the allocation. -/
theorem holds_recvAllocate {p : Addr} {id : GlobalId} (len : ℕ) :
    pooling.Keeps execNoted t (net (claraRecvmsg (.provider p) len)) (.asked p id)
      fun _ r' => r' = .empty := by
  have hkeeps : pooling.Keeps execNoted t (perform (.net (.recvmsg (.provider p) len)))
      (.asked p id) fun _ r' => r' = .empty := by
    refine holds_exchange trivial fun s n own s' response hi ht hg he => ?_
    have hq := quiet_of_calm he hg (by decide : Area.wire ∈ _)
    refine ⟨hq, .empty, rfl, trivial, trivial, nofun, nofun, nofun, nofun, fun i _ hk => .inr ⟨p, ?_⟩⟩
    obtain rfl := Option.some.inj hk
    rcases hq.awaits t p id (hi.awaits t p id ht) with hasked | hout
    · have hnot := of_decide_eq_true (List.mem_filter.mp hasked).2
      exact absurd ⟨rfl, rfl⟩ hnot
    · exact hout
  exact hkeeps

theorem steady_newAllocation (al : Allocation) :
    pooling.Steady execNoted t (new .allocation al) := by
  refine Discipline.Harmless.steady fun t x own hi _ => ?_
  exact Pooled.quiet hi (quiet_new (t := t) (k := .allocation) (by decide) al)

theorem steady_freeAllocation (a : Addr) : pooling.Steady execNoted t (free .allocation a) := by
  refine Discipline.Harmless.steady fun t x own hi _ => ?_
  cases he : execNoted t (.free .allocation a) x with
  | done x' r =>
    obtain ⟨s', n'⟩ := x'
    obtain ⟨he, rfl⟩ := noted_done _ he
    obtain ⟨v, hv, rfl⟩ := exec_free_done he
    exact Pooled.quiet hi (quiet_free (t := t) (k := .allocation) (by decide) hv)
  | fault f => trivial
  | blocked => trivial

private theorem putSet_allocations_of_ne {c d : Addr} (hd : d ≠ c) (v : IdSet GlobalId Addr) :
    (s.putSet (.allocations c) v).sets (.allocations d) = s.sets (.allocations d) := by
  have hne : SetRef.allocations d ≠ .allocations c := fun h => hd (SetRef.allocations.inj h)
  exact s.putSet_sets_of_ne _ hne

theorem holds_insertAllocation {c a : Addr} {id : GlobalId} :
    pooling.Keeps execNoted (.consumer c) (setInsert (.allocations c) id a) (.id id) fun b r' =>
      b = true → r' = .empty := by
  refine holds_op fun s n own s' b hi ht _ he => ?_
  obtain ⟨rfl, rfl, hsound⟩ := exec_setInsert_done he
  have hc : Change (.consumer c) s (.setInsert (.allocations c) id a)
      (s.putSet (.allocations c) ((s.sets (.allocations c)).add id a)) :=
    .setInsert (.allocations c) id a
  by_cases hid : id ∈ s.sets (.allocations c)
  · refine ⟨.id id, ?_, fun hb => absurd hid (by simpa using hb)⟩
    have hmem : ∀ d k, k ∈ (s.putSet (.allocations c)
        ((s.sets (.allocations c)).add id a)).sets (.allocations d) ↔
          k ∈ s.sets (.allocations d) := by
      intro d k
      rcases eq_or_ne d c with rfl | hd
      · rw [State.putSet_sets_self, IdSet.add_of_mem hid]
        rfl
      · rw [putSet_allocations_of_ne hd]
    refine hi.advance ⟨⟨_, hc⟩, trivial, fun _ _ h => .inl h, fun d k hk => .inl ((hmem d k).mp hk),
      fun d hd => .inl ?_, nofun, nofun, nofun, nofun⟩ (minds_of_providers rfl) nofun
      (fun b hb => ?_) fun _ _ => ?_
    · rcases eq_or_ne d c with rfl | hdc
      · rw [State.putSet_sets_self, IdSet.add_of_mem hid]
      · rwa [putSet_allocations_of_ne hdc]
    · rw [ht] at hb
      cases hb
    · exact
        { pool := fun _ h => .inl h
          keeps := fun i _ hk => by
            rw [ht] at hk
            exact .inl hk
          lookup := fun _ _ h => .inl h
          allocated := fun i _ d hd => .inl ((hmem d i).mpr hd)
          live := fun b o ho => .inl ⟨o, ho, rfl⟩
          fresh := fun b i hf => by
            rw [ht] at hf
            cases hf
          dying := nofun }
  · refine ⟨.empty, ?_, fun _ => rfl⟩
    have hself : ∀ k, k ∈ (s.putSet (.allocations c)
        ((s.sets (.allocations c)).add id a)).sets (.allocations c) ↔
          k = id ∨ k ∈ s.sets (.allocations c) := by
      intro k
      rw [State.putSet_sets_self]
      exact IdSet.mem_add hid a
    refine hi.advance ⟨⟨_, hc⟩, trivial, fun _ _ h => .inl h, fun d k hk => ?_, fun d hd => .inl ?_,
      nofun, nofun, nofun, nofun⟩ (minds_of_providers rfl) nofun (fun b hb => ?_) fun _ _ => ?_
    · rcases eq_or_ne d c with rfl | hdc
      · exact .inr ⟨rfl, hsound⟩
      · rw [putSet_allocations_of_ne hdc] at hk
        exact .inl hk
    · rcases eq_or_ne d c with rfl | hdc
      · rw [hsound] at hd
        cases hd
      · rwa [putSet_allocations_of_ne hdc]
    · rw [ht] at hb
      cases hb
    · exact
        { pool := fun _ h => .inl h
          keeps := fun i _ hk => by
            rw [ht] at hk
            obtain rfl := Option.some.inj hk
            exact .inr (.inr (.inl ⟨c, (hself id).mpr (.inl rfl)⟩))
          lookup := fun _ _ h => .inl h
          allocated := fun i _ d hd => by
            left
            rcases eq_or_ne d c with rfl | hdc
            · exact (hself i).mpr (.inr hd)
            · rwa [putSet_allocations_of_ne hdc]
          live := fun b o ho => .inl ⟨o, ho, rfl⟩
          fresh := fun b i hf => by
            rw [ht] at hf
            cases hf
          dying := nofun }

theorem holds_openAllocation (hr : pooling.rest t r) (a : Addr) :
    pooling.Keeps execNoted t (read .allocation a) r fun al r' => r' = .opened a al.handle := by
  refine holds_exchange (Holding.light_of_rest hr) fun s n own s' al hi _ _ he => ?_
  obtain ⟨rfl, hal⟩ := exec_read_done he
  refine ⟨quiet_same s' n, .opened a al.handle, rfl, trivial, ⟨hi.fresh.lt hal, fun al' hal' => ?_⟩,
    nofun, nofun, nofun, nofun, fun i _ hk => ?_⟩
  · obtain rfl := Option.some.inj (hal.symm.trans hal')
    rfl
  · rw [Holding.keeps_of_rest hr] at hk
    cases hk

theorem holds_removeAllocation {c a : Addr} {handle : Handle} :
    pooling.Keeps execNoted (.consumer c) (setRemove (.allocations c) handle) (.opened a handle)
      fun _ r' => r' = .removed a handle := by
  refine holds_op fun s n own s' b hi ht _ he => ⟨.removed a handle, ?_, rfl⟩
  obtain ⟨rfl, -⟩ := exec_setRemove_done he
  have hself : ∀ k, k ∈ (s.putSet (.allocations c)
      ((s.sets (.allocations c)).erase handle)).sets (.allocations c) ↔
        k ≠ handle ∧ k ∈ s.sets (.allocations c) := by
    intro k
    rw [State.putSet_sets_self]
    exact IdSet.mem_erase
  have hc : Change (.consumer c) s (.setRemove (.allocations c) handle)
      (s.putSet (.allocations c) ((s.sets (.allocations c)).erase handle)) :=
    .setRemove (.allocations c) handle
  have hn := (hi.names (.consumer c)).change hc
  rw [ht] at hn
  refine hi.advance ⟨⟨_, hc⟩, hn, fun _ _ h => .inl h, fun d k hk => .inl ?_, fun d hd => .inl ?_,
    nofun, nofun, nofun, nofun⟩ (minds_of_providers rfl) nofun (fun b hb => ?_) fun _ _ => ?_
  · rcases eq_or_ne d c with rfl | hdc
    · exact ((hself k).mp hk).2
    · rwa [putSet_allocations_of_ne hdc] at hk
  · rcases eq_or_ne d c with rfl | hdc
    · rw [State.putSet_sets_self]
      exact hd
    · rwa [putSet_allocations_of_ne hdc]
  · rw [ht] at hb
    cases hb
  · exact
      { pool := fun _ h => .inl h
        keeps := fun i _ hk => by
          rw [ht] at hk
          cases hk
        lookup := fun _ _ h => .inl h
        allocated := fun i _ d hd => by
          rcases eq_or_ne d c with rfl | hdc
          · by_cases hi : i = handle
            · subst hi
              exact .inr rfl
            · exact .inl ((hself i).mpr ⟨hi, hd⟩)
          · left
            rwa [putSet_allocations_of_ne hdc]
        live := fun b o ho => .inl ⟨o, ho, rfl⟩
        fresh := fun b i hf => by
          rw [ht] at hf
          cases hf
        dying := nofun }

/-- A consumer without allocations gets none before its thread goes on. -/
theorem holds_startAllocations {c : Addr} (hr : pooling.rest (.consumer c) r) :
    pooling.Keeps execNoted (.consumer c) (setStart (.allocations c)) r fun l r' =>
      l = [] → r' = .emptied := by
  refine holds_op fun s n own s' l hi ht hg he => ?_
  have hq := quiet_of_calm he hg (by decide : Area.visit ∈ _)
  by_cases hl : l = []
  · subst ht
    refine ⟨.emptied, hi.exchange hq ⟨Holding.light_of_rest hr, trivial, trivial, nofun,
      fun _ => ⟨c, rfl, fun k hk => ?_⟩, nofun, nofun, fun i _ hk => ?_⟩, fun _ => rfl⟩
    · rw [hq.allocations] at hk
      obtain ⟨d, hd⟩ := IdSet.mem_iff.mp hk
      simp only [exec] at he
      split at he
      · cases he
      · obtain ⟨l', hl', he⟩ := ofSet_done he
        obtain ⟨-, rfl⟩ := Outcome.done.inj he
        rw [IdSet.setList] at hl'
        split_ifs at hl'
        have hmem := List.mem_map_of_mem (f := Prod.snd) (IdSet.mem_items.mpr hd)
        rw [Option.some.inj hl', hl] at hmem
        cases hmem
    · rw [Holding.keeps_of_rest hr] at hk
      cases hk
  · refine ⟨r, ?_, fun h => absurd h hl⟩
    rw [← ht, Function.update_eq_self]
    exact hi.quiet hq

/-- A set of allocations is destroyed when it is empty, or created where none is yet. -/
private theorem Pooled.renew (hi : Pooled s n own) {c : Addr} (hlight : (own t).Light)
    (hkeeps : (own t).keeps = none) (hn : ∀ k, k ∉ s.sets (.allocations c))
    {v : IdSet GlobalId Addr} (hv : ∀ k, k ∉ v) {o : Op}
    (hc : Change t s o (s.putSet (.allocations c) v))
    (hd : v.damaged = true ∨ own t = .coming c) :
    Pooled (s.putSet (.allocations c) v) n (Function.update own t .empty) := by
  have hmem : ∀ d k, k ∈ (s.putSet (.allocations c) v).sets (.allocations d) ↔
      k ∈ s.sets (.allocations d) := by
    intro d k
    rcases eq_or_ne d c with rfl | hdc
    · rw [State.putSet_sets_self]
      exact ⟨fun h => absurd h (hv k), fun h => absurd h (hn k)⟩
    · rw [putSet_allocations_of_ne hdc]
  refine hi.advance ⟨⟨o, hc⟩, trivial, fun _ _ h => .inl h, fun d k hk => .inl ((hmem d k).mp hk),
    fun d hdam => ?_, nofun, nofun, nofun, nofun⟩ (minds_of_providers rfl) nofun
    (fun b hb => ?_) fun _ _ => ?_
  · rcases eq_or_ne d c with rfl | hdc
    · rcases hd with hd | hd
      · left
        rwa [State.putSet_sets_self]
      · exact .inr ⟨hd, nofun⟩
    · left
      rwa [putSet_allocations_of_ne hdc]
  · rw [hlight.ending] at hb
    cases hb
  · exact
      { pool := fun _ h => .inl h
        keeps := fun i _ hk => by
          rw [hkeeps] at hk
          cases hk
        lookup := fun _ _ h => .inl h
        allocated := fun i _ d hd => .inl ((hmem d i).mpr hd)
        live := fun b o ho => .inl ⟨o, ho, rfl⟩
        fresh := fun b i hf => absurd hf (hlight.ne_fresh b i)
        dying := nofun }

theorem holds_destroyAllocations {c : Addr} :
    pooling.Keeps execNoted (.consumer c) (setDestroy (.allocations c)) .emptied fun _ r' =>
      r' = .empty := by
  refine holds_op fun s n own s' x hi ht _ he => ⟨.empty, ?_, rfl⟩
  have hc := change_of_done he
  obtain ⟨d, hd, hn⟩ := hi.emptied (.consumer c) ht
  obtain rfl := Tid.consumer.inj hd
  simp only [exec] at he
  split_ifs at he
  obtain ⟨rfl, -⟩ := Outcome.done.inj he
  exact hi.renew (by rw [ht]; trivial) (by rw [ht]; rfl) hn (fun k => IdSet.not_mem_iff.mpr rfl) hc
    (.inl rfl)

theorem holds_newConsumer (consumer : Consumer) :
    pooling.Keeps execNoted .main (new .consumer consumer) .empty fun c r' => r' = .coming c := by
  refine holds_exchange trivial fun s n own s' c _ _ _ he => ?_
  obtain ⟨rfl, rfl⟩ := Outcome.done.inj he
  refine ⟨quiet_new (k := .consumer) (by decide) consumer, _, rfl, trivial, Nat.lt_succ_self _,
    nofun, nofun, fun c hc => ?_, nofun, nofun⟩
  obtain rfl := Holding.coming.inj hc
  exact ⟨rfl, .inr le_rfl⟩

theorem holds_createAllocations {c : Addr} :
    pooling.Keeps execNoted .main (setCreate (.allocations c)) (.coming c)
      fun _ r' => r' = .empty := by
  refine holds_op fun s n own s' x hi ht _ he => ⟨.empty, ?_, rfl⟩
  have hc := change_of_done he
  obtain ⟨rfl, -⟩ := Outcome.done.inj he
  exact hi.renew (by rw [ht]; trivial) (by rw [ht]; rfl) (hi.coming .main c ht).2.2
    (fun k => IdSet.not_mem_empty k) hc (.inr ht)

end

end Clara.Agent
