import Clara.Agent.Registration

/-! Disconnects, and what holds in every state that registrations and disconnects lead to. -/
namespace Clara.Agent

open Conc

/-- The registration does not fail at `sctp_peeloff` or `pthread_create`, and the answer can be sent:
on the agent's own descriptor to a host that is known, else on the one peeled off, which has the name
of the record that is made for it. -/
def PeerEvent.Unhindered (s : State) : PeerEvent → Prop
  | .provider addr fails =>
    if (s.providerAt addr).isSome then s.CanSend .listener
    else match fails with
      | none => s.CanSend (.provider (s.next + 1))
      | some .memory => s.CanSend (.provider s.next)
      | some .peeloff | some .thread => False
  | .consumer none | .consumer (some .memory) => s.CanSend (.consumer s.next)
  | .consumer (some .peeloff) | .consumer (some .thread) => False
  | .providerLeaves _ | .consumerLeaves _ => True

/-- The event is dealt with, `agent_main` goes on, and a `NACK` leaves both tables as they were. -/
def PeerEvent.Kept (e : PeerEvent) (s : State) : Prop :=
  ∃ s' ans, e.run s = .done s' ans ∧ ∀ a, ans = some a → a.goesOn = true ∧
    (a.type = Msg.nack →
      s'.sets .providers = s.sets .providers ∧ s'.sets .consumers = s.sets .consumers)

/-- The table of the providers is what the answers say, with one provider a host; the next event
is all or nothing unless it is hindered; and a host that is not registered can register. -/
structure AllOrNothing (l : Roll) (s : State) : Prop where
  members : ∀ p, p ∈ s.sets .providers ↔ (l.providers p).isSome = true
  host : ∀ p addr, l.providers p = some addr →
    ∃ provider, s.heap .provider p = some provider ∧ provider.addr = addr
  onePerHost : ∀ p q provider provider', p ∈ s.sets .providers → q ∈ s.sets .providers →
    s.heap .provider p = some provider → s.heap .provider q = some provider' →
    provider.addr = provider'.addr → p = q
  event : ∀ e : PeerEvent, e.Possible s → (e.Kept s ↔ e.Unhindered s)
  later : ∀ addr, (∀ p, l.providers p ≠ some addr) →
    (PeerEvent.provider addr none).Unhindered s → ∃ s' sd,
      (PeerEvent.provider addr none).run s = .done s' (some ⟨some sd, Msg.ack, true⟩)

section
variable {s s' : State} {l : Roll} {p : Addr} {addr : UInt32} {t : Tid}

def State.providerLeft (s : State) (p lock : Addr) : State :=
  (((s.putSet .providers ((s.sets .providers).erase p)).put .lock lock none).dropSet
    (.platforms p)).put .provider p none

theorem run_setDestroy_free {r : SetRef} (hl : s.setLock r = .free) :
    run t (setDestroy r) s = .done (s.dropSet r) () := by
  have hadm : (s.setLock r).admits t = true := by
    rw [hl]
    rfl
  rw [setDestroy, perform, run, Prog.run_perform, exec, if_pos hadm, State.dropSet]

theorem run_lockDestroy {lock : Addr} (hl : s.heap .lock lock = some .free) :
    run t (lockDestroy lock) s = .done (s.put .lock lock none) () := by
  have hheld : (s.put .lock lock (some ⟨some t, 1⟩)).heap .lock lock = some ⟨some t, 1⟩ :=
    State.put_heap_self ..
  rw [lockDestroy, run_bind, run_lockWait_free hl, Outcome.bind_done, run_free hheld, State.put_put]

theorem Enrolled.run_providerDetach (h : Enrolled l s) (hp : l.providers p = some addr) :
    run t (providerDetach p) s =
      .done (s.putSet .providers ((s.sets .providers).erase p)) true := by
  obtain ⟨lock, hrecord, -⟩ := h.providers.record p addr hp
  have hsome : (l.providers p).isSome = true := by rw [hp, Option.isSome_some]
  obtain ⟨hsound, hitems⟩ := h.providers.platforms p hsome
  have hremove : run t (setRemove .providers p) s =
      .done (s.putSet .providers ((s.sets .providers).erase p)) true := by
    have hu : Usable t .providers s := ⟨h.providers.sound, by rw [h.unlocked]; rfl⟩
    rw [run_setRemove hu, decide_eq_true (h.providers.mem_iff.mpr hsome)]
  have hlb : run t loadBalancing s = .done s s.loadBalancing := rfl
  rw [providerDetach, run_bind, run_read hrecord, Outcome.bind_done, if_neg (by simp), run_bind, hlb,
    Outcome.bind_done]
  by_cases hb : s.loadBalancing = true
  · rw [if_pos hb, run_bind, run_setStart (h.unlocked _) hsound, Outcome.bind_done, hitems,
      List.map_nil, forEach, Prog.pure_bind', run_bind, run_setFinish (h.unlocked _),
      Outcome.bind_done, hremove]
  · rw [if_neg hb, hremove]

theorem Enrolled.run_providerDestroy (h : Enrolled l s) {lock : Addr}
    (hp : l.providers p = some addr) (hrecord : s.heap .provider p = some ⟨addr, lock, true⟩)
    (hlock : s.heap .lock lock = some .free) :
    run t (providerDestroy p) (s.putSet .providers ((s.sets .providers).erase p)) =
      .done (s.providerLeft p lock) true := by
  have hsome : (l.providers p).isSome = true := by rw [hp, Option.isSome_some]
  obtain ⟨hsound, hitems⟩ := h.providers.platforms p hsome
  let s₁ : State := s.putSet .providers ((s.sets .providers).erase p)
  have hrecord₁ : s₁.heap .provider p = some ⟨addr, lock, true⟩ := hrecord
  have hlock₁ : s₁.heap .lock lock = some .free := hlock
  let s₂ : State := s₁.put .lock lock none
  have hunlocked₂ : s₂.setLock (.platforms p) = .free := h.unlocked _
  have hset₂ : s₂.sets (.platforms p) = s.sets (.platforms p) := by
    rw [State.put_sets, State.putSet_sets_of_ne _ _ (by simp)]
  have hrecord₃ : (s₂.dropSet (.platforms p)).heap .provider p =
      some ⟨addr, lock, true⟩ := by
    rw [State.dropSet_heap, State.put_lock_heap_provider, hrecord₁]
  rw [providerDestroy, run_bind, run_read hrecord₁, Outcome.bind_done, run_bind,
    run_lockDestroy hlock₁, Outcome.bind_done, run_bind,
    run_setStart hunlocked₂ (by rw [hset₂, hsound]), Outcome.bind_done, hset₂, hitems, List.map_nil,
    forEach, Prog.pure_bind', run_bind, run_setFinish hunlocked₂, Outcome.bind_done, run_bind,
    run_setDestroy_free hunlocked₂, Outcome.bind_done, run_bind, run_free hrecord₃]
  rfl

theorem Enrolled.run_providerLeaves (h : Enrolled l s) (hp : l.providers p = some addr) :
    ∃ lock, s.heap .provider p = some ⟨addr, lock, true⟩ ∧
      (PeerEvent.providerLeaves p).run s =
        .done ((s.providerLeft p lock).withPhase (.provider p) .finished) none := by
  obtain ⟨lock, hrecord, hlock⟩ := h.providers.record p addr hp
  refine ⟨lock, hrecord, ?_⟩
  have hshutdown : run (.provider p) (agentProviderHandler p .shutdown) s =
      .done ((s.providerLeft p lock).withPhase (.provider p) .finished) () := by
    rw [agentProviderHandler, providerShutdown, run_bind, h.run_providerDetach hp, Outcome.bind_done,
      run_bind, run_assert, if_pos rfl, Outcome.bind_done, run_bind,
      h.run_providerDestroy hp hrecord hlock, Outcome.bind_done, run_bind, run_assert, if_pos rfl,
      Outcome.bind_done, run_setPhase]
  rw [PeerEvent.run, hshutdown, Outcome.bind_done]

theorem providerLeft_provider {lock q : Addr} (hq : q ≠ p) :
    (s.providerLeft p lock).heap .provider q = s.heap .provider q := by
  rw [State.providerLeft, State.put_heap_of_ne _ _ hq, State.dropSet_heap,
    State.put_lock_heap_provider, State.putSet_heap]

theorem providerLeft_lock {lock a : Addr} (ha : a ≠ lock) :
    (s.providerLeft p lock).heap .lock a = s.heap .lock a := by
  rw [State.providerLeft, State.put_heap_kind _ _ _ (by decide), State.dropSet_heap,
    State.put_heap_of_ne _ _ ha, State.putSet_heap]

theorem providerLeft_heap {lock : Addr} {k : Kind} (hp : k ≠ .provider) (hl : k ≠ .lock) :
    (s.providerLeft p lock).heap k = s.heap k := by
  rw [State.providerLeft, State.put_heap_kind _ _ _ hp, State.dropSet_heap,
    State.put_heap_kind _ _ _ hl, State.putSet_heap]

theorem providerLeft_providers {lock : Addr} :
    (s.providerLeft p lock).sets .providers = (s.sets .providers).erase p := by
  rw [State.providerLeft, State.put_sets, State.dropSet_sets _ (by simp), State.put_sets,
    State.putSet_sets_self]

theorem providerLeft_sets {lock : Addr} {r : SetRef} (hr : r ≠ .providers)
    (hr' : r ≠ .platforms p) : (s.providerLeft p lock).sets r = s.sets r := by
  rw [State.providerLeft, State.put_sets, State.dropSet_sets _ hr', State.put_sets,
    State.putSet_sets_of_ne _ _ hr]

theorem Enrolled.providersLeft (h : Enrolled l s) (hp : l.providers p = some addr) {lock : Addr}
    (hrecord : s.heap .provider p = some ⟨addr, lock, true⟩) :
    ProvidersAre (Function.update l.providers p none)
      ((s.providerLeft p lock).withPhase (.provider p) .finished) := by
  have hold : ∀ q, q ≠ p → Function.update l.providers p none q = l.providers q :=
    fun q hq => Function.update_of_ne hq ..
  have hself : Function.update l.providers p none p = none := Function.update_self ..
  have hne : ∀ q, (Function.update l.providers p none q).isSome = true → q ≠ p := by
    rintro q hq rfl
    rw [hself] at hq
    cases hq
  have hsome : (l.providers p).isSome = true := by rw [hp, Option.isSome_some]
  constructor
  case sound =>
    rw [State.withPhase_sets, providerLeft_providers, IdSet.damaged_erase, h.providers.sound]
  case entry =>
    intro key
    rw [State.withPhase_sets, providerLeft_providers, IdSet.lookup_erase]
    by_cases hk : key = p
    · rw [if_pos hk, hk, hself]
      rfl
    · rw [if_neg hk, h.providers.entry, hold key hk]
  case record =>
    intro q addr' hq
    have hqp := hne q (by rw [hq, Option.isSome_some])
    rw [hold q hqp] at hq
    obtain ⟨lock', hrecord', hlock'⟩ := h.providers.record q addr' hq
    have hapart : lock' ≠ lock := h.providers.lock_ne q p _ _ (by rw [hq, Option.isSome_some]) hsome
      hrecord' hrecord hqp
    rw [State.withPhase_heap, providerLeft_provider hqp]
    exact ⟨lock', hrecord', by rw [providerLeft_lock hapart, hlock']⟩
  case lock_ne =>
    intro q r provider provider' hq hr hq' hr' hqr
    have hqp := hne q hq
    have hrp := hne r hr
    rw [State.withPhase_heap, providerLeft_provider hqp] at hq'
    rw [State.withPhase_heap, providerLeft_provider hrp] at hr'
    rw [hold q hqp] at hq
    rw [hold r hrp] at hr
    exact h.providers.lock_ne q r provider provider' hq hr hq' hr' hqr
  case platforms =>
    intro q hq
    have hqp := hne q hq
    rw [hold q hqp] at hq
    rw [State.withPhase_sets, providerLeft_sets (by simp) (by simpa using hqp)]
    exact h.providers.platforms q hq
  case host =>
    intro q r addr' hq hr
    have hqp := hne q (by rw [hq, Option.isSome_some])
    have hrp := hne r (by rw [hr, Option.isSome_some])
    rw [hold q hqp] at hq
    rw [hold r hrp] at hr
    exact h.providers.host q r addr' hq hr
  case phase =>
    intro q hq
    by_cases hqp : q = p
    · rw [hqp, State.withPhase_self] at hq
      rcases hq with hq | hq <;> cases hq
    · rw [State.withPhase_of_ne _ _ _ (by simpa using hqp)] at hq
      rw [hold q hqp]
      exact h.providers.phase q hq

theorem Enrolled.providerGone (h : Enrolled l s) (hp : l.providers p = some addr) {lock : Addr}
    (hrecord : s.heap .provider p = some ⟨addr, lock, true⟩) :
    Enrolled { l with providers := Function.update l.providers p none }
      ((s.providerLeft p lock).withPhase (.provider p) .finished) where
  fresh := by
    intro k a ha
    have hold : s.heap k a = none := h.fresh k a ha
    rw [State.withPhase_heap]
    by_cases hk : k = .provider
    · subst hk
      by_cases hap : a = p
      · rw [State.providerLeft, hap, State.put_heap_self]
      · rw [providerLeft_provider hap, hold]
    · by_cases hl : k = .lock
      · subst hl
        by_cases hal : a = lock
        · rw [State.providerLeft, hal, State.put_heap_kind _ _ _ (by decide), State.dropSet_heap,
            State.put_heap_self]
        · rw [providerLeft_lock hal, hold]
      · rw [providerLeft_heap hk hl, hold]
  unlocked := h.unlocked
  providers := h.providersLeft hp hrecord
  consumers := by
    refine h.consumers.frame ?_ ?_ (fun c => ?_) (fun c => ?_) fun c => ?_
    · rw [State.withPhase_heap, providerLeft_heap (by decide) (by decide)]
    · rw [State.withPhase_sets, providerLeft_sets (by simp) (by simp)]
    · rw [State.withPhase_sets, providerLeft_sets (by simp) (by simp)]
    · rw [State.withPhase_sets, providerLeft_sets (by simp) (by simp)]
    · rw [State.withPhase_of_ne _ _ _ (by simp)]
      rfl

def State.consumerOut (s : State) (c : Addr) : State :=
  (s.putSet .consumers ((s.sets .consumers).erase c)).put .consumer c (some ⟨false, none⟩)

def State.consumerLeft (s : State) (c : Addr) : State :=
  (((s.consumerOut c).dropSet (.allocations c)).dropSet (.objectsOf c)).put .consumer c none

section
variable {c : Addr}

theorem Enrolled.run_consumerDetach (h : Enrolled l s) (hc : l.consumers c = true) :
    run t (consumerDetach c) s = .done (s.consumerOut c) true := by
  have hrecord := h.consumers.record c hc
  have hu : Usable t .consumers s := ⟨h.consumers.sound, by rw [h.unlocked]; rfl⟩
  have hremove : run t (setRemove .consumers c) s =
      .done (s.putSet .consumers ((s.sets .consumers).erase c)) true := by
    rw [run_setRemove hu, decide_eq_true (h.consumers.mem_iff.mpr hc)]
  have hrecord₁ : (s.putSet .consumers ((s.sets .consumers).erase c)).heap .consumer c =
      some ⟨true, none⟩ := hrecord
  have hlast : run t (do
      if ← setRemove .consumers c then
        store .consumer c (.attached false)
        pure true
      else pure false) s = .done (s.consumerOut c) true := by
    rw [run_bind, hremove, Outcome.bind_done, if_pos rfl, run_bind, run_store hrecord₁]
    rfl
  have hrelease : run t (lbReleasePlatform c) s = .done s false := by
    rw [lbReleasePlatform, run_bind, run_read hrecord, Outcome.bind_done]
    rfl
  have hlb : run t loadBalancing s = .done s s.loadBalancing := rfl
  rw [consumerDetach, run_bind, run_read hrecord, Outcome.bind_done, if_neg (by simp), run_bind, hlb,
    Outcome.bind_done]
  by_cases hb : s.loadBalancing = true
  · rw [if_pos hb, run_bind, hrelease, Outcome.bind_done]
    exact hlast
  · rw [if_neg hb]
    exact hlast

theorem consumerOut_sets {r : SetRef} (hr : r ≠ .consumers) :
    (s.consumerOut c).sets r = s.sets r := by
  rw [State.consumerOut, State.put_sets, State.putSet_sets_of_ne _ _ hr]

theorem Enrolled.run_consumerDestroy (h : Enrolled l s) (hc : l.consumers c = true) :
    run t (consumerDestroy c) (s.consumerOut c) = .done (s.consumerLeft c) true := by
  obtain ⟨hsound, hitems⟩ := h.consumers.allocations c hc
  let s₁ : State := s.consumerOut c
  have hrecord₁ : s₁.heap .consumer c = some ⟨false, none⟩ := State.put_heap_self ..
  have hsets₁ : ∀ r, r ≠ .consumers → s₁.sets r = s.sets r := fun r hr => consumerOut_sets hr
  have hunlocked₁ : s₁.setLock (.allocations c) = .free := h.unlocked _
  have hset₁ : s₁.sets (.allocations c) = s.sets (.allocations c) := hsets₁ _ (by simp)
  let s₂ : State := s₁.dropSet (.allocations c)
  have hunlocked₂ : s₂.setLock (.objectsOf c) = .free := h.unlocked _
  have hsound₂ : (s₂.sets (.objectsOf c)).damaged = false := by
    rw [State.dropSet_sets _ (by simp), hsets₁ _ (by simp), h.consumers.objectsOf c hc]
  have hrecord₃ : (s₂.dropSet (.objectsOf c)).heap .consumer c =
      some ⟨false, none⟩ := hrecord₁
  rw [consumerDestroy, run_bind, run_read hrecord₁, Outcome.bind_done, if_neg (by simp), run_bind,
    run_setStart hunlocked₁ (by rw [hset₁, hsound]), Outcome.bind_done, hset₁, hitems, List.map_nil,
    forEach, Prog.pure_bind', run_bind, run_setFinish hunlocked₁, Outcome.bind_done, run_bind,
    run_setDestroy_free hunlocked₁, Outcome.bind_done, run_bind, run_setStart hunlocked₂ hsound₂,
    Outcome.bind_done, run_bind, run_setFinish hunlocked₂, Outcome.bind_done, run_bind,
    run_setDestroy_free hunlocked₂, Outcome.bind_done, run_bind, run_free hrecord₃]
  rfl

theorem Enrolled.run_consumerLeaves (h : Enrolled l s) (hc : l.consumers c = true) :
    (PeerEvent.consumerLeaves c).run s =
      .done ((s.consumerLeft c).withPhase (.consumer c) .finished) none := by
  have hshutdown : run (.consumer c) (consumerShutdown c) s =
      .done ((s.consumerLeft c).withPhase (.consumer c) .finished) () := by
    rw [consumerShutdown, run_bind, h.run_consumerDetach hc, Outcome.bind_done, run_bind, run_assert,
      if_pos rfl, Outcome.bind_done, run_bind, h.run_consumerDestroy hc, Outcome.bind_done, run_bind,
      run_assert, if_pos rfl, Outcome.bind_done, run_setPhase]
  rw [PeerEvent.run, hshutdown, Outcome.bind_done]

theorem consumerLeft_consumer {d : Addr} (hd : d ≠ c) :
    (s.consumerLeft c).heap .consumer d = s.heap .consumer d := by
  rw [State.consumerLeft, State.put_heap_of_ne _ _ hd, State.dropSet_heap, State.dropSet_heap,
    State.consumerOut, State.put_heap_of_ne _ _ hd, State.putSet_heap]

theorem consumerLeft_heap {k : Kind} (hk : k ≠ .consumer) :
    (s.consumerLeft c).heap k = s.heap k := by
  rw [State.consumerLeft, State.put_heap_kind _ _ _ hk, State.dropSet_heap, State.dropSet_heap,
    State.consumerOut, State.put_heap_kind _ _ _ hk, State.putSet_heap]

theorem consumerLeft_consumers :
    (s.consumerLeft c).sets .consumers = (s.sets .consumers).erase c := by
  have hout : (s.consumerOut c).sets .consumers = (s.sets .consumers).erase c := by
    rw [State.consumerOut, State.put_sets, State.putSet_sets_self]
  rw [State.consumerLeft, State.put_sets, State.dropSet_sets _ (by simp),
    State.dropSet_sets _ (by simp), hout]

theorem consumerLeft_sets {r : SetRef} (hr : r ≠ .consumers) (ha : r ≠ .allocations c)
    (ho : r ≠ .objectsOf c) : (s.consumerLeft c).sets r = s.sets r := by
  rw [State.consumerLeft, State.put_sets, State.dropSet_sets _ ho, State.dropSet_sets _ ha,
    consumerOut_sets hr]

theorem Enrolled.consumersLeft (h : Enrolled l s) :
    ConsumersAre (Function.update l.consumers c false)
      ((s.consumerLeft c).withPhase (.consumer c) .finished) := by
  have hold : ∀ d, d ≠ c → Function.update l.consumers c false d = l.consumers d :=
    fun d hd => Function.update_of_ne hd ..
  have hself : Function.update l.consumers c false c = false := Function.update_self ..
  have hne : ∀ d, Function.update l.consumers c false d = true → d ≠ c := by
    rintro d hd rfl
    rw [hself] at hd
    cases hd
  constructor
  case sound =>
    rw [State.withPhase_sets, consumerLeft_consumers, IdSet.damaged_erase, h.consumers.sound]
  case entry =>
    intro key
    rw [State.withPhase_sets, consumerLeft_consumers, IdSet.lookup_erase]
    by_cases hk : key = c
    · rw [if_pos hk, hk, hself]
      rfl
    · rw [if_neg hk, h.consumers.entry, hold key hk]
  case record =>
    intro d hd
    have hdc := hne d hd
    rw [State.withPhase_heap, consumerLeft_consumer hdc, h.consumers.record d (hold d hdc ▸ hd)]
  case objectsOf =>
    intro d hd
    have hdc := hne d hd
    rw [State.withPhase_sets, consumerLeft_sets (by simp) (by simp) (by simpa using hdc)]
    exact h.consumers.objectsOf d (hold d hdc ▸ hd)
  case allocations =>
    intro d hd
    have hdc := hne d hd
    rw [State.withPhase_sets, consumerLeft_sets (by simp) (by simpa using hdc) (by simp)]
    exact h.consumers.allocations d (hold d hdc ▸ hd)
  case phase =>
    intro d hd
    by_cases hdc : d = c
    · rw [hdc, State.withPhase_self] at hd
      cases hd
    · rw [State.withPhase_of_ne _ _ _ (by simpa using hdc)] at hd
      rw [hold d hdc]
      exact h.consumers.phase d hd

theorem Enrolled.consumerGone (h : Enrolled l s) :
    Enrolled { l with consumers := Function.update l.consumers c false }
      ((s.consumerLeft c).withPhase (.consumer c) .finished) where
  fresh := by
    intro k a ha
    have hold : s.heap k a = none := h.fresh k a ha
    rw [State.withPhase_heap]
    by_cases hk : k = .consumer
    · subst hk
      by_cases hac : a = c
      · rw [State.consumerLeft, hac, State.put_heap_self]
      · rw [consumerLeft_consumer hac, hold]
    · rw [consumerLeft_heap hk, hold]
  unlocked := h.unlocked
  consumers := h.consumersLeft
  providers := by
    refine h.providers.frame ?_ ?_ ?_ (fun p => ?_) fun p => ?_
    · rw [State.withPhase_heap, consumerLeft_heap (by decide)]
    · rw [State.withPhase_heap, consumerLeft_heap (by decide)]
    · rw [State.withPhase_sets, consumerLeft_sets (by simp) (by simp) (by simp)]
    · rw [State.withPhase_sets, consumerLeft_sets (by simp) (by simp) (by simp)]
    · rw [State.withPhase_of_ne _ _ _ (by simp)]
      rfl

end

structure Steps (l : Roll) (s : State) (e : PeerEvent) (s' : State) (ans : Option Answer) :
    Prop where
  run : e.run s = .done s' ans
  enrolled : Enrolled (l.record e ans) s'
  goesOn : ∀ a, ans = some a → a.goesOn = true
  unchanged : ∀ a, ans = some a → a.type = Msg.nack →
    s'.sets .providers = s.sets .providers ∧ s'.sets .consumers = s.sets .consumers

theorem Steps.kept {e : PeerEvent} {ans : Option Answer} (h : Steps l s e s' ans) : e.Kept s :=
  ⟨s', ans, h.run, fun a ha => ⟨h.goesOn a ha, h.unchanged a ha⟩⟩

theorem ack_ne_nack : Msg.ack ≠ Msg.nack := by decide

theorem run_provider {fails : Option Obstacle} {a : Answer}
    (h : run .main (agentMainProvider fails addr) s = .done s' a) :
    (PeerEvent.provider addr fails).run s = .done s' (some a) := by
  rw [PeerEvent.run, h, Outcome.bind_done]

theorem run_consumer {fails : Option Obstacle} {a : Answer}
    (h : run .main (agentMainConsumer fails) s = .done s' a) :
    (PeerEvent.consumer fails).run s = .done s' (some a) := by
  rw [PeerEvent.run, h, Outcome.bind_done]

theorem Enrolled.provider_steps (h : Enrolled l s) {fails : Option Obstacle}
    (hu : (PeerEvent.provider addr fails).Unhindered s) :
    ∃ s' ans, Steps l s (.provider addr fails) s' ans := by
  cases hat : s.providerAt addr with
  | some q =>
    have hknown : (s.providerAt addr).isSome = true := by rw [hat, Option.isSome_some]
    have hcan : s.CanSend .listener := by simpa [PeerEvent.Unhindered, hat] using hu
    obtain ⟨n, hn⟩ := h.run_agentMainProvider_known (t := .main) hknown fails
    rw [decide_eq_true hcan] at hn
    refine ⟨_, _, run_provider hn, ?_, ?_, ?_⟩
    · exact h.withNet n
    · rintro a ⟨⟩
      rfl
    · rintro a ⟨⟩ -
      exact ⟨rfl, rfl⟩
  | none =>
    cases fails with
    | none =>
      have hcan : s.CanSend (.provider (s.next + 1)) := by
        simpa [PeerEvent.Unhindered, hat] using hu
      obtain ⟨n, hn⟩ := h.run_agentMainProvider_accepted (t := .main) hat
      rw [decide_eq_true hcan] at hn
      refine ⟨_, _, run_provider hn, ?_, ?_, ?_⟩
      · exact (h.providerAccepted hat .registering).withNet n
      · rintro a ⟨⟩
        rfl
      · rintro a ⟨⟩ hack
        exact absurd hack ack_ne_nack
    | some o =>
      cases o with
      | memory =>
        have hcan : s.CanSend (.provider s.next) := by
          simpa [PeerEvent.Unhindered, hat] using hu
        obtain ⟨n, hn⟩ := h.run_agentMainProvider_memory (t := .main) hat
        rw [decide_eq_true hcan] at hn
        refine ⟨_, _, run_provider hn, ?_, ?_, ?_⟩
        · exact h.withNext.withNet n
        · rintro a ⟨⟩
          rfl
        · rintro a ⟨⟩ -
          exact ⟨rfl, rfl⟩
      | peeloff => simp [PeerEvent.Unhindered, hat] at hu
      | thread => simp [PeerEvent.Unhindered, hat] at hu

theorem Enrolled.consumer_steps (h : Enrolled l s) {fails : Option Obstacle}
    (hu : (PeerEvent.consumer fails).Unhindered s) :
    ∃ s' ans, Steps l s (.consumer fails) s' ans := by
  cases fails with
  | none =>
    have hcan : s.CanSend (.consumer s.next) := hu
    obtain ⟨n, hn⟩ := h.run_agentMainConsumer_accepted (t := .main)
    rw [decide_eq_true hcan] at hn
    refine ⟨_, _, run_consumer hn, ?_, ?_, ?_⟩
    · exact h.consumerAccepted.withNet n
    · rintro a ⟨⟩
      rfl
    · rintro a ⟨⟩ hack
      exact absurd hack ack_ne_nack
  | some o =>
    cases o with
    | memory =>
      have hcan : s.CanSend (.consumer s.next) := hu
      obtain ⟨n, hn⟩ := h.run_agentMainConsumer_memory (t := .main)
      rw [decide_eq_true hcan] at hn
      refine ⟨_, _, run_consumer hn, ?_, ?_, ?_⟩
      · exact h.withNext.withNet n
      · rintro a ⟨⟩
        rfl
      · rintro a ⟨⟩ -
        exact ⟨rfl, rfl⟩
    | peeloff => exact absurd hu id
    | thread => exact absurd hu id

theorem Enrolled.steps (h : Enrolled l s) {e : PeerEvent} (hp : e.Possible s)
    (hu : e.Unhindered s) : ∃ s' ans, Steps l s e s' ans := by
  cases e with
  | provider addr fails => exact h.provider_steps hu
  | consumer fails => exact h.consumer_steps hu
  | providerLeaves p =>
    have hphase : s.phase (.provider p) = .registering ∨ s.phase (.provider p) = .serving := by
      simpa [PeerEvent.Possible, reaches] using hp
    obtain ⟨addr, haddr⟩ := Option.isSome_iff_exists.mp (h.providers.phase p hphase)
    obtain ⟨lock, hrecord, hrun⟩ := h.run_providerLeaves haddr
    refine ⟨_, _, hrun, h.providerGone haddr hrecord, ?_, ?_⟩
    · rintro a ⟨⟩
    · rintro a ⟨⟩
  | consumerLeaves c =>
    have hphase : s.phase (.consumer c) = .serving := by
      simpa [PeerEvent.Possible, reaches] using hp
    refine ⟨_, _, h.run_consumerLeaves (h.consumers.phase c hphase), h.consumerGone, ?_, ?_⟩
    · rintro a ⟨⟩
    · rintro a ⟨⟩

/-- An answer that shows the event was hindered: `agent_main` stops, or a table has changed
although the answer is a `NACK`. -/
theorem not_kept {e : PeerEvent} {a : Answer} (hrun : e.run s = .done s' (some a))
    (h : a.goesOn = false ∨ a.type = Msg.nack ∧
      (s'.sets .providers ≠ s.sets .providers ∨ s'.sets .consumers ≠ s.sets .consumers)) :
    ¬ e.Kept s := by
  rintro ⟨s₁, ans, hrun₁, hkept⟩
  obtain ⟨rfl, rfl⟩ := Outcome.done.inj (hrun.symm.trans hrun₁)
  obtain ⟨hgoes, hsame⟩ := hkept a rfl
  rcases h with h | ⟨hnack, hp | hc⟩
  · rw [h] at hgoes
    cases hgoes
  · exact hp (hsame hnack).1
  · exact hc (hsame hnack).2

theorem Enrolled.provider_kept (h : Enrolled l s) {fails : Option Obstacle}
    (hu : ¬ (PeerEvent.provider addr fails).Unhindered s) :
    ¬ (PeerEvent.provider addr fails).Kept s := by
  cases hat : s.providerAt addr with
  | some q =>
    have hknown : (s.providerAt addr).isSome = true := by rw [hat, Option.isSome_some]
    have hcan : ¬ s.CanSend .listener := by simpa [PeerEvent.Unhindered, hat] using hu
    obtain ⟨n, hn⟩ := h.run_agentMainProvider_known (t := .main) hknown fails
    exact not_kept (run_provider hn) (.inl (decide_eq_false hcan))
  | none =>
    cases fails with
    | none =>
      have hcan : ¬ s.CanSend (.provider (s.next + 1)) := by
        simpa [PeerEvent.Unhindered, hat] using hu
      obtain ⟨n, hn⟩ := h.run_agentMainProvider_accepted (t := .main) hat
      exact not_kept (run_provider hn) (.inl (decide_eq_false hcan))
    | some o =>
      cases o with
      | memory =>
        have hcan : ¬ s.CanSend (.provider s.next) := by
          simpa [PeerEvent.Unhindered, hat] using hu
        obtain ⟨n, hn⟩ := h.run_agentMainProvider_memory (t := .main) hat
        exact not_kept (run_provider hn) (.inl (decide_eq_false hcan))
      | peeloff =>
        exact not_kept (run_provider (h.run_agentMainProvider_peeloff hat)) (.inl rfl)
      | thread =>
        obtain ⟨n, hn⟩ := h.run_agentMainProvider_thread (t := .main) hat
        refine not_kept (run_provider hn) (.inr ⟨rfl, .inl fun hsame => ?_⟩)
        have hmem : s.next + 1 ∈ (s.providerAdded addr).sets .providers := by
          rw [providerAdded_providers, IdSet.mem_add h.new_not_mem]
          exact .inl rfl
        rw [State.withNet_sets] at hsame
        rw [hsame] at hmem
        exact h.new_not_mem hmem

theorem Enrolled.consumer_kept (h : Enrolled l s) {fails : Option Obstacle}
    (hu : ¬ (PeerEvent.consumer fails).Unhindered s) : ¬ (PeerEvent.consumer fails).Kept s := by
  cases fails with
  | none =>
    have hcan : ¬ s.CanSend (.consumer s.next) := hu
    obtain ⟨n, hn⟩ := h.run_agentMainConsumer_accepted (t := .main)
    exact not_kept (run_consumer hn) (.inl (decide_eq_false hcan))
  | some o =>
    cases o with
    | memory =>
      have hcan : ¬ s.CanSend (.consumer s.next) := hu
      obtain ⟨n, hn⟩ := h.run_agentMainConsumer_memory (t := .main)
      exact not_kept (run_consumer hn) (.inl (decide_eq_false hcan))
    | peeloff => exact not_kept (run_consumer run_agentMainConsumer_peeloff) (.inl rfl)
    | thread =>
      obtain ⟨n, hn⟩ := h.run_agentMainConsumer_thread (t := .main)
      refine not_kept (run_consumer hn) (.inr ⟨rfl, .inr fun hsame => ?_⟩)
      have hmem : s.next ∈ s.consumerAdded.sets .consumers := by
        rw [consumerAdded_consumers, IdSet.mem_add h.consumer_new_not_mem]
        exact .inl rfl
      rw [State.withNet_sets] at hsame
      rw [hsame] at hmem
      exact h.consumer_new_not_mem hmem

theorem Enrolled.kept_iff (h : Enrolled l s) {e : PeerEvent} (hp : e.Possible s) :
    e.Kept s ↔ e.Unhindered s := by
  constructor
  · intro hkept
    by_contra hu
    cases e with
    | provider addr fails => exact h.provider_kept hu hkept
    | consumer fails => exact h.consumer_kept hu hkept
    | providerLeaves p => exact hu trivial
    | consumerLeaves c => exact hu trivial
  · intro hu
    obtain ⟨s', ans, hsteps⟩ := h.steps hp hu
    exact hsteps.kept

theorem enrolled_initial (candidates : ℕ → Candidate) (loadBalancing : Bool)
    (memory : Addr → ℕ → Bool) (n : Net Sd) :
    Enrolled .empty ((State.initial candidates loadBalancing memory).withNet n) where
  fresh _ _ _ := rfl
  unlocked _ := rfl
  providers := by
    constructor
    case sound => rfl
    case entry => exact fun _ => rfl
    case record => exact fun p addr hp => absurd hp (by simp [Roll.empty])
    case lock_ne => exact fun p _ _ _ hp => absurd hp (by simp [Roll.empty])
    case platforms => exact fun p hp => absurd hp (by simp [Roll.empty])
    case host => exact fun p _ addr hp => absurd hp (by simp [Roll.empty])
    case phase => exact fun p hp => absurd hp (by simp [State.initial, State.withNet])
  consumers := by
    constructor
    case sound => rfl
    case entry => exact fun _ => rfl
    case record => exact fun c hc => absurd hc (by simp [Roll.empty])
    case objectsOf => exact fun c hc => absurd hc (by simp [Roll.empty])
    case allocations => exact fun c hc => absurd hc (by simp [Roll.empty])
    case phase => exact fun c hc => absurd hc (by simp [State.initial, State.withNet])

theorem enrolled_of_reach {init : State} (hinit : Enrolled .empty init)
    (h : RollReach (fun s e => e.Unhindered s) init s l) : Enrolled l s := by
  induction h with
  | refl => exact hinit
  | event e _ hp hu hrun ih =>
    obtain ⟨s₁, ans₁, hsteps⟩ := ih.steps hp hu
    obtain ⟨rfl, rfl⟩ := Outcome.done.inj (hrun.symm.trans hsteps.run)
    exact hsteps.enrolled

theorem Enrolled.law (h : Enrolled l s) : AllOrNothing l s := by
  constructor
  case members => exact fun p => h.providers.mem_iff
  case host =>
    intro p addr hp
    obtain ⟨lock, hrecord, -⟩ := h.providers.record p addr hp
    exact ⟨_, hrecord, rfl⟩
  case onePerHost =>
    intro p q provider provider' hp hq hrecord hrecord' haddr
    obtain ⟨addr, hpr⟩ := Option.isSome_iff_exists.mp (h.providers.mem_iff.mp hp)
    obtain ⟨addr', hqr⟩ := Option.isSome_iff_exists.mp (h.providers.mem_iff.mp hq)
    obtain ⟨lock, hp', -⟩ := h.providers.record p addr hpr
    obtain ⟨lock', hq', -⟩ := h.providers.record q addr' hqr
    obtain rfl := Option.some.inj (hrecord.symm.trans hp')
    obtain rfl := Option.some.inj (hrecord'.symm.trans hq')
    have hsame : addr = addr' := haddr
    rw [← hsame] at hqr
    exact h.providers.host p q addr hpr hqr
  case event => exact fun e hp => h.kept_iff hp
  case later =>
    intro addr hnew hu
    have hat : s.providerAt addr = none := by
      cases hat : s.providerAt addr with
      | none => rfl
      | some p => exact absurd (h.providers.providerAt_iff.mp hat) (hnew p)
    have hcan : s.CanSend (.provider (s.next + 1)) := by
      simpa [PeerEvent.Unhindered, hat] using hu
    obtain ⟨n, hn⟩ := h.run_agentMainProvider_accepted (t := .main) hat
    rw [decide_eq_true hcan] at hn
    exact ⟨_, _, run_provider hn⟩

end

end Clara.Agent
