import Clara.Agent.Store

/-! Registration of providers and consumers in `agent_main`, with the calls that can fail, over
sequences of registrations and disconnects. A ledger records who was accepted and has not left. -/
namespace Clara.Agent

open Conc

/-- A message to `agent_main`, or the end of a connection. -/
inductive PeerEvent
  | provider (addr : UInt32) (fails : Option Obstacle)
  | consumer (fails : Option Obstacle)
  | providerLeaves (p : Addr)
  | consumerLeaves (c : Addr)

namespace PeerEvent

def run : PeerEvent → State → Outcome State Fault (Option Answer)
  | .provider addr fails, s =>
    (Agent.run .main (agentMainProvider fails addr) s).bind fun s a => .done s (some a)
  | .consumer fails, s =>
    (Agent.run .main (agentMainConsumer fails) s).bind fun s a => .done s (some a)
  | .providerLeaves p, s =>
    (Agent.run (.provider p) (agentProviderHandler p .shutdown) s).bind fun s _ => .done s none
  | .consumerLeaves c, s =>
    (Agent.run (.consumer c) (consumerShutdown c) s).bind fun s _ => .done s none

/-- A connection that ends has a thread. -/
def Possible : PeerEvent → State → Prop
  | .provider _ _, _ | .consumer _, _ => True
  | .providerLeaves p, s => reaches (.provider p) (.provider .shutdown) s = true
  | .consumerLeaves c, s => reaches (.consumer c) (.consumer .shutdown) s = true

end PeerEvent

/-- Who was answered with `ACK` and has not disconnected; for providers with their host. -/
structure Roll where
  providers : Addr → Option UInt32
  consumers : Addr → Bool

def Roll.empty : Roll := ⟨fun _ => none, fun _ => false⟩

def Roll.record (l : Roll) : PeerEvent → Option Answer → Roll
  | .provider addr _, some ⟨some (.provider p), type, _⟩ =>
    if type = Msg.ack then
      { l with providers := Function.update l.providers p (some addr) }
    else l
  | .consumer _, some ⟨some (.consumer c), type, _⟩ =>
    if type = Msg.ack then { l with consumers := Function.update l.consumers c true } else l
  | .providerLeaves p, _ => { l with providers := Function.update l.providers p none }
  | .consumerLeaves c, _ => { l with consumers := Function.update l.consumers c false }
  | _, _ => l

/-- The states and rolls after sequences of events that satisfy `allow`. -/
inductive RollReach (allow : State → PeerEvent → Prop) (init : State) : State → Roll → Prop
  | refl : RollReach allow init init .empty
  | event {s s' : State} {l : Roll} {ans : Option Answer} (e : PeerEvent)
      (h : RollReach allow init s l) (hp : e.Possible s) (ha : allow s e)
      (hr : e.run s = .done s' ans) : RollReach allow init s' (l.record e ans)

def State.providerAt (s : State) (addr : UInt32) : Option Addr :=
  ((s.sets .providers).items.map Prod.snd).find? fun a =>
    (s.heap .provider a).any fun p => p.addr == addr

def State.withPhase (s : State) (t : Tid) (ph : Phase) : State :=
  { s with phase := Function.update s.phase t ph }

section
variable (s : State) (t : Tid) (ph : Phase)

@[simp] theorem State.withPhase_heap : (s.withPhase t ph).heap = s.heap := rfl

@[simp] theorem State.withPhase_sets : (s.withPhase t ph).sets = s.sets := rfl

@[simp] theorem State.withPhase_self : (s.withPhase t ph).phase t = ph := Function.update_self ..

theorem State.withPhase_of_ne {u : Tid} (h : u ≠ t) : (s.withPhase t ph).phase u = s.phase u :=
  Function.update_of_ne h ..

end

def State.withNext (s : State) (n : Addr) : State := { s with next := n }

@[simp] theorem State.withNext_heap (s : State) (n : Addr) : (s.withNext n).heap = s.heap := rfl

@[simp] theorem State.withNext_put (s : State) (n : Addr) {k : Kind} (a : Addr)
    (v : Option k.Rec) : (s.withNext n).put k a v = (s.put k a v).withNext n := rfl

theorem run_setPhase {t u : Tid} {s : State} (ph : Phase) :
    run t (setPhase u ph) s = .done (s.withPhase u ph) () := rfl

def State.CanSend (s : State) (sd : Sd) : Prop := (s.net sd).sendFails.head? ≠ some true

instance (s : State) (sd : Sd) : Decidable (s.CanSend sd) :=
  inferInstanceAs (Decidable (_ ≠ _))

section
variable {t : Tid} {s : State}

theorem run_agentAnswer (sd : Sd) (type : MessageType) :
    ∃ n, run t (agentAnswer (some sd) type) s =
      .done (s.withNet n) ⟨some sd, type, decide (s.CanSend sd)⟩ := by
  rw [agentAnswer, run_bind, run_net]
  by_cases hcan : s.CanSend sd
  · rw [Net.run_claraSendmsg_sent hcan, decide_eq_true hcan]
    exact ⟨_, rfl⟩
  · have hfails : (s.net sd).sendFails.head? = some true := not_not.mp hcan
    rw [Net.run_claraSendmsg_failed hfails, decide_eq_false hcan]
    exact ⟨_, rfl⟩

end

/-- The table of the providers holds those of `f`, whose records are intact. -/
structure ProvidersAre (f : Addr → Option UInt32) (s : State) : Prop where
  sound : (s.sets .providers).damaged = false
  entry : ∀ key, (s.sets .providers).lookup key = if (f key).isSome then some key else none
  record : ∀ p addr, f p = some addr → ∃ lock, s.heap .provider p = some ⟨addr, lock, true⟩ ∧
    s.heap .lock lock = some .free
  lock_ne : ∀ p q provider provider', (f p).isSome → (f q).isSome →
    s.heap .provider p = some provider → s.heap .provider q = some provider' → p ≠ q →
    provider.lock ≠ provider'.lock
  platforms : ∀ p, (f p).isSome → (s.sets (.platforms p)).damaged = false ∧
    (s.sets (.platforms p)).items = []
  host : ∀ p q addr, f p = some addr → f q = some addr → p = q
  phase : ∀ p, s.phase (.provider p) = .registering ∨ s.phase (.provider p) = .serving →
    (f p).isSome

/-- The table of the consumers holds those of `g`, whose records are intact. -/
structure ConsumersAre (g : Addr → Bool) (s : State) : Prop where
  sound : (s.sets .consumers).damaged = false
  entry : ∀ key, (s.sets .consumers).lookup key = if g key then some key else none
  record : ∀ c, g c = true → s.heap .consumer c = some ⟨true, none⟩
  objectsOf : ∀ c, g c = true → (s.sets (.objectsOf c)).damaged = false
  allocations : ∀ c, g c = true → (s.sets (.allocations c)).damaged = false ∧
    (s.sets (.allocations c)).items = []
  phase : ∀ c, s.phase (.consumer c) = .serving → g c = true

/-- The tables hold whom the roll names, and no thread holds a lock of a table. -/
structure Enrolled (l : Roll) (s : State) : Prop where
  fresh : s.Fresh
  unlocked : ∀ r, s.setLock r = .free
  providers : ProvidersAre l.providers s
  consumers : ConsumersAre l.consumers s

section
variable {s s' : State} {l : Roll} {f : Addr → Option UInt32} {g : Addr → Bool} {p : Addr}
  {addr : UInt32} {t : Tid}

theorem ProvidersAre.mem_iff (h : ProvidersAre f s) :
    p ∈ s.sets .providers ↔ (f p).isSome = true := by
  rw [IdSet.mem_iff, h.entry]
  by_cases hp : (f p).isSome = true
  · simp [hp]
  · simp [hp]

theorem ConsumersAre.mem_iff (h : ConsumersAre g s) {c : Addr} :
    c ∈ s.sets .consumers ↔ g c = true := by
  rw [IdSet.mem_iff, h.entry]
  by_cases hc : g c = true
  · simp [hc]
  · simp [hc]

/-- An entry of the table is somebody on the roll. -/
theorem ProvidersAre.of_lookup (h : ProvidersAre f s) {key a : Addr}
    (hk : (s.sets .providers).lookup key = some a) : a = key ∧ ∃ addr, f key = some addr := by
  rw [h.entry] at hk
  split_ifs at hk with hf
  exact ⟨(Option.some.inj hk).symm, Option.isSome_iff_exists.mp hf⟩

theorem ProvidersAre.any_addr (h : ProvidersAre f s) {addr' : UInt32} (hp : f p = some addr') :
    ((s.heap .provider p).any fun p => p.addr == addr) = true ↔ addr' = addr := by
  obtain ⟨lock, hrecord, -⟩ := h.record p addr' hp
  rw [hrecord, Option.any_some, beq_iff_eq]

theorem ProvidersAre.providerAt_iff (h : ProvidersAre f s) :
    s.providerAt addr = some p ↔ f p = some addr := by
  constructor
  · intro hat
    obtain ⟨x, hx, rfl⟩ := List.mem_map.mp (List.mem_of_find?_eq_some hat)
    obtain ⟨hkey, addr', haddr⟩ := h.of_lookup (IdSet.mem_items.mp hx)
    have htest := List.find?_some hat
    rw [hkey] at htest
    rw [hkey, haddr, (h.any_addr haddr).mp htest]
  · intro hp
    have hfind : s.providerAt addr = (s.sets .providers).lookup p := by
      refine find_items fun k a hk => ?_
      obtain ⟨rfl, addr', haddr⟩ := h.of_lookup hk
      rw [h.any_addr haddr]
      constructor
      · intro heq
        exact h.host a p addr (heq ▸ haddr) hp
      · intro heq
        rw [heq, hp] at haddr
        exact (Option.some.inj haddr).symm
    rw [hfind, h.entry, hp]
    rfl

/-- Looking for a host visits the table and leaves it as it was. -/
theorem Enrolled.run_find (h : Enrolled l s) :
    run t (agentFindProviderWithAddr addr) s = .done s (s.providerAt addr) := by
  have hvisit : ∀ a ∈ (s.sets .providers).items.map Prod.snd,
      run t (do
        let p ← read .provider a
        pure (p.addr == addr) : AProg Bool) (s.putLock .providers ⟨some t, 1⟩) =
      .done (s.putLock .providers ⟨some t, 1⟩)
        ((s.heap .provider a).any fun p => p.addr == addr) := by
    intro a ha
    obtain ⟨x, hx, rfl⟩ := List.mem_map.mp ha
    obtain ⟨hkey, addr', haddr⟩ := h.providers.of_lookup (IdSet.mem_items.mp hx)
    obtain ⟨lock, hrecord, -⟩ := h.providers.record x.1 addr' haddr
    rw [← hkey] at hrecord
    have hread : (s.putLock .providers ⟨some t, 1⟩).heap .provider x.2 = _ := hrecord
    rw [run_bind, run_read hread, Outcome.bind_done, hrecord]
    rfl
  rw [agentFindProviderWithAddr, run_bind, run_setStart (h.unlocked _) h.providers.sound,
    Outcome.bind_done, run_bind, run_findFirst hvisit, Outcome.bind_done, run_bind,
    run_setFinish (h.unlocked _), Outcome.bind_done]
  rfl

def State.providerMade (s : State) (addr : UInt32) : State :=
  (((s.put .lock s.next (some .free)).put .provider (s.next + 1)
    (some ⟨addr, s.next, false⟩)).withNext (s.next + 2)).putSet (.platforms (s.next + 1)) .empty

def State.providerAdded (s : State) (addr : UInt32) : State :=
  ((s.providerMade addr).putSet .providers
    ((s.sets .providers).add (s.next + 1) (s.next + 1))).put .provider (s.next + 1)
      (some ⟨addr, s.next, true⟩)

theorem run_providerCreate :
    run t (providerCreate addr) s = .done (s.providerMade addr) (s.next + 1) := by
  rw [providerCreate, run_bind, lockCreate, run_new, Outcome.bind_done, run_bind, run_new]
  rfl

theorem providerMade_record :
    (s.providerMade addr).heap .provider (s.next + 1) = some ⟨addr, s.next, false⟩ := by
  rw [State.providerMade, State.putSet_heap, State.withNext_heap, State.put_heap_self]

theorem providerMade_providers : (s.providerMade addr).sets .providers = s.sets .providers := by
  rw [State.providerMade, State.putSet_sets_of_ne _ _ (by simp)]
  rfl

theorem Enrolled.new_not_mem (h : Enrolled l s) : s.next + 1 ∉ s.sets .providers := by
  rw [h.providers.mem_iff]
  intro hsome
  obtain ⟨addr, haddr⟩ := Option.isSome_iff_exists.mp hsome
  obtain ⟨lock, hrecord, -⟩ := h.providers.record _ addr haddr
  exact absurd (h.fresh.lt hrecord) (Nat.not_lt.mpr (Nat.le_succ _))

theorem Enrolled.run_providerAttach (h : Enrolled l s) :
    run t (providerAttach (s.next + 1)) (s.providerMade addr) =
      .done (s.providerAdded addr) true := by
  have hu : Usable t .providers (s.providerMade addr) := by
    constructor
    · rw [providerMade_providers, h.providers.sound]
    · have hlock : (s.providerMade addr).setLock .providers = .free := h.unlocked _
      rw [hlock]
      rfl
  have hnew := h.new_not_mem
  have hrecord : ((s.providerMade addr).putSet .providers
      ((s.sets .providers).add (s.next + 1) (s.next + 1))).heap .provider (s.next + 1) =
      some ⟨addr, s.next, false⟩ := providerMade_record
  rw [providerAttach, run_bind, run_setInsert hu, Outcome.bind_done, providerMade_providers,
    decide_eq_true hnew, if_pos rfl, run_bind, run_store hrecord]
  rfl

/-- The answers to a provider. The first message is from a host that is known. -/
theorem Enrolled.run_agentMainProvider_known (h : Enrolled l s)
    (hknown : (s.providerAt addr).isSome = true) (fails : Option Obstacle) :
    ∃ n, run t (agentMainProvider fails addr) s =
      .done (s.withNet n) ⟨some .listener, Msg.nack, decide (s.CanSend .listener)⟩ := by
  obtain ⟨p, hp⟩ := Option.isSome_iff_exists.mp hknown
  obtain ⟨n, hn⟩ := run_agentAnswer (t := t) (s := s) .listener Msg.nack
  refine ⟨n, ?_⟩
  rw [agentMainProvider, run_bind, h.run_find, Outcome.bind_done, hp, hn]

theorem Enrolled.run_agentMainProvider_peeloff (h : Enrolled l s)
    (hnew : s.providerAt addr = none) :
    run t (agentMainProvider (some .peeloff) addr) s = .done s ⟨none, Msg.nack, false⟩ := by
  rw [agentMainProvider, run_bind, h.run_find, Outcome.bind_done, hnew, if_pos rfl]
  rfl

theorem Enrolled.run_agentMainProvider_memory (h : Enrolled l s)
    (hnew : s.providerAt addr = none) :
    ∃ n, run t (agentMainProvider (some .memory) addr) s =
      .done ((s.withNext (s.next + 1)).withNet n)
        ⟨some (.provider s.next), Msg.nack, decide (s.CanSend (.provider s.next))⟩ := by
  have hcreate : run t (providerCreateFailed addr) s =
      .done (s.withNext (s.next + 1)) s.next := by
    let s₁ : State := s.put .provider s.next (some ⟨addr, 0, false⟩)
    have hrecord : (s₁.withNext (s.next + 1)).heap .provider s.next = some ⟨addr, 0, false⟩ := by
      rw [State.withNext_heap, State.put_heap_self]
    have hput : s₁.put .provider s.next none = s := by
      rw [State.put_put, State.put_self (h.fresh .provider s.next le_rfl)]
    have hfree : run t (free .provider s.next) (s₁.withNext (s.next + 1)) =
        .done (s.withNext (s.next + 1)) () := by
      rw [run_free hrecord, State.withNext_put, hput]
    rw [providerCreateFailed, run_bind, run_new, Outcome.bind_done, run_bind]
    exact congrArg (Outcome.bind · _) hfree
  obtain ⟨n, hn⟩ := run_agentAnswer (t := t) (s := s.withNext (s.next + 1))
    (.provider s.next) Msg.nack
  refine ⟨n, ?_⟩
  rw [agentMainProvider, run_bind, h.run_find, Outcome.bind_done, hnew, if_neg (by decide),
    if_pos rfl, run_bind, hcreate, Outcome.bind_done, hn]
  rfl

theorem Enrolled.run_agentMainProvider_thread (h : Enrolled l s)
    (hnew : s.providerAt addr = none) :
    ∃ n, run t (agentMainProvider (some .thread) addr) s =
      .done ((s.providerAdded addr).withNet n)
        ⟨some (.provider (s.next + 1)), Msg.nack, decide (s.CanSend (.provider (s.next + 1)))⟩ := by
  obtain ⟨n, hn⟩ := run_agentAnswer (t := t) (s := s.providerAdded addr)
    (.provider (s.next + 1)) Msg.nack
  refine ⟨n, ?_⟩
  rw [agentMainProvider, run_bind, h.run_find, Outcome.bind_done, hnew, if_neg (by decide),
    if_neg (by decide), run_bind, run_providerCreate, Outcome.bind_done, run_bind,
    h.run_providerAttach, Outcome.bind_done, if_pos rfl, if_pos rfl, hn]
  rfl

theorem Enrolled.run_agentMainProvider_accepted (h : Enrolled l s)
    (hnew : s.providerAt addr = none) :
    ∃ n, run t (agentMainProvider none addr) s =
      .done ((s.providerAdded addr).withPhase (.provider (s.next + 1)) .registering |>.withNet n)
        ⟨some (.provider (s.next + 1)), Msg.ack, decide (s.CanSend (.provider (s.next + 1)))⟩ := by
  obtain ⟨n, hn⟩ := run_agentAnswer (t := t)
    (s := (s.providerAdded addr).withPhase (.provider (s.next + 1)) .registering)
    (.provider (s.next + 1)) Msg.ack
  refine ⟨n, ?_⟩
  rw [agentMainProvider, run_bind, h.run_find, Outcome.bind_done, hnew, if_neg (by decide),
    if_neg (by decide), run_bind, run_providerCreate, Outcome.bind_done, run_bind,
    h.run_providerAttach, Outcome.bind_done, if_pos rfl, if_neg (by decide), run_bind, run_setPhase,
    Outcome.bind_done, hn]
  rfl

theorem ProvidersAre.frame (h : ProvidersAre f s) (hrecords : s'.heap .provider = s.heap .provider)
    (hlocks : s'.heap .lock = s.heap .lock) (hset : s'.sets .providers = s.sets .providers)
    (hsets : ∀ p, s'.sets (.platforms p) = s.sets (.platforms p))
    (hphase : ∀ p, s'.phase (.provider p) = s.phase (.provider p)) : ProvidersAre f s' where
  sound := by rw [hset, h.sound]
  entry := by rw [hset]; exact h.entry
  record := by rw [hrecords, hlocks]; exact h.record
  lock_ne := by rw [hrecords]; exact h.lock_ne
  platforms p hp := by rw [hsets]; exact h.platforms p hp
  host := h.host
  phase p hp := by rw [hphase] at hp; exact h.phase p hp

theorem ConsumersAre.frame (h : ConsumersAre g s) (hrecords : s'.heap .consumer = s.heap .consumer)
    (hset : s'.sets .consumers = s.sets .consumers)
    (hobjects : ∀ c, s'.sets (.objectsOf c) = s.sets (.objectsOf c))
    (hallocations : ∀ c, s'.sets (.allocations c) = s.sets (.allocations c))
    (hphase : ∀ c, s'.phase (.consumer c) = s.phase (.consumer c)) : ConsumersAre g s' where
  sound := by rw [hset, h.sound]
  entry := by rw [hset]; exact h.entry
  record := by rw [hrecords]; exact h.record
  objectsOf c hc := by rw [hobjects]; exact h.objectsOf c hc
  allocations c hc := by rw [hallocations]; exact h.allocations c hc
  phase c hc := by rw [hphase] at hc; exact h.phase c hc

theorem Enrolled.withNet (h : Enrolled l s) (n : Net Sd) : Enrolled l (s.withNet n) where
  fresh := h.fresh
  unlocked := h.unlocked
  providers := h.providers.frame rfl rfl rfl (fun _ => rfl) fun _ => rfl
  consumers := h.consumers.frame rfl rfl (fun _ => rfl) (fun _ => rfl) fun _ => rfl

theorem Enrolled.withNext (h : Enrolled l s) : Enrolled l (s.withNext (s.next + 1)) where
  fresh k a ha := h.fresh k a (le_trans (Nat.le_succ _) ha)
  unlocked := h.unlocked
  providers := h.providers.frame rfl rfl rfl (fun _ => rfl) fun _ => rfl
  consumers := h.consumers.frame rfl rfl (fun _ => rfl) (fun _ => rfl) fun _ => rfl

@[simp] theorem providerAdded_provider_self :
    (s.providerAdded addr).heap .provider (s.next + 1) = some ⟨addr, s.next, true⟩ := by
  rw [State.providerAdded, State.put_heap_self]

theorem providerAdded_provider (hp : p ≠ s.next + 1) :
    (s.providerAdded addr).heap .provider p = s.heap .provider p := by
  rw [State.providerAdded, State.put_heap_of_ne _ _ hp, State.putSet_heap, State.providerMade,
    State.putSet_heap, State.withNext_heap, State.put_heap_of_ne _ _ hp,
    State.put_heap_kind _ _ _ (by decide)]

theorem providerAdded_lock : (s.providerAdded addr).heap .lock =
    (s.put .lock s.next (some .free)).heap .lock := by
  rw [State.providerAdded, State.put_heap_kind _ _ _ (by decide), State.putSet_heap,
    State.providerMade, State.putSet_heap, State.withNext_heap, State.put_heap_kind _ _ _ (by decide)]

theorem providerAdded_heap {k : Kind} (hp : k ≠ .provider) (hl : k ≠ .lock) :
    (s.providerAdded addr).heap k = s.heap k := by
  rw [State.providerAdded, State.put_heap_kind _ _ _ hp, State.putSet_heap, State.providerMade,
    State.putSet_heap, State.withNext_heap, State.put_heap_kind _ _ _ hp,
    State.put_heap_kind _ _ _ hl]

theorem providerAdded_providers : (s.providerAdded addr).sets .providers =
    (s.sets .providers).add (s.next + 1) (s.next + 1) := by
  rw [State.providerAdded, State.put_sets, State.putSet_sets_self]

theorem providerAdded_platforms_self :
    (s.providerAdded addr).sets (.platforms (s.next + 1)) = .empty := by
  rw [State.providerAdded, State.put_sets, State.putSet_sets_of_ne _ _ (by simp),
    State.providerMade, State.putSet_sets_self]

theorem providerAdded_sets {r : SetRef} (hr : r ≠ .providers) (hr' : r ≠ .platforms (s.next + 1)) :
    (s.providerAdded addr).sets r = s.sets r := by
  rw [State.providerAdded, State.put_sets, State.putSet_sets_of_ne _ _ hr, State.providerMade,
    State.putSet_sets_of_ne _ _ hr']
  rfl

theorem Enrolled.lock_lt (h : Enrolled l s) {provider : Provider}
    (hp : (l.providers p).isSome = true) (hrecord : s.heap .provider p = some provider) :
    provider.lock < s.next := by
  obtain ⟨addr, haddr⟩ := Option.isSome_iff_exists.mp hp
  obtain ⟨lock, hrecord', hlock⟩ := h.providers.record p addr haddr
  obtain rfl := Option.some.inj (hrecord.symm.trans hrecord')
  exact h.fresh.lt hlock

theorem Enrolled.providersAdded (h : Enrolled l s) (hnew : s.providerAt addr = none)
    (ph : Phase) :
    ProvidersAre (Function.update l.providers (s.next + 1) (some addr))
      ((s.providerAdded addr).withPhase (.provider (s.next + 1)) ph) := by
  have hold : ∀ p, p ≠ s.next + 1 →
      Function.update l.providers (s.next + 1) (some addr) p = l.providers p :=
    fun p hp => Function.update_of_ne hp ..
  have hself : Function.update l.providers (s.next + 1) (some addr) (s.next + 1) = some addr :=
    Function.update_self ..
  have hunknown : ∀ p, l.providers p ≠ some addr := by
    intro p hp
    rw [h.providers.providerAt_iff.mpr hp] at hnew
    cases hnew
  have hlocks : ∀ a, s.heap .lock a = some .free →
      (s.providerAdded addr).heap .lock a = some .free := by
    intro a ha
    rw [providerAdded_lock]
    by_cases hn : a = s.next
    · rw [hn, State.put_heap_self]
    · rw [State.put_heap_of_ne _ _ hn, ha]
  have hlt : ∀ p provider, p ≠ s.next + 1 →
      (Function.update l.providers (s.next + 1) (some addr) p).isSome = true →
      (s.providerAdded addr).heap .provider p = some provider → provider.lock < s.next := by
    intro p provider hp hsome hrecord
    rw [hold p hp] at hsome
    rw [providerAdded_provider hp] at hrecord
    exact h.lock_lt hsome hrecord
  constructor
  case sound =>
    rw [State.withPhase_sets, providerAdded_providers, IdSet.damaged_add,
      decide_eq_false h.new_not_mem, h.providers.sound]
    rfl
  case entry =>
    intro key
    rw [State.withPhase_sets, providerAdded_providers, IdSet.lookup_add h.new_not_mem]
    by_cases hk : key = s.next + 1
    · rw [if_pos hk, hk, hself]
      rfl
    · rw [if_neg hk, h.providers.entry, hold key hk]
  case record =>
    intro p addr' hp
    rw [State.withPhase_heap]
    by_cases hp' : p = s.next + 1
    · rw [hp', hself] at hp
      obtain rfl := Option.some.inj hp
      refine ⟨s.next, ?_, ?_⟩
      · rw [hp', providerAdded_provider_self]
      · rw [providerAdded_lock, State.put_heap_self]
    · rw [hold p hp'] at hp
      obtain ⟨lock, hrecord, hlock⟩ := h.providers.record p addr' hp
      rw [providerAdded_provider hp']
      exact ⟨lock, hrecord, hlocks lock hlock⟩
  case lock_ne =>
    intro p q provider provider' hp hq hrecord hrecord' hne
    rw [State.withPhase_heap] at hrecord hrecord'
    by_cases hp' : p = s.next + 1
    · have hq' : q ≠ s.next + 1 := hp' ▸ hne.symm
      rw [hp', providerAdded_provider_self] at hrecord
      obtain rfl := Option.some.inj hrecord
      exact (hlt q provider' hq' hq hrecord').ne'
    · by_cases hq' : q = s.next + 1
      · rw [hq', providerAdded_provider_self] at hrecord'
        obtain rfl := Option.some.inj hrecord'
        exact (hlt p provider hp' hp hrecord).ne
      · rw [hold p hp'] at hp
        rw [hold q hq'] at hq
        rw [providerAdded_provider hp'] at hrecord
        rw [providerAdded_provider hq'] at hrecord'
        exact h.providers.lock_ne p q provider provider' hp hq hrecord hrecord' hne
  case platforms =>
    intro p hp
    rw [State.withPhase_sets]
    by_cases hp' : p = s.next + 1
    · rw [hp', providerAdded_platforms_self]
      exact ⟨rfl, rfl⟩
    · rw [hold p hp'] at hp
      rw [providerAdded_sets (by simp) (by simpa using hp')]
      exact h.providers.platforms p hp
  case host =>
    intro p q addr' hp hq
    by_cases hp' : p = s.next + 1
    · by_cases hq' : q = s.next + 1
      · rw [hp', hq']
      · rw [hp', hself] at hp
        rw [hold q hq', ← hp] at hq
        exact absurd hq (hunknown q)
    · by_cases hq' : q = s.next + 1
      · rw [hq', hself] at hq
        rw [hold p hp', ← hq] at hp
        exact absurd hp (hunknown p)
      · rw [hold p hp'] at hp
        rw [hold q hq'] at hq
        exact h.providers.host p q addr' hp hq
  case phase =>
    intro p hp
    by_cases hp' : p = s.next + 1
    · rw [hp', hself]
      rfl
    · rw [State.withPhase_of_ne _ _ _ (by simpa using hp')] at hp
      rw [hold p hp']
      exact h.providers.phase p hp

theorem Enrolled.providerAccepted (h : Enrolled l s) (hnew : s.providerAt addr = none)
    (ph : Phase) :
    Enrolled { l with providers := Function.update l.providers (s.next + 1) (some addr) }
      ((s.providerAdded addr).withPhase (.provider (s.next + 1)) ph) where
  fresh := by
    intro k a ha
    have hle : s.next + 2 ≤ a := ha
    have hlt : s.next + 1 < a := hle
    have hold : s.heap k a = none := h.fresh k a (le_trans (Nat.le_add_right ..) hle)
    rw [State.withPhase_heap]
    by_cases hp : k = .provider
    · subst hp
      rw [providerAdded_provider hlt.ne', hold]
    · by_cases hl : k = .lock
      · subst hl
        rw [providerAdded_lock, State.put_heap_of_ne _ _ (Nat.lt_of_succ_lt hlt).ne', hold]
      · rw [providerAdded_heap hp hl, hold]
  unlocked := h.unlocked
  providers := h.providersAdded hnew ph
  consumers := by
    refine h.consumers.frame ?_ ?_ (fun c => ?_) (fun c => ?_) fun c => ?_
    · rw [State.withPhase_heap, providerAdded_heap (by decide) (by decide)]
    · rw [State.withPhase_sets, providerAdded_sets (by simp) (by simp)]
    · rw [State.withPhase_sets, providerAdded_sets (by simp) (by simp)]
    · rw [State.withPhase_sets, providerAdded_sets (by simp) (by simp)]
    · rw [State.withPhase_of_ne _ _ _ (by simp)]
      rfl

def State.consumerMade (s : State) : State :=
  (((s.put .consumer s.next (some ⟨false, none⟩)).withNext (s.next + 1)).putSet (.objectsOf s.next)
    .empty).putSet (.allocations s.next) .empty

def State.consumerAdded (s : State) : State :=
  (s.consumerMade.putSet .consumers ((s.sets .consumers).add s.next s.next)).put .consumer s.next
    (some ⟨true, none⟩)

theorem run_consumerCreate : run t consumerCreate s = .done s.consumerMade s.next := by
  rw [consumerCreate, run_bind, run_new]
  rfl

theorem consumerMade_sets {r : SetRef} (ho : r ≠ .objectsOf s.next) (ha : r ≠ .allocations s.next) :
    s.consumerMade.sets r = s.sets r := by
  rw [State.consumerMade, State.putSet_sets_of_ne _ _ ha, State.putSet_sets_of_ne _ _ ho]
  rfl

theorem Enrolled.consumer_new_not_mem (h : Enrolled l s) : s.next ∉ s.sets .consumers := by
  rw [h.consumers.mem_iff]
  intro hc
  exact lt_irrefl _ (h.fresh.lt (h.consumers.record _ hc))

theorem Enrolled.run_consumerAttach (h : Enrolled l s) :
    run t (consumerAttach s.next) s.consumerMade = .done s.consumerAdded true := by
  have hset : s.consumerMade.sets .consumers = s.sets .consumers :=
    consumerMade_sets (by simp) (by simp)
  have hu : Usable t .consumers s.consumerMade := by
    constructor
    · rw [hset, h.consumers.sound]
    · have hlock : s.consumerMade.setLock .consumers = .free := h.unlocked _
      rw [hlock]
      rfl
  have hrecord : (s.consumerMade.putSet .consumers ((s.sets .consumers).add s.next s.next)).heap
      .consumer s.next = some ⟨false, none⟩ := by
    rw [State.putSet_heap, State.consumerMade, State.putSet_heap, State.putSet_heap,
      State.withNext_heap, State.put_heap_self]
  have hnew := h.consumer_new_not_mem
  rw [consumerAttach, run_bind, run_setInsert hu, Outcome.bind_done, hset, decide_eq_true hnew,
    if_pos rfl, run_bind, run_store hrecord]
  rfl

theorem run_agentMainConsumer_peeloff :
    run t (agentMainConsumer (some .peeloff)) s = .done s ⟨none, Msg.nack, false⟩ := by
  rw [agentMainConsumer, if_pos rfl]
  rfl

theorem Enrolled.run_agentMainConsumer_memory (h : Enrolled l s) :
    ∃ n, run t (agentMainConsumer (some .memory)) s =
      .done ((s.withNext (s.next + 1)).withNet n)
        ⟨some (.consumer s.next), Msg.nack, decide (s.CanSend (.consumer s.next))⟩ := by
  have hcreate : run t consumerCreateFailed s = .done (s.withNext (s.next + 1)) s.next := by
    let s₁ : State := s.put .consumer s.next (some ⟨false, none⟩)
    have hrecord : (s₁.withNext (s.next + 1)).heap .consumer s.next = some ⟨false, none⟩ := by
      rw [State.withNext_heap, State.put_heap_self]
    have hput : s₁.put .consumer s.next none = s := by
      rw [State.put_put, State.put_self (h.fresh .consumer s.next le_rfl)]
    have hfree : run t (free .consumer s.next) (s₁.withNext (s.next + 1)) =
        .done (s.withNext (s.next + 1)) () := by
      rw [run_free hrecord, State.withNext_put, hput]
    rw [consumerCreateFailed, run_bind, run_new, Outcome.bind_done, run_bind]
    exact congrArg (Outcome.bind · _) hfree
  obtain ⟨n, hn⟩ := run_agentAnswer (t := t) (s := s.withNext (s.next + 1))
    (.consumer s.next) Msg.nack
  refine ⟨n, ?_⟩
  rw [agentMainConsumer, if_neg (by decide), if_pos rfl, run_bind, hcreate, Outcome.bind_done, hn]
  rfl

theorem Enrolled.run_agentMainConsumer_thread (h : Enrolled l s) :
    ∃ n, run t (agentMainConsumer (some .thread)) s =
      .done (s.consumerAdded.withNet n)
        ⟨some (.consumer s.next), Msg.nack, decide (s.CanSend (.consumer s.next))⟩ := by
  obtain ⟨n, hn⟩ := run_agentAnswer (t := t) (s := s.consumerAdded) (.consumer s.next) Msg.nack
  refine ⟨n, ?_⟩
  rw [agentMainConsumer, if_neg (by decide), if_neg (by decide), run_bind, run_consumerCreate,
    Outcome.bind_done, run_bind, h.run_consumerAttach, Outcome.bind_done, if_pos rfl, if_pos rfl, hn]
  rfl

theorem Enrolled.run_agentMainConsumer_accepted (h : Enrolled l s) :
    ∃ n, run t (agentMainConsumer none) s =
      .done ((s.consumerAdded.withPhase (.consumer s.next) .serving).withNet n)
        ⟨some (.consumer s.next), Msg.ack, decide (s.CanSend (.consumer s.next))⟩ := by
  obtain ⟨n, hn⟩ := run_agentAnswer (t := t)
    (s := s.consumerAdded.withPhase (.consumer s.next) .serving) (.consumer s.next) Msg.ack
  refine ⟨n, ?_⟩
  rw [agentMainConsumer, if_neg (by decide), if_neg (by decide), run_bind, run_consumerCreate,
    Outcome.bind_done, run_bind, h.run_consumerAttach, Outcome.bind_done, if_pos rfl,
    if_neg (by decide), run_bind, run_setPhase, Outcome.bind_done, hn]
  rfl

theorem consumerAdded_heap {k : Kind} (hk : k ≠ .consumer) :
    s.consumerAdded.heap k = s.heap k := by
  rw [State.consumerAdded, State.put_heap_kind _ _ _ hk, State.putSet_heap, State.consumerMade,
    State.putSet_heap, State.putSet_heap, State.withNext_heap, State.put_heap_kind _ _ _ hk]

theorem consumerAdded_consumer {c : Addr} (hc : c ≠ s.next) :
    s.consumerAdded.heap .consumer c = s.heap .consumer c := by
  rw [State.consumerAdded, State.put_heap_of_ne _ _ hc, State.putSet_heap, State.consumerMade,
    State.putSet_heap, State.putSet_heap, State.withNext_heap, State.put_heap_of_ne _ _ hc]

theorem consumerAdded_consumers :
    s.consumerAdded.sets .consumers = (s.sets .consumers).add s.next s.next := by
  rw [State.consumerAdded, State.put_sets, State.putSet_sets_self]

theorem consumerAdded_sets {r : SetRef} (hr : r ≠ .consumers) (ho : r ≠ .objectsOf s.next)
    (ha : r ≠ .allocations s.next) : s.consumerAdded.sets r = s.sets r := by
  rw [State.consumerAdded, State.put_sets, State.putSet_sets_of_ne _ _ hr, consumerMade_sets ho ha]

theorem consumerAdded_objectsOf : s.consumerAdded.sets (.objectsOf s.next) = .empty := by
  rw [State.consumerAdded, State.put_sets, State.putSet_sets_of_ne _ _ (by simp),
    State.consumerMade, State.putSet_sets_of_ne _ _ (by simp), State.putSet_sets_self]

theorem consumerAdded_allocations : s.consumerAdded.sets (.allocations s.next) = .empty := by
  rw [State.consumerAdded, State.put_sets, State.putSet_sets_of_ne _ _ (by simp),
    State.consumerMade, State.putSet_sets_self]

theorem Enrolled.consumersAdded (h : Enrolled l s) :
    ConsumersAre (Function.update l.consumers s.next true)
      (s.consumerAdded.withPhase (.consumer s.next) .serving) := by
  have hold : ∀ c, c ≠ s.next → Function.update l.consumers s.next true c = l.consumers c :=
    fun c hc => Function.update_of_ne hc ..
  have hself : Function.update l.consumers s.next true s.next = true := Function.update_self ..
  constructor
  case sound =>
    rw [State.withPhase_sets, consumerAdded_consumers, IdSet.damaged_add,
      decide_eq_false h.consumer_new_not_mem, h.consumers.sound]
    rfl
  case entry =>
    intro key
    rw [State.withPhase_sets, consumerAdded_consumers, IdSet.lookup_add h.consumer_new_not_mem]
    by_cases hk : key = s.next
    · rw [if_pos hk, hk, hself]
      rfl
    · rw [if_neg hk, h.consumers.entry, hold key hk]
  case record =>
    intro c hc
    rw [State.withPhase_heap]
    by_cases hn : c = s.next
    · rw [hn, State.consumerAdded, State.put_heap_self]
    · rw [consumerAdded_consumer hn, h.consumers.record c (hold c hn ▸ hc)]
  case objectsOf =>
    intro c hc
    rw [State.withPhase_sets]
    by_cases hn : c = s.next
    · rw [hn, consumerAdded_objectsOf]
      rfl
    · rw [consumerAdded_sets (by simp) (by simpa using hn) (by simp)]
      exact h.consumers.objectsOf c (hold c hn ▸ hc)
  case allocations =>
    intro c hc
    rw [State.withPhase_sets]
    by_cases hn : c = s.next
    · rw [hn, consumerAdded_allocations]
      exact ⟨rfl, rfl⟩
    · rw [consumerAdded_sets (by simp) (by simp) (by simpa using hn)]
      exact h.consumers.allocations c (hold c hn ▸ hc)
  case phase =>
    intro c hc
    by_cases hn : c = s.next
    · rw [hn, hself]
    · rw [State.withPhase_of_ne _ _ _ (by simpa using hn)] at hc
      rw [hold c hn]
      exact h.consumers.phase c hc

theorem Enrolled.consumerAccepted (h : Enrolled l s) :
    Enrolled { l with consumers := Function.update l.consumers s.next true }
      (s.consumerAdded.withPhase (.consumer s.next) .serving) where
  fresh := by
    intro k a ha
    have hlt : s.next < a := ha
    have hold : s.heap k a = none := h.fresh k a hlt.le
    rw [State.withPhase_heap]
    by_cases hk : k = .consumer
    · subst hk
      rw [consumerAdded_consumer hlt.ne', hold]
    · rw [consumerAdded_heap hk, hold]
  unlocked := h.unlocked
  consumers := h.consumersAdded
  providers := by
    refine h.providers.frame ?_ ?_ ?_ (fun p => ?_) fun p => ?_
    · rw [State.withPhase_heap, consumerAdded_heap (by decide)]
    · rw [State.withPhase_heap, consumerAdded_heap (by decide)]
    · rw [State.withPhase_sets, consumerAdded_sets (by simp) (by simp) (by simp)]
    · rw [State.withPhase_sets, consumerAdded_sets (by simp) (by simp) (by simp)]
    · rw [State.withPhase_of_ne _ _ _ (by simp)]
      rfl

end

end Clara.Agent
