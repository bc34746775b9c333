import Clara.Joint.Marshalling
import Clara.Joint.Transfer

/-! An allocation with data, fetched again: what comes back, and for which data the connection of
the consumer stays open. -/
namespace Clara.Joint

open Conc

variable {Cl : Type} {g : Session Cl} {x : Trio Cl} {y : Pair Cl} {provider : Agent.Provider}

/-- The consumer can make requests about allocations. -/
structure Allocates (g : Session Cl) (x : Trio Cl) : Prop where
  idle : Idle g x
  consumer : (x.pair.agent.heap .consumer g.c).isSome
  fresh : x.pair.agent.Fresh
  pool : Agent.Usable (.consumer g.c) .idPool x.pair.agent
  objects : Agent.Usable (.consumer g.c) .objects x.pair.agent
  keeps : Agent.Keeps g.c x.pair.agent
  memory : x.pair.agent.next < 2 ^ 64
  blocks : ∀ n, 32 + n ≤ Agent.recvbufsz → x.pair.agent.memory x.pair.agent.next n = true

/-- The provider of the hint works, and has memory for one more block. -/
structure Provides (g : Session Cl) (provider : Agent.Provider) (x : Trio Cl) (y : Pair Cl)
    (hint : GlobalId) : Prop where
  ready : Ready g provider x y
  hints : Hints g.p x.pair.agent hint
  memory : y.provider.addresses y.provider.draws ≠ 0

/-- The data of an allocation comes back, and the connection stays open. -/
def RoundTrips (g : Session Cl) (x : Trio Cl) (fuel : ℕ) (data : Bytes) (hint : GlobalId) :
    Prop :=
  ∃ handle z z', handle ≠ invalidHandle ∧
    call g (Consumer.consumerAllocate 1 (UInt64.ofNat data.length) (some data) hint) x =
      .done z handle ∧ Idle g z ∧
    call g (Consumer.consumerFetch g.lzo fuel handle (UInt64.ofNat data.length) hint) z =
      .done z' (true, data) ∧ Idle g z'

theorem run_consumerShutdown_phase {z z' : Pair Cl} {t : Agent.Tid}
    (h : run g.toSetting t (Agent.consumerShutdown g.c) z = .done z' ()) :
    z'.agent.phase (.consumer g.c) = .finished := by
  rw [Agent.consumerShutdown, run_bind] at h
  obtain ⟨z₁, b₁, -, h⟩ := Outcome.bind_eq_done h
  rw [run_bind] at h
  obtain ⟨z₂, _, -, h⟩ := Outcome.bind_eq_done h
  rw [run_bind] at h
  obtain ⟨z₃, b₃, -, h⟩ := Outcome.bind_eq_done h
  rw [run_bind] at h
  obtain ⟨z₄, _, -, h⟩ := Outcome.bind_eq_done h
  have hset : Agent.run t (Agent.setPhase (.consumer g.c) .finished) z₄.agent = _ :=
    Prog.run_perform _ _ _ _
  rw [run_done hset] at h
  obtain ⟨rfl, -⟩ := Outcome.done.inj h
  exact Function.update_self ..

theorem Idle.attend_tooLong (h : Idle g x) {type : MessageType} {msg : Bytes}
    (hm : Agent.recvbufsz < msg.length) {z : Trio Cl}
    (hz : (x.saying [.msg type msg]).attend g = .done z ()) :
    z.pair.agent.phase (.consumer g.c) = .finished := by
  have hinq : ((x.pair.heard g.c (.msg type msg)).agent.net (.consumer g.c)).inq =
      [.record (Sent.msg type msg).record] := Net.withInq_inq _ _ _
  have hphase : (x.pair.heard g.c (.msg type msg)).agent.phase (.consumer g.c) = .serving :=
    h.phase
  have hlong : 2 + Agent.recvbufsz < (Sent.msg type msg).record.length := by
    simpa [Sent.record] using hm
  have hrecv := run_net_done (g := g.toSetting) (t := .consumer g.c)
    (Net.run_claraRecvmsg_tooLong hinq hlong)
  rw [Trio.attend, h.deliver, Trio.work] at hz
  simp only [hinq, List.length_singleton, turns, List.isEmpty_cons, hphase, ne_eq,
    not_true_eq_false, or_false, Bool.false_eq_true, if_false] at hz
  rw [Agent.agentConsumerTurn, run_bind, hrecv, Outcome.bind_done] at hz
  obtain ⟨z₁, _, hwork, hz⟩ := Outcome.bind_eq_done hz
  obtain ⟨rfl, -⟩ := Outcome.done.inj hz
  obtain ⟨z₂, hz₂, rfl⟩ := Outcome.map_eq_done hwork
  obtain ⟨z₃, _, hrun, hz₂⟩ := Outcome.bind_eq_done hz₂
  obtain ⟨rfl, -⟩ := Outcome.done.inj hz₂
  have hshutdown : run g.toSetting (.consumer g.c) (Agent.consumerShutdown g.c) _ = .done z₃ () :=
    hrun
  have hphase : z₃.agent.phase (.consumer g.c) = .finished := run_consumerShutdown_phase hshutdown
  exact hphase

/-- Whatever the consumer's call returns, its connection is not open then. -/
theorem Idle.consumerAllocate_tooLong (h : Idle g x) {nmemb size : UInt64} {data : Bytes}
    {hint : GlobalId} (hm : Agent.recvbufsz < 32 + data.length) {z : Trio Cl} {handle : Handle}
    (hcall : call g (Consumer.consumerAllocate nmemb size (some data) hint) x = .done z handle) :
    ¬ Idle g z := by
  obtain ⟨msg, hmsg⟩ : ∃ msg : Bytes,
    msg = AllocateRequest.bytes ⟨invalidHandle, nmemb, size, hint⟩ ++ data := ⟨_, rfl⟩
  have hlen : Agent.recvbufsz < msg.length := by
    rw [hmsg, List.length_append]
    simpa [AllocateRequest.bytes] using hm
  rw [Consumer.consumerAllocate, call_bind, claraSendAllocateRequest, Option.getD_some, ← hmsg,
    h.call_sendRequest, Outcome.bind_done, if_pos rfl, claraRecvAllocateResponse, recvWord,
    Prog.bind_assoc', call_waiting (by rfl)] at hcall
  obtain ⟨z₁, _, hattend, hcall⟩ := Outcome.bind_eq_done hcall
  obtain ⟨z₂, r, hrecv, hcall⟩ := Outcome.bind_eq_done hcall
  obtain ⟨n, -, rfl⟩ := Outcome.map_eq_done hrecv
  have hphase : z₁.pair.agent.phase (.consumer g.c) = .finished := h.attend_tooLong hlen hattend
  have hz : z.pair = z₁.pair := by
    cases hr : r.stored with
    | none =>
      rw [hr] at hcall
      obtain ⟨rfl, -⟩ := Outcome.done.inj hcall
      rfl
    | some b =>
      rw [hr] at hcall
      by_cases hb : b.length = 8
      · simp only [hb, if_true] at hcall
        obtain ⟨rfl, -⟩ := Outcome.done.inj hcall
        rfl
      · simp only [hb, if_false] at hcall
        obtain ⟨rfl, -⟩ := Outcome.done.inj hcall
        rfl
  intro hidle
  rw [← hz, hidle.phase] at hphase
  cases hphase

theorem one_mul_ofNat {n : ℕ} (h : n < 2 ^ 64) :
    (1 : UInt64).toNat * (UInt64.ofNat n).toNat = n := by
  rw [UInt64.toNat_ofNat', Nat.mod_eq_of_lt h]
  exact Nat.one_mul n

theorem ofNat_pos {n : ℕ} (h : n < 2 ^ 64) (hn : 0 < n) : 0 < UInt64.ofNat n := by
  rw [UInt64.lt_iff_toNat_lt, UInt64.toNat_ofNat', Nat.mod_eq_of_lt h]
  exact hn

theorem lt_of_fits {n : ℕ} (h : 32 + n ≤ Agent.recvbufsz) : n < 2 ^ 64 := by
  unfold Agent.recvbufsz at h
  omega

/-- The agent with the data. -/
def Pair.stored (x : Pair Cl) (c : Addr) (data : Bytes) : Pair Cl :=
  x.onAgent fun s => s.stored c 1 (UInt64.ofNat data.length) data

theorem Allocates.call_allocateLocal (h : Allocates g x) {data : Bytes} (hpos : 0 < data.length)
    (hm : 32 + data.length ≤ Agent.recvbufsz)
    (hid : x.pair.agent.nextId ∉ x.pair.agent.sets .idPool) :
    call g (Consumer.consumerAllocate 1 (UInt64.ofNat data.length) (some data) invalidHandle) x =
      .done ⟨.wire [] [], x.pair.stored g.c data⟩ x.pair.agent.nextId := by
  obtain ⟨consumer, hc⟩ := Option.isSome_iff_exists.mp h.consumer
  have hlen := one_mul_ofNat (lt_of_fits hm)
  have hcallocs : x.pair.agent.Callocs
      ⟨invalidHandle, 1, UInt64.ofNat data.length, invalidHandle⟩ := by
    rw [Agent.State.Callocs, AllocateRequest.length, hlen]
    exact ⟨lt_of_fits hm, h.blocks _ hm⟩
  have hsend : (x.pair.agent.net (.consumer g.c)).sendFails = [] := by
    rw [h.idle.conn]
    rfl
  have hlocal : Agent.run (.consumer g.c) (Agent.handleAllocate g.c
      ⟨invalidHandle, 1, UInt64.ofNat data.length, invalidHandle⟩ data) x.pair.agent = _ :=
    Agent.run_handleAllocate_local (h.keeps.draws h.pool hid) h.memory hc hsend rfl rfl hcallocs
      (.inr hlen.symm)
  rw [Agent.initialContents, if_neg (List.length_pos_iff.mp hpos)] at hlocal
  exact h.idle.call_consumerAllocate (z := x.pair.stored g.c data) hm h.idle.conn h.idle.phase
    (run_done hlocal)

/-- What fits into one message comes back uncompressed. -/
theorem buffered_of_fits {lzo : Lzo} {data : Bytes} (hm : 32 + data.length ≤ Agent.recvbufsz) :
    (Consumer.streamOptions (UInt64.ofNat data.length)).Buffered lzo := by
  have hbuf : Agent.recvbufsz ≤ 16384 := by decide
  apply Consumer.buffered_streamOptions
  rw [UInt64.toNat_ofNat', Nat.mod_eq_of_lt (lt_of_fits hm)]
  omega

theorem Allocates.roundTrips_local (h : Allocates g x) (hl : g.lzo.Correct) {data : Bytes}
    (hpos : 0 < data.length) (hm : 32 + data.length ≤ Agent.recvbufsz)
    (hid : x.pair.agent.nextId ∉ x.pair.agent.sets .idPool) {fuel : ℕ}
    (hfuel : 2 * data.length + 68 ≤ fuel) : RoundTrips g x fuel data invalidHandle := by
  have hlt := lt_of_fits hm
  have hn : (UInt64.ofNat data.length).toNat = data.length := by
    rw [UInt64.toNat_ofNat', Nat.mod_eq_of_lt hlt]
  have hmul : data.length = ((1 : UInt64) * UInt64.ofNat data.length).toNat := by
    rw [UInt64.one_mul, hn]
  have hne : x.pair.agent.nextId ≠ invalidHandle :=
    (x.pair.agent.candidates x.pair.agent.draws).property
  have hidle : Idle g ⟨.wire [] [], x.pair.stored g.c data⟩ := ⟨rfl, h.idle.conn, h.idle.phase⟩
  have hfetch := hidle.call_fetchLocal hl (h.keeps.stored h.fresh hid _ _ _)
    (h.pool.stored hid _ _ _) hne (h.keeps.stores hid hmul) (buffered_of_fits hm)
    (ofNat_pos hlt hpos) hn.le (hn.symm ▸ hfuel)
  rw [hn, List.take_length] at hfetch
  refine ⟨_, _, _, hne, h.call_allocateLocal hpos hm hid, hidle, hfetch, ?_⟩
  exact ⟨rfl, h.idle.conn, h.idle.phase⟩

/-- The two processes when the provider has the data. -/
def Pair.allocated (y : Pair Cl) (data : Bytes) (hint : GlobalId) : Pair Cl :=
  let params : AllocateRequest := ⟨y.agent.nextId, 1, UInt64.ofNat data.length, hint⟩
  (y.onAgent Agent.State.withId).served ((y.provider.took (params.bytes ++ data)).allocated params
      (y.provider.addresses y.provider.draws) data)
    [.msg Msg.allocateRequest (params.bytes ++ data)]
    [.msg Msg.allocateResponse (Bytes.word y.agent.nextId)]

/-- The handle is new to the provider. -/
def Pair.Unknown (y : Pair Cl) : Prop :=
  y.agent.nextId ∉ y.provider.allocations ∧ y.agent.nextId ∉ y.provider.idMap

section
variable {hint : GlobalId} {data : Bytes}

theorem Provides.call_allocate (h : Provides g provider x y hint) (ha : Allocates g x)
    (hpos : 0 < data.length) (hm : 32 + data.length ≤ Agent.recvbufsz)
    (hid : y.agent.nextId ∉ y.agent.sets .idPool) (hnew : y.Unknown) :
    call g (Consumer.consumerAllocate 1 (UInt64.ofNat data.length) (some data) hint) x =
      .done ⟨.wire [] [], y.allocated data hint⟩ y.agent.nextId := by
  obtain ⟨consumer, hc⟩ := Option.isSome_iff_exists.mp ha.consumer
  let params : AllocateRequest := ⟨y.agent.nextId, 1, UInt64.ofNat data.length, hint⟩
  have hlen : params.nmemb.toNat * params.size.toNat = data.length := one_mul_ofNat (lt_of_fits hm)
  have hm' : 32 + data.length ≤ Provider.recvbufsz := hm
  have hworks : g.Works [.msg Msg.allocateRequest (params.bytes ++ data)]
      [.msg Msg.allocateResponse (Bytes.word params.handle)] y.provider
      ((y.provider.took (params.bytes ++ data)).allocated params
        (y.provider.addresses y.provider.draws)
        (Provider.allocateContents (y.provider.took (params.bytes ++ data)) params
          (32 + data.length))) :=
    Provider.works_allocate h.ready.sound hm' (by rw [hlen]; exact lt_of_fits hm)
      (.inr (by rw [hlen]; exact hm')) h.memory hnew.1 hnew.2
  rw [Provider.allocateContents_took _ hm' hpos hlen.symm] at hworks
  have hrun := h.ready.run_handleAllocate ha.objects ha.pool hc
    ⟨invalidHandle, 1, UInt64.ofNat data.length, hint⟩ rfl h.hints hid hworks
  exact ha.idle.call_consumerAllocate (z := y.allocated data hint) hm h.ready.conn h.ready.phase
    hrun

theorem Provides.sound_allocated (h : Provides g provider x y hint) (hnew : y.Unknown)
    (data : Bytes) : (y.allocated data hint).provider.Sound := by
  let params : AllocateRequest := ⟨y.agent.nextId, 1, UInt64.ofNat data.length, hint⟩
  have hknown : params.handle ∉ (y.provider.took (params.bytes ++ data)).allocations := hnew.1
  have hs := (h.ready.sound.took (params.bytes ++ data)).allocated hknown hnew.2
    (y.provider.addresses y.provider.draws) data
  exact hs.withNet _

theorem Provides.ready_allocated (h : Provides g provider x y hint)
    (hnew : y.Unknown) (data : Bytes) :
    Ready g provider ⟨.wire [] [], y.allocated data hint⟩ (y.allocated data hint) :=
  .of_quiet ⟨h.ready.settles.quiet.agent, rfl⟩ h.ready.conn h.ready.phase
    (h.ready.attached.of_heap rfl)
    (h.sound_allocated hnew data)

theorem Provides.holds_allocated (h : Provides g provider x y hint)
    (hm : 32 + data.length ≤ Agent.recvbufsz) (hnew : y.Unknown) :
    (y.allocated data hint).provider.Holds y.agent.nextId
      ⟨y.agent.nextId, 1, UInt64.ofNat data.length, y.provider.addresses y.provider.draws⟩
      data := by
  let params : AllocateRequest := ⟨y.agent.nextId, 1, UInt64.ofNat data.length, hint⟩
  have hlen : params.nmemb.toNat * params.size.toNat = data.length := one_mul_ofNat (lt_of_fits hm)
  have hh := Provider.State.holds_allocated (y.provider.took (params.bytes ++ data)) params
    (by rw [hlen]; exact lt_of_fits hm) hnew.1 hnew.2 h.memory hlen.symm
  exact ⟨hh.allocation, hh.mapping, hh.block, hh.length, hh.ptr⟩

theorem Hints.allocated (h : Hints g.p y.agent hint) :
    Hints g.p (y.allocated data hint).agent hint := by
  obtain ⟨hne, a, o, hlookup, ho, hp⟩ := h
  refine ⟨hne, a, o, ?_, ho, hp⟩
  show (y.agent.withId.sets .objects).lookup hint = some a
  rw [y.agent.withId_sets_of_ne (by nofun), hlookup]

theorem Provides.roundTrips (h : Provides g provider x y hint) (ha : Allocates g x)
    (hl : g.lzo.Correct) (hpos : 0 < data.length) (hm : 32 + data.length ≤ Agent.recvbufsz)
    (hid : y.agent.nextId ∉ y.agent.sets .idPool) (hnew : y.Unknown)
    (hg : 140 * data.length + 2 ≤ g.fuel) {fuel : ℕ} (hfuel : 2 * data.length + 68 ≤ fuel) :
    RoundTrips g x fuel data hint := by
  have hlt := lt_of_fits hm
  have hn : data.length = (UInt64.ofNat data.length).toNat := by
    rw [UInt64.toNat_ofNat', Nat.mod_eq_of_lt hlt]
  have hne : y.agent.nextId ≠ invalidHandle := (y.agent.candidates y.agent.draws).property
  have hready := h.ready_allocated hnew data
  obtain ⟨n, hx⟩ := h.ready.exists_agent
  have hhints : Hints g.p y.agent hint := by
    have hh := h.hints
    rw [hx] at hh
    exact hh
  have hobjects : Agent.Usable (.consumer g.c) .objects (y.allocated data hint).agent := by
    have hu := ha.objects
    rw [hx] at hu
    refine ⟨?_, hu.admits⟩
    show (y.agent.withId.sets .objects).damaged = false
    rw [y.agent.withId_sets_of_ne (by nofun)]
    exact hu.sound
  have hfetch := hready.call_fetched hl hobjects hne hhints.allocated (h.holds_allocated hm hnew)
    (buffered_of_fits hm) hn (ofNat_pos hlt hpos) hg hfuel
  exact ⟨_, _, _, hne, h.call_allocate ha hpos hm hid hnew, hready.idle, hfetch,
    ⟨rfl, h.ready.conn, h.ready.phase⟩⟩

/-- A request that one of the two processes does not survive. -/
theorem Idle.consumerAllocate_fault (h : Idle g x) (hm : 32 + data.length ≤ Agent.recvbufsz)
    {nmemb size : UInt64} {f : Fault}
    (hrun : run g.toSetting (.consumer g.c)
      (Agent.handleAllocate g.c ⟨invalidHandle, nmemb, size, hint⟩ data) x.pair = .fault f) :
    call g (Consumer.consumerAllocate nmemb size (some data) hint) x = .fault (.server f) := by
  obtain ⟨msg, hmsg⟩ : ∃ msg : Bytes,
    msg = AllocateRequest.bytes ⟨invalidHandle, nmemb, size, hint⟩ ++ data := ⟨_, rfl⟩
  have hlen : msg.length ≤ Agent.recvbufsz := by
    rw [hmsg, List.length_append]
    simpa [AllocateRequest.bytes] using hm
  have hparse : Agent.ConsumerRequest.parse
      ((g.stale (x.pair.heard g.c (.msg Msg.allocateRequest msg))).receive msg)
      Msg.allocateRequest msg.length =
        some (.allocate ⟨invalidHandle, nmemb, size, hint⟩ data) := by
    rw [hmsg]
    exact Agent.parse_allocate _ hm
  rw [Consumer.consumerAllocate, call_bind, claraSendAllocateRequest, Option.getD_some, ← hmsg,
    h.call_sendRequest, Outcome.bind_done, if_pos rfl, claraRecvAllocateResponse, recvWord,
    Prog.bind_assoc', h.call_fault hlen hparse hrun]

theorem Allocates.call_collision (h : Allocates g x) (hm : 32 + data.length ≤ Agent.recvbufsz)
    (hh : hint ≠ invalidHandle → Hints g.p x.pair.agent hint)
    (hid : x.pair.agent.nextId ∈ x.pair.agent.sets .idPool) (nmemb size : UInt64) :
    call g (Consumer.consumerAllocate nmemb size (some data) hint) x =
      .fault (.server (.agent .freedMemory)) := by
  obtain ⟨consumer, hc⟩ := Option.isSome_iff_exists.mp h.consumer
  have hrun : Agent.run (.consumer g.c)
      (Agent.handleAllocate g.c ⟨invalidHandle, nmemb, size, hint⟩ data) x.pair.agent =
      .fault .freedMemory := by
    by_cases hne : hint = invalidHandle
    · rw [hne]
      exact Agent.run_handleAllocate_local_collision h.pool hid hc nmemb size data
    · obtain ⟨-, a, o, ha, -⟩ := hh hne
      exact Agent.run_handleAllocate_collision hc rfl hne h.objects ha h.pool hid
  refine h.idle.consumerAllocate_fault hm ?_
  rw [run_alone (by rw [hrun]; nofun), hrun]
  rfl

theorem Provides.call_taken (h : Provides g provider x y hint) (ha : Allocates g x)
    (hm : 32 + data.length ≤ Agent.recvbufsz) (hid : y.agent.nextId ∉ y.agent.sets .idPool)
    (hnew : ¬ y.Unknown) :
    ∃ f, call g (Consumer.consumerAllocate 1 (UInt64.ofNat data.length) (some data) hint) x =
      .fault (.server (.provider f)) := by
  obtain ⟨consumer, hc⟩ := Option.isSome_iff_exists.mp ha.consumer
  have hlen := one_mul_ofNat (lt_of_fits hm)
  have hused : y.agent.nextId ∈ y.provider.allocations ∨ y.agent.nextId ∈ y.provider.idMap := by
    by_contra hno
    exact hnew (not_or.mp hno)
  let params : AllocateRequest := ⟨y.agent.nextId, 1, UInt64.ofNat data.length, hint⟩
  obtain ⟨f, hb⟩ : ∃ f, g.Breaks [.msg Msg.allocateRequest (params.bytes ++ data)] f y.provider :=
    Provider.breaks_allocate h.ready.sound params hm (by rw [hlen]; exact lt_of_fits hm) h.memory
      hused
  have hrun := h.ready.run_handleAllocate_breaks ha.objects ha.pool hc
    ⟨invalidHandle, 1, UInt64.ofNat data.length, hint⟩ rfl h.hints hid hb
  exact ⟨f, ha.idle.consumerAllocate_fault hm hrun⟩

/-- Exactly when the data comes back. -/
theorem Allocates.roundTrips_iff (h : Allocates g x) (hl : g.lzo.Correct)
    (hpos : 0 < data.length) (hp : hint ≠ invalidHandle → Provides g provider x y hint)
    (hg : 140 * data.length + 2 ≤ g.fuel) {fuel : ℕ} (hfuel : 2 * data.length + 68 ≤ fuel) :
    RoundTrips g x fuel data hint ↔ 32 + data.length ≤ Agent.recvbufsz ∧
      x.pair.agent.nextId ∉ x.pair.agent.sets .idPool ∧ (hint ≠ invalidHandle → y.Unknown) := by
  have hsame : hint ≠ invalidHandle → y.agent.nextId = x.pair.agent.nextId ∧
      y.agent.sets = x.pair.agent.sets := by
    intro hne
    obtain ⟨n, hx⟩ := (hp hne).ready.exists_agent
    rw [hx]
    exact ⟨rfl, rfl⟩
  constructor
  · rintro ⟨handle, z, z', -, hcall, hidle, -⟩
    have hm : 32 + data.length ≤ Agent.recvbufsz := by
      by_contra hlong
      exact h.idle.consumerAllocate_tooLong (Nat.lt_of_not_le hlong) hcall hidle
    have hid : x.pair.agent.nextId ∉ x.pair.agent.sets .idPool := by
      intro hmem
      rw [h.call_collision hm (fun hne => (hp hne).hints) hmem] at hcall
      cases hcall
    refine ⟨hm, hid, fun hne => ?_⟩
    by_contra hnew
    obtain ⟨hnext, hsets⟩ := hsame hne
    obtain ⟨f, hf⟩ := (hp hne).call_taken h hm (by rwa [hnext, hsets]) hnew
    rw [hf] at hcall
    cases hcall
  · rintro ⟨hm, hid, hnew⟩
    by_cases hne : hint = invalidHandle
    · rw [hne]
      exact h.roundTrips_local hl hpos hm hid hfuel
    · obtain ⟨hnext, hsets⟩ := hsame hne
      exact (hp hne).roundTrips h hl hpos hm (by rwa [hnext, hsets]) (hnew hne) hg hfuel

end

theorem allocates_small : Allocates Session.small Trio.small where
  idle := ⟨rfl, rfl, rfl⟩
  consumer := rfl
  fresh := (Agent.small_settled Agent.someIds).fresh
  pool := ⟨rfl, rfl⟩
  objects := ⟨rfl, rfl⟩
  keeps := by
    refine ⟨rfl, rfl, fun handle hmem => ?_, fun handle a ha => ?_⟩
    · exact absurd hmem (IdSet.not_mem_empty handle)
    · exact absurd (IdSet.mem_of_lookup ha) (IdSet.not_mem_empty handle)
  memory := by decide
  blocks n hn := by
    have hlt : n < 2 ^ 32 := by
      unfold Agent.recvbufsz at hn
      omega
    exact decide_eq_true hlt

/-- Three bytes at the provider. -/
theorem roundTrips_small : RoundTrips Session.small Trio.small 100 [1, 2, 3] 9 := by
  have hprovides : Provides Session.small ⟨0, 2, true⟩ Trio.small Pair.small 9 :=
    ⟨ready_small, hints_small, by decide⟩
  refine (allocates_small.roundTrips_iff literalLzo_correct (by decide) (fun _ => hprovides)
    (by decide) (by decide)).mpr ⟨by decide, by decide, fun _ => ⟨?_, ?_⟩⟩
  · exact IdSet.not_mem_empty _
  · exact IdSet.not_mem_empty _

/-- One byte more than fits into the agent's buffer. -/
theorem not_roundTrips_long :
    ¬ RoundTrips Session.small Trio.small 100000 (List.replicate 10209 7) invalidHandle := by
  rintro ⟨handle, z, z', -, hcall, hidle, -⟩
  have hlong : Agent.recvbufsz < 32 + (List.replicate 10209 (7 : UInt8)).length := by
    rw [List.length_replicate]
    decide
  exact allocates_small.idle.consumerAllocate_tooLong hlong hcall hidle

end Clara.Joint
