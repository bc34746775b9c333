import Clara.Agent.Failure
import Clara.Agent.Sizes
import Clara.Consumer.Calls
import Clara.Joint.Session
import Clara.Provider.Sizes
import Clara.Provider.Store

/-! ALLOCATE and FETCH requests from the consumer's call to its result, for an allocation at the
provider and for one of the agent itself. -/
namespace Clara.Joint

open Conc

variable {Cl : Type} {g : Session Cl} {x : Trio Cl} {y : Pair Cl} {provider : Agent.Provider}

theorem Ready.conn (h : Ready g provider x y) : y.agent.net (.consumer g.c) = .fresh := by
  have hne : Agent.Sd.consumer g.c ≠ .provider g.p := (consumer_ne g.p g.c).symm
  rw [← h.settles.conn hne, h.idle.conn]

theorem Ready.phase (h : Ready g provider x y) : y.agent.phase (.consumer g.c) = .serving := by
  obtain ⟨rs, hx⟩ := h.settles.agent
  have hphase := h.idle.phase
  rw [hx] at hphase
  exact hphase

/-- What the agent has sent to the provider is not seen by its threads. -/
theorem Ready.exists_agent (h : Ready g provider x y) :
    ∃ n, x.pair.agent = y.agent.withNet n := by
  obtain ⟨rs, hx⟩ := h.settles.agent
  exact ⟨_, hx⟩

theorem Ready.of_quiet {z : Pair Cl} (hz : Quiet g.toSetting z)
    (hconn : z.agent.net (.consumer g.c) = .fresh)
    (hphase : z.agent.phase (.consumer g.c) = .serving)
    (ha : Attached g.toSetting provider z) (hs : z.provider.Sound) :
    Ready g provider ⟨.wire [] [], z⟩ z where
  idle := ⟨rfl, hconn, hphase⟩
  settles := hz.settles
  attached := ha
  sound := hs

def Pair.fetched (y : Pair Cl) (lzo : Lzo) (params : FetchRequest) (a : Provider.Allocation)
    (b : Bytes) : Pair Cl :=
  y.served ((y.provider.took params.bytes).freed params.handle a)
    [.msg Msg.fetchRequest params.bytes]
    (Provider.fetchRecords lzo params.streamOpts b params.size)

theorem Hints.run_handleFetch {params : FetchRequest} (hh : Hints g.p x.pair.agent params.hint)
    (hu : Agent.Usable (.consumer g.c) .objects x.pair.agent) :
    run g.toSetting (.consumer g.c) (Agent.handleFetch g.lzo g.fuel g.c params) x.pair =
      run g.toSetting (.consumer g.c) (Agent.agentForwardFetch g.fuel g.c g.p params) x.pair := by
  obtain ⟨a, o, hfind, ho, hp⟩ := hh.run_findHint hu .fetchHint
  have hread := run_done (g := g.toSetting) (x := x.pair)
    (Agent.run_read (t := .consumer g.c) ho)
  rw [Agent.handleFetch, if_neg hh.1, run_bind, run_done hfind, Outcome.bind_done, run_bind,
    hread, Outcome.bind_done, hp]

theorem Ready.run_handleFetch (h : Ready g provider x y)
    (hu : Agent.Usable (.consumer g.c) .objects x.pair.agent) {params : FetchRequest}
    (hh : Hints g.p x.pair.agent params.hint) (hsize : 0 < params.size)
    (hblk : 0 < params.streamOpts.blksz.toNat) {a : Provider.Allocation} {b : Bytes}
    (hfit : params.streamOpts.Fits g.lzo b) (ha : y.provider.Holds params.handle a b)
    (hl : g.lzo.Correct) (hfuel : 140 * b.length + 2 ≤ g.fuel) :
    run g.toSetting (.consumer g.c) (Agent.handleFetch g.lzo g.fuel g.c params) x.pair =
      .done ((y.fetched g.lzo params a b).onAgent
        (toConsumer g.c (Provider.fetchRecords g.lzo params.streamOpts b params.size))) () := by
  have hw : g.Works [.msg Msg.fetchRequest params.bytes]
      (Provider.fetchRecords g.lzo params.streamOpts b params.size) y.provider
      ((y.provider.took params.bytes).freed params.handle a) :=
    Provider.works_fetch h.sound hblk hfit ha
  have hc : (y.agent.net (.consumer g.c)).sendFails = [] := by
    rw [h.conn]
    rfl
  have hrecords := fuel_streamRecords hl hblk b
  rw [hh.run_handleFetch hu, Pair.fetched]
  rw [Provider.fetchRecords, if_pos hsize] at hw ⊢
  exact h.settles.run_agentForwardFetch h.attached hsize hfit (by omega) hc hw

theorem Ready.run_handleFetch_zero (h : Ready g provider x y)
    (hu : Agent.Usable (.consumer g.c) .objects x.pair.agent) {params : FetchRequest}
    (hh : Hints g.p x.pair.agent params.hint) (hsize : ¬ 0 < params.size) :
    run g.toSetting (.consumer g.c) (Agent.handleFetch g.lzo g.fuel g.c params) x.pair =
      .done (x.pair.sending g.toSetting [.msg Msg.fetchRequest params.bytes]) () := by
  rw [hh.run_handleFetch hu]
  exact h.settles.run_agentForwardFetch_zero h.attached g.c hsize

theorem Ready.run_allocateRemote (h : Ready g provider x y)
    (hu : Agent.Usable (.consumer g.c) .objects x.pair.agent)
    (hpool : Agent.Usable (.consumer g.c) .idPool x.pair.agent) {params : AllocateRequest}
    (hh : Hints g.p x.pair.agent params.hint) (hid : y.agent.nextId ∉ y.agent.sets .idPool)
    (extra : Bytes) :
    run g.toSetting (.consumer g.c) (Agent.allocateRemote params extra) x.pair =
      (run g.toSetting (.consumer g.c) (Agent.agentRemoteAllocate g.p
        { params with handle := y.agent.nextId } extra) (x.pair.onAgent Agent.State.withId)).bind
          fun z handle => .done z (handle.getD invalidHandle) := by
  obtain ⟨a, o, hfind, ho, hp⟩ := hh.run_findHint hu .allocateHint
  obtain ⟨n, hx⟩ := h.exists_agent
  have hnext : (x.pair.agent.candidates x.pair.agent.draws).val = y.agent.nextId := by
    rw [hx]
    rfl
  have hid' : (x.pair.agent.candidates x.pair.agent.draws).val ∉ x.pair.agent.sets .idPool := by
    rw [hnext, hx]
    exact hid
  have hcreate : run g.toSetting (.consumer g.c) Agent.idCreate x.pair =
      .done (x.pair.onAgent Agent.State.withId) y.agent.nextId := by
    rw [run_done (Agent.run_idCreate hpool hid'), hnext]
    rfl
  have hobject : run g.toSetting (.consumer g.c) (Agent.read .object a)
      (x.pair.onAgent Agent.State.withId) = .done (x.pair.onAgent Agent.State.withId) o :=
    run_done (Agent.run_read (show x.pair.agent.withId.heap .object a = some o from ho))
  rw [Agent.allocateRemote, run_bind, run_done hfind, Outcome.bind_done, run_bind, hcreate,
    Outcome.bind_done, run_bind, hobject, Outcome.bind_done, run_bind, hp]
  rfl

theorem run_handleAllocate_hint {consumer : Agent.Consumer}
    (hc : x.pair.agent.heap .consumer g.c = some consumer) {params : AllocateRequest}
    (hhandle : params.handle = invalidHandle) (hh : params.hint ≠ invalidHandle)
    (extra : Bytes) :
    run g.toSetting (.consumer g.c) (Agent.handleAllocate g.c params extra) x.pair =
      (run g.toSetting (.consumer g.c) (Agent.allocateRemote params extra) x.pair).bind
        fun z handle => run g.toSetting (.consumer g.c) (do
          if ← Agent.net (claraSendAllocateResponse (.consumer g.c) handle) then pure ()
          else Agent.allocateUndo g.c none) z := by
  have hread : run g.toSetting (.consumer g.c) (Agent.read .consumer g.c) x.pair =
      .done x.pair consumer := run_done (Agent.run_read hc)
  rw [Agent.handleAllocate, run_bind, hread, Outcome.bind_done, if_neg (not_not_intro hhandle),
    if_neg hh, run_bind]

theorem Ready.run_handleAllocate (h : Ready g provider x y)
    (hu : Agent.Usable (.consumer g.c) .objects x.pair.agent)
    (hpool : Agent.Usable (.consumer g.c) .idPool x.pair.agent) {consumer : Agent.Consumer}
    (hc : x.pair.agent.heap .consumer g.c = some consumer) (params : AllocateRequest)
    (hhandle : params.handle = invalidHandle) (hh : Hints g.p x.pair.agent params.hint)
    (hid : y.agent.nextId ∉ y.agent.sets .idPool) {extra : Bytes} {q : Provider.State Cl}
    (hw : g.Works [.msg Msg.allocateRequest
        (AllocateRequest.bytes { params with handle := y.agent.nextId } ++ extra)]
      [.msg Msg.allocateResponse (Bytes.word y.agent.nextId)] y.provider q) :
    run g.toSetting (.consumer g.c) (Agent.handleAllocate g.c params extra) x.pair =
      .done (((y.onAgent Agent.State.withId).served q [.msg Msg.allocateRequest
          (AllocateRequest.bytes { params with handle := y.agent.nextId } ++ extra)]
        [.msg Msg.allocateResponse (Bytes.word y.agent.nextId)]).onAgent
          (toConsumer g.c [.msg Msg.allocateResponse (Bytes.word y.agent.nextId)])) () := by
  have hset := h.settles.onAgent (f := Agent.State.withId) ⟨fun _ => rfl, fun _ _ => rfl⟩
  have hremote := hset.run_agentRemoteAllocate (t := .consumer g.c)
    (h.attached.of_heap (x := y.onAgent Agent.State.withId) rfl) hw
  obtain ⟨z, hz⟩ : ∃ z, z = (y.onAgent Agent.State.withId).served q [.msg Msg.allocateRequest
      (AllocateRequest.bytes { params with handle := y.agent.nextId } ++ extra)]
      [.msg Msg.allocateResponse (Bytes.word y.agent.nextId)] := ⟨_, rfl⟩
  have hsend : run g.toSetting (.consumer g.c)
      (Agent.net (claraSendAllocateResponse (.consumer g.c) y.agent.nextId)) z =
      .done (z.onAgent (toConsumer g.c [.msg Msg.allocateResponse
        (Bytes.word y.agent.nextId)])) true := by
    have hf : (z.agent.net (.consumer g.c)).sendFails = [] := by
      have hconn : z.agent.net (.consumer g.c) = .fresh := by
        rw [hz]
        exact h.conn
      rw [hconn]
      rfl
    exact run_net_done (Net.run_claraSendAllocateResponse hf y.agent.nextId)
  rw [← hz] at hremote ⊢
  rw [run_handleAllocate_hint hc hhandle hh.1, h.run_allocateRemote hu hpool hh hid, hremote,
    Outcome.bind_done, Outcome.bind_done, Option.getD_some, run_bind, hsend]
  rfl

theorem Ready.run_handleAllocate_breaks (h : Ready g provider x y)
    (hu : Agent.Usable (.consumer g.c) .objects x.pair.agent)
    (hpool : Agent.Usable (.consumer g.c) .idPool x.pair.agent) {consumer : Agent.Consumer}
    (hc : x.pair.agent.heap .consumer g.c = some consumer) (params : AllocateRequest)
    (hhandle : params.handle = invalidHandle) (hh : Hints g.p x.pair.agent params.hint)
    (hid : y.agent.nextId ∉ y.agent.sets .idPool) {extra : Bytes} {f : Provider.Fault}
    (hb : g.Breaks [.msg Msg.allocateRequest
      (AllocateRequest.bytes { params with handle := y.agent.nextId } ++ extra)] f y.provider) :
    run g.toSetting (.consumer g.c) (Agent.handleAllocate g.c params extra) x.pair =
      .fault (.provider f) := by
  have hset := h.settles.onAgent (f := Agent.State.withId) ⟨fun _ => rfl, fun _ _ => rfl⟩
  have hremote := hset.run_agentRemoteAllocate_breaks (t := .consumer g.c)
    (h.attached.of_heap (x := y.onAgent Agent.State.withId) rfl) hb
  rw [run_handleAllocate_hint hc hhandle hh.1, h.run_allocateRemote hu hpool hh hid, hremote]
  rfl

theorem zero_lt_blksz (n : UInt64) : 0 < (Consumer.streamOptions n).blksz.toNat := by
  rw [Consumer.blksz_streamOptions]
  decide

theorem fits_streamOptions {lzo : Lzo} (hl : lzo.Correct) {n : UInt64}
    (hm : (Consumer.streamOptions n).Buffered lzo) (b : Bytes) :
    (Consumer.streamOptions n).Fits lzo b := by
  refine StreamOptions.fits hl ?_ hm b
  rw [Consumer.blksz_streamOptions]
  decide

theorem Idle.call_consumerAllocate (h : Idle g x) {nmemb size : UInt64} {data : Bytes}
    {hint : GlobalId} (hm : 32 + data.length ≤ Agent.recvbufsz) {handle : Handle} {z : Pair Cl}
    (hz : z.agent.net (.consumer g.c) = .fresh)
    (hphase : z.agent.phase (.consumer g.c) = .serving)
    (hrun : run g.toSetting (.consumer g.c)
      (Agent.handleAllocate g.c ⟨invalidHandle, nmemb, size, hint⟩ data) x.pair =
        .done (z.onAgent (toConsumer g.c [.msg Msg.allocateResponse (Bytes.word handle)])) ()) :
    call g (Consumer.consumerAllocate nmemb size (some data) hint) x =
      .done ⟨.wire [] [], z⟩ handle := by
  obtain ⟨msg, hmsg⟩ : ∃ msg : Bytes,
    msg = AllocateRequest.bytes ⟨invalidHandle, nmemb, size, hint⟩ ++ data := ⟨_, rfl⟩
  have hlen : msg.length ≤ Agent.recvbufsz := by
    rw [hmsg, List.length_append]
    simpa [AllocateRequest.bytes] using hm
  have hparse : Agent.ConsumerRequest.parse
      ((g.stale (x.pair.heard g.c (.msg Msg.allocateRequest msg))).receive msg)
      Msg.allocateRequest msg.length =
        some (.allocate ⟨invalidHandle, nmemb, size, hint⟩ data) := by
    rw [hmsg]
    exact Agent.parse_allocate _ hm
  have hsend := h.call_sendRequest Msg.allocateRequest msg
  rw [Consumer.consumerAllocate, call_bind, claraSendAllocateRequest, Option.getD_some, ← hmsg,
    hsend, Outcome.bind_done, if_pos rfl, claraRecvAllocateResponse, recvWord, Prog.bind_assoc',
    h.call_answered hlen hparse hz hphase hrun (by simp)]
  simp [Received.stored]

theorem Idle.call_sendFetch (h : Idle g x) {handle : Handle} (hh : handle ≠ invalidHandle)
    (n : UInt64) (hint : GlobalId) :
    call g (claraSendFetchRequest () handle n hint (Consumer.streamOptions n)) x =
      .done (x.saying [.msg Msg.fetchRequest
        (FetchRequest.bytes ⟨handle, n, hint, Consumer.streamOptions n⟩)]) true := by
  rw [claraSendFetchRequest, if_neg hh]
  exact h.call_sendRequest _ _

/-- A FETCH request of some bytes, up to the stream in the response. -/
theorem Idle.call_consumerFetch (h : Idle g x) {handle : Handle} (hh : handle ≠ invalidHandle)
    {n : UInt64} (hn : 0 < n) {hint : GlobalId} {b : Bytes} {z : Pair Cl}
    (hz : z.agent.net (.consumer g.c) = .fresh)
    (hphase : z.agent.phase (.consumer g.c) = .serving)
    (hrun : run g.toSetting (.consumer g.c) (Agent.handleFetch g.lzo g.fuel g.c
      ⟨handle, n, hint, Consumer.streamOptions n⟩) x.pair = .done (z.onAgent (toConsumer g.c
        (Provider.fetchRecords g.lzo (Consumer.streamOptions n) b n))) ()) (fuel : ℕ) :
    call g (Consumer.consumerFetch g.lzo fuel handle n hint) x =
      call g (streamRecv g.lzo () fuel n.toNat >>= fun r => pure (r.1 == n.toNat, r.2))
        ⟨.wire (Net.incoming (streamRecords g.lzo (Consumer.streamOptions n) b)) [], z⟩ := by
  have hne : n ≠ 0 := fun h0 => by
    rw [h0] at hn
    exact absurd hn (by decide)
  rw [Provider.fetchRecords, if_pos hn] at hrun
  rw [Consumer.consumerFetch, if_neg hh, call_bind, h.call_sendFetch hh, Outcome.bind_done,
    if_pos rfl, if_neg hne, claraRecvFetchResponse,
    h.call_answered (by simp [FetchRequest.bytes, StreamOptions.bytes, Agent.recvbufsz])
      (Agent.parse_fetch _ _) hz hphase hrun (by simp)]
  simp only [Received.stored]
  rw [call_bind, Bytes.length_word]
  rfl

theorem Idle.call_fetched (h : Idle g x) {handle : Handle} (hh : handle ≠ invalidHandle)
    {n : UInt64} (hn : 0 < n) {hint : GlobalId} {b : Bytes} {z : Pair Cl}
    (hz : z.agent.net (.consumer g.c) = .fresh)
    (hphase : z.agent.phase (.consumer g.c) = .serving)
    (hrun : run g.toSetting (.consumer g.c) (Agent.handleFetch g.lzo g.fuel g.c
      ⟨handle, n, hint, Consumer.streamOptions n⟩) x.pair = .done (z.onAgent (toConsumer g.c
        (Provider.fetchRecords g.lzo (Consumer.streamOptions n) b n))) ())
    (hl : g.lzo.Correct) (hm : (Consumer.streamOptions n).Buffered g.lzo)
    (hlen : b.length = n.toNat) {fuel : ℕ} (hfuel : 2 * b.length + 68 ≤ fuel) :
    call g (Consumer.consumerFetch g.lzo fuel handle n hint) x =
      .done ⟨.wire [] [], z⟩ (true, b) := by
  have hblk := zero_lt_blksz n
  have hfit := fits_streamOptions hl hm b
  have hinq : ((.wire (Net.incoming (streamRecords g.lzo (Consumer.streamOptions n) b)) [] :
      Net Unit) ()).inq = Net.incoming (streamRecords g.lzo (Consumer.streamOptions n) b) ++ [] := by
    rw [Net.wire_apply, List.append_nil]
  have hrecv : Net.run (streamRecv g.lzo () fuel n.toNat)
      (.wire (Net.incoming (streamRecords g.lzo (Consumer.streamOptions n) b)) []) =
      .done (.wire [] []) (b.length, b) := by
    rw [← hlen, run_streamRecv hl hblk hfit hfuel hinq, Net.wire_withInq]
  rw [h.call_consumerFetch hh hn hz hphase hrun, call_bind, call_done hrecv, Outcome.bind_done,
    hlen, beq_self_eq_true]
  rfl

theorem Ready.call_fetched (h : Ready g provider x y) (hl : g.lzo.Correct)
    (hu : Agent.Usable (.consumer g.c) .objects x.pair.agent) {handle : Handle}
    (hh : handle ≠ invalidHandle) {hint : GlobalId} (hhint : Hints g.p x.pair.agent hint)
    {a : Provider.Allocation} {b : Bytes} (ha : y.provider.Holds handle a b) {n : UInt64}
    (hm : (Consumer.streamOptions n).Buffered g.lzo) (hlen : b.length = n.toNat) (hn : 0 < n)
    (hg : 140 * b.length + 2 ≤ g.fuel) {fuel : ℕ} (hfuel : 2 * b.length + 68 ≤ fuel) :
    call g (Consumer.consumerFetch g.lzo fuel handle n hint) x =
      .done ⟨.wire [] [], y.fetched g.lzo ⟨handle, n, hint, Consumer.streamOptions n⟩ a b⟩
        (true, b) := by
  let params : FetchRequest := ⟨handle, n, hint, Consumer.streamOptions n⟩
  have hparams : Hints g.p x.pair.agent params.hint := hhint
  have hrun :=
    h.run_handleFetch hu hparams hn (zero_lt_blksz n) (fits_streamOptions hl hm b) ha hl hg
  have hconn : (y.fetched g.lzo params a b).agent.net (.consumer g.c) = .fresh := h.conn
  have hphase : (y.fetched g.lzo params a b).agent.phase (.consumer g.c) = .serving := h.phase
  exact h.idle.call_fetched hh hn hconn hphase hrun hl hm hlen hfuel

/-- The first bytes of an allocation of the agent, which is gone then. -/
theorem Idle.call_fetchLocal (h : Idle g x) (hl : g.lzo.Correct)
    (hk : Agent.Keeps g.c x.pair.agent)
    (hpool : Agent.Usable (.consumer g.c) .idPool x.pair.agent) {handle : Handle}
    (hh : handle ≠ invalidHandle) {a ptr : Addr} {b : Bytes}
    (hs : x.pair.agent.Stores g.c handle a ptr b) {n : UInt64}
    (hm : (Consumer.streamOptions n).Buffered g.lzo) (hn : 0 < n) (hle : n.toNat ≤ b.length)
    {fuel : ℕ} (hfuel : 2 * n.toNat + 68 ≤ fuel) :
    call g (Consumer.consumerFetch g.lzo fuel handle n invalidHandle) x =
      .done ⟨.wire [] [], x.pair.onAgent fun s => s.dropped g.c handle a ptr⟩
        (true, b.take n.toNat) := by
  have hlen : (b.take n.toNat).length = n.toNat := by rw [List.length_take, min_eq_left hle]
  have hsend : (x.pair.agent.net (.consumer g.c)).sendFails = [] := by
    rw [h.conn]
    rfl
  have hfit := fits_streamOptions hl hm (b.take n.toNat)
  have hlocal := Agent.run_fetchLocal (t := .consumer g.c)
    ⟨handle, n, invalidHandle, Consumer.streamOptions n⟩ (zero_lt_blksz n) hk hpool hs hn hfit hsend
  have hrecords : Provider.fetchRecords g.lzo (Consumer.streamOptions n) (b.take n.toNat) n =
      .msg Msg.fetchResponse (Bytes.word (UInt64.ofNat (b.take n.toNat).length)) ::
        streamRecords g.lzo (Consumer.streamOptions n) (b.take n.toNat) := by
    rw [Provider.fetchRecords, if_pos hn]
  have hrun : run g.toSetting (.consumer g.c) (Agent.handleFetch g.lzo g.fuel g.c
      ⟨handle, n, invalidHandle, Consumer.streamOptions n⟩) x.pair =
      .done ((x.pair.onAgent fun s => s.dropped g.c handle a ptr).onAgent (toConsumer g.c
        (Provider.fetchRecords g.lzo (Consumer.streamOptions n) (b.take n.toNat) n))) () := by
    rw [Agent.handleFetch, if_pos rfl, run_done hlocal, hrecords]
    rfl
  have hconn : (x.pair.onAgent fun s => s.dropped g.c handle a ptr).agent.net (.consumer g.c) =
      .fresh := h.conn
  have hphase : (x.pair.onAgent fun s => s.dropped g.c handle a ptr).agent.phase
      (.consumer g.c) = .serving := h.phase
  exact h.call_fetched hh hn hconn hphase hrun hl hm hlen (by rwa [hlen])

/-- When an allocation has just the size that was asked for, in the agent itself and at a provider:
there must be a buffer for it, data must fill it, and at a provider all of it must be fetched. -/
theorem sizesExact_iff {s : Agent.State} {c : Addr} (hs : Agent.Hosts s c)
    {r : Provider.State Cl} (hr : r.Sound) (lzo : Lzo) (fuel : ℕ) (lib : Provider.OpenCl Cl)
    (params : AllocateRequest) (extra : Bytes) (n : UInt64) :
    (params.hint = invalidHandle →
      (Agent.SizesExact lzo fuel c params extra s ↔ ¬ s.Refuses (.consumer c) ∧
        (params.handle ≠ invalidHandle ∨ s.DrawsNew c ∧ s.Callocs params ∧
          (extra = [] ∨ extra.length = params.length)))) ∧
    (Provider.SizesExactly lzo fuel lib params extra n r ↔
      32 + extra.length ≤ Provider.recvbufsz ∧ Provider.Fresh params r ∧
        (extra = [] ∨ params.length ≤ extra.length) ∧ (n = 0 ∨ params.length ≤ n.toNat)) :=
  ⟨fun hhint => hs.sizesExact lzo fuel hhint, Provider.sizesExactly_iff hr lzo fuel lib⟩

private theorem hosts_small : Agent.Hosts (.small Agent.someIds) 3 where
  consumer := rfl
  pool := ⟨rfl, rfl⟩
  allocations := ⟨rfl, rfl⟩
  fresh := (Agent.small_settled Agent.someIds).fresh
  memory := by decide

private theorem small_not_refuses :
    ¬ (Agent.State.small Agent.someIds).Refuses (.consumer 3) := by
  intro h
  cases h

private theorem sound_silent :
    (Provider.State.initial Provider.silentCl [] fun _ => 4096).Sound :=
  (Provider.refines_initial _ Provider.registered_nil _).sound

/-- Eight bytes, with and without data, that are fetched whole. -/
theorem sizesExact_eight :
    Agent.SizesExact literalLzo 1000 3 ⟨invalidHandle, 2, 4, invalidHandle⟩ [1, 2, 3, 4, 5, 6, 7, 8]
        (.small Agent.someIds) ∧
      Provider.SizesExactly literalLzo 1000 Provider.silentCl ⟨5, 2, 4, 9⟩ [] 8
        (.initial Provider.silentCl [] fun _ => 4096) :=
  ⟨((sizesExact_iff hosts_small sound_silent literalLzo 1000 Provider.silentCl _ _ 8).1 rfl).mpr
      ⟨small_not_refuses, .inr ⟨⟨by decide, by decide⟩, by decide, .inr (by decide)⟩⟩,
    (sizesExact_iff hosts_small sound_silent literalLzo 1000 Provider.silentCl _ _ 8).2.mpr
      ⟨by decide, ⟨by decide, by decide, by decide, by decide⟩, .inl rfl, .inr (by decide)⟩⟩

/-- Where the size overflows there is no buffer, and of eight bytes at a provider four cannot be
fetched. -/
theorem not_sizesExact_overflow :
    ¬ Agent.SizesExact literalLzo 1000 3
        ⟨invalidHandle, 0x100000000, 0x100000000, invalidHandle⟩ [] (.small Agent.someIds) ∧
      ¬ Provider.SizesExactly literalLzo 1000 Provider.silentCl ⟨5, 0x100000000, 0x100000000, 9⟩
        [] 8 (.initial Provider.silentCl [] fun _ => 4096) ∧
      ¬ Provider.SizesExactly literalLzo 1000 Provider.silentCl ⟨5, 2, 4, 9⟩ [] 4
        (.initial Provider.silentCl [] fun _ => 4096) := by
  refine ⟨fun h => ?_, fun h => ?_, fun h => ?_⟩
  · obtain ⟨-, hcond⟩ := (hosts_small.sizesExact literalLzo 1000 rfl).mp h
    obtain ⟨-, hsize, -⟩ := hcond.resolve_left (not_not_intro rfl)
    revert hsize
    decide
  · obtain ⟨-, hfresh, -, -⟩ := (Provider.sizesExactly_iff sound_silent literalLzo 1000
      Provider.silentCl).mp h
    have hsize := hfresh.size
    revert hsize
    decide
  · obtain ⟨-, -, -, hn⟩ := (Provider.sizesExactly_iff sound_silent literalLzo 1000
      Provider.silentCl).mp h
    revert hn
    decide

end Clara.Joint
