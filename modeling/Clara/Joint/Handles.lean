import Clara.Joint.Custody
import Clara.Joint.RoundTrip

/-! The requests of a consumer and the handles it holds: what a turn of the consumer's thread does
to those of its allocations in the agent and to those at the provider. -/
namespace Clara.Joint

open Conc

variable {Cl : Type} {g : Setting Cl} {t : Agent.Tid} {x y z : Pair Cl} {α β : Type}

/-- What an operation waits for is not at the provider, unless it is about the connection there. -/
private theorem exec_blocked {o : Agent.Op} {s : Agent.State} {n : Net Agent.Sd}
    (hwire : o.area ≠ .wire) (hn : ∀ sd, Agent.Sd.area sd ≠ .wire → n sd = s.net sd)
    (h : Agent.exec t o s = .blocked) : Agent.exec t o (s.withNet n) = .blocked := by
  cases o with
  | net o =>
    have hout : Net.exec o s.net = .blocked := by
      rw [Agent.exec] at h
      cases he : Net.exec o s.net with
      | done n' r =>
        rw [he] at h
        cases h
      | fault f =>
        rw [he] at h
        cases h
      | blocked => rfl
    have hon : o.On fun sd => Agent.Sd.area sd ≠ .wire := by
      cases o with
      | fail f => trivial
      | spin => trivial
      | _ => exact hwire
    rw [Agent.exec, Agent.State.withNet_net, Net.exec_blocked hon hn hout]
  | deliver sd i => cases h
  | _ =>
    simp only [Agent.exec, Agent.State.withNet, Agent.ofSet] at h ⊢
    repeat' split at h
    all_goals first
      | (cases h; done)
      | simp_all only [if_false, Bool.false_eq_true]

/-- What does not use the connection to the provider is done without it. -/
theorem run_inward {S : List Agent.Area} {p : Agent.AProg α} {a : α}
    (hp : p.All fun o => o.area ∈ S) (hwire : .wire ∉ S) (h : run g t p x = .done y a) :
    Agent.run t p x.agent = .done y.agent a ∧ y = { x with agent := y.agent } := by
  induction p generalizing x with
  | ret b =>
    obtain ⟨rfl, rfl⟩ := Outcome.done.inj h
    exact ⟨rfl, rfl⟩
  | op o k ih =>
    have hout : o.area ≠ .wire := fun heq => hwire (heq ▸ hp.1)
    rw [run, Prog.run_op] at h
    obtain ⟨x₁, r, ho, hk⟩ := Outcome.bind_eq_done h
    have hexec : Agent.exec t o x.agent = .done x₁.agent r ∧ x₁ = { x with agent := x₁.agent } := by
      by_cases hblocked : Agent.exec t o x.agent = .blocked
      · have hperform : run g t (Agent.perform o) x = .done x₁ r :=
          (Prog.run_perform _ _ _ _).trans ho
        rw [run_perform_blocked hblocked] at hperform
        obtain ⟨z, _, hattend, hz⟩ := Outcome.bind_eq_done hperform
        obtain ⟨n, hn, hothers⟩ := attend_agent hattend
        have hsame : ∀ sd, Agent.Sd.area sd ≠ .wire → n sd = x.agent.net sd := by
          intro sd hsd
          apply hothers
          rintro rfl
          exact hsd rfl
        rw [hn, exec_blocked hout hsame hblocked] at hz
        cases hz
      · have hne : agentPart.within Fault.agent Agent.exec t o x ≠ .blocked := fun hpart =>
          hblocked (Outcome.map_eq_blocked hpart)
        rw [exec, attended_of_ne hne] at ho
        obtain ⟨s, hs, rfl⟩ := Outcome.map_eq_done ho
        exact ⟨hs, rfl⟩
    obtain ⟨hrun, hy⟩ := ih r (hp.2 r) hk
    constructor
    · rw [Agent.run, Prog.run_op, hexec.1]
      exact hrun
    · rw [hy, hexec.2]

theorem run_read {k : Agent.Kind} {a : Addr} {r : k.Rec}
    (h : run g t (Agent.read k a) x = .done y r) : y = x ∧ x.agent.heap k a = some r := by
  have hall := Agent.passes_read (Agent.passes_all [.look]) k a (by decide)
  obtain ⟨hrun, hy⟩ := run_inward hall (by decide) h
  obtain ⟨hsame, hr⟩ := Agent.run_read_done hrun
  rw [hsame] at hy
  exact ⟨hy, hr⟩

/-- Programs that are not about allocations leave the consumers' handles alone. -/
theorem run_handles {S : List Agent.Area} {p : Agent.AProg α} {a : α} {c : Addr}
    (hp : p.All fun o => o.area ∈ S) (hmade : .allocation ∉ S) (hentered : .allocated ∉ S)
    (h : run g t p x = .done y a) : y.agent.handles c = x.agent.handles c := by
  refine run_agent_keeps (I := fun s => s.handles c = x.agent.handles c) hp ?_ ?_ h rfl
  · intro o s s' r ho hexec hs
    have hout : ∀ area, area ∉ S → o.area ≠ area := fun area ha heq => ha (heq ▸ ho)
    have hsets := Agent.exec_allocations (c := c) hexec (hout _ hmade) (hout _ hentered)
    exact (Agent.State.handles_eq hsets.1).trans hs
  · intro s n hn hs
    exact hs

/-- Where an allocation of a consumer is: in the agent, or else at the provider. -/
abbrev Place := Bool × Handle

/-- Allocations without a hint are in the agent. -/
def placeOf (r : Handle × GlobalId) : Place := (r.2 == invalidHandle, r.1)

def stock (K : Set Place) (b : Bool) : Set Handle := {handle | (b, handle) ∈ K}

section
variable {K : Set Place} {b b' : Bool} {handle : Handle}

theorem stock_insert_self : stock (insert (b, handle) K) b = insert handle (stock K b) := by
  ext key
  simp [stock]

theorem stock_insert_ne (h : b' ≠ b) : stock (insert (b, handle) K) b' = stock K b' := by
  ext key
  simp [stock, h]

theorem stock_diff_self : stock (K \ {(b, handle)}) b = stock K b \ {handle} := by
  ext key
  simp [stock]

theorem stock_diff_ne (h : b' ≠ b) : stock (K \ {(b, handle)}) b' = stock K b' := by
  ext key
  simp [stock, h]

end

variable (g) in
/-- The thread of a consumer between two of its requests: `q` waits for it, it has sent `out`, which
has not been delivered, and the consumer's handles are at the places `K`. -/
structure Attends (c : Addr) (K : Set Place) (q : List Incoming) (out : List Sent) (x : Pair Cl) :
    Prop where
  conn : x.agent.net (.consumer c) = ⟨q, out, []⟩
  own : x.agent.handles c = stock K true
  waits : Waits g (stock K false) [] x

section
variable {c p : Addr} {K : Set Place} {T : Set Handle} {q : List Incoming} {rs out : List Sent}

/-- What the agent does on the connections to consumers. -/
theorem Waits.withNet (h : Waits g T rs x) {n : Net Agent.Sd}
    (hn : ∀ p, n (.provider p) = x.agent.net (.provider p)) :
    Waits g T rs { x with agent := x.agent.withNet n } := by
  obtain ⟨ps, f, hsilent, hhandles, hconn⟩ := h.conn
  refine ⟨⟨ps, f, hsilent, hhandles, (hn g.p).trans hconn⟩, ?_, h.provider, h.alone⟩
  intro p
  show (n (.provider p)).inq = []
  rw [hn, h.inq]

theorem Attends.push (h : Attends g c K q out x) (rs : List Sent) :
    Attends g c K q (out ++ rs) { x with agent := toConsumer c rs x.agent } := by
  refine ⟨?_, h.own, h.waits.withNet fun p => ?_⟩
  · show x.agent.net.push _ _ _ = _
    rw [Net.push, Function.update_self, h.conn]
  · exact Net.push_of_ne _ _ (consumer_ne p c) _

theorem Attends.send (h : Attends g c K q out x) {type : MessageType} {msg : Bytes} {r : Option ℕ}
    (hrun : run g t (Agent.net (claraSendmsg (.consumer c) type msg)) x = .done y r) :
    r = some msg.length ∧ Attends g c K q (out ++ [.msg type msg]) y := by
  have hf : (x.agent.net (.consumer c)).sendFails = [] := by rw [h.conn]
  rw [run_net_done (Net.run_claraSendmsg hf type msg)] at hrun
  obtain ⟨rfl, rfl⟩ := Outcome.done.inj hrun
  exact ⟨rfl, h.push [.msg type msg]⟩

variable (g t c) in
/-- A program that leaves the handles and the consumer's connection alone. -/
def Steady (p : Agent.AProg α) : Prop :=
  ∀ K q out x y a, Attends g c K q out x → run g t p x = .done y a → Attends g c K q out y

theorem steady_pure (a : α) : Steady g t c (pure a) := by
  intro K q out x y b hx h
  obtain ⟨rfl, -⟩ := Outcome.done.inj h
  exact hx

theorem Steady.bind {p : Agent.AProg α} {f : α → Agent.AProg β} (hp : Steady g t c p)
    (hf : ∀ a, Steady g t c (f a)) : Steady g t c (p >>= f) := by
  intro K q out x z b hx h
  obtain ⟨y, a, hfirst, hsecond⟩ := bind_done h
  exact hf a K q out y z b (hp K q out x y a hx hfirst) hsecond

theorem Spares.steady {S : List Agent.Area} {p : Agent.AProg α} (hp : p.All fun o => o.area ∈ S)
    (hanswer : .answer ∉ S) (harrival : .arrival ∉ S) (hmade : .allocation ∉ S)
    (hentered : .allocated ∉ S) (h : Spares g t p) : Steady g t c p := by
  intro K q out x y a hx hrun
  refine ⟨?_, ?_, h _ x y a hx.waits hrun⟩
  · rw [run_conn hp hanswer harrival hrun, hx.conn]
  · rw [run_handles hp hmade hentered hrun, hx.own]

/-- What happens in the agent, the answers and the allocations apart. -/
theorem passes_steady : Agent.Passes [.look, .visit, .scratch, .lock, .reserve]
    fun _ p => Steady g t c p where
  pure := steady_pure
  bind := Steady.bind
  op o ho := by
    have hspares := (passes_spares (g := g) (t := t) (by decide) (by decide) (by decide)).op o ho
    exact hspares.steady (Prog.all_perform.mpr ho) (by decide) (by decide) (by decide) (by decide)

theorem steady_providerLock (p : Addr) : Steady g t c (Agent.providerLock p) :=
  (Agent.passes_read passes_steady .provider p (by decide)).bind fun _ =>
    Agent.passes_lockWait passes_steady _ (by decide)

theorem steady_providerUnlock (p : Addr) : Steady g t c (Agent.providerUnlock p) :=
  (Agent.passes_read passes_steady .provider p (by decide)).bind fun _ =>
    Agent.passes_lockPost passes_steady _ (by decide)

theorem executes_spares (c : Addr) :
    Agent.Executes g.lzo g.fuel c Agent.Area.silent fun _ p => Spares g t p where
  toPasses := passes_quiet
  clCreateObject target localId := spares_clCreateObject target c localId _
  agentGenericMapEvent n params target := spares_agentGenericMapEvent n params target c
  clRetainObject := Agent.passes_clRetainObject passes_quiet (by decide) c
  clReleaseObject := Agent.passes_clReleaseObject passes_quiet (by decide) c
  agentRemoteExecute := spares_agentRemoteExecute
  agentDeviceIsAvailable := spares_agentDeviceIsAvailable g.lzo g.fuel

theorem steady_agentExecute (params : ExecuteRequest) :
    Steady g t c (Agent.agentExecute g.lzo g.fuel params c) := by
  have hspares : Spares g t (Agent.agentExecute g.lzo g.fuel params c) :=
    Agent.executes_agentExecute (executes_spares c) (by decide) params
  exact hspares.steady (Agent.all_agentExecute g.lzo g.fuel c params) (by decide) (by decide)
    (by decide) (by decide)

/-- A thread that has taken the lock of a provider has found the one provider there is. -/
theorem Waits.providerLock (h : Waits g T rs x) {u : Unit}
    (hrun : run g t (Agent.providerLock p) x = .done y u) : p = g.p := by
  obtain ⟨x₁, r, hread, -⟩ := bind_done hrun
  obtain ⟨-, hr⟩ := run_read hread
  by_contra hp
  rw [h.alone p hp] at hr
  cases hr

theorem Attends.handleExecute (h : Attends g c K q out x) {params : ExecuteRequest}
    (hrun : run g t (Agent.handleExecute g.lzo g.fuel c params) x = .done y ()) :
    ∃ w, Attends g c K q (out ++ [.msg Msg.executeResponse (Bytes.word w)]) y := by
  obtain ⟨x₁, w, hexecute, hrest⟩ := bind_done hrun
  have hx₁ := steady_agentExecute params K q out x x₁ w h hexecute
  obtain ⟨x₂, b, hrespond, hpure⟩ := bind_done hrest
  obtain ⟨rfl, -⟩ := Outcome.done.inj hpure
  rw [claraSendExecuteResponse, sendRequest, Agent.net_bind] at hrespond
  obtain ⟨x₃, r, hsend, hlast⟩ := bind_done hrespond
  obtain ⟨rfl, hx₃⟩ := hx₁.send hsend
  obtain ⟨rfl, -⟩ := Outcome.done.inj hlast
  exact ⟨w, hx₃⟩

/-- What a request for an allocation does to the handles: a failed one has the invalid handle. -/
def Added (K : Set Place) (r : Handle × GlobalId) (K' : Set Place) : Prop :=
  r.1 = invalidHandle ∧ K' = K ∨ r.1 ≠ invalidHandle ∧ placeOf r ∉ K ∧ K' = insert (placeOf r) K

theorem Attends.allocateLocal (h : Attends g c K q out x) {params : AllocateRequest}
    {extra : Bytes} {a : Addr}
    (hrun : run g t (Agent.allocateLocal c params extra) x = .done y a) :
    ∃ al, y.agent.heap .allocation a = some al ∧ al.handle ≠ invalidHandle ∧
      (true, al.handle) ∉ K ∧ Attends g c (insert (true, al.handle) K) q out y := by
  have hall := Agent.passes_allocateLocal (Agent.passes_all Agent.Area.store)
    (List.Subset.refl _) c params extra
  have hspares := Agent.passes_allocateLocal (passes_spares (g := g) (t := t)
    (S := Agent.Area.store) (by decide) (by decide) (by decide)) (List.Subset.refl _) c params extra
  obtain ⟨halone, -⟩ := run_inward hall (by decide) hrun
  obtain ⟨hnet, al, hal, hvalid, hnew, hown⟩ := Agent.allocateLocal_done halone
  rw [h.own] at hnew hown
  refine ⟨al, hal, hvalid, hnew, ?_, ?_, ?_⟩
  · rw [hnet, h.conn]
  · rw [hown, stock_insert_self]
  · rw [stock_insert_ne (by decide)]
    exact hspares _ x y a h.waits hrun

theorem Attends.allocateRemote (h : Attends g c K q out x) {params : AllocateRequest}
    (hhint : params.hint ≠ invalidHandle) {extra : Bytes} {handle : Handle}
    (hrun : run g t (Agent.allocateRemote params extra) x = .done y handle) :
    ∃ K', Added K (handle, params.hint) K' ∧ Attends g c K' q out y := by
  have hK := passes_steady (g := g) (t := t) (c := c)
  obtain ⟨x₁, object, hfind, hrest⟩ := bind_done hrun
  have hx₁ := Agent.passes_findHint hK (by decide) _ _ (by decide) K q out x x₁ _ h hfind
  obtain ⟨x₂, id, hid, hrest⟩ := bind_done hrest
  have hx₂ := Agent.passes_idCreate hK (by decide) K q out x₁ x₂ _ hx₁ hid
  obtain ⟨x₃, o, hread, hrest⟩ := bind_done hrest
  have hx₃ := Agent.passes_read hK .object object (by decide) K q out x₂ x₃ _ hx₂ hread
  obtain ⟨x₄, r, hallocate, hpure⟩ := bind_done hrest
  obtain ⟨rfl, rfl⟩ := Outcome.done.inj hpure
  have hall := Agent.passes_agentRemoteAllocate (Agent.passes_all Agent.Area.wired)
    (List.Subset.refl _) o.provider { params with handle := id } extra
  have hconn := run_conn hall (by decide) (by decide) hallocate c
  have hown := run_handles (c := c) hall (by decide) (by decide) hallocate
  rw [hx₃.conn] at hconn
  rw [hx₃.own] at hown
  have hplace : placeOf (id, params.hint) = (false, id) := by
    rw [placeOf, beq_eq_false_iff_ne.mpr hhint]
  obtain ⟨rfl, hx₄⟩ | ⟨-, rfl, hnew, hx₄⟩ := hx₃.waits.agentRemoteAllocate hallocate
  · exact ⟨K, .inl ⟨rfl, rfl⟩, hconn, hown, hx₄⟩
  · have hvalid : id ≠ invalidHandle := Agent.idCreate_returns.run hid
    refine ⟨insert (false, id) K, .inr ⟨hvalid, ?_, ?_⟩, hconn, ?_, ?_⟩
    · rw [Option.getD_some, hplace]
      exact hnew
    · rw [Option.getD_some, hplace]
    · rw [hown, stock_insert_ne (by decide)]
    · rw [stock_insert_self]
      exact hx₄

theorem Attends.allocateResponse (h : Attends g c K q out x) {handle : Handle} {b : Bool}
    (hrun : run g t (Agent.net (claraSendAllocateResponse (.consumer c) handle)) x = .done y b) :
    b = true ∧ Attends g c K q (out ++ [.msg Msg.allocateResponse (Bytes.word handle)]) y := by
  rw [claraSendAllocateResponse, Agent.net_bind] at hrun
  obtain ⟨x₁, r, hsend, hlast⟩ := bind_done hrun
  obtain ⟨rfl, hx₁⟩ := h.send hsend
  obtain ⟨rfl, rfl⟩ := Outcome.done.inj hlast
  refine ⟨?_, hx₁⟩
  rw [Bytes.length_word]
  rfl

theorem Attends.handleAllocate (h : Attends g c K q out x) {params : AllocateRequest}
    (hparams : params.handle = invalidHandle) {extra : Bytes}
    (hrun : run g t (Agent.handleAllocate c params extra) x = .done y ()) :
    ∃ handle K', Added K (handle, params.hint) K' ∧
      Attends g c K' q (out ++ [.msg Msg.allocateResponse (Bytes.word handle)]) y := by
  have hK := passes_steady (g := g) (t := t) (c := c)
  obtain ⟨x₁, consumer, hread, hrest⟩ := bind_done hrun
  obtain ⟨rfl, -⟩ := run_read hread
  rw [if_neg (not_not_intro hparams)] at hrest
  by_cases hhint : params.hint = invalidHandle
  · rw [if_pos hhint] at hrest
    obtain ⟨x₂, a, hallocate, hrest⟩ := bind_done hrest
    obtain ⟨al, hal, hvalid, hnew, hx₂⟩ := h.allocateLocal hallocate
    obtain ⟨x₃, r, hrecord, hafter⟩ := bind_done hrest
    obtain ⟨rfl, hr⟩ := run_read hrecord
    obtain rfl := Option.some.inj (hr.symm.trans hal)
    obtain ⟨x₄, b, hrespond, hlast⟩ := bind_done hafter
    obtain ⟨rfl, hx₄⟩ := hx₂.allocateResponse hrespond
    obtain ⟨rfl, -⟩ := Outcome.done.inj hlast
    have hplace : placeOf (r.handle, params.hint) = (true, r.handle) := by
      rw [hhint]
      rfl
    refine ⟨r.handle, _, .inr ⟨hvalid, ?_, ?_⟩, hx₄⟩
    · rw [hplace]
      exact hnew
    · rw [hplace]
  · rw [if_neg hhint] at hrest
    obtain ⟨x₂, handle, hallocate, hrest⟩ := bind_done hrest
    obtain ⟨K', hadded, hx₂⟩ := h.allocateRemote hhint hallocate
    obtain ⟨x₃, b, hrespond, hlast⟩ := bind_done hrest
    obtain ⟨rfl, hx₃⟩ := hx₂.allocateResponse hrespond
    obtain ⟨rfl, -⟩ := Outcome.done.inj hlast
    exact ⟨handle, K', hadded, hx₃⟩

/-- What a fetch sends: bytes only where some are asked for. -/
def Fetched (lzo : Lzo) (n : UInt64) (sent : List Sent) : Prop :=
  (0 < n → Responds lzo (Consumer.streamOptions n) sent) ∧ (¬ 0 < n → sent = [])

theorem Attends.fetchLocal (hl : Consumer.Compresses g.lzo) (h : Attends g c K q out x)
    {handle : Handle} {n : UInt64} {hint : GlobalId}
    (hrun : run g t (Agent.fetchLocal g.lzo c ⟨handle, n, hint, Consumer.streamOptions n⟩) x =
      .done y ()) :
    ∃ sent, Fetched g.lzo n sent ∧ Attends g c (K \ {(true, handle)}) q (out ++ sent) y := by
  have hall := Agent.passes_fetchLocal (Agent.passes_all Agent.Area.store) (List.Subset.refl _)
    g.lzo c ⟨handle, n, hint, Consumer.streamOptions n⟩
  have hspares := Agent.passes_fetchLocal (passes_spares (g := g) (t := t) (S := Agent.Area.store)
    (by decide) (by decide) (by decide)) (List.Subset.refl _) g.lzo c
    ⟨handle, n, hint, Consumer.streamOptions n⟩
  obtain ⟨halone, -⟩ := run_inward hall (by decide) hrun
  have hf : (x.agent.net (.consumer c)).sendFails = [] := by rw [h.conn]
  obtain ⟨hown, sent, hnet, hsome, hnone⟩ :=
    Agent.fetchLocal_done (zero_lt_blksz n) (fits_streamOptions hl.toCorrect (hl.buffered n)) hf halone
  refine ⟨sent, ⟨hsome, hnone⟩, ?_, ?_, ?_⟩
  · rw [hnet, Net.push, Function.update_self, h.conn]
  · rw [hown, h.own, stock_diff_self]
  · rw [stock_diff_ne (by decide)]
    exact hspares _ x y () h.waits hrun

theorem Waits.push (h : Waits g T rs x) (rs' : List Sent) {n : Net Agent.Sd}
    (hn : ∀ p, n (.provider p) = x.agent.net.push (.provider g.p) rs' (.provider p)) :
    Waits g T (rs ++ rs') { x with agent := x.agent.withNet n } := by
  obtain ⟨ps, f, hsilent, hhandles, hconn⟩ := h.conn
  refine ⟨⟨ps, f, hsilent, hhandles, ?_⟩, ?_, h.provider, h.alone⟩
  · show n (.provider g.p) = _
    rw [hn, Net.push, Function.update_self, hconn, List.append_assoc]
  · intro p
    show (n (.provider p)).inq = []
    rw [hn]
    by_cases hp : p = g.p
    · rw [hp, Net.push, Function.update_self]
      exact h.inq g.p
    · rw [Net.push_of_ne _ _ (provider_ne hp), h.inq]

theorem streamFuel (hl : Consumer.Compresses g.lzo) (hfuel : 2 ^ 72 ≤ g.fuel) (n : UInt64)
    {data : Bytes} (hdata : data.length < 2 ^ 64) :
    (streamRecords g.lzo (Consumer.streamOptions n) data).length +
      dataBytes (streamRecords g.lzo (Consumer.streamOptions n) data) ≤ g.fuel := by
  have hbound := fuel_streamRecords hl.toCorrect (zero_lt_blksz n) data
  omega

theorem run_toProvider {prog : NetProg Agent.Sd α} {a : α} (hp : prog.On (· = .provider p))
    (hrun : run g t (Agent.net prog) x = .done y a) :
    y.agent.net (.consumer c) = x.agent.net (.consumer c) ∧
      y.agent.handles c = x.agent.handles c := by
  have hall := Agent.passes_toProvider (Agent.passes_all Agent.Area.spoken)
    (List.Subset.refl _) hp
  exact ⟨run_conn hall (by decide) (by decide) hrun c,
    run_handles hall (by decide) (by decide) hrun⟩

theorem Attends.agentForwardFetch (hl : Consumer.Compresses g.lzo) (hfuel : 2 ^ 72 ≤ g.fuel)
    (h : Attends g c K q out x) {handle : Handle} {n : UInt64} {hint : GlobalId}
    (hrun : run g t (Agent.agentForwardFetch g.fuel c p
      ⟨handle, n, hint, Consumer.streamOptions n⟩) x = .done y ()) :
    ∃ sent, Fetched g.lzo n sent ∧ Attends g c (K \ {(false, handle)}) q (out ++ sent) y := by
  have hblk := zero_lt_blksz n
  have hfit := fits_streamOptions hl.toCorrect (hl.buffered n)
  obtain ⟨x₁, u, hlock, hrest⟩ := bind_done hrun
  have hx₁ := steady_providerLock p K q out x x₁ u h hlock
  obtain rfl := h.waits.providerLock hlock
  obtain ⟨x₂, r, hsend, hrest⟩ := bind_done hrest
  obtain ⟨⟨m, rfl⟩, ⟨-, -, hw₂⟩ | ⟨hne, -⟩⟩ := hx₁.waits.send hsend
  · obtain ⟨hconn, hown⟩ := run_toProvider (c := c) (on_claraSendmsg rfl _ _) hsend
    rw [hx₁.conn] at hconn
    rw [hx₁.own] at hown
    by_cases hn : 0 < n
    · simp only [hn, if_true] at hrest
      have hfirst : ∀ r rest T', (Responds g.lzo (Consumer.streamOptions n) (r :: rest) ∧
          handle ∈ stock K false ∧ T' = stock K false \ {handle}) →
          ∃ type msg, r = .msg type msg ∧ msg.length ≤ 8 := by
        rintro r rest T' ⟨⟨b, -, hout⟩, -⟩
        obtain ⟨rfl, -⟩ := List.cons.inj hout
        exact ⟨_, _, rfl, by rw [Bytes.length_word]⟩
      obtain ⟨x₃, response, hrecv, hrest⟩ := bind_done hrest
      obtain ⟨-, type, msg, rest, T', ⟨⟨b, hb, hout⟩, -, rfl⟩, rfl, hx₃⟩ :=
        hw₂.recv (Provider.answers_fetch hn hblk hfit) hfirst hrecv
      obtain ⟨hmsg, rfl⟩ := List.cons.inj hout
      obtain ⟨rfl, rfl⟩ := Sent.msg.inj hmsg
      obtain ⟨hconn₃, hown₃⟩ := run_toProvider (c := c) (on_claraRecvmsg rfl _) hrecv
      rw [hconn] at hconn₃
      rw [hown] at hown₃
      have hpassed : run g t (do
          let _ ← Agent.net (claraSendmsg (.consumer c) Msg.fetchResponse
            (Bytes.word (UInt64.ofNat b.length)))
          let _ ← Agent.net (streamForward (.provider g.p) (.consumer c) g.fuel)
          Agent.providerUnlock g.p) x₃ = .done y () := by
        simpa only [Agent.agentForwardFetch.wholeResponse, streamForward, Bytes.whole,
          Bytes.length_word, if_true, Option.map_some] using hrest
      have hf : (x₃.agent.net (.consumer c)).sendFails = [] := by rw [hconn₃]
      rw [run_bind, run_net_done (Net.run_claraSendmsg hf _ _), Outcome.bind_done, run_bind]
        at hpassed
      have hinq : (x₃.agent.net.push (.consumer c) [.msg Msg.fetchResponse
          (Bytes.word (UInt64.ofNat b.length))] (.provider g.p)).inq =
          Net.incoming (streamRecords g.lzo (Consumer.streamOptions n) b) ++ [] := by
        rw [Net.push_of_ne _ _ (consumer_ne g.p c), hx₃.conn, List.append_nil]
      have hforward := run_streamForward_records (consumer_ne g.p c) (hfit b)
        (by rw [Net.push_sendFails, hf]) hinq (streamFuel hl hfuel n hb)
      rw [run_net_done hforward, Outcome.bind_done] at hpassed
      obtain ⟨n₅, hn₅⟩ : ∃ n₅, n₅ = ((x₃.agent.net.push (.consumer c) [.msg Msg.fetchResponse
          (Bytes.word (UInt64.ofNat b.length))]).withInq (.provider g.p) []).push (.consumer c)
            (streamRecords g.lzo (Consumer.streamOptions n) b) := ⟨_, rfl⟩
      rw [← hn₅] at hpassed
      have hconsumer : n₅ (.consumer c) = ⟨q, out ++ (.msg Msg.fetchResponse
          (Bytes.word (UInt64.ofNat b.length)) ::
            streamRecords g.lzo (Consumer.streamOptions n) b), []⟩ := by
        rw [hn₅, Net.push_apply, Net.withInq_of_ne _ _ (consumer_ne g.p c).symm, Net.push_apply,
          hconn₃, List.append_assoc]
        rfl
      have hprovider : n₅ (.provider g.p) = ⟨[], [], []⟩ := by
        rw [hn₅, Net.push_of_ne _ _ (consumer_ne g.p c), Net.withInq_apply,
          Net.push_of_ne _ _ (consumer_ne g.p c), hx₃.conn]
      have hothers : ∀ p, p ≠ g.p → (n₅ (.provider p)).inq = [] := by
        intro p hp
        rw [hn₅, Net.push_of_ne _ _ (consumer_ne p c), Net.withInq_of_ne _ _ (provider_ne hp),
          Net.push_of_ne _ _ (consumer_ne p c), hx₃.inq p hp]
      have hgone : x₃.provider.handles = stock (K \ {(false, handle)}) false := by
        rw [stock_diff_self]
        exact hx₃.handles
      have hkept : x₃.agent.handles c = stock (K \ {(false, handle)}) true := by
        rw [stock_diff_ne (by decide), hown₃]
      have hanswered : Answered g (stock (K \ {(false, handle)}) false) []
          { x₃ with agent := x₃.agent.withNet n₅ } :=
        ⟨hprovider, hothers, hx₃.provider, hgone, hx₃.alone⟩
      have hx₅ : Attends g c (K \ {(false, handle)}) q _
          { x₃ with agent := x₃.agent.withNet n₅ } := ⟨hconsumer, hkept, hanswered.waits⟩
      exact ⟨_, ⟨fun _ => ⟨b, hb, rfl⟩, fun hno => absurd hn hno⟩,
        steady_providerUnlock g.p _ _ _ _ y () hx₅ hpassed⟩
    · simp only [hn, if_false] at hrest
      have hzero : n = 0 := by
        apply UInt64.toNat_inj.mp
        have hle := UInt64.not_lt.mp hn
        have hle' := UInt64.le_iff_toNat_le.mp hle
        simpa using hle'
      have hx₂ : Attends g c (K \ {(false, handle)}) q out
          { x₁ with agent := x₁.agent.withNet m } := by
        refine ⟨hconn, ?_, ?_⟩
        · rw [stock_diff_ne (by decide)]
          exact hown
        · rw [stock_diff_self]
          exact hw₂.silent (Provider.silent_free hzero hblk hfit)
      refine ⟨[], ⟨fun hpos => absurd hpos hn, fun _ => rfl⟩, ?_⟩
      rw [List.append_nil]
      exact steady_providerUnlock g.p _ _ _ _ y () hx₂ hrest
  · exact absurd rfl hne

theorem Attends.handleFetch (hl : Consumer.Compresses g.lzo) (hfuel : 2 ^ 72 ≤ g.fuel)
    (h : Attends g c K q out x) {handle : Handle} {n : UInt64} {hint : GlobalId}
    (hrun : run g t (Agent.handleFetch g.lzo g.fuel c
      ⟨handle, n, hint, Consumer.streamOptions n⟩) x = .done y ()) :
    ∃ sent, Fetched g.lzo n sent ∧
      Attends g c (K \ {placeOf (handle, hint)}) q (out ++ sent) y := by
  by_cases hhint : hint = invalidHandle
  · rw [Agent.handleFetch, if_pos hhint] at hrun
    rw [hhint] at hrun ⊢
    exact h.fetchLocal hl hrun
  · have hK := passes_steady (g := g) (t := t) (c := c)
    have hplace : placeOf (handle, hint) = (false, handle) := by
      rw [placeOf, beq_eq_false_iff_ne.mpr hhint]
    rw [Agent.handleFetch, if_neg hhint] at hrun
    obtain ⟨x₁, object, hfind, hrest⟩ := bind_done hrun
    have hx₁ := Agent.passes_findHint hK (by decide) _ _ (by decide) K q out x x₁ _ h hfind
    obtain ⟨x₂, o, hread, hrest⟩ := bind_done hrest
    have hx₂ := Agent.passes_read hK .object object (by decide) K q out x₁ x₂ _ hx₁ hread
    rw [hplace]
    exact hx₂.agentForwardFetch hl hfuel hrest

/-- The stream that belongs to the request is passed on. -/
theorem Attends.handleMemput (hl : Consumer.Compresses g.lzo) (hfuel : 2 ^ 72 ≤ g.fuel) {n : UInt64}
    {data : Bytes} (hdata : data.length < 2 ^ 64)
    (h : Attends g c K
      (Net.incoming (streamRecords g.lzo (Consumer.streamOptions n) data) ++ q) out x)
    {params : MemputStreamParams}
    (hrun : run g t (Agent.handleMemput g.fuel c params) x = .done y ()) :
    Attends g c K q out y := by
  have hK := passes_steady (g := g) (t := t) (c := c)
  have hblk := zero_lt_blksz n
  have hsize : (Consumer.streamOptions n).blksz.toNat +
      (Consumer.streamOptions n).blksz.toNat / 16 + 67 < 2 ^ 64 := by
    rw [Consumer.blksz_streamOptions]
    decide
  have hstream := streamFuel hl hfuel n hdata
  obtain ⟨x₁, object, hfind, hrest⟩ := bind_done hrun
  have hx₁ := Agent.passes_findHint hK (by decide) _ _ (by decide) K _ out x x₁ _ h hfind
  obtain ⟨x₂, o, hread, hrest⟩ := bind_done hrest
  have hx₂ := Agent.passes_read hK .object object (by decide) K _ out x₁ x₂ _ hx₁ hread
  obtain ⟨x₃, u, hlock, hrest⟩ := bind_done hrest
  have hx₃ := steady_providerLock o.provider K _ out x₂ x₃ u hx₂ hlock
  have hp := hx₂.waits.providerLock hlock
  rw [hp] at hrest
  obtain ⟨x₄, r, hsend, hrest⟩ := bind_done hrest
  obtain ⟨⟨m, rfl⟩, ⟨-, rfl, hw₄⟩ | ⟨hne, -⟩⟩ := hx₃.waits.send hsend
  · obtain ⟨hconn, hown⟩ := run_toProvider (c := c) (on_claraSendmsg rfl _ _) hsend
    rw [hx₃.conn] at hconn
    rw [hx₃.own] at hown
    have hprovider : (m (.provider g.p)).sendFails = [] := by
      obtain ⟨ps, f, -, -, hps⟩ := hw₄.conn
      have hm : m (.provider g.p) = ⟨[], ps ++ ([] ++ _), []⟩ := hps
      rw [hm]
    have hinq : (m (.consumer c)).inq =
        Net.incoming (streamRecords g.lzo (Consumer.streamOptions n) data) ++ q := by
      have hm : m (.consumer c) = ⟨_, out, []⟩ := hconn
      rw [hm]
    have hforward := run_streamForward_records (consumer_ne g.p c).symm
      (fits_streamOptions hl.toCorrect (hl.buffered n) data) hprovider hinq hstream
    have hpassed : run g t (do
        let _ ← Agent.net (streamForward (.consumer c) (.provider g.p) g.fuel)
        Agent.providerUnlock g.p) { x₃ with agent := x₃.agent.withNet m } = .done y () := hrest
    rw [run_bind, run_net_done hforward, Outcome.bind_done] at hpassed
    obtain ⟨n₅, hn₅⟩ : ∃ n₅, n₅ = (m.withInq (.consumer c) q).push (.provider g.p)
        (streamRecords g.lzo (Consumer.streamOptions n) data) := ⟨_, rfl⟩
    rw [← hn₅] at hpassed
    have hconsumer : n₅ (.consumer c) = ⟨q, out, []⟩ := by
      have hm : m (.consumer c) = ⟨_, out, []⟩ := hconn
      rw [hn₅, Net.push_of_ne _ _ (consumer_ne g.p c).symm, Net.withInq_apply, hm]
    have hothers : ∀ p, n₅ (.provider p) = m.push (.provider g.p)
        (streamRecords g.lzo (Consumer.streamOptions n) data) (.provider p) := by
      intro p
      rw [hn₅, ← Net.withInq_push _ _ (consumer_ne g.p c).symm,
        Net.withInq_of_ne _ _ (consumer_ne p c)]
    have hx₅ : Attends g c K q out { x₃ with agent := x₃.agent.withNet n₅ } :=
      ⟨hconsumer, hown,
        (hw₄.push _ hothers).silent (Provider.silent_memput hl.toCorrect _ hblk hsize (by omega))⟩
    exact steady_providerUnlock g.p K q out _ y () hx₅ hpassed
  · exact absurd rfl hne

end

end Clara.Joint
