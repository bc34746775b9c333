import Clara.Agent.Area
import Clara.Agent.Handlers
import Clara.Agent.Run
import Clara.Lib.Serve
import Clara.Provider.Service

/-! The agent together with one of its providers. A thread of the agent runs; when it waits for
the provider, what it has sent is delivered, the provider works until it waits itself, and what
it has sent is delivered in turn. Both are sequential and the connection keeps the order, so
nothing depends on whether the provider has worked earlier. -/
namespace Clara.Joint

open Conc

/-- A record on its way between the agent and the provider. -/
inductive Wire
  | toProvider (r : Sent)
  | toAgent (r : Sent)
  deriving DecidableEq

/-- The two processes, and what they have sent to each other so far. -/
structure Pair (Cl : Type) where
  agent : Agent.State
  provider : Provider.State Cl
  log : List Wire

inductive Fault
  | agent (f : Agent.Fault)
  | provider (f : Provider.Fault)
  deriving DecidableEq

/-- The provider's record in the agent, its library, and the bounds of the loops. -/
structure Setting (Cl : Type) where
  lzo : Lzo
  fuel : ℕ
  lib : Provider.OpenCl Cl
  p : Addr

/-- The records sent on a connection have been delivered. -/
def clearSent {Sd : Type} [DecidableEq Sd] (net : Net Sd) (sd : Sd) : Net Sd :=
  Function.update net sd { net sd with sent := [] }

def arrive {Sd : Type} [DecidableEq Sd] (net : Net Sd) (sd : Sd) (rs : List Sent) : Net Sd :=
  net.withInq sd ((net sd).inq ++ Net.incoming rs)

variable {Cl : Type} (g : Setting Cl)

def Pair.deliver (x : Pair Cl) : Pair Cl where
  agent := x.agent.withNet (clearSent x.agent.net (.provider g.p))
  provider := { x.provider with
    net := arrive x.provider.net () (x.agent.net (.provider g.p)).sent }
  log := x.log ++ (x.agent.net (.provider g.p)).sent.map .toProvider

def Pair.answer (x : Pair Cl) : Pair Cl where
  agent := x.agent.withNet (arrive x.agent.net (.provider g.p) (x.provider.net ()).sent)
  provider := { x.provider with net := clearSent x.provider.net () }
  log := x.log ++ (x.provider.net ()).sent.map .toAgent

/-- The provider works. Each of its turns takes something that waits for it. -/
def Pair.work (x : Pair Cl) : Outcome (Pair Cl) Fault Unit :=
  match Provider.providerMain g.lzo g.fuel g.lib ((x.provider.net ()).inq.length + 1)
      x.provider with
  | .done q true => .done { x with provider := q } ()
  | .done _ false => .blocked
  | .fault f => .fault (.provider f)
  | .blocked => .blocked

def Pair.attend (x : Pair Cl) : Outcome (Pair Cl) Fault Unit :=
  ((x.deliver g).work g).bind fun x _ => .done (x.answer g) ()

def agentPart : Part Agent.State (Pair Cl) where
  get x := x.agent
  put x s := { x with agent := s }
  get_put _ _ := rfl
  put_put _ _ _ := rfl
  put_get _ := rfl

def providerPart : Part (Provider.State Cl) (Pair Cl) where
  get x := x.provider
  put x q := { x with provider := q }
  get_put _ _ := rfl
  put_put _ _ _ := rfl
  put_get _ := rfl

def exec : Agent.Tid → (o : Agent.Op) → Pair Cl → Outcome (Pair Cl) Fault o.Res :=
  attended (agentPart.within .agent Agent.exec) (Pair.attend g)

/-- Runs a program of a thread of the agent together with the provider. -/
abbrev run {α : Type} (t : Agent.Tid) (p : Agent.AProg α) (x : Pair Cl) :
    Outcome (Pair Cl) Fault α :=
  p.run (exec g) t x

/-- Nothing is on its way between the two, and neither sends in vain. -/
structure Quiet (x : Pair Cl) : Prop where
  agent : x.agent.net (.provider g.p) = .fresh
  provider : x.provider.net = .wire [] []

section
variable {g} {t : Agent.Tid} {x : Pair Cl} {α β : Type}

theorem run_bind (p : Agent.AProg α) (f : α → Agent.AProg β) :
    run g t (p >>= f) x = (run g t p x).bind fun x a => run g t (f a) x :=
  Prog.run_bind _ _ p f x

@[simp] theorem run_pure (a : α) : run g t (pure a) x = .done x a := rfl

@[simp] theorem run_deref_some (a : α) : run g t (Agent.deref (some a)) x = .done x a := rfl

@[simp] theorem run_assert_true (a : Agent.Assertion) :
    run g t (Agent.assert true a) x = .done x () := rfl

/-- What the agent does without waiting it does as if it were alone. -/
theorem run_alone {p : Agent.AProg α} (h : Agent.run t p x.agent ≠ .blocked) :
    run g t p x = (Agent.run t p x.agent).map (fun s => { x with agent := s }) .agent := by
  have hpart := agentPart.run_within Fault.agent Agent.exec t p x
  have hne : p.run (agentPart.within Fault.agent Agent.exec) t x ≠ .blocked := by
    rw [hpart]
    exact fun hblocked => h (Outcome.map_eq_blocked hblocked)
  rw [run, exec, run_attended hne, hpart]
  rfl

theorem run_done {p : Agent.AProg α} {s : Agent.State} {a : α}
    (h : Agent.run t p x.agent = .done s a) : run g t p x = .done { x with agent := s } a := by
  rw [run_alone (by rw [h]; nofun), h]
  rfl

theorem run_net_done {p : NetProg Agent.Sd α} {n : Net Agent.Sd} {a : α}
    (h : Net.run p x.agent.net = .done n a) :
    run g t (Agent.net p) x = .done { x with agent := x.agent.withNet n } a := by
  apply run_done
  rw [Agent.run_net, h]

/-- An operation that waits is tried again after the provider's turn. -/
theorem run_perform_blocked {o : Agent.Op} (h : Agent.exec t o x.agent = .blocked) :
    run g t (Agent.perform o) x = (x.attend g).bind fun x _ =>
      (Agent.exec t o x.agent).map (fun s => { x with agent := s }) .agent := by
  have hb : agentPart.within Fault.agent Agent.exec t o x = .blocked := by
    rw [Part.within]
    show (Agent.exec t o x.agent).map _ _ = _
    rw [h]
    rfl
  rw [run, Agent.perform, Prog.run_perform, exec, attended_of_blocked hb]
  rfl

/-- The provider's turn is only about its own connection. -/
theorem attend_agent {y : Pair Cl} (h : x.attend g = .done y ()) :
    ∃ n, y.agent = x.agent.withNet n ∧ ∀ sd, sd ≠ .provider g.p → n sd = x.agent.net sd := by
  obtain ⟨z, _, hwork, hy⟩ := Outcome.bind_eq_done h
  obtain ⟨rfl, -⟩ := Outcome.done.inj hy
  have hz : z.agent = (x.deliver g).agent := by
    simp only [Pair.work] at hwork
    split at hwork
    · obtain ⟨rfl, -⟩ := Outcome.done.inj hwork
      rfl
    all_goals cases hwork
  refine ⟨arrive z.agent.net (.provider g.p) (z.provider.net ()).sent, ?_, fun sd hsd => ?_⟩
  · show z.agent.withNet _ = _
    rw [hz]
    rfl
  · rw [arrive, Net.withInq_of_ne _ _ hsd, hz]
    exact Function.update_of_ne hsd ..

/-- The invariant rule for the agent: what its operations keep, and what has nothing to do with
the connection to the provider. -/
theorem run_agent_keeps {y : Pair Cl} {p : Agent.AProg α} {a : α} {S : List Agent.Area}
    {I : Agent.State → Prop} (hp : p.All fun o => o.area ∈ S)
    (hexec : ∀ (o : Agent.Op) (s s' : Agent.State) (r : o.Res), o.area ∈ S →
      Agent.exec t o s = .done s' r → I s → I s')
    (hnet : ∀ s n, (∀ sd, sd ≠ .provider g.p → n sd = s.net sd) → I s → I (s.withNet n))
    (h : run g t p x = .done y a) (hi : I x.agent) : I y.agent := by
  have hpart : ∀ (o : Agent.Op) (z z' : Pair Cl) (r : o.Res), o.area ∈ S →
      agentPart.within Fault.agent Agent.exec t o z = .done z' r → I z.agent → I z'.agent := by
    intro o z z' r ho hz hi
    rw [Part.within] at hz
    cases he : Agent.exec t o (agentPart.get z) with
    | done s r' =>
      rw [he, Outcome.map_done] at hz
      obtain ⟨rfl, -⟩ := Outcome.done.inj hz
      exact hexec o z.agent s r' ho he hi
    | fault f => simp [he] at hz
    | blocked => simp [he] at hz
  refine Prog.All.run_keeps (I := fun z : Pair Cl => I z.agent) ?_ hp h hi
  intro o z z' r ho hz hi
  obtain hz | ⟨z₁, hattend, hz⟩ := attended_done hz
  · exact hpart o z z' r ho hz hi
  · obtain ⟨n, hn, hothers⟩ := attend_agent hattend
    have hi₁ : I z₁.agent := by
      rw [hn]
      exact hnet z.agent n hothers hi
    exact hpart o z₁ z' r ho hz hi₁

/-- A program that does not touch the connections to consumers leaves them alone. -/
theorem run_conn {y : Pair Cl} {p : Agent.AProg α} {a : α} {S : List Agent.Area}
    (hp : p.All fun o => o.area ∈ S) (hanswer : .answer ∉ S) (harrival : .arrival ∉ S)
    (h : run g t p x = .done y a) (c : Addr) :
    y.agent.net (.consumer c) = x.agent.net (.consumer c) := by
  have hne : Agent.Sd.consumer c ≠ .provider g.p := nofun
  refine run_agent_keeps (I := fun s => s.net (.consumer c) = x.agent.net (.consumer c)) hp ?_ ?_
    h rfl
  · intro o s s' r ho he hi
    have hout : ∀ a, a ∉ S → o.area ≠ a := fun a ha heq => ha (heq ▸ ho)
    have hsame : s'.net (.consumer c) = s.net (.consumer c) :=
      Agent.exec_conn he (hout .answer hanswer) (hout .arrival harrival)
    rw [hsame, hi]
  · intro s n hn hi
    rw [Agent.State.withNet_net, hn _ hne, hi]

/-- Only a consumer's own thread leaves its loop. -/
theorem run_phase {y : Pair Cl} {p : Agent.AProg α} {a : α} {S : List Agent.Area}
    (hp : p.All fun o => o.area ∈ S) (hscratch : .scratch ∉ S)
    (h : run g t p x = .done y a) (c : Addr) :
    y.agent.phase (.consumer c) = x.agent.phase (.consumer c) := by
  refine run_agent_keeps (I := fun s => s.phase (.consumer c) = x.agent.phase (.consumer c)) hp
    ?_ ?_ h rfl
  · intro o s s' r ho he hi
    have hout : o.area ≠ .scratch := fun heq => hscratch (heq ▸ ho)
    rw [(Agent.change_of_done he).phase_consumer hout, hi]
  · intro s n hn hi
    exact hi

end

def Pair.onAgent (x : Pair Cl) (f : Agent.State → Agent.State) : Pair Cl :=
  { x with agent := f x.agent }

/-- The agent has sent records that have not been delivered yet. -/
def Pair.sending (x : Pair Cl) (rs : List Sent) : Pair Cl :=
  x.onAgent fun s => s.withNet (s.net.push (.provider g.p) rs)

/-- The provider has worked off `rs`, and its answer `out` has been taken in. -/
def Pair.served (x : Pair Cl) (q : Provider.State Cl) (rs out : List Sent) : Pair Cl where
  agent := x.agent
  provider := q.withNet (.wire [] [])
  log := x.log ++ rs.map .toProvider ++ out.map .toAgent

def Pair.waiting (x : Pair Cl) (rs : List Sent) : Pair Cl :=
  x.onAgent fun s => s.withNet (s.net.withInq (.provider g.p) (Net.incoming rs))

/-- The provider goes from one state to another as it takes `rs` and sends `out`. -/
abbrev Setting.Works (rs out : List Sent) (q q' : Provider.State Cl) : Prop :=
  Provider.Works g.lzo g.fuel g.lib rs out q q'

/-- The provider aborts at the records `rs`. -/
abbrev Setting.Breaks (rs : List Sent) (f : Provider.Fault) (q : Provider.State Cl) : Prop :=
  Provider.Breaks g.lzo g.fuel g.lib rs f q

/-- What the agent has sent needs no answer, and once the provider has worked it off `x` has
become `y`. -/
inductive Settles : Pair Cl → Pair Cl → Prop
  | intro {z : Pair Cl} {rs : List Sent} {q : Provider.State Cl} (hz : Quiet g z)
      (hw : g.Works rs [] z.provider q) : Settles (z.sending g rs) (z.served q rs [])

section
variable {g} {t : Agent.Tid} {x y : Pair Cl} {q : Provider.State Cl} {rs out : List Sent}

theorem Quiet.served (h : Quiet g x) (q : Provider.State Cl) (rs out : List Sent) :
    Quiet g (x.served q rs out) := ⟨h.agent, rfl⟩

theorem Quiet.waiting_nil (h : Quiet g x) : x.waiting g [] = x := by
  have hself : x.agent.net.withInq (.provider g.p) [] = x.agent.net :=
    Net.withInq_self (by rw [h.agent]; rfl)
  rw [Pair.waiting, Pair.onAgent, Net.incoming_nil, hself]
  rfl

theorem Quiet.deliver_sending (h : Quiet g x) (rs : List Sent) :
    (x.sending g rs).deliver g = { x with
      provider := x.provider.withNet (.wire (Net.incoming rs) [])
      log := x.log ++ rs.map .toProvider } := by
  have hsent : ((x.sending g rs).agent.net (.provider g.p)).sent = rs := by
    rw [Pair.sending, Pair.onAgent, Agent.State.withNet_net, Net.push_sent, h.agent]
    rfl
  have hclear : clearSent (x.sending g rs).agent.net (.provider g.p) = x.agent.net := by
    rw [clearSent, Pair.sending, Pair.onAgent, Agent.State.withNet_net, Net.push,
      Function.update_self, Function.update_idem, Function.update_eq_self_iff, h.agent]
    rfl
  have harrive : arrive x.provider.net () rs = .wire (Net.incoming rs) [] := by
    rw [arrive, h.provider, Net.wire_apply, List.nil_append, Net.wire_withInq]
  rw [Pair.deliver, hsent, hclear, Pair.sending, Pair.onAgent, harrive]
  rfl

/-- The provider's turn at records that the agent has sent. -/
theorem attend_sending (h : Quiet g x) (hw : g.Works rs out x.provider q) :
    (x.sending g rs).attend g = .done ((x.served q rs out).waiting g out) () := by
  have hlen : (Net.incoming rs).length = rs.length := List.length_map _
  have hinq : arrive x.agent.net (.provider g.p) out =
      x.agent.net.withInq (.provider g.p) (Net.incoming out) := by
    rw [arrive, h.agent]
    rfl
  have hprov : clearSent (Net.wire [] out) () = .wire [] [] := by
    funext u
    simp [clearSent]
  rw [Pair.attend, h.deliver_sending, Pair.work]
  simp only [Provider.State.withNet_net, Net.wire_apply, hlen, hw.providerMain, Outcome.bind_done,
    Pair.answer, hinq, hprov]
  rfl

theorem attend_breaks (h : Quiet g x) {f : Provider.Fault} (hb : g.Breaks rs f x.provider) :
    (x.sending g rs).attend g = .fault (.provider f) := by
  have hlen : (Net.incoming rs).length = rs.length := List.length_map _
  rw [Pair.attend, h.deliver_sending, Pair.work]
  simp only [Provider.State.withNet_net, Net.wire_apply, hlen, hb.providerMain]
  rfl

theorem Settles.quiet (h : Settles g x y) : Quiet g y := by
  obtain ⟨hz, -⟩ := h
  exact hz.served _ _ _

theorem Quiet.settles (h : Quiet g x) : Settles g x x := by
  have hsending : x.sending g [] = x := by
    rw [Pair.sending, Pair.onAgent, Net.push_nil]
    rfl
  have hserved : x.served x.provider [] [] = x := by
    have hnet : x.provider.withNet (.wire [] []) = x.provider := by
      rw [← h.provider]
      rfl
    rw [Pair.served, hnet]
    simp
  have hs := Settles.intro h (.refl x.provider)
  rwa [hsending, hserved] at hs

/-- What an agent that waits for nothing finds is what it left, the connection apart. -/
theorem Settles.agent (h : Settles g x y) :
    ∃ rs, x.agent = y.agent.withNet (y.agent.net.push (.provider g.p) rs) := by
  obtain @⟨z, rs, q, hz, hw⟩ := h
  exact ⟨rs, rfl⟩

theorem Settles.heap (h : Settles g x y) : x.agent.heap = y.agent.heap := by
  obtain ⟨rs, hx⟩ := h.agent
  rw [hx]
  rfl

theorem Settles.conn (h : Settles g x y) {sd : Agent.Sd} (hsd : sd ≠ .provider g.p) :
    x.agent.net sd = y.agent.net sd := by
  obtain ⟨rs, hx⟩ := h.agent
  rw [hx, Agent.State.withNet_net, Net.push, Function.update_of_ne hsd]

theorem Settles.sendFails (h : Settles g x y) :
    (x.agent.net (.provider g.p)).sendFails = [] := by
  obtain ⟨rs, hx⟩ := h.agent
  rw [hx, Agent.State.withNet_net, Net.push_sendFails, h.quiet.agent]
  rfl

private theorem works_append {z : Pair Cl} {rs₀ : List Sent} {q₀ : Provider.State Cl}
    (h₀ : g.Works rs₀ [] z.provider q₀) (h : g.Works rs out (z.served q₀ rs₀ []).provider q) :
    g.Works (rs₀ ++ rs) out z.provider q := Provider.Works.trans h₀ h

private theorem sending_sending (x : Pair Cl) (rs rs' : List Sent) :
    (x.sending g rs).sending g rs' = x.sending g (rs ++ rs') := by
  rw [Pair.sending, Pair.sending, Pair.onAgent, Pair.onAgent, Agent.State.withNet_net,
    Net.push_push]
  rfl

private theorem served_served (x : Pair Cl) (q q' : Provider.State Cl) (rs rs' out : List Sent) :
    (x.served q rs []).served q' rs' out = x.served q' (rs ++ rs') out := by
  simp [Pair.served]

/-- One more request that needs no answer. -/
theorem Settles.sending (h : Settles g x y) (hw : g.Works rs [] y.provider q) :
    Settles g (x.sending g rs) (y.served q rs []) := by
  obtain @⟨z, rs₀, q₀, hz, hw₀⟩ := h
  rw [sending_sending, served_served]
  exact .intro hz (works_append hw₀ hw)

theorem Settles.attend_sending (h : Settles g x y) (hw : g.Works rs out y.provider q) :
    (x.sending g rs).attend g = .done ((y.served q rs out).waiting g out) () := by
  obtain @⟨z, rs₀, q₀, hz, hw₀⟩ := h
  rw [sending_sending, served_served]
  exact Joint.attend_sending hz (works_append hw₀ hw)

theorem Settles.attend_breaks (h : Settles g x y) {f : Provider.Fault}
    (hb : g.Breaks rs f y.provider) : (x.sending g rs).attend g = .fault (.provider f) := by
  obtain @⟨z, rs₀, q₀, hz, hw₀⟩ := h
  rw [sending_sending]
  exact Joint.attend_breaks hz (Provider.Works.breaks hw₀ hb)

theorem Settles.attend (h : Settles g x y) : x.attend g = .done y () := by
  have hy := h.quiet
  obtain @⟨z, rs, q, hz, hw⟩ := h
  rw [Joint.attend_sending hz hw, hy.waiting_nil]

variable (g) in
structure Beside (f : Agent.State → Agent.State) : Prop where
  conn : ∀ s, (f s).net (.provider g.p) = s.net (.provider g.p)
  push : ∀ s rs, f (s.withNet (s.net.push (.provider g.p) rs)) =
    (f s).withNet ((f s).net.push (.provider g.p) rs)

theorem Settles.onAgent (h : Settles g x y) {f : Agent.State → Agent.State} (hf : Beside g f) :
    Settles g (x.onAgent f) (y.onAgent f) := by
  obtain @⟨z, rs, q, hz, hw⟩ := h
  have hsending : (z.sending g rs).onAgent f = (z.onAgent f).sending g rs := by
    rw [Pair.sending, Pair.onAgent, Pair.onAgent, hf.push]
    rfl
  rw [hsending]
  exact .intro (z := z.onAgent f) ⟨(hf.conn z.agent).trans hz.agent, hz.provider⟩ hw

theorem Settles.run_sendmsg (h : Settles g x y) (type : MessageType) (msg : Bytes) :
    run g t (Agent.net (claraSendmsg (.provider g.p) type msg)) x =
      .done (x.sending g [.msg type msg]) (some msg.length) := by
  apply run_done
  rw [Agent.run_net, Net.run_claraSendmsg h.sendFails]

theorem Settles.run_sendRequest (h : Settles g x y) (type : MessageType) (msg : Bytes) :
    run g t (Agent.net (sendRequest (.provider g.p) type msg)) x =
      .done (x.sending g [.msg type msg]) true := by
  apply run_done
  rw [Agent.run_net, Net.run_sendRequest h.sendFails]

theorem Settles.blocked (h : Settles g x y) (rs : List Sent) (len : ℕ) :
    Agent.exec t (.net (.recvmsg (.provider g.p) len)) (x.sending g rs).agent = .blocked := by
  obtain @⟨z, rs₀, q₀, hz, hw₀⟩ := h
  have hinq : (z.agent.net.push (.provider g.p) (rs₀ ++ rs) (.provider g.p)).inq = [] := by
    rw [Net.push, Function.update_self, hz.agent]
    rfl
  rw [sending_sending]
  simp [Agent.exec, Net.exec, Net.take, Pair.sending, Pair.onAgent, hinq]

theorem Settles.run_recvmsg_breaks (h : Settles g x y) {f : Provider.Fault}
    (hb : g.Breaks rs f y.provider) (len : ℕ) :
    run g t (Agent.net (claraRecvmsg (.provider g.p) len)) (x.sending g rs) =
      .fault (.provider f) := by
  show run g t (Agent.perform (.net (.recvmsg (.provider g.p) len))) _ = _
  rw [run_perform_blocked (h.blocked rs len), h.attend_breaks hb]
  rfl

theorem Settles.run_recvmsg (h : Settles g x y) {type : MessageType} {msg : Bytes}
    {rest : List Sent} (hw : g.Works rs (.msg type msg :: rest) y.provider q) {len : ℕ}
    (hlen : msg.length ≤ len) :
    run g t (Agent.net (claraRecvmsg (.provider g.p) len)) (x.sending g rs) =
      .done ((y.served q rs (.msg type msg :: rest)).waiting g rest) (.message type msg) := by
  have hrecv : Agent.run t (Agent.net (claraRecvmsg (.provider g.p) len))
      ((y.served q rs (.msg type msg :: rest)).waiting g (.msg type msg :: rest)).agent =
      .done ((y.served q rs (.msg type msg :: rest)).waiting g rest).agent
        (.message type msg) := by
    have hinq : (((y.served q rs (.msg type msg :: rest)).waiting g
        (.msg type msg :: rest)).agent.net (.provider g.p)).inq =
        .record (Sent.msg type msg).record :: Net.incoming rest := by
      simp [Pair.waiting, Pair.onAgent, Net.incoming_cons]
    rw [Agent.run_net, Net.run_claraRecvmsg hinq hlen]
    simp [Pair.waiting, Pair.onAgent]
  have hperform : Agent.run t (Agent.perform (.net (.recvmsg (.provider g.p) len)))
      ((y.served q rs (.msg type msg :: rest)).waiting g (.msg type msg :: rest)).agent =
      Agent.exec t (.net (.recvmsg (.provider g.p) len))
        ((y.served q rs (.msg type msg :: rest)).waiting g (.msg type msg :: rest)).agent :=
    Prog.run_perform _ _ _ _
  show run g t (Agent.perform (.net (.recvmsg (.provider g.p) len))) _ = _
  rw [run_perform_blocked (h.blocked rs len), h.attend_sending hw, Outcome.bind_done, ← hperform]
  show (Agent.run t (Agent.net (claraRecvmsg (.provider g.p) len)) _).map _ _ = _
  rw [hrecv]
  rfl

end

end Clara.Joint
