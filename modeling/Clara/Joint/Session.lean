import Clara.Agent.Turn
import Clara.Common.Rpc
import Clara.Joint.Conversation

/-! A consumer together with the agent and one of its providers. The consumer runs; when it waits
for the agent, what it has sent is delivered, its thread of the agent works through it together
with the provider, and what that thread has sent to the consumer is delivered in turn. -/
namespace Clara.Joint

open Conc

/-- The consumer's connection, and the other two processes. -/
structure Trio (Cl : Type) where
  client : Net Unit
  pair : Pair Cl

inductive SessionFault
  | client (f : NetFault)
  | server (f : Fault)
  deriving DecidableEq

/-- The consumer's record in the agent, and what earlier messages left in the receive buffer of
its thread. -/
structure Session (Cl : Type) extends Setting Cl where
  c : Addr
  stale : Pair Cl → Buffer Agent.recvbufsz

variable {Cl : Type} (g : Session Cl)

def Trio.deliver (x : Trio Cl) : Trio Cl where
  client := clearSent x.client ()
  pair := x.pair.onAgent fun s =>
    s.withNet (arrive s.net (.consumer g.c) (x.client ()).sent)

/-- The end of the connection, once the consumer's thread has left its loop. -/
def ending (s : Agent.State) (c : Addr) : List Incoming :=
  if s.phase (.consumer c) = .finished then [.failure] else []

def Trio.answer (x : Trio Cl) : Trio Cl where
  client := x.client.withInq () ((x.client ()).inq ++
    Net.incoming (x.pair.agent.net (.consumer g.c)).sent ++ ending x.pair.agent g.c)
  pair := x.pair.onAgent fun s => s.withNet (clearSent s.net (.consumer g.c))

/-- At most `n` turns of the consumer's thread: while something waits for it, and until it has left
its loop. -/
def turns : ℕ → Pair Cl → Outcome (Pair Cl) Fault Unit
  | 0, x => .done x ()
  | n + 1, x =>
    if (x.agent.net (.consumer g.c)).inq.isEmpty ∨ x.agent.phase (.consumer g.c) ≠ .serving then
      .done x ()
    else (run g.toSetting (.consumer g.c)
      (Agent.agentConsumerTurn g.lzo g.fuel g.c (g.stale x)) x).bind fun x _ => turns n x

/-- The consumer's thread works. Each of its turns takes something that waits for it. -/
def Trio.work (x : Trio Cl) : Outcome (Trio Cl) SessionFault Unit :=
  (turns g (x.pair.agent.net (.consumer g.c)).inq.length x.pair).map
    (fun y => { x with pair := y }) .server

def Trio.attend (x : Trio Cl) : Outcome (Trio Cl) SessionFault Unit :=
  ((x.deliver g).work g).bind fun x _ => .done (x.answer g) ()

def clientPart : Part (Net Unit) (Trio Cl) where
  get x := x.client
  put x n := { x with client := n }
  get_put _ _ := rfl
  put_put _ _ _ := rfl
  put_get _ := rfl

def clientExec : Unit → (o : NetOp Unit) → Trio Cl → Outcome (Trio Cl) SessionFault o.Res :=
  attended (clientPart.within .client fun _ => Net.exec) (Trio.attend g)

/-- Runs a call of the consumer library together with the agent and the provider. -/
abbrev call {α : Type} (p : NetProg Unit α) (x : Trio Cl) : Outcome (Trio Cl) SessionFault α :=
  p.run (clientExec g) () x

structure Idle (x : Trio Cl) : Prop where
  client : x.client = .wire [] []
  conn : x.pair.agent.net (.consumer g.c) = .fresh
  phase : x.pair.agent.phase (.consumer g.c) = .serving

section
variable {g} {x y : Trio Cl} {α β : Type}

theorem call_bind (p : NetProg Unit α) (f : α → NetProg Unit β) :
    call g (p >>= f) x = (call g p x).bind fun x a => call g (f a) x := Prog.run_bind _ _ p f x

@[simp] theorem call_pure (a : α) : call g (pure a) x = .done x a := rfl

/-- What the consumer does without waiting it does as if it were alone. -/
theorem call_alone {p : NetProg Unit α} (h : Net.run p x.client ≠ .blocked) :
    call g p x = (Net.run p x.client).map (fun n => { x with client := n }) .client := by
  have hpart := clientPart.run_within SessionFault.client (fun _ : Unit => Net.exec) () p x
  have hne : p.run (clientPart.within SessionFault.client fun _ : Unit => Net.exec) () x ≠
      .blocked := by
    rw [hpart]
    exact fun hblocked => h (Outcome.map_eq_blocked hblocked)
  rw [call, clientExec, run_attended hne, hpart]
  rfl

theorem call_done {p : NetProg Unit α} {n : Net Unit} {a : α}
    (h : Net.run p x.client = .done n a) : call g p x = .done { x with client := n } a := by
  rw [call_alone (by rw [h]; nofun), h]
  rfl

theorem call_fault {p : NetProg Unit α} {f : NetFault}
    (h : Net.run p x.client = .fault f) : call g p x = .fault (.client f) := by
  rw [call_alone (by rw [h]; nofun), h]
  rfl

/-- A consumer that waits for a message is served before it goes on. -/
theorem call_waiting {len : ℕ} (hx : (x.client ()).inq = []) (f : Received → NetProg Unit α) :
    call g (claraRecvmsg () len >>= f) x = (x.attend g).bind fun y _ =>
      (Net.run (claraRecvmsg () len) y.client).map (fun n => { y with client := n })
        SessionFault.client |>.bind fun y r => call g (f r) y := by
  have hblocked : clientPart.within SessionFault.client (fun _ : Unit => Net.exec) ()
      (.recvmsg () len) x = .blocked := by
    rw [Part.within]
    show (Net.exec (.recvmsg () len) x.client).map _ _ = _
    simp [Net.exec, Net.take, hx]
  have hrun : ∀ n : Net Unit, Net.run (claraRecvmsg () len) n = Net.exec (.recvmsg () len) n :=
    fun n => Prog.run_perform _ _ _ _
  have hcall : call g (claraRecvmsg () len) x = (x.attend g).bind fun y _ =>
      (Net.run (claraRecvmsg () len) y.client).map (fun n => { y with client := n }) .client := by
    rw [call, claraRecvmsg, NetProg.perform, Prog.run_perform, clientExec,
      attended_of_blocked hblocked]
    cases x.attend g with
    | done y u => exact (congrArg (Outcome.map _ _) (hrun y.client)).symm
    | fault e => rfl
    | blocked => rfl
  rw [call_bind, hcall]
  cases x.attend g <;> rfl

/-- The consumer has sent records that have not been delivered yet. -/
def Trio.saying (x : Trio Cl) (rs : List Sent) : Trio Cl := { x with client := .wire [] rs }

theorem Idle.call_sendRequest (h : Idle g x) (type : MessageType) (msg : Bytes) :
    call g (sendRequest () type msg) x = .done (x.saying [.msg type msg]) true := by
  apply call_done
  rw [h.client, sendRequest, Net.run_bind, Net.run_claraSendmsg (by rfl), Outcome.bind_done,
    Net.wire_push]
  rfl

def Pair.heard (x : Pair Cl) (c : Addr) (r : Sent) : Pair Cl :=
  x.onAgent (fromConsumer c [.record r.record])

theorem Idle.deliver (h : Idle g x) (r : Sent) :
    (x.saying [r]).deliver g = ⟨.wire [] [], x.pair.heard g.c r⟩ := by
  have hclient : clearSent (x.saying [r]).client () = .wire [] [] := by
    funext u
    simp [clearSent, Trio.saying]
  have harrive : ∀ s : Agent.State, s.net (.consumer g.c) = .fresh →
      s.withNet (arrive s.net (.consumer g.c) [r]) = fromConsumer g.c [.record r.record] s := by
    intro s hs
    rw [arrive, hs]
    rfl
  rw [Trio.deliver, hclient, Pair.heard, Pair.onAgent, Pair.onAgent]
  have hs := harrive x.pair.agent h.conn
  exact congrArg (fun s => (⟨.wire [] [], { x.pair with agent := s }⟩ : Trio Cl)) hs

theorem run_agentConsumerTurn {z : Pair Cl} {type : MessageType} {msg : Bytes}
    (hz : z.agent.net (.consumer g.c) = .fresh) (hm : msg.length ≤ Agent.recvbufsz)
    {buf : Buffer Agent.recvbufsz} {q : Agent.ConsumerRequest}
    (hq : Agent.ConsumerRequest.parse (buf.receive msg) type msg.length = some q) (t : Agent.Tid) :
    run g.toSetting t (Agent.agentConsumerTurn g.lzo g.fuel g.c buf)
      (z.heard g.c (.msg type msg)) =
      run g.toSetting t (Agent.agentConsumerHandler g.lzo g.fuel g.c q) z := by
  have hinq : ((z.heard g.c (.msg type msg)).agent.net (.consumer g.c)).inq =
      [.record (Sent.msg type msg).record] := Net.withInq_inq _ _ _
  have hself : (z.heard g.c (.msg type msg)).agent.net.withInq (.consumer g.c) [] =
      z.agent.net := by
    show (z.agent.net.withInq _ _).withInq _ _ = _
    rw [Net.withInq_withInq, Net.withInq_self (by rw [hz]; rfl)]
  have hrecv := Net.run_claraRecvmsg hinq hm
  rw [hself] at hrecv
  rw [Agent.agentConsumerTurn, run_bind, run_net_done hrecv, Outcome.bind_done]
  simp only [hq]
  rfl

theorem Idle.attend (h : Idle g x) {type : MessageType} {msg : Bytes}
    (hm : msg.length ≤ Agent.recvbufsz) {q : Agent.ConsumerRequest}
    (hq : Agent.ConsumerRequest.parse ((g.stale (x.pair.heard g.c (.msg type msg))).receive msg)
      type msg.length = some q) :
    (x.saying [.msg type msg]).attend g =
      ((run g.toSetting (.consumer g.c) (Agent.agentConsumerHandler g.lzo g.fuel g.c q)
        x.pair).map (fun y => (⟨.wire [] [], y⟩ : Trio Cl)) .server).bind
          fun y _ => .done (y.answer g) () := by
  have hinq : ((x.pair.heard g.c (.msg type msg)).agent.net (.consumer g.c)).inq =
      [.record (Sent.msg type msg).record] := Net.withInq_inq _ _ _
  have hphase : (x.pair.heard g.c (.msg type msg)).agent.phase (.consumer g.c) = .serving :=
    h.phase
  rw [Trio.attend, h.deliver, Trio.work]
  simp only [hinq, List.length_singleton, turns, List.isEmpty_cons, hphase, ne_eq,
    not_true_eq_false, or_false, Bool.false_eq_true, if_false]
  rw [run_agentConsumerTurn h.conn hm hq]
  cases run g.toSetting (.consumer g.c) (Agent.agentConsumerHandler g.lzo g.fuel g.c q) x.pair <;>
    rfl

theorem Pair.answer_toConsumer {z : Pair Cl} (hz : z.agent.net (.consumer g.c) = .fresh)
    (hphase : z.agent.phase (.consumer g.c) = .serving) (out : List Sent) :
    Trio.answer g ⟨.wire [] [], z.onAgent (toConsumer g.c out)⟩ =
      ⟨.wire (Net.incoming out) [], z⟩ := by
  have hsent : ((z.onAgent (toConsumer g.c out)).agent.net (.consumer g.c)).sent = out := by
    show (z.agent.net.push _ _ _).sent = out
    rw [Net.push_sent, hz]
    rfl
  have hclear : clearSent (z.onAgent (toConsumer g.c out)).agent.net (.consumer g.c) =
      z.agent.net := by
    show clearSent (z.agent.net.push _ _) _ = _
    rw [clearSent, Net.push, Function.update_self, Function.update_idem,
      Function.update_eq_self_iff, hz]
    rfl
  have hending : ending (z.onAgent (toConsumer g.c out)).agent g.c = [] := by
    have hp : (z.onAgent (toConsumer g.c out)).agent.phase (.consumer g.c) = .serving := hphase
    rw [ending, hp]
    rfl
  have hclient : (.wire [] [] : Net Unit).withInq ()
      (((.wire [] [] : Net Unit) ()).inq ++ Net.incoming out ++ []) =
        .wire (Net.incoming out) [] := by
    rw [Net.wire_apply, List.nil_append, List.append_nil, Net.wire_withInq]
  rw [Trio.answer, hsent, hending, hclient, Pair.onAgent, hclear]
  rfl

theorem Idle.call_answered (h : Idle g x) {type type' : MessageType} {msg msg' : Bytes}
    {rest : List Sent} (hm : msg.length ≤ Agent.recvbufsz) {q : Agent.ConsumerRequest}
    (hq : Agent.ConsumerRequest.parse ((g.stale (x.pair.heard g.c (.msg type msg))).receive msg)
      type msg.length = some q) {z : Pair Cl} (hz : z.agent.net (.consumer g.c) = .fresh)
    (hphase : z.agent.phase (.consumer g.c) = .serving)
    (hrun : run g.toSetting (.consumer g.c) (Agent.agentConsumerHandler g.lzo g.fuel g.c q)
      x.pair = .done (z.onAgent (toConsumer g.c (.msg type' msg' :: rest))) ())
    {len : ℕ} (hlen : msg'.length ≤ len) (f : Received → NetProg Unit α) :
    call g (claraRecvmsg () len >>= f) (x.saying [.msg type msg]) =
      call g (f (.message type' msg')) ⟨.wire (Net.incoming rest) [], z⟩ := by
  have hattend : (x.saying [.msg type msg]).attend g =
      .done ⟨.wire (Net.incoming (.msg type' msg' :: rest)) [], z⟩ () := by
    rw [h.attend hm hq, hrun, Outcome.map_done, Outcome.bind_done, Pair.answer_toConsumer hz hphase]
  have hrecv : Net.run (claraRecvmsg () len)
      (.wire (Net.incoming (.msg type' msg' :: rest)) []) =
      .done (.wire (Net.incoming rest) []) (.message type' msg') := by
    have hinq : ((.wire (Net.incoming (.msg type' msg' :: rest)) [] : Net Unit) ()).inq =
        .record (Sent.msg type' msg').record :: Net.incoming rest := rfl
    rw [Net.run_claraRecvmsg hinq hlen, Net.wire_withInq]
  rw [call_waiting (by rfl), hattend, Outcome.bind_done, hrecv]
  rfl

theorem Idle.call_fault (h : Idle g x) {type : MessageType} {msg : Bytes}
    (hm : msg.length ≤ Agent.recvbufsz) {q : Agent.ConsumerRequest}
    (hq : Agent.ConsumerRequest.parse ((g.stale (x.pair.heard g.c (.msg type msg))).receive msg)
      type msg.length = some q) {e : Fault}
    (hrun : run g.toSetting (.consumer g.c) (Agent.agentConsumerHandler g.lzo g.fuel g.c q)
      x.pair = .fault e) (len : ℕ) (f : Received → NetProg Unit α) :
    call g (claraRecvmsg () len >>= f) (x.saying [.msg type msg]) = .fault (.server e) := by
  rw [call_waiting (by rfl), h.attend hm hq, hrun]
  rfl

/-- A request that the agent does not come to the end of. -/
theorem Idle.call_blocked (h : Idle g x) {type : MessageType} {msg : Bytes}
    (hm : msg.length ≤ Agent.recvbufsz) {q : Agent.ConsumerRequest}
    (hq : Agent.ConsumerRequest.parse ((g.stale (x.pair.heard g.c (.msg type msg))).receive msg)
      type msg.length = some q)
    (hrun : run g.toSetting (.consumer g.c) (Agent.agentConsumerHandler g.lzo g.fuel g.c q)
      x.pair = .blocked) (len : ℕ) (f : Received → NetProg Unit α) :
    call g (claraRecvmsg () len >>= f) (x.saying [.msg type msg]) = .blocked := by
  rw [call_waiting (by rfl), h.attend hm hq, hrun]
  rfl

end

/-- A consumer can make a call. What the agent has sent to the provider before needs no answer;
once it has been worked off, the agent and the provider are as in `y`. -/
structure Ready (g : Session Cl) (provider : Agent.Provider) (x : Trio Cl) (y : Pair Cl) :
    Prop where
  idle : Idle g x
  settles : Settles g.toSetting x.pair y
  attached : Attached g.toSetting provider y
  sound : y.provider.Sound

def Hints (p : Addr) (s : Agent.State) (hint : GlobalId) : Prop :=
  hint ≠ invalidHandle ∧ ∃ a o, (s.sets .objects).lookup hint = some a ∧
    s.heap .object a = some o ∧ o.provider = p

theorem Hints.run_findHint {p : Addr} {s : Agent.State} {hint : GlobalId} {t : Agent.Tid}
    (h : Hints p s hint) (hu : Agent.Usable t .objects s) (site : Agent.Assertion) :
    ∃ a o, Agent.run t (Agent.findHint hint site) s = .done s a ∧
      s.heap .object a = some o ∧ o.provider = p := by
  obtain ⟨-, a, o, hid, ho, hp⟩ := h
  refine ⟨a, o, ?_, ho, hp⟩
  rw [Agent.findHint, Agent.run_bind, Agent.run_setFind hu, Outcome.bind_done, hid]
  rfl

end Clara.Joint
