import Clara.Agent.Custody
import Clara.Joint.Pair
import Clara.Provider.Custody

/-! The handles that the provider holds while the agent's threads talk to it: a conversation about
an allocation changes them by the one handle it is about, and the others leave them alone. Nothing
is assumed of the answers; a thread that is left waiting does not return. -/
namespace Clara.Joint

open Conc

variable {Cl : Type} (g : Setting Cl)

/-- What the provider gets through without an answer, and of the handles `T` it holds `f T`
then. -/
abbrev Setting.Silent (rs : List Sent) (f : Set Handle → Set Handle) : Prop :=
  Provider.Silent g.lzo g.fuel g.lib rs f

/-- The agent has sent what needs no answer and then `rs`, which have not been delivered, and has
received everything sent to it. It has no other provider. The provider waits, and holds the handles
`T` when it has worked off what needs no answer. -/
structure Waits (T : Set Handle) (rs : List Sent) (x : Pair Cl) : Prop where
  conn : ∃ ps f, g.Silent ps f ∧ f x.provider.handles = T ∧
    x.agent.net (.provider g.p) = ⟨[], ps ++ rs, []⟩
  inq : ∀ p, (x.agent.net (.provider p)).inq = []
  provider : x.provider.net = .wire [] []
  alone : ∀ p, p ≠ g.p → x.agent.heap .provider p = none

/-- The provider has answered with `out`, which the agent has not received yet, and holds the
handles `T`. -/
structure Answered (T : Set Handle) (out : List Sent) (x : Pair Cl) : Prop where
  conn : x.agent.net (.provider g.p) = ⟨Net.incoming out, [], []⟩
  inq : ∀ p, p ≠ g.p → (x.agent.net (.provider p)).inq = []
  provider : x.provider.net = .wire [] []
  handles : x.provider.handles = T
  alone : ∀ p, p ≠ g.p → x.agent.heap .provider p = none

abbrev Setting.Answers (rs : List Sent)
    (P : Set Handle → List Sent → Set Handle → Prop) : Prop :=
  Provider.Answers g.lzo g.fuel g.lib rs P

section
variable {g} {t : Agent.Tid} {x y z : Pair Cl} {T T' : Set Handle} {rs out : List Sent}
  {P : Set Handle → List Sent → Set Handle → Prop} {α β : Type} {p : Addr}

theorem bind_done {q : Agent.AProg α} {f : α → Agent.AProg β} {b : β}
    (h : run g t (q >>= f) x = .done z b) :
    ∃ y a, run g t q x = .done y a ∧ run g t (f a) y = .done z b := by
  rw [run_bind] at h
  exact Outcome.bind_eq_done h

theorem provider_ne {p q : Addr} (h : p ≠ q) : Agent.Sd.provider p ≠ .provider q := fun heq =>
  h (Agent.Sd.provider.inj heq)

theorem Answered.waits (h : Answered g T [] x) : Waits g T [] x := by
  refine ⟨⟨[], id, Provider.silent_nil, h.handles, h.conn⟩, ?_, h.provider, h.alone⟩
  intro p
  by_cases hp : p = g.p
  · rw [hp, h.conn]
    rfl
  · exact h.inq p hp

theorem attend_done (h : x.attend g = .done y ()) :
    ∃ q, Provider.providerMain g.lzo g.fuel g.lib (((x.deliver g).provider.net ()).inq.length + 1)
        (x.deliver g).provider = .done q true ∧
      y = ({ x.deliver g with provider := q } : Pair Cl).answer g := by
  obtain ⟨z, _, hwork, hy⟩ := Outcome.bind_eq_done h
  obtain ⟨rfl, -⟩ := Outcome.done.inj hy
  simp only [Pair.work] at hwork
  split at hwork
  · next q hmain =>
    obtain ⟨rfl, -⟩ := Outcome.done.inj hwork
    exact ⟨q, hmain, rfl⟩
  all_goals cases hwork

/-- The records that are delivered to a provider that waits. -/
theorem deliver_provider {sent : List Sent} (hx : x.agent.net (.provider g.p) = ⟨[], sent, []⟩)
    (hp : x.provider.net = .wire [] []) :
    (x.deliver g).provider = x.provider.withNet (.wire (Net.incoming sent) []) ∧
      (x.deliver g).agent.net (.provider g.p) = .fresh := by
  constructor
  · have harrive : arrive x.provider.net () sent = .wire (Net.incoming sent) [] := by
      rw [arrive, hp, Net.wire_apply, List.nil_append, Net.wire_withInq]
    rw [Pair.deliver, hx, harrive]
    rfl
  · show clearSent x.agent.net _ _ = _
    rw [clearSent, Function.update_self, hx]
    rfl

theorem answer_conn {q : Provider.State Cl}
    (hx : x.agent.net (.provider g.p) = .fresh) :
    (({ x with provider := q } : Pair Cl).answer g).agent.net (.provider g.p) =
      ⟨Net.incoming (q.net ()).sent, [], []⟩ := by
  show arrive x.agent.net _ _ _ = _
  rw [arrive, Net.withInq, Function.update_self, hx]
  rfl

/-- After the provider's turn its connection is as it has left it, and the others as they were. -/
theorem Waits.attended (h : Waits g T rs x) {q : Provider.State Cl} {out : List Sent}
    (hy : x.attend g = .done (({ x.deliver g with provider := q } : Pair Cl).answer g) ())
    (hnet : q.net = .wire [] out) : Answered g q.handles out
      (({ x.deliver g with provider := q } : Pair Cl).answer g) := by
  obtain ⟨ps, f, hsilent, hhandles, hconn⟩ := h.conn
  obtain ⟨n, hn, hothers⟩ := attend_agent hy
  obtain ⟨hprov, hfresh⟩ := deliver_provider hconn h.provider
  refine ⟨?_, ?_, ?_, rfl, h.alone⟩
  · rw [answer_conn hfresh, hnet, Net.wire_apply]
  · intro p hp
    rw [hn, Agent.State.withNet_net, hothers _ (provider_ne hp), h.inq]
  · show clearSent q.net () = _
    rw [hnet]
    funext u
    simp [clearSent]

theorem Waits.attend (h : Waits g T rs x) (ha : g.Answers rs P) (hy : x.attend g = .done y ()) :
    (∃ out T', P T out T' ∧ Answered g T' out y) ∨
      (y.agent.net (.provider g.p)).inq = [] := by
  obtain ⟨ps, f, hsilent, hhandles, hconn⟩ := h.conn
  obtain ⟨hprov, hfresh⟩ := deliver_provider hconn h.provider
  obtain ⟨q, hmain, rfl⟩ := attend_done hy
  rw [hprov] at hmain
  have hlen : (ps ++ rs).length <
      ((x.provider.withNet (.wire (Net.incoming (ps ++ rs)) [])).net ()).inq.length + 1 := by
    rw [Provider.State.withNet_net, Net.wire_apply, Net.incoming, List.length_map]
    exact Nat.lt_succ_self _
  obtain ⟨out, hnet, hp⟩ | ⟨-, hsent⟩ := hsilent.answers ha _ _ q hlen rfl hmain
  · left
    refine ⟨out, q.handles, ?_, h.attended hy hnet⟩
    rw [← hhandles]
    exact hp
  · right
    rw [answer_conn hfresh, hsent]
    rfl

theorem Waits.attend_nil (h : Waits g T [] x) (hy : x.attend g = .done y ()) :
    Answered g T [] y := by
  obtain ⟨ps, f, hsilent, hhandles, hconn⟩ := h.conn
  rw [List.append_nil] at hconn
  obtain ⟨hprov, hfresh⟩ := deliver_provider hconn h.provider
  obtain ⟨q, hmain, rfl⟩ := attend_done hy
  rw [hprov] at hmain
  have hlen : ps.length < ((x.provider.withNet
      (.wire (Net.incoming ps) [])).net ()).inq.length + 1 := by
    rw [Provider.State.withNet_net, Net.wire_apply, Net.incoming, List.length_map]
    exact Nat.lt_succ_self _
  obtain ⟨hnet, hsame⟩ := hsilent.providerMain_done hlen rfl hmain
  have hanswered := h.attended hy hnet
  rwa [hsame.trans hhandles] at hanswered

/-- A message to the provider waits to be delivered; one to another provider is none of this
provider's business. -/
theorem Waits.send (h : Waits g T rs x) {type : MessageType} {msg : Bytes} {r : Option ℕ}
    (hrun : run g t (Agent.net (claraSendmsg (.provider p) type msg)) x = .done y r) :
    (∃ n, y = { x with agent := x.agent.withNet n }) ∧
      (p = g.p ∧ r = some msg.length ∧ Waits g T (rs ++ [.msg type msg]) y ∨
        p ≠ g.p ∧ Waits g T rs y) := by
  obtain ⟨n, hsend⟩ := Net.run_claraSendmsg_cases x.agent.net (.provider p) type msg
  have hdone : Net.run (claraSendmsg (.provider p) type msg) x.agent.net = .done n r ∧
      y = { x with agent := x.agent.withNet n } := by
    obtain hsend | hsend := hsend
    all_goals
      obtain ⟨rfl, rfl⟩ := Outcome.done.inj ((run_net_done hsend).symm.trans hrun)
      exact ⟨hsend, rfl⟩
  obtain ⟨hsent, rfl⟩ := hdone
  refine ⟨⟨n, rfl⟩, ?_⟩
  have hinq : ∀ p, (n (.provider p)).inq = [] := fun p' =>
    (Net.run_claraSendmsg_inq hsent _).trans (h.inq p')
  obtain ⟨ps, f, hsilent, hhandles, hconn⟩ := h.conn
  by_cases hp : p = g.p
  · subst hp
    left
    have hf : (x.agent.net (.provider g.p)).sendFails = [] := by rw [hconn]
    obtain ⟨rfl, rfl⟩ := Outcome.done.inj ((Net.run_claraSendmsg hf type msg).symm.trans hsent)
    refine ⟨rfl, rfl, ⟨⟨ps, f, hsilent, hhandles, ?_⟩, hinq, h.provider, h.alone⟩⟩
    show x.agent.net.push _ _ _ = _
    rw [Net.push, Function.update_self, hconn, List.append_assoc]
  · right
    refine ⟨hp, ⟨⟨ps, f, hsilent, hhandles, ?_⟩, hinq, h.provider, h.alone⟩⟩
    rw [← hconn]
    have hexec : Net.exec (.sendmsg (.provider p) type msg) x.agent.net = .done n r :=
      (Prog.run_perform _ _ _ _).symm.trans hsent
    exact Net.exec_conn (T := (· ≠ Agent.Sd.provider g.p)) (o := .sendmsg (.provider p) type msg)
      (provider_ne hp) hexec (not_not_intro rfl)

theorem Waits.recv (h : Waits g T rs x) (ha : g.Answers rs P) {len : ℕ}
    (hP : ∀ r rest T', P T (r :: rest) T' → ∃ type msg, r = .msg type msg ∧ msg.length ≤ len)
    {r : Received}
    (hrun : run g t (Agent.net (claraRecvmsg (.provider p) len)) x = .done y r) :
    p = g.p ∧ ∃ type msg rest T', P T (.msg type msg :: rest) T' ∧ r = .message type msg ∧
      Answered g T' rest y := by
  have hblocked : ∀ (s : Agent.State), (s.net (.provider p)).inq = [] →
      Agent.exec t (.net (.recvmsg (.provider p) len)) s = .blocked := by
    intro s hs
    simp [Agent.exec, Net.exec, Net.take, hs]
  have hperform : run g t (Agent.perform (.net (.recvmsg (.provider p) len))) x = .done y r := hrun
  rw [run_perform_blocked (hblocked _ (h.inq p))] at hperform
  obtain ⟨z, _, hattend, hexec⟩ := Outcome.bind_eq_done hperform
  obtain ⟨n, hn, hothers⟩ := attend_agent hattend
  have hwaits : (z.agent.net (.provider p)).inq ≠ [] := by
    intro hnil
    rw [hblocked _ hnil] at hexec
    cases hexec
  have hp : p = g.p := by
    by_contra hne
    apply hwaits
    rw [hn, Agent.State.withNet_net, hothers _ (provider_ne hne), h.inq]
  subst hp
  obtain ⟨out, T', hout, hanswered⟩ | hnil := h.attend ha hattend
  · have hne : out ≠ [] := by
      rintro rfl
      apply hwaits
      rw [hanswered.conn]
      rfl
    obtain ⟨first, rest, rfl⟩ := List.exists_cons_of_ne_nil hne
    obtain ⟨type, msg, rfl, hlen⟩ := hP first rest T' hout
    have hinq : (z.agent.net (.provider g.p)).inq =
        .record (Sent.msg type msg).record :: Net.incoming rest := by
      rw [hanswered.conn]
      rfl
    have hrecv : Agent.run t (Agent.net (claraRecvmsg (.provider g.p) len)) z.agent =
        .done (z.agent.withNet (z.agent.net.withInq (.provider g.p) (Net.incoming rest)))
          (.message type msg) := by
      rw [Agent.run_net, Net.run_claraRecvmsg hinq hlen]
    have hsame : Agent.exec t (.net (.recvmsg (.provider g.p) len)) z.agent = _ :=
      (Prog.run_perform _ _ _ _).symm.trans hrecv
    rw [hsame] at hexec
    obtain ⟨rfl, rfl⟩ := Outcome.done.inj hexec
    refine ⟨rfl, type, msg, rest, T', hout, rfl, ?_, ?_, hanswered.provider, hanswered.handles,
      hanswered.alone⟩
    · show z.agent.net.withInq _ _ _ = _
      rw [Net.withInq, Function.update_self, hanswered.conn]
    · intro p hp
      show (z.agent.net.withInq _ _ _).inq = []
      rw [Net.withInq_of_ne _ _ (provider_ne hp), hanswered.inq p hp]
  · exact absurd hnil hwaits

theorem Waits.recv_word (h : Waits g T rs x) {type : MessageType}
    {Q : Set Handle → UInt64 → Set Handle → Prop}
    (ha : g.Answers rs fun T out T' => ∃ w, out = [.msg type (Bytes.word w)] ∧ Q T w T')
    {r : Received}
    (hrun : run g t (Agent.net (claraRecvmsg (.provider p) 8)) x = .done y r) :
    p = g.p ∧ ∃ w T', Q T w T' ∧ r = .message type (Bytes.word w) ∧ Waits g T' [] y := by
  have hword : ∀ r rest T', (∃ w, r :: rest = [Sent.msg type (Bytes.word w)] ∧ Q T w T') →
      ∃ type msg, r = .msg type msg ∧ msg.length ≤ 8 := by
    rintro r rest T' ⟨w, hout, -⟩
    obtain ⟨rfl, -⟩ := List.cons.inj hout
    exact ⟨_, _, rfl, by rw [Bytes.length_word]⟩
  obtain ⟨hp, type', msg, rest, T', ⟨w, hout, hq⟩, rfl, hy⟩ := h.recv ha hword hrun
  obtain ⟨hmsg, rfl⟩ := List.cons.inj hout
  obtain ⟨rfl, rfl⟩ := Sent.msg.inj hmsg
  exact ⟨hp, w, T', hq, rfl, hy.waits⟩

theorem Waits.recv_nothing (h : Waits g T [] x) {len : ℕ} {r : Received}
    (hrun : run g t (Agent.net (claraRecvmsg (.provider p) len)) x = .done y r) : False := by
  have hnone : ∀ (r : Sent) rest T', (r :: rest = [] ∧ T' = T) →
      ∃ type msg, r = .msg type msg ∧ msg.length ≤ len := by
    rintro r rest T' ⟨hout, -⟩
    cases hout
  obtain ⟨-, type, msg, rest, T', ⟨hout, -⟩, -⟩ := h.recv Provider.answers_nil hnone hrun
  cases hout

variable (g t) in
/-- A program that leaves the handles of the provider alone. -/
def Spares (p : Agent.AProg α) : Prop :=
  ∀ T x y a, Waits g T [] x → run g t p x = .done y a → Waits g T [] y

theorem spares_pure (a : α) : Spares g t (pure a) := by
  intro T x y b hx h
  obtain ⟨rfl, -⟩ := Outcome.done.inj h
  exact hx

theorem Spares.bind {q : Agent.AProg α} {f : α → Agent.AProg β} (hq : Spares g t q)
    (hf : ∀ a, Spares g t (f a)) : Spares g t (q >>= f) := by
  intro T x z b hx h
  obtain ⟨y, a, hfirst, hsecond⟩ := bind_done h
  exact hf a T y z b (hq T x y a hx hfirst) hsecond

theorem Waits.exec (h : Waits g T rs x) {o : Agent.Op} (hwire : o.area ≠ .wire)
    (harrival : o.area ≠ .arrival) (hprovider : o.area ≠ .provider) {s : Agent.State} {r : o.Res}
    (hexec : Agent.exec t o x.agent = .done s r) : Waits g T rs { x with agent := s } := by
  have hconn : ∀ p, s.net (.provider p) = x.agent.net (.provider p) := fun p =>
    Agent.exec_conn hexec hwire harrival
  obtain ⟨ps, f, hsilent, hhandles, hps⟩ := h.conn
  refine ⟨⟨ps, f, hsilent, hhandles, (hconn g.p).trans hps⟩, ?_, h.provider, ?_⟩
  · intro p
    show (s.net (.provider p)).inq = []
    rw [hconn, h.inq]
  · intro p hp
    have hnone := h.alone p hp
    obtain hsame | ⟨v, _, hsome, -, -⟩ :=
      (Agent.change_of_done hexec).heap (k := .provider) hprovider p
    · exact hsame.trans hnone
    · rw [hnone] at hsome
      cases hsome

theorem passes_spares {S : List Agent.Area} (hwire : .wire ∉ S) (harrival : .arrival ∉ S)
    (hprovider : .provider ∉ S) : Agent.Passes S fun _ p => Spares g t p where
  pure := spares_pure
  bind := Spares.bind
  op o ho := by
    intro T x y r hx h
    have hout : ∀ a, a ∉ S → o.area ≠ a := fun a ha heq => ha (heq ▸ ho)
    have hperform : exec g t o x = .done y r := (Prog.run_perform _ _ _ _).symm.trans h
    obtain hexec | ⟨z, hattend, hexec⟩ := attended_done hperform
    · obtain ⟨s, hs, rfl⟩ := Outcome.map_eq_done hexec
      exact hx.exec (hout _ hwire) (hout _ harrival) (hout _ hprovider) hs
    · obtain ⟨s, hs, rfl⟩ := Outcome.map_eq_done hexec
      exact (hx.attend_nil hattend).waits.exec (hout _ hwire) (hout _ harrival) (hout _ hprovider) hs

theorem passes_quiet : Agent.Passes Agent.Area.silent fun _ p => Spares g t p :=
  passes_spares (by decide) (by decide) (by decide)

theorem spares_providerLock (p : Addr) : Spares g t (Agent.providerLock p) :=
  Spares.bind (Agent.passes_read passes_quiet .provider p (by decide)) fun _ =>
    Agent.passes_lockWait passes_quiet _ (by decide)

theorem spares_providerUnlock (p : Addr) : Spares g t (Agent.providerUnlock p) :=
  Spares.bind (Agent.passes_read passes_quiet .provider p (by decide)) fun _ =>
    Agent.passes_lockPost passes_quiet _ (by decide)

theorem Waits.silent {f : Set Handle → Set Handle} (h : Waits g T rs x) (hf : g.Silent rs f) :
    Waits g (f T) [] x := by
  obtain ⟨ps, f₀, hsilent, rfl, hconn⟩ := h.conn
  refine ⟨⟨ps ++ rs, f ∘ f₀, hsilent.append hf, rfl, ?_⟩, h.inq, h.provider, h.alone⟩
  rw [hconn, List.append_nil]

theorem spares_agentRemoteMap (p : Addr) (real : Arg) (virt : GlobalId) :
    Spares g t (Agent.agentRemoteMap p real virt) := by
  apply (Agent.passes_read passes_quiet .provider p (by decide)).bind
  intro _
  apply Spares.bind
  · intro T x y r hx h
    obtain ⟨-, ⟨-, -, hy⟩ | ⟨-, hy⟩⟩ := hx.send h
    · exact hy.silent (Provider.silent_mapping _)
    · exact hy
  · intro ssz
    cases ssz with
    | none => exact spares_pure _
    | some ssz =>
      exact (Agent.passes_assert passes_quiet _ _ (by decide)).bind fun _ => spares_pure _

theorem Waits.exchange (h : Waits g T [] x) {type type' : MessageType} {msg : Bytes}
    {Q : Set Handle → UInt64 → Set Handle → Prop}
    (ha : g.Answers [.msg type msg] fun T out T' =>
      ∃ w, out = [.msg type' (Bytes.word w)] ∧ Q T w T') {r : Option ℕ} {r' : Received}
    (hsend : run g t (Agent.net (claraSendmsg (.provider p) type msg)) x = .done y r)
    (hrecv : run g t (Agent.net (claraRecvmsg (.provider p) 8)) y = .done z r') :
    p = g.p ∧ ∃ w T', Q T w T' ∧ r' = .message type' (Bytes.word w) ∧ Waits g T' [] z := by
  obtain ⟨-, ⟨-, -, hy⟩ | ⟨hne, hy⟩⟩ := h.send hsend
  · exact hy.recv_word ha hrecv
  · exact absurd hrecv hy.recv_nothing

/-- The end of a call of the provider: the word it has answered with. -/
theorem remoteResponse_done {a : Agent.Assertion} {w : UInt64} {r : Option Arg}
    (h : run g t (do
      Agent.providerUnlock p
      Agent.assert ((Bytes.word w).length == 8) a
      pure (some ((Bytes.word w).wordAt 0))) x = .done y r) (hx : Waits g T [] x) :
    r = some w ∧ Waits g T [] y := by
  obtain ⟨z, _, hunlock, hrest⟩ := bind_done h
  have hz := spares_providerUnlock p T x z _ hx hunlock
  simp only [Bytes.length_word, beq_self_eq_true, Bytes.wordAt_word] at hrest
  obtain ⟨rfl, rfl⟩ := Outcome.done.inj hrest
  exact ⟨rfl, hz⟩

theorem spares_agentRemoteExecute (p : Option Addr) (params : ExecuteRequest) :
    Spares g t (Agent.agentRemoteExecute p params) := by
  cases p with
  | none => exact spares_pure none
  | some p =>
    intro T x z r hx h
    obtain ⟨x₁, _, hlock, hrest⟩ := bind_done h
    have hx₁ := spares_providerLock p T x x₁ _ hx hlock
    obtain ⟨x₂, ssz, hsend, hrest⟩ := bind_done hrest
    cases ssz with
    | none =>
      obtain ⟨rfl, -⟩ := Outcome.done.inj hrest
      obtain ⟨-, ⟨-, hr, -⟩ | ⟨-, hx₂⟩⟩ := hx₁.send hsend
      · cases hr
      · exact hx₂
    | some ssz =>
      obtain ⟨x₃, response, hrecv, hrest⟩ := bind_done hrest
      obtain ⟨rfl, w, T', rfl, rfl, hx₃⟩ :=
        hx₁.exchange (Provider.answers_execute params.bytes) hsend hrecv
      exact (remoteResponse_done hrest hx₃).2

theorem Waits.agentRemoteAllocate (hx : Waits g T [] x) {params : AllocateRequest} {extra : Bytes}
    {r : Option Handle} (h : run g t (Agent.agentRemoteAllocate p params extra) x = .done z r) :
    r = none ∧ Waits g T [] z ∨ p = g.p ∧ r = some params.handle ∧ params.handle ∉ T ∧
      Waits g (insert params.handle T) [] z := by
  obtain ⟨x₁, _, hlock, hrest⟩ := bind_done h
  have hx₁ := spares_providerLock p T x x₁ _ hx hlock
  obtain ⟨x₂, ssz, hsend, hrest⟩ := bind_done hrest
  cases ssz with
  | none =>
    obtain ⟨rfl, rfl⟩ := Outcome.done.inj hrest
    obtain ⟨-, ⟨-, hr, -⟩ | ⟨-, hx₂⟩⟩ := hx₁.send hsend
    · cases hr
    · exact .inl ⟨rfl, hx₂⟩
  | some ssz =>
    obtain ⟨x₃, response, hrecv, hrest⟩ := bind_done hrest
    obtain ⟨rfl, w, T', ⟨rfl, hnew, rfl⟩, rfl, hx₃⟩ :=
      hx₁.exchange (Provider.answers_allocate params extra) hsend hrecv
    obtain ⟨hr, hz⟩ := remoteResponse_done hrest hx₃
    exact .inr ⟨rfl, hr, hnew, hz⟩

theorem spares_clCreateObject (target : Option Addr) (c : Addr) (localId : Arg)
    (wish : GlobalId) : Spares g t (Agent.clCreateObject target c localId wish) := by
  have hK := passes_quiet (g := g) (t := t)
  apply (Agent.passes_deref hK _ (by decide)).bind
  intro p
  apply (Agent.passes_read hK .provider p (by decide)).bind
  intro _
  apply Agent.passes_ite (spares_pure _)
  have hid : Spares g t (if wish = invalidId then Agent.idCreate else pure wish) :=
    Agent.passes_ite (K := fun _ p => Spares g t p) (Agent.passes_idCreate hK (by decide))
      (spares_pure _)
  apply hid.bind
  intro id
  apply (Agent.passes_objectCreate hK (by decide) p localId id).bind
  intro obj
  cases obj with
  | none => exact Agent.passes_fail hK _ (by decide)
  | some obj =>
    apply (Agent.passes_objectRetain hK (by decide) obj c).bind
    intro b
    apply (Agent.passes_assert hK b _ (by decide)).bind
    intro _
    apply Agent.passes_ite (K := fun _ p => Spares g t p)
    · exact (spares_agentRemoteMap p localId id).bind fun _ => spares_pure _
    · exact spares_pure _

theorem spares_agentGenericMapEvent (n : ℕ) (params : ExecuteRequest) (target : Option Addr)
    (c : Addr) : Spares g t (Agent.agentGenericMapEvent n params target c) := by
  have hK := passes_quiet (g := g) (t := t)
  apply Agent.passes_ite (K := fun _ p => Spares g t p) (spares_pure _)
  apply (Agent.passes_deref hK _ (by decide)).bind
  intro p
  apply (Agent.passes_read hK .provider p (by decide)).bind
  intro _
  apply (Agent.passes_idCreate hK (by decide)).bind
  intro virt
  apply (spares_providerLock p).bind
  intro _ T x z r hx h
  obtain ⟨x₁, b, hsent, hrest⟩ := bind_done h
  rw [claraSendMapatptrRequest, sendRequest, Agent.net_bind] at hsent
  obtain ⟨x₁', ssz, hsend, hsent⟩ := bind_done hsent
  obtain ⟨x₂, _, hassert, hrest⟩ := bind_done hrest
  obtain ⟨x₃, real, hresponse, hrest⟩ := bind_done hrest
  rw [claraRecvMapatptrResponse, claraRecvMapatptrResponseWith, Agent.net_bind] at hresponse
  obtain ⟨x₃', response, hrecv, hresponse⟩ := bind_done hresponse
  have hx₁ : x₁ = x₁' := by
    cases ssz with
    | none => exact (Outcome.done.inj hsent).1.symm
    | some ssz => exact (Outcome.done.inj hsent).1.symm
  have hx₂ : x₂ = x₁ := by
    cases b with
    | false => cases hassert
    | true => exact (Outcome.done.inj hassert).1.symm
  rw [hx₂, hx₁] at hrecv
  obtain ⟨rfl, w, T', rfl, rfl, hx₃⟩ := hx.exchange (Provider.answers_mapatptr _) hsend hrecv
  have hreal : x₃ = x₃' ∧ real = some w := by
    rw [Received.stored] at hresponse
    simp only [Bytes.whole, Bytes.length_word, if_true, Bytes.wordAt_word] at hresponse
    obtain ⟨rfl, rfl⟩ := Outcome.done.inj hresponse
    exact ⟨rfl, rfl⟩
  obtain ⟨rfl, rfl⟩ := hreal
  have hend : Spares g t (do
      let id ← Agent.clCreateObject (some g.p) c w virt
      Agent.assert (id == virt) .mapEventCreate
      Agent.providerUnlock g.p
      pure params) := by
    apply (spares_clCreateObject (some g.p) c w virt).bind
    intro id
    apply (Agent.passes_assert hK _ _ (by decide)).bind
    intro _
    exact (spares_providerUnlock g.p).bind fun _ => spares_pure _
  exact hend T' x₃ z r hx₃ hrest

/-- The query of a device does not return before it has taken back what it has allocated: it uses a
pointer that is `NULL`. -/
theorem spares_agentDeviceIsAvailable (lzo : Lzo) (fuel : ℕ) (device : Addr) :
    Spares g t (Agent.agentDeviceIsAvailable lzo fuel device) := by
  have hK := passes_quiet (g := g) (t := t)
  apply (Agent.passes_read hK .device device (by decide)).bind
  intro dv
  apply Agent.passes_ite (K := fun _ p => Spares g t p) _ (spares_pure _)
  apply (spares_providerLock dv.provider).bind
  intro _
  have hquery : Spares g t (Agent.queryAvailable lzo fuel device dv.provider) := by
    apply (Agent.passes_read hK .device device (by decide)).bind
    intro dv' T x z value hx h
    obtain ⟨x₁, handle, hid, hrest⟩ := bind_done h
    have hx₁ := Agent.passes_idCreate hK (by decide) T x x₁ handle hx hid
    obtain ⟨x₂, result, hallocate, hrest⟩ := bind_done hrest
    obtain ⟨rfl, hx₂⟩ | ⟨hp, rfl, hnew, hx₂⟩ := hx₁.agentRemoteAllocate hallocate
    · obtain ⟨rfl, -⟩ := Outcome.done.inj hrest
      exact hx₂
    · exfalso
      obtain ⟨x₃, b, hsent, hrest⟩ := bind_done hrest
      rw [claraSendExecuteRequest, sendRequest, Agent.net_bind] at hsent
      obtain ⟨x₃', ssz, hsend, hsent⟩ := bind_done hsent
      obtain ⟨-, ⟨-, rfl, -⟩ | ⟨hne, -⟩⟩ := hx₂.send hsend
      · obtain ⟨rfl, rfl⟩ := Outcome.done.inj hsent
        obtain ⟨x₄, retval, hresponse, hrest⟩ := bind_done hrest
        rw [claraRecvExecuteResponse, recvWord, Agent.net_bind] at hresponse
        obtain ⟨x₄', response, hrecv, hresponse⟩ := bind_done hresponse
        obtain ⟨-, w, T', rfl, rfl, hx₃⟩ :=
          hx₂.exchange (Provider.answers_execute _) hsend hrecv
        rw [Received.stored] at hresponse
        simp only [Bytes.length_word, if_true] at hresponse
        obtain ⟨rfl, rfl⟩ := Outcome.done.inj hresponse
        obtain ⟨x₅, b, hfetch, -⟩ := bind_done hrest
        have hne : handle ≠ invalidHandle := Agent.idCreate_returns.run hid
        rw [Agent.claraSendFetchRequest, if_neg hne] at hfetch
        cases hfetch
      · exact hne hp
  exact hquery.bind fun result => (spares_providerUnlock dv.provider).bind fun _ => spares_pure _

end

end Clara.Joint
