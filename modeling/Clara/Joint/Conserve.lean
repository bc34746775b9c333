import Clara.Consumer.Custody
import Clara.Joint.Context
import Clara.Joint.Fetch
import Clara.Joint.Handles

/-! The functions of the consumer library in a session: between two of them the allocations of the
consumer in the agent and those at the provider have the same handles. -/
namespace Clara.Joint

open Conc

variable {Cl : Type} {g : Session Cl}

inductive Ask
  | allocate (nmemb size : UInt64) (data : Bytes) (hint : GlobalId)
  | execute (func : Arg) (argv : List Arg) (hint : GlobalId)
  | memput (dst : Handle) (size : UInt64) (data : Bytes) (hint : GlobalId)
    (h : data.length = size.toNat)
  | fetch (src : Handle) (n : UInt64) (hint : GlobalId)

namespace Ask

def type : Ask → MessageType
  | .allocate .. => Msg.allocateRequest
  | .execute .. => Msg.executeRequest
  | .memput .. => Msg.memputStream
  | .fetch .. => Msg.fetchRequest

def msg : Ask → Bytes
  | .allocate nmemb size data hint => AllocateRequest.bytes ⟨invalidHandle, nmemb, size, hint⟩ ++ data
  | .execute func argv hint => Bytes.words (hint :: func :: 0 :: argv)
  | .memput dst size _ hint _ => MemputStreamParams.bytes ⟨dst, 0, size, hint⟩
  | .fetch src n hint => FetchRequest.bytes ⟨src, n, hint, Consumer.streamOptions n⟩

def stream (lzo : Lzo) : Ask → List Sent
  | .memput _ size data _ _ => streamRecords lzo (Consumer.streamOptions size) data
  | _ => []

def records (lzo : Lzo) (a : Ask) : List Sent := .msg a.type a.msg :: a.stream lzo

/-- What is sent in answer, and where the handles are before and after. -/
def Effect (lzo : Lzo) (a : Ask) (K : Set Place) (sent : List Sent) (K' : Set Place) : Prop :=
  match a with
  | .allocate _ _ _ hint => ∃ handle,
    sent = [.msg Msg.allocateResponse (Bytes.word handle)] ∧ Added K (handle, hint) K'
  | .execute .. => ∃ w, sent = [.msg Msg.executeResponse (Bytes.word w)] ∧ K' = K
  | .memput .. => sent = [] ∧ K' = K
  | .fetch src n hint => Fetched lzo n sent ∧ K' = K \ {placeOf (src, hint)}

end Ask

section
variable {K K' : Set Place} {q : List Incoming} {out : List Sent} {x y : Pair Cl}

theorem Attends.take {g : Setting Cl} {c : Addr} (h : Attends g c K q out x)
    (q' : List Incoming) : Attends g c K q' out
      { x with agent := x.agent.withNet (x.agent.net.withInq (.consumer c) q') } := by
  refine ⟨?_, h.own, h.waits.withNet fun p => ?_⟩
  · show x.agent.net.withInq _ _ _ = _
    rw [Net.withInq_apply, h.conn]
  · exact Net.withInq_of_ne _ _ (consumer_ne p c) _

theorem Attends.cleared {g : Setting Cl} {c : Addr} (h : Attends g c K q out x) :
    Attends g c K q [] { x with agent := x.agent.withNet (clearSent x.agent.net (.consumer c)) } := by
  refine ⟨?_, h.own, h.waits.withNet fun p => ?_⟩
  · show clearSent x.agent.net _ _ = _
    rw [clearSent, Function.update_self, h.conn]
  · exact Function.update_of_ne (consumer_ne p c) ..

theorem Attends.handle (hl : Consumer.Compresses g.lzo) (hfuel : 2 ^ 72 ≤ g.fuel) {a : Ask}
    {buf : Buffer Agent.recvbufsz} (hm : a.msg.length ≤ Agent.recvbufsz)
    (h : Attends g.toSetting g.c K (Net.incoming (a.stream g.lzo) ++ q) out x)
    {r : Agent.ConsumerRequest}
    (hr : Agent.ConsumerRequest.parse (buf.receive a.msg) a.type a.msg.length = some r)
    (hrun : run g.toSetting (.consumer g.c) (Agent.agentConsumerHandler g.lzo g.fuel g.c r) x =
      .done y ()) :
    ∃ K' sent, a.Effect g.lzo K sent K' ∧ Attends g.toSetting g.c K' q (out ++ sent) y := by
  cases a with
  | allocate nmemb size data hint =>
    have hlen : 32 + data.length ≤ Agent.recvbufsz := by
      simpa [Ask.msg, AllocateRequest.bytes] using hm
    obtain rfl := Option.some.inj ((Agent.parse_allocate buf hlen).symm.trans hr)
    obtain ⟨handle, K', hadded, hy⟩ := h.handleAllocate rfl hrun
    exact ⟨K', _, ⟨handle, rfl, hadded⟩, hy⟩
  | execute func argv hint =>
    obtain ⟨params, hparams⟩ := Agent.parse_executeRequest (buf.receive _) _
    obtain rfl := Option.some.inj (hparams.symm.trans hr)
    obtain ⟨w, hy⟩ := h.handleExecute hrun
    exact ⟨K, _, ⟨w, rfl, rfl⟩, hy⟩
  | memput dst size data hint hdata =>
    obtain ⟨params, hparams⟩ := Agent.parse_memputStream (buf.receive _) _
    obtain rfl := Option.some.inj (hparams.symm.trans hr)
    have hlt : data.length < 2 ^ 64 := hdata ▸ size.toNat_lt
    have hy := h.handleMemput hl hfuel hlt hrun
    refine ⟨K, [], ⟨rfl, rfl⟩, ?_⟩
    rw [List.append_nil]
    exact hy
  | fetch src n hint =>
    obtain rfl := Option.some.inj ((Agent.parse_fetch buf _).symm.trans hr)
    obtain ⟨sent, hsent, hy⟩ := h.handleFetch hl hfuel hrun
    exact ⟨_, sent, ⟨hsent, rfl⟩, hy⟩

theorem Ask.parse (a : Ask) (buf : Buffer Agent.recvbufsz) (hm : a.msg.length ≤ Agent.recvbufsz) :
    ∃ r, Agent.ConsumerRequest.parse (buf.receive a.msg) a.type a.msg.length = some r := by
  cases a with
  | allocate nmemb size data hint =>
    have hlen : 32 + data.length ≤ Agent.recvbufsz := by
      simpa [Ask.msg, AllocateRequest.bytes] using hm
    exact ⟨_, Agent.parse_allocate buf hlen⟩
  | execute func argv hint =>
    obtain ⟨params, hparams⟩ := Agent.parse_executeRequest (buf.receive _) _
    exact ⟨_, hparams⟩
  | memput dst size data hint hdata =>
    obtain ⟨params, hparams⟩ := Agent.parse_memputStream (buf.receive _) _
    exact ⟨_, hparams⟩
  | fetch src n hint => exact ⟨_, Agent.parse_fetch buf _⟩

/-- One turn of the thread, after which it serves no more or has answered. -/
theorem Attends.turn (hl : Consumer.Compresses g.lzo) (hfuel : 2 ^ 72 ≤ g.fuel) {a : Ask}
    {buf : Buffer Agent.recvbufsz}
    (h : Attends g.toSetting g.c K (Net.incoming (a.records g.lzo) ++ q) out x)
    (hrun : run g.toSetting (.consumer g.c) (Agent.agentConsumerTurn g.lzo g.fuel g.c buf) x =
      .done y ()) :
    y.agent.phase (.consumer g.c) = .finished ∨
      ∃ K' sent, a.Effect g.lzo K sent K' ∧ Attends g.toSetting g.c K' q (out ++ sent) y := by
  have hinq : (x.agent.net (.consumer g.c)).inq =
      .record (Sent.msg a.type a.msg).record :: (Net.incoming (a.stream g.lzo) ++ q) := by
    rw [h.conn]
    rfl
  by_cases hm : a.msg.length ≤ Agent.recvbufsz
  · right
    rw [Agent.agentConsumerTurn, run_bind, run_net_done (Net.run_claraRecvmsg hinq hm),
      Outcome.bind_done] at hrun
    simp only at hrun
    have hx := h.take (Net.incoming (a.stream g.lzo) ++ q)
    obtain ⟨r, hr⟩ := a.parse buf hm
    rw [hr] at hrun
    exact hx.handle hl hfuel hm hr hrun
  · left
    have hlong : 2 + Agent.recvbufsz < (Sent.msg a.type a.msg).record.length := by
      rw [Sent.record, List.length_append, Bytes.length_ofNat]
      omega
    rw [Agent.agentConsumerTurn, run_bind, run_net_done (Net.run_claraRecvmsg_tooLong hinq hlong),
      Outcome.bind_done] at hrun
    exact run_consumerShutdown_phase hrun

inductive Worked (lzo : Lzo) : Set Place → List Ask → List Sent → Set Place → Prop
  | nil (K : Set Place) : Worked lzo K [] [] K
  | cons {a : Ask} {asks : List Ask} {K K₁ K' : Set Place} {sent out : List Sent}
    (ha : a.Effect lzo K sent K₁) (hl : Worked lzo K₁ asks out K') :
    Worked lzo K (a :: asks) (sent ++ out) K'

theorem turns_left {n : ℕ} (h : x.agent.phase (.consumer g.c) ≠ .serving) :
    turns g n x = .done x () := by
  cases n with
  | zero => rfl
  | succ n => rw [turns, if_pos (.inr h)]

theorem turns_nothing {n : ℕ} (h : (x.agent.net (.consumer g.c)).inq = []) :
    turns g n x = .done x () := by
  cases n with
  | zero => rfl
  | succ n => rw [turns, if_pos (.inl (by rw [h]; rfl))]

theorem Attends.turns (hl : Consumer.Compresses g.lzo) (hfuel : 2 ^ 72 ≤ g.fuel)
    {asks : List Ask} {n : ℕ} (hn : (asks.flatMap (Ask.records g.lzo)).length ≤ n)
    (h : Attends g.toSetting g.c K (Net.incoming (asks.flatMap (Ask.records g.lzo))) out x)
    (hrun : turns g n x = .done y ()) :
    y.agent.phase (.consumer g.c) ≠ .serving ∨
      ∃ K' sent, Worked g.lzo K asks sent K' ∧
        Attends g.toSetting g.c K' [] (out ++ sent) y := by
  induction asks generalizing n K out x with
  | nil =>
    have hinq : (x.agent.net (.consumer g.c)).inq = [] := by
      rw [h.conn]
      rfl
    rw [turns_nothing hinq] at hrun
    obtain ⟨rfl, -⟩ := Outcome.done.inj hrun
    refine .inr ⟨K, [], .nil K, ?_⟩
    rw [List.append_nil]
    exact h
  | cons a asks ih =>
    rw [List.flatMap_cons, List.length_append, Ask.records, List.length_cons] at hn
    obtain ⟨n, rfl⟩ := Nat.exists_eq_succ_of_ne_zero (by omega : n ≠ 0)
    by_cases hphase : x.agent.phase (.consumer g.c) = .serving
    · have hgo : ¬ ((x.agent.net (.consumer g.c)).inq.isEmpty ∨
          x.agent.phase (.consumer g.c) ≠ .serving) := by
        rw [h.conn]
        simp [hphase, Ask.records, Net.incoming]
      rw [Joint.turns, if_neg hgo] at hrun
      obtain ⟨x₁, _, hturn, hrest⟩ := Outcome.bind_eq_done hrun
      rw [List.flatMap_cons, Net.incoming_append] at h
      obtain hleft | ⟨K₁, sent, heffect, hx₁⟩ := h.turn hl hfuel hturn
      · have hne : x₁.agent.phase (.consumer g.c) ≠ .serving := by
          rw [hleft]
          decide
        rw [turns_left hne] at hrest
        obtain ⟨rfl, -⟩ := Outcome.done.inj hrest
        exact .inl hne
      · obtain hleft | ⟨K', sent', hworked, hy⟩ := ih (by omega) hx₁ hrest
        · exact .inl hleft
        · refine .inr ⟨K', sent ++ sent', .cons heffect hworked, ?_⟩
          rw [← List.append_assoc]
          exact hy
    · rw [turns_left hphase] at hrun
      obtain ⟨rfl, -⟩ := Outcome.done.inj hrun
      exact .inl hphase

end

section
variable {K K' : Set Place} {x y z : Trio Cl} {α : Type}

variable (g) in
/-- The thread of the consumer serves it. -/
def Trio.Open (x : Trio Cl) : Prop := x.pair.agent.phase (.consumer g.c) = .serving

theorem Attends.attend (hl : Consumer.Compresses g.lzo) (hfuel : 2 ^ 72 ≤ g.fuel) {asks : List Ask}
    (hclient : x.client = .wire [] (asks.flatMap (Ask.records g.lzo)))
    (h : Attends g.toSetting g.c K [] [] x.pair) (hrun : x.attend g = .done y ())
    (hopen : y.Open g) :
    ∃ K' sent, Worked g.lzo K asks sent K' ∧ y.client = .wire (Net.incoming sent) [] ∧
      Attends g.toSetting g.c K' [] [] y.pair := by
  obtain ⟨z, _, hwork, hy⟩ := Outcome.bind_eq_done hrun
  obtain ⟨rfl, -⟩ := Outcome.done.inj hy
  obtain ⟨w, hturns, rfl⟩ := Outcome.map_eq_done hwork
  have hdelivered : (x.deliver g).client = .wire [] [] := by
    show clearSent x.client () = _
    rw [hclient]
    funext u
    simp [clearSent]
  have hw : w.agent.phase (.consumer g.c) = .serving := hopen
  have harrived : Attends g.toSetting g.c K (Net.incoming (asks.flatMap (Ask.records g.lzo))) []
      (x.deliver g).pair := by
    have htake := h.take (Net.incoming (asks.flatMap (Ask.records g.lzo)))
    have hsent : (x.client ()).sent = asks.flatMap (Ask.records g.lzo) := by rw [hclient]; rfl
    have hinq : (x.pair.agent.net (.consumer g.c)).inq = [] := by rw [h.conn]
    have harrive : arrive x.pair.agent.net (.consumer g.c) (x.client ()).sent =
        x.pair.agent.net.withInq (.consumer g.c)
          (Net.incoming (asks.flatMap (Ask.records g.lzo))) := by
      rw [hsent, arrive, hinq, List.nil_append]
    rw [← harrive] at htake
    exact htake
  have hlength : (((x.deliver g).pair.agent.net (.consumer g.c)).inq).length =
      (asks.flatMap (Ask.records g.lzo)).length := by
    rw [harrived.conn]
    exact List.length_map _
  rw [hlength] at hturns
  obtain hleft | ⟨K', sent, hworked, hattends⟩ := harrived.turns hl hfuel le_rfl hturns
  · exact absurd hw hleft
  · refine ⟨K', sent, hworked, ?_, ?_⟩
    · have hout : (w.agent.net (.consumer g.c)).sent = [] ++ sent := by rw [hattends.conn]
      have hending : ending w.agent g.c = [] := by
        rw [ending, hw]
        rfl
      show (x.deliver g).client.withInq () (((x.deliver g).client ()).inq ++
        Net.incoming (w.agent.net (.consumer g.c)).sent ++ ending w.agent g.c) = _
      rw [hout, hending, hdelivered, Net.wire_apply, List.append_nil, List.nil_append,
        List.nil_append, Net.wire_withInq]
    · exact hattends.cleared

theorem attend_open (h : x.attend g = .done y ()) (hopen : y.Open g) : x.Open g := by
  obtain ⟨z, _, hwork, hy⟩ := Outcome.bind_eq_done h
  obtain ⟨rfl, -⟩ := Outcome.done.inj hy
  obtain ⟨w, hturns, rfl⟩ := Outcome.map_eq_done hwork
  by_contra hclosed
  have hleft : (x.deliver g).pair.agent.phase (.consumer g.c) ≠ .serving := hclosed
  rw [turns_left hleft] at hturns
  obtain ⟨rfl, -⟩ := Outcome.done.inj hturns
  exact hclosed hopen

theorem call_open {p : NetProg Unit α} {a : α} (h : call g p x = .done y a)
    (hopen : y.Open g) : x.Open g := by
  by_contra hclosed
  refine Prog.All.run_keeps (I := fun x : Trio Cl => ¬ x.Open g) ?_
    (Prog.all_of_forall (fun _ => trivial) p) h hclosed hopen
  intro o x₁ x₂ r _ hexec hx₁
  obtain hclient | ⟨x₃, hattend, hclient⟩ := attended_done hexec
  · obtain ⟨n, -, rfl⟩ := Outcome.map_eq_done hclient
    exact hx₁
  · obtain ⟨n, -, rfl⟩ := Outcome.map_eq_done hclient
    exact fun hopen' => hx₁ (attend_open hattend hopen')

def Ask.Silent : Ask → Prop
  | .memput .. => True
  | .fetch _ n _ => n = 0
  | _ => False

def Ask.after (K : Set Place) : Ask → Set Place
  | .fetch src _ hint => K \ {placeOf (src, hint)}
  | _ => K

theorem Ask.Silent.effect {lzo : Lzo} {a : Ask} {sent : List Sent} (ha : a.Silent)
    (h : a.Effect lzo K sent K') : sent = [] ∧ K' = a.after K := by
  cases a with
  | allocate nmemb size data hint => exact ha.elim
  | execute func argv hint => exact ha.elim
  | memput dst size data hint hdata => exact h
  | fetch src n hint =>
    obtain ⟨⟨-, hnone⟩, hK⟩ := h
    refine ⟨hnone ?_, hK⟩
    rw [show n = 0 from ha]
    decide

theorem Worked.silent {lzo : Lzo} {asks rest : List Ask} {sent : List Sent}
    (h : Worked lzo K (asks ++ rest) sent K') (ha : ∀ a ∈ asks, a.Silent) :
    Worked lzo (asks.foldl Ask.after K) rest sent K' := by
  induction asks generalizing K sent with
  | nil => exact h
  | cons a asks ih =>
    rw [List.cons_append] at h
    cases h with
    | cons heffect hl =>
      obtain ⟨rfl, rfl⟩ := (ha a List.mem_cons_self).effect heffect
      exact ih hl fun b hb => ha b (List.mem_cons_of_mem a hb)

variable (g) in
/-- Between two calls of `consumer.c`: what the consumer has sent last needs no answer, and once it
has been worked off, the consumer's handles are at the places `K`. -/
structure Between (K : Set Place) (x : Trio Cl) : Prop where
  serving : x.Open g
  asked : ∃ (asks : List Ask) (K₀ : Set Place), (∀ a ∈ asks, a.Silent) ∧
    x.client = .wire [] (asks.flatMap (Ask.records g.lzo)) ∧
    Attends g.toSetting g.c K₀ [] [] x.pair ∧ asks.foldl Ask.after K₀ = K

def Trio.adding (x : Trio Cl) (rs : List Sent) : Trio Cl :=
  { x with client := x.client.push () rs }

theorem Between.adding (h : Between g K x) {a : Ask} (ha : a.Silent) :
    Between g (a.after K) (x.adding (a.records g.lzo)) := by
  obtain ⟨asks, K₀, hsilent, hclient, hattends, rfl⟩ := h.asked
  refine ⟨h.serving, asks ++ [a], K₀, ?_, ?_, hattends, ?_⟩
  · intro b hb
    obtain hb | hb := List.mem_append.mp hb
    · exact hsilent b hb
    · rw [List.mem_singleton.mp hb]
      exact ha
  · rw [Trio.adding, hclient, Net.wire_push, List.flatMap_append, List.flatMap_singleton]
  · rw [List.foldl_append]
    rfl

theorem Between.answered (hl : Consumer.Compresses g.lzo) (hfuel : 2 ^ 72 ≤ g.fuel)
    (h : Between g K x) {a : Ask} (hrun : (x.adding (a.records g.lzo)).attend g = .done y ())
    (hopen : y.Open g) :
    ∃ K' sent, a.Effect g.lzo K sent K' ∧ y.client = .wire (Net.incoming sent) [] ∧
      Attends g.toSetting g.c K' [] [] y.pair := by
  obtain ⟨asks, K₀, hsilent, hclient, hattends, rfl⟩ := h.asked
  have hadding : (x.adding (a.records g.lzo)).client =
      .wire [] ((asks ++ [a]).flatMap (Ask.records g.lzo)) := by
    rw [Trio.adding, hclient, Net.wire_push, List.flatMap_append, List.flatMap_singleton]
  obtain ⟨K', sent, hworked, hy, hpair⟩ :=
    Attends.attend hl hfuel hadding hattends hrun hopen
  have hlast := hworked.silent hsilent
  cases hlast with
  | cons heffect hnil =>
    cases hnil with
    | nil =>
      rw [List.append_nil] at hy
      exact ⟨K', _, heffect, hy, hpair⟩

theorem Attends.between (h : Attends g.toSetting g.c K [] [] x.pair)
    (hclient : x.client = .wire [] []) (hopen : x.Open g) : Between g K x :=
  ⟨hopen, [], K, fun _ ha => absurd ha List.not_mem_nil, hclient, h, rfl⟩

theorem Between.inq (h : Between g K x) (rs : List Sent) : ((x.adding rs).client ()).inq = [] := by
  obtain ⟨asks, K₀, -, hclient, -⟩ := h.asked
  rw [Trio.adding, hclient, Net.wire_push]
  rfl

theorem Between.sendFails (h : Between g K x) : (x.client ()).sendFails = [] := by
  obtain ⟨asks, K₀, -, hclient, -⟩ := h.asked
  rw [hclient]
  rfl

theorem Between.call_sendRequest (h : Between g K x) (type : MessageType) (msg : Bytes) :
    call g (sendRequest () type msg) x = .done (x.adding [.msg type msg]) true := by
  apply call_done
  rw [sendRequest, Net.run_bind, Net.run_claraSendmsg h.sendFails, Outcome.bind_done]
  rfl

/-- The first message of an answer, and what the consumer does after it. -/
theorem Between.call_recvmsg (hl : Consumer.Compresses g.lzo) (hfuel : 2 ^ 72 ≤ g.fuel)
    (h : Between g K x) (ask : Ask) {len : ℕ} {f : Received → NetProg Unit α} {a : α}
    (hlen : ∀ sent K', ask.Effect g.lzo K sent K' → ∃ type msg rest,
      sent = .msg type msg :: rest ∧ msg.length ≤ len)
    (hrun : call g (claraRecvmsg () len >>= f) (x.adding (ask.records g.lzo)) = .done y a)
    (hopen : y.Open g) :
    ∃ K' type msg rest pair, ask.Effect g.lzo K (.msg type msg :: rest) K' ∧
      Attends g.toSetting g.c K' [] [] pair ∧
      call g (f (.message type msg)) ⟨.wire (Net.incoming rest) [], pair⟩ = .done y a := by
  rw [call_waiting (h.inq _)] at hrun
  obtain ⟨z, _, hattend, hrest⟩ := Outcome.bind_eq_done hrun
  obtain ⟨v, r, hrecv, hlast⟩ := Outcome.bind_eq_done hrest
  obtain ⟨n, hn, rfl⟩ := Outcome.map_eq_done hrecv
  have hz : z.Open g := call_open (x := { z with client := n }) hlast hopen
  obtain ⟨K', sent, heffect, hclient, hpair⟩ := h.answered hl hfuel hattend hz
  obtain ⟨type, msg, rest, rfl, hmsg⟩ := hlen sent K' heffect
  have hinq : ((.wire (Net.incoming (.msg type msg :: rest)) [] : Net Unit) ()).inq =
      .record (Sent.msg type msg).record :: Net.incoming rest := rfl
  rw [hclient, Net.run_claraRecvmsg hinq hmsg, Net.wire_withInq] at hn
  obtain ⟨rfl, rfl⟩ := Outcome.done.inj hn
  exact ⟨K', type, msg, rest, z.pair, heffect, hpair, hlast⟩

theorem Between.call_recvWord (hl : Consumer.Compresses g.lzo) (hfuel : 2 ^ 72 ≤ g.fuel)
    (h : Between g K x) (ask : Ask) {type : MessageType} {Q : UInt64 → Set Place → Prop}
    (hask : ∀ sent K', ask.Effect g.lzo K sent K' →
      ∃ w, sent = [.msg type (Bytes.word w)] ∧ Q w K') {r : Option UInt64}
    (hrun : call g (recvWord ()) (x.adding (ask.records g.lzo)) = .done y r) (hopen : y.Open g) :
    ∃ w K', r = some w ∧ Q w K' ∧ Between g K' y := by
  have hlen : ∀ sent K', ask.Effect g.lzo K sent K' → ∃ type msg rest,
      sent = .msg type msg :: rest ∧ msg.length ≤ 8 := by
    intro sent K' heffect
    obtain ⟨w, rfl, -⟩ := hask sent K' heffect
    exact ⟨_, _, _, rfl, by rw [Bytes.length_word]⟩
  obtain ⟨K', type', msg, rest, pair, heffect, hpair, hlast⟩ :=
    h.call_recvmsg hl hfuel ask hlen hrun hopen
  obtain ⟨w, hsent, hq⟩ := hask _ K' heffect
  obtain ⟨hmsg, rfl⟩ := List.cons.inj hsent
  obtain ⟨rfl, rfl⟩ := Sent.msg.inj hmsg
  simp only [Received.stored, Bytes.length_word, if_true, Bytes.wordAt_word] at hlast
  obtain ⟨rfl, rfl⟩ := Outcome.done.inj hlast
  exact ⟨w, K', rfl, hq, Attends.between hpair rfl hopen⟩

theorem Between.consumerAllocate (hl : Consumer.Compresses g.lzo) (hfuel : 2 ^ 72 ≤ g.fuel)
    (h : Between g K x) {nmemb size : UInt64} {data : Option Bytes} {hint : GlobalId}
    {handle : Handle}
    (hrun : call g (Consumer.consumerAllocate nmemb size data hint) x = .done y handle)
    (hopen : y.Open g) : ∃ K', Added K (handle, hint) K' ∧ Between g K' y := by
  rw [Consumer.consumerAllocate, call_bind, claraSendAllocateRequest, h.call_sendRequest,
    Outcome.bind_done, if_pos rfl, call_bind] at hrun
  obtain ⟨z, r, hrecv, hlast⟩ := Outcome.bind_eq_done hrun
  have hanswer : ∀ sent K', (Ask.allocate nmemb size (data.getD []) hint).Effect g.lzo K sent K' →
      ∃ handle, sent = [.msg Msg.allocateResponse (Bytes.word handle)] ∧
        Added K (handle, hint) K' := fun _ _ heffect => heffect
  obtain ⟨w, K', rfl, hadded, hz⟩ := h.call_recvWord hl hfuel
    (.allocate nmemb size (data.getD []) hint) hanswer hrecv (call_open hlast hopen)
  obtain ⟨rfl, rfl⟩ := Outcome.done.inj hlast
  exact ⟨K', hadded, hz⟩

theorem Between.consumerExecute (hl : Consumer.Compresses g.lzo) (hfuel : 2 ^ 72 ≤ g.fuel)
    (h : Between g K x) {d : Arg} {retbuflen : ℕ} {hint : GlobalId} {argv : List Arg}
    {r : Option Bytes}
    (hrun : call g (Consumer.consumerExecute d retbuflen hint argv) x = .done y r)
    (hopen : y.Open g) : Between g K y := by
  rw [Consumer.consumerExecute, call_bind, claraSendExecuteRequest, h.call_sendRequest,
    Outcome.bind_done, if_pos rfl, call_bind] at hrun
  obtain ⟨z, r', hrecv, hlast⟩ := Outcome.bind_eq_done hrun
  have hanswer : ∀ sent K', (Ask.execute d argv hint).Effect g.lzo K sent K' →
      ∃ w, sent = [.msg Msg.executeResponse (Bytes.word w)] ∧ K' = K :=
    fun _ _ heffect => heffect
  obtain ⟨w, K', rfl, rfl, hz⟩ := h.call_recvWord hl hfuel (.execute d argv hint) hanswer hrecv
    (call_open hlast hopen)
  obtain ⟨rfl, -⟩ := Outcome.done.inj hlast
  exact hz

theorem Between.consumerMemcpy (hl : Consumer.Compresses g.lzo) (h : Between g K x) {dst : Handle}
    {src : Option Bytes} {size : UInt64} {hint : GlobalId} {b : Bool}
    (hrun : call g (Consumer.consumerMemcpy g.lzo dst src size hint) x = .done y b) :
    Between g K y := by
  rw [Consumer.consumerMemcpy, call_bind, h.call_sendRequest, Outcome.bind_done,
    if_pos rfl] at hrun
  by_cases hsize : (src.getD []).length = size.toNat
  · have hf : ((x.adding [.msg Msg.memputStream
        (MemputStreamParams.bytes ⟨dst, 0, size, hint⟩)]).client ()).sendFails = [] := by
      rw [Trio.adding, Net.push_sendFails, h.sendFails]
    rw [if_pos hsize, call_bind, call_done (run_streamSend (zero_lt_blksz size)
      (fits_streamOptions hl.toCorrect (hl.buffered size) _) hf), Outcome.bind_done] at hrun
    obtain ⟨rfl, -⟩ := Outcome.done.inj hrun
    have hadding := h.adding (a := .memput dst size (src.getD []) hint hsize) trivial
    rw [Trio.adding, Ask.records, ← List.singleton_append, ← Net.push_push] at hadding
    exact hadding
  · rw [if_neg hsize] at hrun
    cases hrun

theorem call_streamRecv (hl : Consumer.Compresses g.lzo) {fuel : ℕ} (hfuel : 2 ^ 72 ≤ fuel)
    {n : UInt64} {data : Bytes} (hdata : data.length < 2 ^ 64) {pair : Pair Cl} {r : ℕ × Bytes}
    (hrun : call g (streamRecv g.lzo () fuel n.toNat)
      ⟨.wire (Net.incoming (streamRecords g.lzo (Consumer.streamOptions n) data)) [], pair⟩ =
        .done y r) : y = ⟨.wire [] [], pair⟩ := by
  have hsize : (Consumer.streamOptions n).blksz.toNat +
      (Consumer.streamOptions n).blksz.toNat / 16 + 67 < 2 ^ 64 := by
    rw [Consumer.blksz_streamOptions]
    decide
  have hbound := fuel_streamRecords hl.toCorrect (zero_lt_blksz n) data
  obtain ⟨r', hdone⟩ | ⟨f, hfault⟩ := Provider.run_streamRecvInto_whole (q := []) hl.toCorrect
    (zero_lt_blksz n) hsize (by omega : (streamRecords g.lzo _ data).length ≤ fuel) n.toNat n.toNat
  · rw [List.append_nil] at hdone
    rw [streamRecv, call_done hdone] at hrun
    exact (Outcome.done.inj hrun).1.symm
  · rw [List.append_nil] at hfault
    rw [streamRecv, call_fault hfault] at hrun
    cases hrun

theorem Between.consumerFetch (hl : Consumer.Compresses g.lzo) (hg : 2 ^ 72 ≤ g.fuel) {fuel : ℕ}
    (hfuel : 2 ^ 72 ≤ fuel) (h : Between g K x) {src : Handle} (hsrc : src ≠ invalidHandle)
    {n : UInt64} {hint : GlobalId} {r : Bool × Bytes}
    (hrun : call g (Consumer.consumerFetch g.lzo fuel src n hint) x = .done y r)
    (hopen : y.Open g) : Between g (K \ {placeOf (src, hint)}) y := by
  rw [Consumer.consumerFetch, if_neg hsrc, call_bind, claraSendFetchRequest, if_neg hsrc,
    h.call_sendRequest, Outcome.bind_done, if_pos rfl] at hrun
  by_cases hn : n = 0
  · rw [if_pos hn] at hrun
    obtain ⟨rfl, -⟩ := Outcome.done.inj hrun
    exact h.adding (a := .fetch src n hint) hn
  · have hpos : 0 < n := by
      rw [UInt64.pos_iff_ne_zero]
      exact hn
    have hlen : ∀ sent K', (Ask.fetch src n hint).Effect g.lzo K sent K' → ∃ type msg rest,
        sent = .msg type msg :: rest ∧ msg.length ≤ 8 := by
      rintro sent K' ⟨⟨hsome, -⟩, -⟩
      obtain ⟨b, -, rfl⟩ := hsome hpos
      exact ⟨_, _, _, rfl, by rw [Bytes.length_word]⟩
    rw [if_neg hn, claraRecvFetchResponse] at hrun
    obtain ⟨K', type, msg, rest, pair, ⟨⟨hsome, -⟩, rfl⟩, hpair, hlast⟩ :=
      h.call_recvmsg hl hg (.fetch src n hint) hlen hrun hopen
    obtain ⟨b, hb, hsent⟩ := hsome hpos
    obtain ⟨hmsg, rfl⟩ := List.cons.inj hsent
    obtain ⟨rfl, rfl⟩ := Sent.msg.inj hmsg
    simp only [Received.stored, Bytes.length_word] at hlast
    have hrest : call g (streamRecv g.lzo () fuel n.toNat >>= fun r =>
        pure (r.1 == n.toNat, r.2)) ⟨.wire (Net.incoming (streamRecords g.lzo
          (Consumer.streamOptions n) b)) [], pair⟩ = .done y r := hlast
    rw [call_bind] at hrest
    obtain ⟨z, r', hrecv, hpure⟩ := Outcome.bind_eq_done hrest
    obtain rfl := call_streamRecv hl hfuel hb hrecv
    obtain ⟨rfl, -⟩ := Outcome.done.inj hpure
    exact Attends.between hpair rfl hopen

/-- What a call lends and takes back is stored and removed. -/
theorem Between.call (hl : Consumer.Compresses g.lzo) (hg : 2 ^ 72 ≤ g.fuel) {fuel : ℕ}
    (hfuel : 2 ^ 72 ≤ fuel) (h : Between g K x) (c : Consumer.Call) {r : c.Res}
    (hrun : Joint.call g (c.program g.lzo fuel) x = .done y r) (hopen : y.Open g) :
    ∃ K', Consumer.handles.Stores placeOf ⟨c, r⟩ K K' ∧ Between g K' y := by
  cases c with
  | allocate nmemb size data hint =>
    obtain ⟨K', hadded, hy⟩ := h.consumerAllocate hl hg hrun hopen
    refine ⟨K', ?_, hy⟩
    obtain ⟨rfl, rfl⟩ | ⟨hvalid, hnew, rfl⟩ := hadded
    · constructor <;> simp [Consumer.handles]
    · have howed : Consumer.owed r hint = {(r, hint)} := if_neg hvalid
      constructor
      · simp [Consumer.handles, howed]
      · simp [Consumer.handles, howed, hnew]
      · simp [Consumer.handles, howed, or_comm]
  | execute d retbuflen hint argv =>
    refine ⟨K, ?_, h.consumerExecute hl hg hrun hopen⟩
    constructor <;> simp [Consumer.handles]
  | memcpy dst src size hint =>
    refine ⟨K, ?_, h.consumerMemcpy hl hrun⟩
    constructor <;> simp [Consumer.handles]
  | fetch src dst n hint =>
    by_cases hsrc : src = invalidHandle
    · have hnothing : Joint.call g (pure (false, [])) x = .done y r := by
        rw [Consumer.Call.program, Consumer.consumerFetch, if_pos hsrc] at hrun
        exact hrun
      obtain ⟨rfl, -⟩ := Outcome.done.inj hnothing
      refine ⟨K, ?_, h⟩
      rw [hsrc]
      constructor <;> simp [Consumer.handles]
    · have howed : Consumer.owed src hint = {(src, hint)} := if_neg hsrc
      refine ⟨_, ?_, h.consumerFetch hl hg hfuel hsrc hrun hopen⟩
      constructor <;> simp [Consumer.handles, howed]
  | fail f => exact r.elim

variable (g) in
/-- The calls of `consumer.c` that lead from one state to another, with their results. -/
inductive Calls (fuel : ℕ) :
    Trio Cl → List (Exchange Consumer.Call Consumer.Call.Res) → Trio Cl → Prop
  | nil (x : Trio Cl) : Calls fuel x [] x
  | cons {c : Consumer.Call} {r : c.Res} {x y z : Trio Cl}
    {l : List (Exchange Consumer.Call Consumer.Call.Res)}
    (hc : Joint.call g (c.program g.lzo fuel) x = .done y r) (hl : Calls fuel y l z) :
    Calls fuel x (⟨c, r⟩ :: l) z

/-- A function that returns has made calls, and their results are what it has gone by. -/
theorem calls_of_stub {fuel : ℕ} {p : Consumer.CProg α} {a : α}
    (h : stub g fuel p x = .done y a) : ∃ l, Calls g fuel x l y ∧ Trace p l a := by
  induction p generalizing x with
  | ret b =>
    obtain ⟨rfl, rfl⟩ := Outcome.done.inj h
    exact ⟨[], .nil x, .ret b⟩
  | op c k ih =>
    rw [stub, Prog.run_op] at h
    obtain ⟨z, r, hcall, hrest⟩ := Outcome.bind_eq_done h
    obtain ⟨l, hcalls, htrace⟩ := ih r hrest
    exact ⟨_, .cons hcall hcalls, .op r htrace⟩

theorem Calls.open {fuel : ℕ} {l : List (Exchange Consumer.Call Consumer.Call.Res)}
    (h : Calls g fuel x l y) (hopen : y.Open g) : x.Open g := by
  induction h with
  | nil => exact hopen
  | cons hc hl ih => exact call_open hc (ih hopen)

theorem Between.calls (hl : Consumer.Compresses g.lzo) (hg : 2 ^ 72 ≤ g.fuel) {fuel : ℕ}
    (hfuel : 2 ^ 72 ≤ fuel) {l : List (Exchange Consumer.Call Consumer.Call.Res)}
    (hcalls : Calls g fuel x l y) (h : Between g K x) (hopen : y.Open g) :
    ∃ K', Consumer.handles.StoresAll placeOf K l K' ∧ Between g K' y := by
  induction hcalls generalizing K with
  | nil => exact ⟨K, .nil K, h⟩
  | cons hc hrest ih =>
    obtain ⟨K₁, hstores, hz⟩ := h.call hl hg hfuel _ hc (hrest.open hopen)
    obtain ⟨K', hall, hy⟩ := ih hz hopen
    exact ⟨K', .cons hstores hall, hy⟩

theorem Between.stub (hl : Consumer.Compresses g.lzo) (hg : 2 ^ 72 ≤ g.fuel) {fuel : ℕ}
    (hfuel : 2 ^ 72 ≤ fuel) (h : Between g K x) {p : Consumer.CProg α}
    (hp : Consumer.Conserves p) {a : α} (hrun : stub g fuel p x = .done y a) :
    ∃ l, Calls g fuel x l y ∧ Consumer.handles.Owes 0 l 0 ∧ (y.Open g → Between g K y) := by
  obtain ⟨l, hcalls, htrace⟩ := calls_of_stub hrun
  have howes := hp l a htrace
  refine ⟨l, hcalls, howes, fun hopen => ?_⟩
  obtain ⟨K', hall, hy⟩ := h.calls hl hg hfuel hcalls hopen
  rwa [howes.restores hall] at hy

variable (g) in
/-- The handles of the consumer in the agent, and those at the provider. -/
def Trio.stored (x : Trio Cl) : Set Place :=
  {p | p.2 ∈ if p.1 then x.pair.agent.handles g.c else x.pair.provider.handles}

variable (g) in
/-- When everything that is on its way has been worked off, the handles are at the places `K`. -/
def Trio.Keeps (x : Trio Cl) (K : Set Place) : Prop :=
  ∀ z, x.settle g = .done z () → z.Open g → z.stored g = K

theorem stored_eq (hown : x.pair.agent.handles g.c = stock K true)
    (hprovider : x.pair.provider.handles = stock K false) : x.stored g = K := by
  ext ⟨b, handle⟩
  cases b with
  | true =>
    show handle ∈ x.pair.agent.handles g.c ↔ _
    rw [hown]
    rfl
  | false =>
    show handle ∈ x.pair.provider.handles ↔ _
    rw [hprovider]
    rfl

theorem Between.keeps (hl : Consumer.Compresses g.lzo) (hfuel : 2 ^ 72 ≤ g.fuel) (h : Between g K x) :
    x.Keeps g K := by
  intro z hz hopen
  obtain ⟨asks, K₀, hsilent, hclient, hattends, rfl⟩ := h.asked
  obtain ⟨y, _, hattend, hrest⟩ := Outcome.bind_eq_done hz
  obtain ⟨w, hprovider, rfl⟩ := Outcome.map_eq_done hrest
  obtain ⟨q, hmain, rfl⟩ := attend_done hprovider
  have hy : y.Open g := hopen
  obtain ⟨K', sent, hworked, -, hpair⟩ := hattends.attend hl hfuel hclient hattend hy
  have hend : Worked g.lzo K₀ (asks ++ []) sent K' := by
    rw [List.append_nil]
    exact hworked
  cases hend.silent hsilent with
  | nil => exact stored_eq hpair.own (hpair.waits.attend_nil hprovider).handles

theorem Idle.between (h : Idle g x) (hq : Quiet g.toSetting x.pair)
    (hinq : ∀ p, (x.pair.agent.net (.provider p)).inq = [])
    (halone : ∀ p, p ≠ g.p → x.pair.agent.heap .provider p = none) :
    Between g (x.stored g) x := by
  refine Attends.between ⟨h.conn, rfl, ⟨⟨[], id, Provider.silent_nil, rfl, hq.agent⟩, hinq,
    hq.provider, halone⟩⟩ h.client h.phase

/-- Each valid handle that `consumer_allocate` returns during a call goes to one `consumer_fetch` or
`consumer_free` with its hint. The consumer has the same handles in the agent and at the provider as
before the call. -/
theorem apiCall_conserves (hl : Consumer.Compresses g.lzo) (hg : 2 ^ 72 ≤ g.fuel) {fuel : ℕ}
    (hfuel : 2 ^ 72 ≤ fuel) (h : Between g K x) (f : Consumer.ApiCall) {r : Consumer.Reply}
    (hrun : Joint.stub g fuel f.program x = .done y r) :
    ∃ l, Calls g fuel x l y ∧ Consumer.handles.Owes 0 l 0 ∧
      Consumer.granted l = Consumer.passedOn l ∧
      (y.Open g → Between g K y ∧ x.Keeps g K ∧ y.Keeps g K) := by
  obtain ⟨l, hcalls, howes, hbetween⟩ := h.stub hl hg hfuel f.conserves hrun
  have hbalance := howes.balance
  rw [zero_add, add_zero] at hbalance
  refine ⟨l, hcalls, howes, hbalance, ?_⟩
  intro hopen
  have hy := hbetween hopen
  exact ⟨hy, h.keeps hl hg, hy.keeps hl hg⟩

end

/-- The small session, in which every loop may take as long as it needs. -/
def Session.patient : Session Unit := { Session.small with fuel := 2 ^ 72 }

private theorem between_small :
    Between Session.patient (Trio.small.stored Session.patient) Trio.small := by
  apply Idle.between ⟨rfl, rfl, rfl⟩ ⟨rfl, rfl⟩
  · intro p
    rfl
  · intro p hp
    exact if_neg hp

private theorem compresses_literal : Consumer.Compresses literalLzo where
  toCorrect := literalLzo_correct
  buffered n _ := by
    rw [Consumer.encBlksz_streamOptions]
    rfl

/-- Three bytes of the name of a platform, for which the provider has had two allocations. -/
theorem apiCall_conserves_clGetPlatformInfo : ∃ y z r l,
    stub Session.patient (2 ^ 72) (Consumer.ApiCall.clGetPlatformInfo 9 0x902 3 true true).program
      Trio.small = .done y r ∧
    Calls Session.patient (2 ^ 72) Trio.small l y ∧ Consumer.granted l = Consumer.passedOn l ∧
    y.settle Session.patient = .done z () ∧
    z.stored Session.patient = Trio.small.stored Session.patient := by
  have hends : (stub Session.patient (2 ^ 72)
      (Consumer.ApiCall.clGetPlatformInfo 9 0x902 3 true true).program Trio.small).Ends
        fun y _ => y.pair.agent.phase (.consumer 3) = .serving ∧
          (y.settle Session.patient).Ends
            fun z _ => z.pair.agent.phase (.consumer 3) = .serving := by
    decide +kernel
  obtain ⟨y, r, hrun, hopen, hsettle⟩ := Outcome.ends_iff.mp hends
  obtain ⟨z, _, hz, hzopen⟩ := Outcome.ends_iff.mp hsettle
  obtain ⟨l, hcalls, -, hbalance, hkeeps⟩ :=
    apiCall_conserves compresses_literal le_rfl le_rfl between_small _ hrun
  exact ⟨y, z, r, l, hrun, hcalls, hbalance, hz, (hkeeps hopen).2.2 z hz hzopen⟩

end Clara.Joint
