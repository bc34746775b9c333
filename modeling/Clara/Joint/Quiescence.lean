import Clara.Joint.Conversation

/-! Conversations one after the other. The agent does not wait where nothing answers, so what it
sent last may still be on its way when its function returns; the provider's next turn takes it
off the connection, and nothing comes back. -/
namespace Clara.Joint

open Conc

variable {Cl : Type}

/-- The conversations of the agent with a provider. -/
inductive Conversation
  | allocate (params : AllocateRequest) (extra : Bytes)
  | execute (params : ExecuteRequest)
  | mapping (real : Arg) (virt : GlobalId)
  | mapatptr (n : ℕ) (params : ExecuteRequest) (consumer : Addr)
  /-- The consumer's stream brings `data`, cut into blocks as `stp` says. -/
  | memput (consumer : Addr) (params : MemputStreamParams) (stp : StreamOptions) (data : Bytes)
  | fetch (consumer : Addr) (params : FetchRequest)
  | ping (sec : UInt64)

namespace Conversation

/-- The function of the agent that holds the conversation. -/
def program (g : Setting Cl) : Conversation → Agent.AProg Unit
  | .allocate params extra => do
    let _ ← Agent.agentRemoteAllocate g.p params extra
  | .execute params => do
    let _ ← Agent.agentRemoteExecute (some g.p) params
  | .mapping real virt => do
    let _ ← Agent.agentRemoteMap g.p real virt
  | .mapatptr n params consumer => do
    let _ ← Agent.agentGenericMapEvent n params (some g.p) consumer
  | .memput consumer params _ _ => Agent.agentForwardMemput g.fuel consumer g.p params
  | .fetch consumer params => Agent.agentForwardFetch g.fuel consumer g.p params
  | .ping sec => Agent.handlePing g.p sec

def requests (g : Setting Cl) (y : Pair Cl) : Conversation → List Sent
  | .allocate params extra => [.msg Msg.allocateRequest (params.bytes ++ extra)]
  | .execute params => [.msg Msg.executeRequest params.bytes]
  | .mapping real virt => [.msg Msg.mapping (Agent.mappingParams virt real)]
  | .mapatptr n params _ =>
    if params.argv n = invalidId then []
    else [.msg Msg.mapatptrRequest (Bytes.words [y.agent.nextId, params.argv n])]
  | .memput _ params stp data =>
    .msg Msg.memputStream params.bytes :: streamRecords g.lzo stp data
  | .fetch _ params => [.msg Msg.fetchRequest params.bytes]
  | .ping sec => [.msg Msg.ping (Bytes.words [sec])]

/-- What the provider answers, from its state when the request arrives. -/
def answers (g : Setting Cl) (y : Pair Cl) : Conversation → List Sent
  | .allocate params _ => [.msg Msg.allocateResponse (Bytes.word params.handle)]
  | .execute params =>
    match Provider.claraExecute g.lib 0 (y.provider.took params.bytes) with
    | .done _ ret => [.msg Msg.executeResponse (Bytes.word ret)]
    | _ => []
  | .mapping _ _ | .memput _ _ _ _ => []
  | .mapatptr n params _ =>
    if params.argv n = invalidId then []
    else [.msg Msg.mapatptrResponse
      (Bytes.word ((y.provider.contents (params.argv n)).wordAt 0))]
  | .fetch _ params =>
    Provider.fetchRecords g.lzo params.streamOpts (y.provider.contents params.handle) params.size
  | .ping sec => [.msg Msg.pong (Bytes.word sec)]

def Enough (g : Setting Cl) (stp : StreamOptions) (data : Bytes) : Prop :=
  (streamRecords g.lzo stp data).length + dataBytes (streamRecords g.lzo stp data) ≤ g.fuel ∧
    2 * data.length + 68 ≤ g.fuel

/-- Ids and handles are known where they are used and new where they are given, payloads fit the
buffers, and nothing fails. -/
def Ready (g : Setting Cl) (t : Agent.Tid) (y : Pair Cl) : Conversation → Prop
  | .allocate params extra =>
    params.handle ∉ y.provider.allocations ∧ params.handle ∉ y.provider.idMap ∧
      params.nmemb.toNat * params.size.toNat < 2 ^ 64 ∧
      y.provider.addresses y.provider.draws ≠ 0 ∧ 32 + extra.length ≤ Provider.recvbufsz ∧
      (extra = [] ∨ 32 + params.nmemb.toNat * params.size.toNat ≤ Provider.recvbufsz)
  | .execute params =>
    params.bytes.length ≤ Provider.recvbufsz ∧
      ∃ q ret, Provider.claraExecute g.lib 0 (y.provider.took params.bytes) = .done q ret
  | .mapping _ virt => virt ∉ y.provider.idMap
  | .mapatptr n params consumer =>
    params.argv n ≠ invalidId → Creates t consumer y.agent ∧ Vacant consumer y.agent ∧
      y.agent.nextId ∉ y.provider.idMap ∧ ∃ p b,
        y.provider.idMap.lookup (params.argv n) = some p ∧ y.provider.mem p = some b ∧
          8 ≤ b.length ∧ b.wordAt 0 ≠ 0
  | .memput consumer params stp data =>
    1 ≤ stp.blksz ∧ stp.Fits g.lzo data ∧ params.length.toNat = data.length ∧
      (∃ real b, y.provider.idMap.lookup params.dst = some real ∧
        y.provider.mem real = some b ∧ params.offset.toNat + data.length ≤ b.length) ∧
      (∃ later, (y.agent.net (.consumer consumer)).inq =
        Net.incoming (streamRecords g.lzo stp data) ++ later) ∧ Enough g stp data
  | .fetch consumer params =>
    1 ≤ params.streamOpts.blksz ∧ (y.agent.net (.consumer consumer)).sendFails = [] ∧
      ∃ a b, y.provider.Holds params.handle a b ∧ params.streamOpts.Fits g.lzo b ∧
        Enough g params.streamOpts b
  | .ping _ => True

end Conversation

variable {g : Setting Cl} {t : Agent.Tid} {x y x₁ y₁ : Pair Cl} {provider : Agent.Provider}
  {c : Conversation}

structure Over (g : Setting Cl) (t : Agent.Tid) (provider : Agent.Provider) (c : Conversation)
    (x y x₁ y₁ : Pair Cl) : Prop where
  run : run g t (c.program g) x = .done x₁ ()
  settles : Settles g x₁ y₁
  sound : y₁.provider.Sound
  attached : Attached g provider y₁
  log : y₁.log = y.log ++ (c.requests g y).map .toProvider ++ (c.answers g y).map .toAgent
  answered : c.answers g y ≠ [] → x₁ = y₁

private theorem over_served {q : Provider.State Cl} {f : Agent.State → Agent.State}
    (hrun : run g t (c.program g) x =
      .done ((y.served q (c.requests g y) (c.answers g y)).onAgent f) ())
    (hy : Quiet g y) (hf : Beside g f) (hq : q.Sound)
    (ha : Attached g provider (y.onAgent f)) :
    Over g t provider c x y ((y.served q (c.requests g y) (c.answers g y)).onAgent f)
      ((y.served q (c.requests g y) (c.answers g y)).onAgent f) where
  run := hrun
  settles := ((hy.served _ _ _).settles).onAgent hf
  sound := hq.withNet _
  attached := ha.of_heap rfl
  log := rfl
  answered _ := rfl

private theorem over_sending {q : Provider.State Cl} {f : Agent.State → Agent.State}
    (h : Settles g x y) (hrun : run g t (c.program g) x =
      .done ((x.onAgent f).sending g (c.requests g y)) ())
    (hnone : c.answers g y = []) (hf : Beside g f) (hw : g.Works (c.requests g y) [] y.provider q)
    (hq : q.Sound) (ha : Attached g provider (y.onAgent f)) :
    Over g t provider c x y ((x.onAgent f).sending g (c.requests g y))
      ((y.onAgent f).served q (c.requests g y) []) where
  run := hrun
  settles := (h.onAgent hf).sending hw
  sound := hq.withNet _
  attached := ha.of_heap rfl
  log := by rw [hnone]; rfl
  answered hne := absurd hnone hne

private theorem beside_id : Beside g id := ⟨fun _ => rfl, fun _ _ => rfl⟩

private theorem run_ignore {α : Type} {p : Agent.AProg α} {z : Pair Cl} {a : α}
    (h : Joint.run g t p x = .done z a) : Joint.run g t (do let _ ← p) x = .done z () := by
  rw [run_bind, h]
  rfl

theorem Settles.over_allocate (h : Settles g x y) (hs : y.provider.Sound)
    (ha : Attached g provider y) {params : AllocateRequest} {extra : Bytes}
    (hr : (Conversation.allocate params extra).Ready g t y) :
    ∃ x₁ y₁, Over g t provider (.allocate params extra) x y x₁ y₁ := by
  obtain ⟨hnew, hv, hsize, hptr, hm, hextra⟩ := hr
  have hw : g.Works _ _ y.provider _ := Provider.works_allocate hs hm hsize
    hextra hptr hnew hv
  exact ⟨_, _, over_served (f := id) (run_ignore (h.run_agentRemoteAllocate ha hw)) h.quiet
    beside_id ((hs.took _).allocated hnew hv _ _) ha⟩

theorem Settles.over_execute (h : Settles g x y) (hs : y.provider.Sound)
    (ha : Attached g provider y) {params : ExecuteRequest}
    (hr : (Conversation.execute params).Ready g t y) :
    ∃ x₁ y₁, Over g t provider (.execute params) x y x₁ y₁ := by
  obtain ⟨hm, q, ret, hx⟩ := hr
  have hw : g.Works _ _ y.provider _ := Provider.works_execute hm hx
  have hanswers : (Conversation.execute params).answers g y =
      [.msg Msg.executeResponse (Bytes.word ret)] := by
    rw [Conversation.answers, hx]
  have hrun : Joint.run g t ((Conversation.execute params).program g) x =
      .done ((y.served q ((Conversation.execute params).requests g y)
        ((Conversation.execute params).answers g y)).onAgent id) () := by
    rw [hanswers]
    exact run_ignore (h.run_agentRemoteExecute ha hw)
  have hq : q.Sound := (hs.took _).of_kept
    ((Provider.keeping_claraExecute g.lib 0).kept _ _ _ hx)
  exact ⟨_, _, over_served hrun h.quiet beside_id hq ha⟩

theorem Settles.over_mapping (h : Settles g x y) (hs : y.provider.Sound)
    (ha : Attached g provider y) {real : Arg} {virt : GlobalId}
    (hr : (Conversation.mapping real virt).Ready g t y) :
    ∃ x₁ y₁, Over g t provider (.mapping real virt) x y x₁ y₁ := by
  have hw : g.Works _ _ y.provider _ := Provider.works_mapping hs real hr
  exact ⟨_, _, over_sending (f := id) h (run_ignore (h.run_agentRemoteMap ha real virt)) rfl
    beside_id hw ((hs.took _).mapped hr real) ha⟩

theorem Settles.over_mapatptr (h : Settles g x y) (hs : y.provider.Sound)
    (ha : Attached g provider y) {n : ℕ} {params : ExecuteRequest} {consumer : Addr}
    (hr : (Conversation.mapatptr n params consumer).Ready g t y) :
    ∃ x₁ y₁, Over g t provider (.mapatptr n params consumer) x y x₁ y₁ := by
  by_cases hn : params.argv n = invalidId
  · have hrequests : (Conversation.mapatptr n params consumer).requests g y = [] := if_pos hn
    have hanswers : (Conversation.mapatptr n params consumer).answers g y = [] := if_pos hn
    have hrun : Joint.run g t ((Conversation.mapatptr n params consumer).program g) x =
        .done x () := by
      apply run_ignore (a := params)
      rw [Agent.agentGenericMapEvent]
      simp [hn]
    refine ⟨x, y, hrun, h, hs, ha, ?_, fun hne => absurd hanswers hne⟩
    rw [hrequests, hanswers]
    simp
  · obtain ⟨hc, hvacant, hv, p, b, hp, hb, hlen, hreal⟩ := hr hn
    have hw : g.Works _ _ y.provider _ := Provider.works_mapatptr hs hp hb
      hlen hv
    have hrequests : (Conversation.mapatptr n params consumer).requests g y =
        [.msg Msg.mapatptrRequest (Bytes.words [y.agent.nextId, params.argv n])] := if_neg hn
    have hanswers : (Conversation.mapatptr n params consumer).answers g y =
        [.msg Msg.mapatptrResponse (Bytes.word (b.wordAt 0))] := by
      rw [Conversation.answers, if_neg hn, Provider.State.contents_eq hp hb]
    have hrun := run_ignore (h.run_agentGenericMapEvent ha hc hvacant hn hreal hw)
    rw [← hrequests, ← hanswers] at hrun
    exact ⟨_, _, over_served hrun h.quiet ⟨fun _ => rfl, fun _ _ => rfl⟩
      ((hs.took _).mappedAt hv p b) (ha.created hc.fresh consumer _)⟩

theorem Settles.over_memput (hl : g.lzo.Correct) (h : Settles g x y) (hs : y.provider.Sound)
    (ha : Attached g provider y) {consumer : Addr} {params : MemputStreamParams}
    {stp : StreamOptions} {data : Bytes}
    (hr : (Conversation.memput consumer params stp data).Ready g t y) :
    ∃ x₁ y₁, Over g t provider (.memput consumer params stp data) x y x₁ y₁ := by
  obtain ⟨hblk, hfit, hlen, ⟨real, b, hreal, hb, hoff⟩, ⟨later, hq⟩, henough⟩ := hr
  have hblk : 0 < stp.blksz.toNat := UInt64.le_iff_toNat_le.mp hblk
  have hw : g.Works _ _ y.provider _ :=
    Provider.works_memput hl hblk hs hfit hreal hb hlen hoff henough.2
  exact ⟨_, _, over_sending h (h.run_agentForwardMemput ha hfit henough.1 hq) rfl
    (beside_fromConsumer consumer later) hw ((hs.took _).wrote _ _) (ha.of_heap rfl)⟩

theorem Settles.over_fetch (h : Settles g x y) (hs : y.provider.Sound)
    (ha : Attached g provider y) {consumer : Addr} {params : FetchRequest}
    (hr : (Conversation.fetch consumer params).Ready g t y) :
    ∃ x₁ y₁, Over g t provider (.fetch consumer params) x y x₁ y₁ := by
  obtain ⟨hblk, hf, a, b, hb, hfit, henough⟩ := hr
  have hblk : 0 < params.streamOpts.blksz.toNat := UInt64.le_iff_toNat_le.mp hblk
  have hw : g.Works _ _ y.provider _ := Provider.works_fetch hs hblk hfit hb
  have hcontents := Provider.State.contents_eq hb.mapping hb.block
  by_cases hsize : 0 < params.size
  · have hanswers : (Conversation.fetch consumer params).answers g y =
        .msg Msg.fetchResponse (Bytes.word (UInt64.ofNat b.length)) ::
          streamRecords g.lzo params.streamOpts b := by
      rw [Conversation.answers, hcontents, Provider.fetchRecords, if_pos hsize]
    rw [Provider.fetchRecords, if_pos hsize] at hw
    have hrun := h.run_agentForwardFetch (t := t) ha hsize hfit henough.1 hf hw
    rw [← hanswers] at hrun
    exact ⟨_, _, over_served hrun h.quiet (beside_toConsumer consumer _) ((hs.took _).freed _ a)
      (ha.of_heap rfl)⟩
  · have hanswers : (Conversation.fetch consumer params).answers g y = [] := by
      rw [Conversation.answers, Provider.fetchRecords, if_neg hsize]
    rw [Provider.fetchRecords, if_neg hsize] at hw
    exact ⟨_, _, over_sending (f := id) h (h.run_agentForwardFetch_zero ha consumer hsize) hanswers
      beside_id hw ((hs.took _).freed _ a) ha⟩

theorem Settles.over_ping (h : Settles g x y) (hs : y.provider.Sound)
    (ha : Attached g provider y) (sec : UInt64) :
    ∃ x₁ y₁, Over g t provider (.ping sec) x y x₁ y₁ := by
  have hw : g.Works _ _ y.provider _ := Provider.works_ping sec
  exact ⟨_, _, over_served (f := id) (h.run_handlePing ha hw) h.quiet beside_id (hs.took _) ha⟩

theorem Settles.over (hl : g.lzo.Correct) (h : Settles g x y) (hs : y.provider.Sound)
    (ha : Attached g provider y) (hr : c.Ready g t y) :
    ∃ x₁ y₁, Over g t provider c x y x₁ y₁ := by
  cases c with
  | allocate params extra => exact h.over_allocate hs ha hr
  | execute params => exact h.over_execute hs ha hr
  | mapping real virt => exact h.over_mapping hs ha hr
  | mapatptr n params consumer => exact h.over_mapatptr hs ha hr
  | memput consumer params stp data => exact h.over_memput hl hs ha hr
  | fetch consumer params => exact h.over_fetch hs ha hr
  | ping sec => exact h.over_ping hs ha sec

/-- Every conversation finds the provider ready for it, in the state in which everything sent
before has been worked off. -/
def AllReady (g : Setting Cl) : List (Agent.Tid × Conversation) → Pair Cl → Prop
  | [], _ => True
  | (t, c) :: cs, x => (∀ y, x.attend g = .done y () → c.Ready g t y) ∧
      ∀ x₁, Joint.run g t (c.program g) x = .done x₁ () → AllReady g cs x₁

/-- Conversations one after the other. Each returns; the provider's next turn leaves both
directions of the connection empty, and what has travelled since the conversation began is its
requests and then their answers. After a conversation with an answer that turn changes nothing. -/
inductive Conversed (g : Setting Cl) :
    List (Agent.Tid × Conversation) → Pair Cl → Pair Cl → Prop
  | nil (x : Pair Cl) : Conversed g [] x x
  | cons {t : Agent.Tid} {c : Conversation} {cs : List (Agent.Tid × Conversation)}
      {x y x₁ y₁ x' : Pair Cl} (hy : x.attend g = .done y ())
      (hrun : Joint.run g t (c.program g) x = .done x₁ ()) (hy₁ : x₁.attend g = .done y₁ ())
      (hquiet : Quiet g y₁)
      (hlog : y₁.log = y.log ++ (c.requests g y).map .toProvider ++
        (c.answers g y).map .toAgent)
      (hanswered : c.answers g y ≠ [] → x₁ = y₁) (hrest : Conversed g cs x₁ x') :
      Conversed g ((t, c) :: cs) x x'

private theorem Settles.conversed_all (hl : g.lzo.Correct) {cs : List (Agent.Tid × Conversation)}
    (h : Settles g x y) (hs : y.provider.Sound) (ha : Attached g provider y)
    (hr : AllReady g cs x) : ∃ x', Conversed g cs x x' := by
  induction cs generalizing x y with
  | nil => exact ⟨x, .nil x⟩
  | cons tc cs ih =>
    obtain ⟨t, c⟩ := tc
    obtain ⟨hready, hrest⟩ := hr
    obtain ⟨x₁, y₁, hover⟩ := h.over hl hs ha (hready y h.attend)
    obtain ⟨x', hx'⟩ := ih hover.settles hover.sound hover.attached (hrest x₁ hover.run)
    exact ⟨x', .cons h.attend hover.run hover.settles.attend hover.settles.quiet hover.log
      hover.answered hx'⟩

/-- Conversations that begin on an empty connection leave it empty. -/
theorem conversed (hl : g.lzo.Correct) {cs : List (Agent.Tid × Conversation)}
    (h : Quiet g x) (hs : x.provider.Sound) (ha : Attached g provider x) (hr : AllReady g cs x) :
    ∃ x', Conversed g cs x x' := h.settles.conversed_all hl hs ha hr

theorem conversed_mapping_ping : ∃ x', Conversed Setting.small
    [(.consumer 3, .mapping 77 12), (.provider 1, .ping 5)] Pair.small x' := by
  refine conversed literalLzo_correct quiet_small sound_small attached_small ⟨?_, ?_⟩
  · intro y hy
    obtain ⟨rfl, -⟩ := Outcome.done.inj (quiet_small.settles.attend.symm.trans hy)
    exact IdSet.not_mem_empty 12
  · intro x₁ _
    exact ⟨fun _ _ => trivial, fun _ _ => trivial⟩

/-- The small provider with an allocation of one byte. -/
def Pair.smallHolding : Pair Unit :=
  { Pair.small with
    provider := { Pair.small.provider with
      idMap := IdSet.empty.add 12 1
      allocations := IdSet.empty.add 12 ⟨12, 1, 1, 1⟩
      mem := Provider.Memory.put (fun _ => none) 1 (some [7]) } }

/-- A mapping is on its way when the agent's function returns. With a block size for which the
size of the buffer for a compressed block wraps around, the provider does not answer at all. -/
theorem not_quiet_mapping :
    (¬ ∀ (c : Conversation) (x₁ : Pair Unit), c.Ready Setting.small (.consumer 3) Pair.small →
      Joint.run Setting.small (.consumer 3) (c.program Setting.small) Pair.small = .done x₁ () →
      Quiet Setting.small x₁) ∧
    (Joint.run Setting.small (.consumer 3) ((Conversation.fetch 3
      ⟨12, 1, 9, ⟨streamFormatLzo1x1, 17361641481138401458⟩⟩).program Setting.small)
      Pair.smallHolding).fault? = some (.provider (.net .overflow)) := by
  constructor
  · intro h
    have hready : (Conversation.mapping 77 12).Ready Setting.small (.consumer 3) Pair.small :=
      IdSet.not_mem_empty 12
    have hrun := run_ignore (quiet_small.settles.run_agentRemoteMap (t := .consumer 3)
      attached_small 77 12)
    have hquiet := h (.mapping 77 12) _ hready hrun
    have hsent := congrArg Conn.sent hquiet.agent
    rw [Pair.sending, Pair.onAgent, Agent.State.withNet_net, Net.push_sent] at hsent
    exact List.append_ne_nil_of_right_ne_nil _ (List.cons_ne_nil _ _) hsent
  · decide +kernel

end Clara.Joint
