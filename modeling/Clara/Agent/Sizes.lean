import Clara.Agent.Rollback

/-! The sizes of the allocations that the agent keeps itself: as unbounded numbers, from the
request over the data that comes with it to what a fetch sends. -/
namespace Clara.Agent

open Conc

/-- The agent has in a buffer what the request asked for, neither more nor less. -/
structure State.Records (s : State) (c : Addr) (params : AllocateRequest) (handle : Handle)
    (a ptr : Addr) (b : Bytes) : Prop where
  entry : (s.sets (.allocations c)).lookup handle = some a
  record : s.heap .allocation a = some ⟨handle, params.nmemb, params.size, some ptr⟩
  block : s.heap .buffer ptr = some b
  length : b.length = params.length

def Answers (c : Addr) (s s' : State) (handle : Handle) : Prop :=
  (s'.net (.consumer c)).sent =
    (s.net (.consumer c)).sent ++ [.msg Msg.allocateResponse (Bytes.word handle)]

/-- Whatever is fetched of the allocation, and whenever, as many bytes are sent as are asked for
and there are. -/
def FetchesExact (lzo : Lzo) (fuel : ℕ) (c : Addr) (params : AllocateRequest) (handle : Handle) :
    Prop :=
  ∀ (s : State) (a ptr : Addr) (b : Bytes) (fetch : FetchRequest), Keeps c s →
    Usable (.consumer c) .idPool s → s.Records c params handle a ptr b →
    fetch.handle = handle → fetch.hint = invalidHandle → 0 < fetch.streamOpts.blksz.toNat →
    fetch.streamOpts.Fits lzo (b.take fetch.size.toNat) →
    (s.net (.consumer c)).sendFails = [] →
    ∃ s', run (.consumer c) (agentConsumerHandler lzo fuel c (.fetch fetch)) s = .done s' () ∧
      s'.net = s.net.push (.consumer c) (fetch.answer lzo b)

/-- The request is refused and changes nothing, or the allocation has just the size asked for. -/
inductive SizesExact (lzo : Lzo) (fuel : ℕ) (c : Addr) (params : AllocateRequest) (extra : Bytes)
    (s : State) : Prop
  | refused {n : Net Sd}
    (hrun : run (.consumer c) (agentConsumerHandler lzo fuel c (.allocate params extra)) s =
      .done (s.withNet n) ())
    (hanswer : Answers c s (s.withNet n) invalidHandle)
  | made {s' : State} {handle : Handle} {a ptr : Addr}
    (hrun : run (.consumer c) (agentConsumerHandler lzo fuel c (.allocate params extra)) s =
      .done s' ())
    (hanswer : Answers c s s' handle)
    (hrecord : s'.Records c params handle a ptr (params.contents extra))
    (hfetch : FetchesExact lzo fuel c params handle)

section
variable {t : Tid} {s s' : State} {c : Addr} {params : AllocateRequest} {extra : Bytes}
  {lzo : Lzo} {fuel : ℕ}

theorem SizesExact.exists_done (h : SizesExact lzo fuel c params extra s) :
    ∃ s' handle,
      run (.consumer c) (agentConsumerHandler lzo fuel c (.allocate params extra)) s =
        .done s' () ∧ Answers c s s' handle := by
  cases h with
  | refused hrun hanswer => exact ⟨_, _, hrun, hanswer⟩
  | made hrun hanswer hrecord hfetch => exact ⟨_, _, hrun, hanswer⟩

theorem fetchesExact (hsize : params.length < 2 ^ 64) (handle : Handle) :
    FetchesExact lzo fuel c params handle := by
  intro s a ptr b fetch hk hpool hr hhandle hhint hblk hfit hsend
  have hlen : b.length = (params.nmemb * params.size).toNat := by
    have hmod : (params.nmemb * params.size).toNat = params.length % 2 ^ 64 :=
      UInt64.toNat_mul ..
    rw [hr.length, hmod, Nat.mod_eq_of_lt hsize]
  have hs : s.Stores c fetch.handle a ptr b := by
    rw [hhandle]
    exact ⟨hr.entry, ⟨_, _, hr.record, hlen⟩, hr.block⟩
  rw [agentConsumerHandler, handleFetch, if_pos hhint, FetchRequest.answer]
  split_ifs with hpos
  · exact ⟨_, run_fetchLocal fetch hblk hk hpool hs hpos hfit hsend, rfl⟩
  · refine ⟨_, run_fetchLocal_zero fetch hk hpool hs hpos, ?_⟩
    rw [Net.push_nil]
    rfl

theorem run_claraSendAllocateResponse_sent (h : ¬ s.Refuses (.consumer c)) (handle : Handle) :
    ∃ n, run t (net (claraSendAllocateResponse (.consumer c) handle)) s =
      .done (s.withNet n) true ∧ Answers c s (s.withNet n) handle := by
  rw [claraSendAllocateResponse, run_net, Net.run_bind, Net.run_claraSendmsg_sent h]
  refine ⟨_, rfl, ?_⟩
  rw [Answers, State.withNet_net, Function.update_self]

/-- Where the response cannot be sent, there is none. -/
theorem Hosts.not_answers (h : Hosts s c) (hhint : params.hint = invalidHandle)
    (hsend : s.Refuses (.consumer c)) {handle : Handle}
    (hrun : run (.consumer c) (agentConsumerHandler lzo fuel c (.allocate params extra)) s =
      .done s' ()) : ¬ Answers c s s' handle := by
  obtain ⟨v, hc⟩ := Option.isSome_iff_exists.mp h.consumer
  have hsent : (s'.net (.consumer c)).sent = (s.net (.consumer c)).sent := by
    rw [agentConsumerHandler, handleAllocate, run_bind, run_read hc, Outcome.bind_done] at hrun
    by_cases hhandle : params.handle = invalidHandle
    · rw [if_neg (not_not_intro hhandle), if_pos hhint, run_bind] at hrun
      obtain ⟨s₁, a, hmake, hrest⟩ := Outcome.bind_eq_done hrun
      obtain ⟨hnew, hsuits⟩ := h.suits_of_done hmake
      obtain ⟨s₂, a₂, al, hmake₂, hmade⟩ := h.run_allocateLocal hnew hsuits
      obtain ⟨rfl, rfl⟩ := Outcome.done.inj (hmake₂.symm.trans hmake)
      have hrefuses : s₂.Refuses (.consumer c) := by
        rw [State.Refuses, hmade.conns]
        exact hsend
      have hrecord : s₂.heap .allocation a₂ = some al := by
        rw [hmade.record, Function.update_self]
      obtain ⟨n, hn, hkeep⟩ := run_claraSendAllocateResponse_failed (t := .consumer c) hrefuses
        al.handle
      obtain ⟨s₃, hundo, -, hnet⟩ := hmade.undone h hnew n
      rw [run_bind, run_read hrecord, Outcome.bind_done, run_bind, hn, Outcome.bind_done,
        if_neg Bool.false_ne_true, hundo] at hrest
      obtain ⟨rfl, -⟩ := Outcome.done.inj hrest
      rw [hnet, hkeep, hmade.conns]
    · obtain ⟨n, hn, hkeep⟩ := run_claraSendAllocateResponse_failed (t := .consumer c) hsend
        invalidHandle
      rw [if_pos hhandle, run_bind, hn, Outcome.bind_done] at hrun
      obtain ⟨rfl, -⟩ := Outcome.done.inj hrun
      exact hkeep
  intro hanswer
  rw [Answers, hsent] at hanswer
  have hlen := congrArg List.length hanswer
  rw [List.length_append, List.length_singleton] at hlen
  omega

theorem Hosts.sizesExact_refused (h : Hosts s c) (hsend : ¬ s.Refuses (.consumer c))
    (hhandle : params.handle ≠ invalidHandle) : SizesExact lzo fuel c params extra s := by
  obtain ⟨v, hc⟩ := Option.isSome_iff_exists.mp h.consumer
  obtain ⟨n, hn, hanswer⟩ := run_claraSendAllocateResponse_sent (t := .consumer c) hsend
    invalidHandle
  refine .refused ?_ hanswer
  rw [agentConsumerHandler, handleAllocate, run_bind, run_read hc, Outcome.bind_done,
    if_pos hhandle, run_bind, hn]
  rfl

theorem Hosts.run_handleAllocate (lzo : Lzo) (fuel : ℕ) (h : Hosts s c)
    (hsend : ¬ s.Refuses (.consumer c))
    (hhandle : params.handle = invalidHandle) (hhint : params.hint = invalidHandle) {s₁ : State}
    {a : Addr} {al : Allocation}
    (hmake : run (.consumer c) (allocateLocal c params extra) s = .done s₁ a)
    (hmade : Made s c s₁ a al) :
    ∃ n, run (.consumer c) (agentConsumerHandler lzo fuel c (.allocate params extra)) s =
      .done (s₁.withNet n) () ∧ Answers c s (s₁.withNet n) al.handle := by
  obtain ⟨v, hc⟩ := Option.isSome_iff_exists.mp h.consumer
  have hrecord : s₁.heap .allocation a = some al := by rw [hmade.record, Function.update_self]
  have hsend₁ : ¬ s₁.Refuses (.consumer c) := by
    rw [State.Refuses, hmade.conns]
    exact hsend
  obtain ⟨n, hn, hanswer⟩ := run_claraSendAllocateResponse_sent (t := .consumer c) hsend₁
    al.handle
  refine ⟨n, ?_, ?_⟩
  · rw [agentConsumerHandler, Agent.handleAllocate, run_bind, run_read hc, Outcome.bind_done,
      if_neg (not_not_intro hhandle), if_pos hhint, run_bind, hmake, Outcome.bind_done, run_bind,
      run_read hrecord, Outcome.bind_done, run_bind, hn]
    rfl
  · rw [Answers, hmade.conns] at hanswer
    exact hanswer

/-- Without a buffer the allocation is made all the same. -/
theorem Hosts.not_sizesExact_null (h : Hosts s c) (hsend : ¬ s.Refuses (.consumer c))
    (hhandle : params.handle = invalidHandle) (hhint : params.hint = invalidHandle)
    (hnew : s.DrawsNew c) (hcallocs : ¬ s.Callocs params) :
    ¬ SizesExact lzo fuel c params [] s := by
  have hmake := run_allocateLocal_null (h.draws hnew) hcallocs []
  rw [if_pos rfl] at hmake
  have hmade := made_storedNull s c params.nmemb params.size
  obtain ⟨n, hrun, hanswer⟩ := h.run_handleAllocate lzo fuel hsend hhandle hhint hmake hmade
  intro hexact
  cases hexact with
  | @refused n' hrun' hanswer' =>
    obtain ⟨heq, -⟩ := Outcome.done.inj (hrun.symm.trans hrun')
    have hpool := congrArg (fun s => s.sets .idPool) heq
    simp only [State.withNet_sets] at hpool
    apply hnew.1
    rw [← hpool, hmade.pool]
    exact (IdSet.mem_add hnew.1 0).mpr (.inl rfl)
  | @made s' handle a ptr hrun' hanswer' hrecord hfetch =>
    obtain ⟨rfl, -⟩ := Outcome.done.inj (hrun.symm.trans hrun')
    rw [Answers, hanswer] at hanswer'
    have hlast := List.append_cancel_left hanswer'
    have hword : Bytes.word (s.candidates s.draws).val = Bytes.word handle := by
      injection hlast with hmsg
      injection hmsg
    have hid : (s.candidates s.draws).val = handle := by
      rw [← Bytes.ofNat_toNat_word (s.candidates s.draws).val, hword, Bytes.ofNat_toNat_word]
    have hentry := hrecord.entry
    rw [State.withNet_sets, hmade.allocations, ← hid, IdSet.lookup_add hnew.2,
      if_pos rfl] at hentry
    obtain rfl := Option.some.inj hentry
    have hrec := hrecord.record
    rw [State.withNet_heap, hmade.record, Function.update_self] at hrec
    cases hrec

/-- The agent's own allocations have the sizes asked for exactly as long as there is a buffer for
them and the data that comes with the request fills it. -/
theorem Hosts.sizesExact (h : Hosts s c) (lzo : Lzo) (fuel : ℕ)
    (hhint : params.hint = invalidHandle) :
    SizesExact lzo fuel c params extra s ↔ ¬ s.Refuses (.consumer c) ∧
      (params.handle ≠ invalidHandle ∨ s.DrawsNew c ∧ s.Callocs params ∧
        (extra = [] ∨ extra.length = params.length)) := by
  obtain ⟨v, hc⟩ := Option.isSome_iff_exists.mp h.consumer
  constructor
  · intro hexact
    obtain ⟨s', handle, hrun, hanswer⟩ := hexact.exists_done
    have hsend : ¬ s.Refuses (.consumer c) := fun hrefuses =>
      h.not_answers hhint hrefuses hrun hanswer
    refine ⟨hsend, ?_⟩
    by_cases hhandle : params.handle = invalidHandle
    · rw [agentConsumerHandler, handleAllocate, run_bind, run_read hc, Outcome.bind_done,
        if_neg (not_not_intro hhandle), if_pos hhint, run_bind] at hrun
      obtain ⟨s₁, a, hmake, -⟩ := Outcome.bind_eq_done hrun
      obtain ⟨hnew, hsuits⟩ := h.suits_of_done hmake
      right
      refine ⟨hnew, ?_⟩
      rcases hsuits with rfl | hsuits
      · by_cases hcallocs : s.Callocs params
        · exact ⟨hcallocs, .inl rfl⟩
        · exact absurd hexact (h.not_sizesExact_null hsend hhandle hhint hnew hcallocs)
      · exact ⟨hsuits.1, .inr hsuits.2⟩
    · exact .inl hhandle
  · rintro ⟨hsend, hcond⟩
    by_cases hhandle : params.handle = invalidHandle
    · obtain ⟨hnew, hcallocs, hextra⟩ := hcond.resolve_left (not_not_intro hhandle)
      have hmake := Agent.run_allocateLocal (h.draws hnew) h.memory hcallocs hextra
      have hmade := made_stored s c params.nmemb params.size (initialContents params extra)
      obtain ⟨n, hrun, hanswer⟩ := h.run_handleAllocate lzo fuel hsend hhandle hhint hmake hmade
      have hcontents : initialContents params extra = params.contents extra := by
        rw [initialContents]
        split_ifs with hnil
        · rw [hnil, AllocateRequest.contents_nil]
        · have hlen := hextra.resolve_left hnil
          rw [AllocateRequest.contents_of_le hlen.ge, ← hlen, List.take_length]
      have hrecords : ((s.stored c params.nmemb params.size
          (initialContents params extra)).withNet n).Records c params (s.candidates s.draws).val
            (s.next + 1) s.next (params.contents extra) := by
        refine ⟨?_, ?_, ?_, params.length_contents extra⟩
        · rw [State.withNet_sets, hmade.allocations, IdSet.lookup_add hnew.2, if_pos rfl]
        · rw [State.withNet_heap, hmade.record, Function.update_self]
        · rw [← hcontents]
          exact s.stored_block c params.nmemb params.size _
      exact .made hrun hanswer hrecords (fetchesExact hcallocs.1 _)
    · exact h.sizesExact_refused hsend hhandle

end

end Clara.Agent
