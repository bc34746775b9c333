import Clara.Agent.Custody
import Clara.Agent.Failure
import Clara.Agent.RefCount
import Clara.Agent.Store

/-! What a consumer's ALLOCATE request leaves in the agent when it fails. One piece of code cleans
up after both kinds of allocation, and it is reached from one of several failures only. -/
namespace Clara.Agent

open Conc

structure Forwards (s : State) (params : AllocateRequest) (o : Object) : Prop where
  handle : params.handle = invalidHandle
  hint : params.hint ≠ invalidHandle
  object : ∃ a, (s.sets .objects).lookup params.hint = some a ∧ s.heap .object a = some o

/-- The next message on the connection cannot be sent. -/
def State.Refuses (s : State) (sd : Sd) : Prop := (s.net sd).sendFails.head? = some true

/-- Where handling the request fails. -/
inductive AllocationFails (s : State) (c : Addr) (params : AllocateRequest) : Prop
  /-- At the response, when the provider has no part in it. -/
  | response (hlocal : params.handle ≠ invalidHandle ∨ params.hint = invalidHandle)
    (hsend : s.Refuses (.consumer c))
  /-- The request that is passed on cannot be sent. -/
  | request {o : Object} (ho : Forwards s params o) (hsend : s.Refuses (.provider o.provider))
  /-- The response of the provider cannot be received. -/
  | receive {o : Object} (ho : Forwards s params o) {n : Net Sd}
    (hsend : ¬ s.Refuses (.provider o.provider))
    (hrecv : Net.exec (.recvmsg (.provider o.provider) 8) s.net = .done n .failed)
  /-- It can be received, but not passed on. -/
  | deliver {o : Object} (ho : Forwards s params o) {n : Net Sd} {r : Received} {b : Bytes}
    (hsend : ¬ s.Refuses (.provider o.provider))
    (hrecv : Net.exec (.recvmsg (.provider o.provider) 8) s.net = .done n r)
    (hr : r.stored = some b) (hresponse : s.Refuses (.consumer c))

structure Restored (c : Addr) (s s' : State) : Prop where
  pool : s'.sets .idPool = s.sets .idPool
  allocations : s'.sets (.allocations c) = s.sets (.allocations c)
  records : s'.heap .allocation = s.heap .allocation

/-- The agent survives the request and is then as it was before. -/
def RolledBack (lzo : Lzo) (fuel : ℕ) (c : Addr) (params : AllocateRequest) (extra : Bytes)
    (s : State) : Prop :=
  ∃ s', run (.consumer c) (agentConsumerHandler lzo fuel c (.allocate params extra)) s =
    .done s' () ∧ Restored c s s'

/-- Consumer `c` is served, and no other thread is in the middle of the sets it uses. -/
structure Hosts (s : State) (c : Addr) : Prop where
  consumer : (s.heap .consumer c).isSome
  pool : Usable (.consumer c) .idPool s
  allocations : Usable (.consumer c) (.allocations c) s
  fresh : s.Fresh
  memory : s.next < 2 ^ 64

/-- No data comes with the request, or exactly as much as there is a buffer for. -/
def State.Suits (s : State) (params : AllocateRequest) (extra : Bytes) : Prop :=
  extra = [] ∨ s.Callocs params ∧ extra.length = params.length

/-- The id that is drawn next is neither in the pool nor that of an allocation. -/
def State.DrawsNew (s : State) (c : Addr) : Prop :=
  (s.candidates s.draws).val ∉ s.sets .idPool ∧
    (s.candidates s.draws).val ∉ s.sets (.allocations c)

section
variable {t : Tid} {s : State} {c : Addr} {params : AllocateRequest} {extra : Bytes}

theorem run_claraSendAllocateResponse_failed (h : s.Refuses (.consumer c)) (handle : Handle) :
    ∃ n, run t (net (claraSendAllocateResponse (.consumer c) handle)) s =
      .done (s.withNet n) false ∧ (n (.consumer c)).sent = (s.net (.consumer c)).sent := by
  rw [claraSendAllocateResponse, run_net, Net.run_bind, Net.run_claraSendmsg_failed h]
  refine ⟨_, rfl, ?_⟩
  rw [Function.update_self]

theorem Hosts.draws (h : Hosts s c) (hn : s.DrawsNew c) : Draws (.consumer c) c s :=
  ⟨h.pool, h.allocations, hn.1, hn.2⟩

/-- The allocation is made, and it is the only trace of the request. -/
structure Made (s : State) (c : Addr) (s₁ : State) (a : Addr) (al : Allocation) : Prop where
  handle : al.handle = (s.candidates s.draws).val
  record : s₁.heap .allocation = Function.update (s.heap .allocation) a (some al)
  block : ∀ ptr, al.ptr = some ptr → ∃ b, s₁.heap .buffer ptr = some b
  new : s.next ≤ a
  pool : s₁.sets .idPool = (s.sets .idPool).add (s.candidates s.draws).val 0
  allocations : s₁.sets (.allocations c) =
    (s.sets (.allocations c)).add (s.candidates s.draws).val a
  visits : s₁.setLock = s.setLock
  conns : s₁.net = s.net

theorem made_stored (s : State) (c : Addr) (nmemb size : UInt64) (b : Bytes) :
    Made s c (s.stored c nmemb size b) (s.next + 1)
      ⟨(s.candidates s.draws).val, nmemb, size, some s.next⟩ where
  handle := rfl
  record := by
    have hne : Kind.allocation ≠ .buffer := by decide
    have hother : (s.withId.put .buffer s.next (some b)).heap .allocation = s.heap .allocation :=
      s.withId.put_heap_kind (k := .buffer) s.next (some b) hne
    rw [← hother]
    exact State.put_heap (k := .allocation) _ _ _
  block := by
    intro ptr hptr
    obtain rfl := Option.some.inj hptr
    exact ⟨b, s.stored_block c nmemb size b⟩
  new := Nat.le_succ _
  pool := s.stored_idPool c nmemb size b
  allocations := s.stored_allocations c nmemb size b
  visits := rfl
  conns := rfl

theorem made_storedNull (s : State) (c : Addr) (nmemb size : UInt64) :
    Made s c (s.storedNull c nmemb size) s.next
      ⟨(s.candidates s.draws).val, nmemb, size, none⟩ where
  handle := rfl
  record := s.withId.put_heap (k := .allocation) _ _
  block := nofun
  new := le_rfl
  pool := by
    have hne : SetRef.idPool ≠ .allocations c := nofun
    have hput := (s.withId.put .allocation s.next
      (some ⟨(s.candidates s.draws).val, nmemb, size, none⟩)).putSet_sets_of_ne
        ((s.sets (.allocations c)).add (s.candidates s.draws).val s.next) hne
    have hid : s.withId.sets .idPool = (s.sets .idPool).add (s.candidates s.draws).val 0 :=
      State.putSet_sets_self ..
    exact hput.trans hid
  allocations := State.putSet_sets_self ..
  visits := rfl
  conns := rfl

theorem Hosts.run_allocateLocal (h : Hosts s c) (hn : s.DrawsNew c)
    (hsuits : s.Suits params extra) :
    ∃ s₁ a al, run (.consumer c) (allocateLocal c params extra) s = .done s₁ a ∧
      Made s c s₁ a al := by
  by_cases hcallocs : s.Callocs params
  · have hextra : extra = [] ∨ extra.length = params.length := hsuits.imp_right And.right
    exact ⟨_, _, _, Agent.run_allocateLocal (h.draws hn) h.memory hcallocs hextra,
      made_stored s c _ _ _⟩
  · have hnil : extra = [] := hsuits.resolve_right fun hs => hcallocs hs.1
    have hrun := run_allocateLocal_null (h.draws hn) hcallocs extra
    rw [if_pos hnil] at hrun
    exact ⟨_, _, _, hrun, made_storedNull s c _ _⟩

theorem Hosts.suits_of_done (h : Hosts s c) {s₁ : State} {a : Addr}
    (hrun : run (.consumer c) (allocateLocal c params extra) s = .done s₁ a) :
    s.DrawsNew c ∧ s.Suits params extra := by
  have hid : (s.candidates s.draws).val ∉ s.sets .idPool := by
    intro hmem
    rw [allocateLocal, run_bind, run_idCreate_collision h.pool hmem] at hrun
    cases hrun
  have hnew : s.DrawsNew c := by
    refine ⟨hid, fun hmem => ?_⟩
    rw [run_allocateLocal_used h.pool h.allocations hid hmem] at hrun
    cases hrun
  refine ⟨hnew, ?_⟩
  by_contra hsuits
  have hnil : extra ≠ [] := fun hnil => hsuits (.inl hnil)
  by_cases hcallocs : s.Callocs params
  · have hlen : extra.length ≠ params.length := fun hlen => hsuits (.inr ⟨hcallocs, hlen⟩)
    rw [run_allocateLocal_extra (h.draws hnew) hcallocs hnil hlen] at hrun
    cases hrun
  · rw [run_allocateLocal_null (h.draws hnew) hcallocs extra, if_neg hnil] at hrun
    cases hrun

theorem Made.undone {s₁ : State} {a : Addr} {al : Allocation} (h : Made s c s₁ a al)
    (hs : Hosts s c) (hn : s.DrawsNew c) (n : Net Sd) :
    ∃ s', run (.consumer c) (allocateUndo c (some a)) (s₁.withNet n) = .done s' () ∧
      Restored c s s' ∧ s'.net = n := by
  have hrecord : (s₁.withNet n).heap .allocation a = some al := by
    rw [State.withNet_heap, h.record, Function.update_self]
  have hu : Usable (.consumer c) (.allocations c) (s₁.withNet n) := by
    refine ⟨?_, ?_⟩
    · rw [State.withNet_sets, h.allocations, IdSet.damaged_add, decide_eq_false hn.2,
        hs.allocations.sound]
      rfl
    · rw [State.withNet_setLock, h.visits, hs.allocations.admits]
  have hpool : Usable (.consumer c) .idPool (s₁.withNet n) := by
    refine ⟨?_, ?_⟩
    · rw [State.withNet_sets, h.pool, IdSet.damaged_add, decide_eq_false hn.1, hs.pool.sound]
      rfl
    · rw [State.withNet_setLock, h.visits, hs.pool.admits]
  have hmem : al.handle ∈ (s₁.withNet n).sets (.allocations c) := by
    rw [State.withNet_sets, h.allocations, h.handle, IdSet.mem_add hn.2]
    exact .inl rfl
  have hid : al.handle ∈ (s₁.withNet n).sets .idPool := by
    rw [State.withNet_sets, h.pool, h.handle, IdSet.mem_add hn.1]
    exact .inl rfl
  have hrelease := run_releaseAllocation hu hpool hmem hid hrecord rfl h.block .allocateUndo
    .allocateUndo
  have hne : SetRef.allocations c ≠ .idPool := nofun
  refine ⟨(s₁.withNet n).released c al.handle a al.ptr, ?_, ⟨?_, ?_, ?_⟩, ?_⟩
  · rw [allocateUndo, run_bind, run_deref_some, Outcome.bind_done, run_bind, run_read hrecord,
      Outcome.bind_done]
    exact hrelease
  · rw [State.released, State.putSet_sets_self, State.withNet_sets, h.pool, h.handle,
      IdSet.erase_add hn.1]
  · have hput := State.putSet_sets_of_ne ((((s₁.withNet n).putSet (.allocations c)
      ((s₁.sets (.allocations c)).erase al.handle)).freeBuffer al.ptr).put .allocation a none)
        ((s₁.sets .idPool).erase al.handle) hne
    have hfree : (((s₁.withNet n).putSet (.allocations c)
        ((s₁.sets (.allocations c)).erase al.handle)).freeBuffer al.ptr).sets (.allocations c) =
          (s₁.sets (.allocations c)).erase al.handle := by
      cases al.ptr with
      | none => exact State.putSet_sets_self ..
      | some ptr => exact State.putSet_sets_self ..
    refine hput.trans (hfree.trans ?_)
    rw [h.allocations, h.handle, IdSet.erase_add hn.2]
  · have hfree : (((s₁.withNet n).putSet (.allocations c)
        ((s₁.sets (.allocations c)).erase al.handle)).freeBuffer al.ptr).heap .allocation =
          s₁.heap .allocation := by
      cases al.ptr with
      | none => rfl
      | some ptr => exact State.put_heap_kind _ _ _ (by decide)
    have hnone : s.heap .allocation a = none := hs.fresh .allocation a h.new
    have hput : ((s₁.withNet n).released c al.handle a al.ptr).heap .allocation =
        Function.update (s₁.heap .allocation) a none := by
      rw [← hfree]
      exact State.put_heap (k := .allocation) _ _ _
    rw [hput, h.record, Function.update_idem, ← hnone, Function.update_eq_self]
  · cases hptr : al.ptr with
    | none => rfl
    | some ptr => rfl

theorem Hosts.rolledBack_local (h : Hosts s c) (lzo : Lzo) (fuel : ℕ)
    (hhandle : params.handle = invalidHandle) (hhint : params.hint = invalidHandle)
    (hsend : s.Refuses (.consumer c)) :
    RolledBack lzo fuel c params extra s ↔ s.DrawsNew c ∧ s.Suits params extra := by
  obtain ⟨v, hc⟩ := Option.isSome_iff_exists.mp h.consumer
  constructor
  · rintro ⟨s', hrun, -⟩
    rw [agentConsumerHandler, handleAllocate, run_bind, run_read hc, Outcome.bind_done,
      if_neg (not_not_intro hhandle), if_pos hhint] at hrun
    obtain ⟨s₁, a, hmade, -⟩ := run_bind_done hrun
    exact h.suits_of_done hmade
  · rintro ⟨hn, hsuits⟩
    obtain ⟨s₁, a, al, hmake, hmade⟩ := h.run_allocateLocal hn hsuits
    have hrecord : s₁.heap .allocation a = some al := by rw [hmade.record, Function.update_self]
    have hrefuses : s₁.Refuses (.consumer c) := by
      rw [State.Refuses, hmade.conns]
      exact hsend
    obtain ⟨n, hn', -⟩ := run_claraSendAllocateResponse_failed (t := .consumer c) hrefuses
      al.handle
    obtain ⟨s', hundo, hrestored, -⟩ := hmade.undone h hn n
    refine ⟨s', ?_, hrestored⟩
    rw [agentConsumerHandler, handleAllocate, run_bind, run_read hc, Outcome.bind_done,
      if_neg (not_not_intro hhandle), if_pos hhint, run_bind, hmake, Outcome.bind_done, run_bind,
      run_read hrecord, Outcome.bind_done, run_bind, hn', Outcome.bind_done,
      if_neg Bool.false_ne_true]
    exact hundo

/-- A program that creates and releases no ids. -/
theorem run_idPool {α : Type} {p : AProg α} {s' : State} {a : α}
    (hp : p.All fun o => o.area ∈ Area.remote) (hrun : run t p s = .done s' a) :
    s'.sets .idPool = s.sets .idPool := by
  refine Prog.All.run_keeps (I := fun s₁ => s₁.sets .idPool = s.sets .idPool) ?_ hp hrun rfl
  intro o s₁ s₂ r ho hexec hs₁
  have hout : ∀ area, area ∉ Area.remote → o.area ≠ area := fun area ha heq => ha (heq ▸ ho)
  rw [← hs₁]
  exact (change_of_done hexec).sets (r := .idPool) (hout .reserve (by decide))
    (hout .release (by decide)) (hout .agent (by decide))

private theorem all_allocateRest (c object : Addr) (params : AllocateRequest) (extra : Bytes)
    (id : GlobalId) : (do
      let handle ← (do
        let o ← read .object object
        let handle ← agentRemoteAllocate o.provider { params with handle := id } extra
        pure (handle.getD invalidHandle))
      if ← net (claraSendAllocateResponse (.consumer c) handle) then pure ()
      else allocateUndo c none : AProg Unit).All fun o => o.area ∈ Area.remote := by
  have hK := passes_all Area.remote
  have hundo : (allocateUndo c none).All fun o => o.area ∈ Area.remote :=
    ⟨by decide, fun x : Empty => x.elim⟩
  refine hK.bind (hK.bind (passes_read hK .object _ (by decide)) fun o => ?_) fun handle => ?_
  · exact hK.bind (passes_agentRemoteAllocate hK Area.wired_subset_remote _ _ _) fun _ => hK.pure _
  · apply hK.bind (passes_claraSendAllocateResponse hK Area.local_subset_remote _ _)
    intro b
    cases b with
    | true => exact hK.pure _
    | false => exact hundo

/-- The id that was drawn stays in the pool, whatever becomes of the request. -/
theorem Hosts.not_restored_remote (h : Hosts s c) {s' : State}
    (hhandle : params.handle = invalidHandle) (hhint : params.hint ≠ invalidHandle)
    (hrun : run (.consumer c) (handleAllocate c params extra) s = .done s' ()) :
    s'.sets .idPool ≠ s.sets .idPool := by
  obtain ⟨v, hc⟩ := Option.isSome_iff_exists.mp h.consumer
  rw [handleAllocate, run_bind, run_read hc, Outcome.bind_done, if_neg (not_not_intro hhandle),
    if_neg hhint, run_bind, allocateRemote, run_bind] at hrun
  have hfound : ∀ {s₁ a}, run (.consumer c) (findHint params.hint .allocateHint) s =
      .done s₁ a → s₁ = s := by
    intro s₁ a hfind
    rw [findHint] at hfind
    obtain ⟨s₂, d, hlook, hfind⟩ := run_bind_done hfind
    obtain ⟨rfl, -⟩ := run_setFind_done hlook
    cases d with
    | none => cases hfind
    | some d =>
      obtain ⟨rfl, -⟩ := Outcome.done.inj hfind
      rfl
  cases hfind : run (.consumer c) (findHint params.hint .allocateHint) s with
  | fault f => simp [hfind] at hrun
  | blocked => simp [hfind] at hrun
  | done s₁ a =>
    obtain rfl := hfound hfind
    rw [hfind, Outcome.bind_done, run_bind] at hrun
    by_cases hid : (s₁.candidates s₁.draws).val ∈ s₁.sets .idPool
    · rw [run_idCreate_collision h.pool hid] at hrun
      cases hrun
    · rw [run_idCreate h.pool hid, Outcome.bind_done, ← run_bind] at hrun
      have hkeep : s'.sets .idPool = s₁.withId.sets .idPool :=
        run_idPool (all_allocateRest c a params extra _) hrun
      have hmem : (s₁.candidates s₁.draws).val ∈ s'.sets .idPool := by
        rw [hkeep, State.withId, State.putSet_sets_self]
        exact (IdSet.mem_add hid 0).mpr (.inl rfl)
      intro heq
      rw [heq] at hmem
      exact hid hmem

/-- A request that names a handle is refused, and nothing is made for it. -/
theorem Hosts.rolledBack_refused (h : Hosts s c) (lzo : Lzo) (fuel : ℕ)
    (hhandle : params.handle ≠ invalidHandle) (hsend : s.Refuses (.consumer c)) :
    RolledBack lzo fuel c params extra s := by
  obtain ⟨v, hc⟩ := Option.isSome_iff_exists.mp h.consumer
  obtain ⟨n, hn, -⟩ := run_claraSendAllocateResponse_failed (t := .consumer c) hsend
    invalidHandle
  refine ⟨s.withNet n, ?_, rfl, rfl, rfl⟩
  rw [agentConsumerHandler, handleAllocate, run_bind, run_read hc, Outcome.bind_done,
    if_pos hhandle, run_bind, hn]
  rfl

/-- A failed allocation is rolled back when it is refused, and when it is one of the agent itself
that has been made. Nothing of an allocation at a provider ever is. -/
theorem rolledBack_iff (h : Hosts s c) (lzo : Lzo) (fuel : ℕ) (hf : AllocationFails s c params) :
    RolledBack lzo fuel c params extra s ↔ params.handle ≠ invalidHandle ∨
      params.hint = invalidHandle ∧ s.DrawsNew c ∧ s.Suits params extra := by
  by_cases hhandle : params.handle = invalidHandle
  · rw [or_iff_right (not_not_intro hhandle)]
    by_cases hhint : params.hint = invalidHandle
    · have hsend : s.Refuses (.consumer c) := by
        cases hf with
        | response hlocal hsend => exact hsend
        | request ho hsend => exact absurd hhint ho.hint
        | receive ho hsend hrecv => exact absurd hhint ho.hint
        | deliver ho hsend hrecv hr hresponse => exact hresponse
      rw [h.rolledBack_local lzo fuel hhandle hhint hsend, and_iff_right hhint]
    · constructor
      · rintro ⟨s', hrun, hrestored⟩
        exact absurd hrestored.pool (h.not_restored_remote hhandle hhint hrun)
      · rintro ⟨heq, -⟩
        exact absurd heq hhint
  · have hsend : s.Refuses (.consumer c) := by
      cases hf with
      | response hlocal hsend => exact hsend
      | request ho hsend => exact absurd ho.handle hhandle
      | receive ho hsend hrecv => exact absurd ho.handle hhandle
      | deliver ho hsend hrecv hr hresponse => exact absurd ho.handle hhandle
    exact iff_of_true (h.rolledBack_refused lzo fuel hhandle hsend) (.inl hhandle)

end

/-- The small agent when its provider has answered with the handle 21, and its consumer cannot be
reached any more. -/
def State.outOfReach : State :=
  let net : Net Sd := Function.update (fun _ => .fresh) (.consumer 3) ⟨[], [], [true]⟩
  (State.small someIds).withNet (net.withInq (.provider 1)
    [.record (Sent.msg Msg.allocateResponse (Bytes.word 21)).record])

private theorem hosts_outOfReach : Hosts State.outOfReach 3 where
  consumer := rfl
  pool := ⟨rfl, rfl⟩
  allocations := ⟨rfl, rfl⟩
  fresh := (small_settled someIds).fresh
  memory := by decide

private theorem refuses_outOfReach : State.outOfReach.Refuses (.consumer 3) := rfl

/-- Four bytes in the agent itself. -/
theorem rolledBack_outOfReach : RolledBack literalLzo 1000 3 ⟨invalidHandle, 4, 1, invalidHandle⟩
    [1, 2, 3, 4] State.outOfReach :=
  (rolledBack_iff hosts_outOfReach literalLzo 1000
    (.response (.inr rfl) refuses_outOfReach)).mpr
      (.inr ⟨rfl, ⟨by decide, by decide⟩, .inr ⟨⟨by decide, by decide⟩, by decide⟩⟩)

/-- The same at the provider: the agent looks for an allocation of its own. -/
theorem not_rolledBack_outOfReach :
    Hosts State.outOfReach 3 ∧
    AllocationFails State.outOfReach 3 ⟨invalidHandle, 4, 1, 9⟩ ∧
    (run (.consumer 3) (agentConsumerHandler literalLzo 1000 3
      (.allocate ⟨invalidHandle, 4, 1, 9⟩ [])) State.outOfReach).fault? = some .nullPointer ∧
    ¬ RolledBack literalLzo 1000 3 ⟨invalidHandle, 4, 1, 9⟩ [] State.outOfReach := by
  have hrun : (run (.consumer 3) (agentConsumerHandler literalLzo 1000 3
      (.allocate ⟨invalidHandle, 4, 1, 9⟩ [])) State.outOfReach).fault? = some .nullPointer := by
    decide +kernel
  refine ⟨hosts_outOfReach, ?_, hrun, ?_⟩
  · have hforwards : Forwards State.outOfReach ⟨invalidHandle, 4, 1, 9⟩
        ⟨9, 77, 0, 7, 1, none⟩ := ⟨rfl, by decide, 6, rfl, rfl⟩
    have hrecord : (State.outOfReach.net (.provider 1)).inq =
        .record (Sent.msg Msg.allocateResponse (Bytes.word 21)).record :: [] := Net.withInq_inq _ _ _
    have hlen : (Bytes.word 21).length ≤ 8 := by rw [Bytes.length_word]
    have hrecv := Net.run_claraRecvmsg hrecord hlen
    rw [Net.run, claraRecvmsg, NetProg.perform, Prog.run_perform] at hrecv
    have hsend : ¬ State.outOfReach.Refuses (.provider 1) := by
      intro heq
      cases heq
    exact .deliver hforwards hsend hrecv rfl refuses_outOfReach
  · rintro ⟨s', hdone, -⟩
    rw [hdone] at hrun
    cases hrun

end Clara.Agent
