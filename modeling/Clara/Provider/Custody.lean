import Mathlib.Data.Set.Insert
import Clara.Common.Chunks
import Clara.Provider.Service

/-! The handles in the provider's table of allocations: only ALLOCATE and FETCH change them, each
by the one handle it names. What is shown of a message holds whenever the provider gets through
it. -/
namespace Clara.Provider

open Conc PProg

variable {Cl α β : Type} {lzo : Lzo} {fuel : ℕ} {lib : OpenCl Cl} {s s' : State Cl}

/-- The handles of the allocations. -/
def State.handles (s : State Cl) : Set Handle := {handle | handle ∈ s.allocations}

theorem State.handles_eq (h : s'.allocations = s.allocations) : s'.handles = s.handles := by
  rw [State.handles, State.handles, h]

/-- What a change of the id map leaves alone. -/
def State.besideIds (s : State Cl) : Net Unit × IdSet Handle Allocation := (s.net, s.allocations)

theorem Kept.besideIds (h : Kept s s') : s'.besideIds = s.besideIds := by
  rw [State.besideIds, State.besideIds, h.net, h.allocations]

private theorem leaves_idMap (x : Option (Bool × IdSet GlobalId Arg)) :
    Leaves State.besideIds False (do
      let (b, map) ← ofSet x
      modify fun s => { s with idMap := map }
      pure b : PProg Cl Bool) := by
  apply (leaves_ofSet x).bind
  rintro ⟨b, map⟩
  apply Leaves.bind
  · exact leaves_modify fun _ => rfl
  · exact fun _ => leaves_pure b

theorem leaves_mappingInsert (virt : GlobalId) (real : Arg) :
    Leaves State.besideIds False (mappingInsert virt real : PProg Cl Bool) :=
  (leaves_get _).bind fun _ => leaves_idMap _

theorem leaves_mappingRemove (virt : GlobalId) :
    Leaves State.besideIds False (mappingRemove virt : PProg Cl Bool) :=
  (leaves_get _).bind fun _ => leaves_idMap _

theorem keeping_allocateInit (a : Allocation) : Keeping (allocateInit a : PProg Cl Unit) := by
  simp only [allocateInit]
  split_ifs
  · exact keeping_pure ()
  · exact (keeping_get fun _ _ => rfl).bind fun _ => keeping_store _ _ _
  · exact keeping_fail _

theorem leaves_mapatptr (virt ptr : GlobalId) :
    Leaves State.besideIds False (mapatptr virt ptr : PProg Cl Arg) := by
  refine ((keeping_mappingFindByVirt ptr).leaves fun _ _ => Kept.besideIds).bind fun p => ?_
  cases p with
  | none => exact leaves_pure _
  | some p =>
    refine ((keeping_loadWord p 0).leaves fun _ _ => Kept.besideIds).bind fun real => ?_
    refine (leaves_mappingInsert virt real).bind fun b => (leaves_assert b _).bind fun _ => ?_
    exact ((keeping_store p 0 _).leaves fun _ _ => Kept.besideIds).bind fun _ => leaves_pure _

/-- A MAPPING message is not answered, and the provider does not wait in it. -/
theorem leaves_handleMapping : Leaves State.besideIds False (handleMapping : PProg Cl Unit) :=
  (leaves_get _).bind fun _ => (leaves_get _).bind fun _ =>
    (leaves_mappingInsert _ _).bind fun _ => leaves_assert _ _

theorem leaves_fetchFree (a : Option Allocation) :
    Leaves State.net False (fetchFree a : PProg Cl Unit) := by
  cases a with
  | none => exact leaves_fail _
  | some a =>
    have hremove : Leaves State.net False (mappingRemove a.handle : PProg Cl Bool) :=
      (leaves_mappingRemove a.handle).weaken (fun _ _ h => congrArg Prod.fst h) id
    have hallocations : Leaves State.net False (allocationRemove a.handle : PProg Cl Bool) := by
      refine (leaves_get _).bind fun x => (leaves_ofSet x).bind ?_
      rintro ⟨b, set⟩
      refine Leaves.bind ?_ fun _ => leaves_pure b
      exact leaves_modify fun _ => rfl
    refine ((keeping_mappingFindByVirt _).leaves fun _ _ => Kept.net).bind fun _ => ?_
    refine (leaves_assert _ _).bind fun _ => hremove.bind fun _ => ?_
    refine (leaves_assert _ _).bind fun _ => hallocations.bind fun _ => ?_
    exact (leaves_assert _ _).bind fun _ => (keeping_free _).leaves fun _ _ => Kept.net

theorem bind_done {p : PProg Cl α} {f : α → PProg Cl β} {b : β}
    (h : (p >>= f) s = .done s' b) : ∃ s₁ a, p s = .done s₁ a ∧ f a s₁ = .done s' b :=
  Outcome.bind_eq_done h

theorem assert_bind_done {b : Bool} {a : Assertion} {f : Unit → PProg Cl α} {x : α}
    (h : (PProg.assert b a >>= f) s = .done s' x) : b = true ∧ f () s = .done s' x := by
  cases b with
  | true => exact ⟨rfl, h⟩
  | false => cases h

theorem assert_done {b : Bool} {a : Assertion} {x : Unit}
    (h : PProg.assert b a s = .done s' x) : s' = s ∧ b = true := by
  rw [assert_run] at h
  split_ifs at h with hb
  obtain ⟨rfl, -⟩ := Outcome.done.inj h
  exact ⟨rfl, hb⟩

theorem bufWord_bind_done {i : ℕ} {k : UInt64 → PProg Cl β} {b : β}
    (h : (bufWord i >>= k) s = .done s' b) : k (s.buf.word i) s = .done s' b := h

section
variable {q : List Incoming}

theorem handleMapatptr_done (hn : s.net = .wire q []) (h : handleMapatptr s = .done s' ()) :
    ∃ w, s'.net = .wire q [.msg Msg.mapatptrResponse (Bytes.word w)] ∧
      s'.allocations = s.allocations := by
  rw [handleMapatptr, bind_run, bufWord, get_run, Outcome.bind_done, bind_run, bufWord, get_run,
    Outcome.bind_done, bind_run] at h
  obtain ⟨s₁, w, hmap, h⟩ := Outcome.bind_eq_done h
  obtain ⟨hnet, hsame⟩ := Prod.mk.inj ((leaves_mapatptr _ _).same _ _ _ hmap)
  rw [hn] at hnet
  rw [bind_run, claraSendMapatptrResponse, net_sendRequest hnet, Outcome.bind_done] at h
  obtain ⟨rfl, -⟩ := assert_done h
  refine ⟨w, ?_, hsame⟩
  show s₁.net.push () _ = _
  rw [hnet, Net.wire_push]
  rfl

theorem handleExecute_done (hn : s.net = .wire q []) (h : handleExecute lib s = .done s' ()) :
    ∃ w, s'.net = .wire q [.msg Msg.executeResponse (Bytes.word w)] ∧
      s'.allocations = s.allocations := by
  rw [handleExecute, bind_run] at h
  obtain ⟨s₁, w, hexec, h⟩ := Outcome.bind_eq_done h
  have hkept := (keeping_claraExecute lib 0).kept _ _ _ hexec
  have hnet : s₁.net = .wire q [] := hkept.net.trans hn
  rw [bind_run, claraSendExecuteResponse, if_pos rfl, net_sendRequest hnet,
    Outcome.bind_done] at h
  obtain ⟨rfl, -⟩ := assert_done h
  refine ⟨w, ?_, hkept.allocations⟩
  show s₁.net.push () _ = _
  rw [hnet, Net.wire_push]
  rfl

theorem allocationInsert_done {a : Allocation} {b : Bool}
    (h : allocationInsert a s = .done s' b) :
    s'.net = s.net ∧ s'.allocations = s.allocations.add a.handle a ∧
      b = decide (a.handle ∉ s.allocations) := by
  rw [allocationInsert, bind_run, get_run, Outcome.bind_done, IdSet.setInsert] at h
  split_ifs at h
  · cases h
  · obtain ⟨rfl, rfl⟩ := Outcome.done.inj h
    exact ⟨rfl, rfl, rfl⟩

theorem allocationRemove_done {handle : Handle} {b : Bool}
    (h : allocationRemove handle s = .done s' b) :
    s'.net = s.net ∧ s'.allocations = s.allocations.erase handle ∧
      b = decide (handle ∈ s.allocations) := by
  rw [allocationRemove, bind_run, get_run, Outcome.bind_done, IdSet.setRemove] at h
  split_ifs at h
  · cases h
  · obtain ⟨rfl, rfl⟩ := Outcome.done.inj h
    exact ⟨rfl, rfl, rfl⟩

/-- The new allocation has the handle in the first word. -/
theorem handleAllocate_done {ssz : ℕ} (hn : s.net = .wire q [])
    (h : handleAllocate ssz s = .done s' ()) :
    s'.net = .wire q [.msg Msg.allocateResponse (Bytes.word (s.buf.word 0))] ∧
      s.buf.word 0 ∉ s.handles ∧ s'.handles = insert (s.buf.word 0) s.handles := by
  rw [handleAllocate] at h
  replace h := bufWord_bind_done h
  replace h := bufWord_bind_done h
  replace h := bufWord_bind_done h
  obtain ⟨s₁, a, hcreate, hrest⟩ := bind_done h
  obtain ⟨s₀, ptr, hcalloc, hpure⟩ := bind_done hcreate
  obtain ⟨rfl, rfl⟩ := Outcome.done.inj hpure
  obtain ⟨s₂, b, hinsert, hrest⟩ := bind_done hrest
  obtain ⟨hb, hrest⟩ := assert_bind_done hrest
  obtain ⟨s₃, b', hmap, hrest⟩ := bind_done hrest
  obtain ⟨hb', hrest⟩ := assert_bind_done hrest
  have hcallocs := (keeping_calloc _ _).kept _ _ _ hcalloc
  have hinserts := allocationInsert_done hinsert
  have hmaps := Prod.mk.inj ((leaves_mappingInsert _ _).same _ _ _ hmap)
  have hnew : s.buf.word 0 ∉ s.allocations := by
    have hdec := of_decide_eq_true (hinserts.2.2.symm.trans hb)
    rwa [hcallocs.allocations] at hdec
  have hsend : ∀ s₄ : State Cl, s₄.net = s₃.net → s₄.allocations = s₃.allocations →
      (do
        if ← net (claraSendAllocateResponse () (s.buf.word 0)) then pure ()
        else allocateUndo ⟨s.buf.word 0, s.buf.word 1, s.buf.word 2, ptr⟩ : PProg Cl Unit) s₄ =
          .done s' () →
      s'.net = .wire q [.msg Msg.allocateResponse (Bytes.word (s.buf.word 0))] ∧
        s.buf.word 0 ∉ s.handles ∧ s'.handles = insert (s.buf.word 0) s.handles := by
    intro s₄ hnet hall hlast
    have hwire : s₄.net = .wire q [] := by
      rw [hnet, hmaps.1, hinserts.1, hcallocs.net, hn]
    rw [bind_run, net_claraSendAllocateResponse hwire, Outcome.bind_done, if_pos rfl] at hlast
    obtain ⟨rfl, -⟩ := Outcome.done.inj hlast
    refine ⟨?_, hnew, ?_⟩
    · show s₄.net.push () _ = _
      rw [hwire, Net.wire_push]
      rfl
    · ext handle
      show handle ∈ s₄.allocations ↔ _
      rw [hall, hmaps.2, hinserts.2.1, hcallocs.allocations, IdSet.mem_add hnew]
      rfl
  by_cases hssz : ssz ≠ 32
  · rw [if_pos hssz] at hrest
    obtain ⟨s₄, _, hinit, hlast⟩ := bind_done hrest
    have hinits := (keeping_allocateInit _).kept _ _ _ hinit
    exact hsend s₄ hinits.net hinits.allocations hlast
  · rw [if_neg hssz] at hrest
    exact hsend s₃ rfl rfl hrest

theorem fetchFree_done {a : Option Allocation} (h : fetchFree a s = .done s' ()) :
    ∃ b, a = some b ∧ s'.net = s.net ∧ b.handle ∈ s.handles ∧
      s'.allocations = s.allocations.erase b.handle := by
  cases a with
  | none => cases h
  | some b =>
    rw [fetchFree] at h
    obtain ⟨s₁, r, hfind, hrest⟩ := bind_done h
    obtain ⟨-, hrest⟩ := assert_bind_done hrest
    obtain ⟨s₂, r', hremove, hrest⟩ := bind_done hrest
    obtain ⟨-, hrest⟩ := assert_bind_done hrest
    obtain ⟨s₃, r'', herase, hrest⟩ := bind_done hrest
    obtain ⟨hr'', hrest⟩ := assert_bind_done hrest
    have hfinds := (keeping_mappingFindByVirt _).kept _ _ _ hfind
    have hremoves := Prod.mk.inj ((leaves_mappingRemove _).same _ _ _ hremove)
    have herases := allocationRemove_done herase
    have hfrees := (keeping_free _).kept _ _ _ hrest
    refine ⟨b, rfl, ?_, ?_, ?_⟩
    · rw [hfrees.net, herases.1, hremoves.1, hfinds.net]
    · have hmem := of_decide_eq_true (herases.2.2.symm.trans hr'')
      rwa [hremoves.2, hfinds.allocations] at hmem
    · rw [hfrees.allocations, herases.2.1, hremoves.2, hfinds.allocations]

theorem claraFindAllocation_done {handle : Handle} {a : Option Allocation}
    (h : claraFindAllocation handle s = .done s' a) :
    s' = s ∧ ∀ b, a = some b → b.handle = handle := by
  rw [claraFindAllocation, bind_run, get_run, Outcome.bind_done, IdSet.setList] at h
  split_ifs at h
  · cases h
  · obtain ⟨rfl, rfl⟩ := Outcome.done.inj h
    refine ⟨rfl, fun b hb => ?_⟩
    have hfound : (b.handle == handle) = true := by
      have htest := List.find?_some hb
      exact htest
    exact eq_of_beq hfound

theorem load_done {ptr : Arg} {off n : ℕ} {b : Bytes} (h : load ptr off n s = .done s' b) :
    b.length = n := by
  rw [load, bind_run, get_run, Outcome.bind_done] at h
  cases hmem : s.mem ptr with
  | none =>
    rw [hmem] at h
    cases h
  | some block =>
    simp only [hmem] at h
    split_ifs at h with hfits
    · obtain ⟨-, rfl⟩ := Outcome.done.inj h
      rw [Bytes.slice, List.length_take, List.length_drop]
      omega
    · cases h

theorem fetchRespond_done {a : Option Allocation} {opts : StreamOptions}
    (hblk : 0 < opts.blksz.toNat) (hfit : ∀ b, opts.Fits lzo b) (hn : s.net = .wire q [])
    (h : fetchRespond lzo a opts s = .done s' ()) :
    ∃ b : Bytes, b.length < 2 ^ 64 ∧ s'.net = .wire q (.msg Msg.fetchResponse
        (Bytes.word (UInt64.ofNat b.length)) :: streamRecords lzo opts b) ∧
      s'.allocations = s.allocations := by
  cases a with
  | none => cases h
  | some a =>
    rw [fetchRespond] at h
    simp only [bind_run] at h
    obtain ⟨s₁, buf, hload, h⟩ := Outcome.bind_eq_done h
    have hloads : s₁.net = s.net ∧ s₁.allocations = s.allocations := by
      split_ifs at hload
      · obtain ⟨rfl, -⟩ := Outcome.done.inj hload
        exact ⟨rfl, rfl⟩
      · have hkept := (keeping_load _ _ _).kept _ _ _ hload
        exact ⟨hkept.net, hkept.allocations⟩
    have hlen : buf.length < 2 ^ 64 := by
      have hsize := (a.nmemb * a.size).toNat_lt
      split_ifs at hload with hzero
      · obtain ⟨-, rfl⟩ := Outcome.done.inj hload
        exact Nat.two_pow_pos 64
      · rw [load_done hload]
        exact hsize
    have hnet : s₁.net = .wire q [] := hloads.1.trans hn
    rw [net_claraSendFetchResponse hblk hnet (hfit buf) (by decide : (0 : UInt64) < 1),
      Outcome.bind_done] at h
    obtain ⟨rfl, -⟩ := Outcome.done.inj h
    refine ⟨buf, hlen, ?_, hloads.2⟩
    show s₁.net.push () _ = _
    rw [hnet, Net.wire_push, fetchRecords, if_pos (by decide)]
    rfl

/-- The allocation with the handle in the first word is gone; where bytes are asked for, it has
been sent. -/
theorem handleFetch_done {opts : StreamOptions} (hblk : 0 < opts.blksz.toNat)
    (hfit : ∀ b, opts.Fits lzo b) (hfmt : (s.buf.word 3).toUInt32 = opts.fmt)
    (hblksz : s.buf.word 4 = opts.blksz) (hn : s.net = .wire q [])
    (h : handleFetch lzo s = .done s' ()) :
    (∃ out, s'.net = .wire q out ∧ (0 < s.buf.word 1 → Responds lzo opts out) ∧
        (¬ 0 < s.buf.word 1 → out = [])) ∧
      s.buf.word 0 ∈ s.handles ∧ s'.handles = s.handles \ {s.buf.word 0} := by
  rw [handleFetch] at h
  replace h := bufWord_bind_done h
  obtain ⟨s₁, a, hfind, hrest⟩ := bind_done h
  obtain ⟨rfl, hhandle⟩ := claraFindAllocation_done hfind
  replace hrest := bufWord_bind_done hrest
  replace hrest := bufWord_bind_done hrest
  have hlast := bufWord_bind_done hrest
  rw [hfmt, hblksz] at hlast
  have hfree : ∀ s₂ : State Cl, s₂.allocations = s₁.allocations →
      fetchFree a s₂ = .done s' () → s'.net = s₂.net ∧ s₁.buf.word 0 ∈ s₁.handles ∧
        s'.handles = s₁.handles \ {s₁.buf.word 0} := by
    intro s₂ hall hfreed
    obtain ⟨b, rfl, hnet', hmem, herase⟩ := fetchFree_done hfreed
    have hb := hhandle b rfl
    refine ⟨hnet', ?_, ?_⟩
    · rwa [hb, State.handles_eq hall] at hmem
    · ext handle
      show handle ∈ s'.allocations ↔ _
      rw [herase, hall, hb, IdSet.mem_erase]
      exact and_comm
  by_cases hsize : 0 < s₁.buf.word 1
  · simp only [hsize, if_true] at hlast
    obtain ⟨s₂, _, hrespond, hfreed⟩ := bind_done hlast
    obtain ⟨b, hlen, hnet, hall⟩ := fetchRespond_done hblk hfit hn hrespond
    obtain ⟨hnet', hgone⟩ := hfree s₂ hall hfreed
    exact ⟨⟨_, hnet'.trans hnet, fun _ => ⟨b, hlen, rfl⟩, fun hno => absurd hsize hno⟩, hgone⟩
  · simp only [hsize, if_false] at hlast
    obtain ⟨hnet', hgone⟩ := hfree s₁ rfl hlast
    exact ⟨⟨[], hnet'.trans hn, fun hpos => absurd hpos hsize, fun _ => rfl⟩, hgone⟩

/-- Nothing is sent that the provider would wait in. -/
theorem handleFetch_ne_blocked (hsize : ¬ 0 < s.buf.word 1) : handleFetch lzo s ≠ .blocked := by
  intro h
  simp only [handleFetch, bufWord, bind_run, get_run, Outcome.bind_done] at h
  cases hfind : claraFindAllocation (s.buf.word 0) s with
  | done s₁ a =>
    obtain ⟨rfl, -⟩ := claraFindAllocation_done hfind
    rw [hfind, Outcome.bind_done, if_neg hsize] at h
    exact (leaves_fetchFree a).waits _ h
  | fault f =>
    rw [hfind] at h
    cases h
  | blocked => exact (keeping_claraFindAllocation _).waits _ hfind

/-- A stream that is there whole is taken whole, or not survived. -/
theorem run_streamRecvInto_whole (hl : lzo.Correct) {stp : StreamOptions}
    (hblk : 0 < stp.blksz.toNat)
    (hsize : stp.blksz.toNat + stp.blksz.toNat / 16 + 67 < 2 ^ 64) {data : Bytes}
    (hfuel : (streamRecords lzo stp data).length ≤ fuel) (room len : ℕ) :
    (∃ x, Net.run (streamRecvInto lzo () fuel room len)
      (.wire (Net.incoming (streamRecords lzo stp data) ++ q) []) = .done (.wire q []) x) ∨
    ∃ f, Net.run (streamRecvInto lzo () fuel room len)
      (.wire (Net.incoming (streamRecords lzo stp data) ++ q) []) = .fault f := by
  obtain ⟨blks, hrecords, -⟩ := exists_streamChunks hl hblk hsize data
  rw [hrecords] at hfuel ⊢
  have hinq : ((.wire (Net.incoming (streamChunks stp blks) ++ q) [] : Net Unit) ()).inq =
      Net.incoming (streamChunks stp blks) ++ q := rfl
  obtain ⟨haccepts, hrefuses⟩ := run_streamRecvInto_chunks stp blks room len hinq hfuel
  by_cases h : stp.Accepts lzo stp.blksz.toNat len blks ∧ (stp.decoded lzo blks).length ≤ room
  · left
    have hrun := haccepts h
    rw [Net.wire_withInq] at hrun
    exact ⟨_, hrun⟩
  · exact .inr (hrefuses h)

/-- The stream that belongs to the message is taken, too. -/
theorem handleMemput_whole (hl : lzo.Correct) {stp : StreamOptions} (hblk : 0 < stp.blksz.toNat)
    (hsize : stp.blksz.toNat + stp.blksz.toNat / 16 + 67 < 2 ^ 64) {data : Bytes}
    (hfuel : (streamRecords lzo stp data).length ≤ fuel)
    (hn : s.net = .wire (Net.incoming (streamRecords lzo stp data) ++ q) []) :
    handleMemput lzo fuel s ≠ .blocked ∧ ∀ s', handleMemput lzo fuel s = .done s' () →
      s'.net = .wire q [] ∧ s'.allocations = s.allocations := by
  simp only [handleMemput, bufWord, bind_run, get_run, Outcome.bind_done]
  cases hfind : mappingFindByVirt (s.buf.word 0) s with
  | fault f =>
    refine ⟨?_, ?_⟩
    · intro h
      cases h
    · intro s' h
      cases h
  | blocked => exact ((keeping_mappingFindByVirt _).waits _ hfind).elim
  | done s₁ real =>
    have hkept := (keeping_mappingFindByVirt _).kept _ _ _ hfind
    rw [Outcome.bind_done]
    cases real with
    | none =>
      refine ⟨?_, ?_⟩
      · intro h
        cases h
      · intro s' h
        cases h
    | some real =>
      simp only [bind_run, get_run, Outcome.bind_done]
      rw [net, hkept.net, hn]
      obtain ⟨x, hrun⟩ | ⟨f, hrun⟩ := run_streamRecvInto_whole (q := q) hl hblk hsize hfuel
        (s₁.room real (s₁.buf.word 1).toNat) (s₁.buf.word 2).toNat
      · simp only [hrun, Outcome.bind_done]
        split_ifs
        · refine ⟨?_, ?_⟩
          · intro h
            cases h
          · intro s' h
            obtain ⟨rfl, -⟩ := Outcome.done.inj h
            exact ⟨rfl, hkept.allocations⟩
        · refine ⟨(keeping_store _ _ _).waits _, ?_⟩
          intro s' h
          have hstored := (keeping_store _ _ _).kept _ _ _ h
          exact ⟨hstored.net, hstored.allocations.trans hkept.allocations⟩
      · simp only [hrun]
        refine ⟨?_, ?_⟩
        · intro h
          cases h
        · intro s' h
          cases h

end

/-- A message that the buffer cannot hold ends the loop. -/
theorem providerTurn_tooLong (lzo : Lzo) (fuel : ℕ) (lib : OpenCl Cl) {q : List Incoming}
    {type : MessageType} {msg : Bytes}
    (hn : s.net = .wire (.record (Sent.msg type msg).record :: q) [])
    (hm : recvbufsz < msg.length) : ∃ s₁, providerTurn lzo fuel lib s = .done s₁ false := by
  have hlong : 2 + recvbufsz < (Sent.msg type msg).record.length := by
    rw [Sent.record, List.length_append, Bytes.length_ofNat]
    omega
  have hinq : (s.net ()).inq = .record (Sent.msg type msg).record :: q := by
    rw [hn, Net.wire_apply]
  have hrecv := net_done (s := s) (Net.run_claraRecvmsg_tooLong hinq hlong)
  rw [providerTurn, bind_run, hrecv]
  exact ⟨_, rfl⟩

theorem providerTurn_done {q : List Incoming} {type : MessageType} {msg : Bytes}
    (hn : s.net = .wire (.record (Sent.msg type msg).record :: q) [])
    (h : providerTurn lzo fuel lib s = .done s' true) :
    msg.length ≤ recvbufsz ∧
      handleMessage lzo fuel lib type msg.length (s.received msg q []) = .done s' () := by
  by_cases hm : msg.length ≤ recvbufsz
  · rw [providerTurn_message hn hm] at h
    obtain ⟨s₁, _, hhandle, hrest⟩ := Outcome.bind_eq_done h
    obtain ⟨rfl, -⟩ := Outcome.done.inj hrest
    exact ⟨hm, hhandle⟩
  · obtain ⟨s₁, hend⟩ := providerTurn_tooLong lzo fuel lib hn (not_le.mp hm)
    rw [hend] at h
    cases h

theorem providerMain_done {n : ℕ} (h : providerMain lzo fuel lib (n + 1) s = .done s' true) :
    s' = s ∧ providerTurn lzo fuel lib s = .blocked ∨
      ∃ s₁, providerTurn lzo fuel lib s = .done s₁ true ∧
        providerMain lzo fuel lib n s₁ = .done s' true := by
  rw [providerMain_succ] at h
  cases hturn : providerTurn lzo fuel lib s with
  | done s₁ b =>
    rw [hturn] at h
    cases b with
    | true => exact .inr ⟨s₁, rfl, h⟩
    | false => cases h
  | fault f =>
    rw [hturn] at h
    cases h
  | blocked =>
    rw [hturn] at h
    obtain ⟨rfl, -⟩ := Outcome.done.inj h
    exact .inl ⟨rfl, rfl⟩

/-- With nothing left to take the provider is where it was. -/
theorem providerMain_rest {n : ℕ} {out : List Sent} (hn : s.net = .wire [] out)
    (h : providerMain lzo fuel lib n s = .done s' true) : s' = s := by
  cases n with
  | zero =>
    obtain ⟨rfl, -⟩ := Outcome.done.inj h
    rfl
  | succ n =>
    rw [providerMain_succ, providerTurn_idle hn] at h
    obtain ⟨rfl, -⟩ := Outcome.done.inj h
    rfl

/-- Where the provider gets through the records `rs`, it answers, and holds then, what `P` says.
Else it has stopped in the middle of them. -/
def Answers (lzo : Lzo) (fuel : ℕ) (lib : OpenCl Cl) (rs : List Sent)
    (P : Set Handle → List Sent → Set Handle → Prop) : Prop :=
  ∀ n s s', rs.length < n → s.net = .wire (Net.incoming rs) [] →
    providerMain lzo fuel lib n s = .done s' true →
    (∃ out, s'.net = .wire [] out ∧ P s.handles out s'.handles) ∨
      (s'.net ()).inq ≠ [] ∧ (s'.net ()).sent = []

section
variable {P : Set Handle → List Sent → Set Handle → Prop} {rs : List Sent}

theorem answers_nil : Answers lzo fuel lib [] fun T out T' => out = [] ∧ T' = T := by
  intro n s s' hlen hn h
  obtain rfl := providerMain_rest hn h
  exact .inl ⟨[], hn, rfl, rfl⟩

theorem answers_turn (hne : rs ≠ [])
    (h : ∀ s s', s.net = .wire (Net.incoming rs) [] →
      providerTurn lzo fuel lib s = .done s' true →
      ∃ out, s'.net = .wire [] out ∧ P s.handles out s'.handles) :
    Answers lzo fuel lib rs P := by
  intro n s s' hlen hn hmain
  obtain ⟨n, rfl⟩ := Nat.exists_eq_succ_of_ne_zero (Nat.ne_zero_of_lt hlen)
  obtain ⟨rfl, -⟩ | ⟨s₁, hturn, hrest⟩ := providerMain_done hmain
  · right
    rw [hn, Net.wire_apply]
    exact ⟨fun hnil => hne (List.map_eq_nil_iff.mp hnil), rfl⟩
  · obtain ⟨out, hnet, hp⟩ := h s s₁ hn hturn
    obtain rfl := providerMain_rest hnet hrest
    exact .inl ⟨out, hnet, hp⟩

/-- Records that the provider gets through without an answer, whatever is behind them; of the
handles `T` it holds `f T` then. -/
def Silent (lzo : Lzo) (fuel : ℕ) (lib : OpenCl Cl) (rs : List Sent)
    (f : Set Handle → Set Handle) : Prop :=
  ∀ n s s' q, rs.length < n → s.net = .wire (Net.incoming rs ++ q) [] →
    providerMain lzo fuel lib n s = .done s' true →
    ∃ m s₁, n ≤ m + rs.length ∧ s₁.net = .wire q [] ∧ s₁.handles = f s.handles ∧
      providerMain lzo fuel lib m s₁ = .done s' true

section
variable {rs' : List Sent} {f f' : Set Handle → Set Handle}

theorem silent_nil : Silent lzo fuel lib [] id := by
  intro n s s' q hlen hn h
  exact ⟨n, s, le_rfl, hn, rfl, h⟩

theorem Silent.append (h : Silent lzo fuel lib rs f) (h' : Silent lzo fuel lib rs' f') :
    Silent lzo fuel lib (rs ++ rs') (f' ∘ f) := by
  intro n s s' q hlen hn hmain
  rw [List.length_append] at hlen
  rw [Net.incoming_append, List.append_assoc] at hn
  obtain ⟨m, s₁, hm, hn₁, hs₁, hmain₁⟩ := h n s s' _ (by omega) hn hmain
  obtain ⟨m', s₂, hm', hn₂, hs₂, hmain₂⟩ := h' m s₁ s' q (by omega) hn₁ hmain₁
  refine ⟨m', s₂, ?_, hn₂, ?_, hmain₂⟩
  · rw [List.length_append]
    omega
  · rw [hs₂, hs₁]
    rfl

theorem Silent.answers (h : Silent lzo fuel lib rs f) (ha : Answers lzo fuel lib rs' P) :
    Answers lzo fuel lib (rs ++ rs') fun T out T' => P (f T) out T' := by
  intro n s s' hlen hn hmain
  rw [List.length_append] at hlen
  rw [Net.incoming_append] at hn
  obtain ⟨m, s₁, hm, hn₁, hs₁, hmain₁⟩ := h n s s' _ (by omega) hn hmain
  have hanswer := ha m s₁ s' (by omega) hn₁ hmain₁
  rwa [hs₁] at hanswer

theorem Silent.providerMain_done (h : Silent lzo fuel lib rs f) {n : ℕ} (hlen : rs.length < n)
    (hn : s.net = .wire (Net.incoming rs) [])
    (hmain : providerMain lzo fuel lib n s = .done s' true) :
    s'.net = .wire [] [] ∧ s'.handles = f s.handles := by
  rw [← List.append_nil (Net.incoming rs)] at hn
  obtain ⟨m, s₁, hm, hn₁, hs₁, hmain₁⟩ := h n s s' [] hlen hn hmain
  obtain rfl := providerMain_rest hn₁ hmain₁
  exact ⟨hn₁, hs₁⟩

theorem silent_message {type : MessageType} {msg : Bytes}
    (h : ∀ (s : State Cl) (q : List Incoming), msg.length ≤ recvbufsz →
      handleMessage lzo fuel lib type msg.length
        (s.received msg (Net.incoming rs ++ q) []) ≠ .blocked ∧
      ∀ s', handleMessage lzo fuel lib type msg.length
        (s.received msg (Net.incoming rs ++ q) []) = .done s' () →
          s'.net = .wire q [] ∧ s'.handles = f s.handles) :
    Silent lzo fuel lib (.msg type msg :: rs) f := by
  intro n s s' q hlen hn hmain
  obtain ⟨n, rfl⟩ := Nat.exists_eq_succ_of_ne_zero (Nat.ne_zero_of_lt hlen)
  rw [Net.incoming_cons, List.cons_append] at hn
  obtain ⟨-, hblocked⟩ | ⟨s₁, hturn, hrest⟩ := Provider.providerMain_done hmain
  · exfalso
    by_cases hm : msg.length ≤ recvbufsz
    · rw [providerTurn_message hn hm] at hblocked
      cases hhandle : handleMessage lzo fuel lib type msg.length
          (s.received msg (Net.incoming rs ++ q) []) with
      | done s₁ u =>
        rw [hhandle] at hblocked
        cases hblocked
      | fault f =>
        rw [hhandle] at hblocked
        cases hblocked
      | blocked => exact (h s q hm).1 hhandle
    · obtain ⟨s₁, hend⟩ := providerTurn_tooLong lzo fuel lib hn (not_le.mp hm)
      rw [hend] at hblocked
      cases hblocked
  · obtain ⟨hm, hhandle⟩ := providerTurn_done hn hturn
    obtain ⟨hnet, hhandles⟩ := (h s q hm).2 s₁ hhandle
    refine ⟨n, s₁, ?_, hnet, hhandles, hrest⟩
    rw [List.length_cons]
    omega

theorem silent_mapping (msg : Bytes) :
    Silent lzo fuel lib [.msg Msg.mapping msg] id := by
  apply silent_message
  intro s q hm
  refine ⟨leaves_handleMapping.waits _, ?_⟩
  intro s' hhandle
  obtain ⟨hnet, hall⟩ := Prod.mk.inj (leaves_handleMapping.same _ _ _ hhandle)
  exact ⟨hnet, State.handles_eq hall⟩

theorem silent_free {params : FetchRequest} (hsize : params.size = 0)
    (hblk : 0 < params.streamOpts.blksz.toNat) (hfit : ∀ b, params.streamOpts.Fits lzo b) :
    Silent lzo fuel lib [.msg Msg.fetchRequest params.bytes] fun T => T \ {params.handle} := by
  apply silent_message
  intro s q hm
  have hf := s.took_fetches params
  have hzero : ¬ 0 < (s.received params.bytes (Net.incoming [] ++ q) []).buf.word 1 := by
    have hword : (s.received params.bytes (Net.incoming [] ++ q) []).buf.word 1 = 0 :=
      hf.size.trans hsize
    rw [hword]
    decide
  refine ⟨handleFetch_ne_blocked hzero, ?_⟩
  intro s' hhandle
  obtain ⟨⟨out, hnet, -, hout⟩, -, hhandles⟩ := handleFetch_done hblk hfit hf.fmt hf.blksz
    (s := s.received params.bytes (Net.incoming [] ++ q) []) (by rfl) hhandle
  rw [hout hzero] at hnet
  refine ⟨hnet, ?_⟩
  rw [← hf.handle]
  exact hhandles

theorem silent_memput (hl : lzo.Correct) (msg : Bytes) {stp : StreamOptions}
    (hblk : 0 < stp.blksz.toNat)
    (hsize : stp.blksz.toNat + stp.blksz.toNat / 16 + 67 < 2 ^ 64) {data : Bytes}
    (hfuel : (streamRecords lzo stp data).length ≤ fuel) :
    Silent lzo fuel lib (.msg Msg.memputStream msg :: streamRecords lzo stp data) id := by
  apply silent_message
  intro s q hm
  obtain ⟨hawake, hdone⟩ := handleMemput_whole hl hblk hsize hfuel (q := q)
    (s := s.received msg (Net.incoming (streamRecords lzo stp data) ++ q) []) (by rfl)
  refine ⟨hawake, ?_⟩
  intro s' hhandle
  obtain ⟨hnet, hall⟩ := hdone s' hhandle
  exact ⟨hnet, State.handles_eq hall⟩

end

theorem answers_message {type : MessageType} {msg : Bytes}
    (h : ∀ s s' : State Cl, msg.length ≤ recvbufsz → s.net = .wire [] [] →
      handleMessage lzo fuel lib type msg.length (s.took msg) = .done s' () →
      ∃ out, s'.net = .wire [] out ∧ P s.handles out s'.handles) :
    Answers lzo fuel lib [.msg type msg] P := by
  apply answers_turn (List.cons_ne_nil _ _)
  intro s s' hn hturn
  obtain ⟨hm, hhandle⟩ := providerTurn_done hn hturn
  exact h (s.withNet (.wire [] [])) s' hm rfl hhandle

theorem answers_execute (msg : Bytes) :
    Answers lzo fuel lib [.msg Msg.executeRequest msg] fun T out T' =>
      ∃ w, out = [.msg Msg.executeResponse (Bytes.word w)] ∧ T' = T := by
  apply answers_message
  intro s s' hm hn hhandle
  obtain ⟨w, hnet, hall⟩ := handleExecute_done (s := s.took msg) hn hhandle
  exact ⟨_, hnet, w, rfl, State.handles_eq hall⟩

theorem answers_mapatptr (msg : Bytes) :
    Answers lzo fuel lib [.msg Msg.mapatptrRequest msg] fun T out T' =>
      ∃ w, out = [.msg Msg.mapatptrResponse (Bytes.word w)] ∧ T' = T := by
  apply answers_message
  intro s s' hm hn hhandle
  obtain ⟨w, hnet, hall⟩ := handleMapatptr_done (s := s.took msg) hn hhandle
  exact ⟨_, hnet, w, rfl, State.handles_eq hall⟩

theorem answers_allocate (params : AllocateRequest) (extra : Bytes) :
    Answers lzo fuel lib [.msg Msg.allocateRequest (params.bytes ++ extra)] fun T out T' =>
      ∃ w, out = [.msg Msg.allocateResponse (Bytes.word w)] ∧ w = params.handle ∧
        params.handle ∉ T ∧ T' = insert params.handle T := by
  apply answers_message
  intro s s' hm hn hhandle
  have hword : (s.took (params.bytes ++ extra)).buf.word 0 = params.handle :=
    s.took_word (i := 0) hm rfl
  obtain ⟨hnet, hnew, hall⟩ := handleAllocate_done (s := s.took (params.bytes ++ extra)) hn hhandle
  rw [hword] at hnet hnew hall
  exact ⟨_, hnet, params.handle, rfl, rfl, hnew, hall⟩

theorem answers_fetch {params : FetchRequest} (hsize : 0 < params.size)
    (hblk : 0 < params.streamOpts.blksz.toNat) (hfit : ∀ b, params.streamOpts.Fits lzo b) :
    Answers lzo fuel lib [.msg Msg.fetchRequest params.bytes] fun T out T' =>
      Responds lzo params.streamOpts out ∧ params.handle ∈ T ∧ T' = T \ {params.handle} := by
  apply answers_message
  intro s s' hm hn hhandle
  have hf := s.took_fetches params
  obtain ⟨⟨out, hnet, hout, -⟩, hmem, hhandles⟩ := handleFetch_done hblk hfit hf.fmt hf.blksz
    (s := s.took params.bytes) hn hhandle
  rw [hf.size] at hout
  rw [hf.handle] at hmem hhandles
  exact ⟨out, hnet, hout hsize, hmem, hhandles⟩

end

end Clara.Provider
