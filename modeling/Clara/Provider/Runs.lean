import Clara.Provider.Custody
import Clara.Provider.IdLists
import Clara.Provider.Store

/-! Runs of the provider: one turn of its loop after the other, whatever has arrived and whether or
not its responses can be sent. What holds in every state it reaches. -/
namespace Clara.Provider

open Conc PProg

variable {Cl α β : Type} {lzo : Lzo} {fuel : ℕ} {lib : OpenCl Cl} {s s' : State Cl}

/-- The states in a run in which `G` holds whenever a turn begins. -/
inductive Runs (lzo : Lzo) (fuel : ℕ) (lib : OpenCl Cl) (G : State Cl → Prop) : State Cl → Prop
  | initial (platforms : List Platform) (hp : Registered platforms) (addresses : ℕ → Arg) :
    Runs lzo fuel lib G (.initial lib platforms addresses)
  /-- The connection changes from outside. -/
  | arrive {s : State Cl} (n : Net Unit) (h : Runs lzo fuel lib G s) :
    Runs lzo fuel lib G (s.withNet n)
  | turn {s s' : State Cl} {b : Bool} (h : Runs lzo fuel lib G s) (hg : G s)
    (hrun : providerTurn lzo fuel lib s = .done s' b) : Runs lzo fuel lib G s'

/-- The states of any run. -/
abbrev Reachable (lzo : Lzo) (fuel : ℕ) (lib : OpenCl Cl) : State Cl → Prop :=
  Runs lzo fuel lib fun _ => True

/-- What holds at first and is kept by every turn holds in every state reached. -/
theorem Runs.invariant {G I : State Cl → Prop} (h : Runs lzo fuel lib G s)
    (hinit : ∀ platforms addresses, Registered platforms → I (.initial lib platforms addresses))
    (hnet : ∀ s n, I s → I (s.withNet n))
    (hturn : ∀ s s' b, I s → G s → providerTurn lzo fuel lib s = .done s' b → I s') : I s := by
  induction h with
  | initial platforms hp addresses => exact hinit platforms addresses hp
  | arrive n h ih => exact hnet _ n ih
  | turn h hg hrun ih => exact hturn _ _ _ ih hg hrun

/-- Turns for one message after the other are turns of a run. -/
theorem Reachable.providerMain {k : ℕ} {b : Bool} (h : Reachable lzo fuel lib s)
    (hk : providerMain lzo fuel lib k s = .done s' b) : Reachable lzo fuel lib s' := by
  induction k generalizing s with
  | zero =>
    obtain ⟨rfl, -⟩ := Outcome.done.inj hk
    exact h
  | succ k ih =>
    rw [providerMain_succ] at hk
    cases hturn : providerTurn lzo fuel lib s with
    | done s₁ b₁ =>
      rw [hturn] at hk
      have h₁ : Reachable lzo fuel lib s₁ := .turn h trivial hturn
      cases b₁ with
      | true => exact ih h₁ hk
      | false =>
        obtain ⟨rfl, -⟩ := Outcome.done.inj hk
        exact h₁
    | fault f =>
      rw [hturn] at hk
      cases hk
    | blocked =>
      rw [hturn] at hk
      obtain ⟨rfl, -⟩ := Outcome.done.inj hk
      exact h

theorem Reachable.works {rs out : List Sent} (h : Reachable lzo fuel lib s)
    (hw : Works lzo fuel lib rs out s s') :
    Reachable lzo fuel lib (s'.withNet (.wire [] out)) :=
  Reachable.providerMain (h.arrive _) hw.providerMain

def State.idSets (s : State Cl) : IdSet GlobalId Arg × IdSet Handle Allocation :=
  (s.idMap, s.allocations)

theorem Kept.idSets (h : Kept s s') : s'.idSets = s.idSets := by
  rw [State.idSets, State.idSets, h.idMap, h.allocations]

theorem leaves_net (p : NetProg Unit α) :
    Leaves State.idSets True (PProg.net p : PProg Cl α) where
  same s s' a h := by
    obtain ⟨n, -, rfl⟩ := net_eq_done h
    rfl
  waits _ _ := trivial

theorem leaves_fetchRespond (lzo : Lzo) (a : Option Allocation) (opts : StreamOptions) :
    Leaves State.idSets True (fetchRespond lzo a opts : PProg Cl Unit) := by
  cases a with
  | none => exact leaves_fail _
  | some a =>
    rw [fetchRespond]
    apply Leaves.bind
    · split_ifs
      · exact leaves_pure _
      · exact (keeping_load _ _ _).leaves fun _ _ => Kept.idSets
    · exact fun buf => (leaves_net _).bind fun _ => leaves_pure _

theorem leaves_handleMemput (lzo : Lzo) (fuel : ℕ) :
    Leaves State.idSets True (handleMemput lzo fuel : PProg Cl Unit) := by
  apply (leaves_get _).bind
  intro dst
  apply ((keeping_mappingFindByVirt dst).leaves fun _ _ => Kept.idSets).bind
  intro real
  cases real with
  | none => exact leaves_fail _
  | some real =>
    apply (leaves_get _).bind
    intro offset
    apply (leaves_get _).bind
    intro room
    apply (leaves_get _).bind
    intro len
    apply (leaves_net _).bind
    rintro ⟨n, data⟩
    simp only
    split_ifs
    · exact leaves_pure _
    · exact (keeping_store _ _ _).leaves fun _ _ => Kept.idSets

def State.Next (s : State Cl) (type : MessageType) (msg : Bytes) : Prop :=
  ∃ n, Net.run (claraRecvmsg () recvbufsz) s.net = .done n (.message type msg)

def State.callocPtr (s : State Cl) (nmemb size : UInt64) : Arg :=
  if nmemb.toNat * size.toNat < 2 ^ 64 then s.addresses s.draws else 0

/-- The allocation that the next turn leaves in the sets: its response can be sent. -/
inductive State.Allocates (s : State Cl) : Allocation → Prop
  | intro {msg : Bytes} (h : s.Next Msg.allocateRequest msg)
    (hsend : (s.net ()).sendFails.head? ≠ some true) :
    s.Allocates ⟨(s.took msg).buf.word 0, (s.took msg).buf.word 1, (s.took msg).buf.word 2,
      s.callocPtr ((s.took msg).buf.word 1) ((s.took msg).buf.word 2)⟩

inductive State.Maps (s : State Cl) : GlobalId → Arg → Prop
  | mapping {msg : Bytes} (h : s.Next Msg.mapping msg) :
    s.Maps ((s.took msg).buf.word 0) ((s.took msg).buf.word 1)
  /-- The object is where the second word points to. -/
  | mapatptr {msg : Bytes} {p : Arg} {b : Bytes} (h : s.Next Msg.mapatptrRequest msg)
    (hp : s.idMap.lookup ((s.took msg).buf.word 1) = some p) (hb : s.mem p = some b) :
    s.Maps ((s.took msg).buf.word 0) (b.wordAt 0)

inductive Turned (s s' : State Cl) : Prop
  | same (hi : s'.idMap = s.idMap) (ha : s'.allocations = s.allocations)
  | allocated (a : Allocation) (h : s.Allocates a) (hi : a.handle ∉ s.idMap)
    (ha : a.handle ∉ s.allocations) (hi' : s'.idMap = s.idMap.add a.handle a.ptr)
    (ha' : s'.allocations = s.allocations.add a.handle a)
  | mapped (virt : GlobalId) (real : Arg) (h : s.Maps virt real) (hv : virt ∉ s.idMap)
    (hi' : s'.idMap = s.idMap.add virt real) (ha' : s'.allocations = s.allocations)
  | removed (handle : Handle) (h : handle ∈ s.allocations)
    (hi' : s'.idMap = s.idMap.erase handle) (ha' : s'.allocations = s.allocations.erase handle)

theorem calloc_done {nmemb size : UInt64} {ptr : Arg} (h : calloc nmemb size s = .done s' ptr) :
    ptr = s.callocPtr nmemb size := by
  rw [calloc] at h
  rw [State.callocPtr]
  split_ifs at h ⊢
  · simp only [bind_run, get_run, modify_run, Outcome.bind_done] at h
    split_ifs at h
    · obtain ⟨-, rfl⟩ := Outcome.done.inj h
      rfl
    · obtain ⟨-, rfl⟩ := Outcome.done.inj h
      rfl
  · obtain ⟨-, rfl⟩ := Outcome.done.inj h
    rfl

private theorem removed_done {handle : Handle} {ptr : Arg} {x y z : Assertion}
    (hs : s.idMap.damaged = false ∧ s.allocations.damaged = false)
    (hrun : (do
      assert (← mappingFindByVirt handle).isSome x
      assert (← mappingRemove handle) y
      assert (← allocationRemove handle) z
      free ptr : PProg Cl Unit) s = .done s' ()) :
    handle ∈ s.allocations ∧ s'.idMap = s.idMap.erase handle ∧
      s'.allocations = s.allocations.erase handle := by
  rw [bind_run, mappingFindByVirt_run hs.1, Outcome.bind_done] at hrun
  obtain ⟨-, hrest⟩ := assert_bind_done hrun
  rw [bind_run, mappingRemove_run hs.1, Outcome.bind_done] at hrest
  obtain ⟨-, hrest⟩ := assert_bind_done hrest
  rw [bind_run, allocationRemove_run (by exact hs.2), Outcome.bind_done] at hrest
  obtain ⟨hmem, hrest⟩ := assert_bind_done hrest
  have hkept := (keeping_free _).kept _ _ _ hrest
  exact ⟨of_decide_eq_true hmem, hkept.idMap, hkept.allocations⟩

/-- An ALLOCATE request enters the allocation, or takes it out again when the response cannot be
sent. -/
private theorem handleAllocate_cases {ssz : ℕ} (hs : s.Sound)
    (hrun : handleAllocate ssz s = .done s' ()) :
    ∃ a : Allocation, a = ⟨s.buf.word 0, s.buf.word 1, s.buf.word 2,
        s.callocPtr (s.buf.word 1) (s.buf.word 2)⟩ ∧
      a.handle ∉ s.idMap ∧ a.handle ∉ s.allocations ∧
      (s'.idMap = s.idMap ∧ s'.allocations = s.allocations ∨
        (s.net ()).sendFails.head? ≠ some true ∧ s'.idMap = s.idMap.add a.handle a.ptr ∧
          s'.allocations = s.allocations.add a.handle a) := by
  rw [handleAllocate] at hrun
  replace hrun := bufWord_bind_done hrun
  replace hrun := bufWord_bind_done hrun
  replace hrun := bufWord_bind_done hrun
  obtain ⟨s₁, a, hcreate, hrest⟩ := bind_done hrun
  obtain ⟨s₀, ptr, hcalloc, hpure⟩ := bind_done hcreate
  obtain ⟨rfl, rfl⟩ := Outcome.done.inj hpure
  obtain ⟨hnet₀, hi₀, ha₀, -⟩ := (keeping_calloc _ _).kept _ _ _ hcalloc
  obtain rfl := calloc_done hcalloc
  rw [bind_run, allocationInsert_run (by rw [ha₀, hs.allocations]), Outcome.bind_done] at hrest
  obtain ⟨hnew, hrest⟩ := assert_bind_done hrest
  rw [bind_run, mappingInsert_run (by exact hi₀ ▸ hs.idMap), Outcome.bind_done] at hrest
  obtain ⟨hnew', hrest⟩ := assert_bind_done hrest
  obtain ⟨a, ha⟩ : ∃ a : Allocation, a = ⟨s.buf.word 0, s.buf.word 1, s.buf.word 2,
    s.callocPtr (s.buf.word 1) (s.buf.word 2)⟩ := ⟨_, rfl⟩
  have hi : a.handle ∉ s.idMap := by
    rw [ha, ← hi₀]
    exact of_decide_eq_true hnew'
  have hal : a.handle ∉ s.allocations := by
    rw [ha, ← ha₀]
    exact of_decide_eq_true hnew
  refine ⟨a, ha, hi, hal, ?_⟩
  have hsend : ∀ s₂ : State Cl, s₂.net = s.net → s₂.idMap = s.idMap.add a.handle a.ptr →
      s₂.allocations = s.allocations.add a.handle a → (do
        if ← PProg.net (claraSendAllocateResponse () a.handle) then pure ()
        else allocateUndo a : PProg Cl Unit) s₂ = .done s' () →
      s'.idMap = s.idMap ∧ s'.allocations = s.allocations ∨
        (s.net ()).sendFails.head? ≠ some true ∧ s'.idMap = s.idMap.add a.handle a.ptr ∧
          s'.allocations = s.allocations.add a.handle a := by
    intro s₂ hn₂ hi₂ ha₂ hlast
    obtain ⟨s₃, b, hnet, hlast⟩ := bind_done hlast
    obtain ⟨hi₃, ha₃⟩ := Prod.mk.inj ((leaves_net _).same _ _ _ hnet)
    cases b with
    | true =>
      obtain ⟨rfl, -⟩ := Outcome.done.inj hlast
      refine .inr ⟨fun hfails => ?_, hi₃.trans hi₂, ha₃.trans ha₂⟩
      obtain ⟨n, hn, -⟩ := net_eq_done hnet
      rw [hn₂, claraSendAllocateResponse, Net.run_bind, Net.run_claraSendmsg_failed hfails] at hn
      cases hn
    | false =>
      left
      have hsound : s₃.idMap.damaged = false ∧ s₃.allocations.damaged = false := by
        rw [hi₃, hi₂, ha₃, ha₂, IdSet.damaged_add, IdSet.damaged_add, hs.idMap, hs.allocations,
          decide_eq_false hi, decide_eq_false hal]
        exact ⟨rfl, rfl⟩
      obtain ⟨-, hi', ha'⟩ := removed_done hsound hlast
      rw [hi', ha', hi₃, hi₂, ha₃, ha₂, IdSet.erase_add hi, IdSet.erase_add hal]
      exact ⟨rfl, rfl⟩
  rw [← ha] at hrest
  by_cases hssz : ssz = 32
  · rw [if_neg (not_not_intro hssz)] at hrest
    exact hsend { s₀ with
        idMap := s₀.idMap.add a.handle a.ptr
        allocations := s₀.allocations.add a.handle a } hnet₀
      (congrArg (IdSet.add · a.handle a.ptr) hi₀) (congrArg (IdSet.add · a.handle a) ha₀) hrest
  · rw [if_pos hssz] at hrest
    obtain ⟨s₂, _, hinit, hlast⟩ := bind_done hrest
    obtain ⟨hnet₂, hi₂, ha₂, -⟩ := (keeping_allocateInit _).kept _ _ _ hinit
    refine hsend s₂ (hnet₂.trans hnet₀) ?_ ?_ hlast
    · exact hi₂.trans (congrArg (IdSet.add · a.handle a.ptr) hi₀)
    · exact ha₂.trans (congrArg (IdSet.add · a.handle a) ha₀)

/-- A MAPATPTR request enters what is at the pointer, if it is known. -/
private theorem mapatptr_cases (hs : s.Sound) {virt ptr : GlobalId} {real : Arg}
    (hrun : mapatptr virt ptr s = .done s' real) :
    s'.allocations = s.allocations ∧ (s'.idMap = s.idMap ∨
      ∃ p b, s.idMap.lookup ptr = some p ∧ s.mem p = some b ∧ virt ∉ s.idMap ∧
        s'.idMap = s.idMap.add virt (b.wordAt 0)) := by
  rw [mapatptr, bind_run, mappingFindByVirt_run hs.idMap, Outcome.bind_done] at hrun
  cases hp : s.idMap.lookup ptr with
  | none =>
    rw [hp] at hrun
    obtain ⟨rfl, -⟩ := Outcome.done.inj hrun
    exact ⟨rfl, .inl rfl⟩
  | some p =>
    rw [hp] at hrun
    obtain ⟨s₁, w, hload, hrest⟩ := bind_done hrun
    obtain ⟨rfl, b, hb, -, rfl⟩ := loadWord_done hload
    rw [bind_run, mappingInsert_run hs.idMap, Outcome.bind_done] at hrest
    obtain ⟨hnew, hrest⟩ := assert_bind_done hrest
    have hstore : Keeping (store p 0 (Bytes.word virt) >>= fun _ => pure (b.wordAt 0) :
        PProg Cl Arg) := (keeping_store _ _ _).bind fun _ => keeping_pure _
    have hkept := hstore.kept _ _ _ hrest
    exact ⟨hkept.allocations,
      .inr ⟨p, b, rfl, hb, of_decide_eq_true hnew, hkept.idMap⟩⟩

/-- A FETCH request takes an allocation out of both sets. -/
private theorem handleFetch_cases (hs : s.Sound) (hrun : handleFetch lzo s = .done s' ()) :
    ∃ handle ∈ s.allocations, s'.idMap = s.idMap.erase handle ∧
      s'.allocations = s.allocations.erase handle := by
  rw [handleFetch] at hrun
  replace hrun := bufWord_bind_done hrun
  obtain ⟨s₁, a, hfind, hrest⟩ := bind_done hrun
  obtain ⟨rfl, -⟩ := claraFindAllocation_done hfind
  replace hrest := bufWord_bind_done hrest
  replace hrest := bufWord_bind_done hrest
  have hlast := bufWord_bind_done hrest
  have hfree : ∀ s₂ : State Cl, s₂.idMap = s₁.idMap ∧ s₂.allocations = s₁.allocations →
      fetchFree a s₂ = .done s' () → ∃ handle ∈ s₁.allocations,
        s'.idMap = s₁.idMap.erase handle ∧ s'.allocations = s₁.allocations.erase handle := by
    rintro s₂ ⟨hi, ha⟩ hfreed
    cases a with
    | none => cases hfreed
    | some a =>
      obtain ⟨hmem, hi', ha'⟩ := removed_done ⟨by rw [hi, hs.idMap], by rw [ha, hs.allocations]⟩ hfreed
      rw [ha] at hmem
      exact ⟨a.handle, hmem, by rw [hi', hi], by rw [ha', ha]⟩
  by_cases hsize : 0 < s₁.buf.word 1
  · simp only [hsize, if_true] at hlast
    obtain ⟨s₂, _, hrespond, hfreed⟩ := bind_done hlast
    exact hfree s₂ (Prod.mk.inj ((leaves_fetchRespond _ _ _).same _ _ _ hrespond)) hfreed
  · simp only [hsize, if_false] at hlast
    exact hfree s₁ ⟨rfl, rfl⟩ hlast

private theorem turned_message {s₁ : State Cl} {n : Net Unit} {type : MessageType} {msg : Bytes}
    {ssz : ℕ} (hs : s.Sound)
    (hrecv : Net.run (claraRecvmsg () recvbufsz) s.net = .done n (.message type msg))
    (hs₁ : s₁ = (s.took msg).withNet n)
    (hrun : handleMessage lzo fuel lib type ssz s₁ = .done s' ()) : Turned s s' := by
  have hsound : s₁.Sound := by
    rw [hs₁]
    exact (hs.took msg).withNet n
  have hi : s₁.idMap = s.idMap := by rw [hs₁]; rfl
  have ha : s₁.allocations = s.allocations := by rw [hs₁]; rfl
  have hbuf : s₁.buf = (s.took msg).buf := by rw [hs₁]; rfl
  have hleaves : ∀ {p : PProg Cl Unit}, Leaves State.idSets True p → p s₁ = .done s' () →
      Turned s s' := by
    intro p hp hdone
    obtain ⟨hi', ha'⟩ := Prod.mk.inj (hp.same _ _ _ hdone)
    exact .same (hi'.trans hi) (ha'.trans ha)
  rw [handleMessage] at hrun
  split_ifs at hrun with _ hallocate _ hmapping hmapatptr
  · exact hleaves ((leaves_get _).bind fun _ => (leaves_net _).bind fun _ => leaves_pure _) hrun
  · subst hallocate
    obtain ⟨a, ha₀, hnew, hnew', hcase⟩ := handleAllocate_cases hsound hrun
    have hptr : ∀ nmemb size, s₁.callocPtr nmemb size = s.callocPtr nmemb size := by
      intro nmemb size
      rw [hs₁]
      rfl
    rw [hbuf, hptr] at ha₀
    rw [hi] at hnew
    rw [ha] at hnew'
    rw [hi, ha] at hcase
    rcases hcase with ⟨hi', ha'⟩ | ⟨hsend, hi', ha'⟩
    · exact .same hi' ha'
    · have hsend' : (s.net ()).sendFails.head? ≠ some true := by
        rw [← Net.run_claraRecvmsg_sendFails hrecv]
        rwa [hs₁] at hsend
      have hallocates : s.Allocates a := by
        rw [ha₀]
        exact .intro ⟨n, hrecv⟩ hsend'
      exact .allocated a hallocates hnew hnew' hi' ha'
  · exact hleaves (((keeping_claraExecute lib 0).leaves fun _ _ => Kept.idSets).bind fun _ =>
      (leaves_net _).bind fun _ => leaves_assert _ _) hrun
  · subst hmapping
    replace hrun := bufWord_bind_done hrun
    replace hrun := bufWord_bind_done hrun
    rw [bind_run, mappingInsert_run hsound.idMap, Outcome.bind_done] at hrun
    obtain ⟨rfl, hnew⟩ := assert_done hrun
    have hv := of_decide_eq_true hnew
    rw [hbuf, hi] at hv
    refine .mapped _ _ (.mapping ⟨n, hrecv⟩) hv ?_ ha
    show s₁.idMap.add _ _ = _
    rw [hbuf, hi]
  · subst hmapatptr
    replace hrun := bufWord_bind_done hrun
    replace hrun := bufWord_bind_done hrun
    obtain ⟨s₂, real, hmap, hrest⟩ := bind_done hrun
    obtain ⟨hi₂, ha₂⟩ := Prod.mk.inj
      (((leaves_net _).bind fun _ => leaves_assert _ _).same _ _ _ hrest)
    obtain ⟨ha', hsame | ⟨p, b, hp, hb, hv, hi'⟩⟩ := mapatptr_cases hsound hmap
    · exact .same (hi₂.trans (hsame.trans hi)) (ha₂.trans (ha'.trans ha))
    · rw [hbuf, hi] at hv hi' hp
      have hb' : s.mem p = some b := by
        rwa [hs₁] at hb
      exact .mapped _ _ (.mapatptr ⟨n, hrecv⟩ hp hb') hv (hi₂.trans hi') (ha₂.trans (ha'.trans ha))
  · exact hleaves (leaves_handleMemput lzo fuel) hrun
  · obtain ⟨handle, hmem, hi', ha'⟩ := handleFetch_cases hsound hrun
    rw [hi] at hi'
    rw [ha] at hmem ha'
    exact .removed handle hmem hi' ha'
  · exact hleaves (leaves_pure ()) hrun

theorem State.Sound.turned (hs : s.Sound) {b : Bool}
    (hrun : providerTurn lzo fuel lib s = .done s' b) : Turned s s' := by
  rw [providerTurn] at hrun
  obtain ⟨s₁, r, hrecv, hrest⟩ := bind_done hrun
  obtain ⟨n, hn, rfl⟩ := net_eq_done hrecv
  cases r with
  | failed =>
    obtain ⟨rfl, -⟩ := Outcome.done.inj hrest
    exact .same rfl rfl
  | notification msg =>
    obtain ⟨rfl, -⟩ := Outcome.done.inj hrest
    exact .same rfl rfl
  | message type msg =>
    obtain ⟨s₂, u, hbuf, hrest⟩ := bind_done hrest
    obtain ⟨rfl, -⟩ := Outcome.done.inj hbuf
    obtain ⟨s₃, u', hhandle, hrest⟩ := bind_done hrest
    obtain ⟨rfl, -⟩ := Outcome.done.inj hrest
    exact turned_message hs hn rfl hhandle

structure State.Paired (s : State Cl) : Prop where
  sound : s.Sound
  mapped : ∀ handle a, s.allocations.lookup handle = some a → s.idMap.lookup handle = some a.ptr

theorem State.Paired.of_same (h : s.Paired) (hi : s'.idMap = s.idMap)
    (ha : s'.allocations = s.allocations) : s'.Paired where
  sound := ⟨by rw [hi, h.sound.idMap], by rw [ha, h.sound.allocations],
    by rw [ha]; exact h.sound.keyed⟩
  mapped := by
    rw [hi, ha]
    exact h.mapped

theorem State.Paired.insert_idMap (h : s.Paired) {virt : GlobalId} (hv : virt ∉ s.idMap)
    (real : Arg) (hi : s'.idMap = s.idMap.add virt real) (ha : s'.allocations = s.allocations) :
    s'.Paired where
  sound := by
    refine ⟨?_, by rw [ha, h.sound.allocations], by rw [ha]; exact h.sound.keyed⟩
    rw [hi, IdSet.damaged_add, h.sound.idMap, decide_eq_false hv]
    rfl
  mapped handle a hlook := by
    rw [ha] at hlook
    have hmap := h.mapped handle a hlook
    have hne : handle ≠ virt := fun heq => hv (heq ▸ IdSet.mem_of_lookup hmap)
    rw [hi, IdSet.lookup_add hv, if_neg hne, hmap]

theorem State.Paired.insert (h : s.Paired) {a : Allocation} (hi : a.handle ∉ s.idMap)
    (ha : a.handle ∉ s.allocations) (hi' : s'.idMap = s.idMap.add a.handle a.ptr)
    (ha' : s'.allocations = s.allocations.add a.handle a) : s'.Paired where
  sound := by
    refine ⟨?_, ?_, fun handle b hlook => ?_⟩
    · rw [hi', IdSet.damaged_add, h.sound.idMap, decide_eq_false hi]
      rfl
    · rw [ha', IdSet.damaged_add, h.sound.allocations, decide_eq_false ha]
      rfl
    · rw [ha', IdSet.lookup_add ha] at hlook
      split_ifs at hlook with heq
      · rw [← Option.some.inj hlook, heq]
      · exact h.sound.keyed handle b hlook
  mapped handle b hlook := by
    rw [ha', IdSet.lookup_add ha] at hlook
    rw [hi', IdSet.lookup_add hi]
    split_ifs at hlook ⊢ with heq
    · rw [Option.some.inj hlook]
    · exact h.mapped handle b hlook

theorem State.Paired.erase (h : s.Paired) {handle : Handle}
    (hi : s'.idMap = s.idMap.erase handle) (ha : s'.allocations = s.allocations.erase handle) :
    s'.Paired where
  sound := by
    refine ⟨by rw [hi]; exact h.sound.idMap, by rw [ha]; exact h.sound.allocations,
      fun handle' a hlook => ?_⟩
    rw [ha, IdSet.lookup_erase] at hlook
    split_ifs at hlook
    exact h.sound.keyed handle' a hlook
  mapped handle' a hlook := by
    rw [ha, IdSet.lookup_erase] at hlook
    rw [hi, IdSet.lookup_erase]
    split_ifs at hlook ⊢
    exact h.mapped handle' a hlook

theorem State.Paired.turned (h : s.Paired) (ht : Turned s s') : s'.Paired := by
  cases ht with
  | same hi ha => exact h.of_same hi ha
  | allocated a _ hi ha hi' ha' => exact h.insert hi ha hi' ha'
  | mapped virt real _ hv hi' ha' => exact h.insert_idMap hv real hi' ha'
  | removed handle _ hi' ha' => exact h.erase hi' ha'

/-- In every state of every run the id of an allocation stands for its buffer. -/
theorem Runs.paired {G : State Cl → Prop} (h : Runs lzo fuel lib G s) : s.Paired := by
  apply h.invariant
  · intro platforms addresses hp
    exact ⟨(refines_initial lib hp addresses).sound,
      fun _ _ hlook => absurd (IdSet.mem_of_lookup hlook) (IdSet.not_mem_empty _)⟩
  · intro s n hs
    exact hs.of_same rfl rfl
  · intro s s' b hs _ hrun
    exact hs.turned (hs.sound.turned hrun)

end Clara.Provider
