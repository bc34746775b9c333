import Clara.Lib.Serve
import Clara.Provider.Execute

/-! What the handlers of EXECUTE requests leave alone: the connection, the id map, the
allocations and the platforms change in other messages only. -/
namespace Clara.Provider

open Conc PProg

variable {Cl α β : Type}

/-- The provider with another network. -/
def State.withNet (s : State Cl) (n : Net Unit) : State Cl := { s with net := n }

section
variable (s : State Cl) (n m : Net Unit)

@[simp] theorem State.withNet_net : (s.withNet n).net = n := rfl

@[simp] theorem State.withNet_buf : (s.withNet n).buf = s.buf := rfl

@[simp] theorem State.withNet_idMap : (s.withNet n).idMap = s.idMap := rfl

@[simp] theorem State.withNet_allocations : (s.withNet n).allocations = s.allocations := rfl

@[simp] theorem State.withNet_mem : (s.withNet n).mem = s.mem := rfl

@[simp] theorem State.withNet_addresses : (s.withNet n).addresses = s.addresses := rfl

@[simp] theorem State.withNet_draws : (s.withNet n).draws = s.draws := rfl

@[simp] theorem State.withNet_withNet : (s.withNet n).withNet m = s.withNet m := rfl

end

/-- A program that leaves `f` alone, and waits only if `w`. -/
structure Leaves {γ : Type} (f : State Cl → γ) (w : Prop) (p : PProg Cl α) : Prop where
  same : ∀ s s' a, p s = .done s' a → f s' = f s
  waits : ∀ s, p s = .blocked → w

section
variable {γ δ : Type} {f : State Cl → γ} {w : Prop} {p : PProg Cl α}

theorem leaves_pure (a : α) : Leaves f w (pure a) where
  same s s' b h := by
    obtain ⟨rfl, -⟩ := Outcome.done.inj h
    rfl
  waits _ h := by cases h

theorem leaves_fail (e : Fault) : Leaves f w (fail e : PProg Cl α) where
  same _ _ _ h := by cases h
  waits _ h := by cases h

theorem leaves_get (g : State Cl → α) : Leaves f w (get g) where
  same s s' b h := by
    obtain ⟨rfl, -⟩ := Outcome.done.inj h
    rfl
  waits _ h := by cases h

theorem leaves_modify {g : State Cl → State Cl} (hg : ∀ s, f (g s) = f s) :
    Leaves f w (modify g) where
  same s s' b h := by
    obtain ⟨rfl, -⟩ := Outcome.done.inj h
    exact hg s
  waits _ h := by cases h

theorem Leaves.bind {k : α → PProg Cl β} (hp : Leaves f w p) (hk : ∀ a, Leaves f w (k a)) :
    Leaves f w (p >>= k) where
  same s s' b h := by
    obtain ⟨s₁, a, h₁, h₂⟩ := Outcome.bind_eq_done h
    exact ((hk a).same s₁ s' b h₂).trans (hp.same s s₁ a h₁)
  waits s h := by
    rw [bind_run] at h
    cases hrun : p s with
    | done s₁ a =>
      rw [hrun] at h
      exact (hk a).waits s₁ h
    | fault e =>
      rw [hrun] at h
      cases h
    | blocked => exact hp.waits s hrun

theorem leaves_assert (b : Bool) (a : Assertion) : Leaves f w (assert b a : PProg Cl Unit) := by
  cases b with
  | true => exact leaves_pure ()
  | false => exact leaves_fail _

theorem leaves_ofSet (x : Option α) : Leaves f w (ofSet x : PProg Cl α) := by
  cases x with
  | none => exact leaves_fail _
  | some a => exact leaves_pure a

/-- Less is asked of a part of what is left alone, or when waiting is allowed. -/
theorem Leaves.weaken {g : State Cl → δ} {v : Prop} (h : Leaves f w p)
    (hg : ∀ s s', f s' = f s → g s' = g s) (hv : w → v) : Leaves g v p where
  same s s' a hrun := hg s s' (h.same s s' a hrun)
  waits s hrun := hv (h.waits s hrun)

end

/-- All but the memory, the receive buffer, the draws and the library. -/
def State.frame (s : State Cl) :
    Net Unit × IdSet GlobalId Arg × IdSet Handle Allocation × List Platform :=
  (s.net, s.idMap, s.allocations, s.platforms)

structure Kept (s s' : State Cl) : Prop where
  net : s'.net = s.net
  idMap : s'.idMap = s.idMap
  allocations : s'.allocations = s.allocations
  platforms : s'.platforms = s.platforms

theorem Kept.of_frame {s s' : State Cl} (h : s'.frame = s.frame) : Kept s s' where
  net := congrArg (fun x => x.1) h
  idMap := congrArg (fun x => x.2.1) h
  allocations := congrArg (fun x => x.2.2.1) h
  platforms := congrArg (fun x => x.2.2.2) h

/-- A program that makes no other difference, and does not look at the network. -/
structure Keeping (p : PProg Cl α) : Prop extends Leaves State.frame False p where
  blind : ∀ s n, p (s.withNet n) = (p s).map (fun s => s.withNet n) id

theorem Keeping.kept {p : PProg Cl α} (h : Keeping p) (s s' : State Cl) (a : α)
    (hrun : p s = .done s' a) : Kept s s' := .of_frame (h.same s s' a hrun)

theorem Keeping.leaves {γ : Type} {f : State Cl → γ} {w : Prop} {p : PProg Cl α} (h : Keeping p)
    (hf : ∀ s s', Kept s s' → f s' = f s) : Leaves f w p :=
  h.toLeaves.weaken (fun s s' hs => hf s s' (.of_frame hs)) False.elim

theorem keeping_pure (a : α) : Keeping (pure a : PProg Cl α) := ⟨leaves_pure a, fun _ _ => rfl⟩

theorem Keeping.bind {p : PProg Cl α} {f : α → PProg Cl β} (hp : Keeping p)
    (hf : ∀ a, Keeping (f a)) : Keeping (p >>= f) where
  toLeaves := hp.toLeaves.bind fun a => (hf a).toLeaves
  blind s n := by
    rw [bind_run, bind_run, hp.blind s n]
    cases p s with
    | done s₁ a => exact (hf a).blind s₁ n
    | fault f => rfl
    | blocked => rfl

theorem keeping_get {f : State Cl → α} (hf : ∀ s n, f (s.withNet n) = f s) : Keeping (get f) where
  toLeaves := leaves_get f
  blind s n := by rw [get_run, hf s n, get_run, Outcome.map_done]

theorem keeping_modify {f : State Cl → State Cl} (hf : ∀ s, (f s).frame = s.frame)
    (hn : ∀ s n, f (s.withNet n) = (f s).withNet n) : Keeping (modify f) where
  toLeaves := leaves_modify hf
  blind s n := by rw [modify_run, hn s n, modify_run, Outcome.map_done]

theorem keeping_buf {f : State Cl → Buffer recvbufsz} (hf : ∀ s n, f (s.withNet n) = f s) :
    Keeping (modify fun s => { s with buf := f s }) :=
  keeping_modify (fun _ => rfl) fun s n => by
    rw [hf s n]
    rfl

theorem keeping_fail (f : Fault) : Keeping (fail f : PProg Cl α) :=
  ⟨leaves_fail f, fun _ _ => rfl⟩

theorem keeping_assert (b : Bool) (a : Assertion) : Keeping (assert b a : PProg Cl Unit) := by
  cases b with
  | true => exact keeping_pure ()
  | false => exact keeping_fail _

theorem keeping_ofSet (x : Option α) : Keeping (ofSet x : PProg Cl α) := by
  cases x with
  | none => exact keeping_fail _
  | some a => exact keeping_pure a

theorem keeping_load (ptr : Arg) (off n : ℕ) : Keeping (load ptr off n : PProg Cl Bytes) := by
  refine (keeping_get fun _ _ => rfl).bind fun b => ?_
  cases b with
  | none => exact keeping_fail _
  | some b =>
    simp only
    split_ifs
    · exact keeping_pure _
    · exact keeping_fail _

theorem keeping_store (ptr : Arg) (off : ℕ) (v : Bytes) :
    Keeping (store ptr off v : PProg Cl Unit) := by
  refine (keeping_get fun _ _ => rfl).bind fun b => ?_
  cases b with
  | none => exact keeping_fail _
  | some b =>
    simp only
    split_ifs
    · exact keeping_modify (fun _ => rfl) fun _ _ => rfl
    · exact keeping_fail _

theorem keeping_loadWord (ptr : Arg) (i : ℕ) : Keeping (loadWord ptr i : PProg Cl Arg) :=
  (keeping_load _ _ _).bind fun _ => keeping_pure _

theorem keeping_calloc (nmemb size : UInt64) : Keeping (calloc nmemb size : PProg Cl Arg) := by
  unfold calloc
  split_ifs
  · refine (keeping_get fun _ _ => rfl).bind fun ptr => Keeping.bind ?_ fun _ => ?_
    · exact keeping_modify (fun _ => rfl) fun _ _ => rfl
    split_ifs
    · refine Keeping.bind ?_ fun _ => keeping_pure ptr
      exact keeping_modify (fun _ => rfl) fun _ _ => rfl
    · exact keeping_pure ptr
  · exact keeping_pure 0

theorem keeping_free (ptr : Arg) : Keeping (free ptr : PProg Cl Unit) := by
  unfold free
  split_ifs
  · exact keeping_pure ()
  · exact keeping_modify (fun _ => rfl) fun _ _ => rfl

theorem keeping_claraFindAllocation (handle : Handle) :
    Keeping (claraFindAllocation handle : PProg Cl (Option Allocation)) :=
  (keeping_get fun _ _ => rfl).bind fun _ => (keeping_ofSet _).bind fun _ => keeping_pure _

theorem keeping_mappingFindByVirt (virt : GlobalId) :
    Keeping (mappingFindByVirt virt : PProg Cl (Option Arg)) :=
  (keeping_get fun _ _ => rfl).bind fun _ => keeping_ofSet _

theorem keeping_mappingFindByReal (real : Arg) :
    Keeping (mappingFindByReal real : PProg Cl (Option GlobalId)) :=
  (keeping_get fun _ _ => rfl).bind fun _ => (keeping_ofSet _).bind fun _ => keeping_get fun _ _ => rfl

private theorem keeping_translate_go (virtList realList : Arg) (n i : ℕ) :
    Keeping (mappingTranslateListToReal.go virtList realList n i : PProg Cl ℕ) := by
  induction n generalizing i with
  | zero => exact keeping_pure i
  | succ n ih =>
    refine (keeping_loadWord _ _).bind fun w => (keeping_mappingFindByVirt w).bind fun r => ?_
    cases r with
    | none => exact keeping_pure i
    | some real => exact (keeping_store _ _ _).bind fun _ => ih (i + 1)

theorem keeping_mappingTranslateListToReal (virtList realList : Arg) (n : ℕ) :
    Keeping (mappingTranslateListToReal virtList realList n : PProg Cl ℕ) := by
  unfold mappingTranslateListToReal
  split_ifs
  · exact keeping_pure 0
  · exact keeping_translate_go _ _ _ _

section
variable (lib : OpenCl Cl)

theorem keeping_callCl (f : ClFunction) (args : List Arg) : Keeping (callCl lib f args) where
  same s s' a h := by
    obtain ⟨rfl, -⟩ := Outcome.done.inj h
    rfl
  waits _ h := by cases h
  blind _ _ := rfl

theorem keeping_claraPassOn (f : ClFunction) (args : (ℕ → Arg) → List Arg) (argv : ℕ → Arg) :
    Keeping (claraPassOn lib f args argv) :=
  (keeping_callCl lib _ _).bind fun _ => keeping_pure _

theorem keeping_claraEnqueue (f : ClFunction) (n l : ℕ) (args : (ℕ → Arg) → List Arg)
    (argv : ℕ → Arg) : Keeping (claraEnqueue lib f n l args argv) :=
  (keeping_mappingTranslateListToReal _ _ _).bind fun _ => (keeping_assert _ _).bind fun _ =>
    (keeping_callCl lib _ _).bind fun _ => keeping_pure _

theorem keeping_copyErrcode (ptr : Arg) (errcode : UInt32) :
    Keeping (copyErrcode ptr errcode : PProg Cl Unit) := by
  unfold copyErrcode
  split_ifs
  · exact keeping_pure ()
  · exact keeping_store _ _ _

private theorem keeping_contextPlatform (properties : Arg) (fuel i : ℕ) (platform : Arg) :
    Keeping (contextPlatform properties fuel i platform : PProg Cl Arg) := by
  induction fuel generalizing i platform with
  | zero => exact keeping_fail _
  | succ fuel ih =>
    refine (keeping_loadWord _ _).bind fun prop => ?_
    split_ifs
    · exact keeping_pure _
    · exact (keeping_loadWord _ _).bind fun _ => ih _ _
    · exact ih _ _

private theorem keeping_contextReplace (properties id : Arg) (fuel i : ℕ) :
    Keeping (contextReplace properties id fuel i : PProg Cl Unit) := by
  induction fuel generalizing i with
  | zero => exact keeping_fail _
  | succ fuel ih =>
    refine (keeping_loadWord _ _).bind fun prop => ?_
    split_ifs
    · exact keeping_pure _
    · exact (keeping_store _ _ _).bind fun _ => ih _
    · exact (keeping_pure _).bind fun _ => ih _

private theorem keeping_contextProperties (properties : Arg) :
    Keeping (contextProperties properties : PProg Cl Platform) := by
  refine (keeping_get fun _ _ => rfl).bind fun block =>
    (keeping_contextPlatform _ _ _ _).bind fun id =>
      (keeping_get fun _ _ => rfl).bind fun platforms => ?_
  cases platforms.find? fun platform => platform.globalId == id with
  | none => exact keeping_fail _
  | some platform => exact (keeping_contextReplace _ _ _ _).bind fun _ => keeping_pure _

private theorem keeping_contextDevices (platform : Platform) (devices : Arg) (n i : ℕ) :
    Keeping (contextDevices platform devices n i : PProg Cl Unit) := by
  induction n generalizing i with
  | zero => exact keeping_pure ()
  | succ n ih =>
    refine (keeping_loadWord _ _).bind fun id => ?_
    cases platform.devices.find? fun device => device.globalId == id with
    | none => exact keeping_fail _
    | some device =>
      refine (keeping_store _ _ _).bind fun _ => ?_
      split_ifs
      · exact ih _
      · exact keeping_fail _

private theorem keeping_claraClCreateContext (argv : ℕ → Arg) :
    Keeping (claraClCreateContext lib argv) :=
  (keeping_contextProperties _).bind fun _ => (keeping_contextDevices _ _ _ _).bind fun _ =>
    (keeping_callCl lib _ _).bind fun _ => (keeping_copyErrcode _ _).bind fun _ => keeping_pure _

private theorem keeping_claraClCreateContextFromType (argv : ℕ → Arg) :
    Keeping (claraClCreateContextFromType lib argv) :=
  (keeping_contextProperties _).bind fun _ => (keeping_callCl lib _ _).bind fun _ =>
    (keeping_copyErrcode _ _).bind fun _ => keeping_pure _

private theorem keeping_claraClCreateProgramWithSource (argv : ℕ → Arg) :
    Keeping (claraClCreateProgramWithSource lib argv) :=
  (keeping_mappingTranslateListToReal _ _ _).bind fun _ => (keeping_assert _ _).bind fun _ =>
    (keeping_callCl lib _ _).bind fun _ => (keeping_copyErrcode _ _).bind fun _ => keeping_pure _

private theorem keeping_claraClBuildProgram (argv : ℕ → Arg) :
    Keeping (claraClBuildProgram lib argv) :=
  (keeping_assert _ _).bind fun _ => (keeping_assert _ _).bind fun _ =>
    (keeping_mappingTranslateListToReal _ _ _).bind fun _ => (keeping_assert _ _).bind fun _ =>
      (keeping_callCl lib _ _).bind fun _ => keeping_pure _

private theorem keeping_claraClSetKernelArg (argv : ℕ → Arg) :
    Keeping (claraClSetKernelArg lib argv) := by
  unfold claraClSetKernelArg
  split_ifs
  · refine (keeping_loadWord _ _).bind fun id => (keeping_mappingFindByVirt _).bind fun r => ?_
    cases r with
    | none => exact (keeping_callCl lib _ _).bind fun _ => keeping_pure _
    | some real =>
      exact (keeping_store _ _ _).bind fun _ => (keeping_callCl lib _ _).bind fun _ =>
        keeping_pure _
  · exact (keeping_callCl lib _ _).bind fun _ => keeping_pure _

theorem keeping_claraClGetEventInfo (argv : ℕ → Arg) :
    Keeping (claraClGetEventInfo lib argv) := by
  refine (keeping_callCl lib _ _).bind fun r => ?_
  split_ifs
  · refine (keeping_loadWord _ _).bind fun w => (keeping_mappingFindByReal _).bind fun v => ?_
    cases v with
    | none => exact keeping_fail _
    | some virt => exact (keeping_store _ _ _).bind fun _ => keeping_pure _
  · exact keeping_pure _

theorem keeping_handler {d : ClFunction} {pfn : Handler Cl} {ptrargs : List ℕ}
    (h : execFunTable lib d = some (pfn, ptrargs)) (argv : ℕ → Arg) : Keeping (pfn argv) := by
  cases d <;> first
    | cases h <;> first
      | exact keeping_claraPassOn lib _ _ argv
      | exact keeping_claraEnqueue lib _ _ _ _ argv
      | exact keeping_claraClCreateContext lib argv
      | exact keeping_claraClCreateContextFromType lib argv
      | exact keeping_claraClCreateProgramWithSource lib argv
      | exact keeping_fail _
      | exact keeping_claraClBuildProgram lib argv
      | exact keeping_claraClSetKernelArg lib argv
      | exact keeping_claraClGetEventInfo lib argv

theorem prepare_call {idMap : GlobalId → Option Arg} {buf buf' : Buffer recvbufsz}
    {retval : Arg} {d : ClFunction} {pfn : Handler Cl} {argc : ℕ}
    (h : prepare (execFunTable lib) idMap buf retval = .call d pfn argc buf') :
    ∃ ptrargs, execFunTable lib d = some (pfn, ptrargs) := by
  unfold prepare at h
  split at h
  · cases h
  · split at h
    · cases h
    · next hf =>
      split at h
      · cases h
      · cases h
        exact ⟨_, hf⟩

theorem keeping_claraExecute (retval : Arg) : Keeping (claraExecute lib retval) := by
  have hcont : ∀ x : Prepared (Handler Cl), (∀ d pfn argc buf, x = .call d pfn argc buf →
      ∃ ptrargs, execFunTable lib d = some (pfn, ptrargs)) →
      Keeping (executePrepared retval x) := by
    intro x hx
    cases x with
    | skip => exact keeping_pure retval
    | abort => exact keeping_fail _
    | call d pfn argc buf =>
      obtain ⟨ptrargs, hf⟩ := hx d pfn argc buf rfl
      exact (keeping_buf fun _ _ => rfl).bind fun _ => (keeping_handler lib hf _).bind fun _ =>
        (keeping_buf fun _ _ => rfl).bind fun _ => keeping_pure _
  have hprepared : ∀ s : State Cl, Keeping (executePrepared retval
      (prepare (execFunTable lib) (providerIdMap s.idMap) s.buf retval)) := fun s =>
    hcont _ fun _ _ _ _ hp => prepare_call lib hp
  exact
    { same := fun s s' ret h => (hprepared s).same s s' ret h
      waits := fun s h => (hprepared s).waits s h
      blind := fun s n => (hprepared s).blind s n }

end

end Clara.Provider
