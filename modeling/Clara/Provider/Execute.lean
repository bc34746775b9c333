import Clara.Provider.OpenCl

/-! `clara_execute` as the provider uses it, in place on the receive buffer: the hint is in word 0,
the number of the function in word 1, `retval` in word 2 and the arguments behind it. -/
namespace Clara.Provider

open Conc PProg

def argvOf (buf : Buffer recvbufsz) (i : ℕ) : Arg := buf.word (2 + i)

def setArgv (buf : Buffer recvbufsz) (i : ℕ) (arg : Arg) : Buffer recvbufsz :=
  buf.setWord (2 + i) arg

/-- What becomes of the `i`-th argument; `none` when the assertion of the id map fails. -/
def translateArg (idMap : GlobalId → Option Arg) (ptrargs : List ℕ) (i : ℕ) (arg : Arg) :
    Option Arg :=
  if arg ≠ 0 ∧ i ∈ ptrargs then idMap arg else some arg

def translateArgs (idMap : GlobalId → Option Arg) (ptrargs : List ℕ) (i : ℕ) : ℕ →
    Buffer recvbufsz → Option (Buffer recvbufsz)
  | 0, buf => some buf
  | n + 1, buf => do
    let arg ← translateArg idMap ptrargs i (argvOf buf i)
    translateArgs idMap ptrargs (i + 1) n (setArgv buf i arg)

/-- What a request in the buffer comes to before the handler runs. -/
inductive Prepared (H : Type)
  | skip
  | abort
  | call (d : ClFunction) (pfn : H) (argc : ℕ) (buf : Buffer recvbufsz)

/-- `clara_execute` up to the call of the handler. -/
def prepare {H : Type} (fntbl : ClFunction → Option (H × List ℕ))
    (idMap : GlobalId → Option Arg) (buf : Buffer recvbufsz) (retval : Arg) : Prepared H :=
  match ClFunction.ofArg (buf.word 1) with
  | none => .skip
  | some (d, argc) =>
    match fntbl d with
    | none => .skip
    | some (pfn, ptrargs) =>
      match translateArgs idMap ptrargs 1 argc (setArgv buf 0 retval) with
      | none => .abort
      | some buf => .call d pfn argc buf

variable {Cl : Type} (lib : OpenCl Cl)

/-- `provider_id_map`, whose look-up is asserted to succeed. -/
def providerIdMap (idMap : IdSet GlobalId Arg) (id : GlobalId) : Option Arg :=
  if idMap.damaged then none else idMap.lookup id

def executePrepared (retval : Arg) : Prepared (Handler Cl) → PProg Cl Arg
  | .skip => pure retval
  | .abort => fail (.assertion .idMap)
  | .call _ pfn _ buf => do
    modify fun s => { s with buf := buf }
    let ret ← pfn (argvOf buf)
    modify fun s => { s with buf := setArgv s.buf 0 ret }
    pure ret

/-- Returns `*retval`; the C function returns `true`. -/
def claraExecute (retval : Arg) : PProg Cl Arg := do
  let prepared ← get fun s => prepare (execFunTable lib) (providerIdMap s.idMap) s.buf retval
  executePrepared retval prepared

/-- The handler that a request is given to, and `argv[1]`, ..., `argv[argc]` as it finds them;
`none` when no handler is called. -/
def Prepared.request {H : Type} : Prepared H → Option (ClFunction × List Arg)
  | .call d _ argc buf => some (d, (List.range argc).map fun i => argvOf buf (i + 1))
  | _ => none

theorem argvOf_setArgv_self {i : ℕ} (hi : i ≤ 100) (buf : Buffer recvbufsz) (arg : Arg) :
    argvOf (setArgv buf i arg) i = arg := by
  apply Buffer.word_setWord_self
  unfold recvbufsz
  omega

theorem argvOf_setArgv_of_ne {i j : ℕ} (h : i ≠ j) (buf : Buffer recvbufsz) (arg : Arg) :
    argvOf (setArgv buf j arg) i = argvOf buf i := by
  apply Buffer.word_setWord_of_ne
  omega

/-- The loop writes only where it reads, and each argument on its own. -/
theorem translateArgs_spec (idMap : GlobalId → Option Arg) (ptrargs : List ℕ) (n i : ℕ)
    (hn : i + n ≤ 100) (buf : Buffer recvbufsz) :
    match translateArgs idMap ptrargs i n buf with
    | none => ∃ j, i ≤ j ∧ j < i + n ∧ translateArg idMap ptrargs j (argvOf buf j) = none
    | some buf' =>
      (∀ j, i ≤ j → j < i + n →
        translateArg idMap ptrargs j (argvOf buf j) = some (argvOf buf' j)) ∧
      ∀ j, j < i ∨ i + n ≤ j → argvOf buf' j = argvOf buf j := by
  induction n generalizing i buf with
  | zero => exact ⟨fun j _ _ => by omega, fun j _ => rfl⟩
  | succ n ih =>
    rw [translateArgs]
    cases harg : translateArg idMap ptrargs i (argvOf buf i) with
    | none => exact ⟨i, le_rfl, by omega, harg⟩
    | some arg =>
      have hrest := ih (i + 1) (by omega) (setArgv buf i arg)
      have hsame : ∀ j, j ≠ i → argvOf (setArgv buf i arg) j = argvOf buf j := fun j hj =>
        argvOf_setArgv_of_ne hj buf arg
      simp only [Option.bind_eq_bind, Option.bind_some]
      cases htr : translateArgs idMap ptrargs (i + 1) n (setArgv buf i arg) with
      | none =>
        rw [htr] at hrest
        obtain ⟨j, hij, hj, hnone⟩ := hrest
        exact ⟨j, by omega, by omega, by rwa [hsame j (by omega)] at hnone⟩
      | some buf' =>
        rw [htr] at hrest
        obtain ⟨hin, hout⟩ := hrest
        refine ⟨fun j hij hj => ?_, fun j hj => ?_⟩
        · rcases eq_or_ne j i with rfl | hne
          · rw [harg, hout j (by omega), argvOf_setArgv_self (by omega)]
          · rw [← hsame j hne]
            exact hin j (by omega) (by omega)
        · rw [hout j (by omega), hsame j (by omega)]

theorem prepare_request_eq_some {H : Type} {fntbl : ClFunction → Option (H × List ℕ)}
    {idMap : GlobalId → Option Arg} {buf : Buffer recvbufsz} {retval : Arg} {d : ClFunction}
    {args : List Arg} :
    (prepare fntbl idMap buf retval).request = some (d, args) ↔
      ∃ pfn ptrargs, ClFunction.ofArg (buf.word 1) = some (d, args.length) ∧
        fntbl d = some (pfn, ptrargs) ∧
        ∀ i < args.length,
          translateArg idMap ptrargs (i + 1) (argvOf buf (i + 1)) = args[i]? := by
  rw [prepare]
  cases hd : ClFunction.ofArg (buf.word 1) with
  | none => simp [Prepared.request]
  | some x =>
    obtain ⟨d', argc⟩ := x
    have hargc := ClFunction.argc_le hd
    cases hf : fntbl d' with
    | none =>
      simp only [hf, Prepared.request, reduceCtorEq, Option.some.injEq, Prod.mk.injEq, false_iff]
      rintro ⟨pfn, ptrargs, ⟨rfl, -⟩, hpfn, -⟩
      rw [hf] at hpfn
      cases hpfn
    | some e =>
      obtain ⟨pfn, ptrargs⟩ := e
      have hspec := translateArgs_spec idMap ptrargs argc 1 (by omega) (setArgv buf 0 retval)
      have hsame : ∀ j, j ≠ 0 → argvOf (setArgv buf 0 retval) j = argvOf buf j := fun j hj =>
        argvOf_setArgv_of_ne hj buf retval
      simp only [hf]
      cases htr : translateArgs idMap ptrargs 1 argc (setArgv buf 0 retval) with
      | none =>
        rw [htr] at hspec
        obtain ⟨j, hj, hlt, hnone⟩ := hspec
        simp only [Prepared.request, reduceCtorEq, Option.some.injEq, Prod.mk.injEq, false_iff]
        rintro ⟨pfn', ptrargs', ⟨rfl, rfl⟩, hpfn, hargs⟩
        obtain ⟨rfl, rfl⟩ := Prod.mk.inj (Option.some.inj (hf.symm.trans hpfn))
        have harg := hargs (j - 1) (by omega)
        rw [Nat.sub_add_cancel hj, ← hsame j (by omega), hnone,
          List.getElem?_eq_getElem (by omega)] at harg
        cases harg
      | some buf' =>
        rw [htr] at hspec
        obtain ⟨hin, -⟩ := hspec
        have htrans : ∀ i < argc, translateArg idMap ptrargs (i + 1) (argvOf buf (i + 1)) =
            some (argvOf buf' (i + 1)) := by
          intro i hi
          rw [← hsame (i + 1) (by omega)]
          exact hin (i + 1) (by omega) (by omega)
        simp only [Prepared.request, Option.some.injEq, Prod.mk.injEq]
        constructor
        · rintro ⟨rfl, rfl⟩
          refine ⟨pfn, ptrargs, ⟨rfl, by simp⟩, hf, fun i hi => ?_⟩
          rw [List.length_map, List.length_range] at hi
          rw [htrans i hi]
          simp [hi]
        · rintro ⟨pfn', ptrargs', ⟨rfl, rfl⟩, hpfn, hargs⟩
          obtain ⟨rfl, rfl⟩ := Prod.mk.inj (Option.some.inj (hf.symm.trans hpfn))
          refine ⟨rfl, ?_⟩
          apply List.ext_getElem (by simp)
          intro i hi hi'
          have harg := hargs i hi'
          rw [htrans i hi', List.getElem?_eq_getElem hi'] at harg
          simpa using Option.some.inj harg

/-- A function of the table is called when the words in its pointer arguments are all known. -/
theorem prepare_mapped {H : Type} {fntbl : ClFunction → Option (H × List ℕ)}
    {idMap : GlobalId → Option Arg} {buf : Buffer recvbufsz} {d : ClFunction} {argc : ℕ} {pfn : H}
    {ptrargs : List ℕ} (hd : ClFunction.ofArg (buf.word 1) = some (d, argc))
    (hf : fntbl d = some (pfn, ptrargs)) (retval : Arg)
    (hmap : ∀ i, 1 ≤ i → i < 1 + argc → translateArg idMap ptrargs i (argvOf buf i) ≠ none) :
    ∃ buf', prepare fntbl idMap buf retval = .call d pfn argc buf' ∧
      ∀ i, 1 ≤ i → i < 1 + argc →
        translateArg idMap ptrargs i (argvOf buf i) = some (argvOf buf' i) := by
  have hargc := ClFunction.argc_le hd
  have hspec := translateArgs_spec idMap ptrargs argc 1 (by omega) (setArgv buf 0 retval)
  have hsame : ∀ j, j ≠ 0 → argvOf (setArgv buf 0 retval) j = argvOf buf j := fun j hj =>
    argvOf_setArgv_of_ne hj buf retval
  cases htr : translateArgs idMap ptrargs 1 argc (setArgv buf 0 retval) with
  | none =>
    rw [htr] at hspec
    obtain ⟨j, hj, hlt, hnone⟩ := hspec
    rw [hsame j (by omega)] at hnone
    exact absurd hnone (hmap j hj hlt)
  | some buf' =>
    rw [htr] at hspec
    obtain ⟨hin, -⟩ := hspec
    refine ⟨buf', ?_, fun i hi hlt => ?_⟩
    · rw [prepare, hd]
      simp only [hf, htr]
    · rw [← hsame i (by omega)]
      exact hin i hi hlt

theorem claraExecute_call {s s' : State Cl} {d : ClFunction} {pfn : Handler Cl} {argc : ℕ}
    {buf : Buffer recvbufsz} {retval ret : Arg}
    (hp : prepare (execFunTable lib) (providerIdMap s.idMap) s.buf retval = .call d pfn argc buf)
    (hrun : pfn (argvOf buf) { s with buf := buf } = .done s' ret) :
    claraExecute lib retval s = .done { s' with buf := setArgv s'.buf 0 ret } ret := by
  rw [claraExecute, bind_run, get_run, Outcome.bind_done, hp, executePrepared, bind_run, modify_run,
    Outcome.bind_done, bind_run, hrun]
  rfl

end Clara.Provider
