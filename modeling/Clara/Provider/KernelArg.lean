import Clara.Provider.IdLists

/-! The argument of a kernel on its way to `clSetKernelArg` of the library. The handler takes eight
bytes that are an id of the map for that id, whatever the kernel's parameter is. -/
namespace Clara.Provider

open Conc PProg

variable {Cl : Type}

/-- The library's `clSetKernelArg` gets these bytes as the value of the argument. -/
def ArgumentReaches (lib : OpenCl Cl) (argv : ℕ → Arg) (s : State (Cl × List Call))
    (v : Bytes) : Prop :=
  ∃ pfn ptrargs s' ret mem, execFunTable lib.logged .setKernelArg = some (pfn, ptrargs) ∧
    pfn argv s = .done s' ret ∧ mem (argv 4) = some v ∧ s'.cl.2 = s.cl.2 ++
      [⟨.setKernelArg, [argv 1, toUint (argv 2), argv 3, argv 4], mem⟩]

/-- `clSetKernelArg` as the handler gets it: the bytes of the consumer are in a block, whose length
is the size of the argument. -/
structure SetsArgument (s : State Cl) (argv : ℕ → Arg) (v : Bytes) : Prop where
  sound : s.idMap.damaged = false
  block : s.mem (argv 4) = some v
  size : (argv 3).toNat = v.length

/-- What the library is to get: the real pointer for the id of a memory object that is passed to a
parameter for one, and otherwise what the consumer has passed. -/
def argumentFor (map : IdSet GlobalId Arg) (memParam : Bool) (isMemObject : GlobalId → Bool)
    (v : Bytes) : Bytes :=
  if v.length = 8 ∧ memParam = true ∧ isMemObject (v.wordAt 0) = true then
    ((map.lookup (v.wordAt 0)).map Bytes.word).getD v
  else v

def argumentSent (map : IdSet GlobalId Arg) (v : Bytes) : Bytes :=
  if v.length = 8 then ((map.lookup (v.wordAt 0)).map Bytes.word).getD v else v

section
variable {lib : OpenCl Cl} {s : State (Cl × List Call)} {argv : ℕ → Arg} {v w : Bytes}

theorem ArgumentReaches.unique (h : ArgumentReaches lib argv s v)
    (h' : ArgumentReaches lib argv s w) : v = w := by
  obtain ⟨pfn, ptrargs, s₁, ret, mem, hf, hrun, hmem, hlog⟩ := h
  obtain ⟨pfn', ptrargs', s₂, ret', mem', hf', hrun', hmem', hlog'⟩ := h'
  obtain ⟨rfl, -⟩ := Prod.mk.inj (Option.some.inj (hf.symm.trans hf'))
  obtain ⟨rfl, -⟩ := Outcome.done.inj (hrun.symm.trans hrun')
  obtain ⟨hcall, -⟩ := List.cons.inj (List.append_cancel_left (hlog.symm.trans hlog'))
  have hsame : mem = mem' := congrArg Call.mem hcall
  subst hsame
  exact Option.some.inj (hmem.symm.trans hmem')

/-- The call of the library, after the block has been overwritten or left alone. -/
theorem argumentReaches_of_run {mem : Memory} (hmem : mem (argv 4) = some v)
    (hrun : claraClSetKernelArg lib.logged argv s =
      (callCl lib.logged .setKernelArg [argv 1, toUint (argv 2), argv 3, argv 4] >>=
        fun r => pure r.ret) { s with mem := mem }) : ArgumentReaches lib argv s v :=
  ⟨_, _, _, _, mem, rfl, hrun, hmem, rfl⟩

theorem SetsArgument.argumentReaches (lib : OpenCl Cl) (h : SetsArgument s argv v) :
    ArgumentReaches lib argv s (argumentSent s.idMap v) := by
  have hsize : argv 3 = 8 ↔ v.length = 8 := by
    rw [← h.size, ← UInt64.toNat_inj]
    rfl
  rw [argumentSent]
  by_cases h8 : v.length = 8
  · have hload : loadWord (argv 4) 0 s = .done s (v.wordAt 0) := loadWord_run h.block (by omega)
    rw [if_pos h8]
    cases hfind : s.idMap.lookup (v.wordAt 0) with
    | none =>
      apply argumentReaches_of_run h.block
      rw [claraClSetKernelArg, if_pos (hsize.mpr h8), bind_run, hload, Outcome.bind_done, bind_run,
        mappingFindByVirt_run h.sound, hfind]
      rfl
    | some real =>
      have hover : v.overwrite 0 (Bytes.word real) = Bytes.word real := by
        rw [Bytes.overwrite, List.take_zero, List.nil_append,
          List.drop_eq_nil_of_le (by rw [Bytes.length_word]; omega), List.append_nil]
      have hstore : store (argv 4) 0 (Bytes.word real) s =
          .done (s.withBlock (argv 4) (Bytes.word real)) () := by
        rw [store_run h.block (by rw [Bytes.length_word]; omega), hover, State.withBlock]
      apply argumentReaches_of_run (s.withBlock_mem (argv 4) _)
      rw [claraClSetKernelArg, if_pos (hsize.mpr h8), bind_run, hload, Outcome.bind_done, bind_run,
        mappingFindByVirt_run h.sound, hfind, Outcome.bind_done]
      show (store (argv 4) 0 (Bytes.word real) >>= fun _ => _) s = _
      rw [bind_run, hstore]
      rfl
  · rw [if_neg h8]
    apply argumentReaches_of_run h.block
    rw [claraClSetKernelArg, if_neg (fun heq => h8 (hsize.mp heq))]

/-- The handler does the right thing if and only if the value is not as long as an id, is passed as a
memory object and is one, or is not replaced by something else. -/
theorem argumentReaches_iff (lib : OpenCl Cl) (h : SetsArgument s argv v) (memParam : Bool)
    (isMemObject : GlobalId → Bool) :
    ArgumentReaches lib argv s (argumentFor s.idMap memParam isMemObject v) ↔
      v.length ≠ 8 ∨ (memParam = true ∧ isMemObject (v.wordAt 0) = true) ∨
        ∀ real, s.idMap.lookup (v.wordAt 0) = some real → real = v.wordAt 0 := by
  have hsent := h.argumentReaches lib
  have hiff : ArgumentReaches lib argv s (argumentFor s.idMap memParam isMemObject v) ↔
      argumentFor s.idMap memParam isMemObject v = argumentSent s.idMap v := by
    constructor
    · intro hreach
      exact hreach.unique hsent
    · intro heq
      rw [heq]
      exact hsent
  rw [hiff, argumentFor, argumentSent]
  by_cases h8 : v.length = 8
  · by_cases hmem : memParam = true ∧ isMemObject (v.wordAt 0) = true
    · rw [if_pos ⟨h8, hmem⟩, if_pos h8]
      exact iff_of_true rfl (.inr (.inl hmem))
    · rw [if_neg fun hall => hmem hall.2, if_pos h8]
      constructor
      · intro heq
        right
        right
        intro real hreal
        rw [hreal, Option.map_some, Option.getD_some] at heq
        rw [heq, Bytes.wordAt_word]
      · rintro (hne | hboth | hself)
        · exact absurd h8 hne
        · exact absurd hboth hmem
        · cases hfind : s.idMap.lookup (v.wordAt 0) with
          | none => rfl
          | some real =>
            rw [Option.map_some, Option.getD_some, hself real hfind, Bytes.word_wordAt h8]
  · rw [if_neg fun hall => h8 hall.1, if_neg h8]
    exact iff_of_true rfl (.inl h8)

end

/-- A provider that knows the object 10. The block at 600 is the value of an argument. -/
def State.oneObject (v : Bytes) : State (Unit × List Call) :=
  { State.initial silentCl.logged [] fun _ => 0 with
    idMap := IdSet.empty.add 10 4096
    mem := fun p => if p = 600 then some v else none }

/-- The arguments of `clSetKernelArg` for a value of `n` bytes. -/
def setArgs (n : UInt64) (i : ℕ) : Arg := [0, 1, 2, n, 600].getD i 0

theorem oneObject_sets {n : UInt64} {v : Bytes} (h : n.toNat = v.length) :
    SetsArgument (State.oneObject v) (setArgs n) v := ⟨rfl, rfl, h⟩

/-- Four bytes arrive as they are. -/
theorem argumentReaches_int :
    ArgumentReaches silentCl (setArgs 4) (State.oneObject [10, 0, 0, 0]) [10, 0, 0, 0] :=
  (argumentReaches_iff silentCl (oneObject_sets (by decide)) false fun _ => false).mpr
    (.inl (by decide))

/-- The integer 10 in eight bytes arrives as the pointer of the object 10. -/
theorem not_argumentReaches_long :
    SetsArgument (State.oneObject (Bytes.word 10)) (setArgs 8) (Bytes.word 10) ∧
      argumentFor (State.oneObject (Bytes.word 10)).idMap false (fun _ => true) (Bytes.word 10) =
        Bytes.word 10 ∧
      ArgumentReaches silentCl (setArgs 8) (State.oneObject (Bytes.word 10)) (Bytes.word 4096) ∧
      ¬ ArgumentReaches silentCl (setArgs 8) (State.oneObject (Bytes.word 10)) (Bytes.word 10) := by
  have hsets : SetsArgument (State.oneObject (Bytes.word 10)) (setArgs 8) (Bytes.word 10) :=
    oneObject_sets (by decide)
  have hreach : ArgumentReaches silentCl (setArgs 8) (State.oneObject (Bytes.word 10))
      (Bytes.word 4096) := hsets.argumentReaches silentCl
  refine ⟨hsets, rfl, hreach, fun h => ?_⟩
  exact absurd (h.unique hreach) (by decide)

end Clara.Provider
