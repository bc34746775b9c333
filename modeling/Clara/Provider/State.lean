import Clara.Common.IdSet
import Clara.Common.Stream
import Clara.Lib.Buffer

/-! The provider: a process of one thread, with one connection, to the agent. Its memory
consists of blocks that are named by the address of their first byte. -/
namespace Clara.Provider

open Conc

/-- `PROVIDER_RECVBUFSZ`. -/
def recvbufsz : ℕ := 10240

/-- `struct _device`. -/
structure Device where
  id : Arg
  globalId : GlobalId

/-- `struct platform`. -/
structure Platform where
  id : Arg
  globalId : GlobalId
  devices : List Device

structure Allocation where
  handle : Handle
  nmemb : UInt64
  size : UInt64
  ptr : Arg
  deriving DecidableEq

inductive Assertion
  | idMap
  | execute
  | executeResponse
  | allocateInsert
  | allocateMapping
  | allocateUndo
  | mappingInsert
  | mapatptrInsert
  | mapatptrResponse
  | memputDst
  | fetchMapping
  | fetchRemove
  | contextPlatform
  | waitList
  | programStrings
  | programBinary
  | buildNotify
  | buildDevices
  | eventQueue
  deriving DecidableEq

inductive Fault
  | assertion (a : Assertion)
  | nullPointer
  | freedMemory
  /-- An access outside of every block. -/
  | wildPointer
  | overflow
  | uninitialised
  | net (f : NetFault)
  deriving DecidableEq

/-- The blocks by their address. -/
abbrev Memory := Arg → Option Bytes

/-- A block is put at an address, or taken away from it. -/
def Memory.put (mem : Memory) (ptr : Arg) (b : Option Bytes) : Memory :=
  Function.update mem ptr b

@[simp] theorem Memory.put_self (mem : Memory) (ptr : Arg) (b : Option Bytes) :
    mem.put ptr b ptr = b := Function.update_self ..

theorem Memory.put_of_ne (mem : Memory) {ptr p : Arg} (h : p ≠ ptr) (b : Option Bytes) :
    mem.put ptr b p = mem p := Function.update_of_ne h ..

/-- `struct clara_provider`, the receive buffer of `provider_main`, the memory and, as `cl`, the
OpenCL library. `calloc` hands out `addresses` one after the other. -/
structure State (Cl : Type) where
  net : Net Unit
  buf : Buffer recvbufsz
  platforms : List Platform
  idMap : IdSet GlobalId Arg
  allocations : IdSet Handle Allocation
  mem : Memory
  addresses : ℕ → Arg
  draws : ℕ
  cl : Cl

/-- The block that an id stands for. -/
def State.contents {Cl : Type} (s : State Cl) (id : GlobalId) : Bytes :=
  ((s.idMap.lookup id).bind s.mem).getD []

theorem State.contents_eq {Cl : Type} {s : State Cl} {id : GlobalId} {p : Arg} {b : Bytes}
    (hp : s.idMap.lookup id = some p) (hb : s.mem p = some b) : s.contents id = b := by
  rw [State.contents, hp, Option.bind_some, hb, Option.getD_some]

def PProg (Cl α : Type) := State Cl → Outcome (State Cl) Fault α

namespace PProg
variable {Cl α β : Type}

instance : Monad (PProg Cl) where
  pure a := fun s => .done s a
  bind p f := fun s => (p s).bind fun s a => f a s

@[simp] theorem pure_run (a : α) (s : State Cl) : (pure a : PProg Cl α) s = .done s a := rfl

@[simp] theorem bind_run (p : PProg Cl α) (f : α → PProg Cl β) (s : State Cl) :
    (p >>= f) s = (p s).bind fun s a => f a s := rfl

def get (f : State Cl → α) : PProg Cl α := fun s => .done s (f s)

def modify (f : State Cl → State Cl) : PProg Cl Unit := fun s => .done (f s) ()

def fail (f : Fault) : PProg Cl α := fun _ => .fault f

def assert (b : Bool) (a : Assertion) : PProg Cl Unit :=
  if b then pure () else fail (.assertion a)

/-- A call of `net.c`, `block.c` or `stream.c`. -/
def net (p : NetProg Unit α) : PProg Cl α := fun s =>
  match Net.run p s.net with
  | .done n a => .done { s with net := n } a
  | .fault f => .fault (.net f)
  | .blocked => .blocked

@[simp] theorem get_run (f : State Cl → α) (s : State Cl) : get f s = .done s (f s) := rfl

@[simp] theorem modify_run (f : State Cl → State Cl) (s : State Cl) :
    modify f s = .done (f s) () := rfl

@[simp] theorem fail_run (f : Fault) (s : State Cl) : (fail f : PProg Cl α) s = .fault f := rfl

@[simp] theorem assert_run (b : Bool) (a : Assertion) (s : State Cl) :
    assert b a s = if b then .done s () else .fault (.assertion a) := by
  cases b <;> rfl

theorem net_done {p : NetProg Unit α} {s : State Cl} {n : Net Unit} {a : α}
    (h : Net.run p s.net = .done n a) : net p s = .done { s with net := n } a := by
  rw [net, h]

theorem net_eq_done {p : NetProg Unit α} {s s' : State Cl} {a : α} (h : net p s = .done s' a) :
    ∃ n, Net.run p s.net = .done n a ∧ s' = { s with net := n } := by
  rw [net] at h
  cases hrun : Net.run p s.net with
  | done n b =>
    rw [hrun] at h
    obtain ⟨rfl, rfl⟩ := Outcome.done.inj h
    exact ⟨n, rfl, rfl⟩
  | fault f =>
    rw [hrun] at h
    cases h
  | blocked =>
    rw [hrun] at h
    cases h

/-- The answer of a set that may be damaged. -/
def ofSet (x : Option α) : PProg Cl α :=
  match x with
  | none => fail .freedMemory
  | some a => pure a

end PProg

open PProg

section
variable {Cl : Type}

def load (ptr : Arg) (off n : ℕ) : PProg Cl Bytes := do
  match ← get fun s => s.mem ptr with
  | none => fail .wildPointer
  | some b => if off + n ≤ b.length then pure (b.slice off n) else fail .overflow

def store (ptr : Arg) (off : ℕ) (v : Bytes) : PProg Cl Unit := do
  match ← get fun s => s.mem ptr with
  | none => fail .wildPointer
  | some b =>
    if off + v.length ≤ b.length then
      modify fun s => { s with mem := s.mem.put ptr (some (b.overwrite off v)) }
    else fail .overflow

def loadWord (ptr : Arg) (i : ℕ) : PProg Cl Arg := do
  let b ← load ptr (8 * i) 8
  pure (b.wordAt 0)

/-- `calloc`, which returns `NULL` when the product overflows or the memory is used up. -/
def calloc (nmemb size : UInt64) : PProg Cl Arg := do
  if nmemb.toNat * size.toNat < 2 ^ 64 then
    let ptr ← get fun s => s.addresses s.draws
    modify fun s => { s with draws := s.draws + 1 }
    if ptr ≠ 0 then
      let block := List.replicate (nmemb.toNat * size.toNat) 0
      modify fun s => { s with mem := s.mem.put ptr (some block) }
    pure ptr
  else pure 0

def free (ptr : Arg) : PProg Cl Unit :=
  if ptr = 0 then pure ()
  else modify fun s => { s with mem := s.mem.put ptr none }

def mappingInsert (virt : GlobalId) (real : Arg) : PProg Cl Bool := do
  let (b, map) ← ofSet (← get fun s => s.idMap.setInsert virt real)
  modify fun s => { s with idMap := map }
  pure b

def mappingRemove (virt : GlobalId) : PProg Cl Bool := do
  let (b, map) ← ofSet (← get fun s => s.idMap.setRemove virt)
  modify fun s => { s with idMap := map }
  pure b

def mappingFindByVirt (virt : GlobalId) : PProg Cl (Option Arg) := do
  ofSet (← get fun s => s.idMap.setFind virt)

def mappingFindByReal (real : Arg) : PProg Cl (Option GlobalId) := do
  let _ ← ofSet (← get fun s => s.idMap.setList)
  get fun s => (s.idMap.items.find? fun x => x.2 == real).map Prod.fst

/-- Returns the number of items translated. -/
def mappingTranslateListToReal (virtList realList : Arg) (numItems : ℕ) : PProg Cl ℕ :=
  if numItems = 0 ∨ virtList = 0 then pure 0 else go numItems 0
where
  go : ℕ → ℕ → PProg Cl ℕ
    | 0, i => pure i
    | n + 1, i => do
      match ← mappingFindByVirt (← loadWord virtList i) with
      | none => pure i
      | some real =>
        store realList (8 * i) (Bytes.word real)
        go n (i + 1)

def claraCreateAllocation (handle : Handle) (nmemb size : UInt64) : PProg Cl Allocation := do
  let ptr ← calloc nmemb size
  pure ⟨handle, nmemb, size, ptr⟩

def claraFindAllocation (handle : Handle) : PProg Cl (Option Allocation) := do
  let allocations ← ofSet (← get fun s => s.allocations.setList)
  pure (allocations.find? fun a => a.handle == handle)

def allocationInsert (allocation : Allocation) : PProg Cl Bool := do
  let (b, set) ← ofSet (← get fun s => s.allocations.setInsert allocation.handle allocation)
  modify fun s => { s with allocations := set }
  pure b

def allocationRemove (handle : Handle) : PProg Cl Bool := do
  let (b, set) ← ofSet (← get fun s => s.allocations.setRemove handle)
  modify fun s => { s with allocations := set }
  pure b

variable {s : State Cl}

theorem load_run {ptr : Arg} {b : Bytes} {off n : ℕ} (h : s.mem ptr = some b)
    (hn : off + n ≤ b.length) : load ptr off n s = .done s (b.slice off n) := by
  simp [load, h, hn]

theorem store_run {ptr : Arg} {b v : Bytes} {off : ℕ} (h : s.mem ptr = some b)
    (hn : off + v.length ≤ b.length) :
    store ptr off v s = .done { s with mem := s.mem.put ptr (some (b.overwrite off v)) } () := by
  simp [store, h, hn]

theorem loadWord_run {ptr : Arg} {b : Bytes} {i : ℕ} (h : s.mem ptr = some b)
    (hn : 8 * i + 8 ≤ b.length) : loadWord ptr i s = .done s (b.wordAt i) := by
  rw [loadWord, bind_run, load_run h hn, Outcome.bind_done, pure_run, Bytes.wordAt,
    Bytes.wordAt, Bytes.slice, Nat.mul_zero, List.drop_zero, List.take_take, min_self]

theorem mappingInsert_run (hd : s.idMap.damaged = false) (virt : GlobalId) (real : Arg) :
    mappingInsert virt real s =
      .done { s with idMap := s.idMap.add virt real } (decide (virt ∉ s.idMap)) := by
  simp [mappingInsert, IdSet.setInsert, hd, ofSet]

theorem mappingRemove_run (hd : s.idMap.damaged = false) (virt : GlobalId) :
    mappingRemove virt s =
      .done { s with idMap := s.idMap.erase virt } (decide (virt ∈ s.idMap)) := by
  simp [mappingRemove, IdSet.setRemove, hd, ofSet]

theorem mappingFindByVirt_run (hd : s.idMap.damaged = false) (virt : GlobalId) :
    mappingFindByVirt virt s = .done s (s.idMap.lookup virt) := by
  simp [mappingFindByVirt, IdSet.setFind, hd, ofSet]

theorem allocationInsert_run (hd : s.allocations.damaged = false) (a : Allocation) :
    allocationInsert a s = .done { s with allocations := s.allocations.add a.handle a }
      (decide (a.handle ∉ s.allocations)) := by
  simp [allocationInsert, IdSet.setInsert, hd, ofSet]

theorem allocationRemove_run (hd : s.allocations.damaged = false) (handle : Handle) :
    allocationRemove handle s =
      .done { s with allocations := s.allocations.erase handle }
        (decide (handle ∈ s.allocations)) := by
  simp [allocationRemove, IdSet.setRemove, hd, ofSet]

theorem claraFindAllocation_run (hd : s.allocations.damaged = false) (handle : Handle) :
    claraFindAllocation handle s = .done s
      ((s.allocations.items.map Prod.snd).find? fun a => a.handle == handle) := by
  simp [claraFindAllocation, IdSet.setList, hd, ofSet]

end

end Clara.Provider
