import Clara.Common.Rpc
import Clara.Provider.Execute

/-! The loop of `provider_main`. Its messages are read from the receive buffer, also where they
are shorter than the structure they are read as. -/
namespace Clara.Provider

open Conc PProg

variable {Cl : Type}

def bufWord (i : ℕ) : PProg Cl UInt64 := get fun s => s.buf.word i

/-- Copies the data behind the parameters of an ALLOCATE request, as much as the allocation
holds. -/
def allocateInit (allocation : Allocation) : PProg Cl Unit := do
  let n := (allocation.nmemb * allocation.size).toNat
  if n = 0 then pure ()
  else if 32 + n ≤ recvbufsz then
    let data ← get fun s => s.buf.bytes.slice 32 n
    store allocation.ptr 0 data
  else fail .overflow

def allocateUndo (allocation : Allocation) : PProg Cl Unit := do
  assert (← mappingFindByVirt allocation.handle).isSome .allocateUndo
  assert (← mappingRemove allocation.handle) .allocateUndo
  assert (← allocationRemove allocation.handle) .allocateUndo
  free allocation.ptr

/-- `extra = ssz - sizeof(*areqparams)` is unsigned, so only a difference of zero is not
positive. -/
def handleAllocate (ssz : ℕ) : PProg Cl Unit := do
  let allocation ← claraCreateAllocation (← bufWord 0) (← bufWord 1) (← bufWord 2)
  assert (← allocationInsert allocation) .allocateInsert
  assert (← mappingInsert allocation.handle allocation.ptr) .allocateMapping
  if ssz ≠ 32 then allocateInit allocation
  if ← net (claraSendAllocateResponse () allocation.handle) then pure ()
  else allocateUndo allocation

def handleExecute (lib : OpenCl Cl) : PProg Cl Unit := do
  let retval ← claraExecute lib 0
  assert (← net (claraSendExecuteResponse () retval true)) .executeResponse

def handleMapping : PProg Cl Unit := do
  assert (← mappingInsert (← bufWord 0) (← bufWord 1)) .mappingInsert

/-- The object at `ptr` gets the id `virt`, which also replaces it there. -/
def mapatptr (virt ptr : GlobalId) : PProg Cl Arg := do
  match ← mappingFindByVirt ptr with
  | none => pure 0
  | some p =>
    let real ← loadWord p 0
    assert (← mappingInsert virt real) .mapatptrInsert
    store p 0 (Bytes.word virt)
    pure real

def handleMapatptr : PProg Cl Unit := do
  let real ← mapatptr (← bufWord 0) (← bufWord 1)
  assert (← net (claraSendMapatptrResponse () real)) .mapatptrResponse

def State.room (s : State Cl) (ptr : Arg) (offset : ℕ) : ℕ :=
  ((s.mem ptr).getD []).length - offset

/-- The words are `dst`, `offset` and `length`. A stream shorter than announced is only noted in
the log. -/
def handleMemput (lzo : Lzo) (fuel : ℕ) : PProg Cl Unit := do
  match ← mappingFindByVirt (← bufWord 0) with
  | none => fail (.assertion .memputDst)
  | some real =>
    let offset ← bufWord 1
    let room ← get fun s => s.room real offset.toNat
    let (_, data) ← net (streamRecvInto lzo () fuel room (← bufWord 2).toNat)
    if data = [] then pure () else store real offset.toNat data

/-- The response to a FETCH request of some bytes: the whole allocation. -/
def fetchRespond (lzo : Lzo) (allocation : Option Allocation) (opts : StreamOptions) :
    PProg Cl Unit := do
  match allocation with
  | none => fail .nullPointer
  | some allocation =>
    let n := (allocation.nmemb * allocation.size).toNat
    let buf ← (if n = 0 then pure [] else load allocation.ptr 0 n : PProg Cl Bytes)
    let _ ← net (claraSendFetchResponse lzo () buf opts)

def fetchFree (allocation : Option Allocation) : PProg Cl Unit := do
  match allocation with
  | none => fail .nullPointer
  | some allocation =>
    assert (← mappingFindByVirt allocation.handle).isSome .fetchMapping
    assert (← mappingRemove allocation.handle) .fetchMapping
    assert (← allocationRemove allocation.handle) .fetchRemove
    free allocation.ptr

/-- The words are `handle`, `size` and `hint`, and behind them the stream options. -/
def handleFetch (lzo : Lzo) : PProg Cl Unit := do
  let allocation ← claraFindAllocation (← bufWord 0)
  let size ← bufWord 1
  let opts : StreamOptions := ⟨(← bufWord 3).toUInt32, ← bufWord 4⟩
  if 0 < size then fetchRespond lzo allocation opts
  fetchFree allocation

def handlePing : PProg Cl Unit := do
  let sec ← bufWord 0
  let _ ← net (claraSendmsg () Msg.pong (Bytes.word sec))

/-- The messages by their type; others are only noted in the log. -/
def handleMessage (lzo : Lzo) (fuel : ℕ) (lib : OpenCl Cl) (type : MessageType) (ssz : ℕ) :
    PProg Cl Unit :=
  if type = Msg.ping then handlePing
  else if type = Msg.allocateRequest then handleAllocate ssz
  else if type = Msg.executeRequest then handleExecute lib
  else if type = Msg.mapping then handleMapping
  else if type = Msg.mapatptrRequest then handleMapatptr
  else if type = Msg.memputStream then handleMemput lzo fuel
  else if type = Msg.fetchRequest then handleFetch lzo
  else pure ()

def sctpShutdownEvent : ℕ := 0x8005

/-- One turn of the loop: whether it goes on. -/
def providerTurn (lzo : Lzo) (fuel : ℕ) (lib : OpenCl Cl) : PProg Cl Bool := do
  match ← net (claraRecvmsg () recvbufsz) with
  | .failed => pure false
  | .notification msg =>
    modify fun s => { s with buf := s.buf.receive msg }
    pure (Bytes.toNat (msg.take 2) != sctpShutdownEvent)
  | .message type msg =>
    modify fun s => { s with buf := s.buf.receive msg }
    handleMessage lzo fuel lib type msg.length
    pure true

/-- At most `n` turns: whether the provider waits for the next message, or has left the loop. -/
def providerMain (lzo : Lzo) (fuel : ℕ) (lib : OpenCl Cl) : ℕ → PProg Cl Bool
  | 0 => pure true
  | n + 1 => fun s =>
    match providerTurn lzo fuel lib s with
    | .done s true => providerMain lzo fuel lib n s
    | .done s false => .done s false
    | .fault f => .fault f
    | .blocked => .done s true

theorem providerMain_succ (lzo : Lzo) (fuel : ℕ) (lib : OpenCl Cl) (n : ℕ) (s : State Cl) :
    providerMain lzo fuel lib (n + 1) s =
      match providerTurn lzo fuel lib s with
      | .done s true => providerMain lzo fuel lib n s
      | .done s false => .done s false
      | .fault f => .fault f
      | .blocked => .done s true := rfl

end Clara.Provider
