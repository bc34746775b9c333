import Clara.Common.IdSet
import Clara.Common.Stream

/-! The agent's memory and the operations its threads perform on it. Each operation is one
atomic step: a library call on a set, a lock or a socket, or one access to a record. -/
namespace Clara.Agent

open Conc

/-- The threads: `main`, one for each peer, named after the peer's record, and the network,
which stands for everything the peers send. -/
inductive Tid
  | main
  | provider (p : Addr)
  | consumer (c : Addr)
  | network
  deriving DecidableEq

/-- The descriptor of the connection to a peer, named after the peer's record, or the agent's
own socket. -/
inductive Sd
  | listener
  | provider (p : Addr)
  | consumer (c : Addr)
  deriving DecidableEq

inductive SetRef
  | providers
  | consumers
  | idPool
  | objects
  | lbPlatforms
  | platforms (provider : Addr)
  | devices (platform : Addr)
  | objectsOf (consumer : Addr)
  | allocations (consumer : Addr)
  deriving DecidableEq

/-- Peers are entered under `PTR2ARG` of their record, which names them apart; everything else
is entered under its id. -/
abbrev SetRef.Key : SetRef → Type
  | .providers | .consumers => Addr
  | _ => GlobalId

instance : (r : SetRef) → LinearOrder r.Key
  | .providers | .consumers => inferInstanceAs (LinearOrder ℕ)
  | .idPool | .objects | .lbPlatforms | .platforms _ | .devices _ | .objectsOf _ | .allocations _ =>
    inferInstanceAs (LinearOrder UInt64)

/-- `struct _lock`: the semaphore is taken while there is an owner. -/
structure Lock where
  owner : Option Tid
  cnt : ℕ
  deriving DecidableEq

namespace Lock

def free : Lock := ⟨none, 0⟩

/-- `lock_wait`; `none` while another thread is the owner. -/
def wait (t : Tid) (l : Lock) : Option Lock :=
  match l.owner with
  | none => some ⟨some t, l.cnt + 1⟩
  | some u => if u = t then some ⟨some t, l.cnt + 1⟩ else none

/-- `lock_post`; `none` when its assertion fails. -/
def post (t : Tid) (l : Lock) : Option Lock :=
  if l.owner = some t then
    if l.cnt - 1 = 0 then some ⟨none, 0⟩ else some ⟨some t, l.cnt - 1⟩
  else none

/-- Whether a set operation of `t` gets past the lock. -/
def admits (t : Tid) (l : Lock) : Bool := l.owner = none ∨ l.owner = some t

end Lock

/-- `struct _object`. -/
structure Object where
  id : GlobalId
  realId : Arg
  refcnt : UInt32
  lock : Addr
  provider : Addr
  consumer : Option Addr
  deriving DecidableEq

/-- `struct clara_provider`; its set is `SetRef.platforms`. -/
structure Provider where
  addr : UInt32
  lock : Addr
  attached : Bool
  deriving DecidableEq

/-- `struct platform`; its set is `SetRef.devices`. `info` holds the strings by the name
`clGetPlatformInfo` has for them. -/
structure Platform where
  provider : Addr
  consumer : Option Addr
  id : Arg
  globalId : GlobalId
  info : UInt32 → Bytes

/-- `struct _device`. `info` holds the rest of what `device_init` unpacks, by the name
`clGetDeviceInfo` has for it. -/
structure Device where
  provider : Addr
  platformId : Arg
  id : Arg
  globalId : GlobalId
  type : UInt64
  available : Bool
  info : UInt32 → Bytes

/-- `struct clara_consumer`; its sets are `SetRef.objectsOf` and `SetRef.allocations`. -/
structure Consumer where
  attached : Bool
  platform : Option Addr
  deriving DecidableEq

structure Allocation where
  handle : Handle
  nmemb : UInt64
  size : UInt64
  ptr : Option Addr
  deriving DecidableEq

inductive Kind
  | lock
  | object
  | provider
  | platform
  | device
  | consumer
  | allocation
  | buffer
  deriving DecidableEq

abbrev Kind.Rec : Kind → Type
  | .lock => Lock
  | .object => Object
  | .provider => Provider
  | .platform => Platform
  | .device => Device
  | .consumer => Consumer
  | .allocation => Allocation
  | .buffer => Bytes

inductive ObjectStore
  | refcnt (n : UInt32)
  | consumer (c : Option Addr)

inductive ConsumerStore
  | attached (b : Bool)
  | platform (pf : Option Addr)

/-- The stores to a record that is already shared. -/
abbrev Kind.Store : Kind → Type
  | .object => ObjectStore
  | .provider => Bool
  | .platform => Option Addr
  | .consumer => ConsumerStore
  | .buffer => ℕ × Bytes
  | .lock | .device | .allocation => Empty

def Kind.store : (k : Kind) → k.Store → k.Rec → k.Rec
  | .object, .refcnt n, o => { o with refcnt := n }
  | .object, .consumer c, o => { o with consumer := c }
  | .provider, b, p => { p with attached := b }
  | .platform, c, pf => { pf with consumer := c }
  | .consumer, .attached b, c => { c with attached := b }
  | .consumer, .platform pf, c => { c with platform := pf }
  | .buffer, (off, b), buf => buf.take off ++ b ++ buf.drop (off + b.length)

inductive Phase
  | absent
  | registering
  | serving
  | finished
  deriving DecidableEq

inductive Assertion
  | objectCreateInsert
  | objectRetainInsert
  | objectReleaseRemove
  | objectDestroyRemove
  | clCreateObjectCreate
  | clCreateObjectRetain
  | clRetainObjectRetain
  | clReleaseObjectId
  | clReleaseObjectDestroy
  | lockPostOwner
  | remoteAllocateSize
  | remoteExecuteSize
  | remoteMapSize
  | idMapAllocation
  | executeHint
  | executeRemote
  | mapEventRequest
  | mapEventResponse
  | mapEventCreate
  | allocateInsert
  | allocateExtra
  | allocateHint
  | allocateUndo
  | memputHint
  | fetchRemove
  | fetchId
  | fetchHint
  | platformInsert
  | platformObject
  | deviceInsert
  | deviceObject
  | devicePlatform
  | deviceId
  | consumerDetach
  | consumerDestroy
  | providerDetach
  | providerDestroy
  deriving DecidableEq

inductive Fault
  | assertion (a : Assertion)
  | nullPointer
  | freedMemory
  | overflow
  | uninitialised
  | net (f : NetFault)
  deriving DecidableEq

/-- A value of `rand()` other than zero, for which `id_create` waits. -/
abbrev Candidate := {id : GlobalId // id ≠ invalidId}

inductive Op
  | new (k : Kind) (r : k.Rec)
  | read (k : Kind) (a : Addr)
  | store (k : Kind) (a : Addr) (v : k.Store)
  | free (k : Kind) (a : Addr)
  | lockWait (l : Addr)
  | lockPost (l : Addr)
  | setCreate (r : SetRef)
  | setDestroy (r : SetRef)
  | setInsert (r : SetRef) (key : r.Key) (data : Addr)
  | setRemove (r : SetRef) (key : r.Key)
  | setFind (r : SetRef) (key : r.Key)
  | setCount (r : SetRef)
  /-- The lock is held and the entries are visited until `setFinish`. -/
  | setStart (r : SetRef)
  | setFinish (r : SetRef)
  | rand
  | loadBalancing
  | memory (n : ℕ)
  | phase (t : Tid) (ph : Phase)
  | net (o : NetOp Sd)
  /-- A record or notification arrives from a peer. -/
  | deliver (sd : Sd) (i : Incoming)
  | fail (f : Fault)
  | spin

abbrev Op.Res : Op → Type
  | .new _ _ => Addr
  | .read k _ => k.Rec
  | .setInsert _ _ _ | .setRemove _ _ | .loadBalancing | .memory _ => Bool
  | .setFind _ _ => Option Addr
  | .setCount _ => ℕ
  | .setStart _ => List Addr
  | .rand => Candidate
  | .net o => o.Res
  | .fail _ | .spin => Empty
  | _ => Unit

structure State where
  heap : (k : Kind) → Addr → Option k.Rec
  /-- Addresses from here on have not been used; none is used again. -/
  next : Addr
  sets : (r : SetRef) → IdSet r.Key Addr
  setLock : SetRef → Lock
  candidates : ℕ → Candidate
  draws : ℕ
  net : Net Sd
  phase : Tid → Phase
  /-- `opts.load_balancing`. `opts.reverse_proxy` is never set in an agent that runs:
  `rp_create` begins with `assert(0)`. -/
  loadBalancing : Bool
  /-- Whether there is memory for so many bytes when the next address is so. -/
  memory : Addr → ℕ → Bool

namespace State

/-- Records at addresses not handed out yet do not exist. -/
def Fresh (s : State) : Prop := ∀ k a, s.next ≤ a → s.heap k a = none

theorem Fresh.lt {s : State} (h : s.Fresh) {k : Kind} {a : Addr} {r : k.Rec}
    (ha : s.heap k a = some r) : a < s.next := by
  by_contra hle
  rw [h k a (not_lt.mp hle)] at ha
  cases ha

def put (s : State) (k : Kind) (a : Addr) (v : Option k.Rec) : State :=
  { s with heap := Function.update s.heap k (Function.update (s.heap k) a v) }

def putSet (s : State) (r : SetRef) (v : IdSet r.Key Addr) : State :=
  { s with sets := Function.update s.sets r v }

def putLock (s : State) (r : SetRef) (l : Lock) : State :=
  { s with setLock := Function.update s.setLock r l }

section
variable (s : State) {k k' : Kind} (a b : Addr) (v : Option k.Rec)

@[simp] theorem put_heap_self : (s.put k a v).heap k a = v := by simp [put]

theorem put_heap_of_ne {a b : Addr} (h : b ≠ a) : (s.put k a v).heap k b = s.heap k b := by
  simp [put, Function.update_of_ne h]

theorem put_heap_kind (h : k' ≠ k) : (s.put k a v).heap k' = s.heap k' := by
  simp [put, Function.update_of_ne h]

@[simp] theorem put_next : (s.put k a v).next = s.next := rfl

@[simp] theorem put_sets : (s.put k a v).sets = s.sets := rfl

@[simp] theorem put_setLock : (s.put k a v).setLock = s.setLock := rfl

@[simp] theorem put_candidates : (s.put k a v).candidates = s.candidates := rfl

@[simp] theorem put_draws : (s.put k a v).draws = s.draws := rfl

@[simp] theorem put_net : (s.put k a v).net = s.net := rfl

@[simp] theorem put_phase : (s.put k a v).phase = s.phase := rfl

@[simp] theorem put_loadBalancing : (s.put k a v).loadBalancing = s.loadBalancing := rfl

@[simp] theorem put_memory : (s.put k a v).memory = s.memory := rfl

end

section
variable (s : State) {r r' : SetRef} (v : IdSet r.Key Addr)

@[simp] theorem putSet_sets_self : (s.putSet r v).sets r = v := by simp [putSet]

theorem putSet_sets_of_ne (h : r' ≠ r) : (s.putSet r v).sets r' = s.sets r' := by
  simp [putSet, Function.update_of_ne h]

@[simp] theorem putSet_heap : (s.putSet r v).heap = s.heap := rfl

@[simp] theorem putSet_next : (s.putSet r v).next = s.next := rfl

@[simp] theorem putSet_setLock : (s.putSet r v).setLock = s.setLock := rfl

@[simp] theorem putSet_candidates : (s.putSet r v).candidates = s.candidates := rfl

@[simp] theorem putSet_draws : (s.putSet r v).draws = s.draws := rfl

@[simp] theorem putSet_net : (s.putSet r v).net = s.net := rfl

@[simp] theorem putSet_phase : (s.putSet r v).phase = s.phase := rfl

@[simp] theorem putSet_loadBalancing : (s.putSet r v).loadBalancing = s.loadBalancing := rfl

@[simp] theorem putSet_memory : (s.putSet r v).memory = s.memory := rfl

end

section
variable (s : State) (r : SetRef) (l : Lock)

@[simp] theorem putLock_heap : (s.putLock r l).heap = s.heap := rfl

@[simp] theorem putLock_sets : (s.putLock r l).sets = s.sets := rfl

@[simp] theorem putLock_setLock_self : (s.putLock r l).setLock r = l := by simp [putLock]

theorem putLock_setLock_of_ne {r' : SetRef} (h : r' ≠ r) :
    (s.putLock r l).setLock r' = s.setLock r' := by
  simp [putLock, Function.update_of_ne h]

end

/-- The id that `id_create` draws next. -/
def nextId (s : State) : GlobalId := (s.candidates s.draws).val

end State

/-- A thousand different values of `rand()`, over and over. -/
def someIds (n : ℕ) : Candidate :=
  ⟨UInt64.ofNat (n % 1000 + 10), fun h => by
    have h := congrArg UInt64.toNat h
    rw [UInt64.toNat_ofNat', Nat.mod_eq_of_lt (by omega)] at h
    exact Nat.succ_ne_zero _ h⟩

/-- A small agent at work: a provider at 1, whose lock is at 2, and consumers at 3 and 4. The
provider has the platform at 5, whose global id 9 names the object at 6 with its lock at 7. -/
def State.small (candidates : ℕ → Candidate) : State where
  heap
    | .provider => fun a => if a = 1 then some ⟨0, 2, true⟩ else none
    | .lock => fun a => if a = 2 ∨ a = 7 then some .free else none
    | .consumer => fun a => if a = 3 ∨ a = 4 then some ⟨true, none⟩ else none
    | .platform => fun a => if a = 5 then some ⟨1, none, 77, 9, fun _ => []⟩ else none
    | .object => fun a => if a = 6 then some ⟨9, 77, 0, 7, 1, none⟩ else none
    | _ => fun _ => none
  next := 8
  sets
    | .providers => IdSet.empty.add 1 1
    | .consumers => (IdSet.empty.add 3 3).add 4 4
    | .idPool => IdSet.empty.add 9 0
    | .objects => IdSet.empty.add 9 6
    | .platforms 1 => IdSet.empty.add 9 5
    | .lbPlatforms | .devices 5 => .empty
    | .objectsOf 3 | .objectsOf 4 | .allocations 3 | .allocations 4 => .empty
    | .platforms _ | .devices _ | .objectsOf _ | .allocations _ =>
      { IdSet.empty with damaged := true }
  setLock _ := .free
  candidates := candidates
  draws := 0
  net _ := .fresh
  phase
    | .main | .provider 1 | .consumer 3 | .consumer 4 => .serving
    | _ => .absent
  loadBalancing := false
  memory _ n := decide (n < 2 ^ 32)

/-- The agent when it starts to listen: no peer has come yet. No record is at address 0. -/
def State.initial (candidates : ℕ → Candidate) (loadBalancing : Bool)
    (memory : Addr → ℕ → Bool) : State where
  heap _ _ := none
  next := 1
  sets
    | .providers | .consumers | .idPool | .objects | .lbPlatforms => .empty
    | .platforms _ | .devices _ | .objectsOf _ | .allocations _ =>
      { IdSet.empty with damaged := true }
  setLock _ := .free
  candidates := candidates
  draws := 0
  net _ := .fresh
  phase
    | .main => .serving
    | _ => .absent
  loadBalancing := loadBalancing
  memory := memory

/-- As much memory as is asked for. -/
def unlimited : Addr → ℕ → Bool := fun _ _ => true

/-- The answer of a set that may be damaged or destroyed. -/
def ofSet {α β : Type} (x : Option α) (f : α → Outcome State Fault β) : Outcome State Fault β :=
  match x with
  | none => .fault .freedMemory
  | some a => f a

def exec (t : Tid) : (o : Op) → State → Outcome State Fault o.Res
  | .new k r, s => .done { s.put k s.next (some r) with next := s.next + 1 } s.next
  | .read k a, s => match s.heap k a with
    | none => .fault .freedMemory
    | some r => .done s r
  | .store k a v, s => match s.heap k a with
    | none => .fault .freedMemory
    | some r => .done (s.put k a (some (k.store v r))) ()
  | .free k a, s => match s.heap k a with
    | none => .fault .freedMemory
    | some _ => .done (s.put k a none) ()
  | .lockWait l, s => match s.heap .lock l with
    | none => .fault .freedMemory
    | some lock => match lock.wait t with
      | none => .blocked
      | some lock => .done (s.put .lock l (some lock)) ()
  | .lockPost l, s => match s.heap .lock l with
    | none => .fault .freedMemory
    | some lock => match lock.post t with
      | none => .fault (.assertion .lockPostOwner)
      | some lock => .done (s.put .lock l (some lock)) ()
  | .setCreate r, s => .done (s.putSet r .empty) ()
  | .setDestroy r, s =>
    if (s.setLock r).admits t then .done (s.putSet r { IdSet.empty with damaged := true }) ()
    else .blocked
  | .setInsert r key data, s =>
    if (s.setLock r).admits t then
      ofSet ((s.sets r).setInsert key data) fun (b, v) => .done (s.putSet r v) b
    else .blocked
  | .setRemove r key, s =>
    if (s.setLock r).admits t then
      ofSet ((s.sets r).setRemove key) fun (b, v) => .done (s.putSet r v) b
    else .blocked
  | .setFind r key, s =>
    if (s.setLock r).admits t then ofSet ((s.sets r).setFind key) fun d => .done s d
    else .blocked
  | .setCount r, s => ofSet ((s.sets r).setList) fun l => .done s l.length
  | .setStart r, s => match (s.setLock r).wait t with
    | none => .blocked
    | some lock => ofSet ((s.sets r).setList) fun l => .done (s.putLock r lock) l
  | .setFinish r, s => match (s.setLock r).post t with
    | none => .fault (.assertion .lockPostOwner)
    | some lock => .done (s.putLock r lock) ()
  | .rand, s => .done { s with draws := s.draws + 1 } (s.candidates s.draws)
  | .loadBalancing, s => .done s s.loadBalancing
  | .memory n, s => .done s (s.memory s.next n)
  | .phase u ph, s => .done { s with phase := Function.update s.phase u ph } ()
  | .net o, s => match Net.exec o s.net with
    | .done net r => .done { s with net := net } r
    | .fault f => .fault (.net f)
    | .blocked => .blocked
  | .deliver sd i, s =>
    .done { s with net := s.net.withInq sd ((s.net sd).inq ++ [i]) } ()
  | .fail f, _ => .fault f
  | .spin, _ => .blocked

def State.dropSet (s : State) (r : SetRef) : State :=
  s.putSet r { IdSet.empty with damaged := true }

@[simp] theorem State.dropSet_heap (s : State) (r : SetRef) : (s.dropSet r).heap = s.heap := rfl

theorem State.dropSet_sets (s : State) {r r' : SetRef} (h : r' ≠ r) :
    (s.dropSet r).sets r' = s.sets r' := State.putSet_sets_of_ne _ _ h

abbrev AProg (α : Type) := Prog Op Op.Res α

/-- Runs a program of thread `t` alone. -/
abbrev run {α : Type} (t : Tid) (p : AProg α) (s : State) : Outcome State Fault α :=
  p.run exec t s

section
variable {α : Type}

def perform (o : Op) : AProg o.Res := Prog.perform o

def new (k : Kind) (r : k.Rec) : AProg Addr := perform (.new k r)

def read (k : Kind) (a : Addr) : AProg k.Rec := perform (.read k a)

def store (k : Kind) (a : Addr) (v : k.Store) : AProg Unit :=
  perform (.store k a v)

def free (k : Kind) (a : Addr) : AProg Unit := perform (.free k a)

def lockWait (l : Addr) : AProg Unit := perform (.lockWait l)

def lockPost (l : Addr) : AProg Unit := perform (.lockPost l)

def setCreate (r : SetRef) : AProg Unit := perform (.setCreate r)

def setDestroy (r : SetRef) : AProg Unit := perform (.setDestroy r)

def setInsert (r : SetRef) (key : r.Key) (data : Addr) : AProg Bool :=
  perform (.setInsert r key data)

def setRemove (r : SetRef) (key : r.Key) : AProg Bool :=
  perform (.setRemove r key)

def setFind (r : SetRef) (key : r.Key) : AProg (Option Addr) :=
  perform (.setFind r key)

def setCount (r : SetRef) : AProg ℕ := perform (.setCount r)

def setStart (r : SetRef) : AProg (List Addr) := perform (.setStart r)

def setFinish (r : SetRef) : AProg Unit := perform (.setFinish r)

def rand : AProg Candidate := perform .rand

def loadBalancing : AProg Bool := perform .loadBalancing

def memory (n : ℕ) : AProg Bool := perform (.memory n)

def setPhase (t : Tid) (ph : Phase) : AProg Unit := perform (.phase t ph)

def fail (f : Fault) : AProg α := .op (.fail f) nofun

def spin : AProg α := .op .spin nofun

def assert (b : Bool) (a : Assertion) : AProg Unit :=
  if b then pure () else fail (.assertion a)

/-- Follows a pointer that may be `NULL`. -/
def deref : Option α → AProg α
  | none => fail .nullPointer
  | some a => pure a

/-- A call of `net.c`, `block.c` or `stream.c`. -/
def net (p : NetProg Sd α) : AProg α := p.lift Op.net fun _ r => r

@[simp] theorem net_pure (a : α) : net (pure a) = pure a := rfl

theorem net_bind (p : NetProg Sd α) (f : α → NetProg Sd β) :
    net (p >>= f) = net p >>= fun a => net (f a) := Prog.lift_bind _ _ p f

def lockCreate : AProg Addr := new .lock .free

def lockDestroy (l : Addr) : AProg Unit := do
  lockWait l
  free .lock l

def providerLock (p : Addr) : AProg Unit := do
  let provider ← read .provider p
  lockWait provider.lock

def providerUnlock (p : Addr) : AProg Unit := do
  let provider ← read .provider p
  lockPost provider.lock

end

end Clara.Agent
