import Mathlib.Data.List.ModifyLast
import Clara.Common.Rpc
import Clara.Provider.Description
import Clara.Provider.OpenCl

/-! `provider_startup`: a provider enters its platform and its devices, tells the agent about each
of them, and maps the global id that it gets back to the id that its library knows. -/
namespace Clara.Provider

open Conc

/-- A step of the start. The set of platforms and the sets of devices are reached by nothing else
meanwhile, so a change of them is one step. -/
inductive StartupOp
  | net (o : NetOp Unit)
  /-- `mapping_create` and the `set_insert` behind it, both asserted. -/
  | mapping (virt : GlobalId) (real : Arg)
  | platforms (f : List Platform → List Platform)

abbrev StartupOp.Res : StartupOp → Type
  | .net o => o.Res
  | _ => Unit

abbrev SProg (α : Type) := Prog StartupOp StartupOp.Res α

section
variable {Cl : Type}

def startupExec (_ : Unit) : (o : StartupOp) → State Cl → Outcome (State Cl) Fault o.Res
  | .net o, s => match Net.exec o s.net with
    | .done n r => .done { s with net := n } r
    | .fault f => .fault (.net f)
    | .blocked => .blocked
  | .mapping virt real, s => (do
      let b ← mappingInsert virt real
      PProg.assert b .mappingInsert : PProg Cl Unit) s
  | .platforms f, s => .done { s with platforms := f s.platforms } ()

end

namespace SProg
variable {α : Type}

/-- A call of `net.c`. -/
def net (p : NetProg Unit α) : SProg α := p.lift StartupOp.net fun _ r => r

def mapping (virt : GlobalId) (real : Arg) : SProg Unit := Prog.perform (StartupOp.mapping virt real)

def platforms (f : List Platform → List Platform) : SProg Unit := Prog.perform (StartupOp.platforms f)

/-- There is one platform in the set. -/
def platform (f : Platform → Platform) : SProg Unit := platforms (List.map f)

end SProg

open SProg

/-- What the library answers while the provider starts; `none` is an error. `clGetPlatformIDs` is
asked for one platform. `clGetDeviceIDs` gets the number of entries that it may store, and answers
with the number of devices and the entries stored. -/
structure Queries where
  clGetPlatformIDs : Option Arg
  clGetPlatformInfo : Arg → Query PlatformParam
  clGetDeviceIDs : Arg → ℕ → Option (ℕ × List Arg)
  clGetDeviceInfo : Arg → Query DeviceParam

/-- The array that `calloc` made for `n` ids, after they have been stored. -/
def deviceIds (n : ℕ) (ids : List Arg) : List Arg := (ids ++ List.replicate n 0).take n

/-- A variable that was zero, and into which the payload of a message has been received. -/
def globalIdReceived : Received → GlobalId
  | .failed => 0
  | .message _ msg | .notification msg => ((Bytes.word 0).overwrite 0 msg).wordAt 0

/-- Neither the send nor what comes back is checked. -/
def startupRegister (type : MessageType) (msg : Bytes) : SProg GlobalId := do
  let _ ← net (claraSendmsg () type msg)
  let received ← net (claraRecvmsg () 8)
  pure (globalIdReceived received)

variable (lib : Queries) (malloc : (n : ℕ) → Buffer n)

def startupDevice (id : Arg) : SProg Unit := do
  platform fun pf => { pf with devices := pf.devices ++ [⟨id, 0⟩] }
  let globalId ← startupRegister Msg.openclDeviceInfo
    (describe (lib.clGetDeviceInfo id) malloc deviceInfoList id)
  platform fun pf =>
    { pf with devices := pf.devices.modifyLast fun device => { device with globalId := globalId } }
  mapping globalId id

/-- The loop from the `i`-th device on. `device` is the option `-d`: the devices before the one it
names are passed over, and the loop is left behind that one. -/
def startupDevices (device : ℤ) : (i : ℕ) → List Arg → SProg Unit
  | _, [] => pure ()
  | i, id :: ids =>
    if device ≠ -1 ∧ i ≠ device then startupDevices device (i + 1) ids
    else do
      startupDevice lib malloc id
      if device ≠ -1 then pure () else startupDevices device (i + 1) ids

def startupPlatform (id : Arg) : SProg Unit := do
  platform fun pf => { pf with id := id }
  let globalId ← startupRegister Msg.openclPlatformInfo
    (describe (lib.clGetPlatformInfo id) malloc platformInfoList id)
  platform fun pf => { pf with globalId := globalId }
  mapping globalId id

/-- `false` when the library has no platform or does not list its devices. -/
def providerStartup (device : ℤ) : SProg Bool := do
  platforms fun _ => [⟨0, 0, []⟩]
  match lib.clGetPlatformIDs with
  | none => pure false
  | some id =>
    startupPlatform lib malloc id
    match lib.clGetDeviceIDs id 0 with
    | none => pure false
    | some (numDevices, _) =>
      match lib.clGetDeviceIDs id numDevices with
      | none => pure false
      | some (_, ids) =>
        startupDevices lib malloc device 0 (deviceIds numDevices ids)
        pure true

/-- `provider_main` from the agent's consent on, up to the loop. -/
def providerJoin (device : ℤ) : SProg Bool := do
  if ← providerStartup lib malloc device then
    let _ ← net (claraSendmsg () Msg.idle [])
    pure true
  else pure false

def offered (device : ℤ) (ids : List Arg) : List Arg :=
  if device = -1 then ids else if 0 ≤ device then ids[device.toNat]?.toList else []

section
variable {lib malloc} {device : ℤ}

def startupEach (lib : Queries) (malloc : (n : ℕ) → Buffer n) : List Arg → SProg Unit
  | [] => pure ()
  | id :: ids => do
    startupDevice lib malloc id
    startupEach lib malloc ids

theorem startupDevices_all (i : ℕ) (ids : List Arg) :
    startupDevices lib malloc (-1) i ids = startupEach lib malloc ids := by
  induction ids generalizing i with
  | nil => rfl
  | cons id ids ih =>
    rw [startupDevices, if_neg (fun h => h.1 rfl), startupEach]
    simp only [ne_eq, not_true_eq_false, if_false, ih]

/-- One device is looked for, and nothing happens on the way. -/
theorem startupDevices_one (hd : device ≠ -1) (i : ℕ) (ids : List Arg) :
    startupDevices lib malloc device i ids = startupEach lib malloc
      (if (i : ℤ) ≤ device then ids[(device - i).toNat]?.toList else []) := by
  induction ids generalizing i with
  | nil =>
    rw [startupDevices]
    simp [startupEach]
  | cons id ids ih =>
    rw [startupDevices]
    rcases eq_or_ne (i : ℤ) device with rfl | hne
    · rw [if_neg fun h => h.2 rfl, if_pos le_rfl, sub_self]
      simp only [if_pos hd]
      rfl
    · rw [if_pos ⟨hd, hne⟩, ih]
      by_cases hle : (i : ℤ) ≤ device
      · have hnat : (device - i).toNat = (device - (i + 1 : ℕ)).toNat + 1 := by omega
        rw [if_pos hle, if_pos (by omega), hnat, List.getElem?_cons_succ]
      · rw [if_neg hle, if_neg (by omega)]

/-- The loop enters the devices that the option leaves. -/
theorem startupDevices_offered (device : ℤ) (ids : List Arg) :
    startupDevices lib malloc device 0 ids = startupEach lib malloc (offered device ids) := by
  rw [offered]
  split_ifs with hall hle
  · rw [hall, startupDevices_all]
  · rw [startupDevices_one hall, Nat.cast_zero, if_pos hle, sub_zero]
  · rw [startupDevices_one hall, Nat.cast_zero, if_neg hle]

end

/-- The platform with one more device. -/
def Platform.with (pf : Platform) (device : Device) : Platform :=
  { pf with devices := pf.devices ++ [device] }

theorem registrations_with (pf : Platform) (device : Device) :
    registrations [pf.with device] = registrations [pf] ++ [(device.globalId, device.id)] := by
  simp [registrations, Platform.with]

theorem registrations_single (pf : Platform) :
    registrations [pf] = (pf.globalId, pf.id) :: pf.devices.map fun d => (d.globalId, d.id) := by
  simp [registrations]

end Clara.Provider
