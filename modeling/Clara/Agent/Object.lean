import Clara.Agent.State

/-! `id.c`, `object.c` and `opencl_object.c`: virtual ids, the objects that carry them, and
their reference counts. -/
namespace Clara.Agent

open Conc

/-- The outer loop of `id_create`. -/
def idCreateLoop : ℕ → AProg GlobalId
  | 0 => spin
  | n + 1 => do
    let candidate ← rand
    if ← setInsert .idPool candidate.val 0 then pure candidate.val else idCreateLoop n

/-- After an insertion that found its key the pool is damaged, so a second turn is the last. -/
def idCreate : AProg GlobalId := idCreateLoop 2

def idRelease (id : GlobalId) : AProg Bool := setRemove .idPool id

def objectCreate (provider : Addr) (realId : Arg) (id : GlobalId) : AProg (Option Addr) := do
  if realId = 0 ∨ id = invalidId then pure none
  else
    let lock ← lockCreate
    let object ← new .object ⟨id, realId, 0, lock, provider, none⟩
    let _ ← read .provider provider
    assert (← setInsert .objects id object) .objectCreateInsert
    pure (some object)

def objectRetain (object consumer : Addr) : AProg Bool := do
  let o ← read .object object
  lockWait o.lock
  let o ← read .object object
  if 0 < o.refcnt ∧ o.consumer ≠ some consumer then
    lockPost o.lock
    pure false
  else
    if o.refcnt = 0 then
      store .object object (.consumer (some consumer))
      assert (← setInsert (.objectsOf consumer) o.id object) .objectRetainInsert
    store .object object (.refcnt (o.refcnt + 1))
    lockPost o.lock
    pure true

def objectRelease (object : Addr) : AProg Bool := do
  let o ← read .object object
  lockWait o.lock
  let o ← read .object object
  store .object object (.refcnt (o.refcnt - 1))
  if o.refcnt - 1 = 0 then
    let consumer ← deref o.consumer
    assert (← setRemove (.objectsOf consumer) o.id) .objectReleaseRemove
    store .object object (.consumer none)
  lockPost o.lock
  pure true

/-- The caller holds the object's lock. -/
def objectDestroy (object : Addr) : AProg Bool := do
  let o ← read .object object
  if o.refcnt ≠ 0 then pure false
  else
    let _ ← read .provider o.provider
    assert (← setRemove .objects o.id) .objectDestroyRemove
    free .object object
    lockPost o.lock
    lockDestroy o.lock
    pure true

def mappingParams (virt : GlobalId) (real : Arg) : Bytes := Bytes.words [virt, real]

/-- Unlike its siblings in `remote.c` it does not take the provider's lock. -/
def agentRemoteMap (provider : Addr) (real : Arg) (virt : GlobalId) : AProg Bool := do
  let _ ← read .provider provider
  match ← net (claraSendmsg (.provider provider) Msg.mapping (mappingParams virt real)) with
  | none => pure false
  | some ssz =>
    assert (ssz == (mappingParams virt real).length) .remoteMapSize
    pure true

def clCreateObject (provider : Option Addr) (consumer : Addr) (localId : Arg)
    (wish : GlobalId) : AProg GlobalId := do
  let provider ← deref provider
  let _ ← read .provider provider
  if localId = 0 then pure invalidId
  else
    let id ← (if wish = invalidId then idCreate else pure wish : AProg GlobalId)
    match ← objectCreate provider localId id with
    | none => fail (.assertion .clCreateObjectCreate)
    | some obj =>
      assert (← objectRetain obj consumer) .clCreateObjectRetain
      if wish = invalidId then
        let _ ← agentRemoteMap provider localId id
      pure id

def clRetainObject (consumer : Addr) (id : GlobalId) : AProg Bool := do
  let _ ← read .consumer consumer
  match ← setFind .objects id with
  | none => pure false
  | some obj =>
    assert (← objectRetain obj consumer) .clRetainObjectRetain
    pure true

def clReleaseObject (consumer : Addr) (id : GlobalId) : AProg Bool := do
  let _ ← read .consumer consumer
  match ← setFind .objects id with
  | none => pure false
  | some obj =>
    let o ← read .object obj
    lockWait o.lock
    let _ ← objectRelease obj
    let o ← read .object obj
    if o.refcnt = 0 then
      let _ ← read .provider o.provider
      assert (← idRelease id) .clReleaseObjectId
      assert (← objectDestroy obj) .clReleaseObjectDestroy
    else lockPost o.lock
    pure true

end Clara.Agent
