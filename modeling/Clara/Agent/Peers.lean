import Clara.Agent.Remote

/-! `platform.c`, `device.c`, `provider.c`, `consumer.c` and `loadbalancer.c`: the records of
the peers, how they come and how they go. -/
namespace Clara.Agent

open Conc

structure PlatformInfo where
  id : Arg
  info : UInt32 → Bytes

structure DeviceInfo where
  id : Arg
  platformId : Arg
  type : UInt64
  available : Bool
  info : UInt32 → Bytes

def forEach (f : Addr → AProg Unit) : List Addr → AProg Unit
  | [] => pure ()
  | a :: as => do
    f a
    forEach f as

def lbAddPlatform (platform : Addr) : AProg Bool := do
  let pf ← read .platform platform
  setInsert .lbPlatforms pf.globalId platform

def lbRemovePlatform (platform : Addr) : AProg Bool := do
  let pf ← read .platform platform
  setRemove .lbPlatforms pf.globalId

def lbAllocatePlatform (consumer : Addr) : AProg Bool := do
  let platforms ← setStart .lbPlatforms
  let platform ← findFirst (fun a => do
    let pf ← read .platform a
    pure pf.consumer.isNone) platforms
  match platform with
  | none =>
    setFinish .lbPlatforms
    pure false
  | some platform =>
    store .platform platform (some consumer)
    store .consumer consumer (.platform (some platform))
    setFinish .lbPlatforms
    pure true

def lbReleasePlatform (consumer : Addr) : AProg Bool := do
  let c ← read .consumer consumer
  match c.platform with
  | none => pure false
  | some platform =>
    let pf ← read .platform platform
    if pf.consumer ≠ some consumer then pure false
    else
      store .consumer consumer (.platform none)
      store .platform platform none
      pure true

def platformCreate (provider : Addr) (info : PlatformInfo) : AProg Addr := do
  let _ ← read .provider provider
  let globalId ← idCreate
  let platform ← new .platform ⟨provider, none, info.id, globalId, info.info⟩
  setCreate (.devices platform)
  pure platform

def deviceCreate (provider : Addr) (info : DeviceInfo) : AProg Addr := do
  let _ ← read .provider provider
  let globalId ← idCreate
  new .device ⟨provider, info.platformId, info.id, globalId, info.type, info.available, info.info⟩

def deviceDestroy (device : Addr) : AProg Unit := do
  let dv ← read .device device
  let _ ← read .provider dv.provider
  assert (← idRelease dv.globalId) .deviceId
  free .device device

def platformDestroy (platform : Addr) : AProg Bool := do
  let pf ← read .platform platform
  let _ ← read .provider pf.provider
  if ← idRelease pf.globalId then
    let devices ← setStart (.devices platform)
    forEach deviceDestroy devices
    setFinish (.devices platform)
    setDestroy (.devices platform)
    free .platform platform
    pure true
  else pure false

def agentFindPlatformByLocalId (provider : Addr) (id : Arg) : AProg (Option Addr) := do
  let platforms ← setStart (.platforms provider)
  let platform ← findFirst (fun a => do
    let pf ← read .platform a
    pure (pf.id == id)) platforms
  setFinish (.platforms provider)
  pure platform

/-- The platforms of the given providers; `platform` is left as the last search left it. -/
def findPlatform (id : GlobalId) (platform : Option Addr) : List Addr → AProg (Option Addr)
  | [] => pure platform
  | provider :: providers => do
    let platforms ← setStart (.platforms provider)
    let platform ← findFirst (fun a => do
      let pf ← read .platform a
      pure (pf.globalId == id)) platforms
    setFinish (.platforms provider)
    match platform with
    | some platform => pure (some platform)
    | none => findPlatform id none providers

/-- Without a provider the variable `platform` is returned as it was declared. -/
def agentFindPlatformByGlobalId (id : GlobalId) : AProg (Option Addr) := do
  let providers ← setStart .providers
  if providers = [] then
    setFinish .providers
    fail .uninitialised
  else
    let platform ← findPlatform id none providers
    setFinish .providers
    pure platform

def findDevice (id : GlobalId) : List Addr → AProg (Option Addr)
  | [] => pure none
  | platform :: platforms => do
    let devices ← setStart (.devices platform)
    let device ← findFirst (fun a => do
      let dv ← read .device a
      pure (dv.globalId == id)) devices
    setFinish (.devices platform)
    match device with
    | some device => pure (some device)
    | none => findDevice id platforms

def findDeviceOf (id : GlobalId) : List Addr → AProg (Option Addr)
  | [] => pure none
  | provider :: providers => do
    let platforms ← setStart (.platforms provider)
    let device ← findDevice id platforms
    setFinish (.platforms provider)
    match device with
    | some device => pure (some device)
    | none => findDeviceOf id providers

def agentFindDeviceByGlobalId (id : GlobalId) : AProg (Option Addr) := do
  let providers ← setStart .providers
  let device ← findDeviceOf id providers
  setFinish .providers
  pure device

def providerCreate (addr : UInt32) : AProg Addr := do
  let lock ← lockCreate
  let provider ← new .provider ⟨addr, lock, false⟩
  setCreate (.platforms provider)
  pure provider

def providerAttach (provider : Addr) : AProg Bool := do
  if ← setInsert .providers provider provider then
    store .provider provider true
    pure true
  else pure false

/-- The reference to the agent stays, for `platform_destroy`. -/
def providerDetach (provider : Addr) : AProg Bool := do
  let p ← read .provider provider
  if p.attached = false then pure false
  else
    if ← loadBalancing then
      let platforms ← setStart (.platforms provider)
      forEach (fun platform => do
        let _ ← lbRemovePlatform platform) platforms
      setFinish (.platforms provider)
    setRemove .providers provider

def providerDestroy (provider : Addr) : AProg Bool := do
  let p ← read .provider provider
  lockDestroy p.lock
  let platforms ← setStart (.platforms provider)
  forEach (fun platform => do
    let _ ← platformDestroy platform) platforms
  setFinish (.platforms provider)
  setDestroy (.platforms provider)
  free .provider provider
  pure true

def consumerCreate : AProg Addr := do
  let consumer ← new .consumer ⟨false, none⟩
  setCreate (.objectsOf consumer)
  setCreate (.allocations consumer)
  pure consumer

def consumerAttach (consumer : Addr) : AProg Bool := do
  if ← setInsert .consumers consumer consumer then
    store .consumer consumer (.attached true)
    pure true
  else pure false

def consumerDetach (consumer : Addr) : AProg Bool := do
  let c ← read .consumer consumer
  if c.attached = false then pure false
  else
    if ← loadBalancing then
      let _ ← lbReleasePlatform consumer
    if ← setRemove .consumers consumer then
      store .consumer consumer (.attached false)
      pure true
    else pure false

/-- `consumer->agent` is `NULL` here: `consumer_detach` has cleared it. -/
def consumerDestroy (consumer : Addr) : AProg Bool := do
  let c ← read .consumer consumer
  if c.attached then pure false
  else
    let allocations ← setStart (.allocations consumer)
    forEach (fun allocation => do
      let _ ← claraDestroyAllocation allocation
      fail .nullPointer) allocations
    setFinish (.allocations consumer)
    setDestroy (.allocations consumer)
    let _ ← setStart (.objectsOf consumer)
    setFinish (.objectsOf consumer)
    setDestroy (.objectsOf consumer)
    free .consumer consumer
    pure true

end Clara.Agent
