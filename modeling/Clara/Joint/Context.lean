import Clara.Consumer.OpenCl
import Clara.Joint.Grants
import Clara.Provider.Context

/-! `clCreateContext` from the consumer's function to the OpenCL library of the provider: three
allocations at the provider, and the request in which their handles are passed on. -/
namespace Clara.Joint

open Conc Consumer Provider

variable {Cl : Type}

/-- Runs a function of the consumer library, call by call, together with the agent and the
provider. -/
abbrev stub {α : Type} (g : Session Cl) (fuel : ℕ) (p : CProg α) (x : Trio Cl) :
    Outcome (Trio Cl) SessionFault α :=
  p.run (fun _ c x => Joint.call g (c.program g.lzo fuel) x) () x

theorem stub_bind {α β : Type} (g : Session Cl) (fuel : ℕ) (p : CProg α) (f : α → CProg β)
    (x : Trio Cl) : stub g fuel (p >>= f) x = (stub g fuel p x).bind fun x a => stub g fuel (f a) x :=
  Prog.run_bind _ _ p f x

theorem stub_perform (g : Session Cl) (fuel : ℕ) (c : Consumer.Call) (x : Trio Cl) :
    stub g fuel (Consumer.perform c) x = Joint.call g (c.program g.lzo fuel) x :=
  Prog.run_perform _ _ c x

/-- The arguments of `clCreateContext`: what the pointers point to, and whether the others are
`NULL`. -/
structure ContextArgs where
  properties : List Arg
  numDevices : UInt32
  devices : List Arg
  pfnNotify : Bool
  userData : Bool
  errcodeRet : Bool

def ContextArgs.create (a : ContextArgs) : CProg Reply :=
  clCreateContext (some a.properties) a.numDevices (some a.devices) a.pfnNotify a.userData
    a.errcodeRet

/-- The properties, of which there is at least one, all name the platform `id`; there is at least
one device; and each of the two lists fits into a message. -/
structure ContextArgs.Names (a : ContextArgs) (k : ℕ) (id : GlobalId) (ids : List GlobalId) :
    Prop where
  properties : ∃ rest, a.properties = platformProperties (k + 1) id ++ rest
  devices : ∃ rest, a.devices = ids ++ rest
  numDevices : a.numDevices.toNat = ids.length
  nonempty : ids ≠ []
  callback : ¬ (a.pfnNotify = false ∧ a.userData = true)
  propertiesFit : 32 + 8 * (2 * (k + 1) + 1) ≤ Agent.recvbufsz
  devicesFit : 32 + 8 * ids.length ≤ Agent.recvbufsz

structure ContextHandles where
  properties : Handle
  devices : Handle
  errcodeRet : Handle

def contextArguments (a : ContextArgs) (hint : GlobalId) (ctxPropSize : UInt64) :
    CProg (Option ContextHandles) := do
  let hProperties ← malloc (some (Bytes.words a.properties)) ctxPropSize hint
  if hProperties = invalidHandle then pure none
  else
    let hDevices ← perform (.allocate a.numDevices.toUInt64 sizeofId
      ((idList (some a.devices)).map fun mem => mem.take (idListSize a.numDevices).toNat) hint)
    if hDevices = invalidHandle then
      free hProperties hint
      pure none
    else
      let hErrcodeRet ← perform (.allocate 1 sizeofInt none hint)
      if hErrcodeRet = invalidHandle then
        free hDevices hint
        free hProperties hint
        pure none
      else pure (some ⟨hProperties, hDevices, hErrcodeRet⟩)

/-- The words of the request. -/
def ContextArgs.argv (a : ContextArgs) (h : ContextHandles) : List Arg :=
  [h.properties, a.numDevices.toUInt64, h.devices, 0, 0, h.errcodeRet]

def contextExecute (a : ContextArgs) (hint : GlobalId) (h : ContextHandles) : CProg Reply := do
  let rv ← execute .createContext 8 hint (a.argv h)
  let (_, errcode) ← perform (.fetch h.errcodeRet a.errcodeRet sizeofInt hint)
  free h.devices hint
  free h.properties hint
  pure ⟨rv, errcodeSet a.errcodeRet errcode⟩

def contextFinish (a : ContextArgs) (hint : GlobalId) : Option ContextHandles → CProg Reply
  | none => pure ⟨nullObject, errcodeSet a.errcodeRet clOutOfHostMemory⟩
  | some h => contextExecute a hint h

theorem contextProperties_eq (k : ℕ) (id platformId : Arg) (ctxPropSize : ℕ) (rest : List Arg) :
    Consumer.contextProperties (platformProperties k id ++ rest) platformId ctxPropSize =
      pure (some (if k = 0 then platformId else id, ctxPropSize + 8 * (2 * k + 1))) := by
  induction k generalizing platformId ctxPropSize with
  | zero => rfl
  | succ k ih =>
    have hnext := ih id (ctxPropSize + 16)
    rw [ite_self] at hnext
    have hsize : ctxPropSize + 16 + 8 * (2 * k + 1) = ctxPropSize + 8 * (2 * (k + 1) + 1) := by
      omega
    have hname : Consumer.contextProperties (platformProperties (k + 1) id ++ rest) platformId
        ctxPropSize = Consumer.contextProperties (platformProperties k id ++ rest) id
          (ctxPropSize + 16) := rfl
    rw [hname, hnext, hsize, if_neg (Nat.succ_ne_zero k)]

section
variable {a : ContextArgs} {k : ℕ} {id : GlobalId} {ids : List GlobalId}

def ctxPropSize (k : ℕ) : UInt64 := UInt64.ofNat (8 * (2 * (k + 1) + 1))

theorem ContextArgs.Names.create_eq (h : a.Names k id ids) (hid : id ≠ invalidHandle) :
    a.create = contextArguments a id (ctxPropSize k) >>= contextFinish a id := by
  obtain ⟨rest, hprops⟩ := h.properties
  have hplatform : Consumer.contextPlatform a.properties = pure (.inr (id, ctxPropSize k)) := by
    have hne : ¬ id = 0 := hid
    rw [Consumer.contextPlatform, hprops, contextProperties_eq, if_neg (Nat.succ_ne_zero k)]
    simp only [Prog.pure_bind', if_neg hne, Nat.zero_add]
    rfl
  have hdevices : ¬ (some a.devices = none ∨ a.numDevices = 0) := by
    rintro (hnone | hzero)
    · cases hnone
    · have hn := h.numDevices
      rw [hzero] at hn
      exact h.nonempty (List.length_eq_zero_iff.mp hn.symm)
  rw [create, clCreateContext]
  simp only [if_neg hdevices, if_neg h.callback, hplatform, Prog.pure_bind']
  rw [contextArguments, Prog.bind_assoc']
  congr 1
  funext hProperties
  split_ifs with hp
  · rfl
  · rw [Prog.bind_assoc']
    congr 1
    funext hDevices
    split_ifs with hd
    · rw [Prog.bind_assoc']
      rfl
    · rw [Prog.bind_assoc']
      congr 1
      funext hErrcodeRet
      split_ifs with he
      · rw [Prog.bind_assoc']
        congr 1
        funext _
        rw [Prog.bind_assoc']
        rfl
      · rfl

end

section
variable {g : Session Cl} {x : Trio Cl} {y : Pair Cl} {provider : Agent.Provider}
  {a : ContextArgs} {k : ℕ} {id : GlobalId} {ids : List GlobalId} {fuel : ℕ}

def propertiesData (k : ℕ) (id : GlobalId) : Bytes := Bytes.words (platformProperties (k + 1) id)

theorem length_propertiesData (k : ℕ) (id : GlobalId) :
    (propertiesData k id).length = 8 * (2 * (k + 1) + 1) := by
  rw [propertiesData, Bytes.length_words, length_platformProperties]

/-- The two processes when the memory for the properties, for the devices and for the error code has
been allocated. -/
def Pair.withProperties (y : Pair Cl) (k : ℕ) (id : GlobalId) : Pair Cl :=
  y.granted 1 (ctxPropSize k) (propertiesData k id) id

def Pair.withDevices (y : Pair Cl) (n : UInt32) (ids : List GlobalId) (id : GlobalId) : Pair Cl :=
  y.granted n.toUInt64 sizeofId (Bytes.words ids) id

def Pair.withErrcode (y : Pair Cl) (id : GlobalId) : Pair Cl := y.granted 1 sizeofInt [] id

theorem ContextArgs.Names.toNat_ctxPropSize (h : a.Names k id ids) :
    (ctxPropSize k).toNat = 8 * (2 * (k + 1) + 1) := by
  have hfit := h.propertiesFit
  unfold Agent.recvbufsz at hfit
  rw [ctxPropSize, UInt64.toNat_ofNat', Nat.mod_eq_of_lt (by omega)]

theorem ContextArgs.Names.properties_size (h : a.Names k id ids) :
    (propertiesData k id).length = (1 : UInt64).toNat * (ctxPropSize k).toNat := by
  rw [h.toNat_ctxPropSize, length_propertiesData]
  exact (Nat.one_mul _).symm

theorem ContextArgs.Names.devices_size (h : a.Names k id ids) :
    (Bytes.words ids).length = a.numDevices.toUInt64.toNat * sizeofId.toNat := by
  rw [UInt32.toNat_toUInt64, h.numDevices, Bytes.length_words, Nat.mul_comm]
  rfl

theorem ContextArgs.Names.fills_properties (h : a.Names k id ids) :
    Fills 1 (ctxPropSize k) (propertiesData k id) := by
  have hfit := h.propertiesFit
  rw [← length_propertiesData k id] at hfit
  refine ⟨?_, .inr h.properties_size, hfit⟩
  rw [← h.properties_size]
  exact lt_of_fits hfit

theorem ContextArgs.Names.fills_devices (h : a.Names k id ids) :
    Fills a.numDevices.toUInt64 sizeofId (Bytes.words ids) := by
  have hfit := h.devicesFit
  rw [← Bytes.length_words ids] at hfit
  refine ⟨?_, .inr h.devices_size, hfit⟩
  rw [← h.devices_size]
  exact lt_of_fits hfit

theorem fills_errcode : Fills 1 sizeofInt [] := ⟨by decide, .inl rfl, by decide⟩

/-- The part of the memory that is sent with the first allocation. -/
theorem ContextArgs.Names.malloc_properties (h : a.Names k id ids) :
    (Bytes.words a.properties).take (ctxPropSize k).toNat = propertiesData k id := by
  obtain ⟨rest, hprops⟩ := h.properties
  rw [h.toNat_ctxPropSize, ← length_propertiesData k id, hprops, Bytes.words_append]
  exact List.take_left' rfl

theorem ContextArgs.Names.allocate_devices (h : a.Names k id ids) :
    (Consumer.idList (some a.devices)).map
      (fun mem => mem.take (idListSize a.numDevices).toNat) = some (Bytes.words ids) := by
  obtain ⟨rest, hdevices⟩ := h.devices
  have hfit := h.devicesFit
  unfold Agent.recvbufsz at hfit
  have hsize : (idListSize a.numDevices).toNat = (Bytes.words ids).length := by
    rw [idListSize, UInt64.toNat_mul, ← h.devices_size, Bytes.length_words,
      Nat.mod_eq_of_lt (by omega)]
  rw [Consumer.idList, hdevices, hsize, Option.map_some, Option.map_some, Bytes.words_append,
    List.take_left' rfl]

theorem Grants.stub_allocate (h : Grants g provider x y id) {nmemb size : UInt64} {data : Bytes}
    (hf : Fills nmemb size data) {n : ℕ} (hm : y.HasRoom (n + 1)) (hnew : y.Admits)
    (fuel : ℕ) : stub g fuel (Consumer.perform (.allocate nmemb size (some data) id)) x =
      .done ⟨.wire [] [], y.granted nmemb size data id⟩ y.agent.nextId := by
  rw [stub_perform]
  exact h.call_allocate hf (hm.memory 0 n.succ_pos) hnew

theorem Grants.admits_of_done (h : Grants g provider x y id) {nmemb size : UInt64} {data : Bytes}
    (hf : Fills nmemb size data) {n : ℕ} (hm : y.HasRoom (n + 1)) {z : Trio Cl}
    {handle : Handle}
    (hrun : stub g fuel (Consumer.perform (.allocate nmemb size (some data) id)) x =
      .done z handle) :
    y.Admits ∧ z = ⟨.wire [] [], y.granted nmemb size data id⟩ := by
  by_cases hnew : y.Admits
  · rw [h.stub_allocate hf hm hnew fuel] at hrun
    obtain ⟨rfl, -⟩ := Outcome.done.inj hrun
    exact ⟨hnew, rfl⟩
  · obtain ⟨f, hfault⟩ := h.call_refused hf (hm.memory 0 n.succ_pos) hnew
    have hcall : stub g fuel (Consumer.perform (.allocate nmemb size (some data) id)) x =
        .fault f := by
      rw [stub_perform]
      exact hfault
    rw [hcall] at hrun
    cases hrun

theorem nextId_ne (s : Agent.State) : s.nextId ≠ invalidHandle := (s.candidates s.draws).property

/-- The two processes when the request is made. -/
def Pair.forContext (y : Pair Cl) (k : ℕ) (n : UInt32) (ids : List GlobalId) (id : GlobalId) :
    Pair Cl :=
  ((y.withProperties k id).withDevices n ids id).withErrcode id

def Pair.contextHandles (y : Pair Cl) : ContextHandles :=
  ⟨drawn y.agent 0, drawn y.agent 1, drawn y.agent 2⟩

structure Stages (g : Session Cl) (provider : Agent.Provider) (y : Pair Cl) (a : ContextArgs) (k : ℕ)
    (id : GlobalId) (ids : List GlobalId) : Prop where
  first : y.Admits
  second : (y.withProperties k id).Admits
  third : ((y.withProperties k id).withDevices a.numDevices ids id).Admits
  grants₁ : Grants g provider ⟨.wire [] [], y.withProperties k id⟩ (y.withProperties k id) id
  grants₂ : Grants g provider
    ⟨.wire [] [], (y.withProperties k id).withDevices a.numDevices ids id⟩
    ((y.withProperties k id).withDevices a.numDevices ids id) id
  grants₃ : Grants g provider ⟨.wire [] [], y.forContext k a.numDevices ids id⟩
    (y.forContext k a.numDevices ids id) id

theorem Grants.stages (h : Grants g provider x y id) (a : ContextArgs) (k : ℕ)
    (ids : List GlobalId) (hd : y.Draws 3) : Stages g provider y a k id ids := by
  obtain ⟨hfirst, hd₁⟩ := (y.draws_succ 1 (ctxPropSize k) (propertiesData k id) id 2).mp hd
  obtain ⟨hsecond, hd₂⟩ := ((y.withProperties k id).draws_succ a.numDevices.toUInt64 sizeofId
    (Bytes.words ids) id 1).mp hd₁
  obtain ⟨hthird, -⟩ := (((y.withProperties k id).withDevices a.numDevices ids id).draws_succ 1
    sizeofInt [] id 0).mp hd₂
  have h₁ := h.granted hfirst 1 (ctxPropSize k) (propertiesData k id)
  have h₂ := h₁.granted hsecond a.numDevices.toUInt64 sizeofId (Bytes.words ids)
  exact ⟨hfirst, hsecond, hthird, h₁, h₂, h₂.granted hthird 1 sizeofInt []⟩

theorem Grants.stub_contextArguments (h : Grants g provider x y id) (ha : a.Names k id ids)
    (hm : y.HasRoom 3) (hd : y.Draws 3) (fuel : ℕ) :
    stub g fuel (contextArguments a id (ctxPropSize k)) x =
      .done ⟨.wire [] [], y.forContext k a.numDevices ids id⟩ (some y.contextHandles) := by
  have hs := h.stages a k ids hd
  have hm₁ : (y.withProperties k id).HasRoom 2 := hm.granted ..
  have hm₂ : ((y.withProperties k id).withDevices a.numDevices ids id).HasRoom 1 :=
    hm₁.granted ..
  have hfirst := h.stub_allocate ha.fills_properties hm hs.first fuel
  have hsecond := hs.grants₁.stub_allocate ha.fills_devices hm₁ hs.second fuel
  have hthird := hs.grants₂.stub_allocate fills_errcode hm₂ hs.third fuel
  have hmalloc : malloc (some (Bytes.words a.properties)) (ctxPropSize k) id =
      Consumer.perform (.allocate 1 (ctxPropSize k) (some (propertiesData k id)) id) := by
    rw [malloc, ha.malloc_properties]
  have hnone : stub g fuel (Consumer.perform (.allocate 1 sizeofInt none id)) =
      stub g fuel (Consumer.perform (.allocate 1 sizeofInt (some []) id)) := rfl
  rw [contextArguments, hmalloc, ha.allocate_devices, stub_bind, hfirst, Outcome.bind_done,
    if_neg (nextId_ne _), stub_bind]
  show (stub g fuel _ ⟨.wire [] [], y.withProperties k id⟩).bind _ = _
  rw [hsecond, Outcome.bind_done, if_neg (nextId_ne _), stub_bind, hnone]
  show (stub g fuel _ ⟨.wire [] [], (y.withProperties k id).withDevices a.numDevices ids id⟩).bind
    _ = _
  rw [hthird, Outcome.bind_done, if_neg (nextId_ne _)]
  rfl

theorem Grants.draws_of_done (h : Grants g provider x y id) (ha : a.Names k id ids)
    (hm : y.HasRoom 3) {z : Trio Cl} {handles : ContextHandles}
    (hrun : stub g fuel (contextArguments a id (ctxPropSize k)) x = .done z (some handles)) :
    y.Draws 3 := by
  have hm₁ : (y.withProperties k id).HasRoom 2 := hm.granted ..
  have hm₂ : ((y.withProperties k id).withDevices a.numDevices ids id).HasRoom 1 :=
    hm₁.granted ..
  have hmalloc : malloc (some (Bytes.words a.properties)) (ctxPropSize k) id =
      Consumer.perform (.allocate 1 (ctxPropSize k) (some (propertiesData k id)) id) := by
    rw [malloc, ha.malloc_properties]
  rw [contextArguments, hmalloc, ha.allocate_devices, stub_bind] at hrun
  obtain ⟨z₁, h₁, hfirst, hrun⟩ := Outcome.bind_eq_done hrun
  obtain ⟨hnew, rfl⟩ := h.admits_of_done ha.fills_properties hm hfirst
  have hg₁ := h.granted hnew 1 (ctxPropSize k) (propertiesData k id)
  split_ifs at hrun with hh₁
  · cases hrun
  rw [stub_bind] at hrun
  obtain ⟨z₂, h₂, hsecond, hrun⟩ := Outcome.bind_eq_done hrun
  obtain ⟨hnew₁, rfl⟩ := hg₁.admits_of_done ha.fills_devices hm₁ hsecond
  have hg₂ := hg₁.granted hnew₁ a.numDevices.toUInt64 sizeofId (Bytes.words ids)
  split_ifs at hrun with hh₂
  · rw [stub_bind] at hrun
    obtain ⟨z₃, u, -, hrun⟩ := Outcome.bind_eq_done hrun
    cases hrun
  rw [stub_bind] at hrun
  obtain ⟨z₃, h₃, hthird, hrun⟩ := Outcome.bind_eq_done hrun
  obtain ⟨hnew₂, -⟩ := hg₂.admits_of_done fills_errcode hm₂ hthird
  have hzero : (((y.withProperties k id).withDevices a.numDevices ids id).withErrcode id).Draws 0 :=
    ⟨nofun, nofun, nofun, fun i j _ hj => absurd hj (Nat.not_lt_zero j)⟩
  exact (y.draws_succ ..).mpr ⟨hnew, ((y.withProperties k id).draws_succ ..).mpr
    ⟨hnew₁, (Pair.draws_succ _ ..).mpr ⟨hnew₂, hzero⟩⟩⟩

/-- Each handle stands for a block of its own, and these hold what the consumer has sent. -/
theorem Stages.has (h : Stages g provider y a k id ids) (ha : a.Names k id ids)
    (hm : y.HasRoom 3) :
    (y.forContext k a.numDevices ids id).Has (drawn y.agent 0) (y.block 0)
        (propertiesData k id) ∧
      (y.forContext k a.numDevices ids id).Has (drawn y.agent 1) (y.block 1)
        (Bytes.words ids) ∧
      (y.forContext k a.numDevices ids id).Has (drawn y.agent 2) (y.block 2)
        (List.replicate 4 0) := by
  have hm₁ : (y.withProperties k id).HasRoom 2 := hm.granted ..
  have hprops : (y.withProperties k id).Has (drawn y.agent 0) (y.block 0) (propertiesData k id) :=
    y.has_granted_full h.first ha.properties_size
  have hdevices : ((y.withProperties k id).withDevices a.numDevices ids id).Has (drawn y.agent 1)
      (y.block 1) (Bytes.words ids) :=
    (y.withProperties k id).has_granted_full h.second ha.devices_size
  have herrcode : (y.forContext k a.numDevices ids id).Has (drawn y.agent 2) (y.block 2)
      (List.replicate 4 0) := Pair.has_granted _ _ _ _ _ h.third
  have h01 : y.block 0 ≠ y.block 1 := hm.apart 0 1 (by decide) (by decide)
  have h02 : y.block 0 ≠ y.block 2 := hm.apart 0 2 (by decide) (by decide)
  have h12 : y.block 1 ≠ y.block 2 := hm.apart 1 2 (by decide) (by decide)
  exact ⟨(hprops.granted h.second h01).granted h.third h02, hdevices.granted h.third h12, herrcode⟩

theorem Stages.requests (h : Stages g provider y a k id ids) (ha : a.Names k id ids)
    (hm : y.HasRoom 3) :
    Requests g (y.forContext k a.numDevices ids id).agent
      (y.forContext k a.numDevices ids id).provider.idMap .createContext [1, 3, 4, 5, 6]
      ClFunction.createContext.toArg id (a.argv y.contextHandles) where
  function := show ClFunction.ofArg _ = some (.createContext, 6) by decide
  info := nofun
  unload := nofun
  hint := h.grants₃.hints
  owner := nofun
  known i w hw hne hmem := by
    obtain ⟨hprops, hdevices, herrcode⟩ := h.has ha hm
    rcases i with _ | _ | _ | _ | _ | _ | i
    · obtain rfl := Option.some.inj hw
      exact IdSet.mem_of_lookup hprops.1
    · exact absurd hmem (by decide)
    · obtain rfl := Option.some.inj hw
      exact IdSet.mem_of_lookup hdevices.1
    · exact absurd (Option.some.inj hw).symm hne
    · exact absurd (Option.some.inj hw).symm hne
    · obtain rfl := Option.some.inj hw
      exact IdSet.mem_of_lookup herrcode.1
    · cases hw

/-- What a pointer argument of the request is for the handler. -/
theorem Pair.Has.seenArg {handle : Handle} {ptr : Arg} {b : Bytes} (h : y.Has handle ptr b)
    (hne : handle ≠ 0) {ptrargs : List ℕ} {i : ℕ} (hi : i ∈ ptrargs) :
    Joint.seenArg y.provider.idMap ptrargs i handle = ptr := by
  rw [Joint.seenArg, if_pos ⟨hne, hi⟩, h.1]
  rfl

theorem Pair.Has.lists {handle : Handle} {ptr : Arg} {ws : List Arg}
    (h : y.Has handle ptr (Bytes.words ws)) : y.provider.mem.Lists ptr ws :=
  fun _ => ⟨[], by rw [List.append_nil, h.2]⟩

/-- The handler finds the lists that the consumer has sent. -/
theorem Stages.asksContext (h : Stages g provider y a k id ids) (ha : a.Names k id ids)
    (hm : y.HasRoom 3) {buf : Buffer Provider.recvbufsz}
    (hseen : ∀ i, (hi : i < (a.argv y.contextHandles).length) → argvOf buf (i + 1) =
      seenArg (y.forContext k a.numDevices ids id).provider.idMap [1, 3, 4, 5, 6] (i + 1)
        (a.argv y.contextHandles)[i]) {s : Provider.State Cl}
    (hs : s.mem = (y.forContext k a.numDevices ids id).provider.mem) :
    AsksContext s (argvOf buf) k id ids := by
  obtain ⟨hprops, hdevices, herrcode⟩ := h.has ha hm
  have hdrawn : ∀ i, drawn y.agent i ≠ 0 := fun i =>
    (y.agent.candidates (y.agent.draws + i)).property
  have h1 : argvOf buf 1 = y.block 0 :=
    (hseen 0 (show 0 < 6 by decide)).trans (hprops.seenArg (hdrawn 0) (by decide))
  have h2 : argvOf buf 2 = a.numDevices.toUInt64 := by
    rw [hseen 1 (show 1 < 6 by decide), seenArg, if_neg fun hc => absurd hc.2 (by decide)]
    rfl
  have h3 : argvOf buf 3 = y.block 1 :=
    (hseen 2 (show 2 < 6 by decide)).trans (hdevices.seenArg (hdrawn 1) (by decide))
  have h6 : argvOf buf 6 = y.block 2 :=
    (hseen 5 (show 5 < 6 by decide)).trans (herrcode.seenArg (hdrawn 2) (by decide))
  have hfit := ha.devicesFit
  unfold Agent.recvbufsz at hfit
  constructor
  · rw [hs, h1]
    exact hprops.lists
  · rw [h2, UInt32.toUInt32_toUInt64, ha.numDevices]
  · omega
  · rw [hs, h3]
    exact hdevices.lists
  · rw [h1, h3]
    exact hm.apart 0 1 (by decide) (by decide)
  · rw [hs, h6]
    exact .inr ⟨_, herrcode.2, by decide⟩

end

/-- The call comes to its request, which the agent passes on to the handler of the provider; and
that calls the library, once, with the properties and the devices of the call under their real
ids. -/
def Localises (g : Session (Cl × List Provider.Call)) (fuel : ℕ)
    (x : Trio (Cl × List Provider.Call)) (y : Pair (Cl × List Provider.Call)) (a : ContextArgs)
    (k : ℕ) (id : GlobalId) (platform : Arg) (reals : List Arg) : Prop :=
  ∃ z h buf, stub g fuel (contextArguments a id (ctxPropSize k)) x = .done z (some h) ∧
    stub g fuel a.create x = stub g fuel (contextExecute a id h) z ∧
    Marshals g z z.pair .createContext (claraClCreateContext g.lib, [1, 3, 4, 5, 6])
      ClFunction.createContext.toArg id (a.argv h) ∧
    prepare (execFunTable g.lib) (providerIdMap z.pair.provider.idMap)
      (z.pair.provider.took (executeBytes ClFunction.createContext.toArg id (a.argv h))).buf 0 =
        .call .createContext (claraClCreateContext g.lib) 6 buf ∧
    ∃ q ret call, claraClCreateContext g.lib (argvOf buf)
        { z.pair.provider.took (executeBytes ClFunction.createContext.toArg id (a.argv h)) with
          buf := buf } = .done q ret ∧
      q.cl.2 = y.provider.cl.2 ++ [call] ∧ call.MakesContext (k + 1) platform reals

section
variable {g : Session (Cl × List Provider.Call)} {x : Trio (Cl × List Provider.Call)}
  {y : Pair (Cl × List Provider.Call)} {provider : Agent.Provider} {a : ContextArgs} {k : ℕ}
  {id : GlobalId} {ids : List GlobalId} {lib : OpenCl Cl} {platform : Platform} {reals : List Arg}

theorem Grants.localises (h : Grants g provider x y id) (ha : a.Names k id ids)
    (hlib : g.lib = lib.logged) (hkeeps : lib.KeepsBlocks)
    (hfind : y.provider.platforms.find? (fun p => p.globalId == id) = some platform)
    (hmap : ids.map platform.realId = reals.map some) (hm : y.HasRoom 3) (hd : y.Draws 3)
    (fuel : ℕ) : Localises g fuel x y a k id platform.id reals := by
  have hs := h.stages a k ids hd
  have harguments := h.stub_contextArguments ha hm hd fuel
  have hcreate : stub g fuel a.create x = stub g fuel (contextExecute a id y.contextHandles)
      ⟨.wire [] [], y.forContext k a.numDevices ids id⟩ := by
    rw [ha.create_eq h.hints.1, stub_bind, harguments]
    rfl
  have hr := hs.requests ha hm
  have hf : execFunTable g.lib .createContext =
      some (claraClCreateContext g.lib, [1, 3, 4, 5, 6]) := rfl
  have hmarshals := marshals hs.grants₃.ready hs.grants₃.tables hr hf
  obtain ⟨buf, hprepare, hseen⟩ := hr.prepare hs.grants₃.ready.sound hf
  refine ⟨_, y.contextHandles, buf, harguments, hcreate, hmarshals, hprepare, ?_⟩
  have hasks := hs.asksContext (s := { (y.forContext k a.numDevices ids id).provider.took
    (executeBytes ClFunction.createContext.toArg id (a.argv y.contextHandles)) with
      buf := buf }) ha hm hseen rfl
  rw [hlib]
  exact hasks.handsOver hkeeps hfind hmap

/-- The library gets exactly the caller's arguments under the ids that it knows, if and only if the
ids that the agent draws for the three handles are new to both processes. -/
theorem Grants.localises_iff (h : Grants g provider x y id) (ha : a.Names k id ids)
    (hlib : g.lib = lib.logged) (hkeeps : lib.KeepsBlocks)
    (hfind : y.provider.platforms.find? (fun p => p.globalId == id) = some platform)
    (hmap : ids.map platform.realId = reals.map some) (hm : y.HasRoom 3) (fuel : ℕ) :
    Localises g fuel x y a k id platform.id reals ↔ y.Draws 3 := by
  constructor
  · rintro ⟨z, handles, buf, harguments, -⟩
    exact h.draws_of_done ha hm harguments
  · intro hd
    exact h.localises ha hlib hkeeps hfind hmap hm hd fuel

end

/-- A consumer of the small agent, with a provider whose library records the calls. -/
def Session.logged : Session (Unit × List Provider.Call) where
  toSetting := ⟨literalLzo, 1000, silentCl.logged, 1⟩
  c := 3
  stale _ := Session.small.stale .small

/-- The provider has the platform 9 of the small agent, with the device 8. -/
def smallPlatform : Platform := ⟨77, 9, [⟨78, 8⟩]⟩

theorem registered_smallPlatform : Registered [smallPlatform] := by
  unfold Registered
  decide

def Pair.logged (candidates : ℕ → Agent.Candidate) : Pair (Unit × List Provider.Call) where
  agent := .small candidates
  provider := .initial silentCl.logged [smallPlatform] fun n => UInt64.ofNat (n + 1)
  log := []

def Trio.logged (candidates : ℕ → Agent.Candidate) : Trio (Unit × List Provider.Call) :=
  ⟨.wire [] [], .logged candidates⟩

theorem grants_logged (candidates : ℕ → Agent.Candidate) :
    Grants Session.logged ⟨0, 2, true⟩ (Trio.logged candidates) (Pair.logged candidates) 9 where
  ready :=
    { idle := ⟨rfl, rfl, rfl⟩
      settles := Quiet.settles ⟨rfl, rfl⟩
      attached := ⟨rfl, rfl⟩
      sound := (Provider.refines_initial _ registered_smallPlatform _).sound }
  hints := ⟨by decide, 6, ⟨9, 77, 0, 7, 1, none⟩, rfl, rfl, rfl⟩
  tables := (Agent.small_settled candidates).toServiceable
  consumer := rfl

theorem hasRoom_logged (candidates : ℕ → Agent.Candidate) : (Pair.logged candidates).HasRoom 3 := by
  have hmemory : ∀ i < 3, UInt64.ofNat (0 + i + 1) ≠ 0 := by decide
  have hapart : ∀ j < 3, ∀ i < j, UInt64.ofNat (0 + i + 1) ≠ UInt64.ofNat (0 + j + 1) := by decide
  exact ⟨hmemory, fun i j hij hj => hapart j hj i hij⟩

/-- Two properties and two devices. -/
def someContext : ContextArgs := ⟨[0x1084, 9, 0x1084, 9, 0], 2, [8, 8], false, false, true⟩

theorem names_someContext : someContext.Names 1 9 [8, 8] where
  properties := ⟨[], rfl⟩
  devices := ⟨[], rfl⟩
  numDevices := rfl
  nonempty := List.cons_ne_nil _ _
  callback := by decide
  propertiesFit := by decide
  devicesFit := by decide

theorem localises_someContext :
    Localises Session.logged 100 (Trio.logged Agent.someIds) (Pair.logged Agent.someIds) someContext
      1 9 77 [78, 78] := by
  have hpool : ∀ i < 3, drawn (Pair.logged Agent.someIds).agent i ∉
      (Pair.logged Agent.someIds).agent.sets .idPool := by decide
  have hidMap : ∀ i < 3, drawn (Pair.logged Agent.someIds).agent i ∉
      (Pair.logged Agent.someIds).provider.idMap := by decide
  have hdistinct : ∀ j < 3, ∀ i < j, drawn (Pair.logged Agent.someIds).agent i ≠
      drawn (Pair.logged Agent.someIds).agent j := by decide
  have hfind : (Pair.logged Agent.someIds).provider.platforms.find? (fun p => p.globalId == 9) =
      some smallPlatform := rfl
  exact ((grants_logged Agent.someIds).localises_iff names_someContext rfl silentCl_keepsBlocks
    hfind rfl (hasRoom_logged _) 100).mpr
      ⟨hpool, fun i _ => IdSet.not_mem_empty _, hidMap, fun i j hij hj => hdistinct j hj i hij⟩

/-- An agent that draws the same id again. -/
def sameId (_ : ℕ) : Agent.Candidate := ⟨20, by decide⟩

/-- The call does not come to its request when the second handle would be the first one again. -/
theorem not_localises_sameId :
    ¬ Localises Session.logged 100 (Trio.logged sameId) (Pair.logged sameId) someContext 1 9 77
      [78, 78] := by
  rintro ⟨z, handles, buf, harguments, -⟩
  have hdraws := (grants_logged sameId).draws_of_done names_someContext (hasRoom_logged sameId)
    harguments
  exact hdraws.distinct 0 1 (by decide) (by decide) rfl

end Clara.Joint
