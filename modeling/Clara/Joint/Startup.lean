import Clara.Agent.Enlisting
import Clara.Joint.Conversation
import Clara.Joint.Description
import Clara.Provider.Startup

/-! A provider that starts, together with the thread that the agent has for it. The provider runs;
when it waits, what it has sent is delivered, the thread works through it, and what it has answered
is delivered in turn. -/
namespace Clara.Joint

open Conc

/-- Where `device_init` allocates, and what earlier messages left in the receive buffer of the
provider's thread. -/
structure Arrival (Cl : Type) extends Setting Cl where
  sizes : Agent.State → Arg
  stale : Agent.State → Buffer Agent.infobufsz

variable {Cl : Type} (g : Arrival Cl)

/-- At most `n` turns of the provider's thread: while something waits for it, and until it has left
its first loop. -/
def registerTurns : ℕ → Pair Cl → Outcome (Pair Cl) Fault Unit
  | 0, x => .done x ()
  | n + 1, x =>
    if (x.agent.net (.provider g.p)).inq.isEmpty ∨
        x.agent.phase (.provider g.p) ≠ .registering then .done x ()
    else ((Agent.run (.provider g.p)
      (Agent.agentProviderTurn g.p (g.sizes x.agent) (g.stale x.agent)) x.agent).map
        (fun s => { x with agent := s }) Fault.agent).bind fun x _ => registerTurns n x

def Pair.host (x : Pair Cl) : Outcome (Pair Cl) Fault Unit :=
  let y := x.answer g.toSetting
  (registerTurns g (y.agent.net (.provider g.p)).inq.length y).bind
    fun z _ => .done (z.deliver g.toSetting) ()

def joinExec : Unit → (o : Provider.StartupOp) → Pair Cl → Outcome (Pair Cl) Fault o.Res :=
  attended (providerPart.within .provider Provider.startupExec) (Pair.host g)

abbrev join {α : Type} (p : Provider.SProg α) (x : Pair Cl) : Outcome (Pair Cl) Fault α :=
  p.run (joinExec g) () x

/-- The provider starts, and the agent's thread takes in what it sends last. -/
def register (lib : Provider.Queries) (malloc : (n : ℕ) → Buffer n) (device : ℤ) (x : Pair Cl) :
    Outcome (Pair Cl) Fault Bool :=
  (join g (Provider.providerJoin lib malloc device) x).bind fun y b =>
    (y.host g).bind fun z _ => .done z b

section
variable {g} {x y : Pair Cl} {α β : Type} {q : Provider.State Cl}

theorem join_bind (p : Provider.SProg α) (f : α → Provider.SProg β) :
    join g (p >>= f) x = (join g p x).bind fun x a => join g (f a) x := Prog.run_bind _ _ p f x

@[simp] theorem join_pure (a : α) : join g (pure a) x = .done x a := rfl

/-- What the provider does without waiting it does as if it were alone. -/
theorem join_done {o : Provider.StartupOp} {r : o.Res}
    (h : Provider.startupExec () o x.provider = .done q r) :
    join g (Prog.perform o) x = .done { x with provider := q } r := by
  have hwithin : providerPart.within Fault.provider Provider.startupExec () o x =
      .done { x with provider := q } r := by
    rw [Part.within]
    show (Provider.startupExec () o x.provider).map _ _ = _
    rw [h]
    rfl
  rw [join, Prog.run_perform, joinExec, attended_of_ne (by simp [hwithin]), hwithin]

theorem join_platforms (f : List Provider.Platform → List Provider.Platform) :
    join g (Provider.SProg.platforms f) x =
      .done { x with provider := { x.provider with platforms := f x.provider.platforms } } () :=
  join_done rfl

theorem join_mapping (hd : x.provider.idMap.damaged = false) {virt : GlobalId}
    (hv : virt ∉ x.provider.idMap) (real : Arg) :
    join g (Provider.SProg.mapping virt real) x =
      .done { x with provider := { x.provider with idMap := x.provider.idMap.add virt real } }
        () := by
  apply join_done
  simp [Provider.startupExec, Provider.mappingInsert_run hd, hv]

/-- The provider has sent records that have not been delivered yet. -/
def Pair.telling (x : Pair Cl) (rs : List Sent) : Pair Cl :=
  { x with provider := x.provider.withNet (.wire [] rs) }

theorem Quiet.join_send (h : Quiet g.toSetting x) (type : MessageType) (msg : Bytes) :
    join g (Provider.SProg.net (claraSendmsg () type msg)) x =
      .done (x.telling [.msg type msg]) (some msg.length) := by
  have hexec : Net.exec (.sendmsg () type msg) (.wire [] []) =
      .done (.wire [] [.msg type msg]) (some msg.length) := by
    have hfails : (Net.wire [] [] ()).sendFails = [] := rfl
    have hrun := Net.run_claraSendmsg hfails type msg
    rwa [Net.wire_push, Net.run, claraSendmsg, NetProg.perform, Prog.run_perform] at hrun
  refine join_done (o := .net (.sendmsg () type msg)) ?_
  rw [Provider.startupExec, h.provider, hexec]
  rfl

def Pair.heardBy (x : Pair Cl) (p : Addr) (rs : List Sent) : Pair Cl where
  agent := x.agent.withNet (x.agent.net.withInq (.provider p) (Net.incoming rs))
  provider := x.provider
  log := x.log ++ rs.map .toAgent

theorem Quiet.answer_telling (h : Quiet g.toSetting x) (rs : List Sent) :
    (x.telling rs).answer g.toSetting = x.heardBy g.p rs := by
  have harrive : arrive x.agent.net (.provider g.p) rs =
      x.agent.net.withInq (.provider g.p) (Net.incoming rs) := by
    rw [arrive, h.agent]
    rfl
  have hclear : clearSent (Net.wire [] rs) () = x.provider.net := by
    rw [h.provider]
    funext u
    simp [clearSent]
  have hsent : ((x.telling rs).provider.net ()).sent = rs := rfl
  rw [Pair.answer, hsent]
  show Pair.mk (x.agent.withNet (arrive x.agent.net (.provider g.p) rs))
    { x.provider with net := clearSent (Net.wire [] rs) () } _ = _
  rw [harrive, hclear]
  rfl

/-- A thread that finds one message makes one turn. -/
theorem Quiet.host_telling (h : Quiet g.toSetting x)
    (hphase : x.agent.phase (.provider g.p) = .registering) {r : Sent} {s : Agent.State}
    {rs : List Sent} (hnet : s.net = x.agent.net)
    (hturn : Agent.run (.provider g.p) (Agent.agentProviderTurn g.p
        (g.sizes (x.heardBy g.p [r]).agent) (g.stale (x.heardBy g.p [r]).agent))
        (x.heardBy g.p [r]).agent =
      .done (s.withNet (s.net.push (.provider g.p) rs)) ()) :
    (x.telling [r]).host g = .done
      { agent := s
        provider := x.provider.withNet (.wire (Net.incoming rs) [])
        log := x.log ++ [.toAgent r] ++ rs.map .toProvider } () := by
  have hinq : ((x.heardBy g.p [r]).agent.net (.provider g.p)).inq = [.record r.record] :=
    Net.withInq_inq _ _ _
  have hne : ¬ (((x.heardBy g.p [r]).agent.net (.provider g.p)).inq.isEmpty = true ∨
      (x.heardBy g.p [r]).agent.phase (.provider g.p) ≠ .registering) := by
    rw [hinq]
    exact fun hor => hor.elim nofun fun hne => hne hphase
  have hquiet : Quiet g.toSetting { x.heardBy g.p [r] with agent := s } :=
    ⟨by rw [hnet]; exact h.agent, h.provider⟩
  have hturns : registerTurns g 1 (x.heardBy g.p [r]) =
      .done ((Pair.mk s x.provider (x.log ++ [.toAgent r])).sending g.toSetting rs) () := by
    rw [registerTurns, if_neg hne, hturn]
    rfl
  rw [Pair.host]
  simp only [h.answer_telling]
  rw [hinq, List.length_singleton, hturns, Outcome.bind_done]
  exact congrArg (Outcome.done · ()) (hquiet.deliver_sending rs)

theorem join_recv (hx : (x.provider.net ()).inq = []) {type : MessageType} {msg : Bytes}
    (hhost : x.host g = .done y ())
    (hy : y.provider.net = .wire [.record (Sent.msg type msg).record] []) {len : ℕ}
    (hlen : msg.length ≤ len) :
    join g (Provider.SProg.net (claraRecvmsg () len)) x =
      .done { y with provider := y.provider.withNet (.wire [] []) } (.message type msg) := by
  have hblocked : providerPart.within Fault.provider Provider.startupExec ()
      (.net (.recvmsg () len)) x = .blocked := by
    rw [Part.within]
    show (Provider.startupExec () (.net (.recvmsg () len)) x.provider).map _ _ = _
    simp [Provider.startupExec, Net.exec, Net.take, hx]
  have hrecv : Net.exec (.recvmsg () len) y.provider.net =
      .done (.wire [] []) (.message type msg) := by
    have hinq : (y.provider.net ()).inq = [.record (Sent.msg type msg).record] := by rw [hy]; rfl
    have hrun := Net.run_claraRecvmsg hinq hlen
    rwa [hy, Net.wire_withInq, Net.run, claraRecvmsg, NetProg.perform, Prog.run_perform, ← hy]
      at hrun
  have hagain : providerPart.within Fault.provider Provider.startupExec ()
      (.net (.recvmsg () len)) y =
      .done { y with provider := y.provider.withNet (.wire [] []) } (.message type msg) := by
    rw [Part.within]
    show (Provider.startupExec () (.net (.recvmsg () len)) y.provider).map _ _ = _
    rw [Provider.startupExec, hrecv]
    rfl
  show join g (Prog.perform (Provider.StartupOp.net (.recvmsg () len))) x = _
  rw [join, Prog.run_perform, joinExec, attended_of_blocked hblocked, hhost, Outcome.bind_done,
    hagain]

theorem globalIdReceived_word (type : MessageType) (id : GlobalId) :
    Provider.globalIdReceived (.message type (Bytes.word id)) = id := by
  rw [Provider.globalIdReceived, Bytes.overwrite, List.take_zero, List.nil_append,
    List.drop_eq_nil_of_le (by simp), List.append_nil, Bytes.wordAt_word]

/-- A description is sent and answered with an id. `E` says what has become of the agent. -/
theorem Quiet.join_startupRegister (h : Quiet g.toSetting x)
    (hphase : x.agent.phase (.provider g.p) = .registering) {k : Agent.InfoMessage} {msg : Bytes}
    (hlen : msg.length ≤ Agent.infobufsz) (hc : k.Complete msg) {type : MessageType} {id : GlobalId}
    {E : Agent.State → Prop} (hE : ∀ s, E s → s.net = x.agent.net)
    (hrun : ∀ sizes (buf : Buffer Agent.infobufsz), ∃ s, E s ∧ Agent.run (.provider g.p)
      (Agent.agentProviderHandler g.p (k.request sizes (buf.receive msg).bytes)) x.agent =
        .done (s.withNet (s.net.push (.provider g.p) [.msg type (Bytes.word id)])) ()) :
    ∃ s log, E s ∧ join g (Provider.startupRegister k.type msg) x =
      .done ⟨s, x.provider, log⟩ id := by
  let z := (x.heardBy g.p [.msg k.type msg]).agent
  obtain ⟨s, hs, hhandle⟩ := hrun (g.sizes z) (g.stale z)
  have hturn : Agent.run (.provider g.p) (Agent.agentProviderTurn g.p (g.sizes z) (g.stale z)) z =
      _ := (Agent.run_agentProviderTurn_info k h.agent hlen hc).trans hhandle
  have hhost := h.host_telling hphase (hE s hs) hturn
  have hrecv := join_recv (g := g) (x := x.telling [.msg k.type msg]) rfl hhost rfl
    (Nat.le_of_eq (Bytes.length_word id))
  have hnet : x.provider.withNet (.wire [] []) = x.provider := by
    rw [← h.provider]
    rfl
  refine ⟨s, x.log ++ [.toAgent (.msg k.type msg)] ++ [.toProvider (.msg type (Bytes.word id))],
    hs, ?_⟩
  rw [Provider.startupRegister, join_bind, h.join_send, Outcome.bind_done, join_bind, hrecv,
    Outcome.bind_done, join_pure, globalIdReceived_word]
  exact congrArg (fun q => Outcome.done (Pair.mk s q _) id) hnet

/-- Something is entered, described to the agent, and mapped to the id that comes back. -/
theorem Quiet.join_entering (h : Quiet g.toSetting x)
    (hphase : x.agent.phase (.provider g.p) = .registering) {k : Agent.InfoMessage} {msg : Bytes}
    (hlen : msg.length ≤ Agent.infobufsz) (hc : k.Complete msg) {type : MessageType} {id : GlobalId}
    {E : Agent.State → Prop} (hE : ∀ s, E s → s.net = x.agent.net)
    (hrun : ∀ sizes (buf : Buffer Agent.infobufsz), ∃ s, E s ∧ Agent.run (.provider g.p)
      (Agent.agentProviderHandler g.p (k.request sizes (buf.receive msg).bytes)) x.agent =
        .done (s.withNet (s.net.push (.provider g.p) [.msg type (Bytes.word id)])) ())
    (hd : x.provider.idMap.damaged = false) (hid : id ∉ x.provider.idMap)
    (f : Provider.Platform → Provider.Platform)
    (f' : GlobalId → Provider.Platform → Provider.Platform) (real : Arg) :
    ∃ s log, E s ∧ join g (do
        Provider.SProg.platform f
        let globalId ← Provider.startupRegister k.type msg
        Provider.SProg.platform (f' globalId)
        Provider.SProg.mapping globalId real) x = .done ⟨s, { x.provider with
          platforms := (x.provider.platforms.map f).map (f' id)
          idMap := x.provider.idMap.add id real }, log⟩ () := by
  let q₁ : Provider.State Cl := { x.provider with platforms := x.provider.platforms.map f }
  let q₂ : Provider.State Cl := { q₁ with platforms := q₁.platforms.map (f' id) }
  have hquiet : Quiet g.toSetting { x with provider := q₁ } := ⟨h.agent, h.provider⟩
  obtain ⟨s, log, hs, hreg⟩ := hquiet.join_startupRegister hphase hlen hc hE hrun
  have hfirst : join g (Provider.SProg.platform f) x = .done { x with provider := q₁ } () :=
    join_platforms _
  have hsecond : join g (Provider.SProg.platform (f' id)) ⟨s, q₁, log⟩ = .done ⟨s, q₂, log⟩ () :=
    join_platforms _
  have hmapping : join g (Provider.SProg.mapping id real) ⟨s, q₂, log⟩ = .done
      ⟨s, { q₂ with idMap := q₂.idMap.add id real }, log⟩ () :=
    join_mapping (x := ⟨s, q₂, log⟩) hd hid real
  refine ⟨s, log, hs, ?_⟩
  rw [join_bind, hfirst, Outcome.bind_done, join_bind, hreg, Outcome.bind_done, join_bind, hsecond,
    Outcome.bind_done, hmapping]

end

structure OffersDevice (lib : Provider.Queries) (malloc : (n : ℕ) → Buffer n) (platform id : Arg)
    (value : DeviceParam → Bytes) : Prop where
  ne_zero : id ≠ 0
  info : ∀ param, lib.clGetDeviceInfo id param = some (value param)
  conforms : Agent.Conforms value
  platform : value .platform = Bytes.word platform
  fits : (Provider.describe (lib.clGetDeviceInfo id) malloc Provider.deviceInfoList id).length ≤
    Agent.infobufsz

/-- The library has a platform with the devices `ids`, and all its queries succeed. -/
structure Offers (lib : Provider.Queries) (malloc : (n : ℕ) → Buffer n) (platform : Arg)
    (ids : List Arg) (str : PlatformParam → Bytes) (value : Arg → DeviceParam → Bytes) : Prop where
  platformIds : lib.clGetPlatformIDs = some platform
  count : ∃ l, lib.clGetDeviceIDs platform 0 = some (ids.length, l)
  deviceIds : ∃ n, lib.clGetDeviceIDs platform ids.length = some (n, ids)
  ne_zero : platform ≠ 0
  info : ∀ param, lib.clGetPlatformInfo platform param = some (str param ++ [0])
  noZero : ∀ param, 0 ∉ str param
  fits : (Provider.describe (lib.clGetPlatformInfo platform) malloc Provider.platformInfoList
    platform).length ≤ Agent.infobufsz
  device : ∀ id ∈ ids, OffersDevice lib malloc platform id (value id)

section
variable {lib : Provider.Queries} {malloc : (n : ℕ) → Buffer n} {platform id : Arg}
  {ids : List Arg} {str : PlatformParam → Bytes} {value : Arg → DeviceParam → Bytes}
  {dvalue : DeviceParam → Bytes}

theorem Offers.message_eq (h : Offers lib malloc platform ids str value) :
    Provider.describe (lib.clGetPlatformInfo platform) malloc Provider.platformInfoList platform =
      Layout.record (fun param => str param ++ [0]) PlatformParam.all ++
        (Bytes.word platform ++ []) := by
  rw [Provider.describe_eq h.info, List.append_nil]
  rfl

theorem Offers.platformInit (h : Offers lib malloc platform ids str value) (sizes : Arg)
    (buf : Buffer Agent.infobufsz) : ∃ info : Agent.PlatformInfo,
      (Agent.InfoMessage.platform.request sizes (buf.receive (Provider.describe
        (lib.clGetPlatformInfo platform) malloc Provider.platformInfoList platform)).bytes) =
          .platformInfo info ∧ info.id = platform ∧ ∀ param, info.info param.code = str param := by
  refine ⟨_, rfl, ?_⟩
  rw [buf.receive_bytes h.fits, h.message_eq, List.append_assoc, List.append_assoc]
  exact Agent.platformInit_record h.noZero platform _

theorem OffersDevice.message_eq (h : OffersDevice lib malloc platform id dvalue) :
    Provider.describe (lib.clGetDeviceInfo id) malloc Provider.deviceInfoList id =
      (h.conforms.message id).bytes := by
  let library : Library := ⟨platform, id, fun _ => some ([] ++ [0]), lib.clGetDeviceInfo id⟩
  have hreports : library.Reports (fun _ => []) dvalue := {
    platformInfo := fun _ => rfl
    noZero := fun _ => List.not_mem_nil
    deviceInfo := h.info
    conforms := h.conforms
    platform := h.platform }
  exact hreports.deviceMessage_eq malloc

theorem OffersDevice.deviceInit (h : OffersDevice lib malloc platform id dvalue) (sizes : Arg)
    (buf : Buffer Agent.infobufsz) : ∃ info : Agent.DeviceInfo,
      (Agent.InfoMessage.device.request sizes (buf.receive (Provider.describe
        (lib.clGetDeviceInfo id) malloc Provider.deviceInfoList id)).bytes) = .deviceInfo info ∧
      info.id = id ∧ info.platformId = platform ∧
        ∀ param : DeviceParam, info.info param.code = dvalue param := by
  refine ⟨((h.conforms.message id).device sizes).info, ?_, rfl, ?_, ?_⟩
  · rw [buf.receive_bytes h.fits, h.message_eq]
    exact congrArg (fun r : Agent.DeviceRecord => Agent.ProviderRequest.deviceInfo r.info)
      ((h.conforms.message id).deviceInit_zero sizes _)
  · have hscalar := h.conforms.param_device id sizes .platform
    rw [Agent.DeviceRecord.param, h.platform] at hscalar
    rw [Agent.DeviceRecord.info, hscalar, Bytes.wordAt_word]
  · intro param
    rw [Agent.DeviceRecord.info]
    simp only [DeviceParam.ofCode_code, Option.map_some, Option.getD_some]
    exact h.conforms.param_device id sizes param

end

structure DescribesPlatform (p : Addr) (pf : Provider.Platform) (str : PlatformParam → Bytes)
    (r : Agent.Platform) : Prop where
  provider : r.provider = p
  consumer : r.consumer = none
  id : r.id = pf.id
  globalId : r.globalId = pf.globalId
  info : ∀ param, r.info param.code = str param

structure DescribesDevice (p : Addr) (pf : Provider.Platform) (device : Provider.Device)
    (value : DeviceParam → Bytes) (r : Agent.Device) : Prop where
  provider : r.provider = p
  platformId : r.platformId = pf.id
  id : r.id = device.id
  globalId : r.globalId = device.globalId
  info : ∀ param : DeviceParam, r.info param.code = value param

/-- What the agent has of the provider `p` is what the provider has itself: the platform, with its
record at `a`, the devices, and an object for each of them. -/
structure Mirrors (p a : Addr) (str : PlatformParam → Bytes) (value : Arg → DeviceParam → Bytes)
    (pf : Provider.Platform) (s : Agent.State) : Prop where
  intact : (s.sets (.platforms p)).damaged = false
  list : s.list (.platforms p) = [a]
  entry : (s.sets (.platforms p)).lookup pf.globalId = some a
  record : ∃ r, s.heap .platform a = some r ∧ DescribesPlatform p pf str r
  devicesIntact : (s.sets (.devices a)).damaged = false
  known : ∀ id ∈ s.sets (.devices a), id ∈ pf.devices.map Provider.Device.globalId
  device : ∀ device ∈ pf.devices, ∃ d r, (s.sets (.devices a)).lookup device.globalId = some d ∧
    s.heap .device d = some r ∧ DescribesDevice p pf device (value device.id) r
  objects : ∀ id real, s.Knows p id real ↔ (id, real) ∈ Provider.registrations [pf]

section
variable {p a : Addr} {str : PlatformParam → Bytes} {value : Arg → DeviceParam → Bytes}
  {pf : Provider.Platform} {s s' : Agent.State}

theorem mem_registrations_devices {id : GlobalId}
    (h : id ∈ pf.devices.map Provider.Device.globalId) :
    id ∈ (Provider.registrations [pf]).map Prod.fst := by
  rw [Provider.registrations_single, List.map_cons, List.map_map]
  exact List.mem_cons_of_mem _ h

theorem Mirrors.mem_objects (h : Mirrors p a str value pf s) {id : GlobalId}
    (hid : id ∈ (Provider.registrations [pf]).map Prod.fst) : id ∈ s.sets .objects := by
  obtain ⟨x, hx, rfl⟩ := List.mem_map.mp hid
  exact Agent.State.Knows.mem_objects ((h.objects x.1 x.2).mpr hx)

theorem mirrors_platform {info : Agent.PlatformInfo} (hs : Agent.Serviceable s)
    (hempty : s.sets (.platforms p) = .empty) (hunknown : ∀ id real, ¬ s.Knows p id real)
    (hid : s.New s.nextId) (he : Agent.EntersPlatform p info s s')
    (hinfo : ∀ param, info.info param.code = str param) :
    Mirrors p s.next str value ⟨info.id, s.nextId, []⟩ s' where
  intact := by rw [he.platforms, hempty]; rfl
  list := by rw [Agent.State.list, he.platforms, hempty]; rfl
  entry := by rw [he.platforms, hempty, IdSet.lookup_add (IdSet.not_mem_empty _), if_pos rfl]
  record := ⟨_, he.platform, rfl, rfl, rfl, rfl, hinfo⟩
  devicesIntact := by rw [he.noDevices]; rfl
  known id hmem := by
    rw [he.noDevices] at hmem
    exact absurd hmem (IdSet.not_mem_empty id)
  device _ hmem := absurd hmem List.not_mem_nil
  objects id real := by
    rw [he.knows_iff hs hid, Provider.registrations_single]
    simp [hunknown]

theorem Mirrors.device_entered {info : Agent.DeviceInfo} (h : Mirrors p a str value pf s)
    (hs : Agent.Serviceable s) (hid : s.New s.nextId)
    (he : Agent.EntersDevice p a info s s') (hplatform : info.platformId = pf.id)
    (hinfo : ∀ param : DeviceParam, info.info param.code = value info.id param) :
    Mirrors p a str value (pf.with ⟨info.id, s.nextId⟩) s' := by
  have hnew : s.nextId ∉ s.sets (.devices a) := fun hmem =>
    hid.2.1 (h.mem_objects (mem_registrations_devices (h.known _ hmem)))
  have hold : ∀ {k : Agent.Kind} {b : Addr} {v : k.Rec}, s.heap k b = some v →
      s'.heap k b = some v := fun hb => (he.old _ _ (hs.fresh.lt hb)).trans hb
  constructor
  case intact => rw [he.platforms, h.intact]
  case list =>
    rw [Agent.State.list, he.platforms]
    exact h.list
  case entry =>
    rw [he.platforms]
    exact h.entry
  case record =>
    obtain ⟨r, hr, hdesc⟩ := h.record
    exact ⟨r, hold hr, hdesc.provider, hdesc.consumer, hdesc.id, hdesc.globalId, hdesc.info⟩
  case devicesIntact => simp [he.entered, hnew, h.devicesIntact]
  case known =>
    intro id hmem
    rw [he.entered, IdSet.mem_add hnew] at hmem
    rw [Provider.Platform.with, List.map_append, List.mem_append]
    rcases hmem with rfl | hmem
    · exact .inr (List.mem_singleton_self _)
    · exact .inl (h.known id hmem)
  case device =>
    intro device hmem
    rcases List.mem_append.mp hmem with hmem | hmem
    · obtain ⟨d, r, hd, hr, hdesc⟩ := h.device device hmem
      have hne : device.globalId ≠ s.nextId := fun heq => hnew (heq ▸ IdSet.mem_of_lookup hd)
      exact ⟨d, r, by rw [he.entered, IdSet.lookup_add hnew, if_neg hne, hd], hold hr,
        hdesc.provider, hdesc.platformId, hdesc.id, hdesc.globalId, hdesc.info⟩
    · obtain rfl := List.mem_singleton.mp hmem
      exact ⟨s.next, _, by rw [he.entered, IdSet.lookup_add hnew, if_pos rfl], he.device, rfl,
        hplatform, rfl, rfl, hinfo⟩
  case objects =>
    intro id real
    rw [he.knows_iff hs hid, h.objects, Provider.registrations_with, List.mem_append,
      List.mem_singleton, Prod.mk.injEq]
    simp

/-- The end of the registration changes nothing of it. -/
theorem Mirrors.registered (h : Mirrors p a str value pf s) (b : Addr) (id : GlobalId) :
    Mirrors p a str value pf (s.registered p b id) where
  intact := by rw [Agent.registered_sets (by simp), h.intact]
  list := by
    rw [Agent.State.list, Agent.registered_sets (by simp)]
    exact h.list
  entry := by rw [Agent.registered_sets (by simp), h.entry]
  record := by
    rw [Agent.registered_heap]
    exact h.record
  devicesIntact := by rw [Agent.registered_sets (by simp), h.devicesIntact]
  known := by
    rw [Agent.registered_sets (by simp)]
    exact h.known
  device := by
    rw [Agent.registered_sets (by simp), Agent.registered_heap]
    exact h.device
  objects id real := by rw [Agent.registered_knows, h.objects]

end

/-- The agent has accepted the provider and has nothing of it yet, and the next `n` ids are new. -/
structure Expects (p : Addr) (provider : Agent.Provider) (n : ℕ) (s : Agent.State) : Prop
    extends Agent.Receptive s where
  record : s.heap .provider p = some provider
  phase : s.phase (.provider p) = .registering
  empty : s.sets (.platforms p) = .empty
  unknown : ∀ id real, ¬ s.Knows p id real
  draws : s.DrawsDistinct n

/-- The platform and the devices `pf.devices` have been registered since `x`, and `n` more ids are
new. -/
structure Joining (g : Arrival Cl) (provider : Agent.Provider) (x : Pair Cl) (a : Addr)
    (str : PlatformParam → Bytes) (value : Arg → DeviceParam → Bytes) (pf : Provider.Platform)
    (n : ℕ) (y : Pair Cl) : Prop where
  quiet : Quiet g.toSetting y
  receptive : Agent.Receptive y.agent
  mirrors : Mirrors g.p a str value pf y.agent
  distinct : Provider.Registered [pf]
  provider_eq : y.provider = { x.provider with
    platforms := [pf], idMap := .ofList (Provider.registrations [pf]) }
  record : y.agent.heap .provider g.p = some provider
  phase : y.agent.phase (.provider g.p) = .registering
  draws : y.agent.DrawsDistinct n
  leaves : Agent.Leaves x.agent.next g.p x.agent y.agent
  beyond : x.agent.next ≤ a
  next : x.agent.next ≤ y.agent.next
  unoffered : pf.globalId ∉ y.agent.sets .lbPlatforms

section
variable {g : Arrival Cl} {provider : Agent.Provider} {x y : Pair Cl} {a : Addr}
  {lib : Provider.Queries} {malloc : (n : ℕ) → Buffer n} {platform id : Arg} {ids : List Arg}
  {str : PlatformParam → Bytes} {value : Arg → DeviceParam → Bytes} {pf : Provider.Platform} {n : ℕ}

theorem Expects.join_startupPlatform (hx : Expects g.p provider (n + 1) x.agent)
    (hq : Quiet g.toSetting x) (hplatforms : x.provider.platforms = [⟨0, 0, []⟩])
    (hmap : x.provider.idMap = .empty) (h : Offers lib malloc platform ids str value) :
    ∃ (y : Pair Cl) (pf : Provider.Platform),
      join g (Provider.startupPlatform lib malloc platform) x = .done y () ∧
      pf.id = platform ∧ pf.devices = [] ∧
      Joining g provider x x.agent.next str value pf n y := by
  have hid := hx.draws.nextId
  let E : Agent.State → Prop := fun s => ∃ info, info.id = platform ∧
    (∀ param, info.info param.code = str param) ∧ Agent.EntersPlatform g.p info x.agent s
  have hrun : ∀ sizes (buf : Buffer Agent.infobufsz), ∃ s, E s ∧ Agent.run (.provider g.p)
      (Agent.agentProviderHandler g.p (Agent.InfoMessage.platform.request sizes (buf.receive
        (Provider.describe (lib.clGetPlatformInfo platform) malloc Provider.platformInfoList
          platform)).bytes)) x.agent = .done (s.withNet (s.net.push (.provider g.p)
            [.msg Msg.openclPlatformId (Bytes.word x.agent.nextId)])) () := by
    intro sizes buf
    obtain ⟨info, hrequest, hinfo, hstr⟩ := h.platformInit sizes buf
    have hnew : x.agent.nextId ∉ x.agent.sets (.platforms g.p) := by
      rw [hx.empty]
      exact IdSet.not_mem_empty _
    have hreal : info.id ≠ 0 := by
      rw [hinfo]
      exact h.ne_zero
    obtain ⟨s, hs, hhandle⟩ := Agent.run_handlePlatformInfo (t := .provider g.p) hx.toServiceable
      hx.record (by rw [hx.empty]; rfl) hnew hid hreal (by rw [hq.agent]; rfl)
    rw [hrequest]
    exact ⟨s, ⟨info, hinfo, hstr, hs⟩, hhandle⟩
  have hcomplete : Agent.InfoMessage.platform.Complete (Provider.describe
      (lib.clGetPlatformInfo platform) malloc Provider.platformInfoList platform) :=
    ⟨str, platform, [], h.noZero, h.message_eq⟩
  have hnew : x.agent.nextId ∉ x.provider.idMap := by
    rw [hmap]
    exact IdSet.not_mem_empty _
  obtain ⟨s, log, ⟨info, hinfo, hstr, hs⟩, hjoin⟩ := hq.join_entering hx.phase h.fits hcomplete
    (fun s hs => hs.choose_spec.2.2.net) hrun (by rw [hmap]; rfl) hnew
    (fun pf => { pf with id := platform }) (fun globalId pf => { pf with globalId := globalId })
    platform
  refine ⟨_, ⟨platform, x.agent.nextId, []⟩, hjoin, rfl, rfl, ?_⟩
  · have hmirrors : Mirrors g.p x.agent.next str value ⟨info.id, x.agent.nextId, []⟩ s :=
      mirrors_platform hx.toServiceable hx.empty hx.unknown hid hs hstr
    rw [hinfo] at hmirrors
    constructor
    case quiet => exact ⟨by rw [hs.net]; exact hq.agent, hq.provider⟩
    case receptive =>
      exact hs.toEnters.receptive hx.toReceptive hid
    case mirrors => exact hmirrors
    case distinct => exact List.nodup_singleton _
    case provider_eq =>
      rw [hplatforms, hmap]
      rfl
    case record => rw [hs.provider, hx.record]
    case phase => rw [hs.phase, hx.phase]
    case draws => exact hx.draws.enters hs.toEnters
    case leaves => exact hs.leaves hx.toServiceable hid (Nat.le_refl _)
    case beyond => exact Nat.le_refl _
    case next => exact hs.next
    case unoffered =>
      rw [hs.toEnters.lbPlatforms]
      exact hid.2.2

/-- The id that comes next stands for nothing yet. -/
theorem Joining.not_mapped (h : Joining g provider x a str value pf (n + 1) y) :
    y.agent.nextId ∉ (Provider.registrations [pf]).map Prod.fst := fun hmem =>
  h.draws.nextId.2.1 (h.mirrors.mem_objects hmem)

theorem Joining.join_startupDevice (h : Joining g provider x a str value pf (n + 1) y)
    (hd : OffersDevice lib malloc pf.id id (value id)) :
    ∃ (y' : Pair Cl) (globalId : GlobalId),
      join g (Provider.startupDevice lib malloc id) y = .done y' () ∧
        Joining g provider x a str value (pf.with ⟨id, globalId⟩) n y' := by
  have hs := h.receptive.toServiceable
  have hid := h.draws.nextId
  obtain ⟨r, hr, hdesc⟩ := h.mirrors.record
  have hdevice : y.agent.nextId ∉ y.agent.sets (.devices a) := fun hmem =>
    hid.2.1 (h.mirrors.mem_objects (mem_registrations_devices (h.mirrors.known _ hmem)))
  let E : Agent.State → Prop := fun s => ∃ info, info.id = id ∧ info.platformId = pf.id ∧
    (∀ param : DeviceParam, info.info param.code = value id param) ∧
      Agent.EntersDevice g.p a info y.agent s
  have hrun : ∀ sizes (buf : Buffer Agent.infobufsz), ∃ s, E s ∧ Agent.run (.provider g.p)
      (Agent.agentProviderHandler g.p (Agent.InfoMessage.device.request sizes (buf.receive
        (Provider.describe (lib.clGetDeviceInfo id) malloc Provider.deviceInfoList id)).bytes))
          y.agent = .done (s.withNet (s.net.push (.provider g.p)
            [.msg Msg.openclDeviceId (Bytes.word y.agent.nextId)])) () := by
    intro sizes buf
    obtain ⟨info, hrequest, hinfo, hplatform, hvalue⟩ := hd.deviceInit sizes buf
    obtain ⟨s, hs, hhandle⟩ := Agent.run_handleDeviceInfo (t := .provider g.p) hs h.record
      h.mirrors.intact h.mirrors.list hr (hplatform.trans hdesc.id.symm) h.mirrors.devicesIntact
      hdevice hid (by rw [hinfo]; exact hd.ne_zero) (by rw [h.quiet.agent]; rfl)
    rw [hrequest]
    exact ⟨s, ⟨info, hinfo, hplatform, hvalue, hs⟩, hhandle⟩
  have hcomplete : Agent.InfoMessage.device.Complete (Provider.describe (lib.clGetDeviceInfo id)
      malloc Provider.deviceInfoList id) :=
    ⟨hd.conforms.message id, [], by rw [List.append_nil, hd.message_eq]⟩
  have hmap : y.provider.idMap = .ofList (Provider.registrations [pf]) := by rw [h.provider_eq]
  have hnew : y.agent.nextId ∉ y.provider.idMap := by
    rw [hmap, IdSet.not_mem_iff, IdSet.lookup_ofList h.distinct, List.lookup_eq_none_iff]
    exact fun entry hentry => bne_iff_ne.mpr fun heq =>
      h.not_mapped (heq ▸ List.mem_map_of_mem hentry)
  obtain ⟨s, log, ⟨info, rfl, hplatform, hvalue, he⟩, hjoin⟩ := h.quiet.join_entering h.phase
    hd.fits hcomplete (fun s hs => hs.choose_spec.2.2.2.net) hrun
    (by rw [hmap]; exact IdSet.damaged_ofList h.distinct) hnew
    (fun pf => { pf with devices := pf.devices ++ [⟨id, 0⟩] })
    (fun globalId pf => { pf with
      devices := pf.devices.modifyLast fun device => { device with globalId := globalId } }) id
  refine ⟨_, y.agent.nextId, hjoin, ?_⟩
  constructor
  case quiet => exact ⟨by rw [he.net]; exact h.quiet.agent, h.quiet.provider⟩
  case receptive => exact he.toEnters.receptive h.receptive hid
  case mirrors => exact h.mirrors.device_entered hs hid he hplatform hvalue
  case distinct =>
    rw [Provider.Registered, Provider.registrations_with, List.map_append]
    exact List.Nodup.append h.distinct (List.nodup_singleton _)
      (List.disjoint_singleton.mpr h.not_mapped)
  case provider_eq =>
    rw [h.provider_eq, Provider.registrations_with, IdSet.ofList_concat]
    simp only [List.map_cons, List.map_nil, List.modifyLast_concat]
    rfl
  case record => rw [he.provider, h.record]
  case phase => rw [he.phase, h.phase]
  case draws => exact h.draws.enters he.toEnters
  case leaves => exact h.leaves.trans (he.leaves hs hid h.next h.beyond)
  case beyond => exact h.beyond
  case next => exact Nat.le_trans h.next he.next
  case unoffered =>
    rw [he.toEnters.lbPlatforms]
    exact h.unoffered

theorem Joining.join_startupEach (ids : List Arg)
    (h : Joining g provider x a str value pf (n + ids.length) y)
    (hd : ∀ id ∈ ids, OffersDevice lib malloc pf.id id (value id)) :
    ∃ (y' : Pair Cl) (pf' : Provider.Platform),
      join g (Provider.startupEach lib malloc ids) y = .done y' () ∧ pf'.id = pf.id ∧
        pf'.devices.map Provider.Device.id = pf.devices.map Provider.Device.id ++ ids ∧
          Joining g provider x a str value pf' n y' := by
  induction ids generalizing pf y with
  | nil => exact ⟨y, pf, rfl, rfl, by rw [List.append_nil], h⟩
  | cons id ids ih =>
    obtain ⟨y₁, globalId, hone, h₁⟩ := Joining.join_startupDevice h (hd id List.mem_cons_self)
    obtain ⟨y', pf', hrest, hid, hdevices, h'⟩ := ih h₁ fun id hid =>
      hd id (List.mem_cons_of_mem _ hid)
    refine ⟨y', pf', ?_, hid, ?_, h'⟩
    · rw [Provider.startupEach, join_bind, hone, Outcome.bind_done, hrest]
    · rw [hdevices, Provider.Platform.with, List.map_append, List.append_assoc]
      rfl

theorem mem_offered {device : ℤ} (h : id ∈ Provider.offered device ids) : id ∈ ids := by
  rw [Provider.offered] at h
  split_ifs at h
  · exact h
  · exact List.mem_of_getElem? (Option.mem_toList.mp h)
  · exact absurd h List.not_mem_nil

theorem deviceIds_all (ids : List Arg) : Provider.deviceIds ids.length ids = ids := by
  rw [Provider.deviceIds, List.take_left]

theorem Expects.join_providerStartup {device : ℤ}
    (hx : Expects g.p provider (n + (Provider.offered device ids).length + 1) x.agent)
    (hq : Quiet g.toSetting x) (hmap : x.provider.idMap = .empty)
    (h : Offers lib malloc platform ids str value) :
    ∃ (y : Pair Cl) (pf : Provider.Platform),
      join g (Provider.providerStartup lib malloc device) x = .done y true ∧ pf.id = platform ∧
        pf.devices.map Provider.Device.id = Provider.offered device ids ∧
          Joining g provider x x.agent.next str value pf n y := by
  let q₀ : Provider.State Cl := { x.provider with platforms := [⟨0, 0, []⟩] }
  have hquiet : Quiet g.toSetting { x with provider := q₀ } := ⟨hq.agent, hq.provider⟩
  obtain ⟨y₁, pf, hplatform, hid, hnone, h₁⟩ := Expects.join_startupPlatform
    (x := { x with provider := q₀ }) hx hquiet rfl hmap h
  obtain ⟨y, pf', heach, hid', hdevices, h'⟩ := h₁.join_startupEach _ fun id hmem => by
    rw [hid]
    exact h.device id (mem_offered hmem)
  obtain ⟨l, hcount⟩ := h.count
  obtain ⟨m, hids⟩ := h.deviceIds
  refine ⟨y, pf', ?_, hid'.trans hid, by rw [hdevices, hnone]; rfl, ?_⟩
  · have hfirst : join g (Provider.SProg.platforms fun _ => [⟨0, 0, []⟩]) x =
        .done { x with provider := q₀ } () := join_platforms _
    rw [Provider.providerStartup, join_bind, hfirst, Outcome.bind_done, h.platformIds]
    simp only
    rw [join_bind, hplatform, Outcome.bind_done, hcount]
    simp only
    rw [hids]
    simp only
    rw [deviceIds_all, Provider.startupDevices_offered, join_bind, heach, Outcome.bind_done]
    rfl
  · exact { h' with provider_eq := h'.provider_eq }

/-- The provider has been registered since `x`: it is as a provider that begins to serve, and the
agent has what it has. -/
structure Enrolled (g : Arrival Cl) (addresses : ℕ → Arg) (x : Pair Cl)
    (a : Addr) (str : PlatformParam → Bytes) (value : Arg → DeviceParam → Bytes)
    (pf : Provider.Platform) (y : Pair Cl) : Prop where
  quiet : Quiet g.toSetting y
  receptive : Agent.Receptive y.agent
  phase : y.agent.phase (.provider g.p) = .serving
  distinct : Provider.Registered [pf]
  provider_eq : y.provider = .initial g.lib [pf] addresses
  mirrors : Mirrors g.p a str value pf y.agent
  offered : y.agent.loadBalancing = true →
    (y.agent.sets .lbPlatforms).lookup pf.globalId = some a
  leaves : Agent.Leaves x.agent.next g.p x.agent y.agent

/-- IDLE is the last message, and ends the registration. -/
theorem Joining.host_idle {addresses : ℕ → Arg} (h : Joining g provider x a str value pf n y)
    (hprovider : x.provider = .initial g.lib [] addresses) :
    ∃ z, (y.telling [.msg Msg.idle []]).host g = .done z () ∧
      Enrolled g addresses x a str value pf z ∧ z.agent.DrawsDistinct n := by
  obtain ⟨r, hr, hdesc⟩ := h.mirrors.record
  let s : Agent.State := y.agent.registered g.p a pf.globalId
  have hhandle : ∀ sizes (buf : Buffer Agent.infobufsz), Agent.run (.provider g.p)
      (Agent.agentProviderTurn g.p sizes buf) (y.heardBy g.p [.msg Msg.idle []]).agent =
        .done (s.withNet (s.net.push (.provider g.p) [])) () := by
    intro sizes buf
    have hidle := Agent.run_handleIdle (t := .provider g.p) h.receptive h.record h.mirrors.intact
      h.mirrors.list hr
    rw [hdesc.globalId] at hidle
    rw [Net.push_nil]
    exact (Agent.run_agentProviderTurn_idle h.quiet.agent).trans hidle
  have hknown : pf.globalId ∈ y.agent.sets .objects := h.mirrors.mem_objects (by
    rw [Provider.registrations_single]
    exact List.mem_cons_self)
  refine ⟨_, h.quiet.host_telling h.phase Agent.registered_net (hhandle _ _), ?_, ?_⟩
  · constructor
    case quiet => exact ⟨by rw [Agent.registered_net]; exact h.quiet.agent, rfl⟩
    case receptive => exact h.receptive.registered h.unoffered g.p a
    case phase => exact Agent.State.withPhase_self _ _ _
    case distinct => exact h.distinct
    case provider_eq =>
      show y.provider.withNet (.wire [] []) = _
      rw [h.provider_eq, hprovider]
      rfl
    case mirrors => exact h.mirrors.registered a pf.globalId
    case offered =>
      intro hlb
      rw [Agent.registered_loadBalancing] at hlb
      rw [Agent.registered_lookup h.unoffered, if_pos ⟨hlb, rfl⟩]
    case leaves => exact h.leaves.trans (Agent.registered_leaves h.unoffered)
  · exact h.draws.registered h.unoffered hknown g.p a

/-- A provider that the agent expects gets through its start, and is registered then. -/
theorem Expects.register {device : ℤ} {addresses : ℕ → Arg}
    (hx : Expects g.p provider (n + (Provider.offered device ids).length + 1) x.agent)
    (hq : Quiet g.toSetting x) (hprovider : x.provider = .initial g.lib [] addresses)
    (h : Offers lib malloc platform ids str value) :
    ∃ (y : Pair Cl) (pf : Provider.Platform), register g lib malloc device x = .done y true ∧
      pf.id = platform ∧ pf.devices.map Provider.Device.id = Provider.offered device ids ∧
        Enrolled g addresses x x.agent.next str value pf y ∧ y.agent.DrawsDistinct n := by
  obtain ⟨y, pf, hstart, hid, hdevices, hjoining⟩ := hx.join_providerStartup hq
    (by rw [hprovider]; rfl) h
  obtain ⟨z, hhost, henrolled, hdraws⟩ := hjoining.host_idle hprovider
  refine ⟨z, pf, ?_, hid, hdevices, henrolled, hdraws⟩
  have hjoin : join g (Provider.providerJoin lib malloc device) x =
      .done (y.telling [.msg Msg.idle []]) true := by
    rw [Provider.providerJoin, join_bind, hstart, Outcome.bind_done, if_pos rfl, join_bind,
      hjoining.quiet.join_send, Outcome.bind_done]
    rfl
  rw [Joint.register, hjoin, Outcome.bind_done, hhost]
  rfl

end

end Clara.Joint
