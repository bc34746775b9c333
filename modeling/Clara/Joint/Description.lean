import Clara.Provider.Description
import Clara.Agent.Description
import Clara.Agent.Query

/-! What a provider's library says about a platform and a device, from the provider's start over
the agent's records to the answers that a consumer gets. -/
namespace Clara

open Agent Conc

/-- The library of a provider: its platform, one of the platform's devices, and the queries. -/
structure Library where
  platform : Arg
  device : Arg
  clGetPlatformInfo : Provider.Query PlatformParam
  clGetDeviceInfo : Provider.Query DeviceParam

/-- Every query succeeds, with the size that the specification gives to the value. -/
structure Library.Reports (lib : Library) (str : PlatformParam → Bytes)
    (value : DeviceParam → Bytes) : Prop where
  platformInfo : ∀ param, lib.clGetPlatformInfo param = some (str param ++ [0])
  noZero : ∀ param, 0 ∉ str param
  deviceInfo : ∀ param, lib.clGetDeviceInfo param = some (value param)
  conforms : Conforms value
  platform : value .platform = Bytes.word lib.platform

namespace Library
variable (lib : Library) (malloc : (n : ℕ) → Buffer n)

/-- `CLARA_MSG_OPENCL_PLATFORM_INFO`. -/
def platformMessage : Bytes :=
  Provider.describe lib.clGetPlatformInfo malloc Provider.platformInfoList lib.platform

/-- `CLARA_MSG_OPENCL_DEVICE_INFO`. -/
def deviceMessage : Bytes :=
  Provider.describe lib.clGetDeviceInfo malloc Provider.deviceInfoList lib.device

/-- What the agent makes of the message about the platform; `buf` holds earlier messages. -/
def platformReceived (buf : Buffer infobufsz) : PlatformInfo :=
  platformInit (buf.receive (lib.platformMessage malloc)).bytes

/-- What the agent makes of the message about the device. -/
def deviceReceived (buf : Buffer infobufsz) (sizes : Arg) : DeviceInfo :=
  (deviceInit .zero sizes (buf.receive (lib.deviceMessage malloc)).bytes).info

end Library

structure Agent.Platform.Describes (pf : Platform) (info : PlatformInfo) : Prop where
  id : pf.id = info.id
  info : pf.info = info.info

structure Agent.Device.Describes (dv : Device) (info : DeviceInfo) : Prop where
  id : dv.id = info.id
  platformId : dv.platformId = info.platformId
  info : dv.info = info.info

/-- The record has the platform's id, and queries of it are answered with the strings, wherever the
record ends up. -/
structure PlatformSurvives (info : PlatformInfo) (id : Arg) (str : PlatformParam → Bytes) :
    Prop where
  id : info.id = id
  created : ∀ t provider s s' a, run t (platformCreate provider info) s = .done s' a →
    ∃ pf, s'.heap .platform a = some pf ∧ pf.Describes info
  answered : ∀ (lzo : Lzo) (fuel : ℕ) (t : Tid) (s : State) (c a : Addr) (pf : Platform)
    (params : ExecuteRequest) (param : PlatformParam), Browsable s → Keeps c s →
    s.platformAt (params.argv 1) = some a → s.heap .platform a = some pf → pf.Describes info →
    ClFunction.ofArg params.func = some (.getPlatformInfo, 5) →
    (params.argv 2).toUInt32 = param.code → Asks s c params (str param ++ [0]).length →
    ∃ s', run t (agentExecute lzo fuel params c) s = .done s' clSuccess ∧
      Answered s s' c params (str param ++ [0])

/-- The record has the device's id and that of its platform, and queries of it are answered with the
values, wherever the record ends up. -/
structure DeviceSurvives (info : DeviceInfo) (id platform : Arg) (value : DeviceParam → Bytes) :
    Prop where
  id : info.id = id
  platformId : info.platformId = platform
  created : ∀ t provider s s' d, run t (deviceCreate provider info) s = .done s' d →
    ∃ dv, s'.heap .device d = some dv ∧ dv.Describes info
  answered : ∀ (lzo : Lzo) (fuel : ℕ) (t : Tid) (s : State) (c d : Addr) (dv : Device)
    (params : ExecuteRequest) (param : DeviceParam), Browsable s → Keeps c s →
    s.deviceAt (params.argv 1) = some d → s.heap .device d = some dv → dv.Describes info →
    ClFunction.ofArg params.func = some (.getDeviceInfo, 5) →
    (params.argv 2).toUInt32 = param.code → param ≠ .available → param ≠ .platform →
    Asks s c params (value param).length →
    ∃ s', run t (agentExecute lzo fuel params c) s = .done s' clSuccess ∧
      Answered s s' c params (value param)

theorem Agent.platformCreate_describes {t : Tid} {provider a : Addr} {info : PlatformInfo}
    {s s' : State} (h : run t (platformCreate provider info) s = .done s' a) :
    ∃ pf, s'.heap .platform a = some pf ∧ pf.Describes info := by
  rw [platformCreate] at h
  obtain ⟨s₁, _, _, h₁⟩ := run_bind_done h
  obtain ⟨s₂, id, _, h₂⟩ := run_bind_done h₁
  rw [run_bind, run_new, Outcome.bind_done, run_bind, setCreate, perform, run, Prog.run_perform,
    exec, Outcome.bind_done] at h₂
  obtain ⟨rfl, rfl⟩ := Outcome.done.inj h₂
  have hrecord := s₂.put_heap_self (k := .platform) s₂.next
    (some ⟨provider, none, info.id, id, info.info⟩)
  exact ⟨_, hrecord, rfl, rfl⟩

theorem Agent.deviceCreate_describes {t : Tid} {provider d : Addr} {info : DeviceInfo}
    {s s' : State} (h : run t (deviceCreate provider info) s = .done s' d) :
    ∃ dv, s'.heap .device d = some dv ∧ dv.Describes info := by
  rw [deviceCreate] at h
  obtain ⟨s₁, _, _, h₁⟩ := run_bind_done h
  obtain ⟨s₂, id, _, h₂⟩ := run_bind_done h₁
  rw [run_new] at h₂
  obtain ⟨rfl, rfl⟩ := Outcome.done.inj h₂
  have hrecord := s₂.put_heap_self (k := .device) s₂.next
    (some ⟨provider, info.platformId, info.id, id, info.type, info.available, info.info⟩)
  exact ⟨_, hrecord, rfl, rfl, rfl⟩

namespace Library.Reports
variable {lib : Library} {str : PlatformParam → Bytes} {value : DeviceParam → Bytes}
  (malloc : (n : ℕ) → Buffer n)

theorem platformMessage_eq (h : lib.Reports str value) : lib.platformMessage malloc =
    Layout.record (fun param => str param ++ [0]) PlatformParam.all ++
      Bytes.word lib.platform :=
  Provider.describe_eq h.platformInfo malloc _ _

/-- The message has the parts in the order in which `device_init` takes them. -/
theorem deviceMessage_eq (h : lib.Reports str value) :
    lib.deviceMessage malloc = (h.conforms.message lib.device).bytes := by
  have horder : Provider.deviceInfoList = DeviceMember.front.map DeviceMember.param ++
      (DeviceParam.maxWorkItemSizes :: (DeviceMember.back.map DeviceMember.param ++
        DeviceString.all.map DeviceString.param)) := rfl
  have hfront : Layout.record value (DeviceMember.front.map DeviceMember.param) =
      Layout.record (h.conforms.message lib.device).member DeviceMember.front := rfl
  have hback : Layout.record value (DeviceMember.back.map DeviceMember.param) =
      Layout.record (h.conforms.message lib.device).member DeviceMember.back := rfl
  have hstrings : Layout.record value (DeviceString.all.map DeviceString.param) =
      Layout.record (fun k => (h.conforms.message lib.device).str k ++ [0])
        DeviceString.all := by
    rw [Layout.record, Layout.record, List.flatMap_map]
    exact congrArg (List.flatMap · DeviceString.all)
      (funext fun k => (h.conforms.str_append lib.device k).symm)
  have hsizes : Layout.record value (DeviceParam.maxWorkItemSizes ::
      (DeviceMember.back.map DeviceMember.param ++ DeviceString.all.map DeviceString.param)) =
      value .maxWorkItemSizes ++ Layout.record value (DeviceMember.back.map DeviceMember.param ++
        DeviceString.all.map DeviceString.param) := List.flatMap_cons
  rw [Library.deviceMessage, Provider.describe_eq h.deviceInfo, horder, Layout.record_append,
    hsizes, Layout.record_append, hfront, hback, hstrings, DeviceMessage.bytes,
    List.append_assoc, List.append_assoc, List.append_assoc]
  rfl

theorem platformSurvives (h : lib.Reports str value) {buf : Buffer infobufsz}
    (hlen : (lib.platformMessage malloc).length ≤ infobufsz) :
    PlatformSurvives (lib.platformReceived malloc buf) lib.platform str := by
  have hbytes : (buf.receive (lib.platformMessage malloc)).bytes =
      Layout.record (fun param => str param ++ [0]) PlatformParam.all ++
        (Bytes.word lib.platform ++ buf.bytes.drop (lib.platformMessage malloc).length) := by
    rw [buf.receive_bytes hlen, h.platformMessage_eq malloc, List.append_assoc]
  obtain ⟨hid, hinfo⟩ := platformInit_record h.noZero lib.platform
    (buf.bytes.drop (lib.platformMessage malloc).length)
  rw [← hbytes] at hid hinfo
  refine ⟨hid, fun t provider s s' a => platformCreate_describes, ?_⟩
  intro lzo fuel t s c a pf params param hb hk ha hr hpf hfun hname hasks
  have hstr : pf.info (params.argv 2).toUInt32 = str param := by
    rw [hpf.info, hname]
    exact hinfo param
  have hcode : isPlatformInfo (params.argv 2).toUInt32 = true := by
    rw [hname]
    cases param <;> rfl
  rw [← hstr] at hasks ⊢
  exact hb.run_getPlatformInfo hk ha hr hfun hcode hasks

theorem deviceSurvives (h : lib.Reports str value) {buf : Buffer infobufsz} (sizes : Arg)
    (hlen : (lib.deviceMessage malloc).length ≤ infobufsz) :
    DeviceSurvives (lib.deviceReceived malloc buf sizes) lib.device lib.platform value := by
  have hrecord : deviceInit .zero sizes (buf.receive (lib.deviceMessage malloc)).bytes =
      (h.conforms.message lib.device).device sizes := by
    rw [buf.receive_bytes hlen, h.deviceMessage_eq malloc, DeviceMessage.deviceInit_zero]
  have hplatform : (lib.deviceReceived malloc buf sizes).platformId = lib.platform := by
    have hscalar := h.conforms.param_device lib.device sizes .platform
    rw [DeviceRecord.param, h.platform] at hscalar
    rw [Library.deviceReceived, hrecord, DeviceRecord.info, hscalar, Bytes.wordAt_word]
  have hinfo : ∀ param : DeviceParam,
      (lib.deviceReceived malloc buf sizes).info param.code = value param := by
    intro param
    rw [Library.deviceReceived, hrecord, DeviceRecord.info]
    simp only [DeviceParam.ofCode_code, Option.map_some, Option.getD_some]
    exact h.conforms.param_device lib.device sizes param
  refine ⟨?_, hplatform, fun t provider s s' d => deviceCreate_describes, ?_⟩
  · rw [Library.deviceReceived, hrecord]
    rfl
  · intro lzo fuel t s c d dv params param hb hk hd hr hdv hfun hname havail hplat hasks
    have hcode : isDeviceInfo param.code = true := by cases param <;> decide
    have hnot : param.code ≠ clDeviceAvailable := by
      revert havail
      cases param <;> decide
    have hnot' : param.code ≠ clDevicePlatform := by
      revert hplat
      cases param <;> decide
    have hvalue : dv.value (params.argv 2).toUInt32 = value param := by
      rw [Device.value, hname, if_neg hnot', hdv.info, hinfo]
    rw [← hvalue] at hasks ⊢
    rw [← hname] at hcode hnot
    exact hb.run_getDeviceInfo hk hd hr hfun hcode hnot hasks

end Library.Reports

/-- Whatever the library reports about a platform and a device, with the sizes of the specification,
is what the agent answers. -/
theorem descriptionsSurvive {lib : Library} {str : PlatformParam → Bytes}
    {value : DeviceParam → Bytes} (h : lib.Reports str value) (malloc : (n : ℕ) → Buffer n)
    (hp : (lib.platformMessage malloc).length ≤ infobufsz)
    (hd : (lib.deviceMessage malloc).length ≤ infobufsz) (buf buf' : Buffer infobufsz)
    (sizes : Arg) :
    PlatformSurvives (lib.platformReceived malloc buf) lib.platform str ∧
      DeviceSurvives (lib.deviceReceived malloc buf' sizes) lib.device lib.platform value :=
  ⟨h.platformSurvives malloc hp, h.deviceSurvives malloc sizes hd⟩

def someValue : DeviceParam → Bytes
  | .maxWorkItemDimensions => Bytes.ofNat 4 1
  | .maxWorkItemSizes => Bytes.ofNat 8 256
  | .platform => Bytes.word 77
  | param => match param.paramType with
    | .scalar type => Bytes.ofNat type.sizeof 3
    | .sizes => []
    | .string => [65, 0]

/-- A library with such a device. -/
def Library.small : Library := ⟨77, 78, fun _ => some [65, 0], fun param => some (someValue param)⟩

theorem Library.small_reports : Library.small.Reports (fun _ => [65]) someValue where
  platformInfo _ := rfl
  noZero _ := by decide
  deviceInfo _ := rfl
  conforms := {
    scalar := by
      intro param type h
      cases param <;> cases h <;> rfl
    sizes := by
      intro param h
      cases param <;> cases h
      rfl
    string := by
      intro param h
      refine ⟨[65], by decide, ?_⟩
      cases param <;> cases h <;> rfl }
  platform := rfl

/-- Blocks of zeros. -/
def zeros (n : ℕ) : Buffer n := ⟨List.replicate n 0, List.length_replicate⟩

def Agent.describedDevice (info : DeviceInfo) : Device :=
  ⟨1, info.platformId, info.id, 10, info.type, info.available, info.info⟩

/-- An agent with the device, and two allocations of a consumer. -/
def Agent.State.described (info : DeviceInfo) : State :=
  { State.small someIds with
    heap := fun
      | .provider => fun a => if a = 1 then some ⟨0, 2, true⟩ else none
      | .platform => fun a => if a = 5 then some ⟨1, none, 77, 9, fun _ => []⟩ else none
      | .device => fun a => if a = 8 then some (describedDevice info) else none
      | .allocation => fun a => if a = 11 then some ⟨20, 1, 4, some 12⟩
          else if a = 13 then some ⟨21, 1, 8, some 14⟩ else none
      | .buffer => fun a => if a = 12 then some (List.replicate 4 7)
          else if a = 14 then some (List.replicate 8 7) else none
      | _ => fun _ => none
    sets := fun
      | .providers => IdSet.empty.add 1 1
      | .idPool => (((IdSet.empty.add 9 0).add 10 0).add 20 0).add 21 0
      | .platforms 1 => IdSet.empty.add 9 5
      | .devices 5 => IdSet.empty.add 10 8
      | .allocations 3 => (IdSet.empty.add 20 11).add 21 13
      | _ => .empty }

section
variable (info : DeviceInfo)

theorem Agent.described_browsable : Browsable (State.described info) := by
  have hproviders : ∀ p ∈ (State.described info).list .providers, p = 1 :=
    fun p hp => List.mem_singleton.mp hp
  have hplatforms : ∀ a ∈ (State.described info).list (.platforms 1), a = 5 :=
    fun a ha => List.mem_singleton.mp ha
  have hdevices : ∀ d ∈ (State.described info).list (.devices 5), d = 8 :=
    fun d hd => List.mem_singleton.mp hd
  constructor
  · exact ⟨rfl, rfl⟩
  · intro p hp
    rw [hproviders p hp]
    exact ⟨rfl, rfl⟩
  · intro p hp a ha
    rw [hproviders p hp] at ha
    rw [hplatforms a ha]
    rfl
  · intro p hp a ha
    rw [hproviders p hp] at ha
    rw [hplatforms a ha]
    exact ⟨rfl, rfl⟩
  · intro p hp a ha d hd
    rw [hproviders p hp] at ha
    rw [hplatforms a ha] at hd
    rw [hdevices d hd]
    rfl

theorem Agent.described_device : (State.described info).deviceAt 10 = some 8 ∧
    (State.described info).heap .device 8 = some (describedDevice info) ∧
    (describedDevice info).Describes info :=
  ⟨rfl, rfl, rfl, rfl, rfl⟩

theorem Agent.described_stores_value : (State.described info).Stores 3 20 11 12
    (List.replicate 4 7) :=
  ⟨rfl, ⟨1, 4, rfl, rfl⟩, rfl⟩

theorem Agent.described_stores_size : (State.described info).Stores 3 21 13 14
    (List.replicate 8 7) :=
  ⟨rfl, ⟨1, 8, rfl, rfl⟩, rfl⟩

theorem Agent.described_keeps : Keeps 3 (State.described info) := by
  have hlook : ∀ handle a, ((State.described info).sets (.allocations 3)).lookup handle = some a →
      handle = 20 ∧ a = 11 ∨ handle = 21 ∧ a = 13 := by
    intro handle a h
    have hadd : ((IdSet.empty.add (20 : Handle) (11 : Addr)).add 21 13).lookup handle = some a := h
    rw [IdSet.lookup_add (by decide), IdSet.lookup_add (by decide)] at hadd
    split_ifs at hadd with h21 h20
    · exact .inr ⟨h21, (Option.some.inj hadd).symm⟩
    · exact .inl ⟨h20, (Option.some.inj hadd).symm⟩
    · cases hadd
  constructor
  · rfl
  · rfl
  · intro handle h
    obtain ⟨a, ha⟩ := IdSet.mem_iff.mp h
    rcases hlook handle a ha with ⟨rfl, -⟩ | ⟨rfl, -⟩
    · rfl
    · rfl
  · intro handle a h
    rcases hlook handle a h with ⟨rfl, rfl⟩ | ⟨rfl, rfl⟩
    · exact ⟨_, rfl, rfl⟩
    · exact ⟨_, rfl, rfl⟩

/-- Consumer 3 asks the device with the global id 10 for its vendor id. -/
def askVendor : ExecuteRequest :=
  ⟨invalidHandle, 3, fun i => [0, 10, 0x1001, 4, 20, 21].getD i 0, 5⟩

theorem Agent.described_asks :
    Asks (State.described info) 3 askVendor (someValue .vendorId).length where
  hint := rfl
  value _ := ⟨11, 12, _, described_stores_value info, by decide, by decide, by decide⟩
  size _ := ⟨13, 14, _, described_stores_size info, by decide, by decide, by decide⟩
  room _ := by decide
  apart a a' ptr b b' h h' := by
    have h12 := (h.unique (described_stores_value info)).2.1
    have h14 := (h'.unique (described_stores_size info)).2.1
    rw [h12] at h14
    exact absurd h14 (by decide)

end

/-- The vendor id that the library reports arrives, and its size. -/
theorem descriptionsSurvive_vendor : ∃ s',
    run (.consumer 3) (agentExecute literalLzo 0 askVendor 3)
      (State.described (Library.small.deviceReceived zeros (zeros infobufsz) 0)) =
        .done s' clSuccess ∧
      s'.heap .buffer 12 = some (Bytes.ofNat 4 3) ∧ s'.heap .buffer 14 = some (Bytes.ofNat 8 4) := by
  have hboth := descriptionsSurvive Library.small_reports zeros (by decide +kernel)
    (by decide +kernel) (zeros infobufsz) (zeros infobufsz) 0
  obtain ⟨hfound, hrecord, hdescribes⟩ := described_device
    (Library.small.deviceReceived zeros (zeros infobufsz) 0)
  obtain ⟨s', hrun, hanswered⟩ := hboth.2.answered literalLzo 0 (.consumer 3) _ 3 8 _ askVendor
    .vendorId (described_browsable _) (described_keeps _) hfound hrecord hdescribes rfl rfl
    (by decide) (by decide) (described_asks _)
  have hvalue := hanswered.value (by decide) 11 12 _ (described_stores_value _)
  have hsize := hanswered.size (by decide) 13 14 _ (described_stores_size _)
  exact ⟨s', hrun, hvalue.block, hsize.block⟩

end Clara
