import Clara.Agent.Peers
import Clara.Common.Description

/-! `device_init` and `platform_init`: how the agent takes apart what a provider tells it, and
where `clGetDeviceInfo` finds each part. -/
namespace Clara.Agent

/-- `bufsz` in `agent_provider_handler`. -/
def infobufsz : ℕ := 10000

inductive DeviceMember
  | type | vendorId | maxComputeUnits | maxWorkItemDimensions
  | maxWorkItemSizes
  | maxWorkGroupSize
  | preferredVectorWidthChar | preferredVectorWidthShort | preferredVectorWidthInt
  | preferredVectorWidthLong | preferredVectorWidthFloat | preferredVectorWidthDouble
  | maxClockFrequency | addressBits | maxMemAllocSize
  | imageSupport | maxReadImageArgs | maxWriteImageArgs
  | image2dMaxWidth | image2dMaxHeight | image3dMaxWidth | image3dMaxHeight | image3dMaxDepth
  | maxSamplers | maxParameterSize | memBaseAddrAlign | minDataTypeAlignSize
  | singleFpConfig | globalMemCacheType | globalMemCachelineSize | globalMemCacheSize
  | globalMemSize | maxConstantBufferSize | maxConstantArgs | localMemType | localMemSize
  | errorCorrectionSupport | profilingTimerResolution
  | endianLittle | available | compilerAvailable
  | executionCapabilities | queueProperties
  | platformId
  deriving DecidableEq

namespace DeviceMember

def clType : DeviceMember → ClType
  | type | singleFpConfig | executionCapabilities | queueProperties => .bitfield
  | vendorId | maxComputeUnits | maxWorkItemDimensions
  | preferredVectorWidthChar | preferredVectorWidthShort | preferredVectorWidthInt
  | preferredVectorWidthLong | preferredVectorWidthFloat | preferredVectorWidthDouble
  | maxClockFrequency | addressBits | maxReadImageArgs | maxWriteImageArgs | maxSamplers
  | memBaseAddrAlign | minDataTypeAlignSize | globalMemCacheType | globalMemCachelineSize
  | maxConstantArgs | localMemType => .uint
  | maxWorkGroupSize | image2dMaxWidth | image2dMaxHeight | image3dMaxWidth | image3dMaxHeight
  | image3dMaxDepth | maxParameterSize | profilingTimerResolution => .size
  | maxMemAllocSize | globalMemCacheSize | globalMemSize | maxConstantBufferSize
  | localMemSize => .ulong
  | imageSupport | errorCorrectionSupport | endianLittle | available | compilerAvailable => .bool
  | maxWorkItemSizes | platformId => .pointer

def sizeof (m : DeviceMember) : ℕ := m.clType.sizeof

/-- The members that stand before the pointer to the work-item sizes. -/
def front : List DeviceMember := [type, vendorId, maxComputeUnits, maxWorkItemDimensions]

def back : List DeviceMember :=
  [maxWorkGroupSize,
   preferredVectorWidthChar, preferredVectorWidthShort, preferredVectorWidthInt,
   preferredVectorWidthLong, preferredVectorWidthFloat, preferredVectorWidthDouble,
   maxClockFrequency, addressBits, maxMemAllocSize,
   imageSupport, maxReadImageArgs, maxWriteImageArgs,
   image2dMaxWidth, image2dMaxHeight, image3dMaxWidth, image3dMaxHeight, image3dMaxDepth,
   maxSamplers, maxParameterSize, memBaseAddrAlign, minDataTypeAlignSize,
   singleFpConfig, globalMemCacheType, globalMemCachelineSize, globalMemCacheSize,
   globalMemSize, maxConstantBufferSize, maxConstantArgs, localMemType, localMemSize,
   errorCorrectionSupport, profilingTimerResolution,
   endianLittle, available, compilerAvailable,
   executionCapabilities, queueProperties,
   platformId]

/-- The members in the order of their declaration; `#pragma pack` leaves no gaps. -/
def all : List DeviceMember := front ++ maxWorkItemSizes :: back

def offset (m : DeviceMember) : ℕ := Layout.offset sizeof m all

end DeviceMember

inductive DeviceString
  | name | vendor | driverVersion | profile | version | extensions
  deriving DecidableEq

/-- `struct _device` with what its pointers lead to. The members up to `platform_id` are bytes of
memory; the rest are the arrays and strings of their own, and `id`. -/
structure DeviceRecord where
  packed : Bytes
  maxWorkItemSizes : Bytes
  strings : DeviceString → Bytes
  id : Arg

def DeviceRecord.zero : DeviceRecord :=
  ⟨List.replicate (Layout.extent DeviceMember.sizeof DeviceMember.all) 0, [], fun _ => [], 0⟩

/-- What a string is copied to, and the number of bytes that the call returns. -/
def claraMallocAndStrcpy (src : Bytes) : Bytes × ℕ :=
  (src.take (src.strlen + 1), src.strlen + 1)

def copyStrings {κ : Type} [DecidableEq κ] : List κ → (κ → Bytes) → Bytes → (κ → Bytes) × Bytes
  | [], m, ptr => (m, ptr)
  | k :: ks, m, ptr =>
    let (dst, n) := claraMallocAndStrcpy ptr
    copyStrings ks (Function.update m k dst) (ptr.drop n)

/-- `sizes` is where the array for the work-item sizes is allocated. -/
def deviceInit (device : DeviceRecord) (sizes : Arg) (ptr : Bytes) : DeviceRecord :=
  let nel := ClType.bitfield.sizeof + ClType.uint.sizeof + ClType.uint.sizeof + ClType.uint.sizeof
  let packed := device.packed.overwrite DeviceMember.type.offset (ptr.take nel)
  let ptr := ptr.drop nel
  let packed := packed.overwrite DeviceMember.maxWorkItemSizes.offset (Bytes.word sizes)
  let dimensions := Bytes.toNat
    (packed.slice DeviceMember.maxWorkItemDimensions.offset ClType.uint.sizeof)
  let maxWorkItemSizes := ptr.take (ClType.size.sizeof * dimensions)
  let ptr := ptr.drop (ClType.size.sizeof * dimensions)
  let nel := 8 * ClType.size.sizeof + 15 * ClType.uint.sizeof + 5 * ClType.ulong.sizeof +
    5 * ClType.bool.sizeof + ClType.bitfield.sizeof + ClType.uint.sizeof + ClType.uint.sizeof +
    ClType.bitfield.sizeof + ClType.bitfield.sizeof + ClType.pointer.sizeof
  let packed := packed.overwrite DeviceMember.maxWorkGroupSize.offset (ptr.take nel)
  let ptr := ptr.drop nel
  let (strings, ptr) := copyStrings [.name, .vendor, .driverVersion, .profile, .version,
    .extensions] device.strings ptr
  ⟨packed, maxWorkItemSizes, strings, Bytes.wordAt (ptr.take ClType.pointer.sizeof) 0⟩

namespace DeviceRecord
variable (device : DeviceRecord)

def scalar (m : DeviceMember) (type : ClType) : Bytes := device.packed.slice m.offset type.sizeof

def text (k : DeviceString) : Bytes :=
  (device.strings k).take ((device.strings k).strlen + 1)

/-- What `clara_post_clGetDeviceInfo` copies for each name: `value_size` bytes from `param_buf`. -/
def param : DeviceParam → Bytes
  | .type => device.scalar .type .bitfield
  | .vendorId => device.scalar .vendorId .uint
  | .maxComputeUnits => device.scalar .maxComputeUnits .uint
  | .maxWorkItemDimensions => device.scalar .maxWorkItemDimensions .uint
  | .maxWorkItemSizes => device.maxWorkItemSizes.take (ClType.size.sizeof *
      Bytes.toNat (device.scalar .maxWorkItemDimensions .uint))
  | .maxWorkGroupSize => device.scalar .maxWorkGroupSize .size
  | .preferredVectorWidthChar => device.scalar .preferredVectorWidthChar .uint
  | .preferredVectorWidthShort => device.scalar .preferredVectorWidthShort .uint
  | .preferredVectorWidthInt => device.scalar .preferredVectorWidthInt .uint
  | .preferredVectorWidthLong => device.scalar .preferredVectorWidthLong .uint
  | .preferredVectorWidthFloat => device.scalar .preferredVectorWidthFloat .uint
  | .preferredVectorWidthDouble => device.scalar .preferredVectorWidthDouble .uint
  | .maxClockFrequency => device.scalar .maxClockFrequency .uint
  | .addressBits => device.scalar .addressBits .uint
  | .maxMemAllocSize => device.scalar .maxMemAllocSize .ulong
  | .imageSupport => device.scalar .imageSupport .bool
  | .maxReadImageArgs => device.scalar .maxReadImageArgs .uint
  | .maxWriteImageArgs => device.scalar .maxWriteImageArgs .uint
  | .image2dMaxWidth => device.scalar .image2dMaxWidth .size
  | .image2dMaxHeight => device.scalar .image2dMaxHeight .size
  | .image3dMaxWidth => device.scalar .image3dMaxWidth .size
  | .image3dMaxHeight => device.scalar .image3dMaxHeight .size
  | .image3dMaxDepth => device.scalar .image3dMaxDepth .size
  | .maxSamplers => device.scalar .maxSamplers .uint
  | .maxParameterSize => device.scalar .maxParameterSize .size
  | .memBaseAddrAlign => device.scalar .memBaseAddrAlign .uint
  | .minDataTypeAlignSize => device.scalar .minDataTypeAlignSize .uint
  | .singleFpConfig => device.scalar .singleFpConfig .bitfield
  | .globalMemCacheType => device.scalar .globalMemCacheType .uint
  | .globalMemCachelineSize => device.scalar .globalMemCachelineSize .uint
  | .globalMemCacheSize => device.scalar .globalMemCacheSize .ulong
  | .globalMemSize => device.scalar .globalMemSize .ulong
  | .maxConstantBufferSize => device.scalar .maxConstantBufferSize .ulong
  | .maxConstantArgs => device.scalar .maxConstantArgs .uint
  | .localMemType => device.scalar .localMemType .uint
  | .localMemSize => device.scalar .localMemSize .ulong
  | .errorCorrectionSupport => device.scalar .errorCorrectionSupport .bool
  | .profilingTimerResolution => device.scalar .profilingTimerResolution .size
  | .endianLittle => device.scalar .endianLittle .bool
  | .available => device.scalar .available .bool
  | .compilerAvailable => device.scalar .compilerAvailable .bool
  | .executionCapabilities => device.scalar .executionCapabilities .bitfield
  | .queueProperties => device.scalar .queueProperties .bitfield
  | .platform => device.scalar .platformId .pointer
  | .name => device.text .name
  | .vendor => device.text .vendor
  | .driverVersion => device.text .driverVersion
  | .profile => device.text .profile
  | .version => device.text .version
  | .extensions => device.text .extensions

/-- The record as the agent's functions use it. -/
def info : DeviceInfo where
  id := device.id
  platformId := (device.scalar .platformId .pointer).wordAt 0
  type := (device.scalar .type .bitfield).wordAt 0
  available := Bytes.toNat (device.scalar .available .bool) ≠ 0
  info code := ((DeviceParam.ofCode code).map device.param).getD []

end DeviceRecord

/-- The strings are kept without their zero byte. -/
def platformInit (ptr : Bytes) : PlatformInfo :=
  let (strings, ptr) := copyStrings
    [PlatformParam.profile, .version, .name, .vendor, .extensions] (fun _ => []) ptr
  { id := Bytes.wordAt (ptr.take ClType.pointer.sizeof) 0
    info := fun code => ((PlatformParam.ofCode code).map fun param =>
      (strings param).take (strings param).strlen).getD [] }

section
variable {κ : Type} [DecidableEq κ] {str : κ → Bytes}

theorem claraMallocAndStrcpy_append {s : Bytes} (h : 0 ∉ s) (rest : Bytes) :
    claraMallocAndStrcpy (s ++ 0 :: rest) = (s ++ [0], s.length + 1) := by
  have hsplit : s ++ 0 :: rest = (s ++ [0]) ++ rest := by simp
  rw [claraMallocAndStrcpy, Bytes.strlen_append_zero h, hsplit, List.take_left' (by simp)]

/-- Strings without a zero byte of their own are copied as they are. -/
theorem copyStrings_record (hstr : ∀ k, 0 ∉ str k) (ks : List κ) (m : κ → Bytes) (rest : Bytes) :
    copyStrings ks m (Layout.record (fun k => str k ++ [0]) ks ++ rest) =
      (fun k => if k ∈ ks then str k ++ [0] else m k, rest) := by
  induction ks generalizing m with
  | nil =>
    have hnil : Layout.record (fun k => str k ++ [0]) [] ++ rest = rest := rfl
    rw [copyStrings, hnil]
    simp
  | cons k ks ih =>
    have hcons : Layout.record (fun k => str k ++ [0]) (k :: ks) ++ rest =
        str k ++ 0 :: (Layout.record (fun k => str k ++ [0]) ks ++ rest) := by
      rw [Layout.record, List.flatMap_cons, Layout.record]
      simp
    have hdrop : (str k ++ 0 :: (Layout.record (fun k => str k ++ [0]) ks ++ rest)).drop
        ((str k).length + 1) = Layout.record (fun k => str k ++ [0]) ks ++ rest := by
      rw [List.drop_append, List.drop_eq_nil_of_le (by omega)]
      simp
    rw [hcons, copyStrings, claraMallocAndStrcpy_append (hstr k)]
    simp only
    rw [hdrop, ih]
    congr 1
    funext j
    by_cases hj : j = k
    · subst hj
      simp
    · simp [hj]

end

theorem platformInit_record {str : PlatformParam → Bytes} (hstr : ∀ k, 0 ∉ str k) (id : Arg)
    (rest : Bytes) :
    (platformInit (Layout.record (fun k => str k ++ [0]) PlatformParam.all ++
      (Bytes.word id ++ rest))).id = id ∧
    ∀ param, (platformInit (Layout.record (fun k => str k ++ [0]) PlatformParam.all ++
      (Bytes.word id ++ rest))).info param.code = str param := by
  have hcopy := copyStrings_record hstr PlatformParam.all (fun _ => []) (Bytes.word id ++ rest)
  have hall : [PlatformParam.profile, .version, .name, .vendor, .extensions] =
    PlatformParam.all := rfl
  have hid : (Bytes.word id ++ rest).take ClType.pointer.sizeof = Bytes.word id :=
    List.take_left' (Bytes.length_word id)
  rw [platformInit, hall, hcopy]
  constructor
  · show Bytes.wordAt ((Bytes.word id ++ rest).take ClType.pointer.sizeof) 0 = id
    rw [hid, Bytes.wordAt_word]
  · intro param
    have hmem : param ∈ PlatformParam.all := by cases param <;> decide
    have hlen : Bytes.strlen (str param ++ [0]) = (str param).length :=
      Bytes.strlen_append_zero (hstr param) []
    simp only [PlatformParam.ofCode_code, Option.map_some, Option.getD_some, if_pos hmem]
    rw [hlen, List.take_left]

def DeviceString.all : List DeviceString :=
  [.name, .vendor, .driverVersion, .profile, .version, .extensions]

structure DeviceMessage where
  member : DeviceMember → Bytes
  sizes : Bytes
  str : DeviceString → Bytes
  id : Arg
  fits : ∀ m, m ≠ .maxWorkItemSizes → (member m).length = m.sizeof
  length_sizes : sizes.length = 8 * Bytes.toNat (member .maxWorkItemDimensions)
  noZero : ∀ k, 0 ∉ str k

namespace DeviceMessage
open DeviceMember (front back sizeof)

variable (msg : DeviceMessage)

def bytes : Bytes :=
  Layout.record msg.member front ++ (msg.sizes ++ (Layout.record msg.member back ++
    (Layout.record (fun k => msg.str k ++ [0]) DeviceString.all ++ Bytes.word msg.id)))

def packed (sizes : Arg) (b : Bytes) : Bytes :=
  ((b.overwrite 0 (Layout.record msg.member front)).overwrite
    (Layout.extent sizeof front) (Bytes.word sizes)).overwrite
      (Layout.extent sizeof (front ++ [.maxWorkItemSizes])) (Layout.record msg.member back)

theorem fits_front : Layout.Fits sizeof msg.member front := by
  intro m hm
  apply msg.fits
  rintro rfl
  revert hm
  decide

theorem fits_back : Layout.Fits sizeof msg.member back := by
  intro m hm
  apply msg.fits
  rintro rfl
  revert hm
  decide

theorem length_front : (Layout.record msg.member front).length = Layout.extent sizeof front :=
  msg.fits_front.length_record

theorem length_back : (Layout.record msg.member back).length = Layout.extent sizeof back :=
  msg.fits_back.length_record

/-- The members before the array, once they are written. -/
theorem field_front {m : DeviceMember} (hm : m ∈ front) (sizes : Arg) {b : Bytes}
    (hb : Layout.extent sizeof DeviceMember.all ≤ b.length) :
    Layout.field sizeof DeviceMember.all m
      ((b.overwrite 0 (Layout.record msg.member front)).overwrite
        (Layout.extent sizeof front) (Bytes.word sizes)) = msg.member m := by
  have hlen := msg.length_front
  have htotal : Layout.extent sizeof front ≤ Layout.extent sizeof DeviceMember.all := by decide
  have hone : (b.overwrite 0 (Layout.record msg.member front)).length = b.length :=
    Bytes.length_overwrite (by omega)
  have hnil : Layout.extent sizeof [] = 0 := rfl
  have hfirst := Layout.field_overwrite (a := []) (c := .maxWorkItemSizes :: back) (b := b)
    msg.fits_front hm (by simp) (by omega)
  rw [DeviceMember.all, Layout.field_overwrite_before hm (by omega)]
  exact hfirst

/-- Each member has the value that stood in the message. -/
theorem field_packed {m : DeviceMember} (hm : m ≠ .maxWorkItemSizes) (sizes : Arg) {b : Bytes}
    (hb : Layout.extent sizeof DeviceMember.all ≤ b.length) :
    Layout.field sizeof DeviceMember.all m (msg.packed sizes b) = msg.member m := by
  have hlen := msg.length_front
  have htotal : Layout.extent sizeof (front ++ [.maxWorkItemSizes]) +
      Layout.extent sizeof back = Layout.extent sizeof DeviceMember.all := by decide
  have hptr : Layout.extent sizeof front + 8 =
      Layout.extent sizeof (front ++ [.maxWorkItemSizes]) := by decide
  have hone : (b.overwrite 0 (Layout.record msg.member front)).length = b.length :=
    Bytes.length_overwrite (by omega)
  have htwo : ((b.overwrite 0 (Layout.record msg.member front)).overwrite
      (Layout.extent sizeof front) (Bytes.word sizes)).length = b.length := by
    rw [Bytes.length_overwrite (by rw [Bytes.length_word]; omega), hone]
  have hsplit : DeviceMember.all = (front ++ [.maxWorkItemSizes]) ++ back ++ [] := rfl
  have hsplit' : DeviceMember.all = (front ++ [.maxWorkItemSizes]) ++ back := rfl
  by_cases hfront : m ∈ front
  · have hmem : m ∈ front ++ [.maxWorkItemSizes] := List.mem_append_left _ hfront
    have hbefore := msg.field_front hfront sizes hb
    rw [hsplit'] at hbefore ⊢
    rw [packed, Layout.field_overwrite_before hmem (by omega), hbefore]
  · have hback : m ∈ back := by
      revert hm hfront
      cases m <;> decide
    have hnot : m ∉ front ++ [.maxWorkItemSizes] := by
      rw [List.mem_append, List.mem_singleton]
      exact not_or.mpr ⟨hfront, hm⟩
    rw [hsplit, packed]
    exact Layout.field_overwrite msg.fits_back hback hnot (by omega)

theorem deviceInit_bytes {device : DeviceRecord}
    (hd : Layout.extent sizeof DeviceMember.all ≤ device.packed.length) (sizes : Arg)
    (rest : Bytes) :
    deviceInit device sizes (msg.bytes ++ rest) =
      ⟨msg.packed sizes device.packed, msg.sizes,
        fun k => msg.str k ++ [0], msg.id⟩ := by
  let tail := Layout.record (fun k => msg.str k ++ [0]) DeviceString.all ++
    (Bytes.word msg.id ++ rest)
  have hbytes : msg.bytes ++ rest = Layout.record msg.member front ++
      (msg.sizes ++ (Layout.record msg.member back ++ tail)) := by
    simp only [bytes, tail, List.append_assoc]
  have hfront : ClType.bitfield.sizeof + ClType.uint.sizeof + ClType.uint.sizeof +
      ClType.uint.sizeof = (Layout.record msg.member front).length := by
    rw [msg.length_front]
    decide
  have hback : 8 * ClType.size.sizeof + 15 * ClType.uint.sizeof + 5 * ClType.ulong.sizeof +
      5 * ClType.bool.sizeof + ClType.bitfield.sizeof + ClType.uint.sizeof + ClType.uint.sizeof +
      ClType.bitfield.sizeof + ClType.bitfield.sizeof + ClType.pointer.sizeof =
      (Layout.record msg.member back).length := by
    rw [msg.length_back]
    decide
  have htype : DeviceMember.type.offset = 0 := by decide
  have hptr : DeviceMember.maxWorkItemSizes.offset = Layout.extent sizeof front := by decide
  have hgroup : DeviceMember.maxWorkGroupSize.offset =
      Layout.extent sizeof (front ++ [.maxWorkItemSizes]) := by decide
  have hdims : Bytes.slice ((device.packed.overwrite 0 (Layout.record msg.member front)).overwrite
      (Layout.extent sizeof front) (Bytes.word sizes)) DeviceMember.maxWorkItemDimensions.offset
      ClType.uint.sizeof = msg.member .maxWorkItemDimensions :=
    msg.field_front (by decide) sizes hd
  have hsizes : ClType.size.sizeof * Bytes.toNat (msg.member .maxWorkItemDimensions) =
      msg.sizes.length := msg.length_sizes.symm
  have hcopy := copyStrings_record msg.noZero DeviceString.all device.strings
    (Bytes.word msg.id ++ rest)
  have hall : [DeviceString.name, .vendor, .driverVersion, .profile, .version, .extensions] =
    DeviceString.all := rfl
  have hmem : ∀ k : DeviceString, k ∈ DeviceString.all := by
    intro k
    cases k <;> decide
  have hid : (Bytes.word msg.id ++ rest).take ClType.pointer.sizeof = Bytes.word msg.id :=
    List.take_left' (Bytes.length_word msg.id)
  rw [deviceInit, hbytes, hfront, hback, htype, hptr, hgroup]
  simp only [List.take_left, List.drop_left]
  rw [hdims, hsizes, hall]
  simp only [List.take_left, List.drop_left, tail]
  rw [hcopy]
  simp only [hid, Bytes.wordAt_word, hmem, if_true]
  rfl

/-- The record that `device_init` makes of the message. -/
def device (sizes : Arg) : DeviceRecord :=
  ⟨msg.packed sizes DeviceRecord.zero.packed, msg.sizes, fun k => msg.str k ++ [0], msg.id⟩

theorem deviceInit_zero (sizes : Arg) (rest : Bytes) :
    deviceInit .zero sizes (msg.bytes ++ rest) = msg.device sizes :=
  msg.deviceInit_bytes (by simp [DeviceRecord.zero]) sizes rest

theorem scalar_device {m : DeviceMember} (hm : m ≠ .maxWorkItemSizes) {type : ClType}
    (htype : type.sizeof = m.sizeof) (sizes : Arg) :
    (msg.device sizes).scalar m type = msg.member m := by
  have hfield := msg.field_packed hm sizes (b := DeviceRecord.zero.packed)
    (by simp [DeviceRecord.zero])
  rw [DeviceRecord.scalar, htype]
  exact hfield

theorem text_device (k : DeviceString) (sizes : Arg) :
    (msg.device sizes).text k = msg.str k ++ [0] := by
  have hlen : Bytes.strlen (msg.str k ++ [0]) = (msg.str k).length :=
    Bytes.strlen_append_zero (msg.noZero k) []
  show List.take (Bytes.strlen (msg.str k ++ [0]) + 1) (msg.str k ++ [0]) = msg.str k ++ [0]
  rw [hlen, List.take_of_length_le (by simp)]

end DeviceMessage

def DeviceMember.param : DeviceMember → DeviceParam
  | type => .type
  | vendorId => .vendorId
  | maxComputeUnits => .maxComputeUnits
  | maxWorkItemDimensions => .maxWorkItemDimensions
  | maxWorkItemSizes => .maxWorkItemSizes
  | maxWorkGroupSize => .maxWorkGroupSize
  | preferredVectorWidthChar => .preferredVectorWidthChar
  | preferredVectorWidthShort => .preferredVectorWidthShort
  | preferredVectorWidthInt => .preferredVectorWidthInt
  | preferredVectorWidthLong => .preferredVectorWidthLong
  | preferredVectorWidthFloat => .preferredVectorWidthFloat
  | preferredVectorWidthDouble => .preferredVectorWidthDouble
  | maxClockFrequency => .maxClockFrequency
  | addressBits => .addressBits
  | maxMemAllocSize => .maxMemAllocSize
  | imageSupport => .imageSupport
  | maxReadImageArgs => .maxReadImageArgs
  | maxWriteImageArgs => .maxWriteImageArgs
  | image2dMaxWidth => .image2dMaxWidth
  | image2dMaxHeight => .image2dMaxHeight
  | image3dMaxWidth => .image3dMaxWidth
  | image3dMaxHeight => .image3dMaxHeight
  | image3dMaxDepth => .image3dMaxDepth
  | maxSamplers => .maxSamplers
  | maxParameterSize => .maxParameterSize
  | memBaseAddrAlign => .memBaseAddrAlign
  | minDataTypeAlignSize => .minDataTypeAlignSize
  | singleFpConfig => .singleFpConfig
  | globalMemCacheType => .globalMemCacheType
  | globalMemCachelineSize => .globalMemCachelineSize
  | globalMemCacheSize => .globalMemCacheSize
  | globalMemSize => .globalMemSize
  | maxConstantBufferSize => .maxConstantBufferSize
  | maxConstantArgs => .maxConstantArgs
  | localMemType => .localMemType
  | localMemSize => .localMemSize
  | errorCorrectionSupport => .errorCorrectionSupport
  | profilingTimerResolution => .profilingTimerResolution
  | endianLittle => .endianLittle
  | available => .available
  | compilerAvailable => .compilerAvailable
  | executionCapabilities => .executionCapabilities
  | queueProperties => .queueProperties
  | platformId => .platform

def DeviceString.param : DeviceString → DeviceParam
  | name => .name
  | vendor => .vendor
  | driverVersion => .driverVersion
  | profile => .profile
  | version => .version
  | extensions => .extensions

/-- A record that holds the values answers every query with them. -/
theorem DeviceRecord.param_eq {device : DeviceRecord} {value : DeviceParam → Bytes}
    (hscalar : ∀ (m : DeviceMember) (type : ClType), m ≠ .maxWorkItemSizes →
      type.sizeof = m.sizeof → device.scalar m type = value m.param)
    (htext : ∀ k : DeviceString, device.text k = value k.param)
    (hsizes : device.maxWorkItemSizes = value .maxWorkItemSizes)
    (hlen : (value .maxWorkItemSizes).length =
      8 * Bytes.toNat (value .maxWorkItemDimensions)) (param : DeviceParam) :
    device.param param = value param := by
  have harray : device.param .maxWorkItemSizes = value .maxWorkItemSizes := by
    have hdims := hscalar .maxWorkItemDimensions .uint (by decide) rfl
    rw [DeviceRecord.param, hdims, hsizes, List.take_of_length_le]
    exact hlen.le
  cases param <;> first
    | exact harray
    | exact htext _
    | exact hscalar _ _ (by decide) rfl

structure Conforms (value : DeviceParam → Bytes) : Prop where
  scalar : ∀ param type, param.paramType = .scalar type → (value param).length = type.sizeof
  sizes : ∀ param, param.paramType = .sizes →
    (value param).length = 8 * Bytes.toNat (value .maxWorkItemDimensions)
  string : ∀ param, param.paramType = .string → ∃ s, 0 ∉ s ∧ value param = s ++ [0]

namespace Conforms
variable {value : DeviceParam → Bytes}

def message (h : Conforms value) (id : Arg) : DeviceMessage where
  member m := value m.param
  sizes := value .maxWorkItemSizes
  str k := (value k.param).dropLast
  id := id
  fits m hm := by
    have htype : m.param.paramType = .scalar m.clType := by
      revert hm
      cases m <;> decide
    exact h.scalar m.param m.clType htype
  length_sizes := h.sizes .maxWorkItemSizes rfl
  noZero k := by
    have htype : k.param.paramType = .string := by cases k <;> rfl
    obtain ⟨s, hs, hval⟩ := h.string k.param htype
    rw [hval, List.dropLast_concat]
    exact hs

theorem str_append (h : Conforms value) (id : Arg) (k : DeviceString) :
    (h.message id).str k ++ [0] = value k.param := by
  have htype : k.param.paramType = .string := by cases k <;> rfl
  obtain ⟨s, -, hval⟩ := h.string k.param htype
  show (value k.param).dropLast ++ [0] = value k.param
  rw [hval, List.dropLast_concat]

theorem param_device (h : Conforms value) (id sizes : Arg) (param : DeviceParam) :
    ((h.message id).device sizes).param param = value param := by
  apply DeviceRecord.param_eq
  · intro m type hm htype
    exact (h.message id).scalar_device hm htype sizes
  · intro k
    rw [DeviceMessage.text_device, h.str_append]
  · rfl
  · exact h.sizes .maxWorkItemSizes rfl

end Conforms

end Clara.Agent
