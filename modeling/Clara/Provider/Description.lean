import Clara.Common.Description

/-! `provider_startup` and `provider_device.c`: what a provider tells the agent about its platform
and its devices. -/
namespace Clara.Provider

abbrev Query (κ : Type) := κ → Option Bytes

def platformInfoList : List PlatformParam :=
  [.profile, .version, .name, .vendor, .extensions]

def deviceInfoList : List DeviceParam :=
  [.type, .vendorId, .maxComputeUnits, .maxWorkItemDimensions, .maxWorkItemSizes,
   .maxWorkGroupSize,
   .preferredVectorWidthChar, .preferredVectorWidthShort, .preferredVectorWidthInt,
   .preferredVectorWidthLong, .preferredVectorWidthFloat, .preferredVectorWidthDouble,
   .maxClockFrequency, .addressBits,
   .maxMemAllocSize,
   .imageSupport, .maxReadImageArgs, .maxWriteImageArgs,
   .image2dMaxWidth, .image2dMaxHeight, .image3dMaxWidth, .image3dMaxHeight, .image3dMaxDepth,
   .maxSamplers,
   .maxParameterSize,
   .memBaseAddrAlign, .minDataTypeAlignSize,
   .singleFpConfig,
   .globalMemCacheType, .globalMemCachelineSize, .globalMemCacheSize, .globalMemSize,
   .maxConstantBufferSize, .maxConstantArgs,
   .localMemType, .localMemSize, .errorCorrectionSupport,
   .profilingTimerResolution,
   .endianLittle, .available,
   .compilerAvailable,
   .executionCapabilities,
   .queueProperties,
   .platform,
   .name, .vendor, .driverVersion, .profile, .version, .extensions]

section
variable {κ : Type} (query : Query κ)

/-- The first loop, over `bufsz` and `size_ret`. A query that fails leaves `size_ret` alone. -/
def sizeLoop : List κ → ℕ → ℕ → ℕ
  | [], bufsz, _ => bufsz
  | name :: names, bufsz, sizeRet =>
    let sizeRet := ((query name).map List.length).getD sizeRet
    sizeLoop names (bufsz + sizeRet) sizeRet

def fillLoop : List κ → Bytes → ℕ → ℕ → Bytes × ℕ
  | [], buf, ptr, _ => (buf, ptr)
  | name :: names, buf, ptr, sizeRet =>
    let sizeRet' := ((query name).map List.length).getD sizeRet
    fillLoop names (buf.overwrite ptr ((query name).getD [])) (ptr + sizeRet') sizeRet'

/-- The message: what the queries yield, then the local id. `malloc` has the bytes that a new block
begins with. -/
def describe (malloc : (n : ℕ) → Buffer n) (names : List κ) (id : Arg) : Bytes :=
  let bufsz := sizeLoop query names 8 0
  let (buf, ptr) := fillLoop query names (malloc bufsz).bytes 0 0
  buf.overwrite ptr (Bytes.word id)

variable {query} {value : κ → Bytes}

/-- Queries that succeed take the space of what they yield. -/
theorem sizeLoop_eq (h : ∀ name, query name = some (value name)) (names : List κ)
    (bufsz sizeRet : ℕ) :
    sizeLoop query names bufsz sizeRet = bufsz + (Layout.record value names).length := by
  induction names generalizing bufsz sizeRet with
  | nil => rfl
  | cons name names ih =>
    have hcons : Layout.record value (name :: names) =
        value name ++ Layout.record value names := List.flatMap_cons
    rw [sizeLoop, h]
    simp only [Option.map_some, Option.getD_some]
    rw [ih, hcons, List.length_append, Nat.add_assoc]

/-- Queries that succeed yield the values one after the other. -/
theorem fillLoop_eq (h : ∀ name, query name = some (value name)) (names : List κ)
    {buf : Bytes} {ptr : ℕ} (hlen : ptr + (Layout.record value names).length ≤ buf.length)
    (sizeRet : ℕ) :
    fillLoop query names buf ptr sizeRet =
      (buf.overwrite ptr (Layout.record value names),
        ptr + (Layout.record value names).length) := by
  induction names generalizing buf ptr sizeRet with
  | nil =>
    have hnil : Layout.record value [] = [] := rfl
    rw [fillLoop, hnil, Bytes.overwrite]
    simp
  | cons name names ih =>
    have hcons : Layout.record value (name :: names) =
        value name ++ Layout.record value names := List.flatMap_cons
    rw [hcons, List.length_append] at hlen
    have hone : (buf.overwrite ptr (value name)).length = buf.length :=
      Bytes.length_overwrite (by omega)
    rw [fillLoop, h]
    simp only [Option.map_some, Option.getD_some]
    rw [ih (by omega), hcons, Bytes.overwrite_overwrite (by omega), List.length_append,
      Nat.add_assoc]

/-- The message of a provider whose queries all succeed. -/
theorem describe_eq (h : ∀ name, query name = some (value name)) (malloc : (n : ℕ) → Buffer n)
    (names : List κ) (id : Arg) :
    describe query malloc names id = Layout.record value names ++ Bytes.word id := by
  have hsize := sizeLoop_eq h names 8 0
  have hlen : (malloc (sizeLoop query names 8 0)).bytes.length =
      8 + (Layout.record value names).length := by
    rw [(malloc _).length_bytes, hsize]
  rw [describe]
  simp only
  rw [fillLoop_eq h names (by omega), Bytes.overwrite_overwrite (by omega), Bytes.overwrite,
    List.take_zero, List.nil_append, List.length_append, Bytes.length_word,
    List.drop_eq_nil_of_le (by omega), List.append_nil]

end

end Clara.Provider
