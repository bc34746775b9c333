import Clara.Lib.Layout
import Clara.Common.Types

/-! The names under which OpenCL describes platforms and devices, and the types that its
specification gives to what stands under them. -/
namespace Clara

/-- The types of `cl.h` on a machine with 64-bit words. `cl_bitfield` is also `cl_device_type`,
`cl_device_fp_config`, `cl_device_exec_capabilities` and `cl_command_queue_properties`, and
`cl_uint` is also `cl_device_mem_cache_type` and `cl_device_local_mem_type`. -/
inductive ClType
  | uint | bool | ulong | bitfield | size | pointer
  deriving DecidableEq

def ClType.sizeof : ClType → ℕ
  | .uint | .bool => 4
  | .ulong | .bitfield | .size | .pointer => 8

/-- `cl_platform_info`. -/
inductive PlatformParam
  | profile | version | name | vendor | extensions
  deriving DecidableEq

def PlatformParam.all : List PlatformParam := [.profile, .version, .name, .vendor, .extensions]

def PlatformParam.code : PlatformParam → UInt32
  | .profile => 0x0900
  | .version => 0x0901
  | .name => 0x0902
  | .vendor => 0x0903
  | .extensions => 0x0904

/-- `cl_device_info`. -/
inductive DeviceParam
  | type | vendorId | maxComputeUnits | maxWorkItemDimensions | maxWorkGroupSize
  | maxWorkItemSizes
  | preferredVectorWidthChar | preferredVectorWidthShort | preferredVectorWidthInt
  | preferredVectorWidthLong | preferredVectorWidthFloat | preferredVectorWidthDouble
  | maxClockFrequency | addressBits | maxReadImageArgs | maxWriteImageArgs
  | maxMemAllocSize | image2dMaxWidth | image2dMaxHeight
  | image3dMaxWidth | image3dMaxHeight | image3dMaxDepth
  | imageSupport | maxParameterSize | maxSamplers | memBaseAddrAlign | minDataTypeAlignSize
  | singleFpConfig | globalMemCacheType | globalMemCachelineSize | globalMemCacheSize
  | globalMemSize | maxConstantBufferSize | maxConstantArgs | localMemType | localMemSize
  | errorCorrectionSupport | profilingTimerResolution | endianLittle | available
  | compilerAvailable | executionCapabilities | queueProperties
  | name | vendor | driverVersion | profile | version | extensions
  | platform
  deriving DecidableEq

/-- The names in the order of `cl.h`, which numbers them consecutively. -/
def DeviceParam.all : List DeviceParam :=
  [.type, .vendorId, .maxComputeUnits, .maxWorkItemDimensions, .maxWorkGroupSize,
   .maxWorkItemSizes,
   .preferredVectorWidthChar, .preferredVectorWidthShort, .preferredVectorWidthInt,
   .preferredVectorWidthLong, .preferredVectorWidthFloat, .preferredVectorWidthDouble,
   .maxClockFrequency, .addressBits, .maxReadImageArgs, .maxWriteImageArgs,
   .maxMemAllocSize, .image2dMaxWidth, .image2dMaxHeight,
   .image3dMaxWidth, .image3dMaxHeight, .image3dMaxDepth,
   .imageSupport, .maxParameterSize, .maxSamplers, .memBaseAddrAlign, .minDataTypeAlignSize,
   .singleFpConfig, .globalMemCacheType, .globalMemCachelineSize, .globalMemCacheSize,
   .globalMemSize, .maxConstantBufferSize, .maxConstantArgs, .localMemType, .localMemSize,
   .errorCorrectionSupport, .profilingTimerResolution, .endianLittle, .available,
   .compilerAvailable, .executionCapabilities, .queueProperties,
   .name, .vendor, .driverVersion, .profile, .version, .extensions,
   .platform]

def DeviceParam.code (param : DeviceParam) : UInt32 :=
  0x1000 + UInt32.ofNat (DeviceParam.all.idxOf param)

def DeviceParam.ofCode (code : UInt32) : Option DeviceParam :=
  DeviceParam.all.find? fun param => param.code = code

def PlatformParam.ofCode (code : UInt32) : Option PlatformParam :=
  PlatformParam.all.find? fun param => param.code = code

theorem DeviceParam.ofCode_code (param : DeviceParam) :
    DeviceParam.ofCode param.code = some param := by
  cases param <;> decide +kernel

theorem PlatformParam.ofCode_code (param : PlatformParam) :
    PlatformParam.ofCode param.code = some param := by
  cases param <;> rfl

inductive ParamType
  | scalar (type : ClType)
  /-- `size_t` for each of `CL_DEVICE_MAX_WORK_ITEM_DIMENSIONS`. -/
  | sizes
  | string
  deriving DecidableEq

def DeviceParam.paramType : DeviceParam → ParamType
  | .type | .singleFpConfig | .executionCapabilities | .queueProperties => .scalar .bitfield
  | .vendorId | .maxComputeUnits | .maxWorkItemDimensions
  | .preferredVectorWidthChar | .preferredVectorWidthShort | .preferredVectorWidthInt
  | .preferredVectorWidthLong | .preferredVectorWidthFloat | .preferredVectorWidthDouble
  | .maxClockFrequency | .addressBits | .maxReadImageArgs | .maxWriteImageArgs | .maxSamplers
  | .memBaseAddrAlign | .minDataTypeAlignSize | .globalMemCacheType | .globalMemCachelineSize
  | .maxConstantArgs | .localMemType => .scalar .uint
  | .maxWorkItemSizes => .sizes
  | .maxWorkGroupSize | .image2dMaxWidth | .image2dMaxHeight | .image3dMaxWidth
  | .image3dMaxHeight | .image3dMaxDepth | .maxParameterSize | .profilingTimerResolution =>
    .scalar .size
  | .maxMemAllocSize | .globalMemCacheSize | .globalMemSize | .maxConstantBufferSize
  | .localMemSize => .scalar .ulong
  | .imageSupport | .errorCorrectionSupport | .endianLittle | .available | .compilerAvailable =>
    .scalar .bool
  | .name | .vendor | .driverVersion | .profile | .version | .extensions => .string
  | .platform => .scalar .pointer

end Clara
