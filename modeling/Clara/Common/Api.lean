import Mathlib.Algebra.Order.Ring.Nat
import Clara.Common.Types

/-! `api.c`: the functions of OpenCL that CLara knows, by their number. -/
namespace Clara

/-- `enum cl_function_t`. -/
inductive ClFunction
  | getPlatformIDs | getPlatformInfo
  | getDeviceIDs | getDeviceInfo
  | createContext | createContextFromType | retainContext | releaseContext | getContextInfo
  | createCommandQueue | retainCommandQueue | releaseCommandQueue | getCommandQueueInfo
  | setCommandQueueProperty
  | createBuffer
  | enqueueReadBuffer | enqueueWriteBuffer | enqueueCopyBuffer
  | retainMemObject | releaseMemObject
  | createImage2D | createImage3D
  | getSupportedImageFormats
  | enqueueReadImage | enqueueWriteImage | enqueueCopyImage
  | enqueueCopyImageToBuffer | enqueueCopyBufferToImage
  | enqueueMapBuffer | enqueueMapImage | enqueueUnmapMemObject
  | getMemObjectInfo | getImageInfo
  | createSampler | retainSampler | releaseSampler | getSamplerInfo
  | createProgramWithSource | createProgramWithBinary | retainProgram | releaseProgram
  | buildProgram
  | unloadCompiler
  | getProgramInfo | getProgramBuildInfo
  | createKernel | createKernelsInProgram | retainKernel | releaseKernel
  | setKernelArg
  | getKernelInfo | getKernelWorkGroupInfo
  | enqueueNDRangeKernel | enqueueTask | enqueueNativeKernel
  | waitForEvents | getEventInfo | retainEvent | releaseEvent
  | enqueueMarker | enqueueWaitForEvents | enqueueBarrier
  | getEventProfilingInfo
  | flush | finish
  deriving DecidableEq

namespace ClFunction

/-- `clfuninfo`: the functions by their number, with `argc`. -/
def clfuninfo : List (ClFunction × ℕ) :=
  [(getPlatformIDs, 3), (getPlatformInfo, 5),
   (getDeviceIDs, 5), (getDeviceInfo, 5),
   (createContext, 6), (createContextFromType, 5), (retainContext, 1), (releaseContext, 1),
   (getContextInfo, 5),
   (createCommandQueue, 4), (retainCommandQueue, 1), (releaseCommandQueue, 1),
   (getCommandQueueInfo, 5), (setCommandQueueProperty, 4),
   (createBuffer, 5),
   (enqueueReadBuffer, 9), (enqueueWriteBuffer, 9), (enqueueCopyBuffer, 9),
   (retainMemObject, 1), (releaseMemObject, 1),
   (createImage2D, 8), (createImage3D, 10),
   (getSupportedImageFormats, 6),
   (enqueueReadImage, 11), (enqueueWriteImage, 11), (enqueueCopyImage, 9),
   (enqueueCopyImageToBuffer, 9), (enqueueCopyBufferToImage, 9),
   (enqueueMapBuffer, 10), (enqueueMapImage, 12), (enqueueUnmapMemObject, 6),
   (getMemObjectInfo, 5), (getImageInfo, 5),
   (createSampler, 5), (retainSampler, 1), (releaseSampler, 1), (getSamplerInfo, 5),
   (createProgramWithSource, 5), (createProgramWithBinary, 7), (retainProgram, 1),
   (releaseProgram, 1),
   (buildProgram, 6),
   (unloadCompiler, 0),
   (getProgramInfo, 5), (getProgramBuildInfo, 6),
   (createKernel, 3), (createKernelsInProgram, 4), (retainKernel, 1), (releaseKernel, 1),
   (setKernelArg, 4),
   (getKernelInfo, 5), (getKernelWorkGroupInfo, 6),
   (enqueueNDRangeKernel, 9), (enqueueTask, 5), (enqueueNativeKernel, 10),
   (waitForEvents, 2), (getEventInfo, 5), (retainEvent, 1), (releaseEvent, 1),
   (enqueueMarker, 2), (enqueueWaitForEvents, 3), (enqueueBarrier, 1),
   (getEventProfilingInfo, 5),
   (flush, 1), (finish, 1)]

/-- The function with a given number and its `argc`. The number is read as an `int`; a negative
one is past the end of every table. -/
def ofArg (func : Arg) : Option (ClFunction × ℕ) := clfuninfo[func.toNat % 2 ^ 32]?

def toArg (d : ClFunction) : Arg := UInt64.ofNat (clfuninfo.findIdx fun e => e.1 == d)

theorem argc_le {func : Arg} {d : ClFunction} {argc : ℕ} (h : ofArg func = some (d, argc)) :
    argc ≤ 12 := by
  have hall : ∀ x ∈ clfuninfo, x.2 ≤ 12 := by decide
  exact hall _ (List.mem_of_getElem? h)

end ClFunction

end Clara
