import Clara.Common.Stream
import Clara.Common.Types

/-! The parameters of the requests in `clara.h`, as they travel. -/
namespace Clara

/-- `struct allocate_request`. -/
structure AllocateRequest where
  handle : Handle
  nmemb : UInt64
  size : UInt64
  hint : GlobalId
  deriving DecidableEq

def AllocateRequest.bytes (params : AllocateRequest) : Bytes :=
  Bytes.words [params.handle, params.nmemb, params.size, params.hint]

/-- The number of bytes that is asked for, without wrapping around. -/
def AllocateRequest.length (params : AllocateRequest) : ℕ :=
  params.nmemb.toNat * params.size.toNat

theorem AllocateRequest.toNat_mul (params : AllocateRequest) (h : params.length < 2 ^ 64) :
    (params.nmemb * params.size).toNat = params.length := by
  rw [UInt64.toNat_mul]
  exact Nat.mod_eq_of_lt h

/-- What so many bytes hold when they begin with the data that came with the request. -/
def AllocateRequest.contents (params : AllocateRequest) (extra : Bytes) : Bytes :=
  extra.take params.length ++ List.replicate (params.length - extra.length) 0

theorem AllocateRequest.length_contents (params : AllocateRequest) (extra : Bytes) :
    (params.contents extra).length = params.length := by
  rw [contents, List.length_append, List.length_take, List.length_replicate]
  omega

theorem AllocateRequest.contents_nil (params : AllocateRequest) :
    params.contents [] = List.replicate params.length 0 := by
  rw [contents, List.take_nil, List.nil_append, List.length_nil, Nat.sub_zero]

theorem AllocateRequest.contents_of_le {params : AllocateRequest} {extra : Bytes}
    (h : params.length ≤ extra.length) : params.contents extra = extra.take params.length := by
  rw [contents, Nat.sub_eq_zero_of_le h, List.replicate_zero, List.append_nil]

/-- `struct execute_request` with the arguments behind it. `argv 0` is the member `retval`; past
`argc` the buffer still holds what earlier messages left there. -/
structure ExecuteRequest where
  hint : GlobalId
  func : Arg
  argv : ℕ → Arg
  argc : ℕ

def ExecuteRequest.bytes (params : ExecuteRequest) : Bytes :=
  Bytes.words (params.hint :: params.func :: (List.range (params.argc + 1)).map params.argv)

def ExecuteRequest.setArg (params : ExecuteRequest) (i : ℕ) (arg : Arg) : ExecuteRequest :=
  { params with argv := Function.update params.argv i arg }

structure FetchRequest where
  handle : Handle
  size : UInt64
  hint : GlobalId
  streamOpts : StreamOptions
  deriving DecidableEq

def FetchRequest.bytes (params : FetchRequest) : Bytes :=
  Bytes.words [params.handle, params.size, params.hint] ++ params.streamOpts.bytes

def FetchRequest.answer (lzo : Lzo) (params : FetchRequest) (b : Bytes) : List Sent :=
  if 0 < params.size then
    .msg Msg.fetchResponse (Bytes.word (UInt64.ofNat (b.take params.size.toNat).length)) ::
      streamRecords lzo params.streamOpts (b.take params.size.toNat)
  else []

/-- `struct memput_stream_params`. -/
structure MemputStreamParams where
  dst : Handle
  offset : UInt64
  length : UInt64
  hint : GlobalId
  deriving DecidableEq

def MemputStreamParams.bytes (params : MemputStreamParams) : Bytes :=
  Bytes.words [params.dst, params.offset, params.length, params.hint]

end Clara
