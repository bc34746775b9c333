import Clara.Common.Rpc

/-! `consumer.c`: the calls of the consumer library, once `consumer_init` has connected it. -/
namespace Clara.Consumer

open Conc

def streamFormat (size : UInt64) : UInt32 :=
  if 16384 < size then streamFormatLzo1x1 else streamFormatRaw

def streamBlocksize : UInt64 := (1 : UInt64) <<< 22

def streamOptions (n : UInt64) : StreamOptions := ⟨streamFormat n, streamBlocksize⟩

/-- The data is `NULL` or as long as `nmemb * size` says. -/
def consumerAllocate (nmemb size : UInt64) (data : Option Bytes) (hint : GlobalId) :
    NetProg Unit Handle := do
  if ← claraSendAllocateRequest () nmemb size data hint then
    match ← claraRecvAllocateResponse () with
    | none => pure invalidHandle
    | some handle => pure handle
  else pure invalidHandle

/-- Returns the bytes written to `retbuf` unless the call fails. -/
def consumerExecute (d : Arg) (retbuflen : ℕ) (hint : GlobalId) (argv : List Arg) :
    NetProg Unit (Option Bytes) := do
  if ← claraSendExecuteRequest () d argv hint then
    match ← claraRecvExecuteResponse () with
    | none => pure none
    | some retval => pure (some ((Bytes.word retval).take retbuflen))
  else pure none

/-- Returns the result of the C function and the bytes it wrote to `dst`, which is not `NULL`. -/
def consumerFetch (lzo : Lzo) (fuel : ℕ) (src : Handle) (n : UInt64) (hint : GlobalId) :
    NetProg Unit (Bool × Bytes) := do
  if src = invalidHandle then pure (false, [])
  else if ← claraSendFetchRequest () src n hint (streamOptions n) then
    if n = 0 then pure (true, []) else claraRecvFetchResponse lzo () fuel n.toNat
  else pure (false, [])

/-- Memory that ends before `size` bytes is read past its end. -/
def consumerMemcpy (lzo : Lzo) (dst : Handle) (src : Option Bytes) (size : UInt64)
    (hint : GlobalId) : NetProg Unit Bool := do
  if ← sendRequest () Msg.memputStream (MemputStreamParams.bytes ⟨dst, 0, size, hint⟩) then
    if (src.getD []).length = size.toNat then
      let bytesSent ← streamSend lzo () (src.getD []) (some (streamOptions size))
      pure (bytesSent == size.toNat)
    else NetProg.fail .overflow
  else pure false

theorem blksz_streamOptions (n : UInt64) : (streamOptions n).blksz.toNat = 4194304 := by
  show ((1 : UInt64) <<< 22).toNat = 4194304
  decide

theorem encBlksz_streamOptions (n : UInt64) : (streamOptions n).encBlksz.toNat = 4456515 := by
  show (streamBlocksize + streamBlocksize / 16 + 64 + 3).toNat = 4456515
  decide

/-- LZO as it promises to be, with memory for the blocks of 4 MiB that a consumer asks for. -/
structure Compresses (lzo : Lzo) : Prop extends lzo.Correct where
  buffered : ∀ n, (streamOptions n).Buffered lzo

theorem buffered_streamOptions {lzo : Lzo} {n : UInt64} (hn : n.toNat ≤ 16384) :
    (streamOptions n).Buffered lzo := by
  intro hfmt
  have hnot : ¬ 16384 < n := by
    rw [UInt64.lt_iff_toNat_lt]
    exact Nat.not_lt.mpr hn
  rw [streamOptions, streamFormat, if_neg hnot] at hfmt
  exact absurd hfmt (by decide)

end Clara.Consumer
