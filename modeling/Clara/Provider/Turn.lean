import Clara.Provider.Frame
import Clara.Provider.Main

/-! What one turn of the provider does with a message it can serve: the new state, and the
response. -/
namespace Clara.Provider

open Conc PProg

variable {Cl : Type} {lzo : Lzo} {fuel : ℕ} {lib : OpenCl Cl} {s : State Cl}
  {q : List Incoming} {out : List Sent}

/-- The sets have no freed items, and allocations are entered under their handles. -/
structure State.Sound (s : State Cl) : Prop where
  idMap : s.idMap.damaged = false
  allocations : s.allocations.damaged = false
  keyed : ∀ handle a, s.allocations.lookup handle = some a → a.handle = handle

/-- A message is in the buffer, and the records of `q` wait behind it. -/
def State.received (s : State Cl) (msg : Bytes) (q : List Incoming) (out : List Sent) :
    State Cl :=
  { s with net := .wire q out, buf := s.buf.receive msg }

def State.sends (s : State Cl) (rs : List Sent) : State Cl :=
  { s with net := s.net.push () rs }

theorem providerTurn_message {type : MessageType} {msg : Bytes}
    (h : s.net = .wire (.record (Sent.msg type msg).record :: q) out)
    (hm : msg.length ≤ recvbufsz) :
    providerTurn lzo fuel lib s =
      (handleMessage lzo fuel lib type msg.length (s.received msg q out)).bind
        fun s _ => .done s true := by
  have hrecv : Net.run (claraRecvmsg () recvbufsz) s.net =
      .done (.wire q out) (.message type msg) := by
    rw [h, Net.run_claraRecvmsg rfl hm, Net.wire_withInq]
  rw [providerTurn, bind_run, net_done hrecv]
  rfl

theorem providerTurn_idle (h : s.net = .wire [] out) :
    providerTurn lzo fuel lib s = .blocked := by
  rw [providerTurn, bind_run, net, h]
  rfl

theorem net_claraSendmsg (h : s.net = .wire q out) (type : MessageType) (msg : Bytes) :
    net (claraSendmsg () type msg) s = .done (s.sends [.msg type msg]) (some msg.length) := by
  have hsend : Net.run (claraSendmsg () type msg) s.net =
      .done (s.net.push () [.msg type msg]) (some msg.length) :=
    Net.run_claraSendmsg (by rw [h, Net.wire_apply]) type msg
  rw [net_done hsend]
  rfl

theorem net_sendRequest (h : s.net = .wire q out) (type : MessageType) (msg : Bytes) :
    net (sendRequest () type msg) s = .done (s.sends [.msg type msg]) true := by
  have hf : (s.net ()).sendFails = [] := by rw [h, Net.wire_apply]
  rw [net_done (Net.run_sendRequest hf type msg)]
  rfl

theorem net_claraSendAllocateResponse (h : s.net = .wire q out) (handle : Handle) :
    net (claraSendAllocateResponse () handle) s =
      .done (s.sends [.msg Msg.allocateResponse (Bytes.word handle)]) true := by
  have hf : (s.net ()).sendFails = [] := by rw [h, Net.wire_apply]
  rw [net_done (Net.run_claraSendAllocateResponse hf handle)]
  rfl

theorem handlePing_run (h : s.net = .wire q out) :
    handlePing s = .done (s.sends [.msg Msg.pong (Bytes.word (s.buf.word 0))]) () := by
  rw [handlePing, bind_run, bufWord, get_run, Outcome.bind_done, bind_run, net_claraSendmsg h]
  rfl

/-- The provider has learnt what an id stands for. -/
def State.mapped (s : State Cl) (virt : GlobalId) (real : Arg) : State Cl :=
  { s with idMap := s.idMap.add virt real }

theorem handleMapping_run (hs : s.Sound) {virt : GlobalId} {real : Arg}
    (h0 : s.buf.word 0 = virt) (h1 : s.buf.word 1 = real) (hv : virt ∉ s.idMap) :
    handleMapping s = .done (s.mapped virt real) () := by
  simp [handleMapping, bufWord, h0, h1, mappingInsert_run hs.idMap, hv, State.mapped]

/-- The object at a pointer has got an id, in the map and in memory. -/
def State.mappedAt (s : State Cl) (virt : GlobalId) (p : Arg) (b : Bytes) : State Cl :=
  { s with
    idMap := s.idMap.add virt (b.wordAt 0)
    mem := s.mem.put p (some (b.overwrite 0 (Bytes.word virt))) }

theorem mapatptr_run (hs : s.Sound) {virt ptr : GlobalId} {p : Arg} {b : Bytes}
    (hp : s.idMap.lookup ptr = some p) (hb : s.mem p = some b) (hlen : 8 ≤ b.length)
    (hv : virt ∉ s.idMap) :
    mapatptr virt ptr s = .done (s.mappedAt virt p b) (b.wordAt 0) := by
  have hload : loadWord p 0 s = .done s (b.wordAt 0) := loadWord_run hb (by omega)
  have hstore : ∀ map, store p 0 (Bytes.word virt) { s with idMap := map } =
      .done { s with
        idMap := map
        mem := s.mem.put p (some (b.overwrite 0 (Bytes.word virt))) } () := fun map =>
    store_run (s := { s with idMap := map }) hb (by simpa using hlen)
  simp [mapatptr, mappingFindByVirt_run hs.idMap, hp, hload, mappingInsert_run hs.idMap, hv,
    hstore, State.mappedAt]

theorem mapatptr_taken (hs : s.Sound) {virt ptr : GlobalId} {p : Arg} {b : Bytes}
    (hp : s.idMap.lookup ptr = some p) (hb : s.mem p = some b) (hlen : 8 ≤ b.length)
    (hv : virt ∈ s.idMap) : mapatptr virt ptr s = .fault (.assertion .mapatptrInsert) := by
  have hload : loadWord p 0 s = .done s (b.wordAt 0) := loadWord_run hb (by omega)
  simp [mapatptr, mappingFindByVirt_run hs.idMap, hp, hload, mappingInsert_run hs.idMap, hv]

theorem handleMapatptr_run {s' : State Cl} {virt ptr : GlobalId} {real : Arg}
    (h : s'.net = .wire q out) (h0 : s.buf.word 0 = virt) (h1 : s.buf.word 1 = ptr)
    (hm : mapatptr virt ptr s = .done s' real) :
    handleMapatptr s = .done (s'.sends [.msg Msg.mapatptrResponse (Bytes.word real)]) () := by
  rw [handleMapatptr]
  simp only [bufWord, bind_run, get_run, Outcome.bind_done, h0, h1, hm,
    claraSendMapatptrResponse, net_sendRequest h, assert_run, if_true]

theorem handleExecute_run {s' : State Cl} {ret : Arg} (h : s.net = .wire q out)
    (hx : claraExecute lib 0 s = .done s' ret) :
    handleExecute lib s = .done (s'.sends [.msg Msg.executeResponse (Bytes.word ret)]) () := by
  have hs' : s'.net = .wire q out := by rw [((keeping_claraExecute lib 0).kept s s' ret hx).net, h]
  rw [handleExecute, bind_run, hx, Outcome.bind_done, bind_run, claraSendExecuteResponse, if_pos rfl,
    net_sendRequest hs', Outcome.bind_done, assert_run, if_pos rfl]

structure State.Asks (s : State Cl) (params : AllocateRequest) : Prop where
  handle : s.buf.word 0 = params.handle
  nmemb : s.buf.word 1 = params.nmemb
  size : s.buf.word 2 = params.size

/-- What the new allocation holds. -/
def allocateContents (s : State Cl) (params : AllocateRequest) (ssz : ℕ) : Bytes :=
  let n := params.nmemb.toNat * params.size.toNat
  if ssz = 32 then List.replicate n 0 else s.buf.bytes.slice 32 n

/-- The state after an allocation at `ptr`. -/
def State.allocated (s : State Cl) (params : AllocateRequest) (ptr : Arg) (contents : Bytes) :
    State Cl :=
  { s with
    draws := s.draws + 1
    mem := s.mem.put ptr (some contents)
    allocations := s.allocations.add params.handle
      ⟨params.handle, params.nmemb, params.size, ptr⟩
    idMap := s.idMap.add params.handle ptr }

theorem toNat_mul {a b : UInt64} (h : a.toNat * b.toNat < 2 ^ 64) :
    (a * b).toNat = a.toNat * b.toNat := by
  rw [UInt64.toNat_mul, Nat.mod_eq_of_lt h]

theorem calloc_run {nmemb size : UInt64} (hsize : nmemb.toNat * size.toNat < 2 ^ 64)
    (hptr : s.addresses s.draws ≠ 0) :
    calloc nmemb size s = .done { s with
      draws := s.draws + 1
      mem := s.mem.put (s.addresses s.draws)
        (some (List.replicate (nmemb.toNat * size.toNat) 0)) } (s.addresses s.draws) := by
  rw [calloc, if_pos hsize, bind_run, get_run, Outcome.bind_done, bind_run, modify_run,
    Outcome.bind_done, if_pos hptr]
  rfl

theorem claraCreateAllocation_run {handle : Handle} {nmemb size : UInt64}
    (hsize : nmemb.toNat * size.toNat < 2 ^ 64) (hptr : s.addresses s.draws ≠ 0) :
    claraCreateAllocation handle nmemb size s = .done { s with
      draws := s.draws + 1
      mem := s.mem.put (s.addresses s.draws)
        (some (List.replicate (nmemb.toNat * size.toNat) 0)) }
      ⟨handle, nmemb, size, s.addresses s.draws⟩ := by
  rw [claraCreateAllocation, bind_run, calloc_run hsize hptr]
  rfl

/-- Data as long as the allocation replaces its zeros. -/
theorem allocateInit_run {a : Allocation} {b : Bytes} (hb : s.mem a.ptr = some b)
    (hlen : b.length = (a.nmemb * a.size).toNat) (hn : 32 + b.length ≤ recvbufsz) :
    allocateInit a s =
      .done { s with mem := s.mem.put a.ptr (some (s.buf.bytes.slice 32 b.length)) } () := by
  rw [allocateInit]
  split_ifs with h0 h1
  · have hnil : b = [] := List.eq_nil_of_length_eq_zero (by omega)
    have hput : s.mem.put a.ptr (some []) = s.mem := by
      rw [Memory.put, Function.update_eq_self_iff, hb, hnil]
    rw [hnil, List.length_nil, Bytes.slice, List.take_zero, hput]
    rfl
  · have hslice : (s.buf.bytes.slice 32 b.length).length = b.length := by
      rw [Bytes.length_slice, s.buf.length_bytes]
      omega
    have hover : b.overwrite 0 (s.buf.bytes.slice 32 b.length) =
        s.buf.bytes.slice 32 b.length := by
      rw [Bytes.overwrite, List.take_zero, List.nil_append, hslice, Nat.zero_add,
        List.drop_length, List.append_nil]
    rw [bind_run, get_run, Outcome.bind_done, ← hlen, store_run hb (by omega), hover]
  · omega

theorem handleAllocate_run (hs : s.Sound) (h : s.net = .wire q out) {params : AllocateRequest}
    (hp : s.Asks params) {ssz : ℕ}
    (hsize : params.nmemb.toNat * params.size.toNat < 2 ^ 64)
    (hptr : s.addresses s.draws ≠ 0) (ha : params.handle ∉ s.allocations)
    (hv : params.handle ∉ s.idMap)
    (hssz : ssz = 32 ∨ 32 + params.nmemb.toNat * params.size.toNat ≤ recvbufsz) :
    handleAllocate ssz s =
      .done ((s.allocated params (s.addresses s.draws) (allocateContents s params ssz)).sends
        [.msg Msg.allocateResponse (Bytes.word params.handle)]) () := by
  have hinit : ∀ s₁ : State Cl, s₁.buf = s.buf →
      s₁.mem (s.addresses s.draws) =
        some (List.replicate (params.nmemb.toNat * params.size.toNat) 0) → ssz ≠ 32 →
      allocateInit ⟨params.handle, params.nmemb, params.size, s.addresses s.draws⟩ s₁ =
        .done { s₁ with
          mem := s₁.mem.put (s.addresses s.draws) (some (allocateContents s params ssz)) } () := by
    intro s₁ hbuf hmem hne
    rw [allocateInit_run hmem (by rw [List.length_replicate, toNat_mul hsize])
      (by rw [List.length_replicate]; omega), allocateContents, if_neg hne, hbuf,
      List.length_replicate]
  have hsend : ∀ s₁ : State Cl, s₁.net = s.net →
      net (claraSendAllocateResponse () params.handle) s₁ =
        .done (s₁.sends [.msg Msg.allocateResponse (Bytes.word params.handle)]) true :=
    fun s₁ hn => net_claraSendAllocateResponse (hn.trans h) _
  rw [handleAllocate]
  simp only [bufWord, bind_run, get_run, Outcome.bind_done, hp.handle, hp.nmemb, hp.size,
    claraCreateAllocation_run hsize hptr]
  rw [allocationInsert_run (by exact hs.allocations)]
  simp only [Outcome.bind_done, assert_run, ha, not_false_eq_true, decide_true, if_true]
  rw [mappingInsert_run (by exact hs.idMap)]
  simp only [Outcome.bind_done, hv, not_false_eq_true, decide_true, if_true]
  split_ifs with h32
  · rw [bind_run, hinit _ (by rfl) (by exact Memory.put_self ..) h32, Outcome.bind_done,
      bind_run, hsend _ (by rfl)]
    simp [State.allocated, State.sends, Memory.put]
  · rw [bind_run, hsend _ (by rfl)]
    simp [State.allocated, allocateContents, not_not.mp h32]

theorem handleAllocate_inserted (hs : s.Sound) {params : AllocateRequest} (hp : s.Asks params)
    {ssz : ℕ} (hsize : params.nmemb.toNat * params.size.toNat < 2 ^ 64)
    (hptr : s.addresses s.draws ≠ 0) (ha : params.handle ∈ s.allocations) :
    handleAllocate ssz s = .fault (.assertion .allocateInsert) := by
  rw [handleAllocate]
  simp only [bufWord, bind_run, get_run, Outcome.bind_done, hp.handle, hp.nmemb, hp.size,
    claraCreateAllocation_run hsize hptr]
  rw [allocationInsert_run (by exact hs.allocations)]
  simp [ha]

theorem handleAllocate_mapped (hs : s.Sound) {params : AllocateRequest} (hp : s.Asks params)
    {ssz : ℕ} (hsize : params.nmemb.toNat * params.size.toNat < 2 ^ 64)
    (hptr : s.addresses s.draws ≠ 0) (ha : params.handle ∉ s.allocations)
    (hv : params.handle ∈ s.idMap) :
    handleAllocate ssz s = .fault (.assertion .allocateMapping) := by
  rw [handleAllocate]
  simp only [bufWord, bind_run, get_run, Outcome.bind_done, hp.handle, hp.nmemb, hp.size,
    claraCreateAllocation_run hsize hptr]
  rw [allocationInsert_run (by exact hs.allocations)]
  simp only [Outcome.bind_done, assert_run, ha, not_false_eq_true, decide_true, if_true]
  rw [mappingInsert_run (by exact hs.idMap)]
  simp [hv]

theorem overwrite_nil (b : Bytes) (off : ℕ) : b.overwrite off [] = b := by
  rw [Bytes.overwrite, List.append_nil, List.length_nil, Nat.add_zero, List.take_append_drop]

def State.wrote (s : State Cl) (ptr : Arg) (contents : Bytes) : State Cl :=
  { s with mem := s.mem.put ptr (some contents) }

/-- A stream as long as announced is written where it belongs. -/
theorem handleMemput_run (hl : lzo.Correct) {stp : StreamOptions} (hblk : 0 < stp.blksz.toNat)
    (hs : s.Sound) {params : MemputStreamParams} {data b : Bytes} {real : Arg}
    (hfit : stp.Fits lzo data)
    (h : s.net = .wire (Net.incoming (streamRecords lzo stp data) ++ q) out)
    (h0 : s.buf.word 0 = params.dst) (h1 : s.buf.word 1 = params.offset)
    (h2 : s.buf.word 2 = params.length)
    (hdst : s.idMap.lookup params.dst = some real) (hb : s.mem real = some b)
    (hlen : params.length.toNat = data.length)
    (hoff : params.offset.toNat + data.length ≤ b.length)
    (hfuel : 2 * data.length + 68 ≤ fuel) :
    handleMemput lzo fuel s =
      .done ((s.wrote real (b.overwrite params.offset.toNat data)).withNet (.wire q out)) () := by
  have hroom : s.room real params.offset.toNat = b.length - params.offset.toNat := by
    rw [State.room, hb, Option.getD_some]
  have hrecv : Net.run (streamRecvInto lzo () fuel (s.room real params.offset.toNat)
      params.length.toNat) s.net = .done (.wire q out) (data.length, data) := by
    have hle : data.length ≤ s.room real params.offset.toNat := by omega
    rw [hlen]
    apply run_streamRecvInto_mono hle
    have hinq : (s.net ()).inq = Net.incoming (streamRecords lzo stp data) ++ q := by
      rw [h, Net.wire_apply]
    have hown := run_streamRecv hl hblk hfit hfuel hinq
    rwa [h, Net.wire_withInq, ← h] at hown
  rw [handleMemput]
  simp only [bufWord, bind_run, get_run, Outcome.bind_done, h0, h1, h2,
    mappingFindByVirt_run hs.idMap, hdst, net_done hrecv]
  split_ifs with hd
  · have hput : s.mem.put real (some b) = s.mem := by
      rw [Memory.put, Function.update_eq_self_iff, hb]
    rw [hd, overwrite_nil, State.wrote, hput]
    rfl
  · exact store_run (by exact hb) hoff

/-- The provider holds an allocation with contents `b`. -/
structure State.Holds (s : State Cl) (handle : Handle) (a : Allocation) (b : Bytes) : Prop where
  allocation : s.allocations.lookup handle = some a
  mapping : s.idMap.lookup handle = some a.ptr
  block : s.mem a.ptr = some b
  length : b.length = (a.nmemb * a.size).toNat
  ptr : a.ptr ≠ 0

/-- The state without an allocation. -/
def State.freed (s : State Cl) (handle : Handle) (a : Allocation) : State Cl :=
  { s with
    idMap := s.idMap.erase handle
    allocations := s.allocations.erase handle
    mem := s.mem.put a.ptr none }

/-- The records of a response to a FETCH request of `size` bytes. -/
def fetchRecords (lzo : Lzo) (opts : StreamOptions) (b : Bytes) (size : UInt64) : List Sent :=
  if 0 < size then
    .msg Msg.fetchResponse (Bytes.word (UInt64.ofNat b.length)) :: streamRecords lzo opts b
  else []

theorem claraFindAllocation_lookup (hs : s.Sound) {handle : Handle} {a : Allocation}
    (ha : s.allocations.lookup handle = some a) :
    claraFindAllocation handle s = .done s (some a) := by
  rw [claraFindAllocation_run hs.allocations]
  congr 1
  have hmem : a ∈ s.allocations.items.map Prod.snd :=
    List.mem_map_of_mem (f := Prod.snd) (IdSet.mem_items.mpr ha)
  cases hf : (s.allocations.items.map Prod.snd).find? fun a => a.handle == handle with
  | none =>
    have hno := List.find?_eq_none.mp hf a hmem
    simp [hs.keyed handle a ha] at hno
  | some c =>
    obtain ⟨x, hx, rfl⟩ := List.mem_map.mp (List.mem_of_find?_eq_some hf)
    have hlook := IdSet.mem_items.mp hx
    have hkey : x.1 = handle := by
      have hc := List.find?_some hf
      rw [← hs.keyed x.1 x.2 hlook]
      simpa using hc
    rw [hkey, ha] at hlook
    rw [Option.some.inj hlook]

theorem net_claraSendFetchResponse {opts : StreamOptions} (hblk : 0 < opts.blksz.toNat)
    (h : s.net = .wire q out) {b : Bytes} (hfit : opts.Fits lzo b) {size : UInt64}
    (hsize : 0 < size) :
    net (claraSendFetchResponse lzo () b opts) s =
      .done (s.sends (fetchRecords lzo opts b size)) true := by
  have hf : (s.net ()).sendFails = [] := by rw [h, Net.wire_apply]
  rw [net_done (Net.run_claraSendFetchResponse hblk hfit hf), fetchRecords, if_pos hsize]
  rfl

theorem fetchBuffer_run {handle : Handle} {a : Allocation} {b : Bytes}
    (ha : s.Holds handle a b) : (if (a.nmemb * a.size).toNat = 0 then pure []
      else load a.ptr 0 (a.nmemb * a.size).toNat : PProg Cl Bytes) s = .done s b := by
  split_ifs with h0
  · rw [List.eq_nil_of_length_eq_zero (ha.length.trans h0)]
    rfl
  · rw [load_run ha.block (by rw [ha.length, Nat.zero_add]), Bytes.slice, List.drop_zero,
      ← ha.length, List.take_length]

theorem fetchRespond_run {opts : StreamOptions} (hblk : 0 < opts.blksz.toNat)
    (h : s.net = .wire q out) {handle : Handle} {a : Allocation} {b : Bytes}
    (hfit : opts.Fits lzo b) (ha : s.Holds handle a b) {size : UInt64} (hsize : 0 < size) :
    fetchRespond lzo (some a) opts s = .done (s.sends (fetchRecords lzo opts b size)) () := by
  rw [fetchRespond, bind_run, fetchBuffer_run ha, Outcome.bind_done, bind_run,
    net_claraSendFetchResponse hblk h hfit hsize]
  rfl

/-- A compressed block has no buffer, or does not fit in it. -/
theorem fetchRespond_overflow {opts : StreamOptions} (hblk : 0 < opts.blksz.toNat)
    (h : s.net = .wire q out) {handle : Handle} {a : Allocation} {b : Bytes}
    (hfit : ¬ opts.Fits lzo b) (ha : s.Holds handle a b) :
    fetchRespond lzo (some a) opts s = .fault (.net (opts.sendFault lzo)) := by
  have hf : (s.net ()).sendFails = [] := by rw [h, Net.wire_apply]
  have hsend : Net.run (claraSendFetchResponse lzo () b opts) s.net =
      .fault (opts.sendFault lzo) := by
    rw [claraSendFetchResponse, Net.run_bind, Net.run_claraSendmsg hf, Outcome.bind_done]
    simp only
    rw [Net.run_bind, run_streamSend_overflow hblk hfit (by rwa [Net.push_sendFails])]
    rfl
  rw [fetchRespond, bind_run, fetchBuffer_run ha, Outcome.bind_done, bind_run, net, hsend]
  rfl

theorem fetchFree_run (hs : s.Sound) {handle : Handle} {a : Allocation} {b : Bytes}
    (ha : s.Holds handle a b) : fetchFree (some a) s = .done (s.freed handle a) () := by
  have hk := hs.keyed handle a ha.allocation
  have hm : handle ∈ s.idMap := IdSet.mem_of_lookup ha.mapping
  have hm' : handle ∈ s.allocations := IdSet.mem_of_lookup ha.allocation
  rw [fetchFree]
  simp only [hk, bind_run, mappingFindByVirt_run hs.idMap, ha.mapping, Outcome.bind_done,
    assert_run, Option.isSome_some, if_true, mappingRemove_run hs.idMap, hm, decide_true]
  rw [allocationRemove_run (by exact hs.allocations)]
  simp [hm', free, ha.ptr, State.freed]

/-- A fetch sends the whole allocation, however many bytes are asked for, and frees it. -/
theorem handleFetch_run (hs : s.Sound) (h : s.net = .wire q out) {params : FetchRequest}
    (h0 : s.buf.word 0 = params.handle) (h1 : s.buf.word 1 = params.size)
    (h3 : (s.buf.word 3).toUInt32 = params.streamOpts.fmt)
    (h4 : s.buf.word 4 = params.streamOpts.blksz) (hblk : 0 < params.streamOpts.blksz.toNat)
    {a : Allocation} {b : Bytes} (hfit : params.streamOpts.Fits lzo b)
    (ha : s.Holds params.handle a b) :
    handleFetch lzo s = .done ((s.freed params.handle a).sends
      (fetchRecords lzo params.streamOpts b params.size)) () := by
  rw [handleFetch]
  simp only [bufWord, bind_run, get_run, Outcome.bind_done, h0, h1, h3, h4,
    claraFindAllocation_lookup hs ha.allocation]
  split_ifs with hsize
  · rw [bind_run, fetchRespond_run hblk h hfit ha hsize, Outcome.bind_done]
    exact fetchFree_run (s := s.sends _) ⟨hs.idMap, hs.allocations, hs.keyed⟩
      ⟨ha.allocation, ha.mapping, ha.block, ha.length, ha.ptr⟩
  · rw [fetchFree_run hs ha, fetchRecords, if_neg hsize, State.sends, Net.push_nil]

theorem handleFetch_overflow (hs : s.Sound) (h : s.net = .wire q out) {params : FetchRequest}
    (h0 : s.buf.word 0 = params.handle) (h1 : s.buf.word 1 = params.size)
    (h3 : (s.buf.word 3).toUInt32 = params.streamOpts.fmt)
    (h4 : s.buf.word 4 = params.streamOpts.blksz) (hsize : 0 < params.size)
    (hblk : 0 < params.streamOpts.blksz.toNat) {a : Allocation} {b : Bytes}
    (hfit : ¬ params.streamOpts.Fits lzo b) (ha : s.Holds params.handle a b) :
    handleFetch lzo s = .fault (.net (params.streamOpts.sendFault lzo)) := by
  rw [handleFetch]
  simp only [bufWord, bind_run, get_run, Outcome.bind_done, h0, h1, h3, h4,
    claraFindAllocation_lookup hs ha.allocation]
  rw [if_pos hsize, bind_run, fetchRespond_overflow hblk h hfit ha]
  rfl

end Clara.Provider
