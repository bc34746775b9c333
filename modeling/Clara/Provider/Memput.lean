import Clara.Common.Chunks
import Clara.Provider.Runs

/-! What a MEMPUT message can write to. The destination is looked up in the map of all ids, and
nothing is compared with its size. -/
namespace Clara.Provider

open Conc PProg

variable {Cl : Type}

def Memory.byte (mem : Memory) (ptr : Arg) (i : ℕ) : Option UInt8 := (mem ptr).bind (·[i]?)

structure Covers (params : MemputStreamParams) (a : Allocation) : Prop where
  offset : params.offset.toNat < 2 ^ 63
  length : params.offset.toNat + params.length.toNat ≤ a.nmemb.toNat * a.size.toNat

/-- The provider takes the message with the whole of its stream. Whatever stood in memory, only
bytes of the allocation `dst` are written to, and those only if the message is about some. -/
def StaysInside (lzo : Lzo) (fuel : ℕ) (lib : OpenCl Cl) (params : MemputStreamParams)
    (stp : StreamOptions) (blks : List Chunked) (s : State Cl) : Prop :=
  ∀ mem, s.mem.Shaped mem → ∃ s',
    Works lzo fuel lib (.msg Msg.memputStream params.bytes :: streamChunks stp blks) []
      { s with mem := mem } s' ∧
    ∀ ptr i, s'.mem.byte ptr i ≠ mem.byte ptr i →
      ∃ a, s.allocations.lookup params.dst = some a ∧ Covers params a ∧ ptr = a.ptr ∧
        i < a.nmemb.toNat * a.size.toNat

/-- The destination is an allocation that the message is about, and its buffer has room for what
the stream decodes to. -/
structure HasRoom (params : MemputStreamParams) (data : Bytes) (s : State Cl) (a : Allocation)
    (b : Bytes) : Prop where
  allocation : s.allocations.lookup params.dst = some a
  covers : Covers params a
  block : s.mem a.ptr = some b
  room : params.offset.toNat + data.length ≤ b.length
  size : params.offset.toNat + data.length ≤ a.nmemb.toNat * a.size.toNat

/-- The id is known, the stream is one that `stream_recv` takes for the length announced, and it
is empty or has room in an allocation. -/
structure MemputFits (lzo : Lzo) (params : MemputStreamParams) (stp : StreamOptions)
    (blks : List Chunked) (s : State Cl) : Prop where
  known : params.dst ∈ s.idMap
  accepts : stp.Accepts lzo stp.blksz.toNat params.length.toNat blks
  fits : stp.decoded lzo blks = [] ∨ ∃ a b, HasRoom params (stp.decoded lzo blks) s a b

section
variable {lzo : Lzo} {fuel : ℕ} {lib : OpenCl Cl} {s s' : State Cl} {params : MemputStreamParams}
  {stp : StreamOptions} {blks : List Chunked}

theorem Memory.byte_overwrite {mem : Memory} {ptr p : Arg} {b v : Bytes} {off i : ℕ}
    (hb : mem ptr = some b) (hle : off + v.length ≤ b.length)
    (hne : (mem.put ptr (some (b.overwrite off v))).byte p i ≠ mem.byte p i) :
    p = ptr ∧ i < off + v.length := by
  by_cases hp : p = ptr
  · refine ⟨hp, ?_⟩
    by_contra hi
    apply hne
    rw [Memory.byte, Memory.byte, hp, Memory.put_self, hb, Option.bind_some, Option.bind_some,
      Bytes.overwrite]
    have hlen : (b.take off ++ v).length = off + v.length := by
      rw [List.length_append, List.length_take, min_eq_left (by omega)]
    rw [List.getElem?_append_right (by omega), hlen, List.getElem?_drop]
    congr 1
    omega
  · rw [Memory.byte, Memory.byte, Memory.put_of_ne _ hp] at hne
    exact absurd rfl hne

theorem Memory.byte_overwrite_last (mem : Memory) (ptr : Arg) {b v : Bytes} {off : ℕ}
    (hle : off + v.length ≤ b.length) (hne : v ≠ []) :
    (mem.put ptr (some (b.overwrite off v))).byte ptr (off + v.length - 1) =
      some (v.getLast hne) := by
  have hpos : 0 < v.length := List.length_pos_iff.mpr hne
  have hlen : (b.take off).length = off := by rw [List.length_take, min_eq_left (by omega)]
  have hlen' : (b.take off ++ v).length = off + v.length := by rw [List.length_append, hlen]
  have hlast : off + v.length - 1 - (b.take off).length = v.length - 1 := by omega
  rw [Memory.byte, Memory.put_self, Option.bind_some, Bytes.overwrite,
    List.getElem?_append_left (by omega), List.getElem?_append_right (by omega), hlast,
    ← List.getLast?_eq_getElem?, List.getLast?_eq_some_getLast hne]

theorem State.took_memput (s : State Cl) (params : MemputStreamParams) :
    (s.took params.bytes).buf.word 0 = params.dst ∧
      (s.took params.bytes).buf.word 1 = params.offset ∧
      (s.took params.bytes).buf.word 2 = params.length := by
  have hm : params.bytes.length ≤ recvbufsz := length_words_le _ (by decide : 4 ≤ 5)
  exact ⟨s.took_word_words (i := 0) hm rfl, s.took_word_words (i := 1) hm rfl,
    s.took_word_words (i := 2) hm rfl⟩

theorem providerTurn_memput (s : State Cl) (params : MemputStreamParams)
    (rs : List Sent) (q : List Incoming) (o : List Sent) :
    providerTurn lzo fuel lib
        (s.withNet (.wire (Net.incoming (.msg Msg.memputStream params.bytes :: rs) ++ q) o)) =
      (handleMemput lzo fuel
        ((s.took params.bytes).withNet (.wire (Net.incoming rs ++ q) o))).bind
          fun s _ => .done s true := by
  have hm : params.bytes.length ≤ recvbufsz := length_words_le _ (by decide : 4 ≤ 5)
  rw [providerTurn_message rfl hm]
  rfl

theorem handleMemput_eq (hs : s.Sound) {real : Arg} (hdst : s.idMap.lookup params.dst = some real)
    (n : Net Unit) :
    handleMemput lzo fuel ((s.took params.bytes).withNet n) =
      (PProg.net (streamRecvInto lzo () fuel (s.room real params.offset.toNat)
        params.length.toNat) ((s.took params.bytes).withNet n)).bind fun s x =>
          (if x.2 = [] then pure () else store real params.offset.toNat x.2 : PProg Cl Unit) s := by
  obtain ⟨h0, h1, h2⟩ := s.took_memput params
  have hfind : mappingFindByVirt params.dst ((s.took params.bytes).withNet n) =
      .done ((s.took params.bytes).withNet n) (some real) := by
    rw [mappingFindByVirt_run (by exact hs.idMap), ← hdst]
    rfl
  rw [handleMemput]
  simp only [bufWord, bind_run, get_run, Outcome.bind_done, State.withNet_buf, h0, h1, h2, hfind]
  rfl

/-- A stream of nothing is taken, whatever the destination. -/
theorem works_memput_nothing (hs : s.Sound) (hdst : params.dst ∈ s.idMap)
    (haccepts : stp.Accepts lzo stp.blksz.toNat params.length.toNat blks)
    (hdata : stp.decoded lzo blks = []) (hfuel : (streamChunks stp blks).length ≤ fuel) :
    Works lzo fuel lib (.msg Msg.memputStream params.bytes :: streamChunks stp blks) [] s
      (s.took params.bytes) := by
  obtain ⟨real, hreal⟩ := IdSet.mem_iff.mp hdst
  apply Works.turn (List.cons_ne_nil _ _)
  intro q o
  have hlen : (stp.decoded lzo blks).length ≤ s.room real params.offset.toNat := by
    rw [hdata]
    exact Nat.zero_le _
  have hinq : (Net.wire (Net.incoming (streamChunks stp blks) ++ q) o ()).inq =
      Net.incoming (streamChunks stp blks) ++ q := rfl
  have hrecv := (run_streamRecvInto_chunks stp blks (s.room real params.offset.toNat)
    params.length.toNat hinq hfuel).1 ⟨haccepts, hlen⟩
  rw [Net.wire_withInq] at hrecv
  rw [providerTurn_memput, handleMemput_eq hs hreal, net_done hrecv, Outcome.bind_done, hdata,
    List.append_nil]
  rfl

/-- A stream is written where there is room for it. -/
theorem works_memput_chunks (hs : s.Sound) {real : Arg}
    (hdst : s.idMap.lookup params.dst = some real)
    (haccepts : stp.Accepts lzo stp.blksz.toNat params.length.toNat blks) {b : Bytes}
    (hne : stp.decoded lzo blks ≠ []) (hb : s.mem real = some b)
    (hroom : params.offset.toNat + (stp.decoded lzo blks).length ≤ b.length)
    (hfuel : (streamChunks stp blks).length ≤ fuel) :
    Works lzo fuel lib (.msg Msg.memputStream params.bytes :: streamChunks stp blks) [] s
      ((s.took params.bytes).wrote real
        (b.overwrite params.offset.toNat (stp.decoded lzo blks))) := by
  apply Works.turn (List.cons_ne_nil _ _)
  intro q o
  have hlen : (stp.decoded lzo blks).length ≤ s.room real params.offset.toNat := by
    rw [State.room, hb, Option.getD_some]
    omega
  have hinq : (Net.wire (Net.incoming (streamChunks stp blks) ++ q) o ()).inq =
      Net.incoming (streamChunks stp blks) ++ q := rfl
  have hrecv := (run_streamRecvInto_chunks stp blks (s.room real params.offset.toNat)
    params.length.toNat hinq hfuel).1 ⟨haccepts, hlen⟩
  rw [Net.wire_withInq] at hrecv
  rw [providerTurn_memput, handleMemput_eq hs hdst, net_done hrecv, Outcome.bind_done,
    List.append_nil]
  simp only
  rw [if_neg hne, store_run (by exact hb) hroom]
  rfl

/-- What the provider gets through, it gets through when nothing else waits. -/
theorem Works.not_fault {rs out : List Sent} {f : Fault} (h : Works lzo fuel lib rs out s s')
    (hturn : providerTurn lzo fuel lib (s.withNet (.wire (Net.incoming rs) [])) = .fault f) :
    False := by
  have hmain := h.providerMain
  rw [providerMain_succ, hturn] at hmain
  cases hmain

theorem Works.unique {rs out out' : List Sent} {s₁ s₂ : State Cl}
    (h₁ : Works lzo fuel lib rs out s s₁) (h₂ : Works lzo fuel lib rs out' s s₂) :
    s₁.withNet (.wire [] out) = s₂.withNet (.wire [] out') := by
  have hdone := h₁.providerMain.symm.trans h₂.providerMain
  exact (Outcome.done.inj hdone).1

/-- The provider gets through a message only with a stream that is taken and has room. -/
theorem Works.memput_fits (hs : s.Sound) (hfuel : (streamChunks stp blks).length ≤ fuel)
    (h : Works lzo fuel lib (.msg Msg.memputStream params.bytes :: streamChunks stp blks) [] s
      s') :
    ∃ real, s.idMap.lookup params.dst = some real ∧
      stp.Accepts lzo stp.blksz.toNat params.length.toNat blks ∧
      (stp.decoded lzo blks ≠ [] → ∃ b, s.mem real = some b ∧
        params.offset.toNat + (stp.decoded lzo blks).length ≤ b.length) := by
  have hturn : providerTurn lzo fuel lib _ = _ :=
    providerTurn_memput s params (streamChunks stp blks) [] []
  rw [List.append_nil, List.append_nil] at hturn
  cases hdst : s.idMap.lookup params.dst with
  | none =>
    obtain ⟨h0, -, -⟩ := s.took_memput params
    have hfind : ∀ n, mappingFindByVirt params.dst ((s.took params.bytes).withNet n) =
        .done ((s.took params.bytes).withNet n) none := by
      intro n
      rw [mappingFindByVirt_run (by exact hs.idMap), ← hdst]
      rfl
    rw [handleMemput] at hturn
    simp only [bufWord, bind_run, get_run, Outcome.bind_done, State.withNet_buf, h0, hfind,
      fail_run, Outcome.bind_fault] at hturn
    exact (h.not_fault hturn).elim
  | some real =>
    have hinq : (Net.wire (Net.incoming (streamChunks stp blks)) [] ()).inq =
        Net.incoming (streamChunks stp blks) ++ [] := (List.append_nil _).symm
    obtain ⟨hdone, hfault⟩ := run_streamRecvInto_chunks stp blks
      (s.room real params.offset.toNat) params.length.toNat hinq hfuel
    rw [handleMemput_eq hs hdst] at hturn
    by_cases hok : stp.Accepts lzo stp.blksz.toNat params.length.toNat blks ∧
        (stp.decoded lzo blks).length ≤ s.room real params.offset.toNat
    · refine ⟨real, rfl, hok.1, fun hne => ?_⟩
      have hpos : 0 < (stp.decoded lzo blks).length := List.length_pos_iff.mpr hne
      have hroom := hok.2
      rw [State.room] at hroom
      cases hb : s.mem real with
      | none =>
        rw [hb, Option.getD_none, List.length_nil] at hroom
        omega
      | some b =>
        rw [hb, Option.getD_some] at hroom
        exact ⟨b, rfl, by omega⟩
    · obtain ⟨f, hf⟩ := hfault hok
      have hnet : PProg.net (streamRecvInto lzo () fuel (s.room real params.offset.toNat)
          params.length.toNat) ((s.took params.bytes).withNet
            (.wire (Net.incoming (streamChunks stp blks)) [])) = .fault (.net f) := by
        rw [PProg.net]
        simp only [State.withNet_net, hf]
      rw [hnet] at hturn
      exact (h.not_fault hturn).elim

theorem MemputFits.staysInside (h : MemputFits lzo params stp blks s) (hs : s.Paired)
    (hfuel : (streamChunks stp blks).length ≤ fuel) (lib : OpenCl Cl) :
    StaysInside lzo fuel lib params stp blks s := by
  intro mem hmem
  have hsound : ({ s with mem := mem } : State Cl).Sound :=
    ⟨hs.sound.idMap, hs.sound.allocations, hs.sound.keyed⟩
  by_cases hne : stp.decoded lzo blks = []
  · refine ⟨_, works_memput_nothing hsound h.known h.accepts hne hfuel, ?_⟩
    intro ptr i hchange
    exact absurd rfl hchange
  · obtain ⟨a, b', hroom⟩ := h.fits.resolve_left hne
    obtain ⟨b, hb, hlen⟩ := hmem _ _ hroom.block
    have hle : params.offset.toNat + (stp.decoded lzo blks).length ≤ b.length := by
      rw [hlen]
      exact hroom.room
    have hmap := hs.mapped _ _ hroom.allocation
    refine ⟨_, works_memput_chunks hsound hmap h.accepts hne hb hle hfuel, ?_⟩
    intro ptr i hchange
    obtain ⟨hptr, hi⟩ := Memory.byte_overwrite hb hle hchange
    exact ⟨a, hroom.allocation, hroom.covers, hptr, hi.trans_le hroom.size⟩

/-- One that stays inside fits: otherwise some byte tells. -/
theorem StaysInside.memputFits (h : StaysInside lzo fuel lib params stp blks s) (hs : s.Paired)
    (hfuel : (streamChunks stp blks).length ≤ fuel) : MemputFits lzo params stp blks s := by
  obtain ⟨s₁, hworks, -⟩ := h s.mem (.refl _)
  obtain ⟨real, hdst, haccepts, hroom⟩ := hworks.memput_fits hs.sound hfuel
  refine ⟨IdSet.mem_of_lookup hdst, haccepts, ?_⟩
  by_cases hne : stp.decoded lzo blks = []
  · exact .inl hne
  right
  obtain ⟨b, hb, hle⟩ := hroom hne
  have hpos : 0 < (stp.decoded lzo blks).length := List.length_pos_iff.mpr hne
  -- a block whose last byte to be overwritten is another than the one that is written there
  obtain ⟨x, hx⟩ : ∃ x : UInt8, x ≠ (stp.decoded lzo blks).getLast hne := by
    by_cases hzero : (stp.decoded lzo blks).getLast hne = 0
    · exact ⟨1, by rw [hzero]; decide⟩
    · exact ⟨0, Ne.symm hzero⟩
  obtain ⟨b', hb'⟩ : ∃ b' : Bytes, b' = List.replicate b.length x := ⟨_, rfl⟩
  have hlen : b'.length = b.length := by rw [hb', List.length_replicate]
  obtain ⟨s₂, hworks₂, hinside⟩ := h _ (.put hb hlen)
  have hsound : ({ s with mem := s.mem.put real (some b') } : State Cl).Sound :=
    ⟨hs.sound.idMap, hs.sound.allocations, hs.sound.keyed⟩
  have hle' : params.offset.toNat + (stp.decoded lzo blks).length ≤ b'.length := by rwa [hlen]
  have hexact : Works lzo fuel lib _ _ { s with mem := s.mem.put real (some b') } _ :=
    works_memput_chunks hsound hdst haccepts hne (Memory.put_self ..) hle' hfuel
  have hmem : s₂.mem = (s.mem.put real (some b')).put real
      (some (b'.overwrite params.offset.toNat (stp.decoded lzo blks))) :=
    congrArg State.mem (hworks₂.unique hexact)
  have hlast := Memory.byte_overwrite_last (s.mem.put real (some b')) real hle' hne
  have hbefore : (s.mem.put real (some b')).byte real
      (params.offset.toNat + (stp.decoded lzo blks).length - 1) = some x := by
    rw [Memory.byte, Memory.put_self, Option.bind_some, hb', List.getElem?_replicate,
      if_pos (by omega)]
  obtain ⟨a, ha, hcovers, rfl, hi⟩ := hinside real
    (params.offset.toNat + (stp.decoded lzo blks).length - 1) (by
      rw [hmem, hlast, hbefore]
      intro heq
      exact hx (Option.some.inj heq).symm)
  exact ⟨a, b, ha, hcovers, hb, hle, by omega⟩

end

/-- A provider that has mapped the id 7 to an object at 4096. -/
def State.oneMapped : State Unit :=
  (((State.initial silentCl [] fun _ => 4096).took (Bytes.words [7, 4096])).mapped 7 4096).withNet
    (.wire [] [])

/-- A provider that has eight bytes under the handle 5. -/
def State.eightBytes : State Unit :=
  let s := State.initial silentCl [] fun _ => 4096
  let params : AllocateRequest := ⟨5, 1, 8, 0⟩
  ((s.took (params.bytes ++ [])).allocated params 4096
    (allocateContents (s.took (params.bytes ++ [])) params 32)).withNet
      (.wire [] [.msg Msg.allocateResponse (Bytes.word 5)])

private theorem sound_initial :
    (State.initial silentCl [] fun _ => 4096).Sound := (refines_initial _ registered_nil _).sound

theorem reachable_oneMapped (lzo : Lzo) (fuel : ℕ) : Reachable lzo fuel silentCl .oneMapped := by
  have hnew : (7 : GlobalId) ∉ (State.initial silentCl [] fun _ => 4096).idMap :=
    IdSet.not_mem_empty _
  exact Reachable.works (Runs.initial [] registered_nil fun _ => 4096)
    (works_mapping sound_initial 4096 hnew)

theorem reachable_eightBytes (lzo : Lzo) (fuel : ℕ) :
    Reachable lzo fuel silentCl .eightBytes :=
  have hworks : Works lzo fuel silentCl
      [.msg Msg.allocateRequest (AllocateRequest.bytes ⟨5, 1, 8, 0⟩ ++ [])] _ _ _ :=
    works_allocate sound_initial (by decide) (by decide) (.inl rfl) (by decide) (by decide)
      (by decide)
  Reachable.works (Runs.initial [] registered_nil fun _ => 4096) hworks

end Clara.Provider
