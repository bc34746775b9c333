import Clara.Agent.Handlers
import Clara.Agent.ObjectSpec

/-! The allocations that the agent keeps itself: what becomes of its memory when a consumer makes
one or fetches it. -/
namespace Clara.Agent

open Conc

variable {t : Tid} {s : State} {c : Addr}

theorem run_setStart {r : SetRef} (hl : s.setLock r = .free) (hd : (s.sets r).damaged = false) :
    run t (setStart r) s =
      .done (s.putLock r ⟨some t, 1⟩) ((s.sets r).items.map Prod.snd) := by
  rw [setStart, perform, run, Prog.run_perform, exec, hl]
  simp [Lock.wait, Lock.free, IdSet.setList, hd, ofSet]

theorem run_setFinish {r : SetRef} (hl : s.setLock r = .free) :
    run t (setFinish r) (s.putLock r ⟨some t, 1⟩) = .done s () := by
  have hput : (s.putLock r ⟨some t, 1⟩).putLock r .free = s := by
    rw [State.putLock, State.putLock, Function.update_idem, ← hl, Function.update_eq_self]
  have hown : (s.putLock r ⟨some t, 1⟩).setLock r = ⟨some t, 1⟩ := Function.update_self ..
  have hpost : Lock.post t ⟨some t, 1⟩ = some .free := by simp [Lock.post, Lock.free]
  rw [setFinish, perform, run, Prog.run_perform, exec, hown, hpost]
  exact congrArg (Outcome.done · ()) hput

theorem run_findFirst {test : Addr → AProg Bool} {f : Addr → Bool} {l : List Addr}
    (h : ∀ a ∈ l, run t (test a) s = .done s (f a)) :
    run t (findFirst test l) s = .done s (l.find? f) := by
  induction l with
  | nil => rfl
  | cons a l ih =>
    have htest := h a List.mem_cons_self
    have hrest := ih fun b hb => h b (List.mem_cons_of_mem _ hb)
    rw [findFirst, run_bind, htest, Outcome.bind_done, List.find?_cons]
    cases f a with
    | true => rfl
    | false => exact hrest

/-- An entry is found by a property of its data that only the data under `key` has. -/
theorem find_items {κ δ : Type} [LinearOrder κ] {m : IdSet κ δ} {key : κ} {f : δ → Bool}
    (h : ∀ k d, m.lookup k = some d → (f d = true ↔ k = key)) :
    (m.items.map Prod.snd).find? f = m.lookup key := by
  cases hf : (m.items.map Prod.snd).find? f with
  | none =>
    rw [eq_comm, ← IdSet.not_mem_iff, IdSet.mem_iff]
    rintro ⟨d, hd⟩
    have hmem : d ∈ m.items.map Prod.snd :=
      List.mem_map_of_mem (f := Prod.snd) (IdSet.mem_items.mpr hd)
    exact List.find?_eq_none.mp hf d hmem ((h key d hd).mpr rfl)
  | some d =>
    obtain ⟨x, hx, rfl⟩ := List.mem_map.mp (List.mem_of_find?_eq_some hf)
    have hlook := IdSet.mem_items.mp hx
    have hkey : x.1 = key := (h x.1 x.2 hlook).mp (List.find?_some hf)
    rw [← hkey, hlook]

/-- A consumer's allocations are entered under their handles, which are in use, and nobody visits
them. -/
structure Keeps (c : Addr) (s : State) : Prop where
  sound : (s.sets (.allocations c)).damaged = false
  unlocked : s.setLock (.allocations c) = .free
  pooled : ∀ handle ∈ s.sets (.allocations c), handle ∈ s.sets .idPool
  entry : ∀ handle a, (s.sets (.allocations c)).lookup handle = some a →
    ∃ allocation, s.heap .allocation a = some allocation ∧ allocation.handle = handle

theorem Keeps.usable (h : Keeps c s) : Usable t (.allocations c) s :=
  ⟨h.sound, by rw [h.unlocked]; rfl⟩

theorem Keeps.run_claraFindAllocation (h : Keeps c s) (handle : Handle) :
    run t (claraFindAllocation c handle) s =
      .done s ((s.sets (.allocations c)).lookup handle) := by
  let named (a : Addr) : Bool := (s.heap .allocation a).any fun al => al.handle == handle
  have hvisit : ∀ a ∈ (s.sets (.allocations c)).items.map Prod.snd,
      run t (do
        let allocation ← read .allocation a
        pure (allocation.handle == handle) : AProg Bool)
        (s.putLock (.allocations c) ⟨some t, 1⟩) =
      .done (s.putLock (.allocations c) ⟨some t, 1⟩) (named a) := by
    intro a ha
    obtain ⟨x, hx, rfl⟩ := List.mem_map.mp ha
    obtain ⟨al, hal, -⟩ := h.entry x.1 x.2 (IdSet.mem_items.mp hx)
    have hread : (s.putLock (.allocations c) ⟨some t, 1⟩).heap .allocation x.2 = some al := hal
    rw [run_bind, run_read hread, Outcome.bind_done]
    simp [named, hal]
  have hnamed : ∀ k a, (s.sets (.allocations c)).lookup k = some a →
      (named a = true ↔ k = handle) := by
    intro k a hk
    obtain ⟨al, hal, rfl⟩ := h.entry k a hk
    simp [named, hal]
  rw [claraFindAllocation, run_bind, run_setStart h.unlocked h.sound, Outcome.bind_done, run_bind,
    run_findFirst hvisit, Outcome.bind_done, run_bind, run_setFinish h.unlocked,
    Outcome.bind_done, find_items hnamed]
  rfl

structure State.Stores (s : State) (c : Addr) (handle : Handle) (a ptr : Addr) (b : Bytes) :
    Prop where
  entry : (s.sets (.allocations c)).lookup handle = some a
  record : ∃ nmemb size, s.heap .allocation a = some ⟨handle, nmemb, size, some ptr⟩ ∧
    b.length = (nmemb * size).toNat
  block : s.heap .buffer ptr = some b

def State.freeBuffer (s : State) : Option Addr → State
  | none => s
  | some ptr => s.put .buffer ptr none

def State.released (s : State) (c : Addr) (handle : Handle) (a : Addr) (ptr : Option Addr) :
    State :=
  ((((s.putSet (.allocations c) ((s.sets (.allocations c)).erase handle)).freeBuffer ptr).put
    .allocation a none).putSet .idPool ((s.sets .idPool).erase handle))

theorem run_claraDestroyAllocation {a : Addr} {al : Allocation}
    (hal : s.heap .allocation a = some al)
    (hblock : ∀ ptr, al.ptr = some ptr → ∃ b, s.heap .buffer ptr = some b) :
    run t (claraDestroyAllocation a) s =
      .done ((s.freeBuffer al.ptr).put .allocation a none) al.handle := by
  rw [claraDestroyAllocation, run_bind, run_read hal, Outcome.bind_done]
  cases hptr : al.ptr with
  | none =>
    simp only
    rw [run_bind, run_free hal]
    rfl
  | some ptr =>
    obtain ⟨b, hb⟩ := hblock ptr hptr
    have hal' : (s.put .buffer ptr none).heap .allocation a = some al := by
      rw [State.put_heap_kind _ _ _ (by decide), hal]
    simp only
    rw [run_bind, run_free hb, Outcome.bind_done, run_bind, run_free hal']
    rfl

theorem run_releaseAllocation (hu : Usable t (.allocations c) s) (hpool : Usable t .idPool s)
    {handle : Handle} {a : Addr} {al : Allocation} (hmem : handle ∈ s.sets (.allocations c))
    (hid : handle ∈ s.sets .idPool) (hal : s.heap .allocation a = some al)
    (hhandle : al.handle = handle)
    (hblock : ∀ ptr, al.ptr = some ptr → ∃ b, s.heap .buffer ptr = some b) (x y : Assertion) :
    run t (do
      assert (← setRemove (.allocations c) handle) x
      let oldHandle ← claraDestroyAllocation a
      assert (← idRelease oldHandle) y : AProg Unit) s =
      .done (s.released c handle a al.ptr) () := by
  obtain ⟨s₁, hs₁⟩ : ∃ s₁ : State,
    s₁ = s.putSet (.allocations c) ((s.sets (.allocations c)).erase handle) := ⟨_, rfl⟩
  have hne : SetRef.idPool ≠ .allocations c := nofun
  have hheap : s₁.heap = s.heap := by rw [hs₁]; rfl
  have hpool₁ : Usable t .idPool s₁ := by
    rw [hs₁]
    exact hpool.putSet hne
  have hsame : s₁.sets .idPool = s.sets .idPool := by
    rw [hs₁]
    exact s.putSet_sets_of_ne _ hne
  have hkeep : ((s₁.freeBuffer al.ptr).put .allocation a none).sets = s₁.sets ∧
      ((s₁.freeBuffer al.ptr).put .allocation a none).setLock = s₁.setLock := by
    cases al.ptr with
    | none => exact ⟨rfl, rfl⟩
    | some ptr => exact ⟨rfl, rfl⟩
  have hpool₂ : Usable t .idPool ((s₁.freeBuffer al.ptr).put .allocation a none) := by
    refine ⟨?_, ?_⟩
    · rw [hkeep.1, hpool₁.sound]
    · rw [hkeep.2, hpool₁.admits]
  rw [run_bind, run_setRemove hu, Outcome.bind_done, ← hs₁, decide_eq_true hmem, run_bind,
    run_assert, if_pos rfl, Outcome.bind_done, run_bind,
    run_claraDestroyAllocation (by rw [hheap, hal]) (by rwa [hheap]), Outcome.bind_done, run_bind,
    idRelease, run_setRemove hpool₂, Outcome.bind_done, hkeep.1, hsame, hhandle,
    decide_eq_true hid, run_assert, if_pos rfl, hs₁]
  rfl

def State.dropped (s : State) (c : Addr) (handle : Handle) (a ptr : Addr) : State :=
  (((s.putSet (.allocations c) ((s.sets (.allocations c)).erase handle)).put .buffer ptr none).put
    .allocation a none).putSet .idPool ((s.sets .idPool).erase handle)

theorem run_fetchEnd (hk : Keeps c s) (hpool : Usable t .idPool s) {handle : Handle}
    {a ptr : Addr} {b : Bytes} (hs : s.Stores c handle a ptr b) :
    run t (do
      assert (← setRemove (.allocations c) handle) .fetchRemove
      let oldHandle ← claraDestroyAllocation a
      assert (← idRelease oldHandle) .fetchId : AProg Unit) s =
      .done (s.dropped c handle a ptr) () := by
  obtain ⟨nmemb, size, hrecord, -⟩ := hs.record
  have hmem := IdSet.mem_of_lookup hs.entry
  have hblock : ∀ p, some ptr = some p → ∃ b, s.heap .buffer p = some b := by
    intro p hp
    obtain rfl := Option.some.inj hp
    exact ⟨b, hs.block⟩
  exact run_releaseAllocation hk.usable hpool hmem (hk.pooled handle hmem) hrecord rfl hblock
    .fetchRemove .fetchId

theorem run_claraSendFetchResponse {lzo : Lzo} {opts : StreamOptions}
    (hblk : 0 < opts.blksz.toNat) {b : Bytes} (hfit : opts.Fits lzo b)
    (hf : (s.net (.consumer c)).sendFails = []) :
    run t (net (claraSendFetchResponse lzo (.consumer c) b opts)) s =
      .done (s.withNet (s.net.push (.consumer c)
        (.msg Msg.fetchResponse (Bytes.word (UInt64.ofNat b.length)) ::
          streamRecords lzo opts b))) true := by
  rw [run_net, Net.run_claraSendFetchResponse hblk hfit hf]

/-- As many bytes as are asked for are sent, if there are as many, and the allocation is freed. -/
theorem run_fetchLocal {lzo : Lzo} (params : FetchRequest)
    (hblk : 0 < params.streamOpts.blksz.toNat) (hk : Keeps c s) (hpool : Usable t .idPool s)
    {a ptr : Addr} {b : Bytes} (hs : s.Stores c params.handle a ptr b)
    (hsize : 0 < params.size) (hfit : params.streamOpts.Fits lzo (b.take params.size.toNat))
    (hf : (s.net (.consumer c)).sendFails = []) :
    run t (fetchLocal lzo c params) s =
      .done ((s.dropped c params.handle a ptr).withNet (s.net.push (.consumer c)
        (.msg Msg.fetchResponse (Bytes.word (UInt64.ofNat (b.take params.size.toNat).length)) ::
          streamRecords lzo params.streamOpts (b.take params.size.toNat)))) () := by
  obtain ⟨nmemb, size, hrecord, hlen⟩ := hs.record
  have hpos : 0 < params.size.toNat := UInt64.lt_iff_toNat_lt.mp hsize
  have hmin : (min params.size (nmemb * size)).toNat = min params.size.toNat b.length := by
    rw [hlen]
    rcases le_total params.size (nmemb * size) with h | h
    · rw [min_eq_left h, min_eq_left (UInt64.le_iff_toNat_le.mp h)]
    · rw [min_eq_right h, min_eq_right (UInt64.le_iff_toNat_le.mp h)]
  have htake : b.take (min params.size (nmemb * size)).toNat = b.take params.size.toNat := by
    rw [hmin, ← List.take_eq_take_min]
  have hbuf : run t (if min params.size (nmemb * size) = 0 then pure [] else do
      let ptr ← deref (some ptr)
      let buf ← read .buffer ptr
      pure (buf.take (min params.size (nmemb * size)).toNat) : AProg Bytes) s =
        .done s (b.take params.size.toNat) := by
    rw [← htake]
    split_ifs with hzero
    · rw [hzero]
      rfl
    · rw [run_bind, run_deref_some, Outcome.bind_done, run_bind, run_read hs.block]
      rfl
  have hend := run_fetchEnd (t := t) (s := s.withNet (s.net.push (.consumer c)
    (.msg Msg.fetchResponse (Bytes.word (UInt64.ofNat (b.take params.size.toNat).length)) ::
      streamRecords lzo params.streamOpts (b.take params.size.toNat))))
    ⟨hk.sound, hk.unlocked, hk.pooled, hk.entry⟩ ⟨hpool.sound, hpool.admits⟩
    ⟨hs.entry, hs.record, hs.block⟩
  rw [fetchLocal, run_bind, hk.run_claraFindAllocation, hs.entry, Outcome.bind_done, run_bind,
    run_deref_some, Outcome.bind_done, run_bind, run_read hrecord, Outcome.bind_done,
    if_pos hsize]
  simp only
  rw [run_bind, hbuf, Outcome.bind_done, run_bind, run_claraSendFetchResponse hblk hfit hf,
    Outcome.bind_done]
  exact hend

theorem run_fetchLocal_zero {lzo : Lzo} (params : FetchRequest) (hk : Keeps c s)
    (hpool : Usable t .idPool s) {a ptr : Addr} {b : Bytes}
    (hs : s.Stores c params.handle a ptr b) (hsize : ¬ 0 < params.size) :
    run t (fetchLocal lzo c params) s = .done (s.dropped c params.handle a ptr) () := by
  obtain ⟨nmemb, size, hrecord, hlen⟩ := hs.record
  rw [fetchLocal, run_bind, hk.run_claraFindAllocation, hs.entry, Outcome.bind_done, run_bind,
    run_deref_some, Outcome.bind_done, run_bind, run_read hrecord, Outcome.bind_done,
    if_neg hsize]
  exact run_fetchEnd hk hpool hs

theorem State.withId_sets_of_ne (s : State) {r : SetRef} (h : r ≠ .idPool) :
    s.withId.sets r = s.sets r :=
  { s with draws := s.draws + 1 }.putSet_sets_of_ne ((s.sets .idPool).add
    (s.candidates s.draws) 0) h

/-- The agent with a new allocation of `b`, which has the id that was drawn next. -/
def State.stored (s : State) (c : Addr) (nmemb size : UInt64) (b : Bytes) : State :=
  { ((s.withId.put .buffer s.next (some b)).put .allocation (s.next + 1)
      (some ⟨(s.candidates s.draws).val, nmemb, size, some s.next⟩)).putSet (.allocations c)
        ((s.sets (.allocations c)).add (s.candidates s.draws).val (s.next + 1)) with
    next := s.next + 2 }

section
variable (s : State) (c : Addr) (nmemb size : UInt64) (b : Bytes)

theorem State.stored_allocations : (s.stored c nmemb size b).sets (.allocations c) =
    (s.sets (.allocations c)).add (s.candidates s.draws).val (s.next + 1) :=
  State.putSet_sets_self ..

theorem State.stored_idPool : (s.stored c nmemb size b).sets .idPool =
    (s.sets .idPool).add (s.candidates s.draws).val 0 := by
  have hne : SetRef.idPool ≠ .allocations c := nofun
  have hput := (s.withId.put .buffer s.next (some b)).putSet_sets_of_ne
    ((s.sets (.allocations c)).add (s.candidates s.draws).val (s.next + 1)) hne
  have hid : s.withId.sets .idPool = (s.sets .idPool).add (s.candidates s.draws).val 0 :=
    State.putSet_sets_self ..
  exact hput.trans hid

theorem State.stored_heap_of_lt {k : Kind} {a : Addr} (h : a < s.next) :
    (s.stored c nmemb size b).heap k a = s.heap k a := by
  have hne : a ≠ s.next + 1 := Nat.ne_of_lt (Nat.lt_succ_of_lt h)
  have hne' : a ≠ s.next := Nat.ne_of_lt h
  show ((s.withId.put .buffer s.next (some b)).put .allocation (s.next + 1) _).heap k a = _
  by_cases hk : k = .allocation
  · subst hk
    rw [State.put_heap_of_ne _ _ hne, State.put_heap_kind _ _ _ (by decide)]
    rfl
  · rw [State.put_heap_kind _ _ _ hk]
    by_cases hb : k = .buffer
    · subst hb
      rw [State.put_heap_of_ne _ _ hne']
      rfl
    · rw [State.put_heap_kind _ _ _ hb]
      rfl

theorem State.stored_block : (s.stored c nmemb size b).heap .buffer s.next = some b := by
  show ((s.withId.put .buffer s.next (some b)).put .allocation (s.next + 1)
    (some ⟨(s.candidates s.draws).val, nmemb, size, some s.next⟩)).heap .buffer s.next = some b
  rw [State.put_heap_kind _ _ _ (by decide), State.put_heap_self]

theorem State.stored_record : (s.stored c nmemb size b).heap .allocation (s.next + 1) =
    some ⟨(s.candidates s.draws).val, nmemb, size, some s.next⟩ := by
  show ((s.withId.put .buffer s.next (some b)).put .allocation (s.next + 1)
    (some ⟨(s.candidates s.draws).val, nmemb, size, some s.next⟩)).heap .allocation
      (s.next + 1) = _
  rw [State.put_heap_self]

theorem State.stored_put (b' : Bytes) :
    (s.stored c nmemb size b).put .buffer s.next (some b') = s.stored c nmemb size b' := by
  have hcomm := (s.withId.put .buffer s.next (some b)).put_comm
    (by decide : Kind.allocation ≠ .buffer) (s.next + 1) s.next
    (some ⟨(s.candidates s.draws).val, nmemb, size, some s.next⟩) (some b')
  rw [State.put_put] at hcomm
  have hheap := congrArg State.heap hcomm
  rw [State.stored, State.stored, ← hcomm]
  rfl

end

theorem Keeps.not_mem (h : Keeps c s) (hid : (s.candidates s.draws).val ∉ s.sets .idPool) :
    (s.candidates s.draws).val ∉ s.sets (.allocations c) := fun hmem => hid (h.pooled _ hmem)

/-- There is a buffer for so many bytes: their number does not overflow, and there is memory. -/
def State.Callocs (s : State) (params : AllocateRequest) : Prop :=
  params.length < 2 ^ 64 ∧ s.memory s.next params.length = true

instance (s : State) (params : AllocateRequest) : Decidable (s.Callocs params) :=
  inferInstanceAs (Decidable (_ ∧ _))

theorem run_calloc (params : AllocateRequest) :
    run t (calloc params.nmemb params.size) s =
      if s.Callocs params then
        .done { s.put .buffer s.next (some (List.replicate params.length 0)) with
          next := s.next + 1 } (some s.next)
      else .done s none := by
  have hasked : run t (memory params.length) s = .done s (s.memory s.next params.length) := rfl
  have hlength : params.nmemb.toNat * params.size.toNat = params.length := rfl
  rw [calloc, hlength]
  by_cases hsize : params.length < 2 ^ 64
  · rw [if_pos hsize, run_bind, hasked, Outcome.bind_done]
    by_cases hmem : s.memory s.next params.length = true
    · rw [if_pos hmem, if_pos ⟨hsize, hmem⟩, run_bind, run_new]
      rfl
    · rw [if_neg hmem, if_neg fun h => hmem h.2]
      rfl
  · rw [if_neg hsize, if_neg fun h => hsize h.1]
    rfl

theorem run_claraCreateAllocation {params : AllocateRequest} (h : s.Callocs params) :
    run t (claraCreateAllocation params) s =
      .done { (s.put .buffer s.next (some (List.replicate params.length 0))).put
        .allocation (s.next + 1) (some ⟨params.handle, params.nmemb, params.size, some s.next⟩) with
          next := s.next + 2 } (s.next + 1) := by
  rw [claraCreateAllocation, run_bind, run_calloc, if_pos h, Outcome.bind_done, run_new]
  rfl

theorem run_poke {a : Addr} (ha : a < 2 ^ 64) {b b' : Bytes} (hb : s.heap .buffer a = some b)
    (hlen : b'.length = b.length) :
    run t (poke (ptr2Arg (some a)) 0 b') s = .done (s.put .buffer a (some b')) () := by
  have haddr : (ptr2Arg (some a)).toNat = a := by
    rw [ptr2Arg, UInt64.toNat_ofNat', Nat.mod_eq_of_lt ha]
  have hstore : Kind.buffer.store (0, b') b = b' := by
    show b.take 0 ++ b' ++ b.drop (0 + b'.length) = b'
    rw [List.take_zero, List.nil_append, Nat.zero_add, hlen, List.drop_length, List.append_nil]
  rw [poke, haddr, run_bind, run_read hb, Outcome.bind_done, if_pos (by omega), run_store hb,
    hstore]

/-- What an allocation holds at first: the data that came with it, or zeros. -/
def initialContents (params : AllocateRequest) (extra : Bytes) : Bytes :=
  if extra = [] then List.replicate params.length 0 else extra

/-- The agent with a new allocation that got no buffer. -/
def State.storedNull (s : State) (c : Addr) (nmemb size : UInt64) : State :=
  { (s.withId.put .allocation s.next
      (some ⟨(s.candidates s.draws).val, nmemb, size, none⟩)).putSet (.allocations c)
        ((s.sets (.allocations c)).add (s.candidates s.draws).val s.next) with
    next := s.next + 1 }

/-- The agent can make an allocation: the id drawn next is new. -/
structure Draws (t : Tid) (c : Addr) (s : State) : Prop where
  pool : Usable t .idPool s
  allocations : Usable t (.allocations c) s
  unpooled : (s.candidates s.draws).val ∉ s.sets .idPool
  unused : (s.candidates s.draws).val ∉ s.sets (.allocations c)

theorem Keeps.draws (h : Keeps c s) (hpool : Usable t .idPool s)
    (hid : (s.candidates s.draws).val ∉ s.sets .idPool) : Draws t c s :=
  ⟨hpool, h.usable, hid, h.not_mem hid⟩

private theorem Draws.run_entered (hd : Draws t c s) {s₁ s₂ : State} {params : AllocateRequest}
    {a : Addr} (hcreate : run t (claraCreateAllocation
      { params with handle := (s.candidates s.draws).val }) s.withId = .done s₁ a)
    (hsets : s₁.sets = s.withId.sets) (hlock : s₁.setLock = s.setLock)
    (hinsert : s₁.putSet (.allocations c)
      ((s.sets (.allocations c)).add (s.candidates s.draws).val a) = s₂) (extra : Bytes) :
    run t (allocateLocal c params extra) s =
      run t (do
        if 0 < extra.length then
          assert (extra.length == (params.nmemb * params.size).toNat) .allocateExtra
          let al ← read .allocation a
          let ptr ← deref al.ptr
          poke (ptr2Arg (some ptr)) 0 extra
        pure a) s₂ := by
  have hne : SetRef.allocations c ≠ .idPool := nofun
  have hallocations : s₁.sets (.allocations c) = s.sets (.allocations c) := by
    rw [hsets]
    exact s.withId_sets_of_ne hne
  have husable : Usable t (.allocations c) s₁ := by
    refine ⟨by rw [hallocations, hd.allocations.sound], ?_⟩
    rw [hlock]
    exact hd.allocations.admits
  rw [allocateLocal, run_bind, run_idCreate hd.pool hd.unpooled, Outcome.bind_done, run_bind,
    hcreate, Outcome.bind_done, run_bind, run_setInsert husable, Outcome.bind_done, hallocations,
    hinsert, decide_eq_true hd.unused, run_bind, run_assert, if_pos rfl, Outcome.bind_done]

/-- The new allocation is entered, and its buffer filled with the data that came with it. -/
theorem run_allocateLocal_block (hd : Draws t c s) {params : AllocateRequest}
    (h : s.Callocs params) (extra : Bytes) :
    run t (allocateLocal c params extra) s =
      run t (do
        if 0 < extra.length then
          assert (extra.length == (params.nmemb * params.size).toNat) .allocateExtra
          let a ← read .allocation (s.next + 1)
          let ptr ← deref a.ptr
          poke (ptr2Arg (some ptr)) 0 extra
        pure (s.next + 1))
        (s.stored c params.nmemb params.size
          (List.replicate params.length 0)) := by
  obtain ⟨zeros, hzeros⟩ : ∃ zeros : Bytes, zeros = List.replicate params.length 0 := ⟨_, rfl⟩
  obtain ⟨s₁, hs₁⟩ : ∃ s₁ : State, s₁ = { (s.withId.put .buffer s.next (some zeros)).put
    .allocation (s.next + 1) (some ⟨(s.candidates s.draws).val, params.nmemb, params.size,
      some s.next⟩) with next := s.next + 2 } := ⟨_, rfl⟩
  have hcreate : run t (claraCreateAllocation
      { params with handle := (s.candidates s.draws).val }) s.withId =
      .done s₁ (s.next + 1) := by
    have hcallocs : s.withId.Callocs { params with handle := (s.candidates s.draws).val } := h
    rw [run_claraCreateAllocation hcallocs, hs₁, hzeros]
    rfl
  rw [← hzeros]
  exact hd.run_entered hcreate (by rw [hs₁]; rfl) (by rw [hs₁]; rfl) (by rw [hs₁]; rfl) extra

/-- Data as long as the allocation ends up there. -/
theorem run_allocateLocal (hd : Draws t c s) (hnext : s.next < 2 ^ 64)
    {params : AllocateRequest} (h : s.Callocs params) {extra : Bytes}
    (hextra : extra = [] ∨ extra.length = params.length) :
    run t (allocateLocal c params extra) s =
      .done (s.stored c params.nmemb params.size (initialContents params extra)) (s.next + 1) := by
  rw [run_allocateLocal_block hd h extra, initialContents]
  by_cases hnil : extra = []
  · rw [if_pos hnil, hnil]
    rfl
  · have hpos : 0 < extra.length := List.length_pos_iff.mpr hnil
    have hlen := hextra.resolve_left hnil
    have hmul : (params.nmemb * params.size).toNat = extra.length := by
      rw [params.toNat_mul h.1, hlen]
    have hzlen : extra.length = (List.replicate params.length (0 : UInt8)).length := by
      rw [List.length_replicate, hlen]
    have hrecord := s.stored_record c params.nmemb params.size (List.replicate params.length 0)
    rw [if_neg hnil, if_pos hpos, run_bind, hmul, beq_self_eq_true, run_assert, if_pos rfl,
      Outcome.bind_done, run_bind, run_read hrecord, Outcome.bind_done, run_bind, run_deref_some,
      Outcome.bind_done, run_bind, run_poke hnext (State.stored_block s c _ _ _) hzlen,
      Outcome.bind_done, State.stored_put]
    rfl

theorem run_allocateLocal_extra (hd : Draws t c s) {params : AllocateRequest}
    (h : s.Callocs params) {extra : Bytes} (hextra : extra ≠ [])
    (hlen : extra.length ≠ params.length) :
    run t (allocateLocal c params extra) s = .fault (.assertion .allocateExtra) := by
  have hpos : 0 < extra.length := List.length_pos_iff.mpr hextra
  have hne : (extra.length == (params.nmemb * params.size).toNat) = false := by
    rw [params.toNat_mul h.1]
    exact beq_eq_false_iff_ne.mpr hlen
  rw [run_allocateLocal_block hd h extra, if_pos hpos, run_bind, hne, run_assert,
    if_neg Bool.false_ne_true, Outcome.bind_fault]

/-- An allocation that gets no buffer is entered all the same. -/
theorem run_allocateLocal_null (hd : Draws t c s) {params : AllocateRequest}
    (h : ¬ s.Callocs params) (extra : Bytes) :
    run t (allocateLocal c params extra) s =
      if extra = [] then .done (s.storedNull c params.nmemb params.size) s.next
      else .fault (if extra.length = (params.nmemb * params.size).toNat then .nullPointer
        else .assertion .allocateExtra) := by
  obtain ⟨s₁, hs₁⟩ : ∃ s₁ : State, s₁ = { s.withId.put .allocation s.next
    (some ⟨(s.candidates s.draws).val, params.nmemb, params.size, none⟩) with
      next := s.next + 1 } := ⟨_, rfl⟩
  have hcreate : run t (claraCreateAllocation
      { params with handle := (s.candidates s.draws).val }) s.withId = .done s₁ s.next := by
    have hcallocs : ¬ s.withId.Callocs { params with handle := (s.candidates s.draws).val } := h
    have hcalloc := run_calloc (t := t) (s := s.withId)
      { params with handle := (s.candidates s.draws).val }
    rw [if_neg hcallocs] at hcalloc
    rw [claraCreateAllocation, run_bind, hcalloc, Outcome.bind_done, run_new, hs₁]
    rfl
  have hinsert : s₁.putSet (.allocations c) ((s.sets (.allocations c)).add
      (s.candidates s.draws).val s.next) = s.storedNull c params.nmemb params.size := by
    rw [hs₁]
    rfl
  have hrecord : (s.storedNull c params.nmemb params.size).heap .allocation s.next =
      some ⟨(s.candidates s.draws).val, params.nmemb, params.size, none⟩ :=
    s.withId.put_heap_self (k := .allocation) s.next _
  rw [hd.run_entered hcreate (by rw [hs₁]; rfl) (by rw [hs₁]; rfl) hinsert extra]
  by_cases hnil : extra = []
  · rw [if_pos hnil, hnil]
    rfl
  · have hpos : 0 < extra.length := List.length_pos_iff.mpr hnil
    rw [if_neg hnil, if_pos hpos, run_bind, run_assert]
    by_cases hlen : extra.length = (params.nmemb * params.size).toNat
    · rw [if_pos hlen, hlen, beq_self_eq_true, if_pos rfl, Outcome.bind_done, run_bind,
        run_read hrecord]
      rfl
    · rw [if_neg hlen, beq_eq_false_iff_ne.mpr hlen, if_neg Bool.false_ne_true,
        Outcome.bind_fault]

/-- A handle that is drawn although an allocation has it. -/
theorem run_allocateLocal_used (hpool : Usable t .idPool s) (hu : Usable t (.allocations c) s)
    (hid : (s.candidates s.draws).val ∉ s.sets .idPool)
    (hused : (s.candidates s.draws).val ∈ s.sets (.allocations c)) (params : AllocateRequest)
    (extra : Bytes) :
    run t (allocateLocal c params extra) s = .fault (.assertion .allocateInsert) := by
  have hcreate : ∃ s₁ a, run t (claraCreateAllocation
      { params with handle := (s.candidates s.draws).val }) s.withId = .done s₁ a ∧
      s₁.sets = s.withId.sets ∧ s₁.setLock = s.setLock := by
    have hcalloc := run_calloc (t := t) (s := s.withId)
      { params with handle := (s.candidates s.draws).val }
    rw [claraCreateAllocation, run_bind, hcalloc]
    split_ifs
    · exact ⟨_, _, rfl, rfl, rfl⟩
    · exact ⟨_, _, rfl, rfl, rfl⟩
  obtain ⟨s₁, a, hrun, hsets, hlocks⟩ := hcreate
  have hne : SetRef.allocations c ≠ .idPool := nofun
  have hsame : s₁.sets (.allocations c) = s.sets (.allocations c) := by
    rw [hsets, s.withId_sets_of_ne hne]
  have husable : Usable t (.allocations c) s₁ := by
    refine ⟨by rw [hsame, hu.sound], ?_⟩
    rw [hlocks]
    exact hu.admits
  rw [allocateLocal, run_bind, run_idCreate hpool hid, Outcome.bind_done, run_bind, hrun,
    Outcome.bind_done, run_bind, run_setInsert husable, Outcome.bind_done, hsame,
    decide_eq_false (not_not_intro hused), run_bind, run_assert, if_neg Bool.false_ne_true,
    Outcome.bind_fault]

theorem Keeps.stored (h : Keeps c s) (hf : s.Fresh)
    (hid : (s.candidates s.draws).val ∉ s.sets .idPool) (nmemb size : UInt64) (b : Bytes) :
    Keeps c (s.stored c nmemb size b) where
  sound := by
    rw [State.stored_allocations, IdSet.damaged_add, h.sound, decide_eq_false (h.not_mem hid)]
    rfl
  unlocked := h.unlocked
  pooled handle hmem := by
    rw [State.stored_allocations, IdSet.mem_add (h.not_mem hid)] at hmem
    rw [State.stored_idPool, IdSet.mem_add hid]
    exact hmem.imp_right (h.pooled handle)
  entry handle a hlook := by
    rw [State.stored_allocations, IdSet.lookup_add (h.not_mem hid)] at hlook
    split_ifs at hlook with heq
    · obtain rfl := Option.some.inj hlook
      exact ⟨_, s.stored_record c nmemb size b, heq.symm⟩
    · obtain ⟨al, hal, hhandle⟩ := h.entry handle a hlook
      exact ⟨al, by rw [s.stored_heap_of_lt c nmemb size b (hf.lt hal), hal], hhandle⟩

theorem Keeps.stores (h : Keeps c s) (hid : (s.candidates s.draws).val ∉ s.sets .idPool)
    {nmemb size : UInt64} {b : Bytes} (hlen : b.length = (nmemb * size).toNat) :
    (s.stored c nmemb size b).Stores c (s.candidates s.draws).val (s.next + 1) s.next b where
  entry := by rw [State.stored_allocations, IdSet.lookup_add (h.not_mem hid), if_pos rfl]
  record := ⟨nmemb, size, s.stored_record c nmemb size b, hlen⟩
  block := s.stored_block c nmemb size b

theorem Usable.stored (h : Usable t .idPool s)
    (hid : (s.candidates s.draws).val ∉ s.sets .idPool) (nmemb size : UInt64) (b : Bytes) :
    Usable t .idPool (s.stored c nmemb size b) := by
  refine ⟨?_, h.admits⟩
  rw [State.stored_idPool, IdSet.damaged_add, h.sound, decide_eq_false hid]
  rfl

theorem run_handleAllocate_local (hd : Draws t c s) (hnext : s.next < 2 ^ 64)
    {consumer : Consumer} (hc : s.heap .consumer c = some consumer)
    (hf : (s.net (.consumer c)).sendFails = []) {params : AllocateRequest} {extra : Bytes}
    (hhandle : params.handle = invalidHandle) (hhint : params.hint = invalidHandle)
    (h : s.Callocs params) (hextra : extra = [] ∨ extra.length = params.length) :
    run t (handleAllocate c params extra) s =
      .done ((s.stored c params.nmemb params.size (initialContents params extra)).withNet
        (s.net.push (.consumer c)
          [.msg Msg.allocateResponse (Bytes.word (s.candidates s.draws).val)])) () := by
  have hrecord := s.stored_record c params.nmemb params.size (initialContents params extra)
  have hsend : run t (net (claraSendAllocateResponse (.consumer c) (s.candidates s.draws).val))
      (s.stored c params.nmemb params.size (initialContents params extra)) =
      .done ((s.stored c params.nmemb params.size (initialContents params extra)).withNet
        (s.net.push (.consumer c)
          [.msg Msg.allocateResponse (Bytes.word (s.candidates s.draws).val)])) true := by
    have hf' : ((s.stored c params.nmemb params.size (initialContents params extra)).net
        (.consumer c)).sendFails = [] := hf
    rw [run_net, Net.run_claraSendAllocateResponse hf']
    rfl
  rw [handleAllocate, run_bind, run_read hc, Outcome.bind_done, if_neg (not_not_intro hhandle),
    if_pos hhint, run_bind, run_allocateLocal hd hnext h hextra, Outcome.bind_done, run_bind,
    run_read hrecord, Outcome.bind_done, run_bind, hsend]
  rfl

theorem run_handleAllocate_local_collision (hpool : Usable t .idPool s)
    (hid : (s.candidates s.draws).val ∈ s.sets .idPool) {consumer : Consumer}
    (hc : s.heap .consumer c = some consumer) (nmemb size : UInt64) (extra : Bytes) :
    run t (handleAllocate c ⟨invalidHandle, nmemb, size, invalidHandle⟩ extra) s =
      .fault .freedMemory := by
  rw [handleAllocate, run_bind, run_read hc, Outcome.bind_done, if_neg (not_not_intro rfl),
    if_pos rfl, run_bind, allocateLocal, run_bind, run_idCreate_collision hpool hid]
  rfl

end Clara.Agent
