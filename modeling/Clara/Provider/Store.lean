import Clara.Provider.Isolation
import Clara.Provider.Service

/-! The ids of the provider as a table: each stands for a block of bytes that a consumer has
allocated, or for an object of the OpenCL library. The messages that allocate, fill, fetch and map
do to this table what their names say. -/
namespace Clara.Provider

open Conc

/-- What an id stands for. -/
inductive Entry
  | block (b : Bytes)
  | object (real : Arg)

def Entry.write (offset : ℕ) (data : Bytes) : Entry → Entry
  | .block b => .block (b.overwrite offset data)
  | .object real => .object real

abbrev Table := GlobalId → Option Entry

/-- The messages about the table; the stream behind a MEMPUT is cut into blocks as `stp` says. -/
inductive StoreRequest
  | allocate (params : AllocateRequest) (extra : Bytes)
  | memput (params : MemputStreamParams) (stp : StreamOptions) (data : Bytes)
  | fetch (params : FetchRequest)
  | mapping (virt : GlobalId) (real : Arg)

namespace StoreRequest

def records (lzo : Lzo) : StoreRequest → List Sent
  | .allocate params extra => [.msg Msg.allocateRequest (params.bytes ++ extra)]
  | .memput params stp data =>
    .msg Msg.memputStream params.bytes :: streamRecords lzo stp data
  | .fetch params => [.msg Msg.fetchRequest params.bytes]
  | .mapping virt real => [.msg Msg.mapping (Bytes.words [virt, real])]

/-- The id that the message is about. -/
def id : StoreRequest → GlobalId
  | .allocate params _ => params.handle
  | .memput params _ _ => params.dst
  | .fetch params => params.handle
  | .mapping virt _ => virt

/-- What the id stands for afterwards. -/
def entry (m : Table) : StoreRequest → Option Entry
  | .allocate params extra =>
    some (.block (if extra = [] then List.replicate (params.nmemb.toNat * params.size.toNat) 0
      else extra))
  | .memput params _ data => (m params.dst).map (.write params.offset.toNat data)
  | .fetch _ => none
  | .mapping _ real => some (.object real)

def apply (m : Table) (r : StoreRequest) : Table := Function.update m r.id (r.entry m)

def response (lzo : Lzo) (m : Table) : StoreRequest → List Sent
  | .allocate params _ => [.msg Msg.allocateResponse (Bytes.word params.handle)]
  | .memput _ _ _ | .mapping _ _ => []
  | .fetch params =>
    match m params.handle with
    | some (.block b) => fetchRecords lzo params.streamOpts b params.size
    | _ => []

variable {Cl : Type}

/-- `calloc` returns a block that is not in use. -/
def Callocs (s : State Cl) : Prop :=
  s.addresses s.draws ≠ 0 ∧
    ∀ id a, s.allocations.lookup id = some a → a.ptr ≠ s.addresses s.draws

/-- Ids are new where they are given and blocks where they are used, and data is as long as
announced. -/
def Admissible (fuel : ℕ) (s : State Cl) (m : Table) : StoreRequest → Prop
  | .allocate params extra =>
    m params.handle = none ∧ params.nmemb.toNat * params.size.toNat < 2 ^ 64 ∧
      (extra = [] ∨ extra.length = params.nmemb.toNat * params.size.toNat) ∧ Callocs s
  | .memput params stp data =>
    (∃ b, m params.dst = some (.block b) ∧ params.offset.toNat + data.length ≤ b.length) ∧
      params.length.toNat = data.length ∧ 1 ≤ stp.blksz ∧ 2 * data.length + 68 ≤ fuel
  | .fetch params => (∃ b, m params.handle = some (.block b)) ∧ 1 ≤ params.streamOpts.blksz
  | .mapping virt _ => m virt = none

/-- A message fits into the receive buffer, and a compressed block into the one of its stream. -/
def FitsBuffers (lzo : Lzo) (m : Table) : StoreRequest → Prop
  | .allocate _ extra => 32 + extra.length ≤ recvbufsz
  | .memput _ stp data => stp.Fits lzo data
  | .fetch params => ∀ b, m params.handle = some (.block b) → params.streamOpts.Fits lzo b
  | .mapping _ _ => True

end StoreRequest

variable {Cl : Type} {s s' : State Cl} {m : Table} {lzo : Lzo} {fuel : ℕ} {lib : OpenCl Cl}

/-- The two sets know as much of an id as the table says. -/
def State.Knows (s : State Cl) (id : GlobalId) : Option Entry → Prop
  | none => id ∉ s.idMap ∧ id ∉ s.allocations
  | some (.object real) => s.idMap.lookup id = some real ∧ id ∉ s.allocations
  | some (.block b) => ∃ a, s.Holds id a b

/-- The provider keeps the table: an id is that of an allocation in both sets or in neither, and
every allocation has its own block. -/
structure Refines (s : State Cl) (m : Table) : Prop where
  sound : s.Sound
  knows : ∀ id, s.Knows id (m id)
  apart : ∀ id id' a a', s.allocations.lookup id = some a → s.allocations.lookup id' = some a' →
    a.ptr = a'.ptr → id = id'

/-- What is known of an id depends on its entries and its block only. -/
theorem State.Knows.of_same {id : GlobalId} {e : Option Entry} (h : s.Knows id e)
    (hi : s'.idMap.lookup id = s.idMap.lookup id)
    (ha : s'.allocations.lookup id = s.allocations.lookup id)
    (hm : ∀ a, s.allocations.lookup id = some a → s'.mem a.ptr = s.mem a.ptr) :
    s'.Knows id e := by
  have hid : id ∈ s'.idMap ↔ id ∈ s.idMap := by rw [IdSet.mem_iff, IdSet.mem_iff, hi]
  have hal : id ∈ s'.allocations ↔ id ∈ s.allocations := by rw [IdSet.mem_iff, IdSet.mem_iff, ha]
  cases e with
  | none => exact ⟨fun hmem => h.1 (hid.mp hmem), fun hmem => h.2 (hal.mp hmem)⟩
  | some e =>
    cases e with
    | object real => exact ⟨hi.trans h.1, fun hmem => h.2 (hal.mp hmem)⟩
    | block b =>
      obtain ⟨a, hh⟩ := h
      exact ⟨a, ha.trans hh.allocation, hi.trans hh.mapping, (hm a hh.allocation).trans hh.block,
        hh.length, hh.ptr⟩

theorem Refines.update (h : Refines s m) (hs : s'.Sound) {id₀ : GlobalId} {e : Option Entry}
    (hi : ∀ id, id ≠ id₀ → s'.idMap.lookup id = s.idMap.lookup id)
    (ha : ∀ id, id ≠ id₀ → s'.allocations.lookup id = s.allocations.lookup id)
    (hm : ∀ id, id ≠ id₀ → ∀ a, s.allocations.lookup id = some a → s'.mem a.ptr = s.mem a.ptr)
    (hself : s'.Knows id₀ e)
    (hown : ∀ id, id ≠ id₀ → ∀ a a', s.allocations.lookup id = some a →
      s'.allocations.lookup id₀ = some a' → a.ptr ≠ a'.ptr) :
    Refines s' (Function.update m id₀ e) where
  sound := hs
  knows id := by
    by_cases hid : id = id₀
    · rw [hid, Function.update_self]
      exact hself
    · rw [Function.update_of_ne hid]
      exact (h.knows id).of_same (hi id hid) (ha id hid) (hm id hid)
  apart id id' a a' hl hl' hp := by
    by_cases hid : id = id₀
    · by_cases hid' : id' = id₀
      · rw [hid, hid']
      · rw [ha id' hid'] at hl'
        rw [hid] at hl
        exact absurd hp.symm (hown id' hid' a' a hl' hl)
    · rw [ha id hid] at hl
      by_cases hid' : id' = id₀
      · rw [hid'] at hl'
        exact absurd hp (hown id hid a a' hl hl')
      · rw [ha id' hid'] at hl'
        exact h.apart id id' a a' hl hl' hp

theorem Refines.allocated (h : Refines s m) {params : AllocateRequest} {b : Bytes}
    (hnew : m params.handle = none)
    (hsize : params.nmemb.toNat * params.size.toNat < 2 ^ 64)
    (hlen : b.length = params.nmemb.toNat * params.size.toNat) {ptr : Arg} (hptr : ptr ≠ 0)
    (hown : ∀ id a, s.allocations.lookup id = some a → a.ptr ≠ ptr) :
    Refines (s.allocated params ptr b)
      (Function.update m params.handle (some (.block b))) := by
  have hk := h.knows params.handle
  rw [hnew] at hk
  obtain ⟨hv, ha⟩ := hk
  have hholds := State.holds_allocated _ params hsize ha hv hptr hlen
  apply h.update (h.sound.allocated ha hv ptr b)
  · intro id hid
    rw [State.allocated, IdSet.lookup_add hv, if_neg hid]
  · intro id hid
    rw [State.allocated, IdSet.lookup_add ha, if_neg hid]
  · intro id _ a hlook
    exact Memory.put_of_ne _ (hown id a hlook) _
  · exact ⟨_, hholds⟩
  · intro id _ a a' hlook hlook'
    rw [hholds.allocation] at hlook'
    rw [← Option.some.inj hlook']
    exact hown id a hlook

theorem Refines.wrote (h : Refines s m) {dst : Handle} {a : Allocation} {b b' : Bytes}
    (ha : s.Holds dst a b) (hlen : b'.length = b.length) :
    Refines (s.wrote a.ptr b') (Function.update m dst (some (.block b'))) := by
  apply h.update (h.sound.wrote a.ptr b')
  · exact fun _ _ => rfl
  · exact fun _ _ => rfl
  · intro id hid c hlook
    exact Memory.put_of_ne _ (fun hp => hid (h.apart id dst c a hlook ha.allocation hp)) _
  · exact ⟨a, ha.allocation, ha.mapping, Memory.put_self .., hlen.trans ha.length, ha.ptr⟩
  · intro id hid c c' hlook hlook' hp
    exact hid (h.apart id dst c c' hlook hlook' hp)

theorem Refines.freed (h : Refines s m) {handle : Handle} {a : Allocation} {b : Bytes}
    (ha : s.Holds handle a b) : Refines (s.freed handle a) (Function.update m handle none) := by
  apply h.update (h.sound.freed handle a)
  · intro id hid
    rw [State.freed, IdSet.lookup_erase, if_neg hid]
  · intro id hid
    rw [State.freed, IdSet.lookup_erase, if_neg hid]
  · intro id hid c hlook
    exact Memory.put_of_ne _ (fun hp => hid (h.apart id handle c a hlook ha.allocation hp)) _
  · constructor
    · simp [State.freed]
    · simp [State.freed]
  · intro id _ c c' _ hlook'
    rw [State.freed, IdSet.lookup_erase, if_pos rfl] at hlook'
    cases hlook'

theorem Refines.mapped (h : Refines s m) {virt : GlobalId} (hnew : m virt = none) (real : Arg) :
    Refines (s.mapped virt real) (Function.update m virt (some (.object real))) := by
  have hk := h.knows virt
  rw [hnew] at hk
  obtain ⟨hv, ha⟩ := hk
  apply h.update (h.sound.mapped hv real)
  · intro id hid
    rw [State.mapped, IdSet.lookup_add hv, if_neg hid]
  · exact fun _ _ => rfl
  · exact fun _ _ _ _ => rfl
  · exact ⟨by rw [State.mapped, IdSet.lookup_add hv, if_pos rfl], ha⟩
  · intro id _ a a' _ hlook'
    exact absurd (IdSet.mem_of_lookup hlook') ha

theorem Refines.took (h : Refines s m) (msg : Bytes) : Refines (s.took msg) m :=
  ⟨h.sound.took msg, fun id => (h.knows id).of_same rfl rfl fun _ _ => rfl, h.apart⟩

theorem Refines.holds (h : Refines s m) {handle : Handle} {b : Bytes}
    (hm : m handle = some (.block b)) : ∃ a, s.Holds handle a b := by
  have hk := h.knows handle
  rwa [hm] at hk

theorem length_contents {params : AllocateRequest} {extra : Bytes}
    (hextra : extra = [] ∨ extra.length = params.nmemb.toNat * params.size.toNat) :
    (if extra = [] then List.replicate (params.nmemb.toNat * params.size.toNat) 0
      else extra).length = params.nmemb.toNat * params.size.toNat := by
  split_ifs with h
  · rw [List.length_replicate]
  · exact hextra.resolve_left h

/-- The provider serves an admissible message as the table says. -/
theorem Refines.step (hl : lzo.Correct) (h : Refines s m) (r : StoreRequest)
    (hr : r.Admissible fuel s m) (hfits : r.FitsBuffers lzo m) :
    ∃ s', Works lzo fuel lib (r.records lzo) (r.response lzo m) s s' ∧
      Refines s' (r.apply m) := by
  cases r with
  | allocate params extra =>
    obtain ⟨hnew, hsize, hextra, hptr, hown⟩ := hr
    have hm : 32 + extra.length ≤ recvbufsz := hfits
    have hk := h.knows params.handle
    rw [hnew] at hk
    have hcontents : allocateContents (s.took (params.bytes ++ extra)) params (32 + extra.length) =
        if extra = [] then List.replicate (params.nmemb.toNat * params.size.toNat) 0
        else extra := by
      split_ifs with hnil
      · rw [allocateContents, hnil, List.length_nil, Nat.add_zero, if_pos rfl]
      · exact allocateContents_took s hm (List.length_pos_iff.mpr hnil) (hextra.resolve_left hnil)
    have hbuf : extra = [] ∨ 32 + params.nmemb.toNat * params.size.toNat ≤ recvbufsz := by
      refine hextra.imp_right fun hlen => ?_
      rwa [← hlen]
    have hw : Works lzo fuel lib _ _ s _ := works_allocate h.sound hm hsize hbuf hptr hk.2 hk.1
    rw [hcontents] at hw
    exact ⟨_, hw, (h.took _).allocated hnew hsize (length_contents hextra) hptr hown⟩
  | memput params stp data =>
    obtain ⟨⟨b, hb, hoff⟩, hlen, hblk, hfuel⟩ := hr
    obtain ⟨a, ha⟩ := h.holds hb
    have happly : (StoreRequest.memput params stp data).apply m = Function.update m params.dst
        (some (.block (b.overwrite params.offset.toNat data))) := by
      rw [StoreRequest.apply, StoreRequest.id, StoreRequest.entry, hb]
      rfl
    rw [happly]
    refine ⟨_, works_memput hl hblk h.sound hfits ha.mapping ha.block hlen hoff hfuel, ?_⟩
    obtain ⟨a', ha'⟩ := (h.took params.bytes).holds hb
    obtain rfl : a' = a := Option.some.inj (ha'.allocation.symm.trans ha.allocation)
    exact (h.took params.bytes).wrote ha' (Bytes.length_overwrite hoff)
  | fetch params =>
    obtain ⟨⟨b, hb⟩, hblk⟩ := hr
    obtain ⟨a, ha⟩ := h.holds hb
    have hresponse : (StoreRequest.fetch params).response lzo m =
        fetchRecords lzo params.streamOpts b params.size := by
      rw [StoreRequest.response, hb]
    rw [hresponse]
    refine ⟨_, works_fetch h.sound hblk (hfits b hb) ha, ?_⟩
    obtain ⟨a', ha'⟩ := (h.took params.bytes).holds hb
    obtain rfl : a' = a := Option.some.inj (ha'.allocation.symm.trans ha.allocation)
    exact (h.took params.bytes).freed ha'
  | mapping virt real =>
    have hk := h.knows virt
    have hnew : m virt = none := hr
    rw [hnew] at hk
    exact ⟨_, works_mapping h.sound real hk.1, (h.took _).mapped hnew real⟩

/-- Every message meets a condition in the state that those before it leave. -/
def Each (lzo : Lzo) (fuel : ℕ) (lib : OpenCl Cl) (P : State Cl → Table → StoreRequest → Prop)
    (s : State Cl) (m : Table) : List StoreRequest → Prop
  | [] => True
  | r :: rs => P s m r ∧ ∀ s', Works lzo fuel lib (r.records lzo) (r.response lzo m) s s' →
      Each lzo fuel lib P s' (r.apply m) rs

/-- The provider serves one message after the other, and keeps the table in every state that it
reaches. -/
inductive Served (lzo : Lzo) (fuel : ℕ) (lib : OpenCl Cl) :
    State Cl → Table → List StoreRequest → Prop
  | nil {s : State Cl} {m : Table} (h : Refines s m) : Served lzo fuel lib s m []
  | cons {s s' : State Cl} {m : Table} {r : StoreRequest} {rs : List StoreRequest}
      (h : Refines s m) (hw : Works lzo fuel lib (r.records lzo) (r.response lzo m) s s')
      (hs : Served lzo fuel lib s' (r.apply m) rs) : Served lzo fuel lib s m (r :: rs)

theorem Refines.served (hl : lzo.Correct) (h : Refines s m) {rs : List StoreRequest}
    (hrs : Each lzo fuel lib (fun s m r => r.Admissible fuel s m ∧ r.FitsBuffers lzo m) s m rs) :
    Served lzo fuel lib s m rs := by
  induction rs generalizing s m with
  | nil => exact .nil h
  | cons r rs ih =>
    obtain ⟨⟨hr, hfits⟩, hrest⟩ := hrs
    obtain ⟨s', hw, hs'⟩ := h.step hl r hr hfits
    exact .cons h hw (ih hs' (hrest s' hw))

/-- Before the first message only the platforms and devices are known. -/
def Table.initial (platforms : List Platform) : Table := fun id =>
  ((registrations platforms).lookup id).map .object

theorem refines_initial (lib : OpenCl Cl) {platforms : List Platform} (hp : Registered platforms)
    (addresses : ℕ → Arg) :
    Refines (State.initial lib platforms addresses) (.initial platforms) where
  sound := ⟨IdSet.damaged_ofList hp, rfl,
    fun _ _ h => absurd (IdSet.mem_of_lookup h) (IdSet.not_mem_empty _)⟩
  knows id := by
    have hlook : (State.initial lib platforms addresses).idMap.lookup id =
        (registrations platforms).lookup id := IdSet.lookup_ofList hp id
    rw [Table.initial]
    cases hid : (registrations platforms).lookup id with
    | none => exact ⟨IdSet.not_mem_iff.mpr (hlook.trans hid), IdSet.not_mem_empty id⟩
    | some real => exact ⟨hlook.trans hid, IdSet.not_mem_empty id⟩
  apart _ _ _ _ h := absurd (IdSet.mem_of_lookup h) (IdSet.not_mem_empty _)

theorem registered_nil : Registered [] := List.nodup_nil

/-- The provider's allocations are a store of bytes, from its start on and over any sequence of
messages that fit. -/
theorem served_initial (hl : lzo.Correct) (lib : OpenCl Cl) {platforms : List Platform}
    (hp : Registered platforms) (addresses : ℕ → Arg) (rs : List StoreRequest)
    (hrs : Each lzo fuel lib (fun s m r => r.Admissible fuel s m ∧ r.FitsBuffers lzo m)
      (.initial lib platforms addresses) (.initial platforms) rs) :
    Served lzo fuel lib (.initial lib platforms addresses) (.initial platforms) rs :=
  (refines_initial lib hp addresses).served hl hrs

theorem callocs_initial {lib : OpenCl Cl} {platforms : List Platform} {addresses : ℕ → Arg}
    (h : addresses 0 ≠ 0) : StoreRequest.Callocs (State.initial lib platforms addresses) :=
  ⟨h, fun _ _ hlook => absurd (IdSet.mem_of_lookup hlook) (IdSet.not_mem_empty _)⟩

/-- Eight bytes are allocated, two of them replaced, and all fetched. -/
theorem served_eight_bytes :
    Served literalLzo 100 silentCl (.initial silentCl [] fun _ => 4096) (.initial [])
      [.allocate ⟨5, 1, 8, 0⟩ [], .memput ⟨5, 3, 2, 0⟩ .default [7, 9],
        .fetch ⟨5, 8, 0, .default⟩] := by
  have hfits : ∀ b, StreamOptions.default.Fits literalLzo b := fun b =>
    StreamOptions.fits literalLzo_correct (by decide) (by decide) b
  apply served_initial literalLzo_correct silentCl registered_nil
  have hbuf : 32 + 0 ≤ recvbufsz := by decide
  refine ⟨⟨⟨rfl, by decide, .inl rfl, callocs_initial (by decide)⟩, hbuf⟩, fun s₁ _ => ?_⟩
  refine ⟨⟨⟨⟨_, rfl, by decide⟩, by decide, by decide, by decide⟩, hfits _⟩, fun s₂ _ => ?_⟩
  exact ⟨⟨⟨⟨_, rfl⟩, by decide⟩, fun b _ => hfits b⟩, fun _ _ => trivial⟩

/-- A block size for which the size of the buffer for compressed blocks wraps around to zero. -/
def wrappingOpts : StreamOptions := ⟨streamFormatLzo1x1, 0xf0f0f0f0f0f0f0b2⟩

/-- A fetch of eight bytes with that block size. -/
theorem not_served_wrapping : ¬ ∀ rs,
    Each literalLzo 100 silentCl (fun s m r => r.Admissible 100 s m)
      (.initial silentCl [] fun _ => 4096) (.initial []) rs →
    Served literalLzo 100 silentCl (.initial silentCl [] fun _ => 4096) (.initial []) rs := by
  intro h
  have hserved := h [.allocate ⟨5, 1, 8, 0⟩ [], .fetch ⟨5, 8, 0, wrappingOpts⟩]
    ⟨⟨rfl, by decide, .inl rfl, callocs_initial (by decide)⟩,
      fun s₁ _ => ⟨⟨⟨_, rfl⟩, by decide⟩, fun _ _ => trivial⟩⟩
  cases hserved with
  | cons _ _ hserved =>
    cases hserved with
    | cons hs₁ hw _ =>
      obtain ⟨a, ha⟩ : ∃ a, State.Holds _ 5 a (List.replicate 8 0) := hs₁.holds rfl
      have hnot : ¬ wrappingOpts.Fits literalLzo (List.replicate 8 0) := by
        intro hfit
        have hle := (hfit.take (by decide) (by decide) rfl).2
        revert hle
        decide
      have hbreaks : Breaks literalLzo 100 silentCl
          [.msg Msg.fetchRequest (FetchRequest.bytes ⟨5, 8, 0, wrappingOpts⟩)] _ _ :=
        breaks_fetch hs₁.sound (by decide) (by decide) hnot ha
      exact hbreaks.not_works hw

end Clara.Provider
