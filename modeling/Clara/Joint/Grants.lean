import Clara.Joint.RoundTrip

/-! Allocations of a consumer at a provider, of any size and one after the other: when there is a
handle, and what it stands for. -/
namespace Clara.Joint

open Conc

variable {Cl : Type} {g : Session Cl} {x : Trio Cl} {y : Pair Cl} {provider : Agent.Provider}

/-- The consumer can allocate memory at the provider of the hint. -/
structure Grants (g : Session Cl) (provider : Agent.Provider) (x : Trio Cl) (y : Pair Cl)
    (hint : GlobalId) : Prop where
  ready : Ready g provider x y
  hints : Hints g.p x.pair.agent hint
  tables : Agent.Serviceable x.pair.agent
  consumer : (x.pair.agent.heap .consumer g.c).isSome

/-- The size does not overflow, the data fills the memory if there is any, and the request fits into
the buffers that it is received in. -/
structure Fills (nmemb size : UInt64) (data : Bytes) : Prop where
  small : nmemb.toNat * size.toNat < 2 ^ 64
  full : data = [] ∨ data.length = nmemb.toNat * size.toNat
  fits : 32 + data.length ≤ Agent.recvbufsz

/-- The two processes when the provider has made an allocation. -/
def Pair.granted (y : Pair Cl) (nmemb size : UInt64) (data : Bytes) (hint : GlobalId) : Pair Cl :=
  let params : AllocateRequest := ⟨y.agent.nextId, nmemb, size, hint⟩
  (y.onAgent Agent.State.withId).served ((y.provider.took (params.bytes ++ data)).allocated params
      (y.provider.addresses y.provider.draws) (params.contents data))
    [.msg Msg.allocateRequest (params.bytes ++ data)]
    [.msg Msg.allocateResponse (Bytes.word y.agent.nextId)]

/-- The id that the agent draws next can be a handle: neither the agent nor the provider has it. -/
def Pair.Admits (y : Pair Cl) : Prop := y.agent.nextId ∉ y.agent.sets .idPool ∧ y.Unknown

/-- The handle stands for a block with these contents. -/
def Pair.Has (y : Pair Cl) (handle : Handle) (ptr : Arg) (b : Bytes) : Prop :=
  y.provider.idMap.lookup handle = some ptr ∧ y.provider.mem ptr = some b

section
variable {nmemb size : UInt64} {data : Bytes} {hint : GlobalId}

theorem Grants.works (h : Grants g provider x y hint) (hf : Fills nmemb size data)
    (hm : y.provider.addresses y.provider.draws ≠ 0) (hnew : y.Unknown) :
    let params : AllocateRequest := ⟨y.agent.nextId, nmemb, size, hint⟩
    g.Works [.msg Msg.allocateRequest (params.bytes ++ data)]
      [.msg Msg.allocateResponse (Bytes.word y.agent.nextId)] y.provider
      ((y.provider.took (params.bytes ++ data)).allocated params
        (y.provider.addresses y.provider.draws) (params.contents data)) := by
  intro params
  have hm' : 32 + data.length ≤ Provider.recvbufsz := hf.fits
  have hcontents : Provider.allocateContents (y.provider.took (params.bytes ++ data)) params
      (32 + data.length) = params.contents data := by
    by_cases hnil : data = []
    · rw [Provider.allocateContents, hnil, List.length_nil, Nat.add_zero, if_pos rfl,
        AllocateRequest.contents_nil]
      rfl
    · have hlen : data.length = params.length := hf.full.resolve_left hnil
      rw [Provider.allocateContents_took _ hm' (List.length_pos_iff.mpr hnil) hlen,
        AllocateRequest.contents_of_le hlen.ge, ← hlen, List.take_length]
  have hextra : data = [] ∨ 32 + params.nmemb.toNat * params.size.toNat ≤ Provider.recvbufsz := by
    apply hf.full.imp_right
    intro hlen
    show 32 + nmemb.toNat * size.toNat ≤ _
    rw [← hlen]
    exact hm'
  have hworks : g.Works [.msg Msg.allocateRequest (params.bytes ++ data)]
      [.msg Msg.allocateResponse (Bytes.word params.handle)] y.provider _ :=
    Provider.works_allocate h.ready.sound hm' hf.small hextra hm hnew.1 hnew.2
  rwa [hcontents] at hworks

theorem Grants.call_allocate (h : Grants g provider x y hint) (hf : Fills nmemb size data)
    (hm : y.provider.addresses y.provider.draws ≠ 0) (hnew : y.Admits) :
    call g (Consumer.consumerAllocate nmemb size (some data) hint) x =
      .done ⟨.wire [] [], y.granted nmemb size data hint⟩ y.agent.nextId := by
  obtain ⟨consumer, hc⟩ := Option.isSome_iff_exists.mp h.consumer
  have hb := h.tables
  have hrun := h.ready.run_handleAllocate hb.usable_objects hb.usable_pool hc
    ⟨invalidHandle, nmemb, size, hint⟩ rfl h.hints hnew.1 (h.works hf hm hnew.2)
  exact h.ready.idle.call_consumerAllocate (z := y.granted nmemb size data hint) hf.fits
    h.ready.conn h.ready.phase hrun

theorem Grants.granted (h : Grants g provider x y hint) (hnew : y.Admits)
    (nmemb size : UInt64) (data : Bytes) :
    Grants g provider ⟨.wire [] [], y.granted nmemb size data hint⟩
      (y.granted nmemb size data hint) hint := by
  obtain ⟨n, hx⟩ := h.ready.exists_agent
  let params : AllocateRequest := ⟨y.agent.nextId, nmemb, size, hint⟩
  have hknown : params.handle ∉ (y.provider.took (params.bytes ++ data)).allocations := hnew.2.1
  have hsound := (h.ready.sound.took (params.bytes ++ data)).allocated hknown hnew.2.2
    (y.provider.addresses y.provider.draws) (params.contents data)
  have hready := Ready.of_quiet (z := y.granted nmemb size data hint)
    ⟨h.ready.settles.quiet.agent, rfl⟩ h.ready.conn h.ready.phase (h.ready.attached.of_heap rfl)
    (hsound.withNet _)
  have hhints := h.hints
  have hconsumer := h.consumer
  have hb := h.tables
  rw [hx] at hhints hb hconsumer
  refine ⟨hready, ?_, ?_, hconsumer⟩
  · obtain ⟨hne, a, o, hlookup, ho, hp⟩ := hhints
    refine ⟨hne, a, o, ?_, ho, hp⟩
    show (y.agent.withId.sets .objects).lookup hint = some a
    rw [y.agent.withId_sets_of_ne (by nofun)]
    exact hlookup
  · have hb' : Agent.Serviceable y.agent := hb.withNet y.agent.net
    exact hb'.withId hnew.1

/-- With an id that is in use there is no handle: one of the two processes stops. -/
theorem Grants.call_refused (h : Grants g provider x y hint) (hf : Fills nmemb size data)
    (hm : y.provider.addresses y.provider.draws ≠ 0) (hold : ¬ y.Admits) :
    ∃ f, call g (Consumer.consumerAllocate nmemb size (some data) hint) x = .fault f := by
  obtain ⟨consumer, hc⟩ := Option.isSome_iff_exists.mp h.consumer
  have hb := h.tables
  obtain ⟨n, hx⟩ := h.ready.exists_agent
  by_cases hid : y.agent.nextId ∈ y.agent.sets .idPool
  · obtain ⟨hne, a, o, ha, -⟩ := h.hints
    have hid' : x.pair.agent.nextId ∈ x.pair.agent.sets .idPool := by
      rw [hx]
      exact hid
    have hrun : Agent.run (.consumer g.c)
        (Agent.handleAllocate g.c ⟨invalidHandle, nmemb, size, hint⟩ data) x.pair.agent =
        .fault .freedMemory :=
      Agent.run_handleAllocate_collision hc rfl hne hb.usable_objects ha hb.usable_pool hid'
    refine ⟨_, h.ready.idle.consumerAllocate_fault hf.fits (f := .agent .freedMemory) ?_⟩
    rw [run_alone (by rw [hrun]; nofun), hrun]
    rfl
  · have hused : y.agent.nextId ∈ y.provider.allocations ∨ y.agent.nextId ∈ y.provider.idMap := by
      by_contra hno
      exact hold ⟨hid, not_or.mp hno⟩
    obtain ⟨f, hbreaks⟩ : ∃ f, g.Breaks [.msg Msg.allocateRequest
        (AllocateRequest.bytes ⟨y.agent.nextId, nmemb, size, hint⟩ ++ data)] f y.provider :=
      Provider.breaks_allocate h.ready.sound ⟨y.agent.nextId, nmemb, size, hint⟩ hf.fits hf.small
        hm hused
    have hrun := h.ready.run_handleAllocate_breaks hb.usable_objects hb.usable_pool hc
      ⟨invalidHandle, nmemb, size, hint⟩ rfl h.hints hid hbreaks
    exact ⟨_, h.ready.idle.consumerAllocate_fault hf.fits hrun⟩

theorem Pair.has_granted (y : Pair Cl) (nmemb size : UInt64) (data : Bytes) (hint : GlobalId)
    (hnew : y.Admits) :
    (y.granted nmemb size data hint).Has y.agent.nextId
      (y.provider.addresses y.provider.draws)
      (AllocateRequest.contents ⟨y.agent.nextId, nmemb, size, hint⟩ data) := by
  constructor
  · show (y.provider.idMap.add _ _).lookup _ = _
    rw [IdSet.lookup_add hnew.2.2, if_pos rfl]
  · exact Provider.Memory.put_self _ _ _

/-- Data that fills the memory is what the block holds. -/
theorem Pair.has_granted_full (hnew : y.Admits) (hlen : data.length = nmemb.toNat * size.toNat) :
    (y.granted nmemb size data hint).Has y.agent.nextId
      (y.provider.addresses y.provider.draws) data := by
  have hhas := y.has_granted nmemb size data hint hnew
  have hfull : data.length =
      AllocateRequest.length ⟨y.agent.nextId, nmemb, size, hint⟩ := hlen
  rwa [AllocateRequest.contents_of_le hfull.ge, ← hfull, List.take_length] at hhas

theorem Pair.Has.granted {handle : Handle} {ptr : Arg} {b : Bytes} (h : y.Has handle ptr b)
    (hnew : y.Admits) (hptr : ptr ≠ y.provider.addresses y.provider.draws) :
    (y.granted nmemb size data hint).Has handle ptr b := by
  have hne : handle ≠ y.agent.nextId := by
    rintro rfl
    exact hnew.2.2 (IdSet.mem_of_lookup h.1)
  constructor
  · show (y.provider.idMap.add _ _).lookup _ = _
    rw [IdSet.lookup_add hnew.2.2, if_neg hne, h.1]
  · exact (Provider.Memory.put_of_ne _ hptr _).trans h.2

end

def drawn (s : Agent.State) (i : ℕ) : GlobalId := (s.candidates (s.draws + i)).val

/-- The block that the provider gets from `calloc` after `i` others. -/
def Pair.block (y : Pair Cl) (i : ℕ) : Arg := y.provider.addresses (y.provider.draws + i)

/-- The next `n` ids that the agent draws can be handles, one after the other. -/
structure Pair.Draws (y : Pair Cl) (n : ℕ) : Prop where
  pool : ∀ i < n, drawn y.agent i ∉ y.agent.sets .idPool
  allocations : ∀ i < n, drawn y.agent i ∉ y.provider.allocations
  idMap : ∀ i < n, drawn y.agent i ∉ y.provider.idMap
  distinct : ∀ i j, i < j → j < n → drawn y.agent i ≠ drawn y.agent j

/-- There is memory for the next `n` blocks that the provider asks `calloc` for, which are apart from
each other. -/
structure Pair.HasRoom (y : Pair Cl) (n : ℕ) : Prop where
  memory : ∀ i < n, y.block i ≠ 0
  apart : ∀ i j, i < j → j < n → y.block i ≠ y.block j

section
variable {nmemb size : UInt64} {data : Bytes} {hint : GlobalId} {n : ℕ}

theorem drawn_granted (y : Pair Cl) (nmemb size : UInt64) (data : Bytes) (hint : GlobalId)
    (i : ℕ) : drawn (y.granted nmemb size data hint).agent i = drawn y.agent (i + 1) := by
  show (y.agent.candidates (y.agent.draws + 1 + i)).val = _
  rw [Nat.add_assoc, Nat.add_comm 1 i]
  rfl

theorem Pair.granted_pool (hnew : y.Admits) (id : GlobalId) :
    id ∉ (y.granted nmemb size data hint).agent.sets .idPool ↔
      id ≠ drawn y.agent 0 ∧ id ∉ y.agent.sets .idPool := by
  have hsets : (y.granted nmemb size data hint).agent.sets .idPool =
      (y.agent.sets .idPool).add y.agent.nextId 0 :=
    { y.agent with draws := y.agent.draws + 1 }.putSet_sets_self _
  rw [hsets, IdSet.mem_add hnew.1, not_or]
  rfl

theorem Pair.granted_allocations (hnew : y.Admits) (id : GlobalId) :
    id ∉ (y.granted nmemb size data hint).provider.allocations ↔
      id ≠ drawn y.agent 0 ∧ id ∉ y.provider.allocations := by
  show id ∉ y.provider.allocations.add y.agent.nextId _ ↔ _
  rw [IdSet.mem_add hnew.2.1, not_or]
  rfl

theorem Pair.granted_idMap (hnew : y.Admits) (id : GlobalId) :
    id ∉ (y.granted nmemb size data hint).provider.idMap ↔
      id ≠ drawn y.agent 0 ∧ id ∉ y.provider.idMap := by
  show id ∉ y.provider.idMap.add y.agent.nextId _ ↔ _
  rw [IdSet.mem_add hnew.2.2, not_or]
  rfl

/-- The first id, and the others when it has been drawn. -/
theorem Pair.draws_succ (y : Pair Cl) (nmemb size : UInt64) (data : Bytes) (hint : GlobalId)
    (n : ℕ) : y.Draws (n + 1) ↔ y.Admits ∧ (y.granted nmemb size data hint).Draws n := by
  constructor
  · intro h
    have hnew : y.Admits :=
      ⟨h.pool 0 n.succ_pos, h.allocations 0 n.succ_pos, h.idMap 0 n.succ_pos⟩
    have hne : ∀ i < n, drawn y.agent (i + 1) ≠ drawn y.agent 0 := fun i hi =>
      (h.distinct 0 (i + 1) i.succ_pos (Nat.succ_lt_succ hi)).symm
    refine ⟨hnew, fun i hi => ?_, fun i hi => ?_, fun i hi => ?_, fun i j hij hj => ?_⟩
    · rw [drawn_granted, granted_pool hnew]
      exact ⟨hne i hi, h.pool _ (Nat.succ_lt_succ hi)⟩
    · rw [drawn_granted, granted_allocations hnew]
      exact ⟨hne i hi, h.allocations _ (Nat.succ_lt_succ hi)⟩
    · rw [drawn_granted, granted_idMap hnew]
      exact ⟨hne i hi, h.idMap _ (Nat.succ_lt_succ hi)⟩
    · rw [drawn_granted, drawn_granted]
      exact h.distinct _ _ (Nat.succ_lt_succ hij) (Nat.succ_lt_succ hj)
  · rintro ⟨hnew, h⟩
    have hpool : ∀ i < n, drawn y.agent (i + 1) ≠ drawn y.agent 0 ∧
        drawn y.agent (i + 1) ∉ y.agent.sets .idPool := by
      intro i hi
      have hi' := h.pool i hi
      rwa [drawn_granted, granted_pool hnew] at hi'
    constructor
    · intro i hi
      cases i with
      | zero => exact hnew.1
      | succ i => exact (hpool i (Nat.lt_of_succ_lt_succ hi)).2
    · intro i hi
      cases i with
      | zero => exact hnew.2.1
      | succ i =>
        have hi' := h.allocations i (Nat.lt_of_succ_lt_succ hi)
        rw [drawn_granted, granted_allocations hnew] at hi'
        exact hi'.2
    · intro i hi
      cases i with
      | zero => exact hnew.2.2
      | succ i =>
        have hi' := h.idMap i (Nat.lt_of_succ_lt_succ hi)
        rw [drawn_granted, granted_idMap hnew] at hi'
        exact hi'.2
    · intro i j hij hj
      obtain ⟨j, rfl⟩ := Nat.exists_eq_succ_of_ne_zero (Nat.ne_of_gt (Nat.zero_lt_of_lt hij))
      cases i with
      | zero => exact (hpool j (Nat.lt_of_succ_lt_succ hj)).1.symm
      | succ i =>
        have hne := h.distinct i j (Nat.lt_of_succ_lt_succ hij) (Nat.lt_of_succ_lt_succ hj)
        rwa [drawn_granted, drawn_granted] at hne

theorem block_granted (y : Pair Cl) (nmemb size : UInt64) (data : Bytes) (hint : GlobalId)
    (i : ℕ) : (y.granted nmemb size data hint).block i = y.block (i + 1) := by
  show y.provider.addresses (y.provider.draws + 1 + i) = _
  rw [Nat.add_assoc, Nat.add_comm 1 i]
  rfl

theorem Pair.HasRoom.granted (h : y.HasRoom (n + 1)) (nmemb size : UInt64) (data : Bytes)
    (hint : GlobalId) : (y.granted nmemb size data hint).HasRoom n := by
  constructor
  · intro i hi
    rw [block_granted]
    exact h.memory _ (Nat.succ_lt_succ hi)
  · intro i j hij hj
    rw [block_granted, block_granted]
    exact h.apart _ _ (Nat.succ_lt_succ hij) (Nat.succ_lt_succ hj)

end

end Clara.Joint
