import Mathlib.Data.Set.Insert
import Clara.Agent.Frame
import Clara.Agent.Store
import Clara.Common.Rpc

/-! The handles of a consumer's allocations in the agent: only ALLOCATE and FETCH requests without
a hint change them, each by one handle. -/
namespace Clara.Agent

open Conc

/-- What a consumer's thread touches as it executes a request, the connections to providers
apart. -/
def Area.silent : List Area :=
  [.look, .visit, .scratch, .answer, .lock, .count, .object, .reserve, .release]

/-- What an EXECUTE request touches before it is answered. -/
def Area.execution : List Area :=
  [.look, .visit, .scratch, .wire, .lock, .count, .object, .reserve, .release]

section
variable {S : List Area} {K : (α : Type) → AProg α → Prop}

/-- Where all that an EXECUTE request touches is allowed. -/
theorem Passes.executes (hK : Passes S K) (hS : Area.execution ⊆ S) (lzo : Lzo) (fuel : ℕ)
    (c : Addr) : Executes lzo fuel c S K := by
  have hsub : ∀ {R : List Area}, R ⊆ Area.execution → R ⊆ S := fun hR _ h => hS (hR h)
  have hobject : ∀ p realId id, K _ (objectCreate p realId id) :=
    passes_objectCreate hK (hsub (by decide))
  exact {
    toPasses := hK
    clCreateObject := fun target localId => passes_clCreateObject hK (hsub (by decide))
      (hS (by decide)) (hS (by decide)) hobject target c localId _
    agentGenericMapEvent := fun n params target => passes_agentGenericMapEvent hK
      (hsub (by decide)) (hS (by decide)) (hS (by decide)) hobject n params target c
    clRetainObject := passes_clRetainObject hK (hsub (by decide)) c
    clReleaseObject := passes_clReleaseObject hK (hsub (by decide)) c
    agentRemoteExecute := passes_agentRemoteExecute hK (hsub (by decide))
    agentDeviceIsAvailable := passes_agentDeviceIsAvailable hK (hsub (by decide))
      (hS (by decide)) lzo fuel }

theorem all_agentExecute (lzo : Lzo) (fuel : ℕ) (c : Addr) (params : ExecuteRequest) :
    (agentExecute lzo fuel params c).All fun o => o.area ∈ Area.execution :=
  executes_agentExecute ((passes_all Area.execution).executes (List.Subset.refl _) lzo fuel c)
    (by decide) params

end

/-- The handles of the consumer's allocations. -/
def State.handles (s : State) (c : Addr) : Set Handle := {handle | handle ∈ s.sets (.allocations c)}

section
variable {t : Tid} {s s' : State} {c : Addr} {α : Type} {S : List Area} {p : AProg α} {a : α}

theorem State.handles_eq (h : s'.sets (.allocations c) = s.sets (.allocations c)) :
    s'.handles c = s.handles c := by
  rw [State.handles, State.handles, h]

/-- Operations on other parts leave the allocations alone. -/
theorem exec_allocations {o : Op} {x : o.Res} (h : exec t o s = .done s' x)
    (hmade : o.area ≠ .allocation) (hentered : o.area ≠ .allocated) :
    s'.sets (.allocations c) = s.sets (.allocations c) ∧
      s'.heap .allocation = s.heap .allocation := by
  have hchange := change_of_done h
  constructor
  · exact hchange.sets hentered hentered hmade
  · funext b
    obtain hsame | ⟨r, v, -, -, -⟩ := hchange.heap (k := .allocation) hmade b
    · exact hsame
    · exact v.elim

theorem run_allocations (hp : p.All fun o => o.area ∈ S) (hmade : .allocation ∉ S)
    (hentered : .allocated ∉ S) (h : run t p s = .done s' a) :
    s'.sets (.allocations c) = s.sets (.allocations c) ∧
      s'.heap .allocation = s.heap .allocation := by
  refine Prog.All.run_keeps (I := fun s₁ => s₁.sets (.allocations c) = s.sets (.allocations c) ∧
    s₁.heap .allocation = s.heap .allocation) ?_ hp h ⟨rfl, rfl⟩
  intro o s₁ s₂ r ho hexec hs₁
  have hout : ∀ area, area ∉ S → o.area ≠ area := fun area ha heq => ha (heq ▸ ho)
  obtain ⟨hsets, hheap⟩ := exec_allocations (c := c) hexec (hout _ hmade) (hout _ hentered)
  exact ⟨hsets.trans hs₁.1, hheap.trans hs₁.2⟩

/-- A program that sends nothing and waits for nothing leaves the connections alone. -/
theorem run_conns (hp : p.All fun o => o.area ∈ S) (hanswer : .answer ∉ S) (hwire : .wire ∉ S)
    (harrival : .arrival ∉ S) (h : run t p s = .done s' a) : s'.net = s.net := by
  refine Prog.All.run_keeps (I := fun s₁ => s₁.net = s.net) ?_ hp h rfl
  intro o s₁ s₂ r ho hexec hs₁
  have hout : ∀ area, area ∉ S → o.area ≠ area := fun area ha heq => ha (heq ▸ ho)
  rw [← hs₁]
  funext sd
  refine exec_conn hexec ?_ (hout _ harrival)
  cases sd with
  | listener => exact hout _ hanswer
  | consumer c => exact hout _ hanswer
  | provider p => exact hout _ hwire

theorem idCreate_returns : idCreate.Returns (· ≠ invalidId) := by
  have hloop : ∀ n, (idCreateLoop n).Returns (· ≠ invalidId) := by
    intro n
    induction n with
    | zero => exact nofun
    | succ n ih =>
      intro candidate b
      cases b with
      | true => exact candidate.2
      | false => exact ih
  exact hloop 2

theorem idCreate_ne {id : GlobalId} (h : run t idCreate s = .done s' id) : id ≠ invalidId :=
  idCreate_returns.run h

theorem run_setInsert_done {r : SetRef} {key : r.Key} {d : Addr} {b : Bool}
    (h : run t (setInsert r key d) s = .done s' b) :
    s' = s.putSet r ((s.sets r).add key d) ∧ b = decide (key ∉ s.sets r) := by
  have hexec : exec t (.setInsert r key d) s = .done s' b := (Prog.run_perform _ _ _ _).symm.trans h
  obtain ⟨hs, hb, -⟩ := exec_setInsert_done hexec
  exact ⟨hs, hb⟩

theorem run_free_done {k : Kind} {a : Addr} {x : Unit} (h : run t (free k a) s = .done s' x) :
    s' = s.put k a none := by
  obtain ⟨r, -, rfl⟩ := exec_free_done ((Prog.run_perform _ _ _ _).symm.trans h)
  rfl

theorem run_assert_bind_done {β : Type} {b : Bool} {x : Assertion} {f : Unit → AProg β} {y : β}
    (h : run t (assert b x >>= f) s = .done s' y) : b = true ∧ run t (f ()) s = .done s' y := by
  cases b with
  | true => exact ⟨rfl, h⟩
  | false => cases h

theorem claraCreateAllocation_done {params : AllocateRequest} {allocation : Addr}
    (h : run t (claraCreateAllocation params) s = .done s' allocation) :
    s'.net = s.net ∧ s'.sets = s.sets ∧
      ∃ al, s'.heap .allocation allocation = some al ∧ al.handle = params.handle := by
  obtain ⟨s₁, ptr, hcalloc, hrest⟩ := run_bind_done h
  have hsame : s₁.net = s.net ∧ s₁.sets = s.sets := by
    rw [run_calloc] at hcalloc
    split_ifs at hcalloc
    · obtain ⟨rfl, -⟩ := Outcome.done.inj hcalloc
      exact ⟨rfl, rfl⟩
    · obtain ⟨rfl, -⟩ := Outcome.done.inj hcalloc
      exact ⟨rfl, rfl⟩
  have hnew : run t (new .allocation ⟨params.handle, params.nmemb, params.size, ptr⟩) s₁ =
      .done s' allocation := hrest
  rw [run_new] at hnew
  obtain ⟨rfl, rfl⟩ := Outcome.done.inj hnew
  refine ⟨hsame.1, hsame.2, _, s₁.put_heap_self (k := .allocation) _ _, ?_⟩
  rfl

/-- A new allocation is entered under the handle in its record, which is new and not the invalid
one. -/
theorem allocateLocal_done {params : AllocateRequest} {extra : Bytes} {allocation : Addr}
    (h : run t (allocateLocal c params extra) s = .done s' allocation) :
    s'.net = s.net ∧ ∃ al, s'.heap .allocation allocation = some al ∧ al.handle ≠ invalidHandle ∧
      al.handle ∉ s.handles c ∧ s'.handles c = insert al.handle (s.handles c) := by
  obtain ⟨s₁, id, hid, hrest⟩ := run_bind_done h
  obtain ⟨s₂, a, hcreate, hrest⟩ := run_bind_done hrest
  obtain ⟨s₃, b, hinsert, hrest⟩ := run_bind_done hrest
  obtain ⟨hb, hlast⟩ := run_assert_bind_done hrest
  have hreserve := passes_idCreate (passes_all [.look, .reserve]) (by decide)
  obtain ⟨hsets₁, -⟩ := run_allocations (c := c) hreserve (by decide) (by decide) hid
  have hnet₁ := run_conns hreserve (by decide) (by decide) (by decide) hid
  obtain ⟨hnet₂, hsets₂, al, hal, hhandle⟩ := claraCreateAllocation_done hcreate
  obtain ⟨rfl, rfl⟩ := run_setInsert_done hinsert
  have hnew : id ∉ s₂.sets (.allocations c) := of_decide_eq_true hb
  have hkeeps : ∀ p : AProg Addr, (p.All fun o => o.area ∈ [Area.look, .scratch]) →
      p.Returns (· = a) → run t p (s₂.putSet (.allocations c)
        ((s₂.sets (.allocations c)).add id a)) = .done s' allocation →
      s'.net = s.net ∧ ∃ al, s'.heap .allocation allocation = some al ∧
        al.handle ≠ invalidHandle ∧ al.handle ∉ s.handles c ∧
          s'.handles c = insert al.handle (s.handles c) := by
    intro p hp hret hrun
    obtain rfl := hret.run hrun
    obtain ⟨hsets, hheap⟩ := run_allocations (c := c) hp (by decide) (by decide) hrun
    have hnet := run_conns hp (by decide) (by decide) (by decide) hrun
    rw [State.putSet_sets_self] at hsets
    rw [hsets₂] at hsets hnew
    rw [hsets₁] at hsets hnew
    have hhandles : s'.handles c = insert id (s.handles c) := by
      ext handle
      show handle ∈ s'.sets (.allocations c) ↔ _
      rw [hsets, IdSet.mem_add hnew]
      rfl
    have hentry : s'.heap .allocation allocation = some al := by
      rw [hheap]
      exact hal
    have hid' : al.handle = id := hhandle
    refine ⟨hnet.trans (hnet₂.trans hnet₁), al, hentry, ?_⟩
    rw [hid']
    exact ⟨idCreate_ne hid, hnew, hhandles⟩
  have hK := passes_all [.look, .scratch]
  refine hkeeps _ ?_ ?_ hlast
  · apply passes_ite (K := fun _ p => p.All fun o => o.area ∈ [Area.look, .scratch])
    · apply hK.bind (passes_assert hK _ _ (by decide))
      intro _
      apply hK.bind (passes_read hK _ _ (by decide))
      intro r
      apply hK.bind (passes_deref hK _ (by decide))
      intro ptr
      have hpoke : (poke (ptr2Arg (some ptr)) 0 extra).All fun o =>
          o.area ∈ [Area.look, Area.scratch] := by
        apply hK.bind (passes_read hK .buffer _ (by decide))
        intro buf
        apply passes_ite (K := fun _ p => p.All fun o => o.area ∈ [Area.look, Area.scratch])
        · exact passes_store hK .buffer _ _ (by decide)
        · exact passes_fail hK .overflow (by decide)
      exact hK.bind hpoke fun _ => hK.pure _
    · exact hK.pure _
  · split_ifs
    · exact Prog.Returns.bind _ fun _ => Prog.Returns.bind _ fun _ => Prog.Returns.bind _ fun _ =>
        Prog.Returns.bind _ fun _ => rfl
    · exact rfl

private theorem findFirst_done {k : Kind} {f : k.Rec → Bool} {l : List Addr} {a : Addr}
    (h : run t (findFirst (fun a => do
      let r ← read k a
      pure (f r)) l) s = .done s' (some a)) :
    s' = s ∧ ∃ r, s.heap k a = some r ∧ f r = true := by
  induction l with
  | nil => cases h
  | cons b l ih =>
    obtain ⟨s₁, x, htest, hrest⟩ := run_bind_done h
    obtain ⟨s₂, r, hread, hpure⟩ := run_bind_done htest
    obtain ⟨rfl, hr⟩ := run_read_done hread
    obtain ⟨rfl, rfl⟩ := Outcome.done.inj hpure
    cases hf : f r with
    | true =>
      rw [hf] at hrest
      obtain ⟨rfl, hx⟩ := Outcome.done.inj hrest
      obtain rfl := Option.some.inj hx
      exact ⟨rfl, r, hr, hf⟩
    | false =>
      rw [hf] at hrest
      exact ih hrest

theorem claraFindAllocation_done {handle : Handle} {x : Option Addr}
    (h : run t (claraFindAllocation c handle) s = .done s' x) :
    s'.net = s.net ∧ s'.handles c = s.handles c ∧
      ∀ a, x = some a → ∃ al, s'.heap .allocation a = some al ∧ al.handle = handle := by
  have hall := passes_claraFindAllocation (passes_all Area.lookup) (List.Subset.refl _) c handle
  have hnet := run_conns hall (by decide) (by decide) (by decide) h
  obtain ⟨hsets, -⟩ := run_allocations (c := c) hall (by decide) (by decide) h
  refine ⟨hnet, State.handles_eq hsets, ?_⟩
  rintro a rfl
  obtain ⟨s₁, l, hstart, hrest⟩ := run_bind_done h
  obtain ⟨s₂, x, hfind, hrest⟩ := run_bind_done hrest
  obtain ⟨s₃, _, hfinish, hpure⟩ := run_bind_done hrest
  obtain ⟨rfl, rfl⟩ := Outcome.done.inj hpure
  obtain ⟨rfl, al, hal, htest⟩ := findFirst_done hfind
  have hvisit := passes_setFinish (passes_all [.visit]) (.allocations c) (by decide)
  obtain ⟨-, hheap⟩ := run_allocations (c := c) hvisit (by decide) (by decide) hfinish
  refine ⟨al, ?_, eq_of_beq htest⟩
  rw [hheap]
  exact hal

theorem claraDestroyAllocation_done {a : Addr} {handle : Handle}
    (h : run t (claraDestroyAllocation a) s = .done s' handle) :
    s'.net = s.net ∧ s'.sets = s.sets := by
  obtain ⟨s₁, al, hread, hrest⟩ := run_bind_done h
  obtain ⟨rfl, -⟩ := run_read_done hread
  have hend : ∀ s₂ : State, run t (do
      free .allocation a
      pure al.handle) s₂ = .done s' handle → s'.net = s₂.net ∧ s'.sets = s₂.sets := by
    intro s₂ hlast
    obtain ⟨s₃, _, hfree, hpure⟩ := run_bind_done hlast
    obtain rfl := run_free_done hfree
    obtain ⟨rfl, -⟩ := Outcome.done.inj hpure
    exact ⟨rfl, rfl⟩
  cases hptr : al.ptr with
  | none =>
    rw [hptr] at hrest
    exact hend s₁ hrest
  | some ptr =>
    rw [hptr] at hrest
    obtain ⟨s₂, _, hfree, hlast⟩ := run_bind_done hrest
    obtain rfl := run_free_done hfree
    exact hend (s₁.put .buffer ptr none) hlast

private theorem releaseAllocation_done {handle : Handle} {a : Addr} {x y : Assertion}
    (h : run t (do
      assert (← setRemove (.allocations c) handle) x
      let oldHandle ← claraDestroyAllocation a
      assert (← idRelease oldHandle) y : AProg Unit) s = .done s' ()) :
    s'.net = s.net ∧ s'.handles c = s.handles c \ {handle} := by
  obtain ⟨s₁, b, hremove, hrest⟩ := run_bind_done h
  obtain ⟨-, hrest⟩ := run_assert_bind_done hrest
  obtain ⟨s₂, old, hdestroy, hrest⟩ := run_bind_done hrest
  obtain ⟨s₃, b', hrelease, hassert⟩ := run_bind_done hrest
  obtain ⟨rfl, -⟩ := run_assert_done hassert
  obtain ⟨rfl, -⟩ := exec_setRemove_done ((Prog.run_perform _ _ _ _).symm.trans hremove)
  obtain ⟨hnet, hsets⟩ := claraDestroyAllocation_done hdestroy
  have hpool := passes_idRelease (passes_all [.release]) (by decide) old
  have hnet' := run_conns hpool (by decide) (by decide) (by decide) hrelease
  obtain ⟨hsets', -⟩ := run_allocations (c := c) hpool (by decide) (by decide) hrelease
  refine ⟨hnet'.trans hnet, ?_⟩
  ext key
  show key ∈ s'.sets (.allocations c) ↔ _
  rw [hsets', hsets, State.putSet_sets_self, IdSet.mem_erase]
  exact and_comm

private theorem fetchBuffer_done {ptr : Option Addr} {n : UInt64} {buf : Bytes}
    (h : run t (if n = 0 then pure [] else do
      let ptr ← deref ptr
      let buf ← read .buffer ptr
      pure (buf.take n.toNat) : AProg Bytes) s = .done s' buf) :
    s' = s ∧ buf.length < 2 ^ 64 := by
  split_ifs at h with hzero
  · obtain ⟨rfl, rfl⟩ := Outcome.done.inj h
    exact ⟨rfl, Nat.two_pow_pos 64⟩
  · cases ptr with
    | none => cases h
    | some a =>
      have hread : run t (read .buffer a >>= fun buf => pure (buf.take n.toNat)) s =
          .done s' buf := h
      obtain ⟨s₁, block, hblock, hpure⟩ := run_bind_done hread
      obtain ⟨rfl, -⟩ := run_read_done hblock
      obtain ⟨rfl, rfl⟩ := Outcome.done.inj hpure
      refine ⟨rfl, ?_⟩
      rw [List.length_take]
      exact (min_le_left _ _).trans_lt (UInt64.toNat_lt _)

/-- A fetched allocation is gone; where bytes are asked for, it has been sent. -/
theorem fetchLocal_done {lzo : Lzo} {params : FetchRequest}
    (hblk : 0 < params.streamOpts.blksz.toNat) (hfit : ∀ b, params.streamOpts.Fits lzo b)
    (hf : (s.net (.consumer c)).sendFails = [])
    (h : run t (fetchLocal lzo c params) s = .done s' ()) :
    s'.handles c = s.handles c \ {params.handle} ∧ ∃ out, s'.net = s.net.push (.consumer c) out ∧
      (0 < params.size → Responds lzo params.streamOpts out) ∧
      (¬ 0 < params.size → out = []) := by
  obtain ⟨s₁, x, hfind, hrest⟩ := run_bind_done h
  obtain ⟨hnet₁, hhandles₁, hfound⟩ := claraFindAllocation_done hfind
  cases x with
  | none => cases hrest
  | some a =>
    obtain ⟨al, hal, hhandle⟩ := hfound a rfl
    obtain ⟨s₂, a', hderef, hafter⟩ := run_bind_done hrest
    obtain ⟨rfl, rfl⟩ := Outcome.done.inj hderef
    obtain ⟨s₂, r, hread, hlast⟩ := run_bind_done hafter
    obtain ⟨rfl, hr⟩ := run_read_done hread
    obtain rfl := Option.some.inj (hr.symm.trans hal)
    by_cases hsize : 0 < params.size
    · simp only [hsize, if_true] at hlast
      obtain ⟨s₃, buf, hload, hsent⟩ := run_bind_done hlast
      obtain ⟨rfl, hlen⟩ := fetchBuffer_done hload
      obtain ⟨s₄, b, hsend, hfree⟩ := run_bind_done hsent
      have hf₁ : (s₃.net (.consumer c)).sendFails = [] := by rw [hnet₁, hf]
      rw [run_claraSendFetchResponse hblk (hfit buf) hf₁] at hsend
      obtain ⟨rfl, -⟩ := Outcome.done.inj hsend
      obtain ⟨hnet, hhandles⟩ := releaseAllocation_done hfree
      refine ⟨?_, _, ?_, fun _ => ⟨buf, hlen, rfl⟩, fun hno => absurd hsize hno⟩
      · rw [hhandles, hhandle, ← hhandles₁]
        rfl
      · rw [hnet, State.withNet_net, hnet₁]
    · simp only [hsize, if_false] at hlast
      obtain ⟨hnet, hhandles⟩ := releaseAllocation_done hlast
      refine ⟨?_, [], ?_, fun hpos => absurd hpos hsize, fun _ => rfl⟩
      · rw [hhandles, hhandle, hhandles₁]
      · rw [hnet, hnet₁, Net.push_nil]

end

end Clara.Agent
