import Clara.Agent.Handlers
import Clara.Agent.Area

/-! Which parts of the agent each of its functions touches: a property that the operations on
some parts have is a property of the functions that stay within them. -/
namespace Clara.Agent

open Conc

/-- What the look-ups touch. -/
def Area.lookup : List Area := [.look, .visit, .scratch]

def Area.local : List Area := [.look, .visit, .scratch, .answer]

def Area.spoken : List Area := [.look, .wire]

def Area.wired : List Area := [.look, .lock, .wire]

/-- What a request that is passed on to a provider touches. -/
def Area.remote : List Area := [.look, .visit, .scratch, .answer, .lock, .wire]

/-- What the records of allocations touch. -/
def Area.memory : List Area := [.look, .visit, .scratch, .answer, .allocation]

def Area.store : List Area :=
  [.look, .visit, .scratch, .answer, .reserve, .release, .allocation, .allocated]

def Area.registry : List Area :=
  [.look, .visit, .scratch, .answer, .reserve, .release, .platform, .roster]

theorem Area.spoken_subset_wired : Area.spoken ⊆ Area.wired := by decide

theorem Area.wired_subset_remote : Area.wired ⊆ Area.remote := by decide

theorem Area.lookup_subset {S : List Area} (hS : Area.local ⊆ S) : Area.lookup ⊆ S := fun _ h =>
  hS ((by decide : Area.lookup ⊆ Area.local) h)

theorem Area.local_subset_remote : Area.local ⊆ Area.remote := by decide

theorem Area.local_subset_store : Area.local ⊆ Area.store := by decide

theorem Area.memory_subset_store : Area.memory ⊆ Area.store := by decide

theorem agentAnswer_forget (sd : Sd) (type : MessageType) :
    (do let _ ← agentAnswer (some sd) type : AProg Unit) =
      (do let _ ← net (claraSendmsg sd type []) : AProg Unit) := by
  rw [agentAnswer, Prog.bind_assoc']
  rfl

theorem agentNewProvider_eq (addr : UInt32) : agentNewProvider addr = (do
    match ← agentFindProviderWithAddr addr with
    | some _ =>
      let _ ← net (claraSendmsg .listener Msg.nack [])
    | none =>
      let provider ← providerCreate addr
      if ← providerAttach provider then
        setPhase (.provider provider) .registering
        let _ ← net (claraSendmsg (.provider provider) Msg.ack [])
      else
        let _ ← net (claraSendmsg (.provider provider) Msg.nack [])) := by
  unfold agentNewProvider agentMainProvider
  rw [Prog.bind_assoc']
  congr 1
  funext known
  cases known with
  | some p => exact agentAnswer_forget ..
  | none =>
    simp only
    rw [if_neg (by decide), if_neg (by decide), Prog.bind_assoc']
    congr 1
    funext provider
    rw [Prog.bind_assoc']
    congr 1
    funext attached
    cases attached with
    | false => exact agentAnswer_forget ..
    | true =>
      rw [if_pos rfl, if_pos rfl, if_neg (by decide), Prog.bind_assoc']
      congr 1

theorem agentNewConsumer_eq : agentNewConsumer = (do
    let consumer ← consumerCreate
    if ← consumerAttach consumer then
      setPhase (.consumer consumer) .serving
      let _ ← net (claraSendmsg (.consumer consumer) Msg.ack [])
    else
      let _ ← net (claraSendmsg (.consumer consumer) Msg.nack [])) := by
  unfold agentNewConsumer agentMainConsumer
  rw [if_neg (by decide), if_neg (by decide), Prog.bind_assoc']
  congr 1
  funext consumer
  rw [Prog.bind_assoc']
  congr 1
  funext attached
  cases attached with
  | false => exact agentAnswer_forget ..
  | true =>
    rw [if_pos rfl, if_pos rfl, if_neg (by decide), Prog.bind_assoc']
    congr 1

section
variable {S : List Area} {K : (α : Type) → AProg α → Prop} (hK : Passes S K)

include hK

theorem passes_findFirst {test : Addr → AProg Bool} (h : ∀ a, K _ (test a)) (l : List Addr) :
    K _ (findFirst test l) := by
  induction l with
  | nil => exact hK.pure none
  | cons a l ih => exact hK.bind (h a) fun _ => passes_ite (hK.pure _) ih

theorem passes_forEach {f : Addr → AProg Unit} (h : ∀ a, K _ (f a)) (l : List Addr) :
    K _ (forEach f l) := by
  induction l with
  | nil => exact hK.pure ()
  | cons a l ih => exact hK.bind (h a) fun _ => ih

end

section
variable {S : List Area} {K : (α : Type) → AProg α → Prop} (hK : Passes S K)
  (hS : Area.lookup ⊆ S)

include hK hS

theorem passes_poke (ptr : Arg) (off : ℕ) (b : Bytes) : K _ (poke ptr off b) :=
  hK.bind (passes_read hK _ _ (hS (by decide))) fun _ =>
    passes_ite (passes_store hK _ _ _ (hS (by decide))) (passes_fail hK _ (hS (by decide)))

theorem passes_pokeUint (ptr : Arg) (n : ℕ) : K _ (pokeUint ptr n) :=
  passes_ite (hK.pure ()) (passes_poke hK hS _ _ _)

theorem passes_pokeSize (ptr : Arg) (n : ℕ) : K _ (pokeSize ptr n) :=
  passes_ite (hK.pure ()) (passes_poke hK hS _ _ _)

/-- The search for a record of a certain kind in a set that is visited. -/
private theorem passes_search {k : Kind} (test : k.Rec → Bool) (l : List Addr) :
    K _ (findFirst (fun a => do
      let r ← read k a
      pure (test r)) l) :=
  passes_findFirst hK (fun _ => hK.bind (passes_read hK k _ (hS (by decide))) fun _ =>
    hK.pure _) l

theorem passes_claraFindAllocation (c : Addr) (handle : Handle) :
    K _ (claraFindAllocation c handle) :=
  hK.bind (passes_setStart hK _ (hS (by decide))) fun _ =>
    hK.bind (passes_search hK hS _ _) fun _ =>
      hK.bind (passes_setFinish hK _ (hS (by decide))) fun _ => hK.pure _

theorem passes_agentIdMap (c : Addr) (id : GlobalId) : K _ (agentIdMap c id) :=
  hK.bind (passes_claraFindAllocation hK hS c id) fun
    | none => passes_fail hK _ (hS (by decide))
    | some _ => hK.bind (passes_read hK _ _ (hS (by decide))) fun _ => hK.pure _

theorem passes_lbAddPlatform (platform : Addr) : K _ (lbAddPlatform platform) :=
  hK.bind (passes_read hK _ _ (hS (by decide))) fun _ =>
    passes_setInsert hK _ _ _ (hS (by decide))

theorem passes_lbRemovePlatform (platform : Addr) : K _ (lbRemovePlatform platform) :=
  hK.bind (passes_read hK _ _ (hS (by decide))) fun _ =>
    passes_setRemove hK _ _ (hS (by decide))

theorem passes_lbAllocatePlatform (c : Addr) : K _ (lbAllocatePlatform c) :=
  hK.bind (passes_setStart hK _ (hS (by decide))) fun _ =>
    hK.bind (passes_search hK hS _ _) fun
      | none => hK.bind (passes_setFinish hK _ (hS (by decide))) fun _ => hK.pure _
      | some _ => hK.bind (passes_store hK _ _ _ (hS (by decide))) fun _ =>
        hK.bind (passes_store hK _ _ _ (hS (by decide))) fun _ =>
          hK.bind (passes_setFinish hK _ (hS (by decide))) fun _ => hK.pure _

theorem passes_lbReleasePlatform (c : Addr) : K _ (lbReleasePlatform c) := by
  refine hK.bind (passes_read hK _ _ (hS (by decide))) fun r => ?_
  cases r.platform with
  | none => exact hK.pure _
  | some platform =>
    exact hK.bind (passes_read hK _ _ (hS (by decide))) fun _ =>
      passes_ite (hK.pure _) (hK.bind (passes_store hK _ _ _ (hS (by decide))) fun _ =>
        hK.bind (passes_store hK _ _ _ (hS (by decide))) fun _ => hK.pure _)

theorem passes_agentFindPlatformByLocalId (p : Addr) (id : Arg) :
    K _ (agentFindPlatformByLocalId p id) :=
  hK.bind (passes_setStart hK _ (hS (by decide))) fun _ =>
    hK.bind (passes_search hK hS _ _) fun _ =>
      hK.bind (passes_setFinish hK _ (hS (by decide))) fun _ => hK.pure _

private theorem passes_findPlatform (id : GlobalId) (x : Option Addr) (l : List Addr) :
    K _ (findPlatform id x l) := by
  induction l generalizing x with
  | nil => exact hK.pure x
  | cons p l ih =>
    exact hK.bind (passes_setStart hK _ (hS (by decide))) fun _ =>
      hK.bind (passes_search hK hS _ _) fun y =>
        hK.bind (passes_setFinish hK _ (hS (by decide))) fun _ => by
          cases y with
          | none => exact ih none
          | some a => exact hK.pure _

theorem passes_agentFindPlatformByGlobalId (id : GlobalId) :
    K _ (agentFindPlatformByGlobalId id) :=
  hK.bind (passes_setStart hK _ (hS (by decide))) fun _ => passes_ite
    (hK.bind (passes_setFinish hK _ (hS (by decide))) fun _ =>
      passes_fail hK _ (hS (by decide)))
    (hK.bind (passes_findPlatform hK hS _ _ _) fun _ =>
      hK.bind (passes_setFinish hK _ (hS (by decide))) fun _ => hK.pure _)

private theorem passes_findDevice (id : GlobalId) (l : List Addr) : K _ (findDevice id l) := by
  induction l with
  | nil => exact hK.pure none
  | cons p l ih =>
    exact hK.bind (passes_setStart hK _ (hS (by decide))) fun _ =>
      hK.bind (passes_search hK hS _ _) fun y =>
        hK.bind (passes_setFinish hK _ (hS (by decide))) fun _ => by
          cases y with
          | none => exact ih
          | some a => exact hK.pure _

private theorem passes_findDeviceOf (id : GlobalId) (l : List Addr) :
    K _ (findDeviceOf id l) := by
  induction l with
  | nil => exact hK.pure none
  | cons p l ih =>
    exact hK.bind (passes_setStart hK _ (hS (by decide))) fun _ =>
      hK.bind (passes_findDevice hK hS _ _) fun y =>
        hK.bind (passes_setFinish hK _ (hS (by decide))) fun _ => by
          cases y with
          | none => exact ih
          | some a => exact hK.pure _

theorem passes_agentFindDeviceByGlobalId (id : GlobalId) :
    K _ (agentFindDeviceByGlobalId id) :=
  hK.bind (passes_setStart hK _ (hS (by decide))) fun _ =>
    hK.bind (passes_findDeviceOf hK hS _ _) fun _ =>
      hK.bind (passes_setFinish hK _ (hS (by decide))) fun _ => hK.pure _

private theorem passes_countPlatforms (l : List Addr) : K _ (countPlatforms l) := by
  induction l with
  | nil => exact hK.pure 0
  | cons p l ih =>
    exact hK.bind (passes_read hK _ _ (hS (by decide))) fun _ =>
      hK.bind (passes_setCount hK _ (hS (by decide))) fun _ => hK.bind ih fun _ => hK.pure _

theorem passes_intSucc (i : ℕ) : K _ (intSucc i) :=
  passes_ite (hK.pure _) (passes_fail hK _ (hS (by decide)))

private theorem passes_putPlatforms (ptr : Arg) (n c : ℕ) (l : List Addr) :
    K _ (putPlatforms ptr n c l) := by
  induction l generalizing c with
  | nil => exact hK.pure c
  | cons p l ih =>
    exact passes_ite (hK.pure c) (hK.bind (passes_read hK _ _ (hS (by decide))) fun _ =>
      hK.bind (passes_poke hK hS _ _ _) fun _ => hK.bind (passes_intSucc hK hS _) fun _ => ih _)

private theorem passes_putPlatformsOf (ptr : Arg) (n c : ℕ) (l : List Addr) :
    K _ (putPlatformsOf ptr n c l) := by
  induction l generalizing c with
  | nil => exact hK.pure ()
  | cons p l ih =>
    exact passes_ite (hK.pure ()) (hK.bind (passes_setStart hK _ (hS (by decide))) fun _ =>
      hK.bind (passes_putPlatforms hK hS _ _ _ _) fun _ =>
        hK.bind (passes_setFinish hK _ (hS (by decide))) fun _ => ih _)

private theorem passes_putDevices (ptr : Arg) (n : ℕ) (type : UInt64) (b : ℕ) (l : List Addr) :
    K _ (putDevices ptr n type b l) := by
  induction l generalizing b with
  | nil => exact hK.pure ()
  | cons p l ih =>
    exact passes_ite (hK.pure ()) (hK.bind (passes_read hK _ _ (hS (by decide))) fun _ =>
      passes_ite (ih _) (hK.bind (passes_poke hK hS _ _ _) fun _ =>
        hK.bind (passes_intSucc hK hS _) fun _ => ih _))

theorem passes_claraPostClGetPlatformIDs (params : ExecuteRequest) (target : Option Addr)
    (c : Addr) : K _ (claraPostClGetPlatformIDs params target c) := by
  refine hK.bind (passes_loadBalancing hK (hS (by decide))) fun lb => passes_ite ?_ ?_
  · refine hK.bind (passes_read hK _ _ (hS (by decide))) fun r => ?_
    refine hK.bind (passes_ite (passes_lbAllocatePlatform hK hS c) (hK.pure _)) fun _ => ?_
    refine passes_ite ?_ (hK.bind (passes_pokeUint hK hS _ _) fun _ => hK.pure _)
    refine hK.bind (passes_pokeUint hK hS _ _) fun _ => passes_ite ?_ (hK.pure _)
    exact hK.bind (passes_read hK _ _ (hS (by decide))) fun _ =>
      hK.bind (passes_deref hK _ (hS (by decide))) fun _ =>
        hK.bind (passes_read hK _ _ (hS (by decide))) fun _ =>
          hK.bind (passes_poke hK hS _ _ _) fun _ => hK.pure _
  · have hlist : K _ (if params.argv 2 ≠ 0 then do
        let providers ← setStart .providers
        putPlatformsOf (params.argv 2) (params.argv 1).toUInt32.toNat 0 providers
        setFinish .providers
        pure (params.setArg 0 clSuccess)
      else pure (params.setArg 0 clSuccess)) :=
      passes_ite (hK.bind (passes_setStart hK _ (hS (by decide))) fun _ =>
        hK.bind (passes_putPlatformsOf hK hS _ _ _ _) fun _ =>
          hK.bind (passes_setFinish hK _ (hS (by decide))) fun _ => hK.pure _) (hK.pure _)
    exact passes_ite (hK.bind (passes_pokeUint hK hS _ _) fun _ =>
      hK.bind (passes_setStart hK _ (hS (by decide))) fun _ =>
        hK.bind (passes_countPlatforms hK hS _) fun _ =>
          hK.bind (passes_pokeUint hK hS _ _) fun _ =>
            hK.bind (passes_setFinish hK _ (hS (by decide))) fun _ => hlist) hlist

theorem passes_claraPostClGetPlatformInfo (params : ExecuteRequest) (target : Option Addr)
    (c : Addr) : K _ (claraPostClGetPlatformInfo params target c) :=
  hK.bind (passes_agentFindPlatformByGlobalId hK hS _) fun
    | none => hK.pure _
    | some _ => passes_ite (hK.bind (passes_read hK _ _ (hS (by decide))) fun _ =>
        hK.bind (passes_pokeSize hK hS _ _) fun _ => passes_ite (hK.pure _)
          (passes_ite (hK.pure _) (hK.bind (passes_poke hK hS _ _ _) fun _ => hK.pure _)))
      (hK.pure _)

theorem passes_claraPostClGetDeviceIDs (params : ExecuteRequest) (target : Option Addr)
    (c : Addr) : K _ (claraPostClGetDeviceIDs params target c) := by
  refine hK.bind (passes_pokeUint hK hS _ _) fun _ => passes_ite (hK.pure _) ?_
  refine hK.bind (passes_agentFindPlatformByGlobalId hK hS _) fun x => ?_
  cases x with
  | none => exact hK.pure _
  | some platform =>
    have hlist : K _ (if params.argv 4 ≠ 0 then do
        let l ← setStart (.devices platform)
        putDevices (params.argv 4) (params.argv 3).toUInt32.toNat (params.argv 2) 0 l
        setFinish (.devices platform)
        pure (params.setArg 0 clSuccess)
      else pure (params.setArg 0 clSuccess)) :=
      passes_ite (hK.bind (passes_setStart hK _ (hS (by decide))) fun _ =>
        hK.bind (passes_putDevices hK hS _ _ _ _ _) fun _ =>
          hK.bind (passes_setFinish hK _ (hS (by decide))) fun _ => hK.pure _) (hK.pure _)
    exact passes_ite (hK.bind (passes_setCount hK _ (hS (by decide))) fun _ =>
      hK.bind (passes_pokeUint hK hS _ _) fun _ => hlist) hlist

theorem passes_findHint (hint : GlobalId) (site : Assertion)
    (h : (Op.fail (.assertion site)).area ∈ S) : K _ (findHint hint site) :=
  hK.bind (passes_setFind hK _ _ (hS (by decide))) fun
    | none => passes_fail hK _ h
    | some _ => hK.pure _

theorem passes_executeOwner (hint : GlobalId) : K _ (executeOwner hint) :=
  passes_ite (hK.bind (passes_findHint hK hS hint _ (hS (by decide))) fun _ =>
    hK.bind (passes_read hK _ _ (hS (by decide))) fun _ => hK.pure _) (hK.pure _)

theorem passes_handleIdle (p : Addr) (hphase : K _ (setPhase (.provider p) .serving)) :
    K _ (handleIdle p) := by
  refine hK.bind (passes_read hK _ _ (hS (by decide))) fun _ => ?_
  refine hK.bind (passes_loadBalancing hK (hS (by decide))) fun _ => passes_ite ?_ hphase
  exact hK.bind (passes_setStart hK _ (hS (by decide))) fun _ =>
    hK.bind (passes_forEach hK (fun _ => hK.bind (passes_lbAddPlatform hK hS _) fun _ =>
      hK.pure _) _) fun _ => hK.bind (passes_setFinish hK _ (hS (by decide))) fun _ => hphase

end

section
variable {S : List Area} {K : (α : Type) → AProg α → Prop} (hK : Passes S K)
  (hS : Area.local ⊆ S)

include hK hS

private theorem passes_toConsumer {α : Type} {c : Addr} {p : NetProg Sd α}
    (h : p.On (· = Sd.consumer c)) : K α (net p) :=
  passes_net hK h (fun _ hsd => by subst hsd; exact hS (by decide : Area.answer ∈ _))
    (hS (by decide))

theorem passes_claraSendAllocateResponse (c : Addr) (handle : Handle) :
    K _ (net (claraSendAllocateResponse (.consumer c) handle)) :=
  passes_toConsumer hK hS (c := c) (on_claraSendAllocateResponse (T := (· = Sd.consumer c)) rfl _)

theorem passes_claraSendExecuteResponse (c : Addr) (retval : Arg) (successful : Bool) :
    K _ (net (claraSendExecuteResponse (.consumer c) retval successful)) :=
  passes_toConsumer hK hS (c := c) (on_sendRequest (T := (· = Sd.consumer c)) rfl _ _)

theorem passes_claraSendFetchResponse (lzo : Lzo) (c : Addr) (buf : Bytes)
    (opts : StreamOptions) : K _ (net (claraSendFetchResponse lzo (.consumer c) buf opts)) :=
  passes_toConsumer hK hS (c := c)
    (on_claraSendFetchResponse (T := (· = Sd.consumer c)) rfl _ _ _)

end

section
variable {S : List Area} {K : (α : Type) → AProg α → Prop} (hK : Passes S K)
  (hS : Area.spoken ⊆ S)

include hK hS

theorem passes_toProvider {α : Type} {p : Addr} {prog : NetProg Sd α}
    (h : prog.On (· = Sd.provider p)) : K α (net prog) :=
  passes_net hK h (fun _ hsd => by subst hsd; exact hS (by decide : Area.wire ∈ _))
    (hS (by decide))

theorem passes_agentRemoteMap (p : Addr) (real : Arg) (virt : GlobalId) :
    K _ (agentRemoteMap p real virt) :=
  hK.bind (passes_read hK _ _ (hS (by decide))) fun _ =>
    hK.bind (passes_toProvider hK hS (on_claraSendmsg rfl _ _)) fun
      | none => hK.pure _
      | some _ => hK.bind (passes_assert hK _ _ (hS (by decide))) fun _ => hK.pure _

theorem passes_claraSendExecuteRequest (p : Addr) (d : Arg) (argv : List Arg) (hint : GlobalId) :
    K _ (net (claraSendExecuteRequest (.provider p) d argv hint)) :=
  passes_toProvider hK hS (p := p) (on_sendRequest (T := (· = Sd.provider p)) rfl _ _)

theorem passes_claraRecvExecuteResponse (p : Addr) :
    K _ (net (claraRecvExecuteResponse (.provider p))) :=
  passes_toProvider hK hS (p := p) (on_recvWord (T := (· = Sd.provider p)) rfl)

theorem passes_claraRecvFetchResponse (lzo : Lzo) (fuel : ℕ) (p : Addr) (count : ℕ) :
    K _ (net (claraRecvFetchResponse lzo (.provider p) fuel count)) :=
  passes_toProvider hK hS (p := p)
    (on_claraRecvFetchResponse (T := (· = Sd.provider p)) rfl _ _ _)

theorem passes_claraSendMapatptrRequest (p : Addr) (virt ptr : GlobalId) :
    K _ (net (claraSendMapatptrRequest (.provider p) virt ptr)) :=
  passes_toProvider hK hS (p := p) (on_sendRequest (T := (· = Sd.provider p)) rfl _ _)

theorem passes_claraRecvMapatptrResponse (p : Addr) :
    K _ (net (claraRecvMapatptrResponse (.provider p))) :=
  passes_toProvider hK hS (p := p) (on_claraRecvMapatptrResponse (T := (· = Sd.provider p)) rfl)

theorem passes_claraSendFetchRequest (p : Addr) (src : Handle) (n : UInt64) (hint : GlobalId)
    (opts : Option StreamOptions) : K _ (claraSendFetchRequest (.provider p) src n hint opts) :=
  passes_ite (hK.pure _) (hK.bind (passes_deref hK _ (hS (by decide))) fun _ =>
    passes_toProvider hK hS (p := p)
      (on_claraSendFetchRequest (T := (· = Sd.provider p)) rfl _ _ _ _))

end

section
variable {S : List Area} {K : (α : Type) → AProg α → Prop} (hK : Passes S K)
  (hS : Area.wired ⊆ S)

include hK hS

omit hK in
private theorem wired_spoken : Area.spoken ⊆ S := fun _ h => hS (Area.spoken_subset_wired h)

theorem passes_providerLock (p : Addr) : K _ (providerLock p) :=
  hK.bind (passes_read hK _ _ (hS (by decide))) fun _ => passes_lockWait hK _ (hS (by decide))

theorem passes_providerUnlock (p : Addr) : K _ (providerUnlock p) :=
  hK.bind (passes_read hK _ _ (hS (by decide))) fun _ => passes_lockPost hK _ (hS (by decide))

omit hS in
/-- The end of a remote call: the word that was received. -/
private theorem passes_response (r : Received) (a : Assertion)
    (h : (Op.fail (.assertion a)).area ∈ S) : K (Option Arg) (match r.stored with
      | none => pure none
      | some b => do
        assert (b.length == 8) a
        pure (some (b.wordAt 0))) := by
  cases r.stored with
  | none => exact hK.pure none
  | some b => exact hK.bind (passes_assert hK _ _ h) fun _ => hK.pure _

theorem passes_agentRemoteAllocate (p : Addr) (params : AllocateRequest) (extra : Bytes) :
    K _ (agentRemoteAllocate p params extra) :=
  hK.bind (passes_providerLock hK hS p) fun _ =>
    hK.bind (passes_toProvider hK (wired_spoken hS) (on_claraSendmsg rfl _ _)) fun
      | none => hK.pure _
      | some _ => hK.bind (passes_toProvider hK (wired_spoken hS) (on_claraRecvmsg rfl _)) fun _ =>
        hK.bind (passes_providerUnlock hK hS p) fun _ => passes_response hK _ _ (hS (by decide))

theorem passes_agentRemoteExecute (p : Option Addr) (params : ExecuteRequest) :
    K _ (agentRemoteExecute p params) := by
  cases p with
  | none => exact hK.pure none
  | some p =>
    exact hK.bind (passes_providerLock hK hS p) fun _ =>
      hK.bind (passes_toProvider hK (wired_spoken hS) (on_claraSendmsg rfl _ _)) fun
        | none => hK.pure _
        | some _ => hK.bind (passes_toProvider hK (wired_spoken hS) (on_claraRecvmsg rfl _)) fun _ =>
          hK.bind (passes_providerUnlock hK hS p) fun _ =>
            passes_response hK _ _ (hS (by decide))

theorem passes_handlePing (p : Addr) (sec : UInt64) : K _ (handlePing p sec) :=
  hK.bind (passes_providerLock hK hS p) fun _ =>
    hK.bind (passes_toProvider hK (wired_spoken hS) (on_claraSendmsg rfl _ _)) fun _ =>
      hK.bind (passes_toProvider hK (wired_spoken hS) (on_claraRecvmsg rfl _)) fun _ =>
        passes_providerUnlock hK hS p

end

section
variable {S : List Area} {K : (α : Type) → AProg α → Prop} (hK : Passes S K)
  (hS : Area.remote ⊆ S)

include hK hS

omit hK in
private theorem remote_wired : Area.wired ⊆ S := fun _ h => hS (Area.wired_subset_remote h)

omit hK in
private theorem remote_spoken : Area.spoken ⊆ S := fun _ h =>
  remote_wired hS (Area.spoken_subset_wired h)

private theorem passes_anywhere {α : Type} {p : NetProg Sd α} (h : p.On fun _ => True) :
    K α (net p) := by
  refine passes_net hK h (fun sd _ => ?_) (hS (by decide))
  cases sd with
  | provider p => exact hS (by decide : Area.wire ∈ _)
  | consumer c => exact hS (by decide : Area.answer ∈ _)
  | listener => exact hS (by decide : Area.answer ∈ _)

theorem passes_claraSendmsg (sd : Sd) (type : MessageType) (msg : Bytes) :
    K _ (net (claraSendmsg sd type msg)) := passes_anywhere hK hS (on_claraSendmsg trivial _ _)

theorem passes_claraRecvmsg (sd : Sd) (len : ℕ) : K _ (net (claraRecvmsg sd len)) :=
  passes_anywhere hK hS (on_claraRecvmsg trivial _)

theorem passes_agentForwardFetchWith (whole : Received → Option (MessageType × Bytes))
    (wholeStart : Bytes → Option Bytes) (fuel : ℕ) (c p : Addr) (params : FetchRequest) :
    K _ (agentForwardFetchWith whole wholeStart fuel c p params) := by
  refine hK.bind (passes_providerLock hK (remote_wired hS) p) fun _ => ?_
  refine hK.bind (passes_claraSendmsg hK hS _ _ _) fun _ => ?_
  refine passes_ite ?_ (passes_providerUnlock hK (remote_wired hS) p)
  refine hK.bind (passes_claraRecvmsg hK hS _ _) fun r => ?_
  cases whole r with
  | none => exact hK.bind (passes_fail hK _ (hS (by decide))) fun _ =>
      passes_providerUnlock hK (remote_wired hS) p
  | some x =>
    exact hK.bind (passes_claraSendmsg hK hS _ _ _) fun _ =>
      hK.bind (passes_anywhere hK hS (on_streamForwardWith trivial trivial _ _)) fun _ =>
        passes_providerUnlock hK (remote_wired hS) p

theorem passes_agentForwardFetch (fuel : ℕ) (c p : Addr) (params : FetchRequest) :
    K _ (agentForwardFetch fuel c p params) := passes_agentForwardFetchWith hK hS _ _ fuel c p params

theorem passes_agentForwardMemput (fuel : ℕ) (c p : Addr) (params : MemputStreamParams) :
    K _ (agentForwardMemput fuel c p params) :=
  hK.bind (passes_providerLock hK (remote_wired hS) p) fun _ =>
    hK.bind (passes_claraSendmsg hK hS _ _ _) fun
      | none => passes_providerUnlock hK (remote_wired hS) p
      | some _ => hK.bind (passes_anywhere hK hS (on_streamForwardWith trivial trivial _ _)) fun _ =>
        passes_providerUnlock hK (remote_wired hS) p

end

section
variable {S : List Area} {K : (α : Type) → AProg α → Prop} (hK : Passes S K)
  (hS : [.look, .lock, .count] ⊆ S)

include hK hS

theorem passes_objectRetain (a c : Addr) : K _ (objectRetain a c) := by
  refine hK.bind (passes_read hK _ _ (hS (by decide))) fun o => ?_
  refine hK.bind (passes_lockWait hK _ (hS (by decide))) fun _ => ?_
  refine hK.bind (passes_read hK _ _ (hS (by decide))) fun o => passes_ite ?_ ?_
  · exact hK.bind (passes_lockPost hK _ (hS (by decide))) fun _ => hK.pure _
  · have hrest : K _ (do
        store .object a (.refcnt (o.refcnt + 1))
        lockPost o.lock
        pure true) :=
      hK.bind (passes_store hK _ _ _ (hS (by decide))) fun _ =>
        hK.bind (passes_lockPost hK _ (hS (by decide))) fun _ => hK.pure _
    exact passes_ite (hK.bind (passes_store hK _ _ _ (hS (by decide))) fun _ =>
      hK.bind (passes_setInsert hK _ _ _ (hS (by decide : Area.count ∈ _))) fun _ =>
        hK.bind (passes_assert hK _ _ (hS (by decide))) fun _ => hrest) hrest

theorem passes_objectRelease (a : Addr) : K _ (objectRelease a) := by
  refine hK.bind (passes_read hK _ _ (hS (by decide))) fun o => ?_
  refine hK.bind (passes_lockWait hK _ (hS (by decide))) fun _ => ?_
  refine hK.bind (passes_read hK _ _ (hS (by decide))) fun o => ?_
  refine hK.bind (passes_store hK _ _ _ (hS (by decide))) fun _ => ?_
  have hrest : K _ (do
      lockPost o.lock
      pure true) := hK.bind (passes_lockPost hK _ (hS (by decide))) fun _ => hK.pure _
  exact passes_ite (hK.bind (passes_deref hK _ (hS (by decide))) fun _ =>
    hK.bind (passes_setRemove hK _ _ (hS (by decide : Area.count ∈ _))) fun _ =>
      hK.bind (passes_assert hK _ _ (hS (by decide))) fun _ =>
        hK.bind (passes_store hK _ _ _ (hS (by decide))) fun _ => hrest) hrest

theorem passes_clRetainObject (c : Addr) (id : GlobalId) : K _ (clRetainObject c id) :=
  hK.bind (passes_read hK _ _ (hS (by decide))) fun _ =>
    hK.bind (passes_setFind hK _ _ (hS (by decide))) fun
      | none => hK.pure _
      | some _ => hK.bind (passes_objectRetain hK hS _ _) fun _ =>
        hK.bind (passes_assert hK _ _ (hS (by decide))) fun _ => hK.pure _

end

section
variable {S : List Area} {K : (α : Type) → AProg α → Prop} (hK : Passes S K)
  (hS : [.look, .reserve] ⊆ S)

include hK hS

theorem passes_idCreate : K _ idCreate := by
  have hloop : ∀ n, K _ (idCreateLoop n) := fun n => by
    induction n with
    | zero => exact passes_spin hK (hS (by decide))
    | succ n ih =>
      exact hK.bind (passes_rand hK (hS (by decide))) fun _ =>
        hK.bind (passes_setInsert hK _ _ _ (hS (by decide : Area.reserve ∈ _))) fun _ =>
          passes_ite (hK.pure _) ih
  exact hloop 2

omit hS in
theorem passes_idRelease (h : .release ∈ S) (id : GlobalId) : K _ (idRelease id) :=
  passes_setRemove hK .idPool id h

end

section
variable {S : List Area} {K : (α : Type) → AProg α → Prop} (hK : Passes S K)
  (hS : Area.memory ⊆ S)

include hK hS

theorem passes_claraCreateAllocation (params : AllocateRequest) :
    K _ (claraCreateAllocation params) := by
  refine hK.bind (passes_ite ?_ (hK.pure _)) fun _ => passes_new hK _ _ (hS (by decide))
  refine hK.bind (passes_memory hK _ (hS (by decide))) fun _ => ?_
  exact passes_ite (hK.bind (passes_new hK _ _ (hS (by decide))) fun _ => hK.pure _) (hK.pure _)

theorem passes_claraDestroyAllocation (a : Addr) : K _ (claraDestroyAllocation a) := by
  refine hK.bind (passes_read hK _ _ (hS (by decide))) fun r => ?_
  cases hp : r.ptr with
  | none =>
    exact hK.bind (passes_free hK _ _ (hS (by decide))) fun _ => hK.pure _
  | some ptr =>
    exact hK.bind (passes_free hK _ _ (hS (by decide))) fun _ =>
      hK.bind (passes_free hK _ _ (hS (by decide))) fun _ => hK.pure _

end

section
variable {S : List Area} {K : (α : Type) → AProg α → Prop} (hK : Passes S K)
  (hS : Area.store ⊆ S)

include hK hS

omit hK in
private theorem store_local : Area.local ⊆ S := fun _ h => hS (Area.local_subset_store h)

omit hK in
private theorem store_memory : Area.memory ⊆ S := fun _ h => hS (Area.memory_subset_store h)

omit hK in
private theorem store_reserve : [.look, .reserve] ⊆ S := fun _ h =>
  hS ((by decide : [.look, .reserve] ⊆ Area.store) h)

theorem passes_allocateLocal (c : Addr) (params : AllocateRequest) (extra : Bytes) :
    K _ (allocateLocal c params extra) := by
  refine hK.bind (passes_idCreate hK (store_reserve hS)) fun id => ?_
  refine hK.bind (passes_claraCreateAllocation hK (store_memory hS) _) fun a => ?_
  refine hK.bind (passes_setInsert hK _ _ _ (hS (by decide : Area.allocated ∈ _))) fun _ => ?_
  refine hK.bind (passes_assert hK _ _ (hS (by decide))) fun _ => passes_ite ?_ (hK.pure _)
  exact hK.bind (passes_assert hK _ _ (hS (by decide))) fun _ =>
    hK.bind (passes_read hK _ _ (hS (by decide))) fun _ =>
      hK.bind (passes_deref hK _ (hS (by decide))) fun _ =>
        hK.bind (passes_poke hK (Area.lookup_subset (store_local hS)) _ _ _) fun _ => hK.pure _

theorem passes_allocateUndo (c : Addr) (allocation : Option Addr) :
    K _ (allocateUndo c allocation) :=
  hK.bind (passes_deref hK _ (hS (by decide))) fun _ =>
    hK.bind (passes_read hK _ _ (hS (by decide))) fun _ =>
      hK.bind (passes_setRemove hK _ _ (hS (by decide : Area.allocated ∈ _))) fun _ =>
        hK.bind (passes_assert hK _ _ (hS (by decide))) fun _ =>
          hK.bind (passes_claraDestroyAllocation hK (store_memory hS) _) fun _ =>
            hK.bind (passes_idRelease hK (hS (by decide)) _) fun _ =>
              passes_assert hK _ _ (hS (by decide))

theorem passes_fetchLocal (lzo : Lzo) (c : Addr) (params : FetchRequest) :
    K _ (fetchLocal lzo c params) := by
  refine hK.bind (passes_claraFindAllocation hK (Area.lookup_subset (store_local hS)) _ _) fun x => ?_
  refine hK.bind (passes_deref hK _ (hS (by decide))) fun a => ?_
  refine hK.bind (passes_read hK _ _ (hS (by decide))) fun r => ?_
  have hrest : K _ (do
      assert (← setRemove (.allocations c) r.handle) .fetchRemove
      let oldHandle ← claraDestroyAllocation a
      assert (← idRelease oldHandle) .fetchId) :=
    hK.bind (passes_setRemove hK _ _ (hS (by decide : Area.allocated ∈ _))) fun _ =>
      hK.bind (passes_assert hK _ _ (hS (by decide))) fun _ =>
        hK.bind (passes_claraDestroyAllocation hK (store_memory hS) _) fun _ =>
          hK.bind (passes_idRelease hK (hS (by decide)) _) fun _ =>
            passes_assert hK _ _ (hS (by decide))
  refine passes_ite (hK.bind (passes_ite (hK.pure _) ?_) fun _ => ?_) hrest
  · exact hK.bind (passes_deref hK _ (hS (by decide))) fun _ =>
      hK.bind (passes_read hK _ _ (hS (by decide))) fun _ => hK.pure _
  · exact hK.bind (passes_claraSendFetchResponse hK (store_local hS) _ _ _ _) fun _ => hrest

end

section
variable {S : List Area} {K : (α : Type) → AProg α → Prop} (hK : Passes S K)
  (hS : Area.wired ⊆ S) (hpool : .reserve ∈ S)

include hK hS hpool

omit hK in
private theorem wired_reserve : [.look, .reserve] ⊆ S := fun x hx => by
  rcases List.mem_cons.mp hx with rfl | hx
  · exact hS (by decide)
  · rwa [List.mem_singleton.mp hx]

theorem passes_agentDeviceIsAvailable (lzo : Lzo) (fuel : ℕ) (device : Addr) :
    K _ (agentDeviceIsAvailable lzo fuel device) := by
  have hquery : ∀ p, K _ (queryAvailable lzo fuel device p) := fun p => by
    refine hK.bind (passes_read hK _ _ (hS (by decide))) fun _ => ?_
    refine hK.bind (passes_idCreate hK (wired_reserve hS hpool)) fun _ => ?_
    refine hK.bind (passes_agentRemoteAllocate hK hS _ _ _) fun x => ?_
    cases x with
    | none => exact hK.pure _
    | some result =>
      refine hK.bind (passes_claraSendExecuteRequest hK (wired_spoken hS) _ _ _ _) fun _ =>
        passes_ite ?_ (hK.pure _)
      refine hK.bind (passes_claraRecvExecuteResponse hK (wired_spoken hS) _) fun x => ?_
      cases x with
      | none => exact hK.pure _
      | some retval =>
        refine hK.bind (passes_claraSendFetchRequest hK (wired_spoken hS) _ _ _ _ _) fun _ =>
          passes_ite ?_ (hK.pure _)
        exact hK.bind (passes_claraRecvFetchResponse hK (wired_spoken hS) _ _ _ _) fun _ =>
          hK.pure _
  exact hK.bind (passes_read hK _ _ (hS (by decide))) fun _ =>
    passes_ite (hK.bind (passes_providerLock hK hS _) fun _ =>
      hK.bind (hquery _) fun _ =>
      hK.bind (passes_providerUnlock hK hS _) fun _ => hK.pure _) (hK.pure _)

end

theorem passes_allocateRemote {S : List Area} {K : (α : Type) → AProg α → Prop} (hK : Passes S K)
    (hS : Area.remote ⊆ S) (hpool : .reserve ∈ S) (params : AllocateRequest) (extra : Bytes) :
    K _ (allocateRemote params extra) := by
  have hlookup : Area.lookup ⊆ S := Area.lookup_subset fun _ h => hS (Area.local_subset_remote h)
  exact hK.bind (passes_findHint hK hlookup _ _ (hS (by decide))) fun _ =>
    hK.bind (passes_idCreate hK (wired_reserve (remote_wired hS) hpool)) fun _ =>
      hK.bind (passes_read hK _ _ (hS (by decide))) fun _ =>
        hK.bind (passes_agentRemoteAllocate hK (remote_wired hS) _ _ _) fun _ => hK.pure _

theorem passes_objectCreate {S : List Area} {K : (α : Type) → AProg α → Prop} (hK : Passes S K)
    (hS : [.look, .lock, .object] ⊆ S) (p : Addr) (realId : Arg) (id : GlobalId) :
    K _ (objectCreate p realId id) := by
  refine passes_ite (hK.pure _) ?_
  refine hK.bind (passes_new hK _ _ (hS (by decide : Area.lock ∈ _))) fun _ => ?_
  refine hK.bind (passes_new hK _ _ (hS (by decide : Area.object ∈ _))) fun _ => ?_
  refine hK.bind (passes_read hK _ _ (hS (by decide))) fun _ => ?_
  refine hK.bind (passes_setInsert hK _ _ _ (hS (by decide : Area.object ∈ _))) fun _ => ?_
  exact hK.bind (passes_assert hK _ _ (hS (by decide))) fun _ => hK.pure _

section
variable {S : List Area} {K : (α : Type) → AProg α → Prop} (hK : Passes S K)
  (hS : [.look, .lock, .count, .object, .release] ⊆ S)

include hK hS

theorem passes_objectDestroy (a : Addr) : K _ (objectDestroy a) := by
  apply hK.bind (passes_read hK _ _ (hS (by decide)))
  intro o
  apply passes_ite (hK.pure _)
  apply hK.bind (passes_read hK _ _ (hS (by decide)))
  intro _
  apply hK.bind (passes_setRemove hK _ _ (hS (by decide : Area.object ∈ _)))
  intro _
  apply hK.bind (passes_assert hK _ _ (hS (by decide)))
  intro _
  apply hK.bind (passes_free hK _ _ (hS (by decide : Area.object ∈ _)))
  intro _
  apply hK.bind (passes_lockPost hK _ (hS (by decide)))
  intro _
  have hdestroy : K _ (lockDestroy o.lock) :=
    hK.bind (passes_lockWait hK _ (hS (by decide))) fun _ =>
      passes_free hK _ _ (hS (by decide : Area.lock ∈ _))
  exact hK.bind hdestroy fun _ => hK.pure _

theorem passes_clReleaseObject (c : Addr) (id : GlobalId) : K _ (clReleaseObject c id) := by
  have hcount : [.look, .lock, .count] ⊆ S := fun x hx => hS (List.mem_append_left _ hx)
  apply hK.bind (passes_read hK _ _ (hS (by decide)))
  intro _
  apply hK.bind (passes_setFind hK _ _ (hS (by decide)))
  intro obj
  cases obj with
  | none => exact hK.pure _
  | some obj =>
    apply hK.bind (passes_read hK _ _ (hS (by decide)))
    intro o
    apply hK.bind (passes_lockWait hK _ (hS (by decide)))
    intro _
    apply hK.bind (passes_objectRelease hK hcount _)
    intro _
    apply hK.bind (passes_read hK _ _ (hS (by decide)))
    intro o
    apply passes_ite
    · apply hK.bind (passes_read hK _ _ (hS (by decide)))
      intro _
      apply hK.bind (passes_idRelease hK (hS (by decide)) _)
      intro _
      apply hK.bind (passes_assert hK _ _ (hS (by decide)))
      intro _
      apply hK.bind (passes_objectDestroy hK hS _)
      intro _
      exact hK.bind (passes_assert hK _ _ (hS (by decide))) fun _ => hK.pure _
    · exact hK.bind (passes_lockPost hK _ (hS (by decide))) fun _ => hK.pure _

end

section
variable {S : List Area} {K : (α : Type) → AProg α → Prop} (hK : Passes S K)
  (hS : Area.wired ⊆ S) (hp : .reserve ∈ S) (hc : .count ∈ S)
  (hobject : ∀ p realId id, K _ (objectCreate p realId id))

include hK hS hp hc hobject

theorem passes_clCreateObject (target : Option Addr) (c : Addr) (localId : Arg)
    (wish : GlobalId) : K _ (clCreateObject target c localId wish) := by
  have hcount : [.look, .lock, .count] ⊆ S := fun x hx => by
    rcases List.mem_cons.mp hx with rfl | hx
    · exact hS (by decide)
    rcases List.mem_cons.mp hx with rfl | hx
    · exact hS (by decide)
    · rwa [List.mem_singleton.mp hx]
  refine hK.bind (passes_deref hK _ (hS (by decide))) fun p => ?_
  refine hK.bind (passes_read hK _ _ (hS (by decide))) fun _ => passes_ite (hK.pure _) ?_
  refine hK.bind (passes_ite (passes_idCreate hK (wired_reserve hS hp)) (hK.pure _)) fun id => ?_
  refine hK.bind (hobject _ _ _) fun x => ?_
  cases x with
  | none => exact passes_fail hK _ (hS (by decide))
  | some obj =>
    refine hK.bind (passes_objectRetain hK hcount _ _) fun _ => ?_
    refine hK.bind (passes_assert hK _ _ (hS (by decide))) fun _ => passes_ite ?_ (hK.pure _)
    exact hK.bind (passes_agentRemoteMap hK (wired_spoken hS) _ _ _) fun _ => hK.pure _

theorem passes_agentGenericMapEvent (n : ℕ) (params : ExecuteRequest) (target : Option Addr)
    (c : Addr) : K _ (agentGenericMapEvent n params target c) := by
  refine passes_ite (hK.pure _) ?_
  refine hK.bind (passes_deref hK _ (hS (by decide))) fun p => ?_
  refine hK.bind (passes_read hK _ _ (hS (by decide))) fun _ => ?_
  refine hK.bind (passes_idCreate hK (wired_reserve hS hp)) fun virt => ?_
  refine hK.bind (passes_providerLock hK hS _) fun _ => ?_
  refine hK.bind (passes_claraSendMapatptrRequest hK (wired_spoken hS) _ _ _) fun _ => ?_
  refine hK.bind (passes_assert hK _ _ (hS (by decide))) fun _ => ?_
  refine hK.bind (passes_claraRecvMapatptrResponse hK (wired_spoken hS) _) fun x => ?_
  cases x with
  | none => exact passes_fail hK _ (hS (by decide))
  | some real =>
    exact hK.bind (passes_clCreateObject hK hS hp hc hobject _ _ _ _) fun _ =>
      hK.bind (passes_assert hK _ _ (hS (by decide))) fun _ =>
        hK.bind (passes_providerUnlock hK hS _) fun _ => hK.pure _

end

section
variable {S : List Area} {K : (α : Type) → AProg α → Prop} (hK : Passes S K)
  (hS : [.look, .visit, .release, .platform, .roster] ⊆ S)

include hK hS

theorem passes_deviceDestroy (device : Addr) : K _ (deviceDestroy device) :=
  hK.bind (passes_read hK _ _ (hS (by decide))) fun _ =>
    hK.bind (passes_read hK _ _ (hS (by decide))) fun _ =>
      hK.bind (passes_idRelease hK (hS (by decide)) _) fun _ =>
        hK.bind (passes_assert hK _ _ (hS (by decide))) fun _ => passes_free hK _ _ (hS (by decide))

theorem passes_platformDestroy (platform : Addr) : K _ (platformDestroy platform) := by
  refine hK.bind (passes_read hK _ _ (hS (by decide))) fun _ => ?_
  refine hK.bind (passes_read hK _ _ (hS (by decide))) fun _ => ?_
  refine hK.bind (passes_idRelease hK (hS (by decide)) _) fun _ => passes_ite ?_ (hK.pure _)
  refine hK.bind (passes_setStart hK _ (hS (by decide))) fun _ => ?_
  refine hK.bind (passes_forEach hK (fun _ => passes_deviceDestroy hK hS _) _) fun _ => ?_
  refine hK.bind (passes_setFinish hK _ (hS (by decide))) fun _ => ?_
  refine hK.bind (passes_setDestroy hK _ (hS (by decide : Area.roster ∈ _))) fun _ => ?_
  exact hK.bind (passes_free hK _ _ (hS (by decide))) fun _ => hK.pure _

end

section
variable {S : List Area} {K : (α : Type) → AProg α → Prop} (hK : Passes S K)
  (hS : Area.registry ⊆ S)

include hK hS

omit hK in
private theorem registry_local : Area.local ⊆ S := fun _ h =>
  hS ((by decide : Area.local ⊆ Area.registry) h)

omit hK in
private theorem registry_reserve : [.look, .reserve] ⊆ S := fun _ h =>
  hS ((by decide : [.look, .reserve] ⊆ Area.registry) h)

theorem passes_platformCreate (p : Addr) (info : PlatformInfo) : K _ (platformCreate p info) :=
  hK.bind (passes_read hK _ _ (hS (by decide))) fun _ =>
    hK.bind (passes_idCreate hK (registry_reserve hS)) fun _ =>
      hK.bind (passes_new hK _ _ (hS (by decide))) fun _ =>
        hK.bind (passes_setCreate hK _ (hS (by decide : Area.roster ∈ _))) fun _ => hK.pure _

theorem passes_deviceCreate (p : Addr) (info : DeviceInfo) : K _ (deviceCreate p info) :=
  hK.bind (passes_read hK _ _ (hS (by decide))) fun _ =>
    hK.bind (passes_idCreate hK (registry_reserve hS)) fun _ => passes_new hK _ _ (hS (by decide))

theorem passes_handlePlatformInfo {p : Addr}
    (hobject : ∀ realId id, K _ (objectCreate p realId id)) (hw : .wire ∈ S)
    (info : PlatformInfo) : K _ (handlePlatformInfo p info) :=
  hK.bind (passes_platformCreate hK hS _ _) fun _ =>
    hK.bind (passes_read hK _ _ (hS (by decide))) fun _ =>
      hK.bind (passes_setInsert hK _ _ _ (hS (by decide : Area.platform ∈ _))) fun _ =>
        hK.bind (passes_assert hK _ _ (hS (by decide))) fun _ => hK.bind (hobject _ _) fun _ =>
          hK.bind (passes_assert hK _ _ (hS (by decide))) fun _ =>
            hK.bind (passes_net hK (on_claraSendmsg (T := (· = Sd.provider p)) rfl _ _)
              (fun _ h => by subst h; exact hw) (hS (by decide))) fun _ => hK.pure _

theorem passes_handleDeviceInfo {p : Addr}
    (hobject : ∀ realId id, K _ (objectCreate p realId id)) (hw : .wire ∈ S)
    (info : DeviceInfo) : K _ (handleDeviceInfo p info) := by
  refine hK.bind (passes_deviceCreate hK hS _ _) fun _ => ?_
  refine hK.bind (passes_read hK _ _ (hS (by decide))) fun _ => ?_
  refine hK.bind (passes_agentFindPlatformByLocalId hK (Area.lookup_subset (registry_local hS))
    _ _) fun x => ?_
  cases x with
  | none => exact passes_fail hK _ (hS (by decide))
  | some platform =>
    exact hK.bind (passes_setInsert hK _ _ _ (hS (by decide : Area.platform ∈ _))) fun _ =>
      hK.bind (passes_assert hK _ _ (hS (by decide))) fun _ => hK.bind (hobject _ _) fun _ =>
        hK.bind (passes_assert hK _ _ (hS (by decide))) fun _ =>
          hK.bind (passes_net hK (on_claraSendmsg (T := (· = Sd.provider p)) rfl _ _)
            (fun _ h => by subst h; exact hw) (hS (by decide))) fun _ => hK.pure _

end

section
variable {S : List Area} {K : (α : Type) → AProg α → Prop} (hK : Passes S K)
  (hS : Area.memory ⊆ S) (hp : .consumer ∈ S) (hc : .count ∈ S)

include hK hS hp hc

omit hK hp hc in
private theorem memory_local : Area.local ⊆ S := fun _ h =>
  hS ((by decide : Area.local ⊆ Area.memory) h)

theorem passes_consumerShutdown (c : Addr) : K _ (consumerShutdown c) := by
  have hdetach : K _ (consumerDetach c) := by
    have hrest : K _ (do
        if ← setRemove .consumers c then
          store .consumer c (.attached false)
          pure true
        else pure false) :=
      hK.bind (passes_setRemove hK _ _ hp) fun _ =>
        passes_ite (hK.bind (passes_store hK _ _ _ (hS (by decide))) fun _ => hK.pure _)
          (hK.pure _)
    exact hK.bind (passes_read hK _ _ (hS (by decide))) fun _ => passes_ite (hK.pure _)
      (hK.bind (passes_loadBalancing hK (hS (by decide))) fun _ =>
        passes_ite (hK.bind (passes_lbReleasePlatform hK
          (Area.lookup_subset (memory_local hS)) _) fun _ => hrest)
          hrest)
  have hdestroy : K _ (consumerDestroy c) := by
    refine hK.bind (passes_read hK _ _ (hS (by decide))) fun _ => passes_ite (hK.pure _) ?_
    refine hK.bind (passes_setStart hK _ (hS (by decide))) fun _ => ?_
    refine hK.bind (passes_forEach hK (fun _ => ?_) _) fun _ => ?_
    · exact hK.bind (passes_claraDestroyAllocation hK hS _) fun _ =>
        passes_fail hK _ (hS (by decide))
    refine hK.bind (passes_setFinish hK _ (hS (by decide))) fun _ => ?_
    refine hK.bind (passes_setDestroy hK _ (hS (by decide : Area.allocation ∈ _))) fun _ => ?_
    refine hK.bind (passes_setStart hK _ (hS (by decide))) fun _ => ?_
    refine hK.bind (passes_setFinish hK _ (hS (by decide))) fun _ => ?_
    exact hK.bind (passes_setDestroy hK _ hc) fun _ =>
      hK.bind (passes_free hK _ _ hp) fun _ => hK.pure _
  exact hK.bind hdetach fun _ => hK.bind (passes_assert hK _ _ (hS (by decide))) fun _ =>
    hK.bind hdestroy fun _ => hK.bind (passes_assert hK _ _ (hS (by decide))) fun _ =>
      passes_setPhase hK _ _ (hS (by decide : Area.scratch ∈ _))

theorem passes_agentNewConsumer : K _ agentNewConsumer := by
  have hsend : ∀ c type, K _ (net (claraSendmsg (.consumer c) type [])) := fun c type =>
    passes_net hK (on_claraSendmsg (T := (· = Sd.consumer c)) rfl _ _)
      (fun _ h => by subst h; exact hS (by decide : Area.answer ∈ _)) (hS (by decide))
  have hcreate : K _ consumerCreate :=
    hK.bind (passes_new hK _ _ hp) fun _ => hK.bind (passes_setCreate hK _ hc) fun _ =>
      hK.bind (passes_setCreate hK _ (hS (by decide : Area.allocation ∈ _))) fun _ => hK.pure _
  have hattach : ∀ c, K _ (consumerAttach c) := fun c =>
    hK.bind (passes_setInsert hK _ _ _ hp) fun _ =>
      passes_ite (hK.bind (passes_store hK _ _ _ (hS (by decide))) fun _ => hK.pure _)
        (hK.pure _)
  rw [agentNewConsumer_eq]
  exact hK.bind hcreate fun _ => hK.bind (hattach _) fun _ =>
    passes_ite (hK.bind (passes_setPhase hK _ _ (hS (by decide : Area.scratch ∈ _))) fun _ =>
      hK.bind (hsend _ _) fun _ => hK.pure _) (hK.bind (hsend _ _) fun _ => hK.pure _)

end

section
variable {S : List Area} {K : (α : Type) → AProg α → Prop} (hK : Passes S K)
  (hS : Area.remote ⊆ S)

include hK hS

theorem passes_agentFindProviderWithAddr (addr : UInt32) :
    K _ (agentFindProviderWithAddr addr) :=
  hK.bind (passes_setStart hK _ (hS (by decide))) fun l =>
    hK.bind (passes_findFirst hK (fun a => hK.bind (passes_read hK .provider a (hS (by decide)))
      fun _ => hK.pure _) l) fun _ =>
        hK.bind (passes_setFinish hK _ (hS (by decide))) fun _ => hK.pure _

theorem passes_agentNewProvider (hp : .provider ∈ S) (hr : .roster ∈ S) (ht : .turn ∈ S)
    (addr : UInt32) : K _ (agentNewProvider addr) := by
  have hsend : ∀ sd type, K _ (net (claraSendmsg sd type [])) := fun sd type =>
    passes_claraSendmsg hK hS sd type []
  have hcreate : K _ (providerCreate addr) :=
    hK.bind (passes_new hK .lock .free (hS (by decide))) fun _ =>
      hK.bind (passes_new hK .provider _ hp) fun _ =>
        hK.bind (passes_setCreate hK _ hr) fun _ => hK.pure _
  have hattach : ∀ p, K _ (providerAttach p) := fun p =>
    hK.bind (passes_setInsert hK .providers p p hp) fun _ =>
      passes_ite (hK.bind (passes_store hK .provider p true (hS (by decide))) fun _ => hK.pure _)
        (hK.pure _)
  rw [agentNewProvider_eq]
  refine hK.bind (passes_agentFindProviderWithAddr hK hS addr) fun x => ?_
  cases x with
  | some a => exact hK.bind (hsend _ _) fun _ => hK.pure _
  | none =>
    exact hK.bind hcreate fun p => hK.bind (hattach p) fun _ =>
      passes_ite (hK.bind (passes_setPhase hK (.provider p) _ ht) fun _ =>
        hK.bind (hsend _ _) fun _ => hK.pure _) (hK.bind (hsend _ _) fun _ => hK.pure _)

end

/-- The functions behind the EXECUTE requests of consumer `c`, up to look-ups and answers. -/
structure Executes (lzo : Lzo) (fuel : ℕ) (c : Addr) (S : List Area)
    (K : (α : Type) → AProg α → Prop) : Prop extends Passes S K where
  clCreateObject : ∀ target localId, K _ (clCreateObject target c localId invalidId)
  agentGenericMapEvent : ∀ n params target, K _ (agentGenericMapEvent n params target c)
  clRetainObject : ∀ id, K _ (clRetainObject c id)
  clReleaseObject : ∀ id, K _ (clReleaseObject c id)
  agentRemoteExecute : ∀ p params, K _ (agentRemoteExecute p params)
  agentDeviceIsAvailable : ∀ device, K _ (agentDeviceIsAvailable lzo fuel device)

/-- The functions that handle requests of consumer `c`, up to look-ups and answers. -/
structure Serves (lzo : Lzo) (fuel : ℕ) (c : Addr) (S : List Area)
    (K : (α : Type) → AProg α → Prop) : Prop extends Executes lzo fuel c S K where
  allocateLocal : ∀ params extra, K _ (allocateLocal c params extra)
  allocateRemote : ∀ params extra, K _ (allocateRemote params extra)
  allocateUndo : ∀ allocation, K _ (allocateUndo c allocation)
  agentForwardMemput : ∀ p params, K _ (agentForwardMemput fuel c p params)
  fetchLocal : ∀ params, K _ (fetchLocal lzo c params)
  agentForwardFetch : ∀ p params, K _ (agentForwardFetch fuel c p params)
  consumerShutdown : K _ (consumerShutdown c)

/-- Where only the creation and the release of objects need thought. -/
theorem Passes.serves {S : List Area} {K : (α : Type) → AProg α → Prop} (hK : Passes S K)
    (hr : Area.remote ⊆ S) (hs : Area.store ⊆ S) (hcount : .count ∈ S) (hcons : .consumer ∈ S)
    (lzo : Lzo) (fuel : ℕ) {c : Addr}
    (hobject : ∀ p realId id, K _ (objectCreate p realId id))
    (hrelease : ∀ id, K _ (clReleaseObject c id)) : Serves lzo fuel c S K := by
  have hpool : .reserve ∈ S := hs (by decide)
  have hcnt : [.look, .lock, .count] ⊆ S := fun x hx => by
    rcases List.mem_cons.mp hx with rfl | hx
    · exact hr (by decide)
    rcases List.mem_cons.mp hx with rfl | hx
    · exact hr (by decide)
    · rwa [List.mem_singleton.mp hx]
  exact {
    toPasses := hK
    clCreateObject := fun target localId =>
      passes_clCreateObject hK (remote_wired hr) hpool hcount hobject target c localId _
    agentGenericMapEvent := fun n params target =>
      passes_agentGenericMapEvent hK (remote_wired hr) hpool hcount hobject n params target c
    clRetainObject := passes_clRetainObject hK hcnt c
    clReleaseObject := hrelease
    agentRemoteExecute := passes_agentRemoteExecute hK (remote_wired hr)
    agentDeviceIsAvailable := passes_agentDeviceIsAvailable hK
      (List.Subset.trans Area.wired_subset_remote hr) hpool lzo fuel
    allocateLocal := passes_allocateLocal hK hs c
    allocateRemote := passes_allocateRemote hK hr hpool
    allocateUndo := passes_allocateUndo hK hs c
    agentForwardMemput := passes_agentForwardMemput hK hr fuel c
    fetchLocal := passes_fetchLocal hK hs lzo c
    agentForwardFetch := passes_agentForwardFetch hK hr fuel c
    consumerShutdown := passes_consumerShutdown hK (store_memory hs) hcons hcount c }

section
variable {lzo : Lzo} {fuel : ℕ} {c : Addr} {S : List Area}
  {K : (α : Type) → AProg α → Prop} (h : Executes lzo fuel c S K) (hS : Area.lookup ⊆ S)

include h hS

omit hS in
private theorem executes_pre {d : ClFunction} {pfn : Handler} {ptrargs : List ℕ}
    (hd : preExecFunTable d = some (pfn, ptrargs)) (params : ExecuteRequest)
    (target : Option Addr) : K _ (pfn params target c) := by
  have hretain : ∀ type, K _ (agentGenericRetain type params target c) := fun type =>
    h.bind (h.clRetainObject _) fun _ => h.pure _
  have hrelease : ∀ type, K _ (agentGenericRelease type params target c) := fun type =>
    h.bind (h.clReleaseObject _) fun _ => h.pure _
  have hnop : K _ (agentNop params target c) := h.pure _
  have hinfo : K _ (claraPreClGetDeviceInfo params target c) := h.pure _
  cases d <;> first
    | (obtain ⟨rfl, -⟩ := Prod.mk.inj (Option.some.inj hd); first
        | exact hretain _ | exact hrelease _ | exact hnop | exact hinfo)
    | cases hd

private theorem executes_getDeviceInfo (params : ExecuteRequest) (target : Option Addr) :
    K _ (claraPostClGetDeviceInfo lzo fuel params target c) := by
  have hpasses := h.toPasses
  refine h.bind (passes_agentFindDeviceByGlobalId hpasses hS _) fun x => ?_
  cases x with
  | none => exact h.pure _
  | some device =>
    refine passes_ite (h.bind (passes_ite (h.agentDeviceIsAvailable _)
      (h.bind (passes_read hpasses _ _ (hS (by decide))) fun _ => h.pure _)) fun _ => ?_)
      (h.pure _)
    exact h.bind (passes_pokeSize hpasses hS _ _) fun _ => passes_ite (h.pure _)
      (passes_ite (h.pure _) (h.bind (passes_poke hpasses hS _ _ _) fun _ => h.pure _))

private theorem executes_post {d : ClFunction} {pfn : Handler} {ptrargs : List ℕ}
    (hd : postExecFunTable lzo fuel d = some (pfn, ptrargs)) (params : ExecuteRequest)
    (target : Option Addr) : K _ (pfn params target c) := by
  have hcreate : K _ (agentGenericCreate params target c) :=
    h.bind (h.clCreateObject _ _) fun _ => h.pure _
  have hunload : K _ (claraPostClUnloadCompiler params target c) :=
    h.bind (passes_setStart h.toPasses _ (hS (by decide))) fun _ =>
      h.bind (passes_forEach h.toPasses (fun _ => h.bind (h.agentRemoteExecute _ _) fun _ =>
        h.pure _) _) fun _ =>
          h.bind (passes_setFinish h.toPasses _ (hS (by decide))) fun _ => h.pure _
  have hmap := h.agentGenericMapEvent
  have hplatforms := passes_claraPostClGetPlatformIDs h.toPasses hS params target c
  have hplatform := passes_claraPostClGetPlatformInfo h.toPasses hS params target c
  have hdevices := passes_claraPostClGetDeviceIDs h.toPasses hS params target c
  have hdevice := executes_getDeviceInfo h hS params target
  cases d <;> first
    | (obtain ⟨rfl, -⟩ := Prod.mk.inj (Option.some.inj hd); first
        | exact hcreate | exact hmap _ _ _ | exact hunload | exact hplatforms
        | exact hplatform | exact hdevices | exact hdevice)
    | cases hd

private theorem executes_claraExecute {fntbl : ClFunction → Option (Handler × List ℕ)}
    (hf : ∀ {d pfn ptrargs}, fntbl d = some (pfn, ptrargs) → ∀ params target,
      K _ (pfn params target c)) (params : ExecuteRequest) (retval : Arg)
    (target : Option Addr) :
    K _ (claraExecute fntbl (agentIdMap c) params retval target c) := by
  have htr : ∀ ptrargs i n params, K _ (translateArgs (agentIdMap c) ptrargs i n params) := by
    intro ptrargs i n
    induction n generalizing i with
    | zero => exact fun params => h.pure _
    | succ n ih =>
      exact fun params => passes_ite
        (h.bind (passes_agentIdMap h.toPasses hS _ _) fun _ => ih _ _) (ih _ _)
  rw [claraExecute]
  cases ClFunction.ofArg params.func with
  | none => exact h.pure _
  | some x =>
    obtain ⟨d, argc⟩ := x
    cases hd : fntbl d with
    | none =>
      simp only [hd]
      exact h.pure _
    | some y =>
      obtain ⟨pfn, ptrargs⟩ := y
      simp only [hd]
      exact h.bind (htr _ _ _ _) fun _ => h.bind (hf hd _ _) fun _ => h.pure _

theorem executes_agentExecute (params : ExecuteRequest) :
    K _ (agentExecute lzo fuel params c) := by
  have hpasses := h.toPasses
  refine h.bind (passes_executeOwner hpasses hS _) fun owner => ?_
  refine h.bind (executes_claraExecute h hS (executes_pre h) _ _ _) fun x => ?_
  refine h.bind (passes_ite ?_ (h.pure _)) fun r => ?_
  · refine h.bind (h.agentRemoteExecute _ _) fun y => ?_
    cases y with
    | none => exact passes_fail hpasses _ (hS (by decide))
    | some r => exact h.pure _
  · exact h.bind (executes_claraExecute h hS (executes_post h hS) _ _ _) fun _ => h.pure _

end

theorem executes_handleExecute {lzo : Lzo} {fuel : ℕ} {c : Addr} {S : List Area}
    {K : (α : Type) → AProg α → Prop} (h : Executes lzo fuel c S K) (hS : Area.local ⊆ S)
    (params : ExecuteRequest) : K _ (handleExecute lzo fuel c params) :=
  h.bind (executes_agentExecute h (Area.lookup_subset hS) params) fun _ =>
    h.bind (passes_claraSendExecuteResponse h.toPasses hS _ _ _) fun _ => h.pure _

section
variable {lzo : Lzo} {fuel : ℕ} {c : Addr} {S : List Area}
  {K : (α : Type) → AProg α → Prop} (h : Serves lzo fuel c S K) (hS : Area.local ⊆ S)

include h hS

/-- The property holds of a whole turn of the consumer's thread. -/
theorem serves_agentConsumerHandler (q : ConsumerRequest) :
    K _ (agentConsumerHandler lzo fuel c q) := by
  have hpasses := h.toPasses
  cases q with
  | allocate params extra =>
    refine h.bind (passes_read hpasses _ _ (hS (by decide))) fun _ => passes_ite ?_ ?_
    · exact h.bind (passes_claraSendAllocateResponse hpasses hS _ _) fun _ => h.pure _
    refine passes_ite ?_ ?_
    · exact h.bind (h.allocateLocal _ _) fun _ =>
        h.bind (passes_read hpasses _ _ (hS (by decide))) fun _ =>
          h.bind (passes_claraSendAllocateResponse hpasses hS _ _) fun _ =>
            passes_ite (h.pure _) (h.allocateUndo _)
    · exact h.bind (h.allocateRemote _ _) fun _ =>
        h.bind (passes_claraSendAllocateResponse hpasses hS _ _) fun _ =>
          passes_ite (h.pure _) (h.allocateUndo _)
  | memput params =>
    exact h.bind (passes_findHint hpasses (Area.lookup_subset hS) _ _ (hS (by decide))) fun _ =>
      h.bind (passes_read hpasses _ _ (hS (by decide))) fun _ => h.agentForwardMemput _ _
  | execute params => exact executes_handleExecute h.toExecutes hS params
  | fetch params =>
    refine passes_ite (h.fetchLocal _) ?_
    exact h.bind (passes_findHint hpasses (Area.lookup_subset hS) _ _ (hS (by decide))) fun _ =>
      h.bind (passes_read hpasses _ _ (hS (by decide))) fun _ => h.agentForwardFetch _ _
  | shutdown => exact h.consumerShutdown

end

end Clara.Agent
