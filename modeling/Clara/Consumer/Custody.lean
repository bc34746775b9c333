import Mathlib.Algebra.BigOperators.Group.List.Basic
import Mathlib.Algebra.Order.Group.Multiset
import Clara.Consumer.OpenCl
import Clara.Lib.Ledger

/-! The handles that a function of the consumer library holds while it runs: each one that
`consumer_allocate` has returned goes to one `consumer_fetch` or `consumer_free`, whatever the
answers. -/
namespace Clara.Consumer

open Conc

def owed (handle : Handle) (hint : GlobalId) : Multiset (Handle × GlobalId) :=
  if handle = invalidHandle then 0 else {(handle, hint)}

/-- `consumer_allocate` lends handles, and `consumer_fetch` takes them back. -/
def handles : Lending Call Call.Res (Handle × GlobalId) where
  lent
    | ⟨.allocate _ _ _ hint, handle⟩ => owed handle hint
    | _ => 0
  back
    | ⟨.fetch src _ _ hint, _⟩ => owed src hint
    | _ => 0

/-- The valid handles that `consumer_allocate` has returned. -/
abbrev granted : List (Exchange Call Call.Res) → Multiset (Handle × GlobalId) := handles.lentBy

/-- The handles that have been passed to `consumer_fetch` or `consumer_free`. -/
abbrev passedOn : List (Exchange Call Call.Res) → Multiset (Handle × GlobalId) := handles.backBy

def held (hint : GlobalId) (hs : List Handle) : Multiset (Handle × GlobalId) :=
  (hs.map fun handle => owed handle hint).sum

section
variable {hint : GlobalId} {hs hs' : List Handle} {handle : Handle} {α : Type}
  {R : α → Multiset (Handle × GlobalId)}

@[simp] theorem owed_invalid : owed invalidHandle hint = 0 := if_pos rfl

theorem held_nil : held hint [] = 0 := rfl

theorem held_cons : held hint (handle :: hs) = owed handle hint + held hint hs := by
  rw [held, List.map_cons, List.sum_cons, held]

theorem held_append : held hint (hs ++ hs') = held hint hs + held hint hs' := by
  rw [held, List.map_append, List.sum_append, held, held]

theorem held_snoc : held hint (hs ++ [handle]) = held hint hs + owed handle hint := by
  rw [held_append, held_cons, held_nil, add_zero]

theorem held_snoc_invalid : held hint (hs ++ [invalidHandle]) = held hint hs := by
  rw [held_snoc, owed_invalid, add_zero]

theorem held_perm (h : hs.Perm hs') : held hint hs = held hint hs' := (h.map _).sum_eq

theorem triple_fail (H : Multiset (Handle × GlobalId)) (f : StubFault) :
    handles.Triple H (fail f : CProg α) R :=
  .bind (R := fun _ => 0) (Lending.triple_perform_empty nofun) nofun

theorem triple_other {H : Multiset (Handle × GlobalId)} {c : Call}
    (hb : ∀ r, handles.back ⟨c, r⟩ = 0) (hl : ∀ r, handles.lent ⟨c, r⟩ = 0) :
    handles.Triple H (perform c) fun _ => H := by
  have hperform := Lending.triple_perform (L := handles) (H := H) hb
  simp only [zero_add, hl, add_zero] at hperform
  exact hperform

theorem triple_allocate (hint : GlobalId) (hs : List Handle) (nmemb size : UInt64)
    (data : Option Bytes) :
    handles.Triple (held hint hs) (perform (.allocate nmemb size data hint))
      fun handle => held hint (hs ++ [handle]) := by
  have hperform := Lending.triple_perform (L := handles) (H := held hint hs)
    (o := .allocate nmemb size data hint) (B := 0) fun _ => rfl
  rw [zero_add] at hperform
  simp only [held_snoc]
  exact hperform

theorem triple_fetchCall (handle : Handle) (hs : List Handle) (dst : Bool) (n : UInt64) :
    handles.Triple (held hint (handle :: hs)) (perform (.fetch handle dst n hint))
      fun _ => held hint hs := by
  have hperform := Lending.triple_perform (L := handles) (H := held hint hs)
    (o := .fetch handle dst n hint) (B := owed handle hint) fun _ => rfl
  rw [held_cons]
  simp only [handles, add_zero] at hperform ⊢
  exact hperform

/-- Where nothing is allocated, the invalid handle is held. -/
theorem triple_invalid (hs : List Handle) :
    handles.Triple (held hint hs) (pure invalidHandle : CProg Handle)
      fun handle => held hint (hs ++ [handle]) := by
  rw [← held_snoc_invalid]
  exact Lending.triple_pure (fun handle => held hint (hs ++ [handle])) invalidHandle

theorem triple_malloc (hint : GlobalId) (hs : List Handle) (var : Option Bytes) (size : UInt64) :
    handles.Triple (held hint hs) (malloc var size hint)
      fun handle => held hint (hs ++ [handle]) := by
  cases var with
  | none => exact triple_invalid hs
  | some mem => exact triple_allocate _ hs 1 size _

theorem triple_calloc (hint : GlobalId) (hs : List Handle) (var : Bool) (nmemb size : UInt64) :
    handles.Triple (held hint hs) (calloc var nmemb size hint)
      fun handle => held hint (hs ++ [handle]) := by
  cases var with
  | false => exact triple_invalid hs
  | true => exact triple_allocate _ hs nmemb size none

theorem triple_guarded {p : CProg α} {a : α}
    (hp : handles.Triple (held hint (handle :: hs)) p fun _ => held hint hs) :
    handles.Triple (held hint (handle :: hs)) (if handle ≠ invalidHandle then p else pure a)
      fun _ => held hint hs := by
  apply Lending.triple_ite
  · intro hne
    exact hp
  · intro heq
    rw [held_cons, not_not.mp heq, owed_invalid, zero_add]
    exact Lending.triple_pure (fun _ => held hint hs) a

theorem triple_fetch (handle : Handle) (hs : List Handle) (var : Bool) (size : UInt64) :
    handles.Triple (held hint (handle :: hs)) (fetch handle var size hint)
      fun _ => held hint hs := by
  apply triple_guarded
  apply (triple_fetchCall handle hs var size).bind
  intro r
  exact Lending.triple_pure (fun _ => held hint hs) r.2

theorem triple_free (handle : Handle) (hs : List Handle) :
    handles.Triple (held hint (handle :: hs)) (free handle hint) fun _ => held hint hs := by
  apply triple_guarded
  have hfree : handles.Triple (held hint (handle :: hs)) (consumerFree handle hint)
      fun _ => held hint hs := by
    apply (triple_fetchCall handle hs false 0).bind
    intro r
    exact Lending.triple_pure (fun _ => held hint hs) r.1
  exact hfree.bind fun _ => Lending.triple_pure (fun _ => held hint hs) ()

theorem triple_memput (H : Multiset (Handle × GlobalId)) (handle : Handle) (var : Option Bytes)
    (size : UInt64) : handles.Triple H (memput handle var size hint) fun _ => H :=
  (triple_other (fun _ => rfl) fun _ => rfl).bind fun _ => Lending.triple_pure (fun _ => H) ()

theorem triple_execute (H : Multiset (Handle × GlobalId)) (fn : ClFunction) (retbuflen : ℕ)
    (args : List Arg) : handles.Triple H (execute fn retbuflen hint args) fun _ => H := by
  apply (triple_other (H := H) (fun _ => rfl) fun _ => rfl).bind
  intro rv
  cases rv with
  | none => exact triple_fail H .assertion
  | some rv => exact Lending.triple_pure (fun _ => H) rv

/-- Whatever the answers, the program holds nothing in the end that it did not hold before. -/
def Conserves (p : CProg α) : Prop := handles.Triple 0 p fun _ => 0

theorem conserves_pure (a : α) : Conserves (pure a) := Lending.triple_pure (fun _ => 0) a

theorem conserves_fail (f : StubFault) : Conserves (fail f : CProg α) := triple_fail 0 f

theorem conserves_ite {c : Prop} [Decidable c] {p q : CProg α} (hp : c → Conserves p)
    (hq : ¬ c → Conserves q) : Conserves (if c then p else q) := Lending.triple_ite hp hq

theorem triple_reply (hint : GlobalId) (r : α) :
    handles.Triple (held hint []) (pure r) fun _ => 0 := Lending.triple_pure (fun _ => 0) r

theorem conserves_declareHint {var : Arg} {init : Bytes} {k : GlobalId → CProg Reply}
    (h : ∀ hint, Conserves (k hint)) : Conserves (declareHint var init k) :=
  conserves_ite (fun _ => conserves_pure _) fun _ => h var

theorem conserves_queryInfo (fn : ClFunction) (lead : List Arg) (paramValueSize : UInt64)
    (paramValue paramValueSizeRet : Bool) (hint : GlobalId) :
    Conserves (queryInfo fn lead paramValueSize paramValue paramValueSizeRet hint) := by
  apply (triple_calloc hint [] paramValue 1 paramValueSize).bind
  intro hParamValue
  apply (triple_calloc _ [hParamValue] paramValueSizeRet 1 sizeofSize).bind
  intro hParamValueSizeRet
  apply (triple_execute _ fn 4 _).bind
  intro rv
  apply (triple_fetch hParamValue [hParamValueSizeRet] paramValue paramValueSize).bind
  intro value
  apply (triple_fetch hParamValueSizeRet [] paramValueSizeRet sizeofSize).bind
  intro size
  exact triple_reply hint _

theorem conserves_getObjectInfo (fn : ClFunction) (object : Arg) (paramName : UInt32)
    (paramValueSize : UInt64) (paramValue paramValueSizeRet : Bool) :
    Conserves (getObjectInfo fn object paramName paramValueSize paramValue paramValueSizeRet) :=
  conserves_declareHint fun hint => conserves_queryInfo fn _ _ _ _ hint

theorem conserves_objectCall (fn : ClFunction) (init : Bytes) (object : Arg) :
    Conserves (objectCall fn init object) := by
  apply conserves_declareHint
  intro hint
  apply (triple_execute 0 fn 4 _).bind
  intro rv
  exact triple_reply hint _

theorem conserves_getIDs (fn : ClFunction) (lead : List Arg) (numEntries : UInt32)
    (list num : Bool) : Conserves (getIDs fn lead numEntries list num) := by
  apply conserves_ite
  · intro hbad
    exact conserves_pure _
  intro hgood
  apply (triple_calloc invalidHandle [] list numEntries.toUInt64 sizeofId).bind
  intro hList
  apply (triple_calloc _ [hList] num 1 sizeofInt).bind
  intro hNum
  apply (triple_execute _ fn 4 _).bind
  intro rv
  apply (triple_fetch hList [hNum] list _).bind
  intro ids
  apply (triple_fetch hNum [] num sizeofInt).bind
  intro n
  exact triple_reply invalidHandle _

theorem triple_contextProperties (H : Multiset (Handle × GlobalId)) (properties : List Arg)
    (platformId : Arg) (ctxPropSize : ℕ) :
    handles.Triple H (contextProperties properties platformId ctxPropSize) fun _ => H := by
  fun_induction contextProperties properties platformId ctxPropSize with
  | case1 => exact Lending.triple_pure (fun _ => H) _
  | case2 _ _ _ _ _ ih => exact ih
  | case3 => exact Lending.triple_pure (fun _ => H) _
  | case4 => exact triple_fail H .overflow
  | case5 => exact Lending.triple_pure (fun _ => H) _
  | case6 => exact triple_fail H .overflow

theorem triple_contextPlatform (H : Multiset (Handle × GlobalId)) (properties : List Arg) :
    handles.Triple H (contextPlatform properties) fun _ => H := by
  apply (triple_contextProperties H properties 0 0).bind
  intro r
  cases r with
  | none => exact Lending.triple_pure (fun _ => H) _
  | some r =>
    apply Lending.triple_ite
    · intro hzero
      exact Lending.triple_pure (fun _ => H) _
    · intro hne
      exact Lending.triple_pure (fun _ => H) _

/-- The chain of `goto`s frees what has been allocated, the last first. -/
theorem conserves_clCreateContext (properties : Option (List Arg)) (numDevices : UInt32)
    (devices : Option (List Arg)) (pfnNotify userData errcodeRet : Bool) :
    Conserves (clCreateContext properties numDevices devices pfnNotify userData errcodeRet) := by
  cases properties with
  | none => exact conserves_pure _
  | some properties =>
    apply conserves_ite (fun _ => conserves_pure _)
    intro hdevices
    apply conserves_ite (fun _ => conserves_pure _)
    intro hnotify
    apply (triple_contextPlatform 0 properties).bind
    intro r
    cases r with
    | inl errcode => exact conserves_pure _
    | inr r =>
      obtain ⟨hint, ctxPropSize⟩ := r
      apply (triple_malloc hint [] _ ctxPropSize).bind
      intro hProperties
      apply Lending.triple_ite
      · rintro rfl
        rw [held_snoc_invalid]
        exact triple_reply hint _
      intro hvalid
      apply (triple_allocate _ [hProperties] _ sizeofId _).bind
      intro hDevices
      apply Lending.triple_ite
      · rintro rfl
        rw [held_snoc_invalid]
        exact (triple_free hProperties []).bind fun _ => triple_reply hint _
      intro hvalid'
      apply (triple_allocate _ [hProperties, hDevices] 1 sizeofInt none).bind
      intro hErrcodeRet
      have hperm : ([hProperties, hDevices, hErrcodeRet] : List Handle).Perm
          [hErrcodeRet, hDevices, hProperties] := (List.reverse_perm _).symm
      rw [List.cons_append, List.cons_append, List.nil_append, held_perm hperm]
      apply Lending.triple_ite
      · rintro rfl
        rw [held_cons, owed_invalid, zero_add]
        apply (triple_free hDevices [hProperties]).bind
        intro _
        exact (triple_free hProperties []).bind fun _ => triple_reply hint _
      intro hvalid''
      apply (triple_execute _ .createContext 8 _).bind
      intro rv
      apply (triple_fetchCall hErrcodeRet [hDevices, hProperties] errcodeRet sizeofInt).bind
      intro errcode
      apply (triple_free hDevices [hProperties]).bind
      intro _
      exact (triple_free hProperties []).bind fun _ => triple_reply hint _

theorem conserves_clCreateContextFromType (properties : Option (List Arg)) (deviceType : UInt64)
    (pfnNotify userData errcodeRet : Bool) :
    Conserves (clCreateContextFromType properties deviceType pfnNotify userData errcodeRet) := by
  cases properties with
  | none => exact conserves_pure _
  | some properties =>
    apply conserves_ite (fun _ => conserves_pure _)
    intro hnotify
    apply (triple_contextPlatform 0 properties).bind
    intro r
    cases r with
    | inl errcode => exact conserves_pure _
    | inr r =>
      obtain ⟨hint, ctxPropSize⟩ := r
      apply (triple_malloc hint [] _ ctxPropSize).bind
      intro hProperties
      apply Lending.triple_ite
      · rintro rfl
        rw [held_snoc_invalid]
        exact triple_reply hint _
      intro hvalid
      apply (triple_allocate _ [hProperties] 1 sizeofInt none).bind
      intro hErrcodeRet
      have hperm : ([hProperties, hErrcodeRet] : List Handle).Perm [hErrcodeRet, hProperties] :=
        .swap _ _ _
      rw [List.cons_append, List.nil_append, held_perm hperm]
      apply Lending.triple_ite
      · rintro rfl
        rw [held_cons, owed_invalid, zero_add]
        exact (triple_free hProperties []).bind fun _ => triple_reply hint _
      intro hvalid'
      apply (triple_execute _ .createContextFromType 8 _).bind
      intro rv
      apply (triple_fetchCall hErrcodeRet [hProperties] errcodeRet sizeofInt).bind
      intro errcode
      exact (triple_free hProperties []).bind fun _ => triple_reply hint _

theorem conserves_clCreateCommandQueue (context device : Arg) (properties : UInt64)
    (errcodeRet : Bool) :
    Conserves (clCreateCommandQueue context device properties errcodeRet) := by
  apply conserves_declareHint
  intro hint
  apply (triple_calloc hint [] errcodeRet 1 sizeofInt).bind
  intro hErrcodeRet
  apply (triple_execute _ .createCommandQueue 8 _).bind
  intro rv
  apply (triple_fetch hErrcodeRet [] errcodeRet sizeofInt).bind
  intro errcode
  exact triple_reply hint _

theorem conserves_clCreateBuffer (context : Arg) (flags size : UInt64) (hostPtr : Option Bytes)
    (errcodeRet : Bool) : Conserves (clCreateBuffer context flags size hostPtr errcodeRet) := by
  apply conserves_declareHint
  intro hint
  apply (triple_calloc hint [] errcodeRet 1 sizeofInt).bind
  intro hErrcodeRet
  apply (triple_malloc _ [hErrcodeRet] hostPtr size).bind
  intro hHostPtr
  apply (triple_execute _ .createBuffer 8 _).bind
  intro rv
  apply (triple_fetch hErrcodeRet [hHostPtr] errcodeRet sizeofInt).bind
  intro errcode
  exact (triple_free hHostPtr []).bind fun _ => triple_reply hint _

theorem conserves_clEnqueueReadBuffer (commandQueue buffer : Arg) (blockingRead : UInt32)
    (offset cb : UInt64) (ptr : Bool) (numEventsInWaitList : UInt32)
    (eventWaitList : Option (List Arg)) (event : Bool) :
    Conserves (clEnqueueReadBuffer commandQueue buffer blockingRead offset cb ptr
      numEventsInWaitList eventWaitList event) := by
  apply conserves_declareHint
  intro hint
  apply (triple_calloc hint [] ptr 1 cb).bind
  intro hPtr
  apply (triple_malloc _ [hPtr] (idList eventWaitList) (idListSize numEventsInWaitList)).bind
  intro hEventWaitList
  apply (triple_calloc _ [hPtr, hEventWaitList] event 1 sizeofId).bind
  intro hEvent
  apply (triple_execute _ .enqueueReadBuffer 4 _).bind
  intro rv
  apply (triple_fetch hPtr [hEventWaitList, hEvent] ptr cb).bind
  intro data
  apply (triple_free hEventWaitList [hEvent]).bind
  intro _
  exact (triple_fetch hEvent [] event sizeofId).bind fun _ => triple_reply hint _

theorem conserves_clEnqueueWriteBuffer (commandQueue buffer : Arg) (blockingWrite : UInt32)
    (offset cb : UInt64) (ptr : Option Bytes) (numEventsInWaitList : UInt32)
    (eventWaitList : Option (List Arg)) (event : Bool) :
    Conserves (clEnqueueWriteBuffer commandQueue buffer blockingWrite offset cb ptr
      numEventsInWaitList eventWaitList event) := by
  apply conserves_declareHint
  intro hint
  apply (triple_calloc hint [] ptr.isSome 1 cb).bind
  intro hPtr
  apply (triple_memput _ hPtr ptr cb).bind
  intro _
  apply (triple_malloc _ [hPtr] (idList eventWaitList) (idListSize numEventsInWaitList)).bind
  intro hEventWaitList
  apply (triple_calloc _ [hPtr, hEventWaitList] event 1 sizeofId).bind
  intro hEvent
  apply (triple_execute _ .enqueueWriteBuffer 4 _).bind
  intro rv
  apply (triple_free hPtr [hEventWaitList, hEvent]).bind
  intro _
  apply (triple_free hEventWaitList [hEvent]).bind
  intro _
  exact (triple_fetch hEvent [] event sizeofId).bind fun _ => triple_reply hint _

theorem conserves_enqueueAfter (fn : ClFunction) (lead : List Arg) (numEventsInWaitList : UInt32)
    (eventWaitList : Option (List Arg)) (event : Bool) (hint : GlobalId) :
    Conserves (enqueueAfter fn lead numEventsInWaitList eventWaitList event hint) := by
  apply (triple_malloc hint [] (idList eventWaitList)
    (idListSize numEventsInWaitList)).bind
  intro hEventWaitList
  apply (triple_calloc _ [hEventWaitList] event 1 sizeofId).bind
  intro hEvent
  apply (triple_execute _ fn 4 _).bind
  intro rv
  apply (triple_free hEventWaitList [hEvent]).bind
  intro _
  exact (triple_fetch hEvent [] event sizeofId).bind fun _ => triple_reply hint _

theorem triple_givenLength (H : Multiset (Handle × GlobalId)) (lengths : Option (List Arg))
    (i : ℕ) : handles.Triple H (givenLength lengths i) fun _ => H := by
  cases lengths with
  | none => exact Lending.triple_pure (fun _ => H) 0
  | some lengths =>
    cases hlen : lengths[i]? with
    | none =>
      simp only [givenLength, hlen]
      exact triple_fail H .overflow
    | some len =>
      simp only [givenLength, hlen]
      exact Lending.triple_pure (fun _ => H) len

theorem triple_stringLength (H : Multiset (Handle × GlobalId)) (string : Option Bytes)
    (lengths : Option (List Arg)) (i : ℕ) :
    handles.Triple H (stringLength string lengths i) fun _ => H := by
  apply (triple_givenLength H lengths i).bind
  intro len
  apply Lending.triple_ite
  · intro hne
    exact Lending.triple_pure (fun _ => H) len
  · intro hzero
    cases string with
    | none => exact triple_fail H .nullPointer
    | some string => exact Lending.triple_pure (fun _ => H) _

theorem triple_stringHandle (hs : List Handle) (strings : List (Option Bytes))
    (lengths : Option (List Arg)) (i : ℕ) :
    handles.Triple (held hint hs) (stringHandle strings lengths hint i)
      fun handle => held hint (hs ++ [handle]) := by
  rw [stringHandle]
  cases strings[i]? with
  | none => exact triple_fail _ .overflow
  | some string =>
    apply (triple_stringLength _ string lengths i).bind
    intro len
    apply (triple_allocate _ hs len 1 _).bind
    intro handle
    apply Lending.triple_ite
    · intro hinvalid
      exact triple_fail _ .assertion
    · intro hvalid
      exact Lending.triple_pure (fun handle => held hint (hs ++ [handle])) handle

theorem triple_stringHandles (hint : GlobalId) (hs : List Handle) (strings : List (Option Bytes))
    (lengths : Option (List Arg)) (n i : ℕ) :
    handles.Triple (held hint hs) (stringHandles strings lengths hint n i)
      fun hString => held hint (hs ++ hString) := by
  induction n generalizing hs i with
  | zero =>
    have hpure := Lending.triple_pure (L := handles)
      (fun hString : List Handle => held hint (hs ++ hString)) []
    rwa [List.append_nil] at hpure
  | succ n ih =>
    apply (triple_stringHandle hs strings lengths i).bind
    intro handle
    apply Lending.triple_ite
    · intro hlt
      apply (ih (hs ++ [handle]) (i + 1)).bind
      intro hString
      rw [List.append_assoc, List.singleton_append]
      exact Lending.triple_pure (fun hString => held hint (hs ++ hString)) (handle :: hString)
    · intro hlong
      exact triple_fail _ .overflow

theorem triple_freeStrings (hString hs : List Handle) :
    handles.Triple (held hint (hString ++ hs)) (freeStrings hint hString)
      fun _ => held hint hs := by
  induction hString with
  | nil => exact Lending.triple_pure (fun _ => held hint hs) ()
  | cons handle hString ih => exact (triple_free handle (hString ++ hs)).bind fun _ => ih

theorem conserves_clCreateProgramWithSource (context : Arg) (count : UInt32)
    (strings : Option (List (Option Bytes))) (lengths : Option (List Arg)) (errcodeRet : Bool) :
    Conserves (clCreateProgramWithSource context count strings lengths errcodeRet) := by
  apply conserves_declareHint
  intro hint
  apply conserves_ite (fun _ => conserves_fail .nullPointer)
  intro hstrings
  apply (triple_stringHandles hint [] (strings.getD []) lengths count.toNat 0).bind
  intro hString
  apply (triple_allocate _ hString count.toUInt64 sizeofId _).bind
  intro hStrings
  apply Lending.triple_ite
  · intro hinvalid
    exact triple_fail _ .assertion
  intro hvalid
  apply (triple_malloc _ _ (idList lengths) (idListSize count)).bind
  intro hLengths
  apply (triple_calloc _ _ errcodeRet 1 sizeofInt).bind
  intro hErrcodeRet
  apply (triple_execute _ .createProgramWithSource 8 _).bind
  intro rv
  -- the strings come first in the list of what is held, but are freed after the last two
  have hperm : (hString ++ [hStrings] ++ [hLengths] ++ [hErrcodeRet]).Perm
      (hErrcodeRet :: hLengths :: (hString ++ [hStrings])) :=
    (List.perm_append_singleton _ _).trans ((List.perm_append_singleton _ _).cons _)
  rw [held_perm hperm]
  apply (triple_fetch hErrcodeRet _ errcodeRet sizeofInt).bind
  intro errcode
  apply (triple_free hLengths _).bind
  intro _
  apply (triple_freeStrings hString [hStrings]).bind
  intro _
  exact (triple_free hStrings []).bind fun _ => triple_reply hint _

theorem conserves_clBuildProgram (program : Arg) (numDevices : UInt32)
    (deviceList : Option (List Arg)) (options : Option Bytes) :
    Conserves (clBuildProgram program numDevices deviceList options) := by
  apply conserves_declareHint
  intro hint
  apply (triple_malloc hint [] (idList deviceList) (idListSize numDevices)).bind
  intro hDeviceList
  apply (triple_malloc _ [hDeviceList] options (stringSize options)).bind
  intro hOptions
  apply (triple_execute _ .buildProgram 4 _).bind
  intro rv
  apply (triple_free hDeviceList [hOptions]).bind
  intro _
  exact (triple_free hOptions []).bind fun _ => triple_reply hint _

theorem conserves_clCreateKernel (program : Arg) (kernelName : Option Bytes) (errcodeRet : Bool) :
    Conserves (clCreateKernel program kernelName errcodeRet) := by
  apply conserves_declareHint
  intro hint
  apply (triple_malloc hint [] kernelName (stringSize kernelName)).bind
  intro hKernelName
  apply (triple_calloc _ [hKernelName] errcodeRet 1 sizeofInt).bind
  intro hErrcodeRet
  apply (triple_execute _ .createKernel 8 _).bind
  intro rv
  apply (triple_free hKernelName [hErrcodeRet]).bind
  intro _
  exact (triple_fetch hErrcodeRet [] errcodeRet sizeofInt).bind fun _ => triple_reply hint _

theorem conserves_handOver (fn : ClFunction) (var : Option Bytes) (size : UInt64)
    (args : Handle → List Arg) (hint : GlobalId) :
    Conserves (do
      let handle ← malloc var size hint
      let rv ← execute fn 4 hint (args handle)
      free handle hint
      pure ⟨rv, []⟩ : CProg Reply) := by
  apply (triple_malloc hint [] var size).bind
  intro handle
  apply (triple_execute _ fn 4 _).bind
  intro rv
  exact (triple_free handle []).bind fun _ => triple_reply hint _

theorem conserves_clEnqueueNDRangeKernel (commandQueue kernel : Arg) (workDim : UInt32)
    (globalWorkOffset globalWorkSize localWorkSize : Option (List Arg))
    (numEventsInWaitList : UInt32) (eventWaitList : Option (List Arg)) (event : Bool) :
    Conserves (clEnqueueNDRangeKernel commandQueue kernel workDim globalWorkOffset globalWorkSize
      localWorkSize numEventsInWaitList eventWaitList event) := by
  apply conserves_declareHint
  intro hint
  apply (triple_malloc hint [] (idList globalWorkOffset) (idListSize workDim)).bind
  intro h₁
  apply (triple_malloc _ [h₁] (idList globalWorkSize) (idListSize workDim)).bind
  intro h₂
  apply (triple_malloc _ [h₁, h₂] (idList localWorkSize) (idListSize workDim)).bind
  intro h₃
  apply (triple_malloc _ [h₁, h₂, h₃] (idList eventWaitList)
    (idListSize numEventsInWaitList)).bind
  intro h₄
  apply (triple_calloc _ [h₁, h₂, h₃, h₄] event 1 sizeofId).bind
  intro hEvent
  apply (triple_execute _ .enqueueNDRangeKernel 4 _).bind
  intro rv
  apply (triple_free h₁ [h₂, h₃, h₄, hEvent]).bind
  intro _
  apply (triple_free h₂ [h₃, h₄, hEvent]).bind
  intro _
  apply (triple_free h₃ [h₄, hEvent]).bind
  intro _
  apply (triple_free h₄ [hEvent]).bind
  intro _
  exact (triple_fetch hEvent [] event sizeofId).bind fun _ => triple_reply hint _

theorem conserves_clWaitForEvents (numEvents : UInt32) (eventList : Option (List Arg)) :
    Conserves (clWaitForEvents numEvents eventList) := by
  apply conserves_ite (fun _ => conserves_pure _)
  intro hsome
  cases eventList with
  | none => exact conserves_fail .nullPointer
  | some events =>
    cases events with
    | nil => exact conserves_fail .overflow
    | cons event events =>
      exact conserves_declareHint fun hint => conserves_handOver .waitForEvents _ _ _ hint

theorem conserves_clEnqueueMarker (commandQueue : Arg) (event : Bool) :
    Conserves (clEnqueueMarker commandQueue event) := by
  apply conserves_declareHint
  intro hint
  apply (triple_calloc hint [] event 1 sizeofId).bind
  intro hEvent
  apply (triple_execute _ .enqueueMarker 4 _).bind
  intro rv
  exact (triple_fetch hEvent [] event sizeofId).bind fun _ => triple_reply hint _

end

/-- The functions that are implemented, with their arguments. -/
inductive ApiCall
  | clGetPlatformIDs (numEntries : UInt32) (platforms numPlatforms : Bool)
  | clGetPlatformInfo (platform : Arg) (paramName : UInt32) (paramValueSize : UInt64)
    (paramValue paramValueSizeRet : Bool)
  | clGetDeviceIDs (platform : Arg) (deviceType : UInt64) (numEntries : UInt32)
    (devices numDevices : Bool)
  | clGetDeviceInfo (device : Arg) (paramName : UInt32) (paramValueSize : UInt64)
    (paramValue paramValueSizeRet : Bool)
  | clCreateContext (properties : Option (List Arg)) (numDevices : UInt32)
    (devices : Option (List Arg)) (pfnNotify userData errcodeRet : Bool)
  | clCreateContextFromType (properties : Option (List Arg)) (deviceType : UInt64)
    (pfnNotify userData errcodeRet : Bool)
  | clRetainContext (context : Arg)
  | clReleaseContext (context : Arg)
  | clCreateCommandQueue (context device : Arg) (properties : UInt64) (errcodeRet : Bool)
  | clRetainCommandQueue (commandQueue : Arg)
  | clReleaseCommandQueue (commandQueue : Arg)
  | clGetCommandQueueInfo (commandQueue : Arg) (paramName : UInt32) (paramValueSize : UInt64)
    (paramValue paramValueSizeRet : Bool)
  | clCreateBuffer (context : Arg) (flags size : UInt64) (hostPtr : Option Bytes)
    (errcodeRet : Bool)
  | clEnqueueReadBuffer (commandQueue buffer : Arg) (blockingRead : UInt32) (offset cb : UInt64)
    (ptr : Bool) (numEventsInWaitList : UInt32) (eventWaitList : Option (List Arg)) (event : Bool)
  | clEnqueueWriteBuffer (commandQueue buffer : Arg) (blockingWrite : UInt32) (offset cb : UInt64)
    (ptr : Option Bytes) (numEventsInWaitList : UInt32) (eventWaitList : Option (List Arg))
    (event : Bool)
  | clEnqueueCopyBuffer (commandQueue srcBuffer dstBuffer : Arg) (srcOffset dstOffset cb : UInt64)
    (numEventsInWaitList : UInt32) (eventWaitList : Option (List Arg)) (event : Bool)
  | clRetainMemObject (memobj : Arg)
  | clReleaseMemObject (memobj : Arg)
  | clGetMemObjectInfo (memobj : Arg) (paramName : UInt32) (paramValueSize : UInt64)
    (paramValue paramValueSizeRet : Bool)
  | clCreateProgramWithSource (context : Arg) (count : UInt32)
    (strings : Option (List (Option Bytes))) (lengths : Option (List Arg)) (errcodeRet : Bool)
  | clRetainProgram (program : Arg)
  | clReleaseProgram (program : Arg)
  | clBuildProgram (program : Arg) (numDevices : UInt32) (deviceList : Option (List Arg))
    (options : Option Bytes)
  | clUnloadCompiler
  | clGetProgramInfo (program : Arg) (paramName : UInt32) (paramValueSize : UInt64)
    (paramValue paramValueSizeRet : Bool)
  | clGetProgramBuildInfo (program device : Arg) (paramName : UInt32) (paramValueSize : UInt64)
    (paramValue paramValueSizeRet : Bool)
  | clCreateKernel (program : Arg) (kernelName : Option Bytes) (errcodeRet : Bool)
  | clRetainKernel (kernel : Arg)
  | clReleaseKernel (kernel : Arg)
  | clSetKernelArg (kernel : Arg) (argIndex : UInt32) (argSize : UInt64) (argValue : Option Bytes)
  | clGetKernelInfo (kernel : Arg) (paramName : UInt32) (paramValueSize : UInt64)
    (paramValue paramValueSizeRet : Bool)
  | clEnqueueNDRangeKernel (commandQueue kernel : Arg) (workDim : UInt32)
    (globalWorkOffset globalWorkSize localWorkSize : Option (List Arg))
    (numEventsInWaitList : UInt32) (eventWaitList : Option (List Arg)) (event : Bool)
  | clEnqueueTask (commandQueue kernel : Arg) (numEventsInWaitList : UInt32)
    (eventWaitList : Option (List Arg)) (event : Bool)
  | clWaitForEvents (numEvents : UInt32) (eventList : Option (List Arg))
  | clGetEventInfo (event : Arg) (paramName : UInt32) (paramValueSize : UInt64)
    (paramValue paramValueSizeRet : Bool)
  | clRetainEvent (event : Arg)
  | clReleaseEvent (event : Arg)
  | clEnqueueMarker (commandQueue : Arg) (event : Bool)
  | clEnqueueWaitForEvents (commandQueue : Arg) (numEvents : UInt32)
    (eventList : Option (List Arg))
  | clEnqueueBarrier (commandQueue : Arg)
  | clGetEventProfilingInfo (event : Arg) (paramName : UInt32) (paramValueSize : UInt64)
    (paramValue paramValueSizeRet : Bool)
  | clFlush (commandQueue : Arg)
  | clFinish (commandQueue : Arg)

def ApiCall.program : ApiCall → CProg Reply
  | .clGetPlatformIDs n l m => Consumer.clGetPlatformIDs n l m
  | .clGetPlatformInfo p x n v r => Consumer.clGetPlatformInfo p x n v r
  | .clGetDeviceIDs p t n l m => Consumer.clGetDeviceIDs p t n l m
  | .clGetDeviceInfo d x n v r => Consumer.clGetDeviceInfo d x n v r
  | .clCreateContext p n d f u e => Consumer.clCreateContext p n d f u e
  | .clCreateContextFromType p t f u e => Consumer.clCreateContextFromType p t f u e
  | .clRetainContext o => Consumer.clRetainContext o
  | .clReleaseContext o => Consumer.clReleaseContext o
  | .clCreateCommandQueue c d p e => Consumer.clCreateCommandQueue c d p e
  | .clRetainCommandQueue o => Consumer.clRetainCommandQueue o
  | .clReleaseCommandQueue o => Consumer.clReleaseCommandQueue o
  | .clGetCommandQueueInfo q x n v r => Consumer.clGetCommandQueueInfo q x n v r
  | .clCreateBuffer c f n p e => Consumer.clCreateBuffer c f n p e
  | .clEnqueueReadBuffer q b k o cb p n l e => Consumer.clEnqueueReadBuffer q b k o cb p n l e
  | .clEnqueueWriteBuffer q b k o cb p n l e => Consumer.clEnqueueWriteBuffer q b k o cb p n l e
  | .clEnqueueCopyBuffer q a b o o' cb n l e => Consumer.clEnqueueCopyBuffer q a b o o' cb n l e
  | .clRetainMemObject o => Consumer.clRetainMemObject o
  | .clReleaseMemObject o => Consumer.clReleaseMemObject o
  | .clGetMemObjectInfo m x n v r => Consumer.clGetMemObjectInfo m x n v r
  | .clCreateProgramWithSource c n s l e => Consumer.clCreateProgramWithSource c n s l e
  | .clRetainProgram o => Consumer.clRetainProgram o
  | .clReleaseProgram o => Consumer.clReleaseProgram o
  | .clBuildProgram p n d o => Consumer.clBuildProgram p n d o
  | .clUnloadCompiler => Consumer.clUnloadCompiler
  | .clGetProgramInfo p x n v r => Consumer.clGetProgramInfo p x n v r
  | .clGetProgramBuildInfo p d x n v r => Consumer.clGetProgramBuildInfo p d x n v r
  | .clCreateKernel p k e => Consumer.clCreateKernel p k e
  | .clRetainKernel o => Consumer.clRetainKernel o
  | .clReleaseKernel o => Consumer.clReleaseKernel o
  | .clSetKernelArg k i n v => Consumer.clSetKernelArg k i n v
  | .clGetKernelInfo k x n v r => Consumer.clGetKernelInfo k x n v r
  | .clEnqueueNDRangeKernel q k d o s w n l e =>
    Consumer.clEnqueueNDRangeKernel q k d o s w n l e
  | .clEnqueueTask q k n l e => Consumer.clEnqueueTask q k n l e
  | .clWaitForEvents n l => Consumer.clWaitForEvents n l
  | .clGetEventInfo v x n p r => Consumer.clGetEventInfo v x n p r
  | .clRetainEvent o => Consumer.clRetainEvent o
  | .clReleaseEvent o => Consumer.clReleaseEvent o
  | .clEnqueueMarker q e => Consumer.clEnqueueMarker q e
  | .clEnqueueWaitForEvents q n l => Consumer.clEnqueueWaitForEvents q n l
  | .clEnqueueBarrier q => Consumer.clEnqueueBarrier q
  | .clGetEventProfilingInfo v x n p r => Consumer.clGetEventProfilingInfo v x n p r
  | .clFlush o => Consumer.clFlush o
  | .clFinish o => Consumer.clFinish o

theorem ApiCall.conserves (f : ApiCall) : Conserves f.program := by
  cases f with
  | clGetPlatformIDs n l m => exact conserves_getIDs .getPlatformIDs [] n l m
  | clGetPlatformInfo p x n v r => exact conserves_queryInfo .getPlatformInfo _ n v r _
  | clGetDeviceIDs p t n l m => exact conserves_getIDs .getDeviceIDs [p, t] n l m
  | clGetDeviceInfo d x n v r => exact conserves_queryInfo .getDeviceInfo _ n v r _
  | clCreateContext p n d f u e => exact conserves_clCreateContext p n d f u e
  | clCreateContextFromType p t f u e => exact conserves_clCreateContextFromType p t f u e
  | clCreateCommandQueue c d p e => exact conserves_clCreateCommandQueue c d p e
  | clGetCommandQueueInfo q x n v r => exact conserves_getObjectInfo _ q x n v r
  | clCreateBuffer c f n p e => exact conserves_clCreateBuffer c f n p e
  | clEnqueueReadBuffer q b k o cb p n l e =>
    exact conserves_clEnqueueReadBuffer q b k o cb p n l e
  | clEnqueueWriteBuffer q b k o cb p n l e =>
    exact conserves_clEnqueueWriteBuffer q b k o cb p n l e
  | clEnqueueCopyBuffer q a b o o' cb n l e =>
    exact conserves_declareHint fun hint => conserves_enqueueAfter _ _ n l e hint
  | clGetMemObjectInfo m x n v r => exact conserves_getObjectInfo _ m x n v r
  | clCreateProgramWithSource c n s l e => exact conserves_clCreateProgramWithSource c n s l e
  | clBuildProgram p n d o => exact conserves_clBuildProgram p n d o
  | clGetProgramInfo p x n v r => exact conserves_getObjectInfo _ p x n v r
  | clGetProgramBuildInfo p d x n v r =>
    exact conserves_declareHint fun hint => conserves_queryInfo _ _ n v r hint
  | clCreateKernel p k e => exact conserves_clCreateKernel p k e
  | clSetKernelArg k i n v =>
    exact conserves_declareHint fun hint =>
      conserves_handOver .setKernelArg v n (fun h => [k, i.toUInt64, n, h]) hint
  | clGetKernelInfo k x n v r => exact conserves_getObjectInfo _ k x n v r
  | clEnqueueNDRangeKernel q k d o s w n l e =>
    exact conserves_clEnqueueNDRangeKernel q k d o s w n l e
  | clEnqueueTask q k n l e =>
    exact conserves_declareHint fun hint => conserves_enqueueAfter _ _ n l e hint
  | clWaitForEvents n l => exact conserves_clWaitForEvents n l
  | clGetEventInfo v x n p r => exact conserves_getObjectInfo _ v x n p r
  | clEnqueueMarker q e => exact conserves_clEnqueueMarker q e
  | clEnqueueWaitForEvents q n l =>
    exact conserves_declareHint fun hint =>
      conserves_handOver .enqueueWaitForEvents (idList l) (idListSize n)
        (fun h => [q, n.toUInt64, h]) hint
  | clRetainContext o | clReleaseContext o | clRetainCommandQueue o | clReleaseCommandQueue o
  | clRetainMemObject o | clReleaseMemObject o | clRetainProgram o | clReleaseProgram o
  | clRetainKernel o | clReleaseKernel o | clRetainEvent o | clReleaseEvent o
  | clEnqueueBarrier o | clFlush o | clFinish o => exact conserves_objectCall _ _ o
  | clUnloadCompiler =>
    exact (triple_execute 0 .unloadCompiler 4 _).bind fun rv => triple_reply invalidHandle _
  | clGetEventProfilingInfo v x n p r =>
    exact conserves_declareHint fun hint => conserves_queryInfo _ _ n p r hint

end Clara.Consumer
