import Clara.Agent.Balance
import Clara.Agent.Description
import Clara.Agent.Turn

/-! The first loop of `agent_provider_handler`: the descriptions of platforms and devices are taken
apart in the receive buffer, which still holds earlier messages behind a short one. -/
namespace Clara.Agent

open Conc

section
variable {κ : Type}

def stringsRead : List κ → Bytes → ℕ
  | [], _ => 0
  | _ :: ks, ptr =>
    let (_, n) := claraMallocAndStrcpy ptr
    n + stringsRead ks (ptr.drop n)

end

def platformRead (ptr : Bytes) : ℕ := stringsRead PlatformParam.all ptr + ClType.pointer.sizeof

def deviceStrings (ptr : Bytes) : ℕ :=
  let dimensions := Bytes.toNat (ptr.slice DeviceMember.maxWorkItemDimensions.offset
    ClType.uint.sizeof)
  Layout.extent DeviceMember.sizeof DeviceMember.front + ClType.size.sizeof * dimensions +
    Layout.extent DeviceMember.sizeof DeviceMember.back

def deviceRead (ptr : Bytes) : ℕ :=
  deviceStrings ptr + stringsRead DeviceString.all (ptr.drop (deviceStrings ptr)) +
    ClType.pointer.sizeof

def CompletePlatform (msg : Bytes) : Prop :=
  ∃ (str : PlatformParam → Bytes) (id : Arg) (rest : Bytes), (∀ k, 0 ∉ str k) ∧
    msg = Layout.record (fun k => str k ++ [0]) PlatformParam.all ++ (Bytes.word id ++ rest)

/-- All the members, as many work-item sizes as there are dimensions, the strings and the id are in
the message. -/
def CompleteDevice (msg : Bytes) : Prop :=
  ∃ (parts : DeviceMessage) (rest : Bytes), msg = parts.bytes ++ rest

section
variable {κ : Type} [DecidableEq κ]

/-- Strings that end inside the message are parts of it. -/
theorem exists_record {ks : List κ} (hks : ks.Nodup) {m t : Bytes}
    (h : stringsRead ks (m ++ t) ≤ m.length) : ∃ (str : κ → Bytes) (rest : Bytes),
      (∀ k, 0 ∉ str k) ∧ m = Layout.record (fun k => str k ++ [0]) ks ++ rest ∧
      (Layout.record (fun k => str k ++ [0]) ks).length = stringsRead ks (m ++ t) := by
  induction ks generalizing m with
  | nil => exact ⟨fun _ => [], m, fun _ => List.not_mem_nil, rfl, rfl⟩
  | cons k ks ih =>
    obtain ⟨hk, hks⟩ := List.nodup_cons.mp hks
    have hread : stringsRead (k :: ks) (m ++ t) = (Bytes.strlen (m ++ t) + 1) +
        stringsRead ks ((m ++ t).drop (Bytes.strlen (m ++ t) + 1)) := rfl
    rw [hread] at h ⊢
    obtain ⟨s, m', hs, hlen, rfl⟩ := Bytes.exists_of_strlen_lt (t := t) (m := m) (by omega)
    have hdrop : ((s ++ 0 :: m') ++ t).drop (s.length + 1) = m' ++ t := by
      rw [List.append_assoc, List.cons_append, List.drop_append]
      simp
    have hm : (s ++ 0 :: m').length = s.length + 1 + m'.length := by
      rw [List.length_append, List.length_cons]
      omega
    rw [← hlen, hdrop, hm] at h
    rw [← hlen, hdrop]
    obtain ⟨str, rest, hstr, hrest, hcount⟩ := ih hks (m := m') (by omega)
    have hothers : Layout.record (fun j => Function.update str k s j ++ [0]) ks =
        Layout.record (fun j => str j ++ [0]) ks := by
      apply List.flatMap_congr
      intro j hj
      rw [Function.update_of_ne (ne_of_mem_of_not_mem hj hk)]
    have hcons : Layout.record (fun j => Function.update str k s j ++ [0]) (k :: ks) =
        (s ++ [0]) ++ Layout.record (fun j => str j ++ [0]) ks := by
      rw [Layout.record, List.flatMap_cons, Function.update_self]
      exact congrArg ((s ++ [0]) ++ ·) hothers
    refine ⟨Function.update str k s, rest, ?_, ?_, ?_⟩
    · intro j
      by_cases hj : j = k
      · rw [hj, Function.update_self]
        exact hs
      · rw [Function.update_of_ne hj]
        exact hstr j
    · rw [hcons, hrest]
      simp
    · rw [hcons, List.length_append, hcount, List.length_append, List.length_singleton]

omit [DecidableEq κ] in
theorem stringsRead_record {str : κ → Bytes} (hstr : ∀ k, 0 ∉ str k) (ks : List κ) (t : Bytes) :
    stringsRead ks (Layout.record (fun k => str k ++ [0]) ks ++ t) =
      (Layout.record (fun k => str k ++ [0]) ks).length := by
  induction ks with
  | nil => rfl
  | cons k ks ih =>
    have hcons : Layout.record (fun k => str k ++ [0]) (k :: ks) =
        (str k ++ [0]) ++ Layout.record (fun k => str k ++ [0]) ks := List.flatMap_cons
    have hsplit : Layout.record (fun k => str k ++ [0]) (k :: ks) ++ t =
        str k ++ 0 :: (Layout.record (fun k => str k ++ [0]) ks ++ t) := by
      rw [hcons]
      simp
    have hdrop : (str k ++ 0 :: (Layout.record (fun k => str k ++ [0]) ks ++ t)).drop
        ((str k).length + 1) = Layout.record (fun k => str k ++ [0]) ks ++ t := by
      rw [List.drop_append]
      simp
    rw [hsplit, stringsRead, claraMallocAndStrcpy_append (hstr k)]
    simp only
    rw [hdrop, ih, hcons, List.length_append, List.length_append, List.length_singleton]

end

theorem exists_word {b : Bytes} (h : 8 ≤ b.length) : ∃ (id : Arg) (rest : Bytes),
    b = Bytes.word id ++ rest := by
  have hlen : (b.take 8).length = 8 := List.length_take_of_le h
  have hword : Bytes.word (Bytes.wordAt (b.take 8) 0) = b.take 8 := Bytes.word_wordAt hlen
  exact ⟨Bytes.wordAt (b.take 8) 0, b.drop 8, by rw [hword, List.take_append_drop]⟩

/-- `platform_init` stays inside the messages that are complete, and leaves the others, whatever
stands behind them. -/
theorem platformRead_le_iff (m t : Bytes) :
    platformRead (m ++ t) ≤ m.length ↔ CompletePlatform m := by
  constructor
  · intro h
    unfold platformRead at h
    obtain ⟨str, rest, hstr, hm, hcount⟩ := exists_record (by decide) (Nat.le_of_add_right_le h)
    have hlen := congrArg List.length hm
    rw [List.length_append, hcount] at hlen
    obtain ⟨id, rest', rfl⟩ := exists_word (b := rest) (by
      have hsize : ClType.pointer.sizeof = 8 := rfl
      omega)
    exact ⟨str, id, rest', hstr, hm⟩
  · rintro ⟨str, id, rest, hstr, rfl⟩
    rw [platformRead, List.append_assoc, stringsRead_record hstr, List.length_append,
      List.length_append, Bytes.length_word]
    have hsize : ClType.pointer.sizeof = 8 := rfl
    omega

section
open DeviceMember (front back sizeof)

theorem DeviceMember.mem_front_or_back {m : DeviceMember} (hm : m ≠ .maxWorkItemSizes) :
    m ∈ front ∨ m ∈ back := by
  revert hm
  cases m <;> decide

theorem DeviceMember.not_mem_front {m : DeviceMember} (hm : m ∈ back) : m ∉ front := by
  revert hm
  cases m <;> decide

/-- The number of dimensions stands at the same place in the message and among its first members. -/
theorem dimensions_front {b : Bytes} (hb : b.length = Layout.extent sizeof front) (t : Bytes) :
    Bytes.slice (b ++ t) DeviceMember.maxWorkItemDimensions.offset ClType.uint.sizeof =
      Layout.field sizeof front .maxWorkItemDimensions b := by
  have hfront : Layout.extent sizeof front = 20 := by decide
  have hoffset : DeviceMember.maxWorkItemDimensions.offset = 16 := by decide
  have hsize : ClType.uint.sizeof = 4 := rfl
  rw [hoffset, hsize, Bytes.slice_append_left (by omega)]
  rfl

theorem deviceStrings_append {b : Bytes} (hb : b.length = Layout.extent sizeof front) (t : Bytes) :
    deviceStrings (b ++ t) = Layout.extent sizeof front + 8 * Bytes.toNat (Layout.field sizeof front
      .maxWorkItemDimensions b) + Layout.extent sizeof back := by
  rw [deviceStrings, dimensions_front hb]
  rfl

def partsOf (first sizes last : Bytes) (str : DeviceString → Bytes) (id : Arg)
    (hfirst : first.length = Layout.extent sizeof front)
    (hlast : last.length = Layout.extent sizeof back)
    (hsizes : sizes.length =
      8 * Bytes.toNat (Layout.field sizeof front .maxWorkItemDimensions first))
    (hstr : ∀ k, 0 ∉ str k) : DeviceMessage where
  member m := if m ∈ front then Layout.field sizeof front m first else Layout.field sizeof back m last
  sizes := sizes
  str := str
  id := id
  fits m hm := by
    split_ifs with hfront
    · exact Layout.length_field hfront hfirst.ge
    · exact Layout.length_field ((DeviceMember.mem_front_or_back hm).resolve_left hfront) hlast.ge
  length_sizes := by
    rw [hsizes, if_pos (by decide)]
  noZero := hstr

theorem bytes_partsOf {first sizes last : Bytes} {str : DeviceString → Bytes} {id : Arg}
    (hfirst : first.length = Layout.extent sizeof front)
    (hlast : last.length = Layout.extent sizeof back)
    (hsizes : sizes.length =
      8 * Bytes.toNat (Layout.field sizeof front .maxWorkItemDimensions first))
    (hstr : ∀ k, 0 ∉ str k) :
    (partsOf first sizes last str id hfirst hlast hsizes hstr).bytes = first ++ (sizes ++ (last ++
      (Layout.record (fun k => str k ++ [0]) DeviceString.all ++ Bytes.word id))) := by
  have hrecord : Layout.record (partsOf first sizes last str id hfirst hlast hsizes hstr).member
      front = first := by
    have hfields : Layout.record (partsOf first sizes last str id hfirst hlast hsizes hstr).member
        front = Layout.record (fun m => Layout.field sizeof front m first) front := by
      apply List.flatMap_congr
      intro m hm
      exact if_pos hm
    rw [hfields, Layout.record_field (by decide) hfirst]
  have hrecord' : Layout.record (partsOf first sizes last str id hfirst hlast hsizes hstr).member
      back = last := by
    have hfields : Layout.record (partsOf first sizes last str id hfirst hlast hsizes hstr).member
        back = Layout.record (fun m => Layout.field sizeof back m last) back := by
      apply List.flatMap_congr
      intro m hm
      exact if_neg (DeviceMember.not_mem_front hm)
    rw [hfields, Layout.record_field (by decide) hlast]
  rw [DeviceMessage.bytes, hrecord, hrecord']
  rfl

/-- `device_init` stays inside the messages that are complete, and leaves the others. -/
theorem deviceRead_le_iff (m t : Bytes) :
    deviceRead (m ++ t) ≤ m.length ↔ CompleteDevice m := by
  have hpointer : ClType.pointer.sizeof = 8 := rfl
  constructor
  · intro h
    rw [deviceRead] at h
    have hshort : Layout.extent sizeof front ≤ deviceStrings (m ++ t) := by
      rw [deviceStrings, Nat.add_assoc]
      exact Nat.le_add_right _ _
    have hfirst : (m.take (Layout.extent sizeof front)).length = Layout.extent sizeof front :=
      List.length_take_of_le (by omega)
    have hstrings : deviceStrings (m ++ t) = Layout.extent sizeof front + 8 * Bytes.toNat
        (Layout.field sizeof front .maxWorkItemDimensions (m.take (Layout.extent sizeof front))) +
          Layout.extent sizeof back := by
      have happend := deviceStrings_append hfirst (m.drop (Layout.extent sizeof front) ++ t)
      rwa [← List.append_assoc, List.take_append_drop] at happend
    have hdrop : (m ++ t).drop (deviceStrings (m ++ t)) = m.drop (deviceStrings (m ++ t)) ++ t :=
      List.drop_append_of_le_length (by omega)
    rw [hdrop, hpointer] at h
    have hfits : stringsRead DeviceString.all (m.drop (deviceStrings (m ++ t)) ++ t) ≤
        (m.drop (deviceStrings (m ++ t))).length := by
      rw [List.length_drop]
      omega
    obtain ⟨str, rest, hstr, hrest, hcount⟩ := exists_record (by decide) hfits
    have hlen := congrArg List.length hrest
    rw [List.length_append, hcount, List.length_drop] at hlen
    obtain ⟨id, rest', rfl⟩ := exists_word (b := rest) (by omega)
    -- the first members, the sizes and the members behind them
    generalize hd : Bytes.toNat (Layout.field sizeof front .maxWorkItemDimensions
      (m.take (Layout.extent sizeof front))) = d at hstrings
    have hsizes : ((m.drop (Layout.extent sizeof front)).take (8 * d)).length = 8 * d :=
      List.length_take_of_le (by rw [List.length_drop]; omega)
    have hlast : ((m.drop (Layout.extent sizeof front + 8 * d)).take
        (Layout.extent sizeof back)).length = Layout.extent sizeof back :=
      List.length_take_of_le (by rw [List.length_drop]; omega)
    subst hd
    refine ⟨partsOf _ _ _ str id hfirst hlast hsizes hstr, rest', ?_⟩
    have hmiddle : ∀ n, m.drop (Layout.extent sizeof front + n) =
        (m.drop (Layout.extent sizeof front)).drop n := fun n => List.drop_drop.symm
    rw [hstrings, ← List.drop_drop] at hrest
    rw [bytes_partsOf]
    simp only [List.append_assoc]
    rw [← hrest, List.take_append_drop, hmiddle, List.take_append_drop, List.take_append_drop]
  · rintro ⟨parts, rest, rfl⟩
    have hdims : Layout.field sizeof front .maxWorkItemDimensions (Layout.record parts.member front) =
        parts.member .maxWorkItemDimensions := Layout.field_record parts.fits_front (by decide)
    have hstrings : deviceStrings (parts.bytes ++ rest ++ t) = Layout.extent sizeof front +
        parts.sizes.length + Layout.extent sizeof back := by
      rw [DeviceMessage.bytes, List.append_assoc, List.append_assoc,
        deviceStrings_append parts.length_front, hdims, parts.length_sizes]
    have hdrop : (parts.bytes ++ rest ++ t).drop (Layout.extent sizeof front + parts.sizes.length +
        Layout.extent sizeof back) = Layout.record (fun k => parts.str k ++ [0]) DeviceString.all ++
          (Bytes.word parts.id ++ (rest ++ t)) := by
      have hsplit : parts.bytes ++ rest ++ t = (Layout.record parts.member front ++ (parts.sizes ++
          Layout.record parts.member back)) ++ (Layout.record (fun k => parts.str k ++ [0])
            DeviceString.all ++ (Bytes.word parts.id ++ (rest ++ t))) := by
        rw [DeviceMessage.bytes]
        simp only [List.append_assoc]
      rw [hsplit]
      apply List.drop_left'
      rw [List.length_append, List.length_append, parts.length_front, parts.length_back,
        Nat.add_assoc]
    have hbytes : parts.bytes.length = Layout.extent sizeof front + (parts.sizes.length +
        (Layout.extent sizeof back + ((Layout.record (fun k => parts.str k ++ [0])
          DeviceString.all).length + 8))) := by
      simp only [DeviceMessage.bytes, List.length_append, parts.length_front, parts.length_back,
        Bytes.length_word]
    rw [deviceRead, hstrings, hdrop, stringsRead_record parts.noZero, List.length_append, hbytes,
      hpointer]
    omega

end

theorem platformInit_append {m : Bytes} (h : CompletePlatform m) (t t' : Bytes) :
    platformInit (m ++ t) = platformInit (m ++ t') := by
  obtain ⟨str, id, rest, hstr, rfl⟩ := h
  have hinit : ∀ t, platformInit (Layout.record (fun k => str k ++ [0]) PlatformParam.all ++
      (Bytes.word id ++ rest) ++ t) =
      { id := Bytes.wordAt (Bytes.word id) 0
        info := fun code => ((PlatformParam.ofCode code).map fun param =>
          ((if param ∈ PlatformParam.all then str param ++ [0] else []).take
            (Bytes.strlen (if param ∈ PlatformParam.all then str param ++ [0] else []))))
              |>.getD [] } := by
    intro t
    have hall : [PlatformParam.profile, .version, .name, .vendor, .extensions] =
      PlatformParam.all := rfl
    have hid : (Bytes.word id ++ (rest ++ t)).take ClType.pointer.sizeof = Bytes.word id :=
      List.take_left' (Bytes.length_word id)
    rw [List.append_assoc, List.append_assoc, platformInit, hall, copyStrings_record hstr]
    simp only
    rw [hid]
  rw [hinit t, hinit t']

theorem deviceInit_append {m : Bytes} (h : CompleteDevice m) (sizes : Arg) (t t' : Bytes) :
    deviceInit .zero sizes (m ++ t) = deviceInit .zero sizes (m ++ t') := by
  obtain ⟨parts, rest, rfl⟩ := h
  rw [List.append_assoc, List.append_assoc, parts.deviceInit_zero, parts.deviceInit_zero]

/-- The messages with which a provider registers. -/
inductive InfoMessage
  | platform
  | device
  deriving DecidableEq

namespace InfoMessage

def type : InfoMessage → MessageType
  | platform => Msg.openclPlatformInfo
  | device => Msg.openclDeviceInfo

def read : InfoMessage → Bytes → ℕ
  | platform => platformRead
  | device => deviceRead

def request (sizes : Arg) : InfoMessage → Bytes → ProviderRequest
  | platform, ptr => .platformInfo (platformInit ptr)
  | device, ptr => .deviceInfo (deviceInit .zero sizes ptr).info

/-- The message is a complete encoding. -/
def Complete : InfoMessage → Bytes → Prop
  | platform => CompletePlatform
  | device => CompleteDevice

end InfoMessage

def infoMessage (type : MessageType) : Option InfoMessage :=
  if type = Msg.openclPlatformInfo then some .platform
  else if type = Msg.openclDeviceInfo then some .device
  else none

/-- One turn of the first loop of `agent_provider_handler`, and what follows the loop when it is
left. `sizes` is where `device_init` allocates the array; the parsers know nothing of the length
of the message, and what they read behind the buffer is not theirs. -/
def agentProviderTurn (provider : Addr) (sizes : Arg) (buf : Buffer infobufsz) :
    AProg Unit := do
  match ← net (claraRecvmsg (.provider provider) infobufsz) with
  | .failed => agentProviderHandler provider .shutdown
  | .notification msg =>
    if Bytes.toNat (msg.take 2) = sctpShutdownEvent then
      agentProviderHandler provider .shutdown
    else pure ()
  | .message type msg =>
    match infoMessage type with
    | some k =>
      if k.read (buf.receive msg).bytes ≤ infobufsz then
        agentProviderHandler provider (k.request sizes (buf.receive msg).bytes)
      else fail .overflow
    | none =>
      if type = Msg.idle then agentProviderHandler provider .idle else pure ()

def SetRef.Registers : SetRef → Prop
  | .platforms _ | .devices _ | .objects => True
  | _ => False

def State.EntersNothing (s s' : State) : Prop :=
  ∀ r : SetRef, r.Registers → ∀ key a, (s'.sets r).lookup key = some a →
    (s.sets r).lookup key = some a

def State.Arrives (s : State) (provider : Addr) (type : MessageType) (msg : Bytes) : Prop :=
  ∃ q, (s.net (.provider provider)).inq = .record (Sent.msg type msg).record :: q

/-- Only what belongs to the message is taken from it, only a complete message is accepted, and
what an earlier one left in the buffer does not matter. -/
structure InfoMessage.OnlyComplete (k : InfoMessage) (msg : Bytes) : Prop where
  inside : msg.length ≤ infobufsz → ∀ buf : Buffer infobufsz,
    k.read (buf.receive msg).bytes ≤ msg.length
  rejects : ¬ k.Complete msg → ∀ provider sizes buf s s',
    s.Arrives provider k.type msg →
    run (.provider provider) (agentProviderTurn provider sizes buf) s = .done s' () →
      s.EntersNothing s'
  stale : msg.length ≤ infobufsz → ∀ sizes (buf buf' : Buffer infobufsz),
    k.request sizes (buf.receive msg).bytes = k.request sizes (buf'.receive msg).bytes

theorem InfoMessage.read_le_iff (k : InfoMessage) {msg : Bytes} (h : msg.length ≤ infobufsz)
    (buf : Buffer infobufsz) :
    k.read (buf.receive msg).bytes ≤ msg.length ↔ k.Complete msg := by
  rw [buf.receive_bytes h]
  cases k with
  | platform => exact platformRead_le_iff msg _
  | device => exact deviceRead_le_iff msg _

def Op.EntersNothing : Op → Prop
  | .setInsert r _ _ => ¬ r.Registers
  | _ => True

theorem State.EntersNothing.refl (s : State) : s.EntersNothing s := fun _ _ _ _ h => h

theorem State.EntersNothing.trans {s s₁ s' : State} (h : s.EntersNothing s₁)
    (h' : s₁.EntersNothing s') : s.EntersNothing s' :=
  fun r hr key a ha => h r hr key a (h' r hr key a ha)

section
variable {s s' : State} {t : Tid}

theorem entersNothing_putSet {r : SetRef} {v : IdSet r.Key Addr}
    (h : r.Registers → ∀ key a, v.lookup key = some a → (s.sets r).lookup key = some a) :
    s.EntersNothing (s.putSet r v) := by
  intro r' hr' key a ha
  by_cases hr : r' = r
  · subst hr
    rw [State.putSet_sets_self] at ha
    exact h hr' key a ha
  · rwa [State.putSet_sets_of_ne _ _ hr] at ha

theorem entersNothing_of_done {o : Op} {x : o.Res} (ho : o.EntersNothing)
    (h : exec t o s = .done s' x) : s.EntersNothing s' := by
  have hempty : ∀ (r : SetRef) (b : Bool),
      s.EntersNothing (s.putSet r { IdSet.empty with damaged := b }) := by
    intro r b
    apply entersNothing_putSet
    intro hr key a ha
    cases ha
  cases change_of_done h with
  | same => exact .refl s
  | new k r => exact .refl s
  | store k a v r ha => exact .refl s
  | free k a r ha => exact .refl s
  | lockWait l lock lock' hl hw => exact .refl s
  | lockPost l lock lock' hl hw => exact .refl s
  | setCreate r => exact hempty r false
  | setDestroy r => exact hempty r true
  | setInsert r key d =>
    apply entersNothing_putSet
    intro hr
    exact absurd hr ho
  | setRemove r key =>
    apply entersNothing_putSet
    intro hr k a ha
    rw [IdSet.lookup_erase] at ha
    split_ifs at ha
    exact ha
  | setLock _ r l harea => exact .refl s
  | draw => exact .refl s
  | phase u ph => exact .refl s
  | net _ n => exact .refl s

theorem entersNothing_of_run {α : Type} {q : AProg α} {x : α} (hq : q.All Op.EntersNothing)
    (hr : run t q s = .done s' x) : s.EntersNothing s' :=
  hq.run_keeps (I := s.EntersNothing) (fun _ _ _ _ ho he hs => hs.trans (entersNothing_of_done ho he))
    hr (.refl s)

/-- What spares the offer of the load balancer enters nothing. -/
theorem Op.Spares.entersNothing {l : List Addr} {o : Op} (h : o.Spares l) : o.EntersNothing := by
  cases o with
  | setInsert r key d => exact absurd h id
  | _ => trivial

theorem all_providerDetach (p : Addr) : (providerDetach p).All Op.EntersNothing := by
  have hperform : ∀ o : Op, o.EntersNothing → (perform o).All Op.EntersNothing :=
    fun _ => Prog.all_perform.mpr
  apply (hperform (.read .provider p) trivial).bind
  intro provider
  split_ifs with hattached
  · trivial
  · apply (hperform .loadBalancing trivial).bind
    intro b
    have hlast := hperform (.setRemove .providers p) trivial
    cases b with
    | false => exact hlast
    | true =>
      apply (hperform (.setStart (.platforms p)) trivial).bind
      intro platforms
      apply Prog.All.bind
      · apply all_forEach
        intro platform _
        have hremove : (lbRemovePlatform platform).All Op.EntersNothing := by
          apply (hperform (.read .platform platform) trivial).bind
          exact fun pf => hperform (.setRemove .lbPlatforms pf.globalId) trivial
        exact hremove.bind fun _ => trivial
      · intro _
        exact (hperform (.setFinish (.platforms p)) trivial).bind fun _ => hlast

theorem all_providerDestroy (p : Addr) : (providerDestroy p).All Op.EntersNothing := by
  have hperform : ∀ o : Op, o.EntersNothing → (perform o).All Op.EntersNothing :=
    fun _ => Prog.all_perform.mpr
  apply (hperform (.read .provider p) trivial).bind
  intro provider
  apply Prog.All.bind
  · apply (hperform (.lockWait provider.lock) trivial).bind
    exact fun _ => hperform (.free .lock provider.lock) trivial
  intro _
  apply (hperform (.setStart (.platforms p)) trivial).bind
  intro platforms
  apply Prog.All.bind
  · apply all_forEach
    intro platform _
    have hplatform := all_platformDestroy (l := [platform]) List.mem_cons_self
    exact (hplatform.mono fun o => Op.Spares.entersNothing).bind fun _ => trivial
  intro _
  apply (hperform (.setFinish (.platforms p)) trivial).bind
  intro _
  apply (hperform (.setDestroy (.platforms p)) trivial).bind
  intro _
  apply (hperform (.free .provider p) trivial).bind
  exact fun _ => trivial

theorem all_providerShutdown (p : Addr) : (providerShutdown p).All Op.EntersNothing := by
  have hassert : ∀ b x, (assert b x).All Op.EntersNothing :=
    fun b x => (all_assert (l := []) b x).mono fun o => Op.Spares.entersNothing
  apply (all_providerDetach p).bind
  intro b
  apply (hassert b _).bind
  intro _
  apply (all_providerDestroy p).bind
  intro b
  apply (hassert b _).bind
  exact fun _ => Prog.all_perform.mpr trivial

end

/-- A message that the buffer cannot hold ends the connection. -/
theorem entersNothing_tooLong {p : Addr} {sizes : Arg} {buf : Buffer infobufsz} {s s' : State}
    {type : MessageType} {msg : Bytes} (hlong : infobufsz < msg.length)
    (hnext : s.Arrives p type msg)
    (hrun : run (.provider p) (agentProviderTurn p sizes buf) s = .done s' ()) :
    s.EntersNothing s' := by
  obtain ⟨q, hq⟩ := hnext
  have hlen : 2 + infobufsz < (Sent.msg type msg).record.length := by
    rw [Sent.record, List.length_append, Bytes.length_ofNat]
    omega
  rw [agentProviderTurn, run_bind, run_net, Net.run_claraRecvmsg_tooLong hq hlen,
    Outcome.bind_done] at hrun
  have hshutdown := entersNothing_of_run (s := s.withNet _) (all_providerShutdown p) hrun
  exact hshutdown

/-- A registration keeps to its message exactly when the message is complete, or too long to be
received. -/
theorem InfoMessage.onlyComplete_iff (k : InfoMessage) (msg : Bytes) :
    k.OnlyComplete msg ↔ infobufsz < msg.length ∨ k.Complete msg := by
  constructor
  · intro h
    by_cases hlong : infobufsz < msg.length
    · exact .inl hlong
    · have hfits : msg.length ≤ infobufsz := Nat.le_of_not_lt hlong
      let buf : Buffer infobufsz := ⟨List.replicate infobufsz 0, List.length_replicate⟩
      exact .inr ((k.read_le_iff hfits buf).mp (h.inside hfits buf))
  · intro h
    constructor
    case inside =>
      intro hfits buf
      exact (k.read_le_iff hfits buf).mpr (h.resolve_left (Nat.not_lt.mpr hfits))
    case rejects =>
      intro hincomplete provider sizes buf s s' hnext hrun
      exact entersNothing_tooLong (h.resolve_right hincomplete) hnext hrun
    case stale =>
      intro hfits sizes buf buf'
      have hcomplete := h.resolve_left (Nat.not_lt.mpr hfits)
      rw [buf.receive_bytes hfits, buf'.receive_bytes hfits]
      cases k with
      | platform =>
        rw [request, request, platformInit_append hcomplete]
      | device =>
        rw [request, request, deviceInit_append hcomplete]

/-- A buffer after a message of equal bytes that filled it. -/
def stale (x : UInt8) : Buffer infobufsz := ⟨List.replicate infobufsz x, List.length_replicate⟩

def State.registering (msg : Bytes) : State :=
  { State.small someIds with
    net := fun sd => if sd = .provider 1 then
      ⟨[.record (Sent.msg Msg.openclPlatformInfo msg).record], [], []⟩ else .fresh }

/-- The id that the new platform has at its provider, when the message is five empty strings. -/
def registeredId (x : UInt8) : Option Arg :=
  match run (.provider 1) (agentProviderTurn 1 0 (stale x)) (.registering [0, 0, 0, 0, 0]) with
  | .done s' _ => ((s'.sets (.platforms 1)).lookup 10).bind fun a =>
      (s'.heap .platform a).map fun pf => pf.id
  | _ => none

/-- Five empty strings without an id are registered, with the id that stands in the buffer. -/
theorem not_onlyComplete_empty : ¬ InfoMessage.platform.OnlyComplete [0, 0, 0, 0, 0] ∧
    registeredId 1 = some 0x0101010101010101 ∧ registeredId 2 = some 0x0202020202020202 := by
  refine ⟨fun h => ?_, by decide +kernel, by decide +kernel⟩
  have hread : ¬ InfoMessage.platform.read ((stale 1).receive [0, 0, 0, 0, 0]).bytes ≤ 5 := by
    decide +kernel
  exact hread (h.inside (by decide) (stale 1))

end Clara.Agent
