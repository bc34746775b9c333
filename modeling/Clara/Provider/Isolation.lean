import Clara.Provider.Execute

/-! What a request may take from the receive buffer: the buffer is shared by all messages, and the
bytes that a message does not fill come from messages before it. -/
namespace Clara.Provider

open Conc

variable {Cl : Type} (lib : OpenCl Cl)

/-- The handler that an EXECUTE request is given to and the arguments it finds, `none` if the
request is rejected. A message longer than the buffer is not received. -/
def State.requested (s : State Cl) (m : Bytes) : Option (ClFunction × List Arg) :=
  if m.length ≤ recvbufsz then
    (prepare (execFunTable lib) (providerIdMap s.idMap) (s.buf.receive m) 0).request
  else none

/-- What is left in the buffer makes no difference. -/
def DecidedByItself (m : Bytes) : Prop :=
  ∀ (s : State Cl) (buf : Buffer recvbufsz),
    s.requested lib m = { s with buf := buf }.requested lib m

/-- The function that the received bytes name, with zeros for those missing, if the provider's
table has an entry for it. -/
def namedFunction (m : Bytes) : Option (ClFunction × ℕ) :=
  (ClFunction.ofArg (m.wordAt 1)).filter fun x => (execFunTable lib x.1).isSome

/-- The number of the function has begun to arrive, and if it names an entry of the table, then
it and all arguments of the function have arrived. -/
def Complete (m : Bytes) : Prop :=
  9 ≤ m.length ∧ ∀ d argc, namedFunction lib m = some (d, argc) →
    12 ≤ m.length ∧ (argc = 0 ∨ 24 + 8 * argc ≤ m.length)

def filled (x : UInt8) : Buffer recvbufsz :=
  ⟨List.replicate recvbufsz x, List.length_replicate⟩

section
variable {lib} {m : Bytes} {buf : Buffer recvbufsz}

theorem ofArg_congr {w v : Arg} (h : w.toNat % 2 ^ 32 = v.toNat % 2 ^ 32) :
    ClFunction.ofArg w = ClFunction.ofArg v := by
  rw [ClFunction.ofArg, ClFunction.ofArg, h]

/-- Four bytes decide about the number of the function. -/
theorem ofArg_receive (hm : m.length ≤ recvbufsz) (h : 12 ≤ m.length) :
    ClFunction.ofArg ((buf.receive m).word 1) = ClFunction.ofArg (m.wordAt 1) := by
  apply ofArg_congr
  rw [Buffer.word, Buffer.receive_bytes _ hm, Bytes.toNat_wordAt_mod, Bytes.toNat_wordAt_mod,
    Bytes.slice_append_left (by omega)]

theorem toNat_word_filled (x : UInt8) (hm : m.length ≤ recvbufsz) {i k : ℕ}
    (hi : 8 * i + k ≤ recvbufsz) (h : m.length ≤ 8 * i + k) :
    Bytes.toNat (((filled x).receive m).bytes.slice (8 * i) k) =
      Bytes.toNat (m.drop (8 * i)) + 256 ^ (m.drop (8 * i)).length *
        Bytes.toNat (List.replicate (min k (8 * i + k - m.length)) x) := by
  rw [Buffer.receive_bytes _ hm, filled, List.drop_replicate,
    Bytes.slice_append_replicate x h (by omega), Bytes.toNat_append]

theorem word_receive_filled_zero (hm : m.length ≤ recvbufsz) {i : ℕ}
    (hi : 8 * i + 8 ≤ recvbufsz) : ((filled 0).receive m).word i = m.wordAt i := by
  rcases le_total (8 * i + 8) m.length with h | h
  · exact Buffer.word_receive _ h hm
  · apply UInt64.toNat_inj.mp
    have hdrop : (m.drop (8 * i)).length ≤ 8 := by
      rw [List.length_drop]
      omega
    rw [Buffer.word, Bytes.toNat_wordAt, toNat_word_filled 0 hm hi h,
      Bytes.toNat_replicate_zero, Bytes.toNat_wordAt, Bytes.slice,
      List.take_of_length_le hdrop, Nat.mul_zero, Nat.add_zero]

/-- What is left in the buffer shows in a word that has not arrived in full. -/
theorem word_receive_filled_ne (hm : m.length ≤ recvbufsz) {i : ℕ}
    (hi : 8 * i + 8 ≤ recvbufsz) (h : m.length < 8 * i + 8) :
    ((filled 0).receive m).word i ≠ ((filled 255).receive m).word i := by
  intro heq
  have hnat := congrArg UInt64.toNat heq
  have hpos : 0 < 256 ^ (m.drop (8 * i)).length := Nat.pow_pos (by omega)
  rw [Buffer.word, Buffer.word, Bytes.toNat_wordAt, Bytes.toNat_wordAt,
    toNat_word_filled 0 hm hi (by omega), toNat_word_filled 255 hm hi (by omega),
    Bytes.toNat_replicate_zero, Nat.mul_zero, Nat.add_zero, Nat.left_eq_add, Nat.mul_eq_zero] at hnat
  obtain ⟨k, hk⟩ : ∃ k, min 8 (8 * i + 8 - m.length) = k + 1 :=
    ⟨min 8 (8 * i + 8 - m.length) - 1, by omega⟩
  rw [hk, List.replicate_succ, Bytes.toNat] at hnat
  rcases hnat with hnat | hnat
  · omega
  · have h255 : (255 : UInt8).toNat = 255 := rfl
    omega

/-- A number with a byte missing is past the end of the table when the byte is not zero. -/
theorem ofArg_eq_none {w : Arg} (h : 256 ≤ w.toNat % 2 ^ 32) : ClFunction.ofArg w = none := by
  have hlen : ClFunction.clfuninfo.length ≤ 256 := by decide
  exact List.getElem?_eq_none (by omega)

/-- Three bytes of the number leave the table to the zeros only. -/
theorem ofArg_receive_short (hm : 9 ≤ m.length) (h : m.length < 12) :
    ClFunction.ofArg ((buf.receive m).word 1) = none ∨
      ClFunction.ofArg ((buf.receive m).word 1) = ClFunction.ofArg (m.wordAt 1) := by
  have hle : m.length ≤ recvbufsz := by
    unfold recvbufsz
    omega
  have hpow : 256 ≤ 256 ^ (m.drop 8).length := by
    rw [List.length_drop]
    exact Nat.le_self_pow (by omega) 256
  have hword : (m.wordAt 1).toNat % 2 ^ 32 = Bytes.toNat (m.drop 8) := by
    rw [Bytes.toNat_wordAt_mod, Bytes.slice, List.take_of_length_le]
    rw [List.length_drop]
    omega
  have hrest : ((buf.receive m).word 1).toNat % 2 ^ 32 = Bytes.toNat (m.drop 8) +
      256 ^ (m.drop 8).length * Bytes.toNat ((buf.bytes.drop m.length).take (12 - m.length)) := by
    rw [Buffer.word, Buffer.receive_bytes _ hle, Bytes.toNat_wordAt_mod, Bytes.slice,
      List.drop_append_of_le_length (by omega), List.take_append, Bytes.toNat_append,
      List.take_of_length_le, List.length_drop]
    · congr 4
      omega
    · rw [List.length_drop]
      omega
  rcases Nat.eq_zero_or_pos
    (Bytes.toNat ((buf.bytes.drop m.length).take (12 - m.length))) with hz | hz
  · right
    apply ofArg_congr
    rw [hrest, hword, hz, Nat.mul_zero, Nat.add_zero]
  · left
    apply ofArg_eq_none
    have hmul := Nat.mul_le_mul hpow hz
    omega

/-- A complete request leads to the same call whatever is left in the buffer. -/
private theorem Complete.request_mono (h : Complete lib m) {map : IdSet GlobalId Arg}
    {buf' : Buffer recvbufsz} (hm : m.length ≤ recvbufsz) {x : ClFunction × List Arg}
    (hx : (prepare (execFunTable lib) (providerIdMap map) (buf.receive m) 0).request = some x) :
    (prepare (execFunTable lib) (providerIdMap map) (buf'.receive m) 0).request = some x := by
  obtain ⟨d, args⟩ := x
  obtain ⟨pfn, ptrargs, hd, hpfn, hargs⟩ := prepare_request_eq_some.mp hx
  have hnamed : ClFunction.ofArg (m.wordAt 1) = some (d, args.length) →
      namedFunction lib m = some (d, args.length) := by
    intro hf
    rw [namedFunction, hf, Option.filter_some, hpfn]
    rfl
  rcases le_or_gt 12 m.length with hlen | hlen
  · rw [ofArg_receive hm hlen] at hd
    obtain ⟨-, hargc⟩ := h.2 d args.length (hnamed hd)
    refine prepare_request_eq_some.mpr ⟨pfn, ptrargs, ?_, hpfn, fun i hi => ?_⟩
    · rw [ofArg_receive hm hlen, hd]
    · have hword : 8 * (2 + (i + 1)) + 8 ≤ m.length := by omega
      rw [← hargs i hi, argvOf, argvOf, Buffer.word_receive _ hword hm,
        Buffer.word_receive _ hword hm]
  · have hshort := @ofArg_receive_short _ buf h.1 hlen
    rcases hshort with hnone | hsome
    · rw [hnone] at hd
      cases hd
    · rw [hsome] at hd
      have := (h.2 d args.length (hnamed hd)).1
      omega

theorem Complete.decidedByItself (h : Complete lib m) : DecidedByItself lib m := by
  intro s buf'
  unfold State.requested
  split_ifs with hm
  · apply Option.ext
    intro x
    exact ⟨h.request_mono hm, h.request_mono hm⟩
  · rfl

/-- An id map that takes each of the given ids to itself. -/
private theorem exists_identity (l : List GlobalId) :
    ∃ map : IdSet GlobalId Arg, ∀ id ∈ l, providerIdMap map id = some id := by
  suffices h : ∃ map : IdSet GlobalId Arg, map.damaged = false ∧
      ∀ id, (id ∈ l → id ∈ map) ∧ (id ∈ map → map.lookup id = some id) by
    obtain ⟨map, hd, h⟩ := h
    refine ⟨map, fun id hid => ?_⟩
    rw [providerIdMap, hd]
    exact (h id).2 ((h id).1 hid)
  induction l with
  | nil => exact ⟨.empty, rfl, fun id => ⟨by simp, by simp⟩⟩
  | cons k l ih =>
    obtain ⟨map, hd, h⟩ := ih
    by_cases hk : k ∈ map
    · refine ⟨map, hd, fun id => ⟨fun hid => ?_, (h id).2⟩⟩
      rcases List.mem_cons.mp hid with rfl | hid
      · exact hk
      · exact (h id).1 hid
    · refine ⟨map.add k k, by simp [hk, hd], fun id => ⟨fun hid => ?_, fun hid => ?_⟩⟩
      · rw [IdSet.mem_add hk]
        exact (List.mem_cons.mp hid).imp_right (h id).1
      · rw [IdSet.lookup_add hk]
        rw [IdSet.mem_add hk] at hid
        split_ifs with heq
        · rw [heq]
        · exact (h id).2 (hid.resolve_left heq)

private def argsIn (buf : Buffer recvbufsz) (m : Bytes) (argc : ℕ) : List Arg :=
  (List.range argc).map fun i => argvOf (buf.receive m) (i + 1)

variable (lib) in
private theorem requested_identity {s : State Cl} {d : ClFunction} {argc : ℕ}
    (hm : m.length ≤ recvbufsz)
    (hd : ClFunction.ofArg ((s.buf.receive m).word 1) = some (d, argc))
    (ht : (execFunTable lib d).isSome)
    (hid : ∀ arg ∈ argsIn s.buf m argc, providerIdMap s.idMap arg = some arg) :
    s.requested lib m = some (d, argsIn s.buf m argc) := by
  obtain ⟨⟨pfn, ptrargs⟩, hpfn⟩ := Option.isSome_iff_exists.mp ht
  have hlen : (argsIn s.buf m argc).length = argc := by simp [argsIn]
  rw [State.requested, if_pos hm]
  refine prepare_request_eq_some.mpr ⟨pfn, ptrargs, by rw [hlen, hd], hpfn, fun i hi => ?_⟩
  rw [hlen] at hi
  have hget : (argsIn s.buf m argc)[i]? = some (argvOf (s.buf.receive m) (i + 1)) := by
    simp [argsIn, hi]
  rw [hget, translateArg]
  split_ifs
  · exact hid _ (List.mem_of_getElem? hget)
  · rfl

private theorem requested_none {s : State Cl}
    (h : ∀ d argc, ClFunction.ofArg ((s.buf.receive m).word 1) = some (d, argc) →
      execFunTable lib d = none) : s.requested lib m = none := by
  rw [State.requested]
  split_ifs
  · rw [Option.eq_none_iff_forall_ne_some]
    rintro ⟨d, args⟩ hx
    obtain ⟨pfn, ptrargs, hd, hpfn, -⟩ := prepare_request_eq_some.mp hx
    rw [h d _ hd] at hpfn
    cases hpfn
  · rfl

end

private def stateWith (buf : Buffer recvbufsz) (map : IdSet GlobalId Arg) : State Cl :=
  { State.initial lib [] fun _ => 0 with buf := buf, idMap := map }

variable {m : Bytes}

/-- Of a request without a function number the buffer decides which function is called. -/
private theorem DecidedByItself.nine_le (h : DecidedByItself lib m) : 9 ≤ m.length := by
  by_contra hlen
  have hm : m.length ≤ recvbufsz := by
    unfold recvbufsz
    omega
  have hone : 8 * 1 + 8 ≤ recvbufsz := by decide
  obtain ⟨map, hmap⟩ := exists_identity (argsIn ((filled 0).setWord 1 63) m 1)
  have hskip : (stateWith lib (filled 0) map).requested lib m = none := by
    apply requested_none
    intro d argc hd
    rw [show (stateWith lib (filled 0) map).buf = filled 0 from rfl,
      Buffer.word_receive_after _ (by omega) hm] at hd
    have hzero : ClFunction.ofArg ((filled 0).word 1) = some (.getPlatformIDs, 3) := by decide
    obtain ⟨rfl, -⟩ := Prod.mk.inj (Option.some.inj (hzero.symm.trans hd))
    rfl
  have hflush : ClFunction.ofArg ((((filled 0).setWord 1 63).receive m).word 1) =
      some (.flush, 1) := by
    rw [Buffer.word_receive_after _ (by omega) hm, Buffer.word_setWord_self _ hone]
    decide
  have hcall := requested_identity lib
    (s := stateWith lib ((filled 0).setWord 1 63) map) hm hflush rfl hmap
  have heq := h (stateWith lib (filled 0) map) ((filled 0).setWord 1 63)
  rw [hskip] at heq
  exact absurd (heq.trans hcall) (by simp)

/-- A part of a function number may be completed to a number outside of the table. -/
private theorem DecidedByItself.twelve_le (h : DecidedByItself lib m) {d : ClFunction} {argc : ℕ}
    (hn : namedFunction lib m = some (d, argc)) : 12 ≤ m.length := by
  have hnine := h.nine_le
  by_contra hlen
  have hm : m.length ≤ recvbufsz := by
    unfold recvbufsz
    omega
  have hone : 8 * 1 + 8 ≤ recvbufsz := by decide
  obtain ⟨hd, ht⟩ := Option.filter_eq_some_iff.mp hn
  obtain ⟨map, hmap⟩ := exists_identity (argsIn (filled 0) m argc)
  have hcall := requested_identity lib (s := stateWith lib (filled 0) map) hm
    (by rw [show (stateWith lib (filled 0) map).buf = filled 0 from rfl,
      word_receive_filled_zero hm hone, hd]) ht hmap
  have hskip : (stateWith lib (filled 255) map).requested lib m = none := by
    apply requested_none
    intro d argc hd
    have hpow : 256 ≤ 256 ^ (m.drop (8 * 1)).length := by
      rw [List.length_drop]
      exact Nat.le_self_pow (by omega) 256
    have hpos : 0 < Bytes.toNat (List.replicate (min 4 (8 * 1 + 4 - m.length)) 255) := by
      obtain ⟨k, hk⟩ : ∃ k, min 4 (8 * 1 + 4 - m.length) = k + 1 :=
        ⟨min 4 (8 * 1 + 4 - m.length) - 1, by omega⟩
      rw [hk, List.replicate_succ, Bytes.toNat]
      exact Nat.add_pos_left (by decide) _
    have hmul := Nat.mul_le_mul hpow hpos
    rw [show (stateWith lib (filled 255) map).buf = filled 255 from rfl, ofArg_eq_none] at hd
    · cases hd
    · rw [Buffer.word, Bytes.toNat_wordAt_mod,
        toNat_word_filled 255 hm (by omega) (by omega)]
      omega
  have heq := h (stateWith lib (filled 0) map) (filled 255)
  exact absurd (hcall.symm.trans (heq.trans hskip)) (by simp)

/-- An argument that has not arrived in full is read from the buffer. -/
private theorem DecidedByItself.arguments (h : DecidedByItself lib m) {d : ClFunction} {argc : ℕ}
    (hn : namedFunction lib m = some (d, argc)) : argc = 0 ∨ 24 + 8 * argc ≤ m.length := by
  have htwelve := h.twelve_le lib hn
  by_contra hshort
  rw [not_or] at hshort
  obtain ⟨hd, ht⟩ := Option.filter_eq_some_iff.mp hn
  have hargc := ClFunction.argc_le hd
  have hm : m.length ≤ recvbufsz := by
    unfold recvbufsz
    omega
  have hlast : 8 * (2 + argc) + 8 ≤ recvbufsz := by
    unfold recvbufsz
    omega
  obtain ⟨map, hmap⟩ := exists_identity (argsIn (filled 0) m argc ++ argsIn (filled 255) m argc)
  have hzero := requested_identity lib (s := stateWith lib (filled 0) map) hm
    (by rw [ofArg_receive hm htwelve, hd]) ht
    fun arg harg => hmap arg (List.mem_append_left _ harg)
  have hones := requested_identity lib (s := stateWith lib (filled 255) map) hm
    (by rw [ofArg_receive hm htwelve, hd]) ht
    fun arg harg => hmap arg (List.mem_append_right _ harg)
  have heq := h (stateWith lib (filled 0) map) (filled 255)
  have hargs : argsIn (filled 0) m argc = argsIn (filled 255) m argc :=
    (Prod.mk.inj (Option.some.inj (hzero.symm.trans (heq.trans hones)))).2
  have hword := congrArg (fun l => l[argc - 1]?) hargs
  have hsub : argc - 1 + 1 = argc := by omega
  simp only [argsIn, List.getElem?_map, List.getElem?_range (show argc - 1 < argc by omega),
    Option.map_some, Option.some.injEq, hsub, argvOf] at hword
  exact word_receive_filled_ne hm hlast (by omega) hword

/-- A request is decided by its own bytes exactly when it is complete. -/
theorem decidedByItself_iff (m : Bytes) : DecidedByItself lib m ↔ Complete lib m := by
  constructor
  · intro h
    exact ⟨h.nine_le, fun d argc hn => ⟨h.twelve_le lib hn, h.arguments lib hn⟩⟩
  · exact Complete.decidedByItself

/-- A library that has nothing to say. -/
def silentCl : OpenCl Unit where
  init := ()
  call _ _ cl mem := (cl, mem, ⟨0, 0⟩)

/-- A `clFlush` request that ends before its argument, the queue. -/
theorem not_decidedByItself_flush : ¬ ∀ m : Bytes, DecidedByItself silentCl m := by
  intro h
  have hn : namedFunction silentCl (Bytes.words [0, 63, 0]) = some (.flush, 1) := by decide
  rcases (h (Bytes.words [0, 63, 0])).arguments silentCl hn with h | h
  · cases h
  · simp at h

end Clara.Provider
