import Clara.Provider.Isolation

/-! `mapping_translate_list_to_real` where the list of ids and the list of pointers are one array, as
the handlers call it: how far the translation comes, and what it leaves. -/
namespace Clara.Provider

open Conc PProg

variable {Cl : Type}

theorem Memory.put_eq_self {mem : Memory} {ptr : Arg} {b : Bytes} (h : mem ptr = some b) :
    mem.put ptr (some b) = mem := by
  rw [Memory.put, ← h, Function.update_eq_self]

theorem Memory.put_put (mem : Memory) (ptr : Arg) (b b' : Option Bytes) :
    (mem.put ptr b).put ptr b' = mem.put ptr b' := Function.update_idem ..

section
variable {s : State Cl} {ptr : Arg} {pre : List Arg} {rest : Bytes}

theorem words_middle (pre : List Arg) (w : Arg) (ws : List Arg) (rest : Bytes) :
    Bytes.words pre ++ (Bytes.words (w :: ws) ++ rest) =
      Bytes.words pre ++ (Bytes.word w ++ (Bytes.words ws ++ rest)) := by
  rw [Bytes.words, List.append_assoc]

theorem words_snoc (pre : List Arg) (w : Arg) (x : Bytes) :
    Bytes.words (pre ++ [w]) ++ x = Bytes.words pre ++ (Bytes.word w ++ x) := by
  rw [Bytes.words_append, Bytes.words, Bytes.words, List.append_nil, List.append_assoc]

theorem loadWord_middle {w : Arg} {ws : List Arg}
    (h : s.mem ptr = some (Bytes.words pre ++ (Bytes.words (w :: ws) ++ rest))) :
    loadWord ptr pre.length s = .done s w := by
  have hlen : 8 * pre.length + 8 ≤
      (Bytes.words pre ++ (Bytes.words (w :: ws) ++ rest)).length := by
    rw [List.length_append, List.length_append, Bytes.length_words, Bytes.length_words,
      List.length_cons]
    omega
  have hword : (Bytes.words pre ++ (Bytes.words (w :: ws) ++ rest)).wordAt pre.length = w := by
    rw [← List.append_assoc, ← Bytes.words_append,
      Bytes.wordAt_words _ _ _ (by rw [List.length_append, List.length_cons]; omega)]
    rw [List.getElem_append_right le_rfl]
    simp
  rw [loadWord_run h hlen, hword]

/-- The state with another block at an address. -/
def State.withBlock (s : State Cl) (ptr : Arg) (b : Bytes) : State Cl :=
  { s with mem := s.mem.put ptr (some b) }

theorem State.withBlock_mem (s : State Cl) (ptr : Arg) (b : Bytes) :
    (s.withBlock ptr b).mem ptr = some b := s.mem.put_self _ _

theorem State.withBlock_eq_self {b : Bytes} (h : s.mem ptr = some b) : s.withBlock ptr b = s := by
  rw [State.withBlock, Memory.put_eq_self h]

theorem State.withBlock_withBlock (b b' : Bytes) :
    (s.withBlock ptr b).withBlock ptr b' = s.withBlock ptr b' := by
  rw [State.withBlock, State.withBlock, Memory.put_put, State.withBlock]

theorem store_middle {w : Arg} (real : Arg) {ws : List Arg}
    (h : s.mem ptr = some (Bytes.words pre ++ (Bytes.words (w :: ws) ++ rest))) :
    store ptr (8 * pre.length) (Bytes.word real) s =
      .done (s.withBlock ptr (Bytes.words (pre ++ [real]) ++ (Bytes.words ws ++ rest))) () := by
  have hlen : 8 * pre.length + (Bytes.word real).length ≤
      (Bytes.words pre ++ (Bytes.words (w :: ws) ++ rest)).length := by
    rw [List.length_append, List.length_append, Bytes.length_words, Bytes.length_words,
      Bytes.length_word, List.length_cons]
    omega
  have hover : (Bytes.words pre ++ (Bytes.words (w :: ws) ++ rest)).overwrite (8 * pre.length)
      (Bytes.word real) = Bytes.words (pre ++ [real]) ++ (Bytes.words ws ++ rest) := by
    rw [words_middle, words_snoc, ← Bytes.length_words]
    exact Bytes.overwrite_append (by rw [Bytes.length_word, Bytes.length_word]) _
  rw [store_run h hlen, hover, State.withBlock]

end

/-- The first `k` ids are mapped, and no more than these in a row. They are replaced by what they
stand for, and what is behind them stays. -/
structure TranslatesPrefix (map : IdSet GlobalId Arg) (ids : List GlobalId) (k : ℕ)
    (out : List Arg) : Prop where
  le : k ≤ ids.length
  mapped : ∀ i < k, ∃ id real, ids[i]? = some id ∧ map.lookup id = some real ∧ out[i]? = some real
  longest : ∀ id, ids[k]? = some id → map.lookup id = none
  unchanged : ∀ i, k ≤ i → out[i]? = ids[i]?

section
variable {map : IdSet GlobalId Arg} {id : GlobalId} {real : Arg} {ids : List GlobalId} {k : ℕ}
  {out : List Arg}

theorem TranslatesPrefix.nil : TranslatesPrefix map [] 0 [] where
  le := Nat.le_refl _
  mapped i hi := absurd hi (Nat.not_lt_zero i)
  longest id h := by cases h
  unchanged i _ := rfl

theorem TranslatesPrefix.stop (h : map.lookup id = none) :
    TranslatesPrefix map (id :: ids) 0 (id :: ids) where
  le := Nat.zero_le _
  mapped i hi := absurd hi (Nat.not_lt_zero i)
  longest id' hid' := by
    obtain rfl := Option.some.inj hid'
    exact h
  unchanged i _ := rfl

theorem TranslatesPrefix.cons (h : TranslatesPrefix map ids k out)
    (hreal : map.lookup id = some real) :
    TranslatesPrefix map (id :: ids) (k + 1) (real :: out) where
  le := Nat.succ_le_succ h.le
  mapped i hi := by
    cases i with
    | zero => exact ⟨id, real, rfl, hreal, rfl⟩
    | succ i => exact h.mapped i (Nat.lt_of_succ_lt_succ hi)
  longest id' hid' := h.longest id' hid'
  unchanged i hi := by
    cases i with
    | zero => exact absurd hi (Nat.not_succ_le_zero k)
    | succ i => exact h.unchanged i (Nat.le_of_succ_le_succ hi)

/-- Where every id is mapped, the whole list is translated. -/
theorem TranslatesPrefix.full {reals : List Arg} (h : TranslatesPrefix map ids k out)
    (hmap : ids.map map.lookup = reals.map some) : k = ids.length ∧ out = reals := by
  have hentry : ∀ i : ℕ, (ids[i]?).map map.lookup = (reals[i]?).map some := by
    intro i
    rw [← List.getElem?_map, hmap, List.getElem?_map]
  have hk : k = ids.length := by
    rcases h.le.lt_or_eq with hlt | heq
    · have hnone := h.longest _ (List.getElem?_eq_getElem hlt)
      have hreal := hentry k
      rw [List.getElem?_eq_getElem hlt, Option.map_some, hnone] at hreal
      obtain ⟨real, -, hreal⟩ := Option.map_eq_some_iff.mp hreal.symm
      cases hreal
    · exact heq
  refine ⟨hk, List.ext_getElem? fun i => ?_⟩
  have hreal := hentry i
  by_cases hi : i < k
  · obtain ⟨id, real, hid, hlookup, hout⟩ := h.mapped i hi
    rw [hid, Option.map_some, hlookup] at hreal
    obtain ⟨real', hreals, heq⟩ := Option.map_eq_some_iff.mp hreal.symm
    rw [hout, hreals, Option.some.inj heq]
  · have hnone : ids[i]? = none := List.getElem?_eq_none (by omega)
    rw [hnone, Option.map_none] at hreal
    rw [h.unchanged i (not_lt.mp hi), hnone, Option.map_eq_none_iff.mp hreal.symm]

end

section
variable {s : State Cl} {ptr : Arg} {ids pre : List Arg} {rest : Bytes}

/-- The loop, with the entries in front already translated: the id that it reads has not been
written yet. -/
theorem mappingTranslateListToReal_go_run (hd : s.idMap.damaged = false)
    (h : s.mem ptr = some (Bytes.words pre ++ (Bytes.words ids ++ rest))) :
    ∃ k out, TranslatesPrefix s.idMap ids k out ∧
      mappingTranslateListToReal.go ptr ptr ids.length pre.length s =
        .done (s.withBlock ptr (Bytes.words (pre ++ out) ++ rest)) (pre.length + k) := by
  have hkept : ∀ l : List Arg, Bytes.words pre ++ (Bytes.words l ++ rest) =
      Bytes.words (pre ++ l) ++ rest := by
    intro l
    rw [Bytes.words_append, List.append_assoc]
  induction ids generalizing s pre with
  | nil =>
    refine ⟨0, [], .nil, ?_⟩
    rw [hkept] at h
    rw [State.withBlock_eq_self h]
    rfl
  | cons id ids ih =>
    cases hfind : s.idMap.lookup id with
    | none =>
      refine ⟨0, id :: ids, .stop hfind, ?_⟩
      rw [List.length_cons, mappingTranslateListToReal.go, bind_run, loadWord_middle h,
        Outcome.bind_done, bind_run, mappingFindByVirt_run hd, hfind, Outcome.bind_done]
      rw [hkept] at h
      rw [State.withBlock_eq_self h]
      rfl
    | some real =>
      have hstored : (s.withBlock ptr _).mem ptr = _ := State.withBlock_mem s ptr
        (Bytes.words (pre ++ [real]) ++ (Bytes.words ids ++ rest))
      have hcount : (pre ++ [real]).length = pre.length + 1 := List.length_append
      obtain ⟨k, out, hprefix, hrun⟩ := ih (s := s.withBlock ptr _) hd hstored
        (fun l => by rw [Bytes.words_append (pre ++ [real]), List.append_assoc])
      rw [hcount] at hrun
      refine ⟨k + 1, real :: out, hprefix.cons hfind, ?_⟩
      rw [List.length_cons, mappingTranslateListToReal.go, bind_run, loadWord_middle h,
        Outcome.bind_done, bind_run, mappingFindByVirt_run hd, hfind, Outcome.bind_done]
      show (store ptr (8 * pre.length) (Bytes.word real) >>= fun _ => _) s = _
      rw [bind_run, store_middle _ h, Outcome.bind_done, hrun, State.withBlock_withBlock,
        List.append_assoc, List.singleton_append]
      congr 1
      omega

/-- Translated in place, a list is translated up to the first id that stands for nothing, and stays
as it was from there on. -/
theorem mappingTranslateListToReal_inPlace (hd : s.idMap.damaged = false) (hptr : ptr ≠ 0)
    (h : s.mem ptr = some (Bytes.words ids ++ rest)) :
    ∃ k out, TranslatesPrefix s.idMap ids k out ∧
      mappingTranslateListToReal ptr ptr ids.length s =
        .done (s.withBlock ptr (Bytes.words out ++ rest)) k := by
  have hall : s.mem ptr = some (Bytes.words [] ++ (Bytes.words ids ++ rest)) := h
  obtain ⟨k, out, hprefix, hrun⟩ := mappingTranslateListToReal_go_run hd hall
  refine ⟨k, out, hprefix, ?_⟩
  by_cases hnil : ids = []
  · subst hnil
    rw [mappingTranslateListToReal, if_pos (.inl rfl)]
    exact hrun.trans (by rw [List.length_nil, Nat.zero_add, List.nil_append])
  · have hzero : ¬ (ids.length = 0 ∨ ptr = 0) := by
      rintro (h0 | h0)
      · exact hnil (List.length_eq_zero_iff.mp h0)
      · exact hptr h0
    rw [List.length_nil, Nat.zero_add, List.nil_append] at hrun
    rw [mappingTranslateListToReal, if_neg hzero, hrun]

end

/-- A provider with two mapped ids, of which 10 stands for a pointer that is the other id; a list
stands at 500. -/
def State.twoMapped : State Unit :=
  { State.initial silentCl [] fun _ => 0 with
    idMap := (IdSet.empty.add 10 12).add 12 4096
    mem := fun p => if p = 500 then some (Bytes.words [10, 12, 11, 10]) else none }

theorem mappingTranslateListToReal_twoMapped :
    ∃ k out, TranslatesPrefix State.twoMapped.idMap [10, 12, 11, 10] k out ∧
      mappingTranslateListToReal 500 500 4 State.twoMapped =
        .done (State.twoMapped.withBlock 500 (Bytes.words out ++ [])) k :=
  mappingTranslateListToReal_inPlace (by decide) (by decide) (by rw [List.append_nil]; rfl)

end Clara.Provider
