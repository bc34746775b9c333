import Mathlib.Data.List.Basic
import Clara.Lib.Buffer

/-! Records whose fields follow one another without padding, and strings that end with a zero
byte: where each of them is in the bytes that hold them. -/

namespace Bytes

theorem slice_overwrite_inside {b v : Bytes} {off i n : ℕ} (h : i + n ≤ v.length)
    (hoff : off ≤ b.length) : (b.overwrite off v).slice (off + i) n = v.slice i n := by
  have hlen : (b.take off).length = off := List.length_take_of_le hoff
  have hsub : off + i - off = i := by omega
  rw [overwrite, List.append_assoc, slice_append_right (by omega), hlen, hsub,
    slice_append_left h]

/-- Two writes, the second right after the first. -/
theorem overwrite_overwrite {b v w : Bytes} {off : ℕ} (h : off + v.length ≤ b.length) :
    (b.overwrite off v).overwrite (off + v.length) w = b.overwrite off (v ++ w) := by
  have hlen : (b.take off ++ v).length = off + v.length := by
    rw [List.length_append, List.length_take_of_le (by omega)]
  have htake : (b.take off ++ v ++ b.drop (off + v.length)).take (off + v.length) =
      b.take off ++ v := List.take_left' hlen
  have hdrop : (b.take off ++ v ++ b.drop (off + v.length)).drop (off + v.length + w.length) =
      b.drop (off + v.length + w.length) := by
    rw [List.drop_append, List.drop_eq_nil_of_le (by omega), hlen, List.nil_append, List.drop_drop]
    congr 1
    omega
  rw [overwrite, overwrite, htake, hdrop, overwrite, List.length_append, List.append_assoc,
    List.append_assoc, List.append_assoc, List.append_assoc, Nat.add_assoc]

def strlen (b : Bytes) : ℕ := (b.takeWhile (· ≠ 0)).length

theorem strlen_append_zero {str : Bytes} (h : 0 ∉ str) (rest : Bytes) :
    strlen (str ++ 0 :: rest) = str.length := by
  have hall : ∀ x ∈ str, decide (x ≠ 0) = true := by
    intro x hx
    have hne : x ≠ 0 := fun h0 => h (h0 ▸ hx)
    simp [hne]
  rw [strlen, List.takeWhile_append_of_pos hall, List.takeWhile_cons_of_neg (by simp),
    List.append_nil]

/-- A zero byte among the first ones ends a string there. -/
theorem exists_of_strlen_lt {m t : Bytes} (h : strlen (m ++ t) < m.length) :
    ∃ str rest, 0 ∉ str ∧ str.length = strlen (m ++ t) ∧ m = str ++ 0 :: rest := by
  induction m with
  | nil => exact absurd h (Nat.not_lt_zero _)
  | cons x m ih =>
    by_cases hx : x = 0
    · subst hx
      refine ⟨[], m, List.not_mem_nil, ?_, rfl⟩
      rw [strlen, List.cons_append, List.takeWhile_cons_of_neg (by simp)]
    · have hlen : strlen (x :: m ++ t) = strlen (m ++ t) + 1 := by
        rw [strlen, List.cons_append, List.takeWhile_cons_of_pos (by simpa using hx),
          List.length_cons, strlen]
      rw [hlen, List.length_cons] at h
      obtain ⟨str, rest, hno, hstr, rfl⟩ := ih (Nat.lt_of_succ_lt_succ h)
      refine ⟨x :: str, rest, ?_, ?_, rfl⟩
      · rw [List.mem_cons, not_or]
        exact ⟨fun h0 => hx h0.symm, hno⟩
      · rw [hlen, List.length_cons, hstr]

end Bytes

namespace Layout
variable {ι : Type} (size : ι → ℕ)

/-- The number of bytes that the fields take. -/
def extent (l : List ι) : ℕ := (l.map size).sum

/-- The bytes of a record with the given values. -/
def record (value : ι → Bytes) (l : List ι) : Bytes := l.flatMap value

/-- Every field is as long as it has to be. -/
def Fits (value : ι → Bytes) (l : List ι) : Prop := ∀ i ∈ l, (value i).length = size i

/-- The distance of a field from the start of the record. -/
def offset [DecidableEq ι] (i : ι) : List ι → ℕ
  | [] => 0
  | j :: l => if j = i then 0 else size j + offset i l

def field [DecidableEq ι] (l : List ι) (i : ι) (b : Bytes) : Bytes :=
  b.slice (offset size i l) (size i)

section
variable {size} {value : ι → Bytes} {i j : ι} {l a c : List ι}

theorem extent_cons : extent size (j :: l) = size j + extent size l := by
  rw [extent, List.map_cons, List.sum_cons, extent]

theorem record_append : record value (a ++ l) = record value a ++ record value l :=
  List.flatMap_append

theorem Fits.of_cons (h : Fits size value (j :: l)) : Fits size value l :=
  fun i hi => h i (List.mem_cons_of_mem _ hi)

theorem Fits.length_record (h : Fits size value l) : (record value l).length = extent size l := by
  induction l with
  | nil => rfl
  | cons j l ih =>
    have hj := h j List.mem_cons_self
    have hcons : record value (j :: l) = value j ++ record value l := List.flatMap_cons
    rw [hcons, List.length_append, hj, ih h.of_cons, extent_cons]

variable [DecidableEq ι]

theorem offset_cons_self : offset size i (i :: l) = 0 := by
  rw [offset, if_pos rfl]

theorem offset_cons_of_ne (h : j ≠ i) : offset size i (j :: l) = size j + offset size i l := by
  rw [offset, if_neg h]

/-- A field ends inside the record. -/
theorem offset_add_le (h : i ∈ l) : offset size i l + size i ≤ extent size l := by
  induction l with
  | nil => cases h
  | cons j l ih =>
    rw [extent_cons]
    by_cases hj : j = i
    · subst hj
      rw [offset_cons_self]
      omega
    · have hi : i ∈ l := (List.mem_cons.mp h).resolve_left (Ne.symm hj)
      have := ih hi
      rw [offset_cons_of_ne hj]
      omega

theorem offset_append_left (h : i ∈ a) : offset size i (a ++ l) = offset size i a := by
  induction a with
  | nil => cases h
  | cons j a ih =>
    rw [List.cons_append]
    by_cases hj : j = i
    · subst hj
      rw [offset_cons_self, offset_cons_self]
    · have hi : i ∈ a := (List.mem_cons.mp h).resolve_left (Ne.symm hj)
      rw [offset_cons_of_ne hj, offset_cons_of_ne hj, ih hi]

theorem offset_append_right (h : i ∉ a) :
    offset size i (a ++ l) = extent size a + offset size i l := by
  induction a with
  | nil => exact (Nat.zero_add _).symm
  | cons j a ih =>
    rw [List.mem_cons, not_or] at h
    rw [List.cons_append, offset_cons_of_ne (Ne.symm h.1), ih h.2, extent_cons, Nat.add_assoc]

theorem field_record (h : Fits size value l) (hi : i ∈ l) :
    field size l i (record value l) = value i := by
  induction l with
  | nil => cases hi
  | cons j l ih =>
    have hj := h j List.mem_cons_self
    have hcons : record value (j :: l) = value j ++ record value l := List.flatMap_cons
    by_cases hji : j = i
    · subst hji
      rw [field, offset_cons_self, hcons, ← hj, Bytes.slice_append_left (by omega), Bytes.slice,
        List.drop_zero, List.take_length]
    · have hil : i ∈ l := (List.mem_cons.mp hi).resolve_left (Ne.symm hji)
      have hsub : size j + offset size i l - (value j).length = offset size i l := by omega
      rw [field, offset_cons_of_ne hji, hcons, Bytes.slice_append_right (by omega), hsub]
      exact ih h.of_cons hil

theorem record_field (hl : l.Nodup) {b : Bytes} (hb : b.length = extent size l) :
    record (fun i => field size l i b) l = b := by
  induction l generalizing b with
  | nil => exact (List.eq_nil_of_length_eq_zero hb).symm
  | cons j l ih =>
    obtain ⟨hj, hl⟩ := List.nodup_cons.mp hl
    rw [extent_cons] at hb
    have hcons : record (fun i => field size (j :: l) i b) (j :: l) =
        field size (j :: l) j b ++ record (fun i => field size (j :: l) i b) l :=
      List.flatMap_cons
    have hfirst : field size (j :: l) j b = b.take (size j) := by
      rw [field, offset_cons_self, Bytes.slice, List.drop_zero]
    have hothers : record (fun i => field size (j :: l) i b) l =
        record (fun i => field size l i (b.drop (size j))) l := by
      apply List.flatMap_congr
      intro i hi
      have hne : j ≠ i := by
        rintro rfl
        exact hj hi
      rw [field, field, offset_cons_of_ne hne, Bytes.slice, Bytes.slice, List.drop_drop]
    rw [hcons, hfirst, hothers, ih hl (by rw [List.length_drop]; omega), List.take_append_drop]

theorem length_field {b : Bytes} (hi : i ∈ l) (hb : extent size l ≤ b.length) :
    (field size l i b).length = size i := by
  have hle : offset size i l + size i ≤ extent size l := offset_add_le hi
  rw [field, Bytes.length_slice]
  omega

theorem field_overwrite (h : Fits size value l) (hi : i ∈ l) (ha : i ∉ a) {b : Bytes}
    (hb : extent size a + extent size l ≤ b.length) :
    field size (a ++ l ++ c) i (b.overwrite (extent size a) (record value l)) = value i := by
  have hle : offset size i l + size i ≤ (record value l).length := by
    rw [h.length_record]
    exact offset_add_le hi
  have hoff : offset size i (a ++ l ++ c) = extent size a + offset size i l := by
    rw [offset_append_left (List.mem_append_right _ hi), offset_append_right ha]
  rw [field, hoff, Bytes.slice_overwrite_inside hle (by omega)]
  exact field_record h hi

theorem field_overwrite_before (hi : i ∈ a) {b v : Bytes} (hb : extent size a ≤ b.length) :
    field size (a ++ c) i (b.overwrite (extent size a) v) = field size (a ++ c) i b := by
  have hle : offset size i a + size i ≤ extent size a := offset_add_le hi
  rw [field, field, offset_append_left hi, Bytes.slice_overwrite_before hle hb]

end

end Layout
