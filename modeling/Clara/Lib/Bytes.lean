import Mathlib.Tactic.Ring
import Mathlib.Algebra.Order.Ring.Nat

/-! Byte strings: little-endian numbers, the words of a record, and cutting a string into
pieces of bounded length. -/

abbrev Bytes := List UInt8

namespace Bytes

/-- The `k` low bytes of `n`, lowest first. -/
def ofNat : ℕ → ℕ → Bytes
  | 0, _ => []
  | k + 1, n => UInt8.ofNat (n % 256) :: ofNat k (n / 256)

def toNat : Bytes → ℕ
  | [] => 0
  | b :: bs => b.toNat + 256 * toNat bs

@[simp] theorem length_ofNat (k n : ℕ) : (ofNat k n).length = k := by
  induction k generalizing n with
  | zero => rfl
  | succ k ih => rw [ofNat, List.length_cons, ih]

@[simp] theorem toNat_ofNat (k n : ℕ) : toNat (ofNat k n) = n % 256 ^ k := by
  induction k generalizing n with
  | zero => simp [ofNat, toNat, Nat.mod_one]
  | succ k ih =>
    have hb : (UInt8.ofNat (n % 256)).toNat = n % 256 := by
      simp [UInt8.toNat_ofNat']
    rw [ofNat, toNat, hb, ih, pow_succ', Nat.mod_mul]

theorem ofNat_toNat (b : Bytes) : ofNat b.length (toNat b) = b := by
  induction b with
  | nil => rfl
  | cons x b ih =>
    have hx : x.toNat < 256 := x.toNat_lt
    have hmod : (x.toNat + 256 * toNat b) % 256 = x.toNat := by omega
    have hdiv : (x.toNat + 256 * toNat b) / 256 = toNat b := by omega
    rw [List.length_cons, toNat, ofNat, hmod, hdiv, ih, UInt8.ofNat_toNat]

theorem toNat_append (a b : Bytes) : toNat (a ++ b) = toNat a + 256 ^ a.length * toNat b := by
  induction a with
  | nil => simp [toNat]
  | cons x a ih =>
    rw [List.cons_append, toNat, toNat, ih, List.length_cons]
    ring

theorem toNat_lt (a : Bytes) : toNat a < 256 ^ a.length := by
  induction a with
  | nil => simp [toNat]
  | cons x a ih =>
    have hx : x.toNat < 256 := x.toNat_lt
    rw [toNat, List.length_cons, pow_succ']
    omega

theorem toNat_mod (a : Bytes) (k : ℕ) : toNat a % 256 ^ k = toNat (a.take k) := by
  rcases le_total k a.length with h | h
  · have hlen : (a.take k).length = k := List.length_take_of_le h
    have hlt := toNat_lt (a.take k)
    have hsplit := toNat_append (a.take k) (a.drop k)
    rw [List.take_append_drop, hlen] at hsplit
    rw [hlen] at hlt
    rw [hsplit, Nat.add_mul_mod_self_left, Nat.mod_eq_of_lt hlt]
  · have hlt : 256 ^ a.length ≤ 256 ^ k := Nat.pow_le_pow_right (by omega) h
    rw [List.take_of_length_le h, Nat.mod_eq_of_lt ((toNat_lt a).trans_le hlt)]

theorem toNat_replicate_zero (n : ℕ) : toNat (List.replicate n 0) = 0 := by
  induction n with
  | zero => rfl
  | succ n ih => simp [List.replicate_succ, toNat, ih]

/-- The bytes of a 64-bit word. -/
def word (w : UInt64) : Bytes := ofNat 8 w.toNat

/-- The bytes of consecutive 64-bit words. -/
def words : List UInt64 → Bytes
  | [] => []
  | w :: ws => word w ++ words ws

/-- The `i`-th 64-bit word of a record. -/
def wordAt (b : Bytes) (i : ℕ) : UInt64 := UInt64.ofNat (toNat ((b.drop (8 * i)).take 8))

@[simp] theorem length_word (w : UInt64) : (word w).length = 8 := length_ofNat 8 _

@[simp] theorem length_words (ws : List UInt64) : (words ws).length = 8 * ws.length := by
  induction ws with
  | nil => rfl
  | cons w ws ih =>
    rw [words, List.length_append, length_word, ih, List.length_cons]
    ring

theorem words_append (ws vs : List UInt64) : words (ws ++ vs) = words ws ++ words vs := by
  induction ws with
  | nil => rfl
  | cons w ws ih => rw [List.cons_append, words, words, ih, List.append_assoc]

theorem ofNat_toNat_word (w : UInt64) : UInt64.ofNat (toNat (word w)) = w := by
  rw [word, toNat_ofNat, Nat.mod_eq_of_lt (by simpa using w.toNat_lt), UInt64.ofNat_toNat]

@[simp] theorem wordAt_zero (w : UInt64) (b : Bytes) : wordAt (word w ++ b) 0 = w := by
  rw [wordAt, Nat.mul_zero, List.drop_zero, List.take_left' (length_word w), ofNat_toNat_word]

@[simp] theorem wordAt_word (w : UInt64) : wordAt (word w) 0 = w := by
  simpa using wordAt_zero w []

theorem word_wordAt {b : Bytes} (h : b.length = 8) : word (b.wordAt 0) = b := by
  have hlt := toNat_lt b
  rw [h] at hlt
  rw [wordAt, Nat.mul_zero, List.drop_zero, List.take_of_length_le h.le, word,
    UInt64.toNat_ofNat', Nat.mod_eq_of_lt (by omega), ← h, ofNat_toNat]

@[simp] theorem wordAt_succ (w : UInt64) (b : Bytes) (i : ℕ) :
    wordAt (word w ++ b) (i + 1) = wordAt b i := by
  rw [wordAt, Nat.mul_succ, Nat.add_comm, ← List.drop_drop, List.drop_left' (length_word w),
    wordAt]

theorem wordAt_words (ws : List UInt64) (b : Bytes) (i : ℕ) (h : i < ws.length) :
    wordAt (words ws ++ b) i = ws[i] := by
  induction ws generalizing i with
  | nil => simp at h
  | cons w ws ih =>
    rw [words, List.append_assoc]
    cases i with
    | zero => rw [wordAt_zero, List.getElem_cons_zero]
    | succ i =>
      rw [wordAt_succ, List.getElem_cons_succ]
      exact ih i (by simpa using h)

/-- As many words at the start of the same bytes are the same words. -/
theorem words_inj {ws vs : List UInt64} {a b : Bytes} (hlen : ws.length = vs.length)
    (h : words ws ++ a = words vs ++ b) : ws = vs := by
  apply List.ext_getElem hlen
  intro i hi hi'
  rw [← wordAt_words ws a i hi, h, wordAt_words vs b i hi']

end Bytes

def List.pieces {α : Type} (n : ℕ) (l : List α) : List (List α) :=
  if _ : n = 0 ∨ l = [] then [] else l.take n :: (l.drop n).pieces n
termination_by l.length
decreasing_by
  rename_i h
  rw [not_or] at h
  have := List.length_pos_iff.mpr h.2
  rw [List.length_drop]
  omega

namespace List
variable {α : Type} {n : ℕ}

@[simp] theorem pieces_nil : ([] : List α).pieces n = [] := by
  rw [pieces, dif_pos (.inr rfl)]

theorem pieces_zero (l : List α) : l.pieces 0 = [] := by
  rw [pieces, dif_pos (.inl rfl)]

theorem pieces_of_ne {l : List α} (hn : 0 < n) (hl : l ≠ []) :
    l.pieces n = l.take n :: (l.drop n).pieces n := by
  rw [pieces, dif_neg]
  rintro (h | h)
  · omega
  · exact hl h

theorem flatten_pieces (hn : 0 < n) (l : List α) : (l.pieces n).flatten = l := by
  induction l using pieces.induct n with
  | case1 l h =>
    rcases h with h | rfl
    · omega
    · simp
  | case2 l h ih =>
    rw [pieces_of_ne hn fun hl => h (.inr hl), flatten_cons, ih, take_append_drop]

theorem length_pieces_le (l : List α) : (l.pieces n).length ≤ l.length := by
  induction l using pieces.induct n with
  | case1 l h => rw [pieces, dif_pos h]; exact Nat.zero_le _
  | case2 l h ih =>
    have hl : l ≠ [] := fun hl => h (.inr hl)
    have hpos := length_pos_iff.mpr hl
    have hrest : (l.drop n).length = l.length - n := length_drop
    rw [pieces_of_ne (by omega) hl, length_cons]
    omega

theorem mem_pieces {l p : List α} (h : p ∈ l.pieces n) : 0 < p.length ∧ p.length ≤ n := by
  induction l using pieces.induct n with
  | case1 l hl =>
    rw [pieces, dif_pos hl] at h
    cases h
  | case2 l hl ih =>
    rw [not_or] at hl
    rw [pieces_of_ne (by omega) hl.2, mem_cons] at h
    rcases h with rfl | h
    · have := length_pos_iff.mpr hl.2
      rw [length_take]
      omega
    · exact ih h

end List
