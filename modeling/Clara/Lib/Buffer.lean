import Clara.Lib.Bytes

/-! A buffer of fixed size for the messages that arrive one after the other: each overwrites
the first bytes, and what it does not reach stays from the messages before. -/

namespace Bytes

def overwrite (b : Bytes) (off : ℕ) (v : Bytes) : Bytes :=
  b.take off ++ v ++ b.drop (off + v.length)

theorem length_overwrite {b v : Bytes} {off : ℕ} (h : off + v.length ≤ b.length) :
    (b.overwrite off v).length = b.length := by
  rw [overwrite, List.length_append, List.length_append, List.length_take, List.length_drop]
  omega

def slice (b : Bytes) (off n : ℕ) : Bytes := (b.drop off).take n

theorem wordAt_eq_slice (b : Bytes) (i : ℕ) :
    b.wordAt i = UInt64.ofNat (toNat (b.slice (8 * i) 8)) := rfl

@[simp] theorem length_slice (b : Bytes) (off n : ℕ) :
    (b.slice off n).length = min n (b.length - off) := by
  rw [slice, List.length_take, List.length_drop]

theorem toNat_wordAt (b : Bytes) (i : ℕ) : (b.wordAt i).toNat = toNat (b.slice (8 * i) 8) := by
  have hlt := toNat_lt (b.slice (8 * i) 8)
  have hpow : 256 ^ (b.slice (8 * i) 8).length ≤ 256 ^ 8 :=
    Nat.pow_le_pow_right (by omega) (by rw [length_slice]; omega)
  rw [wordAt_eq_slice, UInt64.toNat_ofNat', Nat.mod_eq_of_lt (by omega)]

theorem toNat_wordAt_mod (b : Bytes) (i : ℕ) :
    (b.wordAt i).toNat % 2 ^ 32 = toNat (b.slice (8 * i) 4) := by
  have hmod := toNat_mod (b.slice (8 * i) 8) 4
  rw [toNat_wordAt, show (2 : ℕ) ^ 32 = 256 ^ 4 by norm_num, hmod, slice, List.take_take, slice,
    min_eq_left (by omega)]

theorem slice_append_left {b v : Bytes} {off n : ℕ} (h : off + n ≤ b.length) :
    slice (b ++ v) off n = b.slice off n := by
  rw [slice, slice, List.drop_append_of_le_length (by omega), List.take_append_of_le_length]
  rw [List.length_drop]
  omega

theorem slice_append_right {b v : Bytes} {off n : ℕ} (h : b.length ≤ off) :
    slice (b ++ v) off n = v.slice (off - b.length) n := by
  rw [slice, slice, List.drop_append, List.drop_eq_nil_of_le h, List.nil_append]

theorem slice_overwrite_self {b v : Bytes} {off : ℕ} (h : off ≤ b.length) :
    (b.overwrite off v).slice off v.length = v := by
  have hlen : (b.take off).length = off := by
    rw [List.length_take]
    omega
  rw [overwrite, List.append_assoc, slice_append_right (by omega), hlen, Nat.sub_self,
    slice_append_left (by omega), slice, List.drop_zero, List.take_length]

theorem slice_overwrite_before {b v : Bytes} {off i n : ℕ} (h : i + n ≤ off)
    (hoff : off ≤ b.length) : (b.overwrite off v).slice i n = b.slice i n := by
  have hlen : (b.take off).length = off := by
    rw [List.length_take]
    omega
  rw [overwrite, List.append_assoc, slice_append_left (by omega), slice, slice, List.drop_take,
    List.take_take, min_eq_left (by omega)]

theorem slice_overwrite_after {b v : Bytes} {off i n : ℕ} (h : off + v.length ≤ i)
    (hoff : off ≤ b.length) : (b.overwrite off v).slice i n = b.slice i n := by
  have hlen : (b.take off ++ v).length = off + v.length := by
    rw [List.length_append, List.length_take]
    omega
  rw [overwrite, slice_append_right (by omega), hlen, slice, slice, List.drop_drop]
  congr 2
  omega

theorem wordAt_overwrite_of_ne {b : Bytes} {i j : ℕ} (h : i ≠ j) (hj : 8 * j ≤ b.length)
    (w : UInt64) : (b.overwrite (8 * j) (word w)).wordAt i = b.wordAt i := by
  rw [wordAt_eq_slice, wordAt_eq_slice]
  rcases lt_or_gt_of_ne h with hlt | hlt
  · rw [slice_overwrite_before (by omega) hj]
  · rw [slice_overwrite_after (by rw [length_word]; omega) hj]

/-- A store of as many bytes as stand there. -/
theorem overwrite_append {a u v : Bytes} (h : v.length = u.length) (x : Bytes) :
    (a ++ (u ++ x)).overwrite a.length v = a ++ (v ++ x) := by
  rw [overwrite, List.take_left, ← List.append_assoc a u x, h, ← List.length_append,
    List.drop_left, List.append_assoc]

theorem wordAt_append {b v : Bytes} {i : ℕ} (h : 8 * i + 8 ≤ b.length) :
    wordAt (b ++ v) i = b.wordAt i := by
  rw [wordAt_eq_slice, slice_append_left h, wordAt_eq_slice]

/-- A slice that runs over the end of the first part into equal bytes. -/
theorem slice_append_replicate {b : Bytes} {off n k : ℕ} (x : UInt8) (hb : b.length ≤ off + n)
    (hk : off + n ≤ b.length + k) : slice (b ++ List.replicate k x) off n =
      b.drop off ++ List.replicate (min n (off + n - b.length)) x := by
  rw [slice, List.drop_append, List.take_append, List.take_of_length_le, List.drop_replicate,
    List.take_replicate, List.length_drop]
  · congr 2
    omega
  · rw [List.length_drop]
    omega

end Bytes

/-- A buffer of `n` bytes. -/
structure Buffer (n : ℕ) where
  bytes : Bytes
  length_bytes : bytes.length = n

namespace Buffer
variable {n : ℕ}

def receive (b : Buffer n) (m : Bytes) : Buffer n where
  bytes := m.take n ++ b.bytes.drop m.length
  length_bytes := by
    rw [List.length_append, List.length_take, List.length_drop, b.length_bytes]
    omega

/-- The `i`-th 64-bit word. -/
def word (b : Buffer n) (i : ℕ) : UInt64 := b.bytes.wordAt i

/-- A store to the `i`-th word; one past the end is not made. -/
def setWord (b : Buffer n) (i : ℕ) (w : UInt64) : Buffer n where
  bytes := if 8 * i + 8 ≤ n then b.bytes.overwrite (8 * i) (Bytes.word w) else b.bytes
  length_bytes := by
    split_ifs with h
    · rw [Bytes.length_overwrite (by rw [Bytes.length_word, b.length_bytes]; omega),
        b.length_bytes]
    · exact b.length_bytes

theorem receive_bytes (b : Buffer n) {m : Bytes} (h : m.length ≤ n) :
    (b.receive m).bytes = m ++ b.bytes.drop m.length := by
  show m.take n ++ b.bytes.drop m.length = m ++ b.bytes.drop m.length
  rw [List.take_of_length_le h]

theorem setWord_bytes (b : Buffer n) (i : ℕ) (w : UInt64) : (b.setWord i w).bytes =
    if 8 * i + 8 ≤ n then b.bytes.overwrite (8 * i) (Bytes.word w) else b.bytes := rfl

theorem word_receive (b : Buffer n) {m : Bytes} {i : ℕ} (h : 8 * i + 8 ≤ m.length)
    (hm : m.length ≤ n) : (b.receive m).word i = m.wordAt i := by
  rw [word, receive_bytes b hm, Bytes.wordAt_append h]

theorem word_receive_words (b : Buffer n) {ws : List UInt64} {m : Bytes} {i : ℕ} {w : UInt64}
    (hm : (Bytes.words ws ++ m).length ≤ n) (h : ws[i]? = some w) :
    (b.receive (Bytes.words ws ++ m)).word i = w := by
  obtain ⟨hi, rfl⟩ := List.getElem?_eq_some_iff.mp h
  have hlen : 8 * i + 8 ≤ (Bytes.words ws ++ m).length := by
    rw [List.length_append, Bytes.length_words]
    omega
  rw [word_receive _ hlen hm, Bytes.wordAt_words]

/-- A word that the message does not reach is what it was. -/
theorem word_receive_after (b : Buffer n) {m : Bytes} {i : ℕ} (h : m.length ≤ 8 * i)
    (hm : m.length ≤ n) : (b.receive m).word i = b.word i := by
  rw [word, word, receive_bytes b hm, Bytes.wordAt_eq_slice, Bytes.wordAt_eq_slice,
    Bytes.slice_append_right h, Bytes.slice, Bytes.slice, List.drop_drop, Nat.add_sub_cancel' h]

theorem word_setWord_self (b : Buffer n) {i : ℕ} (h : 8 * i + 8 ≤ n) (w : UInt64) :
    (b.setWord i w).word i = w := by
  have hlen : 8 * i ≤ b.bytes.length := by
    rw [b.length_bytes]
    omega
  have hslice := Bytes.slice_overwrite_self (v := Bytes.word w) hlen
  rw [Bytes.length_word] at hslice
  rw [word, setWord_bytes, if_pos h, Bytes.wordAt_eq_slice, hslice]
  exact Bytes.ofNat_toNat_word w

theorem word_setWord_of_ne (b : Buffer n) {i j : ℕ} (h : i ≠ j) (w : UInt64) :
    (b.setWord j w).word i = b.word i := by
  rw [word, setWord_bytes, word]
  split_ifs with hj
  · have hlen : 8 * j ≤ b.bytes.length := by
      rw [b.length_bytes]
      omega
    exact Bytes.wordAt_overwrite_of_ne h hlen w
  · rfl

end Buffer
