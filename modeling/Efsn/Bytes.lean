import Mathlib.Data.List.Lex
import Mathlib.Data.Nat.Digits

/-!
# Byte strings and their integer view

A Go string and a Go byte slice are both finite sequences of bytes, so the
model uses `List UInt8` for either.  `big.Int.SetBytes` reads such a
sequence as an unsigned big-endian number and `big.Int.Bytes` writes the
absolute value of an integer back with no leading zero byte.  Every integer
view of the identifier types goes through these two library functions.

The big-endian value is the little-endian `Nat.ofDigits` of the reversed
bytes; the lemmas below transport Mathlib's digit facts through that
equation rather than re-proving them.
-/

namespace Efsn

/-- The value of `new(big.Int).SetBytes(b)`: `b` read as an unsigned
big-endian number. -/
def setBytesValue (b : List UInt8) : Nat :=
  b.foldl (fun value byte => value * 256 + byte.toNat) 0

/-- `b.Bytes()` of a big integer: its absolute value as big-endian bytes
with no leading zero byte, so zero gives the empty slice. -/
def intBytes (v : Int) : List UInt8 :=
  ((Nat.digits 256 v.natAbs).map UInt8.ofNat).reverse

theorem setBytesValue_eq_ofDigits (b : List UInt8) :
    setBytesValue b = Nat.ofDigits 256 (b.reverse.map UInt8.toNat) := by
  induction b using List.reverseRecOn with
  | nil => rfl
  | append_singleton front last induction =>
      have step : setBytesValue (front ++ [last]) = setBytesValue front * 256 + last.toNat := by
        simp [setBytesValue, List.foldl_append]
      rw [step, induction]
      simp [Nat.ofDigits_cons]
      ring

@[simp]
theorem setBytesValue_nil : setBytesValue [] = 0 := rfl

@[simp]
theorem setBytesValue_singleton (byte : UInt8) : setBytesValue [byte] = byte.toNat := by
  simp [setBytesValue]

theorem setBytesValue_append (front back : List UInt8) :
    setBytesValue (front ++ back) =
      setBytesValue front * 256 ^ back.length + setBytesValue back := by
  simp only [setBytesValue_eq_ofDigits, List.reverse_append, List.map_append,
    Nat.ofDigits_append, List.length_map, List.length_reverse]
  ring

theorem setBytesValue_cons (head : UInt8) (tail : List UInt8) :
    setBytesValue (head :: tail) = head.toNat * 256 ^ tail.length + setBytesValue tail := by
  simpa using setBytesValue_append [head] tail

theorem setBytesValue_lt (b : List UInt8) : setBytesValue b < 256 ^ b.length := by
  have bounded : ∀ digit ∈ b.reverse.map UInt8.toNat, digit < 256 := by
    simp only [List.mem_map, List.mem_reverse]
    rintro _ ⟨byte, -, rfl⟩
    exact byte.toNat_lt_size
  simpa [setBytesValue_eq_ofDigits] using Nat.ofDigits_lt_base_pow_length (by norm_num) bounded

@[simp]
theorem setBytesValue_replicate_zero (count : Nat) (b : List UInt8) :
    setBytesValue (List.replicate count 0 ++ b) = setBytesValue b := by
  induction count with
  | zero => rfl
  | succ count induction =>
      rw [List.replicate_succ, List.cons_append, setBytesValue_cons]
      simpa using induction

/-- Keeping the last `n` bytes keeps the value modulo `256 ^ n`. -/
theorem setBytesValue_drop (b : List UInt8) (n : Nat) :
    setBytesValue (b.drop (b.length - n)) = setBytesValue b % 256 ^ n := by
  conv_rhs => rw [← List.take_append_drop (b.length - n) b, setBytesValue_append]
  have low := setBytesValue_lt (b.drop (b.length - n))
  have width : (b.drop (b.length - n)).length ≤ n := by simp; omega
  have fits : setBytesValue (b.drop (b.length - n)) < 256 ^ n :=
    lt_of_lt_of_le low (Nat.pow_le_pow_right (by norm_num) width)
  by_cases long : n ≤ b.length
  · have exact : (b.drop (b.length - n)).length = n := by simp; omega
    rw [exact, Nat.add_comm, Nat.add_mul_mod_self_right, Nat.mod_eq_of_lt fits]
  · have nothing : b.take (b.length - n) = [] := by simp; omega
    rw [nothing, setBytesValue_nil, zero_mul, zero_add, Nat.mod_eq_of_lt fits]

/-- Comparing two numbers written with the same low-order width `weight`. -/
private theorem weighted_lt_iff {high high' low low' weight : Nat}
    (lowFits : low < weight) (lowFits' : low' < weight) :
    high * weight + low < high' * weight + low' ↔
      high < high' ∨ (high = high' ∧ low < low') := by
  rcases Nat.lt_trichotomy high high' with below | rfl | above
  · have := Nat.mul_le_mul_right weight below
    rw [Nat.succ_mul] at this
    omega
  · omega
  · have := Nat.mul_le_mul_right weight above
    rw [Nat.succ_mul] at this
    omega

private theorem lex_cons_cons {head head' : UInt8} {tail tail' : List UInt8} :
    List.Lex (· < ·) (head :: tail) (head' :: tail') ↔
      head < head' ∨ (head = head' ∧ List.Lex (· < ·) tail tail') := by
  constructor
  · intro lex
    cases lex with
    | cons rest => exact .inr ⟨rfl, rest⟩
    | rel first => exact .inl first
  · rintro (first | ⟨rfl, rest⟩)
    exacts [.rel first, .cons rest]

/-- Among equal-length byte strings the numeric order is the lexicographic one. -/
theorem setBytesValue_lt_iff_lex {left right : List UInt8}
    (sameLength : left.length = right.length) :
    setBytesValue left < setBytesValue right ↔ List.Lex (· < ·) left right := by
  induction left generalizing right with
  | nil =>
      cases right with
      | nil => simp
      | cons _ _ => simp at sameLength
  | cons head tail induction =>
      cases right with
      | nil => simp at sameLength
      | cons head' tail' =>
          simp only [List.length_cons, Nat.add_right_cancel_iff] at sameLength
          have low := setBytesValue_lt tail
          have low' := setBytesValue_lt tail'
          rw [sameLength] at low
          rw [setBytesValue_cons, setBytesValue_cons, sameLength, weighted_lt_iff low low',
            lex_cons_cons, ← induction sameLength]
          exact or_congr Iff.rfl (and_congr ⟨UInt8.toNat.inj, congrArg _⟩ Iff.rfl)

/-- Equal-length byte strings with the same value are equal. -/
theorem setBytesValue_injective {left right : List UInt8}
    (sameLength : left.length = right.length)
    (sameValue : setBytesValue left = setBytesValue right) : left = right := by
  induction left generalizing right with
  | nil => simpa [eq_comm] using sameLength
  | cons head tail induction =>
      cases right with
      | nil => simp at sameLength
      | cons head' tail' =>
          simp only [List.length_cons, Nat.add_right_cancel_iff] at sameLength
          have low := setBytesValue_lt tail
          have low' := setBytesValue_lt tail'
          rw [sameLength] at low
          rw [setBytesValue_cons, setBytesValue_cons, sameLength] at sameValue
          have notBelow : ¬ head.toNat * 256 ^ tail'.length + setBytesValue tail <
              head'.toNat * 256 ^ tail'.length + setBytesValue tail' := by omega
          have notAbove : ¬ head'.toNat * 256 ^ tail'.length + setBytesValue tail' <
              head.toNat * 256 ^ tail'.length + setBytesValue tail := by omega
          rw [weighted_lt_iff low low'] at notBelow
          rw [weighted_lt_iff low' low] at notAbove
          have heads : head.toNat = head'.toNat := by omega
          rw [UInt8.toNat.inj heads, induction sameLength (by rw [heads] at sameValue; omega)]

/-! ### The bytes `big.Int.Bytes` writes -/

theorem intBytes_digits (v : Int) :
    (intBytes v).reverse.map UInt8.toNat = Nat.digits 256 v.natAbs := by
  have small : ∀ digit ∈ Nat.digits 256 v.natAbs, (UInt8.ofNat digit).toNat = digit :=
    fun digit member => UInt8.toNat_ofNat_of_lt (Nat.digits_lt_base (by norm_num) member)
  simp [intBytes, List.map_map, Function.comp_def, List.map_congr_left small]

@[simp]
theorem setBytesValue_intBytes (v : Int) : setBytesValue (intBytes v) = v.natAbs := by
  rw [setBytesValue_eq_ofDigits, intBytes_digits, Nat.ofDigits_digits]

theorem intBytes_length_le {v : Int} {width : Nat} (fits : v.natAbs < 256 ^ width) :
    (intBytes v).length ≤ width := by
  have length : (intBytes v).length = (Nat.digits 256 v.natAbs).length := by simp [intBytes]
  rw [length]
  by_cases zero : v.natAbs = 0
  · simp [zero]
  · rw [Nat.digits_len _ _ (by norm_num) zero]
    exact Nat.log_lt_of_lt_pow zero fits

end Efsn
