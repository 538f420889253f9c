import Mathlib.Algebra.Order.Ring.Nat
import Mathlib.Data.List.Induction
import Mathlib.Tactic.Common
import Mathlib.Tactic.Ring

/-!
# Decimal numbers

Numbers written with a fixed number of ASCII digits, and the value of a list of digits.
-/

namespace Graphflow.Lib

/-- The characters from `'0'` to `'9'`. -/
def IsDigit (c : UInt8) : Prop := 48 ≤ c.toNat ∧ c.toNat ≤ 57

instance (c : UInt8) : Decidable (IsDigit c) :=
  inferInstanceAs (Decidable (48 ≤ c.toNat ∧ c.toNat ≤ 57))

def digitByte (d : ℕ) : UInt8 := UInt8.ofNat (48 + d)

def digitValue (c : UInt8) : ℕ := c.toNat - 48

def decimalValue (ds : List UInt8) : ℕ := ds.foldl (fun n c ↦ n * 10 + digitValue c) 0

/-- The last digits of a number. -/
def paddedDecimal : ℕ → ℕ → List UInt8
  | 0, _ => []
  | width + 1, n => paddedDecimal width (n / 10) ++ [digitByte (n % 10)]

variable {d n m k : ℕ} {c : UInt8} {ds es : List UInt8}

theorem toNat_digitByte (h : d < 10) : (digitByte d).toNat = 48 + d := by
  rw [digitByte, UInt8.toNat_ofNat']
  omega

theorem isDigit_digitByte (h : d < 10) : IsDigit (digitByte d) := by
  rw [IsDigit, toNat_digitByte h]
  omega

theorem digitValue_digitByte (h : d < 10) : digitValue (digitByte d) = d := by
  rw [digitValue, toNat_digitByte h]
  omega

/-! ## Values -/

@[simp] theorem decimalValue_nil : decimalValue [] = 0 := rfl

theorem decimalValue_concat (ds : List UInt8) (c : UInt8) :
    decimalValue (ds ++ [c]) = decimalValue ds * 10 + digitValue c := by
  rw [decimalValue, List.foldl_append, List.foldl_cons, List.foldl_nil, decimalValue]

theorem decimalValue_append (ds es : List UInt8) :
    decimalValue (ds ++ es) = decimalValue ds * 10 ^ es.length + decimalValue es := by
  induction es using List.reverseRecOn with
  | nil => simp
  | append_singleton es c ih =>
      rw [← List.append_assoc, decimalValue_concat, ih, decimalValue_concat, List.length_append,
        List.length_singleton]
      ring

theorem decimalValue_cons (c : UInt8) (ds : List UInt8) :
    decimalValue (c :: ds) = digitValue c * 10 ^ ds.length + decimalValue ds := by
  rw [← List.singleton_append, decimalValue_append, ← List.nil_append [c], decimalValue_concat,
    decimalValue_nil, Nat.zero_mul, Nat.zero_add]

/-- More digits do not make a number less. -/
theorem decimalValue_le_append (ds es : List UInt8) :
    decimalValue ds ≤ decimalValue (ds ++ es) := by
  rw [decimalValue_append]
  exact le_add_right (Nat.le_mul_of_pos_right _ (Nat.pow_pos (by decide)))

theorem decimalValue_replicate_zero (k : ℕ) : decimalValue (List.replicate k 48) = 0 := by
  induction k with
  | zero => rfl
  | succ k ih =>
      have hzero : digitValue 48 = 0 := rfl
      rw [List.replicate_succ, decimalValue_cons, ih, hzero, Nat.zero_mul]

/-! ## Padded numbers -/

@[simp] theorem length_paddedDecimal (k n : ℕ) : (paddedDecimal k n).length = k := by
  induction k generalizing n with
  | zero => rfl
  | succ k ih => rw [paddedDecimal, List.length_append, ih, List.length_singleton]

theorem isDigit_of_mem_paddedDecimal (h : c ∈ paddedDecimal k n) : IsDigit c := by
  induction k generalizing n with
  | zero => exact absurd h List.not_mem_nil
  | succ k ih =>
      rw [paddedDecimal, List.mem_append, List.mem_singleton] at h
      rcases h with h | rfl
      · exact ih h
      · exact isDigit_digitByte (Nat.mod_lt _ (by decide))

theorem decimalValue_paddedDecimal (h : n < 10 ^ k) : decimalValue (paddedDecimal k n) = n := by
  induction k generalizing n with
  | zero =>
      rw [pow_zero, Nat.lt_one_iff] at h
      rw [h]
      rfl
  | succ k ih =>
      have hdiv : n / 10 < 10 ^ k := by
        apply Nat.div_lt_of_lt_mul
        rwa [← pow_succ']
      rw [paddedDecimal, decimalValue_concat, ih hdiv,
        digitValue_digitByte (Nat.mod_lt _ (by decide))]
      omega

theorem paddedDecimal_zero (k : ℕ) : paddedDecimal k 0 = List.replicate k 48 := by
  induction k with
  | zero => rfl
  | succ k ih => rw [paddedDecimal, Nat.zero_div, ih, List.replicate_succ']; rfl

/-- The digits in front of the ones that a number needs are zeros. -/
theorem paddedDecimal_add (h : n < 10 ^ k) (j : ℕ) :
    paddedDecimal (j + k) n = List.replicate j 48 ++ paddedDecimal k n := by
  induction k generalizing n with
  | zero =>
      rw [pow_zero, Nat.lt_one_iff] at h
      rw [h, Nat.add_zero, paddedDecimal_zero, paddedDecimal, List.append_nil]
  | succ k ih =>
      have hdiv : n / 10 < 10 ^ k := by
        apply Nat.div_lt_of_lt_mul
        rwa [← pow_succ']
      rw [← Nat.add_assoc, paddedDecimal, ih hdiv, List.append_assoc]
      rfl

end Graphflow.Lib
