import Graphflow.Lib.Except
import Mathlib.Algebra.Ring.Nat

/-!
# Fields of bits

A field is a run of bits of a word.  What lies outside of a field is cleared with ones at the lower
and at the upper end of a word, a field is moved by shifting the word, and it replaces the same bits
of another word after these have been cleared.  Words one after another are an array of bits.
-/

namespace Graphflow.Lib

variable {w n v p i pos e : ℕ} {src old word : BitVec w} {words : List (BitVec w)}

/-- `n` ones at the lower end. -/
def lowerOnes (w n : ℕ) : BitVec w := BitVec.ofNat w (2 ^ n - 1)

/-- `n` ones at the upper end. -/
def upperOnes (w n : ℕ) : BitVec w := ~~~lowerOnes w (w - n)

/-- The bits `v, …, v + n - 1` of a word are the bits `p, …, p + n - 1` of the source, and its other
bits are not set. -/
def IsField (word src : BitVec w) (v p n : ℕ) : Prop :=
  ∀ i < w, word.getLsbD i = (decide (v ≤ i ∧ i < v + n) && src.getLsbD (i - v + p))

theorem getLsbD_lowerOnes (hi : i < w) : (lowerOnes w n).getLsbD i = decide (i < n) := by
  rw [lowerOnes, BitVec.getLsbD_ofNat, Nat.testBit_two_pow_sub_one, decide_eq_true hi,
    Bool.true_and]

theorem getLsbD_not_upperOnes (hi : i < w) :
    (~~~upperOnes w (w - n)).getLsbD i = decide (i < n) := by
  rw [upperOnes, BitVec.not_not, getLsbD_lowerOnes hi]
  congr 1
  apply propext
  omega

theorem getLsbD_not_lowerOnes (hi : i < w) :
    (~~~lowerOnes w n).getLsbD i = decide (n ≤ i) := by
  rw [BitVec.getLsbD_not, getLsbD_lowerOnes hi, decide_eq_true hi, Bool.true_and, ← decide_not]
  congr 1
  exact propext Nat.not_lt

/-- A field that is moved down: what lies above is cleared before, and what lies below after the
shift. -/
theorem isField_shiftRight (hle : v ≤ p) :
    IsField ((src &&& ~~~upperOnes w (w - (p + n))) >>> (p - v) &&& ~~~lowerOnes w v)
      src v p n := by
  intro i hi
  simp only [BitVec.getLsbD_and, getLsbD_not_lowerOnes hi, BitVec.getLsbD_ushiftRight]
  by_cases hfrom : v ≤ i
  · have hsource : p - v + i = i - v + p := by omega
    rw [hsource]
    by_cases hinside : i - v + p < w
    · have hto : i - v + p < p + n ↔ i < v + n := by omega
      simp only [getLsbD_not_upperOnes hinside, hfrom, hto, decide_true, true_and, Bool.and_true]
      exact Bool.and_comm _ _
    · simp [BitVec.getLsbD_of_ge src _ (Nat.le_of_not_lt hinside)]
  · simp [hfrom]

/-- A field that is moved up: what lies below is cleared before, and what lies above after the
shift. -/
theorem isField_shiftLeft (hle : p ≤ v) :
    IsField ((src &&& ~~~lowerOnes w p) <<< (v - p) &&& ~~~upperOnes w (w - (v + n)))
      src v p n := by
  intro i hi
  simp only [BitVec.getLsbD_and, getLsbD_not_upperOnes hi, BitVec.getLsbD_shiftLeft]
  by_cases hfrom : v ≤ i
  · have hsource : i - (v - p) = i - v + p := by omega
    have hshift : ¬i < v - p := by omega
    have hlower : p ≤ i - v + p := by omega
    rw [hsource, getLsbD_not_lowerOnes (by omega)]
    simp only [hi, hfrom, hshift, hlower, decide_true, decide_false, true_and, Bool.not_false,
      Bool.true_and, Bool.and_true]
    exact Bool.and_comm _ _
  · have hlower : ¬p ≤ i - (v - p) ∨ i < v - p := by omega
    rcases hlower with hlower | hshift
    · simp [getLsbD_not_lowerOnes (by omega : i - (v - p) < w), hfrom, hlower]
    · simp [hfrom, hshift]

/-- A field that stays where it is. -/
theorem isField_mask :
    IsField (src &&& ~~~lowerOnes w p &&& ~~~upperOnes w (w - (p + n))) src p p n := by
  have hfield : IsField ((src &&& ~~~lowerOnes w p) <<< (p - p) &&&
    ~~~upperOnes w (w - (p + n))) src p p n := isField_shiftLeft (Nat.le_refl p)
  rwa [Nat.sub_self, BitVec.shiftLeft_zero] at hfield

/-- Replacing a field. -/
theorem getLsbD_replaceField (hword : IsField word src v p n) (hi : i < w) :
    (old &&& ~~~(lowerOnes w n <<< v) ||| word).getLsbD i =
      if v ≤ i ∧ i < v + n then src.getLsbD (i - v + p) else old.getLsbD i := by
  have hcleared : (lowerOnes w n <<< v).getLsbD i = decide (v ≤ i ∧ i < v + n) := by
    rw [BitVec.getLsbD_shiftLeft, decide_eq_true hi, Bool.true_and, getLsbD_lowerOnes (by omega),
      ← decide_not, ← Bool.decide_and]
    congr 1
    apply propext
    omega
  simp only [BitVec.getLsbD_or, BitVec.getLsbD_and, BitVec.getLsbD_not, hcleared, hword i hi]
  split_ifs with hinside
  · simp [hinside]
  · simp [hinside, hi]

/-- A field without bits that are set leaves a word without them. -/
theorem IsField.getLsbD_eq_false_of_eq_zero (hword : IsField word src v p n) (hfits : v + n ≤ w)
    (hzero : word = 0) (hi : i < n) : src.getLsbD (p + i) = false := by
  have hbit := hword (v + i) (by omega)
  simpa [hzero, hi, Nat.add_comm i p] using hbit.symm

theorem IsField.exists_of_ne_zero (hword : IsField word src v p n) (hne : word ≠ 0) :
    ∃ i < n, src.getLsbD (p + i) = true := by
  by_contra hnone
  push Not at hnone
  apply hne
  apply BitVec.eq_of_getLsbD_eq
  intro i hi
  rw [hword i hi]
  by_cases hinside : v ≤ i ∧ i < v + n
  · have hbit := hnone (i - v) (by omega)
    simp [Nat.add_comm (i - v) p, hbit]
  · simp [hinside]

/-! ## Arrays of bits -/

/-- A bit of an array; behind the last word no bit is set. -/
def bitAt (words : List (BitVec w)) (pos : ℕ) : Bool :=
  (words.getD (pos / w) 0).getLsbD (pos % w)

theorem bitAt_eq (he : words[e]? = some word) (hi : i < w) (hpos : w * e + i = pos) :
    bitAt words pos = word.getLsbD i := by
  have hdiv : pos / w = e := by
    rw [← hpos, Nat.mul_add_div (by omega), Nat.div_eq_of_lt hi, Nat.add_zero]
  have hmod : pos % w = i := by
    rw [← hpos, Nat.mul_add_mod, Nat.mod_eq_of_lt hi]
  rw [bitAt, hdiv, hmod, List.getD_eq_getElem?_getD, he, Option.getD_some]

theorem bitAt_set_of_ne (hne : pos / w ≠ e) : bitAt (words.set e word) pos = bitAt words pos := by
  rw [bitAt, bitAt, List.getD_eq_getElem?_getD, List.getD_eq_getElem?_getD,
    List.getElem?_set_ne (Ne.symm hne)]

theorem bitAt_set_self (he : e < words.length) (hpos : pos / w = e) :
    bitAt (words.set e word) pos = word.getLsbD (pos % w) := by
  rw [bitAt, List.getD_eq_getElem?_getD, hpos, List.getElem?_set_self he, Option.getD_some]

/-- Arrays of the same length with the same bits are equal. -/
theorem eq_of_bitAt_eq {words' : List (BitVec w)} (hlength : words.length = words'.length)
    (hbits : ∀ pos, bitAt words pos = bitAt words' pos) : words = words' := by
  apply List.ext_getElem hlength
  intro e he he'
  apply BitVec.eq_of_getLsbD_eq
  intro i hi
  rw [← bitAt_eq (List.getElem?_eq_getElem he) hi rfl,
    ← bitAt_eq (List.getElem?_eq_getElem he') hi rfl]
  exact hbits _

end Graphflow.Lib
