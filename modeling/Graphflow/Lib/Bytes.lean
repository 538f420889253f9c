import Mathlib.Data.List.Basic
import Mathlib.Data.Nat.Notation
import Mathlib.Tactic.Common
import Mathlib.Tactic.Ring

/-!
# Bytes in memory

A memory gives a byte for every address.  `overwrite` is what `memcpy` does to the destination and
`readAt` what it takes from the source.  Numbers are stored with the least significant byte first.
-/

namespace Graphflow.Lib

abbrev Memory := ℕ → UInt8

variable {m m' : Memory} {a b n k : ℕ} {bytes : List UInt8}

def readAt (m : Memory) (a n : ℕ) : List UInt8 := (List.range n).map fun i ↦ m (a + i)

def overwrite (m : Memory) (a : ℕ) (bytes : List UInt8) : Memory := fun b ↦
  if a ≤ b then bytes[b - a]?.getD (m b) else m b

@[simp] theorem length_readAt (m : Memory) (a n : ℕ) : (readAt m a n).length = n := by
  rw [readAt, List.length_map, List.length_range]

@[simp] theorem readAt_zero (m : Memory) (a : ℕ) : readAt m a 0 = [] := rfl

theorem getElem?_readAt {i : ℕ} (hi : i < n) : (readAt m a n)[i]? = some (m (a + i)) := by
  rw [readAt, List.getElem?_map, List.getElem?_range hi]
  rfl

theorem readAt_eq_iff : readAt m a bytes.length = bytes ↔
    ∀ i, (hi : i < bytes.length) → m (a + i) = bytes[i] := by
  constructor
  · intro h i hi
    have hget := getElem?_readAt (m := m) (a := a) hi
    rw [h, List.getElem?_eq_getElem hi, Option.some.injEq] at hget
    exact hget.symm
  · intro h
    apply List.ext_getElem (length_readAt _ _ _)
    intro i hi hi'
    simp only [readAt, List.getElem_map, List.getElem_range]
    exact h i hi'

/-- What is read depends only on the addresses that are read. -/
theorem readAt_congr (h : ∀ b, a ≤ b → b < a + n → m b = m' b) : readAt m a n = readAt m' a n := by
  apply List.map_congr_left
  intro i hi
  rw [List.mem_range] at hi
  exact h (a + i) (Nat.le_add_right a i) (by omega)

theorem readAt_add (m : Memory) (a n k : ℕ) :
    readAt m a (n + k) = readAt m a n ++ readAt m (a + n) k := by
  rw [readAt, List.range_add, List.map_append, List.map_map]
  congr 1
  apply List.map_congr_left
  intro i _
  rw [Function.comp_apply, Nat.add_assoc]

theorem take_readAt (h : k ≤ n) : (readAt m a n).take k = readAt m a k := by
  obtain ⟨j, rfl⟩ := Nat.exists_eq_add_of_le h
  rw [readAt_add, List.take_append_of_le_length (length_readAt _ _ _).ge,
    List.take_of_length_le (length_readAt _ _ _).le]

theorem drop_readAt (m : Memory) (a n k : ℕ) :
    (readAt m a n).drop k = readAt m (a + k) (n - k) := by
  rcases Nat.le_total k n with h | h
  · obtain ⟨j, rfl⟩ := Nat.exists_eq_add_of_le h
    rw [readAt_add, Nat.add_sub_cancel_left, List.drop_append_of_le_length (length_readAt _ _ _).ge,
      List.drop_eq_nil_of_le (length_readAt _ _ _).le, List.nil_append]
  · rw [Nat.sub_eq_zero_of_le h, readAt_zero]
    exact List.drop_eq_nil_of_le (by rw [length_readAt]; exact h)

/-! ## Arrays -/

section Arrays

variable {α : Type} {g : α → List UInt8} {xs : List α} {size : ℕ}

theorem length_flatMap_of_forall (hsize : ∀ x ∈ xs, (g x).length = size) :
    (xs.flatMap g).length = xs.length * size := by
  induction xs with
  | nil => rw [List.flatMap_nil, List.length_nil, List.length_nil, Nat.zero_mul]
  | cons x xs ih =>
      rw [List.flatMap_cons, List.length_append, hsize x List.mem_cons_self,
        ih fun y hy ↦ hsize y (List.mem_cons_of_mem _ hy), List.length_cons, Nat.add_one_mul,
        Nat.add_comm]

/-- The elements of an array stand one after the other. -/
theorem readAt_of_readAt_flatMap (hsize : ∀ x ∈ xs, (g x).length = size)
    (h : readAt m a (xs.length * size) = xs.flatMap g) (i : ℕ) (hi : i < xs.length) :
    readAt m (a + i * size) size = g xs[i] := by
  induction xs generalizing a i with
  | nil => exact absurd hi (Nat.not_lt_zero i)
  | cons x xs ih =>
      rw [List.length_cons, Nat.add_one_mul, Nat.add_comm (xs.length * size), readAt_add,
        List.flatMap_cons] at h
      have hlength : (readAt m a size).length = (g x).length := by
        rw [length_readAt, hsize x List.mem_cons_self]
      obtain ⟨hfirst, hrest⟩ := List.append_inj h hlength
      cases i with
      | zero =>
          rw [Nat.zero_mul, Nat.add_zero]
          exact hfirst
      | succ i =>
          have hnext := ih (fun y hy ↦ hsize y (List.mem_cons_of_mem _ hy)) hrest i
            (Nat.lt_of_succ_lt_succ hi)
          rw [Nat.add_one_mul, Nat.add_comm (i * size), ← Nat.add_assoc]
          exact hnext

end Arrays

/-! ## Overwriting -/

theorem overwrite_of_lt (h : b < a) : overwrite m a bytes b = m b := by
  rw [overwrite, if_neg (Nat.not_le.mpr h)]

theorem overwrite_of_le (h : a + bytes.length ≤ b) : overwrite m a bytes b = m b := by
  rw [overwrite, if_pos (by omega), List.getElem?_eq_none (by omega), Option.getD_none]

/-- Outside of what is written nothing changes. -/
theorem overwrite_of_outside (h : b < a ∨ a + bytes.length ≤ b) : overwrite m a bytes b = m b :=
  h.elim overwrite_of_lt overwrite_of_le

/-- Writing twice, the second time behind the first. -/
theorem overwrite_append (m : Memory) (a : ℕ) (bytes₁ bytes₂ : List UInt8) :
    overwrite (overwrite m a bytes₁) (a + bytes₁.length) bytes₂ =
      overwrite m a (bytes₁ ++ bytes₂) := by
  funext b
  by_cases hlt : b < a + bytes₁.length
  · rw [overwrite_of_lt hlt, overwrite, overwrite]
    split_ifs with hle
    · rw [List.getElem?_append_left (by omega)]
    · rfl
  · rw [overwrite, if_pos (Nat.not_lt.mp hlt), overwrite_of_le (Nat.not_lt.mp hlt), overwrite,
      if_pos (by omega), List.getElem?_append_right (by omega), Nat.sub_sub]

theorem readAt_overwrite (m : Memory) (a : ℕ) (bytes : List UInt8) :
    readAt (overwrite m a bytes) a bytes.length = bytes := by
  rw [readAt_eq_iff]
  intro i hi
  rw [overwrite, if_pos (Nat.le_add_right a i), Nat.add_sub_cancel_left,
    List.getElem?_eq_getElem hi, Option.getD_some]

theorem readAt_overwrite_of_disjoint (h : b + n ≤ a ∨ a + bytes.length ≤ b) :
    readAt (overwrite m a bytes) b n = readAt m b n := by
  apply readAt_congr
  intro c hle hlt
  exact overwrite_of_outside (by omega)

/-! ## Numbers -/

def littleEndian : ℕ → ℕ → List UInt8
  | 0, _ => []
  | width + 1, n => UInt8.ofNat n :: littleEndian width (n / 256)

def ofLittleEndian (bytes : List UInt8) : ℕ := bytes.foldr (fun byte n ↦ byte.toNat + 256 * n) 0

@[simp] theorem length_littleEndian (width n : ℕ) : (littleEndian width n).length = width := by
  induction width generalizing n with
  | zero => rfl
  | succ width ih => rw [littleEndian, List.length_cons, ih]

theorem ofLittleEndian_littleEndian {width : ℕ} (h : n < 256 ^ width) :
    ofLittleEndian (littleEndian width n) = n := by
  induction width generalizing n with
  | zero =>
      rw [Nat.pow_zero, Nat.lt_one_iff] at h
      rw [h]
      rfl
  | succ width ih =>
      have hrest : n / 256 < 256 ^ width := by
        rw [Nat.div_lt_iff_lt_mul (by decide), ← Nat.pow_succ]
        exact h
      have hbyte : (UInt8.ofNat n).toNat = n % 256 := UInt8.toNat_ofNat'
      have hcons : ofLittleEndian (littleEndian (width + 1) n) =
          (UInt8.ofNat n).toNat + 256 * ofLittleEndian (littleEndian width (n / 256)) := rfl
      rw [hcons, ih hrest, hbyte]
      exact Nat.mod_add_div n 256

theorem ofLittleEndian_cons (x : UInt8) (xs : List UInt8) :
    ofLittleEndian (x :: xs) = x.toNat + 256 * ofLittleEndian xs := rfl

theorem ofLittleEndian_lt (xs : List UInt8) : ofLittleEndian xs < 256 ^ xs.length := by
  induction xs with
  | nil => exact Nat.one_pos
  | cons x xs ih =>
      have hx := x.toNat_lt
      rw [ofLittleEndian_cons, List.length_cons, Nat.pow_succ']
      omega

theorem ofLittleEndian_append (bytes bytes' : List UInt8) :
    ofLittleEndian (bytes ++ bytes') =
      ofLittleEndian bytes + 256 ^ bytes.length * ofLittleEndian bytes' := by
  induction bytes with
  | nil =>
      rw [List.nil_append, List.length_nil, Nat.pow_zero, Nat.one_mul]
      exact (Nat.zero_add _).symm
  | cons byte bytes ih =>
      rw [List.cons_append, ofLittleEndian_cons, ofLittleEndian_cons, ih, List.length_cons,
        Nat.pow_succ']
      ring

end Graphflow.Lib
