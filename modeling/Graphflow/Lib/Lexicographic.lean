import Graphflow.Lib.Bytes
import Mathlib.Order.Compare
import Mathlib.Tactic.IntervalCases

/-!
# Comparing bytes from left to right

`memcmp` compares bytes as `compare` compares lists of them.  Keys that are written one behind the
other compare by the first of them, then by the next.  A number compares as its bytes do when the
most significant one comes first, and complementing every byte turns the order around.
-/

namespace Graphflow.Lib

variable {α : Type} [Ord α] {a b c d : List α}

/-- Two parts that stand one behind the other. -/
theorem compare_append (h : a.length = b.length) :
    compare (a ++ c) (b ++ d) = (compare a b).then (compare c d) := by
  induction a generalizing b with
  | nil =>
      rw [List.length_nil, eq_comm, List.length_eq_zero_iff] at h
      rw [h, List.nil_append, List.nil_append, List.compare_nil_nil, Ordering.eq_then]
  | cons x a ih =>
      cases b with
      | nil => exact absurd h (by simp)
      | cons y b =>
          rw [List.cons_append, List.cons_append, List.compare_cons_cons, List.compare_cons_cons,
            ih (Nat.succ.inj h), Ordering.then_assoc]

theorem compare_self_list [Std.LawfulEqOrd α] (a : List α) : compare a a = .eq :=
  Std.LawfulEqOrd.compare_eq_iff_eq.mpr rfl

theorem compare_eq_gt_iff_toNat {x y : UInt8} : compare x y = .gt ↔ y.toNat < x.toNat := by
  simp only [compare, compareOfLessAndEq, UInt8.lt_iff_toNat_lt, ← UInt8.toNat_inj]
  split_ifs with hlt heq
  · exact iff_of_false (by decide) hlt.not_gt
  · exact iff_of_false (by decide) heq.le.not_gt
  · exact iff_of_true rfl (by omega)

/-- Bytes compare as the lists of their values do. -/
theorem compare_eq_gt_iff_map_toNat {a b : List UInt8} :
    compare a b = .gt ↔ b.map UInt8.toNat < a.map UInt8.toNat := by
  induction a generalizing b with
  | nil => cases b <;> simp
  | cons x a ih =>
      cases b with
      | nil => simp
      | cons y b =>
          rw [List.compare_cons_cons, Ordering.then_eq_gt, compare_eq_gt_iff_toNat, ih,
            List.map_cons, List.map_cons, List.cons_lt_cons_iff,
            Std.LawfulEqOrd.compare_eq_iff_eq, UInt8.toNat_inj, eq_comm]

/-! ## Complements -/

theorem compare_complement (x y : UInt8) : compare (~~~x) (~~~y) = (compare x y).swap := by
  have hx := x.toNat_lt
  have hy := y.toNat_lt
  rw [← Std.OrientedOrd.eq_swap]
  simp only [compare, compareOfLessAndEq, UInt8.lt_iff_toNat_lt, ← UInt8.toNat_inj, UInt8.toNat_not,
    UInt8.size]
  split_ifs <;> first | rfl | omega

theorem compare_map_complement {a b : List UInt8} (h : a.length = b.length) :
    compare (a.map (~~~·)) (b.map (~~~·)) = (compare a b).swap := by
  induction a generalizing b with
  | nil =>
      rw [List.length_nil, eq_comm, List.length_eq_zero_iff] at h
      rw [h]
      rfl
  | cons x a ih =>
      cases b with
      | nil => exact absurd h (by simp)
      | cons y b =>
          rw [List.map_cons, List.map_cons, List.compare_cons_cons, List.compare_cons_cons,
            ih (Nat.succ.inj h), compare_complement, Ordering.swap_then]

/-! ## Numbers -/

def bigEndian (width n : ℕ) : List UInt8 := (littleEndian width n).reverse

@[simp] theorem length_bigEndian (width n : ℕ) : (bigEndian width n).length = width := by
  rw [bigEndian, List.length_reverse, length_littleEndian]

theorem bigEndian_succ (width n : ℕ) :
    bigEndian (width + 1) n = bigEndian width (n / 256) ++ [UInt8.ofNat n] := by
  rw [bigEndian, littleEndian, List.reverse_cons, bigEndian]

theorem bigEndian_succ_head (width n : ℕ) :
    bigEndian (width + 1) n = UInt8.ofNat (n / 256 ^ width) :: bigEndian width n := by
  induction width generalizing n with
  | zero => rw [bigEndian_succ, Nat.pow_zero, Nat.div_one]; rfl
  | succ width ih =>
      rw [bigEndian_succ, ih, bigEndian_succ width n, List.cons_append, Nat.div_div_eq_div_mul,
        ← Nat.pow_succ']

theorem bigEndian_mod (width n : ℕ) : bigEndian width (n % 256 ^ width) = bigEndian width n := by
  induction width generalizing n with
  | zero => rfl
  | succ width ih =>
      have hdiv : n % 256 ^ (width + 1) / 256 = n / 256 % 256 ^ width := by
        rw [Nat.pow_succ', Nat.mod_mul_right_div_self]
      have hmod : UInt8.ofNat (n % 256 ^ (width + 1)) = UInt8.ofNat n := by
        apply UInt8.toNat_inj.mp
        rw [UInt8.toNat_ofNat', UInt8.toNat_ofNat', Nat.pow_succ', Nat.mod_mul_right_mod]
      rw [bigEndian_succ, bigEndian_succ, hdiv, ih, hmod]

theorem compare_ofNat {m n : ℕ} (hm : m < 256) (hn : n < 256) :
    compare (UInt8.ofNat m) (UInt8.ofNat n) = compare m n := by
  have hm' : (UInt8.ofNat m).toNat = m := UInt8.toNat_ofNat_of_lt' hm
  have hn' : (UInt8.ofNat n).toNat = n := UInt8.toNat_ofNat_of_lt' hn
  simp only [compare, compareOfLessAndEq, UInt8.lt_iff_toNat_lt, ← UInt8.toNat_inj, hm', hn']

theorem compare_nat_div_mod (m n k : ℕ) :
    compare m n = (compare (m / k) (n / k)).then (compare (m % k) (n % k)) := by
  have hm := Nat.div_add_mod m k
  have hn := Nat.div_add_mod n k
  rcases Nat.lt_trichotomy (m / k) (n / k) with hlt | heq | hgt
  · rw [Nat.compare_eq_lt.mpr hlt, Ordering.lt_then, Nat.compare_eq_lt]
    exact Nat.lt_of_div_lt_div hlt
  · rw [Nat.compare_eq_eq.mpr heq, Ordering.eq_then]
    rw [heq] at hm
    rcases Nat.lt_trichotomy (m % k) (n % k) with hlt | heq | hgt
    · rw [Nat.compare_eq_lt.mpr hlt, Nat.compare_eq_lt]
      omega
    · rw [Nat.compare_eq_eq.mpr heq, Nat.compare_eq_eq]
      omega
    · rw [Nat.compare_eq_gt.mpr hgt, Nat.compare_eq_gt]
      omega
  · rw [Nat.compare_eq_gt.mpr hgt, Ordering.gt_then, Nat.compare_eq_gt]
    exact Nat.lt_of_div_lt_div hgt

/-- A number compares as its bytes do. -/
theorem compare_bigEndian {width m n : ℕ} (hm : m < 256 ^ width) (hn : n < 256 ^ width) :
    compare (bigEndian width m) (bigEndian width n) = compare m n := by
  induction width generalizing m n with
  | zero =>
      rw [Nat.pow_zero, Nat.lt_one_iff] at hm hn
      rw [hm, hn]
      rfl
  | succ width ih =>
      have hm' : m / 256 < 256 ^ width := Nat.div_lt_of_lt_mul (by rwa [Nat.pow_succ'] at hm)
      have hn' : n / 256 < 256 ^ width := Nat.div_lt_of_lt_mul (by rwa [Nat.pow_succ'] at hn)
      have hlast : compare (UInt8.ofNat m) (UInt8.ofNat n) = compare (m % 256) (n % 256) := by
        rw [← compare_ofNat (Nat.mod_lt m (by decide)) (Nat.mod_lt n (by decide))]
        congr 1 <;> exact UInt8.toNat_inj.mp (by simp)
      rw [bigEndian_succ, bigEndian_succ, compare_append (by simp), ih hm' hn',
        List.compare_cons_cons, List.compare_nil_nil, Ordering.then_eq, hlast,
        ← compare_nat_div_mod]

theorem xor_128 (x : UInt8) : x ^^^ 128 = x + 128 := by
  have h : ∀ n : Fin 256, UInt8.ofFin n ^^^ 128 = UInt8.ofFin n + 128 := by decide +kernel
  exact h x.toFin

/-- The most significant bit of a number is turned over. -/
theorem modifyHead_bigEndian (width n : ℕ) :
    (bigEndian (width + 1) n).modifyHead (· ^^^ 128) =
      bigEndian (width + 1) (n + 128 * 256 ^ width) := by
  have hpos : 0 < 256 ^ width := Nat.pow_pos (by decide)
  have htail : bigEndian width (n + 128 * 256 ^ width) = bigEndian width n := by
    rw [← bigEndian_mod, Nat.add_mul_mod_self_right, bigEndian_mod]
  have hhead : UInt8.ofNat (n / 256 ^ width) ^^^ 128 =
      UInt8.ofNat ((n + 128 * 256 ^ width) / 256 ^ width) := by
    rw [Nat.add_mul_div_right _ _ hpos, xor_128, UInt8.ofNat_add]
    rfl
  rw [bigEndian_succ_head, bigEndian_succ_head, htail, List.modifyHead_cons, hhead]

/-! ## Columns -/

/-- Columns are compared one after the other. -/
def lexicographic : List Ordering → Ordering := List.foldr Ordering.then .eq

@[simp] theorem lexicographic_nil : lexicographic [] = .eq := rfl

@[simp] theorem lexicographic_cons (o : Ordering) (os : List Ordering) :
    lexicographic (o :: os) = o.then (lexicographic os) := rfl

end Graphflow.Lib
