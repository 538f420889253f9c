import Graphflow.Lib.Bytes

/-!
# Searching a list for another one

A search that goes from left to right and tests one position after the other finds the least
position of an occurrence.  What a search may keep about the window at a position, such as a number
that all its bytes make up, changes in a simple way when the window is moved by one.
-/

namespace Graphflow.Lib

section Occurrences

variable {α : Type} {haystack needle : List α} {P Q : ℕ → Prop} {i n : ℕ} {r : Option ℕ}

/-- `n` elements from a position on. -/
def window (xs : List α) (i n : ℕ) : List α := (xs.drop i).take n

def OccursAt (haystack needle : List α) (i : ℕ) : Prop := window haystack i needle.length = needle

theorem length_window (h : i + n ≤ haystack.length) : (window haystack i n).length = n := by
  rw [window, List.length_take, List.length_drop]
  omega

theorem OccursAt.add_le (h : OccursAt haystack needle i) (hne : needle ≠ []) :
    i + needle.length ≤ haystack.length := by
  have hlength := congrArg List.length h
  have hpos := List.length_pos_of_ne_nil hne
  rw [window, List.length_take, List.length_drop] at hlength
  omega

/-- Moving a window by one position. -/
theorem exists_window_succ (hn : 0 < n) (h : i + n < haystack.length) :
    ∃ x mid y, haystack[i]? = some x ∧ haystack[i + n]? = some y ∧
      window haystack i n = x :: mid ∧ window haystack (i + 1) n = mid ++ [y] := by
  obtain ⟨k, rfl⟩ : ∃ k, n = k + 1 := ⟨n - 1, by omega⟩
  have hi : i < haystack.length := by omega
  refine ⟨haystack[i], window haystack (i + 1) k, haystack[i + (k + 1)],
    List.getElem?_eq_getElem hi, List.getElem?_eq_getElem h, ?_, ?_⟩
  · rw [window, List.drop_eq_getElem_cons hi, List.take_succ_cons, window]
  · have hlast : (haystack.drop (i + 1))[k]? = some haystack[i + (k + 1)] := by
      rw [List.getElem?_drop, List.getElem?_eq_getElem (by omega)]
      congr 2
      omega
    rw [window, List.take_add_one, hlast, window]
    rfl

/-- An occurrence behind the first `k` elements. -/
theorem occursAt_drop (haystack needle : List α) (k i : ℕ) :
    OccursAt (haystack.drop k) needle i ↔ OccursAt haystack needle (k + i) := by
  rw [OccursAt, OccursAt, window, window, List.drop_drop]

/-- The least position from `n` on, if there is one. -/
def LeastFrom (P : ℕ → Prop) (n : ℕ) : Option ℕ → Prop
  | none => ∀ i, n ≤ i → ¬P i
  | some r => n ≤ r ∧ P r ∧ ∀ i, n ≤ i → i < r → ¬P i

theorem leastFrom_self (h : P n) : LeastFrom P n (some n) :=
  ⟨le_rfl, h, fun _ hle hlt ↦ absurd hlt (Nat.not_lt.mpr hle)⟩

theorem leastFrom_none (h : ∀ i, n ≤ i → ¬P i) : LeastFrom P n none := h

/-- One turn of a search. -/
theorem LeastFrom.step (h : LeastFrom P (n + 1) r) (hn : ¬P n) : LeastFrom P n r := by
  have hbefore : ∀ i, n ≤ i → (n + 1 ≤ i → ¬P i) → ¬P i := by
    intro i hle hrest
    rcases Nat.eq_or_lt_of_le hle with rfl | hlt
    · exact hn
    · exact hrest hlt
  cases r with
  | none => exact fun i hle ↦ hbefore i hle (h i)
  | some r =>
      obtain ⟨hle, hr, hmin⟩ := h
      exact ⟨Nat.le_of_succ_le hle, hr, fun i hi hlt ↦ hbefore i hi fun hi' ↦ hmin i hi' hlt⟩

/-- A search that begins where the first occurrence can be. -/
theorem LeastFrom.shift (h : LeastFrom (fun i ↦ P (n + i)) 0 r) (hn : ∀ i < n, ¬P i) :
    LeastFrom P 0 (r.map (n + ·)) := by
  have hbefore : ∀ i, (n ≤ i → ¬P (n + (i - n))) → ¬P i := by
    intro i hrest
    by_cases hlt : i < n
    · exact hn i hlt
    · have hi := hrest (Nat.le_of_not_lt hlt)
      rwa [Nat.add_sub_cancel' (Nat.le_of_not_lt hlt)] at hi
  cases r with
  | none => exact fun i _ ↦ hbefore i fun _ ↦ h _ (Nat.zero_le _)
  | some r =>
      obtain ⟨-, hr, hmin⟩ := h
      exact ⟨Nat.zero_le _, hr, fun i _ (hlt : i < n + r) ↦ hbefore i fun hle ↦
        hmin (i - n) (Nat.zero_le _) (by omega)⟩

end Occurrences

/-! ## Windows as numbers -/

section Numbers

variable {xs ys : List UInt8} {x y : UInt8}

theorem ofLittleEndian_inj (hlength : xs.length = ys.length) :
    ofLittleEndian xs = ofLittleEndian ys ↔ xs = ys := by
  refine ⟨fun h ↦ ?_, congrArg _⟩
  induction xs generalizing ys with
  | nil => exact (List.length_eq_zero_iff.mp hlength.symm).symm
  | cons x xs ih =>
      cases ys with
      | nil => exact absurd hlength (Nat.succ_ne_zero _)
      | cons y ys =>
          have hx := x.toNat_lt
          have hy := y.toNat_lt
          rw [ofLittleEndian_cons, ofLittleEndian_cons] at h
          have hhead : x = y := UInt8.toNat_inj.mp (by omega)
          rw [hhead, ih (Nat.succ.inj hlength) (by omega)]

/-- The number whose most significant byte comes first. -/
def ofBigEndian (xs : List UInt8) : ℕ := ofLittleEndian xs.reverse

@[simp] theorem ofBigEndian_nil : ofBigEndian [] = 0 := rfl

theorem ofBigEndian_concat (xs : List UInt8) (x : UInt8) :
    ofBigEndian (xs ++ [x]) = x.toNat + 256 * ofBigEndian xs := by
  rw [ofBigEndian, List.reverse_append]
  rfl

theorem ofBigEndian_cons (x : UInt8) (xs : List UInt8) :
    ofBigEndian (x :: xs) = ofBigEndian xs + 256 ^ xs.length * x.toNat := by
  rw [ofBigEndian, List.reverse_cons, ofLittleEndian_append, List.length_reverse]
  rfl

theorem ofBigEndian_lt (xs : List UInt8) : ofBigEndian xs < 256 ^ xs.length := by
  have h := ofLittleEndian_lt xs.reverse
  rwa [List.length_reverse] at h

theorem ofBigEndian_inj (hlength : xs.length = ys.length) :
    ofBigEndian xs = ofBigEndian ys ↔ xs = ys := by
  rw [ofBigEndian, ofBigEndian, ofLittleEndian_inj (by simpa using hlength), List.reverse_inj]

end Numbers

end Graphflow.Lib
