import Mathlib.Data.Nat.Notation
import Mathlib.Logic.Function.Basic
import Mathlib.Tactic.Common

/-!
# Filtering an array in place

A loop goes through an array, or through the numbers from `0` on, and writes what it keeps to the
front of the array.  It writes an element before it decides, and goes on to the next place only if
it keeps the element.
-/

namespace Graphflow.Lib

/-- What a turn reads. -/
def positionIn (counts : Bool) (buffer : ℕ → ℕ) (i : ℕ) : ℕ := if counts then i else buffer i

/-- The elements that are not visited are not even written. -/
def compactTurn (counts : Bool) (visits keeps : ℕ → Bool) (s : ℕ × (ℕ → ℕ)) (i : ℕ) :
    ℕ × (ℕ → ℕ) :=
  let pos := positionIn counts s.2 i
  if visits pos then (if keeps pos then s.1 + 1 else s.1, Function.update s.2 s.1 pos) else s

def compact (counts : Bool) (visits keeps : ℕ → Bool) (size : ℕ) (buffer : ℕ → ℕ) :
    ℕ × (ℕ → ℕ) :=
  (List.range size).foldl (compactTurn counts visits keeps) (0, buffer)

/-- After so many turns the front of the array is what has been kept, and the rest is as before. -/
structure Compacted (counts : Bool) (visits keeps : ℕ → Bool) (buffer : ℕ → ℕ) (turns : ℕ)
    (s : ℕ × (ℕ → ℕ)) : Prop where
  le : s.1 ≤ turns
  kept : (List.range s.1).map s.2 = ((List.range turns).map (positionIn counts buffer)).filter
    fun pos ↦ visits pos && keeps pos
  rest : ∀ i ≥ turns, s.2 i = buffer i

variable {counts : Bool} {visits keeps : ℕ → Bool} {buffer : ℕ → ℕ} {turns : ℕ} {s : ℕ × (ℕ → ℕ)}

theorem map_update_range (f : ℕ → ℕ) (n a : ℕ) :
    (List.range n).map (Function.update f n a) = (List.range n).map f :=
  List.map_congr_left fun _ hi ↦ Function.update_of_ne (Nat.ne_of_lt (List.mem_range.mp hi)) _ _

theorem Compacted.turn (h : Compacted counts visits keeps buffer turns s) :
    Compacted counts visits keeps buffer (turns + 1) (compactTurn counts visits keeps s turns) := by
  have hpos : positionIn counts s.2 turns = positionIn counts buffer turns := by
    rw [positionIn, positionIn, h.rest turns (Nat.le_refl turns)]
  have hrest : ∀ i ≥ turns + 1,
      Function.update s.2 s.1 (positionIn counts buffer turns) i = buffer i := by
    intro i hi
    have hle := h.le
    rw [Function.update_of_ne (by omega), h.rest i (by omega)]
  rw [compactTurn, hpos]
  by_cases hvisits : visits (positionIn counts buffer turns)
  · rw [if_pos hvisits]
    by_cases hkeeps : keeps (positionIn counts buffer turns)
    · rw [if_pos hkeeps]
      refine ⟨Nat.succ_le_succ h.le, ?_, hrest⟩
      dsimp only
      rw [List.range_succ, List.map_append, List.map_singleton, Function.update_self,
        map_update_range, h.kept, List.range_succ, List.map_append, List.filter_append,
        List.map_singleton, List.filter_cons_of_pos (by rw [hvisits, hkeeps]; rfl), List.filter_nil]
    · rw [if_neg hkeeps]
      refine ⟨Nat.le_succ_of_le h.le, ?_, hrest⟩
      dsimp only
      rw [map_update_range, h.kept, List.range_succ, List.map_append, List.filter_append,
        List.map_singleton, List.filter_cons_of_neg (by simp [hkeeps]), List.filter_nil,
        List.append_nil]
  · rw [if_neg hvisits]
    refine ⟨Nat.le_succ_of_le h.le, ?_, fun i hi ↦ h.rest i (Nat.le_of_succ_le hi)⟩
    rw [h.kept, List.range_succ, List.map_append, List.filter_append, List.map_singleton,
      List.filter_cons_of_neg (by simp [hvisits]), List.filter_nil, List.append_nil]

theorem compacted_foldl (counts : Bool) (visits keeps : ℕ → Bool) (buffer : ℕ → ℕ) (turns : ℕ) :
    Compacted counts visits keeps buffer turns
      ((List.range turns).foldl (compactTurn counts visits keeps) (0, buffer)) := by
  induction turns with
  | zero => exact ⟨Nat.le_refl 0, rfl, fun _ _ ↦ rfl⟩
  | succ turns ih =>
      rw [List.range_succ, List.foldl_append, List.foldl_cons, List.foldl_nil]
      exact ih.turn

/-- The front of the array is the sublist of what is visited and kept. -/
theorem kept_compact (counts : Bool) (visits keeps : ℕ → Bool) (size : ℕ) (buffer : ℕ → ℕ) :
    (List.range (compact counts visits keeps size buffer).1).map
        (compact counts visits keeps size buffer).2 =
      ((List.range size).map (positionIn counts buffer)).filter fun pos ↦ visits pos && keeps pos :=
  (compacted_foldl counts visits keeps buffer size).kept

end Graphflow.Lib
