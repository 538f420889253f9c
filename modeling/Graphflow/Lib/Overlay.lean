import Mathlib.Logic.Function.Basic
import Mathlib.Tactic.Common

/-!
# Overlays of maps

Changes that are kept beside a map: keys that have been inserted, and keys that have been marked as
deleted.  No key is both.
-/

namespace Graphflow.Lib

variable {K V W : Type} {inserted base : K → Option V} {deleted : K → Option W} {k : K} {v : V}
  {w : W}

/-- What is seen through the changes. -/
def overlay (inserted : K → Option V) (deleted : K → Option W) (base : K → Option V) (k : K) :
    Option V :=
  match deleted k with
  | some _ => none
  | none => (inserted k).or (base k)

theorem overlay_of_deleted (h : deleted k ≠ none) : overlay inserted deleted base k = none := by
  obtain ⟨w, hw⟩ := Option.ne_none_iff_exists'.mp h
  rw [overlay, hw]

theorem overlay_of_not_deleted (h : deleted k = none) :
    overlay inserted deleted base k = (inserted k).or (base k) := by
  rw [overlay, h]

/-- Without changes the map itself is seen. -/
theorem overlay_none :
    overlay (fun _ ↦ none : K → Option V) (fun _ ↦ none : K → Option W) base = base := by
  funext k
  rw [overlay_of_not_deleted rfl, Option.none_or]

variable [DecidableEq K]

/-- A key is inserted, and its mark removed. -/
theorem overlay_insert :
    overlay (Function.update inserted k (some v)) (Function.update deleted k none) base =
      Function.update (overlay inserted deleted base) k (some v) := by
  funext k'
  by_cases hk : k' = k
  · rw [hk, Function.update_self, overlay_of_not_deleted (Function.update_self _ _ _),
      Function.update_self, Option.some_or]
  · rw [Function.update_of_ne hk, overlay, overlay, Function.update_of_ne hk,
      Function.update_of_ne hk]

/-- A key is marked. -/
theorem overlay_mark :
    overlay inserted (Function.update deleted k (some w)) base =
      Function.update (overlay inserted deleted base) k none := by
  funext k'
  by_cases hk : k' = k
  · rw [hk, Function.update_self, overlay, Function.update_self]
  · rw [Function.update_of_ne hk, overlay, overlay, Function.update_of_ne hk]

/-- A key that the map does not have is removed from those inserted. -/
theorem overlay_remove (hbase : base k = none) :
    overlay (Function.update inserted k none) deleted base =
      Function.update (overlay inserted deleted base) k none := by
  funext k'
  by_cases hk : k' = k
  · rw [hk, Function.update_self]
    by_cases hdeleted : deleted k = none
    · rw [overlay_of_not_deleted hdeleted, Function.update_self, hbase, Option.none_or]
    · exact overlay_of_deleted hdeleted
  · rw [Function.update_of_ne hk, overlay, overlay, Function.update_of_ne hk]

end Graphflow.Lib
