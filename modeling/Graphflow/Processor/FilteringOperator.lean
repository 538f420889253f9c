import Graphflow.Processor.SkipLimit

/-!
# Operators that filter

An operator that shortens the selection of a chunk restores it before its child is called again, so
that the child finds what it has left there.
-/

namespace Graphflow.Processor.SelectionMemory

/-- What a child sees of an unflat chunk. -/
def selected (m : SelectionMemory) : Selected := ⟨m.isUnfiltered, m.selectedPositions, none⟩

theorem selected_copyTo (m target : SelectionMemory) : (m.copyTo target).selected = m.selected := by
  rw [selected, isUnfiltered_copyTo, selectedPositions_copyTo]
  rfl

/-- Whatever becomes of the selections after they have been saved, they are restored. -/
theorem selected_restoreSelVector (m target : SelectionMemory) (prev : Option SelectionMemory) :
    (target.restoreSelVector (m.saveSelVector prev)).selected = m.selected := by
  rw [saveSelVector, restoreSelVector, selected_copyTo, selected_copyTo]

theorem selected_restore_twice (m : SelectionMemory) (prev : Option SelectionMemory) :
    ((m.restoreSelVector prev).restoreSelVector prev).selected =
      (m.restoreSelVector prev).selected := by
  cases prev with
  | none => rfl
  | some saved => exact (saved.selected_copyTo _).trans (saved.selected_copyTo _).symm

end Graphflow.Processor.SelectionMemory
