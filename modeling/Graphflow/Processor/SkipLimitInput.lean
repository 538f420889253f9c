import Graphflow.Processor.SkipLimit

/-!
# The input of `SKIP` and `LIMIT`

What the child of a thread produces alone, and that it produces the same below operators that
restore what they have changed.
-/

namespace Graphflow.Processor

open Lib Storage

variable {σ : Type} {child : Child σ}

/-! ## A child alone -/

/-- A child, the data chunk and the number of calls. -/
structure View (σ : Type) where
  child : σ
  selected : Selected
  numCalls : ℕ

namespace View

def initial (s : σ) : View σ := ⟨s, ⟨true, [], none⟩, 0⟩

def positions (v : View σ) : List ℕ :=
  match v.selected.currIdx with
  | none => v.selected.selectedPositions
  | some i => [v.selected.selectedPositions.getD i 0]

def tuples (v : View σ) : List (ℕ × ℕ) := v.positions.map fun pos ↦ (v.numCalls, pos)

def afterChild (v : View σ) (s : σ) (produced : Produced) : View σ where
  child := s
  selected := produced.state.elim v.selected fun state ↦
    ⟨state.selVector.isUnfiltered, state.selVector.selectedPositions, state.currIdx⟩
  numCalls := v.numCalls + 1

end View

/-- The child has been called some times, with the data chunk as it has left it, and has produced
some lists of tuples. -/
inductive Produces (child : Child σ) (start : View σ) : List (List (ℕ × ℕ)) → View σ → Prop
  | nil : Produces child start [] start
  | concat {input : List (List (ℕ × ℕ))} {v : View σ} {s : σ} {produced : Produced}
      (h : Produces child start input v) (hcall : child v.child v.selected = some (s, produced)) :
      Produces child start (input ++ [(v.afterChild s produced).tuples]) (v.afterChild s produced)

namespace Produces

variable {s : σ} {v : View σ} {input : List (List (ℕ × ℕ))}

theorem selectedPositions_spec (h : Produces child (.initial s) input v) :
    v.selected.selectedPositions.Nodup ∧
      v.selected.selectedPositions.length ≤ defaultVectorCapacity := by
  induction h with
  | nil => exact ⟨List.nodup_nil, Nat.zero_le _⟩
  | @concat input v s produced h hcall ih =>
      cases hstate : produced.state with
      | none =>
          simp only [View.afterChild, hstate, Option.elim_none]
          exact ih
      | some state =>
          simp only [View.afterChild, hstate, Option.elim_some]
          exact ⟨state.selVector.nodup, state.selVector.selectedSize_le⟩

theorem tuples_spec (h : Produces child (.initial s) input v) :
    v.tuples.Nodup ∧ v.tuples.length ≤ defaultVectorCapacity := by
  obtain ⟨hnodup, hlength⟩ := h.selectedPositions_spec
  have hpositions : v.positions.Nodup ∧ v.positions.length ≤ defaultVectorCapacity := by
    rw [View.positions]
    cases v.selected.currIdx with
    | none => exact ⟨hnodup, hlength⟩
    | some i => exact ⟨List.nodup_singleton _, Nat.one_le_two_pow⟩
  refine ⟨hpositions.1.map fun pos pos' heq ↦ (Prod.mk.inj heq).2, ?_⟩
  rw [View.tuples, List.length_map]
  exact hpositions.2

theorem length_le (h : Produces child (.initial s) input v) :
    ∀ tuples ∈ input, tuples.length ≤ defaultVectorCapacity := by
  induction h with
  | nil => simp
  | concat h hcall ih =>
      intro tuples htuples
      rcases List.mem_append.mp htuples with hold | hnew
      · exact ih tuples hold
      · rw [List.mem_singleton.mp hnew]
        exact (h.concat hcall).tuples_spec.2

/-- The tuples of different calls are different. -/
theorem nodup_flatten (h : Produces child (.initial s) input v) :
    input.flatten.Nodup ∧ ∀ x ∈ input.flatten, x.1 ≤ v.numCalls := by
  induction h with
  | nil => exact ⟨List.nodup_nil, by simp⟩
  | @concat input v s produced h hcall ih =>
      obtain ⟨hnodup, hle⟩ := ih
      have hlast := (h.concat hcall).tuples_spec.1
      have hcalls : ∀ x ∈ (v.afterChild s produced).tuples, x.1 = v.numCalls + 1 := by
        intro x hx
        obtain ⟨pos, -, rfl⟩ := List.mem_map.mp hx
        rfl
      rw [List.flatten_append, List.flatten_singleton]
      refine ⟨hnodup.append hlast fun x hx hx' ↦ ?_, fun x hx ↦ ?_⟩
      · have hx₁ := hle x hx
        rw [hcalls x hx'] at hx₁
        exact absurd hx₁ (Nat.not_succ_le_self _)
      · rcases List.mem_append.mp hx with hold | hnew
        · exact Nat.le_succ_of_le (hle x hold)
        · exact (hcalls x hnew).le

/-- What has been produced before the last call. -/
theorem of_concat {last : List (ℕ × ℕ)} (h : Produces child (.initial s) (input ++ [last]) v) :
    ∃ v', Produces child (.initial s) input v' := by
  generalize hinput : input ++ [last] = all at h
  cases h with
  | nil => simp at hinput
  | concat h hcall =>
      obtain ⟨rfl, -⟩ := List.append_inj' hinput rfl
      exact ⟨_, h⟩

end Produces

/-! ## A child below operators -/

namespace Pipeline

variable {p p' : Pipeline σ}

def view (p : Pipeline σ) : View σ := ⟨p.child, p.selected, p.numCalls⟩

/-- The child is called with what it sees. -/
theorem view_of_pull (h : p.pull child = some p') : ∃ s produced,
    child p.view.child p.view.selected = some (s, produced) ∧
      p'.view = p.view.afterChild s produced ∧ p'.multiplicity = produced.multiplicity ∧
        p'.prevSelVector = p.prevSelVector ∧ p'.point = p.point := by
  obtain ⟨⟨s, produced⟩, hcall, rfl⟩ := Option.map_eq_some_iff.mp h
  refine ⟨s, produced, hcall, ?_, rfl, rfl, rfl⟩
  cases hstate : produced.state with
  | none => simp only [view, selected, View.afterChild, hstate, Option.elim_none]
  | some state =>
      simp only [view, selected, View.afterChild, hstate, Option.elim_some,
        SelectionMemory.selectedPositions_load]
      rfl

/-- What a child sees after the selection has been restored is what was there when it was saved,
whatever has been done to the selection in between. -/
theorem view_restore_of_save (hprev : p'.prevSelVector = p.save.prevSelVector)
    (hchild : p'.child = p.child) (hcurrIdx : p'.currIdx = p.currIdx)
    (hcalls : p'.numCalls = p.numCalls) : p'.restore.view = p.view := by
  simp only [view, selected, restore, hprev, save, SelectionMemory.restoreSelVector,
    SelectionMemory.saveSelVector, SelectionMemory.isUnfiltered_copyTo,
    SelectionMemory.selectedPositions_copyTo, hchild, hcurrIdx, hcalls]

theorem view_restore_congr {saved : SelectionMemory} (hsaved : p.prevSelVector = some saved)
    (hprev : p'.prevSelVector = p.prevSelVector) (hchild : p'.child = p.child)
    (hcurrIdx : p'.currIdx = p.currIdx) (hcalls : p'.numCalls = p.numCalls) :
    p'.restore.view = p.restore.view := by
  simp only [view, selected, restore, hprev, hsaved, SelectionMemory.restoreSelVector,
    SelectionMemory.isUnfiltered_copyTo, SelectionMemory.selectedPositions_copyTo, hchild,
    hcurrIdx, hcalls]

theorem length_tuples (hmultiplicity : p.multiplicity = 1) : p.getNumTuples = p.tuples.length := by
  rw [getNumTuples, hmultiplicity, Nat.mul_one, tuples, List.length_map, positions]
  cases p.currIdx with
  | none => exact (SelectionMemory.length_selectedPositions _).symm
  | some i => rfl

end Pipeline

/-- Behind a `MultiplicityReducer` each tuple is there once. -/
def Reduced (child : Child σ) : Prop :=
  ∀ s selected s' produced, child s selected = some (s', produced) → produced.multiplicity = 1

theorem MultiplicityReducer.reduced_getNextTuples (child : Child σ) :
    Reduced (MultiplicityReducer.getNextTuples child) := by
  intro r selected r' produced h
  rw [getNextTuples] at h
  split_ifs at h
  · obtain ⟨⟨s, produced'⟩, -, heq⟩ := Option.map_eq_some_iff.mp h
    rw [← (Prod.mk.inj heq).2]
  · rw [← (Prod.mk.inj (Option.some.inj h)).2]

/-- The child is called for new tuples. -/
theorem MultiplicityReducer.getNextTuples_of_eq_some {c : σ} {selected : Selected} {s : σ}
    {produced : Produced} (hcall : child c selected = some (s, produced)) :
    getNextTuples child { child := c } selected =
      some (repeated ⟨s, produced.multiplicity, 0⟩, ⟨produced.state, 1⟩) := by
  rw [getNextTuples, if_pos rfl, hcall]
  rfl

end Graphflow.Processor
