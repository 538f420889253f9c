import Graphflow.Lib.SortedMatch
import Graphflow.Processor.FilteringOperator
import Graphflow.Processor.ScanRelProperty
import Mathlib.Data.List.ProdSigma

/-!
# Intersecting two lists of neighbours

`Intersect` sorts the selected positions of two vectors by their nodes, which are those of one query
node, and selects positions of the left vector that meet one of the right vector.
-/

namespace Graphflow.Processor

open Lib Storage

/-! ## The operator -/

/-- What a child does to one of the two chunks, of which it may leave the selection as it is. -/
structure Neighbours where
  selVector : Option SelectionVector
  nodeIDs : ℕ → NodeID

structure PulledNeighbours where
  left : Neighbours
  right : Neighbours
  multiplicity : ℕ
  multiplicity_pos : 0 < multiplicity

/-- A child has a state of its own and reads the positions that are selected. -/
abbrev NeighboursChild (σ : Type) := σ → Selected × Selected → Option (σ × PulledNeighbours)

def readNodeOffset (nodeIDs : ℕ → NodeID) (pos : ℕ) : ℕ := (nodeIDs pos).offset

/-- The positions are sorted in the buffer, where those of an unfiltered vector are written
first. -/
def sortSelectedPos (order : KeySort ℕ ℕ) (nodeIDs : ℕ → NodeID) (m : SelectionMemory) :
    SelectionMemory where
  isUnfiltered := false
  selectedPositionsBuffer i :=
    (order.sort (readNodeOffset nodeIDs) m.selectedPositions).getD i (m.selectedPositionsBuffer i)
  selectedSize := m.selectedSize

/-- The loop over both vectors.  What it selects it writes to the buffer that it reads from.  Each
turn goes on in one of the vectors, so that `turns` do not run out. -/
def matchPositions (leftIDs rightIDs : ℕ → NodeID) (leftSize : ℕ) (right : SelectionMemory) :
    ℕ → ℕ → ℕ → ℕ → (ℕ → ℕ) → ℕ × (ℕ → ℕ)
  | 0, _, _, numSelectedValues, buffer => (numSelectedValues, buffer)
  | turns + 1, leftIdx, rightIdx, numSelectedValues, buffer =>
      if leftIdx < leftSize ∧ rightIdx < right.selectedSize then
        let leftPos := buffer leftIdx
        let leftNodeOffset := readNodeOffset leftIDs leftPos
        let rightNodeOffset := readNodeOffset rightIDs (right.positionAt rightIdx)
        if rightNodeOffset < leftNodeOffset then
          matchPositions leftIDs rightIDs leftSize right turns leftIdx (rightIdx + 1)
            numSelectedValues buffer
        else if leftNodeOffset < rightNodeOffset then
          matchPositions leftIDs rightIDs leftSize right turns (leftIdx + 1) rightIdx
            numSelectedValues buffer
        else
          matchPositions leftIDs rightIDs leftSize right turns (leftIdx + 1) (rightIdx + 1)
            (numSelectedValues + 1) (Function.update buffer numSelectedValues leftPos)
      else (numSelectedValues, buffer)

structure PulledPositions where
  left : List ℕ
  right : List ℕ
  leftIDs : ℕ → NodeID
  rightIDs : ℕ → NodeID
  multiplicity : ℕ

/-- What is passed on: the selected positions of the left vector and the number of those of the
right vector. -/
structure Intersected extends PulledPositions where
  leftSelected : List ℕ
  rightSize : ℕ

/-- The selections of both chunks. -/
structure SelectedPair where
  left : SelectionMemory := {}
  right : SelectionMemory := {}

namespace SelectedPair

variable (c : SelectedPair)

def selected : Selected × Selected := (c.left.selected, c.right.selected)

def pull (p : PulledNeighbours) : SelectedPair where
  left := p.left.selVector.elim c.left c.left.load
  right := p.right.selVector.elim c.right c.right.load

/-- The selected positions and their nodes. -/
def pulled (p : PulledNeighbours) : PulledPositions where
  left := c.left.selectedPositions
  right := c.right.selectedPositions
  leftIDs := p.left.nodeIDs
  rightIDs := p.right.nodeIDs
  multiplicity := p.multiplicity

/-- The rest of a turn of the loop.  Only if there is a match does the call end and the right vector
get the size one. -/
def intersect (order : KeySort ℕ ℕ) (p : PulledNeighbours) : SelectedPair :=
  let left := sortSelectedPos order p.left.nodeIDs c.left
  let right := sortSelectedPos order p.right.nodeIDs c.right
  let selected := matchPositions p.left.nodeIDs p.right.nodeIDs left.selectedSize right
    (left.selectedSize + right.selectedSize) 0 0 0 left.selectedPositionsBuffer
  { left := { left with selectedSize := selected.1, selectedPositionsBuffer := selected.2 }
    right := if selected.1 = 0 then right else { right with selectedSize := 1 } }

def intersected (order : KeySort ℕ ℕ) (p : PulledNeighbours) : Intersected :=
  { c.pulled p with
    leftSelected := (c.intersect order p).left.selectedPositions
    rightSize := (c.intersect order p).right.selectedSize }

end SelectedPair

/-- `returned` is what the child has left behind.  No operator reads it or the log. -/
structure IntersectState (σ : Type) where
  child : σ
  chunks : SelectedPair := {}
  prevLeft : Option SelectionMemory := none
  prevRight : Option SelectionMemory := none
  finished : Bool := false
  returned : Option (Selected × Selected) := none
  log : List Intersected := []

namespace IntersectState

variable {σ : Type} (s : IntersectState σ)

def restoreSelVectors : IntersectState σ :=
  { s with
    chunks :=
      { left := s.chunks.left.restoreSelVector s.prevLeft
        right := s.chunks.right.restoreSelVector s.prevRight } }

@[simp] theorem child_restoreSelVectors : s.restoreSelVectors.child = s.child := rfl

/-- What is done with the chunks that a child has filled. -/
def process (order : KeySort ℕ ℕ) (child : σ) (p : PulledNeighbours) : IntersectState σ :=
  let chunks := s.chunks.pull p
  { child := child
    chunks := chunks.intersect order p
    prevLeft := chunks.left.saveSelVector s.prevLeft
    prevRight := chunks.right.saveSelVector s.prevRight
    finished := false
    returned := some chunks.selected
    log := s.log ++ [chunks.intersected order p] }

/-- A turn of the loop of `getNextTuples`, where the positions are sorted in some order.  A call
ends with the first turn that selects something, and the next call begins with the next turn. -/
def turn (child : NeighboursChild σ) (s : IntersectState σ) (order : KeySort ℕ ℕ) :
    Option (IntersectState σ) :=
  if s.finished then none
  else
    let s := s.restoreSelVectors
    match child s.child s.chunks.selected with
    | none => some { s with finished := true }
    | some (next, p) => some (s.process order next p)

end IntersectState

/-! ## The loop -/

theorem map_range'_of_lt {f : ℕ → ℕ} {i n : ℕ} (hlt : i < n) :
    (List.range' i (n - i)).map f = f i :: (List.range' (i + 1) (n - (i + 1))).map f := by
  have hsub : n - i = n - (i + 1) + 1 := by omega
  rw [hsub, List.range'_succ, List.map_cons]

/-- The loop selects what is met in the rest of both vectors. -/
theorem positions_matchPositions (leftIDs rightIDs : ℕ → NodeID) (leftSize : ℕ)
    (right : SelectionMemory) {turns leftIdx rightIdx num : ℕ} {buffer : ℕ → ℕ}
    (hnum : num ≤ leftIdx)
    (hturns : leftSize - leftIdx + (right.selectedSize - rightIdx) ≤ turns) :
    (List.range (matchPositions leftIDs rightIDs leftSize right turns leftIdx rightIdx num
        buffer).1).map
      (matchPositions leftIDs rightIDs leftSize right turns leftIdx rightIdx num buffer).2 =
      (List.range num).map buffer ++
        matchSorted (readNodeOffset leftIDs) (readNodeOffset rightIDs)
          ((List.range' leftIdx (leftSize - leftIdx)).map buffer)
          ((List.range' rightIdx (right.selectedSize - rightIdx)).map right.positionAt) := by
  induction turns generalizing leftIdx rightIdx num buffer with
  | zero =>
      have hleft : leftSize - leftIdx = 0 := by omega
      rw [matchPositions, hleft]
      simp [matchSorted]
  | succ turns ih =>
      rw [matchPositions]
      by_cases hlt : leftIdx < leftSize ∧ rightIdx < right.selectedSize
      · obtain ⟨hleft, hright⟩ := hlt
        have hxs := map_range'_of_lt (f := buffer) hleft
        have hys := map_range'_of_lt (f := right.positionAt) hright
        simp only [if_pos (And.intro hleft hright)]
        rw [hxs, hys, matchSorted]
        split_ifs with hgt hless
        · rw [ih hnum (by omega), hxs]
        · rw [ih (by omega) (by omega), hys]
        · have hbuffer : ∀ i ≠ num, Function.update buffer num (buffer leftIdx) i = buffer i :=
            fun i hi ↦ Function.update_of_ne hi _ _
          have hold : (List.range num).map (Function.update buffer num (buffer leftIdx)) =
              (List.range num).map buffer :=
            List.map_congr_left fun i hi ↦ hbuffer i (List.mem_range.mp hi).ne
          -- What is written lies behind what is read next.
          have hrest : (List.range' (leftIdx + 1) (leftSize - (leftIdx + 1))).map
              (Function.update buffer num (buffer leftIdx)) =
                (List.range' (leftIdx + 1) (leftSize - (leftIdx + 1))).map buffer := by
            apply List.map_congr_left
            intro i hi
            have hle := (List.mem_range'_1.mp hi).1
            exact hbuffer i (by omega)
          rw [ih (by omega) (by omega), List.range_succ, List.map_append, List.map_singleton,
            Function.update_self, hold, hrest, List.append_assoc, List.singleton_append]
      · rw [if_neg hlt]
        rcases Nat.lt_or_ge leftIdx leftSize with hleft | hleft
        · have hright : right.selectedSize - rightIdx = 0 := by omega
          rw [hright, map_range'_of_lt hleft]
          simp [matchSorted]
        · rw [Nat.sub_eq_zero_of_le hleft]
          simp [matchSorted]

theorem selectedPositions_sortSelectedPos (order : KeySort ℕ ℕ) (nodeIDs : ℕ → NodeID)
    (m : SelectionMemory) : (sortSelectedPos order nodeIDs m).selectedPositions =
      order.sort (readNodeOffset nodeIDs) m.selectedPositions := by
  have hlength := (order.perm (readNodeOffset nodeIDs) m.selectedPositions).length_eq
  rw [SelectionMemory.length_selectedPositions] at hlength
  apply List.ext_getElem
  · rw [SelectionMemory.length_selectedPositions, hlength]
    rfl
  · intro i hi hi'
    have hposition : (sortSelectedPos order nodeIDs m).positionAt i =
        (order.sort (readNodeOffset nodeIDs) m.selectedPositions)[i] :=
      (if_neg Bool.false_ne_true).trans (List.getD_eq_getElem _ _ hi')
    simp only [SelectionMemory.selectedPositions, List.getElem_map, List.getElem_range, hposition]

/-- The sorted lists are matched. -/
theorem selectedPositions_intersect (c : SelectedPair) (order : KeySort ℕ ℕ)
    (p : PulledNeighbours) : (c.intersect order p).left.selectedPositions =
      matchSorted (readNodeOffset p.left.nodeIDs) (readNodeOffset p.right.nodeIDs)
        (order.sort (readNodeOffset p.left.nodeIDs) c.left.selectedPositions)
        (order.sort (readNodeOffset p.right.nodeIDs) c.right.selectedPositions) := by
  rw [← selectedPositions_sortSelectedPos, ← selectedPositions_sortSelectedPos]
  have hmatch := @positions_matchPositions p.left.nodeIDs p.right.nodeIDs c.left.selectedSize
    (sortSelectedPos order p.right.nodeIDs c.right) _ 0 0 0
    (sortSelectedPos order p.left.nodeIDs c.left).selectedPositionsBuffer
    (Nat.le_refl 0) (Nat.le_refl _)
  rw [List.range_zero, List.map_nil, List.nil_append, ← List.range_eq_range',
    ← List.range_eq_range'] at hmatch
  exact hmatch

theorem rightSize_intersect {c : SelectedPair} {order : KeySort ℕ ℕ} {p : PulledNeighbours}
    (hselected : (c.intersect order p).left.selectedPositions ≠ []) :
    (c.intersect order p).right.selectedSize = 1 := by
  have hsize : (c.intersect order p).left.selectedSize ≠ 0 := by
    intro hzero
    rw [SelectionMemory.selectedPositions, hzero] at hselected
    exact hselected rfl
  have hright : (c.intersect order p).right = { sortSelectedPos order p.right.nodeIDs c.right with
      selectedSize := 1 } := if_neg hsize
  rw [hright]

/-! ## The join -/

theorem count_flatMap_replicate {α : Type} (l : List α) (key : α → ℕ) (n pos : ℕ) :
    (l.flatMap fun a ↦ List.replicate n (key a)).count pos = (l.map key).count pos * n := by
  induction l with
  | nil => simp
  | cons a l ih =>
      rw [List.flatMap_cons, List.count_append, ih, List.count_replicate, List.map_cons,
        List.count_cons, Nat.add_mul, Nat.add_comm]
      split_ifs
      · rw [Nat.one_mul]
      · rw [Nat.zero_mul]

theorem count_fst_filter_product (l r : List ℕ) (p : ℕ × ℕ → Bool) (pos : ℕ) :
    (((l ×ˢ r).filter p).map Prod.fst).count pos =
      l.count pos * (r.filter fun b ↦ p (pos, b)).length := by
  induction l with
  | nil => simp
  | cons a l ih =>
      have hhead : (((r.map (Prod.mk a)).filter p).map Prod.fst).count pos =
          if a = pos then (r.filter fun b ↦ p (pos, b)).length else 0 := by
        rw [List.filter_map, List.map_map]
        split_ifs with heq
        · subst heq
          rw [List.count_eq_length.mpr fun b hb ↦ by
            obtain ⟨r', -, rfl⟩ := List.mem_map.mp hb
            rfl]
          exact List.length_map _
        · exact List.count_eq_zero.mpr (by simp [Ne.symm heq])
      rw [List.product_cons, List.filter_append, List.map_append, List.count_append, ih, hhead,
        List.count_cons, Nat.add_mul, Nat.add_comm]
      simp only [beq_iff_eq]
      split_ifs
      · rw [Nat.one_mul]
      · rw [Nat.zero_mul]

namespace PulledPositions

variable (f : PulledPositions)

/-- The positions of the same node in both vectors. -/
def pairs : List (ℕ × ℕ) :=
  (f.left ×ˢ f.right).filter fun pair ↦ f.leftIDs pair.1 = f.rightIDs pair.2

/-- The tuples of the pairs, by their left positions. -/
def tuples : List ℕ := f.pairs.flatMap fun pair ↦ List.replicate f.multiplicity pair.1

/-- The positions with the offset of a position of the left vector. -/
def sameLeft (pos : ℕ) : List ℕ :=
  f.left.filter fun l ↦ readNodeOffset f.leftIDs l = readNodeOffset f.leftIDs pos

def sameRight (pos : ℕ) : List ℕ :=
  f.right.filter fun r ↦ readNodeOffset f.rightIDs r = readNodeOffset f.leftIDs pos

/-- A node whose offset both vectors have is once in the right vector, and its offset is not more
often in the left vector than in the right one. -/
def MatchesOnce : Prop :=
  ∀ l ∈ f.left, f.sameRight l ≠ [] →
    (f.right.filter fun r ↦ f.leftIDs l = f.rightIDs r).length = 1 ∧
      (f.sameLeft l).length ≤ (f.sameRight l).length

theorem count_tuples (hnodup : f.left.Nodup) (pos : ℕ) :
    f.tuples.count pos =
      (if pos ∈ f.left then (f.right.filter fun r ↦ f.leftIDs pos = f.rightIDs r).length else 0) *
        f.multiplicity := by
  rw [tuples, count_flatMap_replicate, pairs, count_fst_filter_product, hnodup.count]
  split_ifs
  · rw [Nat.one_mul]
  · rw [Nat.zero_mul]

end PulledPositions

namespace Intersected

variable (f : Intersected)

/-- The tuples that are passed on, by their left positions. -/
def passedOn : List ℕ :=
  f.leftSelected.flatMap fun pos ↦ List.replicate (f.rightSize * f.multiplicity) pos

/-- There is a tuple for each pair and each of the tuples that the child has produced. -/
def Joins : Prop := f.passedOn.Perm f.tuples

instance : Decidable f.Joins := inferInstanceAs (Decidable (List.Perm _ _))

end Intersected

namespace SelectedPair

variable {c : SelectedPair} {order : KeySort ℕ ℕ} {p : PulledNeighbours}

/-- Of the positions with an offset the first ones are selected, as many as both vectors have. -/
theorem count_leftSelected (pos : ℕ) : (c.intersected order p).leftSelected.count pos =
    (((order.sort (readNodeOffset p.left.nodeIDs) c.left.selectedPositions).filter fun l ↦
        readNodeOffset p.left.nodeIDs l = readNodeOffset p.left.nodeIDs pos).take
      ((c.pulled p).sameRight pos).length).count pos := by
  have hright := ((order.perm (readNodeOffset p.right.nodeIDs) c.right.selectedPositions).filter
    fun r ↦ decide (readNodeOffset p.right.nodeIDs r = readNodeOffset p.left.nodeIDs pos)).length_eq
  have hfilter := filter_matchSorted
    (order.sorted (readNodeOffset p.left.nodeIDs) c.left.selectedPositions)
    (order.sorted (readNodeOffset p.right.nodeIDs) c.right.selectedPositions)
    (readNodeOffset p.left.nodeIDs pos)
  rw [hright, ← selectedPositions_intersect] at hfilter
  have hcount := congrArg (List.count pos) hfilter
  rwa [List.count_filter (by simp)] at hcount

theorem count_passedOn (pos : ℕ) : (c.intersected order p).passedOn.count pos =
    (c.intersected order p).leftSelected.count pos * p.multiplicity := by
  rw [Intersected.passedOn, count_flatMap_replicate, List.map_id']
  by_cases hselected : (c.intersected order p).leftSelected = []
  · rw [hselected, List.count_nil, Nat.zero_mul, Nat.zero_mul]
  · have hsize : (c.intersected order p).rightSize = 1 := rightSize_intersect hselected
    rw [hsize, Nat.one_mul]
    rfl

theorem joins_iff_count (hnodup : c.left.selectedPositions.Nodup) :
    (c.intersected order p).Joins ↔ ∀ pos, (c.intersected order p).leftSelected.count pos =
      if pos ∈ c.left.selectedPositions then (c.right.selectedPositions.filter fun r ↦
        p.left.nodeIDs pos = p.right.nodeIDs r).length else 0 := by
  rw [Intersected.Joins, List.perm_iff_count]
  refine forall_congr' fun pos ↦ ?_
  have htuples := (c.pulled p).count_tuples hnodup pos
  rw [count_passedOn]
  exact htuples ▸ Nat.mul_left_inj p.multiplicity_pos.ne'

theorem joins_of_matchesOnce (hnodup : c.left.selectedPositions.Nodup)
    (honce : (c.pulled p).MatchesOnce) : (c.intersected order p).Joins := by
  refine (joins_iff_count hnodup).mpr fun pos ↦ ?_
  rw [count_leftSelected]
  have hperm := order.perm (readNodeOffset p.left.nodeIDs) c.left.selectedPositions
  have hfilter := hperm.filter fun l ↦
    decide (readNodeOffset p.left.nodeIDs l = readNodeOffset p.left.nodeIDs pos)
  split_ifs with hmem
  · by_cases hnone : (c.pulled p).sameRight pos = []
    · have hno : c.right.selectedPositions.filter (fun r ↦
          decide (p.left.nodeIDs pos = p.right.nodeIDs r)) = [] := by
        apply List.filter_eq_nil_iff.mpr
        intro r hr heq
        have hoffset := congrArg NodeID.offset (of_decide_eq_true heq)
        exact List.filter_eq_nil_iff.mp hnone r hr (decide_eq_true hoffset.symm)
      rw [hnone, hno]
      rfl
    · obtain ⟨hone, hle⟩ := honce pos hmem hnone
      have hlength : ((order.sort (readNodeOffset p.left.nodeIDs) c.left.selectedPositions).filter
          fun l ↦ decide (readNodeOffset p.left.nodeIDs l =
            readNodeOffset p.left.nodeIDs pos)).length ≤ ((c.pulled p).sameRight pos).length :=
        hfilter.length_eq.trans_le hle
      rw [List.take_of_length_le hlength, List.count_filter (by simp), hperm.count_eq, hnodup.count,
        if_pos hmem]
      exact hone.symm
  · apply List.count_eq_zero.mpr
    intro htake
    exact hmem (hperm.subset (List.mem_of_mem_filter (List.mem_of_mem_take htake)))

theorem matchesOnce_of_joins (hnodup : c.left.selectedPositions.Nodup)
    (hjoins : ∀ order, (c.intersected order p).Joins) : (c.pulled p).MatchesOnce := by
  intro l hl hnone
  have hpos : 0 < ((c.pulled p).sameRight l).length := List.length_pos_iff.mpr hnone
  -- The positions with the offset come in any order.
  have hcount : ∀ same : List ℕ, same.Perm ((c.pulled p).sameLeft l) →
      (same.take ((c.pulled p).sameRight l).length).count l =
        (c.right.selectedPositions.filter fun r ↦
          decide (p.left.nodeIDs l = p.right.nodeIDs r)).length := by
    intro same hsame
    obtain ⟨order, horder⟩ := @KeySort.exists_filter_eq _ _ _ (readNodeOffset p.left.nodeIDs)
      c.left.selectedPositions _ (readNodeOffset p.left.nodeIDs l) hsame
    have hall := (joins_iff_count hnodup).mp (hjoins order) l
    rw [count_leftSelected, horder] at hall
    exact hall.trans (if_pos hl)
  have hsame : l ∈ (c.pulled p).sameLeft l := List.mem_filter.mpr ⟨hl, decide_eq_true rfl⟩
  have hperm := List.perm_cons_erase hsame
  have hnodup' : ((c.pulled p).sameLeft l).Nodup := hnodup.filter _
  have hnotMem : l ∉ ((c.pulled p).sameLeft l).erase l := hnodup'.not_mem_erase
  have hone : (c.right.selectedPositions.filter fun r ↦
      decide (p.left.nodeIDs l = p.right.nodeIDs r)).length = 1 := by
    have hfirst := hcount (l :: ((c.pulled p).sameLeft l).erase l) hperm.symm
    rw [← hfirst, ← Nat.succ_pred_eq_of_pos hpos, List.take_succ_cons, List.count_cons_self,
      List.count_eq_zero.mpr fun hmem ↦ hnotMem (List.mem_of_mem_take hmem)]
  refine ⟨hone, ?_⟩
  by_contra hlt
  have hlast := hcount (((c.pulled p).sameLeft l).erase l ++ [l])
    ((List.perm_append_singleton l _).trans hperm.symm)
  have hlength := List.length_erase_of_mem hsame
  rw [List.take_append_of_le_length (by omega), hone,
    List.count_eq_zero.mpr fun hmem ↦ hnotMem (List.mem_of_mem_take hmem)] at hlast
  cases hlast

end SelectedPair

/-! ## Runs -/

namespace IntersectState

variable {σ : Type} {child : NeighboursChild σ} {s s' : IntersectState σ}
  {order : KeySort ℕ ℕ} {orders : List (KeySort ℕ ℕ)}

/-- What the child has left behind is there again once it is restored. -/
structure Inv (s : IntersectState σ) : Prop where
  selected : ∀ selected ∈ s.returned, s.restoreSelVectors.chunks.selected = selected
  nodup : s.restoreSelVectors.chunks.left.selectedPositions.Nodup

theorem inv_start (first : σ) : Inv { child := first } where
  selected _ hselected := by cases hselected
  nodup := List.nodup_nil

theorem Inv.nodup_pull (h : Inv s) (p : PulledNeighbours) :
    (s.restoreSelVectors.chunks.pull p).left.selectedPositions.Nodup := by
  rw [SelectedPair.pull]
  cases p.left.selVector with
  | none => exact h.nodup
  | some v =>
      rw [Option.elim_some, SelectionMemory.selectedPositions_load]
      exact v.nodup

theorem Inv.process (h : Inv s) (next : σ) (p : PulledNeighbours) :
    Inv (s.restoreSelVectors.process order next p) := by
  have hleft := SelectionMemory.selected_restoreSelVector (s.restoreSelVectors.chunks.pull p).left
    ((s.restoreSelVectors.chunks.pull p).intersect order p).left s.prevLeft
  have hright := SelectionMemory.selected_restoreSelVector (s.restoreSelVectors.chunks.pull p).right
    ((s.restoreSelVectors.chunks.pull p).intersect order p).right s.prevRight
  constructor
  · rintro _ ⟨⟩
    exact Prod.ext hleft hright
  · have hpositions := congrArg Selected.selectedPositions hleft
    exact (congrArg List.Nodup hpositions).mpr (h.nodup_pull p)

theorem Inv.turn (h : Inv s) (hturn : turn child s order = some s') : Inv s' := by
  rw [IntersectState.turn] at hturn
  split_ifs at hturn
  dsimp only at hturn
  split at hturn
  · obtain rfl := Option.some.inj hturn
    have hleft := SelectionMemory.selected_restore_twice s.chunks.left s.prevLeft
    have hright := SelectionMemory.selected_restore_twice s.chunks.right s.prevRight
    refine ⟨fun selected hselected ↦ ?_, ?_⟩
    · rw [← h.selected selected hselected]
      exact Prod.ext hleft hright
    · have hpositions := congrArg Selected.selectedPositions hleft
      exact (congrArg List.Nodup hpositions).mpr h.nodup
  · obtain rfl := Option.some.inj hturn
    exact h.process _ _

/-- A run has led to the state, and the log has what its turns have passed on. -/
structure Logged (child : NeighboursChild σ) (first : σ) (s : IntersectState σ) : Prop where
  exists_run : ∃ orders, run (IntersectState.turn child) { child := first } orders = some s
  exists_turn : ∀ f ∈ s.log, ∃ orders s₀ next p order,
    run (IntersectState.turn child) { child := first } orders = some s₀ ∧ s₀.finished = false ∧
      child s₀.child s₀.restoreSelVectors.chunks.selected = some (next, p) ∧
      f = (s₀.restoreSelVectors.chunks.pull p).intersected order p

theorem Logged.turn {first : σ} (h : Logged child first s)
    (hturn : turn child s order = some s') : Logged child first s' := by
  obtain ⟨orders, hrun⟩ := h.exists_run
  refine ⟨⟨orders ++ [order], run_concat_of_eq_some hrun hturn⟩, ?_⟩
  rw [IntersectState.turn] at hturn
  split_ifs at hturn with hfinished
  dsimp only at hturn
  split at hturn
  · obtain rfl := Option.some.inj hturn
    exact h.exists_turn
  · rename_i next p hpull
    obtain rfl := Option.some.inj hturn
    intro f hf
    rcases List.mem_append.mp hf with hf | hf
    · exact h.exists_turn f hf
    · exact ⟨orders, s, next, p, order, hrun, Bool.eq_false_iff.mpr hfinished, hpull,
        List.mem_singleton.mp hf⟩

theorem inv_of_run {first : σ} (hrun : run (turn child) { child := first } orders = some s) :
    Inv s ∧ Logged child first s := by
  constructor
  · exact run_invariant (fun _ _ _ h hturn ↦ h.turn hturn) (inv_start first) hrun
  · refine run_invariant (fun _ _ _ (h : Logged child first _) hturn ↦ h.turn hturn) ?_ hrun
    exact ⟨⟨[], rfl⟩, fun f hf ↦ absurd hf List.not_mem_nil⟩

/-- Every run of the operator passes on the pairs, and restores what the child has selected, just
when no child produces a node that is met twice. -/
theorem joins_of_run_iff (child : NeighboursChild σ) (first : σ) :
    (∀ orders s, run (turn child) { child := first } orders = some s →
      (∀ selected ∈ s.returned, s.restoreSelVectors.chunks.selected = selected) ∧
        ∀ f ∈ s.log, f.Joins) ↔
      ∀ orders s, run (turn child) { child := first } orders = some s →
        ∀ f ∈ s.log, f.MatchesOnce := by
  constructor
  · intro hjoins orders s hrun f hf
    obtain ⟨orders₀, s₀, next, p, order, hrun₀, hfinished, hpull, rfl⟩ :=
      (inv_of_run hrun).2.exists_turn f hf
    refine SelectedPair.matchesOnce_of_joins ((inv_of_run hrun₀).1.nodup_pull p) fun order' ↦ ?_
    -- The same turn with another order.
    have hturn : turn child s₀ order' = some (s₀.restoreSelVectors.process order' next p) := by
      rw [turn, hfinished, if_neg Bool.false_ne_true]
      simp only [child_restoreSelVectors, hpull]
    apply (hjoins _ _ (run_concat_of_eq_some hrun₀ hturn)).2
    exact List.mem_append_right _ (List.mem_singleton_self _)
  · intro honce orders s hrun
    obtain ⟨hinv, hlogged⟩ := inv_of_run hrun
    refine ⟨hinv.selected, fun f hf ↦ ?_⟩
    obtain ⟨orders₀, s₀, next, p, order, hrun₀, -, -, rfl⟩ := hlogged.exists_turn f hf
    exact SelectedPair.joins_of_matchesOnce ((inv_of_run hrun₀).1.nodup_pull p)
      (honce orders s hrun _ hf)

/-! ### Parallel rels -/

theorem two_le_capacity : 2 ≤ defaultVectorCapacity := by decide

/-- A child that produces once: the node with the number `5`, twice in the left vector and once in
the right one. -/
def parallelRels : NeighboursChild Bool := fun produced _ ↦
  if produced then none
  else some (true,
    { left := ⟨some (.unfiltered 2 two_le_capacity), fun _ ↦ ⟨0, 5⟩⟩
      right := ⟨some (.unfiltered 2 two_le_capacity), fun pos ↦ ⟨0, 5 + pos⟩⟩
      multiplicity := 1
      multiplicity_pos := Nat.one_pos })

/-- Only one of the two pairs is passed on. -/
theorem not_joins_parallelRels : ∃ s,
    run (turn parallelRels) { child := false } [KeySort.stable] = some s ∧
      (s.log.map fun f ↦ (f.passedOn, f.tuples)) = [([0], [0, 1])] ∧ ∃ f ∈ s.log, ¬f.Joins := by
  refine ⟨_, rfl, by decide, _, List.mem_singleton_self _, by decide⟩

end IntersectState

end Graphflow.Processor
