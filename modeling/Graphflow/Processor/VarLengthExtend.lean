import Graphflow.Lib.Transition
import Mathlib.Data.List.ReduceOption
import Mathlib.Data.Multiset.Bind

/-!
# Extending by paths of variable length

`VarLengthAdjListExtend` goes through the walks from each bound node, depth first.  Each level of
its stack reads one adjacency list, and a large one page by page.
-/

namespace Graphflow.Processor

open Lib

/-! ## Adjacency lists -/

/-- The length of a list is a number of 32 bits, and only a small list may be empty. -/
structure AdjList where
  isLargeList : Bool
  nbrs : List ℕ
  length_lt : nbrs.length < 2 ^ 32
  ne_nil : isLargeList = true → nbrs ≠ []

/-- Without a `startIdx` there is no range. -/
structure ListSyncState where
  boundNodeOffset : ℕ := 2 ^ 64 - 1
  startIdx : Option ℕ := none
  numValuesToRead : ℕ := 2 ^ 32 - 1
  numValuesInList : ℕ := 2 ^ 64 - 1

namespace ListSyncState

variable (s : ListSyncState)

def getEndIdx : ℕ := (s.startIdx.getD (2 ^ 32 - 1) + s.numValuesToRead) % 2 ^ 32

/-- The state is reset once the list has been read. -/
def hasNewRangeToRead : Bool × ListSyncState :=
  if s.startIdx = none then (false, s)
  else if s.getEndIdx = s.numValuesInList then (false, {})
  else (true, s)

end ListSyncState

structure DFSLevelInfo where
  parent : ℕ := 0
  childrenIdx : ℕ := 0
  hasBeenOutput : Bool := false
  children : List ℕ := []
  listSyncState : ListSyncState := {}

/-! ## The operator -/

/-- `boundNodes` is what the child has still to produce.  No operator reads `outputs`. -/
structure VarLengthState where
  dfsLevelInfos : ℕ → DFSLevelInfo := fun _ ↦ {}
  dfsStack : List ℕ := []
  boundNode : ℕ := 0
  boundNodes : List (Option ℕ)
  outputs : List (ℕ × List ℕ) := []

def VarLengthState.setInfo (s : VarLengthState) (level : ℕ) (info : DFSLevelInfo) :
    VarLengthState :=
  { s with dfsLevelInfos := Function.update s.dfsLevelInfos level info }

@[simp] theorem VarLengthState.setInfo_same (s : VarLengthState) (level : ℕ) (info : DFSLevelInfo) :
    (s.setInfo level info).dfsLevelInfos level = info := by
  simp only [setInfo, Function.update_self]

theorem VarLengthState.setInfo_of_ne (s : VarLengthState) {level l : ℕ} (info : DFSLevelInfo)
    (hl : l ≠ level) : (s.setInfo level info).dfsLevelInfos l = s.dfsLevelInfos l := by
  simp only [setInfo, Function.update_of_ne hl]

/-- How another run starts, however the last one has been left. -/
def VarLengthState.reInitToRerunSubPlan (s : VarLengthState)
    (boundNodes : List (Option ℕ)) : VarLengthState :=
  { s with
    dfsLevelInfos := fun level ↦ { s.dfsLevelInfos level with listSyncState := {} }
    dfsStack := []
    boundNodes := boundNodes
    outputs := [] }

/-- The bounds are those that the binder admits. -/
structure VarLengthAdjListExtend where
  lists : ℕ → AdjList
  numElementsPerPage : ℕ
  lowerBound : ℕ
  upperBound : ℕ
  numElementsPerPage_pos : 0 < numElementsPerPage
  lowerBound_pos : 0 < lowerBound
  lowerBound_le : lowerBound ≤ upperBound

namespace VarLengthAdjListExtend

variable (op : VarLengthAdjListExtend)

/-- A range ends with its page. -/
def readFromLargeList (s : ListSyncState) (nbrs : List ℕ) : List ℕ × ListSyncState :=
  let range := s.hasNewRangeToRead
  let s := if range.1 then range.2 else { range.2 with numValuesInList := nbrs.length }
  let csrOffset := if range.1 then s.getEndIdx else 0
  let numValuesToCopy := min ((nbrs.length - csrOffset) % 2 ^ 32)
    (op.numElementsPerPage - csrOffset % op.numElementsPerPage)
  ((nbrs.drop csrOffset).take numValuesToCopy,
    { s with startIdx := some csrOffset, numValuesToRead := numValuesToCopy })

def readValues (s : ListSyncState) : List ℕ × ListSyncState :=
  let info := op.lists s.boundNodeOffset
  if info.isLargeList then op.readFromLargeList s info.nbrs else (info.nbrs, s)

def addDFSLevelToStackIfParentExtends (s : VarLengthState) (parent level : ℕ) : VarLengthState :=
  let read := op.readValues
    { (s.dfsLevelInfos level).listSyncState with boundNodeOffset := parent }
  { s.setInfo level { parent := parent, children := read.1, listSyncState := read.2 } with
    dfsStack := if read.1.length ≠ 0 then level :: s.dfsStack else s.dfsStack }

/-- A turn of one of the loops of `getNextTuples`.  A call ends with the turn that outputs a batch,
or when there are no more bound nodes. -/
def turn (s : VarLengthState) (_ : Unit) : Option VarLengthState :=
  match s.dfsStack with
  | level :: rest =>
      let info := s.dfsLevelInfos level
      if op.lowerBound ≤ level ∧ level ≤ op.upperBound ∧ info.hasBeenOutput = false then
        some { s.setInfo level { info with hasBeenOutput := true } with
          outputs := s.outputs ++ [(s.boundNode, info.children)] }
      else if info.childrenIdx < info.children.length ∧ level ≠ op.upperBound then
        let child := info.children.getD info.childrenIdx 0
        some (op.addDFSLevelToStackIfParentExtends
          (s.setInfo level { info with childrenIdx := info.childrenIdx + 1 }) child (level + 1))
      else
        let range := info.listSyncState.hasNewRangeToRead
        if range.1 then
          let read := op.readValues range.2
          some (s.setInfo level { info with
            childrenIdx := 0, hasBeenOutput := false, children := read.1, listSyncState := read.2 })
        else some { s.setInfo level { info with listSyncState := range.2 } with dfsStack := rest }
  | [] =>
      match s.boundNodes with
      | [] => none
      | none :: boundNodes => some { s with boundNodes := boundNodes }
      | some boundNode :: boundNodes =>
          some (op.addDFSLevelToStackIfParentExtends
            { s with boundNode := boundNode, boundNodes := boundNodes } boundNode 1)

/-! ## Reading a list -/

def nbrs (n : ℕ) : List ℕ := (op.lists n).nbrs

/-- What has not been read of a list. -/
def remaining (s : ListSyncState) : List ℕ :=
  s.startIdx.elim [] fun startIdx ↦ (op.nbrs s.boundNodeOffset).drop (startIdx + s.numValuesToRead)

/-- A range is one of a large list. -/
def Reading (s : ListSyncState) : Prop :=
  ∀ startIdx, s.startIdx = some startIdx →
    (op.lists s.boundNodeOffset).isLargeList = true ∧
      s.numValuesInList = (op.nbrs s.boundNodeOffset).length ∧
      startIdx + s.numValuesToRead ≤ (op.nbrs s.boundNodeOffset).length

variable {op} {s : ListSyncState}

theorem reading_of_none (hs : s.startIdx = none) : op.Reading s := by
  intro startIdx hstart
  rw [hs] at hstart
  cases hstart

theorem Reading.getEndIdx (h : op.Reading s) {startIdx : ℕ} (hstart : s.startIdx = some startIdx) :
    s.getEndIdx = startIdx + s.numValuesToRead := by
  have hlt := (op.lists s.boundNodeOffset).length_lt
  have hle := (h startIdx hstart).2.2
  rw [ListSyncState.getEndIdx, hstart]
  exact Nat.mod_eq_of_lt (Nat.lt_of_le_of_lt hle hlt)

/-- There is a new range just where something is left. -/
theorem Reading.hasNewRangeToRead (h : op.Reading s) :
    (op.remaining s = [] → s.hasNewRangeToRead.1 = false ∧
      s.hasNewRangeToRead.2.startIdx = none) ∧
    (op.remaining s ≠ [] → s.hasNewRangeToRead = (true, s)) := by
  rw [remaining, ListSyncState.hasNewRangeToRead]
  cases hstart : s.startIdx with
  | none => exact ⟨fun _ ↦ ⟨rfl, hstart⟩, fun hne ↦ absurd rfl hne⟩
  | some startIdx =>
      obtain ⟨-, hnum, hle⟩ := h startIdx hstart
      rw [if_neg (Option.some_ne_none _), h.getEndIdx hstart, hnum, Option.elim_some,
        Ne, List.drop_eq_nil_iff]
      constructor
      · intro hend
        rw [if_pos (Nat.le_antisymm hle hend)]
        exact ⟨rfl, rfl⟩
      · intro hend
        exact if_neg fun heq ↦ hend (Nat.le_of_eq heq.symm)

/-- One range of a list. -/
theorem read_range (op : VarLengthAdjListExtend) (l : List ℕ)
    (hlength : l.length < 2 ^ 32) {offset : ℕ}
    (hoffset : offset < l.length) :
    let n := min ((l.length - offset) % 2 ^ 32)
      (op.numElementsPerPage - offset % op.numElementsPerPage)
    (l.drop offset).take n ≠ [] ∧ (l.drop offset).take n ++ l.drop (offset + n) = l.drop offset ∧
      offset + n ≤ l.length := by
  intro n
  have hmod := Nat.mod_lt offset op.numElementsPerPage_pos
  have hn : 0 < n ∧ n ≤ l.length - offset := by omega
  refine ⟨fun hnil ↦ ?_, ?_, by omega⟩
  · have hzero := congrArg List.length hnil
    rw [List.length_take, List.length_drop, List.length_nil] at hzero
    omega
  · rw [← List.drop_drop, List.take_append_drop]

/-- The next range. -/
theorem Reading.readValues (h : op.Reading s) (hmore : op.remaining s ≠ []) :
    (op.readValues s).1 ≠ [] ∧ op.Reading (op.readValues s).2 ∧
      (op.readValues s).1 ++ op.remaining (op.readValues s).2 = op.remaining s := by
  have hnew := h.hasNewRangeToRead.2 hmore
  cases hstart : s.startIdx with
  | none =>
      rw [remaining, hstart] at hmore
      exact absurd rfl hmore
  | some startIdx =>
      have hrest : op.remaining s = (op.nbrs s.boundNodeOffset).drop s.getEndIdx := by
        rw [remaining, hstart, Option.elim_some, h.getEndIdx hstart]
      rw [hrest, Ne, List.drop_eq_nil_iff, Nat.not_le] at hmore
      obtain ⟨hlarge, hnum, -⟩ := h startIdx hstart
      obtain ⟨hne, happend, hle⟩ := read_range op (op.nbrs s.boundNodeOffset)
        (op.lists s.boundNodeOffset).length_lt hmore
      rw [VarLengthAdjListExtend.readValues, if_pos hlarge, readFromLargeList, hnew, hrest]
      refine ⟨hne, ?_, happend⟩
      rintro _ ⟨⟩
      exact ⟨hlarge, hnum, hle⟩

/-- The first range, of another list than before. -/
theorem readValues_first (op : VarLengthAdjListExtend) (hstart : s.startIdx = none) :
    op.Reading (op.readValues s).2 ∧
      (op.readValues s).1 ++ op.remaining (op.readValues s).2 = op.nbrs s.boundNodeOffset ∧
      ((op.readValues s).1 = [] → (op.readValues s).2.startIdx = none ∧
        op.nbrs s.boundNodeOffset = []) := by
  have hnew : s.hasNewRangeToRead = (false, s) := if_pos hstart
  rw [readValues]
  cases hlarge : (op.lists s.boundNodeOffset).isLargeList with
  | false =>
      rw [if_neg Bool.false_ne_true]
      refine ⟨reading_of_none hstart, ?_, fun hnil ↦ ⟨hstart, hnil⟩⟩
      rw [remaining, hstart]
      exact List.append_nil _
  | true =>
      have hpos : 0 < (op.nbrs s.boundNodeOffset).length :=
        List.length_pos_iff.mpr ((op.lists s.boundNodeOffset).ne_nil hlarge)
      obtain ⟨hne, happend, hle⟩ := read_range op (op.nbrs s.boundNodeOffset)
        (op.lists s.boundNodeOffset).length_lt hpos
      rw [if_pos rfl, readFromLargeList, hnew]
      refine ⟨?_, happend, fun hnil ↦ absurd hnil hne⟩
      rintro _ ⟨⟩
      exact ⟨hlarge, rfl, hle⟩

/-! ## Walks -/

variable (op)

/-- The ends of the walks of a length, each of them once for each walk. -/
def walkEnds (n : ℕ) : ℕ → List ℕ
  | 0 => [n]
  | length + 1 => (walkEnds n length).flatMap op.nbrs

/-- What a level and the `k` levels above it output of some neighbours. -/
def below : ℕ → ℕ → List ℕ → Multiset ℕ
  | 0, level, ns => if op.lowerBound ≤ level then ns else 0
  | k + 1, level, ns => (if op.lowerBound ≤ level then (ns : Multiset ℕ) else 0) +
      (ns : Multiset ℕ).bind fun n ↦ below k (level + 1) (op.nbrs n)

/-- What the levels above do. -/
def extended : ℕ → ℕ → List ℕ → Multiset ℕ
  | 0, _, _ => 0
  | k + 1, level, ns => (ns : Multiset ℕ).bind fun n ↦ op.below k (level + 1) (op.nbrs n)

/-- What is still to be output of a level. -/
def owed (k level : ℕ) (info : DFSLevelInfo) : Multiset ℕ :=
  (if op.lowerBound ≤ level ∧ info.hasBeenOutput = false then (info.children : Multiset ℕ) else 0) +
    op.extended k level (info.children.drop info.childrenIdx) +
    op.below k level (op.remaining info.listSyncState)

variable {k level : ℕ} {ns ms : List ℕ}

theorem below_eq : op.below k level ns =
    (if op.lowerBound ≤ level then (ns : Multiset ℕ) else 0) + op.extended k level ns := by
  cases k with
  | zero => exact (add_zero _).symm
  | succ k => rfl

theorem extended_append : op.extended k level (ns ++ ms) =
    op.extended k level ns + op.extended k level ms := by
  cases k with
  | zero => rfl
  | succ k => rw [extended, ← Multiset.coe_add, Multiset.add_bind, extended, extended]

theorem below_append :
    op.below k level (ns ++ ms) = op.below k level ns + op.below k level ms := by
  rw [below_eq, below_eq, below_eq, extended_append]
  split_ifs
  · rw [← Multiset.coe_add]
    exact add_add_add_comm _ _ _ _
  · rw [zero_add, zero_add, zero_add]

theorem below_nil : op.below k level [] = 0 := by
  have happend : op.below k level ([] ++ []) = _ := op.below_append
  rwa [List.append_nil, left_eq_add] at happend

theorem below_flatMap (l : List ℕ) : op.below k level (l.flatMap op.nbrs) =
    (l : Multiset ℕ).bind fun n ↦ op.below k level (op.nbrs n) := by
  induction l with
  | nil => exact op.below_nil
  | cons n l ih => rw [List.flatMap_cons, below_append, ih, ← Multiset.cons_coe, Multiset.cons_bind]

theorem filter_range'_bind (f : ℕ → List ℕ) :
    (((List.range' level (k + 1)).filter fun length ↦ decide (op.lowerBound ≤ length) : List ℕ) :
        Multiset ℕ).bind (fun length ↦ (f length : Multiset ℕ)) =
      (if op.lowerBound ≤ level then (f level : Multiset ℕ) else 0) +
        (((List.range' (level + 1) k).filter fun length ↦
          decide (op.lowerBound ≤ length) : List ℕ) :
          Multiset ℕ).bind fun length ↦ f length := by
  rw [List.range'_succ, List.filter_cons]
  by_cases hlower : op.lowerBound ≤ level
  · rw [if_pos hlower, if_pos (decide_eq_true hlower), ← Multiset.cons_coe, Multiset.cons_bind]
  · rw [if_neg hlower, if_neg (by simpa using hlower), zero_add]

/-- The levels output walks by their length. -/
theorem below_walkEnds (b : ℕ) : op.below k level (op.walkEnds b level) =
    (((List.range' level (k + 1)).filter fun length ↦ decide (op.lowerBound ≤ length) : List ℕ) :
      Multiset ℕ).bind fun length ↦ op.walkEnds b length := by
  induction k generalizing level with
  | zero =>
      rw [below, filter_range'_bind]
      exact (add_zero _).symm
  | succ k ih =>
      rw [below, ← below_flatMap, ← walkEnds, ih]
      exact (op.filter_range'_bind (op.walkEnds b)).symm

end VarLengthAdjListExtend

/-! ## Turns -/

def VarLengthState.emitted (s : VarLengthState) : Multiset (ℕ × ℕ) :=
  ((s.outputs.flatMap fun output ↦ output.2.map (Prod.mk output.1) : List (ℕ × ℕ)) :
    Multiset (ℕ × ℕ))

/-- Nothing is left of a level, nor of those above it. -/
def VarLengthState.Finished (s : VarLengthState) (level : ℕ) (rest : List ℕ) : Prop :=
  s.dfsStack = rest ∧ ∀ l, level ≤ l → (s.dfsLevelInfos l).listSyncState.startIdx = none

namespace VarLengthAdjListExtend

variable (op : VarLengthAdjListExtend)

/-- Turns for one bound node, at a level and above. -/
structure Passes (level : ℕ) (out : Multiset ℕ) (s s' : VarLengthState) : Prop where
  reaches : ∃ turns, run op.turn s turns = some s'
  boundNode : s'.boundNode = s.boundNode
  boundNodes : s'.boundNodes = s.boundNodes
  dfsLevelInfos : ∀ l, l < level → s'.dfsLevelInfos l = s.dfsLevelInfos l
  emitted : s'.emitted = s.emitted + out.map (Prod.mk s.boundNode)

/-- A level that is being read can be finished, whatever is below it. -/
def CanFinish (k level : ℕ) : Prop :=
  ∀ s : VarLengthState, ∀ rest, s.dfsStack = level :: rest →
    op.Reading (s.dfsLevelInfos level).listSyncState →
    (∀ l, level < l → (s.dfsLevelInfos l).listSyncState.startIdx = none) →
    ∃ s', op.Passes level (op.owed k level (s.dfsLevelInfos level)) s s' ∧ s'.Finished level rest

variable {op} {k level : ℕ} {out out' : Multiset ℕ} {s s' s'' : VarLengthState} {rest : List ℕ}

theorem Passes.trans (h : op.Passes level out s s') (h' : op.Passes level out' s' s'') :
    op.Passes level (out + out') s s'' where
  reaches := by
    obtain ⟨turns, hrun⟩ := h.reaches
    obtain ⟨turns', hrun'⟩ := h'.reaches
    exact ⟨turns ++ turns', (run_append_of_eq_some hrun).trans hrun'⟩
  boundNode := h'.boundNode.trans h.boundNode
  boundNodes := h'.boundNodes.trans h.boundNodes
  dfsLevelInfos l hl := (h'.dfsLevelInfos l hl).trans (h.dfsLevelInfos l hl)
  emitted := by rw [h'.emitted, h.emitted, h.boundNode, Multiset.map_add, add_assoc]

theorem Passes.mono (h : op.Passes (level + 1) out s s') : op.Passes level out s s' :=
  { h with dfsLevelInfos := fun l hl ↦ h.dfsLevelInfos l (hl.trans (Nat.lt_succ_self level)) }

theorem passes_of_turn (hturn : op.turn s () = some s') (hnode : s'.boundNode = s.boundNode)
    (hnodes : s'.boundNodes = s.boundNodes)
    (hinfos : ∀ l, l < level → s'.dfsLevelInfos l = s.dfsLevelInfos l)
    (hemitted : s'.emitted = s.emitted + out.map (Prod.mk s.boundNode)) :
    op.Passes level out s s' :=
  ⟨⟨[()], run_cons_eq_some_iff.mpr ⟨s', hturn, rfl⟩⟩, hnode, hnodes, hinfos, hemitted⟩

/-- A level is pushed where the parent extends. -/
theorem CanFinish.add (h : op.CanFinish k level)
    (hfresh : ∀ l, level ≤ l → (s.dfsLevelInfos l).listSyncState.startIdx = none) (parent : ℕ) :
    ∃ s', op.Passes level (op.below k level (op.nbrs parent))
      (op.addDFSLevelToStackIfParentExtends s parent level) s' ∧ s'.Finished level s.dfsStack := by
  let sync := { (s.dfsLevelInfos level).listSyncState with boundNodeOffset := parent }
  obtain ⟨hreading, happend, hnil⟩ := readValues_first op (s := sync)
    (hfresh level (Nat.le_refl level))
  let info : DFSLevelInfo :=
    { parent := parent
      children := (op.readValues sync).1
      listSyncState := (op.readValues sync).2 }
  have hinfo : ∀ t : VarLengthState, t.dfsLevelInfos = Function.update s.dfsLevelInfos level info →
      t.dfsLevelInfos level = info := fun t ht ↦ by rw [ht, Function.update_self]
  have hother : ∀ l, level < l →
      ((Function.update s.dfsLevelInfos level info l).listSyncState.startIdx = none) := by
    intro l hl
    rw [Function.update_of_ne hl.ne']
    exact hfresh l hl.le
  by_cases hempty : (op.readValues sync).1 = []
  · obtain ⟨hstart, hnbrs⟩ := hnil hempty
    rw [show op.nbrs parent = [] from hnbrs, below_nil]
    refine ⟨_, ⟨⟨[], rfl⟩, rfl, rfl, fun _ _ ↦ rfl, (add_zero _).symm⟩, ?_, fun l hl ↦ ?_⟩
    · exact if_neg fun hlength ↦ hlength (congrArg List.length hempty)
    · obtain rfl | hl := Nat.eq_or_lt_of_le hl
      · rw [hinfo _ rfl]
        exact hstart
      · exact hother l hl
  · have howed : op.owed k level info = op.below k level (op.nbrs parent) := by
      rw [← show _ = op.nbrs parent from happend, below_append, below_eq]
      simp [owed, info]
    rw [← howed, ← hinfo (op.addDFSLevelToStackIfParentExtends s parent level) rfl]
    refine h _ s.dfsStack
      (if_pos fun hlength ↦ hempty (List.length_eq_zero_iff.mp hlength)) ?_ hother
    rw [hinfo _ rfl]
    exact hreading

/-- A turn at the level itself, after which the level owes the rest. -/
theorem CanFinish.of_turn {info : DFSLevelInfo} {owed : Multiset ℕ}
    (hfresh : ∀ l, level < l → (s.dfsLevelInfos l).listSyncState.startIdx = none)
    (hinfos : s'.dfsLevelInfos = Function.update s.dfsLevelInfos level info)
    (hturn : op.turn s () = some s') (hnode : s'.boundNode = s.boundNode)
    (hnodes : s'.boundNodes = s.boundNodes)
    (hemitted : s'.emitted = s.emitted + out.map (Prod.mk s.boundNode))
    (howed : out + op.owed k level info = owed)
    (hrest : s'.dfsLevelInfos level = info →
      (∀ l, level < l → (s'.dfsLevelInfos l).listSyncState.startIdx = none) →
      ∃ s'', op.Passes level (op.owed k level (s'.dfsLevelInfos level)) s' s'' ∧
        s''.Finished level rest) :
    ∃ s'', op.Passes level owed s s'' ∧ s''.Finished level rest := by
  have hsame : s'.dfsLevelInfos level = info := by rw [hinfos, Function.update_self]
  have hother : ∀ l, l ≠ level → s'.dfsLevelInfos l = s.dfsLevelInfos l := fun l hl ↦ by
    rw [hinfos, Function.update_of_ne hl]
  obtain ⟨s'', hpasses, hfinished⟩ := hrest hsame fun l hl ↦ by
    rw [hother l hl.ne']
    exact hfresh l hl
  rw [hsame] at hpasses
  refine ⟨s'', ?_, hfinished⟩
  rw [← howed]
  exact (passes_of_turn hturn hnode hnodes (fun l hl ↦ hother l hl.ne) hemitted).trans hpasses

theorem owed_output {info : DFSLevelInfo} (hlower : op.lowerBound ≤ level)
    (hout : info.hasBeenOutput = false) : (info.children : Multiset ℕ) +
      op.owed k level { info with hasBeenOutput := true } = op.owed k level info := by
  rw [owed, owed, if_neg fun h ↦ Bool.noConfusion h.2, if_pos ⟨hlower, hout⟩, zero_add, add_assoc]

theorem owed_child {info : DFSLevelInfo} (hchild : info.childrenIdx < info.children.length) :
    op.below k (level + 1) (op.nbrs (info.children.getD info.childrenIdx 0)) +
      op.owed (k + 1) level { info with childrenIdx := info.childrenIdx + 1 } =
    op.owed (k + 1) level info := by
  rw [owed, owed, List.drop_eq_getElem_cons hchild, ← List.getElem_eq_getD (h := hchild), extended,
    extended, ← Multiset.cons_coe, Multiset.cons_bind]
  exact (add_assoc _ _ _).symm.trans (congrArg (· + _) (add_left_comm _ _ _))

theorem owed_remaining {info : DFSLevelInfo}
    (hout : ¬ (op.lowerBound ≤ level ∧ info.hasBeenOutput = false))
    (hchild : ¬ (info.childrenIdx < info.children.length ∧ k ≠ 0)) :
    op.owed k level info = op.below k level (op.remaining info.listSyncState) := by
  have hextended : op.extended k level (info.children.drop info.childrenIdx) = 0 := by
    cases k with
    | zero => rfl
    | succ k =>
        rw [List.drop_eq_nil_iff.mpr (by simpa using hchild)]
        rfl
  rw [owed, if_neg hout, hextended, zero_add, zero_add]

/-- The work left at a level. -/
def work (op : VarLengthAdjListExtend) (info : DFSLevelInfo) : ℕ :=
  3 * (op.remaining info.listSyncState).length + (info.children.length - info.childrenIdx) +
    if info.hasBeenOutput = false then 1 else 0

theorem canFinish_of_next (hlevel : level + k = op.upperBound)
    (hnext : ∀ k', k = k' + 1 → op.CanFinish k' (level + 1)) : op.CanFinish k level := by
  intro s rest hstack hreading hfresh
  -- by the work that is left at this level
  generalize hwork : op.work (s.dfsLevelInfos level) = w
  induction w using Nat.strong_induction_on generalizing s with
  | _ w ih =>
  subst hwork
  generalize hinfo : s.dfsLevelInfos level = info at hreading ih ⊢
  by_cases hout : op.lowerBound ≤ level ∧ level ≤ op.upperBound ∧ info.hasBeenOutput = false
  · have hturn : op.turn s () = some
        { s.setInfo level { info with hasBeenOutput := true } with
          outputs := s.outputs ++ [(s.boundNode, info.children)] } := by
      simp only [turn, hstack, hinfo, if_pos hout]
    refine CanFinish.of_turn hfresh rfl hturn rfl rfl ?_ (owed_output hout.1 hout.2.2)
      fun hsame hfresh' ↦ ih _ ?_ _ hstack ?_ hfresh' rfl
    · simp [VarLengthState.emitted]
    · rw [hsame, work, work, if_neg Bool.noConfusion, if_pos hout.2.2]
      exact Nat.lt_succ_self _
    · rw [hsame]
      exact hreading
  by_cases hchild : info.childrenIdx < info.children.length ∧ level ≠ op.upperBound
  · obtain ⟨k, rfl⟩ : ∃ k', k = k' + 1 := Nat.exists_eq_succ_of_ne_zero (by omega)
    let next := { info with childrenIdx := info.childrenIdx + 1 }
    let child := info.children.getD info.childrenIdx 0
    have hturn : op.turn s () =
        some (op.addDFSLevelToStackIfParentExtends (s.setInfo level next) child (level + 1)) := by
      simp only [turn, hstack, hinfo, if_neg hout, if_pos hchild, next, child]
    have hfresh' : ∀ l, level + 1 ≤ l →
        ((s.setInfo level next).dfsLevelInfos l).listSyncState.startIdx = none := fun l hl ↦ by
      rw [VarLengthState.setInfo_of_ne s next (Nat.ne_of_gt hl)]
      exact hfresh l hl
    -- the child first, then the other children
    obtain ⟨s₁, hpasses, hstack₁, hfresh₁⟩ := (hnext k rfl).add hfresh' child
    have hsame : s₁.dfsLevelInfos level = next :=
      (hpasses.dfsLevelInfos level (Nat.lt_succ_self level)).trans
        ((VarLengthState.setInfo_of_ne _ _ (Nat.ne_of_lt (Nat.lt_succ_self level))).trans
          (s.setInfo_same level next))
    obtain ⟨s', hpasses', hfinished⟩ := ih (op.work next)
      (Nat.add_lt_add_right (Nat.add_lt_add_left (Nat.sub_succ_lt_self _ _ hchild.1) _) _)
      s₁ (hstack₁.trans hstack) (by rw [hsame]; exact hreading) hfresh₁ (by rw [hsame])
    have hpasses₁ : op.Passes level 0 s _ := passes_of_turn hturn rfl rfl
      (fun l hl ↦ (VarLengthState.setInfo_of_ne _ _ (by omega)).trans
        (VarLengthState.setInfo_of_ne s next (by omega))) (add_zero _).symm
    rw [hsame] at hpasses'
    have htotal := hpasses₁.trans (hpasses.mono.trans hpasses')
    rw [zero_add, owed_child hchild.1] at htotal
    exact ⟨s', htotal, hfinished⟩
  have hout' : ¬ (op.lowerBound ≤ level ∧ info.hasBeenOutput = false) :=
    fun h ↦ hout ⟨h.1, by omega, h.2⟩
  have hchild' : ¬ (info.childrenIdx < info.children.length ∧ k ≠ 0) := by omega
  by_cases hmore : op.remaining info.listSyncState = []
  · obtain ⟨hend, hstart⟩ := hreading.hasNewRangeToRead.1 hmore
    have hturn : op.turn s () = some
        { s.setInfo level { info with listSyncState := info.listSyncState.hasNewRangeToRead.2 } with
          dfsStack := rest } := by
      simp only [turn, hstack, hinfo, if_neg hout, if_neg hchild, hend,
        Bool.false_eq_true, if_false]
    refine ⟨_, passes_of_turn hturn rfl rfl (fun l hl ↦ s.setInfo_of_ne _ hl.ne) ?_, rfl,
      fun l hl ↦ ?_⟩
    · rw [owed_remaining hout' hchild', hmore, below_nil]
      exact (add_zero _).symm
    · obtain rfl | hl := Nat.eq_or_lt_of_le hl
      · change ((s.setInfo level _).dfsLevelInfos level).listSyncState.startIdx = none
        rw [VarLengthState.setInfo_same]
        exact hstart
      · change ((s.setInfo level _).dfsLevelInfos l).listSyncState.startIdx = none
        rw [VarLengthState.setInfo_of_ne s _ hl.ne']
        exact hfresh l hl
  · have hnew := hreading.hasNewRangeToRead.2 hmore
    obtain ⟨hne, hreading', happend⟩ := hreading.readValues hmore
    have hturn : op.turn s () = some (s.setInfo level { info with
        childrenIdx := 0, hasBeenOutput := false, children := (op.readValues info.listSyncState).1
        listSyncState := (op.readValues info.listSyncState).2 }) := by
      simp only [turn, hstack, hinfo, if_neg hout, if_neg hchild, hnew, if_true]
    refine CanFinish.of_turn hfresh rfl hturn rfl rfl ?_ ((zero_add _).trans ?_)
      fun hsame hfresh' ↦ ih _ ?_ _ hstack ?_ hfresh' rfl
    · exact (add_zero _).symm
    · rw [owed_remaining hout' hchild', ← happend, below_append, below_eq]
      simp [owed]
    · rw [hsame, work, work, ← happend, List.length_append]
      have hpos := List.length_pos_iff.mpr hne
      dsimp only
      split_ifs <;> omega
    · rw [hsame]
      exact hreading'

theorem canFinish (hlevel : level + k = op.upperBound) : op.CanFinish k level := by
  induction k generalizing level with
  | zero => exact canFinish_of_next hlevel fun _ hk ↦ absurd hk (Nat.succ_ne_zero _).symm
  | succ k ih =>
      refine canFinish_of_next hlevel fun k' hk ↦ ?_
      obtain rfl := Nat.succ.inj hk
      exact ih (by omega)

/-! ## Bound nodes -/

/-- The nodes with the ends of the walks from them. -/
def walkPairs (op : VarLengthAdjListExtend) (boundNodes : List ℕ) : List (ℕ × ℕ) :=
  boundNodes.flatMap fun b ↦
    ((List.range' 1 op.upperBound).filter fun length ↦ decide (op.lowerBound ≤ length)).flatMap
      fun length ↦ (op.walkEnds b length).map (Prod.mk b)

theorem below_nbrs (op : VarLengthAdjListExtend) (b : ℕ) :
    (op.below (op.upperBound - 1) 1 (op.nbrs b)).map (Prod.mk b) =
      (op.walkPairs [b] : Multiset (ℕ × ℕ)) := by
  have hone : op.walkEnds b 1 = op.nbrs b := List.append_nil _
  have hpos := op.lowerBound_pos.trans_le op.lowerBound_le
  rw [← hone, below_walkEnds, Nat.sub_add_cancel hpos, Multiset.map_bind]
  exact (Multiset.coe_bind _ _).trans
    (congrArg ((↑) : List (ℕ × ℕ) → Multiset (ℕ × ℕ)) (List.append_nil _).symm)

theorem walkPairs_cons (op : VarLengthAdjListExtend) (b : ℕ) (boundNodes : List ℕ) :
    op.walkPairs (b :: boundNodes) = op.walkPairs [b] ++ op.walkPairs boundNodes := by
  rw [walkPairs, List.flatMap_cons, walkPairs, walkPairs, List.flatMap_singleton]

theorem exists_run_boundNodes (op : VarLengthAdjListExtend) (hfinished : s.Finished 1 []) :
    ∃ turns s', run op.turn s turns = some s' ∧ op.turn s' () = none ∧
      s'.emitted = s.emitted + (op.walkPairs s.boundNodes.reduceOption : Multiset (ℕ × ℕ)) := by
  generalize hnodes : s.boundNodes = boundNodes
  induction boundNodes generalizing s with
  | nil =>
      have hend : op.turn s () = none := by simp only [turn, hfinished.1, hnodes]
      exact ⟨[], s, rfl, hend, (add_zero _).symm⟩
  | cons boundNode boundNodes ih =>
      cases boundNode with
      | none =>
          have hturn : op.turn s () = some { s with boundNodes := boundNodes } := by
            simp only [turn, hfinished.1, hnodes]
          obtain ⟨turns, s', hrun, hend, hemitted⟩ :=
            ih (s := { s with boundNodes := boundNodes }) hfinished rfl
          exact ⟨() :: turns, s', run_cons_eq_some_iff.mpr ⟨_, hturn, hrun⟩, hend, hemitted⟩
      | some b =>
          have hturn : op.turn s () = some (op.addDFSLevelToStackIfParentExtends
              { s with boundNode := b, boundNodes := boundNodes } b 1) := by
            simp only [turn, hfinished.1, hnodes]
          have hpos := op.lowerBound_pos.trans_le op.lowerBound_le
          have hcan : op.CanFinish (op.upperBound - 1) 1 := canFinish (by omega)
          obtain ⟨s₁, hpasses, hfinished₁⟩ := hcan.add
            (s := { s with boundNode := b, boundNodes := boundNodes }) hfinished.2 b
          obtain ⟨turns₁, hrun₁⟩ := hpasses.reaches
          obtain ⟨turns, s', hrun, hend, hemitted⟩ :=
            ih ⟨hfinished₁.1.trans hfinished.1, hfinished₁.2⟩ hpasses.boundNodes
          refine ⟨() :: (turns₁ ++ turns), s', run_cons_eq_some_iff.mpr
            ⟨_, hturn, (run_append_of_eq_some hrun₁).trans hrun⟩, hend, ?_⟩
          have hfirst : s₁.emitted = s.emitted + (op.walkPairs [b] : Multiset (ℕ × ℕ)) := by
            rw [← below_nbrs]
            exact hpasses.emitted
          rw [hemitted, hfirst, List.reduceOption_cons_of_some,
            walkPairs_cons op b boundNodes.reduceOption, ← Multiset.coe_add, add_assoc]

/-- However the last run was left, the next one ends, and has then output every walk from every
bound node whose length is within the bounds, once. -/
theorem outputs_of_run (op : VarLengthAdjListExtend) (s : VarLengthState)
    (boundNodes : List (Option ℕ)) (turns : List Unit) (s₁ : VarLengthState)
    (hrun : run op.turn (s.reInitToRerunSubPlan boundNodes) turns = some s₁) :
    ∃ turns' s', run op.turn s₁ turns' = some s' ∧ op.turn s' () = none ∧
      List.Perm (s'.outputs.flatMap fun output ↦ output.2.map (Prod.mk output.1))
        (op.walkPairs boundNodes.reduceOption) := by
  obtain ⟨turns₀, s', hrun₀, hend, hemitted⟩ := exists_run_boundNodes op
    (s := s.reInitToRerunSubPlan boundNodes) ⟨rfl, fun _ _ ↦ rfl⟩
  obtain ⟨turns', hrun'⟩ := exists_run_of_end hrun₀ hend hrun
  exact ⟨turns', s', hrun', hend, Multiset.coe_eq_coe.mp (hemitted.trans (zero_add _))⟩

/-- A large list of two pages, back from both of its nodes. -/
def backAndForth : VarLengthAdjListExtend where
  lists
    | 0 => ⟨true, [1, 2], by decide, fun _ ↦ List.cons_ne_nil 1 [2]⟩
    | _ => ⟨false, [0], by decide, fun h ↦ absurd h Bool.false_ne_true⟩
  numElementsPerPage := 1
  lowerBound := 1
  upperBound := 2
  numElementsPerPage_pos := Nat.one_pos
  lowerBound_pos := Nat.one_pos
  lowerBound_le := Nat.le_succ 1

theorem outputs_of_run_backAndForth :
    ∃ s₁, run backAndForth.turn
        (VarLengthState.reInitToRerunSubPlan { boundNodes := [] } [some 0, none])
          [(), ()] = some s₁ ∧
      ∃ turns' s', run backAndForth.turn s₁ turns' = some s' ∧ backAndForth.turn s' () = none ∧
        List.Perm (s'.outputs.flatMap fun output ↦ output.2.map (Prod.mk output.1))
          [(0, 1), (0, 2), (0, 0), (0, 0)] :=
  ⟨_, rfl, outputs_of_run backAndForth { boundNodes := [] } [some 0, none] [(), ()] _ rfl⟩

end VarLengthAdjListExtend

end Graphflow.Processor
