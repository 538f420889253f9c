import Graphflow.OrderBy.MergeByMorsels

/-!
# Workers that merge all sorted blocks

Any number of workers run `OrderByMerge::execute` with one `KeyBlockMergeTaskDispatcher`.  A step of
a worker is what it does under the mutex of the dispatcher, or the merge of its morsel.  A step that
fails an assertion is not enabled: it ends the process.
-/

namespace Graphflow.OrderBy

open Lib Storage

/-- Where a worker is in `OrderByMerge::execute`.  `getMorsel` first calls `isDoneMerge`, which
unlocks the mutex again. -/
inductive OrderByMerge
  | checksIsDoneMerge
  | callsGetMorsel
  | fetchesMorsel
  | mergesKeyBlocks (task : ℕ) (morsel : KeyBlockMergeMorsel)
  | callsDoneMorsel (task : ℕ) (morsel : KeyBlockMergeMorsel)
  | returned
  deriving DecidableEq, Repr

/-- The morsel that the worker holds, with the task that it is of. -/
def OrderByMerge.morsel? : OrderByMerge → Option (ℕ × KeyBlockMergeMorsel)
  | .mergesKeyBlocks task morsel => some (task, morsel)
  | .callsDoneMorsel task morsel => some (task, morsel)
  | _ => none

/-- The dispatcher with the workers.  A task is pointed to by its number; key blocks from
`newKeyBlock` on are not in use. -/
structure KeyBlockMergeTaskDispatcher (numWorkers : ℕ) where
  memory : KeyBlockMemory
  newKeyBlock : ℕ
  sortedKeyBlocks : List MergedKeyBlocks
  tasks : ℕ → Option KeyBlockMergeTask
  numTasks : ℕ
  activeKeyBlockMergeTasks : List ℕ
  workers : Fin numWorkers → OrderByMerge

namespace KeyBlockMergeTaskDispatcher

variable {numWorkers : ℕ} {V : Type}

def isDoneMerge (s : KeyBlockMergeTaskDispatcher numWorkers) : Bool :=
  s.sortedKeyBlocks.length = 1 && s.activeKeyBlockMergeTasks.isEmpty

/-- The last active task, if it has morsels left. -/
def lastTask (s : KeyBlockMergeTaskDispatcher numWorkers) : Option (ℕ × KeyBlockMergeTask) := do
  let t ← s.activeKeyBlockMergeTasks.getLast?
  let task ← s.tasks t
  if task.hasMorselLeft then return (t, task) else none

def setTask (s : KeyBlockMergeTaskDispatcher numWorkers) (t : ℕ) (task : KeyBlockMergeTask) :
    KeyBlockMergeTaskDispatcher numWorkers :=
  { s with tasks := Function.update s.tasks t (some task) }

def moveTo (s : KeyBlockMergeTaskDispatcher numWorkers) (w : Fin numWorkers)
    (worker : OrderByMerge) : KeyBlockMergeTaskDispatcher numWorkers :=
  { s with workers := Function.update s.workers w worker }

/-- A task for the first two blocks of the queue. -/
def newTask (s : KeyBlockMergeTaskDispatcher numWorkers) (left right : MergedKeyBlocks) :
    KeyBlockMergeTask where
  leftKeyBlock := left
  rightKeyBlock := right
  resultKeyBlock := .allocate left.numBytesPerTuple (left.numTuples + right.numTuples) s.newKeyBlock
    left.numBytesPerTuple_pos left.numBytesPerTuple_le

/-- `getMorsel` behind its call of `isDoneMerge`. -/
def getMorsel (merger : KeyBlockMerger V) (s : KeyBlockMergeTaskDispatcher numWorkers) :
    Except Fault
      (Option (ℕ × KeyBlockMergeMorsel) × KeyBlockMergeTaskDispatcher numWorkers) :=
  match s.lastTask with
  | some (t, task) => do
      let (morsel, task) ← task.getMorsel merger s.memory
      return (some (t, morsel), s.setTask t task)
  | none =>
      match s.sortedKeyBlocks with
      | left :: right :: sortedKeyBlocks => do
          let task := s.newTask left right
          let newKeyBlock := s.newKeyBlock + task.resultKeyBlock.keyBlocks.length
          let (morsel, task) ← task.getMorsel merger s.memory
          return (some (s.numTasks, morsel), { s.setTask s.numTasks task with
            newKeyBlock := newKeyBlock
            sortedKeyBlocks := sortedKeyBlocks
            numTasks := s.numTasks + 1
            activeKeyBlockMergeTasks := s.activeKeyBlockMergeTasks ++ [s.numTasks] })
      | _ => return (none, s)

def doneMorsel (s : KeyBlockMergeTaskDispatcher numWorkers) (t : ℕ) (task : KeyBlockMergeTask) :
    KeyBlockMergeTaskDispatcher numWorkers :=
  let task := { task with activeMorsels := task.activeMorsels - 1 }
  if task.activeMorsels = 0 && !task.hasMorselLeft then
    { s.setTask t task with
      activeKeyBlockMergeTasks := s.activeKeyBlockMergeTasks.filter (· ≠ t)
      sortedKeyBlocks := s.sortedKeyBlocks ++ [task.resultKeyBlock] }
  else s.setTask t task

/-- The next step of a worker. -/
def step (merger : KeyBlockMerger V) (s : KeyBlockMergeTaskDispatcher numWorkers)
    (w : Fin numWorkers) : Option (KeyBlockMergeTaskDispatcher numWorkers) :=
  match s.workers w with
  | .checksIsDoneMerge => some (s.moveTo w (if s.isDoneMerge then .returned else .callsGetMorsel))
  | .callsGetMorsel =>
      some (s.moveTo w (if s.isDoneMerge then .checksIsDoneMerge else .fetchesMorsel))
  | .fetchesMorsel =>
      match s.getMorsel merger with
      | .ok (some (t, morsel), s) => some (s.moveTo w (.mergesKeyBlocks t morsel))
      | .ok (none, s) => some (s.moveTo w .checksIsDoneMerge)
      | .error _ => none
  | .mergesKeyBlocks t morsel => do
      let task ← s.tasks t
      match merger.mergeKeyBlocks task morsel s.memory with
      | .ok memory => some ({ s with memory := memory }.moveTo w (.callsDoneMorsel t morsel))
      | .error _ => none
  | .callsDoneMorsel t _ => do
      let task ← s.tasks t
      return (s.doneMorsel t task).moveTo w .checksIsDoneMerge
  | .returned => none

/-- The dispatcher with the blocks that the threads have sorted, before any worker runs. -/
def init (numWorkers : ℕ) (memory : KeyBlockMemory) (newKeyBlock : ℕ)
    (sortedKeyBlocks : List MergedKeyBlocks) : KeyBlockMergeTaskDispatcher numWorkers where
  memory := memory
  newKeyBlock := newKeyBlock
  sortedKeyBlocks := sortedKeyBlocks
  tasks := fun _ ↦ none
  numTasks := 0
  activeKeyBlockMergeTasks := []
  workers := fun _ ↦ .checksIsDoneMerge

end KeyBlockMergeTaskDispatcher

end Graphflow.OrderBy
