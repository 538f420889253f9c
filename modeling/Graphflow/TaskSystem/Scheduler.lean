import Graphflow.Lib.Transition
import Mathlib.Data.Fintype.Basic
import Mathlib.Logic.Function.Basic

/-!
# The task scheduler

Worker threads take tasks from a queue and run them; users schedule tasks and wait for them.  A step
of a thread is what it does under one lock: each call of a function of a task, and each look at a
task while the queue is locked.
-/

namespace Graphflow.TaskSystem

variable {Exception : Type*}

/-! ## Tasks -/

/-- A task as it is created, with the exception that its `finalizeIfNecessary` throws. -/
structure NewTask (Exception : Type*) where
  maxNumThreads : ℕ
  finalizeThrows : Option Exception := none
  deriving DecidableEq, Repr

/-- `numFinalizations` counts the calls of `finalizeIfNecessary`.  No function reads it. -/
structure Task (Exception : Type*) extends NewTask Exception where
  numThreadsFinished : ℕ := 0
  numThreadsRegistered : ℕ := 0
  exceptionsPtr : Option Exception := none
  numFinalizations : ℕ := 0
  deriving DecidableEq, Repr

namespace Task

def hasException (t : Task Exception) : Bool := t.exceptionsPtr.isSome

def isCompleted (t : Task Exception) : Bool :=
  decide (0 < t.numThreadsRegistered) && decide (t.numThreadsFinished = t.numThreadsRegistered)

def isCompletedSuccessfully (t : Task Exception) : Bool := t.isCompleted && !t.hasException

def canRegister (t : Task Exception) : Bool :=
  decide (t.numThreadsFinished = 0) && decide (t.numThreadsRegistered < t.maxNumThreads)

def registerThread (t : Task Exception) : Bool × Task Exception :=
  if !t.hasException && t.canRegister then
    (true, { t with numThreadsRegistered := t.numThreadsRegistered + 1 })
  else (false, t)

/-- The first exception stays. -/
def setException (t : Task Exception) (e : Exception) : Task Exception :=
  if t.exceptionsPtr.isNone then { t with exceptionsPtr := some e } else t

/-- Beside the task comes the exception that is thrown. -/
def deRegisterThreadAndFinalizeTaskIfNecessary (t : Task Exception) :
    Task Exception × Option Exception :=
  let t := { t with numThreadsFinished := t.numThreadsFinished + 1 }
  if !t.hasException && t.isCompleted then
    ({ t with numFinalizations := t.numFinalizations + 1 }, t.finalizeThrows)
  else (t, none)

end Task

/-! ## Threads -/

/-- Where a worker is: it looks at the queue from a position on, or works on a task. -/
inductive WorkerPoint (Exception : Type*)
  | idle
  | scanning (it : ℕ)
  | refused (it : ℕ)
  | running (id : ℕ)
  | deRegistering (id : ℕ)
  | caught (id : ℕ) (e : Exception)
  | deRegisteringFailed (id : ℕ)
  deriving DecidableEq, Repr

/-- Where a user is.  A batch are the tasks that it has scheduled since it waited for all tasks.
`scheduleTaskAndWaitOrError` schedules the dependencies of a task before it, one after another. -/
inductive UserPoint (Exception : Type*)
  | idle (batch : List ℕ)
  | waitingAll (batch : List ℕ)
  | scanningAll (batch : List ℕ) (it : ℕ)
  | finishedAll (batch : List ℕ) (thrown : Option Exception)
  | scheduling (task : NewTask Exception) (rest : List (NewTask Exception))
  | waiting (id : ℕ) (rest : List (NewTask Exception))
  | completed (id : ℕ) (rest : List (NewTask Exception))
  | erroring (id : ℕ)
  | finished (thrown : Option Exception)
  deriving DecidableEq, Repr

inductive Call (Exception : Type*)
  | scheduleTask (task : NewTask Exception)
  | waitAllTasksToCompleteOrError
  | scheduleTaskAndWaitOrError (task : NewTask Exception) (rest : List (NewTask Exception))
  deriving DecidableEq, Repr

/-- `endRun` says what the run of a worker has thrown. -/
inductive Action (Worker User Exception : Type*)
  | advanceWorker (w : Worker)
  | endRun (w : Worker) (thrown : Option Exception)
  | call (u : User) (call : Call Exception)
  | advanceUser (u : User)
  deriving DecidableEq, Repr

/-- A task is given by the number with which it has been scheduled.  `mtx` is the thread that holds
the lock of the queue. -/
structure State (Worker User Exception : Type*) where
  tasks : ℕ → Task Exception
  nextScheduledTaskID : ℕ
  taskQueue : List ℕ
  mtx : Option (Worker ⊕ User)
  workers : Worker → WorkerPoint Exception
  users : User → UserPoint Exception

variable {Worker User : Type*}

def initial : State Worker User Exception where
  tasks := fun _ ↦ { maxNumThreads := 0 }
  nextScheduledTaskID := 0
  taskQueue := []
  mtx := none
  workers := fun _ ↦ .idle
  users := fun _ ↦ .idle []

namespace State

variable (s : State Worker User Exception)

def setTask (id : ℕ) (task : Task Exception) : State Worker User Exception :=
  { s with tasks := Function.update s.tasks id task }

/-- The body of `scheduleTask`. -/
def enqueue (task : NewTask Exception) : State Worker User Exception :=
  { s with
    tasks := Function.update s.tasks s.nextScheduledTaskID { toNewTask := task }
    nextScheduledTaskID := s.nextScheduledTaskID + 1
    taskQueue := s.taskQueue ++ [s.nextScheduledTaskID] }

def workerTo [DecidableEq Worker] (w : Worker) (p : WorkerPoint Exception) :
    State Worker User Exception :=
  { s with workers := Function.update s.workers w p }

def userTo [DecidableEq User] (u : User) (p : UserPoint Exception) : State Worker User Exception :=
  { s with users := Function.update s.users u p }

@[simp] theorem users_userTo_self [DecidableEq User] (u : User) (p : UserPoint Exception) :
    (s.userTo u p).users u = p :=
  Function.update_self _ _ _

end State

section Workers

variable [DecidableEq Worker]

/-- The steps of `runWorkerThread` and `getTaskAndRegister`. -/
def advanceWorker (s : State Worker User Exception) (w : Worker) :
    Option (State Worker User Exception) :=
  match s.workers w with
  | .idle =>
      if s.mtx.isNone then some ({ s with mtx := some (.inl w) }.workerTo w (.scanning 0)) else none
  | .scanning it =>
      match s.taskQueue[it]? with
      | none => some ({ s with mtx := none }.workerTo w .idle)
      | some id =>
          let (registered, task) := (s.tasks id).registerThread
          if registered then
            some (({ s with mtx := none }.setTask id task).workerTo w (.running id))
          else some (s.workerTo w (.refused it))
  | .refused it =>
      if s.taskQueue[it]?.any fun id ↦ (s.tasks id).isCompletedSuccessfully then
        some ({ s with taskQueue := s.taskQueue.eraseIdx it }.workerTo w (.scanning it))
      else some (s.workerTo w (.scanning (it + 1)))
  | .running _ => none
  | .deRegistering id =>
      let (task, thrown) := (s.tasks id).deRegisterThreadAndFinalizeTaskIfNecessary
      match thrown with
      | none => some ((s.setTask id task).workerTo w .idle)
      | some e => some ((s.setTask id task).workerTo w (.caught id e))
  | .caught id e =>
      some ((s.setTask id ((s.tasks id).setException e)).workerTo w (.deRegisteringFailed id))
  | .deRegisteringFailed id =>
      -- A task with an exception is not finalized, so that nothing is thrown here.
      let (task, _) := (s.tasks id).deRegisterThreadAndFinalizeTaskIfNecessary
      some ((s.setTask id task).workerTo w .idle)

def endRun (s : State Worker User Exception) (w : Worker) (thrown : Option Exception) :
    Option (State Worker User Exception) :=
  match s.workers w with
  | .running id =>
      match thrown with
      | none => some (s.workerTo w (.deRegistering id))
      | some e => some (s.workerTo w (.caught id e))
  | _ => none

end Workers

section Users

variable [DecidableEq User]

def call (s : State Worker User Exception) (u : User) (c : Call Exception) :
    Option (State Worker User Exception) :=
  match s.users u with
  | .idle batch =>
      match c with
      | .scheduleTask task =>
          if s.mtx.isNone then
            some ((s.enqueue task).userTo u (.idle (batch ++ [s.nextScheduledTaskID])))
          else none
      | .waitAllTasksToCompleteOrError => some (s.userTo u (.waitingAll batch))
      | .scheduleTaskAndWaitOrError task rest => some (s.userTo u (.scheduling task rest))
  | _ => none

/-- The steps of `waitAllTasksToCompleteOrError` and `scheduleTaskAndWaitOrError`.  A user that has
finished may call again. -/
def advanceUser (s : State Worker User Exception) (u : User) :
    Option (State Worker User Exception) :=
  match s.users u with
  | .idle _ => none
  | .waitingAll batch =>
      if s.mtx.isSome then none
      else if s.taskQueue.isEmpty then some (s.userTo u (.finishedAll batch none))
      else some ({ s with mtx := some (.inr u) }.userTo u (.scanningAll batch 0))
  | .scanningAll batch it =>
      match s.taskQueue[it]? with
      | none => some ({ s with mtx := none }.userTo u (.waitingAll batch))
      | some id =>
          match (s.tasks id).exceptionsPtr with
          | none => some (s.userTo u (.scanningAll batch (it + 1)))
          | some e =>
              some ({ s with mtx := none, taskQueue := s.taskQueue.eraseIdx it }.userTo u
                (.finishedAll batch (some e)))
  | .finishedAll _ _ => some (s.userTo u (.idle []))
  | .scheduling task rest =>
      if s.mtx.isNone then
        some ((s.enqueue task).userTo u (.waiting s.nextScheduledTaskID rest))
      else none
  | .waiting id rest =>
      if (s.tasks id).isCompleted then some (s.userTo u (.completed id rest)) else some s
  | .completed id rest =>
      if (s.tasks id).hasException then some (s.userTo u (.erroring id))
      else
        match rest with
        | [] => some (s.userTo u (.finished none))
        | task :: rest => some (s.userTo u (.scheduling task rest))
  | .erroring id =>
      if s.mtx.isNone then
        some ({ s with taskQueue := s.taskQueue.erase id }.userTo u
          (.finished (s.tasks id).exceptionsPtr))
      else none
  | .finished _ => some (s.userTo u (.idle []))

end Users

def step [DecidableEq Worker] [DecidableEq User] (s : State Worker User Exception) :
    Action Worker User Exception → Option (State Worker User Exception)
  | .advanceWorker w => advanceWorker s w
  | .endRun w thrown => endRun s w thrown
  | .call u c => call s u c
  | .advanceUser u => advanceUser s u

end Graphflow.TaskSystem
