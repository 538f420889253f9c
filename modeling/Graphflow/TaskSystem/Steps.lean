import Graphflow.TaskSystem.Scheduler

/-!
# The steps of the scheduler

What any step does to one task, and what it does to the queue.
-/

namespace Graphflow.TaskSystem

variable {Worker User Exception : Type*} [DecidableEq Worker]
  {s s' : State Worker User Exception} {id : ℕ} {w : Worker}

/-! ## The steps of a task -/

theorem Task.registerThread_cases (t : Task Exception) :
    t.registerThread = (true, { t with numThreadsRegistered := t.numThreadsRegistered + 1 }) ∧
        t.exceptionsPtr = none ∧ t.numThreadsFinished = 0 ∨
      t.registerThread = (false, t) := by
  rw [registerThread]
  split_ifs with hcan
  · rw [Bool.and_eq_true, canRegister, Bool.and_eq_true, decide_eq_true_iff] at hcan
    exact Or.inl ⟨rfl, by simpa [hasException] using hcan.1, hcan.2.1⟩
  · exact Or.inr rfl

/-- The task with which a worker has registered. -/
def WorkerPoint.taskOf : WorkerPoint Exception → Option ℕ
  | .idle | .scanning _ | .refused _ => none
  | .running id | .deRegistering id | .caught id _ | .deRegisteringFailed id => some id

/-- All that can happen to a task in a step. -/
inductive TaskStep (s s' : State Worker User Exception) (id : ℕ) : Prop
  | unchanged (htask : s'.tasks id = s.tasks id) (hworkers : s'.workers = s.workers)
  | elsewhere (w : Worker) (p : WorkerPoint Exception) (htask : s'.tasks id = s.tasks id)
      (hworkers : s'.workers = Function.update s.workers w p)
      (hfrom : (s.workers w).taskOf ≠ some id) (hto : p.taskOf ≠ some id)
  | created (task : NewTask Exception) (hid : id = s.nextScheduledTaskID)
      (htask : s'.tasks id = { toNewTask := task }) (hworkers : s'.workers = s.workers)
  | registers (w : Worker) (hmem : id ∈ s.taskQueue) (hfrom : (s.workers w).taskOf = none)
      (hexception : (s.tasks id).exceptionsPtr = none)
      (hfinished : (s.tasks id).numThreadsFinished = 0)
      (htask : s'.tasks id =
        { s.tasks id with numThreadsRegistered := (s.tasks id).numThreadsRegistered + 1 })
      (hworkers : s'.workers = Function.update s.workers w (.running id))
  | ends (w : Worker) (p : WorkerPoint Exception) (hfrom : s.workers w = .running id)
      (hto : p = .deRegistering id ∨ ∃ e, p = .caught id e) (htask : s'.tasks id = s.tasks id)
      (hworkers : s'.workers = Function.update s.workers w p)
  | deRegisters (w : Worker) (hfrom : s.workers w = .deRegistering id)
      (hthrown : (s.tasks id).deRegisterThreadAndFinalizeTaskIfNecessary.2 = none)
      (htask : s'.tasks id = (s.tasks id).deRegisterThreadAndFinalizeTaskIfNecessary.1)
      (hworkers : s'.workers = Function.update s.workers w .idle)
  | finalizeThrows (w : Worker) (e : Exception) (hfrom : s.workers w = .deRegistering id)
      (hthrown : (s.tasks id).deRegisterThreadAndFinalizeTaskIfNecessary.2 = some e)
      (htask : s'.tasks id = (s.tasks id).deRegisterThreadAndFinalizeTaskIfNecessary.1)
      (hworkers : s'.workers = Function.update s.workers w (.caught id e))
  | setsException (w : Worker) (e : Exception) (hfrom : s.workers w = .caught id e)
      (htask : s'.tasks id = (s.tasks id).setException e)
      (hworkers : s'.workers = Function.update s.workers w (.deRegisteringFailed id))
  | leaves (w : Worker) (hfrom : s.workers w = .deRegisteringFailed id)
      (htask : s'.tasks id = (s.tasks id).deRegisterThreadAndFinalizeTaskIfNecessary.1)
      (hworkers : s'.workers = Function.update s.workers w .idle)

/-- A step of a worker on another task. -/
theorem TaskStep.of_ne {id' : ℕ} {task : Task Exception} {p : WorkerPoint Exception}
    (hne : id' ≠ id)
    (htasks : s'.tasks = Function.update s.tasks id' task)
    (hworkers : s'.workers = Function.update s.workers w p)
    (hfrom : ∀ x ∈ (s.workers w).taskOf, x = id') (hto : ∀ x ∈ p.taskOf, x = id') :
    TaskStep s s' id := by
  refine .elsewhere w p ?_ hworkers (fun hid ↦ hne (hfrom id hid).symm)
    fun hid ↦ hne (hto id hid).symm
  rw [htasks, Function.update_of_ne (Ne.symm hne)]

/-- A step of a worker that looks at the queue. -/
theorem TaskStep.of_scans {p : WorkerPoint Exception} (htasks : s'.tasks = s.tasks)
    (hworkers : s'.workers = Function.update s.workers w p)
    (hfrom : (s.workers w).taskOf = none) (hto : p.taskOf = none) : TaskStep s s' id :=
  .elsewhere w p (by rw [htasks]) hworkers (by rw [hfrom]; simp) (by rw [hto]; simp)

theorem taskStep_of_advanceWorker (h : advanceWorker s w = some s') (id : ℕ) :
    TaskStep s s' id := by
  rw [advanceWorker] at h
  cases hpoint : s.workers w with
  | idle =>
      simp only [hpoint] at h
      split_ifs at h
      cases h
      exact .of_scans rfl rfl (by rw [hpoint]; rfl) rfl
  | scanning it =>
      simp only [hpoint] at h
      cases hget : s.taskQueue[it]? with
      | none =>
          simp only [hget] at h
          cases h
          exact .of_scans rfl rfl (by rw [hpoint]; rfl) rfl
      | some id' =>
          rcases (s.tasks id').registerThread_cases with
            ⟨hregister, hexception, hfinished⟩ | hregister
          · simp only [hget, hregister, if_true] at h
            cases h
            by_cases hid : id' = id
            · subst hid
              exact .registers w (List.mem_of_getElem? hget)
                (by rw [hpoint]; rfl) hexception hfinished
                (Function.update_self _ _ _) rfl
            · exact .of_ne hid rfl rfl (by rw [hpoint]; simp [WorkerPoint.taskOf])
                (by simp [WorkerPoint.taskOf])
          · simp only [hget, hregister, Bool.false_eq_true, if_false] at h
            cases h
            exact .of_scans rfl rfl (by rw [hpoint]; rfl) rfl
  | refused it =>
      simp only [hpoint] at h
      split_ifs at h
      · cases h
        exact .of_scans rfl rfl (by rw [hpoint]; rfl) rfl
      · cases h
        exact .of_scans rfl rfl (by rw [hpoint]; rfl) rfl
  | running id' => simp [hpoint] at h
  | deRegistering id' =>
      simp only [hpoint] at h
      cases hthrown : (s.tasks id').deRegisterThreadAndFinalizeTaskIfNecessary.2 with
      | none =>
          simp only [hthrown] at h
          cases h
          by_cases hid : id' = id
          · subst hid
            exact .deRegisters w hpoint hthrown (Function.update_self _ _ _) rfl
          · exact .of_ne hid rfl rfl (by rw [hpoint]; simp [WorkerPoint.taskOf])
              (by simp [WorkerPoint.taskOf])
      | some e =>
          simp only [hthrown] at h
          cases h
          by_cases hid : id' = id
          · subst hid
            exact .finalizeThrows w e hpoint hthrown (Function.update_self _ _ _) rfl
          · exact .of_ne hid rfl rfl (by rw [hpoint]; simp [WorkerPoint.taskOf])
              (by simp [WorkerPoint.taskOf])
  | caught id' e =>
      simp only [hpoint] at h
      cases h
      by_cases hid : id' = id
      · subst hid
        exact .setsException w e hpoint (Function.update_self _ _ _) rfl
      · exact .of_ne hid rfl rfl (by rw [hpoint]; simp [WorkerPoint.taskOf])
          (by simp [WorkerPoint.taskOf])
  | deRegisteringFailed id' =>
      simp only [hpoint] at h
      cases h
      by_cases hid : id' = id
      · subst hid
        exact .leaves w hpoint (Function.update_self _ _ _) rfl
      · exact .of_ne hid rfl rfl (by rw [hpoint]; simp [WorkerPoint.taskOf])
          (by simp [WorkerPoint.taskOf])

theorem taskStep_of_endRun {thrown : Option Exception} (h : endRun s w thrown = some s') (id : ℕ) :
    TaskStep s s' id := by
  rw [endRun] at h
  cases hpoint : s.workers w with
  | running id' =>
      simp only [hpoint] at h
      have hends : ∃ p, s' = s.workerTo w p ∧
          (p = .deRegistering id' ∨ ∃ e, p = .caught id' e) := by
        cases thrown with
        | none =>
            cases h
            exact ⟨_, rfl, Or.inl rfl⟩
        | some e =>
            cases h
            exact ⟨_, rfl, Or.inr ⟨e, rfl⟩⟩
      obtain ⟨p, rfl, hp⟩ := hends
      by_cases hid : id' = id
      · subst hid
        exact .ends w p hpoint hp rfl rfl
      · refine .elsewhere w p rfl rfl (by rw [hpoint]; simpa [WorkerPoint.taskOf] using hid) ?_
        rcases hp with rfl | ⟨e, rfl⟩
        · simpa [WorkerPoint.taskOf] using hid
        · simpa [WorkerPoint.taskOf] using hid
  | _ => simp [hpoint] at h

/-- What is scheduled is a new task. -/
theorem TaskStep.of_enqueue {task : NewTask Exception}
    (htasks : s'.tasks = (s.enqueue task).tasks) (hworkers : s'.workers = s.workers) (id : ℕ) :
    TaskStep s s' id := by
  by_cases hid : id = s.nextScheduledTaskID
  · exact .created task hid (by rw [htasks, hid]; exact Function.update_self _ _ _) hworkers
  · exact .unchanged (by rw [htasks]; exact Function.update_of_ne hid _ _) hworkers

theorem taskStep_of_call [DecidableEq User] {u : User} {c : Call Exception}
    (h : call s u c = some s') (id : ℕ) :
    TaskStep s s' id := by
  rw [call] at h
  cases hpoint : s.users u with
  | idle batch =>
      simp only [hpoint] at h
      cases c with
      | scheduleTask task =>
          simp only at h
          split_ifs at h
          cases h
          exact @TaskStep.of_enqueue Worker User Exception _ s _ task (by rfl) (by rfl) id
      | waitAllTasksToCompleteOrError =>
          cases h
          exact .unchanged rfl rfl
      | scheduleTaskAndWaitOrError task rest =>
          cases h
          exact .unchanged rfl rfl
  | _ => simp [hpoint] at h

theorem taskStep_of_advanceUser [DecidableEq User] {u : User}
    (h : advanceUser s u = some s') (id : ℕ) :
    TaskStep s s' id := by
  rw [advanceUser] at h
  cases hpoint : s.users u with
  | idle batch => simp [hpoint] at h
  | scheduling task rest =>
      simp only [hpoint] at h
      split_ifs at h
      cases h
      exact @TaskStep.of_enqueue Worker User Exception _ s _ task (by rfl) (by rfl) id
  | scanningAll batch it =>
      simp only [hpoint] at h
      split at h
      · cases h
        exact .unchanged rfl rfl
      · split at h
        · cases h
          exact .unchanged rfl rfl
        · cases h
          exact .unchanged rfl rfl
  | completed id' rest =>
      simp only [hpoint] at h
      split_ifs at h
      · cases h
        exact .unchanged rfl rfl
      · split at h
        · cases h
          exact .unchanged rfl rfl
        · cases h
          exact .unchanged rfl rfl
  | waitingAll batch =>
      simp only [hpoint] at h
      split_ifs at h
      · cases h
        exact .unchanged rfl rfl
      · cases h
        exact .unchanged rfl rfl
  | waiting id' rest =>
      simp only [hpoint] at h
      split_ifs at h
      · cases h
        exact .unchanged rfl rfl
      · cases h
        exact .unchanged rfl rfl
  | finishedAll batch thrown =>
      simp only [hpoint] at h
      cases h
      exact .unchanged rfl rfl
  | erroring id' =>
      simp only [hpoint] at h
      split_ifs at h
      cases h
      exact .unchanged rfl rfl
  | finished thrown =>
      simp only [hpoint] at h
      cases h
      exact .unchanged rfl rfl

theorem taskStep_of_step [DecidableEq User] {a : Action Worker User Exception}
    (h : step s a = some s') (id : ℕ) : TaskStep s s' id := by
  cases a with
  | advanceWorker w => exact taskStep_of_advanceWorker h id
  | endRun w thrown => exact taskStep_of_endRun h id
  | call u c => exact taskStep_of_call h id
  | advanceUser u => exact taskStep_of_advanceUser h id

/-! ## The steps of the queue -/

/-- Of a worker's steps only one changes the queue: it removes a task that is completed. -/
theorem taskQueue_of_advanceWorker (h : advanceWorker s w = some s') :
    s'.users = s.users ∧ s'.nextScheduledTaskID = s.nextScheduledTaskID ∧
      (s'.taskQueue = s.taskQueue ∨ ∃ it id, s.taskQueue[it]? = some id ∧
        (s.tasks id).isCompletedSuccessfully = true ∧ s'.taskQueue = s.taskQueue.eraseIdx it) := by
  rw [advanceWorker] at h
  cases hpoint : s.workers w with
  | idle =>
      simp only [hpoint] at h
      split_ifs at h
      cases h
      exact ⟨rfl, rfl, Or.inl rfl⟩
  | scanning it =>
      simp only [hpoint] at h
      split at h
      · cases h
        exact ⟨rfl, rfl, Or.inl rfl⟩
      · split_ifs at h
        · cases h
          exact ⟨rfl, rfl, Or.inl rfl⟩
        · cases h
          exact ⟨rfl, rfl, Or.inl rfl⟩
  | refused it =>
      simp only [hpoint] at h
      cases hget : s.taskQueue[it]? with
      | none =>
          simp only [hget, Option.any_none, Bool.false_eq_true, if_false] at h
          cases h
          exact ⟨rfl, rfl, Or.inl rfl⟩
      | some id =>
          simp only [hget, Option.any_some] at h
          split_ifs at h with hcompleted
          · cases h
            exact ⟨rfl, rfl, Or.inr ⟨it, id, hget, hcompleted, rfl⟩⟩
          · cases h
            exact ⟨rfl, rfl, Or.inl rfl⟩
  | running id => simp [hpoint] at h
  | deRegistering id =>
      simp only [hpoint] at h
      split at h
      · cases h
        exact ⟨rfl, rfl, Or.inl rfl⟩
      · cases h
        exact ⟨rfl, rfl, Or.inl rfl⟩
  | caught id e =>
      simp only [hpoint] at h
      cases h
      exact ⟨rfl, rfl, Or.inl rfl⟩
  | deRegisteringFailed id =>
      simp only [hpoint] at h
      cases h
      exact ⟨rfl, rfl, Or.inl rfl⟩

theorem users_of_endRun {thrown : Option Exception} (h : endRun s w thrown = some s') :
    s'.users = s.users ∧ s'.nextScheduledTaskID = s.nextScheduledTaskID ∧
      s'.taskQueue = s.taskQueue := by
  rw [endRun] at h
  split at h
  · split at h
    · cases h
      exact ⟨rfl, rfl, rfl⟩
    · cases h
      exact ⟨rfl, rfl, rfl⟩
  · cases h

namespace UserPoint

/-- The tasks for which a user is going to wait, or is waiting. -/
def batchOf : UserPoint Exception → Option (List ℕ)
  | .idle batch | .waitingAll batch | .scanningAll batch _ => some batch
  | _ => none

/-- The task that a user has scheduled alone. -/
def taskOf : UserPoint Exception → Option ℕ
  | .waiting id _ | .completed id _ | .erroring id => some id
  | _ => none

def isWaitingAll : UserPoint Exception → Bool
  | .waitingAll _ | .scanningAll _ _ => true
  | _ => false

def isFinishedAll : UserPoint Exception → Bool
  | .finishedAll _ _ => true
  | _ => false

end UserPoint

section Users

variable [DecidableEq User] {u : User}

/-- All that can happen to the queue in a step of a user. -/
inductive UserStep (s s' : State Worker User Exception) (u : User) : Prop
  | moves (p : UserPoint Exception) (mtx : Option (Worker ⊕ User))
      (hs' : s' = { s with mtx := mtx }.userTo u p) (hnot : p.isFinishedAll = false)
      (hbatch : ∀ batch ∈ p.batchOf, (s.users u).batchOf = some batch ∨ batch = [])
      (htask : ∀ id ∈ p.taskOf, (s.users u).taskOf = some id)
  | schedules (task : NewTask Exception) (batch : List ℕ) (hfrom : s.users u = .idle batch)
      (hs' : s' = (s.enqueue task).userTo u (.idle (batch ++ [s.nextScheduledTaskID])))
  | returns (batch : List ℕ) (hfrom : s.users u = .waitingAll batch) (hempty : s.taskQueue = [])
      (hs' : s' = s.userTo u (.finishedAll batch none))
  | throws (batch : List ℕ) (it id : ℕ) (e : Exception) (hfrom : s.users u = .scanningAll batch it)
      (hget : s.taskQueue[it]? = some id) (hexception : (s.tasks id).exceptionsPtr = some e)
      (hs' : s' = { s with mtx := none, taskQueue := s.taskQueue.eraseIdx it }.userTo u
        (.finishedAll batch (some e)))
  | starts (task : NewTask Exception) (rest : List (NewTask Exception))
      (hfrom : s.users u = .scheduling task rest)
      (hs' : s' = (s.enqueue task).userTo u (.waiting s.nextScheduledTaskID rest))
  | removes (id : ℕ) (hfrom : s.users u = .erroring id)
      (hs' : s' = { s with taskQueue := s.taskQueue.erase id }.userTo u
        (.finished (s.tasks id).exceptionsPtr))

omit [DecidableEq Worker] in
theorem userStep_of_call {c : Call Exception} (h : call s u c = some s') : UserStep s s' u := by
  rw [call] at h
  cases hpoint : s.users u with
  | idle batch =>
      simp only [hpoint] at h
      cases c with
      | scheduleTask task =>
          simp only at h
          split_ifs at h
          cases h
          exact .schedules task batch hpoint rfl
      | waitAllTasksToCompleteOrError =>
          cases h
          exact .moves _ s.mtx rfl rfl (by simp [UserPoint.batchOf, hpoint])
            (by simp [UserPoint.taskOf])
      | scheduleTaskAndWaitOrError task rest =>
          cases h
          exact .moves _ s.mtx rfl rfl (by simp [UserPoint.batchOf]) (by simp [UserPoint.taskOf])
  | _ => simp [hpoint] at h

omit [DecidableEq Worker] in
theorem userStep_of_advanceUser (h : advanceUser s u = some s') : UserStep s s' u := by
  rw [advanceUser] at h
  cases hpoint : s.users u with
  | idle batch => simp [hpoint] at h
  | waitingAll batch =>
      simp only [hpoint] at h
      split_ifs at h with hlocked hempty
      · cases h
        exact .returns batch hpoint (List.isEmpty_iff.mp hempty) rfl
      · cases h
        exact .moves _ (some (.inr u)) rfl rfl (by simp [UserPoint.batchOf, hpoint])
          (by simp [UserPoint.taskOf])
  | scanningAll batch it =>
      simp only [hpoint] at h
      cases hget : s.taskQueue[it]? with
      | none =>
          simp only [hget] at h
          cases h
          exact .moves _ none rfl rfl (by simp [UserPoint.batchOf, hpoint])
            (by simp [UserPoint.taskOf])
      | some id =>
          simp only [hget] at h
          cases hexception : (s.tasks id).exceptionsPtr with
          | none =>
              simp only [hexception] at h
              cases h
              exact .moves _ s.mtx rfl rfl (by simp [UserPoint.batchOf, hpoint])
                (by simp [UserPoint.taskOf])
          | some e =>
              simp only [hexception] at h
              cases h
              exact .throws batch it id e hpoint hget hexception rfl
  | finishedAll batch thrown =>
      simp only [hpoint] at h
      cases h
      exact .moves _ s.mtx rfl rfl (by simp [UserPoint.batchOf]) (by simp [UserPoint.taskOf])
  | scheduling task rest =>
      simp only [hpoint] at h
      split_ifs at h
      cases h
      exact .starts task rest hpoint rfl
  | waiting id rest =>
      simp only [hpoint] at h
      split_ifs at h
      · cases h
        exact .moves _ s.mtx rfl rfl (by simp [UserPoint.batchOf])
          (by simp [UserPoint.taskOf, hpoint])
      · cases h
        refine .moves (s.users u) s.mtx ?_ (by rw [hpoint]; rfl) (fun _ hbatch ↦ Or.inl hbatch)
          fun _ htask ↦ htask
        rw [State.userTo, Function.update_eq_self]
  | completed id rest =>
      simp only [hpoint] at h
      split_ifs at h
      · cases h
        exact .moves _ s.mtx rfl rfl (by simp [UserPoint.batchOf])
          (by simp [UserPoint.taskOf, hpoint])
      · split at h
        · cases h
          exact .moves _ s.mtx rfl rfl (by simp [UserPoint.batchOf]) (by simp [UserPoint.taskOf])
        · cases h
          exact .moves _ s.mtx rfl rfl (by simp [UserPoint.batchOf]) (by simp [UserPoint.taskOf])
  | erroring id =>
      simp only [hpoint] at h
      split_ifs at h
      cases h
      exact .removes id hpoint rfl
  | finished thrown =>
      simp only [hpoint] at h
      cases h
      exact .moves _ s.mtx rfl rfl (by simp [UserPoint.batchOf]) (by simp [UserPoint.taskOf])

end Users

end Graphflow.TaskSystem
