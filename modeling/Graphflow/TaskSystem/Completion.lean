import Graphflow.TaskSystem.Steps
import Mathlib.Algebra.BigOperators.Group.Finset.Piecewise

/-!
# Completion of tasks

A task is finalized once, and it is completed when all of its workers have left it, unless its
finalization throws: then a worker leaves it twice.
-/

namespace Graphflow.TaskSystem

open Lib

variable {Worker User Exception : Type*} [DecidableEq Worker]
  {s s' : State Worker User Exception} {id : ℕ} {w : Worker}

/-! ## The tasks of the queue -/

/-- The queue and the workers know tasks only that have been scheduled. -/
structure Scheduled (s : State Worker User Exception) : Prop where
  lt_of_mem : ∀ id ∈ s.taskQueue, id < s.nextScheduledTaskID
  lt_of_taskOf : ∀ w, ∀ id ∈ (s.workers w).taskOf, id < s.nextScheduledTaskID

omit [DecidableEq Worker] in
/-- Tasks are put into the queue by users only. -/
theorem taskQueue_of_userStep [DecidableEq User] {u : User} (h : UserStep s s' u) :
    s.nextScheduledTaskID ≤ s'.nextScheduledTaskID ∧ ∀ id ∈ s'.taskQueue,
      id ∈ s.taskQueue ∨ id = s.nextScheduledTaskID ∧ id < s'.nextScheduledTaskID := by
  have henqueue : ∀ id ∈ s.taskQueue ++ [s.nextScheduledTaskID],
      id ∈ s.taskQueue ∨ id = s.nextScheduledTaskID ∧ id < s.nextScheduledTaskID + 1 := by
    intro id hmem
    rcases List.mem_append.mp hmem with hold | hnew
    · exact Or.inl hold
    · rw [List.mem_singleton.mp hnew]
      exact Or.inr ⟨rfl, Nat.lt_succ_self _⟩
  cases h with
  | moves p mtx hs' hnot hbatch htask => subst hs'; exact ⟨le_refl _, fun _ ↦ Or.inl⟩
  | schedules task batch hfrom hs' => subst hs'; exact ⟨Nat.le_succ _, henqueue⟩
  | returns batch hfrom hempty hs' => subst hs'; exact ⟨le_refl _, fun _ ↦ Or.inl⟩
  | throws batch it id e hfrom hget hexception hs' =>
      subst hs'
      exact ⟨le_refl _, fun _ hmem ↦ Or.inl (List.mem_of_mem_eraseIdx hmem)⟩
  | starts task rest hfrom hs' => subst hs'; exact ⟨Nat.le_succ _, henqueue⟩
  | removes id hfrom hs' =>
      subst hs'
      exact ⟨le_refl _, fun _ hmem ↦ Or.inl (List.mem_of_mem_erase hmem)⟩

theorem taskQueue_of_step [DecidableEq User] {a : Action Worker User Exception}
    (h : step s a = some s') : s.nextScheduledTaskID ≤ s'.nextScheduledTaskID ∧
      ∀ id ∈ s'.taskQueue,
        id ∈ s.taskQueue ∨ id = s.nextScheduledTaskID ∧ id < s'.nextScheduledTaskID := by
  cases a with
  | advanceWorker w =>
      obtain ⟨-, hnext, hqueue⟩ := taskQueue_of_advanceWorker h
      refine ⟨hnext.ge, fun id hmem ↦ Or.inl ?_⟩
      rcases hqueue with hsame | ⟨it, id', -, -, herase⟩
      · rwa [hsame] at hmem
      · rw [herase] at hmem
        exact List.mem_of_mem_eraseIdx hmem
  | endRun w thrown =>
      obtain ⟨-, hnext, hqueue⟩ := users_of_endRun h
      exact ⟨hnext.ge, fun id hmem ↦ Or.inl (by rwa [hqueue] at hmem)⟩
  | call u c => exact taskQueue_of_userStep (userStep_of_call h)
  | advanceUser u => exact taskQueue_of_userStep (userStep_of_advanceUser h)

/-- A worker gets a task from the queue or has it already. -/
theorem taskOf_of_taskStep (h : TaskStep s s' id) (hon : (s'.workers w).taskOf = some id) :
    id ∈ s.taskQueue ∨ ∃ w', (s.workers w').taskOf = some id := by
  have hmoves : ∀ (w' : Worker) (p : WorkerPoint Exception),
      s'.workers = Function.update s.workers w' p → (s.workers w').taskOf = some id →
        ∃ w', (s.workers w').taskOf = some id := fun w' _ _ hw' ↦ ⟨w', hw'⟩
  cases h with
  | unchanged htask hworkers => exact Or.inr ⟨w, by rwa [hworkers] at hon⟩
  | elsewhere w' p htask hworkers hfrom hto =>
      rw [hworkers] at hon
      by_cases hw : w = w'
      · subst hw
        rw [Function.update_self] at hon
        exact absurd hon hto
      · rw [Function.update_of_ne hw] at hon
        exact Or.inr ⟨w, hon⟩
  | created task hid htask hworkers => exact Or.inr ⟨w, by rwa [hworkers] at hon⟩
  | registers w' hmem hfrom hexception hfinished htask hworkers => exact Or.inl hmem
  | ends w' p hfrom hto htask hworkers =>
      exact Or.inr (hmoves w' _ hworkers (by rw [hfrom]; rfl))
  | deRegisters w' hfrom hthrown htask hworkers =>
      exact Or.inr (hmoves w' _ hworkers (by rw [hfrom]; rfl))
  | finalizeThrows w' e hfrom hthrown htask hworkers =>
      exact Or.inr (hmoves w' _ hworkers (by rw [hfrom]; rfl))
  | setsException w' e hfrom htask hworkers =>
      exact Or.inr (hmoves w' _ hworkers (by rw [hfrom]; rfl))
  | leaves w' hfrom htask hworkers =>
      exact Or.inr (hmoves w' _ hworkers (by rw [hfrom]; rfl))

theorem Scheduled.of_step [DecidableEq User] {a : Action Worker User Exception}
    (h : Scheduled s) (hstep : step s a = some s') : Scheduled s' := by
  obtain ⟨hnext, hqueue⟩ := taskQueue_of_step hstep
  constructor
  · intro id hmem
    rcases hqueue id hmem with hold | hnew
    · exact lt_of_lt_of_le (h.lt_of_mem id hold) hnext
    · exact hnew.2
  · intro w id hon
    rcases taskOf_of_taskStep (taskStep_of_step hstep id) hon with hmem | ⟨w', hw'⟩
    · exact lt_of_lt_of_le (h.lt_of_mem id hmem) hnext
    · exact lt_of_lt_of_le (h.lt_of_taskOf w' id hw') hnext

/-! ## The workers of a task -/

section Workers

variable [Fintype Worker]

/-- The number of workers that have registered with a task and not left it. -/
def numThreadsOn (s : State Worker User Exception) (id : ℕ) : ℕ :=
  (Finset.univ.filter fun w ↦ (s.workers w).taskOf = some id).card

theorem numThreadsOn_update {p : WorkerPoint Exception}
    (hworkers : s'.workers = Function.update s.workers w p) (id : ℕ) :
    numThreadsOn s' id + (if (s.workers w).taskOf = some id then 1 else 0) =
      numThreadsOn s id + if p.taskOf = some id then 1 else 0 := by
  rw [numThreadsOn, numThreadsOn, Finset.card_filter, Finset.card_filter, hworkers,
    ← Finset.add_sum_erase Finset.univ _ (Finset.mem_univ w),
    ← Finset.add_sum_erase Finset.univ (fun v ↦ if (s.workers v).taskOf = some id then 1 else 0)
      (Finset.mem_univ w), Function.update_self]
  have hothers : ∑ v ∈ Finset.univ.erase w,
      (if (Function.update s.workers w p v).taskOf = some id then 1 else 0) =
        ∑ v ∈ Finset.univ.erase w, if (s.workers v).taskOf = some id then 1 else 0 := by
    apply Finset.sum_congr rfl
    intro v hv
    rw [Function.update_of_ne (Finset.ne_of_mem_erase hv)]
  rw [hothers]
  omega

omit [DecidableEq Worker] in
theorem numThreadsOn_eq_zero_iff :
    numThreadsOn s id = 0 ↔ ∀ w, (s.workers w).taskOf ≠ some id := by
  rw [numThreadsOn, Finset.card_eq_zero, Finset.filter_eq_empty_iff]
  simp

omit [DecidableEq Worker] in
theorem eq_of_numThreadsOn_le_one {w' : Worker} (hle : numThreadsOn s id ≤ 1)
    (hw : (s.workers w).taskOf = some id) (hw' : (s.workers w').taskOf = some id) : w = w' := by
  apply Finset.card_le_one.mp hle
  · exact Finset.mem_filter.mpr ⟨Finset.mem_univ _, hw⟩
  · exact Finset.mem_filter.mpr ⟨Finset.mem_univ _, hw'⟩

/-! ## Finalization -/

omit [DecidableEq Worker] [Fintype Worker] in
/-- The last worker that leaves a task without an exception finalizes it. -/
theorem Task.deRegister_cases (t : Task Exception) :
    t.exceptionsPtr = none ∧ t.numThreadsFinished + 1 = t.numThreadsRegistered ∧
        t.deRegisterThreadAndFinalizeTaskIfNecessary =
          ({ t with
              numThreadsFinished := t.numThreadsFinished + 1
              numFinalizations := t.numFinalizations + 1 }, t.finalizeThrows) ∨
      ({ t with numThreadsFinished := t.numThreadsFinished + 1 } :
          Task Exception).isCompletedSuccessfully = false ∧
        t.deRegisterThreadAndFinalizeTaskIfNecessary =
          ({ t with numThreadsFinished := t.numThreadsFinished + 1 }, none) := by
  rw [deRegisterThreadAndFinalizeTaskIfNecessary]
  split_ifs with hlast
  · rw [Bool.and_eq_true, isCompleted, Bool.and_eq_true, decide_eq_true_iff,
      decide_eq_true_iff] at hlast
    exact Or.inl ⟨by simpa [hasException] using hlast.1, hlast.2.2, rfl⟩
  · refine Or.inr ⟨?_, rfl⟩
    rw [isCompletedSuccessfully, Bool.and_comm]
    exact Bool.eq_false_iff.mpr hlast

omit [DecidableEq Worker] [Fintype Worker] in
theorem Task.isCompletedSuccessfully_eq_true_iff {t : Task Exception} :
    t.isCompletedSuccessfully = true ↔ 0 < t.numThreadsRegistered ∧
      t.numThreadsFinished = t.numThreadsRegistered ∧ t.exceptionsPtr = none := by
  simp [isCompletedSuccessfully, isCompleted, hasException, and_assoc]

/-- The number of times that the finalization of a task has thrown. -/
def Task.numThrown (t : Task Exception) : ℕ :=
  if t.finalizeThrows.isSome then t.numFinalizations else 0

/-- The counters of a task: a worker whose finalization throws is counted as finished twice. -/
structure Sound (s : State Worker User Exception) (id : ℕ) : Prop where
  count : (s.tasks id).numThreadsFinished + numThreadsOn s id =
    (s.tasks id).numThreadsRegistered + (s.tasks id).numThrown
  finalized : (s.tasks id).numFinalizations = 0 ∧ (s.tasks id).isCompletedSuccessfully = false ∨
    (s.tasks id).numFinalizations = 1 ∧ 0 < (s.tasks id).numThreadsRegistered ∧
      (s.tasks id).numThreadsRegistered ≤ (s.tasks id).numThreadsFinished ∧
      ∀ w, s.workers w ≠ .running id ∧ s.workers w ≠ .deRegistering id
  failed : ∀ w, s.workers w = .deRegisteringFailed id → (s.tasks id).exceptionsPtr ≠ none

namespace Sound

omit [DecidableEq Worker] in
/-- A worker does not run a task that has been finalized. -/
theorem not_finalized (h : Sound s id)
    (hw : s.workers w = .running id ∨ s.workers w = .deRegistering id) :
    (s.tasks id).numFinalizations = 0 ∧ (s.tasks id).isCompletedSuccessfully = false := by
  rcases h.finalized with hnot | ⟨-, -, -, hnone⟩
  · exact hnot
  · rcases hw with hrunning | hderegistering
    · exact absurd hrunning (hnone w).1
    · exact absurd hderegistering (hnone w).2

/-- A step of a worker that does not touch the task. -/
theorem of_move {p : WorkerPoint Exception} (h : Sound s id) (htask : s'.tasks id = s.tasks id)
    (hworkers : s'.workers = Function.update s.workers w p)
    (htaskOf : (s.workers w).taskOf = some id ↔ p.taskOf = some id)
    (hto : p = .running id ∨ p = .deRegistering id →
      (s.tasks id).numFinalizations = 0 ∧ (s.tasks id).isCompletedSuccessfully = false)
    (hfailed : p = .deRegisteringFailed id → (s.tasks id).exceptionsPtr ≠ none) : Sound s' id := by
  have hcount := numThreadsOn_update hworkers id
  rw [if_congr htaskOf rfl rfl] at hcount
  refine ⟨?_, ?_, ?_⟩
  · rw [htask, Nat.add_right_cancel hcount]
    exact h.count
  · rw [htask]
    rcases h.finalized with hnot | ⟨hone, hpos, hle, hnone⟩
    · exact Or.inl hnot
    · by_cases hp : p = .running id ∨ p = .deRegistering id
      · exact Or.inl (hto hp)
      · refine Or.inr ⟨hone, hpos, hle, fun v ↦ ?_⟩
        rw [hworkers]
        by_cases hv : v = w
        · subst hv
          rw [Function.update_self]
          exact not_or.mp hp
        · rw [Function.update_of_ne hv]
          exact hnone v
  · intro v hv
    rw [htask]
    rw [hworkers] at hv
    by_cases hvw : v = w
    · subst hvw
      rw [Function.update_self] at hv
      exact hfailed hv
    · rw [Function.update_of_ne hvw] at hv
      exact h.failed v hv

theorem of_registers (h : Sound s id) (hfrom : (s.workers w).taskOf = none)
    (hfinished : (s.tasks id).numThreadsFinished = 0)
    (htask : s'.tasks id =
      { s.tasks id with numThreadsRegistered := (s.tasks id).numThreadsRegistered + 1 })
    (hworkers : s'.workers = Function.update s.workers w (.running id)) : Sound s' id := by
  have hcount := numThreadsOn_update hworkers id
  rw [hfrom, if_neg (by simp), if_pos (by rfl), Nat.add_zero] at hcount
  have hnot : (s.tasks id).numFinalizations = 0 := by
    rcases h.finalized with ⟨hzero, -⟩ | ⟨-, hpos, hle, -⟩
    · exact hzero
    · omega
  have hthrown : (s.tasks id).numThrown = 0 := by
    rw [Task.numThrown, hnot]
    split_ifs <;> rfl
  refine ⟨?_, Or.inl ⟨by rw [htask]; exact hnot, ?_⟩, ?_⟩
  · have hold := h.count
    rw [hthrown] at hold
    have hnew : (s'.tasks id).numThrown = 0 := by
      rw [htask]
      exact hthrown
    rw [hnew, htask, hcount]
    simp only
    omega
  · rw [htask, Task.isCompletedSuccessfully, Task.isCompleted, hfinished]
    simp
  · intro v hv
    rw [htask]
    rw [hworkers] at hv
    by_cases hvw : v = w
    · subst hvw
      rw [Function.update_self] at hv
      cases hv
    · rw [Function.update_of_ne hvw] at hv
      exact h.failed v hv

/-- A worker leaves a task without finalizing it. -/
theorem of_leaves (h : Sound s id) (hfrom : (s.workers w).taskOf = some id)
    (hsuccess : ({ s.tasks id with numThreadsFinished := (s.tasks id).numThreadsFinished + 1 } :
      Task Exception).isCompletedSuccessfully = false)
    (htask : s'.tasks id =
      { s.tasks id with numThreadsFinished := (s.tasks id).numThreadsFinished + 1 })
    (hworkers : s'.workers = Function.update s.workers w .idle) : Sound s' id := by
  have hcount := numThreadsOn_update hworkers id
  rw [if_pos hfrom, if_neg (by simp [WorkerPoint.taskOf]), Nat.add_zero] at hcount
  refine ⟨?_, ?_, ?_⟩
  · have hold := h.count
    have hthrown : (s'.tasks id).numThrown = (s.tasks id).numThrown := by rw [htask]; rfl
    rw [hthrown, htask]
    simp only
    omega
  · rcases h.finalized with ⟨hzero, -⟩ | ⟨hone, hpos, hle, hnone⟩
    · exact Or.inl ⟨by rw [htask]; exact hzero, by rw [htask]; exact hsuccess⟩
    · refine Or.inr ⟨by rw [htask]; exact hone, by rw [htask]; exact hpos, ?_, fun v ↦ ?_⟩
      · rw [htask]
        exact Nat.le_succ_of_le hle
      · rw [hworkers]
        by_cases hvw : v = w
        · subst hvw
          rw [Function.update_self]
          exact ⟨by simp, by simp⟩
        · rw [Function.update_of_ne hvw]
          exact hnone v
  · intro v hv
    rw [htask]
    rw [hworkers] at hv
    by_cases hvw : v = w
    · subst hvw
      rw [Function.update_self] at hv
      cases hv
    · rw [Function.update_of_ne hvw] at hv
      exact h.failed v hv

/-- The last worker finalizes a task; if the finalization throws, it has the exception. -/
theorem of_finalizes (h : Sound s id) {p : WorkerPoint Exception}
    (hfrom : s.workers w = .deRegistering id)
    (hlast : (s.tasks id).numThreadsFinished + 1 = (s.tasks id).numThreadsRegistered)
    (hp : (s.tasks id).finalizeThrows = none ∧ p = .idle ∨
      ∃ e, (s.tasks id).finalizeThrows = some e ∧ p = .caught id e)
    (htask : s'.tasks id =
      { s.tasks id with
          numThreadsFinished := (s.tasks id).numThreadsFinished + 1
          numFinalizations := (s.tasks id).numFinalizations + 1 })
    (hworkers : s'.workers = Function.update s.workers w p) : Sound s' id := by
  have hnot := (h.not_finalized (Or.inr hfrom)).1
  have hon : (s.workers w).taskOf = some id := by rw [hfrom]; rfl
  have hthrown : (s.tasks id).numThrown = 0 := by
    rw [Task.numThrown, hnot]
    split_ifs <;> rfl
  have hold := h.count
  rw [hthrown] at hold
  -- The worker is the only one that has not left the task.
  have honly : ∀ v, v ≠ w → (s.workers v).taskOf ≠ some id := fun v hvw hv ↦
    hvw (eq_of_numThreadsOn_le_one (by omega) hv hon)
  have hcount := numThreadsOn_update hworkers id
  rw [if_pos hon] at hcount
  have hothers : ∀ v, v ≠ w → s'.workers v = s.workers v := fun v hvw ↦ by
    rw [hworkers, Function.update_of_ne hvw]
  have hself : s'.workers w = p := by rw [hworkers, Function.update_self]
  refine ⟨?_, Or.inr ⟨?_, ?_, ?_, fun v ↦ ?_⟩, fun v hv ↦ ?_⟩
  · rcases hp with ⟨hnone, rfl⟩ | ⟨e, hsome, rfl⟩
    · have hnew : (s'.tasks id).numThrown = 0 := by
        rw [Task.numThrown, htask]
        simp [hnone]
      rw [if_neg (by simp [WorkerPoint.taskOf])] at hcount
      rw [hnew, htask]
      simp only
      omega
    · have hnew : (s'.tasks id).numThrown = 1 := by
        rw [Task.numThrown, htask]
        simp [hsome, hnot]
      rw [if_pos (by rfl)] at hcount
      rw [hnew, htask]
      simp only
      omega
  · rw [htask, hnot]
  · rw [htask]
    simp only
    omega
  · rw [htask]
    simp only
    omega
  · by_cases hvw : v = w
    · subst hvw
      rw [hself]
      rcases hp with ⟨-, rfl⟩ | ⟨e, -, rfl⟩
      · exact ⟨by simp, by simp⟩
      · exact ⟨by simp, by simp⟩
    · rw [hothers v hvw]
      have hv := honly v hvw
      constructor
      · intro heq
        exact hv (by rw [heq]; rfl)
      · intro heq
        exact hv (by rw [heq]; rfl)
  · by_cases hvw : v = w
    · subst hvw
      rw [hself] at hv
      rcases hp with ⟨-, rfl⟩ | ⟨e, -, rfl⟩
      · cases hv
      · cases hv
    · rw [hothers v hvw] at hv
      exact absurd (by rw [hv]; rfl) (honly v hvw)

theorem of_setsException (h : Sound s id) {e : Exception} (hfrom : s.workers w = .caught id e)
    (htask : s'.tasks id = (s.tasks id).setException e)
    (hworkers : s'.workers = Function.update s.workers w (.deRegisteringFailed id)) :
    Sound s' id := by
  have hcount := numThreadsOn_update hworkers id
  rw [hfrom, if_pos (by rfl), if_pos (by rfl)] at hcount
  have hexception : (s'.tasks id).exceptionsPtr ≠ none := by
    rw [htask, Task.setException]
    split_ifs with hnone
    · simp
    · simpa using hnone
  have hset : s'.tasks id = { s.tasks id with exceptionsPtr := (s'.tasks id).exceptionsPtr } := by
    rw [htask, Task.setException]
    split_ifs <;> rfl
  refine ⟨?_, ?_, ?_⟩
  · have hthrown : (s'.tasks id).numThrown = (s.tasks id).numThrown := by rw [hset]; rfl
    rw [Nat.add_right_cancel hcount, hthrown, hset]
    exact h.count
  · rcases h.finalized with ⟨hzero, -⟩ | ⟨hone, hpos, hle, hnone⟩
    · refine Or.inl ⟨by rw [hset]; exact hzero, ?_⟩
      rw [← Bool.not_eq_true, Task.isCompletedSuccessfully_eq_true_iff]
      exact fun hsuccess ↦ hexception hsuccess.2.2
    · refine Or.inr ⟨by rw [hset]; exact hone, by rw [hset]; exact hpos, by rw [hset]; exact hle,
        fun v ↦ ?_⟩
      rw [hworkers]
      by_cases hvw : v = w
      · subst hvw
        rw [Function.update_self]
        exact ⟨by simp, by simp⟩
      · rw [Function.update_of_ne hvw]
        exact hnone v
  · exact fun _ _ ↦ hexception

omit [DecidableEq Worker] in
/-- A task that has just been created is sound, since no worker knows it. -/
theorem of_created {task : NewTask Exception} (hnone : ∀ w, (s.workers w).taskOf ≠ some id)
    (htask : s'.tasks id = { toNewTask := task }) (hworkers : s'.workers = s.workers) :
    Sound s' id := by
  have hon : numThreadsOn s' id = 0 := numThreadsOn_eq_zero_iff.mpr (by rwa [hworkers])
  refine ⟨?_, Or.inl ⟨by rw [htask], by rw [htask]; rfl⟩, fun w hw ↦ ?_⟩
  · rw [hon, Task.numThrown, htask]
    simp
  · rw [hworkers] at hw
    exact absurd (by rw [hw]; rfl) (hnone w)

theorem of_taskStep (h : Sound s id) (hscheduled : Scheduled s) (hstep : TaskStep s s' id) :
    Sound s' id := by
  cases hstep with
  | unchanged htask hworkers =>
      refine ⟨?_, ?_, ?_⟩
      · rw [htask, numThreadsOn, hworkers]
        exact h.count
      · rw [htask, hworkers]
        exact h.finalized
      · rw [htask, hworkers]
        exact h.failed
  | elsewhere w p htask hworkers hfrom hto =>
      refine h.of_move htask hworkers (by simp [hfrom, hto]) ?_ ?_
      · rintro (rfl | rfl)
        · exact absurd rfl hto
        · exact absurd rfl hto
      · rintro rfl
        exact absurd rfl hto
  | created task hid htask hworkers =>
      refine of_created (fun w hw ↦ ?_) htask hworkers
      have hlt := hscheduled.lt_of_taskOf w id hw
      rw [hid] at hlt
      exact lt_irrefl _ hlt
  | registers w hmem hfrom hexception hfinished htask hworkers =>
      exact h.of_registers hfrom hfinished htask hworkers
  | ends w p hfrom hto htask hworkers =>
      refine h.of_move htask hworkers ?_ (fun _ ↦ h.not_finalized (Or.inl hfrom)) ?_
      · rcases hto with rfl | ⟨e, rfl⟩
        · simp [hfrom, WorkerPoint.taskOf]
        · simp [hfrom, WorkerPoint.taskOf]
      · rcases hto with rfl | ⟨e, rfl⟩
        · intro hp
          cases hp
        · intro hp
          cases hp
  | deRegisters w hfrom hthrown htask hworkers =>
      rcases (s.tasks id).deRegister_cases with ⟨-, hlast, heq⟩ | ⟨hsuccess, heq⟩
      · rw [heq] at hthrown htask
        exact h.of_finalizes hfrom hlast (Or.inl ⟨hthrown, rfl⟩) htask hworkers
      · rw [heq] at htask
        exact h.of_leaves (by rw [hfrom]; rfl) hsuccess htask hworkers
  | finalizeThrows w e hfrom hthrown htask hworkers =>
      rcases (s.tasks id).deRegister_cases with ⟨-, hlast, heq⟩ | ⟨-, heq⟩
      · rw [heq] at hthrown htask
        exact h.of_finalizes hfrom hlast (Or.inr ⟨e, hthrown, rfl⟩) htask hworkers
      · rw [heq] at hthrown
        cases hthrown
  | setsException w e hfrom htask hworkers => exact h.of_setsException hfrom htask hworkers
  | leaves w hfrom htask hworkers =>
      rcases (s.tasks id).deRegister_cases with ⟨hnone, -, -⟩ | ⟨hsuccess, heq⟩
      · exact absurd hnone (h.failed w hfrom)
      · rw [heq] at htask
        exact h.of_leaves (by rw [hfrom]; rfl) hsuccess htask hworkers

end Sound

/-! ## Runs -/

variable [DecidableEq User]

theorem sound_of_run {actions : List (Action Worker User Exception)}
    (hrun : run step initial actions = some s) : Scheduled s ∧ ∀ id, Sound s id := by
  apply @run_invariant _ _ step initial s actions (fun s ↦ Scheduled s ∧ ∀ id, Sound s id)
    (fun s a s' hinv hstep ↦ ⟨hinv.1.of_step hstep, fun id ↦
      (hinv.2 id).of_taskStep hinv.1 (taskStep_of_step hstep id)⟩) _ hrun
  refine ⟨⟨?_, ?_⟩, fun id ↦ ⟨?_, ?_, ?_⟩⟩
  · simp [initial]
  · simp [initial, WorkerPoint.taskOf]
  · simp [initial, numThreadsOn, WorkerPoint.taskOf, Task.numThrown]
  · exact Or.inl ⟨rfl, rfl⟩
  · simp [initial]

/-- What the scheduler promises of a task. -/
structure CompletesOnce (s : State Worker User Exception) (id : ℕ) : Prop where
  finalized_once : (s.tasks id).numFinalizations ≤ 1
  finalized_last : (s.tasks id).numFinalizations = 1 → numThreadsOn s id = 0 ∧
    (s.tasks id).numThreadsFinished = (s.tasks id).numThreadsRegistered
  finished_le : (s.tasks id).numThreadsFinished ≤ (s.tasks id).numThreadsRegistered
  registered_le : 0 < (s.tasks id).numThreadsFinished →
    ∀ a s', step s a = some s' →
      (s'.tasks id).numThreadsRegistered ≤ (s.tasks id).numThreadsRegistered
  completed : 0 < (s.tasks id).numThreadsRegistered → numThreadsOn s id = 0 →
    (s.tasks id).isCompleted = true ∧ ∀ (u : User) (rest : List (NewTask Exception)),
      s.users u = .waiting id rest →
        step s (.advanceUser u) = some (s.userTo u (.completed id rest))

omit [Fintype Worker] [DecidableEq User] in
/-- No worker registers with a task that another one has left. -/
theorem TaskStep.registered_le (h : TaskStep s s' id)
    (hfinished : 0 < (s.tasks id).numThreadsFinished) :
    (s'.tasks id).numThreadsRegistered ≤ (s.tasks id).numThreadsRegistered := by
  have hleave : (s.tasks id).deRegisterThreadAndFinalizeTaskIfNecessary.1.numThreadsRegistered =
      (s.tasks id).numThreadsRegistered := by
    rcases (s.tasks id).deRegister_cases with ⟨-, -, heq⟩ | ⟨-, heq⟩
    · rw [heq]
    · rw [heq]
  cases h with
  | unchanged htask hworkers => rw [htask]
  | elsewhere w p htask hworkers hfrom hto => rw [htask]
  | created task hid htask hworkers =>
      rw [htask]
      exact Nat.zero_le _
  | registers w hmem hfrom hexception hzero htask hworkers =>
      rw [hzero] at hfinished
      exact absurd hfinished (lt_irrefl 0)
  | ends w p hfrom hto htask hworkers => rw [htask]
  | deRegisters w hfrom hthrown htask hworkers => rw [htask, hleave]
  | finalizeThrows w e hfrom hthrown htask hworkers => rw [htask, hleave]
  | setsException w e hfrom htask hworkers =>
      rw [htask, Task.setException]
      split_ifs <;> rfl
  | leaves w hfrom htask hworkers => rw [htask, hleave]

/-- The promise is kept for a task if and only if its finalization has not thrown. -/
theorem completesOnce_iff {actions : List (Action Worker User Exception)}
    (hrun : run step initial actions = some s) (id : ℕ) :
    CompletesOnce s id ↔
      (s.tasks id).finalizeThrows = none ∨ (s.tasks id).numFinalizations = 0 := by
  have h := (sound_of_run hrun).2 id
  have hcount := h.count
  constructor
  · intro hpromise
    by_contra hthrows
    rw [not_or] at hthrows
    have hone : (s.tasks id).numFinalizations = 1 := by
      have honce := hpromise.finalized_once
      omega
    have hthrown : (s.tasks id).numThrown = 1 := by
      rw [Task.numThrown, hone, if_pos (Option.isSome_iff_ne_none.mpr hthrows.1)]
    obtain ⟨hnone, heq⟩ := hpromise.finalized_last hone
    omega
  · intro hcond
    have hthrown : (s.tasks id).numThrown = 0 := by
      rw [Task.numThrown]
      rcases hcond with hnone | hzero
      · rw [hnone]
        rfl
      · rw [hzero]
        split_ifs <;> rfl
    refine ⟨?_, ?_, ?_, ?_, ?_⟩
    · rcases h.finalized with ⟨hzero, -⟩ | ⟨hone, -⟩
      · omega
      · exact hone.le
    · intro hone
      rcases h.finalized with ⟨hzero, -⟩ | ⟨-, -, hle, -⟩
      · omega
      · omega
    · omega
    · exact fun hfinished a s' hstep ↦ (taskStep_of_step hstep id).registered_le hfinished
    · intro hpos hnone
      have hcompleted : (s.tasks id).isCompleted = true := by
        rw [Task.isCompleted, Bool.and_eq_true, decide_eq_true_iff, decide_eq_true_iff]
        omega
      refine ⟨hcompleted, fun u rest hwaiting ↦ ?_⟩
      simp only [step, advanceUser, hwaiting, hcompleted, if_true]

end Workers

/-! ## Runs of one worker -/

/-- The only worker, and the only user. -/
abbrev lone : Fin 1 := 0

/-- A worker takes the only task, runs it and leaves it. -/
def oneWorkerRuns (finalizeThrows : Option ℕ) : List (Action (Fin 1) (Fin 1) ℕ) :=
  [.call 0 (.scheduleTaskAndWaitOrError
      { maxNumThreads := 2, finalizeThrows := finalizeThrows } []),
    .advanceUser 0, .advanceWorker 0, .advanceWorker 0, .endRun 0 none, .advanceWorker 0]

theorem completesOnce_oneWorkerRuns :
    ∃ s, run step initial (oneWorkerRuns none) = some s ∧ CompletesOnce s 0 := by
  obtain ⟨s, hrun⟩ : ∃ s, run step initial (oneWorkerRuns none) = some s :=
    Option.isSome_iff_exists.mp (by decide +kernel)
  have hthrows : (run step initial (oneWorkerRuns none)).map (fun s ↦ (s.tasks 0).finalizeThrows) =
      some none := by
    decide +kernel
  rw [hrun, Option.map_some, Option.some.injEq] at hthrows
  exact ⟨s, hrun, (completesOnce_iff hrun 0).mpr (Or.inl hthrows)⟩

/-- The worker whose finalization throws leaves the task once more: it is never completed, and the
user waits for ever. -/
theorem not_completesOnce_oneWorkerRuns :
    ∃ s, run step initial (oneWorkerRuns (some 7) ++ [.advanceWorker 0, .advanceWorker 0]) =
      some s ∧
      s.workers 0 = .idle ∧ s.users 0 = .waiting 0 [] ∧
      (s.tasks 0).numThreadsRegistered = 1 ∧ (s.tasks 0).numThreadsFinished = 2 ∧
      ¬CompletesOnce s 0 := by
  obtain ⟨s, hrun⟩ : ∃ s, run step initial
      (oneWorkerRuns (some 7) ++ [.advanceWorker 0, .advanceWorker 0]) = some s :=
    Option.isSome_iff_exists.mp (by decide +kernel)
  have hend : (run step initial
      (oneWorkerRuns (some 7) ++ [.advanceWorker 0, .advanceWorker 0])).map (fun s ↦
        (s.workers 0, s.users 0, (s.tasks 0).numThreadsRegistered,
          (s.tasks 0).numThreadsFinished)) =
      some (.idle, .waiting 0 [], 1, 2) := by
    decide +kernel
  rw [hrun, Option.map_some, Option.some.injEq] at hend
  simp only [Prod.mk.injEq] at hend
  obtain ⟨hidle, hwaiting, hregistered, hfinished⟩ := hend
  refine ⟨s, hrun, hidle, hwaiting, hregistered, hfinished, fun hpromise ↦ ?_⟩
  have hle := hpromise.finished_le
  omega

end Graphflow.TaskSystem
