import Graphflow.TaskSystem.Completion

/-!
# Batches of tasks

A user schedules some tasks and waits for all of them.  What it throws then is the exception of a
task of the queue, which is the only one that it removes.
-/

namespace Graphflow.TaskSystem

open Lib

variable {Worker User Exception : Type*} [DecidableEq Worker] [DecidableEq User]
  {s s' : State Worker User Exception} {id : ℕ} {u v : User} {a : Action Worker User Exception}

/-! ## What stays -/

omit [DecidableEq User] in
theorem TaskStep.finalizeThrows_eq (h : TaskStep s s' id) (hid : id ≠ s.nextScheduledTaskID) :
    (s'.tasks id).finalizeThrows = (s.tasks id).finalizeThrows := by
  have hleave : (s.tasks id).deRegisterThreadAndFinalizeTaskIfNecessary.1.finalizeThrows =
      (s.tasks id).finalizeThrows := by
    rcases (s.tasks id).deRegister_cases with ⟨-, -, heq⟩ | ⟨-, heq⟩
    · rw [heq]
    · rw [heq]
  cases h with
  | created task hnew htask hworkers => exact absurd hnew hid
  | registers w hmem hfrom hexception hzero htask hworkers => rw [htask]
  | deRegisters w hfrom hthrown htask hworkers => rw [htask, hleave]
  | finalizeThrows w e hfrom hthrown htask hworkers => rw [htask, hleave]
  | setsException w e hfrom htask hworkers =>
      rw [htask, Task.setException]
      split_ifs <;> rfl
  | leaves w hfrom htask hworkers => rw [htask, hleave]
  | unchanged htask _ | elsewhere _ _ htask _ _ _ | ends _ _ _ _ htask _ => rw [htask]

omit [DecidableEq User] in
/-- A task keeps its first exception. -/
theorem TaskStep.exceptionsPtr_eq {e : Exception} (h : TaskStep s s' id)
    (hid : id ≠ s.nextScheduledTaskID) (hexception : (s.tasks id).exceptionsPtr = some e) :
    (s'.tasks id).exceptionsPtr = some e := by
  have hleave : (s.tasks id).deRegisterThreadAndFinalizeTaskIfNecessary.1.exceptionsPtr =
      (s.tasks id).exceptionsPtr := by
    rcases (s.tasks id).deRegister_cases with ⟨-, -, heq⟩ | ⟨-, heq⟩
    · rw [heq]
    · rw [heq]
  rw [← hexception]
  cases h with
  | created task hnew htask hworkers => exact absurd hnew hid
  | registers w hmem hfrom hnone hzero htask hworkers => rw [htask]
  | deRegisters w hfrom hthrown htask hworkers => rw [htask, hleave]
  | finalizeThrows w e hfrom hthrown htask hworkers => rw [htask, hleave]
  | setsException w e hfrom htask hworkers =>
      rw [htask, Task.setException, if_neg (by simp [hexception])]
  | leaves w hfrom htask hworkers => rw [htask, hleave]
  | unchanged htask _ | elsewhere _ _ htask _ _ _ | ends _ _ _ _ htask _ => rw [htask]

section Workers

variable [Fintype Worker]

omit [DecidableEq Worker] [DecidableEq User] in
/-- No worker is on a task that is completed, unless its finalization throws. -/
theorem Sound.taskOf_ne (h : Sound s id) (hthrows : (s.tasks id).finalizeThrows = none)
    (hcompleted : (s.tasks id).isCompletedSuccessfully = true) (w : Worker) :
    (s.workers w).taskOf ≠ some id := by
  refine numThreadsOn_eq_zero_iff.mp ?_ w
  have hcount := h.count
  rw [Task.numThrown, hthrows, if_neg (by simp)] at hcount
  have hfinished := (Task.isCompletedSuccessfully_eq_true_iff.mp hcompleted).2.1
  omega

omit [DecidableEq User] in
theorem Sound.isCompletedSuccessfully_eq (h : Sound s id) (hstep : TaskStep s s' id)
    (hid : id ≠ s.nextScheduledTaskID) (hthrows : (s.tasks id).finalizeThrows = none)
    (hcompleted : (s.tasks id).isCompletedSuccessfully = true) :
    (s'.tasks id).isCompletedSuccessfully = true := by
  have hnone := h.taskOf_ne hthrows hcompleted
  cases hstep with
  | unchanged htask hworkers => rwa [htask]
  | elsewhere w p htask hworkers hfrom hto => rwa [htask]
  | created task hnew htask hworkers => exact absurd hnew hid
  | registers w hmem hfrom hexception hzero htask hworkers =>
      obtain ⟨hpos, heq, -⟩ := Task.isCompletedSuccessfully_eq_true_iff.mp hcompleted
      omega
  | ends w p hfrom hto htask hworkers => exact absurd (by rw [hfrom]; rfl) (hnone w)
  | deRegisters w hfrom hthrown htask hworkers => exact absurd (by rw [hfrom]; rfl) (hnone w)
  | finalizeThrows w e hfrom hthrown htask hworkers => exact absurd (by rw [hfrom]; rfl) (hnone w)
  | setsException w e hfrom htask hworkers => exact absurd (by rw [hfrom]; rfl) (hnone w)
  | leaves w hfrom htask hworkers => exact absurd (by rw [hfrom]; rfl) (hnone w)

/-! ## The batch of a user -/

/-- The task of a batch for which its user is still waiting: no other user removes it. -/
structure Held (s : State Worker User Exception) (id : ℕ) : Prop where
  lt : id < s.nextScheduledTaskID
  taskOf_ne : ∀ v, (s.users v).taskOf ≠ some id
  finalizeThrows_eq : (s.tasks id).finalizeThrows = none
  queued : id ∈ s.taskQueue ∨ (s.tasks id).isCompletedSuccessfully = true

/-- The task of a batch that its user has waited for. -/
structure Done (s : State Worker User Exception) (id : ℕ) : Prop where
  lt : id < s.nextScheduledTaskID
  finalizeThrows_eq : (s.tasks id).finalizeThrows = none
  not_mem : id ∉ s.taskQueue
  completed : (s.tasks id).isCompletedSuccessfully = true

omit [Fintype Worker] in
theorem not_mem_taskQueue_of_step (hstep : step s a = some s') (hlt : id < s.nextScheduledTaskID)
    (hnot : id ∉ s.taskQueue) : id < s'.nextScheduledTaskID ∧ id ∉ s'.taskQueue := by
  obtain ⟨hnext, hqueue⟩ := taskQueue_of_step hstep
  refine ⟨lt_of_lt_of_le hlt hnext, fun hmem ↦ ?_⟩
  rcases hqueue id hmem with hold | ⟨heq, -⟩
  · exact hnot hold
  · exact hlt.ne heq

theorem Done.of_step (h : Done s id) (hsound : Sound s id) (hstep : step s a = some s') :
    Done s' id := by
  have htask := taskStep_of_step hstep id
  obtain ⟨hlt, hnot⟩ := not_mem_taskQueue_of_step hstep h.lt h.not_mem
  exact ⟨hlt, (htask.finalizeThrows_eq h.lt.ne).trans h.finalizeThrows_eq, hnot,
    hsound.isCompletedSuccessfully_eq htask h.lt.ne h.finalizeThrows_eq h.completed⟩

theorem Held.of_step (h : Held s id) (hsound : Sound s id) (hstep : step s a = some s')
    (husers : ∀ v, (s'.users v).taskOf ≠ some id)
    (hqueue : id ∈ s.taskQueue → id ∈ s'.taskQueue ∨ (s.tasks id).isCompletedSuccessfully = true) :
    Held s' id := by
  have htask := taskStep_of_step hstep id
  refine ⟨lt_of_lt_of_le h.lt (taskQueue_of_step hstep).1, husers,
    (htask.finalizeThrows_eq h.lt.ne).trans h.finalizeThrows_eq, ?_⟩
  rcases h.queued with hmem | hcompleted
  · rcases hqueue hmem with hmem' | hcompleted
    · exact Or.inl hmem'
    · exact Or.inr (hsound.isCompletedSuccessfully_eq htask h.lt.ne h.finalizeThrows_eq hcompleted)
  · exact Or.inr (hsound.isCompletedSuccessfully_eq htask h.lt.ne h.finalizeThrows_eq hcompleted)

/-- The user `u` alone waits for all tasks. -/
structure Waits (u : User) (s : State Worker User Exception) : Prop where
  nodup : s.taskQueue.Nodup
  task_lt : ∀ v, ∀ id ∈ (s.users v).taskOf, id < s.nextScheduledTaskID
  others : ∀ v, v ≠ u → (s.users v).isWaitingAll = false
  held : ∀ batch ∈ (s.users u).batchOf, ∀ id ∈ batch, Held s id
  returned : ∀ batch, s.users u = .finishedAll batch none → ∀ id ∈ batch, Done s id
  thrown : ∀ batch e, s.users u = .finishedAll batch (some e) →
    ∃ id, id < s.nextScheduledTaskID ∧ id ∉ s.taskQueue ∧ (s.tasks id).exceptionsPtr = some e

/-- Only the user `u` waits for all tasks, and what it schedules for that has no finalization that
throws. -/
def Copies (u : User) (_ : State Worker User Exception) : Action Worker User Exception → Prop
  | .call v .waitAllTasksToCompleteOrError => v = u
  | .call v (.scheduleTask task) => v = u → task.finalizeThrows = none
  | _ => True

namespace Waits

/-- A step that leaves the users as they are. -/
theorem of_users_eq (h : Waits u s) (hsound : ∀ id, Sound s id) (hstep : step s a = some s')
    (husers : s'.users = s.users) (hnodup : s'.taskQueue.Nodup)
    (hqueue : ∀ id ∈ s.taskQueue,
      id ∈ s'.taskQueue ∨ (s.tasks id).isCompletedSuccessfully = true) : Waits u s' := by
  refine ⟨hnodup, ?_, ?_, ?_, ?_, ?_⟩
  · intro v id hid
    rw [husers] at hid
    exact lt_of_lt_of_le (h.task_lt v id hid) (taskQueue_of_step hstep).1
  · rw [husers]
    exact h.others
  · rw [husers]
    intro batch hbatch id hid
    have hheld := h.held batch hbatch id hid
    exact hheld.of_step (hsound id) hstep (by rw [husers]; exact hheld.taskOf_ne) (hqueue id)
  · rw [husers]
    exact fun batch hbatch id hid ↦ (h.returned batch hbatch id hid).of_step (hsound id) hstep
  · rw [husers]
    intro batch e hbatch
    obtain ⟨id, hlt, hnot, hexception⟩ := h.thrown batch e hbatch
    obtain ⟨hlt', hnot'⟩ := not_mem_taskQueue_of_step hstep hlt hnot
    exact ⟨id, hlt', hnot', (taskStep_of_step hstep id).exceptionsPtr_eq hlt.ne hexception⟩

theorem of_advanceWorker {w : Worker} (h : Waits u s) (hsound : ∀ id, Sound s id)
    (hstep : step s (.advanceWorker w) = some s') : Waits u s' := by
  obtain ⟨husers, -, hqueue⟩ := taskQueue_of_advanceWorker hstep
  rcases hqueue with hsame | ⟨it, id', hget, hcompleted, herase⟩
  · exact h.of_users_eq hsound hstep husers (by rw [hsame]; exact h.nodup)
      fun id hid ↦ Or.inl (by rwa [hsame])
  · refine h.of_users_eq hsound hstep husers (by rw [herase]; exact h.nodup.eraseIdx it)
      fun id hid ↦ ?_
    by_cases heq : id = id'
    · rw [heq]
      exact Or.inr hcompleted
    · obtain ⟨j, hj⟩ := List.mem_iff_getElem?.mp hid
      rw [herase]
      refine Or.inl (List.mem_eraseIdx_iff_getElem?.mpr ⟨j, ?_, hj⟩)
      rintro rfl
      exact heq (Option.some.inj (hj.symm.trans hget))

end Waits

/-! ### The steps of users -/

omit [Fintype Worker] [DecidableEq Worker] in
theorem UserStep.users_of_ne {v' : User} (h : UserStep s s' v) (hne : v' ≠ v) :
    s'.users v' = s.users v' := by
  cases h with
  | moves p mtx hs' hnot hbatch htask => rw [hs']; exact Function.update_of_ne hne _ _
  | schedules task batch hfrom hs' => rw [hs']; exact Function.update_of_ne hne _ _
  | returns batch hfrom hempty hs' => rw [hs']; exact Function.update_of_ne hne _ _
  | throws batch it id e hfrom hget hexception hs' => rw [hs']; exact Function.update_of_ne hne _ _
  | starts task rest hfrom hs' => rw [hs']; exact Function.update_of_ne hne _ _
  | removes id hfrom hs' => rw [hs']; exact Function.update_of_ne hne _ _

omit [Fintype Worker] [DecidableEq Worker] in
/-- The task for which a user waits has just been scheduled, or it has waited for it before. -/
theorem UserStep.taskOf_cases (h : UserStep s s' v) {v' : User}
    (htaskOf : (s'.users v').taskOf = some id) :
    (s.users v').taskOf = some id ∨
      id = s.nextScheduledTaskID ∧ s'.nextScheduledTaskID = s.nextScheduledTaskID + 1 := by
  by_cases hne : v' = v
  · subst hne
    cases h with
    | moves p mtx hs' hnot hbatch htask =>
        rw [hs', State.users_userTo_self] at htaskOf
        exact Or.inl (htask id htaskOf)
    | schedules task batch hfrom hs' => simp [hs', UserPoint.taskOf] at htaskOf
    | returns batch hfrom hempty hs' => simp [hs', UserPoint.taskOf] at htaskOf
    | throws batch it id e hfrom hget hexception hs' =>
        simp [hs', UserPoint.taskOf] at htaskOf
    | starts task rest hfrom hs' =>
        rw [hs', State.users_userTo_self, UserPoint.taskOf, Option.some.injEq] at htaskOf
        exact Or.inr ⟨htaskOf.symm, by rw [hs']; rfl⟩
    | removes id hfrom hs' => simp [hs', UserPoint.taskOf] at htaskOf
  · rw [h.users_of_ne hne] at htaskOf
    exact Or.inl htaskOf

omit [Fintype Worker] [DecidableEq Worker] in
/-- A user that waits for one task does not finish waiting for all. -/
theorem UserStep.ne_finishedAll (h : UserStep s s' v) (hnot : (s.users v).isWaitingAll = false)
    (batch : List ℕ) (thrown : Option Exception) : s'.users v ≠ .finishedAll batch thrown := by
  intro heq
  cases h with
  | moves p mtx hs' hfinished hbatch htask =>
      rw [hs', State.users_userTo_self] at heq
      rw [heq] at hfinished
      cases hfinished
  | schedules task batch hfrom hs' => simp [hs'] at heq
  | returns batch hfrom hempty hs' => simp [hfrom, UserPoint.isWaitingAll] at hnot
  | throws batch it id e hfrom hget hexception hs' => simp [hfrom, UserPoint.isWaitingAll] at hnot
  | starts task rest hfrom hs' => simp [hs'] at heq
  | removes id hfrom hs' => simp [hs'] at heq

omit [Fintype Worker] [DecidableEq Worker] in
/-- Users remove other users' tasks only when they throw for all of theirs. -/
theorem UserStep.mem_taskQueue (h : UserStep s s' v) (hmem : id ∈ s.taskQueue)
    (hne : (s.users v).taskOf ≠ some id)
    (hnot : ∀ batch e, s'.users v ≠ .finishedAll batch (some e)) : id ∈ s'.taskQueue := by
  cases h with
  | moves p mtx hs' hfinished hbatch htask => rw [hs']; exact hmem
  | schedules task batch hfrom hs' => rw [hs']; exact List.mem_append_left _ hmem
  | returns batch hfrom hempty hs' => rw [hs']; exact hmem
  | throws batch it id e hfrom hget hexception hs' =>
      exact absurd (by rw [hs', State.users_userTo_self]) (hnot batch e)
  | starts task rest hfrom hs' => rw [hs']; exact List.mem_append_left _ hmem
  | removes id' hfrom hs' =>
      rw [hs']
      refine (List.mem_erase_of_ne ?_).mpr hmem
      rintro rfl
      exact hne (by rw [hfrom]; rfl)

omit [Fintype Worker] [DecidableEq Worker] in
theorem UserStep.nodup_taskQueue (h : UserStep s s' v) (hnodup : s.taskQueue.Nodup)
    (hnew : s.nextScheduledTaskID ∉ s.taskQueue) : s'.taskQueue.Nodup := by
  have henqueue : (s.taskQueue ++ [s.nextScheduledTaskID]).Nodup :=
    hnodup.append (List.nodup_singleton _) (List.disjoint_singleton.mpr hnew)
  cases h with
  | moves p mtx hs' hfinished hbatch htask => rw [hs']; exact hnodup
  | schedules task batch hfrom hs' => rw [hs']; exact henqueue
  | returns batch hfrom hempty hs' => rw [hs']; exact hnodup
  | throws batch it id e hfrom hget hexception hs' => rw [hs']; exact hnodup.eraseIdx it
  | starts task rest hfrom hs' => rw [hs']; exact henqueue
  | removes id' hfrom hs' => rw [hs']; exact hnodup.erase id'

theorem Held.of_userStep (h : Held s id) (hsound : Sound s id) (hstep : step s a = some s')
    (huser : UserStep s s' v) (hnot : ∀ batch e, s'.users v ≠ .finishedAll batch (some e)) :
    Held s' id := by
  refine h.of_step hsound hstep (fun v' htaskOf ↦ ?_)
    fun hmem ↦ Or.inl (huser.mem_taskQueue hmem (h.taskOf_ne v) hnot)
  rcases huser.taskOf_cases htaskOf with hold | ⟨hnew, -⟩
  · exact h.taskOf_ne v' hold
  · exact h.lt.ne hnew

theorem Waits.of_userStep (h : Waits u s) (hscheduled : Scheduled s) (hsound : ∀ id, Sound s id)
    (hstep : step s a = some s') (huser : UserStep s s' v)
    (hothers : v ≠ u → (s'.users v).isWaitingAll = false)
    (hnew : ∀ batch task, v = u → s.users u = .idle batch →
      s' = (s.enqueue task).userTo u (.idle (batch ++ [s.nextScheduledTaskID])) →
      task.finalizeThrows = none) : Waits u s' := by
  have hfresh : s.nextScheduledTaskID ∉ s.taskQueue := fun hmem ↦
    lt_irrefl _ (hscheduled.lt_of_mem _ hmem)
  have hnext := (taskQueue_of_step hstep).1
  refine ⟨huser.nodup_taskQueue h.nodup hfresh, ?_, ?_, ?_, ?_, ?_⟩
  · intro v' id hid
    rcases huser.taskOf_cases hid with hold | ⟨heq, hnext'⟩
    · exact lt_of_lt_of_le (h.task_lt v' id hold) hnext
    · omega
  · intro v' hv'
    by_cases heq : v' = v
    · subst heq
      exact hothers hv'
    · rw [huser.users_of_ne heq]
      exact h.others v' hv'
  · -- The batch of the user is the one that it had, with a task that it has just scheduled.
    intro batch hbatch id hid
    by_cases hvu : v = u
    · subst hvu
      have hheld : ∀ id, Held s id → (∀ batch e, s'.users v ≠ .finishedAll batch (some e)) →
          Held s' id := fun id hid ↦ hid.of_userStep (hsound id) hstep huser
      have hsame : ∀ v', v' ≠ v → s'.users v' = s.users v' := fun v' ↦ huser.users_of_ne
      cases huser with
      | moves p mtx hs' hnot hbatchOf htask =>
          have hp : s'.users v = p := by rw [hs', State.users_userTo_self]
          rw [hp] at hbatch
          rcases hbatchOf batch hbatch with hold | rfl
          · refine hheld id (h.held batch hold id hid) fun batch e heq ↦ ?_
            rw [hp] at heq
            rw [heq] at hnot
            cases hnot
          · cases hid
      | schedules task batch' hfrom hs' =>
          have hp : s'.users v = .idle (batch' ++ [s.nextScheduledTaskID]) := by
            rw [hs', State.users_userTo_self]
          rw [hp] at hbatch
          obtain rfl := Option.some.inj hbatch
          rcases List.mem_append.mp hid with hold | hlast
          · exact hheld id (h.held batch' (by rw [hfrom]; rfl) id hold) fun batch e heq ↦ by
              rw [hp] at heq
              cases heq
          · obtain rfl := List.mem_singleton.mp hlast
            refine ⟨by rw [hs']; exact Nat.lt_succ_self _, fun v' htaskOf ↦ ?_, ?_,
              Or.inl (by rw [hs']; exact List.mem_append_right _ (List.mem_singleton_self _))⟩
            · by_cases hne : v' = v
              · subst hne
                rw [hp] at htaskOf
                cases htaskOf
              · rw [hsame v' hne] at htaskOf
                exact lt_irrefl _ (h.task_lt v' _ htaskOf)
            · have htask : s'.tasks s.nextScheduledTaskID = { toNewTask := task } := by
                rw [hs']
                exact Function.update_self _ _ _
              rw [htask]
              exact hnew batch' task rfl hfrom hs'
      | returns batch' hfrom hempty hs' =>
          rw [hs', State.users_userTo_self] at hbatch
          cases hbatch
      | throws batch' it id' e hfrom hget hexception hs' =>
          rw [hs', State.users_userTo_self] at hbatch
          cases hbatch
      | starts task rest hfrom hs' =>
          rw [hs', State.users_userTo_self] at hbatch
          cases hbatch
      | removes id' hfrom hs' =>
          rw [hs', State.users_userTo_self] at hbatch
          cases hbatch
    · rw [huser.users_of_ne (Ne.symm hvu)] at hbatch
      exact (h.held batch hbatch id hid).of_userStep (hsound id) hstep huser fun batch e ↦
        huser.ne_finishedAll (h.others v hvu) batch (some e)
  · intro batch hbatch id hid
    by_cases hvu : v = u
    · subst hvu
      cases huser with
      | returns batch' hfrom hempty hs' =>
          rw [hs', State.users_userTo_self] at hbatch
          obtain ⟨rfl, -⟩ := UserPoint.finishedAll.inj hbatch
          have hheld := h.held batch' (by rw [hfrom]; rfl) id hid
          have hcompleted : (s.tasks id).isCompletedSuccessfully = true := by
            rcases hheld.queued with hmem | hcompleted
            · rw [hempty] at hmem
              cases hmem
            · exact hcompleted
          rw [hs']
          refine ⟨hheld.lt, hheld.finalizeThrows_eq, ?_, hcompleted⟩
          simp [State.userTo, hempty]
      | moves p mtx hs' hnot hbatchOf htask =>
          rw [hs', State.users_userTo_self] at hbatch
          rw [hbatch] at hnot
          cases hnot
      | schedules task batch' hfrom hs' => simp [hs'] at hbatch
      | throws batch' it id' e hfrom hget hexception hs' => simp [hs'] at hbatch
      | starts task rest hfrom hs' => simp [hs'] at hbatch
      | removes id' hfrom hs' => simp [hs'] at hbatch
    · rw [huser.users_of_ne (Ne.symm hvu)] at hbatch
      exact (h.returned batch hbatch id hid).of_step (hsound id) hstep
  · intro batch e hbatch
    by_cases hvu : v = u
    · subst hvu
      cases huser with
      | throws batch' it id e' hfrom hget hexception hs' =>
          rw [hs', State.users_userTo_self] at hbatch
          obtain ⟨-, he⟩ := UserPoint.finishedAll.inj hbatch
          obtain rfl := Option.some.inj he
          rw [hs']
          refine ⟨id, hscheduled.lt_of_mem id (List.mem_of_getElem? hget),
            fun hmem ↦ ?_, hexception⟩
          obtain ⟨j, hne, hj⟩ := List.mem_eraseIdx_iff_getElem?.mp hmem
          have hlt := (List.getElem?_eq_some_iff.mp hj).1
          exact hne ((List.getElem?_inj hlt h.nodup).mp (hj.trans hget.symm))
      | moves p mtx hs' hnot hbatchOf htask =>
          rw [hs', State.users_userTo_self] at hbatch
          rw [hbatch] at hnot
          cases hnot
      | schedules task batch' hfrom hs' => simp [hs'] at hbatch
      | returns batch' hfrom hempty hs' => simp [hs'] at hbatch
      | starts task rest hfrom hs' => simp [hs'] at hbatch
      | removes id' hfrom hs' => simp [hs'] at hbatch
    · rw [huser.users_of_ne (Ne.symm hvu)] at hbatch
      obtain ⟨id, hlt, hnot, hexception⟩ := h.thrown batch e hbatch
      obtain ⟨hlt', hnot'⟩ := not_mem_taskQueue_of_step hstep hlt hnot
      exact ⟨id, hlt', hnot', (taskStep_of_step hstep id).exceptionsPtr_eq hlt.ne hexception⟩

/-! ### Runs -/

omit [Fintype Worker] [DecidableEq Worker] in
/-- A user begins to wait for all tasks with a call. -/
theorem isWaitingAll_of_call {c : Call Exception} (h : call s v c = some s')
    (hwaiting : (s'.users v).isWaitingAll = true) : c = .waitAllTasksToCompleteOrError := by
  rw [call] at h
  cases hpoint : s.users v with
  | idle batch =>
      simp only [hpoint] at h
      cases c with
      | scheduleTask task =>
          simp only at h
          split_ifs at h
          cases h
          simp [UserPoint.isWaitingAll] at hwaiting
      | waitAllTasksToCompleteOrError => rfl
      | scheduleTaskAndWaitOrError task rest =>
          cases h
          simp [UserPoint.isWaitingAll] at hwaiting
  | _ => simp [hpoint] at h

omit [Fintype Worker] [DecidableEq Worker] in
theorem isWaitingAll_of_advanceUser (h : advanceUser s v = some s')
    (hwaiting : (s'.users v).isWaitingAll = true) : (s.users v).isWaitingAll = true := by
  rw [advanceUser] at h
  cases hpoint : s.users v with
  | waitingAll batch => rfl
  | scanningAll batch it => rfl
  | idle batch => simp [hpoint] at h
  | finishedAll batch thrown =>
      simp only [hpoint] at h
      cases h
      simp [UserPoint.isWaitingAll] at hwaiting
  | scheduling task rest =>
      simp only [hpoint] at h
      split_ifs at h
      cases h
      simp [UserPoint.isWaitingAll] at hwaiting
  | waiting id rest =>
      simp only [hpoint] at h
      split_ifs at h
      · cases h
        simp [UserPoint.isWaitingAll] at hwaiting
      · cases h
        simp [hpoint, UserPoint.isWaitingAll] at hwaiting
  | completed id rest =>
      simp only [hpoint] at h
      split_ifs at h
      · cases h
        simp [UserPoint.isWaitingAll] at hwaiting
      · split at h
        · cases h
          simp [UserPoint.isWaitingAll] at hwaiting
        · cases h
          simp [UserPoint.isWaitingAll] at hwaiting
  | erroring id =>
      simp only [hpoint] at h
      split_ifs at h
      cases h
      simp [UserPoint.isWaitingAll] at hwaiting
  | finished thrown =>
      simp only [hpoint] at h
      cases h
      simp [UserPoint.isWaitingAll] at hwaiting

theorem Waits.of_step (h : Waits u s) (hscheduled : Scheduled s) (hsound : ∀ id, Sound s id)
    (hguard : Copies u s a) (hstep : step s a = some s') : Waits u s' := by
  cases a with
  | advanceWorker w => exact h.of_advanceWorker hsound hstep
  | endRun w thrown =>
      obtain ⟨husers, -, hqueue⟩ := users_of_endRun hstep
      exact h.of_users_eq hsound hstep husers (by rw [hqueue]; exact h.nodup)
        fun id hid ↦ Or.inl (by rwa [hqueue])
  | call v c =>
      refine h.of_userStep hscheduled hsound hstep (userStep_of_call hstep) ?_ ?_
      · intro hvu
        rw [← Bool.not_eq_true]
        intro hwaiting
        rw [isWaitingAll_of_call hstep hwaiting] at hguard
        exact hvu hguard
      · rintro batch task rfl hidle hs'
        cases c with
        | scheduleTask task' =>
            have htask : s'.tasks s.nextScheduledTaskID = { toNewTask := task' } := by
              simp only [step, call, hidle] at hstep
              split_ifs at hstep
              cases hstep
              exact Function.update_self _ _ _
            have htask' : s'.tasks s.nextScheduledTaskID = { toNewTask := task } := by
              rw [hs']
              exact Function.update_self _ _ _
            have heq : task' = task := congrArg Task.toNewTask (htask.symm.trans htask')
            rw [← heq]
            exact hguard rfl
        | waitAllTasksToCompleteOrError =>
            simp only [step, call, hidle, Option.some.injEq] at hstep
            have hpoint := congrArg (fun s ↦ s.users v) (hstep.trans hs')
            simp at hpoint
        | scheduleTaskAndWaitOrError task' rest =>
            simp only [step, call, hidle, Option.some.injEq] at hstep
            have hpoint := congrArg (fun s ↦ s.users v) (hstep.trans hs')
            simp at hpoint
  | advanceUser v =>
      refine h.of_userStep hscheduled hsound hstep (userStep_of_advanceUser hstep) ?_ ?_
      · intro hvu
        rw [← Bool.not_eq_true]
        intro hwaiting
        have hold := isWaitingAll_of_advanceUser hstep hwaiting
        rw [h.others v hvu] at hold
        cases hold
      · rintro batch task rfl hidle hs'
        simp [step, advanceUser, hidle] at hstep

theorem waits_of_run {actions : List (Action Worker User Exception)}
    (hrun : run step initial actions = some s)
    (hmeets : MeetsAlong step (Copies u) initial actions) :
    Waits u s := by
  have h := @run_invariant_of_meets _ _ step initial s actions
    (fun s ↦ (Scheduled s ∧ ∀ id, Sound s id) ∧ Waits u s) (Copies u)
    (fun s a s' hinv hguard hstep ↦
      ⟨⟨hinv.1.1.of_step hstep, fun id ↦
        (hinv.1.2 id).of_taskStep hinv.1.1 (taskStep_of_step hstep id)⟩,
        hinv.2.of_step hinv.1.1 hinv.1.2 hguard hstep⟩) ?_ hmeets hrun
  · exact h.2
  · refine ⟨@sound_of_run Worker User Exception _ initial _ _ [] rfl, ?_, ?_, ?_, ?_, ?_, ?_⟩
    · exact List.nodup_nil
    · simp [initial, UserPoint.taskOf]
    · simp [initial, UserPoint.isWaitingAll]
    · simp [initial, UserPoint.batchOf]
    · simp [initial]
    · simp [initial]

end Workers

/-! ### A user alone -/

/-- Only the user `u` schedules tasks, and it does not go on when it has thrown. -/
def Alone (u : User) (s : State Worker User Exception) : Action Worker User Exception → Prop
  | .call _ (.scheduleTaskAndWaitOrError _ _) => False
  | .call v _ => v = u
  | .advanceUser v => ∀ batch e, s.users v ≠ .finishedAll batch (some e)
  | _ => True

/-- The queue has tasks of the batch only. -/
def OwnTasks (s : State Worker User Exception) : UserPoint Exception → Prop
  | .idle batch | .waitingAll batch | .scanningAll batch _ => s.taskQueue ⊆ batch
  | .finishedAll batch (some e) => ∃ id ∈ batch, id < s.nextScheduledTaskID ∧ id ∉ s.taskQueue ∧
      (s.tasks id).exceptionsPtr = some e
  | .finishedAll _ none => s.taskQueue = []
  | _ => False

structure Owns (u : User) (s : State Worker User Exception) : Prop where
  nodup : s.taskQueue.Nodup
  others : ∀ v, v ≠ u → ∃ batch, s.users v = .idle batch
  own : OwnTasks s (s.users u)

theorem OwnTasks.of_subset {p : UserPoint Exception} (h : OwnTasks s p) (hstep : step s a = some s')
    (hsubset : s'.taskQueue ⊆ s.taskQueue) : OwnTasks s' p := by
  cases p with
  | idle batch => exact List.Subset.trans hsubset h
  | waitingAll batch => exact List.Subset.trans hsubset h
  | scanningAll batch it => exact List.Subset.trans hsubset h
  | finishedAll batch thrown =>
      cases thrown with
      | none =>
          have hempty : s.taskQueue = [] := h
          rw [hempty] at hsubset
          exact List.subset_nil.mp hsubset
      | some e =>
          obtain ⟨id, hid, hlt, hnot, hexception⟩ := h
          obtain ⟨hlt', hnot'⟩ := not_mem_taskQueue_of_step hstep hlt hnot
          exact ⟨id, hid, hlt', hnot',
            (taskStep_of_step hstep id).exceptionsPtr_eq hlt.ne hexception⟩
  | _ => exact h.elim

theorem Owns.of_users_eq (h : Owns u s) (hstep : step s a = some s') (husers : s'.users = s.users)
    (hsubset : s'.taskQueue.Sublist s.taskQueue) : Owns u s' := by
  refine ⟨h.nodup.sublist hsubset, ?_, ?_⟩
  · rw [husers]
    exact h.others
  · rw [husers]
    exact h.own.of_subset hstep hsubset.subset

theorem Owns.of_call {c : Call Exception} (h : Owns u s) (hscheduled : Scheduled s)
    (hguard : Alone u s (.call v c)) (hstep : step s (.call v c) = some s') : Owns u s' := by
  have hothers : ∀ p, (s'.users = Function.update s.users u p) → ∀ v, v ≠ u →
      ∃ batch, s'.users v = .idle batch := by
    intro p husers v hv
    rw [husers, Function.update_of_ne hv]
    exact h.others v hv
  have hfresh : s.nextScheduledTaskID ∉ s.taskQueue := fun hmem ↦
    lt_irrefl _ (hscheduled.lt_of_mem _ hmem)
  have hown := h.own
  cases c with
  | scheduleTaskAndWaitOrError task rest => exact hguard.elim
  | scheduleTask task =>
      obtain rfl : v = u := hguard
      rw [step, call] at hstep
      cases hpoint : s.users v with
      | idle batch =>
          simp only [hpoint] at hstep
          split_ifs at hstep
          cases hstep
          rw [hpoint] at hown
          refine ⟨h.nodup.append (List.nodup_singleton _) (List.disjoint_singleton.mpr hfresh),
            hothers _ rfl, ?_⟩
          rw [State.users_userTo_self]
          exact List.append_subset.mpr ⟨List.subset_append_of_subset_left _ hown,
            List.subset_append_right _ _⟩
      | _ => simp [hpoint] at hstep
  | waitAllTasksToCompleteOrError =>
      obtain rfl : v = u := hguard
      rw [step, call] at hstep
      cases hpoint : s.users v with
      | idle batch =>
          simp only [hpoint] at hstep
          cases hstep
          rw [hpoint] at hown
          refine ⟨h.nodup, hothers _ rfl, ?_⟩
          rw [State.users_userTo_self]
          exact hown
      | _ => simp [hpoint] at hstep

theorem Owns.of_advanceUser (h : Owns u s) (hscheduled : Scheduled s)
    (hguard : Alone u s (.advanceUser v)) (hstep : step s (.advanceUser v) = some s') :
    Owns u s' := by
  have hothers : ∀ p, (s'.users = Function.update s.users u p) → ∀ v, v ≠ u →
      ∃ batch, s'.users v = .idle batch := by
    intro p husers v hv
    rw [husers, Function.update_of_ne hv]
    exact h.others v hv
  have hown := h.own
  by_cases hvu : v = u
  · subst hvu
    rw [step, advanceUser] at hstep
    cases hpoint : s.users v with
    | idle batch => simp [hpoint] at hstep
    | waitingAll batch =>
        simp only [hpoint] at hstep
        rw [hpoint] at hown
        split_ifs at hstep with hlocked hempty
        · cases hstep
          refine ⟨h.nodup, hothers _ rfl, ?_⟩
          rw [State.users_userTo_self]
          exact List.isEmpty_iff.mp hempty
        · cases hstep
          refine ⟨h.nodup, hothers _ rfl, ?_⟩
          rw [State.users_userTo_self]
          exact hown
    | scanningAll batch it =>
        simp only [hpoint] at hstep
        rw [hpoint] at hown
        cases hget : s.taskQueue[it]? with
        | none =>
            simp only [hget] at hstep
            cases hstep
            refine ⟨h.nodup, hothers _ rfl, ?_⟩
            rw [State.users_userTo_self]
            exact hown
        | some id =>
            simp only [hget] at hstep
            have hmem := List.mem_of_getElem? hget
            cases hexception : (s.tasks id).exceptionsPtr with
            | none =>
                simp only [hexception] at hstep
                cases hstep
                refine ⟨h.nodup, hothers _ rfl, ?_⟩
                rw [State.users_userTo_self]
                exact hown
            | some e =>
                simp only [hexception] at hstep
                cases hstep
                refine ⟨h.nodup.eraseIdx it, hothers _ rfl, ?_⟩
                rw [State.users_userTo_self]
                refine ⟨id, hown hmem, hscheduled.lt_of_mem id hmem, fun hmem' ↦ ?_, hexception⟩
                obtain ⟨j, hne, hj⟩ := List.mem_eraseIdx_iff_getElem?.mp hmem'
                have hlt := (List.getElem?_eq_some_iff.mp hj).1
                exact hne ((List.getElem?_inj hlt h.nodup).mp (hj.trans hget.symm))
    | finishedAll batch thrown =>
        simp only [hpoint] at hstep
        rw [hpoint] at hown
        cases thrown with
        | none =>
            cases hstep
            have hempty : s.taskQueue = [] := hown
            refine ⟨h.nodup, hothers _ rfl, ?_⟩
            rw [State.users_userTo_self]
            exact List.subset_nil.mpr hempty
        | some e => exact absurd hpoint (hguard batch e)
    | _ =>
        rw [hpoint] at hown
        exact hown.elim
  · obtain ⟨batch, hidle⟩ := h.others v hvu
    simp [step, advanceUser, hidle] at hstep

theorem owns_of_run {actions : List (Action Worker User Exception)}
    (hrun : run step initial actions = some s)
    (hmeets : MeetsAlong step (Alone u) initial actions) :
    Owns u s := by
  have h := @run_invariant_of_meets _ _ step initial s actions (fun s ↦ Scheduled s ∧ Owns u s)
    (Alone u) (fun s a s' hinv hguard hstep ↦ ?_) ?_ hmeets hrun
  · exact h.2
  · refine ⟨hinv.1.of_step hstep, ?_⟩
    cases a with
    | advanceWorker w =>
        obtain ⟨husers, -, hqueue⟩ := taskQueue_of_advanceWorker hstep
        refine hinv.2.of_users_eq hstep husers ?_
        rcases hqueue with hsame | ⟨it, id, -, -, herase⟩
        · rw [hsame]
        · rw [herase]
          exact List.eraseIdx_sublist _ _
    | endRun w thrown =>
        obtain ⟨husers, -, hqueue⟩ := users_of_endRun hstep
        exact hinv.2.of_users_eq hstep husers (by rw [hqueue])
    | call v c => exact hinv.2.of_call hinv.1 hguard hstep
    | advanceUser v => exact hinv.2.of_advanceUser hinv.1 hguard hstep
  · refine ⟨⟨by simp [initial], by simp [initial, WorkerPoint.taskOf]⟩, List.nodup_nil,
      fun v _ ↦ ⟨[], rfl⟩, ?_⟩
    exact List.nil_subset _

/-- A wait that returns leaves nothing of its batch behind.  One that throws has removed the task
whose exception it is, which is of its own batch unless others have scheduled tasks or an earlier
wait has thrown. -/
theorem waitAllTasksToCompleteOrError_spec [Fintype Worker]
    {actions : List (Action Worker User Exception)} (hrun : run step initial actions = some s)
    (hmeets : MeetsAlong step (Copies u) initial actions) :
    (∀ batch, s.users u = .finishedAll batch none → ∀ id ∈ batch, id ∉ s.taskQueue ∧
        (∀ w, (s.workers w).taskOf ≠ some id) ∧ (s.tasks id).exceptionsPtr = none) ∧
      (∀ batch e, s.users u = .finishedAll batch (some e) →
        ∃ id, id ∉ s.taskQueue ∧ (s.tasks id).exceptionsPtr = some e) ∧
      (MeetsAlong step (Alone u) initial actions → ∀ batch e,
        s.users u = .finishedAll batch (some e) →
          ∃ id ∈ batch, id ∉ s.taskQueue ∧ (s.tasks id).exceptionsPtr = some e) := by
  have hwaits := waits_of_run hrun hmeets
  refine ⟨fun batch hfinished id hid ↦ ?_, fun batch e hfinished ↦ ?_,
    fun halone batch e hfinished ↦ ?_⟩
  · have hdone := hwaits.returned batch hfinished id hid
    have hsound := (sound_of_run hrun).2 id
    exact ⟨hdone.not_mem, hsound.taskOf_ne hdone.finalizeThrows_eq hdone.completed,
      (Task.isCompletedSuccessfully_eq_true_iff.mp hdone.completed).2.2⟩
  · obtain ⟨id, -, hnot, hexception⟩ := hwaits.thrown batch e hfinished
    exact ⟨id, hnot, hexception⟩
  · have hown := (owns_of_run hrun halone).own
    rw [hfinished] at hown
    obtain ⟨id, hid, -, hnot, hexception⟩ := hown
    exact ⟨id, hid, hnot, hexception⟩

/-! ## Two batches of a user -/

/-- The worker runs a task to its end and takes it out of the queue. -/
def oneTaskBatch : List (Action (Fin 1) (Fin 1) ℕ) :=
  [.call lone (.scheduleTask { maxNumThreads := 1 }), .advanceWorker lone, .advanceWorker lone,
    .endRun lone none, .advanceWorker lone, .advanceWorker lone, .advanceWorker lone,
    .advanceWorker lone, .advanceWorker lone, .call lone .waitAllTasksToCompleteOrError,
    .advanceUser lone]

theorem copies_oneTaskBatch : MeetsAlong step (Copies 0) initial oneTaskBatch := by
  apply meetsAlong_of_forall
  simp [oneTaskBatch, Copies]

theorem waitAllTasksToCompleteOrError_oneTaskBatch :
    ∃ s, run step initial oneTaskBatch = some s ∧ s.users 0 = .finishedAll [0] none ∧
      0 ∉ s.taskQueue ∧ (∀ w, (s.workers w).taskOf ≠ some 0) ∧
      (s.tasks 0).exceptionsPtr = none := by
  obtain ⟨s, hrun⟩ : ∃ s, run step initial oneTaskBatch = some s :=
    Option.isSome_iff_exists.mp (by decide +kernel)
  have hend : (run step initial oneTaskBatch).map (fun s ↦ s.users 0) =
      some (.finishedAll [0] none) := by
    decide +kernel
  rw [hrun, Option.map_some, Option.some.injEq] at hend
  have hspec := (waitAllTasksToCompleteOrError_spec hrun copies_oneTaskBatch).1 [0] hend 0
    (List.mem_singleton_self 0)
  exact ⟨s, hrun, hend, hspec⟩

/-- Nothing of a batch is left when its user has waited, and what is thrown is of the batch. -/
def NoLeak (u : User) (s : State Worker User Exception) : Prop :=
  ∀ batch thrown, s.users u = .finishedAll batch thrown →
    (∀ id ∈ batch, id ∉ s.taskQueue ∧ ∀ w, (s.workers w).taskOf ≠ some id) ∧
      ∀ e, thrown = some e → ∃ id ∈ batch, (s.tasks id).exceptionsPtr = some e

/-- Both tasks of a batch throw. -/
def failingBatch : List (Action (Fin 1) (Fin 1) ℕ) :=
  [.call lone (.scheduleTask { maxNumThreads := 1 }),
    .call lone (.scheduleTask { maxNumThreads := 1 }), .advanceWorker lone, .advanceWorker lone,
    .endRun lone (some 10), .advanceWorker lone, .advanceWorker lone, .advanceWorker lone,
    .advanceWorker lone, .advanceWorker lone, .advanceWorker lone, .endRun lone (some 11),
    .advanceWorker lone, .advanceWorker lone, .call lone .waitAllTasksToCompleteOrError,
    .advanceUser lone, .advanceUser lone]

/-- The next batch, of which no task has run. -/
def nextBatch : List (Action (Fin 1) (Fin 1) ℕ) :=
  [.advanceUser lone, .call lone (.scheduleTask { maxNumThreads := 1 }),
    .call lone .waitAllTasksToCompleteOrError, .advanceUser lone, .advanceUser lone]

/-- The second task of the first batch stays in the queue, and the second wait throws its
exception. -/
theorem not_noLeak_failingBatch :
    MeetsAlong step (Copies 0) initial (failingBatch ++ nextBatch) ∧
      ∃ s s', run step initial failingBatch = some s ∧ run step s nextBatch = some s' ∧
        s.users 0 = .finishedAll [0, 1] (some 10) ∧ s.taskQueue = [1] ∧ ¬NoLeak 0 s ∧
        s'.users 0 = .finishedAll [2] (some 11) ∧ ¬NoLeak 0 s' := by
  refine ⟨?_, ?_⟩
  · apply meetsAlong_of_forall
    simp [failingBatch, nextBatch, Copies]
  obtain ⟨s, hrun⟩ : ∃ s, run step initial failingBatch = some s :=
    Option.isSome_iff_exists.mp (by decide +kernel)
  have hsecond : (run step initial (failingBatch ++ nextBatch)).isSome = true := by decide +kernel
  rw [run_append_of_eq_some hrun] at hsecond
  obtain ⟨s', hrun'⟩ := Option.isSome_iff_exists.mp hsecond
  have hend : (run step initial failingBatch).map (fun s ↦ (s.users 0, s.taskQueue)) =
      some (.finishedAll [0, 1] (some 10), [1]) := by
    decide +kernel
  have hend' : (run step initial (failingBatch ++ nextBatch)).map (fun s ↦
      (s.users 0, (s.tasks 2).exceptionsPtr)) = some (.finishedAll [2] (some 11), none) := by
    decide +kernel
  rw [hrun, Option.map_some, Option.some.injEq, Prod.mk.injEq] at hend
  rw [run_append_of_eq_some hrun, hrun', Option.map_some, Option.some.injEq, Prod.mk.injEq] at hend'
  obtain ⟨husers, hqueue⟩ := hend
  obtain ⟨husers', hexception⟩ := hend'
  refine ⟨s, s', hrun, hrun', husers, hqueue, fun hnot ↦ ?_, husers', fun hnot ↦ ?_⟩
  · have hleft := ((hnot _ _ husers).1 1 (by simp)).1
    rw [hqueue] at hleft
    exact hleft (List.mem_singleton_self 1)
  · obtain ⟨id, hid, hthrown⟩ := (hnot _ _ husers').2 11 rfl
    rw [List.mem_singleton.mp hid, hexception] at hthrown
    cases hthrown

end Graphflow.TaskSystem
