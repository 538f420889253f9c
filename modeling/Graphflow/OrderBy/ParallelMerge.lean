import Graphflow.OrderBy.MergeTaskDispatcher

/-!
# The parallel merge

What holds in every state that workers can reach: the tuples of the blocks in the queue and of the
blocks that are being merged are those of the input, and the morsels of every active task are
merged or held by a worker.
-/

namespace Graphflow.OrderBy

open Lib Storage

namespace KeyBlockMergeTaskDispatcher

variable {numWorkers : ℕ} {V α : Type} [LinearOrder α]

/-- The morsel's part of the result is the merge of its ranges. -/
def IsMerged (rank : List UInt8 → α) (task : KeyBlockMergeTask) (memory : KeyBlockMemory)
    (morsel : KeyBlockMergeMorsel) : Prop :=
  task.resultKeyBlock.segment memory
      (morsel.leftKeyBlockStartIdx + morsel.rightKeyBlockStartIdx)
      (morsel.leftKeyBlockEndIdx + morsel.rightKeyBlockEndIdx) = morsel.merged rank task memory

/-- The morsels that have been given out, up to where the task goes on. -/
structure Given (merger : KeyBlockMerger V) (rank : List UInt8 → α) (task : KeyBlockMergeTask)
    (memory : KeyBlockMemory) (given : List KeyBlockMergeMorsel) (i j : ℕ) : Prop where
  sortedBlocks : SortedBlocks merger rank task memory
  goesOn : task.GoesOn i j
  separated : Separated rank task.leftKeyBlock task.rightKeyBlock memory i j
  partitions : Partitions rank task.leftKeyBlock task.rightKeyBlock memory i j 0 0 given

/-- An active task. -/
structure TaskInv (merger : KeyBlockMerger V) (rank : List UInt8 → α)
    (s : KeyBlockMergeTaskDispatcher numWorkers) (t : ℕ) (task : KeyBlockMergeTask) : Prop where
  left_pos : 0 < task.leftKeyBlock.numTuples
  alive : task.hasMorselLeft = true ∨ 0 < task.activeMorsels
  holders : ∃ ws : List (Fin numWorkers), ws.Nodup ∧
    (∀ w, w ∈ ws ↔ ∃ morsel, (s.workers w).morsel? = some (t, morsel)) ∧
    ws.length = task.activeMorsels
  given : ∃ given i j, Given merger rank task s.memory given i j ∧
    (∀ w morsel, (s.workers w).morsel? = some (t, morsel) → morsel ∈ given) ∧
    ∀ morsel ∈ given, (∃ w, s.workers w = .mergesKeyBlocks t morsel) ∨
      IsMerged rank task s.memory morsel

def Apart (b b' : MergedKeyBlocks) : Prop := List.Disjoint b.keyBlocks b'.keyBlocks

def taskBlocks (task : KeyBlockMergeTask) : List MergedKeyBlocks :=
  [task.leftKeyBlock, task.rightKeyBlock, task.resultKeyBlock]

def taskContents (memory : KeyBlockMemory) (task : KeyBlockMergeTask) : List (List UInt8) :=
  task.leftKeyBlock.contents memory ++ task.rightKeyBlock.contents memory

/-- A block of the queue. -/
structure SortedBlock (merger : KeyBlockMerger V) (rank : List UInt8 → α)
    (memory : KeyBlockMemory) (b : MergedKeyBlocks) : Prop where
  numBytesPerTuple_eq : b.numBytesPerTuple = merger.numBytesPerTuple
  numTuples_pos : 0 < b.numTuples
  sorted : (b.contents memory).Pairwise fun l r ↦ rank l ≤ rank r

/-- The tuples that have not been merged into the result of a task that is done. -/
def tuples (s : KeyBlockMergeTaskDispatcher numWorkers) : List (List UInt8) :=
  s.sortedKeyBlocks.flatMap (·.contents s.memory) ++
    s.activeKeyBlockMergeTasks.flatMap fun t ↦ (s.tasks t).elim [] (taskContents s.memory)

/-- The buffers of the blocks that are in use. -/
structure BuffersInv (s : KeyBlockMergeTaskDispatcher numWorkers) : Prop where
  sorted_lt : ∀ b ∈ s.sortedKeyBlocks, ∀ keyBlock ∈ b.keyBlocks, keyBlock < s.newKeyBlock
  task_lt : ∀ t ∈ s.activeKeyBlockMergeTasks, ∀ task, s.tasks t = some task →
    ∀ b ∈ taskBlocks task, ∀ keyBlock ∈ b.keyBlocks, keyBlock < s.newKeyBlock
  sorted_apart : s.sortedKeyBlocks.Pairwise Apart
  sorted_apart_task : ∀ b ∈ s.sortedKeyBlocks, ∀ t ∈ s.activeKeyBlockMergeTasks, ∀ task,
    s.tasks t = some task → ∀ b' ∈ taskBlocks task, Apart b b'
  task_apart : ∀ t ∈ s.activeKeyBlockMergeTasks, ∀ t' ∈ s.activeKeyBlockMergeTasks, t ≠ t' →
    ∀ task task', s.tasks t = some task → s.tasks t' = some task' →
    ∀ b ∈ taskBlocks task, ∀ b' ∈ taskBlocks task', Apart b b'

/-- Which tasks are active. -/
structure ActiveInv (s : KeyBlockMergeTaskDispatcher numWorkers) : Prop where
  nodup : s.activeKeyBlockMergeTasks.Nodup
  lt_numTasks : ∀ t ∈ s.activeKeyBlockMergeTasks, t < s.numTasks
  active_of_holds : ∀ w t morsel, (s.workers w).morsel? = some (t, morsel) →
    t ∈ s.activeKeyBlockMergeTasks
  noMorselLeft : ∀ t ∈ s.activeKeyBlockMergeTasks.dropLast, ∀ task, s.tasks t = some task →
    task.hasMorselLeft = false
  length_pos : 0 < s.sortedKeyBlocks.length + s.activeKeyBlockMergeTasks.length

structure Inv (merger : KeyBlockMerger V) (rank : List UInt8 → α) (input : List (List UInt8))
    (s : KeyBlockMergeTaskDispatcher numWorkers) : Prop where
  task : ∀ t ∈ s.activeKeyBlockMergeTasks, ∃ task, s.tasks t = some task ∧
    TaskInv merger rank s t task
  active : ActiveInv s
  buffers : BuffersInv s
  sorted : ∀ b ∈ s.sortedKeyBlocks, SortedBlock merger rank s.memory b
  tuples_perm : s.tuples.Perm input
  ordersBy : merger.OrdersBy rank input

variable {merger : KeyBlockMerger V} {rank : List UInt8 → α} {input : List (List UInt8)}
  {s s' : KeyBlockMergeTaskDispatcher numWorkers} {t : ℕ} {w : Fin numWorkers}
  {task : KeyBlockMergeTask} {memory memory' : KeyBlockMemory} {morsel : KeyBlockMergeMorsel}
  {given : List KeyBlockMergeMorsel} {i j : ℕ}

/-! ## Memory that does not change -/

section Unchanged

variable (hleft : ∀ keyBlock ∈ task.leftKeyBlock.keyBlocks, memory' keyBlock = memory keyBlock)
  (hright : ∀ keyBlock ∈ task.rightKeyBlock.keyBlocks, memory' keyBlock = memory keyBlock)

include hleft hright

theorem sortedBlocks_congr (h : SortedBlocks merger rank task memory) :
    SortedBlocks merger rank task memory' := by
  have hcontentsLeft := MergedKeyBlocks.contents_congr hleft
  have hcontentsRight := MergedKeyBlocks.contents_congr hright
  refine ⟨h.wellFormed, ?_, ?_, ?_⟩
  · rw [hcontentsLeft, hcontentsRight]
    exact h.ordersBy
  · rw [hcontentsLeft]
    exact h.sorted_left
  · rw [hcontentsRight]
    exact h.sorted_right

theorem separated_congr
    (h : Separated rank task.leftKeyBlock task.rightKeyBlock memory i j)
    (hi : i ≤ task.leftKeyBlock.numTuples) (hj : j ≤ task.rightKeyBlock.numTuples) :
    Separated rank task.leftKeyBlock task.rightKeyBlock memory' i j := by
  have hleftAt : ∀ a < task.leftKeyBlock.numTuples,
      task.leftKeyBlock.tupleAt memory' a = task.leftKeyBlock.tupleAt memory a :=
    fun a ha ↦ MergedKeyBlocks.tupleAt_congr ha hleft
  have hrightAt : ∀ a < task.rightKeyBlock.numTuples,
      task.rightKeyBlock.tupleAt memory' a = task.rightKeyBlock.tupleAt memory a :=
    fun a ha ↦ MergedKeyBlocks.tupleAt_congr ha hright
  constructor
  · intro a ha b hb hbR
    rw [hleftAt a (lt_of_lt_of_le ha hi), hrightAt b hbR]
    exact h.1 a ha b hb hbR
  · intro b hb a ha haL
    rw [hleftAt a haL, hrightAt b (lt_of_lt_of_le hb hj)]
    exact h.2 b hb a ha haL

theorem partitions_congr {iEnd jEnd : ℕ}
    (h : Partitions rank task.leftKeyBlock task.rightKeyBlock memory iEnd jEnd i j given) :
    Partitions rank task.leftKeyBlock task.rightKeyBlock memory' iEnd jEnd i j given := by
  induction given generalizing i j with
  | nil => exact h
  | cons morsel given ih =>
      obtain ⟨hcuts, hrest⟩ := h
      have hsep :=
        separated_congr hleft hright hcuts.separated hcuts.left_le hcuts.right_le_numTuples
      exact ⟨{ hcuts with separated := hsep }, ih hrest⟩

theorem merged_congr
    (hcuts : morsel.Cuts rank task.leftKeyBlock task.rightKeyBlock memory i j) :
    morsel.merged rank task memory' = morsel.merged rank task memory := by
  rw [KeyBlockMergeMorsel.merged, KeyBlockMergeMorsel.merged]
  congr 1
  · exact MergedKeyBlocks.segment_congr fun k _ hk ↦
      MergedKeyBlocks.tupleAt_congr (lt_of_lt_of_le hk hcuts.left_le) hleft
  · exact MergedKeyBlocks.segment_congr fun k _ hk ↦
      MergedKeyBlocks.tupleAt_congr (lt_of_lt_of_le hk hcuts.right_le_numTuples) hright

theorem isMerged_congr
    (hcuts : morsel.Cuts rank task.leftKeyBlock task.rightKeyBlock memory i j)
    (hsegment : task.resultKeyBlock.segment memory'
        (morsel.leftKeyBlockStartIdx + morsel.rightKeyBlockStartIdx)
        (morsel.leftKeyBlockEndIdx + morsel.rightKeyBlockEndIdx) =
      task.resultKeyBlock.segment memory
        (morsel.leftKeyBlockStartIdx + morsel.rightKeyBlockStartIdx)
        (morsel.leftKeyBlockEndIdx + morsel.rightKeyBlockEndIdx))
    (h : IsMerged rank task memory morsel) : IsMerged rank task memory' morsel := by
  rw [IsMerged, hsegment, merged_congr hleft hright hcuts]
  exact h

theorem Given.congr (h : Given merger rank task memory given i j) :
    Given merger rank task memory' given i j := by
  obtain ⟨hsorted, hgoesOn, hsep, hparts⟩ := h
  have hi : i ≤ task.leftKeyBlock.numTuples := by
    rcases hgoesOn.left with ⟨-, hlt⟩ | ⟨heq, -⟩
    · exact hlt.le
    · exact heq.le
  exact ⟨sortedBlocks_congr hleft hright hsorted, hgoesOn,
    separated_congr hleft hright hsep hi hgoesOn.right_le, partitions_congr hleft hright hparts⟩

end Unchanged

theorem segment_result_congr (hwell : task.WellFormed merger)
    (hcuts : morsel.Cuts rank task.leftKeyBlock task.rightKeyBlock memory i j)
    (hresult : ∀ keyBlock ∈ task.resultKeyBlock.keyBlocks, memory' keyBlock = memory keyBlock) :
    task.resultKeyBlock.segment memory'
        (morsel.leftKeyBlockStartIdx + morsel.rightKeyBlockStartIdx)
        (morsel.leftKeyBlockEndIdx + morsel.rightKeyBlockEndIdx) =
      task.resultKeyBlock.segment memory
        (morsel.leftKeyBlockStartIdx + morsel.rightKeyBlockStartIdx)
        (morsel.leftKeyBlockEndIdx + morsel.rightKeyBlockEndIdx) := by
  have hleft := hcuts.left_le
  have hright := hcuts.right_le_numTuples
  have hnumTuples := hwell.numTuples_result
  exact MergedKeyBlocks.segment_congr fun k _ hk ↦
    MergedKeyBlocks.tupleAt_congr (by omega) hresult

/-- What the task sees of the dispatcher has not changed. -/
theorem TaskInv.congr (h : TaskInv merger rank s t task)
    (hmemory : ∀ b ∈ taskBlocks task, ∀ keyBlock ∈ b.keyBlocks,
      s'.memory keyBlock = s.memory keyBlock)
    (hholds : ∀ w morsel, (s'.workers w).morsel? = some (t, morsel) ↔
      (s.workers w).morsel? = some (t, morsel))
    (hmerges : ∀ w morsel, s.workers w = .mergesKeyBlocks t morsel →
      s'.workers w = .mergesKeyBlocks t morsel) : TaskInv merger rank s' t task := by
  obtain ⟨hpos, halive, ⟨ws, hnodup, hws, hlength⟩, given, i, j, hgiven, hheld, hmorsels⟩ := h
  have hleft := hmemory task.leftKeyBlock (by simp [taskBlocks])
  have hright := hmemory task.rightKeyBlock (by simp [taskBlocks])
  have hresult := hmemory task.resultKeyBlock (by simp [taskBlocks])
  refine ⟨hpos, halive, ⟨ws, hnodup, fun w ↦ ?_, hlength⟩, given, i, j,
    hgiven.congr hleft hright, fun w morsel hw ↦ hheld w morsel ((hholds w morsel).mp hw),
    fun morsel hmem ↦ ?_⟩
  · rw [hws w]
    exact exists_congr fun morsel ↦ (hholds w morsel).symm
  · obtain ⟨-, -, -, -, hcuts⟩ := hgiven.partitions.cuts_of_mem hmem
    rcases hmorsels morsel hmem with ⟨w, hw⟩ | hmerged
    · exact Or.inl ⟨w, hmerges w morsel hw⟩
    · exact Or.inr (isMerged_congr hleft hright hcuts
        (segment_result_congr hgiven.sortedBlocks.wellFormed hcuts hresult) hmerged)

/-! ## Steps that do not touch tasks -/

@[simp] theorem workers_moveTo (s : KeyBlockMergeTaskDispatcher numWorkers) (w : Fin numWorkers)
    (worker : OrderByMerge) : (s.moveTo w worker).workers = Function.update s.workers w worker :=
  rfl

theorem morsel?_moveTo_of_none {worker : OrderByMerge} (hold : (s.workers w).morsel? = none)
    (hnew : worker.morsel? = none) (w' : Fin numWorkers) :
    ((s.moveTo w worker).workers w').morsel? = (s.workers w').morsel? := by
  rw [workers_moveTo]
  by_cases heq : w' = w
  · subst heq
    rw [Function.update_self, hold, hnew]
  · rw [Function.update_of_ne heq]

theorem mergesKeyBlocks_moveTo {worker : OrderByMerge} {w' : Fin numWorkers}
    (hold : s.workers w ≠ .mergesKeyBlocks t morsel)
    (h : s.workers w' = .mergesKeyBlocks t morsel) :
    (s.moveTo w worker).workers w' = .mergesKeyBlocks t morsel := by
  rw [workers_moveTo, Function.update_of_ne, h]
  rintro rfl
  exact hold h

/-- A worker that holds no morsel goes on without one. -/
theorem Inv.moveTo_of_none (h : Inv merger rank input s) {worker : OrderByMerge}
    (hold : (s.workers w).morsel? = none) (hnew : worker.morsel? = none) :
    Inv merger rank input (s.moveTo w worker) where
  task t ht := by
    obtain ⟨task, htask, hinv⟩ := h.task t ht
    refine ⟨task, htask, hinv.congr (fun _ _ _ _ ↦ rfl) (fun w' morsel ↦ ?_) fun w' morsel hw' ↦ ?_⟩
    · rw [morsel?_moveTo_of_none hold hnew]
    · apply mergesKeyBlocks_moveTo _ hw'
      intro heq
      rw [heq] at hold
      cases hold
  active := { h.active with
    active_of_holds := fun w' t morsel hw' ↦ by
      rw [morsel?_moveTo_of_none hold hnew] at hw'
      exact h.active.active_of_holds w' t morsel hw' }
  buffers := { h.buffers with }
  sorted := h.sorted
  tuples_perm := h.tuples_perm
  ordersBy := h.ordersBy

/-! ## The counters of a task -/

section SetTask

variable {task' : KeyBlockMergeTask} {t' : ℕ}

@[simp] theorem tasks_setTask_self (s : KeyBlockMergeTaskDispatcher numWorkers) (t : ℕ)
    (task : KeyBlockMergeTask) : (s.setTask t task).tasks t = some task :=
  Function.update_self _ _ _

theorem tasks_setTask_of_ne (h : t' ≠ t) : (s.setTask t task).tasks t' = s.tasks t' :=
  Function.update_of_ne h _ _

/-- The same task with other counters. -/
theorem exists_taskBlocks_eq (htask : s.tasks t = some task)
    (hblocks : taskBlocks task' = taskBlocks task) {task₁ : KeyBlockMergeTask}
    (h : (s.setTask t task').tasks t' = some task₁) :
    ∃ task₂, s.tasks t' = some task₂ ∧ taskBlocks task₁ = taskBlocks task₂ := by
  by_cases heq : t' = t
  · subst heq
    rw [tasks_setTask_self, Option.some.injEq] at h
    subst h
    exact ⟨task, htask, hblocks⟩
  · rw [tasks_setTask_of_ne heq] at h
    exact ⟨task₁, h, rfl⟩

theorem BuffersInv.setTask (h : BuffersInv s) (htask : s.tasks t = some task)
    (hblocks : taskBlocks task' = taskBlocks task) : BuffersInv (s.setTask t task') where
  sorted_lt := h.sorted_lt
  task_lt t₁ ht₁ task₁ htask₁ := by
    obtain ⟨task₂, htask₂, heq⟩ := exists_taskBlocks_eq htask hblocks htask₁
    rw [heq]
    exact h.task_lt t₁ ht₁ task₂ htask₂
  sorted_apart := h.sorted_apart
  sorted_apart_task b hb t₁ ht₁ task₁ htask₁ := by
    obtain ⟨task₂, htask₂, heq⟩ := exists_taskBlocks_eq htask hblocks htask₁
    rw [heq]
    exact h.sorted_apart_task b hb t₁ ht₁ task₂ htask₂
  task_apart t₁ ht₁ t₂ ht₂ hne task₁ task₂ htask₁ htask₂ := by
    obtain ⟨task₁', htask₁', heq₁⟩ := exists_taskBlocks_eq htask hblocks htask₁
    obtain ⟨task₂', htask₂', heq₂⟩ := exists_taskBlocks_eq htask hblocks htask₂
    rw [heq₁, heq₂]
    exact h.task_apart t₁ ht₁ t₂ ht₂ hne task₁' task₂' htask₁' htask₂'

theorem BuffersInv.moveTo (h : BuffersInv s) (w : Fin numWorkers) (worker : OrderByMerge) :
    BuffersInv (s.moveTo w worker) :=
  { h with }

theorem tuples_setTask (htask : s.tasks t = some task)
    (hcontents : taskContents s.memory task' = taskContents s.memory task) :
    (s.setTask t task').tuples = s.tuples := by
  apply congrArg (s.sortedKeyBlocks.flatMap (·.contents s.memory) ++ ·)
  apply List.flatMap_congr
  intro t' _
  by_cases heq : t' = t
  · subst heq
    rw [tasks_setTask_self, htask]
    exact hcontents
  · rw [tasks_setTask_of_ne heq]
    rfl

end SetTask

/-! ## Giving out a morsel -/

theorem Given.exists_getMorsel (h : Given merger rank task memory given i j)
    (hmore : task.hasMorselLeft = true) :
    ∃ morsel nextLeft nextRight, task.getMorsel merger memory = .ok (morsel, { task with
        leftKeyBlockNextIdx := nextLeft
        rightKeyBlockNextIdx := nextRight
        activeMorsels := task.activeMorsels + 1 }) ∧
      Given merger rank { task with
        leftKeyBlockNextIdx := nextLeft
        rightKeyBlockNextIdx := nextRight
        activeMorsels := task.activeMorsels + 1 } memory (given ++ [morsel])
          morsel.leftKeyBlockEndIdx morsel.rightKeyBlockEndIdx := by
  obtain ⟨morsel, nextLeft, nextRight, hmorsel, hcuts, hgoesOn, -⟩ :=
    h.goesOn.exists_getMorsel h.sortedBlocks (h.goesOn.hasMorselLeft_iff.mp hmore) h.separated
  exact ⟨morsel, nextLeft, nextRight, hmorsel, h.sortedBlocks.with_next _ _ _, hgoesOn,
    hcuts.separated, h.partitions.concat hcuts⟩

theorem morsel?_update_eq_iff {workers : Fin numWorkers → OrderByMerge} {worker : OrderByMerge}
    {w' : Fin numWorkers} {held : Option (ℕ × KeyBlockMergeMorsel)} :
    (Function.update workers w worker w').morsel? = held ↔
      w' = w ∧ worker.morsel? = held ∨ w' ≠ w ∧ (workers w').morsel? = held := by
  by_cases heq : w' = w
  · subst heq
    simp
  · rw [Function.update_of_ne heq]
    simp [heq]

/-- The task after it has given a morsel to a worker. -/
theorem TaskInv.exists_getMorsel (h : TaskInv merger rank s t task)
    (hmore : task.hasMorselLeft = true) :
    ∃ morsel nextLeft nextRight, task.getMorsel merger s.memory = .ok (morsel, { task with
        leftKeyBlockNextIdx := nextLeft
        rightKeyBlockNextIdx := nextRight
        activeMorsels := task.activeMorsels + 1 }) ∧
      ∀ w, (s.workers w).morsel? = none → ∀ s' : KeyBlockMergeTaskDispatcher numWorkers,
        s'.memory = s.memory →
        s'.workers = Function.update s.workers w (.mergesKeyBlocks t morsel) →
        TaskInv merger rank s' t { task with
          leftKeyBlockNextIdx := nextLeft
          rightKeyBlockNextIdx := nextRight
          activeMorsels := task.activeMorsels + 1 } := by
  obtain ⟨hleft, halive, ⟨ws, hnodup, hws, hlength⟩, given, i, j, hgiven, hheld, hmorsels⟩ := h
  obtain ⟨morsel, nextLeft, nextRight, hmorsel, hgiven'⟩ := hgiven.exists_getMorsel hmore
  refine ⟨morsel, nextLeft, nextRight, hmorsel, fun w hw s' hmemory hworkers ↦ ?_⟩
  have hnot : w ∉ ws := by
    intro hmem
    obtain ⟨m, hm⟩ := (hws w).mp hmem
    rw [hw] at hm
    cases hm
  refine ⟨hleft, Or.inr (Nat.succ_pos _), ⟨w :: ws, List.nodup_cons.mpr ⟨hnot, hnodup⟩,
    fun w' ↦ ?_, by rw [List.length_cons, hlength]⟩, given ++ [morsel],
    morsel.leftKeyBlockEndIdx, morsel.rightKeyBlockEndIdx, by rwa [hmemory], fun w' m hm ↦ ?_,
    fun m hm ↦ ?_⟩
  · rw [List.mem_cons, hworkers, hws w']
    simp only [morsel?_update_eq_iff]
    constructor
    · rintro (rfl | ⟨m, hm⟩)
      · exact ⟨morsel, Or.inl ⟨rfl, rfl⟩⟩
      · refine ⟨m, Or.inr ⟨?_, hm⟩⟩
        rintro rfl
        rw [hw] at hm
        cases hm
    · rintro ⟨m, ⟨rfl, -⟩ | ⟨-, hm⟩⟩
      · exact Or.inl rfl
      · exact Or.inr ⟨m, hm⟩
  · rw [hworkers, morsel?_update_eq_iff] at hm
    rw [List.mem_append, List.mem_singleton]
    rcases hm with ⟨-, hm⟩ | ⟨-, hm⟩
    · right
      exact (Prod.mk.inj (Option.some.inj hm)).2.symm
    · exact Or.inl (hheld w' m hm)
  · rw [hmemory, hworkers]
    rcases List.mem_append.mp hm with hm | hm
    · rcases hmorsels m hm with ⟨w', hw'⟩ | hmerged
      · refine Or.inl ⟨w', ?_⟩
        rw [Function.update_of_ne, hw']
        rintro rfl
        rw [hw'] at hw
        cases hw
      · exact Or.inr hmerged
    · obtain rfl := List.mem_singleton.mp hm
      exact Or.inl ⟨w, Function.update_self _ _ _⟩

/-- A worker takes a morsel of the last task. -/
theorem Inv.exists_getMorsel (h : Inv merger rank input s)
    (ht : s.activeKeyBlockMergeTasks.getLast? = some t) (htask : s.tasks t = some task)
    (hmore : task.hasMorselLeft = true) :
    ∃ morsel task', task.getMorsel merger s.memory = .ok (morsel, task') ∧
      ∀ w, (s.workers w).morsel? = none →
        Inv merger rank input ((s.setTask t task').moveTo w (.mergesKeyBlocks t morsel)) := by
  have hmem : t ∈ s.activeKeyBlockMergeTasks := List.mem_of_getLast? ht
  obtain ⟨task₁, htask₁, hinv⟩ := h.task t hmem
  obtain rfl : task = task₁ := Option.some.inj (htask.symm.trans htask₁)
  obtain ⟨morsel, nextLeft, nextRight, hmorsel, hgive⟩ := hinv.exists_getMorsel hmore
  generalize htask' : ({ task with
    leftKeyBlockNextIdx := nextLeft
    rightKeyBlockNextIdx := nextRight
    activeMorsels := task.activeMorsels + 1 } : KeyBlockMergeTask) = task' at hmorsel hgive
  have hblocks : taskBlocks task' = taskBlocks task := by rw [← htask']; rfl
  have hcontents : taskContents s.memory task' = taskContents s.memory task := by
    rw [← htask']
    rfl
  refine ⟨morsel, task', hmorsel, fun w hw ↦ ?_⟩
  constructor
  · intro t' ht'
    by_cases heq : t' = t
    · subst heq
      exact ⟨_, tasks_setTask_self _ _ _, hgive w hw _ rfl rfl⟩
    · obtain ⟨task', htask', hinv'⟩ := h.task t' ht'
      refine ⟨task', (tasks_setTask_of_ne heq).trans htask', hinv'.congr (fun _ _ _ _ ↦ rfl)
        (fun w' m ↦ ?_) fun w' m hm ↦ ?_⟩
      · rw [workers_moveTo, morsel?_update_eq_iff]
        constructor
        · rintro (⟨-, hm⟩ | ⟨-, hm⟩)
          · exact absurd (Prod.mk.inj (Option.some.inj hm)).1.symm heq
          · exact hm
        · intro hm
          refine Or.inr ⟨?_, hm⟩
          rintro rfl
          rw [hw] at hm
          cases hm
      · apply mergesKeyBlocks_moveTo _ hm
        intro hmerges
        rw [hmerges] at hw
        cases hw
  · exact { h.active with
      active_of_holds := fun w' t' m hm ↦ by
        rw [workers_moveTo, morsel?_update_eq_iff] at hm
        rcases hm with ⟨-, hm⟩ | ⟨-, hm⟩
        · obtain ⟨rfl, -⟩ := Prod.mk.inj (Option.some.inj hm)
          exact hmem
        · exact h.active.active_of_holds w' t' m hm
      noMorselLeft := fun t' ht' task₁ htask₁ ↦ by
        have hne : t' ≠ t := by
          rintro rfl
          have hconcat := List.dropLast_append_getLast? t' ht
          have hnodup := h.active.nodup
          rw [← hconcat] at hnodup
          exact absurd (List.disjoint_of_nodup_append hnodup ht') (by simp)
        have htask₂ : s.tasks t' = some task₁ := (tasks_setTask_of_ne hne).symm.trans htask₁
        exact h.active.noMorselLeft t' ht' task₁ htask₂ }
  · exact (h.buffers.setTask htask hblocks).moveTo _ _
  · exact h.sorted
  · exact (congrArg (List.Perm · input) (tuples_setTask htask hcontents)).mpr h.tuples_perm
  · exact h.ordersBy

/-! ## A new task -/

section NewTask

variable {left right : MergedKeyBlocks} {rest : List MergedKeyBlocks}

/-- The new task is active, and its blocks are no longer in the queue. -/
def addTask (s : KeyBlockMergeTaskDispatcher numWorkers) (left right : MergedKeyBlocks)
    (rest : List MergedKeyBlocks) : KeyBlockMergeTaskDispatcher numWorkers :=
  { s.setTask s.numTasks (s.newTask left right) with
    newKeyBlock := s.newKeyBlock + (s.newTask left right).resultKeyBlock.keyBlocks.length
    sortedKeyBlocks := rest
    numTasks := s.numTasks + 1
    activeKeyBlockMergeTasks := s.activeKeyBlockMergeTasks ++ [s.numTasks] }

theorem mem_keyBlocks_newTask {keyBlock : ℕ} :
    keyBlock ∈ (s.newTask left right).resultKeyBlock.keyBlocks ↔ s.newKeyBlock ≤ keyBlock ∧
      keyBlock < s.newKeyBlock + (s.newTask left right).resultKeyBlock.keyBlocks.length := by
  have hlength : (s.newTask left right).resultKeyBlock.keyBlocks.length =
      numKeyBlocks (largePageSize / left.numBytesPerTuple) (left.numTuples + right.numTuples) :=
    List.length_range'
  rw [hlength]
  exact List.mem_range'_1

theorem apart_newTask {b : MergedKeyBlocks}
    (hb : ∀ keyBlock ∈ b.keyBlocks, keyBlock < s.newKeyBlock) :
    Apart b (s.newTask left right).resultKeyBlock :=
  fun keyBlock hmem hmem' ↦
    absurd (hb keyBlock hmem) (Nat.not_lt.mpr (mem_keyBlocks_newTask.mp hmem').1)

theorem Apart.symm {b b' : MergedKeyBlocks} (h : Apart b b') : Apart b' b :=
  List.Disjoint.symm h

theorem mem_taskBlocks_newTask {b : MergedKeyBlocks} :
    b ∈ taskBlocks (s.newTask left right) ↔
      b = left ∨ b = right ∨ b = (s.newTask left right).resultKeyBlock := by
  simp [taskBlocks, newTask]

theorem BuffersInv.addTask (h : BuffersInv s)
    (hlt : ∀ t ∈ s.activeKeyBlockMergeTasks, t < s.numTasks)
    (hsorted : s.sortedKeyBlocks = left :: right :: rest) :
    BuffersInv (s.addTask left right rest) := by
  have hmem : ∀ b, b = left ∨ b = right ∨ b ∈ rest → b ∈ s.sortedKeyBlocks := by
    intro b hb
    rw [hsorted, List.mem_cons, List.mem_cons]
    exact hb
  have hpairs := h.sorted_apart
  rw [hsorted, List.pairwise_cons, List.pairwise_cons] at hpairs
  obtain ⟨hleft, hright, hrest⟩ := hpairs
  have hcases : ∀ t ∈ (s.addTask left right rest).activeKeyBlockMergeTasks, ∀ task,
      (s.addTask left right rest).tasks t = some task →
      (t ∈ s.activeKeyBlockMergeTasks ∧ s.tasks t = some task) ∨
        t = s.numTasks ∧ task = s.newTask left right := by
    intro t ht task htask
    rcases List.mem_append.mp ht with ht | ht
    · exact Or.inl ⟨ht, (tasks_setTask_of_ne (hlt t ht).ne).symm.trans htask⟩
    · obtain rfl := List.mem_singleton.mp ht
      exact Or.inr ⟨rfl, Option.some.inj (htask.symm.trans (tasks_setTask_self _ _ _))⟩
  -- blocks that were in use are apart from those of the new task, as far as these are new
  have hnew : ∀ b : MergedKeyBlocks, (∀ keyBlock ∈ b.keyBlocks, keyBlock < s.newKeyBlock) →
      Apart b left → Apart b right → ∀ b' ∈ taskBlocks (s.newTask left right), Apart b b' := by
    intro b hb hbl hbr b' hb'
    rcases mem_taskBlocks_newTask.mp hb' with rfl | rfl | rfl
    · exact hbl
    · exact hbr
    · exact apart_newTask hb
  constructor
  · intro b hb keyBlock hkeyBlock
    exact Nat.lt_add_right _ (h.sorted_lt b (hmem b (Or.inr (Or.inr hb))) keyBlock hkeyBlock)
  · intro t ht task htask b hb keyBlock hkeyBlock
    rcases hcases t ht task htask with ⟨ht, htask⟩ | ⟨rfl, rfl⟩
    · exact Nat.lt_add_right _ (h.task_lt t ht task htask b hb keyBlock hkeyBlock)
    · rcases mem_taskBlocks_newTask.mp hb with rfl | rfl | rfl
      · exact Nat.lt_add_right _ (h.sorted_lt _ (hmem _ (Or.inl rfl)) keyBlock hkeyBlock)
      · exact Nat.lt_add_right _ (h.sorted_lt _ (hmem _ (Or.inr (Or.inl rfl))) keyBlock hkeyBlock)
      · exact (mem_keyBlocks_newTask.mp hkeyBlock).2
  · exact hrest
  · intro b hb t ht task htask
    have hb' := hmem b (Or.inr (Or.inr hb))
    rcases hcases t ht task htask with ⟨ht, htask⟩ | ⟨rfl, rfl⟩
    · exact h.sorted_apart_task b hb' t ht task htask
    · exact hnew b (h.sorted_lt b hb') (hleft b (List.mem_cons_of_mem _ hb)).symm (hright b hb).symm
  · intro t ht t' ht' hne task task' htask htask'
    have hold : ∀ t₁ ∈ s.activeKeyBlockMergeTasks, ∀ task₁, s.tasks t₁ = some task₁ →
        ∀ b ∈ taskBlocks task₁, ∀ b' ∈ taskBlocks (s.newTask left right), Apart b b' :=
      fun t₁ ht₁ task₁ htask₁ b hb ↦ hnew b (h.task_lt t₁ ht₁ task₁ htask₁ b hb)
        (h.sorted_apart_task left (hmem _ (Or.inl rfl)) t₁ ht₁ task₁ htask₁ b hb).symm
        (h.sorted_apart_task right (hmem _ (Or.inr (Or.inl rfl))) t₁ ht₁ task₁ htask₁ b hb).symm
    rcases hcases t ht task htask with ⟨ht, htask⟩ | ⟨rfl, rfl⟩
    · rcases hcases t' ht' task' htask' with ⟨ht', htask'⟩ | ⟨rfl, rfl⟩
      · exact h.task_apart t ht t' ht' hne task task' htask htask'
      · exact hold t ht task htask
    · rcases hcases t' ht' task' htask' with ⟨ht', htask'⟩ | ⟨rfl, rfl⟩
      · exact fun b hb b' hb' ↦ (hold t' ht' task' htask' b' hb' b hb).symm
      · exact absurd rfl hne

theorem tuples_addTask (hlt : ∀ t ∈ s.activeKeyBlockMergeTasks, t < s.numTasks)
    (hsorted : s.sortedKeyBlocks = left :: right :: rest) :
    (s.addTask left right rest).tuples.Perm s.tuples := by
  have hold : s.activeKeyBlockMergeTasks.flatMap (fun t ↦
        ((s.addTask left right rest).tasks t).elim [] (taskContents s.memory)) =
      s.activeKeyBlockMergeTasks.flatMap fun t ↦ (s.tasks t).elim [] (taskContents s.memory) :=
    List.flatMap_congr fun t ht ↦
      congrArg (Option.elim · [] (taskContents s.memory)) (tasks_setTask_of_ne (hlt t ht).ne)
  have hnew : (s.addTask left right rest).tuples =
      rest.flatMap (·.contents s.memory) ++
        ((s.activeKeyBlockMergeTasks.flatMap fun t ↦
          (s.tasks t).elim [] (taskContents s.memory)) ++
        (left.contents s.memory ++ right.contents s.memory)) := by
    rw [← hold, tuples]
    apply congrArg (rest.flatMap (·.contents s.memory) ++ ·)
    have hself : (s.addTask left right rest).tasks s.numTasks = some (s.newTask left right) :=
      tasks_setTask_self _ _ _
    have hactive : (s.addTask left right rest).activeKeyBlockMergeTasks =
      s.activeKeyBlockMergeTasks ++ [s.numTasks] := rfl
    rw [hactive, List.flatMap_append, List.flatMap_singleton, hself]
    rfl
  rw [hnew, tuples, hsorted, List.flatMap_cons, List.flatMap_cons, ← List.append_assoc,
    ← List.append_assoc (left.contents s.memory)]
  refine List.perm_append_comm.trans ?_
  rw [← List.append_assoc]

/-- A task that has given out nothing yet. -/
theorem taskInv_newTask (h : Inv merger rank input s)
    (hsorted : s.sortedKeyBlocks = left :: right :: rest) :
    TaskInv merger rank (s.addTask left right rest) s.numTasks (s.newTask left right) := by
  have hmemLeft : left ∈ s.sortedKeyBlocks := by simp [hsorted]
  have hmemRight : right ∈ s.sortedKeyBlocks := by simp [hsorted]
  have hleft := h.sorted left hmemLeft
  have hright := h.sorted right hmemRight
  have hnobody : ∀ w morsel, (s.workers w).morsel? ≠ some (s.numTasks, morsel) :=
    fun w morsel hw ↦
      absurd (h.active.lt_numTasks _ (h.active.active_of_holds w _ morsel hw)) (Nat.lt_irrefl _)
  have hmem : ∀ tuple ∈ left.contents s.memory ++ right.contents s.memory, tuple ∈ input := by
    intro tuple htuple
    refine h.tuples_perm.mem_iff.mp (List.mem_append_left _ (List.mem_flatMap.mpr ?_))
    rcases List.mem_append.mp htuple with htuple | htuple
    · exact ⟨left, hmemLeft, htuple⟩
    · exact ⟨right, hmemRight, htuple⟩
  have hwell : (s.newTask left right).WellFormed merger :=
    ⟨hleft.numBytesPerTuple_eq, hright.numBytesPerTuple_eq, hleft.numBytesPerTuple_eq, rfl,
      apart_newTask (h.buffers.sorted_lt left hmemLeft),
      apart_newTask (h.buffers.sorted_lt right hmemRight)⟩
  refine ⟨hleft.numTuples_pos, Or.inl ?_, ⟨[], List.nodup_nil, fun w ↦ ?_, rfl⟩, [], 0, 0,
    ⟨⟨hwell, ?_, hleft.sorted, hright.sorted⟩, ?_, separated_zero _ _ _ _, rfl, rfl⟩,
    fun w morsel hw ↦ absurd hw (hnobody w morsel), fun morsel hmorsel ↦ ?_⟩
  · exact Bool.or_eq_true_iff.mpr (Or.inl (decide_eq_true hleft.numTuples_pos))
  · refine iff_of_false List.not_mem_nil ?_
    rintro ⟨morsel, hw⟩
    exact hnobody w morsel hw
  · exact fun l hl r hr ↦ h.ordersBy l (hmem l hl) r (hmem r hr)
  · exact ⟨Or.inl ⟨rfl, hleft.numTuples_pos⟩, rfl, Nat.zero_le _, fun heq ↦
      absurd heq hleft.numTuples_pos.ne⟩
  · exact absurd hmorsel List.not_mem_nil

/-- The first two blocks of the queue become a task, as no active task has a morsel left. -/
theorem Inv.addTask (h : Inv merger rank input s)
    (hsorted : s.sortedKeyBlocks = left :: right :: rest)
    (hnone : ∀ t ∈ s.activeKeyBlockMergeTasks, ∀ task, s.tasks t = some task →
      task.hasMorselLeft = false) : Inv merger rank input (s.addTask left right rest) := by
  have hlt := h.active.lt_numTasks
  constructor
  · intro t ht
    rcases List.mem_append.mp ht with ht | ht
    · obtain ⟨task, htask, hinv⟩ := h.task t ht
      exact ⟨task, (tasks_setTask_of_ne (hlt t ht).ne).trans htask,
        hinv.congr (fun _ _ _ _ ↦ rfl) (fun _ _ ↦ Iff.rfl) fun _ _ hw ↦ hw⟩
    · obtain rfl := List.mem_singleton.mp ht
      exact ⟨_, tasks_setTask_self _ _ _, taskInv_newTask h hsorted⟩
  · constructor
    · refine List.nodup_append.mpr ⟨h.active.nodup, List.nodup_singleton _, fun t ht t' ht' ↦ ?_⟩
      obtain rfl := List.mem_singleton.mp ht'
      exact (hlt t ht).ne
    · intro t ht
      rcases List.mem_append.mp ht with ht | ht
      · exact Nat.lt_succ_of_lt (hlt t ht)
      · obtain rfl := List.mem_singleton.mp ht
        exact Nat.lt_succ_self _
    · exact fun w t morsel hw ↦ List.mem_append_left _ (h.active.active_of_holds w t morsel hw)
    · intro t ht task htask
      have ht' : t ∈ s.activeKeyBlockMergeTasks := by
        rwa [show (s.addTask left right rest).activeKeyBlockMergeTasks =
          s.activeKeyBlockMergeTasks ++ [s.numTasks] from rfl, List.dropLast_concat] at ht
      exact hnone t ht' task ((tasks_setTask_of_ne (hlt t ht').ne).symm.trans htask)
    · exact Nat.lt_add_left _ (List.length_pos_of_mem (List.mem_append_right _
        (List.mem_singleton_self _)))
  · exact h.buffers.addTask hlt hsorted
  · exact fun b hb ↦ h.sorted b (by
      rw [hsorted]
      exact List.mem_cons_of_mem _ (List.mem_cons_of_mem _ hb))
  · exact (tuples_addTask hlt hsorted).trans h.tuples_perm
  · exact h.ordersBy

/-- Tasks have morsels left only if the last one has. -/
theorem ActiveInv.hasMorselLeft_eq_false (h : ActiveInv s) (hlast : s.lastTask = none)
    (ht : t ∈ s.activeKeyBlockMergeTasks) (htask : s.tasks t = some task) :
    task.hasMorselLeft = false := by
  rcases List.eq_nil_or_concat s.activeKeyBlockMergeTasks with hnil | ⟨ts, t', heq⟩
  · rw [hnil] at ht
    exact absurd ht List.not_mem_nil
  · rw [List.concat_eq_append] at heq
    rw [heq, List.mem_append, List.mem_singleton] at ht
    rcases ht with ht | rfl
    · apply h.noMorselLeft t _ task htask
      rwa [heq, List.dropLast_concat]
    · rw [lastTask, heq, List.getLast?_concat] at hlast
      simp only [Option.bind_eq_bind, Option.bind_some, htask] at hlast
      by_contra hmore
      rw [if_pos (Bool.eq_true_of_not_eq_false hmore)] at hlast
      cases hlast

/-- What `getMorsel` does in a reachable state. -/
theorem Inv.getMorsel_cases (h : Inv merger rank input s) :
    (∃ t morsel s', s.getMorsel merger = .ok (some (t, morsel), s') ∧
      ∀ w, (s.workers w).morsel? = none →
        Inv merger rank input (s'.moveTo w (.mergesKeyBlocks t morsel))) ∨
    s.getMorsel merger = .ok (none, s) ∧ s.lastTask = none ∧ s.sortedKeyBlocks.length ≤ 1 := by
  cases hlast : s.lastTask with
  | some last =>
      left
      obtain ⟨t, task⟩ := last
      obtain ⟨t₁, ht, hlast'⟩ := Option.bind_eq_some_iff.mp hlast
      obtain ⟨task₁, htask, hlast'⟩ := Option.bind_eq_some_iff.mp hlast'
      by_cases hmore : task₁.hasMorselLeft = true
      · rw [if_pos hmore] at hlast'
        obtain ⟨rfl, rfl⟩ := Prod.mk.inj (Option.some.inj hlast')
        obtain ⟨morsel, task', hmorsel, hinv⟩ := h.exists_getMorsel ht htask hmore
        refine ⟨t₁, morsel, s.setTask t₁ task', ?_, hinv⟩
        rw [getMorsel, hlast]
        simp only [hmorsel, ok_bind, pure_eq_ok]
      · rw [if_neg hmore] at hlast'
        cases hlast'
  | none =>
      rw [getMorsel, hlast]
      match hsorted : s.sortedKeyBlocks with
      | [] => exact Or.inr ⟨rfl, rfl, Nat.zero_le _⟩
      | [_] => exact Or.inr ⟨rfl, rfl, le_rfl⟩
      | left :: right :: rest =>
          left
          have hadd := h.addTask hsorted fun t ht task htask ↦
            h.active.hasMorselLeft_eq_false hlast ht htask
          have hmore : (s.newTask left right).hasMorselLeft = true :=
            Bool.or_eq_true_iff.mpr (Or.inl (decide_eq_true
              (h.sorted left (by simp [hsorted])).numTuples_pos))
          obtain ⟨morsel, task', hmorsel, hinv⟩ :=
            hadd.exists_getMorsel List.getLast?_concat (tasks_setTask_self _ _ _) hmore
          refine ⟨s.numTasks, morsel, _, ?_, hinv⟩
          have hmorsel' : (s.newTask left right).getMorsel merger s.memory =
            .ok (morsel, task') := hmorsel
          have hset : (s.addTask left right rest).setTask s.numTasks task' =
              { s.setTask s.numTasks task' with
                newKeyBlock :=
                  s.newKeyBlock + (s.newTask left right).resultKeyBlock.keyBlocks.length
                sortedKeyBlocks := rest
                numTasks := s.numTasks + 1
                activeKeyBlockMergeTasks := s.activeKeyBlockMergeTasks ++ [s.numTasks] } := by
            rw [setTask, setTask, KeyBlockMergeTaskDispatcher.addTask, setTask]
            simp only [Function.update_idem]
          simp only [hmorsel', ok_bind, pure_eq_ok, hset]

end NewTask

end KeyBlockMergeTaskDispatcher

end Graphflow.OrderBy
