import Graphflow.OrderBy.ParallelMerge
import Mathlib.Data.List.Pairwise

/-!
# Runs of the parallel merge

The merge of a morsel, the end of a task, and from these what holds along every run: the workers
come to an end unless there is no block at all.
-/

namespace Graphflow.OrderBy

open Lib Storage

namespace KeyBlockMergeTaskDispatcher

variable {numWorkers : ℕ} {V α : Type} [LinearOrder α] {merger : KeyBlockMerger V}
  {rank : List UInt8 → α} {input : List (List UInt8)}
  {s s' : KeyBlockMergeTaskDispatcher numWorkers} {t : ℕ} {w : Fin numWorkers}
  {task : KeyBlockMergeTask} {memory' : KeyBlockMemory} {morsel : KeyBlockMergeMorsel}

/-! ## Merging a morsel -/

/-- The morsel's part of the result is written, and no other part of it. -/
theorem Given.exists_mergeKeyBlocks {given : List KeyBlockMergeMorsel} {i j : ℕ}
    {memory : KeyBlockMemory} (h : Given merger rank task memory given i j) (hmem : morsel ∈ given)
    (hmerge : merger.mergeKeyBlocks task morsel memory = .ok memory') :
    (∀ keyBlock ∉ task.resultKeyBlock.keyBlocks, memory' keyBlock = memory keyBlock) ∧
      Given merger rank task memory' given i j ∧ IsMerged rank task memory' morsel ∧
      ∀ m ∈ given, IsMerged rank task memory m → IsMerged rank task memory' m := by
  have hwell := h.sortedBlocks.wellFormed
  obtain ⟨-, -, -, -, hcuts⟩ := h.partitions.cuts_of_mem hmem
  have hstart : morsel.rightKeyBlockStartIdx < task.rightKeyBlock.numTuples := by
    by_contra hend
    exact mergeKeyBlocks_ne_ok (Nat.not_lt.mp hend) hmerge
  have hwithin := hcuts.within hstart
  have hsame : OnlyResultChanged task memory memory :=
    onlyResultChanged_of_frame hwell fun _ _ ↦ rfl
  obtain ⟨memory₁, hmerge₁, happended⟩ := OrderBy.exists_mergeKeyBlocks
    (hsame.comparable h.sortedBlocks hwithin hcuts.separated) hwithin
  obtain rfl : memory' = memory₁ := Except.ok.inj (hmerge.symm.trans hmerge₁)
  have hleft : ∀ keyBlock ∈ task.leftKeyBlock.keyBlocks, memory' keyBlock = memory keyBlock :=
    fun keyBlock hkeyBlock ↦ happended.frame keyBlock (hwell.disjoint_left hkeyBlock)
  have hright : ∀ keyBlock ∈ task.rightKeyBlock.keyBlocks, memory' keyBlock = memory keyBlock :=
    fun keyBlock hkeyBlock ↦ happended.frame keyBlock (hwell.disjoint_right hkeyBlock)
  have hlength := @KeyBlockMergeMorsel.length_merged α _ rank task memory morsel hwithin
  have hlt := hcuts.left_lt
  have hle := hcuts.right_le
  have hmerged : IsMerged rank task memory' morsel := by
    rw [IsMerged, merged_congr hleft hright hcuts]
    apply happended.segment_eq
    omega
  refine ⟨happended.frame, h.congr hleft hright, hmerged, fun m hm hmMerged ↦ ?_⟩
  by_cases heq : m = morsel
  · rw [heq]
    exact hmerged
  · obtain ⟨-, -, -, -, hcutsM⟩ := h.partitions.cuts_of_mem hm
    have hsymm : Std.Symm KeyBlockMergeMorsel.Apart := ⟨fun _ _ ↦ Or.symm⟩
    have hapart : m.Apart morsel := h.partitions.pairwise_apart.forall hm hmem heq
    refine isMerged_congr hleft hright hcutsM ?_ hmMerged
    have hnumTuples := hwell.numTuples_result
    have hleftM := hcutsM.left_le
    have hrightM := hcutsM.right_le_numTuples
    apply happended.segment_of_apart (by omega)
    unfold KeyBlockMergeMorsel.Apart at hapart
    omega

theorem morsel?_moveTo_of_eq {worker : OrderByMerge}
    (h : worker.morsel? = (s.workers w).morsel?) (w' : Fin numWorkers) :
    ((s.moveTo w worker).workers w').morsel? = (s.workers w').morsel? := by
  rw [workers_moveTo]
  by_cases heq : w' = w
  · subst heq
    rw [Function.update_self, h]
  · rw [Function.update_of_ne heq]

/-- Buffers that only the result of a task has. -/
theorem Inv.result_apart (h : Inv merger rank input s) (ht : t ∈ s.activeKeyBlockMergeTasks)
    (htask : s.tasks t = some task)
    (hframe : ∀ keyBlock ∉ task.resultKeyBlock.keyBlocks,
      memory' keyBlock = s.memory keyBlock) :
    (∀ b ∈ s.sortedKeyBlocks, ∀ keyBlock ∈ b.keyBlocks, memory' keyBlock = s.memory keyBlock) ∧
      ∀ t' ∈ s.activeKeyBlockMergeTasks, t' ≠ t → ∀ task', s.tasks t' = some task' →
        ∀ b ∈ taskBlocks task', ∀ keyBlock ∈ b.keyBlocks,
          memory' keyBlock = s.memory keyBlock := by
  have hresult : task.resultKeyBlock ∈ taskBlocks task := by simp [taskBlocks]
  constructor
  · intro b hb keyBlock hkeyBlock
    exact hframe keyBlock
      (h.buffers.sorted_apart_task b hb t ht task htask _ hresult hkeyBlock)
  · intro t' ht' hne task' htask' b hb keyBlock hkeyBlock
    exact hframe keyBlock
      (h.buffers.task_apart t' ht' t ht hne task' task htask' htask b hb _ hresult hkeyBlock)

theorem elim_taskContents_congr (htask : s.tasks t = some task)
    (hleft : ∀ keyBlock ∈ task.leftKeyBlock.keyBlocks, memory' keyBlock = s.memory keyBlock)
    (hright : ∀ keyBlock ∈ task.rightKeyBlock.keyBlocks, memory' keyBlock = s.memory keyBlock) :
    (s.tasks t).elim [] (taskContents memory') =
      (s.tasks t).elim [] (taskContents s.memory) := by
  rw [htask, Option.elim_some, Option.elim_some, taskContents, taskContents,
    MergedKeyBlocks.contents_congr hleft, MergedKeyBlocks.contents_congr hright]

/-- A worker has merged its morsel. -/
theorem Inv.mergeKeyBlocks (h : Inv merger rank input s)
    (hw : s.workers w = .mergesKeyBlocks t morsel) (htask : s.tasks t = some task)
    (hmerge : merger.mergeKeyBlocks task morsel s.memory = .ok memory') :
    Inv merger rank input
      (({ s with memory := memory' } : KeyBlockMergeTaskDispatcher numWorkers).moveTo w
        (.callsDoneMorsel t morsel)) := by
  have hholds : (s.workers w).morsel? = some (t, morsel) := by
    rw [hw]
    rfl
  have ht := h.active.active_of_holds w t morsel hholds
  obtain ⟨task₁, htask₁, hpos, halive, hholders, given, i, j, hgiven, hheld, hmorsels⟩ :=
    h.task t ht
  obtain rfl : task = task₁ := Option.some.inj (htask.symm.trans htask₁)
  obtain ⟨hframe, hgiven', hmerged, hothers⟩ :=
    hgiven.exists_mergeKeyBlocks (hheld w morsel hholds) hmerge
  obtain ⟨hsorted, htasks⟩ := h.result_apart ht htask hframe
  have hwell := hgiven.sortedBlocks.wellFormed
  have hmorsel? : ∀ w', ((({ s with memory := memory' } :
      KeyBlockMergeTaskDispatcher numWorkers).moveTo w (.callsDoneMorsel t morsel)).workers
        w').morsel? = (s.workers w').morsel? :=
    morsel?_moveTo_of_eq (s := { s with memory := memory' }) hholds.symm
  constructor
  · intro t' ht'
    by_cases heq : t' = t
    · subst heq
      refine ⟨task, htask, hpos, halive, ?_, given, i, j, hgiven', fun w' m hm ↦ ?_, fun m hm ↦ ?_⟩
      · obtain ⟨ws, hnodup, hws, hlength⟩ := hholders
        refine ⟨ws, hnodup, fun w' ↦ ?_, hlength⟩
        rw [hws w', hmorsel? w']
      · rw [hmorsel? w'] at hm
        exact hheld w' m hm
      · by_cases hmm : m = morsel
        · rw [hmm]
          exact Or.inr hmerged
        · rcases hmorsels m hm with ⟨w', hw'⟩ | hm'
          · refine Or.inl ⟨w', mergesKeyBlocks_moveTo (s := { s with memory := memory' }) ?_ hw'⟩
            intro heq
            rw [hw] at heq
            injection heq with _ hmorsel
            exact hmm hmorsel.symm
          · exact Or.inr (hothers m hm hm')
    · obtain ⟨task', htask', hinv⟩ := h.task t' ht'
      refine ⟨task', htask', hinv.congr (htasks t' ht' heq task' htask') (fun w' m ↦ ?_)
        fun w' m hm ↦ ?_⟩
      · rw [hmorsel? w']
      · apply mergesKeyBlocks_moveTo (s := { s with memory := memory' }) _ hm
        intro heq'
        rw [hw] at heq'
        injection heq' with htt
        exact heq htt.symm
  · exact { h.active with
      active_of_holds := fun w' t' m hm ↦ by
        rw [hmorsel? w'] at hm
        exact h.active.active_of_holds w' t' m hm }
  · exact { h.buffers with }
  · intro b hb
    have hb' := h.sorted b hb
    refine { hb' with sorted := ?_ }
    exact (congrArg (List.Pairwise _) (MergedKeyBlocks.contents_congr (hsorted b hb))).mpr
      hb'.sorted
  · have htuples : (({ s with memory := memory' } :
        KeyBlockMergeTaskDispatcher numWorkers).moveTo w (.callsDoneMorsel t morsel)).tuples =
          s.tuples := by
      apply congrArg₂ (· ++ ·)
      · exact List.flatMap_congr fun b hb ↦ MergedKeyBlocks.contents_congr (hsorted b hb)
      · apply List.flatMap_congr
        intro t' ht'
        obtain ⟨task', htask', -⟩ := h.task t' ht'
        by_cases heq : t' = t
        · subst heq
          exact elim_taskContents_congr htask
            (fun keyBlock hmem ↦ hframe keyBlock (hwell.disjoint_left hmem))
            fun keyBlock hmem ↦ hframe keyBlock (hwell.disjoint_right hmem)
        · have hblocks := htasks t' ht' heq task' htask'
          exact elim_taskContents_congr htask' (hblocks _ (by simp [taskBlocks]))
            (hblocks _ (by simp [taskBlocks]))
    rw [htuples]
    exact h.tuples_perm
  · exact h.ordersBy

/-! ## The end of a morsel -/

theorem doneMorsel_of_last (hlast : task.activeMorsels - 1 = 0)
    (hmore : task.hasMorselLeft = false) :
    s.doneMorsel t task = { s.setTask t { task with activeMorsels := task.activeMorsels - 1 } with
      activeKeyBlockMergeTasks := s.activeKeyBlockMergeTasks.filter (· ≠ t)
      sortedKeyBlocks := s.sortedKeyBlocks ++ [task.resultKeyBlock] } := by
  rw [doneMorsel]
  apply if_pos
  rw [Bool.and_eq_true, decide_eq_true_iff]
  exact ⟨hlast, congrArg not hmore⟩

theorem doneMorsel_of_more (hmore : task.activeMorsels - 1 ≠ 0 ∨ task.hasMorselLeft = true) :
    s.doneMorsel t task = s.setTask t { task with activeMorsels := task.activeMorsels - 1 } := by
  rw [doneMorsel]
  apply if_neg
  rw [Bool.and_eq_true, decide_eq_true_iff]
  rintro ⟨hlast, hnot⟩
  rcases hmore with hne | htrue
  · exact hne hlast
  · have hnot' : (!task.hasMorselLeft) = true := hnot
    rw [htrue] at hnot'
    cases hnot'

/-- The worker that ends the last morsel of a task is the only one that has held one. -/
theorem TaskInv.eq_of_holds (h : TaskInv merger rank s t task)
    (hw : (s.workers w).morsel? = some (t, morsel)) (hlast : task.activeMorsels - 1 = 0)
    {w' : Fin numWorkers} {morsel' : KeyBlockMergeMorsel}
    (hw' : (s.workers w').morsel? = some (t, morsel')) : w' = w := by
  obtain ⟨ws, -, hws, hlength⟩ := h.holders
  have hmem : w ∈ ws := (hws w).mpr ⟨morsel, hw⟩
  have hmem' : w' ∈ ws := (hws w').mpr ⟨morsel', hw'⟩
  have hpos := List.length_pos_of_mem hmem
  obtain ⟨w₁, rfl⟩ := List.length_eq_one_iff.mp (show ws.length = 1 by omega)
  rw [List.mem_singleton.mp hmem, List.mem_singleton.mp hmem']

/-- Then the result is the merge of the two blocks. -/
theorem TaskInv.contents_eq_merge (h : TaskInv merger rank s t task)
    (hw : s.workers w = .callsDoneMorsel t morsel) (hlast : task.activeMorsels - 1 = 0)
    (hmore : task.hasMorselLeft = false) :
    task.resultKeyBlock.contents s.memory = (task.leftKeyBlock.contents s.memory).merge
      (task.rightKeyBlock.contents s.memory) (notAfter rank) := by
  have hholds : (s.workers w).morsel? = some (t, morsel) := by
    rw [hw]
    rfl
  obtain ⟨given, i, j, hgiven, -, hmorsels⟩ := h.given
  have hend : task.leftKeyBlock.numTuples ≤ i := by
    by_contra hlt
    have hleft := hgiven.goesOn.hasMorselLeft_iff.mpr (Nat.not_le.mp hlt)
    rw [hmore] at hleft
    cases hleft
  have hi : i = task.leftKeyBlock.numTuples := by
    rcases hgiven.goesOn.left with ⟨-, hlt⟩ | ⟨heq, -⟩
    · exact absurd hend (Nat.not_le.mpr hlt)
    · exact heq
  have hj := hgiven.goesOn.right_of_left hi
  have hparts := hgiven.partitions
  rw [hi, hj] at hparts
  refine OrderBy.contents_eq_merge hgiven.sortedBlocks.wellFormed hparts fun m hm ↦ ?_
  rcases hmorsels m hm with ⟨w', hw'⟩ | hmerged
  · have hholds' : (s.workers w').morsel? = some (t, m) := by
      rw [hw']
      rfl
    obtain rfl := h.eq_of_holds hholds hlast hholds'
    rw [hw] at hw'
    cases hw'
  · exact hmerged

theorem pairwise_merge_notAfter {left right : List (List UInt8)}
    (hleft : left.Pairwise fun l r ↦ rank l ≤ rank r)
    (hright : right.Pairwise fun l r ↦ rank l ≤ rank r) :
    (left.merge right (notAfter rank)).Pairwise fun l r ↦ rank l ≤ rank r := by
  have hmerge := @List.pairwise_merge _ (notAfter rank)
    (fun a b c hab hbc ↦ decide_eq_true (le_trans (of_decide_eq_true hab) (of_decide_eq_true hbc)))
    (fun a b ↦ by
      rw [notAfter, notAfter, Bool.or_eq_true, decide_eq_true_iff, decide_eq_true_iff]
      exact le_total _ _)
    left right (hleft.imp decide_eq_true) (hright.imp decide_eq_true)
  exact hmerge.imp of_decide_eq_true

/-- The result of a task that is done. -/
theorem TaskInv.sortedBlock_result (h : TaskInv merger rank s t task)
    (hw : s.workers w = .callsDoneMorsel t morsel) (hlast : task.activeMorsels - 1 = 0)
    (hmore : task.hasMorselLeft = false) :
    SortedBlock merger rank s.memory task.resultKeyBlock ∧
      (task.resultKeyBlock.contents s.memory).Perm (taskContents s.memory task) := by
  have hcontents := h.contents_eq_merge hw hlast hmore
  obtain ⟨given, i, j, hgiven, -⟩ := h.given
  have hwell := hgiven.sortedBlocks.wellFormed
  refine ⟨⟨hwell.numBytesPerTuple_result, ?_, ?_⟩, ?_⟩
  · rw [hwell.numTuples_result]
    exact Nat.add_pos_left h.left_pos _
  · rw [hcontents]
    exact pairwise_merge_notAfter hgiven.sortedBlocks.sorted_left hgiven.sortedBlocks.sorted_right
  · rw [hcontents]
    exact List.merge_perm_append _

theorem Given.with_active {given : List KeyBlockMergeMorsel} {i j : ℕ} {memory : KeyBlockMemory}
    (h : Given merger rank task memory given i j) (activeMorsels : ℕ) :
    Given merger rank { task with activeMorsels := activeMorsels } memory given i j :=
  ⟨h.sortedBlocks.with_next _ _ _, { h.goesOn with }, h.separated, h.partitions⟩

/-- A worker has given its morsel back, and the task goes on. -/
theorem TaskInv.doneMorsel (h : TaskInv merger rank s t task)
    (hw : s.workers w = .callsDoneMorsel t morsel)
    (hmore : task.activeMorsels - 1 ≠ 0 ∨ task.hasMorselLeft = true)
    (hmemory : s'.memory = s.memory)
    (hworkers : s'.workers = Function.update s.workers w .checksIsDoneMerge) :
    TaskInv merger rank s' t { task with activeMorsels := task.activeMorsels - 1 } := by
  obtain ⟨hpos, -, ⟨ws, hnodup, hws, hlength⟩, given, i, j, hgiven, hheld, hmorsels⟩ := h
  have hmem : w ∈ ws := (hws w).mpr ⟨morsel, by
    rw [hw]
    rfl⟩
  refine ⟨hpos, hmore.symm.imp_right Nat.pos_of_ne_zero, ⟨ws.erase w, hnodup.erase w,
    fun w' ↦ ?_, ?_⟩, given, i, j, ?_, fun w' m hm ↦ ?_, fun m hm ↦ ?_⟩
  · rw [hnodup.mem_erase_iff, hws w', hworkers]
    simp only [morsel?_update_eq_iff]
    constructor
    · rintro ⟨hne, m, hm⟩
      exact ⟨m, Or.inr ⟨hne, hm⟩⟩
    · rintro ⟨m, ⟨-, hm⟩ | ⟨hne, hm⟩⟩
      · cases hm
      · exact ⟨hne, m, hm⟩
  · rw [List.length_erase_of_mem hmem, hlength]
  · rw [hmemory]
    exact hgiven.with_active _
  · rw [hworkers, morsel?_update_eq_iff] at hm
    rcases hm with ⟨-, hm⟩ | ⟨-, hm⟩
    · cases hm
    · exact hheld w' m hm
  · rw [hmemory, hworkers]
    rcases hmorsels m hm with ⟨w', hw'⟩ | hmerged
    · refine Or.inl ⟨w', ?_⟩
      rw [Function.update_of_ne, hw']
      rintro rfl
      rw [hw] at hw'
      cases hw'
    · exact Or.inr hmerged

/-- Another task. -/
theorem TaskInv.doneMorsel_of_ne {t' : ℕ} (h : TaskInv merger rank s t' task)
    (hw : s.workers w = .callsDoneMorsel t morsel) (hne : t' ≠ t)
    (hmemory : s'.memory = s.memory)
    (hworkers : s'.workers = Function.update s.workers w .checksIsDoneMerge) :
    TaskInv merger rank s' t' task := by
  refine h.congr (fun _ _ _ _ ↦ by rw [hmemory]) (fun w' m ↦ ?_) fun w' m hm ↦ ?_
  · rw [hworkers, morsel?_update_eq_iff]
    constructor
    · rintro (⟨-, hm⟩ | ⟨-, hm⟩)
      · cases hm
      · exact hm
    · intro hm
      refine Or.inr ⟨?_, hm⟩
      rintro rfl
      rw [hw] at hm
      exact hne (Prod.mk.inj (Option.some.inj hm)).1.symm
  · rw [hworkers, Function.update_of_ne, hm]
    rintro rfl
    rw [hw] at hm
    cases hm

theorem active_of_holds_moveTo (h : ActiveInv s)
    (hworkers : s'.workers = Function.update s.workers w .checksIsDoneMerge) {w' : Fin numWorkers}
    {t' : ℕ} {m : KeyBlockMergeMorsel} (hm : (s'.workers w').morsel? = some (t', m)) :
    w' ≠ w ∧ (s.workers w').morsel? = some (t', m) ∧ t' ∈ s.activeKeyBlockMergeTasks := by
  rw [hworkers, morsel?_update_eq_iff] at hm
  rcases hm with ⟨-, hm⟩ | ⟨hne, hm⟩
  · cases hm
  · exact ⟨hne, hm, h.active_of_holds w' t' m hm⟩

/-- The task has other morsels left or given out. -/
theorem Inv.doneMorsel_of_more (h : Inv merger rank input s)
    (hw : s.workers w = .callsDoneMorsel t morsel) (htask : s.tasks t = some task)
    (hmore : task.activeMorsels - 1 ≠ 0 ∨ task.hasMorselLeft = true) :
    Inv merger rank input
      ((s.setTask t { task with activeMorsels := task.activeMorsels - 1 }).moveTo w
        .checksIsDoneMerge) := by
  constructor
  · intro t' ht'
    obtain ⟨task', htask', hinv⟩ := h.task t' ht'
    by_cases heq : t' = t
    · subst heq
      obtain rfl : task = task' := Option.some.inj (htask.symm.trans htask')
      exact ⟨_, tasks_setTask_self _ _ _, hinv.doneMorsel hw hmore rfl rfl⟩
    · exact ⟨task', (tasks_setTask_of_ne heq).trans htask', hinv.doneMorsel_of_ne hw heq rfl rfl⟩
  · exact { h.active with
      active_of_holds := fun w' t' m hm ↦
        (active_of_holds_moveTo (w := w) h.active rfl hm).2.2
      noMorselLeft := fun t' ht' task' htask' ↦ by
        by_cases heq : t' = t
        · subst heq
          obtain rfl := Option.some.inj ((tasks_setTask_self _ _ _).symm.trans htask')
          exact h.active.noMorselLeft t' ht' task htask
        · exact h.active.noMorselLeft t' ht' task' ((tasks_setTask_of_ne heq).symm.trans htask') }
  · have hbuffers := @BuffersInv.setTask _ s t task
      { task with activeMorsels := task.activeMorsels - 1 } h.buffers htask rfl
    exact hbuffers.moveTo _ _
  · exact h.sorted
  · have htuples := @tuples_setTask _ s t task
      { task with activeMorsels := task.activeMorsels - 1 } htask rfl
    exact (congrArg (List.Perm · input) htuples).mpr h.tuples_perm
  · exact h.ordersBy

theorem dropLast_filter_subset {ts : List ℕ} {p : ℕ → Bool} {t : ℕ}
    (h : t ∈ (ts.filter p).dropLast) : t ∈ ts.dropLast := by
  rcases List.eq_nil_or_concat ts with rfl | ⟨ts', t', rfl⟩
  · exact h
  · rw [List.concat_eq_append, List.dropLast_concat]
    rw [List.concat_eq_append, List.filter_append] at h
    cases hp : p t' with
    | true =>
        rw [List.filter_cons_of_pos hp, List.filter_nil, List.dropLast_concat] at h
        exact (List.mem_filter.mp h).1
    | false =>
        rw [List.filter_cons_of_neg (Bool.eq_false_iff.mp hp), List.filter_nil,
          List.append_nil] at h
        exact (List.mem_filter.mp (List.mem_of_mem_dropLast h)).1

/-- The tuples of the task are now those of its result. -/
theorem tuples_doneMorsel (h : Inv merger rank input s) (ht : t ∈ s.activeKeyBlockMergeTasks)
    (htask : s.tasks t = some task)
    (hperm : (task.resultKeyBlock.contents s.memory).Perm (taskContents s.memory task))
    (hlast : task.activeMorsels - 1 = 0) (hmore : task.hasMorselLeft = false) :
    (s.doneMorsel t task).tuples.Perm s.tuples := by
  have hactive : s.activeKeyBlockMergeTasks.Perm
      (t :: s.activeKeyBlockMergeTasks.filter (· ≠ t)) := by
    have hfilter : s.activeKeyBlockMergeTasks.filter (· ≠ t) =
        s.activeKeyBlockMergeTasks.filter (· != t) :=
      List.filter_congr fun t' _ ↦ Bool.eq_iff_iff.mpr (by simp)
    rw [hfilter, ← h.active.nodup.erase_eq_filter]
    exact List.perm_cons_erase ht
  have hothers : (s.activeKeyBlockMergeTasks.filter (· ≠ t)).flatMap (fun t' ↦
        ((s.setTask t { task with activeMorsels := task.activeMorsels - 1 }).tasks t').elim []
          (taskContents s.memory)) =
      (s.activeKeyBlockMergeTasks.filter (· ≠ t)).flatMap fun t' ↦
        (s.tasks t').elim [] (taskContents s.memory) :=
    List.flatMap_congr fun t' ht' ↦ congrArg (Option.elim · [] (taskContents s.memory))
      (tasks_setTask_of_ne (of_decide_eq_true (List.mem_filter.mp ht').2))
  have hnew : (s.doneMorsel t task).tuples = s.sortedKeyBlocks.flatMap (·.contents s.memory) ++
      (task.resultKeyBlock.contents s.memory ++
        (s.activeKeyBlockMergeTasks.filter (· ≠ t)).flatMap fun t' ↦
          (s.tasks t').elim [] (taskContents s.memory)) := by
    rw [← hothers, ← List.append_assoc, KeyBlockMergeTaskDispatcher.doneMorsel_of_last hlast hmore,
      tuples]
    apply congrArg (· ++ _)
    rw [List.flatMap_append, List.flatMap_singleton]
    rfl
  have hold := hactive.flatMap_right fun t' ↦ (s.tasks t').elim [] (taskContents s.memory)
  rw [List.flatMap_cons, htask, Option.elim_some] at hold
  rw [hnew]
  exact ((hperm.append_right _).trans hold.symm).append_left _

/-- The task is done. -/
theorem Inv.doneMorsel_of_last (h : Inv merger rank input s)
    (hw : s.workers w = .callsDoneMorsel t morsel) (htask : s.tasks t = some task)
    (hlast : task.activeMorsels - 1 = 0) (hmore : task.hasMorselLeft = false) :
    Inv merger rank input ((s.doneMorsel t task).moveTo w .checksIsDoneMerge) := by
  have hholds : (s.workers w).morsel? = some (t, morsel) := by
    rw [hw]
    rfl
  have ht := h.active.active_of_holds w t morsel hholds
  obtain ⟨task₁, htask₁, hinv⟩ := h.task t ht
  obtain rfl : task = task₁ := Option.some.inj (htask.symm.trans htask₁)
  obtain ⟨hblock, hperm⟩ := hinv.sortedBlock_result hw hlast hmore
  have htuples := tuples_doneMorsel h ht htask hperm hlast hmore
  rw [KeyBlockMergeTaskDispatcher.doneMorsel_of_last hlast hmore] at htuples ⊢
  have hsub : ∀ t' ∈ s.activeKeyBlockMergeTasks.filter (· ≠ t),
      t' ∈ s.activeKeyBlockMergeTasks ∧ t' ≠ t := by
    intro t' ht'
    obtain ⟨hmem, hne⟩ := List.mem_filter.mp ht'
    exact ⟨hmem, of_decide_eq_true hne⟩
  have hresult : task.resultKeyBlock ∈ taskBlocks task := by simp [taskBlocks]
  constructor
  · intro t' ht'
    obtain ⟨hmem, hne⟩ := hsub t' ht'
    obtain ⟨task', htask', hinv'⟩ := h.task t' hmem
    exact ⟨task', (tasks_setTask_of_ne hne).trans htask', hinv'.doneMorsel_of_ne hw hne rfl rfl⟩
  · constructor
    · exact h.active.nodup.filter _
    · exact fun t' ht' ↦ h.active.lt_numTasks t' (hsub t' ht').1
    · intro w' t' m hm
      obtain ⟨hne, hm', hmem⟩ := active_of_holds_moveTo (w := w) h.active rfl hm
      refine List.mem_filter.mpr ⟨hmem, decide_eq_true ?_⟩
      rintro rfl
      exact hne (hinv.eq_of_holds hholds hlast hm')
    · intro t' ht' task' htask'
      have hmem := dropLast_filter_subset ht'
      have hne := (hsub t' (List.mem_of_mem_dropLast ht')).2
      exact h.active.noMorselLeft t' hmem task' ((tasks_setTask_of_ne hne).symm.trans htask')
    · exact Nat.add_pos_left (List.length_pos_of_mem (List.mem_append_right _
        (List.mem_singleton_self _))) _
  · constructor
    · intro b hb
      rcases List.mem_append.mp hb with hb | hb
      · exact h.buffers.sorted_lt b hb
      · obtain rfl := List.mem_singleton.mp hb
        exact h.buffers.task_lt t ht task htask _ hresult
    · intro t' ht' task' htask'
      obtain ⟨hmem, hne⟩ := hsub t' ht'
      exact h.buffers.task_lt t' hmem task' ((tasks_setTask_of_ne hne).symm.trans htask')
    · refine List.pairwise_append.mpr ⟨h.buffers.sorted_apart, List.pairwise_singleton _ _, ?_⟩
      intro b hb b' hb'
      obtain rfl := List.mem_singleton.mp hb'
      exact h.buffers.sorted_apart_task b hb t ht task htask _ hresult
    · intro b hb t' ht' task' htask'
      obtain ⟨hmem, hne⟩ := hsub t' ht'
      have htask'' := (tasks_setTask_of_ne hne).symm.trans htask'
      rcases List.mem_append.mp hb with hb | hb
      · exact h.buffers.sorted_apart_task b hb t' hmem task' htask''
      · obtain rfl := List.mem_singleton.mp hb
        exact h.buffers.task_apart t ht t' hmem hne.symm task task' htask htask'' _ hresult
    · intro t₁ ht₁ t₂ ht₂ hne task₁ task₂ htask₁ htask₂
      obtain ⟨hmem₁, hne₁⟩ := hsub t₁ ht₁
      obtain ⟨hmem₂, hne₂⟩ := hsub t₂ ht₂
      exact h.buffers.task_apart t₁ hmem₁ t₂ hmem₂ hne task₁ task₂
        ((tasks_setTask_of_ne hne₁).symm.trans htask₁)
        ((tasks_setTask_of_ne hne₂).symm.trans htask₂)
  · intro b hb
    rcases List.mem_append.mp hb with hb | hb
    · exact h.sorted b hb
    · obtain rfl := List.mem_singleton.mp hb
      exact hblock
  · exact htuples.trans h.tuples_perm
  · exact h.ordersBy

/-! ## Runs -/

/-- A step keeps the invariant. -/
theorem Inv.step (h : Inv merger rank input s) (hstep : step merger s w = some s') :
    Inv merger rank input s' := by
  rw [KeyBlockMergeTaskDispatcher.step] at hstep
  cases hw : s.workers w with
  | checksIsDoneMerge =>
      rw [hw] at hstep
      obtain rfl := Option.some.inj hstep
      apply h.moveTo_of_none
      · rw [hw]
        rfl
      · split_ifs <;> rfl
  | callsGetMorsel =>
      rw [hw] at hstep
      obtain rfl := Option.some.inj hstep
      apply h.moveTo_of_none
      · rw [hw]
        rfl
      · split_ifs <;> rfl
  | fetchesMorsel =>
      have hnone : (s.workers w).morsel? = none := by
        rw [hw]
        rfl
      rw [hw] at hstep
      rcases h.getMorsel_cases with ⟨t, morsel, s₁, hmorsel, hinv⟩ | ⟨hmorsel, -, -⟩
      · rw [hmorsel] at hstep
        obtain rfl := Option.some.inj hstep
        exact hinv w hnone
      · rw [hmorsel] at hstep
        obtain rfl := Option.some.inj hstep
        exact h.moveTo_of_none hnone rfl
  | mergesKeyBlocks t morsel =>
      rw [hw] at hstep
      obtain ⟨task, htask, hstep⟩ := Option.bind_eq_some_iff.mp hstep
      cases hmerge : merger.mergeKeyBlocks task morsel s.memory with
      | ok memory =>
          rw [hmerge] at hstep
          obtain rfl := Option.some.inj hstep
          exact h.mergeKeyBlocks hw htask hmerge
      | error fault =>
          rw [hmerge] at hstep
          cases hstep
  | callsDoneMorsel t morsel =>
      rw [hw] at hstep
      obtain ⟨task, htask, hstep⟩ := Option.bind_eq_some_iff.mp hstep
      obtain rfl := Option.some.inj hstep
      by_cases hlast : task.activeMorsels - 1 = 0 ∧ task.hasMorselLeft = false
      · exact h.doneMorsel_of_last hw htask hlast.1 hlast.2
      · rw [not_and_or, Bool.not_eq_false] at hlast
        rw [KeyBlockMergeTaskDispatcher.doneMorsel_of_more hlast]
        exact h.doneMorsel_of_more hw htask hlast
  | returned =>
      rw [hw] at hstep
      cases hstep

/-- In a reachable state in which nobody holds a morsel and none can be fetched, all is merged. -/
theorem Inv.isDoneMerge_or (h : Inv merger rank input s) :
    s.isDoneMerge = true ∨ (∃ w t morsel, (s.workers w).morsel? = some (t, morsel)) ∨
      ∃ t morsel s', s.getMorsel merger = .ok (some (t, morsel), s') := by
  rcases h.getMorsel_cases with ⟨t, morsel, s₁, hmorsel, -⟩ | ⟨-, hlast, hlength⟩
  · exact Or.inr (Or.inr ⟨t, morsel, s₁, hmorsel⟩)
  · by_cases hholds : ∃ w t morsel, (s.workers w).morsel? = some (t, morsel)
    · exact Or.inr (Or.inl hholds)
    · left
      have hnil : s.activeKeyBlockMergeTasks = [] := by
        by_contra hne
        obtain ⟨t, ht⟩ := List.exists_mem_of_ne_nil _ hne
        obtain ⟨task, htask, hinv⟩ := h.task t ht
        obtain ⟨ws, -, hws, hws'⟩ := hinv.holders
        have hmore := h.active.hasMorselLeft_eq_false hlast ht htask
        have hactive : 0 < ws.length := by
          rw [hws']
          exact hinv.alive.resolve_left (Bool.eq_false_iff.mp hmore)
        obtain ⟨w, hw⟩ := List.exists_mem_of_length_pos hactive
        obtain ⟨morsel, hmorsel⟩ := (hws w).mp hw
        exact hholds ⟨w, t, morsel, hmorsel⟩
      have hpos := h.active.length_pos
      rw [hnil, List.length_nil, Nat.add_zero] at hpos
      rw [isDoneMerge, hnil, Bool.and_eq_true, decide_eq_true_iff]
      exact ⟨by omega, rfl⟩

theorem Inv.contents_perm (h : Inv merger rank input s) (hdone : s.isDoneMerge = true) :
    ∃ b, s.sortedKeyBlocks = [b] ∧ (b.contents s.memory).Perm input := by
  rw [isDoneMerge, Bool.and_eq_true, decide_eq_true_iff, List.isEmpty_iff] at hdone
  obtain ⟨b, hb⟩ := List.length_eq_one_iff.mp hdone.1
  refine ⟨b, hb, ?_⟩
  have hperm := h.tuples_perm
  rwa [tuples, hb, hdone.2, List.flatMap_singleton, List.flatMap_nil, List.append_nil] at hperm

/-- In every state that the workers can reach, all is merged, a worker holds a morsel or one can be
fetched; and when all is merged, the block that is left has the tuples of the input. -/
def AlwaysFinishes (merger : KeyBlockMerger V) (s₀ : KeyBlockMergeTaskDispatcher numWorkers)
    (input : List (List UInt8)) : Prop :=
  ∀ ws s, run (step merger) s₀ ws = some s →
    (s.isDoneMerge = true ∨ (∃ w t morsel, (s.workers w).morsel? = some (t, morsel)) ∨
      ∃ t morsel s', s.getMorsel merger = .ok (some (t, morsel), s')) ∧
    (s.isDoneMerge = true → ∃ b, s.sortedKeyBlocks = [b] ∧ (b.contents s.memory).Perm input)

section Start

variable {memory : KeyBlockMemory} {newKeyBlock : ℕ} {blocks : List MergedKeyBlocks}

theorem inv_init (hblocks : ∀ b ∈ blocks, SortedBlock merger rank memory b)
    (horders : merger.OrdersBy rank (blocks.flatMap (·.contents memory)))
    (hapart : blocks.Pairwise Apart)
    (hlt : ∀ b ∈ blocks, ∀ keyBlock ∈ b.keyBlocks, keyBlock < newKeyBlock)
    (hpos : 0 < blocks.length) :
    Inv merger rank (blocks.flatMap (·.contents memory))
      (init numWorkers memory newKeyBlock blocks) where
  task _ ht := absurd ht List.not_mem_nil
  active :=
    { nodup := List.nodup_nil
      lt_numTasks := fun _ ht ↦ absurd ht List.not_mem_nil
      active_of_holds := fun _ _ _ hw ↦ by cases hw
      noMorselLeft := fun _ ht ↦ absurd ht List.not_mem_nil
      length_pos := hpos }
  buffers :=
    { sorted_lt := hlt
      task_lt := fun _ ht ↦ absurd ht List.not_mem_nil
      sorted_apart := hapart
      sorted_apart_task := fun _ _ _ ht ↦ absurd ht List.not_mem_nil
      task_apart := fun _ ht ↦ absurd ht List.not_mem_nil }
  sorted := hblocks
  tuples_perm := List.Perm.of_eq (List.append_nil _)
  ordersBy := horders

/-- The workers come to an end exactly if there is a block.  Without one each of them asks for a
morsel for ever. -/
theorem alwaysFinishes_iff (hblocks : ∀ b ∈ blocks, SortedBlock merger rank memory b)
    (horders : merger.OrdersBy rank (blocks.flatMap (·.contents memory)))
    (hapart : blocks.Pairwise Apart)
    (hlt : ∀ b ∈ blocks, ∀ keyBlock ∈ b.keyBlocks, keyBlock < newKeyBlock) :
    AlwaysFinishes merger (init numWorkers memory newKeyBlock blocks)
        (blocks.flatMap (·.contents memory)) ↔ 0 < blocks.length := by
  constructor
  · intro hfinishes
    obtain ⟨hprogress, -⟩ := hfinishes [] _ (run_nil _ _)
    by_contra hzero
    obtain rfl := List.length_eq_zero_iff.mp (Nat.eq_zero_of_not_pos hzero)
    rcases hprogress with hdone | ⟨w, t, morsel, hw⟩ | ⟨t, morsel, s', hmorsel⟩
    · cases hdone
    · cases hw
    · cases hmorsel
  · intro hpos ws s hrun
    have hinv : Inv merger rank (blocks.flatMap (·.contents memory)) s :=
      run_invariant (fun _ _ _ h hstep ↦ h.step hstep)
        (inv_init hblocks horders hapart hlt hpos) hrun
    exact ⟨hinv.isDoneMerge_or, hinv.contents_perm⟩

end Start

/-- Two workers merge two blocks. -/
theorem alwaysFinishes_iff_two :
    AlwaysFinishes boolMerger
      (init 2 onesAndZeros 2 [(largerTask 2 (by decide)).leftKeyBlock,
        (largerTask 2 (by decide)).rightKeyBlock])
      ([(largerTask 2 (by decide)).leftKeyBlock, (largerTask 2 (by decide)).rightKeyBlock].flatMap
        (·.contents onesAndZeros)) := by
  have hsorted := @sortedBlocks_largerTask 2 (by decide)
  refine (@alwaysFinishes_iff 2 Unit (List ℕ) _ boolMerger (keyBytes boolMerger) onesAndZeros 2 _
    (fun b hb ↦ ?_) (ordersBy_keyBytes rfl _) ?_ (fun b hb keyBlock hkeyBlock ↦ ?_)).mpr
    (Nat.succ_pos 1)
  · rcases List.mem_cons.mp hb with rfl | hb
    · exact ⟨rfl, Nat.succ_pos 1, hsorted.sorted_left⟩
    · obtain rfl := List.mem_singleton.mp hb
      exact ⟨rfl, Nat.succ_pos 0, hsorted.sorted_right⟩
  · exact List.pairwise_pair.mpr (by simp : List.Disjoint [0] [1])
  · rcases List.mem_cons.mp hb with rfl | hb
    · obtain rfl : keyBlock = 0 := List.mem_singleton.mp hkeyBlock
      exact Nat.succ_pos 1
    · obtain rfl := List.mem_singleton.mp hb
      obtain rfl : keyBlock = 1 := List.mem_singleton.mp hkeyBlock
      exact Nat.lt_succ_self 1

/-- A worker that is given no block. -/
theorem not_alwaysFinishes_nil :
    ¬ AlwaysFinishes boolMerger (init 1 onesAndZeros 0 []) [] := by
  intro hfinishes
  obtain ⟨hprogress, -⟩ := hfinishes [0, 0, 0] _ rfl
  rcases hprogress with hdone | ⟨w, t, morsel, hw⟩ | ⟨t, morsel, s', hmorsel⟩
  · cases hdone
  · obtain rfl : w = 0 := Subsingleton.elim w 0
    cases hw
  · cases hmorsel

end KeyBlockMergeTaskDispatcher

end Graphflow.OrderBy
