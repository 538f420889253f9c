import Graphflow.OrderBy.MergeOrder
import Graphflow.OrderBy.MergePartition
import Mathlib.Data.List.Lex

/-!
# Merging two blocks by morsels

The morsels of a task may be merged in any order: each of them writes its own part of the result.
-/

namespace Graphflow.OrderBy

open Lib Storage

namespace MergedKeyBlocks

variable {b : MergedKeyBlocks} {memory memory' : KeyBlockMemory} {i e start : ℕ}
  {out : List (List UInt8)}

theorem segment_congr (h : ∀ k, i ≤ k → k < e → b.tupleAt memory' k = b.tupleAt memory k) :
    b.segment memory' i e = b.segment memory i e := by
  apply List.map_congr_left
  intro k hk
  obtain ⟨hik, hke⟩ := List.mem_range'_1.mp hk
  exact h k hik (by omega)

theorem segment_zero (b : MergedKeyBlocks) (memory : KeyBlockMemory) :
    b.segment memory 0 b.numTuples = b.contents memory := by
  rw [segment, contents, Nat.sub_zero, List.range_eq_range']

theorem Appended.segment_eq (h : b.Appended memory memory' start out)
    (he : e = start + out.length) :
    b.segment memory' start e = out := by
  subst he
  apply List.ext_getElem
  · rw [length_segment, Nat.add_sub_cancel_left]
  · intro k _ hk
    simp only [segment, List.getElem_map, List.getElem_range', Nat.one_mul]
    exact h.written k hk

/-- A part of the block that is apart from what has been written. -/
theorem Appended.segment_of_apart (h : b.Appended memory memory' start out) (he : e ≤ b.numTuples)
    (hapart : e ≤ start ∨ start + out.length ≤ i) :
    b.segment memory' i e = b.segment memory i e := by
  apply segment_congr
  intro k hik hke
  exact h.others k (by omega) (by omega)

end MergedKeyBlocks

section Any

variable {V α : Type} [LinearOrder α] {merger : KeyBlockMerger V} {rank : List UInt8 → α}
  {task : KeyBlockMergeTask} {memory memory' : KeyBlockMemory} {morsel : KeyBlockMergeMorsel}
  {morsels order : List KeyBlockMergeMorsel} {i j : ℕ}

theorem KeyBlockMergeMorsel.Cuts.within
    (h : morsel.Cuts rank task.leftKeyBlock task.rightKeyBlock memory morsel.leftKeyBlockStartIdx
      morsel.rightKeyBlockStartIdx)
    (hstart : morsel.rightKeyBlockStartIdx < task.rightKeyBlock.numTuples) : morsel.Within task :=
  ⟨h.left_lt, h.left_le, h.right_le, h.right_le_numTuples, hstart⟩

/-- Two morsels write different parts of the result. -/
def KeyBlockMergeMorsel.Apart (m m' : KeyBlockMergeMorsel) : Prop :=
  m.leftKeyBlockEndIdx + m.rightKeyBlockEndIdx ≤
      m'.leftKeyBlockStartIdx + m'.rightKeyBlockStartIdx ∨
    m'.leftKeyBlockEndIdx + m'.rightKeyBlockEndIdx ≤
      m.leftKeyBlockStartIdx + m.rightKeyBlockStartIdx

theorem KeyBlockMergeMorsel.length_merged (hwithin : morsel.Within task) :
    (morsel.merged rank task memory).length =
      morsel.leftKeyBlockEndIdx + morsel.rightKeyBlockEndIdx -
        (morsel.leftKeyBlockStartIdx + morsel.rightKeyBlockStartIdx) := by
  have hleft := hwithin.left_lt
  have hright := hwithin.right_le
  rw [KeyBlockMergeMorsel.merged, List.length_merge, MergedKeyBlocks.length_segment,
    MergedKeyBlocks.length_segment]
  omega

/-- Only the result block is not what it was. -/
structure OnlyResultChanged (task : KeyBlockMergeTask) (memory memory' : KeyBlockMemory) :
    Prop where
  left : ∀ i < task.leftKeyBlock.numTuples,
    task.leftKeyBlock.tupleAt memory' i = task.leftKeyBlock.tupleAt memory i
  right : ∀ i < task.rightKeyBlock.numTuples,
    task.rightKeyBlock.tupleAt memory' i = task.rightKeyBlock.tupleAt memory i
  frame : ∀ keyBlock ∉ task.resultKeyBlock.keyBlocks, memory' keyBlock = memory keyBlock

theorem onlyResultChanged_of_frame (hwell : task.WellFormed merger)
    (hframe : ∀ keyBlock ∉ task.resultKeyBlock.keyBlocks, memory' keyBlock = memory keyBlock) :
    OnlyResultChanged task memory memory' where
  left _ hi := MergedKeyBlocks.tupleAt_congr hi fun keyBlock hmem ↦
    hframe keyBlock (hwell.disjoint_left hmem)
  right _ hi := MergedKeyBlocks.tupleAt_congr hi fun keyBlock hmem ↦
    hframe keyBlock (hwell.disjoint_right hmem)
  frame := hframe

namespace OnlyResultChanged

theorem merged_eq (h : OnlyResultChanged task memory memory') (hwithin : morsel.Within task)
    (rank : List UInt8 → α) :
    morsel.merged rank task memory' = morsel.merged rank task memory := by
  have hleft : task.leftKeyBlock.segment memory' morsel.leftKeyBlockStartIdx
      morsel.leftKeyBlockEndIdx = task.leftKeyBlock.segment memory morsel.leftKeyBlockStartIdx
        morsel.leftKeyBlockEndIdx :=
    MergedKeyBlocks.segment_congr fun k _ hk ↦ h.left k (lt_of_lt_of_le hk hwithin.left_le)
  have hright : task.rightKeyBlock.segment memory' morsel.rightKeyBlockStartIdx
      morsel.rightKeyBlockEndIdx = task.rightKeyBlock.segment memory morsel.rightKeyBlockStartIdx
        morsel.rightKeyBlockEndIdx :=
    MergedKeyBlocks.segment_congr fun k _ hk ↦
      h.right k (lt_of_lt_of_le hk hwithin.right_le_numTuples)
  rw [KeyBlockMergeMorsel.merged, KeyBlockMergeMorsel.merged, hleft, hright]

theorem comparable (h : OnlyResultChanged task memory memory')
    (hsorted : SortedBlocks merger rank task memory) (hwithin : morsel.Within task)
    (hsep : Separated rank task.leftKeyBlock task.rightKeyBlock memory morsel.leftKeyBlockEndIdx
      morsel.rightKeyBlockEndIdx) : Comparable merger rank task morsel memory' where
  wellFormed := hsorted.wellFormed
  compareTuplePtr_eq i hi j hj := by
    rw [h.left i hi, h.right j hj]
    exact hsorted.compareTuplePtr_eq hi hj
  notAfter_end i hi hend := by
    rw [h.left i (lt_of_lt_of_le hi hwithin.left_le), h.right _ hend]
    exact hsep.1 i hi _ le_rfl hend

end OnlyResultChanged

/-- The morsels are merged one after the other, in whatever order. -/
theorem exists_foldlM_mergeKeyBlocks (hsorted : SortedBlocks merger rank task memory)
    (hwithin : ∀ morsel ∈ order, morsel.Within task)
    (hsep : ∀ morsel ∈ order, Separated rank task.leftKeyBlock task.rightKeyBlock memory
      morsel.leftKeyBlockEndIdx morsel.rightKeyBlockEndIdx)
    (hapart : order.Pairwise KeyBlockMergeMorsel.Apart) :
    ∃ memory', order.foldlM (fun memory morsel ↦ merger.mergeKeyBlocks task morsel memory) memory =
        .ok memory' ∧ OnlyResultChanged task memory memory' ∧
      ∀ morsel ∈ order, task.resultKeyBlock.segment memory'
        (morsel.leftKeyBlockStartIdx + morsel.rightKeyBlockStartIdx)
        (morsel.leftKeyBlockEndIdx + morsel.rightKeyBlockEndIdx) =
          morsel.merged rank task memory := by
  apply exists_foldlM_eq_ok (fun (done : List KeyBlockMergeMorsel) memory' ↦
    OnlyResultChanged task memory memory' ∧ ∀ morsel ∈ done, task.resultKeyBlock.segment memory'
      (morsel.leftKeyBlockStartIdx + morsel.rightKeyBlockStartIdx)
      (morsel.leftKeyBlockEndIdx + morsel.rightKeyBlockEndIdx) =
        morsel.merged rank task memory)
  · exact ⟨onlyResultChanged_of_frame hsorted.wellFormed fun _ _ ↦ rfl, fun _ hmem ↦
      absurd hmem List.not_mem_nil⟩
  · rintro done morsel rest memory₁ rfl ⟨hchanged, hdone⟩
    have hmem : morsel ∈ done ++ morsel :: rest := List.mem_append_right _ List.mem_cons_self
    have hwithin' := hwithin morsel hmem
    obtain ⟨memory₂, hmerge, happended⟩ := exists_mergeKeyBlocks
      (hchanged.comparable hsorted hwithin' (hsep morsel hmem)) hwithin'
    rw [hchanged.merged_eq hwithin'] at happended
    refine ⟨memory₂, hmerge, onlyResultChanged_of_frame hsorted.wellFormed fun keyBlock hkeyBlock ↦
      (happended.frame keyBlock hkeyBlock).trans (hchanged.frame keyBlock hkeyBlock), ?_⟩
    have hlength := @KeyBlockMergeMorsel.length_merged α _ rank task memory morsel hwithin'
    have hleft := hwithin'.left_lt
    have hright := hwithin'.right_le
    intro m hm
    rcases List.mem_append.mp hm with hm | hm
    · have hwithinM := hwithin m (List.mem_append_left _ hm)
      have hapartM : m.Apart morsel :=
        (List.pairwise_append.mp hapart).2.2 m hm morsel List.mem_cons_self
      have hnumTuples := hsorted.wellFormed.numTuples_result
      have hleftM := hwithinM.left_le
      have hrightM := hwithinM.right_le_numTuples
      rw [← hdone m hm]
      apply happended.segment_of_apart (by omega)
      rw [hlength]
      unfold KeyBlockMergeMorsel.Apart at hapartM
      omega
    · obtain rfl := List.mem_singleton.mp hm
      exact happended.segment_eq (by omega)

/-! ## The whole merge -/

namespace Partitions

variable {iEnd jEnd : ℕ}

theorem pairwise_apart
    (h : Partitions rank task.leftKeyBlock task.rightKeyBlock memory iEnd jEnd i j morsels) :
    morsels.Pairwise KeyBlockMergeMorsel.Apart := by
  induction morsels generalizing i j with
  | nil => exact List.Pairwise.nil
  | cons m morsels ih =>
      refine List.pairwise_cons.mpr ⟨fun m' hm' ↦ Or.inl ?_, ih h.2⟩
      obtain ⟨hleft, hright, -⟩ := h.2.cuts_of_mem hm'
      exact Nat.add_le_add hleft hright

/-- The merged morsels one after the other are the merge of the two blocks. -/
theorem segment_eq_merge
    (h : Partitions rank task.leftKeyBlock task.rightKeyBlock memory task.leftKeyBlock.numTuples
      task.rightKeyBlock.numTuples i j morsels)
    (hmorsels : ∀ morsel ∈ morsels, task.resultKeyBlock.segment memory'
      (morsel.leftKeyBlockStartIdx + morsel.rightKeyBlockStartIdx)
      (morsel.leftKeyBlockEndIdx + morsel.rightKeyBlockEndIdx) = morsel.merged rank task memory) :
    task.resultKeyBlock.segment memory' (i + j)
        (task.leftKeyBlock.numTuples + task.rightKeyBlock.numTuples) =
      (task.leftKeyBlock.segment memory i task.leftKeyBlock.numTuples).merge
        (task.rightKeyBlock.segment memory j task.rightKeyBlock.numTuples) (notAfter rank) := by
  induction morsels generalizing i j with
  | nil =>
      rw [h.1, h.2]
      simp only [MergedKeyBlocks.segment_of_le le_rfl, List.nil_merge]
  | cons m morsels ih =>
      obtain ⟨⟨rfl, rfl, hi, hle, hj, hle', hafter, hbefore⟩, hrest⟩ := h
      have hm := hmorsels m List.mem_cons_self
      have hrest' := ih hrest fun morsel hmem ↦ hmorsels morsel (List.mem_cons_of_mem m hmem)
      rw [← MergedKeyBlocks.segment_append (Nat.add_le_add hi.le hj) (Nat.add_le_add hle hle'),
        ← MergedKeyBlocks.segment_append hi.le hle, ← MergedKeyBlocks.segment_append hj hle', hm,
        hrest', KeyBlockMergeMorsel.merged]
      symm
      apply append_merge_append
      · intro l hl r hr
        obtain ⟨a, ha, rfl⟩ := List.mem_map.mp hl
        obtain ⟨b, hb, rfl⟩ := List.mem_map.mp hr
        rw [List.mem_range'_1] at ha hb
        exact hafter a (by omega) b hb.1 (by omega)
      · intro r hr l hl
        obtain ⟨b, hb, rfl⟩ := List.mem_map.mp hr
        obtain ⟨a, ha, rfl⟩ := List.mem_map.mp hl
        rw [List.mem_range'_1] at ha hb
        exact hbefore b (by omega) a ha.1 (by omega)

end Partitions

/-- The morsels that a task gives out cover each index of the two blocks once; whatever the order
in which they are merged, no index is out of range and the result is the merge of the two blocks. -/
def MergesByMorsels (merger : KeyBlockMerger V) (rank : List UInt8 → α) (task : KeyBlockMergeTask)
    (memory : KeyBlockMemory) : Prop :=
  ∃ morsels, task.Gives merger memory morsels ∧
    (morsels.flatMap KeyBlockMergeMorsel.leftIdxs).Perm (List.range task.leftKeyBlock.numTuples) ∧
    (morsels.flatMap KeyBlockMergeMorsel.rightIdxs).Perm
      (List.range task.rightKeyBlock.numTuples) ∧
    ∀ order : List KeyBlockMergeMorsel, order.Perm morsels → ∃ memory',
      order.foldlM (fun memory morsel ↦ merger.mergeKeyBlocks task morsel memory) memory =
        .ok memory' ∧
      task.resultKeyBlock.contents memory' = (task.leftKeyBlock.contents memory).merge
        (task.rightKeyBlock.contents memory) (notAfter rank)

theorem gives_unique {morsels' : List KeyBlockMergeMorsel} (h : task.Gives merger memory morsels)
    (h' : task.Gives merger memory morsels') : morsels = morsels' := by
  induction morsels generalizing task morsels' with
  | nil =>
      cases morsels' with
      | nil => rfl
      | cons m' morsels' => exact absurd (h'.1.symm.trans h) Bool.noConfusion
  | cons m morsels ih =>
      obtain ⟨hmore, task₁, hm, hrest⟩ := h
      cases morsels' with
      | nil => exact absurd (hmore.symm.trans h') Bool.noConfusion
      | cons m' morsels' =>
          obtain ⟨-, task₁', hm', hrest'⟩ := h'
          obtain ⟨rfl, rfl⟩ := Prod.mk.inj (Except.ok.inj (hm.symm.trans hm'))
          rw [ih hrest hrest']

/-- The start of an empty range at the end of the right block is an index out of range. -/
theorem mergeKeyBlocks_ne_ok (hend : task.rightKeyBlock.numTuples ≤ morsel.rightKeyBlockStartIdx) :
    merger.mergeKeyBlocks task morsel memory ≠ .ok memory' := by
  intro hmerge
  rw [KeyBlockMerger.mergeKeyBlocks] at hmerge
  by_cases hranges : morsel.leftKeyBlockStartIdx < morsel.leftKeyBlockEndIdx ∨
    morsel.rightKeyBlockStartIdx < morsel.rightKeyBlockEndIdx
  · rw [if_neg (not_not_intro hranges)] at hmerge
    obtain ⟨left, -, hmerge⟩ := bind_eq_ok_iff.mp hmerge
    rw [BlockPtrInfo.create_of_le hend, error_bind] at hmerge
    cases hmerge
  · rw [if_pos hranges] at hmerge
    cases hmerge

theorem contents_eq_merge (hwell : task.WellFormed merger)
    (h : Partitions rank task.leftKeyBlock task.rightKeyBlock memory task.leftKeyBlock.numTuples
      task.rightKeyBlock.numTuples 0 0 morsels)
    (hmorsels : ∀ morsel ∈ morsels, task.resultKeyBlock.segment memory'
      (morsel.leftKeyBlockStartIdx + morsel.rightKeyBlockStartIdx)
      (morsel.leftKeyBlockEndIdx + morsel.rightKeyBlockEndIdx) = morsel.merged rank task memory) :
    task.resultKeyBlock.contents memory' = (task.leftKeyBlock.contents memory).merge
      (task.rightKeyBlock.contents memory) (notAfter rank) := by
  have hmerge := h.segment_eq_merge hmorsels
  rwa [← hwell.numTuples_result, Nat.add_zero, MergedKeyBlocks.segment_zero,
    MergedKeyBlocks.segment_zero, MergedKeyBlocks.segment_zero] at hmerge

section NewTask

variable (hsorted : SortedBlocks merger rank task memory)
  (hleft : 0 < task.leftKeyBlock.numTuples) (hright : 0 < task.rightKeyBlock.numTuples)
  (hleftNext : task.leftKeyBlockNextIdx = 0) (hrightNext : task.rightKeyBlockNextIdx = 0)

include hsorted hleft hright hleftNext hrightNext

/-- The morsels of a new task. -/
theorem exists_gives_new :
    ∃ morsels, task.Gives merger memory morsels ∧
      Partitions rank task.leftKeyBlock task.rightKeyBlock memory task.leftKeyBlock.numTuples
        task.rightKeyBlock.numTuples 0 0 morsels ∧
      ((∀ morsel ∈ morsels, morsel.rightKeyBlockStartIdx < task.rightKeyBlock.numTuples) ↔
        RightLasts rank task.leftKeyBlock task.rightKeyBlock memory 0) := by
  have hstarts : task.GoesOn 0 0 :=
    ⟨Or.inl ⟨hleftNext, hleft⟩, hrightNext, hright.le, fun heq ↦ absurd heq hleft.ne⟩
  obtain ⟨morsels, hgives, hparts, hiff⟩ := exists_gives hsorted hstarts
    (fun _ ↦ Nat.dvd_zero batchSize) (separated_zero _ _ _ _)
  exact ⟨morsels, hgives, hparts, hiff (Or.inl hright)⟩

/-- A morsel that starts at the end of the right block cannot be merged. -/
theorem rightLasts_of_mergesByMorsels (hmerges : MergesByMorsels merger rank task memory) :
    RightLasts rank task.leftKeyBlock task.rightKeyBlock memory 0 := by
  obtain ⟨morsels, hgives, -, hiff⟩ := exists_gives_new hsorted hleft hright hleftNext hrightNext
  obtain ⟨morsels', hgives', -, -, hmerge⟩ := hmerges
  obtain rfl := gives_unique hgives hgives'
  obtain ⟨memory', hloop, -⟩ := hmerge morsels (List.Perm.refl morsels)
  refine hiff.mp fun morsel hmem ↦ ?_
  by_contra hend
  obtain ⟨memory₁, memory₂, -, hmorsel⟩ := exists_step_of_foldlM_eq_ok (fun _ ↦ True) hloop
    trivial (fun _ _ _ _ _ ↦ trivial) hmem
  exact mergeKeyBlocks_ne_ok (Nat.not_lt.mp hend) hmorsel

theorem mergesByMorsels_of_rightLasts
    (hlasts : RightLasts rank task.leftKeyBlock task.rightKeyBlock memory 0) :
    MergesByMorsels merger rank task memory := by
  obtain ⟨morsels, hgives, hparts, hiff⟩ :=
    exists_gives_new hsorted hleft hright hleftNext hrightNext
  have hstart := hiff.mpr hlasts
  refine ⟨morsels, hgives, ?_, ?_, fun order hperm ↦ ?_⟩
  · rw [hparts.flatMap_leftIdxs, Nat.sub_zero, List.range_eq_range']
  · rw [hparts.flatMap_rightIdxs, Nat.sub_zero, List.range_eq_range']
  · have hwithin : ∀ morsel ∈ order, morsel.Within task := by
      intro morsel hmem
      have hmem' := hperm.mem_iff.mp hmem
      obtain ⟨-, -, -, -, hcuts⟩ := hparts.cuts_of_mem hmem'
      exact hcuts.within (hstart morsel hmem')
    obtain ⟨memory', hloop, -, hmorsels⟩ := exists_foldlM_mergeKeyBlocks hsorted hwithin
      (fun morsel hmem ↦ (hparts.cuts_of_mem (hperm.mem_iff.mp hmem)).2.2.2.2.separated)
      (hperm.symm.pairwise hparts.pairwise_apart Or.symm)
    exact ⟨memory', hloop, contents_eq_merge hsorted.wellFormed hparts fun morsel hmem ↦
      hmorsels morsel (hperm.mem_iff.mpr hmem)⟩

/-- A new task merges its blocks exactly if the right one lasts. -/
theorem mergesByMorsels_iff_rightLasts :
    MergesByMorsels merger rank task memory ↔
      RightLasts rank task.leftKeyBlock task.rightKeyBlock memory 0 :=
  ⟨rightLasts_of_mergesByMorsels hsorted hleft hright hleftNext hrightNext,
    mergesByMorsels_of_rightLasts hsorted hleft hright hleftNext hrightNext⟩

end NewTask

end Any

/-! ## Keys without columns to look up -/

/-- The bytes of the encoded key. -/
def keyBytes {V : Type} (merger : KeyBlockMerger V) (tuple : List UInt8) : List ℕ :=
  (tuple.take merger.numBytesToCompare).map UInt8.toNat

/-- Tuples whose keys decide are ordered by them. -/
theorem ordersBy_keyBytes {V : Type} {merger : KeyBlockMerger V}
    (hinfos : merger.stringAndUnstructuredKeyColInfo = []) (tuples : List (List UInt8)) :
    merger.OrdersBy (keyBytes merger) tuples := by
  intro l _ r _
  rw [KeyBlockMerger.compareTuplePtr, hinfos]
  exact congrArg Except.ok (decide_eq_decide.mpr compare_eq_gt_iff_map_toNat)

section Larger

def boolMerger : KeyBlockMerger Unit :=
  KeyBlockMerger.ofColumns noComparison (constantTables []) id [⟨.bool, true⟩]

/-- The left block is full of ones, the right one of zeros. -/
def onesAndZeros : KeyBlockMemory := fun keyBlock _ ↦ if keyBlock = 0 then 1 else 0

/-- A number of tuples of ones, and a tuple of zeros. -/
def largerTask (numLeft : ℕ) (hnumLeft : numLeft + 1 ≤ largePageSize / 10) : KeyBlockMergeTask where
  leftKeyBlock := .ofKeyBlock 10 numLeft 0 (by decide) (by decide) (by omega)
  rightKeyBlock := .ofKeyBlock 10 1 1 (by decide) (by decide) (by decide)
  resultKeyBlock := .ofKeyBlock 10 (numLeft + 1) 2 (by decide) (by decide) hnumLeft

variable {numLeft : ℕ} (hnumLeft : numLeft + 1 ≤ largePageSize / 10)

theorem tupleAt_largerTask {i : ℕ} (hi : i < numLeft) :
    (largerTask numLeft hnumLeft).leftKeyBlock.tupleAt onesAndZeros i = List.replicate 10 1 := by
  have hblock : i / (largerTask numLeft hnumLeft).leftKeyBlock.numTuplesPerBlock = 0 :=
    Nat.div_eq_of_lt (lt_of_lt_of_le hi (Nat.le_of_succ_le hnumLeft))
  rw [MergedKeyBlocks.tupleAt, MergedKeyBlocks.tuplePtr, hblock]
  rfl

theorem sortedBlocks_largerTask :
    SortedBlocks boolMerger (keyBytes boolMerger) (largerTask numLeft hnumLeft) onesAndZeros where
  wellFormed := ⟨rfl, rfl, rfl, rfl, (by simp : List.Disjoint [0] [2]),
    (by simp : List.Disjoint [1] [2])⟩
  ordersBy := ordersBy_keyBytes rfl _
  sorted_left := by
    apply List.pairwise_of_forall_mem_list
    intro l hl r hr
    obtain ⟨i, hi, rfl⟩ := List.mem_map.mp hl
    obtain ⟨j, hj, rfl⟩ := List.mem_map.mp hr
    rw [tupleAt_largerTask hnumLeft (List.mem_range.mp hi),
      tupleAt_largerTask hnumLeft (List.mem_range.mp hj)]
  sorted_right := List.pairwise_singleton _ _

/-- A left block with a single batch. -/
theorem mergesByMorsels_iff_rightLasts_two : MergesByMorsels boolMerger (keyBytes boolMerger)
    (largerTask 2 (by decide)) onesAndZeros :=
  (mergesByMorsels_iff_rightLasts (sortedBlocks_largerTask (by decide)) (by decide) (by decide)
    rfl rfl).mpr fun n hpos hlt hdvd ↦
      absurd (Nat.le_of_dvd hpos hdvd) (Nat.not_le.mpr (lt_trans hlt (by decide)))

/-- A batch of larger tuples, and one more tuple behind it. -/
theorem not_mergesByMorsels_larger :
    SortedBlocks boolMerger (keyBytes boolMerger) (largerTask 10001 (by decide)) onesAndZeros ∧
      ¬ MergesByMorsels boolMerger (keyBytes boolMerger) (largerTask 10001 (by decide))
        onesAndZeros := by
  have hsorted := @sortedBlocks_largerTask 10001 (by decide)
  refine ⟨hsorted, fun hmerges ↦ ?_⟩
  have hlasts := rightLasts_of_mergesByMorsels hsorted (by decide) (by decide) rfl rfl hmerges
    10000 (by decide) (by decide) (Nat.dvd_refl batchSize)
  rw [tupleAt_largerTask (by decide) (by decide)] at hlasts
  exact absurd hlasts (by decide)

end Larger

end Graphflow.OrderBy
