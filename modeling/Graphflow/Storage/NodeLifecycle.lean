import Graphflow.Storage.TableStatistics
import Mathlib.Data.Set.Basic
import Mathlib.Order.Bounds.Basic

/-!
# The nodes of a table as a set

`NodeStatisticsAndDeletedIDs` keeps the nodes of a table by a counter, a map from morsels to their
deleted offsets and a flag for each morsel.  The three are compared here with the set of live
offsets.
-/

namespace Graphflow.Storage.NodeStatisticsAndDeletedIDs

variable {s s' : NodeStatisticsAndDeletedIDs} {o m : ℕ}

/-- The deleted offsets of a morsel. -/
def deletedIn (s : NodeStatisticsAndDeletedIDs) (m : ℕ) : Finset ℕ :=
  (s.deletedNodeOffsetsPerMorsel.lookup m).getD ∅

def deleted (s : NodeStatisticsAndDeletedIDs) : Set ℕ :=
  {o | o ∈ s.deletedIn (o / defaultVectorCapacity)}

/-- The offsets up to the maximal one that are not deleted; an empty table has none. -/
def live (s : NodeStatisticsAndDeletedIDs) : Set ℕ :=
  {o | s.getMaxNodeOffset ≠ uint64Max ∧ o ≤ s.getMaxNodeOffset ∧ o ∉ s.deleted}

/-- Every morsel up to the one of the maximal offset has a flag that tells whether it holds a
deleted offset. -/
def FlagsExact (s : NodeStatisticsAndDeletedIDs) : Prop :=
  s.getMaxNodeOffset ≠ uint64Max → ∀ m ≤ s.getMaxNodeOffset / defaultVectorCapacity,
    ∃ b, s.hasDeletedNodesPerMorsel[m]? = some b ∧
      (b = true ↔ ∃ o ∈ s.deleted, o / defaultVectorCapacity = m)

/-- The three structures agree. -/
structure Consistent (s : NodeStatisticsAndDeletedIDs) : Prop where
  numTuples : s.numTuples = uint64Max ∨ 0 < s.numTuples ∧ s.numTuples < uint64Max
  nonempty : ∀ m ∈ s.deletedNodeOffsetsPerMorsel, (s.deletedIn m).Nonempty
  offsets : ∀ m, ∀ o ∈ s.deletedIn m, o / defaultVectorCapacity = m ∧ o < s.numTuples ∧
    s.numTuples ≠ uint64Max
  length : s.numTuples ≠ uint64Max →
    (s.numTuples - 1) / defaultVectorCapacity < s.hasDeletedNodesPerMorsel.length
  flags : ∀ m b, s.hasDeletedNodesPerMorsel[m]? = some b →
    (b = true ↔ m ∈ s.deletedNodeOffsetsPerMorsel)

namespace Consistent

theorem getMaxNodeOffset (hs : s.Consistent) (hne : s.numTuples ≠ uint64Max) :
    s.getMaxNodeOffset = s.numTuples - 1 := by
  obtain ⟨hpos, hlt⟩ := hs.numTuples.resolve_left hne
  simp only [NodeStatisticsAndDeletedIDs.getMaxNodeOffset, getMaxNodeOffsetFromNumTuples, hne,
    if_false]
  simp only [uint64Max] at *
  omega

theorem getMaxNodeOffset_eq_iff (hs : s.Consistent) :
    s.getMaxNodeOffset = uint64Max ↔ s.numTuples = uint64Max := by
  constructor
  · intro hmax
    by_contra hne
    have hlt := (hs.numTuples.resolve_left hne).2
    rw [hs.getMaxNodeOffset hne] at hmax
    omega
  · intro heq
    simp [NodeStatisticsAndDeletedIDs.getMaxNodeOffset, getMaxNodeOffsetFromNumTuples, heq]

theorem mem_live_iff (hs : s.Consistent) :
    o ∈ s.live ↔ s.numTuples ≠ uint64Max ∧ o < s.numTuples ∧ o ∉ s.deleted := by
  simp only [live, Set.mem_ofPred_eq, ne_eq, hs.getMaxNodeOffset_eq_iff]
  refine and_congr_right fun hne ↦ ?_
  have hpos := (hs.numTuples.resolve_left hne).1
  rw [hs.getMaxNodeOffset hne]
  refine and_congr_left fun _ ↦ ?_
  omega

theorem mem_morsels_iff (hs : s.Consistent) :
    m ∈ s.deletedNodeOffsetsPerMorsel ↔ ∃ o ∈ s.deleted, o / defaultVectorCapacity = m := by
  constructor
  · intro hm
    obtain ⟨o, ho⟩ := hs.nonempty m hm
    obtain ⟨rfl, -⟩ := hs.offsets m o ho
    exact ⟨o, ho, rfl⟩
  · rintro ⟨o, ho, rfl⟩
    by_contra hnot
    simp [deleted, deletedIn, Finmap.lookup_eq_none.mpr hnot] at ho

theorem flagsExact (hs : s.Consistent) : s.FlagsExact := by
  intro hne m hm
  rw [ne_eq, hs.getMaxNodeOffset_eq_iff] at hne
  rw [hs.getMaxNodeOffset hne] at hm
  have hlt := lt_of_le_of_lt hm (hs.length hne)
  refine ⟨s.hasDeletedNodesPerMorsel[m], List.getElem?_eq_getElem hlt, ?_⟩
  rw [hs.flags m _ (List.getElem?_eq_getElem hlt), hs.mem_morsels_iff]

end Consistent

/-! ## Marking an offset as deleted -/

theorem deletedIn_insert {offsets : Finset ℕ} (m' : ℕ) {flags : List Bool} :
    deletedIn { s with
      deletedNodeOffsetsPerMorsel := s.deletedNodeOffsetsPerMorsel.insert m offsets
      hasDeletedNodesPerMorsel := flags } m' = if m' = m then offsets else s.deletedIn m' := by
  by_cases heq : m' = m
  · subst heq
    simp [deletedIn]
  · simp [deletedIn, Finmap.lookup_insert_of_ne _ heq, heq]

/-- The statistics with one more deleted offset. -/
def withDeleted (s : NodeStatisticsAndDeletedIDs) (o : ℕ) : NodeStatisticsAndDeletedIDs :=
  { s with
    deletedNodeOffsetsPerMorsel := s.deletedNodeOffsetsPerMorsel.insert (o / defaultVectorCapacity)
      (insert o (s.deletedIn (o / defaultVectorCapacity)))
    hasDeletedNodesPerMorsel :=
      s.hasDeletedNodesPerMorsel.set (o / defaultVectorCapacity) true }

theorem addDeletedNodeOffset_eq_ok
    (hlt : o / defaultVectorCapacity < s.hasDeletedNodesPerMorsel.length) :
    s.addDeletedNodeOffset o = .ok (s.withDeleted o) := by
  simp only [addDeletedNodeOffset, setElement, hlt, if_true, Lib.ok_bind, Lib.pure_eq_ok]
  rfl

theorem deletedIn_withDeleted (m : ℕ) : (s.withDeleted o).deletedIn m =
    if m = o / defaultVectorCapacity then insert o (s.deletedIn (o / defaultVectorCapacity))
    else s.deletedIn m :=
  deletedIn_insert m

theorem deleted_withDeleted : (s.withDeleted o).deleted = insert o s.deleted := by
  ext o'
  simp only [deleted, Set.mem_ofPred_eq, deletedIn_withDeleted, Set.mem_insert_iff]
  by_cases heq : o' = o
  · simp [heq]
  · by_cases hmorsel : o' / defaultVectorCapacity = o / defaultVectorCapacity <;>
      simp [heq, hmorsel]

theorem mem_morsels_withDeleted : m ∈ (s.withDeleted o).deletedNodeOffsetsPerMorsel ↔
    m = o / defaultVectorCapacity ∨ m ∈ s.deletedNodeOffsetsPerMorsel :=
  Finmap.mem_insert

theorem nonempty_withDeleted (h : ∀ m ∈ s.deletedNodeOffsetsPerMorsel, (s.deletedIn m).Nonempty) :
    ∀ m ∈ (s.withDeleted o).deletedNodeOffsetsPerMorsel,
      ((s.withDeleted o).deletedIn m).Nonempty := by
  intro m hm
  rw [deletedIn_withDeleted]
  split
  · exact Finset.insert_nonempty _ _
  next heq => exact h m ((mem_morsels_withDeleted.mp hm).resolve_left heq)

theorem flags_withDeleted
    (hlt : o / defaultVectorCapacity < s.hasDeletedNodesPerMorsel.length)
    (h : ∀ m b, s.hasDeletedNodesPerMorsel[m]? = some b →
      (b = true ↔ m ∈ s.deletedNodeOffsetsPerMorsel)) :
    ∀ m b, (s.withDeleted o).hasDeletedNodesPerMorsel[m]? = some b →
      (b = true ↔ m ∈ (s.withDeleted o).deletedNodeOffsetsPerMorsel) := by
  intro m b hb
  rw [withDeleted, List.getElem?_set] at hb
  rw [mem_morsels_withDeleted]
  split at hb
  next heq =>
    obtain rfl : true = b := by simpa [hlt] using hb
    simp [heq]
  next heq => rw [h m b hb, or_iff_right (Ne.symm heq)]

/-- One more deleted offset. -/
theorem Consistent.addDeletedNodeOffset (hs : s.Consistent) (hne : s.numTuples ≠ uint64Max)
    (ho : o < s.numTuples) : ∃ s', s.addDeletedNodeOffset o = .ok s' ∧ s'.Consistent ∧
      s'.numTuples = s.numTuples ∧ s'.deleted = insert o s.deleted := by
  have hlt : o / defaultVectorCapacity < s.hasDeletedNodesPerMorsel.length := by
    refine lt_of_le_of_lt (Nat.div_le_div_right ?_) (hs.length hne)
    omega
  refine ⟨s.withDeleted o, addDeletedNodeOffset_eq_ok hlt, ?_, rfl, deleted_withDeleted⟩
  constructor
  · exact hs.numTuples
  · exact nonempty_withDeleted hs.nonempty
  · intro m o' ho'
    rw [deletedIn_withDeleted] at ho'
    split at ho'
    next heq =>
      rcases Finset.mem_insert.mp ho' with rfl | ho'
      · exact ⟨heq.symm, ho, hne⟩
      · exact heq ▸ hs.offsets m o' (heq ▸ ho')
    · exact hs.offsets m o' ho'
  · simpa [withDeleted] using hs.length
  · exact flags_withDeleted hlt hs.flags

theorem isDeleted_iff : s.isDeleted o (o / defaultVectorCapacity) ↔ o ∈ s.deleted := by
  simp only [isDeleted, deleted, deletedIn, Set.mem_ofPred_eq]
  split
  next offsets hlookup => simp [hlookup]
  next hlookup => simp [hlookup]

/-- Deleting a live node marks its offset. -/
theorem Consistent.deleteNode_of_live (hs : s.Consistent) (ho : o ∈ s.live) :
    s.deleteNode o none = s.addDeletedNodeOffset o := by
  obtain ⟨hne, hlt, hnot⟩ := hs.mem_live_iff.mp ho
  have hmax : ¬ (s.getMaxNodeOffset = uint64Max ∨ s.getMaxNodeOffset < o) := by
    rw [hs.getMaxNodeOffset_eq_iff, hs.getMaxNodeOffset hne]
    omega
  have hmorsel : o / defaultVectorCapacity < s.hasDeletedNodesPerMorsel.length := by
    refine lt_of_le_of_lt (Nat.div_le_div_right ?_) (hs.length hne)
    omega
  have hflag := List.getElem?_eq_getElem hmorsel
  have hiff := hs.flags _ _ hflag
  have hdeleted : s.isDeleted o (o / defaultVectorCapacity) = false := by
    rw [← Bool.not_eq_true, isDeleted_iff]
    exact hnot
  simp only [deleteNode, hmax, if_false, hdeleted, Bool.false_eq_true, hflag, hiff, or_self,
    NodeStatisticsAndDeletedIDs.addDeletedNodeOffset, setElement, hmorsel, if_true, Lib.ok_bind,
    Lib.pure_eq_ok, Lib.throw_eq_error]
  by_cases hmem : o / defaultVectorCapacity ∈ s.deletedNodeOffsetsPerMorsel
  · obtain ⟨offsets, hoffsets⟩ := Finmap.mem_iff.mp hmem
    simp [hmem, hoffsets]
  · simp [hmem, Finmap.lookup_eq_none.mpr hmem]

theorem deleteNode_of_not_live (ho : o ∉ s.live) :
    ∃ message, s.deleteNode o none = .error (.exception message) := by
  by_cases hmax : s.getMaxNodeOffset = uint64Max ∨ s.getMaxNodeOffset < o
  · exact ⟨s.cannotDeleteMessage o, by simp [deleteNode, hmax]⟩
  · have hdeleted : s.isDeleted o (o / defaultVectorCapacity) = true := by
      rw [isDeleted_iff]
      by_contra hnot
      apply ho
      exact ⟨fun heq ↦ hmax (.inl heq), by omega, hnot⟩
    exact ⟨_, by simp [deleteNode, hmax, hdeleted]; rfl⟩

/-! ## Adding a node -/

/-- The offset that a new node is to get: the largest deleted one of the first morsel with deleted
offsets, else the one behind the last. -/
def IsNextOffset (s : NodeStatisticsAndDeletedIDs) (o : ℕ) : Prop :=
  (s.deleted = ∅ ∧ o = if s.getMaxNodeOffset = uint64Max then 0 else s.getMaxNodeOffset + 1) ∨
    ∃ m, IsLeast {m | ∃ d ∈ s.deleted, d / defaultVectorCapacity = m} m ∧
      IsGreatest {d | d ∈ s.deleted ∧ d / defaultVectorCapacity = m} o

/-- When adding a node goes well: the table has a node, the first morsel with deleted offsets has
more than one of them, and a node behind the last does not begin a morsel. -/
def CanAddNode (s : NodeStatisticsAndDeletedIDs) : Prop :=
  s.numTuples ≠ uint64Max ∧
    match s.deletedNodeOffsetsPerMorsel.keys.min with
    | ⊤ => s.numTuples % defaultVectorCapacity ≠ 0 ∧ s.numTuples + 1 ≠ uint64Max
    | some m => 1 < (s.deletedIn m).card

theorem deleted_eq_empty (hkeys : s.deletedNodeOffsetsPerMorsel.keys = ∅) : s.deleted = ∅ := by
  ext o
  have hnot : o / defaultVectorCapacity ∉ s.deletedNodeOffsetsPerMorsel := by
    rw [← Finmap.mem_keys, hkeys]
    simp
  simp [deleted, deletedIn, Finmap.lookup_eq_none.mpr hnot]

theorem Consistent.addNode_behind (hs : s.Consistent) (hne : s.numTuples ≠ uint64Max)
    (hkeys : s.deletedNodeOffsetsPerMorsel.keys.min = ⊤)
    (hmorsel : s.numTuples % defaultVectorCapacity ≠ 0) (hroom : s.numTuples + 1 ≠ uint64Max) :
    ∃ s', s.addNode = .ok (s', s.numTuples) ∧ s'.Consistent ∧ s.IsNextOffset s.numTuples ∧
      s.numTuples ∉ s.live ∧ s'.live = insert s.numTuples s.live := by
  obtain ⟨hpos, hlt⟩ := hs.numTuples.resolve_left hne
  have hempty := deleted_eq_empty (Finset.min_eq_top.mp hkeys)
  have hmod : (s.numTuples + 1) % 2 ^ 64 = s.numTuples + 1 := by
    apply Nat.mod_eq_of_lt
    simp only [uint64Max] at hlt
    omega
  have hs' : Consistent { s with numTuples := s.numTuples + 1 } := {
    numTuples := .inr ⟨Nat.succ_pos _, lt_of_le_of_ne hlt hroom⟩
    nonempty := hs.nonempty
    offsets := fun m o ho ↦ ⟨(hs.offsets m o ho).1,
      Nat.lt_succ_of_lt (hs.offsets m o ho).2.1, hroom⟩
    length := by
      intro _
      have hsame : s.numTuples / defaultVectorCapacity =
          (s.numTuples - 1) / defaultVectorCapacity := by
        simp only [defaultVectorCapacity] at *
        omega
      simpa [hsame] using hs.length hne
    flags := hs.flags }
  refine ⟨{ s with numTuples := s.numTuples + 1 }, ?_, hs', ?_, ?_, ?_⟩
  · have hmax := hs'.getMaxNodeOffset hroom
    simp only [addNode, hkeys, hmod, hmax]
    rfl
  · refine .inl ⟨hempty, ?_⟩
    rw [if_neg (mt hs.getMaxNodeOffset_eq_iff.mp hne), hs.getMaxNodeOffset hne]
    omega
  · intro hlive
    exact lt_irrefl _ (hs.mem_live_iff.mp hlive).2.1
  · have hempty' : deleted { s with numTuples := s.numTuples + 1 } = ∅ := hempty
    ext o
    rw [hs'.mem_live_iff, Set.mem_insert_iff, hs.mem_live_iff, hempty, hempty']
    simp only [ne_eq, hroom, hne, not_false_eq_true, Set.mem_empty_iff_false, and_true, true_and]
    omega

theorem Consistent.addNode_reuse (hs : s.Consistent)
    (hkeys : s.deletedNodeOffsetsPerMorsel.keys.min = WithTop.some m)
    (hcard : 1 < (s.deletedIn m).card) :
    ∃ s' o, s.addNode = .ok (s', o) ∧ s'.Consistent ∧ s.IsNextOffset o ∧
      o ∉ s.live ∧ s'.live = insert o s.live := by
  obtain ⟨o, ho⟩ := Finset.max_of_nonempty (Finset.card_pos.mp (Nat.zero_lt_of_lt hcard))
  have hmem : o ∈ s.deletedIn m := Finset.mem_of_max ho
  obtain ⟨hmorsel, hlt, hne⟩ := hs.offsets m o hmem
  have hdeleted : o ∈ s.deleted := by simpa [deleted, hmorsel] using hmem
  have hrest : ((s.deletedIn m).erase o).Nonempty := by
    apply Finset.card_pos.mp
    rw [Finset.card_erase_of_mem hmem]
    omega
  set s' : NodeStatisticsAndDeletedIDs := { s with
    deletedNodeOffsetsPerMorsel :=
      s.deletedNodeOffsetsPerMorsel.insert m ((s.deletedIn m).erase o) } with hs'eq
  have hdeletedIn : ∀ m', s'.deletedIn m' =
      if m' = m then (s.deletedIn m).erase o else s.deletedIn m' :=
    fun m' ↦ deletedIn_insert m'
  have hkey : m ∈ s.deletedNodeOffsetsPerMorsel :=
    Finmap.mem_keys.mp (Finset.mem_of_min hkeys)
  have hs' : s'.Consistent := {
    numTuples := hs.numTuples
    nonempty := by
      intro m' hm'
      rw [hdeletedIn]
      split
      · exact hrest
      next heq => exact hs.nonempty m' (by simpa [s', Finmap.mem_insert, heq] using hm')
    offsets := by
      intro m' o' ho'
      rw [hdeletedIn] at ho'
      split at ho'
      next heq => exact heq ▸ hs.offsets m o' (Finset.mem_of_mem_erase ho')
      · exact hs.offsets m' o' ho'
    length := hs.length
    flags := by
      intro m' b hb
      rw [hs.flags m' b hb]
      simp only [s', Finmap.mem_insert]
      refine ⟨.inr, fun hm' ↦ ?_⟩
      rcases hm' with rfl | hm'
      · exact hkey
      · exact hm' }
  have hdeleted' : ∀ o', o' ∈ s'.deleted ↔ o' ∈ s.deleted ∧ o' ≠ o := by
    intro o'
    simp only [deleted, Set.mem_ofPred_eq, hdeletedIn]
    split
    next heq => rw [Finset.mem_erase, heq, and_comm]
    next heq =>
      refine ⟨fun ho' ↦ ⟨ho', ?_⟩, And.left⟩
      rintro rfl
      exact heq hmorsel
  refine ⟨s', o, ?_, hs', .inr ⟨m, ?_, ?_⟩, ?_, ?_⟩
  · have hoffsets : (s.deletedNodeOffsetsPerMorsel.lookup m).getD ∅ = s.deletedIn m := rfl
    have hne' : (s.deletedIn m).erase o ≠ ∅ := Finset.nonempty_iff_ne_empty.mp hrest
    simp only [addNode, hkeys, hoffsets, ho]
    exact if_neg hne'
  · refine ⟨hs.mem_morsels_iff.mp hkey, fun m' hm' ↦ ?_⟩
    have hmem' := Finmap.mem_keys.mpr (hs.mem_morsels_iff.mpr hm')
    exact Finset.min_le_of_eq hmem' hkeys
  · refine ⟨⟨hdeleted, hmorsel⟩, fun o' ho' ↦ ?_⟩
    obtain ⟨ho', rfl⟩ := ho'
    exact Finset.le_max_of_eq ho' ho
  · intro hlive
    exact (hs.mem_live_iff.mp hlive).2.2 hdeleted
  · ext o'
    rw [hs'.mem_live_iff, Set.mem_insert_iff, hs.mem_live_iff, hdeleted']
    have hnum : s'.numTuples = s.numTuples := rfl
    rw [hnum]
    by_cases heq : o' = o
    · simp [heq, hne, hlt]
    · simp [heq]

/-- Adding a node makes exactly the returned offset live. -/
theorem Consistent.addNode (hs : s.Consistent) (hcan : s.CanAddNode) :
    ∃ s' o, s.addNode = .ok (s', o) ∧ s'.Consistent ∧ s.IsNextOffset o ∧
      o ∉ s.live ∧ s'.live = insert o s.live := by
  obtain ⟨hne, hcan⟩ := hcan
  split at hcan
  next hkeys =>
    obtain ⟨s', hs'⟩ := hs.addNode_behind hne hkeys hcan.1 hcan.2
    exact ⟨s', s.numTuples, hs'⟩
  next m hkeys => exact hs.addNode_reuse hkeys hcan

/-! ## Whole lives of a table -/

/-- The constructor, for a maximal offset other than the one that counts as an empty table. -/
theorem exists_ofDeletedNodeOffsets (tableID : ℕ) {maxNodeOffset : ℕ} {deletedNodeOffsets : List ℕ}
    (hmax : maxNodeOffset + 1 < uint64Max)
    (hdeleted : ∀ o ∈ deletedNodeOffsets, o ≤ maxNodeOffset) :
    ∃ s, ofDeletedNodeOffsets tableID maxNodeOffset deletedNodeOffsets = .ok s ∧ s.Consistent ∧
      s.getMaxNodeOffset = maxNodeOffset ∧
      s.live = {o | o ≤ maxNodeOffset ∧ o ∉ deletedNodeOffsets} := by
  set s₀ := setMaxNodeOffset ⟨0, tableID, [], ∅⟩ maxNodeOffset with hs₀
  have hne : maxNodeOffset ≠ uint64Max := by omega
  have hlt : maxNodeOffset + 1 < 2 ^ 64 := by
    simp only [uint64Max] at hmax
    omega
  have hinit : s₀ = ⟨maxNodeOffset + 1, tableID,
      List.replicate (maxNodeOffset / defaultVectorCapacity + 1) false, ∅⟩ := by
    simp only [s₀, setMaxNodeOffset, hne, if_false, Nat.mod_eq_of_lt hlt, resize, List.take_nil,
      List.nil_append, List.length_nil, Nat.sub_zero]
  have hconsistent : s₀.Consistent := by
    rw [hinit]
    exact {
      numTuples := .inr ⟨Nat.succ_pos _, hmax⟩
      nonempty := fun m hm ↦ absurd hm Finmap.notMem_empty
      offsets := by simp [deletedIn]
      length := by simp
      flags := by simp +contextual [List.getElem?_replicate, Finmap.notMem_empty] }
  obtain ⟨s, hloop, hs, hnum, hset⟩ : ∃ s, deletedNodeOffsets.foldlM
      NodeStatisticsAndDeletedIDs.addDeletedNodeOffset s₀ = .ok s ∧ s.Consistent ∧
      s.numTuples = maxNodeOffset + 1 ∧ s.deleted = {o | o ∈ deletedNodeOffsets} := by
    apply Lib.exists_foldlM_eq_ok (fun (done : List ℕ) (s : NodeStatisticsAndDeletedIDs) ↦
      s.Consistent ∧ s.numTuples = maxNodeOffset + 1 ∧ s.deleted = {o | o ∈ done})
    · refine ⟨hconsistent, by rw [hinit], ?_⟩
      rw [hinit]
      simp [deleted, deletedIn]
    · rintro done o rest s heq ⟨hs, hnum, hset⟩
      have ho : o ≤ maxNodeOffset := hdeleted o (by simp [heq])
      obtain ⟨s', hok, hs', hnum', hset'⟩ := hs.addDeletedNodeOffset (o := o) (by omega) (by omega)
      refine ⟨s', hok, hs', hnum'.trans hnum, ?_⟩
      rw [hset', hset]
      ext o'
      simp [or_comm]
  refine ⟨s, hloop, hs, by rw [hs.getMaxNodeOffset (by omega), hnum, Nat.add_sub_cancel], ?_⟩
  ext o
  rw [hs.mem_live_iff, hset, hnum]
  simp only [Set.mem_ofPred_eq, ne_eq, hmax.ne, not_false_eq_true, true_and, Nat.lt_succ_iff]

theorem consistent_empty (tableID : ℕ) : (empty tableID).Consistent where
  numTuples := .inl rfl
  nonempty := fun m hm ↦ absurd hm Finmap.notMem_empty
  offsets := by simp [empty, deletedIn]
  length := fun hne ↦ absurd rfl hne
  flags := by simp [empty]

/-- The constructor, also for the empty table. -/
theorem exists_constructed (tableID : ℕ) {maxNodeOffset : ℕ} {deletedNodeOffsets : List ℕ}
    (hmax : maxNodeOffset ≠ uint64Max - 1) (hmax' : maxNodeOffset ≤ uint64Max)
    (hdeleted : ∀ o ∈ deletedNodeOffsets, maxNodeOffset ≠ uint64Max ∧ o ≤ maxNodeOffset) :
    ∃ s, ofDeletedNodeOffsets tableID maxNodeOffset deletedNodeOffsets = .ok s ∧ s.Consistent ∧
      s.getMaxNodeOffset = maxNodeOffset ∧
      s.live = {o | maxNodeOffset ≠ uint64Max ∧ o ≤ maxNodeOffset ∧ o ∉ deletedNodeOffsets} := by
  by_cases hempty : maxNodeOffset = uint64Max
  · have hnil : deletedNodeOffsets = [] :=
      List.eq_nil_iff_forall_not_mem.mpr fun o ho ↦ (hdeleted o ho).1 hempty
    refine ⟨empty tableID, ?_, consistent_empty tableID, ?_, ?_⟩
    · simp [ofDeletedNodeOffsets, hnil, setMaxNodeOffset, hempty, empty]
    · rw [hempty]
      exact (consistent_empty tableID).getMaxNodeOffset_eq_iff.mpr rfl
    · ext o
      rw [(consistent_empty tableID).mem_live_iff]
      simp [empty, hempty]
  · obtain ⟨s, hok, hs, hlast, hlive⟩ := exists_ofDeletedNodeOffsets tableID
      (by omega) fun o ho ↦ (hdeleted o ho).2
    refine ⟨s, hok, hs, hlast, ?_⟩
    rw [hlive]
    simp [hempty]

inductive NodeUpdate
  | addNode
  | deleteNode (nodeOffset : ℕ)

/-- The state after an update; an update that throws changes nothing, and there is no next state
after an access outside of what is allocated. -/
def update (s : NodeStatisticsAndDeletedIDs) : NodeUpdate → Option NodeStatisticsAndDeletedIDs
  | .addNode =>
      match s.addNode with
      | .ok (s', _) => some s'
      | .error (.exception _) => some s
      | .error .invalidAccess => none
  | .deleteNode nodeOffset =>
      match s.deleteNode nodeOffset none with
      | .ok s' => some s'
      | .error (.exception _) => some s
      | .error .invalidAccess => none

/-- What the next update does to the set of live offsets. -/
def UpdatesLive (s : NodeStatisticsAndDeletedIDs) : NodeUpdate → Prop
  | .addNode => ∃ s' o, s.addNode = .ok (s', o) ∧ s.IsNextOffset o ∧ o ∉ s.live ∧
      s'.live = insert o s.live
  | .deleteNode o =>
      (o ∈ s.live → ∃ s', s.deleteNode o none = .ok s' ∧ s'.live = s.live \ {o}) ∧
        (o ∉ s.live → ∃ message, s.deleteNode o none = .error (.exception message))

/-- Deleting needs no condition. -/
def CanUpdate (s : NodeStatisticsAndDeletedIDs) : NodeUpdate → Prop
  | .addNode => s.CanAddNode
  | .deleteNode _ => True

theorem Consistent.deleteNode (hs : s.Consistent) (ho : o ∈ s.live) :
    ∃ s', s.deleteNode o none = .ok s' ∧ s'.Consistent ∧ s'.live = s.live \ {o} := by
  obtain ⟨hne, hlt, -⟩ := hs.mem_live_iff.mp ho
  obtain ⟨s', hok, hs', hnum, hset⟩ := hs.addDeletedNodeOffset hne hlt
  refine ⟨s', (hs.deleteNode_of_live ho).trans hok, hs', ?_⟩
  ext o'
  rw [hs'.mem_live_iff, Set.mem_sdiff, hs.mem_live_iff, hset, hnum]
  simp only [Set.mem_insert_iff, Set.mem_singleton_iff]
  tauto

/-- One update keeps the structures consistent and does to the live offsets what it should. -/
theorem Consistent.update (hs : s.Consistent) {u : NodeUpdate} (hcan : s.CanUpdate u) :
    s.UpdatesLive u ∧ ∃ s', s.update u = some s' ∧ s'.Consistent := by
  cases u with
  | addNode =>
      obtain ⟨s', o, hadd, hs', hspec⟩ := hs.addNode hcan
      exact ⟨⟨s', o, hadd, hspec⟩, s', by simp [NodeStatisticsAndDeletedIDs.update, hadd], hs'⟩
  | deleteNode o =>
      by_cases ho : o ∈ s.live
      · obtain ⟨s', hdelete, hs', hlive⟩ := hs.deleteNode ho
        exact ⟨⟨fun _ ↦ ⟨s', hdelete, hlive⟩, fun hnot ↦ absurd ho hnot⟩, s',
          by simp [NodeStatisticsAndDeletedIDs.update, hdelete], hs'⟩
      · obtain ⟨message, hdelete⟩ := deleteNode_of_not_live ho
        exact ⟨⟨fun hlive ↦ absurd hlive ho, fun _ ↦ ⟨message, hdelete⟩⟩, s,
          by simp [NodeStatisticsAndDeletedIDs.update, hdelete], hs⟩

/-- From any constructed table on, as long as nodes are added only when this goes well, every state
is reached, its flags are exact, and the next update changes the set of live offsets as it
should. -/
theorem lifecycle_along_updates (tableID maxNodeOffset : ℕ) (deletedNodeOffsets : List ℕ)
    (hmax : maxNodeOffset ≠ uint64Max - 1) (hmax' : maxNodeOffset ≤ uint64Max)
    (hdeleted : ∀ o ∈ deletedNodeOffsets, maxNodeOffset ≠ uint64Max ∧ o ≤ maxNodeOffset) :
    ∃ s₀, ofDeletedNodeOffsets tableID maxNodeOffset deletedNodeOffsets = .ok s₀ ∧
      s₀.live = {o | maxNodeOffset ≠ uint64Max ∧ o ≤ maxNodeOffset ∧ o ∉ deletedNodeOffsets} ∧
      ∀ updates u, Lib.MeetsAlong update CanUpdate s₀ (updates ++ [u]) →
        ∃ s, Lib.run update s₀ updates = some s ∧ s.FlagsExact ∧ s.UpdatesLive u := by
  obtain ⟨s₀, hok, hs₀, -, hlive⟩ := exists_constructed tableID hmax hmax' hdeleted
  refine ⟨s₀, hok, hlive, fun updates u hmeets ↦ ?_⟩
  have hstep : ∀ s u, Consistent s → s.CanUpdate u → ∃ s', s.update u = some s' ∧ s'.Consistent :=
    fun s u hs hcan ↦ (hs.update hcan).2
  obtain ⟨s, hrun, hs⟩ := Lib.exists_run_of_meets hstep hs₀ (Lib.meetsAlong_left hmeets)
  obtain ⟨-, hcan, -⟩ := Lib.meetsAlong_append hrun hmeets
  exact ⟨s, hrun, hs.flagsExact, (hs.update hcan).1⟩

theorem lifecycle_along_updates_threeNodes : ∃ s₀ s,
    ofDeletedNodeOffsets 0 2 [0, 1] = .ok s₀ ∧ Lib.run update s₀ [.addNode] = some s ∧
      s.FlagsExact ∧ s.UpdatesLive (.deleteNode 2) := by
  obtain ⟨s₀, hok, -, hall⟩ :=
    lifecycle_along_updates 0 2 [0, 1] (by decide) (by decide) (by decide)
  obtain ⟨s₁, hs₁, hcan⟩ : ∃ s₁, ofDeletedNodeOffsets 0 2 [0, 1] = .ok s₁ ∧ s₁.CanAddNode :=
    ⟨_, rfl, by decide, by show 1 < Finset.card _; decide⟩
  obtain rfl := Except.ok.inj (hok.symm.trans hs₁)
  obtain ⟨s, hrun, hflags, hlive⟩ := hall [.addNode] (.deleteNode 2)
    ⟨hcan, fun s' _ ↦ ⟨trivial, fun _ _ ↦ trivial⟩⟩
  exact ⟨s₀, s, hok, hrun, hflags, hlive⟩

/-- The first node of an empty table gets the offset that stands for an empty table. -/
theorem not_updatesLive_of_empty : ∃ s₀, ofDeletedNodeOffsets 0 uint64Max [] = .ok s₀ ∧
    ¬ s₀.UpdatesLive .addNode := by
  refine ⟨empty 0, rfl, ?_⟩
  rintro ⟨s', o, hadd, hnext, -, -⟩
  have hmax : (empty 0).addNode = .ok (⟨0, 0, [], ∅⟩, uint64Max) := rfl
  obtain ⟨-, ho⟩ := Prod.mk.inj (Except.ok.inj (hmax.symm.trans hadd))
  have hempty : (empty 0).deleted = ∅ := deleted_eq_empty rfl
  rcases hnext with ⟨-, hzero⟩ | ⟨m, ⟨⟨d, hd, -⟩, -⟩, -⟩
  · have hlast : (empty 0).getMaxNodeOffset = uint64Max := rfl
    rw [if_pos hlast] at hzero
    simp [hzero, uint64Max] at ho
  · simp [hempty] at hd

end Graphflow.Storage.NodeStatisticsAndDeletedIDs
