import Graphflow.Catalog.ReloadedContent
import Graphflow.Storage.NodeLifecycle
import Graphflow.Transaction.Manager
import Mathlib.Data.Finset.Sort

/-!
# The files of the table statistics

`TablesStatistics` writes the number of tuples and the ID of every table, and the node and the rel
statistics add what they know besides.
-/

namespace Graphflow.Storage

open Lib SerDeser Transaction

/-! ## Saving and reading -/

/-- The virtual functions of `TablesStatistics`.  The ID of the table is passed to
`serializeTableStatistics` for the orders of its loops. -/
structure StatisticsFormat (α : Type) where
  getNumTuples : α → ℕ
  serializeTableStatistics : ℕ → α → List UInt8
  deserializeTableStatistics : ℕ → ℕ → Deserializer α

namespace TablesStatistics

variable {α : Type} (format : StatisticsFormat α)

/-- The version that a transaction of this type saves. -/
def tableStatisticPerTable (s : TablesStatistics α) (transactionType : TransactionType) :
    TableMap α :=
  if transactionType = .readOnly then s.readOnly else s.write.getD s.readOnly

def serializeTable (entry : ℕ × α) : List UInt8 :=
  serializeUInt64 (format.getNumTuples entry.2) ++ serializeUInt64 entry.1 ++
    format.serializeTableStatistics entry.1 entry.2

def deserializeTable : Deserializer (ℕ × α) := do
  let numTuples ← deserializeUInt64
  let tableID ← deserializeUInt64
  let statistics ← format.deserializeTableStatistics numTuples tableID
  return (tableID, statistics)

def saveToFile (s : TablesStatistics α) (transactionType : TransactionType)
    (order : MapOrder (s.tableStatisticPerTable transactionType)) (file : List UInt8) :
    List UInt8 :=
  writeToFile file <|
    serializeUInt64 (s.tableStatisticPerTable transactionType).keys.card ++
      order.entries.flatMap (serializeTable format)

def deserializeTables : Deserializer (TablesStatistics α) := do
  let numTables ← deserializeUInt64
  let tables ← readLoop (deserializeTable format) numTables
  return ⟨insertEntries ∅ tables, none⟩

def readFromFile (file : List UInt8) : Option (TablesStatistics α) :=
  ((deserializeTables format).run file).map Prod.fst

variable {s : TablesStatistics α} {transactionType : TransactionType}

/-- What is saved comes back, if the statistics of every table do. -/
theorem readFromFile_saveToFile_eq_iff (format : StatisticsFormat α) (rebuild : ℕ → α → Option α)
    (hcard : (s.tableStatisticPerTable transactionType).keys.card < 2 ^ 32)
    (h : ∀ tableID statistics,
      (s.tableStatisticPerTable transactionType).lookup tableID = some statistics →
        tableID < 2 ^ 64 ∧ format.getNumTuples statistics < 2 ^ 64 ∧
        ReadsOption
          (format.deserializeTableStatistics (format.getNumTuples statistics) tableID)
          (format.serializeTableStatistics tableID statistics) (rebuild tableID statistics))
    (order : MapOrder (s.tableStatisticPerTable transactionType)) (file : List UInt8) :
    readFromFile format (saveToFile format s transactionType order file) =
        some ⟨s.tableStatisticPerTable transactionType, none⟩ ↔
      ∀ tableID statistics,
        (s.tableStatisticPerTable transactionType).lookup tableID = some statistics →
          rebuild tableID statistics = some statistics := by
  rw [← map_insertEntries_mapM_eq_iff order]
  have htable : ∀ entry ∈ order.entries, ReadsOption (deserializeTable format)
      (serializeTable format entry) (rebuildEntry rebuild entry) := by
    rintro ⟨tableID, statistics⟩ hmem
    obtain ⟨hid, hnum, hread⟩ := h tableID statistics ((order.mem_iff _ _).mp hmem)
    rw [serializeTable, List.append_assoc]
    apply (reads_uint64 hnum).bindOption
    apply (reads_uint64 hid).bindOption
    rw [rebuildEntry, Option.map_eq_bind]
    exact hread.bind_pure fun statistics _ ↦ Reads.pure (tableID, statistics)
  have htables : ReadsOption (deserializeTables format)
      (serializeUInt64 (s.tableStatisticPerTable transactionType).keys.card ++
        order.entries.flatMap (serializeTable format))
      ((order.entries.mapM (rebuildEntry rebuild)).bind fun tables ↦
        some ⟨insertEntries ∅ tables, none⟩) := by
    apply (reads_uint64 (hcard.trans (by decide))).bindOption
    rw [← order.length_eq] at hcard ⊢
    exact (readsOption_loop hcard htable).bind_pure fun tables _ ↦ Reads.pure _
  rw [readFromFile, saveToFile, htables.writeToFile]
  cases order.entries.mapM (rebuildEntry rebuild) with
  | none => simp
  | some tables => simp

end TablesStatistics

/-! ## Rel tables -/

/-- The orders in which the maps of a rel table are written. -/
abbrev RelStatistics.Orders (s : RelStatistics) :=
  ∀ direction, MapOrder (s.numRelsPerDirectionBoundTable direction)

/-- The numbers have their widths, and the loops can count the tables. -/
structure RelStatistics.Fits (s : RelStatistics) : Prop where
  numTuples : s.numTuples < 2 ^ 64
  card : ∀ direction, (s.numRelsPerDirectionBoundTable direction).keys.card < 2 ^ 32
  numRels : ∀ direction tableID numRels,
    (s.numRelsPerDirectionBoundTable direction).lookup tableID = some numRels →
      tableID < 2 ^ 64 ∧ numRels < 2 ^ 64

def relsFormat (orders : ℕ → (s : RelStatistics) → s.Orders) : StatisticsFormat RelStatistics where
  getNumTuples := RelStatistics.numTuples
  serializeTableStatistics := fun tableID s ↦
    serializeUnorderedMap (orders tableID s .fwd).entries ++
      serializeUnorderedMap (orders tableID s .bwd).entries
  deserializeTableStatistics := fun numTuples _ ↦ do
    let fwd ← deserializeUnorderedMap
    let bwd ← deserializeUnorderedMap
    return ⟨numTuples, fun direction ↦ match direction with | .fwd => fwd | .bwd => bwd⟩

theorem reads_relStatistics (orders : ℕ → (s : RelStatistics) → s.Orders) (tableID : ℕ)
    {s : RelStatistics} (h : s.Fits) :
    Reads ((relsFormat orders).deserializeTableStatistics s.numTuples tableID)
      ((relsFormat orders).serializeTableStatistics tableID s) s := by
  have hs : ⟨s.numTuples, fun direction ↦ match direction with
      | .fwd => s.numRelsPerDirectionBoundTable .fwd
      | .bwd => s.numRelsPerDirectionBoundTable .bwd⟩ = s := by
    obtain ⟨numTuples, numRels⟩ := s
    rw [RelStatistics.mk.injEq]
    refine ⟨rfl, funext fun direction ↦ ?_⟩
    cases direction with
    | fwd => rfl
    | bwd => rfl
  apply (reads_unorderedMap (orders tableID s .fwd) (h.card .fwd) (h.numRels .fwd)).bind
  apply (reads_unorderedMap (orders tableID s .bwd) (h.card .bwd) (h.numRels .bwd)).bind_pure
  rw [hs]
  exact .pure s

/-! ## Node tables -/

namespace NodeStatisticsAndDeletedIDs

variable {s s' : NodeStatisticsAndDeletedIDs} {o m tableID : ℕ}

/-- The morsels and the offsets in a morsel are sorted. -/
def getDeletedNodeOffsets (s : NodeStatisticsAndDeletedIDs) : List ℕ :=
  (s.deletedNodeOffsetsPerMorsel.keys.sort (· ≤ ·)).flatMap fun morselIdx ↦
    (s.deletedIn morselIdx).sort (· ≤ ·)

structure Fits (s : NodeStatisticsAndDeletedIDs) : Prop where
  numTuples : s.numTuples < 2 ^ 64
  length : s.getDeletedNodeOffsets.length < 2 ^ 64
  offsets : ∀ o ∈ s.getDeletedNodeOffsets, o < 2 ^ 64

/-- What becomes of the statistics when they are read. -/
def rebuild (tableID : ℕ) (s : NodeStatisticsAndDeletedIDs) :
    Option NodeStatisticsAndDeletedIDs :=
  (ofDeletedNodeOffsets tableID s.getMaxNodeOffset s.getDeletedNodeOffsets).toOption

end NodeStatisticsAndDeletedIDs

open NodeStatisticsAndDeletedIDs in
def nodesFormat : StatisticsFormat NodeStatisticsAndDeletedIDs where
  getNumTuples := numTuples
  serializeTableStatistics := fun _ s ↦ serializeVector serializeUInt64 s.getDeletedNodeOffsets
  deserializeTableStatistics := fun numTuples tableID ↦ do
    let deletedNodeIDs ← deserializeVector deserializeUInt64
    Deserializer.ofOption (ofDeletedNodeOffsets tableID (getMaxNodeOffsetFromNumTuples numTuples)
      deletedNodeIDs).toOption

namespace NodeStatisticsAndDeletedIDs

variable {s s' : NodeStatisticsAndDeletedIDs} {o m tableID : ℕ}

theorem readsOption_nodeStatistics (h : s.Fits) (tableID : ℕ) :
    ReadsOption (nodesFormat.deserializeTableStatistics s.numTuples tableID)
      (nodesFormat.serializeTableStatistics tableID s) (s.rebuild tableID) := by
  have hoffsets := reads_vector h.length fun o ho ↦ reads_uint64 (h.offsets o ho)
  exact hoffsets.bindOption_nil (ReadsOption.ofOption (s.rebuild tableID))

/-! ### What the constructor builds -/

def numMorsels (s : NodeStatisticsAndDeletedIDs) : ℕ :=
  if s.numTuples = uint64Max then 0 else (s.numTuples - 1) / defaultVectorCapacity + 1

/-- There is a flag for every morsel, every offset is in its morsel, and no morsel is empty. -/
structure Constructed (tableID : ℕ) (s : NodeStatisticsAndDeletedIDs) : Prop where
  tableID_eq : s.tableID = tableID
  numTuples_pos : 0 < s.numTuples
  nonempty : ∀ m ∈ s.deletedNodeOffsetsPerMorsel, (s.deletedIn m).Nonempty
  offsets : ∀ m, ∀ o ∈ s.deletedIn m, o / defaultVectorCapacity = m
  morsels : ∀ m ∈ s.deletedNodeOffsetsPerMorsel, m < s.numMorsels
  length : s.hasDeletedNodesPerMorsel.length = s.numMorsels
  flags : ∀ m b, s.hasDeletedNodesPerMorsel[m]? = some b →
    (b = true ↔ m ∈ s.deletedNodeOffsetsPerMorsel)

theorem lookup_of_mem (hm : m ∈ s.deletedNodeOffsetsPerMorsel) :
    s.deletedNodeOffsetsPerMorsel.lookup m = some (s.deletedIn m) := by
  obtain ⟨offsets, hoffsets⟩ := Finmap.mem_iff.mp hm
  rw [deletedIn, hoffsets]
  rfl

theorem Constructed.mem_morsels_iff (hs : s.Constructed tableID) :
    m ∈ s.deletedNodeOffsetsPerMorsel ↔ ∃ o ∈ s.deleted, o / defaultVectorCapacity = m := by
  constructor
  · intro hm
    obtain ⟨o, ho⟩ := hs.nonempty m hm
    obtain rfl := hs.offsets m o ho
    exact ⟨o, ho, rfl⟩
  · rintro ⟨o, ho, rfl⟩
    by_contra hnot
    simp [deleted, deletedIn, Finmap.lookup_eq_none.mpr hnot] at ho

theorem Constructed.mem_deletedIn_iff (hs : s.Constructed tableID) :
    o ∈ s.deletedIn m ↔ o ∈ s.deleted ∧ o / defaultVectorCapacity = m := by
  constructor
  · intro ho
    obtain rfl := hs.offsets m o ho
    exact ⟨ho, rfl⟩
  · rintro ⟨ho, rfl⟩
    exact ho

/-- Such statistics are known from the number of tuples and the deleted offsets. -/
theorem Constructed.eq (hs : s.Constructed tableID) (hs' : s'.Constructed tableID)
    (hnum : s.numTuples = s'.numTuples) (hdeleted : s.deleted = s'.deleted) : s = s' := by
  have hmem : ∀ m, m ∈ s.deletedNodeOffsetsPerMorsel ↔ m ∈ s'.deletedNodeOffsetsPerMorsel := by
    intro m
    rw [hs.mem_morsels_iff, hs'.mem_morsels_iff, hdeleted]
  have hin : ∀ m, s.deletedIn m = s'.deletedIn m := by
    intro m
    ext o
    rw [hs.mem_deletedIn_iff, hs'.mem_deletedIn_iff, hdeleted]
  have hmorsels : s.deletedNodeOffsetsPerMorsel = s'.deletedNodeOffsetsPerMorsel := by
    apply Finmap.ext_lookup
    intro m
    by_cases hm : m ∈ s.deletedNodeOffsetsPerMorsel
    · rw [lookup_of_mem hm, lookup_of_mem ((hmem m).mp hm), hin]
    · rw [Finmap.lookup_eq_none.mpr hm, Finmap.lookup_eq_none.mpr (mt (hmem m).mpr hm)]
  have hlength : s.numMorsels = s'.numMorsels := by rw [numMorsels, numMorsels, hnum]
  have hflags : s.hasDeletedNodesPerMorsel = s'.hasDeletedNodesPerMorsel := by
    apply List.ext_getElem
    · rw [hs.length, hs'.length, hlength]
    · intro m hm hm'
      have hflag := hs.flags m _ (List.getElem?_eq_getElem hm)
      have hflag' := hs'.flags m _ (List.getElem?_eq_getElem hm')
      rw [Bool.eq_iff_iff, hflag, hflag', hmem]
  have htable := hs.tableID_eq.trans hs'.tableID_eq.symm
  cases s
  cases s'
  cases hnum
  cases htable
  cases hmorsels
  cases hflags
  rfl

/-- One more deleted offset. -/
theorem Constructed.addDeletedNodeOffset (hs : s.Constructed tableID)
    (hlt : o / defaultVectorCapacity < s.numMorsels) : ∃ s', s.addDeletedNodeOffset o = .ok s' ∧
      s'.Constructed tableID ∧ s'.numTuples = s.numTuples ∧ s'.deleted = insert o s.deleted := by
  have hflag : o / defaultVectorCapacity < s.hasDeletedNodesPerMorsel.length := hs.length ▸ hlt
  refine ⟨s.withDeleted o, addDeletedNodeOffset_eq_ok hflag, ?_, rfl, deleted_withDeleted⟩
  constructor
  · exact hs.tableID_eq
  · exact hs.numTuples_pos
  · exact nonempty_withDeleted hs.nonempty
  · intro m o' ho'
    rw [deletedIn_withDeleted] at ho'
    split at ho'
    next heq =>
      rcases Finset.mem_insert.mp ho' with rfl | ho'
      · exact heq.symm
      · exact hs.offsets m o' (heq ▸ ho')
    · exact hs.offsets m o' ho'
  · intro m hm
    rcases mem_morsels_withDeleted.mp hm with rfl | hm
    · exact hlt
    · exact hs.morsels m hm
  · exact List.length_set.trans hs.length
  · exact flags_withDeleted hflag hs.flags

/-- The loop of the constructor comes to its end if there are morsels for all offsets. -/
theorem Constructed.exists_foldlM (hs : s.Constructed tableID) {offsets : List ℕ}
    (hlt : ∀ o ∈ offsets, o / defaultVectorCapacity < s.numMorsels) :
    ∃ s', offsets.foldlM NodeStatisticsAndDeletedIDs.addDeletedNodeOffset s = .ok s' ∧
      s'.Constructed tableID ∧ s'.numTuples = s.numTuples ∧
      s'.deleted = s.deleted ∪ {o | o ∈ offsets} := by
  apply Lib.exists_foldlM_eq_ok (fun (done : List ℕ) (s' : NodeStatisticsAndDeletedIDs) ↦
    s'.Constructed tableID ∧ s'.numTuples = s.numTuples ∧ s'.deleted = s.deleted ∪ {o | o ∈ done})
  · simp [hs]
  · rintro done o rest s₁ heq ⟨hs₁, hnum, hdeleted⟩
    have ho : o / defaultVectorCapacity < s₁.numMorsels := by
      have hmorsels : s₁.numMorsels = s.numMorsels := by rw [numMorsels, numMorsels, hnum]
      rw [hmorsels]
      exact hlt o (by simp [heq])
    obtain ⟨s₂, hok, hs₂, hnum₂, hdeleted₂⟩ := hs₁.addDeletedNodeOffset ho
    refine ⟨s₂, hok, hs₂, hnum₂.trans hnum, ?_⟩
    rw [hdeleted₂, hdeleted]
    ext o'
    simp only [Set.mem_insert_iff, Set.mem_union, Set.mem_ofPred_eq, List.mem_append,
      List.mem_singleton]
    tauto

/-- The loop leaves what the constructor builds, if it comes to its end. -/
theorem Constructed.of_foldlM (hs : s.Constructed tableID) {offsets : List ℕ}
    (hloop : offsets.foldlM NodeStatisticsAndDeletedIDs.addDeletedNodeOffset s = .ok s') :
    s'.Constructed tableID := by
  refine Lib.foldlM_invariant (Constructed tableID) ?_ hs hloop
  intro s₁ o s₂ _ hs₁ hok
  by_cases hlt : o / defaultVectorCapacity < s₁.numMorsels
  · obtain ⟨s₃, hok₃, hs₃, -⟩ := hs₁.addDeletedNodeOffset hlt
    rw [hok₃] at hok
    cases hok
    exact hs₃
  · rw [NodeStatisticsAndDeletedIDs.addDeletedNodeOffset, setElement, hs₁.length,
      if_neg hlt] at hok
    cases hok

theorem getMaxNodeOffset_eq (hpos : 0 < s.numTuples) (hlt : s.numTuples < 2 ^ 64) :
    s.getMaxNodeOffset = if s.numTuples = uint64Max then uint64Max else s.numTuples - 1 := by
  rw [NodeStatisticsAndDeletedIDs.getMaxNodeOffset, getMaxNodeOffsetFromNumTuples]
  split_ifs
  · rfl
  · simp only [uint64Max]
    omega

/-- Statistics without deleted offsets. -/
theorem constructed_of_no_deleted {numTuples numMorsels : ℕ} (hpos : 0 < numTuples)
    (hmorsels : numMorsels = if numTuples = uint64Max then 0
      else (numTuples - 1) / defaultVectorCapacity + 1) :
    Constructed tableID ⟨numTuples, tableID, List.replicate numMorsels false, ∅⟩ where
  tableID_eq := rfl
  numTuples_pos := hpos
  nonempty := fun m hm ↦ absurd hm Finmap.notMem_empty
  offsets := by simp [deletedIn]
  morsels := fun m hm ↦ absurd hm Finmap.notMem_empty
  length := List.length_replicate.trans hmorsels
  flags := by simp +contextual [List.getElem?_replicate, Finmap.notMem_empty]

/-- The constructor before its loop. -/
theorem constructed_setMaxNodeOffset (tableID : ℕ) {maxNodeOffset : ℕ}
    (hmax : maxNodeOffset < uint64Max - 1 ∨ maxNodeOffset = uint64Max) :
    ∃ s, setMaxNodeOffset ⟨0, tableID, [], ∅⟩ maxNodeOffset = s ∧ s.Constructed tableID ∧
      s.deleted = ∅ ∧
      s.numTuples = if maxNodeOffset = uint64Max then uint64Max else maxNodeOffset + 1 := by
  by_cases hempty : maxNodeOffset = uint64Max
  · refine ⟨⟨uint64Max, tableID, List.replicate 0 false, ∅⟩, ?_,
      constructed_of_no_deleted (by decide) rfl, ?_, ?_⟩
    · rw [setMaxNodeOffset, if_pos hempty]
      rfl
    · simp [deleted, deletedIn]
    · rw [if_pos hempty]
  · have hlt := hmax.resolve_right hempty
    have hmod : (maxNodeOffset + 1) % 2 ^ 64 = maxNodeOffset + 1 := by
      rw [uint64Max] at hlt
      omega
    have hne : maxNodeOffset + 1 ≠ uint64Max := by omega
    refine ⟨⟨maxNodeOffset + 1, tableID,
      List.replicate (maxNodeOffset / defaultVectorCapacity + 1) false, ∅⟩, ?_,
      constructed_of_no_deleted (Nat.succ_pos _) ?_, ?_, ?_⟩
    · simp only [setMaxNodeOffset, hempty, if_false, hmod, resize, List.take_nil, List.nil_append,
        List.length_nil, Nat.sub_zero]
    · rw [if_neg hne, Nat.add_sub_cancel]
    · simp [deleted, deletedIn]
    · rw [if_neg hempty]

theorem Constructed.mem_getDeletedNodeOffsets (hs : s.Constructed tableID) :
    o ∈ s.getDeletedNodeOffsets ↔ o ∈ s.deleted := by
  simp only [getDeletedNodeOffsets, List.mem_flatMap, Finset.mem_sort, Finmap.mem_keys]
  constructor
  · rintro ⟨m, -, ho⟩
    exact (hs.mem_deletedIn_iff.mp ho).1
  · intro ho
    exact ⟨_, hs.mem_morsels_iff.mpr ⟨o, ho, rfl⟩, ho⟩

/-- Statistics are read as they were if they are what the constructor builds, and only then. -/
theorem rebuild_eq_some_iff (hlt : s.numTuples < 2 ^ 64) :
    s.rebuild tableID = some s ↔ s.Constructed tableID := by
  have hmax : s.getMaxNodeOffset < uint64Max - 1 ∨ s.getMaxNodeOffset = uint64Max := by
    rw [NodeStatisticsAndDeletedIDs.getMaxNodeOffset, getMaxNodeOffsetFromNumTuples]
    split_ifs with hempty
    · exact .inr rfl
    · rw [uint64Max] at hempty ⊢
      omega
  obtain ⟨s₀, hs₀, hinit, hdeleted, hnum⟩ := constructed_setMaxNodeOffset tableID hmax
  rw [rebuild, ofDeletedNodeOffsets, hs₀]
  constructor
  · intro h
    cases hloop : s.getDeletedNodeOffsets.foldlM
        NodeStatisticsAndDeletedIDs.addDeletedNodeOffset s₀ with
    | error e =>
        rw [hloop] at h
        cases h
    | ok s' =>
        rw [hloop] at h
        cases h
        exact hinit.of_foldlM hloop
  · intro hs
    have hpos := hs.numTuples_pos
    have hnum₀ : s₀.numTuples = s.numTuples := by
      rw [hnum, getMaxNodeOffset_eq hpos hlt]
      by_cases hempty : s.numTuples = uint64Max
      · rw [if_pos hempty, if_pos rfl, hempty]
      · have hne : s.numTuples - 1 ≠ uint64Max := by
          rw [uint64Max]
          omega
        rw [if_neg hempty, if_neg hne]
        exact Nat.sub_add_cancel hpos
    have hmorsels : s₀.numMorsels = s.numMorsels := by rw [numMorsels, numMorsels, hnum₀]
    have hlt' : ∀ o ∈ s.getDeletedNodeOffsets, o / defaultVectorCapacity < s₀.numMorsels := by
      intro o ho
      rw [hmorsels]
      have hmem := hs.mem_getDeletedNodeOffsets.mp ho
      exact hs.morsels _ (hs.mem_morsels_iff.mpr ⟨o, hmem, rfl⟩)
    obtain ⟨s', hloop, hs', hnum', hdeleted'⟩ := hinit.exists_foldlM hlt'
    rw [hloop]
    refine congrArg some (hs'.eq hs (hnum'.trans hnum₀) ?_)
    rw [hdeleted', hdeleted]
    ext o
    simp [hs.mem_getDeletedNodeOffsets]

end NodeStatisticsAndDeletedIDs

/-! ## All files -/

/-- The loop can count the tables, and their IDs have 64 bits. -/
structure TablesFit {α : Type} (fits : α → Prop) (m : TableMap α) : Prop where
  card : m.keys.card < 2 ^ 32
  tables : ∀ tableID statistics, m.lookup tableID = some statistics →
    tableID < 2 ^ 64 ∧ fits statistics

namespace TablesStatistics

open NodeStatisticsAndDeletedIDs in
theorem readFromFile_saveToFile_nodes_iff (s : NodesStatisticsAndDeletedIDs)
    (transactionType : TransactionType)
    (hfits : TablesFit NodeStatisticsAndDeletedIDs.Fits (s.tableStatisticPerTable transactionType))
    (order : MapOrder (s.tableStatisticPerTable transactionType)) (file : List UInt8) :
    readFromFile nodesFormat (saveToFile nodesFormat s transactionType order file) =
        some ⟨s.tableStatisticPerTable transactionType, none⟩ ↔
      ∀ tableID statistics,
        (s.tableStatisticPerTable transactionType).lookup tableID = some statistics →
          statistics.Constructed tableID := by
  rw [readFromFile_saveToFile_eq_iff nodesFormat NodeStatisticsAndDeletedIDs.rebuild hfits.card
    (fun tableID statistics hlookup ↦ by
      obtain ⟨hid, hstatistics⟩ := hfits.tables tableID statistics hlookup
      exact ⟨hid, hstatistics.numTuples, readsOption_nodeStatistics hstatistics tableID⟩)]
  refine forall_congr' fun tableID ↦ forall_congr' fun statistics ↦ ?_
  refine imp_congr_right fun hlookup ↦ ?_
  have hstatistics := (hfits.tables tableID statistics hlookup).2
  exact NodeStatisticsAndDeletedIDs.rebuild_eq_some_iff hstatistics.numTuples

theorem readFromFile_saveToFile_rels (s : RelsStatistics) (transactionType : TransactionType)
    (hfits : TablesFit RelStatistics.Fits (s.tableStatisticPerTable transactionType))
    (orders : ℕ → (s : RelStatistics) → s.Orders)
    (order : MapOrder (s.tableStatisticPerTable transactionType)) (file : List UInt8) :
    readFromFile (relsFormat orders)
        (saveToFile (relsFormat orders) s transactionType order file) =
      some ⟨s.tableStatisticPerTable transactionType, none⟩ := by
  rw [readFromFile_saveToFile_eq_iff (relsFormat orders) (fun _ statistics ↦ some statistics)
    hfits.card (fun tableID statistics hlookup ↦ by
      obtain ⟨hid, hstatistics⟩ := hfits.tables tableID statistics hlookup
      exact ⟨hid, hstatistics.numTuples, reads_relStatistics orders tableID hstatistics⟩)]
  exact fun _ _ _ ↦ rfl

end TablesStatistics

open CatalogContent TablesStatistics

/-- What comes back of the catalog and of the statistics when they are saved and read again. -/
theorem readFromFile_saveToFile_iff (statements : List Statement)
    (nodes : NodesStatisticsAndDeletedIDs) (rels : RelsStatistics) :
    (∀ c : CatalogContent, Lib.run execute {} statements = some c → c.Fits →
        ∀ (orders : c.Orders) (file : List UInt8),
          readFromCatalogFile (c.saveToFile orders file) = some c ↔ c.Survives) ∧
      (∀ transactionType : TransactionType,
        TablesFit NodeStatisticsAndDeletedIDs.Fits
            (nodes.tableStatisticPerTable transactionType) →
          ∀ (order : MapOrder (nodes.tableStatisticPerTable transactionType)) (file : List UInt8),
            readFromFile nodesFormat (saveToFile nodesFormat nodes transactionType order file) =
                some ⟨nodes.tableStatisticPerTable transactionType, none⟩ ↔
              ∀ tableID statistics,
                (nodes.tableStatisticPerTable transactionType).lookup tableID = some statistics →
                  statistics.Constructed tableID) ∧
      ∀ transactionType : TransactionType,
        TablesFit RelStatistics.Fits (rels.tableStatisticPerTable transactionType) →
          ∀ (orders : ℕ → (s : RelStatistics) → s.Orders)
            (order : MapOrder (rels.tableStatisticPerTable transactionType)) (file : List UInt8),
            readFromFile (relsFormat orders)
                (saveToFile (relsFormat orders) rels transactionType order file) =
              some ⟨rels.tableStatisticPerTable transactionType, none⟩ := by
  refine ⟨?_, ?_, ?_⟩
  · intro c hrun hfits orders file
    exact readFromCatalogFile_saveToFile_eq_iff hrun hfits orders file
  · exact readFromFile_saveToFile_nodes_iff nodes
  · exact readFromFile_saveToFile_rels rels

/-! ### One table of each kind -/

def personSchema : NodeTableSchema where
  tableName := "person"
  tableID := 0
  primaryPropertyId := 0
  structuredProperties :=
    [⟨⟨"ID", .scalar .int64⟩, 0, 0⟩, ⟨⟨"scores", .list (.list (.scalar .int64))⟩, 1, 0⟩]
  unstructuredProperties := [⟨⟨"age", .scalar .unstructured⟩, 0, 0⟩]
  unstrPropertiesNameToIdMap := Finmap.insert "age" 0 ∅

def personContent : CatalogContent where
  nodeTableSchemas := Finmap.insert 0 personSchema ∅
  nodeTableNameToIDMap := Finmap.insert "person" 0 ∅

theorem eq_of_lookup_insert_empty {α : Type} {id id' : ℕ} {a a' : α}
    (h : (Finmap.insert id a (∅ : TableMap α)).lookup id' = some a') : id' = id ∧ a' = a := by
  by_cases hid : id' = id
  · subst hid
    rw [Finmap.lookup_insert] at h
    cases h
    exact ⟨rfl, rfl⟩
  · rw [Finmap.lookup_insert_of_ne _ hid] at h
    cases h

theorem fits_personContent : personContent.Fits where
  numNodeTables := by decide
  numRelTables := by decide
  nodeTables := by
    intro tableID schema hschema
    obtain ⟨rfl, rfl⟩ := eq_of_lookup_insert_empty hschema
    refine ⟨by decide, by decide, by decide, by decide, ⟨by decide, ?_⟩, ⟨by decide, ?_⟩, by decide,
      by decide, by decide, by decide⟩
    · rintro property (_ | ⟨_, _ | ⟨_, hmem⟩⟩)
      · constructor <;> decide
      · constructor <;> decide
      · cases hmem
    · rintro property (_ | ⟨_, hmem⟩)
      · constructor <;> decide
      · cases hmem
  relTables := nofun

def personStatistics : NodeStatisticsAndDeletedIDs := ⟨3, 0, [true], Finmap.insert 0 {1} ∅⟩

theorem getDeletedNodeOffsets_personStatistics :
    personStatistics.getDeletedNodeOffsets = [1] := by
  have hkeys : personStatistics.deletedNodeOffsetsPerMorsel.keys = {0} := rfl
  have hin : personStatistics.deletedIn 0 = {1} := rfl
  rw [NodeStatisticsAndDeletedIDs.getDeletedNodeOffsets, hkeys, Finset.sort_singleton,
    List.flatMap_singleton, hin, Finset.sort_singleton]

theorem fits_personStatistics : personStatistics.Fits where
  numTuples := by decide
  length := by
    rw [getDeletedNodeOffsets_personStatistics]
    decide
  offsets := by
    rw [getDeletedNodeOffsets_personStatistics]
    decide

def knowsStatistics : RelStatistics := ⟨5, fun _ ↦ Finmap.insert 0 5 ∅⟩

theorem fits_knowsStatistics : knowsStatistics.Fits where
  numTuples := by decide
  card := by
    intro direction
    cases direction <;> decide
  numRels := by
    intro direction tableID numRels hlookup
    obtain ⟨rfl, rfl⟩ := eq_of_lookup_insert_empty hlookup
    decide

theorem tablesFit_singleton {α : Type} {fits : α → Prop} {statistics : α}
    (h : fits statistics) : TablesFit fits (Finmap.insert 0 statistics ∅) where
  card := by
    have hkeys : (Finmap.insert 0 statistics ∅ : TableMap α).keys = {0} := rfl
    rw [hkeys]
    decide
  tables := by
    intro tableID statistics' hlookup
    obtain ⟨rfl, rfl⟩ := eq_of_lookup_insert_empty hlookup
    exact ⟨by decide, h⟩

theorem readFromFile_saveToFile_person :
    (readFromCatalogFile (personContent.saveToFile personContent.sortedOrders [7, 7, 7]) =
        some personContent ↔ personContent.Survives) ∧
      (readFromFile nodesFormat (saveToFile nodesFormat
          ⟨Finmap.insert 0 personStatistics ∅, none⟩ .write (.sorted _) []) =
        some ⟨Finmap.insert 0 personStatistics ∅, none⟩ ↔
          ∀ tableID statistics, (Finmap.insert 0 personStatistics ∅ :
            TableMap NodeStatisticsAndDeletedIDs).lookup tableID = some statistics →
              statistics.Constructed tableID) ∧
      readFromFile (relsFormat fun _ _ _ ↦ .sorted _)
          (saveToFile (relsFormat fun _ _ _ ↦ .sorted _)
            ⟨Finmap.insert 0 knowsStatistics ∅, none⟩ .readOnly (.sorted _) []) =
        some ⟨Finmap.insert 0 knowsStatistics ∅, none⟩ := by
  obtain ⟨hcatalog, hnodes, hrels⟩ := readFromFile_saveToFile_iff
    [.createNodeTable "person" 0 [⟨"ID", .scalar .int64⟩,
      ⟨"scores", .list (.list (.scalar .int64))⟩], .copyNodeTable "person" ["age"]]
    ⟨Finmap.insert 0 personStatistics ∅, none⟩ ⟨Finmap.insert 0 knowsStatistics ∅, none⟩
  refine ⟨?_, ?_, ?_⟩
  · exact hcatalog personContent rfl fits_personContent _ _
  · exact hnodes .write (tablesFit_singleton fits_personStatistics) _ _
  · exact hrels .readOnly (tablesFit_singleton fits_knowsStatistics) _ _ _

def knowsContent : CatalogContent where
  nodeTableSchemas := Finmap.insert 0 ⟨"person", 0, 0, [], [], {0}, {0}, ∅⟩ ∅
  relTableSchemas := Finmap.insert 0
    ⟨"knows", 0, .manyMany, [⟨⟨internalIDSuffix, .scalar .int64⟩, 0, 0⟩], ⟨[0], [0]⟩, 0⟩ ∅
  nodeTableNameToIDMap := Finmap.insert "person" 0 ∅
  relTableNameToIDMap := Finmap.insert "knows" 0 ∅

theorem fits_knowsContent : knowsContent.Fits where
  numNodeTables := by decide
  numRelTables := by decide
  nodeTables := by
    intro tableID schema hschema
    obtain ⟨rfl, rfl⟩ := eq_of_lookup_insert_empty hschema
    exact ⟨by decide, by decide, by decide, by decide, ⟨by decide, nofun⟩, ⟨by decide, nofun⟩,
      by decide, by decide, by decide, by decide⟩
  relTables := by
    intro tableID schema hschema
    obtain ⟨rfl, rfl⟩ := eq_of_lookup_insert_empty hschema
    refine ⟨by decide, by decide, by decide, ⟨by decide, ?_⟩, ⟨by decide, by decide, by decide⟩,
      ⟨by decide, by decide, by decide⟩⟩
    rintro property (_ | ⟨_, hmem⟩)
    · constructor <;> decide
    · cases hmem

/-- After `CREATE NODE TABLE` and `CREATE REL TABLE` the rel table comes back with another
`numGeneratedProperties`. -/
theorem not_readFromFile_saveToFile_knows : ¬ ∀ (statements : List Statement) (c : CatalogContent),
    Lib.run execute {} statements = some c → ∀ (orders : c.Orders) (file : List UInt8),
      readFromCatalogFile (c.saveToFile orders file) = some c := by
  intro h
  have hrun : Lib.run execute {} [.createNodeTable "person" 0 [],
      .createRelTable "knows" .manyMany [] ⟨[0], [0]⟩] = some knowsContent := rfl
  have hsaved := h _ knowsContent hrun knowsContent.sortedOrders []
  have hsurvives := (readFromCatalogFile_saveToFile_eq_iff hrun fits_knowsContent _ _).mp hsaved
  have hempty : (0 : ℕ) ∉ knowsContent.relTableSchemas := by
    rw [hsurvives.relTables]
    exact Finmap.notMem_empty
  exact hempty (Finmap.mem_of_lookup_eq_some rfl)

end Graphflow.Storage
