import Graphflow.Storage.RelTable

/-!
# Scans of rel properties

The planner decides by the multiplicity in the direction of a scan whether it reads a column or
lists.  A rel has the same properties from both ends as long as no column is lost.
-/

namespace Graphflow.Processor

open Lib Storage Wal

/-! ## Planning and mapping -/

structure LogicalScanRelProperty where
  boundNodeTableID : ℕ
  relTableID : ℕ
  direction : RelDirection
  propertyKey : ℕ
  isColumn : Bool
  deriving DecidableEq, Repr

/-- The scan that is appended for a property of a rel. -/
def appendScanRelPropIfNecessary (schema : RelTableSchema) (srcTableID dstTableID : ℕ)
    (direction : RelDirection) (propertyKey : ℕ) : LogicalScanRelProperty where
  boundNodeTableID := if direction = .fwd then srcTableID else dstTableID
  relTableID := schema.tableID
  direction := direction
  propertyKey := propertyKey
  isColumn := schema.isSingleMultiplicityInDirection direction

inductive RelPropertyScan
  | scanStructuredProperty (column : RelPropertyColumn)
  | readRelPropertyList (lists : RelPropertyLists)
  deriving DecidableEq, Repr

def mapLogicalScanRelPropertyToPhysical (relStore : RelsStore) (scan : LogicalScanRelProperty) :
    Except Fault RelPropertyScan := do
  if scan.isColumn then
    return .scanStructuredProperty
      (← relStore.getRelPropertyColumn scan.relTableID scan.boundNodeTableID scan.propertyKey)
  else
    return .readRelPropertyList (← relStore.getRelPropertyLists scan.direction
      scan.boundNodeTableID scan.relTableID scan.propertyKey)

/-! ## Reading -/

variable {V : Type}

/-- What the files hold at a node offset; the list of a node is where the headers say. -/
structure RelPropertyFiles (V : Type) where
  columns : RelPropertyColumnFile → ℕ → Option V
  lists : RelPropertyListsFile → RelNodeTableAndDir → ℕ → List (Option V)

/-- The value of the rel at the bound node, which is in some place of the node's list. -/
def RelPropertyScan.read (files : RelPropertyFiles V) (nodeOffset listPos : ℕ) :
    RelPropertyScan → Except Fault (Option V)
  | .scanStructuredProperty column => .ok (files.columns column.fName nodeOffset)
  | .readRelPropertyList lists =>
      match (files.lists lists.fName lists.headers nodeOffset)[listPos]? with
      | some value => .ok value
      | none => .error .invalidAccess

structure NodeID where
  tableID : ℕ
  offset : ℕ
  deriving DecidableEq, Repr

/-- A rel has a bound node in each direction, a place in the list of this node and properties. -/
structure Rel (V : Type) where
  nodeIDs : RelDirection → NodeID
  listPos : RelDirection → ℕ
  properties : ℕ → Option V

def scanProperty (relStore : RelsStore) (schema : RelTableSchema) (files : RelPropertyFiles V)
    (rel : Rel V) (direction : RelDirection) (propertyKey : ℕ) : Except Fault (Option V) := do
  let scan ← mapLogicalScanRelPropertyToPhysical relStore (appendScanRelPropIfNecessary schema
    (rel.nodeIDs .fwd).tableID (rel.nodeIDs .bwd).tableID direction propertyKey)
  scan.read files (rel.nodeIDs direction).offset (rel.listPos direction)

/-! ## Both ends -/

/-- `COPY` has put each value into the column or the list of both nodes. -/
structure Stores (schema : RelTableSchema) (files : RelPropertyFiles V) (rel : Rel V) : Prop where
  bound : ∀ dir, (rel.nodeIDs dir).tableID ∈ schema.boundTableIDs dir
  column : ∀ dir, schema.isSingleMultiplicityInDirection dir = true →
    ∀ property ∈ schema.properties,
      files.columns ⟨schema.tableID, (rel.nodeIDs dir).tableID, dir, property.name⟩
        (rel.nodeIDs dir).offset = rel.properties property.propertyID
  list : ∀ dir, schema.isSingleMultiplicityInDirection dir = false →
    ∀ property ∈ schema.properties,
      (files.lists ⟨schema.tableID, (rel.nodeIDs dir).tableID, dir, property.propertyID⟩
        ⟨schema.tableID, (rel.nodeIDs dir).tableID, dir⟩
        (rel.nodeIDs dir).offset)[rel.listPos dir]? = some (rel.properties property.propertyID)

def SameFromBothEnds (relStore : RelsStore) (schema : RelTableSchema) (files : RelPropertyFiles V)
    (rels : List (Rel V)) : Prop :=
  ∀ rel ∈ rels, ∀ dir, ∀ propertyKey < schema.properties.length,
    scanProperty relStore schema files rel dir propertyKey = .ok (rel.properties propertyKey)

/-- The backward columns of a node table that is also a source replace the forward ones. -/
def BackwardColumnsAgree (schema : RelTableSchema) (files : RelPropertyFiles V)
    (rels : List (Rel V)) : Prop :=
  schema.relMultiplicity = .oneOne → ∀ rel ∈ rels,
    (rel.nodeIDs .fwd).tableID ∈ schema.srcDstTableIDs.dstTableIDs →
      ∀ property ∈ schema.properties,
        files.columns ⟨schema.tableID, (rel.nodeIDs .fwd).tableID, .bwd, property.name⟩
          (rel.nodeIDs .fwd).offset = rel.properties property.propertyID

section Scans

variable {relStore relStore' : RelsStore} {schema : RelTableSchema} {files : RelPropertyFiles V}
  {rel : Rel V} {rels : List (Rel V)} {table : RelTable} {dir : RelDirection} {propertyKey : ℕ}

theorem boundNodeTableID_append (schema : RelTableSchema) (rel : Rel V) (dir : RelDirection)
    (propertyKey : ℕ) : (appendScanRelPropIfNecessary schema (rel.nodeIDs .fwd).tableID
      (rel.nodeIDs .bwd).tableID dir propertyKey).boundNodeTableID = (rel.nodeIDs dir).tableID := by
  cases dir with
  | fwd => rfl
  | bwd => rfl

/-- A column is read of the direction that has it in the end. -/
theorem scanProperty_of_single (hloaded : RelTable.Loaded schema table)
    (htable : relStore.lookup schema.tableID = some table) (hstores : Stores schema files rel)
    (hsingle : schema.isSingleMultiplicityInDirection dir = true)
    (hkey : propertyKey < schema.properties.length) :
    scanProperty relStore schema files rel dir propertyKey =
      .ok (files.columns ⟨schema.tableID, (rel.nodeIDs dir).tableID,
        RelTable.columnDirection schema dir (rel.nodeIDs dir).tableID,
          schema.properties[propertyKey].name⟩ (rel.nodeIDs dir).offset) := by
  have hcolumn : relStore.getRelPropertyColumn schema.tableID
      (rel.nodeIDs dir).tableID propertyKey =
      .ok ⟨⟨schema.tableID, (rel.nodeIDs dir).tableID,
        RelTable.columnDirection schema dir (rel.nodeIDs dir).tableID,
          schema.properties[propertyKey].name⟩, schema.properties[propertyKey].dataType⟩ := by
    have hlookup := hloaded.columns dir hsingle _ (hstores.bound dir)
    have hpointer : (columnsOf schema
        (RelTable.columnDirection schema dir (rel.nodeIDs dir).tableID)
        (rel.nodeIDs dir).tableID)[propertyKey]? = some (some ⟨⟨schema.tableID,
          (rel.nodeIDs dir).tableID, RelTable.columnDirection schema dir (rel.nodeIDs dir).tableID,
            schema.properties[propertyKey].name⟩, schema.properties[propertyKey].dataType⟩) := by
      rw [columnsOf, List.getElem?_map, List.getElem?_eq_getElem hkey, Option.map_some]
    rw [RelsStore.getRelPropertyColumn, tableAt, htable]
    simp only [ok_bind]
    rw [RelTable.getPropertyColumn, tableAt, hlookup]
    simp only [ok_bind]
    rw [followPointer, List.getD_eq_getElem?_getD, hpointer]
    rfl
  rw [scanProperty, mapLogicalScanRelPropertyToPhysical, boundNodeTableID_append]
  simp only [appendScanRelPropIfNecessary, hsingle, if_true, hcolumn]
  rfl

theorem scanProperty_of_lists (hloaded : RelTable.Loaded schema table)
    (htable : relStore.lookup schema.tableID = some table) (hstores : Stores schema files rel)
    (hsingle : schema.isSingleMultiplicityInDirection dir = false)
    (hkey : propertyKey < schema.properties.length) :
    scanProperty relStore schema files rel dir propertyKey =
      .ok (rel.properties schema.properties[propertyKey].propertyID) := by
  have hlists : relStore.getRelPropertyLists dir (rel.nodeIDs dir).tableID schema.tableID
      propertyKey = .ok ⟨⟨schema.tableID, (rel.nodeIDs dir).tableID, dir,
          schema.properties[propertyKey].propertyID⟩, schema.properties[propertyKey].dataType,
        ⟨schema.tableID, (rel.nodeIDs dir).tableID, dir⟩⟩ := by
    have hlookup := hloaded.lists dir hsingle _ (hstores.bound dir)
    have hpointer : (listsOf schema dir (rel.nodeIDs dir).tableID)[propertyKey]? =
        some (some ⟨⟨schema.tableID, (rel.nodeIDs dir).tableID, dir,
          schema.properties[propertyKey].propertyID⟩, schema.properties[propertyKey].dataType,
            ⟨schema.tableID, (rel.nodeIDs dir).tableID, dir⟩⟩) := by
      rw [listsOf, List.getElem?_map, List.getElem?_eq_getElem hkey, Option.map_some]
    rw [RelsStore.getRelPropertyLists, tableAt, htable]
    simp only [ok_bind]
    rw [RelTable.getPropertyLists, tableAt, hlookup]
    simp only [ok_bind]
    rw [followPointer, List.getD_eq_getElem?_getD, hpointer]
    rfl
  rw [scanProperty, mapLogicalScanRelPropertyToPhysical, boundNodeTableID_append]
  simp only [appendScanRelPropIfNecessary, hsingle, Bool.false_eq_true, if_false, hlists]
  have hvalue := hstores.list dir hsingle _ (List.getElem_mem hkey)
  simp only [ok_bind, pure_eq_ok, RelPropertyScan.read, hvalue]

theorem oneOne_of_single (hfwd : schema.isSingleMultiplicityInDirection .fwd = true)
    (hbwd : schema.isSingleMultiplicityInDirection .bwd = true) :
    schema.relMultiplicity = .oneOne := by
  simp only [RelTableSchema.isSingleMultiplicityInDirection, decide_eq_true_eq, if_true,
    reduceCtorEq, if_false] at hfwd hbwd
  rcases hfwd with hone | hmanyOne
  · exact hone
  · rcases hbwd with hone | honeMany
    · exact hone
    · rw [hmanyOne] at honeMany
      cases honeMany

theorem exists_loaded (hids : HasPropertyIDs schema)
    (hcreate : relStore.createRelTable schema = .ok relStore') :
    ∃ table, relStore'.lookup schema.tableID = some table ∧
      (schema.properties ≠ [] → RelTable.Loaded schema table) := by
  rw [RelsStore.createRelTable, bind_eq_ok_iff] at hcreate
  obtain ⟨table, hload, hreturn⟩ := hcreate
  refine ⟨table, ?_, fun hne ↦ RelTable.loaded_of_load hids hne rfl hload⟩
  rw [← Except.ok.inj hreturn, Finmap.lookup_insert]

theorem sameFromBothEnds_iff (hids : HasPropertyIDs schema)
    (hcreate : relStore.createRelTable schema = .ok relStore')
    (hstores : ∀ rel ∈ rels, Stores schema files rel) :
    SameFromBothEnds relStore' schema files rels ↔ BackwardColumnsAgree schema files rels := by
  obtain ⟨table, htable, hloaded⟩ := exists_loaded hids hcreate
  constructor
  · intro hsame hone rel hrel hmem property hproperty
    obtain ⟨i, hi, rfl⟩ := List.getElem_of_mem hproperty
    have hsingle : ∀ dir, schema.isSingleMultiplicityInDirection dir = true := by
      intro dir
      rw [RelTableSchema.isSingleMultiplicityInDirection, hone]
      simp
    have hscan := scanProperty_of_single (hloaded (List.ne_nil_of_mem hproperty)) htable
      (hstores rel hrel) (hsingle .fwd) hi
    rw [hsame rel hrel .fwd i hi, RelTable.columnDirection, if_pos ⟨hsingle .bwd, hmem⟩] at hscan
    rw [hids i hi]
    exact (Except.ok.inj hscan).symm
  · intro hagree rel hrel dir i hi
    have hne : schema.properties ≠ [] := List.ne_nil_of_length_pos (by omega)
    have hmem := List.getElem_mem hi
    cases hsingle : schema.isSingleMultiplicityInDirection dir with
    | false =>
        rw [scanProperty_of_lists (hloaded hne) htable (hstores rel hrel) hsingle hi, hids i hi]
    | true =>
        rw [scanProperty_of_single (hloaded hne) htable (hstores rel hrel) hsingle hi,
          RelTable.columnDirection]
        congr 1
        have hcolumn := (hstores rel hrel).column dir hsingle _ hmem
        rw [hids i hi] at hcolumn
        split_ifs with hboth
        · cases dir with
          | fwd =>
              have hone := oneOne_of_single hsingle hboth.1
              rw [hagree hone rel hrel hboth.2 _ hmem, hids i hi]
          | bwd => exact hcolumn
        · exact hcolumn

end Scans

/-! ## Self-relations -/

theorem hasPropertyIDs_of_propertiesOf {schema : RelTableSchema}
    {definitions : List PropertyNameDataType}
    (h : schema.properties = CatalogContent.propertiesOf definitions schema.tableID) :
    HasPropertyIDs schema := by
  intro i hi
  simp only [h, CatalogContent.propertiesOf, List.getElem_mapIdx]

/-- Rels between the nodes of one table, with no property but their internal IDs. -/
def selfRelation (relMultiplicity : RelMultiplicity) : RelTableSchema where
  tableName := "Follows"
  tableID := 0
  relMultiplicity := relMultiplicity
  properties := CatalogContent.propertiesOf [⟨internalIDSuffix, .scalar .int64⟩] 0
  srcDstTableIDs := ⟨[0], [0]⟩

def relFrom (i : ℕ) : Rel ℕ where
  nodeIDs dir := ⟨0, if dir = .fwd then i else i + 1⟩
  listPos _ := 0
  properties _ := some i

/-- Two rels that make a path of three nodes. -/
def twoRels : List (Rel ℕ) := [relFrom 0, relFrom 1]

def twoRelsFiles : RelPropertyFiles ℕ where
  columns fName nodeOffset :=
    if fName.relDirection = .fwd then some nodeOffset
    else if nodeOffset = 0 then none else some (nodeOffset - 1)
  lists fName _ nodeOffset :=
    if fName.relDirection = .fwd then [some nodeOffset]
    else if nodeOffset = 0 then [] else [some (nodeOffset - 1)]

theorem stores_twoRels (relMultiplicity : RelMultiplicity) :
    ∀ rel ∈ twoRels, Stores (selfRelation relMultiplicity) twoRelsFiles rel := by
  intro rel hrel
  obtain ⟨i, rfl⟩ : ∃ i, rel = relFrom i := by
    simp only [twoRels, List.mem_cons, List.not_mem_nil, or_false] at hrel
    exact hrel.elim (fun heq ↦ ⟨0, heq⟩) fun heq ↦ ⟨1, heq⟩
  refine ⟨fun dir ↦ ?_, fun dir _ property _ ↦ ?_, fun dir _ property _ ↦ ?_⟩
  · cases dir with
    | fwd => exact List.mem_singleton_self 0
    | bwd => exact List.mem_singleton_self 0
  · cases dir with
    | fwd => rfl
    | bwd => rfl
  · cases dir with
    | fwd => rfl
    | bwd => rfl

theorem exists_createRelTable_selfRelation (relMultiplicity : RelMultiplicity) :
    ∃ store, RelsStore.createRelTable ∅ (selfRelation relMultiplicity) = .ok store := by
  cases relMultiplicity with
  | manyMany => exact ⟨_, rfl⟩
  | manyOne => exact ⟨_, rfl⟩
  | oneMany => exact ⟨_, rfl⟩
  | oneOne => exact ⟨_, rfl⟩

/-- Many rels may end in a node. -/
theorem sameFromBothEnds_twoRels : ∃ store,
    RelsStore.createRelTable ∅ (selfRelation .manyOne) = .ok store ∧
      SameFromBothEnds store (selfRelation .manyOne) twoRelsFiles twoRels := by
  obtain ⟨store, hcreate⟩ := exists_createRelTable_selfRelation .manyOne
  exact ⟨store, hcreate, (sameFromBothEnds_iff (hasPropertyIDs_of_propertiesOf rfl) hcreate
    (stores_twoRels .manyOne)).mpr nofun⟩

/-- The second rel has the ID of the first one if it is matched forward. -/
theorem not_sameFromBothEnds_twoRels : ∃ store,
    RelsStore.createRelTable ∅ (selfRelation .oneOne) = .ok store ∧
      (∀ rel ∈ twoRels, Stores (selfRelation .oneOne) twoRelsFiles rel) ∧
      ¬SameFromBothEnds store (selfRelation .oneOne) twoRelsFiles twoRels := by
  obtain ⟨store, hcreate⟩ := exists_createRelTable_selfRelation .oneOne
  refine ⟨store, hcreate, stores_twoRels .oneOne, fun hsame ↦ ?_⟩
  obtain ⟨table, htable, hloaded⟩ := exists_loaded (hasPropertyIDs_of_propertiesOf rfl) hcreate
  have hmem : relFrom 1 ∈ twoRels := List.mem_cons_of_mem _ (List.mem_singleton_self _)
  have hscan : scanProperty store (selfRelation .oneOne) twoRelsFiles (relFrom 1) .fwd 0 =
      .ok (some 0) :=
    scanProperty_of_single (hloaded nofun) htable (stores_twoRels .oneOne _ hmem) rfl
      (by decide : 0 < (selfRelation .oneOne).properties.length)
  rw [hsame _ hmem .fwd 0 (by decide)] at hscan
  cases hscan

end Graphflow.Processor
