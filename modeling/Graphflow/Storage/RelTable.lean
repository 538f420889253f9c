import Graphflow.Catalog.Content

/-!
# The structures of a rel table

A rel table keeps its adjacency columns and lists and its property lists by direction and node
table, its property columns by node table only.
-/

namespace Graphflow.Storage

open Lib Wal

/-! ## Columns and lists -/

structure RelPropertyColumnFile where
  relTableID : ℕ
  nodeTableID : ℕ
  relDirection : RelDirection
  propertyName : String
  deriving DecidableEq, Repr

structure RelPropertyListsFile where
  relTableID : ℕ
  nodeTableID : ℕ
  relDirection : RelDirection
  propertyID : ℕ
  deriving DecidableEq, Repr

structure RelPropertyColumn where
  fName : RelPropertyColumnFile
  dataType : DataType
  deriving DecidableEq, Repr

/-- Property lists share the headers of the adjacency lists. -/
structure RelPropertyLists where
  fName : RelPropertyListsFile
  dataType : DataType
  headers : RelNodeTableAndDir
  deriving DecidableEq, Repr

/-- The types that the factories know. -/
def isPropertyType : DataTypeID → Bool
  | .int64 | .double | .bool | .date | .timestamp | .interval | .string | .list => true
  | .any | .node | .rel | .nodeID | .unstructured => false

def getColumn (fName : RelPropertyColumnFile) (dataType : DataType) :
    Except Fault RelPropertyColumn :=
  if isPropertyType dataType.typeID then .ok ⟨fName, dataType⟩
  else .error (.exception "Invalid type for property column creation.")

def getLists (fName : RelPropertyListsFile) (dataType : DataType) (headers : RelNodeTableAndDir) :
    Except Fault RelPropertyLists :=
  if isPropertyType dataType.typeID then .ok ⟨fName, dataType, headers⟩
  else .error (.exception "Invalid type for property list creation.")

/-! ## Maps and vectors -/

section Containers

variable {α : Type}

/-- `emplace` leaves an entry that is there as it is. -/
def emplace (m : TableMap α) (tableID : ℕ) (x : α) : TableMap α :=
  if tableID ∈ m then m else m.insert tableID x

def tableAt (m : TableMap α) (tableID : ℕ) : Except Fault α :=
  match m.lookup tableID with
  | some x => .ok x
  | none => .error CatalogContent.outOfRange

/-- `resize` of a vector of pointers. -/
def resizePointers (xs : List (Option α)) (size : ℕ) : List (Option α) :=
  xs.take size ++ List.replicate (size - xs.length) none

def setPointer (xs : List (Option α)) (i : ℕ) (x : α) : Except Fault (List (Option α)) :=
  if i < xs.length then .ok (xs.set i (some x)) else .error .invalidAccess

/-- A null pointer is followed as soon as the operator that has got it is initialized. -/
def followPointer (xs : List (Option α)) (i : ℕ) : Except Fault α :=
  match xs.getD i none with
  | some x => .ok x
  | none => .error .invalidAccess

end Containers

/-! ## The table -/

structure RelTable where
  tableID : ℕ
  adjColumns : RelDirection → TableMap RelNodeTableAndDir := fun _ ↦ ∅
  adjLists : RelDirection → TableMap RelNodeTableAndDir := fun _ ↦ ∅
  propertyColumns : TableMap (List (Option RelPropertyColumn)) := ∅
  propertyLists : RelDirection → TableMap (List (Option RelPropertyLists)) := fun _ ↦ ∅

namespace RelTable

variable (table : RelTable) (schema : RelTableSchema) (relDirection : RelDirection)

def initAdjColumnOrListsInDirection : RelTable :=
  let entries (m : TableMap RelNodeTableAndDir) : TableMap RelNodeTableAndDir :=
    (schema.boundTableIDs relDirection).foldl (fun m nodeTableID ↦
      emplace m nodeTableID ⟨table.tableID, nodeTableID, relDirection⟩) m
  if schema.isSingleMultiplicityInDirection relDirection then
    { table with adjColumns :=
        Function.update table.adjColumns relDirection (entries (table.adjColumns relDirection)) }
  else
    { table with adjLists :=
        Function.update table.adjLists relDirection (entries (table.adjLists relDirection)) }

def initAdjColumnOrLists : RelTable :=
  (({ table with adjColumns := fun _ ↦ ∅, adjLists := fun _ ↦ ∅ } : RelTable)
    |>.initAdjColumnOrListsInDirection schema .fwd
    |>.initAdjColumnOrListsInDirection schema .bwd)

def initPropertyColumnsForRelTable : Except Fault RelTable := do
  let propertyColumns ← (schema.boundTableIDs relDirection).foldlM (fun m nodeTableID ↦ do
    let columns ← schema.properties.foldlM (fun columns property ↦ do
        let column ← getColumn ⟨table.tableID, nodeTableID, relDirection, property.name⟩
          property.dataType
        setPointer columns property.propertyID column)
      (resizePointers ((m.lookup nodeTableID).getD []) schema.properties.length)
    return m.insert nodeTableID columns) table.propertyColumns
  return { table with propertyColumns := propertyColumns }

def initPropertyListsForRelTable : Except Fault RelTable := do
  let propertyLists ← (schema.boundTableIDs relDirection).foldlM (fun m nodeTableID ↦ do
    let adjListsHeaders ← tableAt (table.adjLists relDirection) nodeTableID
    let m := emplace m nodeTableID (List.replicate schema.properties.length none)
    let lists ← schema.properties.zipIdx.foldlM (fun lists (property, propertyIdx) ↦ do
        let list ← getLists ⟨table.tableID, nodeTableID, relDirection, property.propertyID⟩
          property.dataType adjListsHeaders
        setPointer lists propertyIdx list)
      ((m.lookup nodeTableID).getD [])
    return m.insert nodeTableID lists) (table.propertyLists relDirection)
  return { table with
    propertyLists := Function.update table.propertyLists relDirection propertyLists }

def initPropertyStructuresInDirection : Except Fault RelTable :=
  if schema.isSingleMultiplicityInDirection relDirection then
    table.initPropertyColumnsForRelTable schema relDirection
  else table.initPropertyListsForRelTable schema relDirection

def initPropertyListsAndColumns : Except Fault RelTable :=
  let table := { table with propertyLists := fun _ ↦ ∅, propertyColumns := ∅ }
  if schema.properties.isEmpty then .ok table
  else do
    let table ← table.initPropertyStructuresInDirection schema .fwd
    table.initPropertyStructuresInDirection schema .bwd

def loadColumnsAndListsFromDisk : Except Fault RelTable :=
  (table.initAdjColumnOrLists schema).initPropertyListsAndColumns schema

def getPropertyColumn (tableID propertyIdx : ℕ) : Except Fault RelPropertyColumn := do
  followPointer (← tableAt table.propertyColumns tableID) propertyIdx

def getPropertyLists (tableID propertyIdx : ℕ) : Except Fault RelPropertyLists := do
  followPointer (← tableAt (table.propertyLists relDirection) tableID) propertyIdx

end RelTable

/-- The rel tables of `RelsStore`. -/
abbrev RelsStore := TableMap RelTable

namespace RelsStore

variable (store : RelsStore)

def createRelTable (schema : RelTableSchema) : Except Fault RelsStore := do
  let table ← RelTable.loadColumnsAndListsFromDisk { tableID := schema.tableID } schema
  return store.insert schema.tableID table

def getRelPropertyColumn (relTableID nodeTableID propertyIdx : ℕ) :
    Except Fault RelPropertyColumn := do
  (← tableAt store relTableID).getPropertyColumn nodeTableID propertyIdx

def getRelPropertyLists (relDirection : RelDirection) (nodeTableID relTableID propertyIdx : ℕ) :
    Except Fault RelPropertyLists := do
  (← tableAt store relTableID).getPropertyLists relDirection nodeTableID propertyIdx

end RelsStore

/-! ## What is loaded -/

section Containers

variable {α : Type}

theorem eq_set_of_setPointer_eq_ok {xs ys : List (Option α)} {i : ℕ} {x : α}
    (h : setPointer xs i x = .ok ys) : ys = xs.set i (some x) := by
  rw [setPointer] at h
  split_ifs at h
  exact (Except.ok.inj h).symm

@[simp] theorem length_resizePointers (xs : List (Option α)) (size : ℕ) :
    (resizePointers xs size).length = size := by
  rw [resizePointers, List.length_append, List.length_take, List.length_replicate]
  omega

/-- A loop that inserts one entry after the other. -/
theorem lookup_foldl_insert {step : TableMap α → ℕ → TableMap α} {g : ℕ → α}
    (Inv : TableMap α → Prop)
    (hstep : ∀ m tableID, Inv m → step m tableID = m.insert tableID (g tableID))
    (hinv : ∀ m tableID, Inv m → Inv (m.insert tableID (g tableID))) {tableIDs : List ℕ}
    {m : TableMap α} (hm : Inv m) (tableID : ℕ) :
    (tableIDs.foldl step m).lookup tableID =
      if tableID ∈ tableIDs then some (g tableID) else m.lookup tableID := by
  induction tableIDs generalizing m with
  | nil => rfl
  | cons first rest ih =>
      rw [List.foldl_cons, hstep m first hm, ih (hinv m first hm)]
      by_cases hmem : tableID ∈ rest
      · rw [if_pos hmem, if_pos (List.mem_cons_of_mem _ hmem)]
      · rw [if_neg hmem]
        by_cases heq : tableID = first
        · rw [heq, Finmap.lookup_insert, if_pos List.mem_cons_self]
        · rw [Finmap.lookup_insert_of_ne _ heq,
            if_neg fun h ↦ (List.mem_cons.mp h).elim heq hmem]

end Containers

section Load

variable {table table' : RelTable} {schema : RelTableSchema} {relDirection : RelDirection}

/-- The IDs of the properties are their places, as the catalog gives them. -/
def HasPropertyIDs (schema : RelTableSchema) : Prop :=
  ∀ i (hi : i < schema.properties.length), schema.properties[i].propertyID = i

def columnsOf (schema : RelTableSchema) (relDirection : RelDirection) (nodeTableID : ℕ) :
    List (Option RelPropertyColumn) :=
  schema.properties.map fun property ↦
    some ⟨⟨schema.tableID, nodeTableID, relDirection, property.name⟩, property.dataType⟩

def listsOf (schema : RelTableSchema) (relDirection : RelDirection) (nodeTableID : ℕ) :
    List (Option RelPropertyLists) :=
  schema.properties.map fun property ↦
    some ⟨⟨schema.tableID, nodeTableID, relDirection, property.propertyID⟩, property.dataType,
      ⟨schema.tableID, nodeTableID, relDirection⟩⟩

namespace RelTable

/-- The columns of a direction replace those of the other one. -/
theorem lookup_of_initPropertyColumns (hids : HasPropertyIDs schema)
    (htable : table.tableID = schema.tableID)
    (h : table.initPropertyColumnsForRelTable schema relDirection = .ok table') :
    table'.tableID = table.tableID ∧ table'.adjLists = table.adjLists ∧
      table'.propertyLists = table.propertyLists ∧
      ∀ nodeTableID, table'.propertyColumns.lookup nodeTableID =
        if nodeTableID ∈ schema.boundTableIDs relDirection then
          some (columnsOf schema relDirection nodeTableID)
        else table.propertyColumns.lookup nodeTableID := by
  rw [initPropertyColumnsForRelTable, bind_eq_ok_iff] at h
  obtain ⟨m', hloop, hreturn⟩ := h
  obtain rfl := Except.ok.inj hreturn
  refine ⟨rfl, rfl, rfl, fun nodeTableID ↦ ?_⟩
  have hnext : m' = (schema.boundTableIDs relDirection).foldl (fun m nodeTableID ↦
      m.insert nodeTableID (columnsOf schema relDirection nodeTableID)) table.propertyColumns := by
    refine eq_foldl_of_foldlM_eq_ok _ (fun nodeTableID _ m m' hturn ↦ ?_) hloop
    rw [bind_eq_ok_iff] at hturn
    obtain ⟨columns, hcolumns, hm'⟩ := hturn
    rw [← Except.ok.inj hm']
    have heq := eq_foldl_of_foldlM_eq_ok (fun columns (property : Property) ↦
        columns.set property.propertyID
          (some ⟨⟨schema.tableID, nodeTableID, relDirection, property.name⟩, property.dataType⟩))
      (fun property _ columns columns' hset ↦ ?_) hcolumns
    · rw [heq, columnsOf]
      congr 1
      exact foldl_set_eq_map _ Property.propertyID hids (length_resizePointers _ _)
    · rw [bind_eq_ok_iff] at hset
      obtain ⟨column, hcolumn, hset⟩ := hset
      rw [getColumn] at hcolumn
      split_ifs at hcolumn
      rw [eq_set_of_setPointer_eq_ok hset, ← Except.ok.inj hcolumn, htable]
  rw [hnext]
  exact lookup_foldl_insert (fun _ ↦ True) (fun _ _ _ ↦ rfl) (fun _ _ _ ↦ trivial) trivial _

/-- The headers are those of the adjacency lists of the direction and the node table. -/
def HasHeaders (table : RelTable) : Prop :=
  ∀ relDirection nodeTableID headers,
    (table.adjLists relDirection).lookup nodeTableID = some headers →
      headers = ⟨table.tableID, nodeTableID, relDirection⟩

theorem HasHeaders.of_direction (h : HasHeaders table) :
    HasHeaders (table.initAdjColumnOrListsInDirection schema relDirection) := by
  rw [initAdjColumnOrListsInDirection]
  split_ifs
  · exact h
  · intro dir nodeTableID headers hlookup
    by_cases hdir : dir = relDirection
    · subst hdir
      simp only [Function.update_self] at hlookup
      have hinv : ∀ m : TableMap RelNodeTableAndDir,
          (∀ nodeTableID headers, m.lookup nodeTableID = some headers →
            headers = ⟨table.tableID, nodeTableID, dir⟩) → ∀ tableID nodeTableID headers,
          (emplace m tableID ⟨table.tableID, tableID, dir⟩).lookup nodeTableID = some headers →
            headers = ⟨table.tableID, nodeTableID, dir⟩ := by
        intro m hm tableID nodeTableID headers hlookup
        rw [emplace] at hlookup
        split_ifs at hlookup
        · exact hm nodeTableID headers hlookup
        · by_cases heq : nodeTableID = tableID
          · rw [heq, Finmap.lookup_insert] at hlookup
            rw [← Option.some.inj hlookup, heq]
          · rw [Finmap.lookup_insert_of_ne _ heq] at hlookup
            exact hm nodeTableID headers hlookup
      revert nodeTableID headers
      exact List.foldlRecOn (motive := fun m : TableMap RelNodeTableAndDir ↦
          ∀ nodeTableID headers, m.lookup nodeTableID = some headers →
            headers = ⟨table.tableID, nodeTableID, dir⟩) _ _ (h dir)
        fun m hm tableID _ ↦ hinv m hm tableID
    · simp only [Function.update_of_ne hdir] at hlookup
      exact h dir nodeTableID headers hlookup

/-- A turn of the loop over the node tables that succeeds. -/
def insertLists (schema : RelTableSchema) (relDirection : RelDirection)
    (m : TableMap (List (Option RelPropertyLists))) (nodeTableID : ℕ) :
    TableMap (List (Option RelPropertyLists)) :=
  let m := emplace m nodeTableID (List.replicate schema.properties.length none)
  m.insert nodeTableID (schema.properties.zipIdx.foldl (fun lists x ↦
      lists.set x.2 (some ⟨⟨schema.tableID, nodeTableID, relDirection, x.1.propertyID⟩,
        x.1.dataType, ⟨schema.tableID, nodeTableID, relDirection⟩⟩))
    ((m.lookup nodeTableID).getD []))

theorem insertLists_eq (m : TableMap (List (Option RelPropertyLists))) (nodeTableID : ℕ)
    (hm : ∀ nodeTableID lists, m.lookup nodeTableID = some lists →
      lists.length = schema.properties.length) :
    insertLists schema relDirection m nodeTableID =
      m.insert nodeTableID (listsOf schema relDirection nodeTableID) := by
  have hlength : (((emplace m nodeTableID (List.replicate schema.properties.length none)).lookup
      nodeTableID).getD []).length = schema.properties.length := by
    rw [emplace]
    split_ifs with hmem
    · obtain ⟨lists, hlists⟩ := Option.isSome_iff_exists.mp (Finmap.lookup_isSome.mpr hmem)
      rw [hlists]
      exact hm nodeTableID lists hlists
    · rw [Finmap.lookup_insert]
      exact List.length_replicate
  have hlists := @foldl_set_eq_map _ _ (fun x : Property × ℕ ↦ (some ⟨⟨schema.tableID, nodeTableID,
      relDirection, x.1.propertyID⟩, x.1.dataType, ⟨schema.tableID, nodeTableID, relDirection⟩⟩ :
        Option RelPropertyLists)) Prod.snd schema.properties.zipIdx _
    (fun i hi ↦ by simp) (hlength.trans (List.length_zipIdx).symm)
  have hmap : schema.properties.zipIdx.map (fun x : Property × ℕ ↦ (some ⟨⟨schema.tableID,
      nodeTableID, relDirection, x.1.propertyID⟩, x.1.dataType,
        ⟨schema.tableID, nodeTableID, relDirection⟩⟩ : Option RelPropertyLists)) =
      listsOf schema relDirection nodeTableID := by
    rw [listsOf]
    nth_rewrite 2 [← List.zipIdx_map_fst 0 schema.properties]
    rw [List.map_map]
    rfl
  rw [insertLists, hlists, hmap, emplace]
  split_ifs
  · rfl
  · rw [Finmap.insert_insert]

theorem lookup_of_initPropertyLists (hheaders : HasHeaders table)
    (htable : table.tableID = schema.tableID) (hempty : table.propertyLists relDirection = ∅)
    (h : table.initPropertyListsForRelTable schema relDirection = .ok table') :
    table'.tableID = table.tableID ∧ table'.adjLists = table.adjLists ∧
      table'.propertyColumns = table.propertyColumns ∧
      (∀ dir, dir ≠ relDirection → table'.propertyLists dir = table.propertyLists dir) ∧
      ∀ nodeTableID ∈ schema.boundTableIDs relDirection,
        (table'.propertyLists relDirection).lookup nodeTableID =
          some (listsOf schema relDirection nodeTableID) := by
  rw [initPropertyListsForRelTable, bind_eq_ok_iff] at h
  obtain ⟨m', hloop, hreturn⟩ := h
  obtain rfl := Except.ok.inj hreturn
  refine ⟨rfl, rfl, rfl, fun dir hdir ↦ Function.update_of_ne hdir _ _,
    fun nodeTableID hmem ↦ ?_⟩
  have hnext := eq_foldl_of_foldlM_eq_ok (insertLists schema relDirection)
    (fun nodeTableID _ m m' hturn ↦ ?_) hloop
  · simp only [Function.update_self]
    rw [hnext, lookup_foldl_insert (g := listsOf schema relDirection) (fun m ↦ ∀ nodeTableID lists,
      m.lookup nodeTableID = some lists → lists.length = schema.properties.length)
        insertLists_eq, if_pos hmem]
    · intro m tableID hm nodeTableID lists hlookup
      by_cases heq : nodeTableID = tableID
      · rw [heq, Finmap.lookup_insert] at hlookup
        rw [← Option.some.inj hlookup, listsOf, List.length_map]
      · rw [Finmap.lookup_insert_of_ne _ heq] at hlookup
        exact hm nodeTableID lists hlookup
    · rw [hempty]
      simp
  · rw [bind_eq_ok_iff] at hturn
    obtain ⟨headers, hat, hturn⟩ := hturn
    simp only [bind_eq_ok_iff] at hturn
    obtain ⟨lists, hlists, hm'⟩ := hturn
    have hheader : headers = ⟨schema.tableID, nodeTableID, relDirection⟩ := by
      rw [tableAt] at hat
      split at hat
      · rename_i headers' hlookup
        rw [← Except.ok.inj hat, hheaders relDirection nodeTableID headers' hlookup, htable]
      · cases hat
    rw [← Except.ok.inj hm', insertLists]
    congr 1
    refine eq_foldl_of_foldlM_eq_ok _ (fun x _ lists lists' hset ↦ ?_) hlists
    rw [bind_eq_ok_iff] at hset
    obtain ⟨list, hlist, hset⟩ := hset
    rw [getLists] at hlist
    split_ifs at hlist
    rw [eq_set_of_setPointer_eq_ok hset, ← Except.ok.inj hlist, htable, hheader]

/-- One direction. -/
theorem spec_of_initPropertyStructures (hids : HasPropertyIDs schema) (hheaders : HasHeaders table)
    (htable : table.tableID = schema.tableID) (hempty : table.propertyLists relDirection = ∅)
    (h : table.initPropertyStructuresInDirection schema relDirection = .ok table') :
    table'.tableID = table.tableID ∧ table'.adjLists = table.adjLists ∧
      (∀ dir, dir ≠ relDirection → table'.propertyLists dir = table.propertyLists dir) ∧
      (∀ nodeTableID, table'.propertyColumns.lookup nodeTableID =
        if schema.isSingleMultiplicityInDirection relDirection = true ∧
            nodeTableID ∈ schema.boundTableIDs relDirection then
          some (columnsOf schema relDirection nodeTableID)
        else table.propertyColumns.lookup nodeTableID) ∧
      (schema.isSingleMultiplicityInDirection relDirection = false →
        ∀ nodeTableID ∈ schema.boundTableIDs relDirection,
          (table'.propertyLists relDirection).lookup nodeTableID =
            some (listsOf schema relDirection nodeTableID)) := by
  rw [initPropertyStructuresInDirection] at h
  cases hsingle : schema.isSingleMultiplicityInDirection relDirection with
  | true =>
      rw [hsingle, if_pos rfl] at h
      obtain ⟨htableID, hadj, hlists, hcolumns⟩ := lookup_of_initPropertyColumns hids htable h
      refine ⟨htableID, hadj, fun dir _ ↦ by rw [hlists], fun nodeTableID ↦ ?_, nofun⟩
      rw [hcolumns]
      exact if_congr (by simp) rfl rfl
  | false =>
      rw [hsingle, if_neg Bool.false_ne_true] at h
      obtain ⟨htableID, hadj, hcolumns, hothers, hlists⟩ :=
        lookup_of_initPropertyLists hheaders htable hempty h
      refine ⟨htableID, hadj, hothers, fun nodeTableID ↦ ?_, fun _ ↦ hlists⟩
      rw [hcolumns, if_neg (by simp)]

/-- The direction whose columns a node table has in the end. -/
def columnDirection (schema : RelTableSchema) (relDirection : RelDirection) (nodeTableID : ℕ) :
    RelDirection :=
  if schema.isSingleMultiplicityInDirection .bwd = true ∧
    nodeTableID ∈ schema.boundTableIDs .bwd then .bwd else relDirection

structure Loaded (schema : RelTableSchema) (table : RelTable) : Prop where
  columns : ∀ dir, schema.isSingleMultiplicityInDirection dir = true →
    ∀ nodeTableID ∈ schema.boundTableIDs dir, table.propertyColumns.lookup nodeTableID =
      some (columnsOf schema (columnDirection schema dir nodeTableID) nodeTableID)
  lists : ∀ dir, schema.isSingleMultiplicityInDirection dir = false →
    ∀ nodeTableID ∈ schema.boundTableIDs dir,
      (table.propertyLists dir).lookup nodeTableID = some (listsOf schema dir nodeTableID)

theorem loaded_of_load (hids : HasPropertyIDs schema) (hne : schema.properties ≠ [])
    (htable : table.tableID = schema.tableID)
    (h : table.loadColumnsAndListsFromDisk schema = .ok table') : Loaded schema table' := by
  have hheaders : HasHeaders (table.initAdjColumnOrLists schema) := by
    refine HasHeaders.of_direction (HasHeaders.of_direction fun dir nodeTableID headers hnone ↦ ?_)
    simp at hnone
  have htableID : (table.initAdjColumnOrLists schema).tableID = schema.tableID := by
    rw [← htable]
    simp only [initAdjColumnOrLists, initAdjColumnOrListsInDirection]
    split_ifs <;> rfl
  rw [loadColumnsAndListsFromDisk, initPropertyListsAndColumns,
    if_neg (by simpa using hne), bind_eq_ok_iff] at h
  obtain ⟨table₁, hfwd, hbwd⟩ := h
  obtain ⟨htableID₁, hadj₁, hothers₁, hcolumns₁, hlists₁⟩ := @spec_of_initPropertyStructures
    { table.initAdjColumnOrLists schema with propertyLists := fun _ ↦ ∅, propertyColumns := ∅ }
    table₁ schema .fwd hids hheaders htableID rfl hfwd
  have hheaders₁ : HasHeaders table₁ := by
    intro dir nodeTableID headers hlookup
    rw [hadj₁] at hlookup
    rw [htableID₁]
    exact hheaders dir nodeTableID headers hlookup
  obtain ⟨-, -, hothers, hcolumns, hlists⟩ := spec_of_initPropertyStructures hids hheaders₁
    (htableID₁.trans htableID) (hothers₁ .bwd nofun) hbwd
  refine ⟨fun dir hsingle nodeTableID hmem ↦ ?_, fun dir hsingle nodeTableID hmem ↦ ?_⟩
  · rw [hcolumns, columnDirection]
    split_ifs with hboth
    · rfl
    · cases dir with
      | fwd => rw [hcolumns₁, if_pos ⟨hsingle, hmem⟩]
      | bwd => exact absurd ⟨hsingle, hmem⟩ hboth
  · cases dir with
    | fwd =>
        rw [hothers .fwd nofun]
        exact hlists₁ hsingle nodeTableID hmem
    | bwd => exact hlists hsingle nodeTableID hmem

end RelTable

end Load

end Graphflow.Storage
