import Graphflow.Catalog.SavedContent

/-!
# Contents that are saved and read again

Which of the contents that DDL and `COPY` statements reach come back from the file as they were.
-/

namespace Graphflow

open Lib SerDeser Storage

/-! ## Names -/

/-- Every table stands under its ID, and its name leads to it. -/
def NamesListed {α : Type} (tableName : α → String) (tableID : α → ℕ)
    (names : Finmap fun _ : String ↦ ℕ) (schemas : TableMap α) : Prop :=
  ∀ id s, schemas.lookup id = some s → tableID s = id ∧ names.lookup (tableName s) = some id

/-- Every name is the name of a table. -/
def NamesExist {α : Type} (tableName : α → String) (names : Finmap fun _ : String ↦ ℕ)
    (schemas : TableMap α) : Prop :=
  ∀ name ∈ names, ∃ id s, schemas.lookup id = some s ∧ tableName s = name

namespace NamesListed

variable {α : Type} {tableName : α → String} {tableID : α → ℕ}
  {names : Finmap fun _ : String ↦ ℕ} {schemas : TableMap α} {id : ℕ} {s : α}

theorem empty : NamesListed tableName tableID ∅ ∅ := by
  intro id s hs
  cases hs

theorem insert (h : NamesListed tableName tableID names schemas) (hname : tableName s ∉ names)
    (hs : tableID s = id) :
    NamesListed tableName tableID (names.insert (tableName s) id) (schemas.insert id s) := by
  intro id' s' hs'
  by_cases hid : id' = id
  · subst hid
    rw [Finmap.lookup_insert] at hs'
    cases hs'
    exact ⟨hs, Finmap.lookup_insert _⟩
  · rw [Finmap.lookup_insert_of_ne _ hid] at hs'
    obtain ⟨htable, hlookup⟩ := h id' s' hs'
    have hne : tableName s' ≠ tableName s := by
      intro heq
      exact hname (heq ▸ Finmap.mem_of_lookup_eq_some hlookup)
    exact ⟨htable, (Finmap.lookup_insert_of_ne _ hne).trans hlookup⟩

theorem erase (h : NamesListed tableName tableID names schemas) (hs : schemas.lookup id = some s) :
    NamesListed tableName tableID (names.erase (tableName s)) (schemas.erase id) := by
  intro id' s' hs'
  by_cases hid : id' = id
  · subst hid
    rw [Finmap.lookup_erase] at hs'
    cases hs'
  · rw [Finmap.lookup_erase_ne hid] at hs'
    obtain ⟨htable, hlookup⟩ := h id' s' hs'
    have hne : tableName s' ≠ tableName s := by
      intro heq
      rw [heq, (h id s hs).2] at hlookup
      exact hid (Option.some.inj hlookup).symm
    exact ⟨htable, (Finmap.lookup_erase_ne hne).trans hlookup⟩

/-- A change of the schemas that keeps their names and their IDs. -/
theorem map {schemas' : TableMap α} {g : ℕ → α → α}
    (h : NamesListed tableName tableID names schemas)
    (hg : ∀ id, schemas'.lookup id = (schemas.lookup id).map (g id))
    (hname : ∀ id s, tableName (g id s) = tableName s)
    (htable : ∀ id s, tableID (g id s) = tableID s) :
    NamesListed tableName tableID names schemas' := by
  intro id s hs
  rw [hg id] at hs
  obtain ⟨s₀, hs₀, rfl⟩ := Option.map_eq_some_iff.mp hs
  rw [hname, htable]
  exact h id s₀ hs₀

/-- The name map that is made from the tables. -/
theorem lookup_insertEntries_iff (h : NamesListed tableName tableID names schemas)
    (order : MapOrder schemas) (name : String) (id : ℕ) :
    (insertEntries ∅ (order.entries.map fun entry ↦
      (tableName entry.2, tableID entry.2))).lookup name = some id ↔
        ∃ s, schemas.lookup id = some s ∧ tableName s = name := by
  have hnodup : ((order.entries.map fun entry ↦
      (tableName entry.2, tableID entry.2)).map Prod.fst).Nodup := by
    rw [List.map_map]
    apply List.Nodup.map_on _ (List.Nodup.of_map Prod.fst order.nodup)
    rintro ⟨id₁, s₁⟩ hmem₁ ⟨id₂, s₂⟩ hmem₂ heq
    have hs₁ := (order.mem_iff id₁ s₁).mp hmem₁
    have hs₂ := (order.mem_iff id₂ s₂).mp hmem₂
    have hid : some id₁ = some id₂ := by
      rw [← (h id₁ s₁ hs₁).2, ← (h id₂ s₂ hs₂).2]
      exact congrArg (fun name ↦ names.lookup name) heq
    cases hid
    rw [hs₁] at hs₂
    cases hs₂
    rfl
  rw [Lib.lookup_insertEntries_iff hnodup, List.mem_map]
  constructor
  · rintro ⟨⟨id', s⟩, hmem, heq⟩
    have hs := (order.mem_iff id' s).mp hmem
    cases heq
    rw [(h id' s hs).1]
    exact ⟨s, hs, rfl⟩
  · rintro ⟨s, hs, rfl⟩
    refine ⟨(id, s), (order.mem_iff id s).mpr hs, ?_⟩
    rw [(h id s hs).1]

/-- The name map is made anew from the tables, if every name is the name of one. -/
theorem insertEntries_eq_iff (h : NamesListed tableName tableID names schemas)
    (order : MapOrder schemas) :
    insertEntries ∅ (order.entries.map fun entry ↦ (tableName entry.2, tableID entry.2)) =
      names ↔ NamesExist tableName names schemas := by
  constructor
  · intro heq name hname
    obtain ⟨id, hid⟩ := Finmap.mem_iff.mp hname
    rw [← heq, h.lookup_insertEntries_iff order] at hid
    exact ⟨id, hid⟩
  · intro hexist
    apply Finmap.ext_lookup
    intro name
    apply Option.ext
    intro id
    rw [h.lookup_insertEntries_iff order]
    constructor
    · rintro ⟨s, hs, rfl⟩
      exact (h id s hs).2
    · intro hid
      obtain ⟨id', s, hs, rfl⟩ := hexist name (Finmap.mem_of_lookup_eq_some hid)
      rw [(h id' s hs).2] at hid
      cases hid
      exact ⟨s, hs, rfl⟩

end NamesListed

/-! ## Properties without a type -/

namespace NodeTableSchema

variable {schema : NodeTableSchema}

/-- The map of the unstructured properties can be made from the properties. -/
def MapsUnstrProperties (schema : NodeTableSchema) : Prop :=
  schema.withUnstrPropertiesNameToIdMap = schema

theorem mapsUnstrProperties_iff : schema.MapsUnstrProperties ↔
    schema.withUnstrPropertiesNameToIdMap.unstrPropertiesNameToIdMap =
      schema.unstrPropertiesNameToIdMap := by
  constructor
  · intro h
    exact congrArg unstrPropertiesNameToIdMap h
  · intro h
    have heta : schema.withUnstrPropertiesNameToIdMap = { schema with
        unstrPropertiesNameToIdMap :=
          schema.withUnstrPropertiesNameToIdMap.unstrPropertiesNameToIdMap } := rfl
    rw [MapsUnstrProperties, heta, h]

theorem MapsUnstrProperties.addUnstructuredProperty (h : schema.MapsUnstrProperties)
    (name : String) : (schema.addUnstructuredProperty name).MapsUnstrProperties := by
  rw [mapsUnstrProperties_iff] at h ⊢
  rw [withUnstrPropertiesNameToIdMap] at h ⊢
  simp only [NodeTableSchema.addUnstructuredProperty, List.filter_append, List.map_append] at h ⊢
  rw [← h]
  exact insertEntries_concat _

theorem MapsUnstrProperties.addUnstructuredProperties (h : schema.MapsUnstrProperties)
    (names : List String) : (schema.addUnstructuredProperties names).MapsUnstrProperties := by
  induction names generalizing schema with
  | nil => exact h
  | cons name names ih => exact ih (h.addUnstructuredProperty name)

@[simp] theorem tableName_addUnstructuredProperties (names : List String) :
    (schema.addUnstructuredProperties names).tableName = schema.tableName := by
  induction names generalizing schema with
  | nil => rfl
  | cons name names ih => exact ih

@[simp] theorem tableID_addUnstructuredProperties (names : List String) :
    (schema.addUnstructuredProperties names).tableID = schema.tableID := by
  induction names generalizing schema with
  | nil => rfl
  | cons name names ih => exact ih

end NodeTableSchema

/-! ## Statements -/

/-- The statements that change the catalog, as the binder gets them. -/
inductive Statement
  | createNodeTable (tableName : String) (primaryKeyIdx : ℕ)
      (structuredPropertyDefinitions : List PropertyNameDataType)
  | createRelTable (tableName : String) (relMultiplicity : RelMultiplicity)
      (structuredPropertyDefinitions : List PropertyNameDataType) (srcDstTableIDs : SrcDstTableIDs)
  | dropTable (tableName : String)
  | copyNodeTable (tableName : String) (unstructuredPropertyNames : List String)

namespace CatalogContent

variable {c c' : CatalogContent}

/-- `edgeContainsNodeTable` for some rel table. -/
def hasEdge (c : CatalogContent) (tableID : ℕ) : Bool :=
  c.relTableSchemas.any fun _ schema ↦
    tableID ∈ schema.srcDstTableIDs.srcTableIDs ∨ tableID ∈ schema.srcDstTableIDs.dstTableIDs

def dropNodeTable (c : CatalogContent) (tableID : ℕ) : Option CatalogContent := do
  let schema ← c.nodeTableSchemas.lookup tableID
  if c.hasEdge tableID then none
  else some (c.removeTableSchema ⟨schema.tableName, schema.tableID, true⟩)

def dropRelTable (c : CatalogContent) (tableID : ℕ) : Option CatalogContent := do
  let schema ← c.relTableSchemas.lookup tableID
  return c.removeTableSchema ⟨schema.tableName, schema.tableID, false⟩

/-- The content after a statement; there is none if the binder, or the statement, throws an
exception. -/
def execute (c : CatalogContent) : Statement → Option CatalogContent
  | .createNodeTable tableName primaryKeyIdx definitions =>
      if tableName ∈ c.nodeTableNameToIDMap then none
      else some (c.addNodeTableSchema tableName primaryKeyIdx definitions).1
  | .createRelTable tableName relMultiplicity definitions srcDstTableIDs =>
      if tableName ∈ c.relTableNameToIDMap then none
      else ((c.addRelTableSchema tableName relMultiplicity definitions srcDstTableIDs).map
        Prod.fst).toOption
  | .dropTable tableName =>
      match c.nodeTableNameToIDMap.lookup tableName with
      | some tableID => c.dropNodeTable tableID
      | none => (c.relTableNameToIDMap.lookup tableName).bind c.dropRelTable
  | .copyNodeTable tableName unstructuredPropertyNames => do
      let tableID ← c.nodeTableNameToIDMap.lookup tableName
      let schema ← c.nodeTableSchemas.lookup tableID
      return { c with
        nodeTableSchemas := c.nodeTableSchemas.insert tableID
          (schema.addUnstructuredProperties unstructuredPropertyNames) }

/-- What holds of every content that statements reach. -/
structure Reached (c : CatalogContent) : Prop where
  nodes : NamesListed NodeTableSchema.tableName NodeTableSchema.tableID c.nodeTableNameToIDMap
    c.nodeTableSchemas
  rels : NamesListed RelTableSchema.tableName RelTableSchema.tableID c.relTableNameToIDMap
    c.relTableSchemas
  unstrProperties : ∀ id s, c.nodeTableSchemas.lookup id = some s → s.MapsUnstrProperties
  numGeneratedProperties : ∀ id s, c.relTableSchemas.lookup id = some s →
    s.numGeneratedProperties = 0

theorem reached_empty : Reached {} where
  nodes := .empty
  rels := .empty
  unstrProperties := by simp
  numGeneratedProperties := by simp

theorem Reached.addNodeTableSchema (hc : c.Reached) {tableName : String}
    (hname : tableName ∉ c.nodeTableNameToIDMap) (primaryKeyIdx : ℕ)
    (definitions : List PropertyNameDataType) :
    (c.addNodeTableSchema tableName primaryKeyIdx definitions).1.Reached where
  nodes := hc.nodes.insert hname rfl
  rels := hc.rels
  unstrProperties := by
    intro id s hs
    rw [CatalogContent.addNodeTableSchema] at hs
    by_cases hid : id = c.getNumNodeTables
    · subst hid
      rw [Finmap.lookup_insert] at hs
      cases hs
      rfl
    · rw [Finmap.lookup_insert_of_ne _ hid] at hs
      exact hc.unstrProperties id s hs
  numGeneratedProperties := hc.numGeneratedProperties

theorem Reached.addRelTableSchema (hc : c.Reached) {tableName : String}
    {relMultiplicity : RelMultiplicity} {definitions : List PropertyNameDataType}
    {srcDstTableIDs : SrcDstTableIDs} {tableID : ℕ} (hname : tableName ∉ c.relTableNameToIDMap)
    (hadd : c.addRelTableSchema tableName relMultiplicity definitions srcDstTableIDs =
      .ok (c', tableID)) : c'.Reached := by
  obtain ⟨rfl, hnodeNames, hrelNames, hnodes, schema, rfl, hschemaID, -, hgenerated, -, hrels⟩ :=
    addRelTableSchema_eq_ok hadd
  constructor
  · rw [hnodeNames]
    exact hc.nodes.map hnodes (fun _ _ ↦ rfl) (fun _ _ ↦ rfl)
  · rw [hrelNames, hrels]
    exact hc.rels.insert hname hschemaID
  · intro id s hs
    rw [hnodes id] at hs
    obtain ⟨s₀, hs₀, rfl⟩ := Option.map_eq_some_iff.mp hs
    have hmaps := hc.unstrProperties id s₀ hs₀
    rw [NodeTableSchema.mapsUnstrProperties_iff] at hmaps ⊢
    exact hmaps
  · intro id s hs
    rw [hrels] at hs
    by_cases hid : id = c.relTableSchemas.keys.card
    · subst hid
      rw [Finmap.lookup_insert] at hs
      cases hs
      exact hgenerated
    · rw [Finmap.lookup_insert_of_ne _ hid] at hs
      exact hc.numGeneratedProperties id s hs

theorem lookup_of_lookup_erase {α : Type} {schemas : TableMap α} {id id' : ℕ} {s : α}
    (hs : (schemas.erase id).lookup id' = some s) : schemas.lookup id' = some s := by
  by_cases hid : id' = id
  · rw [hid, Finmap.lookup_erase] at hs
    cases hs
  · rwa [Finmap.lookup_erase_ne hid] at hs

theorem Reached.dropNodeTable (hc : c.Reached) {tableID : ℕ}
    (hdrop : c.dropNodeTable tableID = some c') : c'.Reached := by
  obtain ⟨schema, hschema, hdrop⟩ := Option.bind_eq_some_iff.mp hdrop
  split_ifs at hdrop
  cases hdrop
  have hid := (hc.nodes tableID schema hschema).1
  constructor
  · rw [removeTableSchema, if_pos rfl, hid]
    exact hc.nodes.erase hschema
  · exact hc.rels
  · intro id s hs
    exact hc.unstrProperties id s (lookup_of_lookup_erase hs)
  · exact hc.numGeneratedProperties

theorem Reached.dropRelTable (hc : c.Reached) {tableID : ℕ}
    (hdrop : c.dropRelTable tableID = some c') : c'.Reached := by
  obtain ⟨schema, hschema, hdrop⟩ := Option.bind_eq_some_iff.mp hdrop
  cases hdrop
  have hid := (hc.rels tableID schema hschema).1
  constructor
  · exact hc.nodes
  · rw [removeTableSchema, if_neg Bool.false_ne_true, hid]
    exact hc.rels.erase hschema
  · exact hc.unstrProperties
  · intro id s hs
    exact hc.numGeneratedProperties id s (lookup_of_lookup_erase hs)

theorem Reached.copyNodeTable (hc : c.Reached) {tableID : ℕ} {schema : NodeTableSchema}
    (hschema : c.nodeTableSchemas.lookup tableID = some schema) (names : List String) :
    Reached { c with
      nodeTableSchemas := c.nodeTableSchemas.insert tableID
        (schema.addUnstructuredProperties names) } := by
  constructor
  · intro id s hs
    by_cases hid : id = tableID
    · subst hid
      rw [Finmap.lookup_insert] at hs
      cases hs
      obtain ⟨htable, hlookup⟩ := hc.nodes id schema hschema
      have hname := congrArg (fun name ↦ c.nodeTableNameToIDMap.lookup name)
        (@NodeTableSchema.tableName_addUnstructuredProperties schema names)
      exact ⟨(NodeTableSchema.tableID_addUnstructuredProperties names).trans htable,
        hname.trans hlookup⟩
    · rw [Finmap.lookup_insert_of_ne _ hid] at hs
      exact hc.nodes id s hs
  · exact hc.rels
  · intro id s hs
    by_cases hid : id = tableID
    · subst hid
      rw [Finmap.lookup_insert] at hs
      cases hs
      exact (hc.unstrProperties id schema hschema).addUnstructuredProperties names
    · rw [Finmap.lookup_insert_of_ne _ hid] at hs
      exact hc.unstrProperties id s hs
  · exact hc.numGeneratedProperties

theorem Reached.execute (hc : c.Reached) {statement : Statement}
    (hexecute : c.execute statement = some c') : c'.Reached := by
  cases statement with
  | createNodeTable tableName primaryKeyIdx definitions =>
      rw [CatalogContent.execute] at hexecute
      split_ifs at hexecute with hname
      cases hexecute
      exact hc.addNodeTableSchema hname primaryKeyIdx definitions
  | createRelTable tableName relMultiplicity definitions srcDstTableIDs =>
      rw [CatalogContent.execute] at hexecute
      split_ifs at hexecute with hname
      cases hadd : c.addRelTableSchema tableName relMultiplicity definitions srcDstTableIDs with
      | error e =>
          rw [hadd] at hexecute
          cases hexecute
      | ok added =>
          rw [hadd] at hexecute
          cases hexecute
          exact hc.addRelTableSchema hname hadd
  | dropTable tableName =>
      rw [CatalogContent.execute] at hexecute
      split at hexecute
      · exact hc.dropNodeTable hexecute
      · obtain ⟨tableID, -, hdrop⟩ := Option.bind_eq_some_iff.mp hexecute
        exact hc.dropRelTable hdrop
  | copyNodeTable tableName names =>
      obtain ⟨tableID, -, hexecute⟩ := Option.bind_eq_some_iff.mp hexecute
      obtain ⟨schema, hschema, hexecute⟩ := Option.bind_eq_some_iff.mp hexecute
      cases hexecute
      exact hc.copyNodeTable hschema names

/-- What comes back from the file: there are no rel tables, and no names of tables that are not
there any more. -/
structure Survives (c : CatalogContent) : Prop where
  relTables : c.relTableSchemas = ∅
  nodeNames : NamesExist NodeTableSchema.tableName c.nodeTableNameToIDMap c.nodeTableSchemas
  relNames : NamesExist RelTableSchema.tableName c.relTableNameToIDMap c.relTableSchemas

theorem nodeTableSchemas_reloaded (hc : c.Reached) (orders : c.Orders) :
    (c.reloaded orders).nodeTableSchemas = c.nodeTableSchemas := by
  apply Finmap.ext_lookup
  intro id
  have hlookup := lookup_insertEntries_order orders.nodeTableSchemas
    (fun _ schema ↦ schema.withUnstrPropertiesNameToIdMap) id
  rw [reloaded, ofTables, List.map_map]
  refine hlookup.trans ?_
  cases hs : c.nodeTableSchemas.lookup id with
  | none => rfl
  | some s => exact congrArg some (hc.unstrProperties id s hs)

/-- A rel table that has been read is none that has been created. -/
theorem relTableSchemas_reloaded_eq_iff (hc : c.Reached) (orders : c.Orders) :
    (c.reloaded orders).relTableSchemas = c.relTableSchemas ↔ c.relTableSchemas = ∅ := by
  have hlookup := lookup_insertEntries_order orders.relTableSchemas
    (fun _ schema ↦ { schema with numGeneratedProperties := uint32Max })
  constructor
  · intro heq
    apply Finmap.ext_lookup
    intro id
    rw [Finmap.lookup_empty]
    cases hs : c.relTableSchemas.lookup id with
    | none => rfl
    | some s =>
        have hreloaded := hlookup id
        rw [hs] at hreloaded
        have hself : c.relTableSchemas.lookup id =
            some { s with numGeneratedProperties := uint32Max } := by
          rw [← heq]
          exact hreloaded
        have hgenerated : uint32Max = 0 := hc.numGeneratedProperties id _ hself
        exact absurd hgenerated (by decide)
  · intro hempty
    apply Finmap.ext_lookup
    intro id
    refine (hlookup id).trans ?_
    rw [hempty]
    rfl

theorem reloaded_eq_iff (hc : c.Reached) (orders : c.Orders) :
    c.reloaded orders = c ↔ c.Survives := by
  have hnodeNames : (c.reloaded orders).nodeTableNameToIDMap = c.nodeTableNameToIDMap ↔
      NamesExist NodeTableSchema.tableName c.nodeTableNameToIDMap c.nodeTableSchemas := by
    rw [← hc.nodes.insertEntries_eq_iff orders.nodeTableSchemas]
    exact Eq.congr_left (congrArg (insertEntries ∅) List.map_map)
  have hrelNames : (c.reloaded orders).relTableNameToIDMap = c.relTableNameToIDMap ↔
      NamesExist RelTableSchema.tableName c.relTableNameToIDMap c.relTableSchemas := by
    rw [← hc.rels.insertEntries_eq_iff orders.relTableSchemas]
    exact Eq.congr_left (congrArg (insertEntries ∅) List.map_map)
  constructor
  · intro heq
    refine ⟨?_, hnodeNames.mp (congrArg nodeTableNameToIDMap heq),
      hrelNames.mp (congrArg relTableNameToIDMap heq)⟩
    exact (relTableSchemas_reloaded_eq_iff hc orders).mp (congrArg relTableSchemas heq)
  · rintro ⟨hrels, hnodes, hnames⟩
    have hnodeTables := nodeTableSchemas_reloaded hc orders
    have hrelTables := (relTableSchemas_reloaded_eq_iff hc orders).mpr hrels
    have hnodes' := hnodeNames.mpr hnodes
    have hrels' := hrelNames.mpr hnames
    generalize c.reloaded orders = c' at *
    cases c'
    cases c
    simp only [mk.injEq]
    exact ⟨hnodeTables, hrelTables, hnodes', hrels'⟩

/-- A content that statements have reached comes back from the file. -/
theorem readFromCatalogFile_saveToFile_eq_iff {statements : List Statement}
    (hrun : Lib.run execute {} statements = some c) (hfits : c.Fits) (orders : c.Orders)
    (file : List UInt8) :
    readFromCatalogFile (c.saveToFile orders file) = some c ↔ c.Survives := by
  have hc : c.Reached :=
    Lib.run_invariant (fun _ _ _ hc hstep ↦ hc.execute hstep) reached_empty hrun
  rw [readFromCatalogFile_saveToFile hfits, Option.some.injEq]
  exact reloaded_eq_iff hc orders

end CatalogContent

end Graphflow
