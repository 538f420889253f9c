import Graphflow.Catalog.Content

/-!
# Histories of schema changes

A catalog keeps, for each kind of table, a map from names to IDs and a map from IDs to schemas, and
in each node table schema the sets of rel tables that start and end there.  The new table gets the
number of tables of its kind as its ID, and dropping a table changes nothing but the two maps of
its kind.
-/

namespace Graphflow

open Storage Wal

/-! ## Two maps that are inverse to each other -/

/-- The name map and the schema map of one kind of tables describe the same tables. -/
structure NamesAgree {α : Type} (tableName : α → String) (tableID : α → ℕ)
    (names : Finmap fun _ : String ↦ ℕ) (schemas : TableMap α) : Prop where
  lookup_iff : ∀ name id, names.lookup name = some id ↔
    ∃ s, schemas.lookup id = some s ∧ tableName s = name
  tableID_eq : ∀ id s, schemas.lookup id = some s → tableID s = id

namespace NamesAgree

variable {α : Type} {tableName : α → String} {tableID : α → ℕ}
  {names : Finmap fun _ : String ↦ ℕ} {schemas : TableMap α} {id : ℕ} {s s' : α}

theorem empty : NamesAgree tableName tableID ∅ ∅ where
  lookup_iff := by simp
  tableID_eq := by simp

theorem insert (h : NamesAgree tableName tableID names schemas) (hname : tableName s ∉ names)
    (hid : id ∉ schemas) (hs : tableID s = id) :
    NamesAgree tableName tableID (names.insert (tableName s) id) (schemas.insert id s) where
  lookup_iff := by
    intro name id'
    by_cases hnew : id' = id
    · subst hnew
      by_cases heq : name = tableName s
      · subst heq
        simp
      · have hold : names.lookup name ≠ some id' := by
          intro hlookup
          obtain ⟨s', hs', -⟩ := (h.lookup_iff name id').mp hlookup
          exact hid (Finmap.mem_of_lookup_eq_some hs')
        simp [Finmap.lookup_insert_of_ne _ heq, hold, Ne.symm heq]
    · rw [Finmap.lookup_insert_of_ne _ hnew]
      by_cases heq : name = tableName s
      · subst heq
        rw [Finmap.lookup_insert]
        constructor
        · intro hsome
          exact absurd (Option.some.inj hsome).symm hnew
        · intro hexists
          have hlookup := (h.lookup_iff (tableName s) id').mpr hexists
          exact absurd (Finmap.mem_of_lookup_eq_some hlookup) hname
      · rw [Finmap.lookup_insert_of_ne _ heq]
        exact h.lookup_iff name id'
  tableID_eq := by
    intro id' s' hs'
    by_cases hnew : id' = id
    · subst hnew
      rw [Finmap.lookup_insert] at hs'
      obtain rfl := Option.some.inj hs'
      exact hs
    · rw [Finmap.lookup_insert_of_ne _ hnew] at hs'
      exact h.tableID_eq id' s' hs'

theorem erase (h : NamesAgree tableName tableID names schemas) (hs : schemas.lookup id = some s) :
    NamesAgree tableName tableID (names.erase (tableName s)) (schemas.erase id) where
  lookup_iff := by
    intro name id'
    have hself : names.lookup (tableName s) = some id := (h.lookup_iff _ _).mpr ⟨s, hs, rfl⟩
    by_cases hid : id' = id
    · subst hid
      have hnone : (names.erase (tableName s)).lookup name ≠ some id' := by
        by_cases heq : name = tableName s
        · rw [heq, Finmap.lookup_erase]
          simp
        · rw [Finmap.lookup_erase_ne heq]
          intro hlookup
          obtain ⟨s', hs', rfl⟩ := (h.lookup_iff name id').mp hlookup
          obtain rfl := Option.some.inj (hs.symm.trans hs')
          exact heq rfl
      simp [Finmap.lookup_erase, hnone]
    · rw [Finmap.lookup_erase_ne hid]
      by_cases heq : name = tableName s
      · subst heq
        rw [Finmap.lookup_erase]
        constructor
        · simp
        · intro hexists
          have hlookup := (h.lookup_iff (tableName s) id').mpr hexists
          exact absurd (Option.some.inj (hlookup.symm.trans hself)) hid
      · rw [Finmap.lookup_erase_ne heq]
        exact h.lookup_iff name id'
  tableID_eq := by
    intro id' s' hs'
    by_cases hid : id' = id
    · subst hid
      simp [Finmap.lookup_erase] at hs'
    · rw [Finmap.lookup_erase_ne hid] at hs'
      exact h.tableID_eq id' s' hs'

/-- A change of the schemas that keeps their names and their IDs. -/
theorem map {schemas' : TableMap α} {g : ℕ → α → α}
    (h : NamesAgree tableName tableID names schemas)
    (hg : ∀ id, schemas'.lookup id = (schemas.lookup id).map (g id))
    (hname : ∀ id s, tableName (g id s) = tableName s)
    (htable : ∀ id s, tableID (g id s) = tableID s) :
    NamesAgree tableName tableID names schemas' where
  lookup_iff := by
    intro name id
    rw [h.lookup_iff name id, hg id]
    simp [hname]
  tableID_eq := by
    intro id s hs
    rw [hg id] at hs
    obtain ⟨s₀, hs₀, rfl⟩ := Option.map_eq_some_iff.mp hs
    exact (htable id s₀).trans (h.tableID_eq id s₀ hs₀)

end NamesAgree

/-- `fwdRelTableIDSet` or `bwdRelTableIDSet`. -/
def NodeTableSchema.relTableIDSet (schema : NodeTableSchema) : RelDirection → Finset ℕ
  | .fwd => schema.fwdRelTableIDSet
  | .bwd => schema.bwdRelTableIDSet

namespace CatalogContent

variable {c c' : CatalogContent} {id tableID : ℕ}

/-! ## What creating a rel table does to the node tables -/

theorem lookup_updateNodeTableSchemas {f : NodeTableSchema → NodeTableSchema} {ids : List ℕ}
    (hf : ∀ s, f (f s) = f s) (hloop : ids.foldlM (updateNodeTableSchema f) c = .ok c') :
    (∀ id ∈ ids, id ∈ c.nodeTableSchemas) ∧
      c' = { c with nodeTableSchemas := c'.nodeTableSchemas } ∧
      ∀ id, c'.nodeTableSchemas.lookup id =
        (c.nodeTableSchemas.lookup id).map fun s ↦ if id ∈ ids then f s else s := by
  induction ids generalizing c with
  | nil =>
      obtain rfl := Except.ok.inj hloop
      simp
  | cons t ids ih =>
      obtain ⟨c₁, hstep, hloop⟩ := Lib.bind_eq_ok_iff.mp hloop
      unfold updateNodeTableSchema at hstep
      split at hstep
      next schema hschema =>
        obtain rfl := Except.ok.inj hstep
        obtain ⟨hmem, heq, hlookup⟩ := ih hloop
        have ht : t ∈ c.nodeTableSchemas := Finmap.mem_of_lookup_eq_some hschema
        refine ⟨?_, heq, fun id ↦ ?_⟩
        · intro id hid
          rcases List.mem_cons.mp hid with rfl | hid
          · exact ht
          · rcases (Finmap.mem_insert).mp (hmem id hid) with rfl | hid
            · exact ht
            · exact hid
        · rw [hlookup id]
          by_cases hid : id = t
          · subst hid
            simp [Finmap.lookup_insert, hschema, hf]
          · simp [Finmap.lookup_insert_of_ne _ hid, hid]
      · simp at hstep

/-- The node table schemas after the loops over the bound tables of a new rel table. -/
def bindRelTable (tableID : ℕ) (srcDstTableIDs : SrcDstTableIDs) (id : ℕ)
    (s : NodeTableSchema) : NodeTableSchema :=
  { s with
    fwdRelTableIDSet := if id ∈ srcDstTableIDs.srcTableIDs then insert tableID s.fwdRelTableIDSet
      else s.fwdRelTableIDSet
    bwdRelTableIDSet := if id ∈ srcDstTableIDs.dstTableIDs then insert tableID s.bwdRelTableIDSet
      else s.bwdRelTableIDSet }

theorem mem_relTableIDSet_bindRelTable {srcDstTableIDs : SrcDstTableIDs} {s : NodeTableSchema}
    {direction : RelDirection} {r : ℕ} :
    r ∈ (bindRelTable tableID srcDstTableIDs id s).relTableIDSet direction ↔
      r ∈ s.relTableIDSet direction ∨ r = tableID ∧ id ∈ (match direction with
        | .fwd => srcDstTableIDs.srcTableIDs
        | .bwd => srcDstTableIDs.dstTableIDs) := by
  cases direction with
  | fwd =>
      simp only [bindRelTable, NodeTableSchema.relTableIDSet]
      split <;> simp_all [or_comm]
  | bwd =>
      simp only [bindRelTable, NodeTableSchema.relTableIDSet]
      split <;> simp_all [or_comm]

theorem addRelTableSchema_eq_ok {tableName : String} {relMultiplicity : RelMultiplicity}
    {definitions : List PropertyNameDataType} {srcDstTableIDs : SrcDstTableIDs}
    (hadd : c.addRelTableSchema tableName relMultiplicity definitions srcDstTableIDs =
      .ok (c', tableID)) :
    tableID = c.relTableSchemas.keys.card ∧
      c'.nodeTableNameToIDMap = c.nodeTableNameToIDMap ∧
      c'.relTableNameToIDMap = c.relTableNameToIDMap.insert tableName tableID ∧
      (∀ id, c'.nodeTableSchemas.lookup id =
        (c.nodeTableSchemas.lookup id).map (bindRelTable tableID srcDstTableIDs id)) ∧
      ∃ schema : RelTableSchema, schema.tableName = tableName ∧ schema.tableID = tableID ∧
        schema.srcDstTableIDs = srcDstTableIDs ∧ schema.numGeneratedProperties = 0 ∧
        (∀ direction, ∀ id ∈ schema.boundTableIDs direction, id ∈ c.nodeTableSchemas) ∧
        c'.relTableSchemas = c.relTableSchemas.insert tableID schema := by
  obtain ⟨c₁, hfwd, hadd⟩ := Lib.bind_eq_ok_iff.mp hadd
  obtain ⟨c₂, hbwd, hadd⟩ := Lib.bind_eq_ok_iff.mp hadd
  obtain ⟨hsrc, hc₁, hlookup₁⟩ := lookup_updateNodeTableSchemas (fun s ↦ by simp) hfwd
  obtain ⟨hdst, hc₂, hlookup₂⟩ := lookup_updateNodeTableSchemas (fun s ↦ by simp) hbwd
  obtain ⟨rfl, rfl⟩ := Prod.mk.inj (Except.ok.inj hadd)
  refine ⟨rfl, ?_, ?_, fun id ↦ ?_, ⟨tableName, c.relTableSchemas.keys.card, relMultiplicity,
    propertiesOf (definitions ++ [⟨internalIDSuffix, .scalar .int64⟩]) c.relTableSchemas.keys.card,
    srcDstTableIDs, 0⟩, rfl, rfl, rfl, rfl, ?_, ?_⟩
  · rw [hc₂, hc₁]
  · rw [hc₂, hc₁]
  · simp only [hlookup₂ id, hlookup₁ id, Option.map_map]
    congr 1
    funext s
    simp only [bindRelTable, Function.comp_apply]
    by_cases hd : id ∈ srcDstTableIDs.dstTableIDs <;>
      by_cases hs : id ∈ srcDstTableIDs.srcTableIDs <;> simp [hd, hs]
  · intro direction id hid
    cases direction with
    | fwd => exact hsrc id hid
    | bwd =>
        have hmem := hdst id hid
        obtain ⟨s, hs⟩ := Finmap.mem_iff.mp hmem
        rw [hlookup₁ id] at hs
        obtain ⟨s₀, hs₀, -⟩ := Option.map_eq_some_iff.mp hs
        exact Finmap.mem_of_lookup_eq_some hs₀
  · rw [hc₂, hc₁]

/-! ## Histories -/

inductive SchemaChange
  | addNodeTable (tableName : String) (primaryKeyIdx : ℕ)
      (structuredPropertyDefinitions : List PropertyNameDataType)
  | addRelTable (tableName : String) (relMultiplicity : RelMultiplicity)
      (structuredPropertyDefinitions : List PropertyNameDataType) (srcDstTableIDs : SrcDstTableIDs)
  | removeTable (tableSchema : TableSchema)

/-- The content after a change; there is none if the change follows a null pointer. -/
def change (c : CatalogContent) : SchemaChange → Option CatalogContent
  | .addNodeTable tableName primaryKeyIdx definitions =>
      some (c.addNodeTableSchema tableName primaryKeyIdx definitions).1
  | .addRelTable tableName relMultiplicity definitions srcDstTableIDs =>
      match c.addRelTableSchema tableName relMultiplicity definitions srcDstTableIDs with
      | .ok (c', _) => some c'
      | .error _ => none
  | .removeTable tableSchema => some (c.removeTableSchema tableSchema)

/-- The maps and the sets of rel tables agree with each other. -/
structure Integrity (c : CatalogContent) : Prop where
  nodes : NamesAgree NodeTableSchema.tableName NodeTableSchema.tableID c.nodeTableNameToIDMap
    c.nodeTableSchemas
  rels : NamesAgree RelTableSchema.tableName RelTableSchema.tableID c.relTableNameToIDMap
    c.relTableSchemas
  relSets : ∀ id s, c.nodeTableSchemas.lookup id = some s → ∀ direction r,
    r ∈ s.relTableIDSet direction ↔
      ∃ rel, c.relTableSchemas.lookup r = some rel ∧ id ∈ rel.boundTableIDs direction

/-- A change that adds a table leaves the schemas of all tables of the kind in their places. -/
def KeepsTables (c : CatalogContent) (ddl : SchemaChange) (c' : CatalogContent) : Prop :=
  match ddl with
  | .addNodeTable _ _ _ => ∀ id s, c.nodeTableSchemas.lookup id = some s →
      c'.nodeTableSchemas.lookup id = some s
  | .addRelTable _ _ _ _ => ∀ id s, c.relTableSchemas.lookup id = some s →
      c'.relTableSchemas.lookup id = some s
  | .removeTable _ => True

/-- `validateNodeTableHasNoEdge`. -/
def HasNoEdge (c : CatalogContent) (tableID : ℕ) : Prop :=
  ∀ r rel, c.relTableSchemas.lookup r = some rel → ∀ direction,
    tableID ∉ rel.boundTableIDs direction

/-- What a change must meet: the binder's checks, that the number of tables is no table's ID when a
table is added, and that a rel table that is dropped is on no node table. -/
def Sound (c : CatalogContent) : SchemaChange → Prop
  | .addNodeTable tableName _ _ =>
      tableName ∉ c.nodeTableNameToIDMap ∧ c.nodeTableSchemas.keys.card ∉ c.nodeTableSchemas
  | .addRelTable tableName _ _ _ =>
      tableName ∉ c.relTableNameToIDMap ∧ c.relTableSchemas.keys.card ∉ c.relTableSchemas
  | .removeTable tableSchema =>
      if tableSchema.isNodeTable then
        c.HasNoEdge tableSchema.tableID ∧ ∃ s, c.nodeTableSchemas.lookup tableSchema.tableID =
          some s ∧ s.tableName = tableSchema.tableName
      else
        ∃ rel, c.relTableSchemas.lookup tableSchema.tableID = some rel ∧
          rel.tableName = tableSchema.tableName ∧ ∀ direction, rel.boundTableIDs direction = []

/-- The invariant: besides the integrity, rel tables are bound to existing node tables only. -/
structure Inv (c : CatalogContent) : Prop extends Integrity c where
  bound : ∀ r rel, c.relTableSchemas.lookup r = some rel → ∀ direction,
    ∀ id ∈ rel.boundTableIDs direction, id ∈ c.nodeTableSchemas

theorem inv_empty : Inv {} where
  nodes := .empty
  rels := .empty
  relSets := by simp
  bound := by simp

theorem Inv.addNodeTable (hc : Inv c) {tableName : String} {primaryKeyIdx : ℕ}
    {definitions : List PropertyNameDataType}
    (hsound : c.Sound (.addNodeTable tableName primaryKeyIdx definitions)) :
    Inv (c.addNodeTableSchema tableName primaryKeyIdx definitions).1 := by
  obtain ⟨hname, hid⟩ := hsound
  have hnodes := hc.nodes.insert (s := ⟨tableName, c.nodeTableSchemas.keys.card, primaryKeyIdx,
    propertiesOf definitions c.nodeTableSchemas.keys.card, [], ∅, ∅, ∅⟩) hname hid rfl
  refine ⟨⟨hnodes, hc.rels, fun id s hs ↦ ?_⟩, fun r rel hrel direction ↦ ?_⟩
  · by_cases hnew : id = c.nodeTableSchemas.keys.card
    · subst hnew
      obtain rfl := Option.some.inj ((Finmap.lookup_insert _).symm.trans hs)
      intro direction r
      constructor
      · cases direction <;> simp [NodeTableSchema.relTableIDSet]
      · rintro ⟨rel, hrel, hmem⟩
        exact absurd (hc.bound r rel hrel direction _ hmem) hid
    · exact hc.relSets id s ((Finmap.lookup_insert_of_ne _ hnew).symm.trans hs)
  · intro id hid'
    exact Finmap.mem_insert.mpr (.inr (hc.bound r rel hrel direction id hid'))

theorem Inv.addRelTable (hc : Inv c) {tableName : String} {relMultiplicity : RelMultiplicity}
    {definitions : List PropertyNameDataType} {srcDstTableIDs : SrcDstTableIDs}
    (hsound : c.Sound (.addRelTable tableName relMultiplicity definitions srcDstTableIDs))
    (hadd : c.addRelTableSchema tableName relMultiplicity definitions srcDstTableIDs =
      .ok (c', tableID)) : Inv c' := by
  obtain ⟨hname, hid⟩ := hsound
  obtain ⟨rfl, hnodeNames, hrelNames, hnodes, schema, hschemaName, hschemaID, hbound, -,
    hexist, hrels⟩ := addRelTableSchema_eq_ok hadd
  have hkeep : ∀ id, id ∈ c.nodeTableSchemas → id ∈ c'.nodeTableSchemas := by
    intro id hmem
    obtain ⟨s, hs⟩ := Finmap.mem_iff.mp hmem
    exact Finmap.mem_of_lookup_eq_some ((hnodes id).trans (congrArg _ hs))
  refine ⟨⟨?_, ?_, fun id s hs direction r ↦ ?_⟩, fun r rel hrel direction id hmem ↦ ?_⟩
  · rw [hnodeNames]
    exact hc.nodes.map hnodes (fun _ _ ↦ rfl) fun _ _ ↦ rfl
  · rw [hrelNames, hrels, ← hschemaName]
    refine hc.rels.insert ?_ hid hschemaID
    rwa [hschemaName]
  · rw [hnodes id] at hs
    obtain ⟨s₀, hs₀, rfl⟩ := Option.map_eq_some_iff.mp hs
    have hold := hc.relSets id s₀ hs₀ direction r
    rw [mem_relTableIDSet_bindRelTable, hold, hrels]
    by_cases hr : r = c.relTableSchemas.keys.card
    · subst hr
      have hnone : c.relTableSchemas.lookup c.relTableSchemas.keys.card = none :=
        Finmap.lookup_eq_none.mpr hid
      cases direction <;> simp [hnone, Finmap.lookup_insert, RelTableSchema.boundTableIDs, hbound]
    · simp [Finmap.lookup_insert_of_ne _ hr, hr]
  · rw [hrels] at hrel
    by_cases hr : r = c.relTableSchemas.keys.card
    · subst hr
      obtain rfl := Option.some.inj ((Finmap.lookup_insert _).symm.trans hrel)
      exact hkeep id (hexist direction id hmem)
    · rw [Finmap.lookup_insert_of_ne _ hr] at hrel
      exact hkeep id (hc.bound r rel hrel direction id hmem)

theorem Inv.removeNodeTable (hc : Inv c) {s : NodeTableSchema} (hedge : c.HasNoEdge tableID)
    (hs : c.nodeTableSchemas.lookup tableID = some s) :
    Inv (c.removeTableSchema ⟨s.tableName, tableID, true⟩) := by
  refine ⟨⟨hc.nodes.erase hs, hc.rels, fun id s' hs' ↦ ?_⟩, fun r rel hrel direction id hmem ↦ ?_⟩
  · by_cases hid : id = tableID
    · subst hid
      simp [removeTableSchema, Finmap.lookup_erase] at hs'
    · exact hc.relSets id s' ((Finmap.lookup_erase_ne hid).symm.trans hs')
  · have hne : id ≠ tableID := by
      rintro rfl
      exact hedge r rel hrel direction hmem
    exact Finmap.mem_erase.mpr ⟨hne, hc.bound r rel hrel direction id hmem⟩

theorem Inv.removeRelTable (hc : Inv c) {rel : RelTableSchema}
    (hrel : c.relTableSchemas.lookup tableID = some rel)
    (hbound : ∀ direction, rel.boundTableIDs direction = []) :
    Inv (c.removeTableSchema ⟨rel.tableName, tableID, false⟩) := by
  have hlookup : ∀ r rel', (c.relTableSchemas.erase tableID).lookup r = some rel' →
      c.relTableSchemas.lookup r = some rel' := by
    intro r rel' hr
    by_cases heq : r = tableID
    · subst heq
      simp [Finmap.lookup_erase] at hr
    · rwa [Finmap.lookup_erase_ne heq] at hr
  refine ⟨⟨hc.nodes, hc.rels.erase hrel, fun id s hs direction r ↦ ?_⟩,
    fun r rel' hrel' ↦ hc.bound r rel' (hlookup r rel' hrel')⟩
  rw [hc.relSets id s hs direction r]
  constructor
  · rintro ⟨rel', hrel', hmem⟩
    have hne : r ≠ tableID := by
      rintro rfl
      obtain rfl := Option.some.inj (hrel.symm.trans hrel')
      simp [hbound direction] at hmem
    exact ⟨rel', (Finmap.lookup_erase_ne hne).trans hrel', hmem⟩
  · rintro ⟨rel', hrel', hmem⟩
    exact ⟨rel', hlookup r rel' hrel', hmem⟩

/-- One change. -/
theorem Inv.change (hc : Inv c) {ddl : SchemaChange} (hsound : c.Sound ddl)
    (hchange : c.change ddl = some c') : Inv c' ∧ c.KeepsTables ddl c' := by
  cases ddl with
  | addNodeTable tableName primaryKeyIdx definitions =>
      obtain rfl := Option.some.inj hchange
      refine ⟨hc.addNodeTable hsound, fun id s hs ↦ ?_⟩
      have hne : id ≠ c.nodeTableSchemas.keys.card := by
        rintro rfl
        exact hsound.2 (Finmap.mem_of_lookup_eq_some hs)
      exact (Finmap.lookup_insert_of_ne _ hne).trans hs
  | addRelTable tableName relMultiplicity definitions srcDstTableIDs =>
      simp only [CatalogContent.change] at hchange
      split at hchange
      next c₁ tableID hadd =>
        obtain rfl := Option.some.inj hchange
        refine ⟨hc.addRelTable hsound hadd, fun id s hs ↦ ?_⟩
        obtain ⟨rfl, -, -, -, schema, -, -, -, -, -, hrels⟩ := addRelTableSchema_eq_ok hadd
        have hne : id ≠ c.relTableSchemas.keys.card := by
          rintro rfl
          exact hsound.2 (Finmap.mem_of_lookup_eq_some hs)
        rw [hrels]
        exact (Finmap.lookup_insert_of_ne _ hne).trans hs
      · simp at hchange
  | removeTable tableSchema =>
      obtain rfl := Option.some.inj hchange
      refine ⟨?_, trivial⟩
      obtain ⟨tableName, tableID, isNodeTable⟩ := tableSchema
      cases isNodeTable with
      | true =>
          obtain ⟨hedge, s, hs, rfl⟩ := hsound
          exact hc.removeNodeTable hedge hs
      | false =>
          obtain ⟨rel, hrel, rfl, hbound⟩ := hsound
          exact hc.removeRelTable hrel hbound

/-- In a history of sound changes every state is consistent and no new table takes the place of an
existing one. -/
theorem integrity_along_history (ddls : List SchemaChange) {ddl : SchemaChange}
    (hsound : Lib.MeetsAlong change Sound {} (ddls ++ [ddl]))
    (hrun : Lib.run change {} ddls = some c) (hchange : c.change ddl = some c') :
    c.Integrity ∧ c'.Integrity ∧ c.KeepsTables ddl c' := by
  obtain ⟨hbefore, hlast, -⟩ := Lib.meetsAlong_append hrun hsound
  have hc : Inv c := Lib.run_invariant_of_meets
    (fun c ddl c' hc hsound hchange ↦ (Inv.change hc hsound hchange).1) inv_empty hbefore hrun
  obtain ⟨hc', hkeeps⟩ := hc.change hlast hchange
  exact ⟨hc.toIntegrity, hc'.toIntegrity, hkeeps⟩

theorem integrity_along_history_livesIn : ∃ c c',
    Lib.run change {} [.addNodeTable "person" 0 [], .addNodeTable "city" 0 []] = some c ∧
      c.change (.addRelTable "livesIn" .manyOne [] ⟨[0], [1]⟩) = some c' ∧
      c.Integrity ∧ c'.Integrity ∧
      c.KeepsTables (.addRelTable "livesIn" .manyOne [] ⟨[0], [1]⟩) c' := by
  refine ⟨_, _, rfl, rfl, ?_⟩
  refine integrity_along_history [.addNodeTable "person" 0 [], .addNodeTable "city" 0 []]
    ?_ rfl rfl
  refine Lib.meetsAlong_cons_of_eq_some ⟨by decide, by decide⟩ rfl ?_
  refine Lib.meetsAlong_cons_of_eq_some ⟨by decide, by decide⟩ rfl ?_
  exact Lib.meetsAlong_cons_of_eq_some ⟨by decide, by decide⟩ rfl trivial

/-- After the first of two tables is dropped, the next table replaces the second one. -/
theorem not_keepsTables_after_drop : ∃ c c',
    Lib.run change {} [.addNodeTable "person" 0 [], .addNodeTable "city" 0 [],
      .removeTable ⟨"person", 0, true⟩] = some c ∧
      c.change (.addNodeTable "school" 0 []) = some c' ∧
      ¬ c.KeepsTables (.addNodeTable "school" 0 []) c' ∧ ¬ c'.Integrity := by
  refine ⟨_, _, rfl, rfl, fun hkeeps ↦ ?_, fun hintegrity ↦ ?_⟩
  · have hcity := hkeeps 1 _ rfl
    have hname : some "school" = some "city" :=
      congrArg (Option.map NodeTableSchema.tableName) hcity
    simp at hname
  · obtain ⟨s, hs, hname⟩ := (hintegrity.nodes.lookup_iff "city" 1).mp rfl
    have hschool : some "school" = some s.tableName :=
      congrArg (Option.map NodeTableSchema.tableName) hs
    simp [hname] at hschool

end CatalogContent

end Graphflow
