import Graphflow.Lib.Versioned
import Graphflow.Storage.PagedFile
import Graphflow.Wal.Record
import Mathlib.Data.Finmap

/-!
# The catalog

`CatalogContent` holds the schemas of the node and rel tables; `Catalog` holds one content for
readers and, once a DDL or COPY statement has changed something, a second one for the write
transaction.  An `unordered_map` is a `Finmap`; following a pointer of a missing entry is
`Fault.invalidAccess`.
-/

namespace Graphflow

open Storage Wal

inductive DataTypeID
  | any
  | node
  | rel
  | nodeID
  | bool
  | int64
  | double
  | date
  | timestamp
  | interval
  | string
  | unstructured
  | list
  deriving DecidableEq, Repr

/-- The child type of a `LIST`; other types have none. -/
inductive DataType
  | scalar (typeID : DataTypeID)
  | list (childType : DataType)
  deriving DecidableEq, Repr

def DataType.typeID : DataType → DataTypeID
  | .scalar typeID => typeID
  | .list _ => .list

structure PropertyNameDataType where
  name : String
  dataType : DataType
  deriving DecidableEq, Repr

structure Property extends PropertyNameDataType where
  propertyID : ℕ
  tableID : ℕ
  deriving DecidableEq, Repr

/-- The two `unordered_set`s, in the order in which the loops over them meet the elements. -/
structure SrcDstTableIDs where
  srcTableIDs : List ℕ
  dstTableIDs : List ℕ
  deriving DecidableEq, Repr

inductive RelMultiplicity
  | manyMany
  | manyOne
  | oneMany
  | oneOne
  deriving DecidableEq, Repr

structure NodeTableSchema where
  tableName : String
  tableID : ℕ
  primaryPropertyId : ℕ
  structuredProperties : List Property
  unstructuredProperties : List Property := []
  fwdRelTableIDSet : Finset ℕ := ∅
  bwdRelTableIDSet : Finset ℕ := ∅
  unstrPropertiesNameToIdMap : Finmap fun _ : String ↦ ℕ := ∅
  deriving DecidableEq

structure RelTableSchema where
  tableName : String
  tableID : ℕ
  relMultiplicity : RelMultiplicity
  properties : List Property
  srcDstTableIDs : SrcDstTableIDs
  numGeneratedProperties : ℕ := 0
  deriving DecidableEq, Repr

/-- The part of a schema that dropping a table looks at. -/
structure TableSchema where
  tableName : String
  tableID : ℕ
  isNodeTable : Bool
  deriving DecidableEq, Repr

def RelTableSchema.isSingleMultiplicityInDirection (schema : RelTableSchema)
    (direction : RelDirection) : Bool :=
  schema.relMultiplicity = .oneOne ∨
    schema.relMultiplicity = (if direction = .fwd then .manyOne else .oneMany)

/-- `getNodeTableIDsForRelTableDirection`, on the schema it looks up. -/
def RelTableSchema.boundTableIDs (schema : RelTableSchema) : RelDirection → List ℕ
  | .fwd => schema.srcDstTableIDs.srcTableIDs
  | .bwd => schema.srcDstTableIDs.dstTableIDs

def NodeTableSchema.addUnstructuredProperty (schema : NodeTableSchema) (name : String) :
    NodeTableSchema :=
  let unstrPropertyId := schema.unstructuredProperties.length
  { schema with
    unstrPropertiesNameToIdMap := schema.unstrPropertiesNameToIdMap.insert name unstrPropertyId
    unstructuredProperties := schema.unstructuredProperties ++
      [⟨⟨name, .scalar .unstructured⟩, unstrPropertyId, schema.tableID⟩] }

def NodeTableSchema.addUnstructuredProperties (schema : NodeTableSchema)
    (unstructuredPropertyNames : List String) : NodeTableSchema :=
  unstructuredPropertyNames.foldl addUnstructuredProperty schema

abbrev TableMap (α : Type*) := Finmap fun _ : ℕ ↦ α

structure CatalogContent where
  nodeTableSchemas : TableMap NodeTableSchema := ∅
  relTableSchemas : TableMap RelTableSchema := ∅
  nodeTableNameToIDMap : Finmap fun _ : String ↦ ℕ := ∅
  relTableNameToIDMap : Finmap fun _ : String ↦ ℕ := ∅
  deriving DecidableEq

def internalIDSuffix : String := "_id"

namespace CatalogContent

/-- `unordered_map::at` throws `out_of_range`. -/
def outOfRange : Fault := .exception "unordered_map::at"

def getNodeTableSchema (c : CatalogContent) (tableID : ℕ) : Except Fault NodeTableSchema :=
  match c.nodeTableSchemas.lookup tableID with
  | some schema => .ok schema
  | none => .error outOfRange

def getRelTableSchema (c : CatalogContent) (tableID : ℕ) : Except Fault RelTableSchema :=
  match c.relTableSchemas.lookup tableID with
  | some schema => .ok schema
  | none => .error outOfRange

def getNumNodeTables (c : CatalogContent) : ℕ := c.nodeTableSchemas.keys.card

/-- The properties of a new table get the IDs 0, 1, … in the order of their definitions. -/
def propertiesOf (definitions : List PropertyNameDataType) (tableID : ℕ) : List Property :=
  definitions.mapIdx fun i definition ↦ ⟨definition, i, tableID⟩

def addNodeTableSchema (c : CatalogContent) (tableName : String) (primaryKeyIdx : ℕ)
    (structuredPropertyDefinitions : List PropertyNameDataType) : CatalogContent × ℕ :=
  let tableID := c.getNumNodeTables
  ({ c with
    nodeTableNameToIDMap := c.nodeTableNameToIDMap.insert tableName tableID
    nodeTableSchemas := c.nodeTableSchemas.insert tableID {
      tableName := tableName
      tableID := tableID
      primaryPropertyId := primaryKeyIdx
      structuredProperties := propertiesOf structuredPropertyDefinitions tableID } }, tableID)

/-- One turn of the loops over the bound node tables: `nodeTableSchemas[nodeTableID]` is null for a
table that does not exist. -/
def updateNodeTableSchema (f : NodeTableSchema → NodeTableSchema) (c : CatalogContent)
    (nodeTableID : ℕ) : Except Fault CatalogContent :=
  match c.nodeTableSchemas.lookup nodeTableID with
  | some schema =>
      .ok { c with nodeTableSchemas := c.nodeTableSchemas.insert nodeTableID (f schema) }
  | none => .error .invalidAccess

def addFwdRelTableID (tableID : ℕ) : CatalogContent → ℕ → Except Fault CatalogContent :=
  updateNodeTableSchema fun schema ↦
    { schema with fwdRelTableIDSet := insert tableID schema.fwdRelTableIDSet }

def addBwdRelTableID (tableID : ℕ) : CatalogContent → ℕ → Except Fault CatalogContent :=
  updateNodeTableSchema fun schema ↦
    { schema with bwdRelTableIDSet := insert tableID schema.bwdRelTableIDSet }

def addRelTableSchema (c : CatalogContent) (tableName : String) (relMultiplicity : RelMultiplicity)
    (structuredPropertyDefinitions : List PropertyNameDataType) (srcDstTableIDs : SrcDstTableIDs) :
    Except Fault (CatalogContent × ℕ) := do
  let tableID := c.relTableSchemas.keys.card
  let c ← srcDstTableIDs.srcTableIDs.foldlM (addFwdRelTableID tableID) c
  let c ← srcDstTableIDs.dstTableIDs.foldlM (addBwdRelTableID tableID) c
  -- The internal ID is the last property of every rel table.
  let definitions := structuredPropertyDefinitions ++ [⟨internalIDSuffix, .scalar .int64⟩]
  return ({ c with
    relTableNameToIDMap := c.relTableNameToIDMap.insert tableName tableID
    relTableSchemas := c.relTableSchemas.insert tableID {
      tableName := tableName
      tableID := tableID
      relMultiplicity := relMultiplicity
      properties := propertiesOf definitions tableID
      srcDstTableIDs := srcDstTableIDs } }, tableID)

def removeTableSchema (c : CatalogContent) (tableSchema : TableSchema) : CatalogContent :=
  if tableSchema.isNodeTable then
    { c with
      nodeTableNameToIDMap := c.nodeTableNameToIDMap.erase tableSchema.tableName
      nodeTableSchemas := c.nodeTableSchemas.erase tableSchema.tableID }
  else
    { c with
      relTableNameToIDMap := c.relTableNameToIDMap.erase tableSchema.tableName
      relTableSchemas := c.relTableSchemas.erase tableSchema.tableID }

end CatalogContent

/-- The two contents of `Catalog`. -/
abbrev Catalog := Lib.Versioned CatalogContent

namespace Catalog

/-- `CREATE NODE TABLE` on the write version, with the record it logs. -/
def addNodeTableSchema (c : Catalog) (tableName : String) (primaryKeyIdx : ℕ)
    (structuredPropertyDefinitions : List PropertyNameDataType) : Catalog × ℕ × WALRecord :=
  let (content, tableID) :=
    c.forWrite.addNodeTableSchema tableName primaryKeyIdx structuredPropertyDefinitions
  (c.setWrite content, tableID, .nodeTable tableID)

def addRelTableSchema (c : Catalog) (tableName : String) (relMultiplicity : RelMultiplicity)
    (structuredPropertyDefinitions : List PropertyNameDataType) (srcDstTableIDs : SrcDstTableIDs) :
    Except Fault (Catalog × ℕ × WALRecord) := do
  let (content, tableID) ← c.forWrite.addRelTableSchema tableName relMultiplicity
    structuredPropertyDefinitions srcDstTableIDs
  return (c.setWrite content, tableID, .relTable tableID)

def removeTableSchema (c : Catalog) (tableSchema : TableSchema) : Catalog × WALRecord :=
  (c.setWrite (c.forWrite.removeTableSchema tableSchema),
    .dropTable tableSchema.isNodeTable tableSchema.tableID)

/-- `COPY` of a node table adds the unstructured properties it finds in the file. -/
def setUnstructuredPropertiesOfNodeTableSchema (c : Catalog)
    (unstructuredProperties : List String) (tableID : ℕ) : Except Fault Catalog :=
  match c.forWrite.nodeTableSchemas.lookup tableID with
  | some schema => .ok (c.setWrite { c.forWrite with
      nodeTableSchemas := c.forWrite.nodeTableSchemas.insert tableID
        (schema.addUnstructuredProperties unstructuredProperties) })
  -- `at` throws after the write version has been made.
  | none => .ok c.initWrite

def checkpointInMemoryIfNecessary (c : Catalog) : Catalog := c.checkpoint?.getD c

end Catalog

end Graphflow
