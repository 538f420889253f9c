import Graphflow.Catalog.Integrity
import Graphflow.Common.SerDeser

/-!
# The catalog file

`saveToFile` writes the tables of a content and `readFromFile` builds a content from them.  The name
maps and the map of the unstructured properties are not in the file; they are made from the tables.
-/

namespace Graphflow

open Lib SerDeser

/-! ## Types and properties -/

namespace DataTypeID

/-- The values of the enumeration. -/
def toByte : DataTypeID → ℕ
  | any => 0
  | node => 10
  | rel => 11
  | nodeID => 21
  | bool => 22
  | int64 => 23
  | double => 24
  | date => 25
  | timestamp => 26
  | interval => 27
  | string => 50
  | unstructured => 51
  | list => 52

def ofByte? : ℕ → Option DataTypeID
  | 0 => some any
  | 10 => some node
  | 11 => some rel
  | 21 => some nodeID
  | 22 => some bool
  | 23 => some int64
  | 24 => some double
  | 25 => some date
  | 26 => some timestamp
  | 27 => some interval
  | 50 => some string
  | 51 => some unstructured
  | 52 => some list
  | _ => none

theorem toByte_lt (typeID : DataTypeID) : typeID.toByte < 2 ^ 8 := by
  cases typeID <;> decide

theorem ofByte?_toByte (typeID : DataTypeID) : ofByte? typeID.toByte = some typeID := by
  cases typeID <;> rfl

end DataTypeID

namespace RelMultiplicity

def toByte : RelMultiplicity → ℕ
  | manyMany => 0
  | manyOne => 1
  | oneMany => 2
  | oneOne => 3

def ofByte? : ℕ → Option RelMultiplicity
  | 0 => some manyMany
  | 1 => some manyOne
  | 2 => some oneMany
  | 3 => some oneOne
  | _ => none

theorem toByte_lt (relMultiplicity : RelMultiplicity) : relMultiplicity.toByte < 2 ^ 8 := by
  cases relMultiplicity <;> decide

theorem ofByte?_toByte (relMultiplicity : RelMultiplicity) :
    ofByte? relMultiplicity.toByte = some relMultiplicity := by
  cases relMultiplicity <;> rfl

end RelMultiplicity

/-- `LIST`, and no other type, has a child type. -/
def DataType.Valid : DataType → Prop
  | .scalar typeID => typeID ≠ .list
  | .list childType => childType.Valid

instance DataType.decidableValid : (dataType : DataType) → Decidable dataType.Valid
  | .scalar typeID => inferInstanceAs (Decidable (typeID ≠ .list))
  | .list childType => childType.decidableValid

namespace SerDeser

def serializeDataTypeID (value : DataTypeID) : List UInt8 := serializeUInt8 value.toByte

def deserializeDataTypeID : Deserializer DataTypeID := do
  let byte ← deserializeUInt8
  Deserializer.ofOption (DataTypeID.ofByte? byte)

def serializeDataType : DataType → List UInt8
  | .scalar typeID => serializeDataTypeID typeID
  | .list childType => serializeDataTypeID .list ++ serializeDataType childType

def deserializeDataTypeWithin : ℕ → Deserializer DataType
  | 0 => failure
  | n + 1 => do
      let typeID ← deserializeDataTypeID
      if typeID = .list then do
        let childType ← deserializeDataTypeWithin n
        return .list childType
      else return .scalar typeID

/-- Every type takes a byte, so there cannot be more of them than bytes. -/
def deserializeDataType : Deserializer DataType := fun bytes ↦
  (deserializeDataTypeWithin bytes.length).run bytes

def idField : String := "ID"

end SerDeser

def Property.isIDProperty (property : Property) : Bool := property.name = idField

namespace SerDeser

def serializeProperty (value : Property) : List UInt8 :=
  serializeString value.name ++ serializeDataType value.dataType ++
    serializeUInt32 value.propertyID ++ serializeUInt64 value.tableID ++
    serializeBool value.isIDProperty

/-- The last value is computed from the name, and what is read for it is not used. -/
def deserializeProperty : Deserializer Property := do
  let name ← deserializeString
  let dataType ← deserializeDataType
  let propertyID ← deserializeUInt32
  let tableID ← deserializeUInt64
  let _ ← deserializeBool
  return ⟨⟨name, dataType⟩, propertyID, tableID⟩

end SerDeser

/-- The numbers of a property have their widths. -/
structure Property.Fits (property : Property) : Prop where
  name : (toBytes property.name).length < 2 ^ 64
  dataType : property.dataType.Valid
  propertyID : property.propertyID < 2 ^ 32
  tableID : property.tableID < 2 ^ 64

namespace SerDeser

theorem reads_dataTypeID (value : DataTypeID) :
    Reads deserializeDataTypeID (serializeDataTypeID value) value :=
  (reads_uint8 value.toByte_lt).bind_pure (.ofOption value.ofByte?_toByte)

theorem length_serializeDataTypeID (value : DataTypeID) : (serializeDataTypeID value).length = 1 :=
  length_littleEndian 1 _

theorem reads_dataTypeWithin {value : DataType} (h : value.Valid) {n : ℕ}
    (hn : (serializeDataType value).length ≤ n) :
    Reads (deserializeDataTypeWithin n) (serializeDataType value) value := by
  induction value generalizing n with
  | scalar typeID =>
      rw [serializeDataType, length_serializeDataTypeID] at hn
      obtain ⟨n, rfl⟩ := Nat.exists_eq_add_of_le' hn
      apply (reads_dataTypeID typeID).bind_pure
      rw [if_neg h]
      exact .pure _
  | list childType ih =>
      rw [serializeDataType, List.length_append, length_serializeDataTypeID, Nat.add_comm] at hn
      obtain ⟨n, rfl⟩ := Nat.exists_eq_add_of_le' (Nat.le_of_add_left_le hn)
      apply (reads_dataTypeID .list).bind
      rw [if_pos rfl]
      exact (ih h (Nat.le_of_add_le_add_right hn)).bind_pure (.pure _)

theorem reads_dataType {value : DataType} (h : value.Valid) :
    Reads deserializeDataType (serializeDataType value) value := by
  intro rest
  have hle : (serializeDataType value).length ≤ (serializeDataType value ++ rest).length := by
    rw [List.length_append]
    exact Nat.le_add_right _ _
  exact reads_dataTypeWithin h hle rest

theorem reads_property {value : Property} (h : value.Fits) :
    Reads deserializeProperty (serializeProperty value) value := by
  simp only [serializeProperty, List.append_assoc]
  apply (reads_string h.name).bind
  apply (reads_dataType h.dataType).bind
  apply (reads_uint32 h.propertyID).bind
  apply (reads_uint64 h.tableID).bind
  exact (reads_bool value.isIDProperty).bind_pure (.pure value)

end SerDeser

/-! ## Tables -/

/-- The orders in which the two sets are written. -/
structure NodeTableSchema.SetOrders (schema : NodeTableSchema) where
  fwd : SetOrder schema.fwdRelTableIDSet
  bwd : SetOrder schema.bwdRelTableIDSet

def uint32Max : ℕ := 2 ^ 32 - 1

namespace SerDeser

def serializeNodeTableSchema (value : NodeTableSchema) (orders : value.SetOrders) : List UInt8 :=
  serializeString value.tableName ++ serializeUInt64 value.tableID ++
    serializeUInt64 value.primaryPropertyId ++
    serializeVector serializeProperty value.structuredProperties ++
    serializeVector serializeProperty value.unstructuredProperties ++
    serializeUnorderedSet orders.fwd.elements ++ serializeUnorderedSet orders.bwd.elements

def deserializeNodeTableSchema : Deserializer NodeTableSchema := do
  let tableName ← deserializeString
  let tableID ← deserializeUInt64
  let primaryPropertyId ← deserializeUInt64
  let structuredProperties ← deserializeVector deserializeProperty
  let unstructuredProperties ← deserializeVector deserializeProperty
  let fwdRelTableIDSet ← deserializeUnorderedSet
  let bwdRelTableIDSet ← deserializeUnorderedSet
  return {
    tableName := tableName
    tableID := tableID
    primaryPropertyId := primaryPropertyId
    structuredProperties := structuredProperties
    unstructuredProperties := unstructuredProperties
    fwdRelTableIDSet := fwdRelTableIDSet.toFinset
    bwdRelTableIDSet := bwdRelTableIDSet.toFinset }

def serializeRelMultiplicity (value : RelMultiplicity) : List UInt8 := serializeUInt8 value.toByte

def deserializeRelMultiplicity : Deserializer RelMultiplicity := do
  let byte ← deserializeUInt8
  Deserializer.ofOption (RelMultiplicity.ofByte? byte)

def serializeRelTableSchema (value : RelTableSchema) : List UInt8 :=
  serializeString value.tableName ++ serializeUInt64 value.tableID ++
    serializeRelMultiplicity value.relMultiplicity ++
    serializeVector serializeProperty value.properties ++
    serializeUnorderedSet value.srcDstTableIDs.srcTableIDs ++
    serializeUnorderedSet value.srcDstTableIDs.dstTableIDs

/-- `numGeneratedProperties` is as the default constructor has set it. -/
def deserializeRelTableSchema : Deserializer RelTableSchema := do
  let tableName ← deserializeString
  let tableID ← deserializeUInt64
  let relMultiplicity ← deserializeRelMultiplicity
  let properties ← deserializeVector deserializeProperty
  let srcTableIDs ← deserializeUnorderedSet
  let dstTableIDs ← deserializeUnorderedSet
  return ⟨tableName, tableID, relMultiplicity, properties, ⟨srcTableIDs, dstTableIDs⟩, uint32Max⟩

end SerDeser

/-- The table IDs of a set are numbers of 64 bits, and a loop can count them. -/
structure SetFits (tableIDs : List ℕ) : Prop where
  nodup : tableIDs.Nodup
  length : tableIDs.length < 2 ^ 32
  mem : ∀ tableID ∈ tableIDs, tableID < 2 ^ 64

structure PropertiesFit (properties : List Property) : Prop where
  length : properties.length < 2 ^ 64
  mem : ∀ property ∈ properties, property.Fits

structure NodeTableSchema.Fits (schema : NodeTableSchema) : Prop where
  tableName : (toBytes schema.tableName).length < 2 ^ 64
  tableID : schema.tableID < 2 ^ 64
  primaryPropertyId : schema.primaryPropertyId < 2 ^ 64
  structuredProperties : PropertiesFit schema.structuredProperties
  unstructuredProperties : PropertiesFit schema.unstructuredProperties
  card_fwd : schema.fwdRelTableIDSet.card < 2 ^ 32
  fwd : ∀ tableID ∈ schema.fwdRelTableIDSet, tableID < 2 ^ 64
  card_bwd : schema.bwdRelTableIDSet.card < 2 ^ 32
  bwd : ∀ tableID ∈ schema.bwdRelTableIDSet, tableID < 2 ^ 64

structure RelTableSchema.Fits (schema : RelTableSchema) : Prop where
  tableName : (toBytes schema.tableName).length < 2 ^ 64
  tableID : schema.tableID < 2 ^ 64
  properties : PropertiesFit schema.properties
  src : SetFits schema.srcDstTableIDs.srcTableIDs
  dst : SetFits schema.srcDstTableIDs.dstTableIDs

theorem setFits_elements {s : Finset ℕ} (order : SetOrder s) (hcard : s.card < 2 ^ 32)
    (h : ∀ tableID ∈ s, tableID < 2 ^ 64) : SetFits order.elements where
  nodup := order.nodup
  length := order.length_eq.trans_lt hcard
  mem := fun tableID hmem ↦ h tableID (order.mem_iff.mp hmem)

namespace SerDeser

theorem SetFits.reads {tableIDs : List ℕ} (h : SetFits tableIDs) :
    Reads deserializeUnorderedSet (serializeUnorderedSet tableIDs) tableIDs :=
  reads_unorderedSet h.nodup h.length h.mem

theorem PropertiesFit.reads {properties : List Property} (h : PropertiesFit properties) :
    Reads (deserializeVector deserializeProperty) (serializeVector serializeProperty properties)
      properties :=
  reads_vector h.length fun property hproperty ↦ reads_property (h.mem property hproperty)

/-- All that is not in the file is the map of the unstructured properties. -/
theorem reads_nodeTableSchema {value : NodeTableSchema} (h : value.Fits)
    (orders : value.SetOrders) :
    Reads deserializeNodeTableSchema (serializeNodeTableSchema value orders)
      { value with unstrPropertiesNameToIdMap := ∅ } := by
  have hfwd := setFits_elements orders.fwd h.card_fwd h.fwd
  have hbwd := setFits_elements orders.bwd h.card_bwd h.bwd
  simp only [serializeNodeTableSchema, List.append_assoc]
  apply (reads_string h.tableName).bind
  apply (reads_uint64 h.tableID).bind
  apply (reads_uint64 h.primaryPropertyId).bind
  apply (PropertiesFit.reads h.structuredProperties).bind
  apply (PropertiesFit.reads h.unstructuredProperties).bind
  apply (SetFits.reads hfwd).bind
  apply (SetFits.reads hbwd).bind_pure
  rw [orders.fwd.toFinset_eq, orders.bwd.toFinset_eq]
  exact .pure _

theorem reads_relMultiplicity (value : RelMultiplicity) :
    Reads deserializeRelMultiplicity (serializeRelMultiplicity value) value :=
  (reads_uint8 value.toByte_lt).bind_pure (.ofOption value.ofByte?_toByte)

theorem reads_relTableSchema {value : RelTableSchema} (h : value.Fits) :
    Reads deserializeRelTableSchema (serializeRelTableSchema value)
      { value with numGeneratedProperties := uint32Max } := by
  simp only [serializeRelTableSchema, List.append_assoc]
  apply (reads_string h.tableName).bind
  apply (reads_uint64 h.tableID).bind
  apply (reads_relMultiplicity value.relMultiplicity).bind
  apply (PropertiesFit.reads h.properties).bind
  apply (SetFits.reads h.src).bind
  exact (SetFits.reads h.dst).bind_pure (.pure _)

end SerDeser

/-! ## The file -/

/-- The loop that makes the map of the unstructured properties. -/
def NodeTableSchema.withUnstrPropertiesNameToIdMap (schema : NodeTableSchema) : NodeTableSchema :=
  { schema with
    unstrPropertiesNameToIdMap := insertEntries ∅
      ((schema.unstructuredProperties.filter fun property ↦
        property.dataType.typeID = .unstructured).map fun property ↦
          (property.name, property.propertyID)) }

namespace CatalogContent

/-- The orders of the loops of `saveToFile`. -/
structure Orders (c : CatalogContent) where
  nodeTableSchemas : MapOrder c.nodeTableSchemas
  relTableSchemas : MapOrder c.relTableSchemas
  relTableIDSets : ∀ schema : NodeTableSchema, schema.SetOrders

def sortedOrders (c : CatalogContent) : c.Orders where
  nodeTableSchemas := .sorted _
  relTableSchemas := .sorted _
  relTableIDSets := fun _ ↦ ⟨.sorted _, .sorted _⟩

variable {c : CatalogContent}

def saveToFile (c : CatalogContent) (orders : c.Orders) (file : List UInt8) : List UInt8 :=
  writeToFile file <|
    serializeUInt64 c.nodeTableSchemas.keys.card ++ serializeUInt64 c.relTableSchemas.keys.card ++
      (orders.nodeTableSchemas.entries.flatMap fun entry ↦ serializeUInt64 entry.1 ++
        serializeNodeTableSchema entry.2 (orders.relTableIDSets entry.2)) ++
      (orders.relTableSchemas.entries.flatMap fun entry ↦ serializeUInt64 entry.1 ++
        serializeRelTableSchema entry.2)

/-- The content with the tables that have been read, in this order. -/
def ofTables (nodeTables : List (ℕ × NodeTableSchema)) (relTables : List (ℕ × RelTableSchema)) :
    CatalogContent where
  nodeTableSchemas := insertEntries ∅ <|
    nodeTables.map fun entry ↦ (entry.1, entry.2.withUnstrPropertiesNameToIdMap)
  relTableSchemas := insertEntries ∅ relTables
  nodeTableNameToIDMap := insertEntries ∅ <|
    nodeTables.map fun entry ↦ (entry.2.tableName, entry.2.tableID)
  relTableNameToIDMap := insertEntries ∅ <|
    relTables.map fun entry ↦ (entry.2.tableName, entry.2.tableID)

def deserializeEntryOf {α : Type} (deserializeValue : Deserializer α) : Deserializer (ℕ × α) := do
  let tableID ← deserializeUInt64
  let value ← deserializeValue
  return (tableID, value)

def deserializeContent : Deserializer CatalogContent := do
  let numNodeTables ← deserializeUInt64
  let numRelTables ← deserializeUInt64
  let nodeTables ← readLoop (deserializeEntryOf deserializeNodeTableSchema) numNodeTables
  let relTables ← readLoop (deserializeEntryOf deserializeRelTableSchema) numRelTables
  return ofTables nodeTables relTables

def readFromCatalogFile (file : List UInt8) : Option CatalogContent :=
  (deserializeContent.run file).map Prod.fst

/-- The numbers of the content have their widths, and the loops can count the tables. -/
structure Fits (c : CatalogContent) : Prop where
  numNodeTables : c.nodeTableSchemas.keys.card < 2 ^ 32
  numRelTables : c.relTableSchemas.keys.card < 2 ^ 32
  nodeTables : ∀ tableID schema, c.nodeTableSchemas.lookup tableID = some schema →
    tableID < 2 ^ 64 ∧ schema.Fits
  relTables : ∀ tableID schema, c.relTableSchemas.lookup tableID = some schema →
    tableID < 2 ^ 64 ∧ schema.Fits

/-- What the content has become when it is read. -/
def reloaded (c : CatalogContent) (orders : c.Orders) : CatalogContent :=
  ofTables
    (orders.nodeTableSchemas.entries.map fun entry ↦
      (entry.1, { entry.2 with unstrPropertiesNameToIdMap := ∅ }))
    (orders.relTableSchemas.entries.map fun entry ↦
      (entry.1, { entry.2 with numGeneratedProperties := uint32Max }))

theorem reads_entryOf {α : Type} {deserializeValue : Deserializer α} {bytes : List UInt8} {a : α}
    {tableID : ℕ} (htable : tableID < 2 ^ 64) (h : Reads deserializeValue bytes a) :
    Reads (deserializeEntryOf deserializeValue) (serializeUInt64 tableID ++ bytes) (tableID, a) :=
  (reads_uint64 htable).bind (h.bind_pure (.pure (tableID, a)))

theorem readFromCatalogFile_saveToFile (h : c.Fits) (orders : c.Orders) (file : List UInt8) :
    readFromCatalogFile (c.saveToFile orders file) = some (c.reloaded orders) := by
  have hnodes := h.numNodeTables
  have hrels := h.numRelTables
  rw [← orders.nodeTableSchemas.length_eq] at hnodes
  rw [← orders.relTableSchemas.length_eq] at hrels
  have hnodeTables : Reads
      (readLoop (deserializeEntryOf deserializeNodeTableSchema)
        orders.nodeTableSchemas.entries.length)
      (orders.nodeTableSchemas.entries.flatMap fun entry ↦ serializeUInt64 entry.1 ++
        serializeNodeTableSchema entry.2 (orders.relTableIDSets entry.2))
      (orders.nodeTableSchemas.entries.map fun entry ↦
        (entry.1, { entry.2 with unstrPropertiesNameToIdMap := ∅ })) := by
    apply reads_loop_map hnodes
    rintro ⟨tableID, schema⟩ hmem
    obtain ⟨htable, hschema⟩ := h.nodeTables tableID schema
      ((orders.nodeTableSchemas.mem_iff tableID schema).mp hmem)
    exact reads_entryOf htable (reads_nodeTableSchema hschema _)
  have hrelTables : Reads
      (readLoop (deserializeEntryOf deserializeRelTableSchema)
        orders.relTableSchemas.entries.length)
      (orders.relTableSchemas.entries.flatMap fun entry ↦ serializeUInt64 entry.1 ++
        serializeRelTableSchema entry.2)
      (orders.relTableSchemas.entries.map fun entry ↦
        (entry.1, { entry.2 with numGeneratedProperties := uint32Max })) := by
    apply reads_loop_map hrels
    rintro ⟨tableID, schema⟩ hmem
    obtain ⟨htable, hschema⟩ := h.relTables tableID schema
      ((orders.relTableSchemas.mem_iff tableID schema).mp hmem)
    exact reads_entryOf htable (reads_relTableSchema hschema)
  apply ReadsOption.writeToFile
  simp only [List.append_assoc]
  apply (reads_uint64 (h.numNodeTables.trans (by decide))).bind
  apply (reads_uint64 (h.numRelTables.trans (by decide))).bind
  rw [← orders.nodeTableSchemas.length_eq, ← orders.relTableSchemas.length_eq]
  exact hnodeTables.bind (hrelTables.bind_pure (.pure _))

end CatalogContent

end Graphflow
