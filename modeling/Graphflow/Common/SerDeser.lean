import Graphflow.Lib.Deserializer
import Graphflow.Lib.MapOrder

/-!
# Serialized values

`SerDeser` writes values at an offset of a file and reads them there.  Both go through the file
without gaps, so serializing a value is the list of the bytes that it writes, and deserializing one
takes bytes from the front of what is left.  Containers are written in the order in which loops over
them meet the elements.
-/

namespace Graphflow

open Lib

/-- A file is not truncated when it is opened for writing. -/
def writeToFile (file bytes : List UInt8) : List UInt8 := bytes ++ file.drop bytes.length

theorem Lib.ReadsOption.writeToFile {α : Type} {read : Deserializer α} {bytes : List UInt8}
    {o : Option α} (h : ReadsOption read bytes o) (file : List UInt8) :
    (read.run (Graphflow.writeToFile file bytes)).map Prod.fst = o := by
  rw [Graphflow.writeToFile, h, Option.map_map]
  exact Option.map_id_fun' ▸ rfl

namespace SerDeser

variable {α β : Type}

/-! ## Numbers and strings -/

def serializeUInt64 (value : ℕ) : List UInt8 := littleEndian 8 value

def deserializeUInt64 : Deserializer ℕ := Deserializer.readNumber 8

def serializeUInt32 (value : ℕ) : List UInt8 := littleEndian 4 value

def deserializeUInt32 : Deserializer ℕ := Deserializer.readNumber 4

def serializeUInt8 (value : ℕ) : List UInt8 := littleEndian 1 value

def deserializeUInt8 : Deserializer ℕ := Deserializer.readNumber 1

def serializeBool (value : Bool) : List UInt8 := serializeUInt8 value.toNat

def deserializeBool : Deserializer Bool := do
  let value ← deserializeUInt8
  return value ≠ 0

def toBytes (value : String) : List UInt8 := value.toUTF8.data.toList

def ofBytes? (bytes : List UInt8) : Option String := String.fromUTF8? ⟨bytes.toArray⟩

def serializeString (value : String) : List UInt8 :=
  serializeUInt64 (toBytes value).length ++ toBytes value

def deserializeString : Deserializer String := do
  let valueLength ← deserializeUInt64
  let bytes ← Deserializer.readBytes valueLength
  Deserializer.ofOption (ofBytes? bytes)

theorem reads_uint64 {n : ℕ} (h : n < 2 ^ 64) : Reads deserializeUInt64 (serializeUInt64 n) n :=
  .readNumber h

theorem reads_uint32 {n : ℕ} (h : n < 2 ^ 32) : Reads deserializeUInt32 (serializeUInt32 n) n :=
  .readNumber h

theorem reads_uint8 {n : ℕ} (h : n < 2 ^ 8) : Reads deserializeUInt8 (serializeUInt8 n) n :=
  .readNumber h

theorem reads_bool (value : Bool) : Reads deserializeBool (serializeBool value) value := by
  apply (reads_uint8 (by cases value <;> decide)).bind_pure
  cases value with
  | false => exact .pure false
  | true => exact .pure true

theorem ofBytes?_toBytes (value : String) : ofBytes? (toBytes value) = some value := by
  rw [ofBytes?, toBytes, Array.toArray_toList, String.fromUTF8?]
  exact dif_pos value.isValidUTF8

theorem reads_string {value : String} (h : (toBytes value).length < 2 ^ 64) :
    Reads deserializeString (serializeString value) value :=
  (reads_uint64 h).bind ((Reads.readBytes _).bind_pure (.ofOption (ofBytes?_toBytes value)))

/-! ## Containers -/

def serializeVector (serializeValue : α → List UInt8) (values : List α) : List UInt8 :=
  serializeUInt64 values.length ++ values.flatMap serializeValue

def deserializeVector (deserializeValue : Deserializer α) : Deserializer (List α) := do
  let vectorSize ← deserializeUInt64
  Deserializer.readMany deserializeValue vectorSize

/-- A loop with a counter of 32 bits.  It does not end if there are too many values. -/
def readLoop (deserializeValue : Deserializer α) (numValues : ℕ) : Deserializer (List α) :=
  if numValues < 2 ^ 32 then Deserializer.readMany deserializeValue numValues else failure

/-- `unordered_set::insert`; the elements in the order in which they came. -/
def insertNew (values : List ℕ) (value : ℕ) : List ℕ :=
  if value ∈ values then values else values ++ [value]

def serializeUnorderedSet (values : List ℕ) : List UInt8 := serializeVector serializeUInt64 values

def deserializeUnorderedSet : Deserializer (List ℕ) := do
  let setSize ← deserializeUInt64
  let values ← readLoop deserializeUInt64 setSize
  return values.foldl insertNew []

/-- A key with its value. -/
def serializeEntry (entry : ℕ × ℕ) : List UInt8 :=
  serializeUInt64 entry.1 ++ serializeUInt64 entry.2

def deserializeEntry : Deserializer (ℕ × ℕ) := do
  let key ← deserializeUInt64
  let value ← deserializeUInt64
  return (key, value)

/-- `unordered_map::emplace` keeps an entry that exists. -/
def emplace (values : Finmap fun _ : ℕ ↦ ℕ) (entry : ℕ × ℕ) : Finmap fun _ : ℕ ↦ ℕ :=
  if entry.1 ∈ values then values else values.insert entry.1 entry.2

def serializeUnorderedMap (entries : List (ℕ × ℕ)) : List UInt8 :=
  serializeVector serializeEntry entries

def deserializeUnorderedMap : Deserializer (Finmap fun _ : ℕ ↦ ℕ) := do
  let mapSize ← deserializeUInt64
  let entries ← readLoop deserializeEntry mapSize
  return entries.foldl emplace ∅

theorem reads_vector_map {serializeValue : α → List UInt8} {deserializeValue : Deserializer β}
    {f : α → β} {values : List α} (hlen : values.length < 2 ^ 64)
    (h : ∀ value ∈ values, Reads deserializeValue (serializeValue value) (f value)) :
    Reads (deserializeVector deserializeValue) (serializeVector serializeValue values)
      (values.map f) :=
  (reads_uint64 hlen).bind (.readMany_map h)

theorem reads_vector {serializeValue : α → List UInt8} {deserializeValue : Deserializer α}
    {values : List α} (hlen : values.length < 2 ^ 64)
    (h : ∀ value ∈ values, Reads deserializeValue (serializeValue value) value) :
    Reads (deserializeVector deserializeValue) (serializeVector serializeValue values) values := by
  have hmap := @reads_vector_map α α serializeValue deserializeValue id values hlen h
  rwa [List.map_id] at hmap

theorem reads_loop_map {serializeValue : α → List UInt8} {deserializeValue : Deserializer β}
    {f : α → β} {values : List α} (hlen : values.length < 2 ^ 32)
    (h : ∀ value ∈ values, Reads deserializeValue (serializeValue value) (f value)) :
    Reads (readLoop deserializeValue values.length) (values.flatMap serializeValue)
      (values.map f) := by
  rw [readLoop, if_pos hlen]
  exact .readMany_map h

theorem reads_loop {serializeValue : α → List UInt8} {deserializeValue : Deserializer α}
    {values : List α} (hlen : values.length < 2 ^ 32)
    (h : ∀ value ∈ values, Reads deserializeValue (serializeValue value) value) :
    Reads (readLoop deserializeValue values.length) (values.flatMap serializeValue) values := by
  have hmap := @reads_loop_map α α serializeValue deserializeValue id values hlen h
  rwa [List.map_id] at hmap

theorem readsOption_loop {serializeValue : α → List UInt8} {deserializeValue : Deserializer β}
    {f : α → Option β} {values : List α} (hlen : values.length < 2 ^ 32)
    (h : ∀ value ∈ values, ReadsOption deserializeValue (serializeValue value) (f value)) :
    ReadsOption (readLoop deserializeValue values.length) (values.flatMap serializeValue)
      (values.mapM f) := by
  rw [readLoop, if_pos hlen]
  exact .readMany h

theorem foldl_insertNew {values values' : List ℕ} (h : (values ++ values').Nodup) :
    values'.foldl insertNew values = values ++ values' := by
  induction values' generalizing values with
  | nil => exact (List.append_nil values).symm
  | cons value values' ih =>
      have hnew : value ∉ values := by
        intro hmem
        exact List.disjoint_of_nodup_append h hmem List.mem_cons_self
      rw [List.append_cons] at h ⊢
      rw [List.foldl_cons, insertNew, if_neg hnew]
      exact ih h

theorem reads_unorderedSet {values : List ℕ} (hnodup : values.Nodup) (hlen : values.length < 2 ^ 32)
    (h : ∀ value ∈ values, value < 2 ^ 64) :
    Reads deserializeUnorderedSet (serializeUnorderedSet values) values := by
  have hfold : values.foldl insertNew [] = values := @foldl_insertNew [] values hnodup
  have hsize := reads_uint64 (hlen.trans (by decide))
  have hvalues := reads_loop hlen fun value hvalue ↦ reads_uint64 (h value hvalue)
  refine hsize.bind (hvalues.bind_pure ?_)
  rw [hfold]
  exact .pure values

theorem foldl_emplace {entries : List (ℕ × ℕ)} (hnodup : (entries.map Prod.fst).Nodup)
    {values : Finmap fun _ : ℕ ↦ ℕ} (hnew : ∀ entry ∈ entries, entry.1 ∉ values) :
    entries.foldl emplace values = insertEntries values entries := by
  induction entries generalizing values with
  | nil => rfl
  | cons entry entries ih =>
      rw [List.map_cons, List.nodup_cons] at hnodup
      rw [List.foldl_cons, emplace, if_neg (hnew entry List.mem_cons_self)]
      apply ih hnodup.2
      intro entry' hmem
      rw [Finmap.mem_insert, not_or]
      refine ⟨?_, hnew entry' (List.mem_cons_of_mem _ hmem)⟩
      intro heq
      exact hnodup.1 (List.mem_map.mpr ⟨entry', hmem, heq⟩)

theorem reads_unorderedMap {values : Finmap fun _ : ℕ ↦ ℕ} (order : MapOrder values)
    (hcard : values.keys.card < 2 ^ 32)
    (h : ∀ key value, values.lookup key = some value → key < 2 ^ 64 ∧ value < 2 ^ 64) :
    Reads deserializeUnorderedMap (serializeUnorderedMap order.entries) values := by
  have hfold : order.entries.foldl emplace ∅ = values :=
    (foldl_emplace order.nodup fun _ _ ↦ Finmap.notMem_empty).trans (insertEntries_order order)
  rw [← order.length_eq] at hcard
  have hentry : ∀ entry ∈ order.entries, Reads deserializeEntry (serializeEntry entry) entry := by
    rintro ⟨key, value⟩ hmem
    obtain ⟨hkey, hvalue⟩ := h key value ((order.mem_iff key value).mp hmem)
    exact (reads_uint64 hkey).bind ((reads_uint64 hvalue).bind_pure (.pure (key, value)))
  have hsize := reads_uint64 (hcard.trans (by decide))
  refine hsize.bind ((reads_loop hcard hentry).bind_pure ?_)
  rw [hfold]
  exact .pure values

end SerDeser

end Graphflow
