import Graphflow.Overflow.InMemFile

/-!
# Keys of hash indexes

The functions of `hash_index_utils.cpp` for keys of type INT64 and STRING; other types throw.  A key
of a caller is the eight bytes of a number, or the characters of a string before the zero that
terminates it.  In an entry a string stands as a `gf_string_t`.
-/

namespace Graphflow

open Storage Lib

inductive KeyType
  | int64
  | string
  deriving DecidableEq, Repr

abbrev Key := List UInt8

namespace KeyType

/-- The keys that callers have: strings come from tokens of a CSV file, which are no longer than a
page, and end at the first zero. -/
def Valid : KeyType → Key → Prop
  | int64, key => key.length = 8
  | string, key => 0 ∉ key ∧ key.length ≤ defaultPageSize

instance (keyType : KeyType) (key : Key) : Decidable (keyType.Valid key) :=
  match keyType with
  | int64 => inferInstanceAs (Decidable (_ = _))
  | string => inferInstanceAs (Decidable (_ ∧ _))

/-- `Types::getDataTypeSize`. -/
def getDataTypeSize : KeyType → ℕ
  | int64 => 8
  | string => 16

end KeyType

def murmurhash64 (x : UInt64) : UInt64 := x * 0xbf58476d1ce4e5b9

/-- `HashIndexUtils::initializeHashFunc`, at the bytes that a pointer points to.  The standard
library does not say which function `stdHash` is. -/
def keyHashFunc (stdHash : List UInt8 → UInt64) : KeyType → List UInt8 → UInt64
  | .int64, key => murmurhash64 (UInt64.ofNat (ofLittleEndian (key.take 8)))
  | .string, key => stdHash (key.takeWhile (· ≠ 0))

/-- `InMemHashIndexUtils::initializeInsertFunc`, without the offset. -/
def keyInsertFunc (overflowFile : InMemOverflowFile) :
    KeyType → Key → Except Fault (InMemOverflowFile × List UInt8)
  | .int64, key => .ok (overflowFile, key)
  | .string, key => overflowFile.appendString key

/-- The lengths agree, and the characters as far as they are in the prefix. -/
def isStringPrefixAndLenEquals (keyToLookup : Key) (keyInEntry : List UInt8) : Bool :=
  let len := ofLittleEndian (keyInEntry.take 4)
  decide (keyToLookup.length = len) &&
    decide (keyToLookup.take (min len 4) = (keyInEntry.drop 4).take (min len 4))

/-- `InMemHashIndexUtils::equalsFuncForString`. -/
def equalsFuncForStringInMem (overflowFile : InMemOverflowFile) (keyToLookup : Key)
    (keyInEntry : List UInt8) : Except Fault Bool :=
  let len := ofLittleEndian (keyInEntry.take 4)
  if isStringPrefixAndLenEquals keyToLookup keyInEntry then
    if len ≤ 4 then .ok true
    else if len ≤ shortStrLength then
      .ok (decide (keyToLookup.take len = (keyInEntry.drop 4).take len))
    else
      let ptr := decodeOverflowPtr (keyInEntry.drop 8)
      match overflowFile.getPage ptr.pageIdx with
      | some page => do
          let chars ← copyFromFrame page ptr.pagePos len
          return decide (keyToLookup.take len = chars)
      | none => .error .invalidAccess
  else .ok false

/-- `HashIndexUtils::equalsFuncForString`, with the pages of the overflow file. -/
def equalsFuncForString (pin : ℕ → Option BytePage) (keyToLookup : Key)
    (keyInEntry : List UInt8) : Except Fault Bool :=
  if isStringPrefixAndLenEquals keyToLookup keyInEntry then do
    let entryKeyString ← OverflowFile.readString pin keyInEntry
    return decide (keyToLookup.take entryKeyString.length = entryKeyString)
  else .ok false

/-- `InMemHashIndexUtils::initializeEqualsFunc`. -/
def keyEqualsFuncInMem (overflowFile : InMemOverflowFile) :
    KeyType → Key → List UInt8 → Except Fault Bool
  | .int64, keyToLookup, keyInEntry => .ok (decide (keyToLookup.take 8 = keyInEntry.take 8))
  | .string, keyToLookup, keyInEntry =>
      equalsFuncForStringInMem overflowFile keyToLookup keyInEntry

/-- `HashIndexUtils::initializeEqualsFunc`. -/
def keyEqualsFunc (pin : ℕ → Option BytePage) : KeyType → Key → List UInt8 → Except Fault Bool
  | .int64, keyToLookup, keyInEntry => .ok (decide (keyToLookup.take 8 = keyInEntry.take 8))
  | .string, keyToLookup, keyInEntry => equalsFuncForString pin keyToLookup keyInEntry

/-! ## Keys in entries -/

variable {keyType : KeyType} {key key' : Key} {bytes : List UInt8} {m m' : Memory} {c c' : Cursor}
  {f f' : InMemOverflowFile}

/-- The bytes of an entry, with what they point to, are the key. -/
def KeyStored (m : Memory) (c : Cursor) : KeyType → List UInt8 → Key → Prop
  | .int64, bytes, key => bytes = key
  | .string, bytes, key =>
      StoredString m 0 c bytes key ∧ bytes.take 8 = (InMemOverflowFile.makeString key).take 8

theorem KeyStored.mono (h : KeyStored m c keyType bytes key) (hc : c.Reaches c')
    (hm : ∀ a < c.pos, m' a = m a) : KeyStored m' c' keyType bytes key := by
  cases keyType with
  | int64 => exact h
  | string => exact ⟨h.1.mono (Nat.le_refl 0) hc fun a _ ha ↦ hm a ha, h.2⟩

/-- A key has been written for an entry. -/
structure KeyInserted (keyType : KeyType) (f f' : InMemOverflowFile) (bytes : List UInt8)
    (key : Key) : Prop where
  wellFormed : f'.WellFormed
  reaches : f.cursor.Reaches f'.cursor
  numPages_le : f'.numPages ≤ f.numPages + 1
  frame : ∀ a < f.cursor.pos, f'.memory a = f.memory a
  stored : KeyStored f'.memory f'.cursor keyType bytes key

theorem exists_keyInsertFunc (hf : f.WellFormed) (hkey : keyType.Valid key)
    (hpages : keyType = .string → f.numPages < 256 ^ 4) :
    ∃ f' bytes, keyInsertFunc f keyType key = .ok (f', bytes) ∧
      KeyInserted keyType f f' bytes key := by
  cases keyType with
  | int64 =>
      exact ⟨f, key, rfl, hf, ⟨Nat.le_refl _, Nat.le_refl _⟩, Nat.le_succ _, fun _ _ ↦ rfl, rfl⟩
  | string =>
      obtain ⟨f', bytes, hinsert, h⟩ := f.exists_appendString hf hkey.2 (hpages rfl)
      exact ⟨f', bytes, hinsert, h.wellFormed, h.reaches, h.numPages_le, h.frame, h.stored, h.head⟩

/-- The prefix of a string in an entry. -/
theorem take_prefix_of_stored (h : KeyStored m c .string bytes key) {n : ℕ} (hn : n ≤ 4)
    (hlength : n ≤ key.length) : (bytes.drop 4).take n = key.take n := by
  have hhead := congrArg (fun l ↦ (l.drop 4).take n) h.2
  simp only [List.drop_take, List.take_take] at hhead
  rw [Nat.min_eq_left (show n ≤ 8 - 4 by omega)] at hhead
  rw [hhead, InMemOverflowFile.drop_four_makeString]
  split_ifs
  · exact List.take_append_of_le_length hlength
  · rw [List.take_append_of_le_length, List.take_take, Nat.min_eq_left hn]
    rw [List.length_take]
    omega

theorem isStringPrefixAndLenEquals_of_stored (h : KeyStored m c .string bytes key) (key' : Key) :
    isStringPrefixAndLenEquals key' bytes = true ↔
      key'.length = key.length ∧ key'.take (min key.length 4) = key.take (min key.length 4) := by
  rw [isStringPrefixAndLenEquals, h.1.1, Bool.and_eq_true, decide_eq_true_eq, decide_eq_true_eq,
    take_prefix_of_stored h (Nat.min_le_right _ _) (Nat.min_le_left _ _)]

theorem equalsFuncForStringInMem_of_stored (h : KeyStored f.memory f.cursor .string bytes key) :
    equalsFuncForStringInMem f key' bytes = .ok (decide (key' = key)) := by
  have hstart := isStringPrefixAndLenEquals_of_stored h key'
  simp only [equalsFuncForStringInMem, h.1.1]
  split_ifs with hequal hlen hshort
  · obtain ⟨hlength, htake⟩ := hstart.mp hequal
    rw [Nat.min_eq_left hlen, List.take_length, ← hlength, List.take_length] at htake
    rw [decide_eq_true htake]
  · have hstored := h.1.2
    rw [if_pos hshort] at hstored
    rw [hstored, ← (hstart.mp hequal).1, List.take_length]
  · have hstored := h.1.2
    rw [if_neg hshort] at hstored
    obtain ⟨hpage, hcopy⟩ := OverflowFile.copyFromFrame_of_holds f.getPage_of_lt hstored.1
    have hread : readAt (pagesMemory f.pages) _ key.length = key := hstored.2
    simp only [hpage, hcopy, hread, Lib.ok_bind, Lib.pure_eq_ok]
    rw [← (hstart.mp hequal).1, List.take_length]
  · have hne : key' ≠ key := by
      rintro rfl
      exact hequal (hstart.mpr ⟨rfl, rfl⟩)
    rw [decide_eq_false hne]

theorem equalsFuncForString_of_stored {pages : ℕ → BytePage} {pin : ℕ → Option BytePage}
    (hpin : ∀ p < c.numPages, pin p = some (pages p))
    (h : KeyStored (pagesMemory pages) c .string bytes key) :
    equalsFuncForString pin key' bytes = .ok (decide (key' = key)) := by
  have hstart := isStringPrefixAndLenEquals_of_stored h key'
  rw [equalsFuncForString]
  split_ifs with hequal
  · rw [OverflowFile.readString_of_stored hpin h.1, Lib.ok_bind, ← (hstart.mp hequal).1,
      List.take_length, Lib.pure_eq_ok]
  · have hne : key' ≠ key := by
      rintro rfl
      exact hequal (hstart.mpr ⟨rfl, rfl⟩)
    rw [decide_eq_false hne]

/-- In memory a key is compared with the key of the entry. -/
theorem keyEqualsFuncInMem_of_stored (h : KeyStored f.memory f.cursor keyType bytes key)
    (hkey : keyType.Valid key) (hkey' : keyType.Valid key') :
    keyEqualsFuncInMem f keyType key' bytes = .ok (decide (key' = key)) := by
  cases keyType with
  | int64 =>
      obtain rfl : bytes = key := h
      rw [keyEqualsFuncInMem, List.take_of_length_le hkey.le, List.take_of_length_le hkey'.le]
  | string => exact equalsFuncForStringInMem_of_stored h

/-- And so it is with the pages of the file. -/
theorem keyEqualsFunc_of_stored {pages : ℕ → BytePage} {pin : ℕ → Option BytePage}
    (hpin : ∀ p < c.numPages, pin p = some (pages p))
    (h : KeyStored (pagesMemory pages) c keyType bytes key) (hkey : keyType.Valid key)
    (hkey' : keyType.Valid key') :
    keyEqualsFunc pin keyType key' bytes = .ok (decide (key' = key)) := by
  cases keyType with
  | int64 =>
      obtain rfl : bytes = key := h
      rw [keyEqualsFunc, List.take_of_length_le hkey.le, List.take_of_length_le hkey'.le]
  | string => exact equalsFuncForString_of_stored hpin h

end Graphflow
