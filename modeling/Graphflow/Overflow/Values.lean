import Graphflow.Overflow.Memory

/-!
# Values in an overflow file

`Stored` says that the bytes of a value, together with what they point to in an overflow file, are
the value.  Everything that is pointed to stands between two addresses, so that what is written
elsewhere does not matter.
-/

namespace Graphflow

open Wal Storage Lib

variable {bytes : List UInt8} {ptr : OverflowPtr} {m m' : Memory} {lo lo' : ℕ} {c c' : Cursor}

/-! ## Pointers -/

/-- What fits into the six bytes of a pointer. -/
def OverflowPtr.Encodable (ptr : OverflowPtr) : Prop :=
  ptr.pageIdx < 256 ^ 4 ∧ ptr.pagePos < 256 ^ 2

theorem decodeOverflowPtr_encodeOverflowPtr (hptr : ptr.Encodable) (pointer : List UInt8) :
    decodeOverflowPtr (encodeOverflowPtr pointer ptr) = ptr := by
  have hpageIdx : (encodeOverflowPtr pointer ptr).take 4 = littleEndian 4 ptr.pageIdx := by
    rw [encodeOverflowPtr, List.append_assoc]
    exact List.take_left' (length_littleEndian _ _)
  have hpagePos : ((encodeOverflowPtr pointer ptr).drop 4).take 2 =
      littleEndian 2 ptr.pagePos := by
    rw [encodeOverflowPtr, List.append_assoc, List.drop_left' (length_littleEndian _ _)]
    exact List.take_left' (length_littleEndian _ _)
  rw [decodeOverflowPtr, hpageIdx, hpagePos, ofLittleEndian_littleEndian hptr.1,
    ofLittleEndian_littleEndian hptr.2]

theorem decodeOverflowPtr_setOverflowPtr (hptr : ptr.Encodable) (hbytes : 8 ≤ bytes.length) :
    decodeOverflowPtr ((setOverflowPtr bytes ptr).drop 8) = ptr := by
  rw [setOverflowPtr, List.drop_left' (List.length_take_of_le hbytes)]
  exact decodeOverflowPtr_encodeOverflowPtr hptr _

theorem take_setOverflowPtr {n : ℕ} (hn : n ≤ 8) (hbytes : 8 ≤ bytes.length) :
    (setOverflowPtr bytes ptr).take n = bytes.take n := by
  rw [setOverflowPtr, List.take_append_of_le_length, List.take_take, Nat.min_eq_left hn]
  rw [List.length_take_of_le hbytes]
  exact hn

/-- Replacing the pointer of a value in memory. -/
theorem readAt_overwrite_pointer (m : Memory) (a : ℕ) (ptr : OverflowPtr) :
    readAt (overwrite m (a + 8) (littleEndian 4 ptr.pageIdx ++ littleEndian 2 ptr.pagePos)) a 16 =
      setOverflowPtr (readAt m a 16) ptr := by
  have hlength : (littleEndian 4 ptr.pageIdx ++ littleEndian 2 ptr.pagePos).length = 6 := by
    rw [List.length_append, length_littleEndian, length_littleEndian]
  rw [show 16 = 8 + (6 + 2) from rfl, readAt_add, readAt_add,
    readAt_overwrite_of_disjoint (Or.inl (Nat.le_refl _)),
    readAt_overwrite_of_disjoint (b := a + 8 + 6) (Or.inr (by rw [hlength])), ← hlength,
    readAt_overwrite, setOverflowPtr, encodeOverflowPtr, take_readAt (by omega), drop_readAt,
    drop_readAt]
  rfl

/-! ## Stored values -/

namespace Cursor

/-- The bytes at `ptr` are on one page of the file, between the address `lo` and the cursor. -/
structure Holds (c : Cursor) (lo : ℕ) (ptr : OverflowPtr) (n : ℕ) : Prop where
  page_lt : ptr.pageIdx < c.numPages
  inside : ptr.pagePos + n ≤ defaultPageSize
  le_address : lo ≤ ptr.address
  address_le : ptr.address + n ≤ c.pos

/-- The file has not lost pages and the cursor has not gone back. -/
structure Reaches (c c' : Cursor) : Prop where
  numPages : c.numPages ≤ c'.numPages
  pos : c.pos ≤ c'.pos

theorem Holds.mono {n : ℕ} (h : c.Holds lo ptr n) (hlo : lo' ≤ lo) (hc : c.Reaches c') :
    c'.Holds lo' ptr n where
  page_lt := h.page_lt.trans_le hc.numPages
  inside := h.inside
  le_address := hlo.trans h.le_address
  address_le := h.address_le.trans hc.pos

end Cursor

/-- A `gf_string_t`. -/
def StoredString (m : Memory) (lo : ℕ) (c : Cursor) (bytes chars : List UInt8) : Prop :=
  ofLittleEndian (bytes.take 4) = chars.length ∧
    if chars.length ≤ shortStrLength then (bytes.drop 4).take chars.length = chars
    else c.Holds lo (decodeOverflowPtr (bytes.drop 8)) chars.length ∧
      readAt m (decodeOverflowPtr (bytes.drop 8)).address chars.length = chars

/-- A `gf_list_t`, where `stored` says what is stored in the place of an element. -/
def StoredList {α : Type} (stored : List UInt8 → α → Prop) (elementSize : ℕ) (m : Memory) (lo : ℕ)
    (c : Cursor) (bytes : List UInt8) (elements : List α) : Prop :=
  ofLittleEndian (bytes.take 8) = elements.length ∧
    c.Holds lo (decodeOverflowPtr (bytes.drop 8)) (elements.length * elementSize) ∧
    ∀ i (hi : i < elements.length), stored
      (readAt m ((decodeOverflowPtr (bytes.drop 8)).address + i * elementSize) elementSize)
      elements[i]

/-- The bytes of a value, with what they point to in the file, are the value. -/
def Stored (m : Memory) (lo : ℕ) (c : Cursor) :
    (dataType : DataType) → List UInt8 → Literal dataType → Prop
  | .scalar .string, bytes, chars => StoredString m lo c bytes chars
  | .scalar _, bytes, value => bytes = value
  | .list childType, bytes, elements =>
      ∃ elementSize, childType.typeID.getDataTypeSize = .ok elementSize ∧
        StoredList (Stored m lo c childType) elementSize m lo c bytes elements

theorem StoredString.mono {chars : List UInt8} (h : StoredString m lo c bytes chars)
    (hlo : lo' ≤ lo) (hc : c.Reaches c') (hm : ∀ a, lo ≤ a → a < c.pos → m' a = m a) :
    StoredString m' lo' c' bytes chars := by
  obtain ⟨hlen, h⟩ := h
  refine ⟨hlen, ?_⟩
  split_ifs at h ⊢ with hshort
  · exact h
  · obtain ⟨hholds, hread⟩ := h
    refine ⟨hholds.mono hlo hc, (readAt_congr ?_).trans hread⟩
    intro b hle hlt
    exact hm b (hholds.le_address.trans hle) (hlt.trans_le hholds.address_le)

theorem StoredList.mono {α : Type} {stored stored' : List UInt8 → α → Prop} {elementSize : ℕ}
    {elements : List α} (h : StoredList stored elementSize m lo c bytes elements)
    (hstored : ∀ bytes element, stored bytes element → stored' bytes element)
    (hlo : lo' ≤ lo) (hc : c.Reaches c') (hm : ∀ a, lo ≤ a → a < c.pos → m' a = m a) :
    StoredList stored' elementSize m' lo' c' bytes elements := by
  obtain ⟨hlen, hholds, h⟩ := h
  refine ⟨hlen, hholds.mono hlo hc, ?_⟩
  intro i hi
  have hslot : (i + 1) * elementSize ≤ elements.length * elementSize :=
    Nat.mul_le_mul_right _ hi
  rw [Nat.add_one_mul] at hslot
  have hle := hholds.le_address
  have haddress := hholds.address_le
  have hread : readAt m' ((decodeOverflowPtr (bytes.drop 8)).address + i * elementSize)
      elementSize = readAt m ((decodeOverflowPtr (bytes.drop 8)).address + i * elementSize)
      elementSize := by
    apply readAt_congr
    intro b hb hb'
    exact hm b (by omega) (by omega)
  rw [hread]
  exact hstored _ _ (h i hi)

/-- What is stored stays stored when only something else is written. -/
theorem Stored.mono (hlo : lo' ≤ lo) (hc : c.Reaches c')
    (hm : ∀ a, lo ≤ a → a < c.pos → m' a = m a) (dataType : DataType) (bytes : List UInt8)
    (value : Literal dataType) (h : Stored m lo c dataType bytes value) :
    Stored m' lo' c' dataType bytes value := by
  induction dataType generalizing bytes with
  | scalar typeID =>
      cases typeID with
      | string => exact StoredString.mono h hlo hc hm
      | _ => exact h
  | list childType ih =>
      obtain ⟨elementSize, hsize, h⟩ := h
      exact ⟨elementSize, hsize, StoredList.mono h (fun bytes element ↦ ih bytes element) hlo hc hm⟩

/-! ## Reading -/

namespace OverflowFile

section Pinned

variable {pages : ℕ → BytePage} {pin : ℕ → Option BytePage}

/-- What is on the pages that are pinned is copied from the memory. -/
theorem copyFromFrame_of_holds {n : ℕ} (hpin : ∀ p < c.numPages, pin p = some (pages p))
    (h : c.Holds lo ptr n) :
    pin ptr.pageIdx = some (pages ptr.pageIdx) ∧ copyFromFrame (pages ptr.pageIdx) ptr.pagePos n =
      .ok (readAt (pagesMemory pages) ptr.address n) := by
  refine ⟨hpin _ h.page_lt, ?_⟩
  rw [copyFromFrame, if_pos h.inside, readAt_page pages h.inside]

theorem readString_of_stored {chars : List UInt8}
    (hpin : ∀ p < c.numPages, pin p = some (pages p))
    (h : StoredString (pagesMemory pages) lo c bytes chars) : readString pin bytes = .ok chars := by
  obtain ⟨hlen, h⟩ := h
  simp only [readString, hlen]
  split_ifs at h ⊢ with hshort
  · rw [h]
  · obtain ⟨hpage, hcopy⟩ := copyFromFrame_of_holds hpin h.1
    simp only [hpage, hcopy, h.2]

end Pinned

/-- The write transaction pins the newest versions. -/
theorem writeView_of_lt (f : OverflowFile) :
    ∀ p < f.cursor.numPages, f.writeView p = some (f.pageView p) := fun _ hp ↦ writeView_eq hp

end OverflowFile

end Graphflow
