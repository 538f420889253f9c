import Graphflow.Overflow.Values

/-!
# Writing to overflow files

What `writeStringOverflowAndUpdateOverflowPtr` and `writeListOverflowAndUpdateOverflowPtr` leave
behind.  The sizes of everything that is appended for a value are known before, and so is the way of
the cursor; the writes succeed if nothing ends one byte behind its page and no string has exactly
`SHORT_STR_LENGTH` characters.
-/

namespace Graphflow

open Wal Storage Lib

/-! ## The way of the cursor -/

namespace Cursor

variable {c c' c'' : Cursor} {n : ℕ} {ns ms : List ℕ}

def advanceAll (c : Cursor) (ns : List ℕ) : Cursor := ns.foldl advance c

def FitsAll : Cursor → List ℕ → Prop
  | _, [] => True
  | c, n :: ns => c.Fits n ∧ FitsAll (c.advance n) ns

instance decidableFitsAll : (c : Cursor) → (ns : List ℕ) → Decidable (c.FitsAll ns)
  | _, [] => isTrue trivial
  | c, _ :: ns => @instDecidableAnd _ _ _ (decidableFitsAll (c.advance _) ns)

theorem fitsAll_append : c.FitsAll (ns ++ ms) ↔ c.FitsAll ns ∧ (c.advanceAll ns).FitsAll ms := by
  induction ns generalizing c with
  | nil => exact (iff_of_eq (true_and _)).symm
  | cons n ns ih =>
      show c.Fits n ∧ (c.advance n).FitsAll (ns ++ ms) ↔
        (c.Fits n ∧ (c.advance n).FitsAll ns) ∧ ((c.advance n).advanceAll ns).FitsAll ms
      rw [ih, and_assoc]

theorem advanceAll_append (c : Cursor) (ns ms : List ℕ) :
    c.advanceAll (ns ++ ms) = (c.advanceAll ns).advanceAll ms := List.foldl_append

theorem Reaches.refl (c : Cursor) : c.Reaches c := ⟨Nat.le_refl _, Nat.le_refl _⟩

theorem Reaches.trans (h : c.Reaches c') (h' : c'.Reaches c'') : c.Reaches c'' :=
  ⟨h.numPages.trans h'.numPages, h.pos.trans h'.pos⟩

theorem numPages_le_advanceAll (c : Cursor) (ns : List ℕ) :
    c.numPages ≤ (c.advanceAll ns).numPages := by
  induction ns generalizing c with
  | nil => exact Nat.le_refl _
  | cons n ns ih => exact (numPages_le_advance c n).trans (ih (c.advance n))

end Cursor

/-! ## Values that can be written -/

namespace InMemory

/-- The value has the size of its type. -/
def WellTyped : (dataType : DataType) → InMemory dataType → Prop
  | .scalar typeID, value =>
      typeID = .string ∨ typeID ≠ .list ∧ typeID.getDataTypeSize = .ok value.1.length
  | .list childType, value =>
      (∃ n, childType.typeID.getDataTypeSize = .ok n) ∧ ∀ e ∈ value.1, WellTyped childType e

/-- The sizes of what is appended for a value. -/
def appended : (dataType : DataType) → InMemory dataType → List ℕ
  | .scalar typeID, value =>
      if typeID = .string ∧ shortStrLength ≤ value.1.length then [value.1.length] else []
  | .list childType, value =>
      (value.1.flatMap (bytes childType)).length :: value.1.flatMap (appended childType)

/-- No string in the value has exactly `SHORT_STR_LENGTH` characters. -/
def NoStringAtLimit : (dataType : DataType) → InMemory dataType → Prop
  | .scalar typeID, value => typeID = .string → value.1.length ≠ shortStrLength
  | .list childType, value => ∀ e ∈ value.1, NoStringAtLimit childType e

theorem length_stringBytes (chars : List UInt8) (memory : Fin 12 → UInt8) :
    (stringBytes chars memory).length = 16 := by
  rw [stringBytes, shortStrLength, List.length_append, length_littleEndian]
  by_cases hshort : chars.length ≤ 12
  · rw [if_pos hshort, List.length_append, List.length_drop, List.length_ofFn]
    omega
  · rw [if_neg hshort, List.length_append, List.length_take, List.length_drop, List.length_ofFn]
    omega

theorem length_bytes {dataType : DataType} {value : InMemory dataType} {n : ℕ}
    (h : WellTyped dataType value) (hn : dataType.typeID.getDataTypeSize = .ok n) :
    (bytes dataType value).length = n := by
  cases dataType with
  | scalar typeID =>
      rcases h with rfl | ⟨-, h⟩
      · obtain rfl : 16 = n := Except.ok.inj hn
        exact length_stringBytes _ _
      · obtain rfl : List.length value.1 = n := Except.ok.inj (h.symm.trans hn)
        cases typeID with
        | string => exact (length_stringBytes _ _).trans (Except.ok.inj hn)
        | _ => rfl
  | list childType =>
      obtain rfl : 16 = n := Except.ok.inj hn
      show (littleEndian 8 (List.length value.1) ++ List.ofFn value.2).length = 16
      rw [List.length_append, length_littleEndian, List.length_ofFn]

end InMemory

/-! ## Bytes of stored values -/

section Bytes

variable {m : Memory} {lo : ℕ} {c : Cursor} {ptr : OverflowPtr}

theorem take_stringBytes (chars : List UInt8) (memory : Fin 12 → UInt8) :
    (InMemory.stringBytes chars memory).take 4 = littleEndian 4 chars.length := by
  rw [InMemory.stringBytes]
  exact List.take_left' (length_littleEndian _ _)

/-- A short string needs nothing from the file. -/
theorem storedString_short {chars : List UInt8} (hshort : chars.length ≤ shortStrLength)
    (memory : Fin 12 → UInt8) :
    StoredString m lo c (InMemory.stringBytes chars memory) chars := by
  have hlength : chars.length < 256 ^ 4 := by
    rw [shortStrLength] at hshort
    omega
  refine ⟨?_, ?_⟩
  · rw [take_stringBytes, ofLittleEndian_littleEndian hlength]
  · rw [if_pos hshort, InMemory.stringBytes, List.drop_left' (length_littleEndian _ _),
      if_pos hshort]
    exact List.take_left' rfl

theorem storedString_long {chars : List UInt8} (hlong : ¬ chars.length ≤ shortStrLength)
    (hadmitted : chars.length ≤ defaultPageSize) (hptr : ptr.Encodable)
    (hholds : c.Holds lo ptr chars.length) (hread : readAt m ptr.address chars.length = chars)
    (memory : Fin 12 → UInt8) :
    StoredString m lo c (setOverflowPtr (InMemory.stringBytes chars memory) ptr) chars := by
  have hlength : chars.length < 256 ^ 4 := by
    rw [defaultPageSize] at hadmitted
    omega
  have hbytes : 8 ≤ (InMemory.stringBytes chars memory).length := by
    rw [InMemory.length_stringBytes]
    decide
  refine ⟨?_, ?_⟩
  · rw [take_setOverflowPtr (by decide) hbytes, take_stringBytes,
      ofLittleEndian_littleEndian hlength]
  · rw [if_neg hlong, decodeOverflowPtr_setOverflowPtr hptr hbytes]
    exact ⟨hholds, hread⟩

theorem storedList {α : Type} {stored : List UInt8 → α → Prop} {elementSize : ℕ}
    {elements : List α} (hlength : elements.length < 256 ^ 8) (hptr : ptr.Encodable)
    (hholds : c.Holds lo ptr (elements.length * elementSize))
    (hstored : ∀ i (hi : i < elements.length),
      stored (readAt m (ptr.address + i * elementSize) elementSize) elements[i])
    (memory : Fin 8 → UInt8) :
    StoredList stored elementSize m lo c
      (setOverflowPtr (littleEndian 8 elements.length ++ List.ofFn memory) ptr) elements := by
  have hbytes : 8 ≤ (littleEndian 8 elements.length ++ List.ofFn memory).length := by
    rw [List.length_append, length_littleEndian]
    omega
  rw [StoredList, take_setOverflowPtr (Nat.le_refl 8) hbytes,
    List.take_left' (length_littleEndian _ _), ofLittleEndian_littleEndian hlength,
    decodeOverflowPtr_setOverflowPtr hptr hbytes]
  exact ⟨rfl, hholds, hstored⟩

end Bytes

/-! ## Appending -/

namespace OverflowFile

variable {f f' f'' : OverflowFile} {ptr dst : OverflowPtr} {bytes chars : List UInt8}

/-- Two strings or arrays of elements do not overlap. -/
def Disjoint (r r' : OverflowPtr × ℕ) : Prop :=
  r.1.address + r.2 ≤ r'.1.address ∨ r'.1.address + r'.2 ≤ r.1.address

/-- Everything that has been written is on one page, and nothing has been written over. -/
structure Separated (f : OverflowFile) : Prop where
  inside : ∀ r ∈ f.regions, r.1.pagePos + r.2 ≤ defaultPageSize
  below : ∀ r ∈ f.regions, r.1.address + r.2 ≤ f.nextBytePosToWriteTo
  disjoint : f.regions.Pairwise Disjoint

/-- What every write does to the file. -/
structure Grows (f f' : OverflowFile) : Prop where
  wellFormed : f'.WellFormed
  separated : f.Separated → f'.Separated
  reaches : f.cursor.Reaches f'.cursor
  versions : KeepsVersions f f'
  pages : f'.file.pages = f.file.pages

theorem Grows.refl (hf : f.WellFormed) : Grows f f :=
  ⟨hf, fun h ↦ h, Cursor.Reaches.refl _, KeepsVersions.refl f, rfl⟩

theorem Grows.trans (h : Grows f f') (h' : Grows f' f'') : Grows f f'' :=
  ⟨h'.wellFormed, h'.separated ∘ h.separated, h.reaches.trans h'.reaches,
    h.versions.trans h.reaches.numPages h'.versions, h'.pages.trans h.pages⟩

theorem Appended.holds_ptr (h : Appended f f' bytes ptr) :
    f'.cursor.Holds (f.cursor.start bytes.length) ptr bytes.length where
  page_lt := h.page_lt
  inside := h.inside
  le_address := h.address.ge
  address_le := by
    rw [h.cursor, h.address]
    rfl

theorem Appended.le_address (hf : f.WellFormed) (h : Appended f f' bytes ptr) :
    f.nextBytePosToWriteTo ≤ ptr.address := by
  rw [h.address]
  exact hf.cursor.le_start _

theorem Appended.grows (hf : f.WellFormed) (h : Appended f f' bytes ptr) : Grows f f' := by
  have hle := h.le_address hf
  have hend : ptr.address + bytes.length ≤ f'.nextBytePosToWriteTo := h.holds_ptr.address_le
  have hpos : f.nextBytePosToWriteTo ≤ f'.nextBytePosToWriteTo := by omega
  refine ⟨h.wellFormed, ?_, ⟨?_, hpos⟩, h.versions, h.pages⟩
  · intro hseparated
    refine ⟨?_, ?_, ?_⟩
    · rw [h.regions, List.forall_mem_append, List.forall_mem_singleton]
      exact ⟨hseparated.inside, h.inside⟩
    · rw [h.regions, List.forall_mem_append, List.forall_mem_singleton]
      exact ⟨fun r hr ↦ (hseparated.below r hr).trans hpos, hend⟩
    · rw [h.regions, List.pairwise_append]
      refine ⟨hseparated.disjoint, List.pairwise_singleton _ _, ?_⟩
      intro r hr r' hr'
      rw [List.mem_singleton] at hr'
      subst hr'
      exact Or.inl ((hseparated.below r hr).trans hle)
  · rw [h.cursor]
    exact Cursor.numPages_le_advance _ _

theorem PtrStored.grows (h : PtrStored f f' dst ptr) : Grows f f' := by
  have hpos : f'.nextBytePosToWriteTo = f.nextBytePosToWriteTo := congrArg Cursor.pos h.cursor
  refine ⟨h.wellFormed, ?_, ?_, h.versions, h.pages⟩
  · intro hseparated
    refine ⟨?_, ?_, ?_⟩
    · rw [h.regions]
      exact hseparated.inside
    · rw [h.regions, hpos]
      exact hseparated.below
    · rw [h.regions]
      exact hseparated.disjoint
  · rw [h.cursor]
    exact Cursor.Reaches.refl _

theorem encodable_of_lt (hlt : ptr.pageIdx < f.numPages) (hpages : f.numPages ≤ 256 ^ 4)
    (hinside : ptr.pagePos ≤ defaultPageSize) : ptr.Encodable := by
  refine ⟨hlt.trans_le hpages, ?_⟩
  rw [defaultPageSize] at hinside
  omega

/-! ## Strings -/

theorem setStringOverflow_of_lt (hshort : chars.length < shortStrLength) :
    f.setStringOverflow chars = .ok (f, none) := by
  rw [setStringOverflow, if_pos hshort]
  rfl

theorem exists_setStringOverflow (hf : f.WellFormed) (hlong : ¬ chars.length ≤ shortStrLength)
    (hadmitted : chars.length ≤ defaultPageSize) (hfits : f.cursor.Fits chars.length) :
    ∃ f' ptr, f.setStringOverflow chars = .ok (f', some ptr) ∧ Appended f f' chars ptr := by
  obtain ⟨f', ptr, happend, happended⟩ := exists_append hf hadmitted hfits
  have hnot : ¬ chars.length < shortStrLength := fun h ↦ hlong h.le
  refine ⟨f', ptr, ?_, happended⟩
  rw [setStringOverflow, if_neg hnot, if_neg (Nat.not_lt.mpr hadmitted), if_neg hlong, happend]
  rfl

/-! ## Elements of lists -/

/-- The bytes of a value stand on the version of a page before the cursor. -/
structure Slot (f : OverflowFile) (dst : OverflowPtr) (bytes : List UInt8) : Prop where
  page_lt : dst.pageIdx < f.numPages
  exists_version : ∃ w, f.version dst.pageIdx = some w
  inside : dst.pagePos + bytes.length ≤ defaultPageSize
  below : dst.address + bytes.length ≤ f.nextBytePosToWriteTo
  holds : readAt f.memory dst.address bytes.length = bytes

theorem Slot.of_grows (h : Slot f dst bytes) (hgrows : Grows f f')
    (hframe : ∀ a, dst.address ≤ a → a < dst.address + bytes.length → f'.memory a = f.memory a) :
    Slot f' dst bytes where
  page_lt := h.page_lt.trans_le hgrows.reaches.numPages
  exists_version := h.exists_version.imp (hgrows.versions _ h.page_lt)
  inside := h.inside
  below := h.below.trans hgrows.reaches.pos
  holds := (readAt_congr hframe).trans h.holds

/-- The pointer of a value has been replaced, and nothing else below the cursor. -/
structure SlotUpdated (f f' : OverflowFile) (dst ptr : OverflowPtr) (bytes : List UInt8) :
    Prop where
  grows : Grows f f'
  cursor : f'.cursor = f.cursor
  slot : Slot f' dst (setOverflowPtr bytes ptr)
  frame : ∀ a < f.numPages * defaultPageSize, a < dst.address ∨ dst.address + 16 ≤ a →
    f'.memory a = f.memory a

theorem length_setOverflowPtr (h : bytes.length = 16) (ptr : OverflowPtr) :
    (setOverflowPtr bytes ptr).length = 16 := by
  simp only [setOverflowPtr, encodeOverflowPtr, List.length_append, List.length_take,
    List.length_drop, length_littleEndian, h]
  decide

theorem exists_slotUpdated (hf : f.WellFormed) (hslot : Slot f dst bytes)
    (hbytes : bytes.length = 16) (pinnedAt : ℕ) (ptr : OverflowPtr) :
    ∃ f', f.storeOverflowPtr pinnedAt dst ptr = .ok f' ∧ SlotUpdated f f' dst ptr bytes := by
  have hinside := hslot.inside
  have hbelow := hslot.below
  have hholds := hslot.holds
  have hcursor : f.nextBytePosToWriteTo ≤ f.numPages * defaultPageSize := hf.cursor
  rw [hbytes] at hinside hbelow hholds
  obtain ⟨w, hw⟩ := hslot.exists_version
  obtain ⟨f', hstore, hstored⟩ :=
    exists_storeOverflowPtr hf hslot.page_lt hw hinside pinnedAt ptr
  have hlength := length_setOverflowPtr hbytes ptr
  have hread : readAt f'.memory dst.address 16 = setOverflowPtr bytes ptr := by
    rw [← hholds, ← readAt_overwrite_pointer]
    apply readAt_congr
    intro a _ ha
    exact hstored.memory a (by omega)
  refine ⟨f', hstore, hstored.grows, hstored.cursor, ⟨?_, ?_, ?_, ?_, ?_⟩, ?_⟩
  · exact hslot.page_lt.trans_le hstored.grows.reaches.numPages
  · exact ⟨w, hstored.versions _ hslot.page_lt w hw⟩
  · rw [hlength]
    exact hinside
  · rw [hlength]
    exact hbelow.trans hstored.grows.reaches.pos
  · rw [hlength]
    exact hread
  · intro a ha houtside
    rw [hstored.memory a ha]
    apply overwrite_of_outside
    simp only [List.length_append, length_littleEndian]
    omega

/-- What is known of a value before it is written. -/
structure Writable (c : Cursor) (dataType : DataType) (value : InMemory dataType) : Prop where
  wellTyped : InMemory.WellTyped dataType value
  noStringAtLimit : InMemory.NoStringAtLimit dataType value
  admitted : ∀ n ∈ InMemory.appended dataType value, n ≤ defaultPageSize
  fits : c.FitsAll (InMemory.appended dataType value)
  pages : (c.advanceAll (InMemory.appended dataType value)).numPages ≤ 256 ^ 4

structure AllWritable (c : Cursor) (childType : DataType) (elements : List (InMemory childType)) :
    Prop where
  wellTyped : ∀ e ∈ elements, InMemory.WellTyped childType e
  noStringAtLimit : ∀ e ∈ elements, InMemory.NoStringAtLimit childType e
  admitted : ∀ n ∈ elements.flatMap (InMemory.appended childType), n ≤ defaultPageSize
  fits : c.FitsAll (elements.flatMap (InMemory.appended childType))
  pages : (c.advanceAll (elements.flatMap (InMemory.appended childType))).numPages ≤ 256 ^ 4

section Writable

variable {c : Cursor} {childType : DataType} {elements : List (InMemory childType)}

theorem AllWritable.head {e : InMemory childType} (h : AllWritable c childType (e :: elements)) :
    Writable c childType e where
  wellTyped := h.wellTyped e List.mem_cons_self
  noStringAtLimit := h.noStringAtLimit e List.mem_cons_self
  admitted := fun n hn ↦ h.admitted n (List.mem_append_left _ hn)
  fits := (Cursor.fitsAll_append.mp h.fits).1
  pages := by
    have hpages := h.pages
    rw [List.flatMap_cons, Cursor.advanceAll_append] at hpages
    exact (Cursor.numPages_le_advanceAll _ _).trans hpages

theorem AllWritable.tail {e : InMemory childType} (h : AllWritable c childType (e :: elements)) :
    AllWritable (c.advanceAll (InMemory.appended childType e)) childType elements where
  wellTyped := fun e he ↦ h.wellTyped e (List.mem_cons_of_mem _ he)
  noStringAtLimit := fun e he ↦ h.noStringAtLimit e (List.mem_cons_of_mem _ he)
  admitted := fun n hn ↦ h.admitted n (List.mem_append_right _ hn)
  fits := (Cursor.fitsAll_append.mp h.fits).2
  pages := by
    have hpages := h.pages
    rw [List.flatMap_cons, Cursor.advanceAll_append] at hpages
    exact hpages

theorem Writable.allWritable {value : InMemory (.list childType)}
    (h : Writable c (.list childType) value) :
    AllWritable (c.advance (List.flatMap (InMemory.bytes childType) value.1).length) childType
      value.1 where
  wellTyped := h.wellTyped.2
  noStringAtLimit := h.noStringAtLimit
  admitted := fun n hn ↦ h.admitted n (List.mem_cons_of_mem _ hn)
  fits := h.fits.2
  pages := h.pages

end Writable

/-- What `setElement` does for the value at `dst`. -/
structure ElementSet (dataType : DataType) (f f' : OverflowFile) (dst : OverflowPtr)
    (value : InMemory dataType) : Prop where
  grows : Grows f f'
  cursor : f'.cursor = f.cursor.advanceAll (InMemory.appended dataType value)
  frame : ∀ a < f.nextBytePosToWriteTo,
    a < dst.address ∨ dst.address + (InMemory.bytes dataType value).length ≤ a →
      f'.memory a = f.memory a
  stored : Stored f'.memory f.nextBytePosToWriteTo f'.cursor dataType
    (readAt f'.memory dst.address (InMemory.bytes dataType value).length)
    (InMemory.literal dataType value)

/-- What the loop over the elements does, from the index `k` on. -/
structure ElementsSet (childType : DataType) (elementSize k : ℕ) (f f' : OverflowFile)
    (ptr : OverflowPtr) (elements : List (InMemory childType)) : Prop where
  grows : Grows f f'
  cursor : f'.cursor = f.cursor.advanceAll (elements.flatMap (InMemory.appended childType))
  frame : ∀ a < f.nextBytePosToWriteTo, a < ptr.address + k * elementSize ∨
    ptr.address + (k + elements.length) * elementSize ≤ a → f'.memory a = f.memory a
  stored : ∀ i (hi : i < elements.length),
    Stored f'.memory f.nextBytePosToWriteTo f'.cursor childType
      (readAt f'.memory (ptr.address + (k + i) * elementSize) elementSize)
      (InMemory.literal childType elements[i])

/-- The loop over the elements, from what is known of one element. -/
theorem exists_forEachElement {childType : DataType} {elementSize pinnedAt : ℕ}
    (hset : ∀ (f : OverflowFile) (dst : OverflowPtr) (e : InMemory childType), f.WellFormed →
      Slot f dst (InMemory.bytes childType e) → Writable f.cursor childType e →
      ∃ f', setElement childType pinnedAt f dst e = .ok f' ∧ ElementSet childType f f' dst e)
    (hsize : childType.typeID.getDataTypeSize = .ok elementSize) (ptr : OverflowPtr)
    (elements : List (InMemory childType)) (k : ℕ) (f : OverflowFile) (hf : f.WellFormed)
    (hslots : ∀ i (hi : i < elements.length),
      Slot f ⟨ptr.pageIdx, ptr.pagePos + (k + i) * elementSize⟩
        (InMemory.bytes childType elements[i]))
    (hwritable : AllWritable f.cursor childType elements) :
    ∃ f', (elements.zipIdx k).foldlM (fun f element ↦ setElement childType pinnedAt f
        ⟨ptr.pageIdx, ptr.pagePos + element.2 * elementSize⟩ element.1) f = .ok f' ∧
      ElementsSet childType elementSize k f f' ptr elements := by
  induction elements generalizing k f with
  | nil =>
      refine ⟨f, rfl, Grows.refl hf, rfl, fun _ _ _ ↦ rfl, ?_⟩
      intro i hi
      exact absurd hi (Nat.not_lt_zero i)
  | cons e elements ih =>
      have hlength : (InMemory.bytes childType e).length = elementSize :=
        InMemory.length_bytes (hwritable.wellTyped e List.mem_cons_self) hsize
      have haddress : ∀ n, OverflowPtr.address ⟨ptr.pageIdx, ptr.pagePos + n * elementSize⟩ =
          ptr.address + n * elementSize := fun n ↦ (Nat.add_assoc _ _ _).symm
      obtain ⟨f₁, hfirst, hset₁⟩ := hset f _ e hf (hslots 0 (Nat.succ_pos _)) hwritable.head
      have hslots₁ : ∀ i (hi : i < elements.length),
          Slot f₁ ⟨ptr.pageIdx, ptr.pagePos + (k + 1 + i) * elementSize⟩
            (InMemory.bytes childType elements[i]) := by
        intro i hi
        have hslot := hslots (i + 1) (Nat.succ_lt_succ hi)
        rw [List.getElem_cons_succ, Nat.add_comm i 1, ← Nat.add_assoc] at hslot
        apply hslot.of_grows hset₁.grows
        intro a hle hlt
        apply hset₁.frame a (hlt.trans_le hslot.below)
        rw [haddress, Nat.add_mul, Nat.add_mul, Nat.one_mul] at hle
        rw [haddress, Nat.add_zero, hlength]
        omega
      obtain ⟨f₂, hrest, hset₂⟩ := ih (k + 1) f₁ hset₁.grows.wellFormed hslots₁
        (hset₁.cursor ▸ hwritable.tail)
      have hend : ptr.address + (k + elements.length) * elementSize + elementSize ≤
          f.nextBytePosToWriteTo := by
        have hlast := (hslots elements.length (Nat.lt_succ_self _)).below
        rw [haddress, InMemory.length_bytes (hwritable.wellTyped _ (List.getElem_mem _)) hsize]
          at hlast
        exact hlast
      have hpos : f.nextBytePosToWriteTo ≤ f₁.nextBytePosToWriteTo := hset₁.grows.reaches.pos
      have hframe₁ := hset₁.frame
      have hframe₂ := hset₂.frame
      rw [haddress, Nat.add_zero, hlength] at hframe₁
      simp only [Nat.add_mul, Nat.one_mul] at hend hframe₂
      refine ⟨f₂, ?_, hset₁.grows.trans hset₂.grows, ?_, ?_, ?_⟩
      · rw [List.zipIdx_cons, List.foldlM_cons]
        exact (congrArg (· >>= _) hfirst).trans hrest
      · rw [hset₂.cursor, hset₁.cursor, List.flatMap_cons, Cursor.advanceAll_append]
      · intro a ha houtside
        rw [List.length_cons, Nat.add_mul, Nat.add_mul, Nat.one_mul] at houtside
        rw [hframe₂ a (by omega) (by omega), hframe₁ a ha (by omega)]
      · intro i hi
        cases i with
        | zero =>
            have hread : readAt f₂.memory (ptr.address + k * elementSize) elementSize =
                readAt f₁.memory (ptr.address + k * elementSize) elementSize := by
              apply readAt_congr
              intro a _ hlt
              exact hframe₂ a (by omega) (by omega)
            have hstored := hset₁.stored
            rw [haddress, Nat.add_zero, hlength] at hstored
            rw [Nat.add_zero, hread]
            apply hstored.mono (Nat.le_refl _) hset₂.grows.reaches
            intro a hle hlt
            exact hframe₂ a hlt (by omega)
        | succ i =>
            have hstored := hset₂.stored i (Nat.lt_of_succ_lt_succ hi)
            rw [Nat.add_assoc k 1 i, Nat.add_comm 1 i] at hstored
            exact hstored.mono hpos (Cursor.Reaches.refl _) fun _ _ _ ↦ rfl

/-! ## Lists -/

section Lists

variable {childType : DataType} {elementSize : ℕ} {elements : List (InMemory childType)}

theorem one_le_of_getDataTypeSize {typeID : DataTypeID} {n : ℕ}
    (h : typeID.getDataTypeSize = .ok n) : 1 ≤ n := by
  cases typeID <;> cases h <;> decide

theorem exists_copyElements (hf : f.WellFormed)
    (hsize : childType.typeID.getDataTypeSize = .ok elementSize)
    (htyped : ∀ e ∈ elements, InMemory.WellTyped childType e)
    (hadmitted : (elements.flatMap (InMemory.bytes childType)).length ≤ defaultPageSize)
    (hfits : f.cursor.Fits (elements.flatMap (InMemory.bytes childType)).length) :
    ∃ f' ptr, copyElements childType f elements = .ok (f', ptr) ∧
      Appended f f' (elements.flatMap (InMemory.bytes childType)) ptr := by
  obtain ⟨f', ptr, happend, happended⟩ := exists_append hf hadmitted hfits
  refine ⟨f', ptr, ?_, happended⟩
  rw [length_flatMap_of_forall fun e he ↦ InMemory.length_bytes (htyped e he) hsize] at hadmitted
  simp only [copyElements, hsize, Lib.ok_bind, Nat.not_lt.mpr hadmitted, if_false]
  exact happend

/-- The bytes of the elements after they have been copied. -/
theorem Appended.slot (hsize : childType.typeID.getDataTypeSize = .ok elementSize)
    (htyped : ∀ e ∈ elements, InMemory.WellTyped childType e)
    (h : Appended f f' (elements.flatMap (InMemory.bytes childType)) ptr) (i : ℕ)
    (hi : i < elements.length) :
    Slot f' ⟨ptr.pageIdx, ptr.pagePos + (0 + i) * elementSize⟩
      (InMemory.bytes childType elements[i]) := by
  have hlengths : ∀ e ∈ elements, (InMemory.bytes childType e).length = elementSize :=
    fun e he ↦ InMemory.length_bytes (htyped e he) hsize
  have hlength := hlengths elements[i] (List.getElem_mem _)
  have hend := h.holds_ptr.address_le
  have hinside := h.inside
  have hholds := h.holds
  rw [length_flatMap_of_forall hlengths] at hend hinside hholds
  have hslot : (i + 1) * elementSize ≤ elements.length * elementSize :=
    Nat.mul_le_mul_right _ hi
  rw [Nat.add_one_mul] at hslot
  have haddress : OverflowPtr.address ⟨ptr.pageIdx, ptr.pagePos + i * elementSize⟩ =
      ptr.address + i * elementSize := (Nat.add_assoc _ _ _).symm
  rw [Nat.zero_add]
  refine ⟨h.page_lt, h.exists_version, ?_, ?_, ?_⟩
  · rw [hlength]
    show ptr.pagePos + i * elementSize + elementSize ≤ defaultPageSize
    omega
  · rw [hlength, haddress]
    show _ ≤ f'.cursor.pos
    omega
  · rw [hlength, haddress]
    exact readAt_of_readAt_flatMap hlengths hholds i hi

/-- The list is stored when its elements are.  Between the copy of the elements and the loop over
them the pointer to them may have been stored. -/
theorem storedList_of_elementsSet {f₁ f₂ f₃ : OverflowFile} (hf : f.WellFormed)
    (hsize : childType.typeID.getDataTypeSize = .ok elementSize)
    (htyped : ∀ e ∈ elements, InMemory.WellTyped childType e)
    (happended : Appended f f₁ (elements.flatMap (InMemory.bytes childType)) ptr)
    (hgrows : Grows f₁ f₂) (hset : ElementsSet childType elementSize 0 f₂ f₃ ptr elements)
    (hpages : f₃.numPages ≤ 256 ^ 4) (memory : Fin 8 → UInt8) :
    StoredList (Stored f₃.memory f.nextBytePosToWriteTo f₃.cursor childType) elementSize f₃.memory
      f.nextBytePosToWriteTo f₃.cursor
      (setOverflowPtr (littleEndian 8 elements.length ++ List.ofFn memory) ptr)
      (elements.map (InMemory.literal childType)) := by
  have hreaches : f₁.cursor.Reaches f₃.cursor := hgrows.reaches.trans hset.grows.reaches
  have hpos : f.nextBytePosToWriteTo ≤ f₂.nextBytePosToWriteTo :=
    (happended.grows hf).reaches.pos.trans hgrows.reaches.pos
  have hlength := length_flatMap_of_forall fun e he ↦ InMemory.length_bytes (htyped e he) hsize
  have hinside := happended.inside
  have hholds := happended.holds_ptr.mono (hf.cursor.le_start _) hreaches
  rw [hlength] at hholds hinside
  have hfew : elements.length ≤ elements.length * elementSize :=
    Nat.le_mul_of_pos_right _ (one_le_of_getDataTypeSize hsize)
  have hencodable : ptr.Encodable := encodable_of_lt hholds.page_lt hpages (by omega)
  have hmap : (elements.map (InMemory.literal childType)).length = elements.length :=
    List.length_map _
  rw [← hmap]
  refine storedList ?_ hencodable ?_ ?_ memory
  · rw [hmap]
    rw [defaultPageSize] at hinside
    omega
  · rw [hmap]
    exact hholds
  · intro i hi
    rw [hmap] at hi
    have hstored := hset.stored i hi
    rw [Nat.zero_add] at hstored
    rw [List.getElem_map]
    exact hstored.mono hpos (Cursor.Reaches.refl _) fun _ _ _ ↦ rfl

/-- `setElement` for a list, from what is known of its elements. -/
theorem exists_setElement_list
    (hset : ∀ (pinnedAt : ℕ) (f : OverflowFile) (dst : OverflowPtr) (e : InMemory childType),
      f.WellFormed → Slot f dst (InMemory.bytes childType e) → Writable f.cursor childType e →
      ∃ f', setElement childType pinnedAt f dst e = .ok f' ∧ ElementSet childType f f' dst e)
    (pinnedAt : ℕ) (f : OverflowFile) (dst : OverflowPtr) (value : InMemory (.list childType))
    (hf : f.WellFormed) (hslot : Slot f dst (InMemory.bytes (.list childType) value))
    (hwritable : Writable f.cursor (.list childType) value) :
    ∃ f', setElement (.list childType) pinnedAt f dst value = .ok f' ∧
      ElementSet (.list childType) f f' dst value := by
  obtain ⟨elementSize, hsize⟩ := hwritable.wellTyped.1
  have htyped := hwritable.wellTyped.2
  have hlength : (InMemory.bytes (.list childType) value).length = 16 :=
    InMemory.length_bytes hwritable.wellTyped rfl
  obtain ⟨f₁, ptr, hcopy, happended⟩ := exists_copyElements hf hsize htyped
    (hwritable.admitted _ List.mem_cons_self) hwritable.fits.1
  have hgrows₁ := happended.grows hf
  have hle := happended.le_address hf
  have hbelow := hslot.below
  have hslot₁ : Slot f₁ dst (InMemory.bytes (.list childType) value) := by
    apply hslot.of_grows hgrows₁
    intro a _ ha
    exact happended.frame a (by omega)
  obtain ⟨f₂, hstore, hupdated⟩ :=
    exists_slotUpdated happended.wellFormed hslot₁ hlength pinnedAt ptr
  have hcursor₁ : f₁.nextBytePosToWriteTo ≤ f₁.numPages * defaultPageSize :=
    happended.wellFormed.cursor
  have hslots : ∀ i (hi : i < List.length value.1),
      Slot f₂ ⟨ptr.pageIdx, ptr.pagePos + (0 + i) * elementSize⟩
        (InMemory.bytes childType value.1[i]) := by
    intro i hi
    have hslot := happended.slot hsize htyped i hi
    apply hslot.of_grows hupdated.grows
    intro a hle' ha
    have hend := hslot.below
    simp only [OverflowPtr.address] at hle hle' hbelow hend ha
    apply hupdated.frame a (by omega)
    rw [OverflowPtr.address]
    omega
  obtain ⟨f₃, hloop, hset₃⟩ := exists_forEachElement (hset f₁.lastAccess) hsize ptr value.1 0 f₂
    hupdated.grows.wellFormed hslots (by
      rw [hupdated.cursor, happended.cursor]
      exact hwritable.allWritable)
  have hpages : f₃.numPages ≤ 256 ^ 4 := by
    have hcursor : f₃.cursor = f.cursor.advanceAll (InMemory.appended (.list childType) value) := by
      rw [hset₃.cursor, hupdated.cursor, happended.cursor]
      rfl
    have hpages := hwritable.pages
    rw [← hcursor] at hpages
    exact hpages
  have hpos₁ : f.nextBytePosToWriteTo ≤ f₁.nextBytePosToWriteTo := hgrows₁.reaches.pos
  have hpos₂ : f₁.nextBytePosToWriteTo ≤ f₂.nextBytePosToWriteTo := hupdated.grows.reaches.pos
  -- The loop leaves everything alone that was there before the list.
  have hframe : ∀ a < f.nextBytePosToWriteTo, f₃.memory a = f₂.memory a := by
    intro a ha
    apply hset₃.frame a (by omega)
    omega
  have hread : readAt f₃.memory dst.address 16 =
      setOverflowPtr (InMemory.bytes (.list childType) value) ptr := by
    have hholds := hupdated.slot.holds
    rw [length_setOverflowPtr hlength] at hholds
    rw [← hholds]
    apply readAt_congr
    intro a _ ha
    exact hframe a (by omega)
  refine ⟨f₃, ?_, (hgrows₁.trans hupdated.grows).trans hset₃.grows, ?_, ?_, ?_⟩
  · simp only [setElement, hsize, Lib.ok_bind, hcopy, hstore]
    exact hloop
  · rw [hset₃.cursor, hupdated.cursor, happended.cursor]
    rfl
  · intro a ha houtside
    rw [hlength] at houtside
    rw [hframe a ha, hupdated.frame a (by omega) houtside, happended.frame a ha]
  · rw [hlength, hread]
    exact ⟨elementSize, hsize, storedList_of_elementsSet hf hsize htyped happended hupdated.grows
      hset₃ hpages value.2⟩

end Lists

/-! ## Values -/

theorem exists_setScalar_string (hf : f.WellFormed) (value : InMemory (.scalar .string))
    (hslot : Slot f dst (InMemory.bytes (.scalar .string) value))
    (hwritable : Writable f.cursor (.scalar .string) value) (pinnedAt : ℕ) :
    ∃ f', setElement (.scalar .string) pinnedAt f dst value = .ok f' ∧
      ElementSet (.scalar .string) f f' dst value := by
  have hlength : (InMemory.bytes (.scalar .string) value).length = 16 :=
    InMemory.length_stringBytes _ _
  by_cases hshort : List.length value.1 ≤ shortStrLength
  · have hlt : List.length value.1 < shortStrLength :=
      lt_of_le_of_ne hshort (hwritable.noStringAtLimit rfl)
    have hnone : InMemory.appended (.scalar .string) value = [] :=
      if_neg fun h ↦ Nat.not_le.mpr hlt h.2
    refine ⟨f, ?_, Grows.refl hf, ?_, fun _ _ _ ↦ rfl, ?_⟩
    · simp only [setElement, setScalar, setStringOverflow_of_lt hlt, Lib.ok_bind]
      rfl
    · rw [hnone]
      rfl
    · rw [hslot.holds]
      exact storedString_short hshort value.2
  · have happ : InMemory.appended (.scalar .string) value = [List.length value.1] :=
      if_pos ⟨rfl, (Nat.not_le.mp hshort).le⟩
    have hadmitted := hwritable.admitted
    have hfits := hwritable.fits
    have hpages := hwritable.pages
    rw [happ] at hadmitted hfits hpages
    have hadmitted := hadmitted _ List.mem_cons_self
    obtain ⟨f₁, ptr, hoverflow, happended⟩ := exists_setStringOverflow hf hshort hadmitted hfits.1
    have hgrows₁ := happended.grows hf
    have hle := happended.le_address hf
    have hbelow := hslot.below
    have hslot₁ : Slot f₁ dst (InMemory.bytes (.scalar .string) value) := by
      apply hslot.of_grows hgrows₁
      intro a _ ha
      exact happended.frame a (by omega)
    obtain ⟨f₂, hstore, hupdated⟩ :=
      exists_slotUpdated happended.wellFormed hslot₁ hlength pinnedAt ptr
    have hcursor₁ : f₁.nextBytePosToWriteTo ≤ f₁.numPages * defaultPageSize :=
      happended.wellFormed.cursor
    have hholds : f₂.cursor.Holds f.nextBytePosToWriteTo ptr (List.length value.1) :=
      happended.holds_ptr.mono (hf.cursor.le_start _) hupdated.grows.reaches
    have hend : ptr.address + List.length value.1 ≤ f₁.nextBytePosToWriteTo :=
      happended.holds_ptr.address_le
    have hread : readAt f₂.memory ptr.address (List.length value.1) = value.1 := by
      refine (readAt_congr ?_).trans happended.holds
      intro a hle' ha
      exact hupdated.frame a (by omega) (by omega)
    have hpages₂ : f₂.numPages ≤ 256 ^ 4 := by
      have hcursor : f₂.cursor = f.cursor.advanceAll [List.length value.1] := by
        rw [hupdated.cursor, happended.cursor]
        rfl
      rw [← hcursor] at hpages
      exact hpages
    have hinside := hholds.inside
    refine ⟨f₂, ?_, hgrows₁.trans hupdated.grows, ?_, ?_, ?_⟩
    · simp only [setElement, setScalar, hoverflow, Lib.ok_bind]
      exact hstore
    · rw [happ, hupdated.cursor, happended.cursor]
      rfl
    · intro a ha houtside
      rw [hlength] at houtside
      rw [hupdated.frame a (by omega) houtside, happended.frame a ha]
    · have hholds' := hupdated.slot.holds
      rw [length_setOverflowPtr hlength] at hholds'
      rw [hlength, hholds']
      exact storedString_long hshort hadmitted
        (encodable_of_lt hholds.page_lt hpages₂ (by omega)) hholds hread value.2

/-- `setElement` completes the value at `dst`. -/
theorem exists_setElement (dataType : DataType) (pinnedAt : ℕ) (f : OverflowFile)
    (dst : OverflowPtr) (value : InMemory dataType) (hf : f.WellFormed)
    (hslot : Slot f dst (InMemory.bytes dataType value))
    (hwritable : Writable f.cursor dataType value) :
    ∃ f', setElement dataType pinnedAt f dst value = .ok f' ∧
      ElementSet dataType f f' dst value := by
  induction dataType generalizing pinnedAt f dst with
  | scalar typeID =>
      cases typeID with
      | string => exact exists_setScalar_string hf value hslot hwritable pinnedAt
      | _ => exact ⟨f, rfl, Grows.refl hf, rfl, fun _ _ _ ↦ rfl, hslot.holds⟩
  | list childType ih =>
      exact exists_setElement_list (fun pinnedAt f dst e ↦ ih pinnedAt f dst e)
        pinnedAt f dst value hf
        hslot hwritable

/-! ## Calls -/

/-- What a call leaves behind, with the bytes that the caller gets. -/
structure Wrote (dataType : DataType) (f f' : OverflowFile) (bytes : List UInt8)
    (value : InMemory dataType) : Prop where
  grows : Grows f f'
  cursor : f'.cursor = f.cursor.advanceAll (InMemory.appended dataType value)
  frame : ∀ a < f.nextBytePosToWriteTo, f'.memory a = f.memory a
  stored : Stored f'.memory f.nextBytePosToWriteTo f'.cursor dataType bytes
    (InMemory.literal dataType value)

/-- The record for the cursor is not part of the memory. -/
structure SameMemory (f f' : OverflowFile) : Prop where
  grows : Grows f f'
  cursor : f'.cursor = f.cursor
  memory : f'.memory = f.memory

theorem sameMemory_log (hf : f.WellFormed) :
    SameMemory f f.logNewOverflowFileNextBytePosRecordIfNecessary := by
  rw [logNewOverflowFileNextBytePosRecordIfNecessary]
  split_ifs
  · exact ⟨Grows.refl hf, rfl, rfl⟩
  · refine ⟨⟨⟨hf.version_lt, hf.version_inj, hf.cursor⟩, ?_, Cursor.Reaches.refl _,
      KeepsVersions.refl f, rfl⟩, rfl, rfl⟩
    intro hseparated
    exact ⟨hseparated.inside, hseparated.below, hseparated.disjoint⟩

theorem Wrote.of_sameMemory {dataType : DataType} {value : InMemory dataType}
    (h : SameMemory f f') (hwrote : Wrote dataType f' f'' bytes value) :
    Wrote dataType f f'' bytes value := by
  have hpos : f'.nextBytePosToWriteTo = f.nextBytePosToWriteTo := congrArg Cursor.pos h.cursor
  obtain ⟨hgrows, hcursor, hframe, hstored⟩ := hwrote
  rw [hpos, h.memory] at hframe
  rw [hpos] at hstored
  rw [h.cursor] at hcursor
  exact ⟨h.grows.trans hgrows, hcursor, hframe, hstored⟩

theorem exists_writeString (hf : f.WellFormed) (value : InMemory (.scalar .string))
    (hwritable : Writable f.cursor (.scalar .string) value) :
    ∃ f' bytes, f.writeStringOverflowAndUpdateOverflowPtr value = .ok (f', bytes) ∧
      Wrote (.scalar .string) f f' bytes value := by
  have hsame := sameMemory_log hf
  rw [← hsame.cursor] at hwritable
  set f₀ := f.logNewOverflowFileNextBytePosRecordIfNecessary
  have hf₀ := hsame.grows.wellFormed
  by_cases hshort : List.length value.1 ≤ shortStrLength
  · have hlt : List.length value.1 < shortStrLength :=
      lt_of_le_of_ne hshort (hwritable.noStringAtLimit rfl)
    have hnone : InMemory.appended (.scalar .string) value = [] :=
      if_neg fun h ↦ Nat.not_le.mpr hlt h.2
    refine ⟨f₀, _, ?_, Wrote.of_sameMemory hsame
      ⟨Grows.refl hf₀, ?_, fun _ _ ↦ rfl, storedString_short hshort value.2⟩⟩
    · simp only [writeStringOverflowAndUpdateOverflowPtr]
      simp only [setStringOverflow_of_lt hlt, Lib.ok_bind]
      rfl
    · rw [hnone]
      rfl
  · have happ : InMemory.appended (.scalar .string) value = [List.length value.1] :=
      if_pos ⟨rfl, (Nat.not_le.mp hshort).le⟩
    have hadmitted := hwritable.admitted
    have hfits := hwritable.fits
    have hpages := hwritable.pages
    rw [happ] at hadmitted hfits hpages
    have hadmitted := hadmitted _ List.mem_cons_self
    obtain ⟨f₁, ptr, hoverflow, happended⟩ := exists_setStringOverflow hf₀ hshort hadmitted hfits.1
    have hholds : f₁.cursor.Holds f₀.nextBytePosToWriteTo ptr (List.length value.1) :=
      happended.holds_ptr.mono (hf₀.cursor.le_start _) (Cursor.Reaches.refl _)
    have hpages₁ : f₁.numPages ≤ 256 ^ 4 := by
      have hcursor : f₁.cursor = f₀.cursor.advanceAll [List.length value.1] := happended.cursor
      rw [← hcursor] at hpages
      exact hpages
    have hinside := hholds.inside
    refine ⟨f₁, setOverflowPtr (InMemory.bytes (.scalar .string) value) ptr, ?_,
      Wrote.of_sameMemory hsame ⟨happended.grows hf₀, ?_, happended.frame, ?_⟩⟩
    · simp only [writeStringOverflowAndUpdateOverflowPtr]
      simp only [f₀, hoverflow, Lib.ok_bind]
      rfl
    · rw [happ, happended.cursor]
      rfl
    · exact storedString_long hshort hadmitted
        (encodable_of_lt hholds.page_lt hpages₁ (by omega)) hholds happended.holds value.2

theorem exists_writeList {childType : DataType} (hf : f.WellFormed)
    (value : InMemory (.list childType)) (hwritable : Writable f.cursor (.list childType) value) :
    ∃ f' bytes, writeListOverflowAndUpdateOverflowPtr childType f value = .ok (f', bytes) ∧
      Wrote (.list childType) f f' bytes value := by
  have hsame := sameMemory_log hf
  rw [← hsame.cursor] at hwritable
  have hf₀ := hsame.grows.wellFormed
  obtain ⟨elementSize, hsize⟩ := hwritable.wellTyped.1
  have htyped := hwritable.wellTyped.2
  obtain ⟨f₁, ptr, hcopy, happended⟩ := exists_copyElements hf₀ hsize htyped
    (hwritable.admitted _ List.mem_cons_self) hwritable.fits.1
  obtain ⟨f₂, hloop, hset⟩ := exists_forEachElement
    (fun f dst e ↦ exists_setElement childType f₁.lastAccess f dst e) hsize ptr value.1 0 f₁
    happended.wellFormed (happended.slot hsize htyped) (happended.cursor ▸ hwritable.allWritable)
  have hcursor : f₂.cursor = f.logNewOverflowFileNextBytePosRecordIfNecessary.cursor.advanceAll
      (InMemory.appended (.list childType) value) := by
    rw [hset.cursor, happended.cursor]
    rfl
  have hpages := hwritable.pages
  rw [← hcursor] at hpages
  have hle := happended.le_address hf₀
  have hgrows := happended.grows hf₀
  refine ⟨f₂, setOverflowPtr (InMemory.bytes (.list childType) value) ptr, ?_,
    Wrote.of_sameMemory hsame ⟨hgrows.trans hset.grows, hcursor, ?_, ?_⟩⟩
  · simp only [writeListOverflowAndUpdateOverflowPtr, hsize, Lib.ok_bind, hcopy]
    rw [forEachElement, hloop]
    rfl
  · intro a ha
    rw [hset.frame a (ha.trans_le hgrows.reaches.pos) (by omega), happended.frame a ha]
  · exact ⟨elementSize, hsize, storedList_of_elementsSet hf₀ hsize htyped happended
      (Grows.refl happended.wellFormed) hset hpages value.2⟩

end OverflowFile

end Graphflow
