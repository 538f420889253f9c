import Graphflow.Overflow.CopiedValues

/-!
# Copying to one page

As long as the strings and lists that a value points to fit behind the cursor, they all go to the
page of the cursor, and the value takes the bytes between the old and the new cursor.
-/

namespace Graphflow

open Wal Storage Lib

namespace InMemOverflowFile

variable {f f' f₁ : InMemOverflowFile} {p o n numBytes : ℕ} {dataType childType : DataType}
  {bytes : List UInt8} {elements : List (List UInt8)}

/-- All pages, whether a cursor has come to their end or not. -/
def fileEnd (f : InMemOverflowFile) : Cursor where
  numPages := f.numPages
  pos := f.numPages * defaultPageSize

theorem fileEnd_holds {ptr : OverflowPtr} (hpage : ptr.pageIdx < f.numPages)
    (hinside : ptr.pagePos + n ≤ defaultPageSize) : f.fileEnd.Holds 0 ptr n := by
  refine ⟨hpage, hinside, Nat.zero_le _, ?_⟩
  have hle : (ptr.pageIdx + 1) * defaultPageSize ≤ f.numPages * defaultPageSize :=
    Nat.mul_le_mul_right _ hpage
  rw [Nat.add_one_mul] at hle
  show ptr.pageIdx * defaultPageSize + ptr.pagePos + n ≤ f.numPages * defaultPageSize
  omega

/-- Only the bytes of a page between two positions have changed. -/
structure ChangedAt (f f' : InMemOverflowFile) (p o n : ℕ) : Prop where
  rest : f' = { f with pages := f'.pages }
  frame : ∀ a, a < p * defaultPageSize + o ∨ p * defaultPageSize + o + n ≤ a →
    f'.memory a = f.memory a

theorem ChangedAt.numPages (h : ChangedAt f f' p o n) : f'.numPages = f.numPages := by
  rw [h.rest]

theorem ChangedAt.refl (f : InMemOverflowFile) (p o n : ℕ) : ChangedAt f f p o n :=
  ⟨rfl, fun _ _ ↦ rfl⟩

theorem ChangedAt.trans {k : ℕ} (h : ChangedAt f f₁ p o n) (h₁ : ChangedAt f₁ f' p (o + n) k) :
    ChangedAt f f' p o (n + k) := by
  refine ⟨?_, ?_⟩
  · rw [h₁.rest, h.rest]
  · intro a ha
    rw [h₁.frame a (by omega), h.frame a (by omega)]

theorem ChangedAt.fileEnd (h : ChangedAt f f' p o n) : f'.fileEnd = f.fileEnd := by
  rw [InMemOverflowFile.fileEnd, InMemOverflowFile.fileEnd, h.numPages]

/-- A region outside of what has changed. -/
theorem ChangedAt.agree (h : ChangedAt f f' p o n) {r : Region}
    (hr : r.1.address + r.2 ≤ p * defaultPageSize + o ∨
      p * defaultPageSize + o + n ≤ r.1.address) : r.Agree f.memory f'.memory := by
  intro a hle hlt
  exact h.frame a (by omega)

/-! ## Elements -/

theorem exists_writeElements (hp : p < f.numPages)
    (hsize : ∀ element ∈ elements, element.length = numBytes)
    (hinside : o + elements.length * numBytes ≤ defaultPageSize) :
    ∃ f', f.writeElements p numBytes o elements = .ok f' ∧
      f' = { f with pages := f'.pages } ∧
      f'.memory = overwrite f.memory (p * defaultPageSize + o) elements.flatten := by
  induction elements generalizing f o with
  | nil =>
      refine ⟨f, rfl, rfl, ?_⟩
      funext a
      exact (overwrite_of_outside (by
        rw [List.flatten_nil, List.length_nil]
        omega)).symm
  | cons element elements ih =>
      have hlength := hsize element List.mem_cons_self
      rw [List.length_cons, Nat.add_one_mul] at hinside
      obtain ⟨f₁, hwrite, hrest₁, hmemory₁⟩ :=
        @exists_write f p o element hp (by omega)
      have hp₁ : p < f₁.numPages := by
        rw [hrest₁]
        exact hp
      obtain ⟨f', hwrites, hrest, hmemory⟩ := ih hp₁
        (fun e he ↦ hsize e (List.mem_cons_of_mem _ he)) (o := o + numBytes) (by omega)
      refine ⟨f', ?_, ?_, ?_⟩
      · rw [writeElements, hwrite, Lib.ok_bind]
        exact hwrites
      · rw [hrest, hrest₁]
      · rw [hmemory, hmemory₁, List.flatten_cons, ← overwrite_append, ← hlength, Nat.add_assoc]
        rfl

/-- The value has been copied: its bytes, with what they point to, are the value, and what they
point to is in the bytes that have changed. -/
structure CopiedAt (f f' : InMemOverflowFile) (p o n : ℕ) (dataType : DataType)
    (bytes : List UInt8) (value : Literal dataType) : Prop where
  changed : ChangedAt f f' p o n
  length : bytes.length = 16
  stored : Stored f'.memory 0 f'.fileEnd dataType bytes value
  within : ∀ r ∈ regionsOf f'.memory dataType bytes,
    r.Within (p * defaultPageSize + o) (p * defaultPageSize + o + n)
  disjoint : (regionsOf f'.memory dataType bytes).Pairwise OverflowFile.Disjoint

/-- The values of a loop have been copied, one behind the other. -/
structure CopiedAllAt (f f' : InMemOverflowFile) (p o n : ℕ) (dataType : DataType)
    (elements : List (List UInt8)) (values : List (Literal dataType)) : Prop where
  changed : ChangedAt f f' p o n
  forall₂ : List.Forall₂ (fun bytes value ↦ bytes.length = 16 ∧
    Stored f'.memory 0 f'.fileEnd dataType bytes value) elements values
  within : ∀ r ∈ elements.flatMap (regionsOf f'.memory dataType),
    r.Within (p * defaultPageSize + o) (p * defaultPageSize + o + n)
  disjoint : (elements.flatMap (regionsOf f'.memory dataType)).Pairwise OverflowFile.Disjoint

/-- The value, and what it points to, fits behind the cursor. -/
def FitsAt (o n : ℕ) : Prop := n = 0 ∨ o + n < defaultPageSize

theorem exists_copyEach {copy : InMemOverflowFile → PageByteCursor → Literal dataType →
      Except Fault (InMemOverflowFile × PageByteCursor × List UInt8)}
    {values : List (Literal dataType)}
    (hcopy : ∀ value ∈ values, ∀ f o, p < f.numPages → f.numPages ≤ 256 ^ 4 → o ≤ defaultPageSize →
      FitsAt o (value.numBytesOfOverflow dataType) →
        ∃ f' bytes, copy f ⟨some p, o⟩ value =
            .ok (f', ⟨some p, o + value.numBytesOfOverflow dataType⟩, bytes) ∧
          CopiedAt f f' p o (value.numBytesOfOverflow dataType) dataType bytes value)
    (hp : p < f.numPages) (hpages : f.numPages ≤ 256 ^ 4) (ho : o ≤ defaultPageSize)
    (hfits : FitsAt o (values.map (Literal.numBytesOfOverflow dataType)).sum) :
    ∃ f' elements, copyEach copy f ⟨some p, o⟩ values =
        .ok (f', ⟨some p, o + (values.map (Literal.numBytesOfOverflow dataType)).sum⟩, elements) ∧
      CopiedAllAt f f' p o (values.map (Literal.numBytesOfOverflow dataType)).sum dataType elements
        values := by
  induction values generalizing f o with
  | nil =>
      refine ⟨f, [], rfl, ChangedAt.refl _ _ _ _, List.Forall₂.nil, ?_, List.Pairwise.nil⟩
      exact fun r hr ↦ absurd hr List.not_mem_nil
  | cons value values ih =>
      rw [List.map_cons, List.sum_cons] at hfits
      have hfits₁ : FitsAt o (value.numBytesOfOverflow dataType) := by
        rcases hfits with h | h
        · exact Or.inl (by omega)
        · exact Or.inr (by omega)
      obtain ⟨f₁, bytes, hcopied, h₁⟩ :=
        hcopy value List.mem_cons_self f o hp hpages ho hfits₁
      have ho₁ : o + value.numBytesOfOverflow dataType ≤ defaultPageSize := by
        rcases hfits with h | h <;> omega
      have hfits' : FitsAt (o + value.numBytesOfOverflow dataType)
          (values.map (Literal.numBytesOfOverflow dataType)).sum := by
        rcases hfits with h | h
        · exact Or.inl (by omega)
        · exact Or.inr (by omega)
      obtain ⟨f', elements, hcopies, h'⟩ := ih
        (fun v hv ↦ hcopy v (List.mem_cons_of_mem _ hv)) (h₁.changed.numPages.symm ▸ hp)
        (h₁.changed.numPages.symm ▸ hpages) ho₁ hfits'
      have hagree : ∀ r ∈ regionsOf f₁.memory dataType bytes, r.Agree f₁.memory f'.memory := by
        intro r hr
        apply h'.changed.agree
        left
        have hle := (h₁.within r hr).address_le
        omega
      have hregions := regionsOf_congr dataType bytes hagree
      refine ⟨f', bytes :: elements, ?_, ?_, ?_, ?_, ?_⟩
      · rw [copyEach, hcopied, Lib.ok_bind]
        simp only [hcopies, Lib.ok_bind, Lib.pure_eq_ok, List.map_cons, List.sum_cons,
          Nat.add_assoc]
      · rw [List.map_cons, List.sum_cons]
        exact h₁.changed.trans h'.changed
      · refine List.Forall₂.cons ⟨h₁.length, ?_⟩ h'.forall₂
        apply h₁.stored.congr _ _ _ _ hagree
        rw [h'.changed.fileEnd]
        exact Cursor.Reaches.refl _
      · intro r hr
        rw [List.flatMap_cons, List.mem_append, hregions] at hr
        rw [List.map_cons, List.sum_cons]
        rcases hr with hr | hr
        · exact (h₁.within r hr).mono (Nat.le_refl _) (by omega)
        · exact (h'.within r hr).mono (by omega) (by omega)
      · rw [List.flatMap_cons, hregions]
        apply pairwise_append_of_within h₁.disjoint h'.disjoint
        · exact fun r hr ↦ (h₁.within r hr).address_le
        · intro r hr
          have hle := (h'.within r hr).le_address
          omega

/-! ## Lists -/

/-- The elements of a list stand at the cursor, and what they point to behind them. -/
structure ElementsAt (f f' : InMemOverflowFile) (p o n : ℕ) (childType : DataType)
    (elementSize : ℕ) (values : List (Literal childType)) : Prop where
  changed : ChangedAt f f' p o (values.length * elementSize + n)
  stored : ∀ i (hi : i < values.length), Stored f'.memory 0 f'.fileEnd childType
    (readAt f'.memory (p * defaultPageSize + o + i * elementSize) elementSize) values[i]
  within : ∀ r ∈ (List.range values.length).flatMap (fun i ↦ regionsOf f'.memory childType
      (readAt f'.memory (p * defaultPageSize + o + i * elementSize) elementSize)),
    r.Within (p * defaultPageSize + o + values.length * elementSize)
      (p * defaultPageSize + o + values.length * elementSize + n)
  disjoint : ((List.range values.length).flatMap fun i ↦ regionsOf f'.memory childType
    (readAt f'.memory (p * defaultPageSize + o + i * elementSize) elementSize)).Pairwise
      OverflowFile.Disjoint

/-- What has been written by `writeElements` is read element by element. -/
theorem readAt_of_flatten {m : Memory} {a size : ℕ}
    (hsize : ∀ element ∈ elements, element.length = size)
    (hread : readAt m a (elements.length * size) = elements.flatten) (i : ℕ)
    (hi : i < elements.length) : readAt m (a + i * size) size = elements[i] :=
  readAt_of_readAt_flatMap (g := id) hsize (by rw [hread, List.flatMap_id]) i hi

theorem length_flatten {size : ℕ} (hsize : ∀ element ∈ elements, element.length = size) :
    elements.flatten.length = elements.length * size := by
  rw [← List.flatMap_id]
  exact length_flatMap_of_forall hsize

theorem flatMap_range_eq {α : Type} {g : ℕ → List α} {h : List UInt8 → List α}
    (hg : ∀ i (hi : i < elements.length), g i = h elements[i]) :
    (List.range elements.length).flatMap g = elements.flatMap h := by
  rw [List.flatMap, List.flatMap]
  congr 1
  apply List.ext_getElem
  · rw [List.length_map, List.length_map, List.length_range]
  · intro i hi hi'
    rw [List.getElem_map, List.getElem_map, List.getElem_range]
    exact hg i (by rwa [List.length_map] at hi')

theorem exists_copyVarSized {copy : InMemOverflowFile → PageByteCursor → Literal dataType →
      Except Fault (InMemOverflowFile × PageByteCursor × List UInt8)}
    {values : List (Literal dataType)}
    (hcopy : ∀ value ∈ values, ∀ f o, p < f.numPages → f.numPages ≤ 256 ^ 4 → o ≤ defaultPageSize →
      FitsAt o (value.numBytesOfOverflow dataType) →
        ∃ f' bytes, copy f ⟨some p, o⟩ value =
            .ok (f', ⟨some p, o + value.numBytesOfOverflow dataType⟩, bytes) ∧
          CopiedAt f f' p o (value.numBytesOfOverflow dataType) dataType bytes value)
    (hp : p < f.numPages) (hpages : f.numPages ≤ 256 ^ 4)
    (ho : o + values.length * 16 ≤ defaultPageSize)
    (hfits : FitsAt (o + values.length * 16)
      (values.map (Literal.numBytesOfOverflow dataType)).sum) :
    ∃ f', copyVarSizedValuesToPages copy f ⟨some p, o⟩ 16 values = .ok (f', ⟨some p,
        o + values.length * 16 + (values.map (Literal.numBytesOfOverflow dataType)).sum⟩) ∧
      ElementsAt f f' p o (values.map (Literal.numBytesOfOverflow dataType)).sum dataType 16
        values := by
  obtain ⟨f₁, elements, hcopies, h₁⟩ := exists_copyEach hcopy hp hpages ho hfits
  have hlength := h₁.forall₂.length_eq
  have hsize : ∀ element ∈ elements, element.length = 16 := by
    intro element helement
    obtain ⟨i, hi, rfl⟩ := List.mem_iff_getElem.mp helement
    exact (h₁.forall₂.get hi (hlength ▸ hi)).1
  obtain ⟨f', hwrite, hrest, hmemory⟩ := exists_writeElements (f := f₁) (p := p) (o := o)
    (h₁.changed.numPages.symm ▸ hp) hsize (hlength.symm ▸ ho)
  have hflatten := length_flatten hsize
  rw [hlength] at hflatten
  have hchanged : ChangedAt f₁ f' p o (values.length * 16) := by
    refine ⟨hrest, fun a ha ↦ ?_⟩
    rw [hmemory]
    apply overwrite_of_outside
    rwa [hflatten]
  have hread : ∀ i (hi : i < elements.length),
      readAt f'.memory (p * defaultPageSize + o + i * 16) 16 = elements[i] := by
    apply readAt_of_flatten hsize
    rw [hmemory, hlength, ← hflatten]
    exact readAt_overwrite _ _ _
  have hagree : ∀ element ∈ elements, ∀ r ∈ regionsOf f₁.memory dataType element,
      r.Agree f₁.memory f'.memory := by
    intro element helement r hr
    apply hchanged.agree
    right
    have hle := (h₁.within r (List.mem_flatMap.mpr ⟨element, helement, hr⟩)).le_address
    omega
  have hregions : (List.range values.length).flatMap (fun i ↦ regionsOf f'.memory dataType
      (readAt f'.memory (p * defaultPageSize + o + i * 16) 16)) =
        elements.flatMap (regionsOf f₁.memory dataType) := by
    rw [← hlength]
    apply flatMap_range_eq
    intro i hi
    rw [hread i hi]
    exact regionsOf_congr dataType _ (hagree _ (List.getElem_mem hi))
  refine ⟨f', ?_, ?_, ?_, ?_, ?_⟩
  · simp only [copyVarSizedValuesToPages, hcopies, Lib.ok_bind, hwrite, Lib.pure_eq_ok]
  · refine ⟨?_, fun a ha ↦ ?_⟩
    · rw [hrest, h₁.changed.rest]
    · rw [hchanged.frame a (by omega), h₁.changed.frame a (by omega)]
  · intro i hi
    have hi' : i < elements.length := hlength.symm ▸ hi
    rw [hread i hi']
    apply (h₁.forall₂.get hi' hi).2.congr _ _ _ _ (hagree _ (List.getElem_mem hi'))
    rw [hchanged.fileEnd]
    exact Cursor.Reaches.refl _
  · rw [hregions]
    intro r hr
    exact (h₁.within r hr).mono (by omega) (by omega)
  · rw [hregions]
    exact h₁.disjoint

theorem exists_copyFixedSized {typeID : DataTypeID} {values : List (List UInt8)}
    (hfixed : typeID.isFixedSized = true) (hp : p < f.numPages)
    (hsize : ∀ value ∈ values, value.length = numBytes)
    (ho : o + values.length * numBytes ≤ defaultPageSize) :
    ∃ f', copyFixedSizedValuesToPages f ⟨some p, o⟩ numBytes values =
        .ok (f', ⟨some p, o + values.length * numBytes⟩) ∧
      ElementsAt f f' p o 0 (.scalar typeID) numBytes values := by
  obtain ⟨f', hwrite, hrest, hmemory⟩ := exists_writeElements hp hsize ho
  have hflatten := length_flatten hsize
  have hread : ∀ i (hi : i < values.length),
      readAt f'.memory (p * defaultPageSize + o + i * numBytes) numBytes = values[i] := by
    apply readAt_of_flatten hsize
    rw [hmemory, ← hflatten]
    exact readAt_overwrite _ _ _
  have hregions : (List.range (@List.length (Literal (.scalar typeID)) values)).flatMap (fun i ↦
      regionsOf f'.memory (.scalar typeID)
        (readAt f'.memory (p * defaultPageSize + o + i * numBytes) numBytes)) = [] := by
    rw [List.flatMap_eq_nil_iff]
    intro i _
    cases typeID <;> first | rfl | exact absurd hfixed (by decide)
  refine ⟨f', ?_, ⟨⟨hrest, fun a ha ↦ ?_⟩, ?_, ?_, ?_⟩⟩
  · simp only [copyFixedSizedValuesToPages, hwrite, Lib.ok_bind, Lib.pure_eq_ok]
  · rw [hmemory]
    apply overwrite_of_outside
    rwa [hflatten]
  · intro i hi
    rw [hread i hi]
    cases typeID <;> first | exact rfl | exact absurd hfixed (by decide)
  · rw [hregions]
    exact fun r hr ↦ absurd hr List.not_mem_nil
  · rw [hregions]
    exact List.Pairwise.nil

/-- The list is stored when its elements are. -/
theorem ElementsAt.copiedAt {elementSize : ℕ} {values : List (Literal childType)}
    (h : ElementsAt f f' p o n childType elementSize values)
    (hsize : childType.typeID.getDataTypeSize = .ok elementSize) (hp : p < f.numPages)
    (hpages : f.numPages ≤ 256 ^ 4) (ho : o + values.length * elementSize ≤ defaultPageSize) :
    CopiedAt f f' p o (values.length * elementSize + n) (.list childType)
      (setOverflowPtr (makeList values.length) ⟨p, o⟩) values := by
  have hencodable : OverflowPtr.Encodable ⟨p, o⟩ := by
    refine ⟨hp.trans_le hpages, ?_⟩
    rw [defaultPageSize] at ho
    show o < 256 ^ 2
    omega
  have hfew : values.length ≤ values.length * elementSize :=
    Nat.le_mul_of_pos_right _ (OverflowFile.one_le_of_getDataTypeSize hsize)
  have hlength : values.length < 256 ^ 8 := by
    rw [defaultPageSize] at ho
    omega
  have hholds : f'.fileEnd.Holds 0 ⟨p, o⟩ (values.length * elementSize) := by
    apply fileEnd_holds _ ho
    rw [h.changed.numPages]
    exact hp
  have hstored : StoredList (Stored f'.memory 0 f'.fileEnd childType) elementSize f'.memory 0
      f'.fileEnd (setOverflowPtr (makeList values.length) ⟨p, o⟩) values :=
    storedList hlength hencodable hholds h.stored fun _ ↦ 0
  have hbytes : (makeList values.length).length = 16 := by
    rw [makeList, List.length_append, length_littleEndian, List.length_ofFn]
  have hregions : regionsOf f'.memory (.list childType)
      (setOverflowPtr (makeList values.length) ⟨p, o⟩) =
        (⟨p, o⟩, values.length * elementSize) :: (List.range values.length).flatMap fun i ↦
          regionsOf f'.memory childType
            (readAt f'.memory (p * defaultPageSize + o + i * elementSize) elementSize) := by
    rw [regionsOf_list hsize, hstored.1,
      decodeOverflowPtr_setOverflowPtr hencodable (hbytes.symm ▸ (by decide : 8 ≤ 16))]
    rfl
  refine ⟨h.changed, OverflowFile.length_setOverflowPtr hbytes _, ⟨elementSize, hsize, hstored⟩,
    ?_, ?_⟩
  · rw [hregions]
    intro r hr
    rcases List.mem_cons.mp hr with rfl | hr
    · refine ⟨ho, Nat.le_refl _, ?_⟩
      show p * defaultPageSize + o + values.length * elementSize ≤ _
      omega
    · exact (h.within r hr).mono (by omega) (by omega)
  · rw [hregions, List.pairwise_cons]
    exact ⟨fun r hr ↦ Or.inl (h.within r hr).le_address, h.disjoint⟩

/-! ## Strings -/

theorem numBytesOfOverflow_long {chars : List UInt8} (hlong : ¬ chars.length ≤ shortStrLength) :
    Literal.numBytesOfOverflow (.scalar .string) chars = chars.length :=
  if_pos ⟨rfl, Nat.not_le.mp hlong⟩

theorem numBytesOfOverflow_short {chars : List UInt8} (hshort : chars.length ≤ shortStrLength) :
    Literal.numBytesOfOverflow (.scalar .string) chars = 0 :=
  if_neg fun h ↦ absurd h.2 (Nat.not_lt.mpr hshort)

theorem exists_write_string {chars : List UInt8} (hlong : ¬ chars.length ≤ shortStrLength)
    (hp : p < f.numPages) (hpages : f.numPages ≤ 256 ^ 4)
    (ho : o + chars.length ≤ defaultPageSize) :
    ∃ f', f.write p o chars = .ok f' ∧ CopiedAt f f' p o chars.length (.scalar .string)
      (setOverflowPtr (makeString chars) ⟨p, o⟩) chars := by
  obtain ⟨f', hwrite, hrest, hmemory⟩ := @exists_write f p o chars hp ho
  have hnum : f'.numPages = f.numPages := by rw [hrest]
  have hencodable : OverflowPtr.Encodable ⟨p, o⟩ := by
    refine ⟨hp.trans_le hpages, ?_⟩
    rw [defaultPageSize] at ho
    show o < 256 ^ 2
    omega
  have hholds : f'.fileEnd.Holds 0 ⟨p, o⟩ chars.length := fileEnd_holds (hnum.symm ▸ hp) ho
  have hread : readAt f'.memory (OverflowPtr.address ⟨p, o⟩) chars.length = chars := by
    rw [hmemory]
    exact readAt_overwrite _ _ _
  have hstored : StoredString f'.memory 0 f'.fileEnd (setOverflowPtr (makeString chars) ⟨p, o⟩)
      chars := storedString_long hlong (by omega) hencodable hholds hread fun _ ↦ 0
  have hregions : regionsOf f'.memory (.scalar .string)
      (setOverflowPtr (makeString chars) ⟨p, o⟩) = [(⟨p, o⟩, chars.length)] := by
    rw [regionsOf, hstored.1, if_neg hlong, decodeOverflowPtr_setOverflowPtr hencodable
      ((length_makeString chars).symm ▸ (by decide : 8 ≤ 16))]
  refine ⟨f', hwrite, ⟨hrest, fun a ha ↦ ?_⟩,
    OverflowFile.length_setOverflowPtr (length_makeString chars) _, hstored, ?_, ?_⟩
  · rw [hmemory]
    exact overwrite_of_outside ha
  · rw [hregions]
    intro r hr
    obtain rfl := List.mem_singleton.mp hr
    exact ⟨ho, Nat.le_refl _, Nat.le_refl _⟩
  · rw [hregions]
    exact List.pairwise_singleton _ _

/-- A short string needs no page. -/
theorem stored_short (m : Memory) (c : Cursor) {chars : List UInt8}
    (hshort : chars.length ≤ shortStrLength) :
    Stored m 0 c (.scalar .string) (makeString chars) chars ∧
      regionsOf m (.scalar .string) (makeString chars) = [] := by
  have hstored : StoredString m 0 c (makeString chars) chars := storedString_short hshort _
  refine ⟨hstored, ?_⟩
  rw [regionsOf, hstored.1, if_pos hshort]

theorem copiedAt_short {chars : List UInt8} (hshort : chars.length ≤ shortStrLength) :
    CopiedAt f f p o 0 (.scalar .string) (makeString chars) chars := by
  obtain ⟨hstored, hregions⟩ := stored_short f.memory f.fileEnd hshort
  refine ⟨ChangedAt.refl _ _ _ _, length_makeString chars, hstored, ?_, ?_⟩
  · rw [hregions]
    exact fun r hr ↦ absurd hr List.not_mem_nil
  · rw [hregions]
    exact List.Pairwise.nil

/-! ## Allocating pages -/

theorem allocatePageIfNecessary_of_lt (ho : o + n < defaultPageSize) :
    f.allocatePageIfNecessary ⟨some p, o⟩ n = (f, ⟨some p, o⟩) := by
  rw [allocatePageIfNecessary, if_neg]
  rintro (h | h)
  · exact absurd ho (Nat.not_lt.mpr h)
  · exact absurd h (Option.some_ne_none p)

theorem copyString_of_allocated {cursor : PageByteCursor} {chars : List UInt8}
    (hlong : ¬ chars.length ≤ shortStrLength)
    (hallocate : f.allocatePageIfNecessary cursor chars.length = (f₁, ⟨some p, o⟩))
    (hwrite : f₁.write p o chars = .ok f') : f.copyString cursor chars =
      .ok (f', ⟨some p, o + chars.length⟩, setOverflowPtr (makeString chars) ⟨p, o⟩) := by
  simp only [copyString, hlong, if_false, copyStringOverflow, hallocate, hwrite, Lib.ok_bind,
    Lib.pure_eq_ok]

theorem exists_copyString_at {chars : List UInt8} (hp : p < f.numPages)
    (hpages : f.numPages ≤ 256 ^ 4)
    (hfits : FitsAt o (Literal.numBytesOfOverflow (.scalar .string) chars)) :
    ∃ f' bytes, f.copyString ⟨some p, o⟩ chars =
        .ok (f', ⟨some p, o + Literal.numBytesOfOverflow (.scalar .string) chars⟩, bytes) ∧
      CopiedAt f f' p o (Literal.numBytesOfOverflow (.scalar .string) chars) (.scalar .string) bytes
        chars := by
  by_cases hshort : chars.length ≤ shortStrLength
  · rw [numBytesOfOverflow_short hshort]
    refine ⟨f, makeString chars, ?_, copiedAt_short hshort⟩
    simp only [copyString, hshort, if_true, Lib.pure_eq_ok, Nat.add_zero]
  · rw [numBytesOfOverflow_long hshort] at hfits ⊢
    have ho : o + chars.length < defaultPageSize := hfits.resolve_left fun h ↦ by
      rw [h] at hshort
      exact hshort (Nat.zero_le _)
    obtain ⟨f', hwrite, hcopied⟩ := exists_write_string hshort hp hpages ho.le
    exact ⟨f', _, copyString_of_allocated hshort (allocatePageIfNecessary_of_lt ho) hwrite, hcopied⟩

/-! ## Lists of all types -/

/-- What `copyList` does with its elements. -/
def copyElements : (childType : DataType) → InMemOverflowFile → PageByteCursor → ℕ →
    List (Literal childType) → Except Fault (InMemOverflowFile × PageByteCursor)
  | .scalar typeID => copyScalars typeID
  | .list childType => copyVarSizedValuesToPages (copyList childType)

theorem copyScalars_of_isFixedSized {typeID : DataTypeID} (h : typeID.isFixedSized = true) :
    copyScalars typeID = copyFixedSizedValuesToPages := by
  cases typeID <;> first | rfl | exact absurd h (by decide)

theorem copyList_eq (childType : DataType) (f : InMemOverflowFile) (cursor : PageByteCursor)
    (values : List (Literal childType)) : copyList childType f cursor values =
      copyListWith (copyElements childType) childType f cursor values := by
  cases childType <;> rfl

theorem copyList_of_allocated {cursor cursor' : PageByteCursor} {elementSize : ℕ}
    {values : List (Literal childType)} (hne : values ≠ [])
    (hsize : childType.typeID.getDataTypeSize = .ok elementSize)
    (hallocate : f.allocatePageIfNecessary cursor (values.length * elementSize) =
      (f₁, ⟨some p, o⟩))
    (hcopy : copyElements childType f₁ ⟨some p, o⟩ elementSize values = .ok (f', cursor')) :
    copyList childType f cursor values =
      .ok (f', cursor', setOverflowPtr (makeList values.length) ⟨p, o⟩) := by
  have hempty : ¬ values.isEmpty = true := mt List.isEmpty_iff.mp hne
  rw [copyList_eq]
  simp only [copyListWith, hempty, if_false, hsize, Lib.ok_bind, hallocate, hcopy, Lib.pure_eq_ok,
    Bool.false_eq_true]

/-- The bytes that the elements of a list point to. -/
def numBytesOfElements (childType : DataType) (values : List (Literal childType)) : ℕ :=
  (values.map (Literal.numBytesOfOverflow childType)).sum

theorem numBytesOfOverflow_list {elementSize : ℕ}
    (hsize : childType.typeID.getDataTypeSize = .ok elementSize)
    (values : List (Literal childType)) :
    Literal.numBytesOfOverflow (.list childType) values =
      values.length * elementSize + numBytesOfElements childType values := by
  simp only [Literal.numBytesOfOverflow, hsize, Except.toOption, Option.getD_some]
  rfl

/-- The elements of the list can be copied to where they fit, with what they point to. -/
def CopiesElements (p : ℕ) (childType : DataType) (values : List (Literal childType)) : Prop :=
  ∀ (f : InMemOverflowFile) (o elementSize : ℕ),
    childType.typeID.getDataTypeSize = .ok elementSize → p < f.numPages → f.numPages ≤ 256 ^ 4 →
      o + values.length * elementSize ≤ defaultPageSize →
      FitsAt (o + values.length * elementSize) (numBytesOfElements childType values) →
        ∃ f', copyElements childType f ⟨some p, o⟩ elementSize values = .ok (f', ⟨some p,
            o + values.length * elementSize + numBytesOfElements childType values⟩) ∧
          ElementsAt f f' p o (numBytesOfElements childType values) childType elementSize values

theorem CopiesElements.exists_copyList {values : List (Literal childType)}
    (h : CopiesElements p childType values) (hadmitted : Literal.Admitted (.list childType) values)
    (hne : values ≠ []) (hp : p < f.numPages) (hpages : f.numPages ≤ 256 ^ 4)
    (hfits : FitsAt o (Literal.numBytesOfOverflow (.list childType) values)) :
    ∃ f' bytes, copyList childType f ⟨some p, o⟩ values = .ok (f', ⟨some p,
        o + Literal.numBytesOfOverflow (.list childType) values⟩, bytes) ∧
      CopiedAt f f' p o (Literal.numBytesOfOverflow (.list childType) values)
        (.list childType) bytes
        values := by
  obtain ⟨⟨elementSize, hsize, -⟩, -⟩ := hadmitted
  have hpos := OverflowFile.one_le_of_getDataTypeSize hsize
  have hlength : 1 ≤ values.length * elementSize :=
    Nat.mul_pos (List.length_pos_iff.mpr hne) hpos
  rw [numBytesOfOverflow_list hsize] at hfits ⊢
  have ho : o + (values.length * elementSize + numBytesOfElements childType values) <
      defaultPageSize := hfits.resolve_left (by omega)
  obtain ⟨f', hcopy, helements⟩ := h f o elementSize hsize hp hpages (by omega) (Or.inr (by omega))
  refine ⟨f', _, ?_, helements.copiedAt hsize hp hpages (by omega)⟩
  rw [copyList_of_allocated hne hsize (allocatePageIfNecessary_of_lt (by omega)) hcopy,
    Nat.add_assoc]

theorem copiesElements (p : ℕ) (childType : DataType) (values : List (Literal childType))
    (hadmitted : Literal.Admitted (.list childType) values)
    (hnonempty : Literal.NoEmptyList (.list childType) values) :
    CopiesElements p childType values := by
  intro f o elementSize hsize hp hpages ho hfits
  induction childType generalizing f o elementSize with
  | scalar typeID =>
      by_cases hstring : typeID = .string
      · subst hstring
        obtain rfl : 16 = elementSize := Except.ok.inj hsize
        exact exists_copyVarSized (fun chars _ f o hp hpages _ hfits ↦
          exists_copyString_at hp hpages hfits) hp hpages ho hfits
      · have hvalues : ∀ value ∈ values, typeID.isFixedSized = true ∧
            @List.length UInt8 value = elementSize := by
          intro value hvalue
          have hvalue := hadmitted.2 value hvalue
          rw [Literal.Admitted, if_neg hstring] at hvalue
          exact ⟨hvalue.1, Except.ok.inj (hvalue.2.symm.trans hsize)⟩
        have hfixed : typeID.isFixedSized = true := by
          obtain ⟨value, hvalue⟩ := List.exists_mem_of_ne_nil _ hnonempty.1
          exact (hvalues value hvalue).1
        have hzero : numBytesOfElements (.scalar typeID) values = 0 := by
          apply List.sum_eq_zero
          intro n hn
          obtain ⟨value, -, rfl⟩ := List.mem_map.mp hn
          exact if_neg fun h ↦ hstring h.1
        obtain ⟨f', hcopy, helements⟩ := exists_copyFixedSized hfixed hp
          (fun value hvalue ↦ (hvalues value hvalue).2) ho
        rw [hzero]
        refine ⟨f', ?_, helements⟩
        rw [copyElements, copyScalars_of_isFixedSized hfixed]
        exact hcopy
  | list childType ih =>
      obtain rfl : 16 = elementSize := Except.ok.inj hsize
      apply exists_copyVarSized _ hp hpages ho hfits
      intro value hvalue f o hp hpages ho hfits
      have hadmitted' := hadmitted.2 value hvalue
      have hnonempty' := hnonempty.2 value hvalue
      exact CopiesElements.exists_copyList (ih value hadmitted' hnonempty') hadmitted' hnonempty'.1
        hp hpages hfits

end InMemOverflowFile

end Graphflow
