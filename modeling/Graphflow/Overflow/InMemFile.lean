import Graphflow.Overflow.Values

/-!
# Overflow files in memory

`InMemOverflowFile` of `in_mem_file.cpp`: the strings and lists of `COPY` and of hash indexes are
written to pages in memory, which `flush` writes to the file.
-/

namespace Graphflow

open Storage Lib

structure InMemOverflowFile where
  numPages : ℕ := 1
  pages : ℕ → BytePage := fun _ _ ↦ 0
  nextPageIdxToAppend : ℕ := 0
  nextOffsetInPageToAppend : ℕ := 0

namespace InMemOverflowFile

def addANewPage (f : InMemOverflowFile) : InMemOverflowFile :=
  { f with
    numPages := f.numPages + 1
    pages := Function.update f.pages f.numPages fun _ ↦ 0 }

/-- `InMemPage::write`. -/
def write (f : InMemOverflowFile) (pageIdx offsetInPage : ℕ) (bytes : List UInt8) :
    Except Fault InMemOverflowFile :=
  if pageIdx < f.numPages ∧ offsetInPage + bytes.length ≤ defaultPageSize then
    .ok { f with
      pages := Function.update f.pages pageIdx (overwrite (f.pages pageIdx) offsetInPage bytes) }
  else .error .invalidAccess

def getPage (f : InMemOverflowFile) (pageIdx : ℕ) : Option BytePage :=
  if pageIdx < f.numPages then some (f.pages pageIdx) else none

/-- The `gf_string_t` without the pointer of a long string.  What is behind the characters of a
short one is not looked at. -/
def makeString (rawString : List UInt8) : List UInt8 :=
  InMemory.bytes (.scalar .string) (rawString, fun _ ↦ 0)

/-- The allocation of a page for `appendString`. -/
def addANewPageToAppend (f : InMemOverflowFile) : InMemOverflowFile :=
  { f.addANewPage with
    nextOffsetInPageToAppend := 0
    nextPageIdxToAppend := f.nextPageIdxToAppend + 1 }

/-- The characters are those before the terminating zero. -/
def appendString (f : InMemOverflowFile) (rawString : List UInt8) :
    Except Fault (InMemOverflowFile × List UInt8) := do
  if rawString.length ≤ shortStrLength then
    return (f, makeString rawString)
  let f :=
    if f.nextOffsetInPageToAppend + rawString.length ≥ defaultPageSize then f.addANewPageToAppend
    else f
  let ptr : OverflowPtr := ⟨f.nextPageIdxToAppend, f.nextOffsetInPageToAppend⟩
  let f ← f.write ptr.pageIdx ptr.pagePos rawString
  return ({ f with nextOffsetInPageToAppend := f.nextOffsetInPageToAppend + rawString.length },
    setOverflowPtr (makeString rawString) ptr)

/-! ## What is appended -/

variable {f f' : InMemOverflowFile} {chars : List UInt8}

def memory (f : InMemOverflowFile) : Memory := pagesMemory f.pages

def cursor (f : InMemOverflowFile) : Cursor where
  numPages := f.numPages
  pos := f.nextPageIdxToAppend * defaultPageSize + f.nextOffsetInPageToAppend

/-- The strings are appended on the last page. -/
structure WellFormed (f : InMemOverflowFile) : Prop where
  numPages : f.numPages = f.nextPageIdxToAppend + 1
  offset_le : f.nextOffsetInPageToAppend ≤ defaultPageSize

theorem getPage_of_lt (f : InMemOverflowFile) :
    ∀ p < f.cursor.numPages, f.getPage p = some (f.pages p) := fun _ hp ↦ if_pos hp

/-- The string has been appended, and the memory below the cursor is as it was. -/
structure Appended (f f' : InMemOverflowFile) (bytes chars : List UInt8) : Prop where
  wellFormed : f'.WellFormed
  reaches : f.cursor.Reaches f'.cursor
  numPages_le : f'.numPages ≤ f.numPages + 1
  frame : ∀ a < f.cursor.pos, f'.memory a = f.memory a
  stored : StoredString f'.memory 0 f'.cursor bytes chars
  head : bytes.take 8 = (makeString chars).take 8

theorem exists_write {pageIdx offset : ℕ} {bytes : List UInt8} (hpage : pageIdx < f.numPages)
    (hinside : offset + bytes.length ≤ defaultPageSize) :
    ∃ f', f.write pageIdx offset bytes = .ok f' ∧ f' = { f with pages := f'.pages } ∧
      f'.memory = overwrite f.memory (OverflowPtr.address ⟨pageIdx, offset⟩) bytes := by
  have hmemory := pagesMemory_update f.pages ⟨pageIdx, offset⟩ hinside
  exact ⟨_, if_pos ⟨hpage, hinside⟩, rfl, hmemory⟩

theorem take_four_makeString (chars : List UInt8) :
    (makeString chars).take 4 = littleEndian 4 chars.length :=
  List.take_left' (length_littleEndian _ _)

theorem drop_four_makeString (chars : List UInt8) : (makeString chars).drop 4 =
    if chars.length ≤ shortStrLength then
      chars ++ (List.ofFn fun _ : Fin 12 ↦ (0 : UInt8)).drop chars.length
    else chars.take 4 ++ (List.ofFn fun _ : Fin 12 ↦ (0 : UInt8)).drop 4 :=
  List.drop_left' (length_littleEndian _ _)

theorem length_makeString (chars : List UInt8) : (makeString chars).length = 16 := by
  have hsplit := List.length_drop (i := 4) (l := makeString chars)
  have hhead := congrArg List.length (take_four_makeString chars)
  rw [List.length_take, length_littleEndian] at hhead
  rw [drop_four_makeString] at hsplit
  split_ifs at hsplit with hshort
  · rw [List.length_append, List.length_drop, List.length_ofFn] at hsplit
    simp only [shortStrLength] at hshort
    omega
  · rw [List.length_append, List.length_drop, List.length_ofFn, List.length_take] at hsplit
    simp only [shortStrLength] at hshort
    omega

/-- A long string is written to the place of the cursor, on a page that has room. -/
theorem Appended.of_write {f₁ f₂ : InMemOverflowFile} (hf₁ : f₁.WellFormed)
    (hreaches : f.cursor.Reaches f₁.cursor) (hnum : f₁.numPages ≤ f.numPages + 1)
    (hframe : ∀ a < f.cursor.pos, f₁.memory a = f.memory a)
    (hlong : ¬ chars.length ≤ shortStrLength)
    (hroom : f₁.nextOffsetInPageToAppend + chars.length ≤ defaultPageSize)
    (hpages : f₁.numPages ≤ 256 ^ 4) (hrest : f₂ = { f₁ with pages := f₂.pages })
    (hmemory : f₂.memory = overwrite f₁.memory
      (OverflowPtr.address ⟨f₁.nextPageIdxToAppend, f₁.nextOffsetInPageToAppend⟩) chars) :
    Appended f
      { f₂ with nextOffsetInPageToAppend := f₂.nextOffsetInPageToAppend + chars.length }
      (setOverflowPtr (makeString chars)
        ⟨f₁.nextPageIdxToAppend, f₁.nextOffsetInPageToAppend⟩) chars := by
  have hnextPage : f₂.nextPageIdxToAppend = f₁.nextPageIdxToAppend := by rw [hrest]
  have hnextOffset : f₂.nextOffsetInPageToAppend = f₁.nextOffsetInPageToAppend := by rw [hrest]
  have hnum₂ : f₂.numPages = f₁.numPages := by rw [hrest]
  have hpage := hf₁.numPages
  have hlength : 8 ≤ (makeString chars).length := by
    rw [length_makeString]
    decide
  have hencodable : OverflowPtr.Encodable
      ⟨f₁.nextPageIdxToAppend, f₁.nextOffsetInPageToAppend⟩ := by
    constructor
    · show f₁.nextPageIdxToAppend < 256 ^ 4
      omega
    · have hoffset := hf₁.offset_le
      simp only [defaultPageSize] at hoffset
      show f₁.nextOffsetInPageToAppend < 256 ^ 2
      omega
  have hpos : f.cursor.pos ≤
      OverflowPtr.address ⟨f₁.nextPageIdxToAppend, f₁.nextOffsetInPageToAppend⟩ := hreaches.pos
  refine ⟨⟨?_, ?_⟩, ⟨?_, ?_⟩, ?_, ?_, ?_, ?_⟩
  · rw [hnum₂, hnextPage, hpage]
  · show f₂.nextOffsetInPageToAppend + chars.length ≤ defaultPageSize
    rw [hnextOffset]
    exact hroom
  · show f.numPages ≤ f₂.numPages
    rw [hnum₂]
    exact hreaches.numPages
  · have hle := hreaches.pos
    show f.cursor.pos ≤ f₂.nextPageIdxToAppend * defaultPageSize +
      (f₂.nextOffsetInPageToAppend + chars.length)
    rw [hnextPage, hnextOffset]
    simp only [cursor] at hle ⊢
    omega
  · exact hnum₂.trans_le hnum
  · intro a ha
    show f₂.memory a = f.memory a
    rw [hmemory, overwrite_of_lt (ha.trans_le hpos), hframe a ha]
  · refine ⟨?_, ?_⟩
    · rw [take_setOverflowPtr (by decide) hlength, take_four_makeString]
      apply ofLittleEndian_littleEndian
      simp only [defaultPageSize] at hroom
      omega
    · rw [if_neg hlong, decodeOverflowPtr_setOverflowPtr hencodable hlength]
      refine ⟨⟨?_, hroom, Nat.zero_le _, ?_⟩, ?_⟩
      · show f₁.nextPageIdxToAppend < f₂.numPages
        omega
      · show f₁.nextPageIdxToAppend * defaultPageSize + f₁.nextOffsetInPageToAppend +
          chars.length ≤ f₂.nextPageIdxToAppend * defaultPageSize +
            (f₂.nextOffsetInPageToAppend + chars.length)
        rw [hnextPage, hnextOffset, Nat.add_assoc]
      · show readAt f₂.memory _ _ = _
        rw [hmemory]
        exact readAt_overwrite _ _ _
  · exact take_setOverflowPtr (Nat.le_refl 8) hlength

theorem wellFormed_addANewPageToAppend (hf : f.WellFormed) : f.addANewPageToAppend.WellFormed :=
  ⟨congrArg (· + 1) hf.numPages, Nat.zero_le _⟩

theorem reaches_addANewPageToAppend (hf : f.WellFormed) :
    f.cursor.Reaches f.addANewPageToAppend.cursor := by
  have hoffset := hf.offset_le
  refine ⟨Nat.le_succ _, ?_⟩
  show f.nextPageIdxToAppend * defaultPageSize + f.nextOffsetInPageToAppend ≤
    (f.nextPageIdxToAppend + 1) * defaultPageSize + 0
  rw [Nat.add_one_mul]
  omega

theorem memory_addANewPageToAppend (hf : f.WellFormed) :
    ∀ a < f.cursor.pos, f.addANewPageToAppend.memory a = f.memory a := by
  intro a ha
  have hoffset := hf.offset_le
  have hne : a / defaultPageSize ≠ f.numPages := by
    rw [hf.numPages]
    simp only [cursor, defaultPageSize] at ha hoffset ⊢
    omega
  have hpage : f.addANewPageToAppend.pages (a / defaultPageSize) = f.pages (a / defaultPageSize) :=
    Function.update_of_ne hne _ _
  exact congrFun hpage _

/-- A string of up to a page is appended, as long as the pages can be numbered. -/
theorem exists_appendString (hf : f.WellFormed) (hlength : chars.length ≤ defaultPageSize)
    (hpages : f.numPages < 256 ^ 4) :
    ∃ f' bytes, f.appendString chars = .ok (f', bytes) ∧ Appended f f' bytes chars := by
  by_cases hshort : chars.length ≤ shortStrLength
  · refine ⟨f, makeString chars, ?_, hf, ⟨Nat.le_refl _, Nat.le_refl _⟩, Nat.le_succ _,
      fun _ _ ↦ rfl, ⟨?_, ?_⟩, rfl⟩
    · simp only [appendString, hshort, if_true, Lib.pure_eq_ok]
    · rw [take_four_makeString]
      apply ofLittleEndian_littleEndian
      simp only [defaultPageSize] at hlength
      omega
    · rw [if_pos hshort, drop_four_makeString, if_pos hshort]
      exact List.take_left' rfl
  · by_cases hnew : f.nextOffsetInPageToAppend + chars.length ≥ defaultPageSize
    · have hf₁ := wellFormed_addANewPageToAppend hf
      have hpage : f.addANewPageToAppend.nextPageIdxToAppend < f.addANewPageToAppend.numPages :=
        hf₁.numPages.ge
      have hroom : f.addANewPageToAppend.nextOffsetInPageToAppend + chars.length ≤
          defaultPageSize := (Nat.zero_add _).le.trans hlength
      obtain ⟨f₂, hwrite, hrest, hmemory⟩ := exists_write hpage hroom
      refine ⟨_, _, ?_, Appended.of_write hf₁ (reaches_addANewPageToAppend hf) (Nat.le_refl _)
        (memory_addANewPageToAppend hf) hshort hroom hpages hrest hmemory⟩
      simp only [appendString, hshort, if_false, hnew, if_true, hwrite, Lib.ok_bind,
        Lib.pure_eq_ok]
    · have hpage : f.nextPageIdxToAppend < f.numPages := hf.numPages.ge
      obtain ⟨f₂, hwrite, hrest, hmemory⟩ := exists_write hpage (Nat.le_of_not_le hnew)
      refine ⟨_, _, ?_, Appended.of_write hf ⟨Nat.le_refl _, Nat.le_refl _⟩ (Nat.le_succ _)
        (fun _ _ ↦ rfl) hshort (Nat.le_of_not_le hnew) hpages.le hrest hmemory⟩
      simp only [appendString, hshort, if_false, hnew, hwrite, Lib.ok_bind, Lib.pure_eq_ok]

/-- A longer one is written over the end of its page. -/
theorem appendString_of_gt {f : InMemOverflowFile} {chars : List UInt8}
    (hlong : defaultPageSize < chars.length) :
    f.appendString chars = .error .invalidAccess := by
  have hshort : ¬ chars.length ≤ shortStrLength := by
    simp only [shortStrLength, defaultPageSize] at *
    omega
  have hpage : f.nextOffsetInPageToAppend + chars.length ≥ defaultPageSize := by omega
  have hroom : ¬ 0 + chars.length ≤ defaultPageSize := by omega
  simp only [appendString, hshort, if_false, hpage, if_true,
    write, addANewPageToAppend, hroom, and_false]
  rfl

end InMemOverflowFile

end Graphflow
