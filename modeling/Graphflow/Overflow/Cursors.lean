import Graphflow.Overflow.CopyValues

/-!
# Sequences of copies through cursors

Calls of `copyString` and `copyList` with a cursor for every thread, in any order.  Each thread
writes behind its cursor, on a page that no other thread has.  The elements of a list are written to
the page that the cursor has come to after what they point to has been copied; if that is not the
page where they have been reserved, the list is lost.
-/

namespace Graphflow

open Wal Storage Lib

inductive CopyCall
  | string (rawString : List UInt8)
  | list (childType : DataType) (listLiteral : List (Literal childType))

namespace CopyCall

def dataType : CopyCall → DataType
  | .string _ => .scalar .string
  | .list childType _ => .list childType

def literal : (call : CopyCall) → Literal call.dataType
  | .string rawString => rawString
  | .list _ listLiteral => listLiteral

end CopyCall

namespace InMemOverflowFile

def copy (f : InMemOverflowFile) (cursor : PageByteCursor) :
    CopyCall → Except Fault (InMemOverflowFile × PageByteCursor × List UInt8)
  | .string rawString => f.copyString cursor rawString
  | .list childType listLiteral => copyList childType f cursor listLiteral

variable {f f₁ f' : InMemOverflowFile} {cursor cursor' : PageByteCursor} {call : CopyCall}
  {n p o : ℕ} {bytes : List UInt8}

/-- Where the next bytes of a cursor go on their page. -/
def offsetFor (cursor : PageByteCursor) (n : ℕ) : ℕ :=
  if cursor.offsetInPage + n ≥ defaultPageSize ∨ cursor.pageIdx = none then 0
  else cursor.offsetInPage

/-- The bytes go behind the cursor, or to a new page. -/
inductive Landed (f : InMemOverflowFile) (cursor : PageByteCursor) :
    InMemOverflowFile → ℕ → ℕ → Prop
  | behind (p o : ℕ) (h : cursor = ⟨some p, o⟩) : Landed f cursor f p o
  | newPage : Landed f cursor f.addANewPage f.numPages 0

theorem exists_allocatePageIfNecessary (hn : n ≤ defaultPageSize) :
    ∃ f₁ p, f.allocatePageIfNecessary cursor n = (f₁, ⟨some p, offsetFor cursor n⟩) ∧
      Landed f cursor f₁ p (offsetFor cursor n) ∧ offsetFor cursor n + n ≤ defaultPageSize := by
  rw [allocatePageIfNecessary, offsetFor]
  split_ifs with hnew
  · exact ⟨_, _, rfl, .newPage, (Nat.zero_add n).le.trans hn⟩
  · rw [not_or] at hnew
    obtain ⟨p, hp⟩ := Option.ne_none_iff_exists'.mp hnew.2
    have hcursor : cursor = ⟨some p, cursor.offsetInPage⟩ := by
      rw [← hp]
    refine ⟨f, p, ?_, .behind p _ hcursor, (Nat.not_le.mp hnew.1).le⟩
    rw [← hcursor]

/-- The file and the cursor after a call, with the bytes that it has returned. -/
inductive Copied (f : InMemOverflowFile) (cursor : PageByteCursor) (dataType : DataType)
    (value : Literal dataType) : InMemOverflowFile → PageByteCursor → List UInt8 → Prop
  | nothing (bytes : List UInt8) (hstored : Stored f.memory 0 f.fileEnd dataType bytes value)
      (hregions : regionsOf f.memory dataType bytes = []) :
      Copied f cursor dataType value f cursor bytes
  | landed (f₁ f' : InMemOverflowFile) (p o n : ℕ) (bytes : List UInt8)
      (hlanded : Landed f cursor f₁ p o) (hinside : o + n ≤ defaultPageSize)
      (h : CopiedAt f₁ f' p o n dataType bytes value) :
      Copied f cursor dataType value f' ⟨some p, o + n⟩ bytes

/-- Every page of a cursor is one of the file. -/
def HasPage (f : InMemOverflowFile) (cursor : PageByteCursor) : Prop :=
  ∀ p, cursor.pageIdx = some p → p < f.numPages

theorem Landed.lt (h : Landed f cursor f₁ p o) (hcursor : f.HasPage cursor) : p < f₁.numPages := by
  cases h with
  | behind p o h => exact hcursor p (by rw [h])
  | newPage => exact Nat.lt_succ_self _

theorem Landed.numPages_le (h : Landed f cursor f₁ p o) (hpages : f.numPages < 256 ^ 4) :
    f₁.numPages ≤ 256 ^ 4 := by
  cases h with
  | behind p o h => exact hpages.le
  | newPage => exact hpages

/-- The elements of a list and what they point to fit on the page where the elements are reserved,
or they point to nothing. -/
def StaysOnPage (cursor : PageByteCursor) : CopyCall → Prop
  | .string _ => True
  | .list childType listLiteral =>
      ∀ elementSize, childType.typeID.getDataTypeSize = .ok elementSize →
        FitsAt (offsetFor cursor (listLiteral.length * elementSize) +
          listLiteral.length * elementSize) (numBytesOfElements childType listLiteral)

theorem exists_copy (hcursor : f.HasPage cursor) (hpages : f.numPages < 256 ^ 4)
    (hadmitted : Literal.Admitted call.dataType call.literal)
    (hnonempty : Literal.NoEmptyList call.dataType call.literal)
    (hstays : StaysOnPage cursor call) :
    ∃ f' cursor' bytes, f.copy cursor call = .ok (f', cursor', bytes) ∧
      Copied f cursor call.dataType call.literal f' cursor' bytes := by
  cases call with
  | string chars =>
      by_cases hshort : chars.length ≤ shortStrLength
      · obtain ⟨hstored, hregions⟩ := stored_short f.memory f.fileEnd hshort
        refine ⟨f, cursor, makeString chars, ?_, .nothing _ hstored hregions⟩
        simp only [copy, copyString, hshort, if_true, Lib.pure_eq_ok]
      · have hlength : chars.length ≤ defaultPageSize := hadmitted.2
        obtain ⟨f₁, p, hallocate, hlanded, hinside⟩ :=
          @exists_allocatePageIfNecessary f cursor _ hlength
        obtain ⟨f', hwrite, hcopied⟩ := exists_write_string hshort (hlanded.lt hcursor)
          (hlanded.numPages_le hpages) hinside
        exact ⟨f', _, _, copyString_of_allocated hshort hallocate hwrite,
          .landed f₁ f' p _ _ _ hlanded hinside hcopied⟩
  | list childType values =>
      obtain ⟨elementSize, hsize, hlt⟩ : ∃ elementSize,
          childType.typeID.getDataTypeSize = .ok elementSize ∧
            values.length * elementSize < defaultPageSize := hadmitted.1
      obtain ⟨f₁, p, hallocate, hlanded, hinside⟩ :=
        @exists_allocatePageIfNecessary f cursor _ hlt.le
      have hp := hlanded.lt hcursor
      have hpages₁ := hlanded.numPages_le hpages
      have hfits := hstays elementSize hsize
      obtain ⟨f', hcopy, helements⟩ := copiesElements p childType values hadmitted hnonempty f₁ _
        elementSize hsize hp hpages₁ hinside hfits
      refine ⟨f', _, _, copyList_of_allocated hnonempty.1 hsize hallocate hcopy, ?_⟩
      rw [Nat.add_assoc]
      refine .landed f₁ f' p _ _ _ hlanded ?_ (helements.copiedAt hsize hp hpages₁ hinside)
      rcases hfits with h | h <;> omega

end InMemOverflowFile

/-! ## Runs -/

open InMemOverflowFile

/-- The file, the cursors of the threads, and the calls with the bytes that they have returned. -/
structure Copies where
  file : InMemOverflowFile := {}
  cursors : ℕ → PageByteCursor := fun _ ↦ {}
  returned : List (CopyCall × List UInt8) := []

namespace Copies

variable {s s' : Copies} {thread : ℕ} {call : CopyCall} {calls : List (ℕ × CopyCall)}

/-- A thread makes a call with its cursor. -/
def step (s : Copies) (call : ℕ × CopyCall) : Option Copies :=
  match s.file.copy (s.cursors call.1) call.2 with
  | .ok (file, cursor, bytes) =>
      some ⟨file, Function.update s.cursors call.1 cursor, s.returned ++ [(call.2, bytes)]⟩
  | .error _ => none

/-- The bytes that reading the values visits. -/
def regions (s : Copies) : List Region :=
  s.returned.flatMap fun w ↦ regionsOf s.file.memory w.1.dataType w.2

/-- With the pages that `flush` writes all values can be read, each in bytes of its own. -/
structure RoundTrips (s : Copies) : Prop where
  readsBack : ∀ w ∈ s.returned,
    OverflowFile.readLiterals s.file.getPage w.1.dataType w.2 = .ok w.1.literal
  inside : ∀ r ∈ s.regions, r.1.pagePos + r.2 ≤ defaultPageSize
  disjoint : s.regions.Pairwise OverflowFile.Disjoint

/-- A value that the reader of the CSV file lets pass, in a file whose pages can be numbered. -/
structure Admits (s : Copies) (call : ℕ × CopyCall) : Prop where
  admitted : Literal.Admitted call.2.dataType call.2.literal
  pages : s.file.numPages < 256 ^ 4

/-- No list is empty, and what the elements of a list point to fits on their page. -/
structure Safe (s : Copies) (call : ℕ × CopyCall) : Prop where
  noEmptyList : Literal.NoEmptyList call.2.dataType call.2.literal
  staysOnPage : StaysOnPage (s.cursors call.1) call.2

/-- Every thread has a page of its own, and all that has been written stands outside of what is free
there. -/
structure Inv (s : Copies) : Prop where
  hasPage : ∀ i, s.file.HasPage (s.cursors i)
  distinct : ∀ i j p, (s.cursors i).pageIdx = some p → (s.cursors j).pageIdx = some p → i = j
  admitted : ∀ w ∈ s.returned, Literal.Admitted w.1.dataType w.1.literal
  stored : ∀ w ∈ s.returned, Stored s.file.memory 0 s.file.fileEnd w.1.dataType w.2 w.1.literal
  within : ∀ r ∈ s.regions, r.Within 0 (s.file.numPages * defaultPageSize)
  notFree : ∀ r ∈ s.regions, ∀ i p, (s.cursors i).pageIdx = some p →
    r.1.address + r.2 ≤ p * defaultPageSize + (s.cursors i).offsetInPage ∨
      (p + 1) * defaultPageSize ≤ r.1.address
  disjoint : s.regions.Pairwise OverflowFile.Disjoint

theorem Inv.roundTrips (hs : s.Inv) : s.RoundTrips := by
  have hpin : ∀ p < s.file.fileEnd.numPages, s.file.getPage p = some (s.file.pages p) :=
    fun p hp ↦ if_pos hp
  refine ⟨?_, fun r hr ↦ (hs.within r hr).inside, hs.disjoint⟩
  intro w hw
  exact OverflowFile.readLiterals_of_stored hpin _ _ _ (hs.admitted w hw) (hs.stored w hw)

/-- What has been written before a call is not written over. -/
theorem Inv.agree_landed (hs : s.Inv) {f₁ f' : InMemOverflowFile} {p o n : ℕ}
    (hlanded : Landed s.file (s.cursors thread) f₁ p o) (hinside : o + n ≤ defaultPageSize)
    (hchanged : ChangedAt f₁ f' p o n) :
    ∀ r ∈ s.regions, r.Agree s.file.memory f'.memory ∧
      (r.1.address + r.2 ≤ p * defaultPageSize + o ∨ (p + 1) * defaultPageSize ≤ r.1.address) := by
  intro r hr
  have hwithin := (hs.within r hr).address_le
  cases hlanded with
  | behind p o hcursor =>
      have hfree : r.1.address + r.2 ≤ p * defaultPageSize + o ∨
          (p + 1) * defaultPageSize ≤ r.1.address := by
        have hfree := hs.notFree r hr thread p (by rw [hcursor])
        rwa [hcursor] at hfree
      refine ⟨hchanged.agree ?_, hfree⟩
      rw [Nat.add_one_mul] at hfree
      omega
  | newPage =>
      refine ⟨fun a hle hlt ↦ ?_, Or.inl (hwithin.trans (Nat.le_add_right _ _))⟩
      rw [hchanged.frame a (Or.inl (by omega))]
      have hpage : a / defaultPageSize ≠ s.file.numPages := by
        simp only [defaultPageSize] at hwithin ⊢
        omega
      have hpages : s.file.addANewPage.pages (a / defaultPageSize) =
          s.file.pages (a / defaultPageSize) := Function.update_of_ne hpage _ _
      exact congrFun hpages _

theorem Landed.numPages_mono {f f₁ : InMemOverflowFile} {cursor : PageByteCursor} {p o : ℕ}
    (h : Landed f cursor f₁ p o) : f.numPages ≤ f₁.numPages := by
  cases h with
  | behind p o h => exact Nat.le_refl _
  | newPage => exact Nat.le_succ _

/-- A value has been copied behind the cursor of a thread, or to a new page. -/
theorem Inv.of_landed (hs : s.Inv) (hadmitted : Literal.Admitted call.dataType call.literal)
    {f₁ f' : InMemOverflowFile} {p o n : ℕ} {bytes : List UInt8}
    (hlanded : Landed s.file (s.cursors thread) f₁ p o) (hinside : o + n ≤ defaultPageSize)
    (h : CopiedAt f₁ f' p o n call.dataType bytes call.literal) :
    Inv ⟨f', Function.update s.cursors thread ⟨some p, o + n⟩, s.returned ++ [(call, bytes)]⟩ := by
  have hagree := hs.agree_landed hlanded hinside h.changed
  have hpages : s.file.numPages ≤ f'.numPages := by
    rw [h.changed.numPages]
    exact Landed.numPages_mono hlanded
  have hp : p < f'.numPages := by
    rw [h.changed.numPages]
    exact hlanded.lt (hs.hasPage thread)
  have hreaches : s.file.fileEnd.Reaches f'.fileEnd :=
    ⟨hpages, Nat.mul_le_mul_right _ hpages⟩
  have hold : s.returned.flatMap (fun w ↦ regionsOf f'.memory w.1.dataType w.2) = s.regions := by
    rw [regions, List.flatMap, List.flatMap]
    congr 1
    apply List.map_congr_left
    intro w hw
    apply regionsOf_congr
    intro r hr
    exact (hagree r (List.mem_flatMap.mpr ⟨w, hw, hr⟩)).1
  have hregions : regions ⟨f', Function.update s.cursors thread ⟨some p, o + n⟩,
      s.returned ++ [(call, bytes)]⟩ = s.regions ++ regionsOf f'.memory call.dataType bytes := by
    rw [← hold, regions, List.flatMap_append, List.flatMap_singleton]
  have hother : ∀ i, i ≠ thread → (s.cursors i).pageIdx ≠ some p := by
    intro i hi hpage
    cases hlanded with
    | behind p o hcursor => exact hi (hs.distinct i thread p hpage (by rw [hcursor]))
    | newPage => exact absurd (hs.hasPage i _ hpage) (Nat.lt_irrefl _)
  have hend : p * defaultPageSize + o + n ≤ f'.numPages * defaultPageSize := by
    have hle : (p + 1) * defaultPageSize ≤ f'.numPages * defaultPageSize :=
      Nat.mul_le_mul_right _ hp
    rw [Nat.add_one_mul] at hle
    omega
  refine ⟨?_, ?_, ?_, ?_, ?_, ?_, ?_⟩
  · intro i q hq
    by_cases hi : i = thread
    · rw [hi] at hq
      simp only [Function.update_self, Option.some.injEq] at hq
      exact hq ▸ hp
    · simp only [Function.update_of_ne hi] at hq
      exact (hs.hasPage i q hq).trans_le hpages
  · intro i j q hi hj
    by_cases hi' : i = thread <;> by_cases hj' : j = thread
    · exact hi'.trans hj'.symm
    · rw [hi'] at hi
      simp only [Function.update_self, Option.some.injEq] at hi
      simp only [Function.update_of_ne hj'] at hj
      exact absurd (hi ▸ hj) (hother j hj')
    · rw [hj'] at hj
      simp only [Function.update_self, Option.some.injEq] at hj
      simp only [Function.update_of_ne hi'] at hi
      exact absurd (hj ▸ hi) (hother i hi')
    · simp only [Function.update_of_ne hi', Function.update_of_ne hj'] at hi hj
      exact hs.distinct i j q hi hj
  · intro w hw
    rcases List.mem_append.mp hw with hw | hw
    · exact hs.admitted w hw
    · obtain rfl := List.mem_singleton.mp hw
      exact hadmitted
  · intro w hw
    rcases List.mem_append.mp hw with hw | hw
    · apply (hs.stored w hw).congr hreaches
      intro r hr
      exact (hagree r (List.mem_flatMap.mpr ⟨w, hw, hr⟩)).1
    · obtain rfl := List.mem_singleton.mp hw
      exact h.stored
  · intro r hr
    rw [hregions, List.mem_append] at hr
    rcases hr with hr | hr
    · exact (hs.within r hr).mono (Nat.le_refl 0) (Nat.mul_le_mul_right _ hpages)
    · exact (h.within r hr).mono (Nat.zero_le _) hend
  · intro r hr i q hq
    rw [hregions, List.mem_append] at hr
    by_cases hi : i = thread
    · rw [hi] at hq ⊢
      simp only [Function.update_self, Option.some.injEq] at hq ⊢
      subst hq
      rcases hr with hr | hr
      · rcases (hagree r hr).2 with hle | hle
        · left
          omega
        · exact Or.inr hle
      · left
        have hle := (h.within r hr).address_le
        omega
    · simp only [Function.update_of_ne hi] at hq ⊢
      rcases hr with hr | hr
      · exact hs.notFree r hr i q hq
      · have hlow := (h.within r hr).le_address
        have hhigh := (h.within r hr).address_le
        have hne : q ≠ p := fun heq ↦ hother i hi (heq ▸ hq)
        rcases Nat.lt_or_gt_of_ne hne with hlt | hgt
        · right
          have hle : (q + 1) * defaultPageSize ≤ p * defaultPageSize :=
            Nat.mul_le_mul_right _ hlt
          omega
        · left
          have hle : (p + 1) * defaultPageSize ≤ q * defaultPageSize :=
            Nat.mul_le_mul_right _ hgt
          rw [Nat.add_one_mul] at hle
          omega
  · rw [hregions, List.pairwise_append]
    refine ⟨hs.disjoint, h.disjoint, ?_⟩
    intro r hr r' hr'
    have hlow := (h.within r' hr').le_address
    have hhigh := (h.within r' hr').address_le
    rcases (hagree r hr).2 with hle | hle
    · exact Or.inl (hle.trans hlow)
    · right
      rw [Nat.add_one_mul] at hle
      omega

/-- A value that needs no page has been copied. -/
theorem Inv.of_nothing (hs : s.Inv) (hadmitted : Literal.Admitted call.dataType call.literal)
    {bytes : List UInt8}
    (hstored : Stored s.file.memory 0 s.file.fileEnd call.dataType bytes call.literal)
    (hnil : regionsOf s.file.memory call.dataType bytes = []) :
    Inv ⟨s.file, s.cursors, s.returned ++ [(call, bytes)]⟩ := by
  have hregions : regions ⟨s.file, s.cursors, s.returned ++ [(call, bytes)]⟩ = s.regions := by
    rw [regions, List.flatMap_append, List.flatMap_singleton, hnil, List.append_nil]
    rfl
  refine ⟨hs.hasPage, hs.distinct, ?_, ?_, ?_, ?_, ?_⟩
  · intro w hw
    rcases List.mem_append.mp hw with hw | hw
    · exact hs.admitted w hw
    · obtain rfl := List.mem_singleton.mp hw
      exact hadmitted
  · intro w hw
    rcases List.mem_append.mp hw with hw | hw
    · exact hs.stored w hw
    · obtain rfl := List.mem_singleton.mp hw
      exact hstored
  · rw [hregions]
    exact hs.within
  · rw [hregions]
    exact hs.notFree
  · rw [hregions]
    exact hs.disjoint

theorem Inv.step (hs : s.Inv) (hadmits : s.Admits (thread, call)) (hsafe : s.Safe (thread, call)) :
    ∃ s', s.step (thread, call) = some s' ∧ s'.Inv := by
  obtain ⟨f', cursor', bytes, hcopy, hcopied⟩ := exists_copy (hs.hasPage thread) hadmits.pages
    hadmits.admitted hsafe.noEmptyList hsafe.staysOnPage
  refine ⟨⟨f', Function.update s.cursors thread cursor', s.returned ++ [(call, bytes)]⟩, ?_, ?_⟩
  · simp only [Copies.step, hcopy]
  · cases hcopied with
    | nothing bytes hstored hregions =>
        rw [Function.update_eq_self]
        exact hs.of_nothing hadmits.admitted hstored hregions
    | landed f₁ f' p o n bytes hlanded hinside h =>
        exact hs.of_landed hadmits.admitted hlanded hinside h

theorem inv_start : Inv {} := by
  have hregions : regions {} = [] := rfl
  refine ⟨fun _ _ hp ↦ absurd hp (Option.some_ne_none _).symm,
    fun _ _ _ hp ↦ absurd hp (Option.some_ne_none _).symm,
    fun _ hw ↦ absurd hw List.not_mem_nil, fun _ hw ↦ absurd hw List.not_mem_nil, ?_, ?_, ?_⟩
  · rw [hregions]
    exact fun r hr ↦ absurd hr List.not_mem_nil
  · rw [hregions]
    exact fun r hr ↦ absurd hr List.not_mem_nil
  · rw [hregions]
    exact List.Pairwise.nil

/-- If no list is empty and what the elements of a list point to fits on their page, then every call
succeeds, all values are read back from the pages, and none overlaps another. -/
theorem exists_run_roundTrips_copies (calls : List (ℕ × CopyCall))
    (hcalls : MeetsAlong step (fun s call ↦ s.Admits call ∧ s.Safe call) {} calls) :
    ∃ s, run step {} calls = some s ∧ s.RoundTrips := by
  obtain ⟨s, hrun, hs⟩ := exists_run_of_meets
    (fun s call hs hcall ↦ hs.step hcall.1 hcall.2) inv_start hcalls
  exact ⟨s, hrun, hs.roundTrips⟩

/-- A string of 13 characters. -/
def thirteenChars : List UInt8 := List.replicate 13 97

theorem exists_run_roundTrips_copies_twoThreads :
    ∃ s, run step {} [(0, .list (.scalar .string) [thirteenChars]), (1, .string thirteenChars)] =
      some s ∧ s.RoundTrips := by
  apply exists_run_roundTrips_copies
  refine ⟨⟨⟨⟨⟨16, rfl, by decide⟩, ?_⟩, by decide⟩, ⟨?_, ?_⟩⟩, ?_⟩
  · intro value hvalue
    obtain rfl := List.mem_singleton.mp hvalue
    exact ⟨by decide, by decide⟩
  · exact ⟨List.cons_ne_nil _ _, fun _ _ ↦ trivial⟩
  · intro elementSize hsize
    obtain rfl : 16 = elementSize := Except.ok.inj hsize
    exact Or.inr (by decide)
  · intro s hs
    obtain rfl := Option.some.inj hs
    have hadmitted : 0 ∉ thirteenChars ∧ thirteenChars.length ≤ defaultPageSize := by decide
    exact ⟨⟨⟨hadmitted, by decide⟩, ⟨trivial, trivial⟩⟩, fun _ _ ↦ trivial⟩

/-- A list with one string that takes almost a page. -/
def longString : CopyCall := .list (.scalar .string) [List.replicate 4090 97]

set_option maxRecDepth 100000 in
theorem longString_lost : Admits {} (0, longString) ∧
    ¬ ∃ s, run step {} [(0, longString)] = some s ∧ s.RoundTrips := by
  constructor
  · refine ⟨⟨⟨16, rfl, by decide⟩, ?_⟩, by decide⟩
    intro value hvalue
    obtain rfl := List.mem_singleton.mp hvalue
    have hadmitted : 0 ∉ List.replicate 4090 (97 : UInt8) ∧
        (List.replicate 4090 (97 : UInt8)).length ≤ defaultPageSize := by
      rw [List.length_replicate, List.mem_replicate]
      decide
    exact hadmitted
  · rintro ⟨s, hs, hroundTrips⟩
    obtain rfl := Option.some.inj hs
    have hread := hroundTrips.readsBack _ List.mem_cons_self
    have hempty : [[]] = [List.replicate 4090 (97 : UInt8)] := Except.ok.inj hread
    exact absurd (congrArg (List.map List.length) hempty) (by simp)

end Copies

end Graphflow
