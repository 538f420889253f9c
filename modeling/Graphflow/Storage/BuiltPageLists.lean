import Graphflow.Storage.CopiedPageLists

/-!
# Page lists as they are built

`ListsMetadataBuilder` writes each page list into consecutive groups of an array in memory, and
`getPageIdxFromAPageList` walks through the groups by their links.  Here all positions, links and
page indices have 32 bits as in the code, so that an array that grows too long wraps around.
-/

namespace Graphflow.Storage

open Lib

def numPageIdxsPerArrayPage : ℕ := 1024

/-- `InMemDiskArrayBuilder<page_idx_t>`, with its array pages one behind the other. -/
structure PageListsArray where
  numElements : ℕ := 0
  numAPs : ℕ := 0
  inMemArrayPages : List UInt32 := []

/-- The arguments of `populatePageIdsInAPageList`, which stand for the page IDs from
`startPageId` on. -/
structure PageIds where
  numPages : UInt32
  startPageId : UInt32

namespace PageListsArray

variable {b b' b'' : PageListsArray} {head idx lo mid hi n : ℕ} {vals vals' : ℕ → UInt32}

def getNumArrayPagesNeededForElements (numElements : ℕ) : ℕ :=
  numElements / numPageIdxsPerArrayPage + if numElements % numPageIdxsPerArrayPage > 0 then 1 else 0

def setNewNumElementsAndIncreaseCapacityIfNeeded (b : PageListsArray) (newNumElements : ℕ) :
    PageListsArray :=
  let newNumAPs := getNumArrayPagesNeededForElements newNumElements
  { numElements := newNumElements
    numAPs := newNumAPs
    inMemArrayPages :=
      b.inMemArrayPages ++ List.replicate (numPageIdxsPerArrayPage * (newNumAPs - b.numAPs)) 0 }

/-- `operator[]`, whose assertion looks at the number of array pages. -/
def read (b : PageListsArray) (idx : ℕ) : Except ListsFault UInt32 :=
  if idx / numPageIdxsPerArrayPage < b.numAPs then .ok (b.inMemArrayPages.getD idx 0)
  else .error .assertionFailed

def write (b : PageListsArray) (val : UInt32) (idx : ℕ) : Except ListsFault PageListsArray :=
  if idx / numPageIdxsPerArrayPage < b.numAPs then
    .ok { b with inMemArrayPages := b.inMemArrayPages.set idx val }
  else .error .assertionFailed

/-- The loop of `getPageIdxFromAPageList`. -/
def getPageIdxFromAPageList (b : PageListsArray) (pageListGroupHeadIdx idxInPageList : UInt32) :
    Except ListsFault UInt32 :=
  if 3 ≤ idxInPageList then do
    let next ← b.read (pageListGroupHeadIdx + 3).toNat
    b.getPageIdxFromAPageList next (idxInPageList - 3)
  else b.read (pageListGroupHeadIdx + idxInPageList).toNat
termination_by idxInPageList.toNat
decreasing_by
  rename_i hle
  rw [UInt32.toNat_sub_of_le _ _ hle]
  have h3 : (3 : UInt32).toNat = 3 := rfl
  have hle' : (3 : UInt32).toNat ≤ idxInPageList.toNat := UInt32.le_iff_toNat_le.mp hle
  omega

/-- The entries `m, …, m + n - 1` of the group at `pageListHeadIdx`. -/
def writeEntries (b : PageListsArray) (pageListHeadIdx : UInt32) (val : ℕ → UInt32) (m n : ℕ) :
    Except ListsFault PageListsArray :=
  (List.range' m n).foldlM
    (fun b j ↦ b.write (val j) (pageListHeadIdx + UInt32.ofNat j).toNat) b

/-- One turn of the loop of `populatePageIdsInAPageList`. -/
def populateGroup (b : PageListsArray) (pageListHeadIdx numPages startPageId : UInt32) :
    Except ListsFault PageListsArray := do
  let numPagesInThisGroup := min 3 numPages
  let b ← b.writeEntries pageListHeadIdx (fun j ↦ startPageId + UInt32.ofNat j) 0
    numPagesInThisGroup.toNat
  let b ← b.writeEntries pageListHeadIdx (fun _ ↦ nullPageIdx) numPagesInThisGroup.toNat
    (3 - numPagesInThisGroup.toNat)
  b.write (if numPages - numPagesInThisGroup = 0 then nullPageIdx else 1 + (pageListHeadIdx + 3))
    (pageListHeadIdx + 3).toNat

def populateGroups : ℕ → PageListsArray → UInt32 → UInt32 → UInt32 →
    Except ListsFault PageListsArray
  | 0, b, _, _, _ => .ok b
  | numPageListGroups + 1, b, pageListHeadIdx, numPages, startPageId => do
      let numPagesInThisGroup := min 3 numPages
      let b ← b.populateGroup pageListHeadIdx numPages startPageId
      populateGroups numPageListGroups b (pageListHeadIdx + 3 + 1) (numPages - numPagesInThisGroup)
        (startPageId + numPagesInThisGroup)

def populatePageIdsInAPageList (b : PageListsArray) (numPages startPageId : UInt32) :
    Except ListsFault PageListsArray :=
  let numPageListGroups := if 0 ≠ numPages % 3 then numPages / 3 + 1 else numPages / 3
  let pageListHeadIdx := UInt32.ofNat b.numElements
  let pageListTailIdx := pageListHeadIdx + 4 * numPageListGroups
  populateGroups numPageListGroups.toNat
    (b.setNewNumElementsAndIncreaseCapacityIfNeeded pageListTailIdx.toNat) pageListHeadIdx numPages
    startPageId

/-- `populateChunkPageList`: what is kept of a page list is its head, and an empty one has none. -/
def populateChunkPageList (b : PageListsArray) (pages : PageIds) :
    Except ListsFault (PageListsArray × UInt32) :=
  if pages.numPages = 0 then .ok (b, nullPageIdx)
  else do
    let head := UInt32.ofNat b.numElements
    let b ← b.populatePageIdsInAPageList pages.numPages pages.startPageId
    return (b, head)

/-- Page lists one after another, with their heads. -/
def populateChunkPageLists : PageListsArray → List PageIds →
    Except ListsFault (PageListsArray × List UInt32)
  | b, [] => .ok (b, [])
  | b, pages :: rest => do
      let (b, head) ← b.populateChunkPageList pages
      let (b, heads) ← b.populateChunkPageLists rest
      return (b, head :: heads)

/-- Following the links from `head` leads through the groups and ends. -/
def Linked (b : PageListsArray) : UInt32 → List UInt32 → Prop
  | head, [] => head = nullPageIdx
  | head, g :: groups => head = g ∧ g ≠ nullPageIdx ∧
      ∃ next, b.read (g + 3).toNat = .ok next ∧ b.Linked next groups

/-- The page lists behave as lists. -/
def PopulatesLists (lists : List PageIds) : Prop :=
  ∃ (b : PageListsArray) (heads : List UInt32) (groups : ℕ → List UInt32),
    populateChunkPageLists {} lists = .ok (b, heads) ∧
    (∀ k pages, lists[k]? = some pages → ∃ head, heads[k]? = some head ∧
      b.Linked head (groups k) ∧ ∀ i < pages.numPages,
        b.getPageIdxFromAPageList head i = .ok (pages.startPageId + i)) ∧
    ∀ (k j : ℕ) (g r : UInt32) (k' j' : ℕ) (g' r' : UInt32), (groups k)[j]? = some g →
      (groups k')[j']? = some g' → r ≤ 3 → r' ≤ 3 → g + r = g' + r' → k = k' ∧ j = j' ∧ r = r'

/-! ## Writing one group -/

/-- Between `lo` and `hi` the array has got new words, and all else is as before. -/
structure Written (b b' : PageListsArray) (lo hi : ℕ) (vals : ℕ → UInt32) : Prop where
  numElements : b'.numElements = b.numElements
  numAPs : b'.numAPs = b.numAPs
  length : b'.inMemArrayPages.length = b.inMemArrayPages.length
  new : ∀ i, lo ≤ i → i < hi → b'.inMemArrayPages[i]? = some (vals i)
  old : ∀ i, ¬(lo ≤ i ∧ i < hi) → b'.inMemArrayPages[i]? = b.inMemArrayPages[i]?

theorem written_refl (b : PageListsArray) (lo : ℕ) (vals : ℕ → UInt32) :
    Written b b lo lo vals where
  numElements := rfl
  numAPs := rfl
  length := rfl
  new := fun _ hle hlt ↦ absurd hlt (Nat.not_lt.mpr hle)
  old := fun _ _ ↦ rfl

theorem Written.trans (h : Written b b' lo mid vals) (h' : Written b' b'' mid hi vals)
    (hlo : lo ≤ mid) (hhi : mid ≤ hi) : Written b b'' lo hi vals where
  numElements := h'.numElements.trans h.numElements
  numAPs := h'.numAPs.trans h.numAPs
  length := h'.length.trans h.length
  new := by
    intro i hle hlt
    by_cases hmid : mid ≤ i
    · exact h'.new i hmid hlt
    · rw [h'.old i (by omega)]
      exact h.new i hle (by omega)
  old := by
    intro i hout
    rw [h'.old i (by omega)]
    exact h.old i (by omega)

theorem Written.congr (h : Written b b' lo hi vals)
    (heq : ∀ i, lo ≤ i → i < hi → vals i = vals' i) : Written b b' lo hi vals' :=
  { h with new := fun i hle hlt ↦ (h.new i hle hlt).trans (congrArg some (heq i hle hlt)) }

/-- The array pages have places for the first `n` elements. -/
structure HasRoom (b : PageListsArray) (n : ℕ) : Prop where
  length : n ≤ b.inMemArrayPages.length
  numAPs : n ≤ numPageIdxsPerArrayPage * b.numAPs

theorem Written.hasRoom (h : Written b b' lo hi vals) (hroom : b.HasRoom n) : b'.HasRoom n where
  length := h.length ▸ hroom.length
  numAPs := h.numAPs ▸ hroom.numAPs

theorem HasRoom.div_lt (h : b.HasRoom n) (hlt : idx < n) :
    idx / numPageIdxsPerArrayPage < b.numAPs := by
  have hle := h.numAPs
  apply Nat.div_lt_of_lt_mul
  omega

theorem HasRoom.read_eq_ok (h : b.HasRoom n) (hlt : idx < n) {val : UInt32}
    (hval : b.inMemArrayPages[idx]? = some val) : b.read idx = .ok val := by
  rw [read, if_pos (h.div_lt hlt), List.getD_eq_getElem?_getD, hval]
  rfl

theorem HasRoom.exists_write (h : b.HasRoom n) (hlt : idx < n) (val : UInt32) :
    ∃ b', b.write val idx = .ok b' ∧ Written b b' idx (idx + 1) fun _ ↦ val := by
  have hlength := h.length
  refine ⟨_, if_pos (h.div_lt hlt), rfl, rfl, List.length_set .., ?_, ?_⟩
  · intro i hle hlt
    obtain rfl : i = idx := by omega
    exact List.getElem?_set_self (by omega)
  · intro i hi
    exact List.getElem?_set_ne (by omega)

/-- A position that is not too large is the same in 32 bits. -/
theorem toNat_ofNat_add {i j : ℕ} (h : i + j < 2 ^ 32) :
    (UInt32.ofNat i + UInt32.ofNat j).toNat = i + j := by
  rw [← UInt32.ofNat_add, UInt32.toNat_ofNat_of_lt' h]

theorem HasRoom.exists_writeEntries (h : b.HasRoom n) (hn : n < 2 ^ 32) (head : ℕ)
    (val : ℕ → UInt32) (m count : ℕ) (hle : head + (m + count) ≤ n) :
    ∃ b', b.writeEntries (UInt32.ofNat head) val m count = .ok b' ∧
      Written b b' (head + m) (head + (m + count)) fun i ↦ val (i - head) := by
  induction count with
  | zero => exact ⟨b, rfl, written_refl b _ _⟩
  | succ count ih =>
      obtain ⟨b₁, hinit, hwritten⟩ := ih (by omega)
      have hlt : head + (m + count) < n := by omega
      obtain ⟨b₂, hlast, hword⟩ := (hwritten.hasRoom h).exists_write hlt (val (m + count))
      refine ⟨b₂, ?_, ?_⟩
      · rw [writeEntries] at hinit ⊢
        rw [List.range'_1_concat, List.foldlM_append, hinit, ok_bind, List.foldlM_cons,
          toNat_ofNat_add (by omega), hlast]
        rfl
      · refine hwritten.trans (hword.congr ?_) (by omega) (by omega)
        intro i hle hlt
        obtain rfl : i = head + (m + count) := by omega
        rw [Nat.add_sub_cancel_left]

/-- The word at position `j` of the groups for `numPages` page IDs from `start` on, which begin at
`head`. -/
def groupWord (head numPages : ℕ) (start : UInt32) (j : ℕ) : UInt32 :=
  if j % 4 = 3 then
    if 3 * (j / 4 + 1) < numPages then UInt32.ofNat (head + (j + 1)) else nullPageIdx
  else
    if 3 * (j / 4) + j % 4 < numPages then start + UInt32.ofNat (3 * (j / 4) + j % 4)
    else nullPageIdx

/-- The words of the groups behind the first one. -/
theorem groupWord_succ (numPages : ℕ) (start : UInt32) (j : ℕ) (hpos : 3 < numPages) :
    groupWord (head + 4) (numPages - 3) (start + 3) j = groupWord head numPages start (j + 4) := by
  have hmod : (j + 4) % 4 = j % 4 := Nat.add_mod_right j 4
  have hdiv : (j + 4) / 4 = j / 4 + 1 := Nat.add_div_right j (by omega)
  have hlink : 3 * (j / 4 + 1) < numPages - 3 ↔ 3 * (j / 4 + 1 + 1) < numPages := by omega
  have hidx : 3 * (j / 4) + j % 4 < numPages - 3 ↔ 3 * (j / 4 + 1) + j % 4 < numPages := by omega
  have hhead : head + 4 + (j + 1) = head + (j + 4 + 1) := by omega
  have hsum : start + 3 + UInt32.ofNat (3 * (j / 4) + j % 4) =
      start + UInt32.ofNat (3 * (j / 4 + 1) + j % 4) := by
    have hnat : 3 * (j / 4 + 1) + j % 4 = 3 + (3 * (j / 4) + j % 4) := by omega
    rw [hnat, UInt32.ofNat_add 3, UInt32.add_assoc]
    rfl
  simp only [groupWord, hmod, hdiv, hlink, hidx, hhead, hsum]

theorem toNat_min_three (numPages : UInt32) :
    (min 3 numPages).toNat = min 3 numPages.toNat := by
  have hdef : min 3 numPages = if 3 ≤ numPages then 3 else numPages := rfl
  rw [hdef]
  split
  next hle => exact (Nat.min_eq_left (UInt32.le_iff_toNat_le.mp hle)).symm
  next hle =>
    have hlt := UInt32.lt_iff_toNat_lt.mp (UInt32.not_le.mp hle)
    exact (Nat.min_eq_right hlt.le).symm

theorem HasRoom.exists_populateGroup (h : b.HasRoom n) (hn : n < 2 ^ 32) (numPages start : UInt32)
    (hpos : 0 < numPages.toNat) (hle : head + 4 ≤ n) :
    ∃ b', b.populateGroup (UInt32.ofNat head) numPages start = .ok b' ∧
      Written b b' head (head + 4) fun i ↦ groupWord head numPages.toNat start (i - head) := by
  obtain ⟨m, hm⟩ : ∃ m, m = min 3 numPages := ⟨_, rfl⟩
  have hmin : m.toNat = min 3 numPages.toNat := hm ▸ toNat_min_three numPages
  have hrest : numPages - m = 0 ↔ ¬3 < numPages.toNat := by
    have hle' : m ≤ numPages := UInt32.le_iff_toNat_le.mpr (by omega)
    rw [← UInt32.toNat_inj, UInt32.toNat_sub_of_le _ _ hle', UInt32.toNat_zero]
    omega
  obtain ⟨b₁, hfirst, hwritten₁⟩ := h.exists_writeEntries hn head
    (fun j ↦ start + UInt32.ofNat j) 0 m.toNat (by omega)
  have hroom₁ := hwritten₁.hasRoom h
  obtain ⟨b₂, hsecond, hwritten₂⟩ := hroom₁.exists_writeEntries hn head
    (fun _ ↦ nullPageIdx) m.toNat (3 - m.toNat) (by omega)
  have hlt : head + 3 < n := by omega
  obtain ⟨b₃, hthird, hwritten₃⟩ := (hwritten₂.hasRoom hroom₁).exists_write hlt
    (if numPages - m = 0 then nullPageIdx else 1 + (UInt32.ofNat head + 3))
  have hlast : (UInt32.ofNat head + 3).toNat = head + 3 :=
    @toNat_ofNat_add head 3 (by omega)
  have hthree : m.toNat + (3 - m.toNat) = 3 := by omega
  refine ⟨b₃, ?_, ?_⟩
  · rw [populateGroup, ← hm, hfirst, ok_bind, hsecond, ok_bind, hlast, hthird]
  · rw [Nat.zero_add] at hwritten₁
    rw [hthree] at hwritten₂
    refine ((hwritten₁.congr ?_).trans (hwritten₂.congr ?_) (by omega) (by omega)).trans
      (hwritten₃.congr ?_) (by omega) (by omega)
    · intro i hle hlt
      have hi : i - head < 3 := by omega
      have hmod : (i - head) % 4 = i - head := Nat.mod_eq_of_lt (by omega)
      have hdiv : (i - head) / 4 = 0 := Nat.div_eq_of_lt (by omega)
      have hlt' : i - head < numPages.toNat := by omega
      simp only [groupWord, hmod, hdiv, Nat.mul_zero, Nat.zero_add, if_neg hi.ne, if_pos hlt']
    · intro i hle hlt
      have hi : i - head < 3 := by omega
      have hmod : (i - head) % 4 = i - head := Nat.mod_eq_of_lt (by omega)
      have hdiv : (i - head) / 4 = 0 := Nat.div_eq_of_lt (by omega)
      have hge : ¬i - head < numPages.toNat := by omega
      simp only [groupWord, hmod, hdiv, Nat.mul_zero, Nat.zero_add, if_neg hi.ne, if_neg hge]
    · intro i hle hlt
      obtain rfl : i = head + 3 := by omega
      have hlink : 1 + (UInt32.ofNat head + 3) = UInt32.ofNat (head + (3 + 1)) := by
        rw [UInt32.add_comm, UInt32.add_assoc, UInt32.ofNat_add head]
        rfl
      rw [Nat.add_sub_cancel_left, groupWord, if_pos rfl, hlink]
      by_cases hmore : 3 < numPages.toNat
      · rw [if_neg (fun hzero ↦ hrest.mp hzero hmore), if_pos hmore]
      · rw [if_pos (hrest.mpr hmore), if_neg hmore]

/-! ## Writing a page list -/

theorem HasRoom.exists_populateGroups (h : b.HasRoom n) (hn : n < 2 ^ 32) (numGroups head : ℕ)
    (numPages start : UInt32) (hgroups : numGroups = (numPages.toNat + 2) / 3)
    (hle : head + 4 * numGroups ≤ n) :
    ∃ b', populateGroups numGroups b (UInt32.ofNat head) numPages start = .ok b' ∧
      Written b b' head (head + 4 * numGroups) fun i ↦
        groupWord head numPages.toNat start (i - head) := by
  induction numGroups generalizing b head numPages start with
  | zero => exact ⟨b, rfl, written_refl b _ _⟩
  | succ numGroups ih =>
      have hpos : 0 < numPages.toNat := by omega
      obtain ⟨b₁, hfirst, hwritten₁⟩ := h.exists_populateGroup hn numPages start hpos
        (by omega : head + 4 ≤ n)
      obtain ⟨m, hm⟩ : ∃ m, m = min 3 numPages := ⟨_, rfl⟩
      have hhead : UInt32.ofNat head + 3 + 1 = UInt32.ofNat (head + 4) := by
        rw [UInt32.add_assoc, UInt32.ofNat_add head]
        rfl
      have hmin : m.toNat = min 3 numPages.toNat := hm ▸ toNat_min_three numPages
      have hsub : (numPages - m).toNat = numPages.toNat - m.toNat :=
        UInt32.toNat_sub_of_le _ _ (UInt32.le_iff_toNat_le.mpr (by omega))
      obtain ⟨b₂, hrest, hwritten₂⟩ := ih (hwritten₁.hasRoom h) (head + 4) (numPages - m)
        (start + m) (by omega) (by omega)
      refine ⟨b₂, ?_, ?_⟩
      · simp only [populateGroups, hfirst, ok_bind, ← hm, hhead, hrest]
      · have hend : head + 4 + 4 * numGroups = head + 4 * (numGroups + 1) := by omega
        rw [hend] at hwritten₂
        refine hwritten₁.trans (hwritten₂.congr ?_) (by omega) (by omega)
        intro i hle' hlt
        -- There is a group behind the first one only if that is full.
        have hmore : 3 < numPages.toNat := by omega
        have hfull : m = 3 := UInt32.toNat_inj.mp (by rw [hmin, Nat.min_eq_left hmore.le]; rfl)
        have hshift : i - head = i - (head + 4) + 4 := by omega
        rw [hsub, hfull, hshift]
        exact groupWord_succ _ _ _ hmore

/-- The array of a builder between two calls. -/
structure WellSized (b : PageListsArray) : Prop where
  groups : b.numElements % 4 = 0
  numElements_lt : b.numElements < 2 ^ 32
  numAPs : b.numAPs = getNumArrayPagesNeededForElements b.numElements
  length : b.inMemArrayPages.length = numPageIdxsPerArrayPage * b.numAPs

theorem wellSized_empty : WellSized {} := ⟨rfl, by decide, rfl, rfl⟩

theorem getNumArrayPagesNeededForElements_eq (n : ℕ) :
    getNumArrayPagesNeededForElements n = (n + 1023) / 1024 := by
  rw [getNumArrayPagesNeededForElements, numPageIdxsPerArrayPage]
  split <;> omega

theorem le_mul_getNumArrayPagesNeededForElements (n : ℕ) :
    n ≤ numPageIdxsPerArrayPage * getNumArrayPagesNeededForElements n := by
  rw [getNumArrayPagesNeededForElements_eq, numPageIdxsPerArrayPage]
  omega

theorem WellSized.hasRoom (h : b.WellSized) : b.HasRoom b.numElements := by
  have hle := le_mul_getNumArrayPagesNeededForElements b.numElements
  rw [← h.numAPs] at hle
  exact ⟨h.length ▸ hle, hle⟩

/-- A page list has got behind all others. -/
structure Appended (b b' : PageListsArray) (pages : PageIds) : Prop where
  wellSized : b'.WellSized
  numElements : b'.numElements = b.numElements +
    4 * ListsMetadataBuilder.getNumPageListGroups pages.numPages.toNat
  old : ∀ i < b.numElements, b'.inMemArrayPages[i]? = b.inMemArrayPages[i]?
  new : ∀ j < 4 * ListsMetadataBuilder.getNumPageListGroups pages.numPages.toNat,
    b'.inMemArrayPages[b.numElements + j]? =
      some (groupWord b.numElements pages.numPages.toNat pages.startPageId j)

theorem toNat_numPageListGroups (numPages : UInt32) :
    (if 0 ≠ numPages % 3 then numPages / 3 + 1 else numPages / 3).toNat =
      ListsMetadataBuilder.getNumPageListGroups numPages.toNat := by
  have hlt := numPages.toNat_lt
  have hmod : (numPages % 3).toNat = numPages.toNat % 3 := UInt32.toNat_mod ..
  have hdiv : (numPages / 3).toNat = numPages.toNat / 3 := UInt32.toNat_div ..
  have hsucc : (numPages / 3 + 1).toNat = numPages.toNat / 3 + 1 := by
    have hone : (1 : UInt32).toNat = 1 := rfl
    rw [UInt32.toNat_add, hdiv, hone]
    exact Nat.mod_eq_of_lt (by omega)
  rw [ListsMetadataBuilder.getNumPageListGroups_eq]
  by_cases hrest : 0 ≠ numPages % 3
  · rw [if_pos hrest, hsucc]
    have hne : numPages.toNat % 3 ≠ 0 := fun hzero ↦
      hrest (UInt32.toNat_inj.mp (hmod.trans hzero).symm)
    omega
  · have hzero : numPages.toNat % 3 = 0 := by rw [← hmod, ← not_not.mp hrest]; rfl
    rw [if_neg hrest, hdiv]
    omega

theorem WellSized.exists_populatePageIdsInAPageList (h : b.WellSized) (pages : PageIds)
    (hfits : b.numElements +
      4 * ListsMetadataBuilder.getNumPageListGroups pages.numPages.toNat < 2 ^ 32) :
    ∃ b', b.populatePageIdsInAPageList pages.numPages pages.startPageId = .ok b' ∧
      Appended b b' pages := by
  obtain ⟨numGroups, hnum⟩ :
      ∃ g, g = ListsMetadataBuilder.getNumPageListGroups pages.numPages.toNat := ⟨_, rfl⟩
  obtain ⟨n, hn⟩ : ∃ n, n = b.numElements + 4 * numGroups := ⟨_, rfl⟩
  rw [← hnum, ← hn] at hfits
  have hgroups := toNat_numPageListGroups pages.numPages
  rw [← hnum] at hgroups
  have htail : (UInt32.ofNat b.numElements + 4 * (if 0 ≠ pages.numPages % 3 then
      pages.numPages / 3 + 1 else pages.numPages / 3)).toNat = n := by
    rw [UInt32.toNat_add, UInt32.toNat_mul, hgroups, UInt32.toNat_ofNat_of_lt' h.numElements_lt]
    have hfour : (4 : UInt32).toNat = 4 := rfl
    rw [hfour, hn]
    omega
  have hneeded : getNumArrayPagesNeededForElements b.numElements ≤
      getNumArrayPagesNeededForElements n := by
    rw [getNumArrayPagesNeededForElements_eq, getNumArrayPagesNeededForElements_eq]
    omega
  obtain ⟨b₁, hb₁⟩ : ∃ b₁, b₁ = b.setNewNumElementsAndIncreaseCapacityIfNeeded n := ⟨_, rfl⟩
  have hwords : b₁.inMemArrayPages = b.inMemArrayPages ++ List.replicate
      (numPageIdxsPerArrayPage * (getNumArrayPagesNeededForElements n - b.numAPs)) 0 := by
    rw [hb₁]
    rfl
  have hlength : b₁.inMemArrayPages.length =
      numPageIdxsPerArrayPage * getNumArrayPagesNeededForElements n := by
    rw [hwords, List.length_append, List.length_replicate, h.length, ← Nat.mul_add, h.numAPs]
    congr 1
    omega
  have hroom : b₁.HasRoom n := by
    have hle := le_mul_getNumArrayPagesNeededForElements n
    exact ⟨hlength ▸ hle, hb₁ ▸ hle⟩
  have hdiv : numGroups = (pages.numPages.toNat + 2) / 3 :=
    hnum.trans (ListsMetadataBuilder.getNumPageListGroups_eq _)
  obtain ⟨b', hrun, hwritten⟩ := hroom.exists_populateGroups hfits numGroups b.numElements
    pages.numPages pages.startPageId hdiv hn.ge
  have hnumElements : b'.numElements = n := hwritten.numElements.trans (hb₁ ▸ rfl)
  have hnumAPs : b'.numAPs = getNumArrayPagesNeededForElements n :=
    hwritten.numAPs.trans (hb₁ ▸ rfl)
  refine ⟨b', ?_, ⟨?_, ?_, ?_, ?_⟩, ?_, ?_, ?_⟩
  · simp only [populatePageIdsInAPageList, hgroups, htail, ← hb₁, hrun]
  · rw [hnumElements, hn, Nat.add_mul_mod_self_left]
    exact h.groups
  · rwa [hnumElements]
  · rw [hnumAPs, hnumElements]
  · rw [hwritten.length, hlength, hnumAPs]
  · rw [hnumElements, hn, hnum]
  · intro i hi
    have hlt : i < b.inMemArrayPages.length := hi.trans_le h.hasRoom.length
    rw [hwritten.old i (by omega), hwords, List.getElem?_append_left hlt]
  · intro j hj
    rw [← hnum] at hj
    rw [hwritten.new _ (by omega) (by omega), Nat.add_sub_cancel_left]

/-! ## Reading a page list -/

/-- A page list stands at `head`. -/
structure Holds (b : PageListsArray) (head : ℕ) (pages : PageIds) : Prop where
  aligned : head % 4 = 0
  le : head + 4 * ListsMetadataBuilder.getNumPageListGroups pages.numPages.toNat ≤ b.numElements
  words : ∀ j < 4 * ListsMetadataBuilder.getNumPageListGroups pages.numPages.toNat,
    b.inMemArrayPages[head + j]? =
      some (groupWord head pages.numPages.toNat pages.startPageId j)

def groupHeads (head m numGroups : ℕ) : List UInt32 :=
  (List.range' m numGroups).map fun k ↦ UInt32.ofNat (head + 4 * k)

section Reading

variable {pages : PageIds} {k i : ℕ}

theorem Holds.append {pages' : PageIds} (h : b.Holds head pages) (h' : Appended b b' pages') :
    b'.Holds head pages where
  aligned := h.aligned
  le := h.le.trans (h'.numElements ▸ Nat.le_add_right _ _)
  words := by
    intro j hj
    have hle := h.le
    rw [h'.old _ (by omega)]
    exact h.words j hj

theorem Appended.holds (h : Appended b b' pages) (hb : b.WellSized) :
    b'.Holds b.numElements pages where
  aligned := hb.groups
  le := h.numElements.ge
  words := h.new

theorem Holds.read_eq_ok (h : b.Holds head pages) (hb : b.WellSized) {j : ℕ}
    (hj : j < 4 * ListsMetadataBuilder.getNumPageListGroups pages.numPages.toNat) :
    b.read (head + j) = .ok (groupWord head pages.numPages.toNat pages.startPageId j) := by
  have hle := h.le
  exact hb.hasRoom.read_eq_ok (by omega) (h.words j hj)

theorem Holds.lt (h : b.Holds head pages) (hb : b.WellSized)
    (hk : k < ListsMetadataBuilder.getNumPageListGroups pages.numPages.toNat) :
    head + 4 * k + 4 ≤ b.numElements ∧ b.numElements < 2 ^ 32 := by
  have hle := h.le
  exact ⟨by omega, hb.numElements_lt⟩

/-- The link of a group. -/
theorem Holds.read_next (h : b.Holds head pages) (hb : b.WellSized)
    (hk : k < ListsMetadataBuilder.getNumPageListGroups pages.numPages.toNat) :
    b.read (UInt32.ofNat (head + 4 * k) + 3).toNat =
      .ok (if k + 1 < ListsMetadataBuilder.getNumPageListGroups pages.numPages.toNat then
        UInt32.ofNat (head + 4 * (k + 1)) else nullPageIdx) := by
  obtain ⟨hle, hlt⟩ := h.lt hb hk
  have hidx : (UInt32.ofNat (head + 4 * k) + 3).toNat = head + (4 * k + 3) :=
    @toNat_ofNat_add (head + 4 * k) 3 (by omega)
  have hmod : (4 * k + 3) % 4 = 3 := by omega
  have hdiv : (4 * k + 3) / 4 = k := by omega
  have hiff : k + 1 < ListsMetadataBuilder.getNumPageListGroups pages.numPages.toNat ↔
      3 * (k + 1) < pages.numPages.toNat := by
    rw [ListsMetadataBuilder.getNumPageListGroups_eq]
    omega
  have hhead : head + (4 * k + 3 + 1) = head + 4 * (k + 1) := by omega
  rw [hidx, h.read_eq_ok hb (by omega), groupWord, if_pos hmod, hdiv, hhead]
  simp only [hiff]

theorem Holds.ne_nullPageIdx (h : b.Holds head pages) (hb : b.WellSized)
    (hk : k < ListsMetadataBuilder.getNumPageListGroups pages.numPages.toNat) :
    UInt32.ofNat (head + 4 * k) ≠ nullPageIdx := by
  obtain ⟨hle, hlt⟩ := h.lt hb hk
  intro heq
  have hnat : head + 4 * k = 4294967295 := by
    rw [← UInt32.toNat_ofNat_of_lt' (by omega : head + 4 * k < 2 ^ 32), heq]
    rfl
  have := h.aligned
  omega

/-- Following the links from group `k` on. -/
theorem Holds.linked (h : b.Holds head pages) (hb : b.WellSized) (numGroups k : ℕ)
    (hk : k + numGroups = ListsMetadataBuilder.getNumPageListGroups pages.numPages.toNat) :
    b.Linked (if 0 < numGroups then UInt32.ofNat (head + 4 * k) else nullPageIdx)
      (groupHeads head k numGroups) := by
  induction numGroups generalizing k with
  | zero => rfl
  | succ numGroups ih =>
      have hlt : k < ListsMetadataBuilder.getNumPageListGroups pages.numPages.toNat := by omega
      refine ⟨if_pos (Nat.succ_pos _), h.ne_nullPageIdx hb hlt, _, h.read_next hb hlt, ?_⟩
      have hiff : k + 1 < ListsMetadataBuilder.getNumPageListGroups pages.numPages.toNat ↔
          0 < numGroups := by omega
      simp only [hiff]
      exact ih (k + 1) (by omega)

/-- The walk from group `k` to the page ID at position `i` behind its beginning. -/
theorem Holds.getPageIdxFromAPageList_eq_ok (h : b.Holds head pages) (hb : b.WellSized)
    (idx : UInt32) (k : ℕ) (hlt : 3 * k + idx.toNat < pages.numPages.toNat) :
    b.getPageIdxFromAPageList (UInt32.ofNat (head + 4 * k)) idx =
      .ok (pages.startPageId + UInt32.ofNat (3 * k + idx.toNat)) := by
  obtain ⟨fuel, hfuel⟩ : ∃ n, n = idx.toNat / 3 := ⟨_, rfl⟩
  have hgroups := ListsMetadataBuilder.getNumPageListGroups_eq pages.numPages.toNat
  have hthree : (3 : UInt32).toNat = 3 := rfl
  induction fuel generalizing idx k with
  | zero =>
      obtain ⟨hle, hmax⟩ := h.lt hb (k := k) (by omega)
      have hsmall : ¬(3 : UInt32) ≤ idx := by
        rw [UInt32.le_iff_toNat_le, hthree]
        omega
      have hidx : (UInt32.ofNat (head + 4 * k) + idx).toNat = head + (4 * k + idx.toNat) := by
        have hsum := @toNat_ofNat_add (head + 4 * k) idx.toNat (by omega)
        rw [UInt32.ofNat_toNat] at hsum
        rw [hsum, Nat.add_assoc]
      have hmod : ¬(4 * k + idx.toNat) % 4 = 3 := by omega
      have hpos : 3 * ((4 * k + idx.toNat) / 4) + (4 * k + idx.toNat) % 4 =
          3 * k + idx.toNat := by omega
      rw [getPageIdxFromAPageList, if_neg hsmall, hidx, h.read_eq_ok hb (by omega), groupWord,
        if_neg hmod, hpos, if_pos hlt]
  | succ fuel ih =>
      have hlarge : (3 : UInt32) ≤ idx := by
        rw [UInt32.le_iff_toNat_le, hthree]
        omega
      have hsub : (idx - 3).toNat = idx.toNat - 3 := UInt32.toNat_sub_of_le _ _ hlarge
      have hmore : k + 1 < ListsMetadataBuilder.getNumPageListGroups pages.numPages.toNat := by
        omega
      have hnat : 3 * (k + 1) + (idx.toNat - 3) = 3 * k + idx.toNat := by omega
      have hrest := ih (idx - 3) (k + 1) (by omega) (by omega)
      rw [hsub, hnat] at hrest
      rw [getPageIdxFromAPageList, if_pos hlarge, h.read_next hb (by omega), if_pos hmore, ok_bind,
        hrest]

end Reading

/-! ## Page lists one after another -/

/-- The number of entries that a page list takes. -/
def numEntries (pages : PageIds) : ℕ :=
  4 * ListsMetadataBuilder.getNumPageListGroups pages.numPages.toNat

/-- The heads of the page lists, each of which stands where the one before it ends. -/
structure Populated (b b' : PageListsArray) (lists : List PageIds)
    (heads : List UInt32) : Prop where
  wellSized : b'.WellSized
  keeps : ∀ head pages, b.Holds head pages → b'.Holds head pages
  lists : ∀ (k : ℕ) (pages : PageIds), lists[k]? = some pages →
    heads[k]? = some (if pages.numPages = 0 then nullPageIdx else
      UInt32.ofNat (b.numElements + offsetOf (lists.map numEntries) k)) ∧
    b'.Holds (b.numElements + offsetOf (lists.map numEntries) k) pages

theorem numPages_eq_zero_iff (pages : PageIds) :
    pages.numPages = 0 ↔ ListsMetadataBuilder.getNumPageListGroups pages.numPages.toNat = 0 := by
  rw [ListsMetadataBuilder.getNumPageListGroups_eq, ← UInt32.toNat_inj, UInt32.toNat_zero]
  omega

/-- One call of the builder. -/
theorem WellSized.exists_populateChunkPageList (h : b.WellSized) (pages : PageIds)
    (hfits : b.numElements + numEntries pages < 2 ^ 32) :
    ∃ b', b.populateChunkPageList pages = .ok (b', if pages.numPages = 0 then nullPageIdx else
        UInt32.ofNat b.numElements) ∧ Appended b b' pages := by
  by_cases hzero : pages.numPages = 0
  · have hnone := (numPages_eq_zero_iff pages).mp hzero
    refine ⟨b, ?_, h, ?_, fun _ _ ↦ rfl, ?_⟩
    · rw [populateChunkPageList, if_pos hzero, if_pos hzero]
    · rw [hnone]
      rfl
    · intro j hj
      rw [hnone] at hj
      exact absurd hj (Nat.not_lt_zero _)
  · obtain ⟨b', hrun, happended⟩ := h.exists_populatePageIdsInAPageList pages hfits
    refine ⟨b', ?_, happended⟩
    rw [populateChunkPageList, if_neg hzero, if_neg hzero, hrun]
    rfl

theorem WellSized.exists_populateChunkPageLists (h : b.WellSized) (lists : List PageIds)
    (hfits : b.numElements + (lists.map numEntries).sum < 2 ^ 32) :
    ∃ b' heads, b.populateChunkPageLists lists = .ok (b', heads) ∧
      Populated b b' lists heads := by
  induction lists generalizing b with
  | nil => exact ⟨b, [], rfl, h, fun _ _ ↦ id, fun _ _ hk ↦ by cases hk⟩
  | cons pages lists ih =>
      rw [List.map_cons, List.sum_cons] at hfits
      obtain ⟨b₁, hfirst, happended⟩ := h.exists_populateChunkPageList pages (by omega)
      have hsum : b₁.numElements = b.numElements + numEntries pages := happended.numElements
      obtain ⟨b₂, heads, hrest, hpopulated⟩ := ih happended.wellSized (by omega)
      refine ⟨b₂, (if pages.numPages = 0 then nullPageIdx else UInt32.ofNat b.numElements) :: heads,
        ?_, hpopulated.wellSized, ?_, ?_⟩
      · simp only [populateChunkPageLists, hfirst, ok_bind, hrest, pure_eq_ok]
      · exact fun head pages' hholds ↦ hpopulated.keeps head pages' (hholds.append happended)
      · intro k pages' hk
        cases k with
        | zero =>
            obtain rfl : pages = pages' := Option.some.inj hk
            exact ⟨rfl, hpopulated.keeps _ _ (happended.holds h)⟩
        | succ k =>
            have hoffset : b.numElements + offsetOf ((pages :: lists).map numEntries) (k + 1) =
                b₁.numElements + offsetOf (lists.map numEntries) k := by
              rw [hsum, List.map_cons, offsetOf, List.take_succ_cons, List.sum_cons, Nat.add_assoc]
              rfl
            rw [hoffset]
            exact hpopulated.lists k pages' hk

/-! ## The entries as the copied lists have them -/

/-- The entries that are used, with `none` for the null index. -/
def pageLists (b : PageListsArray) : List (Option ℕ) :=
  (b.inMemArrayPages.take b.numElements).map fun entry ↦ toUInt32 entry.toNat

theorem toUInt32_mod (n : ℕ) : toUInt32 (n % 2 ^ 32) = toUInt32 n := by
  rw [toUInt32, toUInt32, Nat.mod_mod]

theorem toUInt32_groupWord (head numPages : ℕ) (start : UInt32) (j : ℕ) :
    toUInt32 (groupWord head numPages start j).toNat =
      if j % 4 = 3 then if 3 * (j / 4 + 1) < numPages then toUInt32 (head + (j + 1)) else none
      else if 3 * (j / 4) + j % 4 < numPages then toUInt32 (start.toNat + (3 * (j / 4) + j % 4))
      else none := by
  have hnull : toUInt32 nullPageIdx.toNat = none := rfl
  have hlink : toUInt32 (UInt32.ofNat (head + (j + 1))).toNat = toUInt32 (head + (j + 1)) :=
    toUInt32_mod _
  have hpage : toUInt32 (start + UInt32.ofNat (3 * (j / 4) + j % 4)).toNat =
      toUInt32 (start.toNat + (3 * (j / 4) + j % 4)) := by
    rw [UInt32.toNat_add, UInt32.toNat_ofNat', toUInt32_mod, ← toUInt32_mod, Nat.add_mod_mod,
      toUInt32_mod]
  rw [groupWord, ← hlink, ← hpage, ← hnull]
  split_ifs <;> rfl

theorem getElem?_pageListGroups_eq {numGroups numPages j : ℕ} (start : UInt32)
    (hj : j < 4 * numGroups) :
    (ListsMetadataBuilder.pageListGroups numGroups head numPages start.toNat)[j]? =
      some (toUInt32 (groupWord head numPages start j).toNat) := by
  have hk : j / 4 < numGroups := Nat.div_lt_of_lt_mul hj
  have hsplit : j = pageListGroupWithNextPtrSize * (j / 4) + j % 4 := (Nat.div_add_mod j 4).symm
  rw [toUInt32_groupWord]
  by_cases hlink : j % 4 = 3
  · have hentry := @ListsMetadataBuilder.getElem?_pageListGroups_next numGroups head numPages
      start.toNat (j / 4) hk
    rw [pageListGroupSize, ← hlink, ← hsplit] at hentry
    have hnext : head + pageListGroupWithNextPtrSize * (j / 4 + 1) = head + (j + 1) := by
      rw [pageListGroupWithNextPtrSize, pageListGroupSize]
      omega
    rw [hentry, hlink, if_pos rfl, hnext]
    by_cases hmore : 3 * (j / 4 + 1) < numPages
    · rw [if_pos hmore, if_neg hmore.not_ge]
    · rw [if_neg hmore, if_pos (Nat.le_of_not_lt hmore)]
  · have hr : j % 4 < pageListGroupSize := by
      rw [pageListGroupSize]
      omega
    have hentry := @ListsMetadataBuilder.getElem?_pageListGroups numGroups head numPages
      start.toNat (j / 4) (j % 4) hk hr
    rw [← hsplit] at hentry
    rw [hentry, if_neg hlink]
    rfl

/-- The array grows as that of the copied lists. -/
theorem Appended.pageLists_eq {pages : PageIds} (h : Appended b b' pages) (hb : b.WellSized) :
    b'.pageLists = b.pageLists ++ ListsMetadataBuilder.pageListGroups
      (ListsMetadataBuilder.getNumPageListGroups pages.numPages.toNat) b.numElements
      pages.numPages.toNat pages.startPageId.toNat := by
  obtain ⟨numGroups, hnum⟩ :
      ∃ g, g = ListsMetadataBuilder.getNumPageListGroups pages.numPages.toNat := ⟨_, rfl⟩
  have hlength : b.pageLists.length = b.numElements := by
    rw [pageLists, List.length_map, List.length_take, Nat.min_eq_left hb.hasRoom.length]
  have hnumElements := h.numElements
  have hnew := h.new
  rw [← hnum] at hnumElements hnew ⊢
  apply List.ext_getElem?
  intro i
  by_cases hi : i < b.numElements
  · rw [List.getElem?_append_left (hlength ▸ hi), pageLists, pageLists, List.getElem?_map,
      List.getElem?_map, List.getElem?_take_of_lt hi, List.getElem?_take_of_lt (by omega),
      h.old i hi]
  · obtain ⟨j, rfl⟩ := Nat.exists_eq_add_of_le (Nat.le_of_not_lt hi)
    rw [List.getElem?_append_right (by omega), hlength, Nat.add_sub_cancel_left]
    by_cases hj : j < 4 * numGroups
    · rw [getElem?_pageListGroups_eq _ hj, pageLists, List.getElem?_map,
        List.getElem?_take_of_lt (by omega), hnew j hj, Option.map_some]
    · rw [List.getElem?_eq_none, List.getElem?_eq_none]
      · rw [ListsMetadataBuilder.length_pageListGroups]
        exact Nat.le_of_not_lt hj
      · rw [pageLists, List.length_map, List.length_take]
        omega

end PageListsArray

/-- The calls of `populateChunkPageList` for the chunks from `chunkId` on. -/
def ListsMetadataBuilder.populateChunkPageLists (builder : ListsMetadataBuilder) :
    ℕ → List PageIds → ListsMetadataBuilder
  | _, [] => builder
  | chunkId, pages :: lists =>
      (builder.populateChunkPageList chunkId pages.numPages.toNat
        pages.startPageId.toNat).populateChunkPageLists (chunkId + 1) lists

namespace PageListsArray

variable {b b' b'' : PageListsArray} {head idx n : ℕ}

theorem pageLists_populateChunkPageList {builder : ListsMetadataBuilder} {pages : PageIds}
    (hlists : builder.pageLists = b.pageLists) (hb : b.WellSized) (h : Appended b b' pages)
    (chunkId : ℕ) : (builder.populateChunkPageList chunkId pages.numPages.toNat
      pages.startPageId.toNat).pageLists = b'.pageLists := by
  have hlength : b.pageLists.length = b.numElements := by
    rw [pageLists, List.length_map, List.length_take, Nat.min_eq_left hb.hasRoom.length]
  rw [h.pageLists_eq hb, ListsMetadataBuilder.populateChunkPageList]
  split_ifs with hzero
  · rw [hzero, hlists]
    exact (List.append_nil _).symm
  · rw [ListsMetadataBuilder.populatePageIdsInAPageList, ← hlength, ← hlists]

/-- Within 32 bits the page lists of the chunks are those of the copied lists. -/
theorem populateChunkPageLists_pageLists {builder : ListsMetadataBuilder}
    (hlists : builder.pageLists = b.pageLists) (hb : b.WellSized) (lists : List PageIds)
    (hfits : b.numElements + (lists.map numEntries).sum < 2 ^ 32) {heads : List UInt32}
    (hrun : b.populateChunkPageLists lists = .ok (b', heads)) (chunkId : ℕ) :
    (builder.populateChunkPageLists chunkId lists).pageLists = b'.pageLists := by
  induction lists generalizing b builder heads chunkId with
  | nil =>
      obtain rfl : b = b' := congrArg Prod.fst (Except.ok.inj hrun)
      exact hlists
  | cons pages lists ih =>
      rw [List.map_cons, List.sum_cons] at hfits
      obtain ⟨b₁, hfirst, happended⟩ := hb.exists_populateChunkPageList pages (by omega)
      have hsum : b₁.numElements = b.numElements + numEntries pages := happended.numElements
      obtain ⟨b₂, heads₂, hrest, -⟩ :=
        happended.wellSized.exists_populateChunkPageLists lists (by omega)
      simp only [PageListsArray.populateChunkPageLists, hfirst, ok_bind, hrest, pure_eq_ok] at hrun
      obtain rfl : b₂ = b' := congrArg Prod.fst (Except.ok.inj hrun)
      exact ih (pageLists_populateChunkPageList hlists hb happended chunkId) happended.wellSized
        (by omega) hrest (chunkId + 1)

theorem getElem?_groupHeads {m numGroups j : ℕ} {g : UInt32}
    (hg : (groupHeads head m numGroups)[j]? = some g) :
    j < numGroups ∧ g = UInt32.ofNat (head + 4 * (m + j)) := by
  rw [groupHeads, List.getElem?_map] at hg
  obtain ⟨k, hk, rfl⟩ := Option.map_eq_some_iff.mp hg
  obtain ⟨hlt, rfl⟩ := List.getElem?_eq_some_iff.mp hk
  rw [List.length_range'] at hlt
  refine ⟨hlt, ?_⟩
  rw [List.getElem_range', Nat.one_mul]

/-- Page lists whose groups fit into an array with 32-bit positions behave as lists. -/
theorem populatesLists_of_sum_lt (lists : List PageIds)
    (hfits : (lists.map numEntries).sum < 2 ^ 32) : PopulatesLists lists := by
  have hzero : (0 : ℕ) + (lists.map numEntries).sum < 2 ^ 32 := by omega
  obtain ⟨b, heads, hrun, hpopulated⟩ := wellSized_empty.exists_populateChunkPageLists lists hzero
  have hb := hpopulated.wellSized
  have hlists : ∀ k pages, lists[k]? = some pages →
      heads[k]? = some (if pages.numPages = 0 then nullPageIdx else
        UInt32.ofNat (offsetOf (lists.map numEntries) k)) ∧
      b.Holds (offsetOf (lists.map numEntries) k) pages := by
    intro k pages hk
    have hlist := hpopulated.lists k pages hk
    have hempty : ({} : PageListsArray).numElements = 0 := rfl
    rwa [hempty, Nat.zero_add] at hlist
  let groups : ℕ → List UInt32 := fun k ↦ match lists[k]? with
    | some pages => groupHeads (offsetOf (lists.map numEntries) k) 0
        (ListsMetadataBuilder.getNumPageListGroups pages.numPages.toNat)
    | none => []
  have hgroups : ∀ k pages, lists[k]? = some pages → groups k =
      groupHeads (offsetOf (lists.map numEntries) k) 0
        (ListsMetadataBuilder.getNumPageListGroups pages.numPages.toNat) := by
    intro k pages hk
    simp only [groups, hk]
  -- A slot of a group as a position in the whole array.
  have hslot : ∀ (k j : ℕ) (g r : UInt32), (groups k)[j]? = some g → r ≤ 3 →
      ∃ pages, lists[k]? = some pages ∧ 4 * j + r.toNat < numEntries pages ∧
        (g + r).toNat = offsetOf (lists.map numEntries) k + (4 * j + r.toNat) := by
    intro k j g r hg hr
    have hr' : r.toNat ≤ 3 := UInt32.le_iff_toNat_le.mp hr
    cases hk : lists[k]? with
    | none =>
        have hnil : groups k = [] := by simp only [groups, hk]
        rw [hnil] at hg
        cases hg
    | some pages =>
        rw [hgroups k pages hk] at hg
        obtain ⟨hlt, rfl⟩ := getElem?_groupHeads hg
        obtain ⟨hle, hmax⟩ := (hlists k pages hk).2.lt hb hlt
        have hsum := @toNat_ofNat_add (offsetOf (lists.map numEntries) k + 4 * (0 + j)) r.toNat
          (by omega)
        rw [UInt32.ofNat_toNat] at hsum
        refine ⟨pages, rfl, ?_, ?_⟩
        · rw [numEntries]
          omega
        · rw [hsum]
          omega
  refine ⟨b, heads, groups, hrun, ?_, ?_⟩
  · intro k pages hk
    obtain ⟨hhead, hholds⟩ := hlists k pages hk
    refine ⟨_, hhead, ?_, ?_⟩
    · have hlinked := hholds.linked hb
        (ListsMetadataBuilder.getNumPageListGroups pages.numPages.toNat) 0 (Nat.zero_add _)
      rw [hgroups k pages hk]
      by_cases hnone : pages.numPages = 0
      · have hpos := (numPages_eq_zero_iff pages).mp hnone
        rw [if_neg (by omega)] at hlinked
        rwa [if_pos hnone]
      · have hpos := fun h ↦ hnone ((numPages_eq_zero_iff pages).mpr h)
        rw [if_pos (Nat.pos_of_ne_zero hpos)] at hlinked
        rwa [if_neg hnone]
    · intro i hi
      have hi' : i.toNat < pages.numPages.toNat := UInt32.lt_iff_toNat_lt.mp hi
      have hne : ¬pages.numPages = 0 := by
        intro hzero
        rw [hzero, UInt32.toNat_zero] at hi'
        exact Nat.not_lt_zero _ hi'
      have hread := hholds.getPageIdxFromAPageList_eq_ok hb i 0 (by omega)
      rw [if_neg hne]
      rwa [Nat.mul_zero, Nat.add_zero, Nat.zero_add, UInt32.ofNat_toNat] at hread
  · intro k j g r k' j' g' r' hg hg' hr hr' heq
    obtain ⟨pages, hk, hlt, hpos⟩ := hslot k j g r hg hr
    obtain ⟨pages', hk', hlt', hpos'⟩ := hslot k' j' g' r' hg' hr'
    have hsame := hpos.symm.trans ((congrArg UInt32.toNat heq).trans hpos')
    have hsize : (lists.map numEntries)[k]? = some (numEntries pages) := by
      rw [List.getElem?_map, hk]
      rfl
    have hsize' : (lists.map numEntries)[k']? = some (numEntries pages') := by
      rw [List.getElem?_map, hk']
      rfl
    obtain ⟨rfl, hin⟩ := eq_of_offsetOf_add_eq hsize hsize' hlt hlt' hsame
    have hr₁ : r.toNat ≤ 3 := UInt32.le_iff_toNat_le.mp hr
    have hr₂ : r'.toNat ≤ 3 := UInt32.le_iff_toNat_le.mp hr'
    exact ⟨rfl, by omega, UInt32.toNat_inj.mp (by omega)⟩

/-- Five page IDs take two groups, and the two of the next list one. -/
theorem populatesLists_fiveAndTwo : PopulatesLists [⟨5, 10⟩, ⟨0, 0⟩, ⟨2, 40⟩] :=
  populatesLists_of_sum_lt _ (by decide)

/-! ## Too many groups -/

theorem numAPs_of_write_eq_ok {val : UInt32} (h : b.write val idx = .ok b') :
    idx / numPageIdxsPerArrayPage < b.numAPs ∧ b'.numAPs = b.numAPs := by
  rw [write] at h
  split at h
  next hlt =>
    cases h
    exact ⟨hlt, rfl⟩
  next => cases h

theorem numAPs_of_writeEntries_eq_ok {pageListHeadIdx : UInt32} {val : ℕ → UInt32} {m count : ℕ}
    (h : b.writeEntries pageListHeadIdx val m count = .ok b') : b'.numAPs = b.numAPs :=
  foldlM_invariant (fun b' ↦ b'.numAPs = b.numAPs)
    (fun _ _ _ _ hs hstep ↦ (numAPs_of_write_eq_ok hstep).2.trans hs) rfl h

/-- The link of a group lies on an array page. -/
theorem numAPs_of_populateGroup_eq_ok {pageListHeadIdx numPages start : UInt32}
    (h : b.populateGroup pageListHeadIdx numPages start = .ok b') :
    (pageListHeadIdx + 3).toNat / numPageIdxsPerArrayPage < b.numAPs ∧ b'.numAPs = b.numAPs := by
  rw [populateGroup, bind_eq_ok_iff] at h
  obtain ⟨b₁, hfirst, h⟩ := h
  rw [bind_eq_ok_iff] at h
  obtain ⟨b₂, hsecond, hlast⟩ := h
  have hnum := (numAPs_of_writeEntries_eq_ok hsecond).trans (numAPs_of_writeEntries_eq_ok hfirst)
  have hwrite := numAPs_of_write_eq_ok hlast
  exact ⟨hnum ▸ hwrite.1, hwrite.2.trans hnum⟩

/-- So do the links of all groups. -/
theorem div_lt_of_populateGroups_eq_ok {numGroups : ℕ} {pageListHeadIdx numPages start : UInt32}
    (h : populateGroups numGroups b pageListHeadIdx numPages start = .ok b') (k : ℕ)
    (hk : k < numGroups) :
    (pageListHeadIdx + UInt32.ofNat (4 * k) + 3).toNat / numPageIdxsPerArrayPage < b.numAPs := by
  induction numGroups generalizing b pageListHeadIdx numPages start k with
  | zero => exact absurd hk (Nat.not_lt_zero k)
  | succ numGroups ih =>
      rw [populateGroups, bind_eq_ok_iff] at h
      obtain ⟨b₁, hfirst, hrest⟩ := h
      have hgroup := numAPs_of_populateGroup_eq_ok hfirst
      cases k with
      | zero =>
          have hhead : pageListHeadIdx + UInt32.ofNat (4 * 0) = pageListHeadIdx := UInt32.add_zero _
          rw [hhead]
          exact hgroup.1
      | succ k =>
          have hnext := ih hrest k (Nat.lt_of_succ_lt_succ hk)
          have hidx : pageListHeadIdx + 3 + 1 + UInt32.ofNat (4 * k) =
              pageListHeadIdx + UInt32.ofNat (4 * (k + 1)) := by
            have hnat : 4 * (k + 1) = 4 + 4 * k := by omega
            have hfour : (3 : UInt32) + 1 = UInt32.ofNat 4 := rfl
            rw [hnat, UInt32.ofNat_add 4, UInt32.add_assoc pageListHeadIdx, hfour, UInt32.add_assoc]
          rw [hidx, hgroup.2] at hnext
          exact hnext

/-- With `UINT32_MAX` pages the end of the groups wraps around, and the array is too short. -/
theorem not_populatesLists_max : ¬PopulatesLists [⟨4294967295, 0⟩] := by
  rintro ⟨b, heads, groups, hrun, -⟩
  rw [populateChunkPageLists, bind_eq_ok_iff] at hrun
  obtain ⟨⟨b₁, head⟩, hfirst, -⟩ := hrun
  rw [populateChunkPageList, if_neg (by decide), bind_eq_ok_iff] at hfirst
  obtain ⟨b₂, hpopulate, -⟩ := hfirst
  rw [populatePageIdsInAPageList] at hpopulate
  have hlt := div_lt_of_populateGroups_eq_ok hpopulate 400000000 (by decide +kernel)
  revert hlt
  decide +kernel

end PageListsArray

end Graphflow.Storage
