import Graphflow.Common.Configs
import Mathlib.Data.Nat.Bitwise
import Mathlib.Tactic.Common

/-!
# List headers

The header of a list is a 32-bit value.  The header of a small list packs its length and its offset
in the CSR of its chunk into 11 and 20 bits; the header of a large list has its highest bit set and
holds the index of the list.
-/

namespace Graphflow.Storage

/-- `LISTS_CHUNK_SIZE`. -/
def listsChunkSize : ℕ := 512

namespace ListHeaders

def isALargeList (header : ℕ) : Bool := header &&& 0x80000000 != 0

def getSmallListLen (header : ℕ) : ℕ := header &&& 0x7ff

def getSmallListCSROffset (header : ℕ) : ℕ := header >>> 11 &&& 0xfffff

def getSmallListLenAndCSROffset (header : ℕ) : ℕ × ℕ :=
  (getSmallListLen header, getSmallListCSROffset header)

def getSmallListHeader (csrOffset numElementsInList : ℕ) : ℕ :=
  ((csrOffset &&& 0xfffff) <<< 11) ||| (numElementsInList &&& 0x7ff)

def getLargeListIdx (header : ℕ) : ℕ := header &&& 0x7fffffff

def getLargeListHeader (listIdx : ℕ) : ℕ := 0x80000000 ||| (listIdx &&& 0x7fffffff)

/-! ## The fields of a header -/

variable {csrOffset len idx : ℕ}

theorem getSmallListHeader_eq (csrOffset len : ℕ) :
    getSmallListHeader csrOffset len = csrOffset % 2 ^ 20 * 2 ^ 11 + len % 2 ^ 11 := by
  have hcsr : csrOffset &&& 0xfffff = csrOffset % 2 ^ 20 := Nat.and_two_pow_sub_one_eq_mod _ 20
  have hlen : len &&& 0x7ff = len % 2 ^ 11 := Nat.and_two_pow_sub_one_eq_mod _ 11
  have hlt : len % 2 ^ 11 < 2 ^ 11 := Nat.mod_lt _ (by decide)
  rw [getSmallListHeader, hcsr, hlen, ← Nat.shiftLeft_add_eq_or_of_lt hlt, Nat.shiftLeft_eq]

theorem getLargeListHeader_eq (idx : ℕ) : getLargeListHeader idx = 2 ^ 31 + idx % 2 ^ 31 := by
  have hidx : idx &&& 0x7fffffff = idx % 2 ^ 31 := Nat.and_two_pow_sub_one_eq_mod _ 31
  have hlt : idx % 2 ^ 31 < 2 ^ 31 := Nat.mod_lt _ (by decide)
  have hone : (0x80000000 : ℕ) = 1 <<< 31 := by decide
  rw [getLargeListHeader, hidx, hone, ← Nat.shiftLeft_add_eq_or_of_lt hlt, Nat.shiftLeft_eq,
    one_mul]

theorem isALargeList_iff {header : ℕ} : isALargeList header ↔ header / 2 ^ 31 % 2 = 1 := by
  have hbit : header &&& 0x80000000 = (header.testBit 31).toNat * 2 ^ 31 :=
    Nat.and_two_pow header 31
  rw [isALargeList, hbit, Nat.testBit_eq_decide_div_mod_eq]
  simp

@[simp] theorem isALargeList_getSmallListHeader (csrOffset len : ℕ) :
    isALargeList (getSmallListHeader csrOffset len) = false := by
  rw [← Bool.not_eq_true, isALargeList_iff, getSmallListHeader_eq]
  omega

@[simp] theorem isALargeList_getLargeListHeader (idx : ℕ) :
    isALargeList (getLargeListHeader idx) = true := by
  rw [isALargeList_iff, getLargeListHeader_eq]
  omega

theorem getSmallListLen_eq (header : ℕ) : getSmallListLen header = header % 2 ^ 11 :=
  Nat.and_two_pow_sub_one_eq_mod _ 11

theorem getSmallListCSROffset_eq (header : ℕ) :
    getSmallListCSROffset header = header / 2 ^ 11 % 2 ^ 20 := by
  rw [getSmallListCSROffset, Nat.shiftRight_eq_div_pow]
  exact Nat.and_two_pow_sub_one_eq_mod _ 20

theorem getSmallListLenAndCSROffset_getSmallListHeader (csrOffset len : ℕ) :
    getSmallListLenAndCSROffset (getSmallListHeader csrOffset len) =
      (len % 2 ^ 11, csrOffset % 2 ^ 20) := by
  rw [getSmallListLenAndCSROffset, getSmallListLen_eq, getSmallListCSROffset_eq,
    getSmallListHeader_eq]
  refine Prod.ext ?_ ?_
  · show (csrOffset % 2 ^ 20 * 2 ^ 11 + len % 2 ^ 11) % 2 ^ 11 = len % 2 ^ 11
    omega
  · show (csrOffset % 2 ^ 20 * 2 ^ 11 + len % 2 ^ 11) / 2 ^ 11 % 2 ^ 20 = csrOffset % 2 ^ 20
    omega

theorem getLargeListIdx_getLargeListHeader (hidx : idx < 2 ^ 31) :
    getLargeListIdx (getLargeListHeader idx) = idx := by
  have hmask : ∀ header, getLargeListIdx header = header % 2 ^ 31 := fun header ↦
    Nat.and_two_pow_sub_one_eq_mod _ 31
  rw [hmask, getLargeListHeader_eq]
  omega

/-- The header gives back what it was made of. -/
def Faithful (csrOffset len header : ℕ) : Prop :=
  getSmallListLenAndCSROffset header = (len, csrOffset) ∧ isALargeList header = false

instance : Decidable (Faithful csrOffset len idx) := inferInstanceAs (Decidable (_ ∧ _))

theorem faithful_getSmallListHeader_iff (csrOffset len : ℕ) :
    Faithful csrOffset len (getSmallListHeader csrOffset len) ↔
      len < 2 ^ 11 ∧ csrOffset < 2 ^ 20 := by
  have hlen : len % 2 ^ 11 = len ↔ len < 2 ^ 11 := Nat.mod_eq_iff_lt (by decide)
  have hcsr : csrOffset % 2 ^ 20 = csrOffset ↔ csrOffset < 2 ^ 20 := Nat.mod_eq_iff_lt (by decide)
  rw [Faithful, getSmallListLenAndCSROffset_getSmallListHeader, isALargeList_getSmallListHeader,
    Prod.mk.injEq, hlen, hcsr]
  simp

end ListHeaders

/-! ## The headers of copied lists -/

/-- For elements without NULL bits. -/
def getNumElementsInAPage (elementSize : ℕ) : ℕ := defaultPageSize / elementSize

/-- The nodes of a chunk.  `csrOffset` starts at 0 for each chunk, `lAdjListsIdx` does not. -/
def calculateListHeadersOfChunk (numElementsPerPage : ℕ) : List ℕ → ℕ → ℕ → List ℕ × ℕ
  | [], _, lAdjListsIdx => ([], lAdjListsIdx)
  | numElementsInList :: listSizes, csrOffset, lAdjListsIdx =>
      if numElementsPerPage ≤ numElementsInList then
        let (headers, next) :=
          calculateListHeadersOfChunk numElementsPerPage listSizes csrOffset (lAdjListsIdx + 1)
        (ListHeaders.getLargeListHeader lAdjListsIdx :: headers, next)
      else
        let (headers, next) := calculateListHeadersOfChunk numElementsPerPage listSizes
          (csrOffset + numElementsInList) lAdjListsIdx
        (ListHeaders.getSmallListHeader csrOffset numElementsInList :: headers, next)

def calculateListHeadersOfChunks (numElementsPerPage : ℕ) : ℕ → List ℕ → ℕ → List ℕ
  | 0, _, _ => []
  | numChunks + 1, listSizes, lAdjListsIdx =>
      let (headers, next) :=
        calculateListHeadersOfChunk numElementsPerPage
          (listSizes.take listsChunkSize) 0 lAdjListsIdx
      headers ++
        calculateListHeadersOfChunks numElementsPerPage numChunks
          (listSizes.drop listsChunkSize) next

def getNumChunks (numNodes : ℕ) : ℕ :=
  if numNodes % listsChunkSize ≠ 0 then numNodes / listsChunkSize + 1
  else numNodes / listsChunkSize

def calculateListHeadersTask (elementSize : ℕ) (listSizes : List ℕ) : List ℕ :=
  calculateListHeadersOfChunks (getNumElementsInAPage elementSize) (getNumChunks listSizes.length)
    listSizes 0

/-- The number of elements that the small lists among `listSizes` have together. -/
def smallElements (numElementsPerPage : ℕ) (listSizes : List ℕ) : ℕ :=
  (listSizes.filter (· < numElementsPerPage)).sum

def numLargeLists (numElementsPerPage : ℕ) (listSizes : List ℕ) : ℕ :=
  listSizes.countP (numElementsPerPage ≤ ·)

/-- The lists of the chunk of a node that come before its own. -/
def precedingInChunk (listSizes : List ℕ) (nodeOffset : ℕ) : List ℕ :=
  (listSizes.take nodeOffset).drop (nodeOffset / listsChunkSize * listsChunkSize)

theorem le_getNumChunks_mul (numNodes : ℕ) : numNodes ≤ getNumChunks numNodes * listsChunkSize := by
  rw [getNumChunks]
  split <;> simp only [listsChunkSize] at * <;> omega

theorem lt_getNumChunks {nodeOffset numNodes : ℕ} (hlt : nodeOffset < numNodes) :
    nodeOffset / listsChunkSize < getNumChunks numNodes := by
  rw [getNumChunks]
  split <;> simp only [listsChunkSize] at * <;> omega

section Copied

variable {n k csrOffset lAdjListsIdx i size : ℕ} {listSizes : List ℕ}

theorem length_calculateListHeadersOfChunk :
    (calculateListHeadersOfChunk n listSizes csrOffset lAdjListsIdx).1.length =
      listSizes.length := by
  induction listSizes generalizing csrOffset lAdjListsIdx with
  | nil => rfl
  | cons s listSizes ih =>
      simp only [calculateListHeadersOfChunk]
      split <;> simp [ih]

/-- The CSR offset of a small list is where the small lists before it end. -/
theorem calculateListHeadersOfChunk_getElem? (hi : listSizes[i]? = some size) (hsmall : size < n) :
    (calculateListHeadersOfChunk n listSizes csrOffset lAdjListsIdx).1[i]? =
      some (ListHeaders.getSmallListHeader
        (csrOffset + smallElements n (listSizes.take i)) size) := by
  induction listSizes generalizing csrOffset lAdjListsIdx i with
  | nil => simp at hi
  | cons s listSizes ih =>
      cases i with
      | zero =>
          obtain rfl : s = size := by simpa using hi
          simp [calculateListHeadersOfChunk, Nat.not_le.mpr hsmall, smallElements]
      | succ i =>
          simp only [List.getElem?_cons_succ] at hi
          simp only [calculateListHeadersOfChunk]
          split
          next hlarge =>
            have hnot : ¬ s < n := Nat.not_lt.mpr hlarge
            simp [ih hi, smallElements, hnot]
          next hsmall' =>
            have hlt : s < n := Nat.lt_of_not_le hsmall'
            simp [ih hi, smallElements, hlt, Nat.add_assoc]

theorem calculateListHeadersOfChunks_getElem? (hlength : listSizes.length ≤ k * listsChunkSize)
    (hi : listSizes[i]? = some size) (hsmall : size < n) :
    (calculateListHeadersOfChunks n k listSizes lAdjListsIdx)[i]? =
      some (ListHeaders.getSmallListHeader
        (smallElements n (precedingInChunk listSizes i)) size) := by
  have hlt : i < listSizes.length := (List.getElem?_eq_some_iff.mp hi).1
  induction k generalizing listSizes lAdjListsIdx i with
  | zero => omega
  | succ k ih =>
      simp only [calculateListHeadersOfChunks]
      by_cases hfirst : i < listsChunkSize
      · have hi' : (listSizes.take listsChunkSize)[i]? = some size := by
          rwa [List.getElem?_take_of_lt hfirst]
        have hzero : i / listsChunkSize = 0 := Nat.div_eq_of_lt hfirst
        rw [List.getElem?_append_left (by
          rw [length_calculateListHeadersOfChunk, List.length_take]
          omega), calculateListHeadersOfChunk_getElem? hi' hsmall, List.take_take,
          Nat.min_eq_left hfirst.le, precedingInChunk, hzero, Nat.zero_mul, Nat.zero_add,
          List.drop_zero]
      · have hge : listsChunkSize ≤ i := Nat.le_of_not_lt hfirst
        obtain ⟨j, rfl⟩ := Nat.exists_eq_add_of_le hge
        have hfull : (listSizes.take listsChunkSize).length = listsChunkSize := by
          rw [List.length_take]
          omega
        have hrest : (listSizes.drop listsChunkSize)[j]? = some size := by
          rwa [List.getElem?_drop]
        have hlength' : (listSizes.drop listsChunkSize).length ≤ k * listsChunkSize := by
          rw [List.length_drop]
          rw [Nat.succ_mul] at hlength
          omega
        have hpreceding : precedingInChunk (listSizes.drop listsChunkSize) j =
            precedingInChunk listSizes (listsChunkSize + j) := by
          have hdiv : (listsChunkSize + j) / listsChunkSize = j / listsChunkSize + 1 := by
            simp only [listsChunkSize]
            omega
          rw [precedingInChunk, precedingInChunk, hdiv, Nat.succ_mul, List.take_drop,
            List.drop_drop, Nat.add_comm listsChunkSize]
        rw [List.getElem?_append_right (by rw [length_calculateListHeadersOfChunk, hfull]; omega),
          length_calculateListHeadersOfChunk, hfull, Nat.add_sub_cancel_left,
          ih hlength' hrest (by rw [List.length_drop]; omega), hpreceding]

/-- The header that COPY gives a node with a small list. -/
theorem calculateListHeadersTask_getElem? {elementSize : ℕ} (hi : listSizes[i]? = some size)
    (hsmall : size < getNumElementsInAPage elementSize) :
    (calculateListHeadersTask elementSize listSizes)[i]? =
      some (ListHeaders.getSmallListHeader
        (smallElements (getNumElementsInAPage elementSize) (precedingInChunk listSizes i)) size) :=
  calculateListHeadersOfChunks_getElem? (le_getNumChunks_mul _) hi hsmall

theorem snd_calculateListHeadersOfChunk :
    (calculateListHeadersOfChunk n listSizes csrOffset lAdjListsIdx).2 =
      lAdjListsIdx + numLargeLists n listSizes := by
  induction listSizes generalizing csrOffset lAdjListsIdx with
  | nil => rfl
  | cons s listSizes ih =>
      simp only [calculateListHeadersOfChunk]
      split
      next hlarge => simp [ih, numLargeLists, hlarge, Nat.add_assoc, Nat.add_comm 1]
      next hsmall => simp [ih, numLargeLists, hsmall]

/-- The index of a large list is the number of large lists before it. -/
theorem calculateListHeadersOfChunk_getElem?_of_large (hi : listSizes[i]? = some size)
    (hlarge : n ≤ size) :
    (calculateListHeadersOfChunk n listSizes csrOffset lAdjListsIdx).1[i]? =
      some (ListHeaders.getLargeListHeader
        (lAdjListsIdx + numLargeLists n (listSizes.take i))) := by
  induction listSizes generalizing csrOffset lAdjListsIdx i with
  | nil => simp at hi
  | cons s listSizes ih =>
      cases i with
      | zero =>
          obtain rfl : s = size := by simpa using hi
          simp [calculateListHeadersOfChunk, hlarge, numLargeLists]
      | succ i =>
          simp only [List.getElem?_cons_succ] at hi
          simp only [calculateListHeadersOfChunk]
          split
          next hlarge' => simp [ih hi, numLargeLists, hlarge', Nat.add_assoc, Nat.add_comm 1]
          next hsmall => simp [ih hi, numLargeLists, hsmall]

theorem length_calculateListHeadersOfChunks (hlength : listSizes.length ≤ k * listsChunkSize) :
    (calculateListHeadersOfChunks n k listSizes lAdjListsIdx).length = listSizes.length := by
  induction k generalizing listSizes lAdjListsIdx with
  | zero =>
      rw [Nat.zero_mul, Nat.le_zero] at hlength
      exact hlength.symm
  | succ k ih =>
      rw [Nat.succ_mul] at hlength
      have hrest : (listSizes.drop listsChunkSize).length ≤ k * listsChunkSize := by
        rw [List.length_drop]
        omega
      rw [calculateListHeadersOfChunks, List.length_append, length_calculateListHeadersOfChunk,
        ih hrest, ← List.length_append, List.take_append_drop]

theorem calculateListHeadersOfChunks_getElem?_of_large
    (hlength : listSizes.length ≤ k * listsChunkSize) (hi : listSizes[i]? = some size)
    (hlarge : n ≤ size) :
    (calculateListHeadersOfChunks n k listSizes lAdjListsIdx)[i]? =
      some (ListHeaders.getLargeListHeader
        (lAdjListsIdx + numLargeLists n (listSizes.take i))) := by
  have hlt : i < listSizes.length := (List.getElem?_eq_some_iff.mp hi).1
  induction k generalizing listSizes lAdjListsIdx i with
  | zero => omega
  | succ k ih =>
      rw [Nat.succ_mul] at hlength
      simp only [calculateListHeadersOfChunks]
      by_cases hfirst : i < listsChunkSize
      · have hi' : (listSizes.take listsChunkSize)[i]? = some size := by
          rwa [List.getElem?_take_of_lt hfirst]
        rw [List.getElem?_append_left (by
          rw [length_calculateListHeadersOfChunk, List.length_take]
          omega), calculateListHeadersOfChunk_getElem?_of_large hi' hlarge, List.take_take,
          Nat.min_eq_left hfirst.le]
      · have hge : listsChunkSize ≤ i := Nat.le_of_not_lt hfirst
        obtain ⟨j, rfl⟩ := Nat.exists_eq_add_of_le hge
        have hfull : (listSizes.take listsChunkSize).length = listsChunkSize := by
          rw [List.length_take]
          omega
        have hrest : (listSizes.drop listsChunkSize)[j]? = some size := by
          rwa [List.getElem?_drop]
        have hlength' : (listSizes.drop listsChunkSize).length ≤ k * listsChunkSize := by
          rw [List.length_drop]
          omega
        have hlt' : j < (listSizes.drop listsChunkSize).length :=
          (List.getElem?_eq_some_iff.mp hrest).1
        have htake : listSizes.take (listsChunkSize + j) =
            listSizes.take listsChunkSize ++ (listSizes.drop listsChunkSize).take j := List.take_add
        rw [List.getElem?_append_right (by rw [length_calculateListHeadersOfChunk, hfull]; omega),
          length_calculateListHeadersOfChunk, hfull, Nat.add_sub_cancel_left,
          ih hlength' hrest hlt', snd_calculateListHeadersOfChunk, htake, numLargeLists,
          numLargeLists, numLargeLists, List.countP_append, Nat.add_assoc]

/-- The header that COPY gives a node with a large list. -/
theorem calculateListHeadersTask_getElem?_of_large {elementSize : ℕ}
    (hi : listSizes[i]? = some size) (hlarge : getNumElementsInAPage elementSize ≤ size) :
    (calculateListHeadersTask elementSize listSizes)[i]? =
      some (ListHeaders.getLargeListHeader
        (numLargeLists (getNumElementsInAPage elementSize) (listSizes.take i))) := by
  rw [calculateListHeadersTask,
    calculateListHeadersOfChunks_getElem?_of_large (le_getNumChunks_mul _) hi hlarge, Nat.zero_add]

theorem length_calculateListHeadersTask (elementSize : ℕ) (listSizes : List ℕ) :
    (calculateListHeadersTask elementSize listSizes).length = listSizes.length :=
  length_calculateListHeadersOfChunks (le_getNumChunks_mul _)

end Copied

end Graphflow.Storage
