import Graphflow.OrderBy.KeyBlockMerger
import Mathlib.Data.List.GetD
import Mathlib.Data.List.Nodup
import Mathlib.Logic.Function.Basic

/-!
# Sorted tuples in several key blocks

`MergedKeyBlocks` of `key_block_merger.h`.  A pointer is a key block with an offset in its buffer;
pointers into different buffers are never equal, as every buffer is an allocation of its own.
-/

namespace Graphflow.OrderBy

open Lib Storage

structure TuplePtr where
  keyBlock : ℕ
  offset : ℕ
  deriving DecidableEq, Repr

def TuplePtr.advance (ptr : TuplePtr) (numBytes : ℕ) : TuplePtr :=
  { ptr with offset := ptr.offset + numBytes }

@[simp] theorem TuplePtr.advance_mk (keyBlock offset numBytes : ℕ) :
    TuplePtr.advance ⟨keyBlock, offset⟩ numBytes = ⟨keyBlock, offset + numBytes⟩ := rfl

/-- The buffers of all key blocks. -/
abbrev KeyBlockMemory := ℕ → Memory

def numKeyBlocks (numTuplesPerBlock numTuples : ℕ) : ℕ :=
  numTuples / numTuplesPerBlock + (if numTuples % numTuplesPerBlock ≠ 0 then 1 else 0)

structure MergedKeyBlocks where
  numBytesPerTuple : ℕ
  numTuples : ℕ
  keyBlocks : List ℕ
  numBytesPerTuple_pos : 0 < numBytesPerTuple
  numBytesPerTuple_le : numBytesPerTuple ≤ largePageSize
  nodup_keyBlocks : keyBlocks.Nodup
  numTuples_le : numTuples ≤ keyBlocks.length * (largePageSize / numBytesPerTuple)
  deriving DecidableEq

namespace MergedKeyBlocks

variable {b result : MergedKeyBlocks} {memory : KeyBlockMemory} {i j idx : ℕ} {tuple : List UInt8}

def numTuplesPerBlock (b : MergedKeyBlocks) : ℕ := largePageSize / b.numBytesPerTuple

def endTupleOffset (b : MergedKeyBlocks) : ℕ := b.numTuplesPerBlock * b.numBytesPerTuple

/-! ## The constructors -/

theorem le_numKeyBlocks_mul {numTuplesPerBlock : ℕ} (hpos : 0 < numTuplesPerBlock)
    (numTuples : ℕ) :
    numTuples ≤ numKeyBlocks numTuplesPerBlock numTuples * numTuplesPerBlock := by
  have hdiv := Nat.div_add_mod' numTuples numTuplesPerBlock
  have hlt := Nat.mod_lt numTuples hpos
  rw [numKeyBlocks, Nat.add_mul]
  split_ifs with hrest
  · omega
  · omega

/-- New key blocks for a number of tuples.  The memory manager gives blocks that are not in use,
the first of which is `newKeyBlock`. -/
def allocate (numBytesPerTuple numTuples newKeyBlock : ℕ) (hpos : 0 < numBytesPerTuple)
    (hle : numBytesPerTuple ≤ largePageSize) : MergedKeyBlocks where
  numBytesPerTuple := numBytesPerTuple
  numTuples := numTuples
  keyBlocks := List.range' newKeyBlock (numKeyBlocks (largePageSize / numBytesPerTuple) numTuples)
  numBytesPerTuple_pos := hpos
  numBytesPerTuple_le := hle
  nodup_keyBlocks := List.nodup_range'
  numTuples_le := by
    rw [List.length_range']
    exact le_numKeyBlocks_mul (Nat.div_pos hle hpos) numTuples

/-- The constructor for a key block that a thread has sorted. -/
def ofKeyBlock (numBytesPerTuple numTuples keyBlock : ℕ) (hpos : 0 < numBytesPerTuple)
    (hle : numBytesPerTuple ≤ largePageSize)
    (hnumTuples : numTuples ≤ largePageSize / numBytesPerTuple) : MergedKeyBlocks where
  numBytesPerTuple := numBytesPerTuple
  numTuples := numTuples
  keyBlocks := [keyBlock]
  numBytesPerTuple_pos := hpos
  numBytesPerTuple_le := hle
  nodup_keyBlocks := List.nodup_singleton keyBlock
  numTuples_le := by
    rw [List.length_singleton, Nat.one_mul]
    exact hnumTuples

/-! ## Where the tuples are -/

def tuplePtr (b : MergedKeyBlocks) (tupleIdx : ℕ) : TuplePtr :=
  ⟨b.keyBlocks.getD (tupleIdx / b.numTuplesPerBlock) 0,
    b.numBytesPerTuple * (tupleIdx % b.numTuplesPerBlock)⟩

def getTuple (b : MergedKeyBlocks) (tupleIdx : ℕ) : Except Fault TuplePtr :=
  if tupleIdx < b.numTuples then .ok (b.tuplePtr tupleIdx) else .error .invalidAccess

def getKeyBlockBuffer (b : MergedKeyBlocks) (idx : ℕ) : Except Fault TuplePtr :=
  match b.keyBlocks[idx]? with
  | some keyBlock => .ok ⟨keyBlock, 0⟩
  | none => .error .invalidAccess

def getBlockEndTuplePtr (b : MergedKeyBlocks) (blockIdx endTupleIdx endTupleBlockIdx : ℕ) :
    Except Fault TuplePtr := do
  if b.keyBlocks.length ≤ blockIdx then throw .invalidAccess
  if endTupleIdx = 0 then b.getKeyBlockBuffer 0
  else if blockIdx = endTupleBlockIdx then
    return (← b.getTuple (endTupleIdx - 1)).advance b.numBytesPerTuple
  else return (← b.getKeyBlockBuffer blockIdx).advance b.endTupleOffset

theorem numTuplesPerBlock_pos (b : MergedKeyBlocks) : 0 < b.numTuplesPerBlock :=
  Nat.div_pos b.numBytesPerTuple_le b.numBytesPerTuple_pos

theorem blockIdx_lt (hidx : idx < b.numTuples) :
    idx / b.numTuplesPerBlock < b.keyBlocks.length := by
  apply Nat.div_lt_of_lt_mul
  rw [Nat.mul_comm]
  exact lt_of_lt_of_le hidx b.numTuples_le

theorem getTuple_of_lt (hidx : idx < b.numTuples) : b.getTuple idx = .ok (b.tuplePtr idx) :=
  if_pos hidx

theorem getTuple_of_le (hidx : b.numTuples ≤ idx) : b.getTuple idx = .error .invalidAccess :=
  if_neg (Nat.not_lt.mpr hidx)

theorem getKeyBlockBuffer_of_lt (h : i < b.keyBlocks.length) :
    b.getKeyBlockBuffer i = .ok ⟨b.keyBlocks.getD i 0, 0⟩ := by
  rw [getKeyBlockBuffer, List.getElem?_eq_getElem h, List.getD_eq_getElem _ _ h]

theorem getD_keyBlocks_inj (hi : i < b.keyBlocks.length) (hj : j < b.keyBlocks.length) :
    b.keyBlocks.getD i 0 = b.keyBlocks.getD j 0 ↔ i = j := by
  rw [List.getD_eq_getElem _ _ hi, List.getD_eq_getElem _ _ hj]
  exact b.nodup_keyBlocks.getElem_inj_iff

theorem getD_keyBlocks_mem (hi : i < b.keyBlocks.length) : b.keyBlocks.getD i 0 ∈ b.keyBlocks := by
  rw [List.getD_eq_getElem _ _ hi]
  exact List.getElem_mem hi

/-- A tuple of a block by its place in it. -/
theorem tuplePtr_mul_add (hj : j < b.numTuplesPerBlock) :
    b.tuplePtr (b.numTuplesPerBlock * i + j) =
      ⟨b.keyBlocks.getD i 0, b.numBytesPerTuple * j⟩ := by
  rw [tuplePtr, Nat.mul_add_div b.numTuplesPerBlock_pos, Nat.div_eq_of_lt hj, Nat.add_zero,
    Nat.mul_add_mod, Nat.mod_eq_of_lt hj]

/-- Two tuples are in different blocks, or one ends where the other starts or before. -/
theorem tuplePtr_apart (hi : i < b.numTuples) (hj : j < b.numTuples) (hne : i ≠ j) :
    (b.tuplePtr i).keyBlock ≠ (b.tuplePtr j).keyBlock ∨
      (b.tuplePtr i).offset + b.numBytesPerTuple ≤ (b.tuplePtr j).offset ∨
      (b.tuplePtr j).offset + b.numBytesPerTuple ≤ (b.tuplePtr i).offset := by
  by_cases hblock : i / b.numTuplesPerBlock = j / b.numTuplesPerBlock
  · right
    have hi' := Nat.div_add_mod i b.numTuplesPerBlock
    have hj' := Nat.div_add_mod j b.numTuplesPerBlock
    rw [hblock] at hi'
    rcases Nat.lt_or_gt_of_ne hne with hlt | hlt
    · left
      have hmod : i % b.numTuplesPerBlock + 1 ≤ j % b.numTuplesPerBlock := by omega
      have hmul := Nat.mul_le_mul_left b.numBytesPerTuple hmod
      rwa [Nat.mul_add_one] at hmul
    · right
      have hmod : j % b.numTuplesPerBlock + 1 ≤ i % b.numTuplesPerBlock := by omega
      have hmul := Nat.mul_le_mul_left b.numBytesPerTuple hmod
      rwa [Nat.mul_add_one] at hmul
  · left
    exact fun heq ↦ hblock ((getD_keyBlocks_inj (blockIdx_lt hi) (blockIdx_lt hj)).mp heq)

/-! ## What the tuples are -/

def tupleAt (b : MergedKeyBlocks) (memory : KeyBlockMemory) (tupleIdx : ℕ) : List UInt8 :=
  readAt (memory (b.tuplePtr tupleIdx).keyBlock) (b.tuplePtr tupleIdx).offset b.numBytesPerTuple

def contents (b : MergedKeyBlocks) (memory : KeyBlockMemory) : List (List UInt8) :=
  (List.range b.numTuples).map (b.tupleAt memory)

def isTuplePtr (b : MergedKeyBlocks) (ptr : TuplePtr) : Bool :=
  (List.range b.numTuples).any fun tupleIdx ↦ b.tuplePtr tupleIdx = ptr

/-- Reading at a pointer that is not one of a tuple is a fault. -/
def readTuple (b : MergedKeyBlocks) (memory : KeyBlockMemory) (ptr : TuplePtr)
    (numBytesPerTuple : ℕ) : Except Fault (List UInt8) :=
  if b.isTuplePtr ptr then .ok (readAt (memory ptr.keyBlock) ptr.offset numBytesPerTuple)
  else .error .invalidAccess

/-- The `memcpy` of a tuple to a pointer. -/
def writeTuple (b : MergedKeyBlocks) (memory : KeyBlockMemory) (ptr : TuplePtr)
    (tuple : List UInt8) : Except Fault KeyBlockMemory :=
  if b.isTuplePtr ptr then
    .ok (Function.update memory ptr.keyBlock (overwrite (memory ptr.keyBlock) ptr.offset tuple))
  else .error .invalidAccess

@[simp] theorem length_contents (b : MergedKeyBlocks) (memory : KeyBlockMemory) :
    (b.contents memory).length = b.numTuples := by
  rw [contents, List.length_map, List.length_range]

@[simp] theorem getElem_contents (h : i < (b.contents memory).length) :
    (b.contents memory)[i] = b.tupleAt memory i := by
  simp only [contents, List.getElem_map, List.getElem_range]

@[simp] theorem length_tupleAt (b : MergedKeyBlocks) (memory : KeyBlockMemory) (tupleIdx : ℕ) :
    (b.tupleAt memory tupleIdx).length = b.numBytesPerTuple :=
  length_readAt _ _ _

theorem isTuplePtr_tuplePtr (hidx : idx < b.numTuples) : b.isTuplePtr (b.tuplePtr idx) = true := by
  rw [isTuplePtr, List.any_eq_true]
  exact ⟨idx, List.mem_range.mpr hidx, decide_eq_true rfl⟩

theorem readTuple_tuplePtr (hidx : idx < b.numTuples) :
    b.readTuple memory (b.tuplePtr idx) b.numBytesPerTuple = .ok (b.tupleAt memory idx) :=
  if_pos (isTuplePtr_tuplePtr hidx)

/-- After a tuple has been written it is there, and all other tuples are as before. -/
theorem exists_writeTuple (hidx : idx < b.numTuples) (hlength : tuple.length = b.numBytesPerTuple) :
    ∃ memory', b.writeTuple memory (b.tuplePtr idx) tuple = .ok memory' ∧
      b.tupleAt memory' idx = tuple ∧
      (∀ i < b.numTuples, i ≠ idx → b.tupleAt memory' i = b.tupleAt memory i) ∧
      ∀ keyBlock ∉ b.keyBlocks, memory' keyBlock = memory keyBlock := by
  refine ⟨_, if_pos (isTuplePtr_tuplePtr hidx), ?_, ?_, ?_⟩
  · rw [tupleAt, Function.update_self, ← hlength]
    exact readAt_overwrite _ _ _
  · intro i hi hne
    rw [tupleAt, tupleAt]
    by_cases hblock : (b.tuplePtr i).keyBlock = (b.tuplePtr idx).keyBlock
    · rw [hblock, Function.update_self]
      apply readAt_overwrite_of_disjoint
      rw [hlength]
      exact (tuplePtr_apart hi hidx hne).resolve_left (not_not_intro hblock)
    · rw [Function.update_of_ne hblock]
  · intro keyBlock hkeyBlock
    apply Function.update_of_ne
    rintro rfl
    exact hkeyBlock (getD_keyBlocks_mem (blockIdx_lt hidx))

/-- Blocks whose buffers do not change keep their tuples. -/
theorem tupleAt_congr {memory' : KeyBlockMemory} (hidx : idx < b.numTuples)
    (h : ∀ keyBlock ∈ b.keyBlocks, memory' keyBlock = memory keyBlock) :
    b.tupleAt memory' idx = b.tupleAt memory idx := by
  have hblock : memory' (b.tuplePtr idx).keyBlock = memory (b.tuplePtr idx).keyBlock :=
    h _ (getD_keyBlocks_mem (blockIdx_lt hidx))
  rw [tupleAt, tupleAt, hblock]

theorem contents_congr {memory' : KeyBlockMemory}
    (h : ∀ keyBlock ∈ b.keyBlocks, memory' keyBlock = memory keyBlock) :
    b.contents memory' = b.contents memory := by
  apply List.map_congr_left
  intro i hi
  exact tupleAt_congr (List.mem_range.mp hi) h

end MergedKeyBlocks

end Graphflow.OrderBy
