import Graphflow.Lib.BitField
import Graphflow.Processor.ValueVector

/-!
# Null masks

A vector keeps one bit for each of its positions, in entries of 64 bits, and a flag that is to be
set when a bit is.  The masks that single out bits of an entry are tables of constants.
-/

namespace Graphflow.Processor

open Lib Storage

/-- `NUM_BITS_PER_NULL_ENTRY_LOG2`. -/
def numBitsPerNullEntryLog2 : ℕ := 6

def numBitsPerNullEntry : ℕ := 1 <<< numBitsPerNullEntryLog2

def numNullEntries : ℕ := defaultVectorCapacity >>> numBitsPerNullEntryLog2

def nullBitmasksWithSingleOne : List (BitVec 64) :=
  [0x1, 0x2, 0x4, 0x8, 0x10, 0x20, 0x40, 0x80, 0x100, 0x200, 0x400, 0x800, 0x1000, 0x2000, 0x4000,
    0x8000, 0x10000, 0x20000, 0x40000, 0x80000, 0x100000, 0x200000, 0x400000, 0x800000, 0x1000000,
    0x2000000, 0x4000000, 0x8000000, 0x10000000, 0x20000000, 0x40000000, 0x80000000, 0x100000000,
    0x200000000, 0x400000000, 0x800000000, 0x1000000000, 0x2000000000, 0x4000000000, 0x8000000000,
    0x10000000000, 0x20000000000, 0x40000000000, 0x80000000000, 0x100000000000, 0x200000000000,
    0x400000000000, 0x800000000000, 0x1000000000000, 0x2000000000000, 0x4000000000000,
    0x8000000000000, 0x10000000000000, 0x20000000000000, 0x40000000000000, 0x80000000000000,
    0x100000000000000, 0x200000000000000, 0x400000000000000, 0x800000000000000, 0x1000000000000000,
    0x2000000000000000, 0x4000000000000000, 0x8000000000000000]

def nullLowerMasks : List (BitVec 64) :=
  [0x0, 0x1, 0x3, 0x7, 0xf, 0x1f, 0x3f, 0x7f, 0xff, 0x1ff, 0x3ff, 0x7ff, 0xfff, 0x1fff, 0x3fff,
    0x7fff, 0xffff, 0x1ffff, 0x3ffff, 0x7ffff, 0xfffff, 0x1fffff, 0x3fffff, 0x7fffff, 0xffffff,
    0x1ffffff, 0x3ffffff, 0x7ffffff, 0xfffffff, 0x1fffffff, 0x3fffffff, 0x7fffffff, 0xffffffff,
    0x1ffffffff, 0x3ffffffff, 0x7ffffffff, 0xfffffffff, 0x1fffffffff, 0x3fffffffff, 0x7fffffffff,
    0xffffffffff, 0x1ffffffffff, 0x3ffffffffff, 0x7ffffffffff, 0xfffffffffff, 0x1fffffffffff,
    0x3fffffffffff, 0x7fffffffffff, 0xffffffffffff, 0x1ffffffffffff, 0x3ffffffffffff,
    0x7ffffffffffff, 0xfffffffffffff, 0x1fffffffffffff, 0x3fffffffffffff, 0x7fffffffffffff,
    0xffffffffffffff, 0x1ffffffffffffff, 0x3ffffffffffffff, 0x7ffffffffffffff, 0xfffffffffffffff,
    0x1fffffffffffffff, 0x3fffffffffffffff, 0x7fffffffffffffff, 0xffffffffffffffff]

def nullHighMasks : List (BitVec 64) :=
  [0x0, 0x8000000000000000, 0xc000000000000000, 0xe000000000000000, 0xf000000000000000,
    0xf800000000000000, 0xfc00000000000000, 0xfe00000000000000, 0xff00000000000000,
    0xff80000000000000, 0xffc0000000000000, 0xffe0000000000000, 0xfff0000000000000,
    0xfff8000000000000, 0xfffc000000000000, 0xfffe000000000000, 0xffff000000000000,
    0xffff800000000000, 0xffffc00000000000, 0xffffe00000000000, 0xfffff00000000000,
    0xfffff80000000000, 0xfffffc0000000000, 0xfffffe0000000000, 0xffffff0000000000,
    0xffffff8000000000, 0xffffffc000000000, 0xffffffe000000000, 0xfffffff000000000,
    0xfffffff800000000, 0xfffffffc00000000, 0xfffffffe00000000, 0xffffffff00000000,
    0xffffffff80000000, 0xffffffffc0000000, 0xffffffffe0000000, 0xfffffffff0000000,
    0xfffffffff8000000, 0xfffffffffc000000, 0xfffffffffe000000, 0xffffffffff000000,
    0xffffffffff800000, 0xffffffffffc00000, 0xffffffffffe00000, 0xfffffffffff00000,
    0xfffffffffff80000, 0xfffffffffffc0000, 0xfffffffffffe0000, 0xffffffffffff0000,
    0xffffffffffff8000, 0xffffffffffffc000, 0xffffffffffffe000, 0xfffffffffffff000,
    0xfffffffffffff800, 0xfffffffffffffc00, 0xfffffffffffffe00, 0xffffffffffffff00,
    0xffffffffffffff80, 0xffffffffffffffc0, 0xffffffffffffffe0, 0xfffffffffffffff0,
    0xfffffffffffffff8, 0xfffffffffffffffc, 0xfffffffffffffffe, 0xffffffffffffffff]

/-- Reading an entry of a mask or of a table, which must exist. -/
def entryAt (entries : List (BitVec 64)) (pos : ℕ) : Except ExecutionFault (BitVec 64) :=
  match entries[pos]? with
  | some entry => .ok entry
  | none => .error .invalidAccess

structure NullMask where
  data : List (BitVec 64)
  mayContainNulls : Bool
  length_data : data.length = numNullEntries

/-- The static function: the entries may be those of a page.  Behind the last one nothing is
null. -/
def isNullIn (nullEntries : List (BitVec 64)) (pos : ℕ) : Bool :=
  let entryPos := pos >>> numBitsPerNullEntryLog2
  let bitPosInEntry := pos - (entryPos <<< numBitsPerNullEntryLog2)
  nullEntries.getD entryPos 0 &&& nullBitmasksWithSingleOne.getD bitPosInEntry 0 ≠ 0

namespace NullMask

/-- The constructor fills all entries with `NO_NULL_ENTRY`. -/
def new : NullMask where
  data := List.replicate numNullEntries 0
  mayContainNulls := false
  length_data := List.length_replicate

def isNull (nullMask : NullMask) (pos : ℕ) : Bool := isNullIn nullMask.data pos

def setMayContainNulls (nullMask : NullMask) : NullMask := { nullMask with mayContainNulls := true }

/-- An assignment to an entry of `getData()`. -/
def setEntry (nullMask : NullMask) (entryPos : ℕ) (entry : BitVec 64) : NullMask where
  data := nullMask.data.set entryPos entry
  mayContainNulls := nullMask.mayContainNulls
  length_data := by rw [List.length_set, nullMask.length_data]

end NullMask

/-! ## The tables -/

section Tables

variable {entries : List (BitVec 64)} {entry : BitVec 64} {n pos i : ℕ}

theorem entryAt_eq_ok (h : entries[pos]? = some entry) : entryAt entries pos = .ok entry := by
  rw [entryAt, h]

theorem entryAt_nullLowerMasks (hn : n ≤ 64) : entryAt nullLowerMasks n = .ok (lowerOnes 64 n) := by
  have htable : ∀ n < 65, nullLowerMasks[n]? = some (lowerOnes 64 n) := by decide +kernel
  exact entryAt_eq_ok (htable n (Nat.lt_succ_of_le hn))

theorem entryAt_nullHighMasks (hn : n ≤ 64) : entryAt nullHighMasks n = .ok (upperOnes 64 n) := by
  have htable : ∀ n < 65, nullHighMasks[n]? = some (upperOnes 64 n) := by decide +kernel
  exact entryAt_eq_ok (htable n (Nat.lt_succ_of_le hn))

theorem nullBitmasksWithSingleOne_eq (hi : i < 64) :
    nullBitmasksWithSingleOne[i]? = some (BitVec.twoPow 64 i) := by
  have htable : ∀ i < 64, nullBitmasksWithSingleOne[i]? = some (BitVec.twoPow 64 i) := by
    decide +kernel
  exact htable i hi

end Tables

/-! ## The bits of a mask -/

section Bits

variable {nullEntries : List (BitVec 64)} {nullMask nullMask' : NullMask} {entry : BitVec 64}
  {pos pos' entryPos : ℕ}

/-- Where a position lies. -/
theorem entryPos_eq (pos : ℕ) : pos >>> numBitsPerNullEntryLog2 = pos / 64 :=
  Nat.shiftRight_eq_div_pow pos 6

theorem bitPosInEntry_eq (pos : ℕ) :
    pos - (pos >>> numBitsPerNullEntryLog2) <<< numBitsPerNullEntryLog2 = pos % 64 := by
  have hstart : pos >>> numBitsPerNullEntryLog2 <<< numBitsPerNullEntryLog2 = pos / 64 * 64 := by
    rw [entryPos_eq]
    exact Nat.shiftLeft_eq (pos / 64) 6
  omega

theorem and_twoPow_ne_zero_iff {i : ℕ} (hi : i < 64) :
    entry &&& BitVec.twoPow 64 i ≠ 0 ↔ entry.getLsbD i = true := by
  rw [BitVec.and_twoPow]
  split_ifs with hbit
  · refine ⟨fun _ ↦ hbit, fun _ hzero ↦ ?_⟩
    have hset := congrArg (·.getLsbD i) hzero
    simp [hi] at hset
  · exact ⟨fun h ↦ absurd rfl h, fun h ↦ absurd h hbit⟩

theorem isNullIn_eq_bitAt (nullEntries : List (BitVec 64)) (pos : ℕ) :
    isNullIn nullEntries pos = bitAt nullEntries pos := by
  have hlt := Nat.mod_lt pos (by decide : 0 < 64)
  have hmask : nullBitmasksWithSingleOne.getD (pos % 64) 0 = BitVec.twoPow 64 (pos % 64) := by
    rw [List.getD_eq_getElem?_getD, nullBitmasksWithSingleOne_eq hlt, Option.getD_some]
  rw [isNullIn, bitPosInEntry_eq, entryPos_eq, hmask, bitAt, Bool.eq_iff_iff, decide_eq_true_eq]
  exact and_twoPow_ne_zero_iff hlt

theorem NullMask.isNull_eq_bitAt (nullMask : NullMask) (pos : ℕ) :
    nullMask.isNull pos = bitAt nullMask.data pos := isNullIn_eq_bitAt _ _

/-- A mask is known by its bits and its flag. -/
theorem NullMask.eq_of_isNull_eq (hbits : ∀ pos, nullMask.isNull pos = nullMask'.isNull pos)
    (hflag : nullMask.mayContainNulls = nullMask'.mayContainNulls) : nullMask = nullMask' := by
  have hdata : nullMask.data = nullMask'.data := by
    apply eq_of_bitAt_eq (nullMask.length_data.trans nullMask'.length_data.symm)
    intro pos
    rw [← isNull_eq_bitAt, ← isNull_eq_bitAt]
    exact hbits pos
  cases nullMask
  cases nullMask'
  cases hdata
  cases hflag
  rfl

theorem NullMask.exists_entryAt (nullMask : NullMask) (hpos : entryPos < numNullEntries) :
    ∃ entry, nullMask.data[entryPos]? = some entry := by
  rw [← nullMask.length_data] at hpos
  exact ⟨_, List.getElem?_eq_getElem hpos⟩

theorem NullMask.isNull_setEntry (nullMask : NullMask) (hpos : entryPos < numNullEntries)
    (entry : BitVec 64) (pos : ℕ) : (nullMask.setEntry entryPos entry).isNull pos =
      if pos / 64 = entryPos then entry.getLsbD (pos % 64) else nullMask.isNull pos := by
  rw [isNull_eq_bitAt, isNull_eq_bitAt]
  split_ifs with h
  · exact bitAt_set_self (nullMask.length_data.symm ▸ hpos) h
  · exact bitAt_set_of_ne h

end Bits

end Graphflow.Processor
