import Graphflow.Result.ListValues

/-!
# Copying lists

`copyListRecursiveIfNested` copies the elements of a list as they are, with the pointers that
strings and lists among them have, and then copies each of these once more into memory of its own.
-/

namespace Graphflow.Result

open Lib Processor

/-! ## The copy -/

namespace GfList

/-- The sentinel for the last element. -/
def uint32Max : ℕ := 2 ^ 32 - 1

/-- The index of the last element to be copied. -/
def endIdx (m : Memory) (src srcEndIdx : ℕ) : ℕ :=
  if srcEndIdx = uint32Max then lastIdx m src % 2 ^ 32 else srcEndIdx

/-- Some elements of a list and where they have been copied. -/
structure CopiedElements where
  numElements : ℕ
  srcPtr : ℕ
  destPtr : ℕ
  deriving DecidableEq, Repr

/-- Only elements that the list has are read. -/
def readElements (m : Memory) (size srcPtr srcStartIdx numElements numBytes : ℕ) :
    Except ListFault (List UInt8) :=
  if numElements = 0 ∨ srcStartIdx + numElements ≤ size then .ok (readAt m srcPtr numBytes)
  else .error (.execution .invalidAccess)

/-- What comes before the loops.  Indexes and sizes have 32 bits, the number of elements of a list
has 64. -/
@[irreducible]
def copyElementBytes (elementSize : ℕ) (manager : MemoryManager) (buffer : OverflowBuffer)
    (src dest srcStartIdx srcEndIdx : ℕ) :
    Except ListFault (CopiedElements × MemoryManager × OverflowBuffer) :=
  let size := size manager.memory src
  let srcEndIdx := endIdx manager.memory src srcEndIdx
  if size ≤ srcEndIdx then .error .assertion
  else do
    let numElements := (srcEndIdx + 2 ^ 32 - srcStartIdx + 1) % 2 ^ 32
    let numBytes := numElements * elementSize % 2 ^ 32
    let srcPtr := overflowPtr manager.memory src + srcStartIdx * elementSize % 2 ^ 32
    let (destPtr, manager, buffer) ←
      (buffer.allocateSpace manager numBytes).mapError ListFault.execution
    let manager := manager.write (dest + 8) (littleEndian 8 destPtr)
    let bytes ← readElements manager.memory size srcPtr srcStartIdx numElements numBytes
    let manager := (manager.write destPtr bytes).write dest (littleEndian 8 numElements)
    return (⟨numElements, srcPtr, destPtr⟩, manager, buffer)

/-- The loops. -/
def copyElements (elementSize : ℕ) (elements : CopiedElements)
    (copyElement : MemoryManager → OverflowBuffer → (src dest : ℕ) →
      Except ListFault (MemoryManager × OverflowBuffer))
    (manager : MemoryManager) (buffer : OverflowBuffer) :
    Except ListFault (MemoryManager × OverflowBuffer) :=
  (List.range elements.numElements).foldlM (fun (manager, buffer) i ↦
    copyElement manager buffer (elements.srcPtr + i * elementSize)
      (elements.destPtr + i * elementSize)) (manager, buffer)

/-- `copyString` of a string in memory. -/
def copyStringFrom (manager : MemoryManager) (buffer : OverflowBuffer) (src dest : ℕ) :
    Except ListFault (MemoryManager × OverflowBuffer) :=
  (copyString manager buffer (readString manager.memory src) dest).mapError ListFault.execution

def copyListRecursiveIfNested : ElementType → MemoryManager → OverflowBuffer →
    (src dest srcStartIdx srcEndIdx : ℕ) → Except ListFault (MemoryManager × OverflowBuffer)
  | .value type, manager, buffer, src, dest, srcStartIdx, srcEndIdx => do
      let (elements, manager, buffer) ←
        copyElementBytes type.getDataTypeSize manager buffer src dest srcStartIdx srcEndIdx
      if type = .string then copyElements 16 elements copyStringFrom manager buffer
      else return (manager, buffer)
  | .list childType, manager, buffer, src, dest, srcStartIdx, srcEndIdx => do
      let (elements, manager, buffer) ←
        copyElementBytes 16 manager buffer src dest srcStartIdx srcEndIdx
      copyElements 16 elements (fun manager buffer src dest ↦
        copyListRecursiveIfNested childType manager buffer src dest 0 uint32Max) manager buffer

end GfList

/-- `copyNonNullDataWithSameType`, for types other than UNSTRUCTURED. -/
def copyNonNullDataWithSameType (type : ElementType) (manager : MemoryManager)
    (buffer : OverflowBuffer) (srcData dstData : ℕ) :
    Except ListFault (MemoryManager × OverflowBuffer) :=
  match type with
  | .value type =>
      if type = .string then GfList.copyStringFrom manager buffer srcData dstData
      else .ok (manager.write dstData (readAt manager.memory srcData type.getDataTypeSize), buffer)
  | .list childType =>
      GfList.copyListRecursiveIfNested childType manager buffer srcData dstData 0 GfList.uint32Max

/-! ## Blocks that copying needs -/

section Frames

variable {manager : MemoryManager} {buffer : OverflowBuffer} {size : ℕ}

/-- What an allocation leaves if there is a frame for it, and why it fails. -/
def TakesFrames (manager : MemoryManager) (numAllocations : ℕ) (manager' : MemoryManager) : Prop :=
  manager'.maxNumBlocks = manager.maxNumBlocks ∧
    manager'.numBlocks ≤ manager.numBlocks + numAllocations

theorem allocateNewBlock_frames (manager : MemoryManager) (buffer : OverflowBuffer) :
    Outcome (fun _ ↦ manager.maxNumBlocks < manager.numBlocks + 1)
      (fun result ↦ TakesFrames manager 1 result.1) (buffer.allocateNewBlock manager) := by
  rw [OverflowBuffer.allocateNewBlock, MemoryManager.allocateBlock]
  split_ifs with hlt
  · exact ⟨rfl, Nat.le_refl _⟩
  · change manager.maxNumBlocks < manager.numBlocks + 1
    omega

theorem TakesFrames.refl (manager : MemoryManager) : TakesFrames manager 1 manager :=
  ⟨rfl, Nat.le_succ _⟩

theorem takeSpace_error {e : ExecutionFault} (h : buffer.takeSpace size = .error e) :
    e = .invalidAccess := by
  rw [OverflowBuffer.takeSpace] at h
  split at h
  · exact (Except.error.inj h).symm
  · split at h
    · exact (Except.error.inj h).symm
    · cases h

theorem allocateSpace_frames (hsize : size ≤ largePageSize) :
    Outcome (fun e ↦ e = MemoryManager.outOfFrames → manager.maxNumBlocks < manager.numBlocks + 1)
      (fun result ↦ TakesFrames manager 1 result.2.1) (buffer.allocateSpace manager size) := by
  have hnew : Outcome
      (fun e ↦ e = MemoryManager.outOfFrames → manager.maxNumBlocks < manager.numBlocks + 1)
      (fun result ↦ TakesFrames manager 1 result.1) (buffer.allocateNewBlock manager) :=
    (allocateNewBlock_frames manager buffer).mono (fun _ h _ ↦ h) fun _ h ↦ h
  have hensure : Outcome
      (fun e ↦ e = MemoryManager.outOfFrames → manager.maxNumBlocks < manager.numBlocks + 1)
      (fun result ↦ TakesFrames manager 1 result.1) (buffer.ensureSpace manager size) := by
    rw [OverflowBuffer.ensureSpace, OverflowBuffer.requireNewBlock, if_neg (Nat.not_lt.mpr hsize)]
    cases buffer.currentBlock with
    | none => exact hnew
    | some i =>
        cases hget : buffer.blocks[i]? with
        | none =>
            simp only [hget]
            intro hframes
            cases hframes
        | some block =>
            simp only [hget, ok_bind]
            split_ifs
            · exact hnew
            · exact TakesFrames.refl manager
  refine hensure.bind ?_
  rintro ⟨manager', buffer'⟩ hframes
  cases htake : buffer'.takeSpace size with
  | error e =>
      have hne : e = .invalidAccess := takeSpace_error htake
      simp only [htake]
      rw [hne]
      intro hframes
      cases hframes
  | ok result =>
      simp only [htake]
      exact hframes

theorem copyString_frames {src : List UInt8} (hsize : src.length ≤ largePageSize) (dst : ℕ) :
    Outcome (fun e ↦ e = MemoryManager.outOfFrames → manager.maxNumBlocks < manager.numBlocks + 1)
      (fun result ↦ TakesFrames manager 1 result.1) (copyString manager buffer src dst) := by
  rw [copyString]
  split_ifs
  · exact TakesFrames.refl manager
  · exact (allocateSpace_frames hsize).bind fun _ hframes ↦ hframes

end Frames

/-! ## What copying leaves alone -/

/-- There are not enough frames. -/
def OutOfFrames (manager : MemoryManager) (numAllocations : ℕ) (e : ListFault) : Prop :=
  e = .execution MemoryManager.outOfFrames ∧
    manager.maxNumBlocks < manager.numBlocks + numAllocations

/-- The buffer has given out more, and settled memory has changed at touched addresses only. -/
structure Expands (manager manager' : MemoryManager) (buffer buffer' : OverflowBuffer)
    (numAllocations : ℕ) (touched : Set ℕ) : Prop where
  takes : TakesFrames manager numAllocations manager'
  nextBlock_le : manager.nextBlock ≤ manager'.nextBlock
  wellFormed : buffer'.WellFormed manager'
  used_subset : buffer.used ⊆ buffer'.used
  blockData : ∀ d ∈ buffer'.blockData, d ∈ buffer.blockData ∨ manager.nextBlock ≤ d
  memory : ∀ a ∈ buffer.settled manager, a ∉ touched → manager'.memory a = manager.memory a

section Expanding

variable {manager manager' manager'' : MemoryManager} {buffer buffer' buffer'' : OverflowBuffer}
  {n n' : ℕ} {touched touched' : Set ℕ} {a : ℕ}

theorem used_subset_settled (h : buffer.WellFormed manager) :
    buffer.used ⊆ buffer.settled manager := fun _ ha ↦
  ⟨inBlocks_lt_nextBlock h.isBlock (h.used_subset_inBlocks ha), fun _ ↦ ha⟩

theorem Expands.refl (h : buffer.WellFormed manager) :
    Expands manager manager buffer buffer 0 ∅ :=
  ⟨⟨rfl, Nat.le_refl _⟩, Nat.le_refl _, h, Set.Subset.rfl, fun _ ↦ .inl, fun _ _ _ ↦ rfl⟩

theorem Expands.settled_subset (h : Expands manager manager' buffer buffer' n touched) :
    buffer.settled manager ⊆ buffer'.settled manager' := by
  rintro a ⟨hlt, hsettled⟩
  refine ⟨Nat.lt_of_lt_of_le hlt h.nextBlock_le, fun ⟨d, hd, hle, hlt'⟩ ↦ ?_⟩
  rcases h.blockData d hd with hold | hnew
  · exact h.used_subset (hsettled ⟨d, hold, hle, hlt'⟩)
  · omega

theorem Expands.trans (h : Expands manager manager' buffer buffer' n touched)
    (h' : Expands manager' manager'' buffer' buffer'' n' touched') :
    Expands manager manager'' buffer buffer'' (n + n') (touched ∪ touched') := by
  refine ⟨⟨h'.takes.1.trans h.takes.1, ?_⟩, h.nextBlock_le.trans h'.nextBlock_le, h'.wellFormed,
    h.used_subset.trans h'.used_subset, fun d hd ↦ ?_, fun a ha hnot ↦ ?_⟩
  · have hle := h.takes.2
    have hle' := h'.takes.2
    omega
  · rcases h'.blockData d hd with hd | hd
    · exact h.blockData d hd
    · exact .inr (h.nextBlock_le.trans hd)
  · rw [Set.mem_union, not_or] at hnot
    rw [h'.memory a (h.settled_subset ha) hnot.2, h.memory a ha hnot.1]

theorem Expands.mono (h : Expands manager manager' buffer buffer' n touched) (hn : n ≤ n')
    (hsubset : ∀ a ∈ buffer.settled manager, a ∈ touched → a ∈ touched') :
    Expands manager manager' buffer buffer' n' touched' :=
  ⟨⟨h.takes.1, h.takes.2.trans (Nat.add_le_add_left hn _)⟩, h.nextBlock_le, h.wellFormed,
    h.used_subset, h.blockData, fun a ha hnot ↦ h.memory a ha fun hin ↦ hnot (hsubset a ha hin)⟩

/-- Enough frames for a step and the rest are enough for the step. -/
theorem OutOfFrames.of_expands {e : ListFault}
    (h : Expands manager manager' buffer buffer' n touched)
    (he : OutOfFrames manager' n' e) : OutOfFrames manager (n + n') e := by
  have hle := h.takes.2
  have hlt := he.2
  rw [h.takes.1] at hlt
  exact ⟨he.1, by omega⟩

end Expanding

/-! ## Copying an element -/

/-- The addresses of a value, without those behind its pointers. -/
def cell (type : ElementType) (a : ℕ) : Set ℕ := {b | a ≤ b ∧ b < a + type.getDataTypeSize}

/-- A value that can be copied: neither it nor the place it is copied to is free memory of the
buffer, and they do not overlap. -/
structure CanCopy (manager : MemoryManager) (buffer : OverflowBuffer) (live : Set ℕ)
    (type : ElementType) (src dest : ℕ) (value : ElementValue type) : Prop where
  wellFormed : buffer.WellFormed manager
  stored : ElementAt manager.memory live type src value
  src_settled : cell type src ⊆ buffer.settled manager
  live_settled : live ⊆ buffer.settled manager
  dest_settled : cell type dest ⊆ buffer.settled manager
  apart : ∀ a ∈ cell type dest, a ∉ live ∧ a ∉ cell type src

/-- The value has been copied, and everything behind its pointers to new memory of the buffer. -/
structure CopiedTo (manager manager' : MemoryManager) (buffer buffer' : OverflowBuffer)
    (type : ElementType) (dest : ℕ) (value : ElementValue type) : Prop where
  expands : Expands manager manager' buffer buffer' (value.numAllocations type) (cell type dest)
  stored : ElementAt manager'.memory (buffer'.used \ buffer.used) type dest value

/-- A function that copies elements. -/
abbrev CopyElement := MemoryManager → OverflowBuffer → (src dest : ℕ) →
  Except ListFault (MemoryManager × OverflowBuffer)

def Copies (copyElement : CopyElement) (type : ElementType) (P : ElementValue type → Prop) : Prop :=
  ∀ (manager : MemoryManager) (buffer : OverflowBuffer) (live : Set ℕ) (src dest : ℕ)
    (value : ElementValue type), CanCopy manager buffer live type src dest value → P value →
    Outcome (OutOfFrames manager (value.numAllocations type))
      (fun result ↦ CopiedTo manager result.1 buffer result.2 type dest value)
      (copyElement manager buffer src dest)

section Copying

variable {manager manager' : MemoryManager} {buffer buffer' : OverflowBuffer} {live : Set ℕ}
  {type : ElementType} {src dest : ℕ} {value : ElementValue type}

theorem Expands.of_copied {type : DataType} {bytes : List UInt8} {n : ℕ}
    (h : Copied manager manager' buffer buffer' type dest bytes)
    (htakes : TakesFrames manager n manager') :
    Expands manager manager' buffer buffer' n (cell (.value type) dest) := by
  refine ⟨htakes, h.extends_.nextBlock_le, h.grows.wellFormed, h.grows.used_subset, fun d hd ↦ ?_,
    fun a ha hnot ↦ ?_⟩
  · rcases h.grows.blockData with hdata | hdata
    · rw [hdata] at hd
      exact .inl hd
    · rw [hdata, List.mem_append, List.mem_singleton] at hd
      exact hd.imp id Eq.ge
  · apply h.extends_.memory a ha.1
    rintro (hcell | hfree)
    · exact hnot hcell
    · exact hfree.2 (ha.2 hfree.1)

theorem copies_string : Copies GfList.copyStringFrom (.value .string) fun _ ↦ True := by
  intro manager buffer live src dest value h _
  have hholds : List.length value ≤ largePageSize := h.stored.1
  have hread : readString manager.memory src = value := h.stored.2.readValue_eq
  have hspec := (copyString_spec h.wellFormed hholds
    (fun i hi ↦ h.dest_settled ⟨Nat.le_add_right _ _, Nat.add_lt_add_left hi _⟩)).and
    (copyString_frames hholds dest)
  rw [GfList.copyStringFrom, hread]
  refine (hspec.mono (fun e he ↦ he) ?_).mapError fun e he ↦ ⟨congrArg _ he.1, he.2 he.1⟩
  rintro ⟨manager', buffer'⟩ ⟨hcopied, htakes⟩
  exact ⟨.of_copied hcopied htakes, hholds, hcopied.stored_new⟩

/-! ## Copying the bytes of the elements -/

/-- The list at `dest` has the bytes of `n` elements from `s` on of the list at `src`. -/
structure BytesCopied (manager manager' : MemoryManager) (buffer buffer' : OverflowBuffer)
    (type : ElementType) (src dest s n : ℕ) (elements : GfList.CopiedElements) : Prop where
  expands : Expands manager manager' buffer buffer' 1 (cell (.list type) dest)
  numElements : elements.numElements = n
  srcPtr : elements.srcPtr = GfList.overflowPtr manager.memory src + s * type.getDataTypeSize
  size : GfList.size manager'.memory dest = n
  overflowPtr : GfList.overflowPtr manager'.memory dest = elements.destPtr
  mem_used : ∀ i < n * type.getDataTypeSize, elements.destPtr + i ∈ buffer'.used \ buffer.used
  notMem_settled : ∀ i < n * type.getDataTypeSize,
    elements.destPtr + i ∉ buffer.settled manager
  bytes : ∀ i < n * type.getDataTypeSize,
    manager'.memory (elements.destPtr + i) = manager.memory (elements.srcPtr + i)

theorem copyElementBytes_eq {elementSize s srcEndIdx e n k : ℕ}
    (hend : GfList.endIdx manager.memory src srcEndIdx = e)
    (hlt : e < GfList.size manager.memory src) (hn : (e + 2 ^ 32 - s + 1) % 2 ^ 32 = n)
    (hk : n * elementSize % 2 ^ 32 = k) (hs : s * elementSize % 2 ^ 32 = s * elementSize)
    (hreads : n = 0 ∨ s + n ≤ GfList.size manager.memory src) :
    GfList.copyElementBytes elementSize manager buffer src dest s srcEndIdx = (do
      let srcPtr := GfList.overflowPtr manager.memory src + s * elementSize
      let (destPtr, manager, buffer) ←
        (buffer.allocateSpace manager k).mapError ListFault.execution
      let manager := manager.write (dest + 8) (littleEndian 8 destPtr)
      let manager := manager.write destPtr (readAt manager.memory srcPtr k)
      return (⟨n, srcPtr, destPtr⟩, manager.write dest (littleEndian 8 n), buffer)) := by
  rw [GfList.copyElementBytes]
  simp only [hend, hn, hk, hs, if_neg (Nat.not_le.mpr hlt), GfList.readElements, if_pos hreads,
    ok_bind]

/-- `memcpy` of what lies elsewhere. -/
theorem write_readAt {m : Memory} {a b k i : ℕ} (hi : i < k) :
    (manager.write a (readAt m b k)).memory (a + i) = m (b + i) := by
  change overwrite _ _ _ _ = _
  rw [overwrite, if_pos (Nat.le_add_right a i), Nat.add_sub_cancel_left, getElem?_readAt hi,
    Option.getD_some]

theorem write_of_outside {a b : ℕ} {bytes : List UInt8} (h : b < a ∨ a + bytes.length ≤ b) :
    (manager.write a bytes).memory b = manager.memory b :=
  overwrite_of_outside h

/-- A number that has been written, and then memory elsewhere. -/
theorem ofLittleEndian_write {a n : ℕ} (hn : n < 256 ^ 8) :
    ofLittleEndian (readAt (manager.write a (littleEndian 8 n)).memory a 8) = n := by
  have hself := readAt_overwrite manager.memory a (littleEndian 8 n)
  rw [length_littleEndian] at hself
  exact (congrArg ofLittleEndian hself).trans (ofLittleEndian_littleEndian hn)

/-- The three writes, to memory that the allocation has not changed. -/
theorem bytesCopied_of_gives {manager₁ : MemoryManager} {destPtr srcPtr s n k : ℕ}
    (hn : n < 256 ^ 8) (hk : n * type.getDataTypeSize = k)
    (hpos : 0 < k)
    (hsrc : srcPtr = GfList.overflowPtr manager.memory src + s * type.getDataTypeSize)
    (hdest : cell (.list type) dest ⊆ buffer.settled manager)
    (hsettled : ∀ i < k, srcPtr + i ∈ buffer.settled manager)
    (hapart : ∀ i < k, srcPtr + i ∉ cell (.list type) dest)
    (hextends : manager.Extends manager₁ ∅) (htakes : TakesFrames manager 1 manager₁)
    (hgrows : OverflowBuffer.Grows manager manager₁ buffer buffer')
    (hgives : OverflowBuffer.Gives buffer buffer' destPtr k) :
    BytesCopied manager
      (((manager₁.write (dest + 8) (littleEndian 8 destPtr)).write destPtr
        (readAt (manager₁.write (dest + 8) (littleEndian 8 destPtr)).memory srcPtr k)).write dest
          (littleEndian 8 n)) buffer buffer' type src dest s n ⟨n, srcPtr, destPtr⟩ := by
  have hdisjoint : dest + 16 ≤ destPtr ∨ destPtr + k ≤ dest :=
    disjoint_of_mem (by decide) hpos
      (fun i hi ↦ hdest ⟨Nat.le_add_right _ _, Nat.add_lt_add_left hi _⟩)
      fun i hi ↦ hgives.notMem_settled hgrows hi
  have hptr : destPtr < 256 ^ 8 := by
    obtain ⟨d, hd, hle, hroom⟩ := hgives.mem_block
    have hblock := (hgrows.wellFormed.isBlock d hd).add_le_nextBlock
    have hnext := manager₁.nextBlock_le
    omega
  set m₁ := manager₁.write (dest + 8) (littleEndian 8 destPtr) with hm₁
  set m₂ := m₁.write destPtr (readAt m₁.memory srcPtr k) with hm₂
  have hlen₁ : (littleEndian 8 destPtr).length = 8 := length_littleEndian _ _
  have hlen₂ : (readAt m₁.memory srcPtr k).length = k := length_readAt _ _ _
  have hlen₃ : (littleEndian 8 n).length = 8 := length_littleEndian _ _
  have hwrites := (manager₁.extends_write (dest + 8) (littleEndian 8 destPtr)).trans
    ((m₁.extends_write destPtr (readAt m₁.memory srcPtr k)).trans
      (m₂.extends_write dest (littleEndian 8 n)))
  have hcell : ∀ {a}, a ∉ cell (.list type) dest → a < dest ∨ dest + 16 ≤ a := by
    intro a hnot
    by_contra hcontra
    exact hnot ⟨by omega, by change a < dest + 16; omega⟩
  have hmemory : ∀ a, a ∉ cell (.list type) dest → a < manager.nextBlock →
      m₁.memory a = manager.memory a := by
    intro a hnot hlt
    have houtside := hcell hnot
    rw [hm₁, write_of_outside (by omega)]
    exact hextends.memory a hlt id
  refine ⟨⟨htakes, hextends.nextBlock_le, hgrows.wellFormed.mono hwrites, hgrows.used_subset,
    fun d hd ↦ ?_, fun a ha hnot ↦ ?_⟩, rfl, hsrc, ofLittleEndian_write hn, ?_, ?_, ?_, ?_⟩
  · rcases hgrows.blockData with hdata | hdata
    · rw [hdata] at hd
      exact .inl hd
    · rw [hdata, List.mem_append, List.mem_singleton] at hd
      exact hd.imp id Eq.ge
  · have houtside := hcell hnot
    have hnew : a < destPtr ∨ destPtr + k ≤ a := by
      by_contra hcontra
      have hout := hgives.notMem_settled hgrows (i := a - destPtr) (by omega)
      rw [Nat.add_sub_cancel' (by omega)] at hout
      exact hout ha
    rw [write_of_outside (by omega), hm₂, write_of_outside (by omega)]
    exact hmemory a hnot ha.1
  · have hread : readAt (m₂.write dest (littleEndian 8 n)).memory (dest + 8) 8 =
        readAt m₁.memory (dest + 8) 8 := by
      refine (readAt_overwrite_of_disjoint (by omega)).trans ?_
      exact readAt_overwrite_of_disjoint (by omega)
    exact (congrArg ofLittleEndian hread).trans (ofLittleEndian_write hptr)
  · rw [hk]
    exact fun i hi ↦ ⟨hgives.mem_used i hi, hgives.notMem_used i hi⟩
  · rw [hk]
    exact fun i hi ↦ hgives.notMem_settled hgrows hi
  · rw [hk]
    intro i hi
    change (m₂.write dest (littleEndian 8 n)).memory (destPtr + i) = manager.memory (srcPtr + i)
    rw [write_of_outside (by omega), hm₂, write_readAt hi]
    exact hmemory _ (hapart i hi) (hsettled i hi).1

theorem copyElementBytes_spec {elements : List (ElementValue type)} {s e srcEndIdx : ℕ}
    (h : CanCopy manager buffer live (.list type) src dest elements)
    (hend : GfList.endIdx manager.memory src srcEndIdx = e)
    (hse : s ≤ e) (hlt : e < elements.length) :
    Outcome (OutOfFrames manager 1)
      (fun result ↦ BytesCopied manager result.2.1 buffer result.2.2 type src dest s (e - s + 1)
        result.1)
      (GfList.copyElementBytes type.getDataTypeSize manager buffer src dest s srcEndIdx) := by
  have hsize := h.stored.1
  have hfits := h.stored.2.1
  have hlive := h.stored.2.2.1
  have hpos := type.getDataTypeSize_pos
  have hlength : elements.length ≤ largePageSize :=
    (Nat.le_mul_of_pos_right _ hpos).trans hfits
  have hfits' : (e - s + 1) * type.getDataTypeSize + s * type.getDataTypeSize ≤ largePageSize := by
    rw [← Nat.add_mul]
    exact (Nat.mul_le_mul_right _ (by omega)).trans hfits
  have hpos' : 0 < (e - s + 1) * type.getDataTypeSize := Nat.mul_pos (Nat.succ_pos _) hpos
  generalize hk : (e - s + 1) * type.getDataTypeSize = k at hfits' hpos'
  generalize hstart : s * type.getDataTypeSize = start at hfits'
  rw [largePageSize] at hlength hfits'
  rw [copyElementBytes_eq (n := e - s + 1) (k := k) hend (by omega) (by omega)
    (by rw [hk]; omega) (by rw [hstart]; omega) (by omega), hstart]
  have hbytes : ∀ i < k, GfList.overflowPtr manager.memory src + start + i ∈ live := by
    intro i hi
    rw [Nat.add_assoc]
    apply hlive
    refine Nat.lt_of_lt_of_le (Nat.add_lt_add_left hi start) ?_
    rw [← hstart, ← hk, ← Nat.add_mul]
    exact Nat.mul_le_mul_right _ (by omega)
  have hblock : k ≤ largePageSize := by rw [largePageSize]; omega
  have halloc := (OverflowBuffer.allocateSpace_spec h.wellFormed hblock).and
    (allocateSpace_frames hblock)
  refine (halloc.mapError fun e he ↦ ⟨congrArg _ he.1, he.2 he.1⟩).bind ?_
  rintro ⟨destPtr, manager₁, buffer'⟩ ⟨⟨hextends, hgrows, hgives⟩, htakes⟩
  apply bytesCopied_of_gives (by omega) hk hpos' (by rw [hstart]) h.dest_settled
    (fun i hi ↦ h.live_settled (hbytes i hi)) (fun i hi hcell ↦ (h.apart _ hcell).1 (hbytes i hi))
    hextends htakes hgrows hgives

/-! ## Copying all elements -/

/-- The elements from one index to another one. -/
def slice {α : Type} (elements : List α) (s e : ℕ) : List α := (elements.drop s).take (e - s + 1)

theorem length_slice {α : Type} {elements : List α} {s e : ℕ} (hse : s ≤ e)
    (hlt : e < elements.length) : (slice elements s e).length = e - s + 1 := by
  rw [slice, List.length_take, List.length_drop]
  omega

theorem getElem?_slice {α : Type} {elements : List α} {s e i : ℕ} {x : α}
    (h : (slice elements s e)[i]? = some x) : elements[s + i]? = some x := by
  obtain ⟨hlt, -⟩ := List.getElem?_eq_some_iff.mp h
  rw [slice, List.length_take] at hlt
  rwa [slice, List.getElem?_take_of_lt (by omega), List.getElem?_drop] at h

theorem OutOfFrames.mono {n n' : ℕ} {fault : ListFault} (h : OutOfFrames manager n fault)
    (hle : n ≤ n') : OutOfFrames manager n' fault :=
  ⟨h.1, Nat.lt_of_lt_of_le h.2 (Nat.add_le_add_left hle _)⟩

variable {manager₁ : MemoryManager} {buffer₁ : OverflowBuffer} {elements : List (ElementValue type)}
  {copied : GfList.CopiedElements} {s e : ℕ}

/-- The addresses of the copied elements. -/
def copiedCells (type : ElementType) (copied : GfList.CopiedElements) : Set ℕ :=
  {a | copied.destPtr ≤ a ∧ a < copied.destPtr + copied.numElements * type.getDataTypeSize}

theorem BytesCopied.notMem_copiedCells {n : ℕ}
    (h : BytesCopied manager manager₁ buffer buffer₁ type src dest s n copied) {a : ℕ}
    (ha : a ∈ buffer.settled manager) : a ∉ copiedCells type copied := by
  rintro ⟨hle, hlt⟩
  rw [h.numElements] at hlt
  obtain ⟨i, rfl⟩ := Nat.exists_eq_add_of_le hle
  exact h.notMem_settled i (Nat.lt_of_add_lt_add_left hlt) ha

/-- What the list held stays as it was. -/
theorem BytesCopied.memory_eq {n m : ℕ}
    (h : BytesCopied manager manager₁ buffer buffer₁ type src dest s n copied)
    (hexpands : Expands manager₁ manager' buffer₁ buffer' m (copiedCells type copied)) {a : ℕ}
    (ha : a ∈ buffer.settled manager) (hnot : a ∉ cell (.list type) dest) :
    manager'.memory a = manager.memory a := by
  rw [hexpands.memory a (h.expands.settled_subset ha) (h.notMem_copiedCells ha),
    h.expands.memory a ha hnot]

/-- The list has been copied when each of its elements has. -/
theorem BytesCopied.copiedTo
    (h : BytesCopied manager manager₁ buffer buffer₁ type src dest s (e - s + 1) copied)
    (hcan : CanCopy manager buffer live (.list type) src dest elements) (hse : s ≤ e)
    (hlt : e < elements.length)
    (hexpands : Expands manager₁ manager' buffer₁ buffer'
      ((slice elements s e).map (ElementValue.numAllocations type)).sum (copiedCells type copied))
    (hstored : ∀ (i : ℕ) (element : ElementValue type), (slice elements s e)[i]? = some element →
      ElementAt manager'.memory (buffer'.used \ buffer₁.used) type
        (copied.destPtr + i * type.getDataTypeSize) element) :
    CopiedTo manager manager' buffer buffer' (.list type) dest (slice elements s e) := by
  have hlength := length_slice hse hlt
  have hread : ∀ k n, k + n ≤ 16 → readAt manager'.memory (dest + k) n =
      readAt manager₁.memory (dest + k) n := by
    intro k n hle
    apply readAt_congr
    intro b hb hb'
    have hcell : b ∈ cell (.list type) dest := ⟨by omega, by change b < dest + 16; omega⟩
    have hsettled := hcan.dest_settled hcell
    exact hexpands.memory b (h.expands.settled_subset hsettled) (h.notMem_copiedCells hsettled)
  have hsize : GfList.size manager'.memory dest = e - s + 1 :=
    (congrArg ofLittleEndian (hread 0 8 (by decide))).trans h.size
  have hptr : GfList.overflowPtr manager'.memory dest = copied.destPtr :=
    (congrArg ofLittleEndian (hread 8 8 (by decide))).trans h.overflowPtr
  refine ⟨(h.expands.trans hexpands).mono (Nat.le_refl _) fun a ha htouched ↦ ?_,
    hsize.trans hlength.symm, ?_, ?_, ?_⟩
  · exact htouched.resolve_right (h.notMem_copiedCells ha)
  · rw [hlength]
    exact (Nat.mul_le_mul_right _ (by omega)).trans hcan.stored.2.1
  · rw [hptr, hlength]
    intro i hi
    exact ⟨hexpands.used_subset (h.mem_used i hi).1, (h.mem_used i hi).2⟩
  · rw [hptr]
    intro i element helement
    exact (hstored i element helement).move (fun _ _ ↦ rfl) (fun _ _ ↦ rfl)
      (Set.sdiff_subset_sdiff_right h.expands.used_subset)

/-- An element can be copied once more from the list it came from, whatever has been copied
since. -/
theorem BytesCopied.canCopy
    (h : BytesCopied manager manager₁ buffer buffer₁ type src dest s (e - s + 1) copied)
    (hcan : CanCopy manager buffer live (.list type) src dest elements) {m i : ℕ}
    (hexpands : Expands manager₁ manager' buffer₁ buffer' m (copiedCells type copied))
    {element : ElementValue type} (hi : i < e - s + 1)
    (helement : (slice elements s e)[i]? = some element) :
    CanCopy manager' buffer' live type (copied.srcPtr + i * type.getDataTypeSize)
      (copied.destPtr + i * type.getDataTypeSize) element := by
  obtain ⟨hlt, -⟩ := List.getElem?_eq_some_iff.mp (getElem?_slice helement)
  have hsettled : ∀ {a}, a ∈ live → a ∈ buffer.settled manager := fun ha ↦ hcan.live_settled ha
  have hnot : ∀ {a}, a ∈ live → a ∉ cell (.list type) dest := fun ha hcell ↦
    (hcan.apart _ hcell).1 ha
  have hsource : cell type (copied.srcPtr + i * type.getDataTypeSize) ⊆ live := by
    rintro a ⟨hle, hlt'⟩
    obtain ⟨j, rfl⟩ := Nat.exists_eq_add_of_le hle
    have hmem := hcan.stored.2.2.1 ((s + i) * type.getDataTypeSize + j) (by
      calc (s + i) * type.getDataTypeSize + j
          < (s + i + 1) * type.getDataTypeSize := by
            rw [Nat.add_mul (s + i), Nat.one_mul]
            omega
        _ ≤ List.length elements * type.getDataTypeSize := Nat.mul_le_mul_right _ hlt)
    rwa [h.srcPtr, Nat.add_assoc, Nat.add_assoc, ← Nat.add_assoc (s * _), ← Nat.add_mul]
  have hdest : cell type (copied.destPtr + i * type.getDataTypeSize) ⊆ copiedCells type copied := by
    rintro a ⟨hle, hlt'⟩
    refine ⟨by omega, ?_⟩
    rw [h.numElements]
    calc a < copied.destPtr + (i + 1) * type.getDataTypeSize := by
          rw [Nat.add_mul, Nat.one_mul]
          omega
      _ ≤ _ := Nat.add_le_add_left (Nat.mul_le_mul_right _ hi) _
  have hsub := h.expands.settled_subset.trans hexpands.settled_subset
  refine ⟨hexpands.wellFormed, ?_, fun a ha ↦ hsub (hsettled (hsource ha)),
    fun a ha ↦ hsub (hsettled ha), fun a ha ↦ ?_, fun a ha ↦ ⟨fun hlive ↦ ?_, fun hcell ↦ ?_⟩⟩
  · have hold := hcan.stored.2.2.2 (s + i) element (getElem?_slice helement)
    rw [Nat.add_mul, ← Nat.add_assoc, ← h.srcPtr] at hold
    refine hold.move (fun j hj ↦ ?_) (fun a ha ↦ ?_) Set.Subset.rfl
    · have hmem := hsource ⟨Nat.le_add_right _ j, Nat.add_lt_add_left hj _⟩
      exact h.memory_eq hexpands (hsettled hmem) (hnot hmem)
    · exact h.memory_eq hexpands (hsettled ha) (hnot ha)
  · apply used_subset_settled hexpands.wellFormed
    apply hexpands.used_subset
    obtain ⟨hle, hlt'⟩ := hdest ha
    obtain ⟨j, rfl⟩ := Nat.exists_eq_add_of_le hle
    rw [h.numElements] at hlt'
    exact (h.mem_used j (Nat.lt_of_add_lt_add_left hlt')).1
  · exact h.notMem_copiedCells (hsettled hlive) (hdest ha)
  · exact h.notMem_copiedCells (hsettled (hsource hcell)) (hdest ha)

/-- So many elements have been copied once more. -/
structure ElementsCopied (manager₁ manager' : MemoryManager) (buffer₁ buffer' : OverflowBuffer)
    (type : ElementType) (elements : List (ElementValue type)) (copied : GfList.CopiedElements)
    (k : ℕ) : Prop where
  expands : Expands manager₁ manager' buffer₁ buffer'
    ((elements.take k).map (ElementValue.numAllocations type)).sum (copiedCells type copied)
  stored : ∀ i < k, ∀ element : ElementValue type, elements[i]? = some element →
    ElementAt manager'.memory (buffer'.used \ buffer₁.used) type
      (copied.destPtr + i * type.getDataTypeSize) element

/-- Copying the next element leaves the ones before it as they are. -/
theorem ElementsCopied.next {manager'' : MemoryManager} {buffer'' : OverflowBuffer} {k : ℕ}
    (h : ElementsCopied manager₁ manager' buffer₁ buffer' type elements copied k)
    (hbytes : ∀ i < copied.numElements * type.getDataTypeSize, copied.destPtr + i ∈ buffer₁.used)
    (hnum : copied.numElements = elements.length) {element : ElementValue type}
    (helement : elements[k]? = some element)
    (hnext : CopiedTo manager' manager'' buffer' buffer'' type
      (copied.destPtr + k * type.getDataTypeSize) element) :
    ElementsCopied manager₁ manager'' buffer₁ buffer'' type elements copied (k + 1) := by
  obtain ⟨hk, hget⟩ := List.getElem?_eq_some_iff.mp helement
  have hin : ∀ {i j : ℕ}, i < elements.length → j < type.getDataTypeSize →
      i * type.getDataTypeSize + j < copied.numElements * type.getDataTypeSize := by
    intro i j hi hj
    rw [hnum]
    calc i * type.getDataTypeSize + j < (i + 1) * type.getDataTypeSize := by
          rw [Nat.add_mul, Nat.one_mul]
          omega
      _ ≤ _ := Nat.mul_le_mul_right _ hi
  have hused : ∀ {a}, a ∈ buffer'.used → a ∈ buffer'.settled manager' := fun ha ↦
    used_subset_settled h.expands.wellFormed ha
  have hcells : ∀ {a}, a ∈ cell type (copied.destPtr + k * type.getDataTypeSize) →
      a ∈ copiedCells type copied ∧ a ∈ buffer₁.used := by
    rintro a ⟨hle, hlt⟩
    obtain ⟨j, rfl⟩ := Nat.exists_eq_add_of_le hle
    have hlt' := hin hk (Nat.lt_of_add_lt_add_left hlt)
    rw [Nat.add_assoc]
    exact ⟨⟨Nat.le_add_right _ _, Nat.add_lt_add_left hlt' _⟩, hbytes _ hlt'⟩
  constructor
  · have hsum : ((elements.take (k + 1)).map (ElementValue.numAllocations type)).sum =
        ((elements.take k).map (ElementValue.numAllocations type)).sum +
          element.numAllocations type := by
      rw [List.take_succ_eq_append_getElem hk, hget, List.map_append, List.sum_append]
      simp
    rw [hsum]
    exact (h.expands.trans hnext.expands).mono (Nat.le_refl _) fun a _ ha ↦
      ha.elim id fun ha ↦ (hcells ha).1
  · intro i hi value hvalue
    by_cases heq : i = k
    · subst heq
      obtain rfl := Option.some.inj (helement.symm.trans hvalue)
      exact hnext.stored.move (fun _ _ ↦ rfl) (fun _ _ ↦ rfl)
        (Set.sdiff_subset_sdiff_right h.expands.used_subset)
    · have hlt : i < elements.length := (List.getElem?_eq_some_iff.mp hvalue).1
      refine (h.stored i (by omega) value hvalue).move (fun j hj ↦ ?_) (fun a ha ↦ ?_)
        (Set.sdiff_subset_sdiff_left hnext.expands.used_subset)
      · apply hnext.expands.memory
        · apply hused
          apply h.expands.used_subset
          rw [Nat.add_assoc]
          exact hbytes _ (hin hlt hj)
        · rintro ⟨hle, -⟩
          have hbefore : (i + 1) * type.getDataTypeSize ≤ k * type.getDataTypeSize :=
            Nat.mul_le_mul_right _ (by omega)
          rw [Nat.add_mul, Nat.one_mul] at hbefore
          omega
      · exact hnext.expands.memory a (hused ha.1) fun hcell ↦ ha.2 (hcells hcell).2

/-- The loops. -/
theorem copyElements_spec {copyElement : CopyElement} {P : ElementValue type → Prop}
    (hcopies : Copies copyElement type P)
    (h : BytesCopied manager manager₁ buffer buffer₁ type src dest s (e - s + 1) copied)
    (hcan : CanCopy manager buffer live (.list type) src dest elements) (hse : s ≤ e)
    (hlt : e < elements.length) (hP : ∀ element ∈ slice elements s e, P element) :
    Outcome (OutOfFrames manager₁
        ((slice elements s e).map (ElementValue.numAllocations type)).sum)
      (fun result ↦ CopiedTo manager result.1 buffer result.2 (.list type) dest
        (slice elements s e))
      (GfList.copyElements type.getDataTypeSize copied copyElement manager₁ buffer₁) := by
  have hlength := length_slice hse hlt
  have hnum : copied.numElements = (slice elements s e).length := by rw [h.numElements, hlength]
  have hbytes : ∀ i < copied.numElements * type.getDataTypeSize,
      copied.destPtr + i ∈ buffer₁.used := by
    rw [h.numElements]
    exact fun i hi ↦ (h.mem_used i hi).1
  have hstart : ElementsCopied manager₁ manager₁ buffer₁ buffer₁ type
      (slice elements s e) copied 0 :=
    ⟨(Expands.refl h.expands.wellFormed).mono (Nat.zero_le _) nofun, nofun⟩
  refine (Outcome.foldlM_range
    (fun k result ↦ ElementsCopied manager₁ result.1 buffer₁ result.2 type
    (slice elements s e) copied k) hstart ?_).mono (fun _ ↦ id) fun result hresult ↦ ?_
  · rintro k hk ⟨manager', buffer'⟩ hinv
    rw [hnum] at hk
    have helement := List.getElem?_eq_getElem hk
    have hnext := hcopies _ _ live _ _ _
      (h.canCopy hcan hinv.expands (by rwa [hlength] at hk) helement)
      (hP _ (List.mem_of_getElem? helement))
    refine hnext.mono (fun fault hfault ↦ (hfault.of_expands hinv.expands).mono ?_)
      fun result hresult ↦ hinv.next hbytes hnum helement hresult
    have hsplit := congrArg (fun l ↦ (l.map (ElementValue.numAllocations type)).sum)
      (List.take_append_drop (k + 1) (slice elements s e))
    simp only [List.take_succ_eq_append_getElem hk, List.map_append, List.sum_append, List.map_cons,
      List.map_nil, List.sum_cons, List.sum_nil] at hsplit
    omega
  · refine h.copiedTo hcan hse hlt ?_ fun i element helement ↦ ?_
    · rw [hnum] at hresult
      have hall := hresult.expands
      rwa [List.take_length] at hall
    · obtain ⟨hi, -⟩ := List.getElem?_eq_some_iff.mp helement
      exact hresult.stored i (by rwa [hnum]) element helement

/-- Elements without pointers have been copied with their bytes. -/
theorem copiedTo_of_fixed {type : DataType} {elements : List (ElementValue (.value type))}
    (htype : type ≠ .string)
    (h : BytesCopied manager manager₁ buffer buffer₁ (.value type) src dest s (e - s + 1) copied)
    (hcan : CanCopy manager buffer live (.list (.value type)) src dest elements) (hse : s ≤ e)
    (hlt : e < elements.length) :
    CopiedTo manager manager₁ buffer buffer₁ (.list (.value type)) dest (slice elements s e) := by
  have hstart : Expands manager₁ manager₁ buffer₁ buffer₁
      ((slice elements s e).map (ElementValue.numAllocations (.value type))).sum
      (copiedCells (.value type) copied) :=
    (Expands.refl h.expands.wellFormed).mono (Nat.zero_le _) nofun
  refine h.copiedTo hcan hse hlt hstart fun i element helement ↦ ?_
  obtain ⟨hi, -⟩ := List.getElem?_eq_some_iff.mp helement
  rw [length_slice hse hlt] at hi
  have hold := hcan.stored.2.2.2 (s + i) element (getElem?_slice helement)
  rw [Nat.add_mul, ← Nat.add_assoc, ← h.srcPtr] at hold
  have hstored : StoredAt manager.memory ∅ type
      (copied.srcPtr + i * type.getDataTypeSize) element :=
    ⟨hold.2.readValue_eq, fun hstring ↦ absurd hstring htype⟩
  refine ⟨hold.1, hstored.move (fun j hj ↦ ?_) nofun (Set.empty_subset _)⟩
  rw [Nat.add_assoc, Nat.add_assoc]
  apply h.bytes
  calc i * type.getDataTypeSize + j < (i + 1) * type.getDataTypeSize := by
        rw [Nat.add_mul, Nat.one_mul]
        omega
    _ ≤ _ := Nat.mul_le_mul_right _ hi

/-- `copyListRecursiveIfNested` copies a list or a part of it if elements are copied. -/
theorem copyListRecursiveIfNested_spec {srcEndIdx : ℕ}
    (hcopies : Copies (copyNonNullDataWithSameType type) type (ElementValue.NoEmptyList type))
    (hcan : CanCopy manager buffer live (.list type) src dest elements)
    (hend : GfList.endIdx manager.memory src srcEndIdx = e)
    (hse : s ≤ e) (hlt : e < elements.length)
    (hne : ∀ element ∈ slice elements s e, element.NoEmptyList type) :
    Outcome (OutOfFrames manager (ElementValue.numAllocations (.list type) (slice elements s e)))
      (fun result ↦ CopiedTo manager result.1 buffer result.2 (.list type) dest
        (slice elements s e))
      (GfList.copyListRecursiveIfNested type manager buffer src dest s srcEndIdx) := by
  have hone : 1 ≤ ElementValue.numAllocations (.list type) (slice elements s e) :=
    Nat.le_add_right 1 _
  have hbytes : Outcome
      (OutOfFrames manager (ElementValue.numAllocations (.list type) (slice elements s e)))
      (fun result ↦ BytesCopied manager result.2.1 buffer result.2.2 type src dest s (e - s + 1)
        result.1)
      (GfList.copyElementBytes type.getDataTypeSize manager buffer src dest s srcEndIdx) :=
    (copyElementBytes_spec hcan hend hse hlt).mono
      (fun _ hfault ↦ OutOfFrames.mono hfault hone) fun _ hresult ↦ hresult
  have hloop : ∀ {manager₁ : MemoryManager} {buffer₁ : OverflowBuffer}
      {copied : GfList.CopiedElements},
      BytesCopied manager manager₁ buffer buffer₁ type src dest s (e - s + 1) copied →
      Outcome (OutOfFrames manager (ElementValue.numAllocations (.list type) (slice elements s e)))
        (fun result ↦ CopiedTo manager result.1 buffer result.2 (.list type) dest
          (slice elements s e))
        (GfList.copyElements type.getDataTypeSize copied (copyNonNullDataWithSameType type) manager₁
          buffer₁) := fun h ↦
    (copyElements_spec hcopies h hcan hse hlt hne).mono
      (fun _ hfault ↦ hfault.of_expands h.expands) fun _ ↦ id
  cases type with
  | value type =>
      refine hbytes.bind ?_
      rintro ⟨copied, manager₁, buffer₁⟩ h
      by_cases htype : type = .string
      · subst htype
        exact hloop h
      · simp only [if_neg htype]
        exact copiedTo_of_fixed htype h hcan hse hlt
  | list childType =>
      refine hbytes.bind ?_
      rintro ⟨copied, manager₁, buffer₁⟩ h
      exact hloop h

end Copying

theorem slice_all {α : Type} {elements : List α} (hne : elements ≠ []) :
    slice elements 0 (elements.length - 1) = elements := by
  have hpos := List.length_pos_of_ne_nil hne
  rw [slice, List.drop_zero, List.take_of_length_le (by omega)]

theorem endIdx_default {m : Memory} {a n : ℕ} (hsize : GfList.size m a = n) (hpos : 0 < n)
    (hlt : n ≤ largePageSize) : GfList.endIdx m a GfList.uint32Max = n - 1 := by
  rw [GfList.endIdx, if_pos rfl, GfList.lastIdx_of_pos (by omega), hsize]
  rw [largePageSize] at hlt
  omega

/-- Values are copied whatever their type is, unless there is an empty list in them. -/
theorem copies_copyNonNullDataWithSameType (type : ElementType) :
    Copies (copyNonNullDataWithSameType type) type (ElementValue.NoEmptyList type) := by
  induction type with
  | value type =>
      by_cases htype : type = .string
      · subst htype
        exact fun manager buffer live src dest value hcan _ ↦
          copies_string manager buffer live src dest value hcan trivial
      · intro manager buffer live src dest value hcan _
        have hread : readAt manager.memory src type.getDataTypeSize = value := by
          rw [← hcan.stored.2.readValue_eq]
          cases type <;> first | rfl | exact absurd rfl htype
        have hcopied : Copied manager (manager.write dest value) buffer buffer type dest value :=
          copied_of_fixed hcan.wellFormed htype hcan.stored.1
        rw [copyNonNullDataWithSameType, if_neg htype, hread]
        exact ⟨.of_copied hcopied ⟨rfl, Nat.le_add_right _ _⟩, hcan.stored.1, hcopied.stored_new⟩
  | list childType ih =>
      intro manager buffer live src dest value hcan hne
      have hpos := List.length_pos_of_ne_nil hne.1
      have hfits : List.length value ≤ largePageSize :=
        (Nat.le_mul_of_pos_right _ childType.getDataTypeSize_pos).trans hcan.stored.2.1
      have hall := slice_all hne.1
      have hspec := copyListRecursiveIfNested_spec ih hcan
        (endIdx_default hcan.stored.1 hpos hfits) (Nat.zero_le _) (Nat.sub_lt hpos Nat.one_pos)
        (by rw [hall]; exact hne.2)
      rwa [hall] at hspec

/-! ## Copies of lists -/

section Lists

variable {print : DataType → List UInt8 → String} {manager : MemoryManager}
  {buffer : OverflowBuffer} {live : Set ℕ} {type : ElementType} {src dest : ℕ}
  {range : Option (ℕ × ℕ)} {elements : List (ElementValue type)}

/-- The default arguments, or two indexes. -/
def copyList (type : ElementType) (manager : MemoryManager) (buffer : OverflowBuffer)
    (src dest : ℕ) (range : Option (ℕ × ℕ)) : Except ListFault (MemoryManager × OverflowBuffer) :=
  let (srcStartIdx, srcEndIdx) := range.getD (0, GfList.uint32Max)
  GfList.copyListRecursiveIfNested type manager buffer src dest srcStartIdx srcEndIdx

/-- The elements that are copied. -/
def copiedPart (elements : List (ElementValue type)) : Option (ℕ × ℕ) → List (ElementValue type)
  | none => elements
  | some (srcStartIdx, srcEndIdx) => slice elements srcStartIdx srcEndIdx

/-- The destination is the list or its part, all of it in new memory of the buffer; the source has
not changed, and both are printed. -/
def CopiesExactly (print : DataType → List UInt8 → String) (manager : MemoryManager)
    (buffer : OverflowBuffer) (live : Set ℕ) (type : ElementType) (src dest : ℕ)
    (range : Option (ℕ × ℕ)) (elements : List (ElementValue type)) : Prop :=
  ∃ manager' buffer', copyList type manager buffer src dest range = .ok (manager', buffer') ∧
    ElementAt manager'.memory (buffer'.used \ buffer.used) (.list type) dest
      (copiedPart elements range) ∧
    (∀ a ∈ live ∪ cell (.list type) src, manager'.memory a = manager.memory a) ∧
    GfList.toString print manager'.memory type dest =
      .ok (ElementValue.text print (.list type) (copiedPart elements range)) ∧
    GfList.toString print manager'.memory type src =
      .ok (ElementValue.text print (.list type) elements)

theorem mem_of_mem_slice {α : Type} {elements : List α} {s e : ℕ} {x : α}
    (h : x ∈ slice elements s e) : x ∈ elements :=
  List.mem_of_mem_drop (List.mem_of_mem_take h)

/-- Both kinds of calls copy from one index to another one. -/
theorem exists_bounds (hcan : CanCopy manager buffer live (.list type) src dest elements)
    (hrange : ∀ bounds ∈ range, bounds.1 ≤ bounds.2 ∧ bounds.2 < elements.length)
    (hne : elements ≠ []) : ∃ s e srcEndIdx, GfList.endIdx manager.memory src srcEndIdx = e ∧
      s ≤ e ∧ e < elements.length ∧ copiedPart elements range = slice elements s e ∧
      copyList type manager buffer src dest range =
        GfList.copyListRecursiveIfNested type manager buffer src dest s srcEndIdx := by
  have hpos := List.length_pos_of_ne_nil hne
  have hfits : elements.length ≤ largePageSize :=
    (Nat.le_mul_of_pos_right _ type.getDataTypeSize_pos).trans hcan.stored.2.1
  cases range with
  | none =>
      exact ⟨0, elements.length - 1, _, endIdx_default hcan.stored.1 hpos hfits, Nat.zero_le _,
        Nat.sub_lt hpos Nat.one_pos, (slice_all hne).symm, rfl⟩
  | some bounds =>
      obtain ⟨hse, hlt⟩ := hrange bounds rfl
      refine ⟨bounds.1, bounds.2, bounds.2, if_neg ?_, hse, hlt, rfl, rfl⟩
      rw [largePageSize] at hfits
      rw [GfList.uint32Max]
      omega

/-- With frames for it, a list is copied and printed exactly if no list in it is empty; the elements
must not be node IDs. -/
theorem copiesExactly_iff (hcan : CanCopy manager buffer live (.list type) src dest elements)
    (hrange : ∀ bounds ∈ range, bounds.1 ≤ bounds.2 ∧ bounds.2 < elements.length)
    (hframes : manager.numBlocks +
      ElementValue.numAllocations (.list type) (copiedPart elements range) ≤ manager.maxNumBlocks) :
    CopiesExactly print manager buffer live type src dest range elements ↔
      ElementValue.NoEmptyList (.list type) elements ∧ type.innermost ≠ .nodeID := by
  constructor
  · rintro ⟨manager', buffer', -, -, hsame, -, hprinted⟩
    have hsource : ElementAt manager'.memory live (.list type) src elements :=
      hcan.stored.move
        (fun i hi ↦ hsame _ (.inr ⟨Nat.le_add_right _ _, Nat.add_lt_add_left hi _⟩))
        (fun a ha ↦ hsame a (.inl ha)) Set.Subset.rfl
    exact GfList.noEmptyList_of_toString hsource hprinted
  · rintro ⟨hne, htype⟩
    obtain ⟨s, e, srcEndIdx, hend, hse, hlt, hpart, hcall⟩ := exists_bounds hcan hrange hne.1
    have hslice : ElementValue.NoEmptyList (.list type) (slice elements s e) := by
      refine ⟨List.ne_nil_of_length_pos ?_, fun element hmem ↦
        hne.2 element (mem_of_mem_slice hmem)⟩
      rw [length_slice hse hlt]
      exact Nat.succ_pos _
    have hspec := copyListRecursiveIfNested_spec (copies_copyNonNullDataWithSameType type) hcan hend
      hse hlt hslice.2
    rw [CopiesExactly, hpart, hcall]
    rw [hpart] at hframes
    cases hrun : GfList.copyListRecursiveIfNested type manager buffer src dest s srcEndIdx with
    | error fault => exact absurd hframes (Nat.not_le.mpr (hspec.error hrun).2)
    | ok result =>
        obtain ⟨manager', buffer'⟩ := result
        have hcopied : CopiedTo manager manager' buffer buffer' (.list type) dest
            (slice elements s e) :=
          hspec.result hrun
        have hsame : ∀ a ∈ live ∪ cell (.list type) src, manager'.memory a = manager.memory a := by
          intro a ha
          apply hcopied.expands.memory
          · exact ha.elim (fun ha ↦ hcan.live_settled ha) fun ha ↦ hcan.src_settled ha
          · exact fun hcell ↦ ha.elim (hcan.apart a hcell).1 (hcan.apart a hcell).2
        have hsource : ElementAt manager'.memory live (.list type) src elements :=
          hcan.stored.move
            (fun i hi ↦ hsame _ (.inr ⟨Nat.le_add_right _ _, Nat.add_lt_add_left hi _⟩))
            (fun a ha ↦ hsame a (.inl ha)) Set.Subset.rfl
        exact ⟨manager', buffer', rfl, hcopied.stored, hsame,
          GfList.toString_eq hcopied.stored hslice htype, GfList.toString_eq hsource hne htype⟩

/-- An empty list runs into the assertion. -/
theorem copyList_of_size_eq_zero (hsize : GfList.size manager.memory src = 0) :
    copyList type manager buffer src dest none = .error .assertion := by
  have hbytes : ∀ elementSize, GfList.copyElementBytes elementSize manager buffer src dest 0
      GfList.uint32Max = .error .assertion := by
    intro elementSize
    rw [GfList.copyElementBytes]
    simp only [hsize, Nat.zero_le, if_true]
  change GfList.copyListRecursiveIfNested type manager buffer src dest 0 GfList.uint32Max = _
  cases type with
  | value type =>
      rw [GfList.copyListRecursiveIfNested, hbytes]
      rfl
  | list childType =>
      rw [GfList.copyListRecursiveIfNested, hbytes]
      rfl

end Lists

/-- Thirteen characters. -/
def longString : List UInt8 := List.replicate 13 97

/-- In a block a `gf_list_t`, behind it its element, a list with one element, behind that this
element, a long string, and last its characters. -/
def listOfLists : MemoryManager where
  memory := overwrite (fun _ ↦ 0) 262144
    (littleEndian 8 1 ++ littleEndian 8 262160 ++ littleEndian 8 1 ++ littleEndian 8 262176 ++
      littleEndian 4 13 ++ longString.take 4 ++ littleEndian 8 262192 ++ longString)
  numBlocks := 1
  maxNumBlocks := 4
  numBlocks_le := by decide
  maxNumBlocks_lt := by decide

theorem canCopy_listOfLists : CanCopy listOfLists {} (Set.Ico 262160 262205)
    (.list (.list (.value .string))) 262144 262244 ([[longString]] : List (List (List UInt8))) := by
  have hsettled : ∀ a < 2 * 262144, a ∈ OverflowBuffer.settled listOfLists {} := fun a ha ↦
    ⟨ha, fun ⟨d, hd, _⟩ ↦ absurd hd List.not_mem_nil⟩
  have houter : GfList.overflowPtr listOfLists.memory 262144 = 262160 := by decide +kernel
  have hinner : GfList.overflowPtr listOfLists.memory 262160 = 262176 := by decide +kernel
  have hstring : ofLittleEndian (readAt listOfLists.memory (262176 + 8) 8) = 262192 := by
    decide +kernel
  refine ⟨⟨nofun, List.nodup_nil, nofun, nofun⟩, ⟨by decide +kernel, by decide, ?_, ?_⟩, ?_, ?_, ?_,
    ?_⟩
  · intro i hi
    rw [houter]
    exact ⟨Nat.le_add_right _ _, by change i < 16 at hi; omega⟩
  · intro i element helement
    obtain rfl : i = 0 := Nat.lt_one_iff.mp (List.getElem?_eq_some_iff.mp helement).1
    obtain rfl := Option.some.inj helement
    rw [Nat.zero_mul, Nat.add_zero, houter]
    refine ⟨by decide +kernel, by decide, ?_, ?_⟩
    · intro i hi
      rw [hinner]
      exact ⟨by omega, by change i < 16 at hi; omega⟩
    · intro i element helement
      obtain rfl : i = 0 := Nat.lt_one_iff.mp (List.getElem?_eq_some_iff.mp helement).1
      obtain rfl := Option.some.inj helement
      rw [Nat.zero_mul, Nat.add_zero, hinner]
      refine ⟨Nat.le_of_lt_succ (by decide), by decide +kernel, fun _ _ i hi ↦ ?_⟩
      rw [hstring]
      exact ⟨by omega, by change i < 13 at hi; omega⟩
  · rintro a ⟨hle, hlt⟩
    exact hsettled a (by change a < 262144 + 16 at hlt; omega)
  · rintro a ⟨hle, hlt⟩
    exact hsettled a (by omega)
  · rintro a ⟨hle, hlt⟩
    exact hsettled a (by change a < 262244 + 16 at hlt; omega)
  · rintro a ⟨hle, hlt⟩
    refine ⟨fun hlive ↦ ?_, fun hcell ↦ ?_⟩
    · exact absurd hle (by have := hlive.2; omega)
    · have hlt' : a < 262144 + 16 := hcell.2
      omega

theorem copiesExactly_listOfLists :
    CanCopy listOfLists {} (Set.Ico 262160 262205) (.list (.list (.value .string))) 262144 262244
        ([[longString]] : List (List (List UInt8))) ∧
      CopiesExactly (fun _ _ ↦ "") listOfLists {} (Set.Ico 262160 262205) (.list (.value .string))
        262144 262244 none ([[longString]] : List (List (List UInt8))) := by
  refine ⟨canCopy_listOfLists, (copiesExactly_iff canCopy_listOfLists
    (fun _ h ↦ absurd h (Option.not_mem_none _)) (by decide)).mpr
      ⟨⟨List.cons_ne_nil _ _, ?_⟩, by decide⟩⟩
  intro element helement
  obtain rfl := List.mem_singleton.mp helement
  exact ⟨List.cons_ne_nil _ _, fun _ _ ↦ trivial⟩

def noBlocks : MemoryManager where
  memory := fun _ ↦ 0
  numBlocks := 1
  maxNumBlocks := 4
  numBlocks_le := by decide
  maxNumBlocks_lt := by decide

theorem not_copiesExactly_empty :
    CanCopy noBlocks {} ∅ (.list (.value .int64)) 262144 262244 ([] : List (List UInt8)) ∧
      ¬CopiesExactly (fun _ _ ↦ "") noBlocks {} ∅ (.value .int64) 262144 262244 none
        ([] : List (List UInt8)) := by
  have hsize : GfList.size noBlocks.memory 262144 = 0 := by decide +kernel
  have hsettled : ∀ a < 2 * 262144, a ∈ OverflowBuffer.settled noBlocks {} := fun a ha ↦
    ⟨ha, fun ⟨d, hd, _⟩ ↦ absurd hd List.not_mem_nil⟩
  constructor
  · refine ⟨⟨nofun, List.nodup_nil, nofun, nofun⟩, ⟨hsize, by decide, by decide, nofun⟩, ?_,
      Set.empty_subset _, ?_, ?_⟩
    · rintro a ⟨hle, hlt⟩
      exact hsettled a (by change a < 262144 + 16 at hlt; omega)
    · rintro a ⟨hle, hlt⟩
      exact hsettled a (by change a < 262244 + 16 at hlt; omega)
    · rintro a ⟨hle, hlt⟩
      refine ⟨id, fun hcell ↦ ?_⟩
      have hlt' : a < 262144 + 16 := hcell.2
      omega
  · rintro ⟨manager', buffer', hrun, -⟩
    cases (copyList_of_size_eq_zero hsize).symm.trans hrun

end Graphflow.Result
