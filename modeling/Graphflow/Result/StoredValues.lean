import Graphflow.Result.TableMemory
import Mathlib.Data.Set.Basic

/-!
# Values in memory

What is stored stays, as long as the bytes of the value and the characters behind its pointer do.
-/

namespace Graphflow.Result

open Lib Processor

variable {m m' : Memory} {manager manager' manager'' : MemoryManager} {a b d d' n : ℕ}
  {type : DataType} {value : List UInt8} {live live' touched touched' : Set ℕ}

/-! ## Stored values -/

/-- A value with the characters of a long string among the live addresses. -/
structure StoredAt (m : Memory) (live : Set ℕ) (type : DataType) (a : ℕ) (value : List UInt8) :
    Prop where
  readValue_eq : readValue type m a = value
  live : type = .string → shortStrLength < value.length →
    ∀ i < value.length, ofLittleEndian (readAt m (a + 8) 8) + i ∈ live

theorem getDataTypeSize_pos (type : DataType) : 0 < type.getDataTypeSize := by
  cases type <;> decide

/-- Values are moved with the bytes that hold them. -/
theorem StoredAt.move (h : StoredAt m live type a value)
    (hbytes : ∀ i < type.getDataTypeSize, m' (b + i) = m (a + i))
    (hlive : ∀ c ∈ live, m' c = m c) (hsubset : live ⊆ live') :
    StoredAt m' live' type b value := by
  have hread : ∀ k n, k + n ≤ type.getDataTypeSize → readAt m' (b + k) n = readAt m (a + k) n := by
    intro k n hle
    apply List.map_congr_left
    intro i hi
    rw [Nat.add_assoc, Nat.add_assoc]
    exact hbytes (k + i) (by rw [List.mem_range] at hi; omega)
  cases htype : type with
  | string =>
      subst htype
      have hlen : readAt m' b 4 = readAt m a 4 := hread 0 4 (by decide)
      have hptr : readAt m' (b + 8) 8 = readAt m (a + 8) 8 := hread 8 8 (by decide)
      have hvalue : readString m a = value := h.readValue_eq
      have hlength : ofLittleEndian (readAt m a 4) = value.length := by
        rw [← hvalue, readString]
        split_ifs <;> rw [length_readAt]
      refine ⟨?_, fun _ hlong i hi ↦ ?_⟩
      · rw [← hvalue]
        change readString m' b = readString m a
        rw [readString, readString, hlen, hptr]
        split_ifs with hshort
        · exact hread 4 _ (Nat.add_le_add_left hshort 4)
        · apply List.map_congr_left
          intro i hi
          rw [List.mem_range] at hi
          refine hlive _ (h.live rfl ?_ i ?_) <;> omega
      · rw [hptr]
        exact hsubset (h.live rfl hlong i hi)
  | _ =>
      subst htype
      exact ⟨(hread 0 _ (by rw [Nat.zero_add])).trans h.readValue_eq, nofun⟩

/-! ## Blocks -/

/-- The address of a block that has been allocated. -/
def MemoryManager.IsBlock (manager : MemoryManager) (d : ℕ) : Prop :=
  ∃ k < manager.numBlocks, d = (k + 1) * largePageSize

/-- The addresses of some blocks. -/
def inBlocks (ds : List ℕ) : Set ℕ := {a | ∃ d ∈ ds, d ≤ a ∧ a < d + largePageSize}

namespace MemoryManager

theorem IsBlock.add_le_nextBlock (h : manager.IsBlock d) :
    d + largePageSize ≤ manager.nextBlock := by
  obtain ⟨k, hk, rfl⟩ := h
  rw [nextBlock, ← Nat.succ_mul]
  exact Nat.mul_le_mul_right _ (Nat.succ_le_succ hk)

theorem nextBlock_le (manager : MemoryManager) : manager.nextBlock ≤ 2 ^ 51 := by
  have hle := manager.numBlocks_le
  have hlt := manager.maxNumBlocks_lt
  rw [nextBlock, largePageSize]
  omega

/-- Different blocks have no address in common. -/
theorem IsBlock.disjoint (h : manager.IsBlock d) (h' : manager.IsBlock d') (hne : d ≠ d') :
    d + largePageSize ≤ d' ∨ d' + largePageSize ≤ d := by
  obtain ⟨k, _, rfl⟩ := h
  obtain ⟨k', _, rfl⟩ := h'
  have hkk : k ≠ k' := by
    rintro rfl
    exact hne rfl
  rw [largePageSize]
  omega

/-- The memory below the next block has changed at touched addresses only. -/
structure Extends (manager manager' : MemoryManager) (touched : Set ℕ) : Prop where
  numBlocks_le : manager.numBlocks ≤ manager'.numBlocks
  memory : ∀ a < manager.nextBlock, a ∉ touched → manager'.memory a = manager.memory a

theorem Extends.refl (manager : MemoryManager) : Extends manager manager ∅ :=
  ⟨Nat.le_refl _, fun _ _ _ ↦ rfl⟩

theorem Extends.nextBlock_le (h : Extends manager manager' touched) :
    manager.nextBlock ≤ manager'.nextBlock :=
  Nat.mul_le_mul_right _ (Nat.succ_le_succ h.numBlocks_le)

theorem Extends.isBlock (h : Extends manager manager' touched) (hd : manager.IsBlock d) :
    manager'.IsBlock d := by
  obtain ⟨k, hk, rfl⟩ := hd
  exact ⟨k, Nat.lt_of_lt_of_le hk h.numBlocks_le, rfl⟩

theorem Extends.trans (h : Extends manager manager' touched)
    (h' : Extends manager' manager'' touched') :
    Extends manager manager'' (touched ∪ touched') := by
  refine ⟨h.numBlocks_le.trans h'.numBlocks_le, fun a ha hnot ↦ ?_⟩
  rw [Set.mem_union, not_or] at hnot
  rw [h'.memory a (Nat.lt_of_lt_of_le ha h.nextBlock_le) hnot.2, h.memory a ha hnot.1]

theorem Extends.mono (h : Extends manager manager' touched)
    (hsubset : ∀ a < manager.nextBlock, a ∈ touched → a ∈ touched') :
    Extends manager manager' touched' :=
  ⟨h.numBlocks_le, fun a ha hnot ↦ h.memory a ha fun hin ↦ hnot (hsubset a ha hin)⟩

theorem extends_write (manager : MemoryManager) (address : ℕ) (bytes : List UInt8) :
    Extends manager (manager.write address bytes)
      {a | address ≤ a ∧ a < address + bytes.length} := by
  refine ⟨Nat.le_refl _, fun a _ hnot ↦ overwrite_of_outside ?_⟩
  rw [Set.mem_ofPred_eq] at hnot
  omega

/-- A new block is zero if that is asked for. -/
theorem allocateBlock_spec (manager : MemoryManager) (initializeToZero : Bool) :
    Outcome (· = outOfFrames) (fun result ↦ result.1 = manager.nextBlock ∧
      Extends manager result.2 ∅ ∧ result.2.IsBlock manager.nextBlock ∧
      (initializeToZero = true → ∀ i < largePageSize,
        result.2.memory (manager.nextBlock + i) = 0))
      (manager.allocateBlock initializeToZero) := by
  rw [allocateBlock]
  split_ifs with hlt
  · refine ⟨rfl, ⟨Nat.le_succ _, fun a ha _ ↦ if_neg fun h ↦ ?_⟩, ⟨manager.numBlocks,
      Nat.lt_succ_self _, rfl⟩, fun hzero i hi ↦ if_pos ⟨hzero, ?_, ?_⟩⟩ <;> omega
  · exact rfl

end MemoryManager

theorem inBlocks_lt_nextBlock {ds : List ℕ} (hds : ∀ d ∈ ds, manager.IsBlock d)
    (ha : a ∈ inBlocks ds) : a < manager.nextBlock := by
  obtain ⟨d, hd, _, hlt⟩ := ha
  exact Nat.lt_of_lt_of_le hlt (hds d hd).add_le_nextBlock

/-! ## Overflow buffers -/

namespace OverflowBuffer

variable {buffer buffer' : OverflowBuffer} {size : ℕ}

def blockData (buffer : OverflowBuffer) : List ℕ := buffer.blocks.map BufferBlock.data

/-- The addresses that have been given out. -/
def used (buffer : OverflowBuffer) : Set ℕ :=
  {a | ∃ block ∈ buffer.blocks, block.data ≤ a ∧ a < block.data + block.currentOffset}

structure WellFormed (manager : MemoryManager) (buffer : OverflowBuffer) : Prop where
  isBlock : ∀ d ∈ buffer.blockData, manager.IsBlock d
  nodup : buffer.blockData.Nodup
  currentOffset_le : ∀ block ∈ buffer.blocks, block.currentOffset ≤ largePageSize
  currentBlock_lt : ∀ i ∈ buffer.currentBlock, i < buffer.blocks.length

/-- The buffer has given out more, in blocks of its own or new ones. -/
structure Grows (manager manager' : MemoryManager) (buffer buffer' : OverflowBuffer) : Prop where
  wellFormed : WellFormed manager' buffer'
  used_subset : buffer.used ⊆ buffer'.used
  blockData : buffer'.blockData = buffer.blockData ∨
    buffer'.blockData = buffer.blockData ++ [manager.nextBlock]

theorem WellFormed.used_subset_inBlocks (h : WellFormed manager buffer) :
    buffer.used ⊆ inBlocks buffer.blockData := by
  rintro a ⟨block, hblock, hle, hlt⟩
  exact ⟨block.data, List.mem_map_of_mem hblock, hle,
    Nat.lt_of_lt_of_le hlt (Nat.add_le_add_left (h.currentOffset_le block hblock) _)⟩

theorem WellFormed.mono (h : WellFormed manager buffer)
    (hextends : manager.Extends manager' touched) : WellFormed manager' buffer :=
  ⟨fun d hd ↦ hextends.isBlock (h.isBlock d hd), h.nodup, h.currentOffset_le, h.currentBlock_lt⟩

theorem blockData_take {i : ℕ} {block : BufferBlock} (hblock : buffer.blocks[i]? = some block)
    (size : ℕ) : (buffer.take i block size).blockData = buffer.blockData := by
  rw [blockData, take, List.map_set, blockData]
  obtain ⟨hlt, hget⟩ := List.getElem?_eq_some_iff.mp hblock
  apply List.ext_getElem (by rw [List.length_set])
  intro j hj hj'
  rw [List.getElem_set]
  split_ifs with heq
  · subst heq
    rw [List.getElem_map, hget]
  · rfl

/-- The memory in which the buffer gives nothing out. -/
def settled (manager : MemoryManager) (buffer : OverflowBuffer) : Set ℕ :=
  {a | a < manager.nextBlock ∧ (a ∈ inBlocks buffer.blockData → a ∈ buffer.used)}

/-- What has been given out is new, and lies in one block. -/
structure Gives (buffer buffer' : OverflowBuffer) (ptr size : ℕ) : Prop where
  mem_used : ∀ i < size, ptr + i ∈ buffer'.used
  notMem_used : ∀ i < size, ptr + i ∉ buffer.used
  mem_block : ∃ d ∈ buffer'.blockData, d ≤ ptr ∧ ptr + size ≤ d + largePageSize

theorem WellFormed.take (h : WellFormed manager buffer) {i : ℕ} {block : BufferBlock}
    (hblock : buffer.blocks[i]? = some block)
    (hroom : block.currentOffset + size ≤ largePageSize) :
    WellFormed manager (buffer.take i block size) ∧ buffer.used ⊆ (buffer.take i block size).used ∧
      Gives buffer (buffer.take i block size) (block.data + block.currentOffset) size := by
  obtain ⟨hlt, hget⟩ := List.getElem?_eq_some_iff.mp hblock
  have hmem : block ∈ buffer.blocks := List.mem_of_getElem? hblock
  have hdata := blockData_take hblock size
  have hset : { block with currentOffset := block.currentOffset + size } ∈
      (buffer.take i block size).blocks := by
    rw [List.mem_iff_getElem?]
    exact ⟨i, List.getElem?_set_self hlt⟩
  have hold : ∀ block' ∈ buffer.blocks, block' = block ∨
      block' ∈ (buffer.take i block size).blocks := by
    intro block' hblock'
    obtain ⟨j, hj⟩ := List.mem_iff_getElem?.mp hblock'
    by_cases heq : i = j
    · subst heq
      exact Or.inl (Option.some.inj (hj.symm.trans hblock))
    · right
      rw [List.mem_iff_getElem?]
      exact ⟨j, (List.getElem?_set_ne heq).trans hj⟩
  refine ⟨⟨?_, ?_, fun block' hblock' ↦ ?_, fun j hj ↦ ?_⟩, fun a ha ↦ ?_, ⟨fun k hk ↦ ?_,
    fun k hk ⟨block', hblock', hle, hlt'⟩ ↦ ?_, ?_⟩⟩
  · rw [hdata]
    exact h.isBlock
  · rw [hdata]
    exact h.nodup
  · rcases List.mem_or_eq_of_mem_set hblock' with hblock' | rfl
    · exact h.currentOffset_le block' hblock'
    · exact hroom
  · rw [OverflowBuffer.take, List.length_set]
    exact h.currentBlock_lt j hj
  · obtain ⟨block', hblock', hle, hlt'⟩ := ha
    rcases hold block' hblock' with rfl | hblock'
    · exact ⟨_, hset, hle, Nat.lt_of_lt_of_le hlt' (by
        rw [← Nat.add_assoc]
        exact Nat.le_add_right _ _)⟩
    · exact ⟨block', hblock', hle, hlt'⟩
  · refine ⟨_, hset, ?_, ?_⟩
    · change block.data ≤ block.data + block.currentOffset + k
      omega
    · change block.data + block.currentOffset + k < block.data + (block.currentOffset + size)
      omega
  · have hblock'le := h.currentOffset_le block' hblock'
    by_cases heq : block'.data = block.data
    · have hsame : block' = block := List.inj_on_of_nodup_map h.nodup hblock' hmem heq
      subst hsame
      omega
    · have hdisjoint := (h.isBlock _ (List.mem_map_of_mem hblock')).disjoint
        (h.isBlock _ (List.mem_map_of_mem hmem)) heq
      omega
  · refine ⟨block.data, ?_, Nat.le_add_right _ _, ?_⟩
    · rw [hdata]
      exact List.mem_map_of_mem hmem
    · rw [Nat.add_assoc]
      exact Nat.add_le_add_left hroom _

/-- The buffer with a new block. -/
theorem WellFormed.concat (h : WellFormed manager buffer) (hextends : manager.Extends manager' ∅)
    (hblock : manager'.IsBlock manager.nextBlock) :
    WellFormed manager' { blocks := buffer.blocks ++ [{ data := manager.nextBlock }]
                          currentBlock := some buffer.blocks.length } := by
  have hdata : (OverflowBuffer.mk (buffer.blocks ++ [{ data := manager.nextBlock }])
      (some buffer.blocks.length)).blockData = buffer.blockData ++ [manager.nextBlock] := by
    rw [blockData, List.map_append]
    rfl
  refine ⟨fun d hd ↦ ?_, ?_, fun block hblock' ↦ ?_, fun i hi ↦ ?_⟩
  · rw [hdata, List.mem_append, List.mem_singleton] at hd
    rcases hd with hd | rfl
    · exact hextends.isBlock (h.isBlock d hd)
    · exact hblock
  · rw [hdata]
    refine List.nodup_append'.mpr ⟨h.nodup, List.nodup_singleton _, fun d hd hd' ↦ ?_⟩
    rw [List.mem_singleton.mp hd'] at hd
    have hle := (h.isBlock _ hd).add_le_nextBlock
    rw [largePageSize] at hle
    omega
  · rcases List.mem_append.mp hblock' with hblock' | hblock'
    · exact h.currentOffset_le block hblock'
    · rw [List.mem_singleton.mp hblock']
      exact Nat.zero_le _
  · rw [← Option.mem_some_iff.mp hi, List.length_append]
    exact Nat.lt_succ_self _

theorem used_concat (buffer : OverflowBuffer) (d : ℕ) (i : Option ℕ) :
    (OverflowBuffer.mk (buffer.blocks ++ [{ data := d }]) i).used = buffer.used := by
  ext a
  constructor
  · rintro ⟨block, hblock, hle, hlt⟩
    rcases List.mem_append.mp hblock with hblock | hblock
    · exact ⟨block, hblock, hle, hlt⟩
    · rw [List.mem_singleton.mp hblock] at hle hlt
      exact absurd hlt (Nat.not_lt.mpr hle)
  · rintro ⟨block, hblock, hbounds⟩
    exact ⟨block, List.mem_append_left _ hblock, hbounds⟩

/-- The current block has room. -/
structure HasRoom (manager manager' : MemoryManager) (buffer buffer' : OverflowBuffer) (size : ℕ) :
    Prop where
  extends_ : manager.Extends manager' ∅
  wellFormed : WellFormed manager' buffer'
  used_eq : buffer'.used = buffer.used
  blockData : buffer'.blockData = buffer.blockData ∨
    buffer'.blockData = buffer.blockData ++ [manager.nextBlock]
  room : ∃ i block, buffer'.currentBlock = some i ∧ buffer'.blocks[i]? = some block ∧
    block.currentOffset + size ≤ largePageSize

theorem ensureSpace_spec (h : WellFormed manager buffer) (hsize : size ≤ largePageSize) :
    Outcome (· = MemoryManager.outOfFrames)
      (fun result ↦ HasRoom manager result.1 buffer result.2 size)
      (buffer.ensureSpace manager size) := by
  have hnew : Outcome (· = MemoryManager.outOfFrames)
      (fun result ↦ HasRoom manager result.1 buffer result.2 size)
      (buffer.allocateNewBlock manager) := by
    refine (MemoryManager.allocateBlock_spec manager false).bind ?_
    rintro ⟨_, manager'⟩ ⟨rfl, hextends, hblock, _⟩
    refine ⟨hextends, h.concat hextends hblock, used_concat _ _ _, Or.inr ?_, buffer.blocks.length,
      { data := manager.nextBlock }, rfl, ?_, ?_⟩
    · rw [OverflowBuffer.blockData, List.map_append]
      rfl
    · rw [List.getElem?_append_right (Nat.le_refl _), Nat.sub_self]
      rfl
    · exact (Nat.zero_add size).symm ▸ hsize
  rw [ensureSpace, requireNewBlock, if_neg (Nat.not_lt.mpr hsize)]
  cases hcurrent : buffer.currentBlock with
  | none => exact hnew
  | some i =>
      have hlt := h.currentBlock_lt i hcurrent
      have hget := List.getElem?_eq_getElem hlt
      simp only [hget, ok_bind]
      split_ifs with hfull
      · exact hnew
      · rw [decide_eq_true_eq, Nat.not_lt] at hfull
        exact ⟨.refl manager, h, rfl, Or.inl rfl, i, _, hcurrent, hget, hfull⟩

theorem takeSpace_eq {i : ℕ} {block : BufferBlock} (hcurrent : buffer.currentBlock = some i)
    (hblock : buffer.blocks[i]? = some block) :
    buffer.takeSpace size = .ok (block.data + block.currentOffset, buffer.take i block size) := by
  rw [takeSpace, hcurrent]
  simp only [hblock]

theorem allocateSpace_spec (h : WellFormed manager buffer) (hsize : size ≤ largePageSize) :
    Outcome (· = MemoryManager.outOfFrames) (fun result ↦
      manager.Extends result.2.1 ∅ ∧ Grows manager result.2.1 buffer result.2.2 ∧
        Gives buffer result.2.2 result.1 size)
      (buffer.allocateSpace manager size) := by
  refine (ensureSpace_spec h hsize).bind ?_
  rintro ⟨manager', buffer'⟩ ⟨hextends, hwf, hused, hdata, i, block, hcurrent, hblock, hroom⟩
  obtain ⟨hwf', hsubset, hgives⟩ := hwf.take hblock hroom
  have htake : buffer'.takeSpace size = _ := takeSpace_eq hcurrent hblock
  have hdata' := blockData_take hblock size
  simp only [htake, ok_bind]
  exact ⟨hextends, ⟨hwf', hused ▸ hsubset, hdata.imp hdata'.trans hdata'.trans⟩, hgives.mem_used,
    hused ▸ hgives.notMem_used, hgives.mem_block⟩

end OverflowBuffer

/-! ## Copying values -/

/-- A value has been copied to a cell, its characters to new memory of the buffer. -/
structure Copied (manager manager' : MemoryManager) (buffer buffer' : OverflowBuffer)
    (type : DataType) (dst : ℕ) (value : List UInt8) : Prop where
  extends_ : manager.Extends manager' ({a | dst ≤ a ∧ a < dst + type.getDataTypeSize} ∪
    inBlocks buffer.blockData \ buffer.used)
  grows : OverflowBuffer.Grows manager manager' buffer buffer'
  stored_new : StoredAt manager'.memory (buffer'.used \ buffer.used) type dst value

section Copy

variable {buffer buffer' : OverflowBuffer} {dst : ℕ} {src : List UInt8}

theorem copied_of_fixed (h : buffer.WellFormed manager) (htype : type ≠ .string)
    (hholds : type.Holds value) :
    Copied manager (manager.write dst value) buffer buffer type dst value := by
  have hlength : value.length = type.getDataTypeSize := by
    cases type <;> first | exact hholds | exact absurd rfl htype
  have hextends := manager.extends_write dst value
  refine ⟨hextends.mono fun a _ ha ↦ Or.inl ?_, ⟨h.mono hextends, Set.Subset.rfl, Or.inl rfl⟩,
    ?_, fun hstring ↦ absurd hstring htype⟩
  · rw [← hlength]
    exact ha
  · have hread : readValue type (manager.write dst value).memory dst =
        readAt (manager.write dst value).memory dst type.getDataTypeSize := by
      cases type <;> first | rfl | exact absurd rfl htype
    rw [hread, ← hlength]
    exact readAt_overwrite _ _ _

theorem ofLittleEndian_length (hsrc : src.length ≤ largePageSize) :
    ofLittleEndian (littleEndian 4 src.length) = src.length := by
  apply ofLittleEndian_littleEndian
  rw [largePageSize] at hsrc
  omega

theorem copied_of_short (h : buffer.WellFormed manager) (hshort : src.length ≤ shortStrLength) :
    Copied manager ((manager.write dst (littleEndian 4 src.length)).write (dst + 4) src) buffer
      buffer .string dst src := by
  have hextends := (manager.extends_write dst (littleEndian 4 src.length)).trans
    ((manager.write dst (littleEndian 4 src.length)).extends_write (dst + 4) src)
  have hsmall : src.length ≤ 12 := hshort
  have hlen : readAt ((manager.write dst (littleEndian 4 src.length)).write (dst + 4) src).memory
      dst 4 = littleEndian 4 src.length := by
    refine (readAt_overwrite_of_disjoint (Or.inl (Nat.le_refl _))).trans ?_
    have hself := readAt_overwrite manager.memory dst (littleEndian 4 src.length)
    rwa [length_littleEndian] at hself
  refine ⟨hextends.mono fun a _ ha ↦ Or.inl ?_, ⟨h.mono hextends, Set.Subset.rfl, Or.inl rfl⟩,
    ?_, fun _ hlong ↦ absurd hlong (Nat.not_lt.mpr hshort)⟩
  · rw [Set.mem_union, Set.mem_ofPred_eq, Set.mem_ofPred_eq, length_littleEndian] at ha
    change dst ≤ a ∧ a < dst + 16
    omega
  · change readString _ dst = src
    rw [readString, hlen, ofLittleEndian_length (hsmall.trans (by decide)), if_pos hshort]
    exact readAt_overwrite _ _ _

/-- What is given out does not overlap what is settled. -/
theorem OverflowBuffer.Gives.notMem_settled {manager₁ : MemoryManager} {ptr size i : ℕ}
    (hgives : OverflowBuffer.Gives buffer buffer' ptr size)
    (hgrows : OverflowBuffer.Grows manager manager₁ buffer buffer') (hi : i < size) :
    ptr + i ∉ OverflowBuffer.settled manager buffer := by
  rintro ⟨hlt, hsettled⟩
  obtain ⟨d, hd, hle, hroom⟩ := hgives.mem_block
  have hold : d ∈ buffer.blockData := by
    rcases hgrows.blockData with hdata | hdata
    · rwa [hdata] at hd
    · rw [hdata, List.mem_append, List.mem_singleton] at hd
      rcases hd with hd | rfl
      · exact hd
      · omega
  exact hgives.notMem_used i hi (hsettled ⟨d, hold, by omega, by omega⟩)

/-- Addresses in a set and addresses outside it. -/
theorem disjoint_of_mem {s : Set ℕ} {k : ℕ} (hn : 0 < n) (hk : 0 < k) (hmem : ∀ i < n, a + i ∈ s)
    (hnot : ∀ i < k, b + i ∉ s) : a + n ≤ b ∨ b + k ≤ a := by
  by_contra hoverlap
  rw [not_or, Nat.not_le, Nat.not_le] at hoverlap
  rcases Nat.le_total a b with hle | hle
  · have hin := hmem (b - a) (by omega)
    rw [Nat.add_sub_cancel' hle] at hin
    exact hnot 0 hk hin
  · have hout := hnot (a - b) (by omega)
    rw [Nat.add_sub_cancel' hle] at hout
    exact hout (hmem 0 hn)

/-- The characters of a long string lie behind the pointer. -/
theorem copied_of_long {manager₁ : MemoryManager} {ptr : ℕ}
    (hcell : ∀ i < 16, dst + i ∈ OverflowBuffer.settled manager buffer)
    (hlong : shortStrLength < src.length) (hsrc : src.length ≤ largePageSize)
    (hextends : manager.Extends manager₁ ∅)
    (hgrows : OverflowBuffer.Grows manager manager₁ buffer buffer')
    (hgives : OverflowBuffer.Gives buffer buffer' ptr src.length) :
    Copied manager ((((manager₁.write (dst + 8) (littleEndian 8 ptr)).write dst
      (littleEndian 4 src.length)).write (dst + 4) (src.take prefixLength)).write ptr src)
      buffer buffer' .string dst src := by
  have hlarge : 12 < src.length := hlong
  obtain ⟨d, hd, hle, hroom⟩ := hgives.mem_block
  have hdisjoint : dst + 16 ≤ ptr ∨ ptr + src.length ≤ dst :=
    disjoint_of_mem (by decide) (Nat.zero_lt_of_lt hlarge) hcell fun i hi ↦
      hgives.notMem_settled hgrows hi
  have hptr : ptr < 256 ^ 8 := by
    have hblock := (hgrows.wellFormed.isBlock d hd).add_le_nextBlock
    have hnext := manager₁.nextBlock_le
    omega
  have hprefix : (src.take prefixLength).length = 4 := by
    rw [List.length_take]
    exact Nat.min_eq_left (by change 4 ≤ src.length; omega)
  set m₁ := manager₁.write (dst + 8) (littleEndian 8 ptr) with hm₁
  set m₂ := m₁.write dst (littleEndian 4 src.length) with hm₂
  set m₃ := m₂.write (dst + 4) (src.take prefixLength) with hm₃
  have hwrites := ((manager₁.extends_write (dst + 8) (littleEndian 8 ptr)).trans
    ((m₁.extends_write dst (littleEndian 4 src.length)).trans
      (m₂.extends_write (dst + 4) (src.take prefixLength)))).trans (m₃.extends_write ptr src)
  have hlen : readAt (m₃.write ptr src).memory dst 4 = littleEndian 4 src.length := by
    refine (readAt_overwrite_of_disjoint (by omega)).trans ?_
    refine (readAt_overwrite_of_disjoint (Or.inl (Nat.le_refl _))).trans ?_
    have hself := readAt_overwrite m₁.memory dst (littleEndian 4 src.length)
    rwa [length_littleEndian] at hself
  have hpointer : readAt (m₃.write ptr src).memory (dst + 8) 8 = littleEndian 8 ptr := by
    refine (readAt_overwrite_of_disjoint (by omega)).trans ?_
    refine (readAt_overwrite_of_disjoint (by omega)).trans ?_
    refine (readAt_overwrite_of_disjoint (Or.inr (by rw [length_littleEndian]; omega))).trans ?_
    have hself := readAt_overwrite manager₁.memory (dst + 8) (littleEndian 8 ptr)
    rwa [length_littleEndian] at hself
  have hderef : ofLittleEndian (littleEndian 8 ptr) = ptr := ofLittleEndian_littleEndian hptr
  refine ⟨(hextends.trans hwrites).mono fun a ha htouched ↦ ?_,
    ⟨hgrows.wellFormed.mono hwrites, ?_, ?_⟩, ?_, fun _ _ i hi ↦ ?_⟩
  · simp only [Set.mem_union, Set.mem_empty_iff_false, Set.mem_ofPred_eq, length_littleEndian,
      hprefix, false_or] at htouched
    rcases htouched with hcellBytes | ⟨hptrLe, hptrLt⟩
    · left
      change dst ≤ a ∧ a < dst + 16
      omega
    · obtain ⟨i, rfl⟩ := Nat.exists_eq_add_of_le hptrLe
      refine Or.inr ⟨?_, hgives.notMem_used i (Nat.lt_of_add_lt_add_left hptrLt)⟩
      rcases hgrows.blockData with hdata | hdata
      · rw [hdata] at hd
        exact ⟨d, hd, by omega, by omega⟩
      · rw [hdata, List.mem_append, List.mem_singleton] at hd
        rcases hd with hd | rfl
        · exact ⟨d, hd, by omega, by omega⟩
        · omega
  · exact hgrows.used_subset
  · exact hgrows.blockData
  · change readString _ dst = src
    rw [readString, hlen, ofLittleEndian_length hsrc, if_neg (Nat.not_le.mpr hlong), hpointer,
      hderef]
    exact readAt_overwrite _ _ _
  · rw [hpointer, hderef]
    exact ⟨hgives.mem_used i hi, hgives.notMem_used i hi⟩

theorem copyString_spec (h : buffer.WellFormed manager) (hholds : src.length ≤ largePageSize)
    (hcell : ∀ i < 16, dst + i ∈ OverflowBuffer.settled manager buffer) :
    Outcome (· = MemoryManager.outOfFrames)
      (fun result ↦ Copied manager result.1 buffer result.2 .string dst src)
      (copyString manager buffer src dst) := by
  rw [copyString]
  split_ifs with hshort
  · exact copied_of_short h hshort
  · refine (OverflowBuffer.allocateSpace_spec h hholds).bind ?_
    rintro ⟨ptr, manager₁, buffer'⟩ ⟨hextends, hgrows, hgives⟩
    exact copied_of_long hcell (Nat.lt_of_not_le hshort) hholds hextends hgrows hgives

end Copy

end Graphflow.Result
