import Graphflow.Lib.Bytes

/-!
# Files of bytes

A file has a size, and behind its end there is nothing, which reads as zeros once the file has grown
over it.  Blocks written at the beginnings of different pages are all there at the end, whatever the
order in which they are written.
-/

namespace Graphflow.Lib

structure FileBytes where
  size : ℕ
  bytes : Memory
  eq_zero : ∀ i, size ≤ i → bytes i = 0

namespace FileBytes

variable {f : FileBytes} {a b p pageSize : ℕ} {data block : List UInt8}
  {writes : List (ℕ × List UInt8)}

/-- Writing nothing does not make a file larger. -/
def write (f : FileBytes) (offset : ℕ) (data : List UInt8) : FileBytes where
  size := if data = [] then f.size else max f.size (offset + data.length)
  bytes := overwrite f.bytes offset data
  eq_zero i hi := by
    have hend : f.size ≤ i ∧ (offset + data.length ≤ i ∨ i < offset) := by
      split_ifs at hi with hnil
      · subst hnil
        simp only [List.length_nil]
        omega
      · omega
    rw [overwrite_of_outside hend.2.symm, f.eq_zero i hend.1]

/-- A block stands in the file. -/
structure Holds (f : FileBytes) (a : ℕ) (block : List UInt8) : Prop where
  readAt_eq : readAt f.bytes a block.length = block
  le_size : a + block.length ≤ f.size

theorem size_write (f : FileBytes) (a : ℕ) (data : List UInt8) :
    (f.write a data).size = if data = [] then f.size else max f.size (a + data.length) := rfl

theorem size_le_write (f : FileBytes) (a : ℕ) (data : List UInt8) :
    f.size ≤ (f.write a data).size := by
  rw [size_write]
  split_ifs
  · exact Nat.le_refl _
  · exact Nat.le_max_left _ _

theorem holds_write (hne : block ≠ []) : (f.write a block).Holds a block where
  readAt_eq := readAt_overwrite f.bytes a block
  le_size := by
    rw [size_write, if_neg hne]
    exact Nat.le_max_right _ _

theorem Holds.write (h : f.Holds a block) (hdisjoint : a + block.length ≤ b ∨ b + data.length ≤ a) :
    (f.write b data).Holds a block where
  readAt_eq := (readAt_overwrite_of_disjoint hdisjoint).trans h.readAt_eq
  le_size := h.le_size.trans (f.size_le_write b data)

/-! ## Pages -/

/-- Blocks are written to the beginnings of pages. -/
def writePages (pageSize : ℕ) (f : FileBytes) (writes : List (ℕ × List UInt8)) : FileBytes :=
  writes.foldl (fun f w ↦ f.write (w.1 * pageSize) w.2) f

/-- Different pages have no byte in common. -/
theorem disjoint_of_ne (hne : a ≠ b) (hblock : block.length ≤ pageSize)
    (hdata : data.length ≤ pageSize) :
    a * pageSize + block.length ≤ b * pageSize ∨ b * pageSize + data.length ≤ a * pageSize := by
  rcases Nat.lt_or_gt_of_ne hne with hlt | hgt
  · have hnext := Nat.mul_le_mul_right pageSize hlt
    rw [Nat.succ_mul] at hnext
    exact .inl (by omega)
  · have hnext := Nat.mul_le_mul_right pageSize hgt
    rw [Nat.succ_mul] at hnext
    exact .inr (by omega)

theorem Holds.writePages (h : f.Holds (p * pageSize) block) (hblock : block.length ≤ pageSize)
    (hsize : ∀ w ∈ writes, w.2.length ≤ pageSize) (hp : p ∉ writes.map Prod.fst) :
    (writePages pageSize f writes).Holds (p * pageSize) block := by
  induction writes generalizing f with
  | nil => exact h
  | cons w writes ih =>
      have hne : p ≠ w.1 := fun heq ↦ hp (heq ▸ List.mem_cons_self)
      have hfirst := h.write (disjoint_of_ne hne hblock (hsize w List.mem_cons_self))
      exact ih hfirst (fun w' hw' ↦ hsize w' (List.mem_cons_of_mem _ hw'))
        fun hmem ↦ hp (List.mem_cons_of_mem _ hmem)

/-- What is written to a page stays there if the other writes go to other pages. -/
theorem holds_writePages (hnodup : (writes.map Prod.fst).Nodup)
    (hsize : ∀ w ∈ writes, w.2 ≠ [] ∧ w.2.length ≤ pageSize) (hmem : (p, block) ∈ writes) :
    (writePages pageSize f writes).Holds (p * pageSize) block := by
  induction writes generalizing f with
  | nil => exact absurd hmem List.not_mem_nil
  | cons w writes ih =>
      rw [List.map_cons, List.nodup_cons] at hnodup
      have hrest : ∀ w' ∈ writes, w'.2 ≠ [] ∧ w'.2.length ≤ pageSize :=
        fun w' hw' ↦ hsize w' (List.mem_cons_of_mem _ hw')
      rcases List.mem_cons.mp hmem with rfl | hmem
      · obtain ⟨hne, hle⟩ := hsize (p, block) List.mem_cons_self
        exact (holds_write hne).writePages hle (fun w' hw' ↦ (hrest w' hw').2) hnodup.1
      · exact ih hnodup.2 hrest hmem

end FileBytes

end Graphflow.Lib
