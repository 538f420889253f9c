import Graphflow.Overflow.InMemCopy
import Graphflow.Overflow.Write

/-!
# Values that have been copied

A value whose strings and lists all go to one page takes one interval of addresses there.  What is
written outside the bytes that reading a value visits does not matter for the value.
-/

namespace Graphflow

open Wal Storage Lib

variable {m m' : Memory} {lo lo' hi hi' : ℕ} {c c' : Cursor} {bytes : List UInt8} {r : Region}

/-! ## Regions -/

namespace Region

/-- The bytes are on one page, between two addresses. -/
structure Within (lo hi : ℕ) (r : Region) : Prop where
  inside : r.1.pagePos + r.2 ≤ defaultPageSize
  le_address : lo ≤ r.1.address
  address_le : r.1.address + r.2 ≤ hi

theorem Within.mono (h : r.Within lo hi) (hlo : lo' ≤ lo) (hhi : hi ≤ hi') : r.Within lo' hi' :=
  ⟨h.inside, hlo.trans h.le_address, h.address_le.trans hhi⟩

/-- The memory has the same bytes. -/
def Agree (m m' : Memory) (r : Region) : Prop :=
  ∀ a, r.1.address ≤ a → a < r.1.address + r.2 → m' a = m a

end Region

/-- Regions of two intervals do not overlap. -/
theorem pairwise_append_of_within {rs rs' : List Region} (h : rs.Pairwise OverflowFile.Disjoint)
    (h' : rs'.Pairwise OverflowFile.Disjoint) {mid : ℕ} (hrs : ∀ r ∈ rs, r.1.address + r.2 ≤ mid)
    (hrs' : ∀ r ∈ rs', mid ≤ r.1.address) :
    (rs ++ rs').Pairwise OverflowFile.Disjoint := by
  rw [List.pairwise_append]
  exact ⟨h, h', fun r hr r' hr' ↦ Or.inl ((hrs r hr).trans (hrs' r' hr'))⟩

theorem readAt_element_congr {a n size : ℕ} {i : ℕ} (hi : i < n)
    (h : ∀ b, a ≤ b → b < a + n * size → m' b = m b) :
    readAt m' (a + i * size) size = readAt m (a + i * size) size := by
  have hslot : (i + 1) * size ≤ n * size := Nat.mul_le_mul_right _ hi
  rw [Nat.add_one_mul] at hslot
  apply readAt_congr
  intro b hle hlt
  exact h b (by omega) (by omega)

theorem regionsOf_list {childType : DataType} {elementSize : ℕ}
    (hsize : childType.typeID.getDataTypeSize = .ok elementSize) :
    regionsOf m (.list childType) bytes =
      (decodeOverflowPtr (bytes.drop 8), ofLittleEndian (bytes.take 8) * elementSize) ::
        (List.range (ofLittleEndian (bytes.take 8))).flatMap fun i ↦ regionsOf m childType
          (readAt m ((decodeOverflowPtr (bytes.drop 8)).address + i * elementSize)
            elementSize) := by
  simp only [regionsOf, hsize]

theorem flatMap_congr_range {α : Type} {n : ℕ} {g g' : ℕ → List α} (h : ∀ i < n, g i = g' i) :
    (List.range n).flatMap g = (List.range n).flatMap g' := by
  rw [List.flatMap, List.flatMap,
    List.map_congr_left fun i hi ↦ h i (List.mem_range.mp hi)]

/-- Reading visits the same bytes if these have not changed. -/
theorem regionsOf_congr (dataType : DataType) (bytes : List UInt8)
    (h : ∀ r ∈ regionsOf m dataType bytes, r.Agree m m') :
    regionsOf m' dataType bytes = regionsOf m dataType bytes := by
  induction dataType generalizing bytes with
  | scalar typeID => cases typeID <;> rfl
  | list childType ih =>
      cases hsize : childType.typeID.getDataTypeSize with
      | error e => simp only [regionsOf, hsize]
      | ok elementSize =>
          rw [regionsOf_list hsize] at h ⊢
          rw [regionsOf_list hsize]
          congr 1
          apply flatMap_congr_range
          intro i hi
          rw [readAt_element_congr hi (h _ List.mem_cons_self)]
          apply ih
          intro r hr
          exact h r (List.mem_cons_of_mem _
            (List.mem_flatMap.mpr ⟨i, List.mem_range.mpr hi, hr⟩))

/-- A value stays stored if the bytes that reading it visits have not changed. -/
theorem Stored.congr (hc : c.Reaches c') (dataType : DataType) (bytes : List UInt8)
    (value : Literal dataType) (h : Stored m lo c dataType bytes value)
    (hm : ∀ r ∈ regionsOf m dataType bytes, r.Agree m m') :
    Stored m' lo c' dataType bytes value := by
  induction dataType generalizing bytes with
  | scalar typeID =>
      cases typeID with
      | string =>
          obtain ⟨hlen, h⟩ := h
          refine ⟨hlen, ?_⟩
          split_ifs at h ⊢ with hshort
          · exact h
          · obtain ⟨hholds, hread⟩ := h
            refine ⟨hholds.mono (Nat.le_refl _) hc, (readAt_congr ?_).trans hread⟩
            have hmem : (decodeOverflowPtr (bytes.drop 8), ofLittleEndian (bytes.take 4)) ∈
                regionsOf m (.scalar .string) bytes := by
              rw [regionsOf, if_neg (hlen ▸ hshort)]
              exact List.mem_singleton_self _
            intro b hle hlt
            exact hm _ hmem b hle (hlen ▸ hlt)
      | _ => exact h
  | list childType ih =>
      obtain ⟨elementSize, hsize, hlen, hholds, h⟩ := h
      rw [regionsOf_list hsize, hlen] at hm
      refine ⟨elementSize, hsize, hlen, hholds.mono (Nat.le_refl _) hc, ?_⟩
      intro i hi
      rw [readAt_element_congr hi (hm _ List.mem_cons_self)]
      apply ih _ _ (h i hi)
      intro r hr
      exact hm r (List.mem_cons_of_mem _ (List.mem_flatMap.mpr ⟨i, List.mem_range.mpr hi, hr⟩))

/-! ## Reading -/

namespace OverflowFile

variable {pages : ℕ → BytePage} {pin : ℕ → Option BytePage}

theorem copyFromFrame_element {ptr : OverflowPtr} {n size i : ℕ} (hi : i < n)
    (hpin : ∀ p < c.numPages, pin p = some (pages p)) (h : c.Holds lo ptr (n * size)) :
    copyFromFrame (pages ptr.pageIdx) (ptr.pagePos + i * size) size =
      .ok (readAt (pagesMemory pages) (ptr.address + i * size) size) := by
  have hslot : (i + 1) * size ≤ n * size := Nat.mul_le_mul_right _ hi
  rw [Nat.add_one_mul] at hslot
  have hinside := h.inside
  have hle := h.le_address
  have haddress := h.address_le
  have hptr : OverflowPtr.address ⟨ptr.pageIdx, ptr.pagePos + i * size⟩ = ptr.address + i * size :=
    (Nat.add_assoc _ _ _).symm
  have hholds : c.Holds lo ⟨ptr.pageIdx, ptr.pagePos + i * size⟩ size := by
    refine ⟨h.page_lt, ?_, ?_, ?_⟩
    · show ptr.pagePos + i * size + size ≤ defaultPageSize
      omega
    · rw [hptr]
      omega
    · rw [hptr]
      omega
  rw [← hptr]
  exact (copyFromFrame_of_holds hpin hholds).2

/-- What is stored is what `readString` and `readList` return. -/
theorem readLiterals_of_stored (hpin : ∀ p < c.numPages, pin p = some (pages p))
    (dataType : DataType) (bytes : List UInt8) (value : Literal dataType)
    (hvalue : Literal.Admitted dataType value)
    (h : Stored (pagesMemory pages) lo c dataType bytes value) :
    readLiterals pin dataType bytes = .ok value := by
  induction dataType generalizing bytes with
  | scalar typeID =>
      cases typeID with
      | string => exact readString_of_stored hpin h
      | int64 | double | bool | date | timestamp | interval => exact congrArg Except.ok h
      | _ => exact absurd hvalue.1 (by decide)
  | list childType ih =>
      obtain ⟨elementSize, hsize, hlen, hholds, h⟩ := h
      have hpage := hpin _ hholds.page_lt
      simp only [readLiterals, readListWith, hpage, hsize, Lib.ok_bind, hlen]
      apply mapM_range_eq_ok
      intro i hi
      rw [copyFromFrame_element hi hpin hholds, Lib.ok_bind]
      exact ih _ _ (hvalue.2 _ (List.getElem_mem _)) (h i hi)

end OverflowFile

end Graphflow
