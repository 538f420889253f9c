import Graphflow.Lib.LinearProbing
import Graphflow.Lib.WhileLoop
import Graphflow.Processor.ValueVector
import Mathlib.Data.List.GetD
import Mathlib.Logic.Function.Basic

/-!
# Hash slots

A slot points to an entry of a table and has its hash.  A free slot points to nothing.
-/

namespace Graphflow.Aggregate

open Lib Processor

structure HashSlot where
  hash : UInt64 := 0
  entry : Option ℕ := none
  deriving DecidableEq, Repr

structure HashSlots where
  maxNumHashSlots : ℕ
  slots : ℕ → HashSlot

namespace HashSlots

/-- The number of slots in a block of the memory manager. -/
def numHashSlotsPerBlock : ℕ := 2 ^ 18 / 16

def empty (maxNumHashSlots : ℕ) : HashSlots := ⟨maxNumHashSlots, fun _ ↦ {}⟩

/-- The bit mask is one less than the number of slots. -/
def getSlotIdxForHash (t : HashSlots) (hash : UInt64) : ℕ :=
  hash.toNat &&& (t.maxNumHashSlots - 1)

def increaseSlotIdx (t : HashSlots) (slotIdx : ℕ) : ℕ :=
  if t.maxNumHashSlots ≤ slotIdx + 1 then 0 else slotIdx + 1

def setSlot (t : HashSlots) (slotIdx : ℕ) (slot : HashSlot) : HashSlots :=
  { t with slots := Function.update t.slots slotIdx slot }

/-- A loop that has been to every slot goes on for ever. -/
def fillHashSlot (t : HashSlots) (hash : UInt64) (entry : ℕ) : Except ExecutionFault HashSlots := do
  let slotIdx ← whileLoop .diverges (fun slotIdx ↦ (t.slots slotIdx).entry.isSome)
    (fun slotIdx ↦ .ok (t.increaseSlotIdx slotIdx)) t.maxNumHashSlots (t.getSlotIdxForHash hash)
  return t.setSlot slotIdx ⟨hash, some entry⟩

/-- New slots for the entries with the given hashes. -/
def resize (newSize : ℕ) (hashes : List UInt64) : Except ExecutionFault HashSlots :=
  hashes.zipIdx.foldlM (fun t entry ↦ t.fillHashSlot entry.1 entry.2) (empty newSize)

@[simp] theorem slots_setSlot (t : HashSlots) (slotIdx : ℕ) (slot : HashSlot) :
    (t.setSlot slotIdx slot).slots = Function.update t.slots slotIdx slot := rfl

@[simp] theorem maxNumHashSlots_setSlot (t : HashSlots) (slotIdx : ℕ) (slot : HashSlot) :
    (t.setSlot slotIdx slot).maxNumHashSlots = t.maxNumHashSlots := rfl

variable {t t' : HashSlots} {hashes : List UInt64} {hash : UInt64} {d s i : ℕ}

theorem getSlotIdxForHash_lt (hpos : 0 < t.maxNumHashSlots) (hash : UInt64) :
    t.getSlotIdxForHash hash < t.maxNumHashSlots :=
  Nat.lt_of_le_of_lt Nat.and_le_right (Nat.sub_one_lt hpos.ne')

theorem increaseSlotIdx_probe (hpos : 0 < t.maxNumHashSlots) (home d : ℕ) :
    t.increaseSlotIdx (probe t.maxNumHashSlots home d) = probe t.maxNumHashSlots home (d + 1) :=
  (probe_succ hpos home d).symm

def entryAt (t : HashSlots) (slotIdx : ℕ) : Option ℕ := (t.slots slotIdx).entry

/-- Where the search for an entry starts. -/
def homeOf (t : HashSlots) (hashes : List UInt64) (i : ℕ) : ℕ :=
  t.getSlotIdxForHash (hashes.getD i 0)

/-- The slots hold entries with these hashes. -/
structure Holds (t : HashSlots) (hashes : List UInt64) : Prop where
  probed : Probed t.maxNumHashSlots t.entryAt (t.homeOf hashes) hashes.length
  hash_eq : ∀ s < t.maxNumHashSlots, ∀ i, t.entryAt s = some i →
    (t.slots s).hash = hashes.getD i 0

theorem entryAt_setSlot (t : HashSlots) (s : ℕ) (slot : HashSlot) :
    (t.setSlot s slot).entryAt = Function.update t.entryAt s slot.entry := by
  funext s'
  by_cases heq : s' = s
  · subst heq
    rw [Function.update_self, entryAt, slots_setSlot, Function.update_self]
  · rw [Function.update_of_ne heq, entryAt, slots_setSlot, Function.update_of_ne heq, entryAt]

theorem holds_empty (maxNumHashSlots : ℕ) : (empty maxNumHashSlots).Holds [] where
  probed := Probed.empty _ _
  hash_eq _ _ _ h := by cases h

/-- The first free slot from the home of a hash on gets an entry with the hash. -/
theorem Holds.setSlot (h : t.Holds hashes) (hd : d < t.maxNumHashSlots)
    (hnone : t.entryAt (probe t.maxNumHashSlots (t.getSlotIdxForHash hash) d) = none)
    (hpasses : PassesOver t.maxNumHashSlots t.entryAt (t.getSlotIdxForHash hash) d) :
    (t.setSlot (probe t.maxNumHashSlots (t.getSlotIdxForHash hash) d)
      ⟨hash, some hashes.length⟩).Holds (hashes ++ [hash]) := by
  have hlast : (hashes ++ [hash]).getD hashes.length 0 = hash := by simp
  have hinit : ∀ i < hashes.length, (hashes ++ [hash]).getD i 0 = hashes.getD i 0 :=
    fun i hi ↦ List.getD_append _ _ _ _ hi
  have hhome : t.homeOf (hashes ++ [hash]) hashes.length = t.getSlotIdxForHash hash := by
    rw [homeOf, hlast]
  constructor
  · rw [List.length_append, List.length_singleton, entryAt_setSlot]
    have hprobed := @Probed.insert t.maxNumHashSlots hashes.length d t.entryAt (t.homeOf hashes)
      (t.homeOf (hashes ++ [hash])) h.probed hd (by rw [hhome]; exact hnone)
      (by rw [hhome]; exact hpasses) fun i hi ↦ by rw [homeOf, homeOf, hinit i hi]
    rwa [hhome] at hprobed
  · intro s hs i hi
    rw [entryAt_setSlot] at hi
    by_cases heq : s = probe t.maxNumHashSlots (t.getSlotIdxForHash hash) d
    · rw [heq, Function.update_self, Option.some.injEq] at hi
      rw [heq, ← hi, hlast, slots_setSlot, Function.update_self]
    · rw [Function.update_of_ne heq] at hi
      rw [hinit i (h.probed.lt s hs i hi), slots_setSlot, Function.update_of_ne heq]
      exact h.hash_eq s hs i hi

theorem Holds.exists_fillHashSlot (h : t.Holds hashes)
    (hroom : hashes.length < t.maxNumHashSlots) (hash : UInt64) :
    ∃ t', t.fillHashSlot hash hashes.length = .ok t' ∧
      t'.maxNumHashSlots = t.maxNumHashSlots ∧ t'.Holds (hashes ++ [hash]) := by
  have hpos : 0 < t.maxNumHashSlots := Nat.zero_lt_of_lt hroom
  obtain ⟨n, slotIdx, hloop, ⟨d, hslotIdx, hpasses, -⟩, hend⟩ := @exists_whileLoop_eq_ok
    ExecutionFault ℕ (fun slotIdx ↦ (t.slots slotIdx).entry.isSome)
    (fun slotIdx ↦ .ok (t.increaseSlotIdx slotIdx)) .diverges (t.getSlotIdxForHash hash)
    t.maxNumHashSlots t.maxNumHashSlots
    (fun n slotIdx ↦ ∃ d, slotIdx = probe t.maxNumHashSlots (t.getSlotIdxForHash hash) d ∧
      PassesOver t.maxNumHashSlots t.entryAt (t.getSlotIdxForHash hash) d ∧
      n = t.maxNumHashSlots - d)
    (by
      rintro n slotIdx ⟨d, rfl, hpasses, rfl⟩ hsome
      have hlt := h.probed.lt_of_passesOver hroom hpasses
      exact ⟨_, _, by omega, rfl, d + 1, increaseSlotIdx_probe hpos _ d, hpasses.succ hsome, rfl⟩)
    ⟨0, (probe_zero (getSlotIdxForHash_lt hpos hash)).symm,
      fun d hd ↦ absurd hd (Nat.not_lt_zero d), rfl⟩ le_rfl
  subst hslotIdx
  have hlt := h.probed.lt_of_passesOver hroom hpasses
  have hnone := Option.not_isSome_iff_eq_none.mp (Bool.eq_false_iff.mp hend)
  refine ⟨t.setSlot (probe t.maxNumHashSlots (t.getSlotIdxForHash hash) d)
    ⟨hash, some hashes.length⟩, ?_, rfl, h.setSlot hlt hnone hpasses⟩
  rw [fillHashSlot, hloop, ok_bind, pure_eq_ok]

/-- Slots that are no fewer than the entries hold all of them. -/
theorem exists_resize {newSize : ℕ} (hroom : hashes.length ≤ newSize) :
    ∃ t, resize newSize hashes = .ok t ∧ t.maxNumHashSlots = newSize ∧ t.Holds hashes := by
  induction hashes using List.reverseRecOn with
  | nil => exact ⟨empty newSize, rfl, rfl, holds_empty newSize⟩
  | append_singleton hashes hash ih =>
      rw [List.length_append, List.length_singleton] at hroom
      obtain ⟨t, hloop, rfl, hholds⟩ := ih (by omega)
      obtain ⟨t', hfill, hmax, hholds'⟩ := hholds.exists_fillHashSlot (by omega) hash
      refine ⟨t', ?_, hmax, hholds'⟩
      rw [resize] at hloop ⊢
      rw [List.zipIdx_append, List.foldlM_append, hloop, ok_bind, Nat.zero_add,
        List.zipIdx_singleton, List.foldlM_cons, hfill, ok_bind, List.foldlM_nil, pure_eq_ok]

end HashSlots

end Graphflow.Aggregate
