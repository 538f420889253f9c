import Graphflow.Processor.HashJoin
import Graphflow.Processor.ScanCoverage
import Graphflow.Processor.ValueVector

/-!
# Semi masks

A semi masker on the probe side of a join marks the nodes that the scan on the build side reads.
-/

namespace Graphflow.Processor

open Lib

/-- The keys in a vector, with their data chunk. -/
abbrev KeyBatch := DataChunkState × (ℕ → ℕ)

def KeyBatch.nodeOffsets (batch : KeyBatch) : List ℕ :=
  (if batch.1.isFlat then [batch.1.getPositionOfCurrIdx]
  else batch.1.selVector.selectedPositions).map batch.2

def SemiMasker.getNextTuples (maskerIdx : ℕ) (mask : ScanNodeIDSemiMask) (batch : KeyBatch) :
    ScanNodeIDSemiMask :=
  batch.nodeOffsets.foldl (fun mask nodeOffset ↦ mask.setMask nodeOffset maskerIdx) mask

/-- The mask of a single masker, once the probe side is accumulated. -/
def semiMask (maxNodeOffset : ℕ) (batches : List KeyBatch) : ScanNodeIDSemiMask :=
  batches.foldl (SemiMasker.getNextTuples 0) (.ofMaxNodeOffset maxNodeOffset 1)

theorem isNodeMasked_semiMask {maxNodeOffset nodeOffset : ℕ} (hmax : maxNodeOffset + 1 < 2 ^ 64)
    (ho : nodeOffset ≤ maxNodeOffset) (batches : List KeyBatch) :
    (semiMask maxNodeOffset batches).isNodeMasked nodeOffset ↔
      nodeOffset ∈ batches.flatMap KeyBatch.nodeOffsets := by
  have hcalls : semiMask maxNodeOffset batches =
      ((batches.flatMap KeyBatch.nodeOffsets).map (·, 0)).foldl
        (fun mask call ↦ mask.setMask call.1 call.2) (.ofMaxNodeOffset maxNodeOffset 1) := by
    rw [List.foldl_map, List.foldl_flatMap]
    rfl
  rw [hcalls]
  refine (ScanNodeIDSemiMask.isNodeMasked_foldl (by decide : 1 < 2 ^ 8) ?_ ?_
    (ScanNodeIDSemiMask.getElem?_ofMaxNodeOffset hmax ho) rfl (Nat.zero_le _)).trans ?_
  · exact List.forall_mem_map.mpr fun _ _ ↦ Nat.one_pos
  · exact List.pairwise_map.mpr (List.pairwise_of_forall fun _ _ ↦ le_rfl)
  · simp

variable {V : Type}

namespace JoinHashTable

/-- The table that is built from the nodes of a mask. -/
def ofMasked (ht : JoinHashTable ℕ V) (mask : ScanNodeIDSemiMask) (bitmask : ℕ) :
    JoinHashTable ℕ V :=
  { ht with bitmask, tuples := ht.tuples.filter fun tuple ↦ mask.isNodeMasked tuple.1 }

/-- Inner joins with two tables end with the same rows. -/
def JoinsAs (ht ht' : JoinHashTable ℕ V) (start : ProbeState ℕ V) : Prop :=
  ∃ turns s turns' s', run (ProbeState.turn ht .inner) start turns = some s ∧
    ProbeState.turn ht .inner s () = none ∧
      run (ProbeState.turn ht' .inner) start turns' = some s' ∧
    ProbeState.turn ht' .inner s' () = none ∧ s'.outputs = s.outputs

theorem joined_sameSlot (ht : JoinHashTable ℕ V) (k : ProbeKey ℕ) :
    joined .inner k.key (ht.sameSlot k) =
      if k.isNull then []
      else (ht.tuples.filter fun tuple ↦ tuple.1 = k.key).reverse.map (some ·.2) := by
  rw [joined, if_neg (by simp), List.append_nil, sameSlot]
  split_ifs
  · rfl
  · rw [List.filter_reverse, List.filter_filter]
    refine congrArg (List.map _ ·.reverse) (List.filter_congr fun tuple _ ↦ ?_)
    by_cases hkey : tuple.1 = k.key <;> simp [hkey]

/-- A semi mask of the keys of the probe side leaves out no row of an inner join. -/
theorem joinsAs_ofMasked {maxNodeOffset : ℕ} (hmax : maxNodeOffset + 1 < 2 ^ 64)
    {batches : List KeyBatch} {pulled : List (ProbeKey ℕ)}
    (hpulled : ∀ k ∈ pulled, k.isNull = false → k.key ∈ batches.flatMap KeyBatch.nodeOffsets)
    {ht : JoinHashTable ℕ V} (hht : ∀ tuple ∈ ht.tuples, tuple.1 ≤ maxNodeOffset)
    (bitmask : ℕ) (probeKey : ProbeKey ℕ) :
    ht.JoinsAs (ht.ofMasked (semiMask maxNodeOffset batches) bitmask)
      { pulled, probeKey } := by
  obtain ⟨turns, s, hrun, hend⟩ := exists_end ht .inner { pulled, probeKey }
  obtain ⟨turns', s', hrun', hend'⟩ := exists_end
    (ht.ofMasked (semiMask maxNodeOffset batches) bitmask) .inner { pulled, probeKey }
  refine ⟨turns, s, turns', s', hrun, hend, hrun', hend', ?_⟩
  rw [outputs_of_end hrun hend, outputs_of_end hrun' hend']
  refine List.flatMap_congr fun k hk ↦ congrArg _ ?_
  rw [joined_sameSlot, joined_sameSlot]
  split_ifs with hnull
  · rfl
  · refine congrArg (List.map _ ·.reverse)
      (List.filter_filter.trans (List.filter_congr fun tuple htuple ↦ ?_))
    by_cases hkey : tuple.1 = k.key
    · have hmasked := (isNodeMasked_semiMask hmax (hht tuple htuple) batches).mpr
        (hkey ▸ hpulled k hk (Bool.not_eq_true _ ▸ hnull))
      rw [hmasked, Bool.and_true]
    · rw [decide_eq_false hkey, Bool.false_and]

theorem joinsAs_ofMasked_oddKeys :
    oddKeys.JoinsAs (oddKeys.ofMasked (semiMask 5
        [(⟨.unfiltered 2 (by decide), none, nofun⟩, fun pos ↦ pos * 3)]) 0)
      { pulled := [⟨0, 3, false⟩], probeKey := ⟨0, 0, true⟩ } :=
  joinsAs_ofMasked (by decide) (by decide) (by decide) 0 _

end JoinHashTable

end Graphflow.Processor
