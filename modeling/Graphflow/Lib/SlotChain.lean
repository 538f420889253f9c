import Mathlib.Algebra.Ring.Nat
import Mathlib.Data.Fintype.Card
import Mathlib.Data.List.FinRange
import Mathlib.Data.List.Nodup
import Mathlib.Data.List.Perm.Basic
import Mathlib.Data.Nat.Notation
import Mathlib.Logic.Function.Basic
import Mathlib.Tactic.Common

/-!
# Chains of slots

A bucket of a hash table as a list of slots, each of which has room for `n` entries.  New entries go
to the first free place; removed ones leave a hole.
-/

namespace Graphflow.Lib

variable {K V : Type} {n : ℕ}

abbrev Slot (K V : Type) (n : ℕ) := Fin n → Option (K × V)

namespace Slot

variable {s : Slot K V n} {i : Fin n} {e : K × V} {k : K} {v : V}

def empty : Slot K V n := fun _ ↦ none

def entries (s : Slot K V n) : List (K × V) := (List.finRange n).filterMap s

/-- The first free place. -/
def freePos (s : Slot K V n) : Option (Fin n) := (List.finRange n).find? fun i ↦ (s i).isNone

/-- The first place with the key. -/
def findPos [DecidableEq K] (s : Slot K V n) (k : K) : Option (Fin n) :=
  (List.finRange n).find? fun i ↦ (s i).any fun e ↦ decide (e.1 = k)

def set (s : Slot K V n) (i : Fin n) (e : Option (K × V)) : Slot K V n := Function.update s i e

theorem mem_entries : e ∈ s.entries ↔ ∃ i, s i = some e := by
  simp [entries, List.mem_filterMap]

@[simp] theorem entries_empty : (empty : Slot K V n).entries = [] := by
  simp [entries, empty]

/-- Filling a free place adds one entry. -/
theorem entries_set (h : s i = none) : (s.set i (some e)).entries.Perm (e :: s.entries) := by
  have hnodup := List.nodup_finRange n
  obtain ⟨before, after, hsplit⟩ := List.append_of_mem (List.mem_finRange i)
  rw [hsplit] at hnodup
  have hbefore : ∀ j ∈ before, s.set i (some e) j = s j := by
    intro j hj
    apply Function.update_of_ne
    rintro rfl
    exact (List.nodup_append.mp hnodup).2.2 j hj j List.mem_cons_self rfl
  have hafter : ∀ j ∈ after, s.set i (some e) j = s j := by
    intro j hj
    apply Function.update_of_ne
    rintro rfl
    exact (List.nodup_cons.mp (List.nodup_append.mp hnodup).2.1).1 hj
  rw [entries, entries, hsplit, List.filterMap_append, List.filterMap_append, List.filterMap_cons,
    List.filterMap_cons, h, List.filterMap_congr hbefore, List.filterMap_congr hafter]
  simp only [set, Function.update_self]
  exact List.perm_middle

/-- Clearing a place removes its entry. -/
theorem entries_clear (h : s i = some e) : s.entries.Perm (e :: (s.set i none).entries) := by
  have hset := entries_set (e := e) (s := s.set i none) (i := i) (Function.update_self _ _ _)
  have hsame : (s.set i none).set i (some e) = s := by
    rw [set, set, Function.update_idem, ← h, Function.update_eq_self]
  rwa [hsame] at hset

theorem freePos_spec (h : s.freePos = some i) : s i = none := by
  have hi := List.find?_some h
  simpa using hi

theorem freePos_eq_none_iff : s.freePos = none ↔ ∀ i, (s i).isSome = true := by
  simp only [freePos, List.find?_eq_none, List.mem_finRange, true_implies, Bool.not_eq_true,
    Option.isNone_eq_false_iff]

/-- A slot is full if it has as many entries as places. -/
theorem freePos_eq_none_iff_length : s.freePos = none ↔ s.entries.length = n := by
  have hlength : s.entries.length = (List.finRange n).countP fun i ↦ (s i).isSome :=
    List.length_filterMap_eq_countP
  have hn : n = (List.finRange n).length := (List.length_finRange).symm
  rw [freePos_eq_none_iff, hlength]
  constructor
  · intro h
    rw [List.countP_eq_length.mpr fun i _ ↦ h i, List.length_finRange]
  · intro h i
    exact List.countP_eq_length.mp (h.trans hn) i (List.mem_finRange i)

theorem length_entries_le (s : Slot K V n) : s.entries.length ≤ n :=
  (List.length_filterMap_le _ _).trans List.length_finRange.le

theorem find?_finRange_le {p : Fin n → Bool} {j : Fin n} (h : (List.finRange n).find? p = some i)
    (hj : p j = true) : i ≤ j := by
  obtain ⟨-, k, hk, hget, hbefore⟩ := List.find?_eq_some_iff_getElem.mp h
  by_contra hlt
  rw [List.getElem_finRange] at hget
  have hjk : j.val < k := by
    rw [← hget] at hlt
    exact Nat.lt_of_not_le fun hle ↦ hlt hle
  have hnot := hbefore j.val hjk
  simp [List.getElem_finRange, hj] at hnot

theorem findPos_spec [DecidableEq K] (h : s.findPos k = some i) : ∃ v, s i = some (k, v) := by
  have hi := List.find?_some h
  rw [Option.any_eq_true] at hi
  obtain ⟨⟨k', v⟩, hs, hk⟩ := hi
  obtain rfl := of_decide_eq_true hk
  exact ⟨v, hs⟩

theorem findPos_eq_none_iff [DecidableEq K] :
    s.findPos k = none ↔ k ∉ s.entries.map Prod.fst := by
  rw [findPos, List.find?_eq_none]
  constructor
  · intro h hmem
    obtain ⟨e, he, rfl⟩ := List.mem_map.mp hmem
    obtain ⟨i, hi⟩ := mem_entries.mp he
    exact h i (List.mem_finRange i) (by simp [hi])
  · intro h i _ hi
    rw [Option.any_eq_true] at hi
    obtain ⟨e, hs, hk⟩ := hi
    exact h (List.mem_map.mpr ⟨e, mem_entries.mpr ⟨i, hs⟩, of_decide_eq_true hk⟩)

end Slot

/-! ## Chains -/

abbrev SlotChain (K V : Type) (n : ℕ) := List (Slot K V n)

namespace SlotChain

variable {c c' : SlotChain K V n} {e : K × V} {k : K} {v : V}

def entries (c : SlotChain K V n) : List (K × V) := c.flatMap Slot.entries

def keys (c : SlotChain K V n) : List K := c.entries.map Prod.fst

/-- A slot with one entry. -/
def single [NeZero n] (e : K × V) : Slot K V n := Slot.empty.set 0 (some e)

/-- The entry goes to the first slot that has room, or to a new one. -/
def copy [NeZero n] (e : K × V) : SlotChain K V n → SlotChain K V n
  | [] => [single e]
  | s :: c =>
      match s.freePos with
      | some i => s.set i (some e) :: c
      | none => s :: copy e c

/-- As `copy`, unless a slot that is `hit` is met on the way. -/
def insertUnless [NeZero n] (hit : Slot K V n → Bool) (e : K × V) :
    SlotChain K V n → Option (SlotChain K V n)
  | [] => some [single e]
  | s :: c =>
      if hit s then none
      else
        match s.freePos with
        | some i => some (s.set i (some e) :: c)
        | none => (insertUnless hit e c).map (s :: ·)

/-- Whether the key is in a slot. -/
def hasKey [DecidableEq K] (k : K) (s : Slot K V n) : Bool := (s.findPos k).isSome

def delete [DecidableEq K] (k : K) : SlotChain K V n → Option (SlotChain K V n)
  | [] => none
  | s :: c =>
      match s.findPos k with
      | some i => some (s.set i none :: c)
      | none => (delete k c).map (s :: ·)

def lookup [DecidableEq K] (k : K) : SlotChain K V n → Option V
  | [] => none
  | s :: c =>
      match s.findPos k with
      | some i => (s i).map Prod.snd
      | none => lookup k c

/-- Only the last slot may have room. -/
def Compact : SlotChain K V n → Prop
  | [] => True
  | s :: c => (c = [] ∨ s.freePos = none) ∧ Compact c

theorem entries_cons (s : Slot K V n) (c : SlotChain K V n) :
    entries (s :: c) = s.entries ++ entries c := rfl

theorem keys_cons (s : Slot K V n) (c : SlotChain K V n) :
    keys (s :: c) = s.entries.map Prod.fst ++ keys c := List.map_append

theorem entries_copy [NeZero n] (e : K × V) (c : SlotChain K V n) :
    (copy e c).entries.Perm (e :: entries c) := by
  induction c with
  | nil =>
      rw [copy, entries_cons]
      have hset := Slot.entries_set (s := (Slot.empty : Slot K V n)) (i := 0) (e := e) rfl
      rw [Slot.entries_empty] at hset
      simpa [entries, single] using hset
  | cons s c ih =>
      rw [copy]
      cases hfree : s.freePos with
      | some i => exact (Slot.entries_set (Slot.freePos_spec hfree)).append_right _
      | none => exact (ih.append_left _).trans List.perm_middle

theorem hasKey_eq_false_iff [DecidableEq K] {s : Slot K V n} :
    hasKey k s = false ↔ k ∉ s.entries.map Prod.fst := by
  rw [hasKey, Option.isSome_eq_false_iff, Option.isNone_iff_eq_none, Slot.findPos_eq_none_iff]

theorem insertUnless_of_forall [NeZero n] {hit : Slot K V n → Bool}
    (h : ∀ s ∈ c, hit s = false) : insertUnless hit e c = some (copy e c) := by
  induction c with
  | nil => rfl
  | cons s c ih =>
      have hs : ¬ hit s = true := by
        rw [h s List.mem_cons_self]
        exact Bool.false_ne_true
      rw [insertUnless, copy, if_neg hs]
      cases s.freePos with
      | some i => rfl
      | none => simp only [ih fun s' hs' ↦ h s' (List.mem_cons_of_mem _ hs'), Option.map_some]

/-- A key that is nowhere in the chain is inserted. -/
theorem insertUnless_of_notMem [NeZero n] [DecidableEq K] (h : k ∉ keys c) :
    insertUnless (hasKey k) e c = some (copy e c) := by
  apply insertUnless_of_forall
  intro s hs
  rw [hasKey_eq_false_iff]
  intro hk
  obtain ⟨e', he', hk'⟩ := List.mem_map.mp hk
  exact h (List.mem_map.mpr ⟨e', List.mem_flatMap.mpr ⟨s, hs, he'⟩, hk'⟩)

/-- In a compact chain a key is found before a place is free. -/
theorem insertUnless_of_mem [NeZero n] [DecidableEq K] (hc : Compact c) (h : k ∈ keys c) :
    insertUnless (hasKey k) e c = none := by
  induction c with
  | nil => exact absurd h List.not_mem_nil
  | cons s c ih =>
      rw [insertUnless]
      cases hhit : hasKey k s with
      | true => rfl
      | false =>
          rw [keys_cons, List.mem_append] at h
          have hrest := h.resolve_left (hasKey_eq_false_iff.mp hhit)
          rcases hc.1 with rfl | hfull
          · exact absurd hrest List.not_mem_nil
          · simp only [Bool.false_eq_true, if_false, hfull, ih hc.2 hrest, Option.map_none]

theorem Compact.copy [NeZero n] (hc : Compact c) (e : K × V) : Compact (copy e c) := by
  induction c with
  | nil => exact ⟨Or.inl rfl, trivial⟩
  | cons s c ih =>
      rw [SlotChain.copy]
      cases hfree : s.freePos with
      | some i =>
          rcases hc.1 with rfl | hfull
          · exact ⟨Or.inl rfl, trivial⟩
          · rw [hfree] at hfull
            exact absurd hfull (Option.some_ne_none i)
      | none => exact ⟨Or.inr hfree, ih hc.2⟩

/-- One entry with the key is removed. -/
theorem exists_delete [DecidableEq K] (h : k ∈ keys c) :
    ∃ c' v, delete k c = some c' ∧ (entries c).Perm ((k, v) :: entries c') := by
  induction c with
  | nil => exact absurd h List.not_mem_nil
  | cons s c ih =>
      rw [delete]
      cases hpos : s.findPos k with
      | some i =>
          obtain ⟨v, hv⟩ := Slot.findPos_spec hpos
          refine ⟨s.set i none :: c, v, rfl, ?_⟩
          exact (Slot.entries_clear hv).append_right _
      | none =>
          rw [keys_cons, List.mem_append] at h
          obtain ⟨c', v, hdelete, hperm⟩ := ih (h.resolve_left (Slot.findPos_eq_none_iff.mp hpos))
          refine ⟨s :: c', v, ?_, ?_⟩
          · simp only [hdelete, Option.map_some]
          · exact (hperm.append_left _).trans List.perm_middle

theorem lookup_eq_none_iff [DecidableEq K] : lookup k c = none ↔ k ∉ keys c := by
  induction c with
  | nil => simp [lookup, keys, entries]
  | cons s c ih =>
      rw [lookup, keys_cons, List.mem_append, not_or, ← Slot.findPos_eq_none_iff]
      cases hpos : s.findPos k with
      | some i =>
          obtain ⟨v, hv⟩ := Slot.findPos_spec hpos
          simp [hv]
      | none => simpa using ih

theorem mem_entries_of_lookup [DecidableEq K] (h : lookup k c = some v) : (k, v) ∈ entries c := by
  induction c with
  | nil => exact absurd h (Option.some_ne_none v).symm
  | cons s c ih =>
      rw [lookup] at h
      rw [entries_cons, List.mem_append]
      cases hpos : s.findPos k with
      | some i =>
          obtain ⟨v', hv'⟩ := Slot.findPos_spec hpos
          simp only [hpos, hv', Option.map_some, Option.some.injEq] at h
          subst h
          exact Or.inl (Slot.mem_entries.mpr ⟨i, hv'⟩)
      | none =>
          simp only [hpos] at h
          exact Or.inr (ih h)

/-- If no key is there twice, the chain is a finite map. -/
theorem lookup_eq_some_iff [DecidableEq K] (hnodup : (keys c).Nodup) :
    lookup k c = some v ↔ (k, v) ∈ entries c := by
  refine ⟨mem_entries_of_lookup, ?_⟩
  intro hmem
  cases hlookup : lookup k c with
  | none => exact absurd (List.mem_map.mpr ⟨_, hmem, rfl⟩) (lookup_eq_none_iff.mp hlookup)
  | some v' =>
      have hmem' := mem_entries_of_lookup hlookup
      have heq := List.inj_on_of_nodup_map hnodup hmem' hmem rfl
      rw [Prod.mk.injEq] at heq
      rw [heq.2]

/-! ## Tables of chains -/

/-- The entries are copied one after the other to the chains of their keys. -/
def copyAll [NeZero n] (target : K → ℕ) (entries : List (K × V)) (chain : ℕ → SlotChain K V n) :
    ℕ → SlotChain K V n :=
  entries.foldl (fun chain e ↦
    Function.update chain (target e.1) (copy e (chain (target e.1)))) chain

theorem copyAll_append [NeZero n] (target : K → ℕ) (es es' : List (K × V))
    (chain : ℕ → SlotChain K V n) :
    copyAll target (es ++ es') chain = copyAll target es' (copyAll target es chain) :=
  List.foldl_append

/-- Every chain has got the entries whose keys belong there. -/
theorem entries_copyAll [NeZero n] (target : K → ℕ) (es : List (K × V))
    (chain : ℕ → SlotChain K V n) (i : ℕ) : (entries (copyAll target es chain i)).Perm
      (es.filter (fun e ↦ decide (target e.1 = i)) ++ entries (chain i)) := by
  induction es generalizing chain with
  | nil => exact List.Perm.refl _
  | cons e es ih =>
      have hrest := ih (Function.update chain (target e.1) (copy e (chain (target e.1))))
      refine hrest.trans ?_
      by_cases hi : target e.1 = i
      · rw [hi, Function.update_self, List.filter_cons, if_pos (decide_eq_true hi)]
        exact ((entries_copy e (chain i)).append_left _).trans List.perm_middle
      · rw [Function.update_of_ne (Ne.symm hi), List.filter_cons, if_neg (by simpa using hi)]

end SlotChain

end Graphflow.Lib
