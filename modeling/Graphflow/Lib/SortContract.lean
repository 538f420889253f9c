import Mathlib.Data.List.Pairwise
import Mathlib.Tactic.Common

/-!
# Sorting with a comparator

What a sorting function of a standard library asks of the comparator on the elements it is given,
and what it then returns: some rearrangement in which no element is less than one before it.
-/

namespace Graphflow.Lib

variable {α : Type*} {less : α → α → Prop} {order : α → α → Prop} {xs : List α}

/-- A strict order of the elements of a list. -/
structure StrictOn (less : α → α → Prop) (xs : List α) : Prop where
  irreflexive : ∀ a ∈ xs, ¬less a a
  asymmetric : ∀ a ∈ xs, ∀ b ∈ xs, less a b → ¬less b a
  transitive : ∀ a ∈ xs, ∀ b ∈ xs, ∀ c ∈ xs, less a b → less b c → less a c

/-- Whichever of the admitted rearrangements is returned, it is in the order. -/
def SortsInto (less order : α → α → Prop) (xs : List α) : Prop :=
  ∀ ys : List α, ys.Perm xs → ys.Pairwise (fun a b ↦ ¬less b a) → ys.Pairwise order

theorem StrictOn.nil (less : α → α → Prop) : StrictOn less [] :=
  ⟨fun _ ha ↦ absurd ha List.not_mem_nil, fun _ ha ↦ absurd ha List.not_mem_nil,
    fun _ ha ↦ absurd ha List.not_mem_nil⟩

theorem StrictOn.of_never (h : ∀ a ∈ xs, ∀ b ∈ xs, ¬less a b) : StrictOn less xs :=
  ⟨fun a ha ↦ h a ha a ha, fun a ha b hb hab ↦ absurd hab (h a ha b hb),
    fun a ha b hb _ _ hab ↦ absurd hab (h a ha b hb)⟩

/-- A comparator that asks a three-way comparison for less. -/
theorem StrictOn.of_compare {β : Type*} (cmp : β → β → Ordering) [Std.TransCmp cmp] (key : α → β)
    (h : ∀ a ∈ xs, ∀ b ∈ xs, less a b ↔ cmp (key a) (key b) = .lt) : StrictOn less xs := by
  refine ⟨fun a ha haa ↦ ?_, fun a ha b hb hab hba ↦ ?_, fun a ha b hb c hc hab hbc ↦ ?_⟩
  · have hlt := (h a ha a ha).mp haa
    have heq : cmp (key a) (key a) = .eq := Std.ReflCmp.compare_self
    rw [heq] at hlt
    cases hlt
  · have hgt := Std.OrientedCmp.gt_of_lt ((h a ha b hb).mp hab)
    rw [(h b hb a ha).mp hba] at hgt
    cases hgt
  · exact (h a ha c hc).mpr (Std.TransCmp.lt_trans ((h a ha b hb).mp hab) ((h b hb c hc).mp hbc))

theorem SortsInto.of_le (h : ∀ a ∈ xs, ∀ b ∈ xs, ¬less b a → order a b) :
    SortsInto less order xs := by
  intro ys hperm hsorted
  apply hsorted.imp_of_mem
  intro a b ha hb
  exact h a (hperm.mem_iff.mp ha) b (hperm.mem_iff.mp hb)

/-- A comparator that tells no two elements apart may leave them in any order. -/
theorem SortsInto.order_of_never (h : ∀ a ∈ xs, ∀ b ∈ xs, ¬less a b)
    (hsorts : SortsInto less order xs) (hrefl : ∀ a ∈ xs, order a a) :
    ∀ a ∈ xs, ∀ b ∈ xs, order a b := by
  have hnever (ys : List α) (hperm : ys.Perm xs) : ys.Pairwise fun a b ↦ ¬less b a := by
    apply List.pairwise_of_forall_mem_list
    intro a ha b hb
    exact h b (hperm.mem_iff.mp hb) a (hperm.mem_iff.mp ha)
  have hforward : xs.Pairwise order := hsorts xs (List.Perm.refl xs) (hnever xs (List.Perm.refl xs))
  have hbackward : xs.Pairwise fun a b ↦ order b a := by
    apply List.pairwise_reverse.mp
    exact hsorts _ (List.reverse_perm xs) (hnever _ (List.reverse_perm xs))
  intro a ha b hb
  exact List.Pairwise.forall_of_forall_of_flip hrefl hforward hbackward ha hb

end Graphflow.Lib
