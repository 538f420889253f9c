import Mathlib.Logic.Relation
import Mathlib.Order.Basic
import Mathlib.Tactic.Common

/-!
# Cycles of a waits-for relation

Clients that wait for each other are stuck exactly when the waits-for relation has a cycle.  A rank
that strictly decreases along every edge excludes all of them.
-/

namespace Graphflow.Lib

variable {Client : Type*} {waitsFor : Client → Client → Prop}

/-- Some client waits, through a chain of waiting clients, for itself. -/
def HasCycle (waitsFor : Client → Client → Prop) : Prop :=
  ∃ c, Relation.TransGen waitsFor c c

theorem rank_lt_of_transGen {rank : Client → ℕ}
    (hrank : ∀ c d, waitsFor c d → rank d < rank c) {c d : Client}
    (hcd : Relation.TransGen waitsFor c d) : rank d < rank c := by
  induction hcd with
  | single h => exact hrank _ _ h
  | tail _ h ih => exact Nat.lt_trans (hrank _ _ h) ih

theorem not_hasCycle_of_rank (rank : Client → ℕ)
    (hrank : ∀ c d, waitsFor c d → rank d < rank c) : ¬ HasCycle waitsFor := by
  rintro ⟨c, hc⟩
  exact Nat.lt_irrefl _ (rank_lt_of_transGen hrank hc)

/-- Two clients that wait for each other form a cycle. -/
theorem hasCycle_of_mutual {c d : Client} (hcd : waitsFor c d) (hdc : waitsFor d c) :
    HasCycle waitsFor :=
  ⟨c, .tail (.single hcd) hdc⟩

end Graphflow.Lib
