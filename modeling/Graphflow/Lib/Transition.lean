import Mathlib.Logic.Relation
import Mathlib.Order.Basic
import Mathlib.Tactic.Common

/-!
# Runs of a deterministic step function

A system is given by `step : σ → α → Option σ`, where `none` means that the action is not enabled
in the state.  A run performs a list of actions one after the other.  The invariant rules below are
the only induction over runs that the developments on top of this file use.
-/

namespace Graphflow.Lib

variable {σ α : Type*} {step : σ → α → Option σ} {s s' s'' : σ} {a : α} {as bs : List α}

/-- The state after performing all actions, if each of them is enabled when its turn comes. -/
def run (step : σ → α → Option σ) (s : σ) : List α → Option σ
  | [] => some s
  | a :: as => (step s a).bind fun s' ↦ run step s' as

@[simp] theorem run_nil (step : σ → α → Option σ) (s : σ) : run step s [] = some s := rfl

theorem run_cons_eq_some_iff :
    run step s (a :: as) = some s'' ↔ ∃ s', step s a = some s' ∧ run step s' as = some s'' := by
  simp [run, Option.bind_eq_some_iff]

theorem run_append (step : σ → α → Option σ) (s : σ) (as bs : List α) :
    run step s (as ++ bs) = (run step s as).bind fun s' ↦ run step s' bs := by
  induction as generalizing s with
  | nil => rfl
  | cons a as ih =>
      simp only [List.cons_append, run]
      cases step s a with
      | none => rfl
      | some s' => exact ih s'

theorem run_append_of_eq_some (has : run step s as = some s') :
    run step s (as ++ bs) = run step s' bs := by
  rw [run_append, has]
  rfl

theorem run_concat_of_eq_some (has : run step s as = some s') (ha : step s' a = some s'') :
    run step s (as ++ [a]) = some s'' := by
  rw [run_append_of_eq_some has, run_cons_eq_some_iff]
  exact ⟨s'', ha, rfl⟩

/-- Every action of the run meets `guard` in the state in which it is performed. -/
def MeetsAlong (step : σ → α → Option σ) (guard : σ → α → Prop) (s : σ) : List α → Prop
  | [] => True
  | a :: as => guard s a ∧ ∀ s', step s a = some s' → MeetsAlong step guard s' as

theorem meetsAlong_cons_of_eq_some {guard : σ → α → Prop} (hguard : guard s a)
    (hstep : step s a = some s') (hrest : MeetsAlong step guard s' as) :
    MeetsAlong step guard s (a :: as) := by
  refine ⟨hguard, fun s'' hs'' ↦ ?_⟩
  obtain rfl : s' = s'' := Option.some.inj (hstep.symm.trans hs'')
  exact hrest

theorem meetsAlong_left {guard : σ → α → Prop} (hmeets : MeetsAlong step guard s (as ++ bs)) :
    MeetsAlong step guard s as := by
  induction as generalizing s with
  | nil => trivial
  | cons a as ih => exact ⟨hmeets.1, fun s' hs' ↦ ih (hmeets.2 s' hs')⟩

theorem meetsAlong_append {guard : σ → α → Prop} (has : run step s as = some s')
    (hmeets : MeetsAlong step guard s (as ++ bs)) :
    MeetsAlong step guard s as ∧ MeetsAlong step guard s' bs := by
  induction as generalizing s with
  | nil =>
      obtain rfl : s = s' := by simpa using has
      exact ⟨trivial, hmeets⟩
  | cons a as ih =>
      obtain ⟨s₁, hs₁, has⟩ := run_cons_eq_some_iff.mp has
      obtain ⟨hguard, hrest⟩ := hmeets
      obtain ⟨has', hbs⟩ := ih has (hrest s₁ hs₁)
      exact ⟨meetsAlong_cons_of_eq_some hguard hs₁ has', hbs⟩

/-- The invariant rule for runs whose actions all meet a guard. -/
theorem run_invariant_of_meets {Inv : σ → Prop} {guard : σ → α → Prop}
    (hstep : ∀ s a s', Inv s → guard s a → step s a = some s' → Inv s')
    (hinit : Inv s) (hmeets : MeetsAlong step guard s as)
    (hrun : run step s as = some s') : Inv s' := by
  induction as generalizing s with
  | nil =>
      obtain rfl : s = s' := by simpa using hrun
      exact hinit
  | cons a as ih =>
      obtain ⟨s₁, hs₁, hrun⟩ := run_cons_eq_some_iff.mp hrun
      obtain ⟨hguard, hrest⟩ := hmeets
      exact ih (hstep s a s₁ hinit hguard hs₁) (hrest s₁ hs₁) hrun

/-- Two guards that say the same of every enabled action, as long as one of them has been met, are
met by the same runs. -/
theorem meetsAlong_iff (Inv : σ → Prop) {guard guard' : σ → α → Prop}
    (hiff : ∀ s a s', Inv s → step s a = some s' → (guard s a ↔ guard' s a))
    (hstep : ∀ s a s', Inv s → guard' s a → step s a = some s' → Inv s')
    (hinit : Inv s) (hrun : run step s as = some s') :
    MeetsAlong step guard s as ↔ MeetsAlong step guard' s as := by
  induction as generalizing s with
  | nil => exact Iff.rfl
  | cons a as ih =>
      obtain ⟨s₁, hs₁, hrun⟩ := run_cons_eq_some_iff.mp hrun
      have hguard := hiff s a s₁ hinit hs₁
      constructor
      · rintro ⟨hmeets, hrest⟩
        have hinv := hstep s a s₁ hinit (hguard.mp hmeets) hs₁
        exact meetsAlong_cons_of_eq_some (hguard.mp hmeets) hs₁
          ((ih hinv hrun).mp (hrest s₁ hs₁))
      · rintro ⟨hmeets, hrest⟩
        have hinv := hstep s a s₁ hinit hmeets hs₁
        exact meetsAlong_cons_of_eq_some (hguard.mpr hmeets) hs₁
          ((ih hinv hrun).mpr (hrest s₁ hs₁))

/-- Two guards that say the same of every action are met by the same sequences of actions. -/
theorem meetsAlong_congr (Inv : σ → Prop) {guard guard' : σ → α → Prop}
    (hiff : ∀ s a, Inv s → (guard s a ↔ guard' s a))
    (hstep : ∀ s a s', Inv s → step s a = some s' → Inv s') (hinit : Inv s) :
    MeetsAlong step guard s as ↔ MeetsAlong step guard' s as := by
  induction as generalizing s with
  | nil => exact Iff.rfl
  | cons a as ih =>
      refine and_congr (hiff s a hinit) (forall_congr' fun s₁ ↦ ?_)
      exact forall_congr' fun hs₁ ↦ ih (hstep s a s₁ hinit hs₁)

/-- The rule for runs in which the guard also enables the action. -/
theorem exists_run_of_meets {Inv : σ → Prop} {guard : σ → α → Prop}
    (hstep : ∀ s a, Inv s → guard s a → ∃ s', step s a = some s' ∧ Inv s')
    (hinit : Inv s) (hmeets : MeetsAlong step guard s as) :
    ∃ s', run step s as = some s' ∧ Inv s' := by
  induction as generalizing s with
  | nil => exact ⟨s, rfl, hinit⟩
  | cons a as ih =>
      obtain ⟨hguard, hrest⟩ := hmeets
      obtain ⟨s₁, hs₁, hinv⟩ := hstep s a hinit hguard
      obtain ⟨s', hrun, hs'⟩ := ih hinv (hrest s₁ hs₁)
      exact ⟨s', run_cons_eq_some_iff.mpr ⟨s₁, hs₁, hrun⟩, hs'⟩

/-- A quantity that every action increases by one counts the actions. -/
theorem measure_of_meets {guard : σ → α → Prop} (μ : σ → ℕ)
    (hstep : ∀ s a s', guard s a → step s a = some s' → μ s' = μ s + 1)
    (hmeets : MeetsAlong step guard s as) (hrun : run step s as = some s') :
    μ s' = μ s + as.length := by
  induction as generalizing s with
  | nil =>
      obtain rfl : s = s' := by simpa using hrun
      rfl
  | cons a as ih =>
      obtain ⟨s₁, hs₁, hrun⟩ := run_cons_eq_some_iff.mp hrun
      obtain ⟨hguard, hrest⟩ := hmeets
      rw [ih (hrest s₁ hs₁) hrun, hstep s a s₁ hguard hs₁, List.length_cons]
      omega

theorem meetsAlong_of_forall {guard : σ → α → Prop} (hguard : ∀ a ∈ as, ∀ s, guard s a) :
    MeetsAlong step guard s as := by
  induction as generalizing s with
  | nil => trivial
  | cons a as ih =>
      exact ⟨hguard a List.mem_cons_self s, fun s' _ ↦
        ih fun b hb ↦ hguard b (List.mem_cons_of_mem a hb)⟩

theorem meetsAlong_true (step : σ → α → Option σ) (s : σ) (as : List α) :
    MeetsAlong step (fun _ _ ↦ True) s as :=
  meetsAlong_of_forall fun _ _ _ ↦ trivial

/-- The invariant rule for arbitrary runs. -/
theorem run_invariant {Inv : σ → Prop}
    (hstep : ∀ s a s', Inv s → step s a = some s' → Inv s')
    (hinit : Inv s) (hrun : run step s as = some s') : Inv s' :=
  run_invariant_of_meets (fun s a s' hs _ ↦ hstep s a s' hs) hinit (meetsAlong_true step s as) hrun

/-- A system whose states descend comes to an end. -/
theorem exists_run_of_wellFounded {step : σ → Unit → Option σ} {lt : σ → σ → Prop}
    (hlt : WellFounded lt) (hstep : ∀ s s', step s () = some s' → lt s' s) (s : σ) :
    ∃ as s', run step s as = some s' ∧ step s' () = none := by
  induction s using hlt.induction with
  | _ s ih =>
    cases hnext : step s () with
    | none => exact ⟨[], s, rfl, hnext⟩
    | some s₁ =>
        obtain ⟨as, s', hrun, hend⟩ := ih s₁ (hstep s s₁ hnext)
        exact ⟨() :: as, s', run_cons_eq_some_iff.mpr ⟨s₁, hnext, hrun⟩, hend⟩

/-- A system without a choice that comes to an end does so from each of its states. -/
theorem exists_run_of_end {step : σ → Unit → Option σ} {as bs : List Unit}
    (hrun : run step s as = some s') (hend : step s' () = none)
    (hother : run step s bs = some s'') :
    ∃ cs, run step s'' cs = some s' := by
  induction bs generalizing s as with
  | nil =>
      obtain rfl : s = s'' := by simpa using hother
      exact ⟨as, hrun⟩
  | cons b bs ih =>
      obtain ⟨s₁, hs₁, hother⟩ := run_cons_eq_some_iff.mp hother
      cases as with
      | nil =>
          obtain rfl : s = s' := by simpa using hrun
          cases hend.symm.trans hs₁
      | cons a as =>
          obtain ⟨s₂, hs₂, hrun⟩ := run_cons_eq_some_iff.mp hrun
          obtain rfl : s₁ = s₂ := Option.some.inj (hs₁.symm.trans hs₂)
          exact ih hrun hother

/-! ## Machines that answer -/

section Outputs

variable {τ β : Type*} {answer : σ → α → β × σ} {answer' : τ → α → β × τ} {t : τ}

/-- The answers of a machine that accepts every action in every state. -/
def outputs (answer : σ → α → β × σ) : σ → List α → List β
  | _, [] => []
  | s, a :: as => (answer s a).1 :: outputs answer (answer s a).2 as

/-- A simulation relates the states of two machines that cannot be told apart, as long as the
actions meet a guard in the states of the first one. -/
theorem outputs_eq_of_meets (R : σ → τ → Prop) {guard : σ → α → Prop}
    (hstep : ∀ s t a, R s t → guard s a →
      (answer s a).1 = (answer' t a).1 ∧ R (answer s a).2 (answer' t a).2)
    (hinit : R s t) (hmeets : MeetsAlong (fun s a ↦ some (answer s a).2) guard s as) :
    outputs answer s as = outputs answer' t as := by
  induction as generalizing s t with
  | nil => rfl
  | cons a as ih =>
      obtain ⟨hguard, hrest⟩ := hmeets
      obtain ⟨hanswer, hnext⟩ := hstep s t a hinit hguard
      rw [outputs, outputs, hanswer, ih hnext (hrest _ rfl)]

end Outputs

end Graphflow.Lib
