import Graphflow.Lib.Except

/-!
# Loops that run while a condition holds, or a number of times
-/

namespace Graphflow.Lib

variable {ε σ : Type} {cond : σ → Bool} {body : σ → Except ε σ} {stop : ε} {s : σ} {fuel : ℕ}

/-- A loop that goes on while `cond` holds.  If it still does after the given number of turns, the
loop is stopped with an error. -/
def whileLoop (stop : ε) (cond : σ → Bool) (body : σ → Except ε σ) : ℕ → σ → Except ε σ
  | 0, s => if cond s then .error stop else .ok s
  | fuel + 1, s => if cond s then body s >>= whileLoop stop cond body fuel else .ok s

theorem whileLoop_of_false (h : cond s = false) : whileLoop stop cond body fuel s = .ok s := by
  cases fuel <;> rw [whileLoop, h, if_neg Bool.false_ne_true]

theorem whileLoop_of_true (h : cond s = true) :
    whileLoop stop cond body (fuel + 1) s = body s >>= whileLoop stop cond body fuel := by
  rw [whileLoop, h, if_pos rfl]

/-- The rule for a loop whose turns succeed: `Inv n` holds in a state from which the loop takes at
most `n` turns. -/
theorem exists_whileLoop_eq_ok {n : ℕ} (Inv : ℕ → σ → Prop)
    (hbody : ∀ n s, Inv n s → cond s = true → ∃ n' s', n' < n ∧ body s = .ok s' ∧ Inv n' s')
    (hs : Inv n s) (hfuel : n ≤ fuel) :
    ∃ n' s', whileLoop stop cond body fuel s = .ok s' ∧ Inv n' s' ∧ cond s' = false := by
  induction fuel generalizing n s with
  | zero =>
      cases hcond : cond s with
      | false => exact ⟨n, s, whileLoop_of_false hcond, hs, hcond⟩
      | true =>
          obtain ⟨n', s', hlt, -, -⟩ := hbody n s hs hcond
          omega
  | succ fuel ih =>
      cases hcond : cond s with
      | false => exact ⟨n, s, whileLoop_of_false hcond, hs, hcond⟩
      | true =>
          obtain ⟨n₁, s₁, hlt, hturn, hs₁⟩ := hbody n s hs hcond
          obtain ⟨n', s', hrest, hs', hend⟩ := ih hs₁ (by omega)
          refine ⟨n', s', ?_, hs', hend⟩
          rw [whileLoop_of_true hcond, hturn, ok_bind, hrest]

/-- The rule for a loop with a counter that its turns do not use. -/
theorem exists_foldlM_range_eq_ok {n : ℕ} (Inv : ℕ → σ → Prop) (hs : Inv 0 s)
    (hbody : ∀ k < n, ∀ s, Inv k s → ∃ s', body s = .ok s' ∧ Inv (k + 1) s') :
    ∃ s', (List.range n).foldlM (fun s _ ↦ body s) s = .ok s' ∧ Inv n s' :=
  exists_countedLoop_eq_ok Inv hs hbody

end Graphflow.Lib
