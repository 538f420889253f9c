import Mathlib.Data.List.Induction
import Mathlib.Data.Nat.Notation
import Mathlib.Logic.Basic
import Mathlib.Tactic.Common

/-!
# Computations that can fail

Rules for `Except`: the monad laws as simp lemmas, and loops whose turns succeed or fail.
-/

namespace Graphflow.Lib

universe u v

variable {ε : Type v} {α β σ : Type u}

@[simp] theorem ok_bind (x : α) (g : α → Except ε β) : (Except.ok x >>= g) = g x := rfl

@[simp] theorem error_bind (e : ε) (g : α → Except ε β) :
    (Except.error e >>= g) = Except.error e := rfl

@[simp] theorem pure_eq_ok (x : α) : (pure x : Except ε α) = .ok x := rfl

@[simp] theorem throw_eq_error (e : ε) : (throw e : Except ε α) = .error e := rfl

@[simp] theorem ok_map (x : α) (g : α → β) : (g <$> (Except.ok x : Except ε α)) = .ok (g x) := rfl

theorem bind_eq_ok_iff {x : Except ε α} {g : α → Except ε β} {b : β} :
    (x >>= g) = .ok b ↔ ∃ a, x = .ok a ∧ g a = .ok b := by
  cases x <;> simp

theorem mapM_eq_ok {g : α → Except ε β} {h : α → β} {xs : List α}
    (hg : ∀ x ∈ xs, g x = .ok (h x)) : xs.mapM g = .ok (xs.map h) := by
  induction xs with
  | nil => rfl
  | cons x xs ih =>
      have hrest := ih fun y hy ↦ hg y (List.mem_cons_of_mem _ hy)
      simp [List.mapM_cons, hg x List.mem_cons_self, hrest]

/-- Where all turns give a result, each one does. -/
theorem exists_of_mapM_eq_ok {g : α → Except ε β} {xs : List α} {ys : List β}
    (h : xs.mapM g = .ok ys) {x : α} (hx : x ∈ xs) : ∃ y, g x = .ok y := by
  induction xs generalizing ys with
  | nil => simp at hx
  | cons x' xs ih =>
      rw [List.mapM_cons, bind_eq_ok_iff] at h
      obtain ⟨y, hy, h⟩ := h
      obtain ⟨ys', hys, -⟩ := bind_eq_ok_iff.mp h
      rcases List.mem_cons.mp hx with rfl | hx
      · exact ⟨y, hy⟩
      · exact ih hys hx

/-- A loop over the indices of a list that finds its elements. -/
theorem mapM_range_eq_ok {α : Type} {g : ℕ → Except ε α} {xs : List α}
    (hg : ∀ i (hi : i < xs.length), g i = .ok xs[i]) :
    (List.range xs.length).mapM g = .ok xs := by
  induction xs using List.reverseRecOn with
  | nil => rfl
  | append_singleton xs x ih =>
      have hinit : (List.range xs.length).mapM g = .ok xs := by
        apply ih
        intro i hi
        rw [hg i (by rw [List.length_append]; omega), List.getElem_append_left hi]
      have hlast : g xs.length = .ok x := by
        rw [hg xs.length (by simp), List.getElem_concat_length rfl]
      rw [List.length_append, List.length_singleton, List.range_succ, List.mapM_append, hinit,
        ok_bind, List.mapM_cons, hlast]
      rfl

theorem foldlM_singleton {step : σ → α → Except ε σ} {x : α} {s : σ} :
    [x].foldlM step s = step s x := by
  rw [List.foldlM_cons]
  cases step s x <;> rfl

/-- A loop within each turn is one loop. -/
theorem foldlM_flatMap {step : σ → β → Except ε σ} {xs : List α} {g : α → List β} {s : σ} :
    (xs.flatMap g).foldlM step s = xs.foldlM (fun s x ↦ (g x).foldlM step s) s := by
  induction xs generalizing s with
  | nil => rfl
  | cons x xs ih =>
      rw [List.flatMap_cons, List.foldlM_append, List.foldlM_cons]
      exact congrArg _ (funext fun s ↦ ih)

/-- A turn that is repeated a number of times. -/
def iterateM (turn : σ → Except ε σ) : ℕ → σ → Except ε σ
  | 0, s => .ok s
  | n + 1, s => turn s >>= iterateM turn n

/-- Loops whose turns are the same for the elements of the list. -/
theorem foldlM_congr {step step' : σ → α → Except ε σ} {xs : List α} {s : σ}
    (hstep : ∀ x ∈ xs, ∀ s, step s x = step' s x) : xs.foldlM step s = xs.foldlM step' s := by
  induction xs generalizing s with
  | nil => rfl
  | cons x xs ih =>
      rw [List.foldlM_cons, List.foldlM_cons, hstep x List.mem_cons_self]
      exact congrArg _ (funext fun s ↦ ih fun y hy ↦ hstep y (List.mem_cons_of_mem _ hy))

/-- The rule for a loop over a list: `state done` is the state after the turns for `done`. -/
theorem foldlM_eq_ok {step : σ → α → Except ε σ} {xs : List α} (state : List α → σ)
    (hstep : ∀ done x rest, xs = done ++ x :: rest →
      step (state done) x = .ok (state (done ++ [x]))) :
    xs.foldlM step (state []) = .ok (state xs) := by
  induction xs using List.reverseRecOn with
  | nil => rfl
  | append_singleton xs x ih =>
      have hinit : xs.foldlM step (state []) = .ok (state xs) :=
        ih fun done y rest heq ↦ hstep done y (rest ++ [x]) (by simp [heq])
      rw [List.foldlM_append, hinit, ok_bind, List.foldlM_cons, hstep xs x [] rfl]
      rfl

/-- The rule for a loop over a list whose states are only known by an invariant. -/
theorem exists_foldlM_eq_ok {step : σ → α → Except ε σ} {xs : List α} {s : σ}
    (Inv : List α → σ → Prop) (hs : Inv [] s)
    (hstep : ∀ done x rest s, xs = done ++ x :: rest → Inv done s →
      ∃ s', step s x = .ok s' ∧ Inv (done ++ [x]) s') :
    ∃ s', xs.foldlM step s = .ok s' ∧ Inv xs s' := by
  induction xs using List.reverseRecOn with
  | nil => exact ⟨s, rfl, hs⟩
  | append_singleton xs x ih =>
      obtain ⟨s₁, hinit, hs₁⟩ :=
        ih fun done y rest s heq ↦ hstep done y (rest ++ [x]) s (by simp [heq])
      obtain ⟨s₂, hlast, hs₂⟩ := hstep xs x [] s₁ rfl hs₁
      refine ⟨s₂, ?_, hs₂⟩
      rw [List.foldlM_append, hinit, ok_bind, List.foldlM_cons, hlast]
      rfl

/-- What every turn preserves holds after a loop that succeeds. -/
theorem foldlM_invariant {step : σ → α → Except ε σ} {xs : List α} {s s' : σ} (Inv : σ → Prop)
    (hinv : ∀ s x s', x ∈ xs → Inv s → step s x = .ok s' → Inv s') (hs : Inv s)
    (hloop : xs.foldlM step s = .ok s') : Inv s' := by
  induction xs generalizing s with
  | nil =>
      obtain rfl : s = s' := Except.ok.inj hloop
      exact hs
  | cons x xs ih =>
      rw [List.foldlM_cons, bind_eq_ok_iff] at hloop
      obtain ⟨s₁, hx, hloop⟩ := hloop
      exact ih (fun s y s' hy ↦ hinv s y s' (List.mem_cons_of_mem _ hy))
        (hinv s x s₁ List.mem_cons_self hs hx) hloop

/-- A loop that succeeds does what its turns do when they succeed. -/
theorem eq_foldl_of_foldlM_eq_ok {step : σ → α → Except ε σ} {xs : List α} {s s' : σ}
    (next : σ → α → σ) (hstep : ∀ x ∈ xs, ∀ s s', step s x = .ok s' → s' = next s x)
    (hloop : xs.foldlM step s = .ok s') : s' = xs.foldl next s := by
  induction xs generalizing s with
  | nil => exact (Except.ok.inj hloop).symm
  | cons x xs ih =>
      rw [List.foldlM_cons, bind_eq_ok_iff] at hloop
      obtain ⟨s₁, hx, hloop⟩ := hloop
      rw [List.foldl_cons, ← hstep x List.mem_cons_self s s₁ hx]
      exact ih (fun y hy ↦ hstep y (List.mem_cons_of_mem _ hy)) hloop

/-- Setting the elements of a list one after the other. -/
theorem foldl_set_eq_map (g : α → β) (key : α → ℕ) {xs : List α} {ys : List β}
    (hkey : ∀ i (hi : i < xs.length), key xs[i] = i) (hlength : ys.length = xs.length) :
    xs.foldl (fun ys x ↦ ys.set (key x) (g x)) ys = xs.map g := by
  have hfirst : ∀ n, n ≤ xs.length → (xs.take n).foldl (fun ys x ↦ ys.set (key x) (g x)) ys =
      (xs.take n).map g ++ ys.drop n := by
    intro n hn
    induction n with
    | zero => simp
    | succ n ih =>
        have hlt : n < xs.length := hn
        rw [List.take_succ_eq_append_getElem hlt, List.foldl_append, ih (Nat.le_of_lt hlt),
          List.foldl_cons, List.foldl_nil, hkey n hlt, List.map_append, List.map_singleton]
        have hdrop : ys.drop n = ys[n] :: ys.drop (n + 1) := List.drop_eq_getElem_cons (by omega)
        have hlast : ((xs.take n).map g).length = n := by
          rw [List.length_map, List.length_take, Nat.min_eq_left (Nat.le_of_lt hlt)]
        rw [List.set_append_right _ _ (Nat.le_of_eq hlast), hlast, Nat.sub_self, hdrop,
          List.set_cons_zero, List.append_assoc]
        rfl
  have hall := hfirst xs.length (Nat.le_refl _)
  rwa [List.take_length, List.drop_eq_nil_of_le (Nat.le_of_eq hlength), List.append_nil] at hall

/-- The rule for a counted loop: `state k` is the state after `k` turns. -/
theorem foldlM_range'_eq_ok {σ : Type} {step : σ → ℕ → Except ε σ} {m n : ℕ} (state : ℕ → σ)
    (hstep : ∀ k < n, step (state k) (m + k) = .ok (state (k + 1))) :
    (List.range' m n).foldlM step (state 0) = .ok (state n) := by
  induction n with
  | zero => rfl
  | succ n ih =>
      have hinit : (List.range' m n).foldlM step (state 0) = .ok (state n) :=
        ih fun k hk ↦ hstep k (Nat.lt_succ_of_lt hk)
      rw [List.range'_1_concat, List.foldlM_append, hinit, ok_bind, List.foldlM_cons,
        hstep n (Nat.lt_succ_self n)]
      rfl

/-- The same rule with an invariant of the turns that have been made. -/
theorem exists_countedLoop_eq_ok {σ : Type u} {step : σ → ℕ → Except ε σ} {n : ℕ} {s : σ}
    (Inv : ℕ → σ → Prop) (hs : Inv 0 s)
    (hstep : ∀ k < n, ∀ s, Inv k s → ∃ s', step s k = .ok s' ∧ Inv (k + 1) s') :
    ∃ s', (List.range n).foldlM step s = .ok s' ∧ Inv n s' := by
  induction n with
  | zero => exact ⟨s, rfl, hs⟩
  | succ n ih =>
      obtain ⟨s₁, hinit, hs₁⟩ := ih fun k hk ↦ hstep k (Nat.lt_succ_of_lt hk)
      obtain ⟨s₂, hlast, hs₂⟩ := hstep n (Nat.lt_succ_self n) s₁ hs₁
      refine ⟨s₂, ?_, hs₂⟩
      rw [List.range_succ, List.foldlM_append, hinit, ok_bind, List.foldlM_cons, hlast]
      rfl

/-- In a loop that succeeds every turn does, from a state that satisfies the loop's invariant. -/
theorem exists_step_of_foldlM_eq_ok {step : σ → α → Except ε σ} {xs : List α} {s s' : σ} {x : α}
    (Inv : σ → Prop) (hloop : xs.foldlM step s = .ok s') (hs : Inv s)
    (hinv : ∀ s x s', Inv s → step s x = .ok s' → Inv s') (hx : x ∈ xs) :
    ∃ s₁ s₂, Inv s₁ ∧ step s₁ x = .ok s₂ := by
  induction xs generalizing s with
  | nil => simp at hx
  | cons y ys ih =>
      cases hy : step s y with
      | error e => simp [List.foldlM_cons, hy] at hloop
      | ok s₁ =>
          rcases List.mem_cons.mp hx with rfl | hx
          · exact ⟨s, s₁, hs, hy⟩
          · rw [List.foldlM_cons, hy, ok_bind] at hloop
            exact ih hloop (hinv s y s₁ hs hy) hx

/-! ## Outcomes -/

/-- What is known of an error and of a result. -/
def Outcome (onError : ε → Prop) (onResult : α → Prop) : Except ε α → Prop
  | .error e => onError e
  | .ok x => onResult x

namespace Outcome

variable {E E' : ε → Prop} {P P' : α → Prop} {Q : β → Prop} {x : Except ε α} {a : α} {e : ε}

theorem result (h : Outcome E P x) (hx : x = .ok a) : P a := by
  rw [hx] at h
  exact h

theorem error (h : Outcome E P x) (hx : x = .error e) : E e := by
  rw [hx] at h
  exact h

theorem mono (h : Outcome E P x) (hE : ∀ e, E e → E' e) (hP : ∀ a, P a → P' a) :
    Outcome E' P' x := by
  cases x with
  | error e => exact hE e h
  | ok a => exact hP a h

theorem trivial (x : Except ε α) : Outcome (fun _ ↦ True) (fun _ ↦ True) x := by
  cases x <;> exact True.intro

theorem and (h : Outcome E P x) (h' : Outcome E' P' x) :
    Outcome (fun e ↦ E e ∧ E' e) (fun a ↦ P a ∧ P' a) x := by
  cases x with
  | error e => exact ⟨h, h'⟩
  | ok a => exact ⟨h, h'⟩

theorem mapError {ε' : Type*} {E' : ε' → Prop} {g : ε → ε'} (h : Outcome E P x)
    (hE : ∀ e, E e → E' (g e)) : Outcome E' P (x.mapError g) := by
  cases x with
  | error e => exact hE e h
  | ok a => exact h

theorem bind {g : α → Except ε β} (h : Outcome E P x) (hg : ∀ a, P a → Outcome E Q (g a)) :
    Outcome E Q (x >>= g) := by
  cases x with
  | error e => exact h
  | ok a => exact hg a h

/-- The rule for a loop over a list. -/
theorem foldlM {step : σ → α → Except ε σ} {xs : List α} {s : σ} (Inv : List α → σ → Prop)
    (hs : Inv [] s)
    (hstep : ∀ done x rest s, xs = done ++ x :: rest → Inv done s →
      Outcome E (Inv (done ++ [x])) (step s x)) :
    Outcome E (Inv xs) (xs.foldlM step s) := by
  induction xs using List.reverseRecOn with
  | nil => exact hs
  | append_singleton xs x ih =>
      have hinit := ih fun done y rest s heq ↦ hstep done y (rest ++ [x]) s (by simp [heq])
      rw [List.foldlM_append]
      refine hinit.bind fun s' hs' ↦ ?_
      rw [List.foldlM_cons]
      exact (hstep xs x [] s' rfl hs').bind fun _ h ↦ h

/-- The rule for a counted loop. -/
theorem foldlM_range {σ : Type} {step : σ → ℕ → Except ε σ} {n : ℕ} {s : σ} (Inv : ℕ → σ → Prop)
    (hs : Inv 0 s) (hstep : ∀ k < n, ∀ s, Inv k s → Outcome E (Inv (k + 1)) (step s k)) :
    Outcome E (Inv n) ((List.range n).foldlM step s) := by
  induction n with
  | zero => exact hs
  | succ n ih =>
      have hinit := ih fun k hk ↦ hstep k (Nat.lt_succ_of_lt hk)
      rw [List.range_succ, List.foldlM_append]
      refine hinit.bind fun s' hs' ↦ ?_
      rw [List.foldlM_cons]
      exact (hstep n (Nat.lt_succ_self n) s' hs').bind fun _ h ↦ h

end Outcome

end Graphflow.Lib
