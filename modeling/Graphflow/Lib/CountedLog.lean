import Mathlib.Data.List.Basic
import Mathlib.Tactic.Common

/-!
# Logs of a shared counter

Some threads add the lengths of their lists to a counter, and each decides from the value that the
counter had before what it passes on.  The log has these additions in the order in which they were
made.
-/

namespace Graphflow.Lib

structure Fetch (Thread α : Type*) where
  thread : Thread
  before : ℕ
  input : List α
  emitted : List α

variable {Thread α : Type*} {emit : ℕ → List α → List α} {log : List (Fetch Thread α)}

def inputs (log : List (Fetch Thread α)) : List α := log.flatMap Fetch.input

def emissions (log : List (Fetch Thread α)) : List α := log.flatMap Fetch.emitted

@[simp] theorem inputs_append_singleton (log : List (Fetch Thread α)) (f : Fetch Thread α) :
    inputs (log ++ [f]) = inputs log ++ f.input := by
  simp [inputs]

@[simp] theorem emissions_append_singleton (log : List (Fetch Thread α)) (f : Fetch Thread α) :
    emissions (log ++ [f]) = emissions log ++ f.emitted := by
  simp [emissions]

/-- The counter has counted what came before, and `emit` decides what is passed on. -/
inductive Counted (emit : ℕ → List α → List α) : List (Fetch Thread α) → Prop
  | nil : Counted emit []
  | concat {log : List (Fetch Thread α)} {f : Fetch Thread α} (hlog : Counted emit log)
      (hbefore : f.before = (inputs log).length) (hemitted : f.emitted = emit f.before f.input) :
      Counted emit (log ++ [f])

theorem Counted.emitted_eq (h : Counted emit log) :
    ∀ f ∈ log, f.emitted = emit f.before f.input := by
  induction h with
  | nil => simp
  | concat hlog hbefore hemitted ih =>
      intro f hf
      rcases List.mem_append.mp hf with hold | hnew
      · exact ih f hold
      · rw [List.mem_singleton.mp hnew]
        exact hemitted

/-- What came after the first `n` does not belong to the first `n`. -/
theorem Counted.take_inputs_filter {n : ℕ} (h : Counted emit log) :
    (inputs (log.filter fun f ↦ f.before < n)).take n = (inputs log).take n := by
  induction h with
  | nil => rfl
  | @concat log f hlog hbefore hemitted ih =>
      rw [List.filter_append]
      by_cases hlt : f.before < n
      · have hall : inputs (log.filter fun f ↦ f.before < n) = inputs log := by
          rw [hbefore] at hlt
          rw [List.take_of_length_le (Nat.le_of_lt hlt)] at ih
          have hshort : (inputs (log.filter fun f ↦ f.before < n)).length ≤ n := by
            by_contra hlong
            have hlength := congrArg List.length ih
            rw [List.length_take] at hlength
            omega
          rw [← ih, List.take_of_length_le hshort]
        rw [List.filter_cons_of_pos (by simpa using hlt), List.filter_nil,
          inputs_append_singleton, inputs_append_singleton, hall]
      · rw [List.filter_cons_of_neg (by simpa using hlt), List.filter_nil, List.append_nil, ih,
          inputs_append_singleton, List.take_append_of_le_length (by omega)]

/-- The first `n` are passed on if each thread takes what is missing. -/
theorem Counted.take {n : ℕ} (h : Counted (fun before ↦ List.take (n - before)) log) :
    emissions log = (inputs log).take n := by
  induction h with
  | nil => rw [inputs, List.flatMap_nil, List.take_nil, emissions, List.flatMap_nil]
  | concat hlog hbefore hemitted ih =>
      rw [emissions_append_singleton, inputs_append_singleton, ih, hemitted, hbefore,
        List.take_append]

/-- All but the first `n` are passed on if each thread leaves out what is missing. -/
theorem Counted.drop {n : ℕ} (h : Counted emit log)
    (hdrop : ∀ f ∈ log, emit f.before f.input = f.input.drop (n - f.before)) :
    emissions log = (inputs log).drop n := by
  induction h with
  | nil => rw [inputs, List.flatMap_nil, List.drop_nil, emissions, List.flatMap_nil]
  | @concat log f hlog hbefore hemitted ih =>
      rw [emissions_append_singleton, inputs_append_singleton,
        ih fun f hf ↦ hdrop f (List.mem_append_left _ hf), hemitted,
        hdrop f (List.mem_append_right _ (List.mem_singleton_self f)), hbefore, List.drop_append]

section Lengths

variable {n : ℕ}

theorem Counted.length_emissions_le (h : Counted emit log)
    (hle : ∀ f ∈ log, (emit f.before f.input).length ≤ f.input.length - (n - f.before)) :
    (emissions log).length ≤ (inputs log).length - n := by
  induction h with
  | nil => exact Nat.zero_le _
  | @concat log f hlog hbefore hemitted ih =>
      have hinit := ih fun f hf ↦ hle f (List.mem_append_left _ hf)
      have hlast := hle f (List.mem_append_right _ (List.mem_singleton_self f))
      rw [emissions_append_singleton, inputs_append_singleton, List.length_append,
        List.length_append, hemitted]
      omega

/-- If no thread passes on too much and all together enough, then each passes on enough. -/
theorem Counted.forall_length_eq (h : Counted emit log)
    (hle : ∀ f ∈ log, (emit f.before f.input).length ≤ f.input.length - (n - f.before))
    (hlength : (inputs log).length - n ≤ (emissions log).length) :
    ∀ f ∈ log, (emit f.before f.input).length = f.input.length - (n - f.before) := by
  induction h with
  | nil => simp
  | @concat log f hlog hbefore hemitted ih =>
      have hinit : ∀ f ∈ log, (emit f.before f.input).length ≤ f.input.length - (n - f.before) :=
        fun f hf ↦ hle f (List.mem_append_left _ hf)
      have hlast := hle f (List.mem_append_right _ (List.mem_singleton_self f))
      have hmost := hlog.length_emissions_le hinit
      rw [emissions_append_singleton, inputs_append_singleton, List.length_append,
        List.length_append, hemitted] at hlength
      intro f' hf'
      rcases List.mem_append.mp hf' with hold | hnew
      · exact ih hinit (by omega) f' hold
      · rw [List.mem_singleton.mp hnew]
        omega

end Lengths

end Graphflow.Lib
