import Graphflow.Processor.SkipLimitInput

/-!
# Runs of `SKIP` and `LIMIT`

`LIMIT` passes on the first tuples whatever the order of the threads.  `SKIP` does so with the
others as long as its numbers of 32 bits do not go wrong.
-/

namespace Graphflow.Processor

open Lib Storage

/-! ## One step -/

section Steps

variable {σ Thread : Type} [DecidableEq Thread] {ops : Operators σ} {s : SkipLimitState Thread σ}
  {t : Thread} {p q : Pipeline σ}

/-- What `SKIP` passes on of some tuples, if the counter was `before`. -/
def skipEmits {α : Type*} (skipNumber before : ℕ) (tuples : List α) : List α :=
  if (before % 2 ^ 32 + tuples.length) % 2 ^ 32 ≤ skipNumber then []
  else tuples.drop (skipNumber - before % 2 ^ 32)

/-- Operators above a child leave its state alone. -/
structure SameChild (p q : Pipeline σ) : Prop where
  child_eq : q.child = p.child
  currIdx_eq : q.currIdx = p.currIdx
  multiplicity_eq : q.multiplicity = p.multiplicity
  prevSelVector_eq : q.prevSelVector = p.prevSelVector
  numCalls_eq : q.numCalls = p.numCalls

namespace SkipLimitState

/-- A thread has added its tuples to the counter of `SKIP`. -/
def skipFetched (s : SkipLimitState Thread σ) (t : Thread) (tuples emitted : List (ℕ × ℕ)) :
    SkipLimitState Thread σ :=
  { s with
    skipCounter := s.skipCounter + tuples.length
    skipLog := s.skipLog ++ [⟨t, s.skipCounter, tuples, emitted⟩] }

def limitFetched (s : SkipLimitState Thread σ) (t : Thread) (tuples emitted : List (ℕ × ℕ)) :
    SkipLimitState Thread σ :=
  { s with
    limitCounter := s.limitCounter + tuples.length
    limitLog := s.limitLog ++ [⟨t, s.limitCounter, tuples, emitted⟩] }

theorem skip_of_none {skipNumber : ℕ} (hpull : p.restore.pull ops.child = none) :
    s.skip t p ops skipNumber = s.set t p.restore .finished := by
  rw [skip, hpull]

/-- The tuples that the child has produced are counted, and what is left of them is returned. -/
theorem exists_skip_eq {skipNumber : ℕ} (hpull : p.restore.pull ops.child = some q)
    (hmultiplicity : q.multiplicity = 1) (hlength : q.tuples.length ≤ defaultVectorCapacity) :
    ∃ q' point, s.skip t p ops skipNumber =
        (s.skipFetched t q.tuples (skipEmits skipNumber s.skipCounter q.tuples)).set t q' point ∧
      SameChild q.save q' ∧
      (point = .pulling ∧ (ops.limitNumber = none ∨
          skipEmits skipNumber s.skipCounter q.tuples = []) ∨
        point = .limiting ∧ ops.limitNumber.isSome = true ∧
          q'.tuples = skipEmits skipNumber s.skipCounter q.tuples) := by
  have hcapacity : defaultVectorCapacity < 2 ^ 32 := by decide
  have hnum : q.save.getNumTuples = q.tuples.length := Pipeline.length_tuples hmultiplicity
  have hmod : q.tuples.length % 2 ^ 32 = q.tuples.length := Nat.mod_eq_of_lt (by omega)
  have hreturns : ∀ (s' : SkipLimitState Thread σ) (q' : Pipeline σ), SameChild q.save q' →
      q'.tuples = skipEmits skipNumber s.skipCounter q.tuples →
      s' = s.skipFetched t q.tuples (skipEmits skipNumber s.skipCounter q.tuples) →
      ∃ q'' point, s'.returns t q' ops =
        (s.skipFetched t q.tuples (skipEmits skipNumber s.skipCounter q.tuples)).set t q'' point ∧
      SameChild q.save q'' ∧
      (point = .pulling ∧ (ops.limitNumber = none ∨
          skipEmits skipNumber s.skipCounter q.tuples = []) ∨
        point = .limiting ∧ ops.limitNumber.isSome = true ∧
          q''.tuples = skipEmits skipNumber s.skipCounter q.tuples) := by
    rintro s' q' hsame htuples rfl
    cases hlimit : ops.limitNumber with
    | none =>
        refine ⟨q', .pulling, ?_, hsame, Or.inl ⟨rfl, Or.inl rfl⟩⟩
        rw [returns, hlimit]
        rfl
    | some l =>
        refine ⟨q', .limiting, ?_, hsame, Or.inr ⟨rfl, rfl, htuples⟩⟩
        rw [returns, hlimit]
        rfl
  simp only [skip, hpull, hnum, hmod]
  split_ifs with hskipped hall
  · refine ⟨q.save, .pulling, ?_, ⟨rfl, rfl, rfl, rfl, rfl⟩, Or.inl ⟨rfl, Or.inr ?_⟩⟩
    · rw [skipEmits, if_pos hskipped]
      rfl
    · rw [skipEmits, if_pos hskipped]
  · have hemits : skipEmits skipNumber s.skipCounter q.tuples = q.tuples := by
      rw [skipEmits, if_neg hskipped, Nat.sub_eq_zero_of_le hall, List.drop_zero]
    refine hreturns _ q.save ⟨rfl, rfl, rfl, rfl, rfl⟩ hemits.symm ?_
    rw [hemits]
    rfl
  · have hemits : skipEmits skipNumber s.skipCounter q.tuples =
        q.tuples.drop (skipNumber - s.skipCounter % 2 ^ 32) := if_neg hskipped
    -- A flat chunk has one tuple, which is skipped or returned.
    have hunflat : q.currIdx = none := by
      cases hflat : q.currIdx with
      | none => rfl
      | some i =>
          have hone : q.tuples.length = 1 := by
            rw [← Pipeline.length_tuples hmultiplicity, Pipeline.getNumTuples, hflat, hmultiplicity]
            rfl
          rw [hone] at hskipped
          omega
    have htuples : ({ q.save with
        selVector := q.save.selVector.skipPositions (skipNumber - s.skipCounter % 2 ^ 32) } :
          Pipeline σ).tuples = skipEmits skipNumber s.skipCounter q.tuples := by
      rw [hemits]
      simp only [Pipeline.tuples, Pipeline.positions, Pipeline.save, hunflat,
        SelectionMemory.selectedPositions_skipPositions, List.map_drop]
    refine hreturns _ _ ⟨rfl, rfl, rfl, rfl, rfl⟩ htuples ?_
    rw [htuples]
    rfl

/-- A thread goes on with what is missing up to the limit. -/
theorem exists_limit_eq {limitNumber : ℕ} (hmultiplicity : p.multiplicity = 1) :
    ∃ q point, s.limit t p limitNumber =
        (s.limitFetched t p.tuples (p.tuples.take (limitNumber - s.limitCounter))).set t q point ∧
      SameChild p q ∧ (point = .pulling ∨ point = .finished ∧ limitNumber ≤ s.limitCounter) ∧
      (q.selVector = p.selVector ∨ limitNumber ≤ s.limitCounter + p.tuples.length) := by
  have hnum := Pipeline.length_tuples hmultiplicity
  simp only [limit, hnum]
  split_ifs with hmore hnone
  · refine ⟨p, .finished, ?_, ⟨rfl, rfl, rfl, rfl, rfl⟩, Or.inr ⟨rfl, hnone⟩, Or.inl rfl⟩
    rw [Nat.sub_eq_zero_of_le hnone, List.take_zero]
    rfl
  · have hunflat : p.currIdx = none := by
      cases hflat : p.currIdx with
      | none => rfl
      | some i =>
          have hone : p.tuples.length = 1 := by
            rw [← hnum, Pipeline.getNumTuples, hflat, hmultiplicity]
            rfl
          omega
    have hsize : limitNumber - s.limitCounter ≤ p.selVector.selectedSize := by
      have hlength : p.tuples.length = p.selVector.selectedSize := by
        rw [← hnum, Pipeline.getNumTuples, hunflat, hmultiplicity, Nat.mul_one]
        rfl
      omega
    have htuples : ({ p with selVector :=
        { p.selVector with selectedSize := limitNumber - s.limitCounter } } : Pipeline σ).tuples =
          p.tuples.take (limitNumber - s.limitCounter) := by
      simp only [Pipeline.tuples, Pipeline.positions, hunflat,
        SelectionMemory.selectedPositions_take p.selVector hsize, List.map_take]
    refine ⟨{ p with selVector :=
      { p.selVector with selectedSize := limitNumber - s.limitCounter } }, .pulling, ?_,
      ⟨rfl, rfl, rfl, rfl, rfl⟩, Or.inl rfl, Or.inr hmore.le⟩
    rw [htuples]
    rfl
  · refine ⟨p, .pulling, ?_, ⟨rfl, rfl, rfl, rfl, rfl⟩, Or.inl rfl, Or.inl rfl⟩
    rw [List.take_of_length_le (by omega)]
    rfl

end SkipLimitState

end Steps

/-! ## The tuples of a thread -/

section Threads

variable {Thread α : Type} [DecidableEq Thread] {log : List (Fetch Thread α)} {t : Thread}

def inputsOf (log : List (Fetch Thread α)) (t : Thread) : List (List α) :=
  (log.filter fun f ↦ f.thread = t).map Fetch.input

def emissionsOf (log : List (Fetch Thread α)) (t : Thread) : List α :=
  (log.filter fun f ↦ f.thread = t).flatMap Fetch.emitted

@[simp] theorem inputsOf_concat (log : List (Fetch Thread α)) (f : Fetch Thread α) (t : Thread) :
    inputsOf (log ++ [f]) t = if f.thread = t then inputsOf log t ++ [f.input]
      else inputsOf log t := by
  rw [inputsOf, inputsOf, List.filter_append, List.map_append]
  split_ifs with hthread
  · rw [List.filter_cons_of_pos (by simpa using hthread)]
    rfl
  · rw [List.filter_cons_of_neg (by simpa using hthread), List.filter_nil, List.map_nil,
      List.append_nil]

@[simp] theorem emissionsOf_concat (log : List (Fetch Thread α)) (f : Fetch Thread α)
    (t : Thread) : emissionsOf (log ++ [f]) t =
      if f.thread = t then emissionsOf log t ++ f.emitted else emissionsOf log t := by
  rw [emissionsOf, emissionsOf, List.filter_append, List.flatMap_append]
  split_ifs with hthread
  · rw [List.filter_cons_of_pos (by simpa using hthread), List.filter_nil, List.flatMap_cons,
      List.flatMap_nil, List.append_nil]
  · rw [List.filter_cons_of_neg (by simpa using hthread), List.filter_nil, List.flatMap_nil,
      List.append_nil]

/-- What all threads pass on, each tuple with its thread. -/
def tagged (log : List (Fetch Thread α)) : List (Thread × α) :=
  log.flatMap fun f ↦ f.emitted.map fun x ↦ (f.thread, x)

/-- No tuple is passed on twice if none is there twice. -/
theorem nodup_tagged (hsublist : ∀ f ∈ log, f.emitted.Sublist f.input)
    (hnodup : ∀ t, (inputsOf log t).flatten.Nodup) : (tagged log).Nodup ∧
      ∀ x ∈ tagged log, x.2 ∈ (inputsOf log x.1).flatten := by
  induction log using List.reverseRecOn with
  | nil => exact ⟨List.nodup_nil, by simp [tagged]⟩
  | append_singleton log f ih =>
      have hlast := hnodup f.thread
      rw [inputsOf_concat, if_pos rfl, List.flatten_append, List.flatten_singleton,
        List.nodup_append] at hlast
      obtain ⟨hold, hmem⟩ := ih (fun f hf ↦ hsublist f (List.mem_append_left _ hf)) fun t ↦ by
        have ht := hnodup t
        rw [inputsOf_concat] at ht
        split_ifs at ht
        · rw [List.flatten_append, List.nodup_append] at ht
          exact ht.1
        · exact ht
      have hf := hsublist f (List.mem_append_right _ (List.mem_singleton_self f))
      have htagged : tagged (log ++ [f]) = tagged log ++ f.emitted.map fun x ↦ (f.thread, x) := by
        simp [tagged]
      rw [htagged]
      constructor
      · refine hold.append ((hlast.2.1.sublist hf).map fun x y heq ↦ (Prod.mk.inj heq).2) ?_
        intro x hx hx'
        obtain ⟨y, hy, rfl⟩ := List.mem_map.mp hx'
        exact hlast.2.2 y (hmem _ hx) y (hf.subset hy) rfl
      · intro x hx
        rw [inputsOf_concat]
        rcases List.mem_append.mp hx with hx | hx
        · have hx' := hmem x hx
          split_ifs
          · rw [List.flatten_append]
            exact List.mem_append_left _ hx'
          · exact hx'
        · obtain ⟨y, hy, rfl⟩ := List.mem_map.mp hx
          rw [if_pos rfl, List.flatten_append, List.flatten_singleton]
          exact List.mem_append_right _ (hf.subset hy)

theorem sublist_emissionsOf (hsublist : ∀ f ∈ log, f.emitted.Sublist f.input) (t : Thread) :
    (emissionsOf log t).Sublist (inputsOf log t).flatten := by
  rw [inputsOf, emissionsOf, ← List.flatMap_def]
  generalize hof : log.filter (fun f ↦ decide (f.thread = t)) = own
  have hown : ∀ f ∈ own, f.emitted.Sublist f.input := by
    intro f hf
    rw [← hof] at hf
    exact hsublist f (List.mem_filter.mp hf).1
  clear hof
  induction own with
  | nil => exact List.Sublist.refl _
  | cons f own ih =>
      rw [List.flatMap_cons, List.flatMap_cons]
      exact (hown f List.mem_cons_self).append (ih fun f' hf' ↦
        hown f' (List.mem_cons_of_mem f hf'))

/-- If there is one thread only, its log is the log of all. -/
theorem flatten_inputsOf_of_forall_eq (hone : ∀ t', t' = t) :
    (inputsOf log t).flatten = inputs log ∧ emissionsOf log t = emissions log := by
  have hfilter : log.filter (fun f ↦ f.thread = t) = log :=
    List.filter_eq_self.mpr fun f _ ↦ by simpa using hone f.thread
  rw [inputsOf, emissionsOf, hfilter, ← List.flatMap_def]
  exact ⟨rfl, rfl⟩

end Threads

/-! ## Runs -/

section Runs

variable {σ Thread : Type} [DecidableEq Thread] {ops : Operators σ} {start : Thread → σ}
  {s s' : SkipLimitState Thread σ} {t : Thread} {p q : Pipeline σ} {k l : ℕ}
  {point : PipelinePoint}

namespace SkipLimitState

def initial (start : Thread → σ) : SkipLimitState Thread σ where
  threads t := { child := start t }

@[simp] theorem threads_set_self (s : SkipLimitState Thread σ) (t : Thread) (p : Pipeline σ)
    (point : PipelinePoint) : (s.set t p point).threads t = { p with point := point } :=
  Function.update_self _ _ _

theorem threads_set_of_ne (s : SkipLimitState Thread σ) {t t' : Thread} (p : Pipeline σ)
    (point : PipelinePoint) (hne : t' ≠ t) : (s.set t p point).threads t' = s.threads t' :=
  Function.update_of_ne hne _ _

end SkipLimitState

open SkipLimitState

/-- The tuples that a thread is about to limit. -/
def Pipeline.pending (p : Pipeline σ) : List (ℕ × ℕ) := if p.point = .limiting then p.tuples else []

/-- Below `SKIP` each child produces what it would produce alone. -/
structure Skips (ops : Operators σ) (k : ℕ) (start : Thread → σ) (s : SkipLimitState Thread σ) :
    Prop where
  counter : s.skipCounter = (inputs s.skipLog).length
  counted : Counted (skipEmits k) s.skipLog
  produces : ∀ t, Produces ops.child (.initial (start t)) (inputsOf s.skipLog t)
    (s.threads t).restore.view
  limiting : ∀ t, (s.threads t).point = .limiting →
    (s.threads t).multiplicity = 1 ∧ (s.threads t).prevSelVector.isSome = true
  pending : ops.limitNumber.isSome = true → ∀ t,
    (inputsOf s.limitLog t).flatten ++ (s.threads t).pending = emissionsOf s.skipLog t

theorem Pipeline.view_restore_restore (p : Pipeline σ) :
    p.restore.restore.view = p.restore.view := by
  cases hprev : p.prevSelVector with
  | none =>
      have hview : ∀ q : Pipeline σ, q.prevSelVector = none → q.restore.view = q.view := by
        intro q hq
        simp only [view, selected, restore, hq, SelectionMemory.restoreSelVector]
      exact hview p.restore hprev
  | some saved => exact view_restore_congr hprev rfl rfl rfl rfl

theorem skips_initial : Skips ops k start (initial start) where
  counter := rfl
  counted := .nil
  produces _ := .nil
  limiting t h := by cases h
  pending _ _ := rfl

/-- A step of one thread that leaves the logs as they are. -/
theorem Skips.of_finished (h : Skips ops k start s) (hpoint : (s.threads t).point = .pulling) :
    Skips ops k start (s.set t (s.threads t).restore .finished) := by
  refine ⟨h.counter, h.counted, fun t' ↦ ?_, fun t' hlimiting ↦ ?_, fun hlimit t' ↦ ?_⟩
  · by_cases hne : t' = t
    · subst hne
      rw [threads_set_self]
      have hview := Pipeline.view_restore_restore (s.threads t')
      exact hview.symm ▸ h.produces t'
    · rw [threads_set_of_ne _ _ _ hne]
      exact h.produces t'
  · by_cases hne : t' = t
    · subst hne
      rw [threads_set_self] at hlimiting
      cases hlimiting
    · rw [threads_set_of_ne _ _ _ hne] at hlimiting ⊢
      exact h.limiting t' hlimiting
  · have hold := h.pending hlimit t'
    by_cases hne : t' = t
    · subst hne
      rw [threads_set_self]
      rw [Pipeline.pending, hpoint, if_neg (by simp)] at hold
      rw [Pipeline.pending, if_neg (by simp)]
      exact hold
    · rw [threads_set_of_ne _ _ _ hne]
      exact hold

/-- The child of a thread has produced, and what `SKIP` returns of it is pending. -/
theorem Skips.of_skipFetched (h : Skips ops k start s) (hpoint : (s.threads t).point = .pulling)
    (hproduces : Produces ops.child (.initial (start t))
      (inputsOf s.skipLog t ++ [q.tuples]) q.view)
    (hmultiplicity : q.multiplicity = 1) (hsame : SameChild q.save p)
    (hcases : point = .pulling ∧
      (ops.limitNumber = none ∨ skipEmits k s.skipCounter q.tuples = []) ∨
      point = .limiting ∧ ops.limitNumber.isSome = true ∧
        p.tuples = skipEmits k s.skipCounter q.tuples) :
    Skips ops k start
      ((s.skipFetched t q.tuples (skipEmits k s.skipCounter q.tuples)).set t p point) := by
  refine ⟨?_, ?_, fun t' ↦ ?_, fun t' hlimiting ↦ ?_, fun hlimit t' ↦ ?_⟩
  · simp only [SkipLimitState.set, skipFetched, inputs_append_singleton,
      List.length_append, h.counter]
  · exact h.counted.concat h.counter rfl
  · simp only [SkipLimitState.set, skipFetched, inputsOf_concat]
    by_cases hne : t' = t
    · subst hne
      rw [Function.update_self, if_pos rfl]
      have hview : ({ p with point := point } : Pipeline σ).restore.view = q.view :=
        Pipeline.view_restore_of_save hsame.prevSelVector_eq hsame.child_eq hsame.currIdx_eq
          hsame.numCalls_eq
      rw [hview]
      exact hproduces
    · rw [Function.update_of_ne hne, if_neg (Ne.symm hne)]
      exact h.produces t'
  · by_cases hne : t' = t
    · subst hne
      rw [threads_set_self]
      exact ⟨hsame.multiplicity_eq.trans hmultiplicity, by rw [hsame.prevSelVector_eq]; rfl⟩
    · rw [threads_set_of_ne _ _ _ hne] at hlimiting ⊢
      exact h.limiting t' hlimiting
  · have hold := h.pending hlimit t'
    by_cases hne : t' = t
    · subst hne
      rw [Pipeline.pending, hpoint, if_neg (by simp), List.append_nil] at hold
      rw [threads_set_self]
      simp only [SkipLimitState.set, skipFetched, emissionsOf_concat, if_true, ← hold]
      congr 1
      rcases hcases with ⟨rfl, hnone | hempty⟩ | ⟨rfl, -, htuples⟩
      · rw [hnone] at hlimit
        cases hlimit
      · rw [hempty]
        rfl
      · rw [← htuples]
        rfl
    · rw [threads_set_of_ne _ _ _ hne]
      simp only [SkipLimitState.set, skipFetched, emissionsOf_concat, if_neg (Ne.symm hne)]
      exact hold

theorem Skips.of_limitFetched {emitted : List (ℕ × ℕ)} (h : Skips ops k start s)
    (hpoint : (s.threads t).point = .limiting) (hsame : SameChild (s.threads t) q)
    (hnot : point ≠ .limiting) :
    Skips ops k start ((s.limitFetched t (s.threads t).tuples emitted).set t q point) := by
  refine ⟨h.counter, h.counted, fun t' ↦ ?_, fun t' hlimiting ↦ ?_, fun hlimit t' ↦ ?_⟩
  · by_cases hne : t' = t
    · subst hne
      rw [threads_set_self]
      obtain ⟨saved, hsaved⟩ := Option.isSome_iff_exists.mp (h.limiting t' hpoint).2
      have hview : ({ q with point := point } : Pipeline σ).restore.view =
          (s.threads t').restore.view :=
        Pipeline.view_restore_congr hsaved hsame.prevSelVector_eq hsame.child_eq hsame.currIdx_eq
          hsame.numCalls_eq
      rw [hview]
      exact h.produces t'
    · rw [threads_set_of_ne _ _ _ hne]
      exact h.produces t'
  · by_cases hne : t' = t
    · subst hne
      rw [threads_set_self] at hlimiting
      exact absurd hlimiting hnot
    · rw [threads_set_of_ne _ _ _ hne] at hlimiting ⊢
      exact h.limiting t' hlimiting
  · have hold := h.pending hlimit t'
    by_cases hne : t' = t
    · subst hne
      rw [Pipeline.pending, hpoint, if_pos rfl] at hold
      rw [threads_set_self, Pipeline.pending, if_neg hnot, List.append_nil]
      simp only [SkipLimitState.set, limitFetched, inputsOf_concat, if_true, List.flatten_append,
        List.flatten_singleton]
      exact hold
    · rw [threads_set_of_ne _ _ _ hne]
      simp only [SkipLimitState.set, limitFetched, inputsOf_concat, if_neg (Ne.symm hne)]
      exact hold

theorem Skips.of_step (h : Skips ops k start s) (hreduced : Reduced ops.child)
    (hskip : ops.skipNumber = some k) (hstep : skipLimitStep ops s t = some s') :
    Skips ops k start s' := by
  rw [skipLimitStep] at hstep
  cases hpoint : (s.threads t).point with
  | finished => simp [hpoint] at hstep
  | limiting =>
      simp only [hpoint] at hstep
      obtain ⟨l, -, rfl⟩ := Option.map_eq_some_iff.mp hstep
      obtain ⟨q, point, heq, hsame, hcases, -⟩ :=
        @exists_limit_eq σ Thread _ s t (s.threads t) l (h.limiting t hpoint).1
      rw [heq]
      refine h.of_limitFetched hpoint hsame ?_
      rcases hcases with rfl | ⟨rfl, -⟩
      · simp
      · simp
  | pulling =>
      simp only [hpoint, hskip, Option.some.injEq] at hstep
      subst hstep
      cases hpull : (s.threads t).restore.pull ops.child with
      | none =>
          rw [skip_of_none hpull]
          exact h.of_finished hpoint
      | some q =>
          obtain ⟨s₀, produced, hcall, hview, hmultiplicity, -, -⟩ := Pipeline.view_of_pull hpull
          have hproduces := (h.produces t).concat hcall
          rw [← hview] at hproduces
          have hone := hmultiplicity.trans (hreduced _ _ _ _ hcall)
          obtain ⟨p, point, heq, hsame, hcases⟩ :=
            @exists_skip_eq σ Thread _ ops s t (s.threads t) q k hpull hone hproduces.tuples_spec.2
          rw [heq]
          exact h.of_skipFetched hpoint hproduces hone hsame hcases

/-- What is passed on by `LIMIT` so far. -/
structure Limits (l : ℕ) (s : SkipLimitState Thread σ) : Prop where
  counter : s.limitCounter = (inputs s.limitLog).length
  counted : Counted (fun before ↦ List.take (l - before)) s.limitLog

theorem limitLog_skip (s : SkipLimitState Thread σ) (t : Thread) (p : Pipeline σ)
    (ops : Operators σ) (k : ℕ) :
    (s.skip t p ops k).limitLog = s.limitLog ∧
      (s.skip t p ops k).limitCounter = s.limitCounter := by
  rw [skip]
  cases p.restore.pull ops.child with
  | none => exact ⟨rfl, rfl⟩
  | some q =>
      simp only
      split_ifs
      · exact ⟨rfl, rfl⟩
      · exact ⟨rfl, rfl⟩
      · exact ⟨rfl, rfl⟩

theorem Limits.of_step (h : Limits l s) (hlimit : ops.limitNumber = some l)
    (hone : (s.threads t).point = .limiting → (s.threads t).multiplicity = 1)
    (hstep : skipLimitStep ops s t = some s') : Limits l s' := by
  have hsame : s'.limitLog = s.limitLog → s'.limitCounter = s.limitCounter → Limits l s' :=
    fun hlog hcounter ↦ ⟨by rw [hcounter, hlog]; exact h.counter, by rw [hlog]; exact h.counted⟩
  rw [skipLimitStep] at hstep
  cases hpoint : (s.threads t).point with
  | finished => simp [hpoint] at hstep
  | limiting =>
      simp only [hpoint, hlimit, Option.map_some, Option.some.injEq] at hstep
      subst hstep
      obtain ⟨q, point, heq, -⟩ :=
        @exists_limit_eq σ Thread _ s t (s.threads t) l (hone hpoint)
      rw [heq]
      refine ⟨?_, h.counted.concat h.counter rfl⟩
      simp only [SkipLimitState.set, limitFetched, inputs_append_singleton, List.length_append,
        h.counter]
  | pulling =>
      simp only [hpoint] at hstep
      cases hskip : ops.skipNumber with
      | some k =>
          simp only [hskip, Option.some.injEq] at hstep
          subst hstep
          exact hsame (limitLog_skip s t _ ops k).1 (limitLog_skip s t _ ops k).2
      | none =>
          simp only [hskip] at hstep
          cases hpull : (s.threads t).pull ops.child with
          | none =>
              simp only [hpull, Option.some.injEq] at hstep
              subst hstep
              exact hsame rfl rfl
          | some q =>
              simp only [hpull, Option.some.injEq] at hstep
              subst hstep
              exact hsame rfl rfl

/-! ### `LIMIT` alone -/

/-- The fetches before which the limit had not been reached. -/
def early (l : ℕ) (log : List (Fetch Thread (ℕ × ℕ))) : List (Fetch Thread (ℕ × ℕ)) :=
  log.filter fun f ↦ f.before < l

/-- Without `SKIP` nothing restores the selection, but it is shortened only when the limit has been
reached. -/
structure LimitsOnly (ops : Operators σ) (l : ℕ) (start : Thread → σ)
    (s : SkipLimitState Thread σ) : Prop where
  limiting : ∀ t, (s.threads t).point = .limiting → (s.threads t).multiplicity = 1
  produces : ∀ t,
    Produces ops.child (.initial (start t)) (inputsOf (early l s.limitLog) t ++
        if (s.threads t).point = .limiting then [(s.threads t).tuples] else []) (s.threads t).view ∨
      l ≤ s.limitCounter ∧
        ∃ v, Produces ops.child (.initial (start t)) (inputsOf (early l s.limitLog) t) v

theorem limitsOnly_initial : LimitsOnly ops l start (initial start) where
  limiting t h := by cases h
  produces _ := Or.inl .nil

theorem LimitsOnly.of_pulling (h : LimitsOnly ops l start s) (hreduced : Reduced ops.child)
    (hlimit : ops.limitNumber = some l) (hpoint : (s.threads t).point = .pulling)
    (hs' : (match (s.threads t).pull ops.child with
      | none => some (s.set t (s.threads t) .finished)
      | some q => some (s.returns t q ops)) = some s') : LimitsOnly ops l start s' := by
  have hold := h.produces t
  rw [hpoint, if_neg (by simp), List.append_nil] at hold
  cases hpull : (s.threads t).pull ops.child with
  | none =>
      simp only [hpull, Option.some.injEq] at hs'
      subst hs'
      refine ⟨fun t' hlimiting ↦ ?_, fun t' ↦ ?_⟩
      · by_cases hne : t' = t
        · subst hne
          rw [threads_set_self] at hlimiting
          cases hlimiting
        · rw [threads_set_of_ne _ _ _ hne] at hlimiting ⊢
          exact h.limiting t' hlimiting
      · by_cases hne : t' = t
        · subst hne
          rw [threads_set_self, if_neg (by simp), List.append_nil]
          exact hold
        · rw [threads_set_of_ne _ _ _ hne]
          exact h.produces t'
  | some q =>
      simp only [hpull, Option.some.injEq] at hs'
      rw [returns, hlimit, Option.isSome_some, if_pos rfl] at hs'
      subst hs'
      obtain ⟨s₀, produced, hcall, hview, hmultiplicity, -, -⟩ := Pipeline.view_of_pull hpull
      refine ⟨fun t' hlimiting ↦ ?_, fun t' ↦ ?_⟩
      · by_cases hne : t' = t
        · subst hne
          rw [threads_set_self]
          exact hmultiplicity.trans (hreduced _ _ _ _ hcall)
        · rw [threads_set_of_ne _ _ _ hne] at hlimiting ⊢
          exact h.limiting t' hlimiting
      · by_cases hne : t' = t
        · subst hne
          rw [threads_set_self, if_pos rfl]
          refine hold.imp (fun hproduces ↦ ?_) id
          have hnext := hproduces.concat hcall
          rw [← hview] at hnext
          exact hnext
        · rw [threads_set_of_ne _ _ _ hne]
          exact h.produces t'

theorem LimitsOnly.of_limiting (h : LimitsOnly ops l start s)
    (hpoint : (s.threads t).point = .limiting) (hsame : SameChild (s.threads t) q)
    (hnot : point ≠ .limiting) {emitted : List (ℕ × ℕ)}
    (hcut : q.selVector = (s.threads t).selVector ∨
      l ≤ s.limitCounter + (s.threads t).tuples.length) :
    LimitsOnly ops l start ((s.limitFetched t (s.threads t).tuples emitted).set t q point) := by
  have hold := h.produces t
  rw [hpoint, if_pos rfl] at hold
  refine ⟨fun t' hlimiting ↦ ?_, fun t' ↦ ?_⟩
  · by_cases hne : t' = t
    · subst hne
      rw [threads_set_self] at hlimiting
      exact absurd hlimiting hnot
    · rw [threads_set_of_ne _ _ _ hne] at hlimiting ⊢
      exact h.limiting t' hlimiting
  · have hearly : early l (s.limitLog ++ [⟨t, s.limitCounter, (s.threads t).tuples, emitted⟩]) =
        if s.limitCounter < l then
          early l s.limitLog ++ [⟨t, s.limitCounter, (s.threads t).tuples, emitted⟩]
        else early l s.limitLog := by
      rw [early, early, List.filter_append]
      split_ifs with hlt
      · rw [List.filter_cons_of_pos (by simpa using hlt), List.filter_nil]
      · rw [List.filter_cons_of_neg (by simpa using hlt), List.filter_nil, List.append_nil]
    by_cases hne : t' = t
    · subst hne
      rw [threads_set_self, if_neg hnot, List.append_nil]
      simp only [SkipLimitState.set, limitFetched, hearly]
      by_cases hlt : s.limitCounter < l
      · rw [if_pos hlt, inputsOf_concat, if_pos rfl]
        rcases hold with hproduces | ⟨hle, -⟩
        · rcases hcut with hselVector | hle
          · refine Or.inl ?_
            have hview : ({ q with point := point } : Pipeline σ).view = (s.threads t').view := by
              simp only [Pipeline.view, Pipeline.selected, hselVector, hsame.child_eq,
                hsame.currIdx_eq, hsame.numCalls_eq]
            rw [hview]
            exact hproduces
          · exact Or.inr ⟨hle, _, hproduces⟩
        · exact absurd hlt (Nat.not_lt.mpr hle)
      · rw [if_neg hlt]
        refine Or.inr ⟨Nat.le_add_right_of_le (Nat.not_lt.mp hlt), ?_⟩
        rcases hold with hproduces | ⟨-, hexists⟩
        · exact hproduces.of_concat
        · exact hexists
    · rw [threads_set_of_ne _ _ _ hne]
      have hinputs : inputsOf (early l (s.limitLog ++
          [⟨t, s.limitCounter, (s.threads t).tuples, emitted⟩])) t' =
            inputsOf (early l s.limitLog) t' := by
        rw [hearly]
        split_ifs
        · rw [inputsOf_concat, if_neg (Ne.symm hne)]
        · rfl
      simp only [SkipLimitState.set, limitFetched, hinputs]
      exact (h.produces t').imp_right (And.imp_left Nat.le_add_right_of_le)

theorem LimitsOnly.of_step (h : LimitsOnly ops l start s) (hreduced : Reduced ops.child)
    (hskip : ops.skipNumber = none) (hlimit : ops.limitNumber = some l)
    (hstep : skipLimitStep ops s t = some s') : LimitsOnly ops l start s' := by
  rw [skipLimitStep] at hstep
  cases hpoint : (s.threads t).point with
  | finished => simp [hpoint] at hstep
  | limiting =>
      simp only [hpoint, hlimit, Option.map_some, Option.some.injEq] at hstep
      subst hstep
      obtain ⟨q, point, heq, hsame, hcases, hcut⟩ :=
        @exists_limit_eq σ Thread _ s t (s.threads t) l (h.limiting t hpoint)
      rw [heq]
      refine h.of_limiting hpoint hsame ?_ hcut
      rcases hcases with rfl | ⟨rfl, -⟩
      · simp
      · simp
  | pulling =>
      simp only [hpoint, hskip] at hstep
      exact h.of_pulling hreduced hlimit hpoint hstep

end Runs

end Graphflow.Processor
