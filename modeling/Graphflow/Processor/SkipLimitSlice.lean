import Graphflow.Processor.SkipLimitRuns

/-!
# The slice of `SKIP` and `LIMIT`

All threads together pass on the tuples from the number of `SKIP` on, and of them as many as `LIMIT`
says.
-/

namespace Graphflow.Processor

open Lib Storage SkipLimitState

/-! ## The numbers of 32 bits -/

section Numbers

variable {α : Type*} {k before n : ℕ} {tuples : List α}

/-- The sum of the tuples that have been counted has less than 32 bits, or what its last 32 bits say
does no harm. -/
def SkipsWell (k before n : ℕ) : Prop :=
  before + n < 2 ^ 32 ∨ before + n ≤ k ∨ n = 0 ∨
    k < (before + n) % 2 ^ 32 ∧ k ≤ before % 2 ^ 32

theorem skipEmits_eq_drop (hwell : SkipsWell k before tuples.length) :
    skipEmits k before tuples = tuples.drop (k - before) := by
  rw [skipEmits, Nat.mod_add_mod]
  rcases hwell with hlt | hle | hzero | ⟨hlast, hbefore⟩
  · rw [Nat.mod_eq_of_lt hlt, Nat.mod_eq_of_lt (by omega : before < 2 ^ 32)]
    split_ifs with hle
    · rw [List.drop_eq_nil_of_le (by omega)]
    · rfl
  · rw [if_pos ((Nat.mod_le _ _).trans hle), List.drop_eq_nil_of_le (by omega)]
  · rw [List.eq_nil_of_length_eq_zero hzero, List.drop_nil, List.drop_nil, ite_self]
  · have hmod := Nat.mod_le before (2 ^ 32)
    rw [if_neg (Nat.not_le.mpr hlast), Nat.sub_eq_zero_of_le hbefore,
      Nat.sub_eq_zero_of_le (hbefore.trans hmod)]

theorem length_skipEmits_le (k before : ℕ) (tuples : List α) :
    (skipEmits k before tuples).length ≤ tuples.length - (k - before) := by
  rw [skipEmits]
  split_ifs
  · exact Nat.zero_le _
  · rw [List.length_drop]
    have hmod := Nat.mod_le before (2 ^ 32)
    omega

/-- Less is passed on if the numbers go wrong. -/
theorem skipsWell_of_length_eq (hlength : tuples.length ≤ defaultVectorCapacity)
    (heq : (skipEmits k before tuples).length = tuples.length - (k - before)) :
    SkipsWell k before tuples.length := by
  have hcapacity : defaultVectorCapacity = 2048 := by decide
  rw [skipEmits, Nat.mod_add_mod] at heq
  rw [SkipsWell]
  split_ifs at heq with hle
  · rw [List.length_nil] at heq
    omega
  · rw [List.length_drop] at heq
    omega

end Numbers

/-! ## The end of a thread -/

section Runs

variable {σ Thread : Type} [DecidableEq Thread] {ops : Operators σ} {start : Thread → σ}
  {s s' : SkipLimitState Thread σ} {t : Thread} {k l : ℕ}

/-- The child of a thread has nothing more to produce. -/
def Exhausted (ops : Operators σ) (s : SkipLimitState Thread σ) (t : Thread) : Prop :=
  let v := if ops.skipNumber.isSome then (s.threads t).restore.view else (s.threads t).view
  ops.child v.child v.selected = none

/-- A thread that has finished has come to the end of its child or to the limit. -/
def Ends (ops : Operators σ) (s : SkipLimitState Thread σ) : Prop :=
  ∀ t, (s.threads t).point = .finished →
    Exhausted ops s t ∨ ∃ l, ops.limitNumber = some l ∧ l ≤ s.limitCounter

theorem Ends.of_set {s₁ : SkipLimitState Thread σ} {q : Pipeline σ} {point : PipelinePoint}
    (h : Ends ops s) (hthreads : s₁.threads = s.threads)
    (hcounter : s.limitCounter ≤ s₁.limitCounter)
    (hself : point = .finished → Exhausted ops (s₁.set t q point) t ∨
      ∃ l, ops.limitNumber = some l ∧ l ≤ s₁.limitCounter) : Ends ops (s₁.set t q point) := by
  intro t' hfinished
  by_cases hne : t' = t
  · subst hne
    rw [threads_set_self] at hfinished
    exact hself hfinished
  · rw [threads_set_of_ne _ _ _ hne, hthreads] at hfinished
    refine (h t' hfinished).imp (fun hexhausted ↦ ?_) fun ⟨l, hl, hle⟩ ↦ ⟨l, hl, hle.trans hcounter⟩
    simpa only [Exhausted, threads_set_of_ne _ _ _ hne, hthreads] using hexhausted

theorem Ends.of_step (h : Ends ops s) (hreduced : Reduced ops.child)
    (hskips : ∀ k, ops.skipNumber = some k → Skips ops k start s)
    (hone : ops.limitNumber.isSome = true → (s.threads t).point = .limiting →
      (s.threads t).multiplicity = 1)
    (hstep : skipLimitStep ops s t = some s') : Ends ops s' := by
  rw [skipLimitStep] at hstep
  cases hpoint : (s.threads t).point with
  | finished => simp [hpoint] at hstep
  | limiting =>
      simp only [hpoint] at hstep
      obtain ⟨l, hlimit, rfl⟩ := Option.map_eq_some_iff.mp hstep
      obtain ⟨q, point, heq, -, hcases, -⟩ :=
        @exists_limit_eq σ Thread _ s t (s.threads t) l (hone (by rw [hlimit]; rfl) hpoint)
      rw [heq]
      refine h.of_set rfl (Nat.le_add_right _ _) fun hfinished ↦ ?_
      rcases hcases with hpulling | ⟨-, hle⟩
      · rw [hpulling] at hfinished
        cases hfinished
      · exact Or.inr ⟨l, hlimit, Nat.le_add_right_of_le hle⟩
  | pulling =>
      simp only [hpoint] at hstep
      cases hskip : ops.skipNumber with
      | some k =>
          simp only [hskip, Option.some.injEq] at hstep
          subst hstep
          cases hpull : (s.threads t).restore.pull ops.child with
          | none =>
              rw [skip_of_none hpull]
              refine h.of_set rfl (le_refl _) fun _ ↦ Or.inl ?_
              have hview : ({ (s.threads t).restore with point := .finished } :
                  Pipeline σ).restore.view = (s.threads t).restore.view :=
                Pipeline.view_restore_restore (s.threads t)
              rw [Exhausted, hskip, Option.isSome_some, if_pos rfl, threads_set_self, hview]
              exact Option.map_eq_none_iff.mp hpull
          | some q =>
              obtain ⟨s₀, produced, hcall, hview, hmultiplicity, -, -⟩ :=
                Pipeline.view_of_pull hpull
              have hproduces := ((hskips k hskip).produces t).concat hcall
              rw [← hview] at hproduces
              obtain ⟨p, point, heq, -, hcases⟩ :=
                @exists_skip_eq σ Thread _ ops s t (s.threads t) q k
                hpull (hmultiplicity.trans (hreduced _ _ _ _ hcall)) hproduces.tuples_spec.2
              rw [heq]
              refine h.of_set rfl (le_refl _) fun hfinished ↦ ?_
              rcases hcases with ⟨hpulling, -⟩ | ⟨hlimiting, -⟩
              · rw [hpulling] at hfinished
                cases hfinished
              · rw [hlimiting] at hfinished
                cases hfinished
      | none =>
          simp only [hskip] at hstep
          cases hpull : (s.threads t).pull ops.child with
          | none =>
              simp only [hpull, Option.some.injEq] at hstep
              subst hstep
              refine h.of_set rfl (le_refl _) fun _ ↦ Or.inl ?_
              rw [Exhausted, hskip, Option.isSome_none, if_neg Bool.false_ne_true, threads_set_self]
              exact Option.map_eq_none_iff.mp hpull
          | some q =>
              simp only [hpull, Option.some.injEq] at hstep
              subst hstep
              refine h.of_set rfl (le_refl _) fun hfinished ↦ ?_
              split_ifs at hfinished

/-! ## What is passed on -/

/-- The tuples of the child: `LIMIT` alone passes on nothing of what it gets after its number. -/
def fetchedLog (ops : Operators σ) (s : SkipLimitState Thread σ) : List (Fetch Thread (ℕ × ℕ)) :=
  match ops.skipNumber, ops.limitNumber with
  | some _, _ => s.skipLog
  | none, some l => early l s.limitLog
  | none, none => []

def emittedLog (ops : Operators σ) (s : SkipLimitState Thread σ) : List (Fetch Thread (ℕ × ℕ)) :=
  match ops.skipNumber, ops.limitNumber with
  | _, some _ => s.limitLog
  | some _, none => s.skipLog
  | none, none => []

structure EmitsSlice (ops : Operators σ) (start : Thread → σ) (s : SkipLimitState Thread σ) :
    Prop where
  produces : ∀ t, ∃ v, Produces ops.child (.initial (start t)) (inputsOf (fetchedLog ops s) t) v
  skip_length : ∀ k, ops.skipNumber = some k →
    (emissions s.skipLog).length = (inputs s.skipLog).length - k
  limit_length : ∀ l, ops.limitNumber = some l →
    (emissions s.limitLog).length = min (inputs s.limitLog).length l
  between : ops.skipNumber.isSome = true → ops.limitNumber.isSome = true → ∀ t,
    (inputsOf s.limitLog t).flatten ++ (s.threads t).pending = emissionsOf s.skipLog t
  nodup : (tagged (emittedLog ops s)).Nodup
  ends : Ends ops s
  slice : ∀ t, (∀ t', t' = t) → (s.threads t).pending = [] →
    emissions (emittedLog ops s) =
      let rest := (inputs (fetchedLog ops s)).drop (ops.skipNumber.getD 0)
      ops.limitNumber.elim rest fun l ↦ rest.take l

theorem skipEmits_sublist {α : Type*} (k before : ℕ) (tuples : List α) :
    (skipEmits k before tuples).Sublist tuples := by
  rw [skipEmits]
  split_ifs
  · exact List.nil_sublist _
  · exact List.drop_sublist _ _

/-- What holds of every run, whatever the numbers of 32 bits do. -/
structure SkipsAndLimits (ops : Operators σ) (start : Thread → σ) (s : SkipLimitState Thread σ) :
    Prop where
  skips : ∀ k, ops.skipNumber = some k → Skips ops k start s
  limits : ∀ l, ops.limitNumber = some l → Limits l s
  limitsOnly : ops.skipNumber = none → ∀ l, ops.limitNumber = some l → LimitsOnly ops l start s
  ends : Ends ops s

namespace SkipsAndLimits

theorem multiplicity_eq (h : SkipsAndLimits ops start s) (hlimit : ops.limitNumber.isSome = true)
    (hpoint : (s.threads t).point = .limiting) : (s.threads t).multiplicity = 1 := by
  obtain ⟨l, hl⟩ := Option.isSome_iff_exists.mp hlimit
  cases hskip : ops.skipNumber with
  | none => exact (h.limitsOnly hskip l hl).limiting t hpoint
  | some k => exact ((h.skips k hskip).limiting t hpoint).1

theorem of_step (h : SkipsAndLimits ops start s) (hreduced : Reduced ops.child)
    (hstep : skipLimitStep ops s t = some s') : SkipsAndLimits ops start s' where
  skips k hk := (h.skips k hk).of_step hreduced hk hstep
  limits l hl := (h.limits l hl).of_step hl (h.multiplicity_eq (by rw [hl]; rfl)) hstep
  limitsOnly hnone l hl := (h.limitsOnly hnone l hl).of_step hreduced hnone hl hstep
  ends := h.ends.of_step hreduced h.skips h.multiplicity_eq hstep

theorem of_run {ts : List Thread} (hreduced : Reduced ops.child)
    (hrun : run (skipLimitStep ops) (initial start) ts = some s) : SkipsAndLimits ops start s := by
  apply run_invariant (fun s t s' h hstep ↦ h.of_step hreduced hstep) _ hrun
  exact ⟨fun k _ ↦ skips_initial, fun l _ ↦ ⟨rfl, .nil⟩, fun _ l _ ↦ limitsOnly_initial,
    fun t hfinished ↦ by cases hfinished⟩

theorem produces (h : SkipsAndLimits ops start s) (t : Thread) :
    ∃ v, Produces ops.child (.initial (start t)) (inputsOf (fetchedLog ops s) t) v := by
  cases hskip : ops.skipNumber with
  | some k =>
      simp only [fetchedLog, hskip]
      exact ⟨_, (h.skips k hskip).produces t⟩
  | none =>
      cases hlimit : ops.limitNumber with
      | none =>
          simp only [fetchedLog, hskip, hlimit]
          exact ⟨_, .nil⟩
      | some l =>
          simp only [fetchedLog, hskip, hlimit]
          rcases (h.limitsOnly hskip l hlimit).produces t with hproduces | ⟨-, hexists⟩
          · split_ifs at hproduces
            · exact hproduces.of_concat
            · rw [List.append_nil] at hproduces
              exact ⟨_, hproduces⟩
          · exact hexists

/-- `SKIP` never passes on a tuple twice. -/
theorem nodup_skip (h : Skips ops k start s) :
    (tagged s.skipLog).Nodup ∧ ∀ t, (emissionsOf s.skipLog t).Nodup := by
  have hsublist : ∀ f ∈ s.skipLog, f.emitted.Sublist f.input := by
    intro f hf
    rw [h.counted.emitted_eq f hf]
    exact skipEmits_sublist _ _ _
  have hnodup : ∀ t, (inputsOf s.skipLog t).flatten.Nodup := fun t ↦ (h.produces t).nodup_flatten.1
  exact ⟨(nodup_tagged hsublist hnodup).1, fun t ↦
    (hnodup t).sublist (sublist_emissionsOf hsublist t)⟩

omit [DecidableEq Thread] in
/-- What comes after the limit has been reached is not passed on. -/
theorem tagged_early (h : Limits l s) : tagged (early l s.limitLog) = tagged s.limitLog := by
  have hemitted := h.counted.emitted_eq
  rw [early]
  generalize s.limitLog = log at hemitted
  induction log with
  | nil => rfl
  | cons f log ih =>
      have htail := ih fun f' hf' ↦ hemitted f' (List.mem_cons_of_mem f hf')
      by_cases hlt : f.before < l
      · rw [List.filter_cons_of_pos (by simpa using hlt), tagged, tagged, List.flatMap_cons,
          List.flatMap_cons]
        exact congrArg (_ ++ ·) htail
      · have hnil : f.emitted = [] := by
          rw [hemitted f List.mem_cons_self, Nat.sub_eq_zero_of_le (Nat.not_lt.mp hlt),
            List.take_zero]
        rw [List.filter_cons_of_neg (by simpa using hlt), htail, tagged, tagged,
          List.flatMap_cons, hnil, List.map_nil, List.nil_append]

theorem nodup (h : SkipsAndLimits ops start s) : (tagged (emittedLog ops s)).Nodup := by
  cases hlimit : ops.limitNumber with
  | none =>
      cases hskip : ops.skipNumber with
      | none =>
          simp [emittedLog, tagged, hskip, hlimit]
      | some k =>
          simp only [emittedLog, hskip, hlimit]
          exact (nodup_skip (h.skips k hskip)).1
  | some l =>
      have hlog : emittedLog ops s = s.limitLog := by
        rw [emittedLog, hlimit]
      rw [hlog]
      have hlimits := h.limits l hlimit
      have hsublist : ∀ f ∈ s.limitLog, f.emitted.Sublist f.input := by
        intro f hf
        rw [hlimits.counted.emitted_eq f hf]
        exact List.take_sublist _ _
      cases hskip : ops.skipNumber with
      | some k =>
          refine (nodup_tagged hsublist fun t ↦ ?_).1
          have hnodup := (nodup_skip (h.skips k hskip)).2 t
          rw [← (h.skips k hskip).pending (by rw [hlimit]; rfl) t, List.nodup_append] at hnodup
          exact hnodup.1
      | none =>
          rw [← tagged_early hlimits]
          have hsublist' : ∀ f ∈ early l s.limitLog, f.emitted.Sublist f.input :=
            fun f hf ↦ hsublist f (List.mem_filter.mp hf).1
          refine (nodup_tagged hsublist' fun t ↦ ?_).1
          obtain ⟨v, hproduces⟩ := h.produces t
          simp only [fetchedLog, hskip, hlimit] at hproduces
          exact hproduces.nodup_flatten.1

/-- One thread passes on the slice. -/
theorem slice (h : SkipsAndLimits ops start s)
    (hskips : ∀ k, ops.skipNumber = some k →
      emissions s.skipLog = (inputs s.skipLog).drop k)
    (hone : ∀ t', t' = t) (hpending : (s.threads t).pending = []) :
    emissions (emittedLog ops s) =
      let rest := (inputs (fetchedLog ops s)).drop (ops.skipNumber.getD 0)
      ops.limitNumber.elim rest fun l ↦ rest.take l := by
  cases hlimit : ops.limitNumber with
  | none =>
      cases hskip : ops.skipNumber with
      | none =>
          simp [emittedLog, fetchedLog, hskip, hlimit, emissions, inputs]
      | some k =>
          simp only [emittedLog, fetchedLog, hskip, hlimit]
          exact hskips k hskip
  | some l =>
      have hlimits := h.limits l hlimit
      cases hskip : ops.skipNumber with
      | some k =>
          have hbetween := (h.skips k hskip).pending (by rw [hlimit]; rfl) t
          rw [hpending, List.append_nil, (flatten_inputsOf_of_forall_eq hone).1,
            (flatten_inputsOf_of_forall_eq hone).2] at hbetween
          simp only [emittedLog, fetchedLog, hskip, hlimit]
          rw [hlimits.counted.take, hbetween, hskips k hskip]
          rfl
      | none =>
          simp only [emittedLog, fetchedLog, hskip, hlimit]
          rw [hlimits.counted.take, ← hlimits.counted.take_inputs_filter]
          rfl

end SkipsAndLimits

/-- The numbers of 32 bits do no harm. -/
def NumbersFit (ops : Operators σ) (s : SkipLimitState Thread σ) : Prop :=
  ∀ k, ops.skipNumber = some k → ∀ f ∈ s.skipLog, SkipsWell k f.before f.input.length

theorem SkipsAndLimits.slice_iff (h : SkipsAndLimits ops start s) :
    EmitsSlice ops start s ↔ NumbersFit ops s := by
  constructor
  · intro hslice k hk f hf
    have hskips := h.skips k hk
    have heq := hskips.counted.forall_length_eq (fun f _ ↦ length_skipEmits_le k f.before f.input)
      (hslice.skip_length k hk).ge f hf
    refine skipsWell_of_length_eq ?_ heq
    apply (hskips.produces f.thread).length_le
    exact List.mem_map.mpr ⟨f, List.mem_filter.mpr ⟨hf, by simp⟩, rfl⟩
  · intro hfit
    have hskips : ∀ k, ops.skipNumber = some k →
        emissions s.skipLog = (inputs s.skipLog).drop k := fun k hk ↦
      (h.skips k hk).counted.drop fun f hf ↦ skipEmits_eq_drop (hfit k hk f hf)
    refine ⟨h.produces, fun k hk ↦ ?_, fun l hl ↦ ?_, fun hskip hlimit t ↦ ?_, h.nodup, h.ends,
      fun t ↦ h.slice hskips⟩
    · rw [hskips k hk, List.length_drop]
    · rw [(h.limits l hl).counted.take, List.length_take, min_comm]
    · obtain ⟨k, hk⟩ := Option.isSome_iff_exists.mp hskip
      exact (h.skips k hk).pending hlimit t

/-! ## Runs over repeated tuples -/

/-- Each thread has a `MultiplicityReducer` above its child. -/
def overReducer (child : Child σ) (skipNumber limitNumber : Option ℕ) :
    Operators (MultiplicityReducer σ) :=
  ⟨MultiplicityReducer.getNextTuples child, skipNumber, limitNumber⟩

def reducers (start : Thread → σ) (t : Thread) : MultiplicityReducer σ := { child := start t }

theorem emitsSlice_iff {child : Child σ} {skipNumber limitNumber : Option ℕ} {ts : List Thread}
    {s : SkipLimitState Thread (MultiplicityReducer σ)}
    (hrun : run (skipLimitStep (overReducer child skipNumber limitNumber))
      (initial (reducers start)) ts = some s) :
    EmitsSlice (overReducer child skipNumber limitNumber) (reducers start) s ↔
      NumbersFit (overReducer child skipNumber limitNumber) s :=
  (SkipsAndLimits.of_run (MultiplicityReducer.reduced_getNextTuples child) hrun).slice_iff

/-- A child that produces unfiltered batches of the given sizes and multiplicities. -/
def batches : Child (List (Fin (defaultVectorCapacity + 1) × ℕ)) := fun sizes _ ↦
  match sizes with
  | [] => none
  | (size, multiplicity) :: rest =>
      some (rest, ⟨some ⟨.unfiltered size size.is_le, none, nofun⟩, multiplicity⟩)

/-- Three tuples that are there twice and two tuples. -/
def twoThreads : Bool → List (Fin (defaultVectorCapacity + 1) × ℕ)
  | true => [(3, 2)]
  | false => [(2, 1)]

theorem emitsSlice_twoThreads : ∃ s, run (skipLimitStep (overReducer batches (some 1) (some 5)))
    (initial (reducers twoThreads)) [true, false, true, true, false, true] = some s ∧
      EmitsSlice (overReducer batches (some 1) (some 5)) (reducers twoThreads) s := by
  obtain ⟨s, hrun⟩ : ∃ s, run (skipLimitStep (overReducer batches (some 1) (some 5)))
      (initial (reducers twoThreads)) [true, false, true, true, false, true] = some s :=
    Option.isSome_iff_exists.mp (by decide +kernel)
  have hlog : (run (skipLimitStep (overReducer batches (some 1) (some 5)))
      (initial (reducers twoThreads)) [true, false, true, true, false, true]).map (fun s ↦
        s.skipLog.all fun f ↦ decide (f.before + f.input.length < 2 ^ 32)) = some true := by
    decide +kernel
  rw [hrun, Option.map_some, Option.some.injEq, List.all_eq_true] at hlog
  exact ⟨s, hrun, (emitsSlice_iff hrun).mpr fun k _ f hf ↦ Or.inl (of_decide_eq_true (hlog f hf))⟩

/-! ### More than 32 bits -/

/-- A batch that is there many times. -/
def oneBatch : Unit → List (Fin (defaultVectorCapacity + 1) × ℕ) := fun _ ↦
  [(Fin.last defaultVectorCapacity, 2 ^ 21)]

/-- A thread without `LIMIT` counts what its child produces. -/
theorem Skips.exists_step (h : Skips ops k start s) (hreduced : Reduced ops.child)
    (hskip : ops.skipNumber = some k) (hlimit : ops.limitNumber = none)
    (hpoint : (s.threads t).point = .pulling) {c : σ} {produced : Produced}
    (hcall : ops.child (s.threads t).restore.view.child (s.threads t).restore.view.selected =
      some (c, produced)) :
    ∃ s' emitted, skipLimitStep ops s t = some s' ∧ (s'.threads t).point = .pulling ∧
      (s'.threads t).restore.view = (s.threads t).restore.view.afterChild c produced ∧
      s'.skipLog = s.skipLog ++
        [⟨t, s.skipCounter, ((s.threads t).restore.view.afterChild c produced).tuples,
          emitted⟩] := by
  obtain ⟨q, hpull⟩ : ∃ q, (s.threads t).restore.pull ops.child = some q :=
    ⟨_, Option.map_eq_some_iff.mpr ⟨(c, produced), hcall, rfl⟩⟩
  obtain ⟨c', produced', hcall', hview, hmultiplicity, -, -⟩ := Pipeline.view_of_pull hpull
  obtain ⟨rfl, rfl⟩ := Prod.mk.inj (Option.some.inj (hcall'.symm.trans hcall))
  have hproduces := (h.produces t).concat hcall
  rw [← hview] at hproduces
  obtain ⟨p, point, heq, hsame, hcases⟩ := @exists_skip_eq σ Thread _ ops s t (s.threads t) q k
    hpull (hmultiplicity.trans (hreduced _ _ _ _ hcall)) hproduces.tuples_spec.2
  have hpulling : point = .pulling := by
    rcases hcases with ⟨hpulling, -⟩ | ⟨-, hsome, -⟩
    · exact hpulling
    · rw [hlimit] at hsome
      cases hsome
  refine ⟨(s.skipFetched t q.tuples (skipEmits k s.skipCounter q.tuples)).set t p point,
    skipEmits k s.skipCounter q.tuples, ?_, ?_, ?_, ?_⟩
  · rw [skipLimitStep]
    simp only [hpoint, hskip]
    rw [heq]
  · rw [threads_set_self]
    exact hpulling
  · rw [threads_set_self, ← hview]
    exact Pipeline.view_restore_of_save hsame.prevSelVector_eq hsame.child_eq hsame.currIdx_eq
      hsame.numCalls_eq
  · rw [← hview]
    rfl

/-- The batch has been counted some times. -/
structure CountedBatches (n : ℕ) (s : SkipLimitState Unit
    (MultiplicityReducer (List (Fin (defaultVectorCapacity + 1) × ℕ)))) : Prop where
  skips : Skips (overReducer batches (some 1) none) 1 (reducers oneBatch) s
  point : (s.threads ()).point = .pulling
  selected : (s.threads ()).restore.view.selected = ⟨true, List.range defaultVectorCapacity, none⟩
  prevMultiplicity : (s.threads ()).restore.view.child.prevMultiplicity = 2 ^ 21
  numRepeat : (s.threads ()).restore.view.child.numRepeat = n % 2 ^ 21
  length_inputs : (inputs s.skipLog).length = 2048 * n
  last : ∃ f ∈ s.skipLog, f.before + 2048 = 2048 * n ∧ f.input.length = 2048

/-- The batch is counted once more. -/
theorem CountedBatches.exists_step {n : ℕ} {s : SkipLimitState Unit
      (MultiplicityReducer (List (Fin (defaultVectorCapacity + 1) × ℕ)))}
    (h : CountedBatches n s) (hpos : 0 < n) (hn : n < 2 ^ 21) :
    ∃ s', skipLimitStep (overReducer batches (some 1) none) s () = some s' ∧
      CountedBatches (n + 1) s' := by
  obtain ⟨hskips, hpoint, hselected, hmultiplicity, hrepeat, hinputs, -⟩ := h
  rw [Nat.mod_eq_of_lt hn] at hrepeat
  have hcall : (overReducer batches (some 1) none).child (s.threads ()).restore.view.child
      (s.threads ()).restore.view.selected =
        some ((s.threads ()).restore.view.child.repeated, ⟨none, 1⟩) := by
    have hne : (s.threads ()).restore.view.child.numRepeat ≠ 0 := by omega
    exact if_neg hne
  obtain ⟨s', emitted, hstep, hpoint', hview, hlog⟩ := hskips.exists_step
    (MultiplicityReducer.reduced_getNextTuples batches) rfl rfl hpoint hcall
  have hlength : ((s.threads ()).restore.view.afterChild (s.threads ()).restore.view.child.repeated
      ⟨none, 1⟩).tuples.length = 2048 := by
    simp only [View.tuples, View.positions, View.afterChild, Option.elim_none, hselected,
      List.length_map, List.length_range]
    rfl
  refine ⟨s', hstep, ⟨hskips.of_step (MultiplicityReducer.reduced_getNextTuples batches) rfl hstep,
    hpoint', ?_, ?_, ?_, ?_, ?_⟩⟩
  · rw [hview, ← hselected]
    rfl
  · rw [hview, ← hmultiplicity]
    rfl
  · have hnext : (s.threads ()).restore.view.child.repeated.numRepeat = (n + 1) % 2 ^ 21 := by
      simp only [MultiplicityReducer.repeated, hrepeat, hmultiplicity]
      split_ifs with hlast
      · rw [hlast, Nat.mod_self]
      · rw [Nat.mod_eq_of_lt (by omega)]
    rw [hview, ← hnext]
    rfl
  · rw [hlog, inputs_append_singleton, List.length_append, hinputs, hlength]
    omega
  · refine ⟨_, by rw [hlog]; exact List.mem_append_right _ (List.mem_singleton_self _), ?_, hlength⟩
    simp only [hskips.counter, hinputs]
    omega

/-- The batch is produced and counted for the first time. -/
theorem exists_countedBatches_one : ∃ s', skipLimitStep (overReducer batches (some 1) none)
    (initial (reducers oneBatch)) () = some s' ∧ CountedBatches 1 s' := by
  have hskips : Skips (overReducer batches (some 1) none) 1 (reducers oneBatch)
      (initial (reducers oneBatch)) := skips_initial
  obtain ⟨state, hstate, hcall⟩ : ∃ state : DataChunkState,
      (⟨state.selVector.isUnfiltered, state.selVector.selectedPositions,
        state.currIdx⟩ : Selected) =
        ⟨true, List.range defaultVectorCapacity, none⟩ ∧
      batches (oneBatch ()) ⟨true, [], none⟩ = some ([], ⟨some state, 2 ^ 21⟩) :=
    ⟨⟨.unfiltered (Fin.last defaultVectorCapacity) (Fin.last _).is_le, none, nofun⟩,
      by simp only [SelectionVector.unfiltered, Fin.val_last], rfl⟩
  have hreduced := MultiplicityReducer.getNextTuples_of_eq_some hcall
  obtain ⟨s', emitted, hstep, hpoint', hview, hlog⟩ := hskips.exists_step
    (MultiplicityReducer.reduced_getNextTuples batches) rfl rfl rfl hreduced
  have hlength : (((initial (reducers oneBatch)).threads ()).restore.view.afterChild
      (MultiplicityReducer.repeated ⟨[], 2 ^ 21, 0⟩) ⟨some state, 1⟩).tuples.length = 2048 := by
    simp only [View.tuples, View.positions, View.afterChild, Option.elim_some, hstate,
      List.length_map, List.length_range]
    rfl
  refine ⟨s', hstep, ⟨hskips.of_step (MultiplicityReducer.reduced_getNextTuples batches) rfl hstep,
    hpoint', ?_, ?_, ?_, ?_, ?_⟩⟩
  · rw [hview]
    exact hstate
  · rw [hview]
    rfl
  · rw [hview]
    simp only [View.afterChild, MultiplicityReducer.repeated]
    rw [if_neg (by decide)]
    exact (Nat.mod_eq_of_lt (by decide)).symm
  · rw [hlog, inputs_append_singleton, List.length_append, hlength]
    rfl
  · exact ⟨_, by rw [hlog]; exact List.mem_append_right _ (List.mem_singleton_self _), rfl, hlength⟩

theorem exists_countedBatches (n : ℕ) (hn : n < 2 ^ 21) :
    ∃ s, run (skipLimitStep (overReducer batches (some 1) none)) (initial (reducers oneBatch))
        (List.replicate (n + 1) ()) = some s ∧ CountedBatches (n + 1) s := by
  induction n with
  | zero =>
      obtain ⟨s, hstep, hcounted⟩ := exists_countedBatches_one
      exact ⟨s, run_cons_eq_some_iff.mpr ⟨s, hstep, rfl⟩, hcounted⟩
  | succ n ih =>
      obtain ⟨s, hrun, hcounted⟩ := ih (by omega)
      obtain ⟨s', hstep, hcounted'⟩ := hcounted.exists_step (Nat.succ_pos n) hn
      rw [List.replicate_succ']
      exact ⟨s', run_concat_of_eq_some hrun hstep, hcounted'⟩

theorem not_emitsSlice_oneBatch : ∃ s,
    run (skipLimitStep (overReducer batches (some 1) none)) (initial (reducers oneBatch))
      (List.replicate (2 ^ 21) ()) = some s ∧ (inputs s.skipLog).length = 2 ^ 32 ∧
        ¬EmitsSlice (overReducer batches (some 1) none) (reducers oneBatch) s := by
  obtain ⟨s, hrun, hcounted⟩ := exists_countedBatches (2 ^ 21 - 1) (by decide)
  rw [Nat.sub_add_cancel (by decide : 1 ≤ 2 ^ 21)] at hrun hcounted
  obtain ⟨f, hf, hbefore, hlength⟩ := hcounted.last
  refine ⟨s, hrun, hcounted.length_inputs, fun hslice ↦ ?_⟩
  have hfit := (SkipsAndLimits.of_run (MultiplicityReducer.reduced_getNextTuples batches)
    hrun).slice_iff.mp hslice 1 rfl f hf
  rw [SkipsWell, hlength] at hfit
  omega

end Runs

end Graphflow.Processor
