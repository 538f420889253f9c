import Graphflow.Lib.WaitGraph
import Graphflow.Transaction.System

/-!
# Clients that wait for each other

The begin functions lock `Starting` before `Public`, the stop function locks `Public` before
`Starting` and keeps it while it polls.  This file describes the runs in which the two orders do
not meet, and shows that these runs never reach a cycle of waiting clients nor a writer that
polls for a reader which cannot leave.
-/

namespace Graphflow.TransactionSystem

open Wal

variable {Client : Type*} {s s' : State Client} {c d : Client}

/-- Client `c` is about to lock a mutex that client `d` holds. -/
def WaitsFor (s : State Client) (c d : Client) : Prop :=
  ((s.programPoint c).waitsForStarting ∧ s.startingOwner = some d) ∨
  ((s.programPoint c).waitsForPublic ∧ s.publicOwner = some d)

variable [DecidableEq Client]

/-- While some writer polls, a commit or rollback call of an active reader can take its lock,
whether the call has been made already or is made now by an idle client. -/
def ReadersCanLeave (s : State Client) : Prop :=
  ∀ writer n, s.programPoint writer = .stopPoll n →
    ∀ ID ∈ s.manager.activeReadOnlyTransactionIDs, ∀ reader call,
      call = FinishCall.commit ∨ call = FinishCall.rollback →
        (s.programPoint reader = .finishLockPublic call ⟨.readOnly, ID⟩ →
          (step s (.advance reader)).isSome) ∧
        (s.programPoint reader = .idle →
          (Lib.run step s
            [.call reader (.finish call ⟨.readOnly, ID⟩), .advance reader]).isSome)

/-- Some stop call has locked `Public` and not yet `Starting`. -/
def StopBetweenLocks (s : State Client) : Prop := ∃ c, s.programPoint c = .stopLockStarting

/-- The condition on a single action under which the lock orders do not meet: a stop call locks
`Public` only while no read-only transaction is active and the holder of `Starting`, if there is
one, is not about to lock a mutex; while a stop call is between its two locks no begin call locks
`Starting` and the holder of `Starting` calls nothing but `allowReceivingNewTransactions`; and the
holder of `Starting` does not call a begin function. -/
def LocksInOrder (s : State Client) : Action Client → Prop
  | .call c call =>
      s.startingOwner = some c →
        (∀ type, call ≠ .begin type) ∧
        (StopBetweenLocks s → call = .allowReceivingNewTransactions)
  | .advance c =>
      (s.programPoint c = .stopLockPublic →
        s.manager.activeReadOnlyTransactionIDs = ∅ ∧
        ∀ d, s.startingOwner = some d →
          ¬ (s.programPoint d).waitsForPublic ∧ ¬ (s.programPoint d).waitsForStarting) ∧
      (∀ type, s.programPoint c = .beginLockStarting type → ¬ StopBetweenLocks s)

/-- What runs that lock in order maintain, beside the ownership of the mutexes. -/
structure Ordered (s : State Client) : Prop extends Ownership s where
  beginner_not_owner : ∀ c type, s.programPoint c = .beginLockStarting type →
    s.startingOwner ≠ some c
  owner_not_waiting : StopBetweenLocks s → ∀ d, s.startingOwner = some d →
    ¬ (s.programPoint d).waitsForPublic ∧ ¬ (s.programPoint d).waitsForStarting
  no_reader_while_stopping : ∀ c, s.programPoint c = .stopLockStarting ∨
    (∃ n, s.programPoint c = .stopPoll n) → s.manager.activeReadOnlyTransactionIDs = ∅

/-! ## Steps and the stop function -/

theorem Advances.ne_beginLockStarting (hstep : Advances s c s') (type : TransactionType) :
    s'.programPoint c ≠ .beginLockStarting type := by
  cases hstep <;> simp

theorem Advances.of_stopLockStarting (hstep : Advances s c s')
    (hpoint : s'.programPoint c = .stopLockStarting) :
    s.programPoint c = .stopLockPublic ∧ s'.startingOwner = s.startingOwner ∧
      s'.manager = s.manager := by
  cases hstep <;> simp_all

theorem Advances.of_stopPoll {n : ℕ} (hstep : Advances s c s')
    (hpoint : s'.programPoint c = .stopPoll n) :
    (s.programPoint c = .stopLockStarting ∨ ∃ m, s.programPoint c = .stopPoll m) ∧
      s'.manager = s.manager := by
  cases hstep <;> simp_all

/-- A client that holds neither `Public` nor waits for a mutex can only be about to release
`Starting`. -/
theorem Advances.startingOwner_eq_none (hstep : Advances s c s')
    (hpublic : ¬ (s.programPoint c).holdsPublic)
    (hwait : ¬ (s.programPoint c).waitsForPublic ∧ ¬ (s.programPoint c).waitsForStarting) :
    s'.startingOwner = none := by
  cases hstep <;>
    simp_all [ProgramPoint.holdsPublic, ProgramPoint.waitsForPublic,
      ProgramPoint.waitsForStarting, unlockStarting]

omit [DecidableEq Client] in
theorem stopLockStarting_holdsPublic (hpoint : s.programPoint c = .stopLockStarting) :
    (s.programPoint c).holdsPublic := by
  simp [hpoint, ProgramPoint.holdsPublic]

omit [DecidableEq Client] in
/-- A client that waits for `Starting` is either beginning or stopping. -/
theorem waitsForStarting_cases (hwait : (s.programPoint c).waitsForStarting) :
    (∃ type, s.programPoint c = .beginLockStarting type) ∨
      s.programPoint c = .stopLockStarting := by
  cases hpoint : s.programPoint c <;> simp_all [ProgramPoint.waitsForStarting]

/-! ## Preservation -/

omit [DecidableEq Client] in
theorem ordered_initial (timeout : ℕ) (log : Log) :
    Ordered (initial timeout log : State Client) where
  toOwnership := ownership_initial timeout log
  beginner_not_owner := by simp [initial]
  owner_not_waiting := by simp [initial]
  no_reader_while_stopping := by simp [initial]

theorem Ordered.advances (hs : Ordered s) (hlocks : LocksInOrder s (.advance c))
    (hstep : Advances s c s') : Ordered s' := by
  refine ⟨hs.toOwnership.advances hstep, ?_, ?_, ?_⟩
  · intro d type hpoint howner
    have hdc : d ≠ c := by
      rintro rfl
      exact hstep.ne_beginLockStarting type hpoint
    rw [hstep.programPoint_of_ne hdc] at hpoint
    rcases hstep.starting_effect with ⟨_, hown, _⟩ | ⟨_, hown, _⟩ | ⟨hown, _⟩
    · rw [howner, Option.some.injEq] at hown
      exact hdc hown
    · simp [howner] at hown
    · exact hs.beginner_not_owner d type hpoint (hown ▸ howner)
  · rintro ⟨b, hb⟩ d howner
    by_cases hbc : b = c
    · subst hbc
      obtain ⟨hlock, hown, -⟩ := hstep.of_stopLockStarting hb
      have hd := (hlocks.1 hlock).2 d (hown ▸ howner)
      have hdb : d ≠ b := by
        rintro rfl
        simp [hlock, ProgramPoint.waitsForPublic] at hd
      rwa [hstep.programPoint_of_ne hdb]
    · rw [hstep.programPoint_of_ne hbc] at hb
      -- `b` holds `Public`, so `c` is outside every protected region.
      have hc : ¬ (s.programPoint c).holdsPublic := fun hc ↦
        hbc (hs.eq_of_holdsPublic hc (stopLockStarting_holdsPublic hb))
      rcases hstep.starting_effect with ⟨_, _, hwait⟩ | ⟨_, hown, _⟩ | ⟨hown, _⟩
      · rcases waitsForStarting_cases hwait with ⟨type, hbegin⟩ | hstop
        · exact absurd ⟨b, hb⟩ (hlocks.2 type hbegin)
        · exact absurd (stopLockStarting_holdsPublic hstop) hc
      · simp [hown] at howner
      · have hd := hs.owner_not_waiting ⟨b, hb⟩ d (hown ▸ howner)
        by_cases hdc : d = c
        · subst hdc
          simp [hstep.startingOwner_eq_none hc hd] at howner
        · rwa [hstep.programPoint_of_ne hdc]
  · intro d hd
    by_cases hdc : d = c
    · subst hdc
      rcases hd with hd | ⟨n, hd⟩
      · obtain ⟨hlock, -, hmanager⟩ := hstep.of_stopLockStarting hd
        rw [hmanager]
        exact (hlocks.1 hlock).1
      · obtain ⟨hprev, hmanager⟩ := hstep.of_stopPoll hd
        rw [hmanager]
        exact hs.no_reader_while_stopping d hprev
    · rw [hstep.programPoint_of_ne hdc] at hd
      have hpublic : (s.programPoint d).holdsPublic := by
        rcases hd with hd | ⟨n, hd⟩ <;> simp [hd, ProgramPoint.holdsPublic]
      have hc : ¬ (s.programPoint c).holdsPublic := fun hc ↦
        hdc (hs.eq_of_holdsPublic hc hpublic)
      rw [hstep.manager_eq hc]
      exact hs.no_reader_while_stopping d hd

theorem Ordered.call {call : Call} (hs : Ordered s) (hlocks : LocksInOrder s (.call c call))
    (hidle : s.programPoint c = .idle) (hcall : Callable s c call) :
    Ordered (s.goTo c call.entry) := by
  have hstop : ∀ b, (s.goTo c call.entry).programPoint b = .stopLockStarting →
      b ≠ c ∧ s.programPoint b = .stopLockStarting := by
    intro b hb
    have hbc : b ≠ c := by
      rintro rfl
      cases call <;> simp [Call.entry] at hb
    rw [goTo_programPoint_of_ne _ hbc] at hb
    exact ⟨hbc, hb⟩
  refine ⟨hs.toOwnership.call hidle hcall, ?_, ?_, ?_⟩
  · intro d type hpoint howner
    by_cases hdc : d = c
    · subst hdc
      have hne := (hlocks howner).1 type
      cases call <;> simp_all [Call.entry]
    · rw [goTo_programPoint_of_ne _ hdc] at hpoint
      exact hs.beginner_not_owner d type hpoint howner
  · rintro ⟨b, hb⟩ d howner
    have hb' := (hstop b hb).2
    by_cases hdc : d = c
    · subst hdc
      rw [(hlocks howner).2 ⟨b, hb'⟩]
      simp [Call.entry, ProgramPoint.waitsForPublic, ProgramPoint.waitsForStarting]
    · rw [goTo_programPoint_of_ne _ hdc]
      exact hs.owner_not_waiting ⟨b, hb'⟩ d howner
  · intro d hd
    have hdc : d ≠ c := by
      rintro rfl
      cases call <;> simp [Call.entry] at hd
    rw [goTo_programPoint_of_ne _ hdc] at hd
    exact hs.no_reader_while_stopping d hd

theorem Ordered.step {a : Action Client} (hs : Ordered s) (hlocks : LocksInOrder s a)
    (hstep : step s a = some s') : Ordered s' := by
  cases a with
  | call c call =>
      obtain ⟨⟨hidle, hcall⟩, rfl⟩ := step_call_eq_some_iff.mp hstep
      exact hs.call hlocks hidle hcall
  | advance c => exact hs.advances hlocks (advances_of_advance hstep)

/-! ## No cycle of waiting clients -/

omit [DecidableEq Client] in
/-- While a stop call is between its locks, everybody may wait for it and it waits for a client
that waits for nobody. -/
theorem Ordered.not_hasCycle_of_stop (hs : Ordered s) (hstop : StopBetweenLocks s) :
    ¬ Lib.HasCycle (WaitsFor s) := by
  obtain ⟨b, hb⟩ := hstop
  have hpublic := (hs.publicOwner_iff b).mpr (stopLockStarting_holdsPublic hb)
  apply Lib.not_hasCycle_of_rank fun c ↦
    if (s.programPoint c).waitsForPublic then 2
    else if (s.programPoint c).waitsForStarting then 1 else 0
  rintro c d (⟨hwait, howner⟩ | ⟨hwait, howner⟩)
  · obtain ⟨hd₁, hd₂⟩ := hs.owner_not_waiting ⟨b, hb⟩ d howner
    grind
  · obtain rfl : b = d := Option.some.inj (hpublic.symm.trans howner)
    have hd : ¬ (s.programPoint b).waitsForPublic := by simp [hb, ProgramPoint.waitsForPublic]
    grind

omit [DecidableEq Client] in
/-- Otherwise the holder of `Public` waits for nobody, and a holder of `Starting` only for it. -/
theorem Ordered.not_hasCycle_of_no_stop (hs : Ordered s) (hstop : ¬ StopBetweenLocks s) :
    ¬ Lib.HasCycle (WaitsFor s) := by
  apply Lib.not_hasCycle_of_rank fun c ↦
    if (s.programPoint c).waitsForStarting then 2
    else if (s.programPoint c).waitsForPublic then 1 else 0
  rintro c d (⟨hwait, howner⟩ | ⟨hwait, howner⟩)
  · have hd : ¬ (s.programPoint d).waitsForStarting := by
      intro hd
      rcases waitsForStarting_cases hd with ⟨type, hbegin⟩ | hd
      · exact hs.beginner_not_owner d type hbegin howner
      · exact hstop ⟨d, hd⟩
    grind
  · have hd : ¬ (s.programPoint d).waitsForStarting ∧ ¬ (s.programPoint d).waitsForPublic := by
      have hholds := (hs.publicOwner_iff d).mp howner
      have hne : s.programPoint d ≠ .stopLockStarting := fun h ↦ hstop ⟨d, h⟩
      cases hpoint : s.programPoint d <;>
        simp_all [ProgramPoint.holdsPublic, ProgramPoint.waitsForStarting,
          ProgramPoint.waitsForPublic]
    grind

omit [DecidableEq Client] in
theorem Ordered.not_hasCycle (hs : Ordered s) : ¬ Lib.HasCycle (WaitsFor s) := by
  by_cases hstop : StopBetweenLocks s
  · exact hs.not_hasCycle_of_stop hstop
  · exact hs.not_hasCycle_of_no_stop hstop

theorem Ordered.readersCanLeave (hs : Ordered s) : ReadersCanLeave s := by
  intro writer n hpoll ID hID
  simp [hs.no_reader_while_stopping writer (.inr ⟨n, hpoll⟩)] at hID

/-- Runs whose actions lock in order never get stuck. -/
theorem not_stuck_of_locksInOrder (timeout : ℕ) (log : Log) (actions : List (Action Client))
    (hlocks : Lib.MeetsAlong step LocksInOrder (initial timeout log) actions)
    (hrun : Lib.run step (initial timeout log) actions = some s) :
    ¬ Lib.HasCycle (WaitsFor s) ∧ ReadersCanLeave s := by
  have hs : Ordered s :=
    Lib.run_invariant_of_meets (fun _ _ _ hs hlocks hstep ↦ hs.step hlocks hstep)
      (ordered_initial timeout log) hlocks hrun
  exact ⟨hs.not_hasCycle, hs.readersCanLeave⟩

/-- A writer stops new transactions while a reader waits to begin. -/
def stopWhileReaderBegins : List (Action Bool) :=
  [.call false .stopNewTransactionsAndWaitUntilAllReadTransactionsLeave, .advance false,
    .advance false, .call true (.begin .readOnly), .advance false, .advance false]

theorem not_stuck_stopWhileReaderBegins :
    ∃ s : State Bool, Lib.run step (initial 5000000 []) stopWhileReaderBegins = some s ∧
      s.programPoint true = .beginLockStarting .readOnly ∧
      ¬ Lib.HasCycle (WaitsFor s) ∧ ReadersCanLeave s := by
  refine ⟨_, rfl, rfl, not_stuck_of_locksInOrder 5000000 [] stopWhileReaderBegins ?_ rfl⟩
  refine Lib.meetsAlong_cons_of_eq_some ?_ rfl <| Lib.meetsAlong_cons_of_eq_some ?_ rfl <|
    Lib.meetsAlong_cons_of_eq_some ?_ rfl <| Lib.meetsAlong_cons_of_eq_some ?_ rfl <|
    Lib.meetsAlong_cons_of_eq_some ?_ rfl <| Lib.meetsAlong_cons_of_eq_some ?_ rfl trivial
  · simp [LocksInOrder, initial]
  all_goals simp [LocksInOrder, initial, State.goTo, Call.entry]

/-- Without the condition a reader that begins and a writer that stops wait for each other, and a
reader that commits waits for the writer that polls for it to leave. -/
theorem stuck_states_reachable :
    ¬ (∀ s : State Bool, Reachable s → ¬ Lib.HasCycle (WaitsFor s)) ∧
    ¬ (∀ s : State Bool, Reachable s → ReadersCanLeave s) := by
  constructor
  · intro h
    refine h _ ⟨5000000, [], [.call false (.begin .readOnly), .advance false,
      .call true .stopNewTransactionsAndWaitUntilAllReadTransactionsLeave, .advance true], rfl⟩ ?_
    exact Lib.hasCycle_of_mutual (c := false) (d := true) (.inr ⟨rfl, rfl⟩) (.inl ⟨rfl, rfl⟩)
  · intro h
    have hleave := h _ ⟨5000000, [], [.call false (.begin .readOnly), .advance false,
      .advance false, .advance false, .advance false, .advance false,
      .call false (.finish .commit ⟨.readOnly, 1⟩),
      .call true .stopNewTransactionsAndWaitUntilAllReadTransactionsLeave, .advance true,
      .advance true], rfl⟩ true 0 rfl 1 (by decide) false .commit (.inl rfl)
    exact absurd (hleave.1 rfl) (by decide)

end Graphflow.TransactionSystem
