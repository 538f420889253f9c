import Graphflow.Lib.Transition
import Graphflow.Transaction.Manager

/-!
# Concurrent calls of the transaction manager

Any number of clients call the public functions of one `TransactionManager`.  Each client is at a
program point inside the function it has called; an action either makes an idle client call a
function or performs the next atomic step of a client: locking or unlocking a mutex, running the
body that the mutexes protect, or one turn of the polling loop.  A step that needs a mutex held by
another client, or by the client itself, is not enabled.

The history of the observable events is recorded beside the state.  No step reads it.
-/

namespace Graphflow.TransactionSystem

open Wal

/-- The functions that take a transaction and lock only
`mtxForSerializingPublicFunctionCalls`. -/
inductive FinishCall
  | commit
  | rollback
  | commitButKeepActiveWriteTransaction
  | manuallyClearActiveWriteTransaction
  deriving DecidableEq, Repr

def FinishCall.body (call : FinishCall) (m : TransactionManager) (log : Log) (t : Transaction) :
    Except String (TransactionManager × Log) :=
  match call with
  | .commit => m.commit log t
  | .rollback => m.rollback log t
  | .commitButKeepActiveWriteTransaction => m.commitButKeepActiveWriteTransaction log t
  | .manuallyClearActiveWriteTransaction => m.manuallyClearActiveWriteTransaction log t

inductive Call
  | begin (type : TransactionType)
  | finish (call : FinishCall) (t : Transaction)
  | stopNewTransactionsAndWaitUntilAllReadTransactionsLeave
  | allowReceivingNewTransactions
  deriving DecidableEq, Repr

/-- Where a client is.  `Starting` stands for `mtxForStartingNewTransactions` and `Public` for
`mtxForSerializingPublicFunctionCalls`. -/
inductive ProgramPoint
  | idle
  | beginLockStarting (type : TransactionType)
  | beginLockPublic (type : TransactionType)
  | beginBody (type : TransactionType)
  | beginUnlockPublic
  | beginUnlockStarting
  | finishLockPublic (call : FinishCall) (t : Transaction)
  | finishBody (call : FinishCall) (t : Transaction)
  | finishUnlockPublic
  | stopLockPublic
  | stopLockStarting
  | stopPoll (numTimesWaited : ℕ)
  | stopUnlockPublic (timedOut : Bool)
  | allowUnlockStarting
  deriving DecidableEq, Repr

/-- Observable events.  `ended` is recorded when the manager stops counting the transaction as
active, `stopped` when the stop function returns normally and `timedOut` when it throws. -/
inductive Event (Client : Type*)
  | began (c : Client) (t : Transaction)
  | ended (t : Transaction)
  | raised (c : Client) (message : String)
  | stopped (c : Client)
  | timedOut (c : Client)
  | allowed (c : Client)
  deriving DecidableEq, Repr

structure State (Client : Type*) where
  manager : TransactionManager
  log : Log
  startingOwner : Option Client
  publicOwner : Option Client
  programPoint : Client → ProgramPoint
  history : List (Event Client)

inductive Action (Client : Type*)
  | call (c : Client) (call : Call)
  | advance (c : Client)
  deriving DecidableEq, Repr

variable {Client : Type*}

/-- No client has called anything yet.  The waiting time is the one configured by
`setCheckPointWaitTimeoutForTransactionsToLeaveInMicros`. -/
def initial (timeout : ℕ) (log : Log) : State Client where
  manager := { checkPointWaitTimeoutForTransactionsToLeaveInMicros := timeout }
  log := log
  startingOwner := none
  publicOwner := none
  programPoint := fun _ ↦ .idle
  history := []

variable [DecidableEq Client]

def State.goTo (s : State Client) (c : Client) (p : ProgramPoint) : State Client :=
  { s with programPoint := Function.update s.programPoint c p }

def State.record (s : State Client) (e : Event Client) : State Client :=
  { s with history := s.history ++ [e] }

def lockStarting (s : State Client) (c : Client) : Option (State Client) :=
  if s.startingOwner = none then some { s with startingOwner := some c } else none

def lockPublic (s : State Client) (c : Client) : Option (State Client) :=
  if s.publicOwner = none then some { s with publicOwner := some c } else none

def unlockStarting (s : State Client) : State Client := { s with startingOwner := none }

def unlockPublic (s : State Client) : State Client := { s with publicOwner := none }

/-- The transactions handed out so far, in the order in which they began. -/
def issued (h : List (Event Client)) : List Transaction :=
  h.filterMap fun
    | .began _ t => some t
    | _ => none

/-- A call is possible while the client is idle.  Transactions can only come from a begin call,
and unlocking a `std::mutex` is defined only for the thread that has locked it, as the declaration
of `allowReceivingNewTransactions` demands. -/
def Callable (s : State Client) (c : Client) : Call → Prop
  | .begin _ => True
  | .finish _ t => t ∈ issued s.history
  | .stopNewTransactionsAndWaitUntilAllReadTransactionsLeave => True
  | .allowReceivingNewTransactions => s.startingOwner = some c

instance (s : State Client) (c : Client) (call : Call) : Decidable (Callable s c call) := by
  cases call <;> simp only [Callable] <;> infer_instance

def Call.entry : Call → ProgramPoint
  | .begin type => .beginLockStarting type
  | .finish call t => .finishLockPublic call t
  | .stopNewTransactionsAndWaitUntilAllReadTransactionsLeave => .stopLockPublic
  | .allowReceivingNewTransactions => .allowUnlockStarting

/-- An exception thrown by a body leaves through the destructors of the locks, so both outcomes
continue at the unlocking points. -/
def State.beginBody (s : State Client) (c : Client) (type : TransactionType) : State Client :=
  match s.manager.beginTransaction type with
  | .ok (m, t) => { s with manager := m }.record (.began c t)
  | .error message => s.record (.raised c message)

/-- Whether a call that does not throw makes the manager forget the transaction. -/
def FinishCall.endsTransaction (call : FinishCall) (t : Transaction) : Bool :=
  match t.type with
  | .readOnly => call ≠ .manuallyClearActiveWriteTransaction
  | .write => call ≠ .commitButKeepActiveWriteTransaction

def State.finishBody (s : State Client) (c : Client) (call : FinishCall) (t : Transaction) :
    State Client :=
  match call.body s.manager s.log t with
  | .ok (m, log) =>
      let s := { s with manager := m, log := log }
      if call.endsTransaction t then s.record (.ended t) else s
  | .error message => s.record (.raised c message)

/-- The next atomic step of a client. -/
def advance (s : State Client) (c : Client) : Option (State Client) :=
  match s.programPoint c with
  | .idle => none
  | .beginLockStarting type => (lockStarting s c).map (·.goTo c (.beginLockPublic type))
  | .beginLockPublic type => (lockPublic s c).map (·.goTo c (.beginBody type))
  | .beginBody type => some ((s.beginBody c type).goTo c .beginUnlockPublic)
  | .beginUnlockPublic => some ((unlockPublic s).goTo c .beginUnlockStarting)
  | .beginUnlockStarting => some ((unlockStarting s).goTo c .idle)
  | .finishLockPublic call t => (lockPublic s c).map (·.goTo c (.finishBody call t))
  | .finishBody call t => some ((s.finishBody c call t).goTo c .finishUnlockPublic)
  | .finishUnlockPublic => some ((unlockPublic s).goTo c .idle)
  | .stopLockPublic => (lockPublic s c).map (·.goTo c .stopLockStarting)
  | .stopLockStarting => (lockStarting s c).map (·.goTo c (.stopPoll 0))
  | .stopPoll numTimesWaited =>
      match s.manager.pollReadTransactions numTimesWaited with
      | .wait n => some (s.goTo c (.stopPoll n))
      | .timeout message => some ((s.record (.raised c message)).goTo c (.stopUnlockPublic true))
      | .left => some (s.goTo c (.stopUnlockPublic false))
  | .stopUnlockPublic timedOut =>
      -- `mtxForStartingNewTransactions` stays locked on both ways out.
      some (((unlockPublic s).record (if timedOut then .timedOut c else .stopped c)).goTo c .idle)
  | .allowUnlockStarting => some (((unlockStarting s).record (.allowed c)).goTo c .idle)

def step (s : State Client) : Action Client → Option (State Client)
  | .call c call =>
      if s.programPoint c = .idle ∧ Callable s c call then some (s.goTo c call.entry) else none
  | .advance c => advance s c

def Reachable (s : State Client) : Prop :=
  ∃ (timeout : ℕ) (log : Log) (actions : List (Action Client)),
    Lib.run step (initial timeout log) actions = some s

/-! ## What a step can do -/

/-- The client is inside a region protected by `Public`. -/
def ProgramPoint.holdsPublic : ProgramPoint → Bool
  | .beginBody _ | .beginUnlockPublic | .finishBody _ _ | .finishUnlockPublic | .stopLockStarting
  | .stopPoll _ | .stopUnlockPublic _ => true
  | _ => false

/-- The client is at a point that it only reaches with `Starting` locked.  A client that has
returned from the stop function holds `Starting` at other points as well. -/
def ProgramPoint.holdsStarting : ProgramPoint → Bool
  | .beginLockPublic _ | .beginBody _ | .beginUnlockPublic | .beginUnlockStarting | .stopPoll _
  | .stopUnlockPublic _ | .allowUnlockStarting => true
  | _ => false

def ProgramPoint.waitsForPublic : ProgramPoint → Bool
  | .beginLockPublic _ | .finishLockPublic _ _ | .stopLockPublic => true
  | _ => false

def ProgramPoint.waitsForStarting : ProgramPoint → Bool
  | .beginLockStarting _ | .stopLockStarting => true
  | _ => false

/-- The transitions of one client, one constructor for each way a step can end. -/
inductive Advances (s : State Client) (c : Client) : State Client → Prop
  | beginLockStarting (type : TransactionType)
      (hpoint : s.programPoint c = .beginLockStarting type) (hfree : s.startingOwner = none) :
      Advances s c ({ s with startingOwner := some c }.goTo c (.beginLockPublic type))
  | beginLockPublic (type : TransactionType)
      (hpoint : s.programPoint c = .beginLockPublic type) (hfree : s.publicOwner = none) :
      Advances s c ({ s with publicOwner := some c }.goTo c (.beginBody type))
  | beginBody (type : TransactionType) (hpoint : s.programPoint c = .beginBody type) :
      Advances s c ((s.beginBody c type).goTo c .beginUnlockPublic)
  | beginUnlockPublic (hpoint : s.programPoint c = .beginUnlockPublic) :
      Advances s c ((unlockPublic s).goTo c .beginUnlockStarting)
  | beginUnlockStarting (hpoint : s.programPoint c = .beginUnlockStarting) :
      Advances s c ((unlockStarting s).goTo c .idle)
  | finishLockPublic (call : FinishCall) (t : Transaction)
      (hpoint : s.programPoint c = .finishLockPublic call t) (hfree : s.publicOwner = none) :
      Advances s c ({ s with publicOwner := some c }.goTo c (.finishBody call t))
  | finishBody (call : FinishCall) (t : Transaction)
      (hpoint : s.programPoint c = .finishBody call t) :
      Advances s c ((s.finishBody c call t).goTo c .finishUnlockPublic)
  | finishUnlockPublic (hpoint : s.programPoint c = .finishUnlockPublic) :
      Advances s c ((unlockPublic s).goTo c .idle)
  | stopLockPublic (hpoint : s.programPoint c = .stopLockPublic) (hfree : s.publicOwner = none) :
      Advances s c ({ s with publicOwner := some c }.goTo c .stopLockStarting)
  | stopLockStarting (hpoint : s.programPoint c = .stopLockStarting)
      (hfree : s.startingOwner = none) :
      Advances s c ({ s with startingOwner := some c }.goTo c (.stopPoll 0))
  | stopWait (n m : ℕ) (hpoint : s.programPoint c = .stopPoll n)
      (hpoll : s.manager.pollReadTransactions n = .wait m) :
      Advances s c (s.goTo c (.stopPoll m))
  | stopTimeout (n : ℕ) (message : String) (hpoint : s.programPoint c = .stopPoll n)
      (hpoll : s.manager.pollReadTransactions n = .timeout message) :
      Advances s c ((s.record (.raised c message)).goTo c (.stopUnlockPublic true))
  | stopLeft (n : ℕ) (hpoint : s.programPoint c = .stopPoll n)
      (hpoll : s.manager.pollReadTransactions n = .left) :
      Advances s c (s.goTo c (.stopUnlockPublic false))
  | stopUnlockPublic (timedOut : Bool) (hpoint : s.programPoint c = .stopUnlockPublic timedOut) :
      Advances s c
        (((unlockPublic s).record (if timedOut then .timedOut c else .stopped c)).goTo c .idle)
  | allowUnlockStarting (hpoint : s.programPoint c = .allowUnlockStarting) :
      Advances s c (((unlockStarting s).record (.allowed c)).goTo c .idle)

variable {s s' : State Client} {c d : Client}

omit [DecidableEq Client] in
theorem lockStarting_eq_some_iff :
    lockStarting s c = some s' ↔
      s.startingOwner = none ∧ { s with startingOwner := some c } = s' := by
  simp [lockStarting]

omit [DecidableEq Client] in
theorem lockPublic_eq_some_iff :
    lockPublic s c = some s' ↔ s.publicOwner = none ∧ { s with publicOwner := some c } = s' := by
  simp [lockPublic]

theorem advances_of_advance (hstep : advance s c = some s') : Advances s c s' := by
  cases hpoint : s.programPoint c with
  | idle => simp [advance, hpoint] at hstep
  | beginLockStarting type =>
      simp only [advance, hpoint, Option.map_eq_some_iff, lockStarting_eq_some_iff] at hstep
      obtain ⟨_, ⟨hfree, rfl⟩, rfl⟩ := hstep
      exact .beginLockStarting type hpoint hfree
  | beginLockPublic type =>
      simp only [advance, hpoint, Option.map_eq_some_iff, lockPublic_eq_some_iff] at hstep
      obtain ⟨_, ⟨hfree, rfl⟩, rfl⟩ := hstep
      exact .beginLockPublic type hpoint hfree
  | beginBody type =>
      obtain rfl : _ = s' := by simpa [advance, hpoint] using hstep
      exact .beginBody type hpoint
  | beginUnlockPublic =>
      obtain rfl : _ = s' := by simpa [advance, hpoint] using hstep
      exact .beginUnlockPublic hpoint
  | beginUnlockStarting =>
      obtain rfl : _ = s' := by simpa [advance, hpoint] using hstep
      exact .beginUnlockStarting hpoint
  | finishLockPublic call t =>
      simp only [advance, hpoint, Option.map_eq_some_iff, lockPublic_eq_some_iff] at hstep
      obtain ⟨_, ⟨hfree, rfl⟩, rfl⟩ := hstep
      exact .finishLockPublic call t hpoint hfree
  | finishBody call t =>
      obtain rfl : _ = s' := by simpa [advance, hpoint] using hstep
      exact .finishBody call t hpoint
  | finishUnlockPublic =>
      obtain rfl : _ = s' := by simpa [advance, hpoint] using hstep
      exact .finishUnlockPublic hpoint
  | stopLockPublic =>
      simp only [advance, hpoint, Option.map_eq_some_iff, lockPublic_eq_some_iff] at hstep
      obtain ⟨_, ⟨hfree, rfl⟩, rfl⟩ := hstep
      exact .stopLockPublic hpoint hfree
  | stopLockStarting =>
      simp only [advance, hpoint, Option.map_eq_some_iff, lockStarting_eq_some_iff] at hstep
      obtain ⟨_, ⟨hfree, rfl⟩, rfl⟩ := hstep
      exact .stopLockStarting hpoint hfree
  | stopPoll n =>
      cases hpoll : s.manager.pollReadTransactions n with
      | wait m =>
          obtain rfl : _ = s' := by simpa [advance, hpoint, hpoll] using hstep
          exact .stopWait n m hpoint hpoll
      | timeout message =>
          obtain rfl : _ = s' := by simpa [advance, hpoint, hpoll] using hstep
          exact .stopTimeout n message hpoint hpoll
      | left =>
          obtain rfl : _ = s' := by simpa [advance, hpoint, hpoll] using hstep
          exact .stopLeft n hpoint hpoll
  | stopUnlockPublic timedOut =>
      obtain rfl : _ = s' := by simpa [advance, hpoint] using hstep
      exact .stopUnlockPublic timedOut hpoint
  | allowUnlockStarting =>
      obtain rfl : _ = s' := by simpa [advance, hpoint] using hstep
      exact .allowUnlockStarting hpoint

theorem step_call_eq_some_iff {call : Call} :
    step s (.call c call) = some s' ↔
      (s.programPoint c = .idle ∧ Callable s c call) ∧ s.goTo c call.entry = s' := by
  simp [step]

@[simp] theorem goTo_manager (p : ProgramPoint) : (s.goTo c p).manager = s.manager := rfl

@[simp] theorem goTo_log (p : ProgramPoint) : (s.goTo c p).log = s.log := rfl

@[simp] theorem goTo_startingOwner (p : ProgramPoint) :
    (s.goTo c p).startingOwner = s.startingOwner := rfl

@[simp] theorem goTo_publicOwner (p : ProgramPoint) :
    (s.goTo c p).publicOwner = s.publicOwner := rfl

@[simp] theorem goTo_history (p : ProgramPoint) : (s.goTo c p).history = s.history := rfl

@[simp] theorem goTo_programPoint_self (p : ProgramPoint) : (s.goTo c p).programPoint c = p := by
  simp [State.goTo]

theorem goTo_programPoint_of_ne (p : ProgramPoint) (hdc : d ≠ c) :
    (s.goTo c p).programPoint d = s.programPoint d := by
  simp [State.goTo, hdc]

omit [DecidableEq Client] in
@[simp] theorem record_manager (e : Event Client) : (s.record e).manager = s.manager := rfl

omit [DecidableEq Client] in
@[simp] theorem record_log (e : Event Client) : (s.record e).log = s.log := rfl

omit [DecidableEq Client] in
@[simp] theorem record_startingOwner (e : Event Client) :
    (s.record e).startingOwner = s.startingOwner := rfl

omit [DecidableEq Client] in
@[simp] theorem record_publicOwner (e : Event Client) :
    (s.record e).publicOwner = s.publicOwner := rfl

omit [DecidableEq Client] in
@[simp] theorem record_programPoint (e : Event Client) :
    (s.record e).programPoint = s.programPoint := rfl

omit [DecidableEq Client] in
@[simp] theorem record_history (e : Event Client) : (s.record e).history = s.history ++ [e] := rfl

omit [DecidableEq Client] in
@[simp] theorem beginBody_startingOwner (type : TransactionType) :
    (s.beginBody c type).startingOwner = s.startingOwner := by
  unfold State.beginBody
  split <;> rfl

omit [DecidableEq Client] in
@[simp] theorem beginBody_publicOwner (type : TransactionType) :
    (s.beginBody c type).publicOwner = s.publicOwner := by
  unfold State.beginBody
  split <;> rfl

omit [DecidableEq Client] in
@[simp] theorem beginBody_programPoint (type : TransactionType) :
    (s.beginBody c type).programPoint = s.programPoint := by
  unfold State.beginBody
  split <;> rfl

omit [DecidableEq Client] in
@[simp] theorem finishBody_startingOwner (call : FinishCall) (t : Transaction) :
    (s.finishBody c call t).startingOwner = s.startingOwner := by
  unfold State.finishBody
  split
  · dsimp only
    split <;> rfl
  · rfl

omit [DecidableEq Client] in
@[simp] theorem finishBody_publicOwner (call : FinishCall) (t : Transaction) :
    (s.finishBody c call t).publicOwner = s.publicOwner := by
  unfold State.finishBody
  split
  · dsimp only
    split <;> rfl
  · rfl

omit [DecidableEq Client] in
@[simp] theorem finishBody_programPoint (call : FinishCall) (t : Transaction) :
    (s.finishBody c call t).programPoint = s.programPoint := by
  unfold State.finishBody
  split
  · dsimp only
    split <;> rfl
  · rfl

/-! ## Who holds the mutexes -/

theorem Advances.programPoint_of_ne (hstep : Advances s c s') (hdc : d ≠ c) :
    s'.programPoint d = s.programPoint d := by
  cases hstep <;> simp [goTo_programPoint_of_ne _ hdc, unlockPublic, unlockStarting]

/-- A step locks `Public`, unlocks it, or leaves it alone. -/
theorem Advances.public_effect (hstep : Advances s c s') :
    (s.publicOwner = none ∧ s'.publicOwner = some c ∧ (s'.programPoint c).holdsPublic) ∨
    ((s.programPoint c).holdsPublic ∧ s'.publicOwner = none ∧
      ¬ (s'.programPoint c).holdsPublic) ∨
    (s'.publicOwner = s.publicOwner ∧
      (s'.programPoint c).holdsPublic = (s.programPoint c).holdsPublic) := by
  cases hstep <;> simp_all [unlockPublic, unlockStarting, ProgramPoint.holdsPublic]

/-- A step locks `Starting`, unlocks it, or leaves it alone. -/
theorem Advances.starting_effect (hstep : Advances s c s') :
    (s.startingOwner = none ∧ s'.startingOwner = some c ∧ (s.programPoint c).waitsForStarting) ∨
    ((s.programPoint c).holdsStarting ∧ s'.startingOwner = none ∧
      ¬ (s'.programPoint c).holdsStarting) ∨
    (s'.startingOwner = s.startingOwner ∧
      ((s'.programPoint c).holdsStarting → (s.programPoint c).holdsStarting)) := by
  cases hstep <;>
    simp_all [unlockPublic, unlockStarting, ProgramPoint.holdsStarting,
      ProgramPoint.waitsForStarting]

/-- Only the holder of `Public` touches the manager. -/
theorem Advances.manager_eq (hstep : Advances s c s') (hc : ¬ (s.programPoint c).holdsPublic) :
    s'.manager = s.manager := by
  cases hstep <;> simp_all [ProgramPoint.holdsPublic, unlockStarting]

/-- The owner fields agree with the program points. -/
structure Ownership (s : State Client) : Prop where
  publicOwner_iff : ∀ c, s.publicOwner = some c ↔ (s.programPoint c).holdsPublic
  startingOwner_of_holds : ∀ c, (s.programPoint c).holdsStarting → s.startingOwner = some c

omit [DecidableEq Client] in
theorem ownership_initial (timeout : ℕ) (log : Log) :
    Ownership (initial timeout log : State Client) := by
  constructor <;> simp [initial, ProgramPoint.holdsPublic, ProgramPoint.holdsStarting]

omit [DecidableEq Client] in
theorem Ownership.eq_of_holdsPublic (hs : Ownership s) (hc : (s.programPoint c).holdsPublic)
    (hd : (s.programPoint d).holdsPublic) : d = c := by
  have hcd := ((hs.publicOwner_iff c).mpr hc).symm.trans ((hs.publicOwner_iff d).mpr hd)
  exact (Option.some.inj hcd).symm

omit [DecidableEq Client] in
theorem Ownership.eq_of_holdsStarting (hs : Ownership s) (hc : (s.programPoint c).holdsStarting)
    (hd : s.startingOwner = some d) : d = c := by
  have hcd := (hs.startingOwner_of_holds c hc).symm.trans hd
  exact (Option.some.inj hcd).symm

theorem Ownership.advances (hs : Ownership s) (hstep : Advances s c s') : Ownership s' := by
  have hpub := hs.publicOwner_iff
  have hstart := hs.startingOwner_of_holds
  constructor
  · intro d
    by_cases hdc : d = c
    · subst hdc
      rcases hstep.public_effect with ⟨_, how, hpt⟩ | ⟨_, how, hpt⟩ | ⟨how, hpt⟩
      · simp [how, hpt]
      · simp [how, hpt]
      · rw [how, hpt]
        exact hpub d
    · rw [hstep.programPoint_of_ne hdc]
      rcases hstep.public_effect with ⟨hfree, how, _⟩ | ⟨hheld, how, _⟩ | ⟨how, _⟩
      · have hd : ¬ (s.programPoint d).holdsPublic := by simp [← hpub d, hfree]
        simp [how, hd, Ne.symm hdc]
      · have hd : ¬ (s.programPoint d).holdsPublic :=
          fun hd ↦ hdc (hs.eq_of_holdsPublic hheld hd)
        simp [how, hd]
      · rw [how]
        exact hpub d
  · intro d hd
    by_cases hdc : d = c
    · subst hdc
      rcases hstep.starting_effect with ⟨_, how, _⟩ | ⟨_, _, hpt⟩ | ⟨how, hpt⟩
      · exact how
      · exact absurd hd hpt
      · rw [how]
        exact hstart d (hpt hd)
    · rw [hstep.programPoint_of_ne hdc] at hd
      rcases hstep.starting_effect with ⟨hfree, _, _⟩ | ⟨hheld, _, _⟩ | ⟨how, _⟩
      · simp [hstart d hd] at hfree
      · exact absurd (hs.eq_of_holdsStarting hheld (hstart d hd)) hdc
      · rw [how]
        exact hstart d hd

theorem Ownership.call {call : Call} (hs : Ownership s) (hidle : s.programPoint c = .idle)
    (hcall : Callable s c call) : Ownership (s.goTo c call.entry) := by
  have hpub := hs.publicOwner_iff c
  constructor
  · intro d
    by_cases hdc : d = c
    · subst hdc
      rw [hidle] at hpub
      cases call <;> simpa [Call.entry, ProgramPoint.holdsPublic] using hpub
    · rw [goTo_programPoint_of_ne _ hdc]
      exact hs.publicOwner_iff d
  · intro d hd
    by_cases hdc : d = c
    · subst hdc
      cases call <;> simp_all [Call.entry, ProgramPoint.holdsStarting, Callable]
    · rw [goTo_programPoint_of_ne _ hdc] at hd
      exact hs.startingOwner_of_holds d hd

end Graphflow.TransactionSystem
