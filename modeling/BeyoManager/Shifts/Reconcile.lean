import BeyoManager.Library.Loop
import BeyoManager.Shifts.ShiftClosure

/-! # The live reconcile

Shifts that have outlived their work day are closed first, one after the other; each time the
next shift is opened from the earliest step that is still being worked. Then the open shift gets
the state that the open records of the worker stand for.
-/

namespace BeyoManager.Shifts

open Relational Transition
open TaskSteps (ClientId StepStateRecord TaskStepState)

/-- `derive_target_state`. -/
def deriveTargetState (openWorkingCount openDeclaredCount openPausedCount : ℕ) : UserShiftState :=
  if 1 ≤ openWorkingCount then .working
  else if 1 ≤ openDeclaredCount then .inPause
  else if 1 ≤ openPausedCount then .inPause
  else .idle

/-- `is_valid_shift_state_transition`. -/
def isValidShiftStateTransition (currentState targetState : UserShiftState) : Bool :=
  if currentState = .startedShift then targetState.isDurationful
  else if currentState.isDurationful then targetState.isDurationful || targetState == .endedShift
  else false

section StaleSweep

/-- The variables of the loop over stale shifts; `closed_stale` and `stale_paused_step_ids` are
read off the closures. -/
structure Sweep where
  db : Db
  current : Option UserShiftStateRecord
  shiftStartedAt : Option Instant
  autoClockedIn : Bool
  closures : List StaleShiftClosure
  deriving DecidableEq, Repr

/-- How the loop is left: with a shift, or because there is none and nothing is being worked. -/
inductive SweepEnd
  | shift (s : Sweep)
  | noShift (s : Sweep)
  deriving DecidableEq, Repr

/-- `stale_paused_step_ids`. -/
def Sweep.pausedStepIds (s : Sweep) : List ClientId :=
  s.closures.flatMap StaleShiftClosure.pausedStepIds

variable (ids : NewIds) (userId : ClientId) (now : Instant)

/-- Where the shift of an auto-clock-in starts: with the step, not before the last shift ended. -/
def Db.autoStart (db : Db) (userId : ClientId) (earliest : StepStateRecord) : Instant :=
  match db.lastEnd userId with
  | some latestEndedAt => max earliest.enteredAt latestEndedAt
  | none => earliest.enteredAt

def openFromSteps (s : Sweep) : Except CommandError (Sweep ⊕ SweepEnd) :=
  match s.db.loadOpenSteps userId [.working] none with
  | [] => pure (.inr (.noShift s))
  | earliest :: _ => do
    let shiftStartedAt := s.db.autoStart userId earliest
    let db ← s.db.insertShiftRecord (marker ids userId .startedShift shiftStartedAt none)
    let s := { s with db := db, autoClockedIn := true, shiftStartedAt := some shiftStartedAt }
    if isPastWorkDayEnd shiftStartedAt now then do
      let current := openIdleRecord ids userId shiftStartedAt none
      let db ← db.insertShiftRecord current
      pure (.inl { s with db := db, current := some current })
    else pure (.inr (.shift s))

def sweepRound (s : Sweep) : Except CommandError (Sweep ⊕ SweepEnd) :=
  match s.current with
  | none => openFromSteps ids userId now s
  | some current => do
    match ← closeStaleOpenShift s.db ids userId (some current) now with
    | none => pure (.inr (.shift s))
    | some (db, closure) =>
      openFromSteps ids userId now
        { db := db
          current := none
          shiftStartedAt := none
          autoClockedIn := false
          closures := s.closures ++ [closure] }

def Db.startSweep (db : Db) (userId : ClientId) : Sweep where
  db := db
  current := db.openShift userId
  shiftStartedAt := none
  autoClockedIn := false
  closures := []

/-- The rounds that suffice: one for the open shift, and one for each day since the earliest
step that is being worked. -/
def Db.sweepBound (db : Db) (userId : ClientId) (now : Instant) : ℕ :=
  match db.loadOpenSteps userId [.working] none with
  | [] => 2
  | earliest :: _ => (dayOf now - dayOf earliest.enteredAt).toNat + 3

/-- The loop over stale shifts. -/
def sweepStale (db : Db) : Except CommandError (Option SweepEnd) :=
  Loop.run (sweepRound ids userId now) (db.sweepBound userId now) (db.startSweep userId)

end StaleSweep

section Derive

/-- `ShiftReconcileOutcome`. -/
structure ShiftReconcileOutcome where
  changed : Bool
  state : Option UserShiftState
  autoClockedIn : Bool
  pausedStepIds : List ClientId
  deriving DecidableEq, Repr

variable (ids : NewIds) (userId : ClientId) (now : Instant)

/-- The start of the shift that is reconciled. -/
def Sweep.startOf (s : Sweep) : Option Instant := s.shiftStartedAt.or (s.db.lastStart userId now)

def Db.openDeclared (db : Db) (userId : ClientId) (shiftStartedAt : Instant) :
    Option UserDeclaredStateRecord :=
  db.declaredRecords.find? fun r =>
    r.userId == userId && r.exitedAt.isNone && decide (shiftStartedAt ≤ r.enteredAt)

def Db.closeDeclared (db : Db) (declared : Option UserDeclaredStateRecord) (now : Instant) :
    Except CommandError Db :=
  match declared with
  | none => pure db
  | some declared => do
    throwIf (∃ r ∈ db.declaredRecords, r.clientId = declared.clientId ∧ now < r.enteredAt)
      (.integrity "ck_user_declared_state_records_exited_after_entered")
    pure { db with
      declaredRecords := updateWhere (fun r => r.clientId == declared.clientId)
        (fun r => { r with exitedAt := some now, closedById := none }) db.declaredRecords }

def Db.closeShiftRecord (db : Db) (r : UserShiftStateRecord) (now : Instant) :
    Except CommandError Db := do
  throwIf (now < r.enteredAt) (.integrity "ck_user_shift_state_records_exited_after_entered")
  pure { db with
    shiftRecords := updateWhere (fun x => x.userId == r.userId && x.exitedAt.isNone)
      (fun x => { x with exitedAt := some now }) db.shiftRecords }

def derivedRecord (target : UserShiftState) (reason transitionReason : Option String)
    (manuallyRecorded : Bool) : UserShiftStateRecord where
  clientId := ids.shiftRecord target now
  userId := userId
  state := target
  enteredAt := now
  exitedAt := none
  changedById := none
  reason := reason
  transitionReason := transitionReason
  manuallyRecorded := manuallyRecorded

def Db.replaceShiftRecord (db : Db) (current : Option UserShiftStateRecord)
    (record : UserShiftStateRecord) (now : Instant) : Except CommandError Db := do
  let transitionFrom := (current.map UserShiftStateRecord.state).getD .startedShift
  throwIf (¬ isValidShiftStateTransition transitionFrom record.state) (.runtime "AssertionError")
  match current with
  | some current => do
    let db ← db.closeShiftRecord current now
    db.insertShiftRecord record
  | none => db.insertShiftRecord record

/-- The part of `_reconcile_once` after the loop. -/
def deriveState (s : Sweep) : Except CommandError (ShiftReconcileOutcome × Db) := do
  let shiftStartedAt ← getOr (.runtime "Open worker shift is missing its STARTED_SHIFT marker.")
    (s.startOf userId now)
  let openDeclared := s.db.openDeclared userId shiftStartedAt
  let openSteps := s.db.loadOpenSteps userId [.working, .paused] (some shiftStartedAt)
  let openWorkingCount := openSteps.countP fun r => r.state == .working
  let openPaused := openSteps.filter fun r => r.state == .paused
  let target := deriveTargetState openWorkingCount (if openDeclared.isSome then 1 else 0)
    openPaused.length
  let declaredSource := if openWorkingCount = 0 then openDeclared else none
  let declaredToClose := if target = .working then openDeclared else none
  let db ← s.db.closeDeclared declaredToClose now
  let reason := match declaredSource with
    | some declared => some declared.pauseReasonId
    | none => if target = .inPause then openPaused.head?.bind (·.pauseReasonId) else none
  let transitionReason := match declaredSource with
    | some _ => some (transitionReasonValue .workerDeclaredState)
    | none =>
      if target = .inPause then
        (openPaused.head?.bind (·.transitionReason)).map transitionReasonValue
      else none
  let manuallyRecorded := declaredSource.isSome
  let currentIsDeclaredProjection := s.current.any fun current =>
    current.state == .inPause && current.manuallyRecorded && current.changedById.isNone
  let declaredProjectionInvolved := declaredSource.isSome || currentIsDeclaredProjection
  let unchanged := s.current.any fun current =>
    current.state == target && (target != .inPause || !declaredProjectionInvolved ||
      (current.reason == reason && current.transitionReason == transitionReason &&
        current.manuallyRecorded == manuallyRecorded))
  if unchanged then
    pure (⟨declaredToClose.isSome, some target, false, s.pausedStepIds⟩, db)
  else do
    let db ← db.replaceShiftRecord s.current
      (derivedRecord ids userId now target reason transitionReason manuallyRecorded) now
    pure (⟨true, some target, s.autoClockedIn, s.pausedStepIds⟩, db)

/-- `_reconcile_once`; the loop has the rounds it needs. -/
def reconcileOnce (db : Db) : Except CommandError (ShiftReconcileOutcome × Db) := do
  match ← sweepStale ids userId now db with
  | none => throw (.runtime "the loop over stale shifts does not end")
  | some (.noShift s) =>
    pure (⟨!s.closures.isEmpty, none, false, s.pausedStepIds⟩, s.db)
  | some (.shift s) => deriveState ids userId now s

end Derive

end BeyoManager.Shifts
