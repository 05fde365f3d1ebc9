import BeyoManager.Analytics.LinearTimeline
import BeyoManager.Shifts.Tables

/-! # Closing a shift

A shift is closed at an instant: what was recorded from then on is left out of it, its middle is
rebuilt from the step records and the declarations, the steps still being worked are paused, and
the end marker is written. A shift that has outlived its work day is closed where that day ended.
-/

namespace BeyoManager.Shifts

open Relational Transition
open Analytics.LinearTimeline
open TaskSteps (ClientId StepStateRecord TaskStep TaskStepState Task StepTransition)

section Rebuild

variable (db : Db) (userId : ClientId) (shiftStart shiftEnd : Instant)

/-- `bucket_for`, as the state of an interval. -/
def bucketFor (r : StepStateRecord) : IntervalState :=
  if r.state = .working then .working
  else if r.transitionReason = some .shiftEnded then .endedShift
  else .paused

def enteredIn (enteredAt : Instant) : Bool :=
  decide (shiftStart ≤ enteredAt) && decide (enteredAt < shiftEnd)

def stepInterval (r : StepStateRecord) : LinearInterval where
  recordId := r.clientId
  state := bucketFor r
  reason := r.pauseReasonId
  enteredAt := r.enteredAt
  exitedAt := r.exitedAt
  stepId := r.stepId
  priority := 0
  transitionReason := r.transitionReason.map transitionReasonValue

/-- The interval of a declaration; `_DECLARED_PAUSE_PRIORITY` is 2. -/
def declaredInterval (r : UserDeclaredStateRecord) : LinearInterval where
  recordId := r.clientId
  state := .paused
  reason := some r.pauseReasonId
  enteredAt := r.enteredAt
  exitedAt := r.exitedAt
  stepId := ""
  priority := 2
  transitionReason := some (transitionReasonValue .workerDeclaredState)

/-- The interval of a legacy manual pause; `_LEGACY_MANUAL_PAUSE_PRIORITY` is 1. -/
def manualInterval (r : UserShiftStateRecord) : LinearInterval where
  recordId := r.clientId
  state := .paused
  reason := r.reason
  enteredAt := r.enteredAt
  exitedAt := r.exitedAt
  stepId := ""
  priority := 1
  transitionReason := r.transitionReason

def Db.stepRows : List StepStateRecord :=
  (db.creditedRecords userId).filter fun r =>
    (r.state == .working || r.state == .paused) && enteredIn shiftStart shiftEnd r.enteredAt

def Db.declaredRows : List UserDeclaredStateRecord :=
  db.declaredRecords.filter fun r => r.userId == userId && enteredIn shiftStart shiftEnd r.enteredAt

def Db.manualRows : List UserShiftStateRecord :=
  db.shiftRecords.filter fun r =>
    r.userId == userId && r.state == .inPause && r.manuallyRecorded &&
      enteredIn shiftStart shiftEnd r.enteredAt

def Db.shiftIntervals : List LinearInterval :=
  (db.stepRows userId shiftStart shiftEnd).map stepInterval ++
    (db.declaredRows userId shiftStart shiftEnd).map declaredInterval ++
    (db.manualRows userId shiftStart shiftEnd).map manualInterval

/-- `_SEGMENT_TO_SHIFT_STATE`. -/
def segmentToShiftState : SegmentState → Option UserShiftState
  | .working => some .working
  | .paused => some .inPause
  | .idle => some .idle
  | .endedShift => none

variable (newId : UserShiftState → Instant → ClientId)

/-- `_idle_record`. -/
def idleRecord (start stop : Instant) : UserShiftStateRecord where
  clientId := newId .idle start
  userId := userId
  state := .idle
  enteredAt := start
  exitedAt := some stop
  changedById := none
  reason := none
  transitionReason := none
  manuallyRecorded := false

def Db.segmentRecord (segment : LinearSegment) (state : UserShiftState) : UserShiftStateRecord :=
  let declaredIds := (db.declaredRows userId shiftStart shiftEnd).map (·.clientId)
  let manualRows := db.manualRows userId shiftStart shiftEnd
  { clientId := newId state segment.start
    userId := userId
    state := state
    enteredAt := segment.start
    exitedAt := some segment.stop
    changedById := (manualRows.find? fun r => some r.clientId = segment.ownerRecordId).bind
      UserShiftStateRecord.changedById
    reason := if state = .inPause then segment.reason else none
    transitionReason := if state = .inPause then segment.transitionReason else none
    manuallyRecorded := decide (state = .inPause) && segment.ownerRecordId.any fun id =>
      declaredIds.contains id || (manualRows.map (·.clientId)).contains id }

/-- The records up to a cursor, after one more segment; a gap before it is idle. -/
def Db.addSegment (acc : List UserShiftStateRecord × Instant) (segment : LinearSegment) :
    List UserShiftStateRecord × Instant :=
  match segmentToShiftState segment.state with
  | none => acc
  | some state =>
    let gap := if acc.2 < segment.start then [idleRecord userId newId acc.2 segment.start] else []
    (acc.1 ++ gap ++ [db.segmentRecord userId shiftStart shiftEnd newId segment state],
      segment.stop)

/-- The records that `reconstruct_shift_middle` writes. -/
def Db.rebuiltRecords : List UserShiftStateRecord :=
  let segments := computeLinearSegments (db.shiftIntervals userId shiftStart shiftEnd) shiftStart
    shiftEnd shiftEnd []
  let acc := segments.foldl (db.addSegment userId shiftStart shiftEnd newId) ([], shiftStart)
  if acc.2 < shiftEnd then acc.1 ++ [idleRecord userId newId acc.2 shiftEnd] else acc.1

/-- `reconstruct_shift_middle`. -/
def reconstructShiftMiddle : Db :=
  { db with
    shiftRecords := deleteWhere (fun r => r.userId == userId && r.state.isDurationful &&
      enteredIn shiftStart shiftEnd r.enteredAt) db.shiftRecords ++
        db.rebuiltRecords userId shiftStart shiftEnd newId }

end Rebuild

/-- `_drop_projections_from`. -/
def dropProjectionsFrom (db : Db) (userId : ClientId) (clockOutAt : Instant) : Db :=
  let afterClose (r : UserShiftStateRecord) : Bool :=
    r.userId == userId && r.state.isDurationful && decide (clockOutAt ≤ r.enteredAt)
  { db with
    shiftRecords := updateWhere (fun r => afterClose r && r.isLegacyManual && r.exitedAt.isNone)
      (fun r => { r with exitedAt := some r.enteredAt })
      (deleteWhere (fun r => afterClose r && !r.isLegacyManual) db.shiftRecords) }

def clampOpenDeclared (db : Db) (userId : ClientId) (clockOutAt : Instant) : Db :=
  { db with
    declaredRecords := updateWhere (fun r => r.userId == userId && r.exitedAt.isNone)
      (fun r => { r with exitedAt := some (max clockOutAt r.enteredAt), closedById := none })
      db.declaredRecords }

/-- The identifiers of the records that a closure creates. -/
structure NewIds where
  shiftRecord : UserShiftState → Instant → ClientId
  stepRecord : ClientId → Instant → ClientId

def shiftEndedTransition (ids : NewIds) (userId actorId stepId : ClientId) (clockOutAt : Instant) :
    StepTransition where
  newState := .paused
  pauseReasonId := none
  transitionReason := some .shiftEnded
  description := none
  performerId := actorId
  creditedUserId := userId
  markClosingRecordInaccurate := false
  newRecordId := ids.stepRecord stepId clockOutAt
  autoPauseRecordId := ids.stepRecord stepId clockOutAt

def pauseWorkingStep (ids : NewIds) (userId actorId : ClientId) (clockOutAt : Instant)
    (steps : TaskSteps.Db) (row : StepStateRecord × TaskStep × Task) :
    Except CommandError TaskSteps.Db :=
  (TaskSteps.applyStepTransition steps .head row.2.1 row.1
    (shiftEndedTransition ids userId actorId row.2.1.clientId clockOutAt) clockOutAt).mapError
      CommandError.step

def marker (ids : NewIds) (userId : ClientId) (state : UserShiftState) (at_ : Instant)
    (changedById : Option ClientId) : UserShiftStateRecord where
  clientId := ids.shiftRecord state at_
  userId := userId
  state := state
  enteredAt := at_
  exitedAt := some at_
  changedById := changedById
  reason := none
  transitionReason := none
  manuallyRecorded := false

/-- `StaleShiftClosure`. -/
structure StaleShiftClosure where
  closedAt : Instant
  pausedStepIds : List ClientId
  deriving DecidableEq, Repr

/-- `_close_open_shift`. -/
def closeOpenShift (db : Db) (ids : NewIds) (userId : ClientId) (shiftStart clockOutAt : Instant)
    (changedById : Option ClientId) : Except CommandError (Db × List ClientId) := do
  let db := clampOpenDeclared db userId clockOutAt
  let db := dropProjectionsFrom db userId clockOutAt
  let db := reconstructShiftMiddle db userId shiftStart clockOutAt ids.shiftRecord
  let actorId := (changedById.filter (· != "")).getD userId
  let rows := db.loadOpenWorkingStepRows userId clockOutAt
  let steps ← rows.foldlM (pauseWorkingStep ids userId actorId clockOutAt) db.steps
  let db ← { db with steps := steps }.insertShiftRecord
    (marker ids userId .endedShift clockOutAt changedById)
  pure (db, rows.map (·.2.1.clientId))

/-- `close_stale_open_shift`. -/
def closeStaleOpenShift (db : Db) (ids : NewIds) (userId : ClientId)
    (current : Option UserShiftStateRecord) (now : Instant) :
    Except CommandError (Option (Db × StaleShiftClosure)) :=
  match current with
  | none => pure none
  | some current => do
    let shiftStart := db.openShiftStartedAt userId current now
    let boundary := workDayEnd shiftStart
    if now < boundary then pure none
    else
      let (db, pausedStepIds) ← closeOpenShift db ids userId shiftStart boundary none
      pure (some (db, ⟨boundary, pausedStepIds⟩))

def openIdleRecord (ids : NewIds) (userId : ClientId) (at_ : Instant)
    (changedById : Option ClientId) : UserShiftStateRecord where
  clientId := ids.shiftRecord .idle at_
  userId := userId
  state := .idle
  enteredAt := at_
  exitedAt := none
  changedById := changedById
  reason := none
  transitionReason := none
  manuallyRecorded := false

/-- `clock_in_shift_for_user`. -/
def clockInShiftForUser (db : Db) (ids : NewIds) (userId : ClientId) (clockInAt : Instant)
    (changedById : ClientId) : Except CommandError (Db × List ClientId) := do
  let current := db.openShift userId
  let stale ← closeStaleOpenShift db ids userId current clockInAt
  throwIf (stale = none ∧ current ≠ none) (.conflict "Worker is already clocked in.")
  let (db, pausedStepIds) := match stale with
    | some (db, closure) => (db, closure.pausedStepIds)
    | none => (db, [])
  let db ← db.insertShiftRecord (marker ids userId .startedShift clockInAt (some changedById))
  let db ← db.insertShiftRecord (openIdleRecord ids userId clockInAt (some changedById))
  pure (db, pausedStepIds)

/-- `clock_out_shift_for_user`. -/
def clockOutShiftForUser (db : Db) (ids : NewIds) (userId : ClientId) (clockOutAt : Instant)
    (changedById : Option ClientId) : Except CommandError (Db × List ClientId) := do
  let current ← getOr (.conflict "Worker is not clocked in.") (db.openShift userId)
  let stale ← closeStaleOpenShift db ids userId (some current) clockOutAt
  match stale with
  | some (db, closure) => pure (db, closure.pausedStepIds)
  | none =>
    closeOpenShift db ids userId (db.openShiftStartedAt userId current clockOutAt) clockOutAt
      changedById

/-- The `action` that a toggle reports. -/
inductive ToggleAction
  | clockIn | clockOut
  deriving DecidableEq, Repr

/-- `toggle_worker_shift`. -/
def toggleWorkerShift (db : Db) (ids : NewIds) (userId actorId : ClientId) (now : Instant) :
    Except CommandError (Db × ToggleAction × List ClientId) := do
  let current := db.openShift userId
  let stale ← closeStaleOpenShift db ids userId current now
  match stale, current with
  | some (db, closure), _ => do
    let (db, _) ← clockInShiftForUser db ids userId now actorId
    pure (db, .clockIn, closure.pausedStepIds)
  | none, none => do
    let (db, _) ← clockInShiftForUser db ids userId now actorId
    pure (db, .clockIn, [])
  | none, some _ => do
    let (db, pausedStepIds) ← clockOutShiftForUser db ids userId now (some actorId)
    pure (db, .clockOut, pausedStepIds)

end BeyoManager.Shifts
