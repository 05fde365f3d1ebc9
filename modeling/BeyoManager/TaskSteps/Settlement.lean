import BeyoManager.Analytics.Concurrency
import BeyoManager.Library.Decimal
import BeyoManager.TaskSteps.Tables

/-! # Settling a step's time

The contributions of one worker's records over a window, and the totals of a step that
are recomputed from them and set. Seconds are exact until a total is rounded.
-/

namespace BeyoManager.TaskSteps

open Analytics Grouping Relational Tally

/-- `_BUCKET_STATE`. -/
def bucketState (r : StepStateRecord) : String :=
  if r.state = .paused ∧ r.transitionReason = some .shiftEnded then "ended_shift"
  else r.state.value

/-- `RecordContribution`. -/
structure RecordContribution where
  recordId : ClientId
  stepId : ClientId
  workingSectionId : ClientId
  state : String
  enteredAt : Instant
  exitedAt : Option Instant
  isOpen : Bool
  stepIsDeleted : Bool
  stepIsCompleted : Bool
  markedWrong : Bool
  seconds : ℚ
  wastedSeconds : ℚ
  isBatchable : Bool
  deriving DecidableEq, Repr

/-- A record with its step. -/
abbrev Row := StepStateRecord × TaskStep

def Row.interval (row : Row) : TimeInterval where
  recordId := row.1.clientId
  stepId := row.1.stepId
  state := bucketState row.1
  enteredAt := row.1.enteredAt
  exitedAt := row.1.exitedAt
  markedWrong := row.1.recordedTimeMarkedWrong || row.2.recordedTimeMarkedWrong
  isBatchable := row.2.allowsBatchWorking

/-- The time-bearing records that a user is credited with, joined to their steps. -/
def Db.workerRows (db : Db) (userId : ClientId) : List Row :=
  (db.stepStateRecords.filter fun r =>
    r.worker == some userId && !r.isDeleted && r.state.isTimeBearing).filterMap fun r =>
      (db.taskSteps.find? fun s => s.clientId == r.stepId).map fun s => (r, s)

/-- A record that overlaps the window: still open, or exited after it starts. -/
def Row.inWindow (windowStart windowEnd : Instant) (row : Row) : Bool :=
  decide (row.1.enteredAt < windowEnd) && row.1.exitedAt.all fun x => decide (windowStart < x)

def Row.contribution (row : Row) (seconds wasted : Seconds) : RecordContribution where
  recordId := row.1.clientId
  stepId := row.1.stepId
  workingSectionId := row.2.workingSectionId
  state := bucketState row.1
  enteredAt := row.1.enteredAt
  exitedAt := row.1.exitedAt
  isOpen := row.1.exitedAt.isNone
  stepIsDeleted := row.2.isDeleted
  stepIsCompleted := row.2.state == .completed
  markedWrong := row.1.recordedTimeMarkedWrong || row.2.recordedTimeMarkedWrong
  seconds := amount seconds row.1.clientId
  wastedSeconds := amount wasted row.1.clientId
  isBatchable := row.2.allowsBatchWorking

/-- `compute_record_contributions`. -/
def computeRecordContributions (db : Db) (userId : ClientId) (windowStart windowEnd : Instant)
    (now : Instant) : List RecordContribution :=
  let rows := (db.workerRows userId).filter (Row.inWindow windowStart windowEnd)
  let intervals := rows.map Row.interval
  let secondsByRecord := averagedSecondsByRecord intervals now
  let wastedByRecord := wastedSecondsByRecord intervals now
  rows.map fun row => row.contribution secondsByRecord wastedByRecord

/-- `r.credited_user_id or r.created_by_id`. -/
def StepStateRecord.creditedOrCreator (r : StepStateRecord) : Option ClientId :=
  (r.creditedUserId.filter fun u => decide (u ≠ "")).or r.createdById

def Db.timeRecords (db : Db) (stepId : ClientId) : List StepStateRecord :=
  db.stepStateRecords.filter fun r => r.stepId == stepId && !r.isDeleted && r.state.isTimeBearing

/-- The earliest entry and the latest exit of some records; an open one ends now. -/
def span (records : List StepStateRecord) (now : Instant) : Option (Instant × Instant) :=
  records.foldl (fun span r =>
    let end_ := r.exitedAt.getD now
    match span with
    | none => some (r.enteredAt, end_)
    | some (s, e) => some (min s r.enteredAt, max e end_)) none

/-- The users of a step's records, each with the window of these records. -/
def settleWindows (records : List StepStateRecord) (now : Instant) :
    List (ClientId × Instant × Instant) :=
  ((keys StepStateRecord.creditedOrCreator records).filterMap id).filterMap fun uid =>
    (span (group StepStateRecord.creditedOrCreator records (some uid)) now).map (uid, ·)

def timeBuckets : List String := ["working", "paused", "ended_shift"]

/-- `timedelta(days=1)`. -/
def settleBuffer : Instant := 86400

def RecordContribution.counts (stepId : ClientId) (c : RecordContribution) : Bool :=
  c.stepId == stepId && !c.isOpen && timeBuckets.contains c.state

def bucketTotal (counted : List RecordContribution) (state : String) : TimeTotal :=
  let trusted := counted.filter fun c => c.state == state && !c.markedWrong
  { seconds := Decimal.roundHalfEven (trusted.map RecordContribution.seconds).sum
    count := trusted.length
    inaccurateSeconds := Decimal.roundHalfEven
      ((counted.filter fun c => c.state == state).map RecordContribution.wastedSeconds).sum }

/-- `_rate`. -/
def Db.rate (db : Db) (userId : ClientId) : Option ℚ :=
  (db.userWorkProfiles.find? fun p => p.userId == userId).bind (·.salaryPerHourBeforeTax)

/-- What a user's seconds cost; the arithmetic keeps 28 digits. -/
def costOf (seconds rate : ℚ) : ℤ :=
  Decimal.roundHalfEven (Decimal.mul 28
    (Decimal.mul 28 (Decimal.round 28 (Decimal.roundHalfEven seconds / 3600)) rate) 100)

def costedSeconds (counted : List RecordContribution) : ℚ :=
  ((counted.filter fun c => c.state == "working" || c.state == "paused").map
    RecordContribution.seconds).sum

def settleContributions (db : Db) (stepId : ClientId) (now : Instant) :
    List (ClientId × List RecordContribution) :=
  (settleWindows (db.timeRecords stepId) now).map fun (uid, start, end_) =>
    (uid, (computeRecordContributions db uid (start - settleBuffer) (end_ + settleBuffer)
      now).filter (RecordContribution.counts stepId))

def TaskStep.withTotals (s : TaskStep) (db : Db)
    (byUser : List (ClientId × List RecordContribution)) : TaskStep :=
  let counted := byUser.flatMap Prod.snd
  { s with
    totalWorking := bucketTotal counted "working"
    totalPause := bucketTotal counted "paused"
    totalEndedShift := bucketTotal counted "ended_shift"
    totalCostMinor := some (byUser.map fun (uid, counted) =>
      ((db.rate uid).map (costOf (costedSeconds counted))).getD 0).sum }

/-- `settle_step_time_totals`. -/
def settleStepTimeTotals (db : Db) (stepId : ClientId) (now : Instant) : Db :=
  match db.fetchTaskStep stepId with
  | none => db
  | some _ =>
    db.updateStep stepId fun s => s.withTotals db (settleContributions db stepId now)

/-- `settle_closed_step_time`. -/
def settleClosedStepTime (db : Db) (stepId : ClientId) (closingState : TaskStepState)
    (creditedUserId : ClientId) (now : Instant) : Db :=
  if creditedUserId = "" ∨ ¬ closingState.isTimeBearing then db
  else settleStepTimeTotals db stepId now

theorem settleClosedStepTime_tasks (db : Db) (stepId : ClientId) (closingState : TaskStepState)
    (creditedUserId : ClientId) (now : Instant) :
    (settleClosedStepTime db stepId closingState creditedUserId now).tasks = db.tasks := by
  rw [settleClosedStepTime]
  split
  · rfl
  · rw [settleStepTimeTotals]
    split <;> rfl

end BeyoManager.TaskSteps
