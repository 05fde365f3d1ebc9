import BeyoManager.TaskSteps.Transitions
import BeyoManager.Library.Sorting
import Mathlib.Algebra.Order.Floor.Ring
import Mathlib.Data.Prod.Lex
import Mathlib.Data.Rat.Floor
import Mathlib.Data.String.Basic
import Mathlib.Tactic.Linarith

/-! # Tables of the shifts

The shift records of the workers of one workspace, what they declared, and the step records
that both are derived from. A shift record is a marker of the start or the end of a shift, or
a span of the time between them; at most one record of a worker is open. Instants are exact
seconds since the epoch and a work day ends at UTC midnight, so the midnights are the multiples
of a day.
-/

namespace BeyoManager.Shifts

open Relational Sorting Transition
open TaskSteps (ClientId StepStateRecord TaskStep TaskStepState Task TransitionReason)

section WorkDay

/-- An aware datetime, in seconds. -/
abbrev Instant := ℚ

/-- `timedelta(days=1)`. -/
def dayLength : ℚ := 86400

def dayOf (ts : Instant) : ℤ := ⌊ts / dayLength⌋

/-- `work_day_start`. -/
def workDayStart (ts : Instant) : Instant := dayOf ts * dayLength

/-- `work_day_end`. -/
def workDayEnd (ts : Instant) : Instant := workDayStart ts + dayLength

/-- `is_past_work_day_end`. -/
def isPastWorkDayEnd (startedAt now : Instant) : Prop := workDayEnd startedAt ≤ now

instance (startedAt now : Instant) : Decidable (isPastWorkDayEnd startedAt now) :=
  inferInstanceAs (Decidable (_ ≤ _))

variable {ts ts' now : Instant}

theorem dayLength_pos : 0 < dayLength := by
  norm_num [dayLength]

theorem workDayEnd_eq (ts : Instant) : workDayEnd ts = ((dayOf ts + 1 : ℤ) : ℚ) * dayLength := by
  rw [workDayEnd, workDayStart]
  push_cast
  ring

theorem lt_workDayEnd (ts : Instant) : ts < workDayEnd ts := by
  rw [workDayEnd_eq, ← div_lt_iff₀ dayLength_pos]
  push_cast
  exact Int.lt_floor_add_one _

theorem dayOf_mono (h : ts ≤ ts') : dayOf ts ≤ dayOf ts' :=
  Int.floor_le_floor (div_le_div_of_nonneg_right h dayLength_pos.le)

theorem dayOf_workDayEnd (ts : Instant) : dayOf (workDayEnd ts) = dayOf ts + 1 := by
  rw [dayOf, workDayEnd_eq, mul_div_cancel_right₀ _ dayLength_pos.ne', Int.floor_intCast]

theorem dayOf_lt (h : isPastWorkDayEnd ts now) : dayOf ts < dayOf now := by
  have := dayOf_mono h
  rw [dayOf_workDayEnd] at this
  omega

end WorkDay

/-- `UserShiftStateEnum`. -/
inductive UserShiftState
  | startedShift | working | inPause | idle | endedShift
  deriving DecidableEq, Repr

/-- `DURATIONFUL_STATES`. -/
def UserShiftState.isDurationful : UserShiftState → Bool
  | working | inPause | idle => true
  | startedShift | endedShift => false

/-- The value of a `TransitionReasonEnum`. -/
def transitionReasonValue : TransitionReason → String
  | .shiftEnded => "shift_ended"
  | .otherTaskPriority => "other_task_priority"
  | .workerDeclaredState => "worker_declared_state"
  | .caseCreated => "case_created"
  | .forcedReady => "forced_ready"
  | .taskDeleted => "task_deleted"

/-- `user_shift_state_records`. -/
structure UserShiftStateRecord where
  clientId : ClientId
  userId : ClientId
  state : UserShiftState
  enteredAt : Instant
  exitedAt : Option Instant
  changedById : Option ClientId
  reason : Option String
  transitionReason : Option String
  manuallyRecorded : Bool
  deriving DecidableEq, Repr

/-- `user_declared_state_records`. -/
structure UserDeclaredStateRecord where
  clientId : ClientId
  userId : ClientId
  pauseReasonId : ClientId
  enteredAt : Instant
  exitedAt : Option Instant
  closedById : Option ClientId
  deriving DecidableEq, Repr

/-- The tables of one workspace. -/
structure Db where
  shiftRecords : List UserShiftStateRecord
  declaredRecords : List UserDeclaredStateRecord
  steps : TaskSteps.Db
  deriving DecidableEq, Repr

inductive CommandError
  | conflict (message : String)
  | integrity (constraint : String)
  | runtime (message : String)
  | step (error : TaskSteps.CommandError)
  deriving DecidableEq, Repr

def UserShiftStateRecord.isLegacyManual (r : UserShiftStateRecord) : Bool :=
  r.manuallyRecorded && r.changedById.isSome

namespace Db

variable (db : Db) (userId : ClientId)

def markers (state : UserShiftState) : List UserShiftStateRecord :=
  db.shiftRecords.filter fun r => r.userId == userId && r.state == state

/-- `load_open_worker_shift_for_update`. -/
def openShift : Option UserShiftStateRecord :=
  db.shiftRecords.find? fun r => r.userId == userId && r.exitedAt.isNone

def lastStart (at_ : Instant) : Option Instant :=
  (((db.markers userId .startedShift).filter fun r => r.enteredAt ≤ at_).map
    UserShiftStateRecord.enteredAt).max?

def lastEnd : Option Instant :=
  ((db.markers userId .endedShift).map UserShiftStateRecord.enteredAt).max?

/-- `_open_shift_started_at`. -/
def openShiftStartedAt (current : UserShiftStateRecord) (at_ : Instant) : Instant :=
  (db.lastStart userId at_).getD current.enteredAt

def stepOf (r : StepStateRecord) : Option TaskStep := db.steps.fetchTaskStep r.stepId

/-- The records of a worker on steps that are not deleted. -/
def creditedRecords : List StepStateRecord :=
  db.steps.stepStateRecords.filter fun r =>
    r.worker == some userId && !r.isDeleted && (db.stepOf r).isSome

/-- `_load_open_steps`: the earliest first, from an instant on if one is given. -/
def loadOpenSteps (states : List TaskStepState) (enteredAtOrAfter : Option Instant) :
    List StepStateRecord :=
  sortBy (fun r => toLex (r.enteredAt, r.clientId)) ((db.creditedRecords userId).filter fun r =>
    r.exitedAt.isNone && states.contains r.state &&
      enteredAtOrAfter.all fun start => decide (start ≤ r.enteredAt))

/-- `_load_open_working_step_rows`: the open working steps of tasks that are not deleted. -/
def loadOpenWorkingStepRows (enteredBefore : Instant) :
    List (StepStateRecord × TaskStep × Task) :=
  (sortBy (fun r => toLex (r.enteredAt, r.clientId)) ((db.creditedRecords userId).filter fun r =>
    r.exitedAt.isNone && r.state == .working && decide (r.enteredAt < enteredBefore))).filterMap
      fun r => (db.stepOf r).bind fun s => (db.steps.fetchTask s.taskId).map fun t => (r, s, t)

/-- Insert a shift record; a worker has at most one that is open. -/
def insertShiftRecord (r : UserShiftStateRecord) : Except CommandError Db := do
  throwIf (∃ x ∈ r.exitedAt, x < r.enteredAt)
    (.integrity "ck_user_shift_state_records_exited_after_entered")
  throwIf (r.exitedAt = none ∧ ∃ x ∈ db.shiftRecords, x.userId = r.userId ∧ x.exitedAt = none)
    (.integrity "uix_user_shift_state_records_active")
  pure { db with shiftRecords := db.shiftRecords ++ [r] }

end Db

end BeyoManager.Shifts
