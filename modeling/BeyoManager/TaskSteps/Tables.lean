import BeyoManager.Library.Relational
import BeyoManager.Library.Transition
import BeyoManager.StockReport.Enums
import BeyoManager.TaskSteps.Enums
import Mathlib.Algebra.Order.Ring.Unbundled.Rat
import Mathlib.Algebra.Field.Rat

/-! # Tables of the task steps

The records of one workspace that the step commands read and write. Identifiers are the
generated strings of `client_id`; instants are exact seconds. A statement that breaks a
constraint of the tables fails.
-/

namespace BeyoManager.TaskSteps

open Relational Transition
open StockReport (TaskState)

/-- A `client_id`. -/
abbrev ClientId := String

/-- An aware datetime, in seconds. -/
abbrev Instant := ℚ

/-- `TERMINAL_TASK_STATES`. -/
def isTerminalTaskState : TaskState → Bool
  | .resolved | .failed | .cancelled => true
  | .pending | .assigned | .working | .stalled | .ready => false

/-- The seconds and the count of one bucket of a step's time. -/
structure TimeTotal where
  seconds : ℤ
  count : ℕ
  inaccurateSeconds : ℤ
  deriving DecidableEq, Repr

/-- `tasks`. -/
structure Task where
  clientId : ClientId
  state : TaskState
  completedAt : Option Instant
  isDeleted : Bool
  deriving DecidableEq, Repr

/-- `task_steps`; a `TimeTotal` holds the three `…_seconds` and `…_count` columns of one state. -/
structure TaskStep where
  clientId : ClientId
  taskId : ClientId
  state : TaskStepState
  readinessStatus : TaskStepReadinessStatus
  workingSectionId : ClientId
  totalDependencies : ℕ
  completedDependencies : ℕ
  recordedTimeMarkedWrong : Bool
  takenFromAverage : Bool
  allowsBatchWorking : Bool
  closedAt : Option Instant
  latestStateRecordId : Option ClientId
  totalWorking : TimeTotal
  totalPause : TimeTotal
  totalEndedShift : TimeTotal
  totalCostMinor : Option ℤ
  isDeleted : Bool
  deriving DecidableEq, Repr

/-- `step_state_records`. -/
structure StepStateRecord where
  clientId : ClientId
  stepId : ClientId
  state : TaskStepState
  pauseReasonId : Option ClientId
  transitionReason : Option TransitionReason
  description : Option String
  takenFromAverage : Bool
  recordedTimeMarkedWrong : Bool
  enteredAt : Instant
  exitedAt : Option Instant
  createdById : Option ClientId
  creditedUserId : Option ClientId
  isDeleted : Bool
  deriving DecidableEq, Repr

/-- `task_step_dependencies`. -/
structure TaskStepDependency where
  clientId : ClientId
  dependentStepId : ClientId
  prerequisiteStepId : ClientId
  removedAt : Option Instant
  deriving DecidableEq, Repr

/-- `working_sections`. -/
structure WorkingSection where
  clientId : ClientId
  allowsBatchWorking : Bool
  isDeleted : Bool
  deriving DecidableEq, Repr

/-- `working_section_dependencies`. -/
structure WorkingSectionDependency where
  dependentSectionId : ClientId
  prerequisiteSectionId : ClientId
  deriving DecidableEq, Repr

/-- `pause_reasons`, with the targets of its user and working section links. -/
structure PauseReason where
  clientId : ClientId
  requiresDescription : Bool
  linkedUserIds : List ClientId
  linkedWorkingSectionIds : List ClientId
  isDeleted : Bool
  deriving DecidableEq, Repr

/-- `items`. -/
structure Item where
  clientId : ClientId
  articleNumber : Option String
  sku : Option String
  isDeleted : Bool
  deriving DecidableEq, Repr

/-- `task_items`; `isPrimary` says that the role is `PRIMARY`. -/
structure TaskItem where
  taskId : ClientId
  itemId : ClientId
  isPrimary : Bool
  isRemoved : Bool
  deriving DecidableEq, Repr

/-- `user_work_profiles`. -/
structure UserWorkProfile where
  userId : ClientId
  salaryPerHourBeforeTax : Option ℚ
  deriving DecidableEq, Repr

/-- The tables of one workspace. -/
structure Db where
  tasks : List Task
  taskSteps : List TaskStep
  stepStateRecords : List StepStateRecord
  taskStepDependencies : List TaskStepDependency
  workingSections : List WorkingSection
  workingSectionDependencies : List WorkingSectionDependency
  pauseReasons : List PauseReason
  items : List Item
  taskItems : List TaskItem
  userWorkProfiles : List UserWorkProfile
  deriving DecidableEq, Repr

inductive CommandError
  | notFound (message : String)
  | conflict (message : String)
  | validation (message : String)
  | integrity (constraint : String)
  deriving DecidableEq, Repr

/-- The identity of the caller; a session without a user is refused before a command runs. -/
structure ServiceContext where
  userId : ClientId
  authenticated : userId ≠ ""
  deriving Repr

namespace StepStateRecord

/-- The user a record is credited to: `COALESCE(credited_user_id, created_by_id)`. -/
def worker (r : StepStateRecord) : Option ClientId := r.creditedUserId.or r.createdById

def isOpen (r : StepStateRecord) : Bool := r.exitedAt.isNone

end StepStateRecord

def TaskStepDependency.isActive (e : TaskStepDependency) : Bool := e.removedAt.isNone

namespace Db

variable (db : Db)

def fetchTaskStep (stepId : ClientId) : Option TaskStep :=
  db.taskSteps.find? fun s => s.clientId == stepId && !s.isDeleted

def updateStep (stepId : ClientId) (f : TaskStep → TaskStep) : Db :=
  { db with taskSteps := updateWhere (fun s => s.clientId == stepId) f db.taskSteps }

def updateRecord (recordId : ClientId) (f : StepStateRecord → StepStateRecord) : Db :=
  { db with
    stepStateRecords := updateWhere (fun r => r.clientId == recordId) f db.stepStateRecords }

def updateTask (taskId : ClientId) (f : Task → Task) : Db :=
  { db with tasks := updateWhere (fun t => t.clientId == taskId) f db.tasks }

/-- Close a record; `ck_step_state_records_exited_after_entered` rejects an earlier exit. -/
def closeRecord (recordId : ClientId) (now : Instant) : Except CommandError Db := do
  throwIf (∃ r ∈ db.stepStateRecords, r.clientId = recordId ∧ now < r.enteredAt)
    (.integrity "ck_step_state_records_exited_after_entered")
  pure (db.updateRecord recordId fun r => { r with exitedAt := some now })

/-- Insert an open record; a step has at most one. -/
def insertRecord (r : StepStateRecord) : Except CommandError Db := do
  throwIf (∃ x ∈ db.stepStateRecords, x.clientId = r.clientId)
    (.integrity "step_state_records_pkey")
  throwIf (∃ x ∈ db.stepStateRecords, x.stepId = r.stepId ∧ x.exitedAt = none)
    (.integrity "uix_step_state_records_active")
  pure { db with stepStateRecords := db.stepStateRecords ++ [r] }

def insertStep (s : TaskStep) : Except CommandError Db := do
  throwIf (∃ x ∈ db.taskSteps, x.clientId = s.clientId) (.integrity "task_steps_pkey")
  pure { db with taskSteps := db.taskSteps ++ [s] }

/-- Insert an active edge; a pair of different steps has at most one. -/
def insertDependency (e : TaskStepDependency) : Except CommandError Db := do
  throwIf (∃ x ∈ db.taskStepDependencies, x.clientId = e.clientId)
    (.integrity "task_step_dependencies_pkey")
  throwIf (e.dependentStepId = e.prerequisiteStepId)
    (.integrity "ck_task_step_dependencies_no_self_ref")
  throwIf (∃ x ∈ db.taskStepDependencies, x.dependentStepId = e.dependentStepId ∧
      x.prerequisiteStepId = e.prerequisiteStepId ∧ x.isActive)
    (.integrity "uix_task_step_dependencies_active")
  pure { db with taskStepDependencies := db.taskStepDependencies ++ [e] }

end Db

end BeyoManager.TaskSteps
