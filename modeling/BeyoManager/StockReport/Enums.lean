import Mathlib.Data.List.Basic

/-! # Enumerations of the stock report

The states and kinds stored by the stock report tables, and the map from a task's
state to the state of its assignment.
-/

namespace BeyoManager.StockReport

/-- The life of one unit of work on a stock report row. -/
inductive StockTaskAssignmentState
  | inQueue | inProgress | awaiting | resolved | failed | resolvedEarly
  deriving DecidableEq, Repr

namespace StockTaskAssignmentState

/-- `ACTIVE_ASSIGNMENT_STATES`. -/
def isActive : StockTaskAssignmentState → Bool
  | inQueue | inProgress | awaiting => true
  | resolved | failed | resolvedEarly => false

/-- `TERMINAL_ASSIGNMENT_STATES`. -/
def isTerminal : StockTaskAssignmentState → Bool
  | resolved | failed | resolvedEarly => true
  | inQueue | inProgress | awaiting => false

theorem isTerminal_eq_not_isActive (s : StockTaskAssignmentState) :
    s.isTerminal = !s.isActive := by
  cases s <;> rfl

/-- The member as Python prints it with `!r`. -/
def pyRepr : StockTaskAssignmentState → String
  | inQueue => "<StockTaskAssignmentStateEnum.IN_QUEUE: 'in_queue'>"
  | inProgress => "<StockTaskAssignmentStateEnum.IN_PROGRESS: 'in_progress'>"
  | awaiting => "<StockTaskAssignmentStateEnum.AWAITING: 'awaiting'>"
  | resolved => "<StockTaskAssignmentStateEnum.RESOLVED: 'resolved'>"
  | failed => "<StockTaskAssignmentStateEnum.FAILED: 'failed'>"
  | resolvedEarly => "<StockTaskAssignmentStateEnum.RESOLVED_EARLY: 'resolved_early'>"

end StockTaskAssignmentState

/-- `TaskStateEnum`. -/
inductive TaskState
  | pending | assigned | working | stalled | ready | resolved | failed | cancelled
  deriving DecidableEq, Repr

/-- `ASSIGNMENT_STATE_BY_TASK_STATE`. -/
def assignmentStateByTaskState : TaskState → StockTaskAssignmentState
  | .pending => .inQueue
  | .assigned => .inQueue
  | .working => .inProgress
  | .stalled => .inProgress
  | .ready => .awaiting
  | .resolved => .awaiting
  | .failed => .failed
  | .cancelled => .failed

/-- `TaskItemRoleEnum`. -/
inductive TaskItemRole
  | primary | related
  deriving DecidableEq, Repr

/-- `StockReportPriorityEnum`. -/
inductive StockReportPriority
  | high | medium | low
  deriving DecidableEq, Repr

namespace StockReportPriority

/-- The stored value. -/
def value : StockReportPriority → String
  | high => "high"
  | medium => "medium"
  | low => "low"

end StockReportPriority

/-- `StockReportHistoryRecordTypeEnum`. -/
inductive HistoryRecordType
  | quantityRequestedChange | priorityChange | priorityOrderChange | quantityRequestedOverride
  deriving DecidableEq, Repr

/-- `StockReportQuantityRequestedSourceEnum`. -/
inductive QuantityRequestedSource
  | scanner | manual
  deriving DecidableEq, Repr

/-- `StockReportRepairTargetKindEnum`. -/
inductive RepairTargetKind
  | stockReportItem | historyRecord | task | group | itemSnapshot | snapshotVersion
  deriving DecidableEq, Repr

/-- `StockReportSnapshotVersionStateEnum`. -/
inductive SnapshotVersionState
  | draft | active | closed
  deriving DecidableEq, Repr

/-- `SchedulerStateEnum`. -/
inductive SchedulerState
  | active | fired | paused | canceled | error
  deriving DecidableEq, Repr

/-- `DelayedSchedulerTypeEnum`. -/
inductive DelayedSchedulerType
  | notifyToCustomer | sendReport | reminder | batchNotification | pendingStepCompletion
  | stockReportVersionActivation
  deriving DecidableEq, Repr

/-- `ItemsProcessedOutcomeEnum`. -/
inductive ItemsProcessedOutcome
  | resolved | ignored
  deriving DecidableEq, Repr

/-- `ItemsProcessedReasonEnum`. -/
inductive ItemsProcessedReason
  | itemNotFound | noOpenAssignment | early
  deriving DecidableEq, Repr

/-- `StockDemandOutcomeEnum`. -/
inductive StockDemandOutcome
  | applied | categoryNotFound
  deriving DecidableEq, Repr

/-- `StockDemandDeletedOutcomeEnum`. -/
inductive StockDemandDeletedOutcome
  | deleted | notFound | categoryNotFound
  deriving DecidableEq, Repr

end BeyoManager.StockReport
