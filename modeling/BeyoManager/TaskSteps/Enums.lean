import Mathlib.Data.List.Basic

/-! # Enumerations of the task steps -/

namespace BeyoManager.TaskSteps

/-- `TaskStepStateEnum`. -/
inductive TaskStepState
  | pending | working | paused | blocked | completed | skipped | failed | cancelled
  deriving DecidableEq, Repr, Inhabited

/-- `TERMINAL_STEP_STATES`. -/
def TaskStepState.isTerminal : TaskStepState → Bool
  | completed | skipped | failed | cancelled => true
  | pending | working | paused | blocked => false

/-- The value of a state, as the messages spell it. -/
def TaskStepState.value : TaskStepState → String
  | pending => "pending"
  | working => "working"
  | paused => "paused"
  | blocked => "blocked"
  | completed => "completed"
  | skipped => "skipped"
  | failed => "failed"
  | cancelled => "cancelled"

/-- `TIME_BEARING_STATES`. -/
def TaskStepState.isTimeBearing : TaskStepState → Bool
  | working | paused => true
  | pending | blocked | completed | skipped | failed | cancelled => false

/-- `_ALLOWED_TRANSITIONS`. -/
def allowedTransitions : TaskStepState → List TaskStepState
  | .pending => [.working]
  | .working => [.paused, .completed, .failed, .cancelled]
  | .paused => [.working, .failed, .cancelled]
  | .completed | .skipped | .failed | .cancelled | .blocked => []

/-- `TaskStepReadinessStatusEnum`; `partially` is its `PARTIAL`. -/
inductive TaskStepReadinessStatus
  | blocked | partially | ready
  deriving DecidableEq, Repr

/-- `TransitionReasonEnum`. -/
inductive TransitionReason
  | shiftEnded | otherTaskPriority | workerDeclaredState | caseCreated | forcedReady | taskDeleted
  deriving DecidableEq, Repr

theorem not_mem_allowedTransitions_of_isTerminal {s t : TaskStepState} (h : s.isTerminal) :
    t ∉ allowedTransitions s := by
  cases s <;> simp_all [TaskStepState.isTerminal, allowedTransitions]

end BeyoManager.TaskSteps
