import BeyoManager.Library.PyText
import BeyoManager.TaskSteps.Settlement

/-! # One step transition

The core that the single and the batch command share: the auto-pause of another step, the
record closed and the record opened, the settled time, the state of the task, and the
cascade over the dependent steps.
-/

namespace BeyoManager.TaskSteps

open Relational Transition

/-- The row that `LIMIT 1` leaves of a result; the statement does not order its rows. -/
structure LimitOne (α : Type) where
  first : List α → Option α
  mem : ∀ rows row, first rows = some row → row ∈ rows
  some_of_ne_nil : ∀ rows, rows ≠ [] → (first rows).isSome

def LimitOne.head {α : Type} : LimitOne α where
  first := List.head?
  mem _ _ h := List.mem_of_head? h
  some_of_ne_nil rows h := by
    cases rows with
    | nil => exact absurd rfl h
    | cons row rows => rfl

def readinessOf (totalDependencies completedDependencies : ℕ) : TaskStepReadinessStatus :=
  if totalDependencies = 0 then .ready
  else if completedDependencies = totalDependencies then .ready
  else if completedDependencies = 0 then .blocked
  else .partially

/-- `recalculate_readiness`. -/
def recalculateReadiness (s : TaskStep) : TaskStep :=
  { s with readinessStatus := readinessOf s.totalDependencies s.completedDependencies }

def TaskStep.completeDependency (s : TaskStep) : TaskStep :=
  recalculateReadiness { s with completedDependencies := s.completedDependencies + 1 }

/-- The pass of `cascade_step_completion` for one edge. -/
def cascadeEdge (db : Db) (edge : TaskStepDependency) : Db :=
  match db.fetchTaskStep edge.dependentStepId with
  | none => db
  | some _ => db.updateStep edge.dependentStepId TaskStep.completeDependency

def Db.edgesFrom (db : Db) (stepId : ClientId) : List TaskStepDependency :=
  db.taskStepDependencies.filter fun e => e.prerequisiteStepId == stepId && e.isActive

/-- `cascade_step_completion`; `ck_task_steps_completed_lte_total` rejects a count above the
total. -/
def cascadeStepCompletion (db : Db) (completedStepId : ClientId) : Except CommandError Db := do
  let db := (db.edgesFrom completedStepId).foldl cascadeEdge db
  throwIf (∃ s ∈ db.taskSteps, s.totalDependencies < s.completedDependencies)
    (.integrity "ck_task_steps_completed_lte_total")
  pure db

/-- `_apply_inaccurate_time_flag`. -/
def applyInaccurateTimeFlag (db : Db) (recordId stepId : ClientId) : Db :=
  (db.updateRecord recordId fun r =>
    { r with recordedTimeMarkedWrong := true, takenFromAverage := true }).updateStep stepId fun s =>
    { s with recordedTimeMarkedWrong := true, takenFromAverage := true }

/-- `maybe_advance_task_to_working`. -/
def maybeAdvanceTaskToWorking (db : Db) (taskId : ClientId) : Db :=
  db.updateTask taskId fun t => if t.state = .assigned then { t with state := .working } else t

/-- The steps of a task that are not deleted. -/
def Db.liveSteps (db : Db) (taskId : ClientId) : List TaskStep :=
  db.taskSteps.filter fun s => s.taskId == taskId && !s.isDeleted

/-- `maybe_evaluate_task_ready`. -/
def maybeEvaluateTaskReady (db : Db) (taskId : ClientId) (now : Instant) : Db :=
  let allSteps := db.liveSteps taskId
  db.updateTask taskId fun t =>
    if isTerminalTaskState t.state ∨ t.state = .ready then t
    else if allSteps = [] ∨ ¬ allSteps.all (·.state.isTerminal) then t
    else { t with state := .ready, completedAt := some now }

/-- The rows that `fetch_open_user_working_record` limits to one. -/
def Db.openUserWorkingRows (db : Db) (userIds : List ClientId) (excludeStepId : ClientId) :
    List Row :=
  (db.stepStateRecords.filter fun r =>
    r.createdById.any (fun u => userIds.contains u) && r.state == .working && r.isOpen &&
      r.stepId != excludeStepId).filterMap fun r =>
        (db.taskSteps.find? fun s =>
          s.clientId == r.stepId && !s.isDeleted && !s.allowsBatchWorking).map (r, ·)

/-- The identifier of the primary item of a task: the article number, or else the sku. -/
def Db.primaryItemIdentifier (db : Db) (taskId : ClientId) : Option String :=
  (db.taskItems.find? fun ti => ti.taskId == taskId && !ti.isRemoved && ti.isPrimary).bind fun ti =>
    (db.items.find? fun i => i.clientId == ti.itemId && !i.isDeleted).bind fun i =>
      ((i.articleNumber.filter (· != "")).or i.sku).filter (· != "")

/-- Close a record, open the next one of its step and point the step to it; either record can
be flagged on the way. -/
def replaceRecord (db : Db) (closingId : ClientId) (record : StepStateRecord) (now : Instant)
    (flagClosing flagNew : Bool) : Except CommandError Db := do
  let db ← db.closeRecord closingId now
  let db := if flagClosing then applyInaccurateTimeFlag db closingId record.stepId else db
  let db ← db.insertRecord record
  let db := if flagNew then applyInaccurateTimeFlag db record.clientId record.stepId else db
  pure (db.updateStep record.stepId fun s =>
    { s with state := record.state, latestStateRecordId := some record.clientId })

structure StepTransition where
  newState : TaskStepState
  pauseReasonId : Option ClientId
  transitionReason : Option TransitionReason
  description : Option String
  performerId : ClientId
  creditedUserId : ClientId
  markClosingRecordInaccurate : Bool
  newRecordId : ClientId
  autoPauseRecordId : ClientId

/-- The record that an auto-pause opens; it is credited to the performer. -/
def StepTransition.autoPauseRecord (t : StepTransition) (db : Db)
    (taskId conflictingStepId : ClientId)
    (now : Instant) : StepStateRecord where
  clientId := t.autoPauseRecordId
  stepId := conflictingStepId
  state := .paused
  pauseReasonId := none
  transitionReason := some .otherTaskPriority
  description := (db.primaryItemIdentifier taskId).map fun identifier =>
    "started working with " ++ identifier
  takenFromAverage := false
  recordedTimeMarkedWrong := false
  enteredAt := now
  exitedAt := none
  createdById := some t.performerId
  creditedUserId := some t.performerId
  isDeleted := false

/-- Auto-pause any other working record of these users: the one-active-step rule. -/
def autoPause (db : Db) (limit : LimitOne Row) (step : TaskStep) (t : StepTransition)
    (now : Instant) : Except CommandError Db :=
  if t.newState = .working ∧ ¬ step.allowsBatchWorking then
    match limit.first
        (db.openUserWorkingRows [t.performerId, t.creditedUserId] step.clientId) with
    | none => pure db
    | some (conflictingRecord, conflictingStep) => do
      let db ← replaceRecord db conflictingRecord.clientId
        (t.autoPauseRecord db step.taskId conflictingStep.clientId now) now false false
      pure (settleClosedStepTime db conflictingStep.clientId .working t.performerId now)
  else pure db

def StepTransition.newRecord (t : StepTransition) (stepId : ClientId) (now : Instant) :
    StepStateRecord where
  clientId := t.newRecordId
  stepId := stepId
  state := t.newState
  pauseReasonId := t.pauseReasonId
  transitionReason := t.transitionReason
  description := t.description
  takenFromAverage := false
  recordedTimeMarkedWrong := false
  enteredAt := now
  exitedAt := none
  createdById := some t.performerId
  creditedUserId := some t.creditedUserId
  isDeleted := false

/-- What follows from the new state: when the step was closed, and the state of the task. -/
def transitionSideEffects (db : Db) (step : TaskStep) (newState : TaskStepState) (now : Instant) :
    Except CommandError Db := do
  let db :=
    if newState.isTerminal then db.updateStep step.clientId fun s => { s with closedAt := some now }
    else db
  let db := if newState = .working then maybeAdvanceTaskToWorking db step.taskId else db
  let db := if newState.isTerminal then maybeEvaluateTaskReady db step.taskId now else db
  if newState = .completed then cascadeStepCompletion db step.clientId else pure db

def StepTransition.flagsClosing (t : StepTransition) (closingRecord : StepStateRecord) : Bool :=
  t.markClosingRecordInaccurate && closingRecord.state.isTimeBearing

/-- Close the step's open record, open the new one, settle the step and apply the side
effects. -/
def closeAndOpen (db : Db) (step : TaskStep) (closingRecord : StepStateRecord) (t : StepTransition)
    (now : Instant) : Except CommandError Db := do
  let db ← replaceRecord db closingRecord.clientId (t.newRecord step.clientId now) now
    (t.flagsClosing closingRecord) (t.flagsClosing closingRecord && t.newState == .completed)
  let db := settleClosedStepTime db step.clientId closingRecord.state t.creditedUserId now
  transitionSideEffects db step t.newState now

/-- `_apply_step_transition`. -/
def applyStepTransition (db : Db) (limit : LimitOne Row) (step : TaskStep)
    (closingRecord : StepStateRecord) (t : StepTransition) (now : Instant) :
    Except CommandError Db := do
  let db ← autoPause db limit step t now
  closeAndOpen db step closingRecord t now

end BeyoManager.TaskSteps
