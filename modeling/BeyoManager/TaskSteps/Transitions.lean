import BeyoManager.TaskSteps.StepTransition

/-! # The transition commands

A single transition, a batch of transitions to one state, and the flag on the time of one
record. Each command validates before it writes; a failed command is rolled back.
-/

namespace BeyoManager.TaskSteps

open Relational Transition

/-- `is_pause_reason_eligible`; an empty set of links restricts nothing. -/
def isPauseReasonEligible (reason : PauseReason) (targetUserIds targetSectionIds : List ClientId) :
    Bool :=
  (reason.linkedUserIds.isEmpty || targetUserIds.all (reason.linkedUserIds.contains ·)) &&
    (reason.linkedWorkingSectionIds.isEmpty ||
      targetSectionIds.all (reason.linkedWorkingSectionIds.contains ·))

/-- `assert_pause_reason_eligible`. -/
def assertPauseReasonEligible (reason : PauseReason)
    (targetUserIds targetSectionIds : List ClientId) : Except CommandError Unit :=
  throwIf (¬ isPauseReasonEligible reason targetUserIds targetSectionIds)
    (.validation "The selected pause reason is not available for this worker or working section.")

def fetchPauseReason (db : Db) (pauseReasonId : Option ClientId) (description : Option String) :
    Except CommandError (Option PauseReason) :=
  match pauseReasonId with
  | none => pure none
  | some id => do
    let reason ← getOr (.notFound "Pause reason not found.")
      (db.pauseReasons.find? fun p => p.clientId == id && !p.isDeleted)
    throwIf (reason.requiresDescription ∧ PyString.strip (description.getD "") = "")
      (.validation "A description is required for the selected pause reason.")
    pure (some reason)

def Db.fetchTask (db : Db) (taskId : ClientId) : Option Task :=
  db.tasks.find? fun t => t.clientId == taskId && !t.isDeleted

def Db.fetchStepOfTask (db : Db) (taskId stepId : ClientId) : Option TaskStep :=
  db.taskSteps.find? fun s => s.clientId == stepId && s.taskId == taskId && !s.isDeleted

def Db.openRecord (db : Db) (stepId : ClientId) : Option StepStateRecord :=
  db.stepStateRecords.find? fun r => r.stepId == stepId && r.isOpen

/-- `TransitionStepStateRequest`. -/
structure TransitionStepStateRequest where
  stepId : ClientId
  taskId : ClientId
  newState : TaskStepState
  creditedUserId : Option ClientId
  pauseReasonId : Option ClientId
  description : Option String
  markClosingRecordInaccurate : Bool

/-- `_resolve_transition_credit_user_id`. -/
def resolveTransitionCreditUserId (ctx : ServiceContext) (request : TransitionStepStateRequest) :
    ClientId :=
  (request.creditedUserId.filter (· != "")).getD ctx.userId

def TransitionStepStateRequest.transition (request : TransitionStepStateRequest)
    (ctx : ServiceContext) (newRecordId autoPauseRecordId : ClientId) : StepTransition where
  newState := request.newState
  pauseReasonId := request.pauseReasonId
  transitionReason := none
  description := request.description
  performerId := ctx.userId
  creditedUserId := resolveTransitionCreditUserId ctx request
  markClosingRecordInaccurate := request.markClosingRecordInaccurate
  newRecordId := newRecordId
  autoPauseRecordId := autoPauseRecordId

/-- `transition_step_state`. -/
def transitionStepState (db : Db) (ctx : ServiceContext) (request : TransitionStepStateRequest)
    (limit : LimitOne Row) (now : Instant) (newRecordId autoPauseRecordId : ClientId) :
    Except CommandError Db := do
  let step ← getOr (.notFound "Task step not found.")
    (db.fetchStepOfTask request.taskId request.stepId)
  throwIf step.state.isTerminal
    (.conflict ("Step is in terminal state " ++ step.state.value ++
      " — no further transitions allowed."))
  throwIf (request.newState ∉ allowedTransitions step.state)
    (.validation ("Cannot transition step from " ++ step.state.value ++ " to " ++
      request.newState.value ++ "."))
  let _ ← getOr (.notFound "Task not found.") (db.fetchTask step.taskId)
  let t := request.transition ctx newRecordId autoPauseRecordId
  let pauseReason ← fetchPauseReason db request.pauseReasonId request.description
  match pauseReason with
  | none => pure ()
  | some reason =>
    assertPauseReasonEligible reason [t.creditedUserId] [step.workingSectionId]
  let db ← autoPause db limit step t now
  let closingRecord ← getOr (.conflict "No open state record found for this step.")
    (db.openRecord step.clientId)
  closeAndOpen db step closingRecord t now

/-- `BatchTransitionItem`. -/
structure BatchTransitionItem where
  taskId : ClientId
  stepId : ClientId
  markClosingRecordInaccurate : Bool

/-- `BatchTransitionStepStateRequest`, with what its validator accepts. -/
structure BatchTransitionStepStateRequest where
  items : List BatchTransitionItem
  newState : TaskStepState
  pauseReasonId : Option ClientId
  description : Option String
  nonempty : items ≠ []
  length_le : items.length ≤ 100
  distinct : (items.map BatchTransitionItem.stepId).Nodup

/-- The error of one item, in the order of the checks. -/
def batchItemError (db : Db) (newState : TaskStepState) (item : BatchTransitionItem) :
    Option String :=
  match db.fetchTaskStep item.stepId with
  | none => some "Task step not found."
  | some step =>
    if step.taskId ≠ item.taskId then some "Step does not belong to the provided task."
    else if ¬ step.allowsBatchWorking then some "Step is not batch-capable."
    else if db.fetchTask step.taskId = none then some "Task not found."
    else if step.state.isTerminal then
      some ("Step is in terminal state " ++ step.state.value ++ ".")
    else if newState ∉ allowedTransitions step.state then
      some ("Cannot transition from " ++ step.state.value ++ " to " ++ newState.value ++ ".")
    else if db.openRecord item.stepId = none then
      some "No open state record found for this step."
    else none

/-- `_format_batch_errors`. -/
def formatBatchErrors (errors : List (ClientId × String)) : String :=
  "Batch transition rejected — " ++
    "; ".intercalate (errors.map fun (stepId, error) => stepId ++ ": " ++ error)

/-- The values of one item of a batch; the batch credits the performer. -/
def BatchTransitionStepStateRequest.transition (request : BatchTransitionStepStateRequest)
    (ctx : ServiceContext) (item : BatchTransitionItem)
    (newRecordId autoPauseRecordId : ClientId) : StepTransition where
  newState := request.newState
  pauseReasonId := request.pauseReasonId
  transitionReason := none
  description := request.description
  performerId := ctx.userId
  creditedUserId := ctx.userId
  markClosingRecordInaccurate := item.markClosingRecordInaccurate
  newRecordId := newRecordId
  autoPauseRecordId := autoPauseRecordId

/-- The items with the steps and the open records loaded for them. -/
def loadBatch (db : Db) (items : List BatchTransitionItem) :
    List (BatchTransitionItem × TaskStep × StepStateRecord) :=
  items.filterMap fun item =>
    (db.fetchTaskStep item.stepId).bind fun step =>
      (db.openRecord item.stepId).map fun record => (item, step, record)

/-- `transition_step_state_batch`; the records are loaded once, before the first item. -/
def transitionStepStateBatch (db : Db) (ctx : ServiceContext)
    (request : BatchTransitionStepStateRequest) (limit : LimitOne Row) (now : Instant)
    (newRecordId autoPauseRecordId : ClientId → ClientId) : Except CommandError Db := do
  let pauseReason ← fetchPauseReason db request.pauseReasonId request.description
  let loaded := loadBatch db request.items
  let errors := request.items.filterMap fun item =>
    (batchItemError db request.newState item).map (item.stepId, ·)
  throwIf (errors ≠ []) (.validation (formatBatchErrors errors))
  match pauseReason with
  | none => pure ()
  | some reason =>
    assertPauseReasonEligible reason [ctx.userId] (loaded.map (·.2.1.workingSectionId))
  loaded.foldlM (fun db (item, step, record) =>
    applyStepTransition db limit step record
      (request.transition ctx item (newRecordId item.stepId) (autoPauseRecordId item.stepId)) now)
    db

/-- `mark_step_time_inaccurate`. -/
def markStepTimeInaccurate (db : Db) (recordId : ClientId) : Except CommandError Db := do
  let record ← getOr (.notFound "State record not found.")
    (db.stepStateRecords.find? fun r => r.clientId == recordId && !r.isDeleted)
  let step ← getOr (.notFound "Task step not found.") (db.fetchTaskStep record.stepId)
  pure (applyInaccurateTimeFlag db record.clientId step.clientId)

end BeyoManager.TaskSteps
