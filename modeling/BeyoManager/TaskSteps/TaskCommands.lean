import BeyoManager.TaskSteps.Run
import Mathlib.Data.Prod.Lex

/-! # Commands on whole tasks

A task is created with or without steps, forced ready, resolved, failed, cancelled, deleted and
restored. The system pauses the working steps of a task or a worker, and a worker process
completes a step whose completion was deferred.
-/

namespace BeyoManager.TaskSteps

open Relational Transition
open StockReport (TaskState)

section Create

/-- `CreateTaskRequest`: the id, the state and the steps of a new task. -/
structure CreateTaskRequest where
  clientId : Option ClientId
  generatedId : ClientId
  state : Option TaskState
  steps : List StepInput

/-- The id of the new task. -/
def CreateTaskRequest.taskId (request : CreateTaskRequest) : ClientId :=
  request.clientId.getD request.generatedId

/-- `_SELLER_ROLES`. -/
def sellerRoles : List String := ["seller"]

/-- The state of a new task; a seller's task is pending even when it has steps. -/
def CreateTaskRequest.initialState (request : CreateTaskRequest) (roleName : Option String) :
    TaskState :=
  if roleName.any (· ∈ sellerRoles) then .pending
  else if request.steps ≠ [] then .assigned
  else request.state.getD .pending

def CreateTaskRequest.newTask (request : CreateTaskRequest) (roleName : Option String) : Task where
  clientId := request.taskId
  state := request.initialState roleName
  completedAt := none
  isDeleted := false

def Db.insertTask (db : Db) (t : Task) : Except CommandError Db := do
  throwIf (∃ x ∈ db.tasks, x.clientId = t.clientId) (.integrity "tasks_pkey")
  pure { db with tasks := db.tasks ++ [t] }

def createInitialStep (db : Db) (ctx : ServiceContext) (taskId : ClientId) (input : StepInput)
    (now : Instant) : Except CommandError Db := do
  let db ← db.insertStep (input.newStep db taskId)
  let db ← db.insertRecord (input.pendingRecord ctx now)
  pure (db.updateStep input.stepId fun s => { s with latestStateRecordId := some input.recordId })

/-- `create_task`. -/
def createTask (db : Db) (ctx : ServiceContext) (roleName : Option String)
    (request : CreateTaskRequest) (now : Instant) (newEdgeId : ClientId → ClientId → ClientId) :
    Except CommandError Db := do
  throwIf (∃ t ∈ db.tasks, request.clientId = some t.clientId)
    (.conflict "Provided client_id is already in use.")
  let db ← db.insertTask (request.newTask roleName)
  db.checkSections request.steps
  throwIf (∃ s ∈ db.taskSteps, s.clientId ∈ request.steps.filterMap (·.clientId))
    (.conflict "Provided client_id for step is already in use.")
  let db ← request.steps.foldlM (fun db input => createInitialStep db ctx request.taskId input now)
    db
  wireBatchSteps db
    (db.taskSteps.filter fun s => (request.steps.map StepInput.stepId).contains s.clientId)
    request.taskId newEdgeId

end Create

section Finish

def finishTask (db : Db) (taskId : ClientId) (finish : Task → Task) : Except CommandError Db := do
  let task ← getOr (.notFound "Task not found.") (db.fetchTask taskId)
  throwIf (isTerminalTaskState task.state) (.conflict "Task is already in a terminal state.")
  pure (db.updateTask task.clientId finish)

/-- `resolve_task`. -/
def resolveTask (db : Db) (taskId : ClientId) (now : Instant) : Except CommandError Db :=
  finishTask db taskId fun t => { t with state := .resolved, completedAt := some now }

/-- `fail_task`. -/
def failTask (db : Db) (taskId : ClientId) : Except CommandError Db :=
  finishTask db taskId fun t => { t with state := .failed }

/-- `cancel_task`. -/
def cancelTask (db : Db) (taskId : ClientId) : Except CommandError Db :=
  finishTask db taskId fun t => { t with state := .cancelled }

end Finish

section Pause

def Db.openWorkingStepRows (db : Db) (scope : StepStateRecord → TaskStep → Bool) : List Row :=
  (Sorting.sortBy (fun r => toLex (r.enteredAt, r.clientId)) (db.stepStateRecords.filter fun r =>
    !r.isDeleted && r.isOpen && r.state == .working)).filterMap fun r =>
      (db.taskSteps.find? fun s => s.clientId == r.stepId && !s.isDeleted && scope r s).map (r, ·)

def TaskStep.hasLiveTask (s : TaskStep) (db : Db) : Bool := (db.fetchTask s.taskId).isSome

structure Pause where
  pauseReasonId : Option ClientId
  transitionReason : Option TransitionReason
  description : Option String
  performerId : ClientId
  creditedUserId : StepStateRecord → ClientId
  pausedAt : StepStateRecord → Instant
  newRecordId : ClientId → ClientId

def Pause.transition (p : Pause) (r : StepStateRecord) : StepTransition where
  newState := .paused
  pauseReasonId := p.pauseReasonId
  transitionReason := p.transitionReason
  description := p.description
  performerId := p.performerId
  creditedUserId := p.creditedUserId r
  markClosingRecordInaccurate := false
  newRecordId := p.newRecordId r.stepId
  autoPauseRecordId := ""

def pauseRows (db : Db) (limit : LimitOne Row) (p : Pause) (rows : List Row) :
    Except CommandError Db :=
  rows.foldlM (fun db row =>
    applyStepTransition db limit row.2 row.1 (p.transition row.1) (p.pausedAt row.1)) db

/-- The user that a system pause credits: the worker who was working, or else the caller. -/
def creditedOr (ctx : ServiceContext) (r : StepStateRecord) : ClientId :=
  ((r.creditedUserId.filter (· != "")).or (r.createdById.filter (· != ""))).getD ctx.userId

/-- `pause_task_working_steps_in_session`; a pause never ends an interval before it began. -/
def pauseTaskWorkingStepsInSession (db : Db) (ctx : ServiceContext) (limit : LimitOne Row)
    (taskId : ClientId) (pausedAt : Instant) (newRecordId : ClientId → ClientId) :
    Except CommandError Db :=
  pauseRows db limit
    ⟨none, some .taskDeleted, some "task deleted", ctx.userId, creditedOr ctx,
      fun r => max pausedAt r.enteredAt, newRecordId⟩
    (db.openWorkingStepRows fun _ s => s.taskId == taskId)

/-- The pause of `pause_task_working_steps_for_case`. -/
def pauseTaskWorkingStepsForCase (db : Db) (ctx : ServiceContext) (limit : LimitOne Row)
    (taskId : ClientId) (description : String) (now : Instant)
    (newRecordId : ClientId → ClientId) : Except CommandError Db :=
  pauseRows db limit
    ⟨none, some .caseCreated, some description, ctx.userId, creditedOr ctx, fun _ => now,
      newRecordId⟩
    (db.openWorkingStepRows fun _ s => s.taskId == taskId && s.hasLiveTask db)

/-- The steps that `declare_worker_state` pauses. -/
def pauseForDeclaredState (db : Db) (ctx : ServiceContext) (limit : LimitOne Row)
    (userId pauseReasonId : ClientId) (now : Instant) (newRecordId : ClientId → ClientId) :
    Except CommandError Db :=
  pauseRows db limit
    ⟨some pauseReasonId, none, none, ctx.userId, fun _ => userId, fun _ => now, newRecordId⟩
    (db.openWorkingStepRows fun r s => r.worker == some userId && s.hasLiveTask db)

def pauseForClockOut (db : Db) (limit : LimitOne Row) (userId actorId : ClientId)
    (clockOutAt : Instant) (newRecordId : ClientId → ClientId) : Except CommandError Db :=
  pauseRows db limit
    ⟨none, some .shiftEnded, none, actorId, fun _ => userId, fun _ => clockOutAt, newRecordId⟩
    (db.openWorkingStepRows fun r s =>
      r.worker == some userId && decide (r.enteredAt < clockOutAt) && s.hasLiveTask db)

end Pause

section Delete

def Db.anyTask (db : Db) (taskId : ClientId) : Option Task :=
  db.tasks.find? fun t => t.clientId == taskId

/-- `delete_task`. -/
def deleteTask (db : Db) (ctx : ServiceContext) (limit : LimitOne Row) (taskId : ClientId)
    (now : Instant) (newRecordId : ClientId → ClientId) : Except CommandError Db := do
  let task ← getOr (.notFound "Task not found.") (db.anyTask taskId)
  throwIf task.isDeleted (.conflict "Task is already deleted.")
  let db ← pauseTaskWorkingStepsInSession db ctx limit task.clientId now newRecordId
  pure (db.updateTask task.clientId fun t => { t with isDeleted := true })

/-- `restore_task`; `deletedAt` is what the row has kept of its deletion. -/
def restoreTask (db : Db) (ctx : ServiceContext) (limit : LimitOne Row) (taskId : ClientId)
    (deletedAt : Option Instant) (newRecordId : ClientId → ClientId) : Except CommandError Db := do
  let task ← getOr (.notFound "Task not found.") (db.anyTask taskId)
  throwIf (¬ task.isDeleted) (.conflict "Task is not deleted.")
  let db := db.updateTask task.clientId fun t => { t with isDeleted := false }
  match deletedAt with
  | none => pure db
  | some pausedAt => pauseTaskWorkingStepsInSession db ctx limit task.clientId pausedAt newRecordId

end Delete

section ForceReady

/-- `_FORCE_READY_TRANSITIONS`. -/
def forceReadyTransitions : TaskStepState → List TaskStepState
  | .pending | .working | .paused | .blocked => [.skipped]
  | .completed | .skipped | .failed | .cancelled => []

/-- `ForceTaskReadyRequest`. -/
structure ForceTaskReadyRequest where
  clientId : ClientId
  reason : String
  markInaccurate : Bool

/-- The skip of one open step; it credits the worker whose time is closed. -/
def ForceTaskReadyRequest.transition (request : ForceTaskReadyRequest) (ctx : ServiceContext)
    (r : StepStateRecord) (newRecordId : ClientId) : StepTransition where
  newState := .skipped
  pauseReasonId := none
  transitionReason := some .forcedReady
  description := some request.reason
  performerId := ctx.userId
  creditedUserId := (r.creditedUserId.filter (· != "")).getD ctx.userId
  markClosingRecordInaccurate := request.markInaccurate
  newRecordId := newRecordId
  autoPauseRecordId := ""

/-- `maybe_evaluate_task_ready` with `allow_stepless`. -/
def evaluateTaskReadyStepless (db : Db) (taskId : ClientId) (now : Instant) : Db :=
  let allSteps := db.liveSteps taskId
  db.updateTask taskId fun t =>
    if isTerminalTaskState t.state ∨ t.state = .ready then t
    else if ¬ allSteps.all (·.state.isTerminal) then t
    else { t with state := .ready, completedAt := some now }

/-- `force_task_ready`; the steps are skipped in the order of their sequence numbers. -/
def forceTaskReady (db : Db) (ctx : ServiceContext) (request : ForceTaskReadyRequest)
    (limit : LimitOne Row) (now : Instant) (sequenceOrder : ClientId → ℤ)
    (newRecordId : ClientId → ClientId) : Except CommandError Db := do
  let task ← getOr (.notFound "Task not found.") (db.fetchTask request.clientId)
  throwIf (isTerminalTaskState task.state) (.conflict "Task is already in a terminal state.")
  throwIf (task.state = .ready) (.conflict "Task is already ready.")
  let steps := Sorting.sortBy (fun s => toLex (sequenceOrder s.clientId, s.clientId))
    (db.liveSteps task.clientId)
  let openSteps := steps.filter fun s => !s.state.isTerminal
  let errors := (openSteps.filter fun s => .skipped ∉ forceReadyTransitions s.state).map fun s =>
    s.clientId ++ ": cannot skip a step in state " ++ s.state.value ++ "."
  throwIf (errors ≠ [])
    (.validation ("Cannot force this task ready — " ++ " ".intercalate errors))
  let missing := (openSteps.filter fun s => (db.openRecord s.clientId).isNone).map (·.clientId)
  throwIf (missing ≠ []) (.validation
    ("Cannot force this task ready — no open state record for: " ++ ", ".intercalate missing))
  let rows : List Row := openSteps.filterMap fun s => (db.openRecord s.clientId).map (·, s)
  let db ← rows.foldlM (fun db row => applyStepTransition db limit row.2 row.1
    (request.transition ctx row.1 (newRecordId row.2.clientId)) now) db
  let db := evaluateTaskReadyStepless db task.clientId now
  throwIf (∃ t ∈ db.anyTask task.clientId, t.state ≠ .ready)
    (.conflict "Task could not be marked ready.")
  pure db

end ForceReady

section Finalize

structure PendingStepCompletion where
  stepId : ClientId
  taskId : ClientId
  performedByUserId : ClientId
  creditedUserId : ClientId
  pauseReasonId : Option ClientId
  description : Option String
  completionRequestedAt : Instant

def PendingStepCompletion.newRecord (payload : PendingStepCompletion) (newRecordId : ClientId) :
    StepStateRecord where
  clientId := newRecordId
  stepId := payload.stepId
  state := .completed
  pauseReasonId := payload.pauseReasonId.filter (· != "")
  transitionReason := none
  description := payload.description
  takenFromAverage := false
  recordedTimeMarkedWrong := false
  enteredAt := payload.completionRequestedAt
  exitedAt := none
  createdById := some payload.performedByUserId
  creditedUserId := some payload.creditedUserId
  isDeleted := false

def completeDeferred (db : Db) (step : TaskStep) (closingRecord : StepStateRecord)
    (payload : PendingStepCompletion) (now : Instant) (newRecordId : ClientId) :
    Except CommandError Db := do
  let db ← replaceRecord db closingRecord.clientId (payload.newRecord newRecordId)
    payload.completionRequestedAt false false
  let db := db.updateStep step.clientId fun s =>
    { s with closedAt := some payload.completionRequestedAt }
  let db := settleClosedStepTime db step.clientId closingRecord.state payload.creditedUserId
    payload.completionRequestedAt
  let db ← cascadeStepCompletion db step.clientId
  pure (maybeEvaluateTaskReady db step.taskId now)

/-- `handle_finalize_pending_step_completion`; a step that is no longer working is left alone. -/
def finalizePendingStepCompletion (db : Db) (payload : PendingStepCompletion) (now : Instant)
    (newRecordId : ClientId) : Except CommandError Db :=
  match db.fetchStepOfTask payload.taskId payload.stepId with
  | none => pure db
  | some step =>
    if step.state ≠ .working ∨ db.fetchTask payload.taskId = none then pure db
    else
      match db.openRecord step.clientId with
      | none => pure db
      | some closingRecord => completeDeferred db step closingRecord payload now newRecordId

end Finalize

section Run

/-- A command on a task or on its steps, with everything that it reads from outside the tables. -/
inductive TaskOp
  | onSteps (op : Op)
  | create (ctx : ServiceContext) (roleName : Option String) (request : CreateTaskRequest)
      (newEdgeId : ClientId → ClientId → ClientId)
  | forceReady (ctx : ServiceContext) (request : ForceTaskReadyRequest) (limit : LimitOne Row)
      (sequenceOrder : ClientId → ℤ) (newRecordId : ClientId → ClientId)
  | resolve (taskId : ClientId)
  | fail (taskId : ClientId)
  | cancel (taskId : ClientId)
  | delete (ctx : ServiceContext) (limit : LimitOne Row) (taskId : ClientId)
      (newRecordId : ClientId → ClientId)
  | restore (ctx : ServiceContext) (limit : LimitOne Row) (taskId : ClientId)
      (deletedAt : Option Instant) (newRecordId : ClientId → ClientId)
  | pauseForCase (ctx : ServiceContext) (limit : LimitOne Row) (taskId : ClientId)
      (description : String) (newRecordId : ClientId → ClientId)
  | pauseForDeclaredState (ctx : ServiceContext) (limit : LimitOne Row)
      (userId pauseReasonId : ClientId) (newRecordId : ClientId → ClientId)
  | pauseForClockOut (limit : LimitOne Row) (userId actorId : ClientId) (clockOutAt : Instant)
      (newRecordId : ClientId → ClientId)
  | finalize (payload : PendingStepCompletion) (newRecordId : ClientId)

/-- Execute one command at an instant. -/
def TaskOp.execute (db : Db) (now : Instant) : TaskOp → Except CommandError Db
  | .onSteps op => op.execute db now
  | .create ctx roleName request newEdgeId => createTask db ctx roleName request now newEdgeId
  | .forceReady ctx request limit sequenceOrder newRecordId =>
    forceTaskReady db ctx request limit now sequenceOrder newRecordId
  | .resolve taskId => resolveTask db taskId now
  | .fail taskId => failTask db taskId
  | .cancel taskId => cancelTask db taskId
  | .delete ctx limit taskId newRecordId => deleteTask db ctx limit taskId now newRecordId
  | .restore ctx limit taskId deletedAt newRecordId =>
    restoreTask db ctx limit taskId deletedAt newRecordId
  | .pauseForCase ctx limit taskId description newRecordId =>
    pauseTaskWorkingStepsForCase db ctx limit taskId description now newRecordId
  | .pauseForDeclaredState ctx limit userId pauseReasonId newRecordId =>
    TaskSteps.pauseForDeclaredState db ctx limit userId pauseReasonId now newRecordId
  | .pauseForClockOut limit userId actorId clockOutAt newRecordId =>
    TaskSteps.pauseForClockOut db limit userId actorId clockOutAt newRecordId
  | .finalize payload newRecordId => finalizePendingStepCompletion db payload now newRecordId

/-- A command on a task, some time after the one before it. -/
structure TaskCommand where
  elapsed : ℚ≥0
  op : TaskOp

def System.taskNow (s : System) (c : TaskCommand) : Instant := s.clock + c.elapsed

/-- Execute one command on a task. -/
def taskStep (s : System) (c : TaskCommand) : Except CommandError System := do
  let db ← c.op.execute s.db (s.taskNow c)
  pure ⟨s.taskNow c, db⟩

/-- Execute commands on tasks one after the other. -/
abbrev runTasks (s : System) (commands : List TaskCommand) : System :=
  Transition.run taskStep s commands

/-- The tables before the first task is created. -/
def Db.withoutTasks (db : Db) : Db := { db.withoutSteps with tasks := [] }

theorem taskStep_eq_ok {s s' : System} {c : TaskCommand} (h : taskStep s c = .ok s') :
    s'.clock = s.taskNow c ∧ c.op.execute s.db (s.taskNow c) = .ok s'.db := by
  obtain ⟨db, hdb, h⟩ := Transition.bind_eq_ok.mp h
  cases h
  exact ⟨rfl, hdb⟩

end Run

end BeyoManager.TaskSteps
