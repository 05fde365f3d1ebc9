import BeyoManager.Library.Sorting
import BeyoManager.TaskSteps.Dependencies
import Mathlib.Data.String.Basic

/-! # Adding and removing steps

New steps open with a pending record and are wired into the dependency graph of their task.
Removed steps are deleted with their open records closed and their edges removed.
-/

namespace BeyoManager.TaskSteps

open Grouping Relational Transition

/-- `StepInputItem`, with the ids that are generated for the step and its record. -/
structure StepInput where
  clientId : Option ClientId
  workingSectionId : ClientId
  generatedId : ClientId
  recordId : ClientId

/-- The id of the new step. -/
def StepInput.stepId (input : StepInput) : ClientId := input.clientId.getD input.generatedId

/-- The row of a new step; the section decides on batch working. -/
def StepInput.newStep (input : StepInput) (db : Db) (taskId : ClientId) : TaskStep where
  clientId := input.stepId
  taskId := taskId
  state := .pending
  readinessStatus := .ready
  workingSectionId := input.workingSectionId
  totalDependencies := 0
  completedDependencies := 0
  recordedTimeMarkedWrong := false
  takenFromAverage := false
  allowsBatchWorking := (db.fetchSection input.workingSectionId).any (·.allowsBatchWorking)
  closedAt := none
  latestStateRecordId := none
  totalWorking := ⟨0, 0, 0⟩
  totalPause := ⟨0, 0, 0⟩
  totalEndedShift := ⟨0, 0, 0⟩
  totalCostMinor := none
  isDeleted := false

def StepInput.pendingRecord (input : StepInput) (ctx : ServiceContext) (now : Instant) :
    StepStateRecord where
  clientId := input.recordId
  stepId := input.stepId
  state := .pending
  pauseReasonId := none
  transitionReason := none
  description := none
  takenFromAverage := false
  recordedTimeMarkedWrong := false
  enteredAt := now
  exitedAt := none
  createdById := some ctx.userId
  creditedUserId := none
  isDeleted := false

/-- Create one step of `add_task_steps` with its open record. -/
def createStep (db : Db) (ctx : ServiceContext) (taskId : ClientId) (input : StepInput)
    (now : Instant) : Except CommandError Db := do
  let db ← db.insertStep (input.newStep db taskId)
  let db ← db.insertRecord (input.pendingRecord ctx now)
  let db := db.updateStep input.stepId fun s =>
    { s with latestStateRecordId := some input.recordId }
  pure (db.updateTask taskId fun t =>
    if t.state = .pending then { t with state := .assigned } else t)

/-- `maybe_reopen_task_to_working`. -/
def maybeReopenTaskToWorking (db : Db) (taskId : ClientId) : Db :=
  db.updateTask taskId fun t =>
    if t.state = .ready then { t with state := .working, completedAt := none } else t

/-- The section dependencies that touch a section of a new step. -/
def Db.dependencyRows (db : Db) (newSteps : List TaskStep) : List WorkingSectionDependency :=
  let sectionIds := newSteps.map (·.workingSectionId)
  db.workingSectionDependencies.filter fun d =>
    sectionIds.contains d.dependentSectionId || sectionIds.contains d.prerequisiteSectionId

/-- The other steps of the task in a section that these dependencies name. -/
def Db.existingSteps (db : Db) (taskId : ClientId) (newSteps : List TaskStep)
    (rows : List WorkingSectionDependency) : List TaskStep :=
  db.taskSteps.filter fun s =>
    s.taskId == taskId && !s.isDeleted && !(newSteps.map (·.clientId)).contains s.clientId &&
      rows.any fun d => d.dependentSectionId == s.workingSectionId ||
        d.prerequisiteSectionId == s.workingSectionId

/-- The steps among `steps` that a step gets an edge to. -/
def prerequisiteSteps (rows : List WorkingSectionDependency) (steps : List TaskStep)
    (s : TaskStep) : List TaskStep :=
  (keys WorkingSectionDependency.prerequisiteSectionId
    (rows.filter fun d => d.dependentSectionId == s.workingSectionId)).flatMap fun sectionId =>
      steps.filter fun p => p.workingSectionId == sectionId

/-- `_compute_dependency_edges`: each dependent step with its new prerequisites. -/
def computeDependencyEdges (newSteps existingSteps : List TaskStep)
    (rows : List WorkingSectionDependency) : List (TaskStep × List TaskStep) :=
  (newSteps.map fun s => (s, prerequisiteSteps rows (existingSteps ++ newSteps) s)) ++
    (existingSteps.filter fun s =>
      !s.state.isTerminal && rows.any fun d => d.dependentSectionId == s.workingSectionId).map
        fun s => (s, prerequisiteSteps rows newSteps s)

/-- Count the new prerequisites of a step and insert the edges to them. -/
def wireStep (newEdgeId : ClientId → ClientId → ClientId) (db : Db)
    (wired : TaskStep × List TaskStep) : Except CommandError Db := do
  let db := db.updateStep wired.1.clientId fun s => recalculateReadiness { s with
    totalDependencies := s.totalDependencies + wired.2.length
    completedDependencies :=
      s.completedDependencies + wired.2.countP fun p => p.state == .completed }
  wired.2.foldlM (fun db p => db.insertDependency
    ⟨newEdgeId wired.1.clientId p.clientId, wired.1.clientId, p.clientId, none⟩) db

/-- `wire_batch_steps_into_dependency_graph`. -/
def wireBatchSteps (db : Db) (newSteps : List TaskStep) (taskId : ClientId)
    (newEdgeId : ClientId → ClientId → ClientId) : Except CommandError Db :=
  let rows := db.dependencyRows newSteps
  (computeDependencyEdges newSteps (db.existingSteps taskId newSteps rows) rows).foldlM
    (wireStep newEdgeId) db

def Db.missingSection (db : Db) (inputs : List StepInput) : Option ClientId :=
  Sorting.minBy id ((inputs.map (·.workingSectionId)).filter fun id => (db.fetchSection id).isNone)

def Db.checkSections (db : Db) (inputs : List StepInput) : Except CommandError Unit :=
  match db.missingSection inputs with
  | some id => .error (.notFound ("Working section '" ++ id ++ "' not found."))
  | none => .ok ()

/-- `add_task_steps`. -/
def addTaskSteps (db : Db) (ctx : ServiceContext) (taskId : ClientId) (inputs : List StepInput)
    (now : Instant) (newEdgeId : ClientId → ClientId → ClientId) : Except CommandError Db := do
  let provided := inputs.filterMap (·.clientId)
  throwIf (¬ provided.Nodup) (.conflict "Duplicate client_id provided in step batch.")
  throwIf (∃ s ∈ db.taskSteps, s.clientId ∈ provided)
    (.conflict "Provided client_id is already in use.")
  let task ← getOr (.notFound "Task not found.") (db.fetchTask taskId)
  throwIf (isTerminalTaskState task.state) (.conflict "Cannot add a step to a terminal task.")
  db.checkSections inputs
  let db ← inputs.foldlM (fun db input => createStep db ctx taskId input now) db
  let db := if inputs = [] then db else maybeReopenTaskToWorking db taskId
  wireBatchSteps db
    (db.taskSteps.filter fun s => (inputs.map StepInput.stepId).contains s.clientId)
      taskId newEdgeId

/-- `_apply_removed_dependency_counts`. -/
def TaskStep.applyRemovedDependencyCounts (s : TaskStep) (removedTotal removedCompleted : ℕ) :
    TaskStep :=
  let total := s.totalDependencies - removedTotal
  recalculateReadiness { s with
    totalDependencies := total
    completedDependencies := min (s.completedDependencies - removedCompleted) total }

def Db.edgesTouching (db : Db) (stepIds : List ClientId) : List TaskStepDependency :=
  db.taskStepDependencies.filter fun e => e.isActive &&
    (stepIds.contains e.dependentStepId || stepIds.contains e.prerequisiteStepId)

/-- The removed edges that `_count_removed_prerequisite_edges` counts for a dependent step. -/
def countedEdges (edges : List TaskStepDependency) (removedStepIds : List ClientId)
    (dependentStepId : ClientId) : List TaskStepDependency :=
  edges.filter fun e => removedStepIds.contains e.prerequisiteStepId &&
    !removedStepIds.contains e.dependentStepId && e.dependentStepId == dependentStepId

def Db.markStepsRemoved (db : Db) (stepIds : List ClientId) (now : Instant) : Db :=
  { db with
    taskSteps := updateWhere (fun s => stepIds.contains s.clientId)
      (fun s => { s with state := .skipped, closedAt := some now, isDeleted := true })
        db.taskSteps }

def Db.closeOpenRecords (db : Db) (stepIds : List ClientId) (now : Instant) :
    Except CommandError Db := do
  throwIf (∃ r ∈ db.stepStateRecords, r.stepId ∈ stepIds ∧ r.isOpen ∧ now < r.enteredAt)
    (.integrity "ck_step_state_records_exited_after_entered")
  pure { db with
    stepStateRecords := updateWhere (fun r => stepIds.contains r.stepId && r.isOpen)
      (fun r => { r with exitedAt := some now }) db.stepStateRecords }

def Db.removeEdges (db : Db) (edges : List TaskStepDependency) (now : Instant) : Db :=
  { db with
    taskStepDependencies := updateWhere (fun e => edges.contains e)
      (fun e => { e with removedAt := some now }) db.taskStepDependencies }

def Db.stepsOfTask (db : Db) (taskId : ClientId) (stepIds : List ClientId) : List TaskStep :=
  db.taskSteps.filter fun s => s.taskId == taskId && stepIds.contains s.clientId

def completedIds (steps : List TaskStep) : List ClientId :=
  (steps.filter fun s => s.state == .completed).map (·.clientId)

def Db.dropRemovedDependencies (db : Db) (edges : List TaskStepDependency)
    (stepIds completed : List ClientId) : Db :=
  { db with
    taskSteps := updateWhere
      (fun s => !s.isDeleted && countedEdges edges stepIds s.clientId != [])
      (fun s =>
        let counted := countedEdges edges stepIds s.clientId
        s.applyRemovedDependencyCounts counted.length
          (counted.countP fun e => completed.contains e.prerequisiteStepId))
      db.taskSteps }

/-- `_remove_task_steps_in_session`. -/
def removeTaskStepsInSession (db : Db) (taskId : ClientId) (stepIds : List ClientId)
    (now : Instant) : Except CommandError Db := do
  let task ← getOr (.notFound "Task not found.")
    (db.tasks.find? fun t => t.clientId == taskId)
  let foundSteps := db.stepsOfTask taskId stepIds
  let missing := Sorting.sortBy id
    (stepIds.filter fun stepId => !(foundSteps.map (·.clientId)).contains stepId)
  throwIf (missing ≠ []) (.notFound ("Task step(s) not found: " ++ ", ".intercalate missing))
  let deleted := Sorting.sortBy id ((foundSteps.filter (·.isDeleted)).map (·.clientId))
  throwIf (deleted ≠ [])
    (.conflict ("Task step(s) already deleted: " ++ ", ".intercalate deleted))
  let edges := db.edgesTouching stepIds
  let db ← (db.markStepsRemoved stepIds now).closeOpenRecords stepIds now
  let db := db.removeEdges edges now
  let db := db.dropRemovedDependencies edges stepIds (completedIds foundSteps)
  pure (
    if db.liveSteps task.clientId = [] then db.updateTask task.clientId fun t =>
      { t with state := .pending }
    else maybeEvaluateTaskReady db task.clientId now)

/-- `remove_task_step`. -/
def removeTaskStep (db : Db) (taskId stepId : ClientId) (now : Instant) : Except CommandError Db :=
  removeTaskStepsInSession db taskId [stepId] now

/-- `RemoveTaskStepsRequest`, with what its validator accepts. -/
structure RemoveTaskStepsRequest where
  taskId : ClientId
  stepIds : List ClientId
  nonempty : stepIds ≠ []

/-- `remove_task_steps`. -/
def removeTaskSteps (db : Db) (request : RemoveTaskStepsRequest) (now : Instant) :
    Except CommandError Db := do
  throwIf (¬ request.stepIds.Nodup) (.conflict "Duplicate step_id provided in step batch.")
  removeTaskStepsInSession db request.taskId request.stepIds now

end BeyoManager.TaskSteps
