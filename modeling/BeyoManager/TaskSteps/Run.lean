import BeyoManager.TaskSteps.StepCommands
import Mathlib.Data.NNRat.Defs

/-! # Runs of the step commands

The commands on the steps of the tasks, each executed atomically. The clock that a command
reads never goes back. Generated ids are parameters of a command.
-/

namespace BeyoManager.TaskSteps

/-- A command, with everything that it reads from outside the tables. -/
inductive Op
  | transition (ctx : ServiceContext) (request : TransitionStepStateRequest) (limit : LimitOne Row)
      (newRecordId autoPauseRecordId : ClientId)
  | transitionBatch (ctx : ServiceContext) (request : BatchTransitionStepStateRequest)
      (limit : LimitOne Row) (newRecordId autoPauseRecordId : ClientId → ClientId)
  | markInaccurate (recordId : ClientId)
  | addSteps (ctx : ServiceContext) (taskId : ClientId) (inputs : List StepInput)
      (newEdgeId : ClientId → ClientId → ClientId)
  | removeStep (taskId stepId : ClientId)
  | removeSteps (request : RemoveTaskStepsRequest)
  | addDependency (taskId stepId prerequisiteStepId newEdgeId : ClientId)
  | removeDependency (dependencyId : ClientId)
  | editSectionDependencies (sectionId : ClientId) (depIds : List ClientId)
      (newEdgeId : ClientId → ClientId → ClientId)

/-- Execute one command at an instant. -/
def Op.execute (db : Db) (now : Instant) : Op → Except CommandError Db
  | .transition ctx request limit newRecordId autoPauseRecordId =>
    transitionStepState db ctx request limit now newRecordId autoPauseRecordId
  | .transitionBatch ctx request limit newRecordId autoPauseRecordId =>
    transitionStepStateBatch db ctx request limit now newRecordId autoPauseRecordId
  | .markInaccurate recordId => markStepTimeInaccurate db recordId
  | .addSteps ctx taskId inputs newEdgeId => addTaskSteps db ctx taskId inputs now newEdgeId
  | .removeStep taskId stepId => removeTaskStep db taskId stepId now
  | .removeSteps request => removeTaskSteps db request now
  | .addDependency taskId stepId prerequisiteStepId newEdgeId =>
    addStepDependency db taskId stepId prerequisiteStepId newEdgeId
  | .removeDependency dependencyId => removeStepDependency db dependencyId now
  | .editSectionDependencies sectionId depIds newEdgeId =>
    editWorkingSectionDependencies db sectionId depIds now newEdgeId

/-- The tables and the clock. -/
structure System where
  clock : Instant
  db : Db

/-- A command, some time after the one before it. -/
structure Command where
  elapsed : ℚ≥0
  op : Op

/-- The instant at which a command is executed. -/
def System.now (s : System) (c : Command) : Instant := s.clock + c.elapsed

def step (s : System) (c : Command) : Except CommandError System := do
  let db ← c.op.execute s.db (s.now c)
  pure ⟨s.now c, db⟩

abbrev run (s : System) (commands : List Command) : System := Transition.run step s commands

/-- The tables before the first step is added. -/
def Db.withoutSteps (db : Db) : Db :=
  { db with taskSteps := [], stepStateRecords := [], taskStepDependencies := [] }

theorem step_eq_ok {s s' : System} {c : Command} (h : step s c = .ok s') :
    s'.clock = s.now c ∧ c.op.execute s.db (s.now c) = .ok s'.db := by
  obtain ⟨db, hdb, h⟩ := Transition.bind_eq_ok.mp h
  cases h
  exact ⟨rfl, hdb⟩

section Workshop

/-- A workspace with one task; batch working is allowed in the second of its sections. -/
def workshop : Db where
  tasks := [⟨"task", .pending, none, false⟩]
  taskSteps := []
  stepStateRecords := []
  taskStepDependencies := []
  workingSections := [⟨"sewing", false, false⟩, ⟨"washing", true, false⟩]
  workingSectionDependencies := []
  pauseReasons := []
  items := []
  taskItems := []
  userWorkProfiles := []

def manager : ServiceContext := ⟨"manager", by decide⟩

def worker : ServiceContext := ⟨"worker", by decide⟩

def addsSteps (steps : List (ClientId × ClientId)) : Command where
  elapsed := 0
  op := .addSteps manager "task" (steps.map fun (stepId, sectionId) =>
    ⟨some stepId, sectionId, stepId, "opens " ++ stepId⟩) fun dependentId prerequisiteId =>
      dependentId ++ " after " ++ prerequisiteId

/-- Move a step to a state, ten seconds after the command before; the new record is named after
the two. -/
def moves (ctx : ServiceContext) (creditedUserId : Option ClientId) (stepId : ClientId)
    (newState : TaskStepState) (flag : Bool) : Command where
  elapsed := 10
  op := .transition ctx ⟨stepId, "task", newState, creditedUserId, none, none, flag⟩ .head
    (stepId ++ " " ++ newState.value) ("before " ++ stepId ++ " " ++ newState.value)

end Workshop

end BeyoManager.TaskSteps
