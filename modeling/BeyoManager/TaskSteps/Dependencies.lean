import BeyoManager.TaskSteps.Transitions

/-! # Dependencies between steps

Edges between the steps of one task, added and removed one at a time or together with the
prerequisite sections of a working section. Each edge is counted in its dependent step.
-/

namespace BeyoManager.TaskSteps

open Relational Transition

/-- `add_step_dependency`. -/
def addStepDependency (db : Db) (taskId stepId prerequisiteStepId newEdgeId : ClientId) :
    Except CommandError Db := do
  throwIf (stepId = prerequisiteStepId) (.validation "A step cannot depend on itself.")
  let dependentStep ← getOr (.notFound "Dependent step not found.")
    (db.fetchStepOfTask taskId stepId)
  let prerequisiteStep ← getOr (.notFound "Prerequisite step not found.")
    (db.fetchStepOfTask taskId prerequisiteStepId)
  throwIf (∃ e ∈ db.taskStepDependencies, e.dependentStepId = stepId ∧
      e.prerequisiteStepId = prerequisiteStepId ∧ e.isActive)
    (.conflict "Dependency edge already exists.")
  let db ← db.insertDependency
    ⟨newEdgeId, dependentStep.clientId, prerequisiteStep.clientId, none⟩
  pure (db.updateStep dependentStep.clientId fun s =>
    recalculateReadiness { s with totalDependencies := s.totalDependencies + 1 })

def Db.removeEdge (db : Db) (edgeId : ClientId) (now : Instant) : Db :=
  { db with
    taskStepDependencies := updateWhere (fun e => e.clientId == edgeId)
      (fun e => { e with removedAt := some now }) db.taskStepDependencies }

def TaskStep.dropDependency (s : TaskStep) : TaskStep :=
  let total := s.totalDependencies - 1
  recalculateReadiness { s with
    totalDependencies := total
    completedDependencies := min s.completedDependencies total }

/-- `remove_step_dependency`. -/
def removeStepDependency (db : Db) (dependencyId : ClientId) (now : Instant) :
    Except CommandError Db := do
  let edge ← getOr (.notFound "Dependency edge not found or already removed.")
    (db.taskStepDependencies.find? fun e => e.clientId == dependencyId && e.isActive)
  let db' := db.removeEdge edge.clientId now
  match db.fetchTaskStep edge.dependentStepId with
  | none => pure db'
  | some step => pure (db'.updateStep step.clientId TaskStep.dropDependency)

/-- The active edges that `_remove_edges_for_sections` finds. -/
def Db.edgesForSections (db : Db) (dependentSectionId : ClientId)
    (removedSectionIds : List ClientId) :
    List TaskStepDependency :=
  db.taskStepDependencies.filter fun e =>
    e.isActive &&
      (db.taskSteps.any fun s => s.clientId == e.dependentStepId &&
        s.workingSectionId == dependentSectionId && !s.isDeleted && !s.state.isTerminal) &&
      (db.taskSteps.any fun s => s.clientId == e.prerequisiteStepId &&
        removedSectionIds.contains s.workingSectionId && !s.isDeleted)

/-- `_remove_edges_for_sections`. -/
def removeEdgesForSections (db : Db) (dependentSectionId : ClientId)
    (removedSectionIds : List ClientId) (now : Instant) : Db :=
  (db.edgesForSections dependentSectionId removedSectionIds).foldl (fun db e =>
    (db.removeEdge e.clientId now).updateStep e.dependentStepId TaskStep.dropDependency) db

def TaskStep.addDependency (s : TaskStep) (prerequisiteState : TaskStepState) : TaskStep :=
  recalculateReadiness { s with
    totalDependencies := s.totalDependencies + 1
    completedDependencies :=
      s.completedDependencies + (if prerequisiteState = .completed then 1 else 0) }

/-- The open dependent steps of a section, each with the prerequisite steps of its task. -/
def Db.pairsForSections (db : Db) (dependentSectionId : ClientId)
    (addedSectionIds : List ClientId) :
    List (TaskStep × TaskStep) :=
  (db.taskSteps.filter fun s =>
    s.workingSectionId == dependentSectionId && !s.isDeleted &&
      !s.state.isTerminal).flatMap fun s =>
      (db.taskSteps.filter fun p =>
        p.taskId == s.taskId && addedSectionIds.contains p.workingSectionId && !p.isDeleted).map
          (s, ·)

def Db.hasActiveEdge (db : Db) (dependentStepId prerequisiteStepId : ClientId) : Bool :=
  db.taskStepDependencies.any fun e => e.dependentStepId == dependentStepId &&
    e.prerequisiteStepId == prerequisiteStepId && e.isActive

/-- `_add_edges_for_sections`; a pair that has an active edge is passed over. -/
def addEdgesForSections (db : Db) (dependentSectionId : ClientId) (addedSectionIds : List ClientId)
    (newEdgeId : ClientId → ClientId → ClientId) : Except CommandError Db :=
  (db.pairsForSections dependentSectionId addedSectionIds).foldlM (fun db (step, prereq) =>
    if db.hasActiveEdge step.clientId prereq.clientId then pure db
    else do
      let db ← db.insertDependency
        ⟨newEdgeId step.clientId prereq.clientId, step.clientId, prereq.clientId, none⟩
      pure (db.updateStep step.clientId (·.addDependency prereq.state))) db

def Db.prerequisiteSections (db : Db) (sectionId : ClientId) : List ClientId :=
  (db.workingSectionDependencies.filter fun d => d.dependentSectionId == sectionId).map
    (·.prerequisiteSectionId)

/-- The breadth-first search of `check_for_dependency_cycle`: does it reach the section? Each
pass that goes on visits one more section. -/
def reachesSection (db : Db) (sectionId : ClientId) :
    ℕ → List ClientId → List ClientId → Bool
  | 0, _, _ => false
  | _ + 1, _, [] => false
  | fuel + 1, visited, current :: queue =>
    if current = sectionId then true
    else if current ∈ visited then reachesSection db sectionId fuel visited queue
    else
      reachesSection db sectionId fuel (current :: visited)
        (queue ++ (db.prerequisiteSections current).filter fun p => p ∉ current :: visited)

/-- `check_for_dependency_cycle`; a section enters the queue once for each row that names it
and once for each new prerequisite. -/
def checkForDependencyCycle (db : Db) (sectionId : ClientId) (newPrerequisiteIds : List ClientId) :
    Except CommandError Unit :=
  throwIf (reachesSection db sectionId
      (newPrerequisiteIds.length + db.workingSectionDependencies.length + 1) [] newPrerequisiteIds)
    (.conflict "Adding these dependencies would create a circular dependency.")

def Db.fetchSection (db : Db) (sectionId : ClientId) : Option WorkingSection :=
  db.workingSections.find? fun s => s.clientId == sectionId && !s.isDeleted

/-- `edit_working_section` with the field `working_section_dependencies`. -/
def editWorkingSectionDependencies (db : Db) (sectionId : ClientId) (depIds : List ClientId)
    (now : Instant) (newEdgeId : ClientId → ClientId → ClientId) : Except CommandError Db := do
  let _ ← getOr (.notFound "Working section not found.") (db.fetchSection sectionId)
  let oldDepIds := db.prerequisiteSections sectionId
  throwIf (¬ depIds.Nodup)
    (.validation "Duplicate IDs in working_section_dependencies are not allowed.")
  match depIds.find? fun id => (db.fetchSection id).isNone with
  | some id => throw (.notFound ("Working section dependency '" ++ id ++ "' was not found."))
  | none => pure ()
  checkForDependencyCycle db sectionId depIds
  let db := { db with
    workingSectionDependencies :=
      deleteWhere (fun d => d.dependentSectionId == sectionId) db.workingSectionDependencies ++
        depIds.map fun id => ⟨sectionId, id⟩ }
  let added := depIds.filter fun id => id ∉ oldDepIds
  let removed := oldDepIds.filter fun id => id ∉ depIds
  let db := removeEdgesForSections db sectionId removed now
  addEdgesForSections db sectionId added newEdgeId

end BeyoManager.TaskSteps
