import BeyoManager.TaskSteps.RecordWrites
import BeyoManager.TaskSteps.Run

/-! # What the step commands write

Each successful command read back: the checks that it passed and the pieces that it is
made of. The commands on dependencies write no record and, in the steps, only counters.
-/

namespace BeyoManager.TaskSteps

open Grouping Relational Transition

variable {db db' : Db} {now : Instant} {ctx : ServiceContext} {limit : LimitOne Row}

section Transitions

variable {step : TaskStep} {t : StepTransition}

theorem mem_openUserWorkingRows {userIds : List ClientId} {excludeStepId : ClientId} {row : Row} :
    row ∈ db.openUserWorkingRows userIds excludeStepId ↔
      row.1 ∈ db.stepStateRecords ∧ (∃ u ∈ userIds, row.1.createdById = some u) ∧
        row.1.state = .working ∧ row.1.exitedAt = none ∧ row.1.stepId ≠ excludeStepId ∧
          db.taskSteps.find? (fun s =>
            s.clientId == row.1.stepId && !s.isDeleted && !s.allowsBatchWorking) = some row.2 := by
  have hany : ∀ r : StepStateRecord, (r.createdById.any fun u => userIds.contains u) = true ↔
      ∃ u ∈ userIds, r.createdById = some u := by
    intro r
    rw [Option.any_eq_true]
    simp only [List.contains_iff_mem]
    exact ⟨fun ⟨u, hu, hmem⟩ => ⟨u, hmem, hu⟩, fun ⟨u, hmem, hu⟩ => ⟨u, hu, hmem⟩⟩
  simp only [Db.openUserWorkingRows, List.mem_filterMap, List.mem_filter, Bool.and_eq_true,
    hany, beq_iff_eq, bne_iff_ne, StepStateRecord.isOpen, Option.isNone_iff_eq_none,
    Option.map_eq_some_iff]
  constructor
  · rintro ⟨r, ⟨hr, ⟨⟨hu, hw⟩, ho⟩, hne⟩, s, hs, rfl⟩
    exact ⟨hr, hu, hw, ho, hne, hs⟩
  · rintro ⟨hr, hu, hw, ho, hne, hs⟩
    exact ⟨row.1, ⟨hr, ⟨⟨hu, hw⟩, ho⟩, hne⟩, row.2, hs, rfl⟩

theorem step_of_openUserWorkingRows {userIds : List ClientId} {excludeStepId : ClientId}
    {row : Row} (h : row ∈ db.openUserWorkingRows userIds excludeStepId) :
    row.2 ∈ db.taskSteps ∧ row.2.clientId = row.1.stepId ∧ row.2.isDeleted = false ∧
      row.2.allowsBatchWorking = false := by
  have hs := (mem_openUserWorkingRows.mp h).2.2.2.2.2
  have hp := List.find?_some hs
  simp only [Bool.and_eq_true, beq_iff_eq, Bool.not_eq_true'] at hp
  exact ⟨List.mem_of_find?_eq_some hs, hp.1.1, hp.1.2, hp.2⟩

theorem autoPause_of_batch (hb : step.allowsBatchWorking = true) :
    autoPause db limit step t now = .ok db := by
  rw [autoPause, if_neg (by simp [hb])]
  rfl

/-- An auto-pause changes nothing, or it replaces the working record that it found. -/
theorem autoPause_cases (h : autoPause db limit step t now = .ok db') :
    (db' = db ∧ (t.newState = .working → step.allowsBatchWorking = false →
      limit.first (db.openUserWorkingRows [t.performerId, t.creditedUserId] step.clientId) =
        none)) ∨
    ∃ row ∈ db.openUserWorkingRows [t.performerId, t.creditedUserId] step.clientId,
      t.newState = .working ∧ step.allowsBatchWorking = false ∧
      limit.first (db.openUserWorkingRows [t.performerId, t.creditedUserId] step.clientId) =
        some row ∧
      (∀ r ∈ db.stepStateRecords, r.clientId = row.1.clientId → r.enteredAt ≤ now) ∧
      (∀ r ∈ db.stepStateRecords, r.clientId ≠ t.autoPauseRecordId) ∧
      db' = settleClosedStepTime (db.replaced row.1.clientId
        (t.autoPauseRecord db step.taskId row.2.clientId now) now false false)
          row.2.clientId .working t.performerId now := by
  rw [autoPause] at h
  split at h
  · rename_i hw
    split at h
    · rename_i hnone
      cases h
      exact .inl ⟨rfl, fun _ _ => hnone⟩
    · rename_i r s hsome
      obtain ⟨db₁, h₁, h⟩ := bind_eq_ok.mp h
      obtain ⟨rfl, hle, hfresh, -⟩ := replaceRecord_eq_ok h₁
      cases h
      exact .inr ⟨(r, s), limit.mem _ _ hsome, hw.1, by simpa using hw.2, hsome, hle, hfresh, rfl⟩
  · rename_i hw
    cases h
    exact .inl ⟨rfl, fun h₁ h₂ => absurd ⟨h₁, by simp [h₂]⟩ hw⟩

/-- The tables after the records of a transition are written and the step is settled. -/
def Db.transitioned (db : Db) (step : TaskStep) (closing : StepStateRecord) (t : StepTransition)
    (now : Instant) : Db :=
  settleClosedStepTime
    (db.replaced closing.clientId (t.newRecord step.clientId now) now (t.flagsClosing closing)
      (t.flagsClosing closing && t.newState == .completed))
    step.clientId closing.state t.creditedUserId now

theorem closeAndOpen_eq_ok {closing : StepStateRecord}
    (h : closeAndOpen db step closing t now = .ok db') :
    (∀ r ∈ db.stepStateRecords, r.clientId = closing.clientId → r.enteredAt ≤ now) ∧
      (∀ r ∈ db.stepStateRecords, r.clientId ≠ t.newRecordId) ∧
      transitionSideEffects (db.transitioned step closing t now) step t.newState now = .ok db' := by
  obtain ⟨db₁, h₁, h⟩ := bind_eq_ok.mp h
  obtain ⟨rfl, hle, hfresh, -⟩ := replaceRecord_eq_ok h₁
  exact ⟨hle, hfresh, h⟩

theorem fetchStepOfTask_eq_some {taskId stepId : ClientId}
    (h : db.fetchStepOfTask taskId stepId = some step) :
    step ∈ db.taskSteps ∧ step.clientId = stepId ∧ step.taskId = taskId ∧
      step.isDeleted = false := by
  have hp := List.find?_some h
  simp only [Bool.and_eq_true, beq_iff_eq, Bool.not_eq_true'] at hp
  exact ⟨List.mem_of_find?_eq_some h, hp.1.1, hp.1.2, hp.2⟩

theorem fetchTaskStep_eq_some {stepId : ClientId} (h : db.fetchTaskStep stepId = some step) :
    step ∈ db.taskSteps ∧ step.clientId = stepId ∧ step.isDeleted = false := by
  have hp := List.find?_some h
  simp only [Bool.and_eq_true, beq_iff_eq, Bool.not_eq_true'] at hp
  exact ⟨List.mem_of_find?_eq_some h, hp.1, hp.2⟩

theorem openRecord_eq_some {stepId : ClientId} {r : StepStateRecord}
    (h : db.openRecord stepId = some r) :
    r ∈ db.stepStateRecords ∧ r.stepId = stepId ∧ r.exitedAt = none := by
  have hp := List.find?_some h
  simp only [Bool.and_eq_true, beq_iff_eq, StepStateRecord.isOpen,
    Option.isNone_iff_eq_none] at hp
  exact ⟨List.mem_of_find?_eq_some h, hp.1, hp.2⟩

/-- A single transition: the step may be left for the new state, then the auto-pause and the
transition of the step. -/
theorem transitionStepState_eq_ok {request : TransitionStepStateRequest}
    {newRecordId autoPauseRecordId : ClientId}
    (h : transitionStepState db ctx request limit now newRecordId autoPauseRecordId = .ok db') :
    ∃ step, db.fetchStepOfTask request.taskId request.stepId = some step ∧
      request.newState ∈ allowedTransitions step.state ∧
      ∃ db₁ closing,
        autoPause db limit step (request.transition ctx newRecordId autoPauseRecordId) now =
          .ok db₁ ∧
        db₁.openRecord step.clientId = some closing ∧
        closeAndOpen db₁ step closing (request.transition ctx newRecordId autoPauseRecordId) now =
          .ok db' := by
  obtain ⟨step, hstep, h⟩ := bind_eq_ok.mp h
  obtain ⟨-, h⟩ := throwIf_bind_eq_ok.mp h
  obtain ⟨hallowed, h⟩ := throwIf_bind_eq_ok.mp h
  obtain ⟨task, -, h⟩ := bind_eq_ok.mp h
  obtain ⟨reason, -, h⟩ := bind_eq_ok.mp h
  have hrest : (do
      let db ← autoPause db limit step (request.transition ctx newRecordId autoPauseRecordId) now
      let closingRecord ← getOr (.conflict "No open state record found for this step.")
        (db.openRecord step.clientId)
      closeAndOpen db step closingRecord (request.transition ctx newRecordId autoPauseRecordId)
        now) = .ok db' := by
    cases reason with
    | none => exact h
    | some reason =>
      obtain ⟨u, -, h⟩ := bind_eq_ok.mp h
      exact h
  obtain ⟨db₁, h₁, h⟩ := bind_eq_ok.mp hrest
  obtain ⟨closing, hclosing, h⟩ := bind_eq_ok.mp h
  exact ⟨step, getOr_eq_ok.mp hstep, not_not.mp hallowed, db₁, closing, h₁,
    getOr_eq_ok.mp hclosing, h⟩

theorem batchItemError_eq_none {newState : TaskStepState} {item : BatchTransitionItem}
    (h : batchItemError db newState item = none) :
    ∃ step closing, db.fetchTaskStep item.stepId = some step ∧ step.allowsBatchWorking = true ∧
      newState ∈ allowedTransitions step.state ∧ db.openRecord item.stepId = some closing := by
  rw [batchItemError] at h
  split at h
  · cases h
  · rename_i step hstep
    split_ifs at h with h₁ h₂ h₃ h₄ h₅ h₆
    obtain ⟨closing, hclosing⟩ := Option.ne_none_iff_exists'.mp h₆
    exact ⟨step, closing, hstep, by simpa using h₂, h₅, hclosing⟩

theorem transitionStepStateBatch_eq_ok {request : BatchTransitionStepStateRequest}
    {newRecordId autoPauseRecordId : ClientId → ClientId}
    (h : transitionStepStateBatch db ctx request limit now newRecordId autoPauseRecordId =
      .ok db') :
    (∀ item ∈ request.items, batchItemError db request.newState item = none) ∧
      (loadBatch db request.items).foldlM (fun db x =>
        applyStepTransition db limit x.2.1 x.2.2
          (request.transition ctx x.1 (newRecordId x.1.stepId) (autoPauseRecordId x.1.stepId)) now)
        db = .ok db' := by
  obtain ⟨reason, -, h⟩ := bind_eq_ok.mp h
  obtain ⟨herrors, h⟩ := throwIf_bind_eq_ok.mp h
  refine ⟨fun item hitem => ?_, ?_⟩
  · have hnil := List.filterMap_eq_nil_iff.mp (not_not.mp herrors) item hitem
    rwa [Option.map_eq_none_iff] at hnil
  · cases reason with
    | none => exact h
    | some reason =>
      obtain ⟨u, -, h⟩ := bind_eq_ok.mp h
      exact h

theorem transitionStepStateBatch_error {request : BatchTransitionStepStateRequest}
    {newRecordId autoPauseRecordId : ClientId → ClientId} {item : BatchTransitionItem}
    (hitem : item ∈ request.items) (herror : batchItemError db request.newState item ≠ none) :
    ∀ db', transitionStepStateBatch db ctx request limit now newRecordId autoPauseRecordId ≠
      .ok db' :=
  fun _ h => herror ((transitionStepStateBatch_eq_ok h).1 item hitem)

theorem markStepTimeInaccurate_eq_ok {recordId : ClientId}
    (h : markStepTimeInaccurate db recordId = .ok db') :
    ∃ record ∈ db.stepStateRecords, ∃ step, record.clientId = recordId ∧
      record.isDeleted = false ∧ db.fetchTaskStep record.stepId = some step ∧
        db' = applyInaccurateTimeFlag db record.clientId step.clientId := by
  obtain ⟨record, hrecord, h⟩ := bind_eq_ok.mp h
  obtain ⟨step, hstep, h⟩ := bind_eq_ok.mp h
  cases h
  have hrecord := getOr_eq_ok.mp hrecord
  have hp := List.find?_some hrecord
  simp only [Bool.and_eq_true, beq_iff_eq, Bool.not_eq_true'] at hp
  exact ⟨record, List.mem_of_find?_eq_some hrecord, step, hp.1, hp.2, getOr_eq_ok.mp hstep, rfl⟩

end Transitions

structure CountFrame (db db' : Db) : Prop where
  records : db'.stepStateRecords = db.stepStateRecords
  steps : db'.taskSteps.map TaskStep.uncounted = db.taskSteps.map TaskStep.uncounted

namespace CountFrame

variable {db'' : Db}

theorem refl (db : Db) : CountFrame db db := ⟨rfl, rfl⟩

theorem trans (h : CountFrame db db') (h' : CountFrame db' db'') : CountFrame db db'' :=
  ⟨h'.records.trans h.records, h'.steps.trans h.steps⟩

theorem core (h : CountFrame db db') :
    db'.taskSteps.map TaskStep.core = db.taskSteps.map TaskStep.core := by
  have hmap := congrArg (List.map TaskStep.untimed) h.steps
  rwa [List.map_map, List.map_map] at hmap

theorem updateStep {f : TaskStep → TaskStep} (hf : ∀ s, (f s).uncounted = s.uncounted) (db : Db)
    (stepId : ClientId) : CountFrame db (db.updateStep stepId f) :=
  ⟨rfl, map_updateWhere_of_fixed fun s _ _ => hf s⟩

theorem foldl {δ : Type} {f : Db → δ → Db} (hf : ∀ db d, CountFrame db (f db d)) (l : List δ)
    (db : Db) : CountFrame db (l.foldl f db) := by
  induction l generalizing db with
  | nil => exact refl db
  | cons d l ih => exact (hf db d).trans (ih (f db d))

theorem foldlM {δ : Type} {f : Db → δ → Except CommandError Db}
    (hf : ∀ db d db', f db d = .ok db' → CountFrame db db') {l : List δ}
    (h : l.foldlM f db = .ok db') : CountFrame db db' :=
  foldlM_invariant (CountFrame db) (fun t d _ t' ht hd => ht.trans (hf t d t' hd)) (refl db) h

end CountFrame

section Dependencies

theorem insertDependency_eq_ok {e : TaskStepDependency} (h : db.insertDependency e = .ok db') :
    db' = { db with taskStepDependencies := db.taskStepDependencies ++ [e] } ∧
      (∀ x ∈ db.taskStepDependencies, x.clientId ≠ e.clientId) ∧
      e.dependentStepId ≠ e.prerequisiteStepId ∧
      ∀ x ∈ db.taskStepDependencies, x.dependentStepId = e.dependentStepId →
        x.prerequisiteStepId = e.prerequisiteStepId → x.isActive = false := by
  obtain ⟨hfresh, h⟩ := throwIf_bind_eq_ok.mp h
  obtain ⟨hself, h⟩ := throwIf_bind_eq_ok.mp h
  obtain ⟨hactive, h⟩ := throwIf_bind_eq_ok.mp h
  cases h
  exact ⟨rfl, fun x hx he => hfresh ⟨x, hx, he⟩, hself, fun x hx hd hp =>
    Bool.not_eq_true _ ▸ fun ha => hactive ⟨x, hx, hd, hp, ha⟩⟩

theorem insertDependency_frame {e : TaskStepDependency} (h : db.insertDependency e = .ok db') :
    CountFrame db db' := by
  rw [(insertDependency_eq_ok h).1]
  exact ⟨rfl, rfl⟩

theorem addStepDependency_eq_ok {taskId stepId prerequisiteStepId newEdgeId : ClientId}
    (h : addStepDependency db taskId stepId prerequisiteStepId newEdgeId = .ok db') :
    ∃ dependentStep prerequisiteStep db₁,
      db.fetchStepOfTask taskId stepId = some dependentStep ∧
      db.fetchStepOfTask taskId prerequisiteStepId = some prerequisiteStep ∧
      db.insertDependency ⟨newEdgeId, dependentStep.clientId, prerequisiteStep.clientId, none⟩ =
        .ok db₁ ∧
      db' = db₁.updateStep dependentStep.clientId fun s =>
        recalculateReadiness { s with totalDependencies := s.totalDependencies + 1 } := by
  obtain ⟨-, h⟩ := throwIf_bind_eq_ok.mp h
  obtain ⟨dependentStep, hd, h⟩ := bind_eq_ok.mp h
  obtain ⟨prerequisiteStep, hp, h⟩ := bind_eq_ok.mp h
  obtain ⟨-, h⟩ := throwIf_bind_eq_ok.mp h
  obtain ⟨db₁, h₁, h⟩ := bind_eq_ok.mp h
  cases h
  exact ⟨dependentStep, prerequisiteStep, db₁, getOr_eq_ok.mp hd, getOr_eq_ok.mp hp, h₁, rfl⟩

theorem addStepDependency_frame {taskId stepId prerequisiteStepId newEdgeId : ClientId}
    (h : addStepDependency db taskId stepId prerequisiteStepId newEdgeId = .ok db') :
    CountFrame db db' := by
  obtain ⟨_, _, db₁, -, -, h₁, rfl⟩ := addStepDependency_eq_ok h
  refine (insertDependency_frame h₁).trans (.updateStep ?_ db₁ _)
  exact fun s => rfl

theorem removeStepDependency_eq_ok {dependencyId : ClientId}
    (h : removeStepDependency db dependencyId now = .ok db') :
    ∃ edge ∈ db.taskStepDependencies, edge.clientId = dependencyId ∧ edge.isActive = true ∧
      db' = match db.fetchTaskStep edge.dependentStepId with
        | none => db.removeEdge edge.clientId now
        | some step =>
          (db.removeEdge edge.clientId now).updateStep step.clientId TaskStep.dropDependency := by
  obtain ⟨edge, hedge, h⟩ := bind_eq_ok.mp h
  have hedge := getOr_eq_ok.mp hedge
  have hp := List.find?_some hedge
  simp only [Bool.and_eq_true, beq_iff_eq] at hp
  refine ⟨edge, List.mem_of_find?_eq_some hedge, hp.1, hp.2, ?_⟩
  cases hs : db.fetchTaskStep edge.dependentStepId with
  | none =>
    simp only [hs] at h
    exact (Except.ok.inj h).symm
  | some step =>
    simp only [hs] at h
    exact (Except.ok.inj h).symm

theorem dropEdge_frame (db : Db) (edgeId stepId : ClientId) (now : Instant) :
    CountFrame db ((db.removeEdge edgeId now).updateStep stepId TaskStep.dropDependency) := by
  have hedge : CountFrame db (db.removeEdge edgeId now) := ⟨rfl, rfl⟩
  refine hedge.trans (.updateStep ?_ (db.removeEdge edgeId now) stepId)
  exact fun s => rfl

theorem removeStepDependency_frame {dependencyId : ClientId}
    (h : removeStepDependency db dependencyId now = .ok db') : CountFrame db db' := by
  obtain ⟨edge, -, -, -, rfl⟩ := removeStepDependency_eq_ok h
  split
  · exact ⟨rfl, rfl⟩
  · exact dropEdge_frame db _ _ now

theorem addEdgesForSections_frame {sectionId : ClientId} {addedSectionIds : List ClientId}
    {newEdgeId : ClientId → ClientId → ClientId}
    (h : addEdgesForSections db sectionId addedSectionIds newEdgeId = .ok db') :
    CountFrame db db' := by
  refine CountFrame.foldlM (fun db pair db' h => ?_) h
  obtain ⟨step, prereq⟩ := pair
  dsimp only at h
  split at h
  · cases h
    exact .refl db
  · obtain ⟨db₁, h₁, h⟩ := bind_eq_ok.mp h
    cases h
    refine (insertDependency_frame h₁).trans (.updateStep ?_ db₁ _)
    exact fun s => rfl

def Db.withPrerequisiteSections (db : Db) (sectionId : ClientId) (depIds : List ClientId) : Db :=
  { db with
    workingSectionDependencies :=
      deleteWhere (fun d => d.dependentSectionId == sectionId) db.workingSectionDependencies ++
        depIds.map fun id => ⟨sectionId, id⟩ }

theorem editWorkingSectionDependencies_eq_ok {sectionId : ClientId} {depIds : List ClientId}
    {newEdgeId : ClientId → ClientId → ClientId}
    (h : editWorkingSectionDependencies db sectionId depIds now newEdgeId = .ok db') :
    addEdgesForSections
      (removeEdgesForSections (db.withPrerequisiteSections sectionId depIds) sectionId
        ((db.prerequisiteSections sectionId).filter fun id => id ∉ depIds) now)
      sectionId (depIds.filter fun id => id ∉ db.prerequisiteSections sectionId) newEdgeId =
        .ok db' := by
  obtain ⟨section_, -, h⟩ := bind_eq_ok.mp h
  obtain ⟨-, h⟩ := throwIf_bind_eq_ok.mp h
  split at h
  · cases h
  · obtain ⟨u, -, h⟩ := bind_eq_ok.mp h
    exact h

theorem editWorkingSectionDependencies_frame {sectionId : ClientId} {depIds : List ClientId}
    {newEdgeId : ClientId → ClientId → ClientId}
    (h : editWorkingSectionDependencies db sectionId depIds now newEdgeId = .ok db') :
    CountFrame db db' := by
  have hadd := addEdgesForSections_frame (editWorkingSectionDependencies_eq_ok h)
  have hremove : CountFrame (db.withPrerequisiteSections sectionId depIds)
      (removeEdgesForSections (db.withPrerequisiteSections sectionId depIds) sectionId
        ((db.prerequisiteSections sectionId).filter fun id => id ∉ depIds) now) :=
    .foldl (fun db e => dropEdge_frame db _ _ now) _ _
  have hsections : CountFrame db (db.withPrerequisiteSections sectionId depIds) := ⟨rfl, rfl⟩
  exact (hsections.trans hremove).trans hadd

end Dependencies

section StepCommands

/-- The row of a new step, once its first record is stored. -/
def StepInput.storedStep (input : StepInput) (db : Db) (taskId : ClientId) : TaskStep :=
  { input.newStep db taskId with latestStateRecordId := some input.recordId }

/-- A created step: a new row and its open record, both under new ids. -/
theorem createStep_eq_ok {taskId : ClientId} {input : StepInput}
    (h : createStep db ctx taskId input now = .ok db') :
    (∀ s ∈ db.taskSteps, s.clientId ≠ input.stepId) ∧
      (∀ r ∈ db.stepStateRecords, r.clientId ≠ input.recordId) ∧
      db'.taskSteps = db.taskSteps ++ [input.storedStep db taskId] ∧
      db'.stepStateRecords = db.stepStateRecords ++ [input.pendingRecord ctx now] ∧
      db'.taskStepDependencies = db.taskStepDependencies := by
  obtain ⟨db₁, h₁, h⟩ := bind_eq_ok.mp h
  obtain ⟨hstep, h₁⟩ := throwIf_bind_eq_ok.mp h₁
  cases h₁
  obtain ⟨db₂, h₂, h⟩ := bind_eq_ok.mp h
  obtain ⟨rfl, hrecord, -⟩ := insertRecord_eq_ok h₂
  cases h
  have hnew : ∀ s ∈ db.taskSteps, s.clientId ≠ input.stepId := fun s hs hid => hstep ⟨s, hs, hid⟩
  refine ⟨hnew, hrecord, ?_, rfl, rfl⟩
  simp only [Db.updateTask, Db.updateStep, updateWhere, List.map_append, List.map_singleton]
  congr 1
  · refine (List.map_congr_left fun s hs => ?_).trans (List.map_id _)
    rw [if_neg (by simpa using hnew s hs), id_eq]
  · rw [if_pos (by simp [StepInput.newStep]), StepInput.storedStep]

theorem addTaskSteps_eq_ok {taskId : ClientId} {inputs : List StepInput}
    {newEdgeId : ClientId → ClientId → ClientId}
    (h : addTaskSteps db ctx taskId inputs now newEdgeId = .ok db') :
    ∃ db₁, inputs.foldlM (fun db input => createStep db ctx taskId input now) db = .ok db₁ ∧
      ∃ db₂, StepFrame id db₁ db₂ ∧ wireBatchSteps db₂
        (db₂.taskSteps.filter fun s => (inputs.map StepInput.stepId).contains s.clientId) taskId
          newEdgeId = .ok db' := by
  obtain ⟨-, h⟩ := throwIf_bind_eq_ok.mp h
  obtain ⟨-, h⟩ := throwIf_bind_eq_ok.mp h
  obtain ⟨task, -, h⟩ := bind_eq_ok.mp h
  obtain ⟨-, h⟩ := throwIf_bind_eq_ok.mp h
  obtain ⟨u, -, h⟩ := bind_eq_ok.mp h
  obtain ⟨db₁, h₁, h⟩ := bind_eq_ok.mp h
  refine ⟨db₁, h₁, _, ?_, h⟩
  split
  · exact .refl db₁
  · exact .updateTask _ db₁ taskId

theorem wireStep_frame {newEdgeId : ClientId → ClientId → ClientId}
    {wired : TaskStep × List TaskStep} (h : wireStep newEdgeId db wired = .ok db') :
    CountFrame db db' := by
  have hcount : CountFrame db (db.updateStep wired.1.clientId fun s => recalculateReadiness { s with
      totalDependencies := s.totalDependencies + wired.2.length
      completedDependencies :=
        s.completedDependencies + wired.2.countP fun p => p.state == .completed }) := by
    refine .updateStep ?_ db _
    exact fun s => rfl
  exact hcount.trans (.foldlM (fun _ _ _ => insertDependency_frame) h)

theorem wireBatchSteps_frame {newSteps : List TaskStep} {taskId : ClientId}
    {newEdgeId : ClientId → ClientId → ClientId}
    (h : wireBatchSteps db newSteps taskId newEdgeId = .ok db') : CountFrame db db' :=
  .foldlM (fun _ _ _ => wireStep_frame) h

theorem closeOpenRecords_eq_ok {stepIds : List ClientId}
    (h : db.closeOpenRecords stepIds now = .ok db') :
    (∀ r ∈ db.stepStateRecords, r.stepId ∈ stepIds → r.exitedAt = none → r.enteredAt ≤ now) ∧
      db' = { db with
        stepStateRecords := updateWhere (fun r => stepIds.contains r.stepId && r.isOpen)
          (fun r => { r with exitedAt := some now }) db.stepStateRecords } := by
  obtain ⟨hle, h⟩ := throwIf_bind_eq_ok.mp h
  cases h
  refine ⟨fun r hr hs ho => not_lt.mp fun hlt => hle ⟨r, hr, hs, ?_, hlt⟩, rfl⟩
  rw [StepStateRecord.isOpen, ho, Option.isNone_none]

def Db.stepsRemoved (db : Db) (taskId : ClientId) (stepIds : List ClientId) (now : Instant) : Db :=
  ({ db.markStepsRemoved stepIds now with
    stepStateRecords := updateWhere (fun r => stepIds.contains r.stepId && r.isOpen)
      (fun r => { r with exitedAt := some now }) db.stepStateRecords }.removeEdges
        (db.edgesTouching stepIds) now).dropRemovedDependencies (db.edgesTouching stepIds) stepIds
          (completedIds (db.stepsOfTask taskId stepIds))

/-- Successful removals: the steps are there and not deleted; they are deleted, their open
records closed and their edges removed, and the dependent steps count again. -/
theorem removeTaskStepsInSession_eq_ok {taskId : ClientId} {stepIds : List ClientId}
    (h : removeTaskStepsInSession db taskId stepIds now = .ok db') :
    (∀ stepId ∈ stepIds, ∃ s ∈ db.taskSteps, s.clientId = stepId ∧ s.taskId = taskId ∧
      s.isDeleted = false) ∧
    (∀ r ∈ db.stepStateRecords, r.stepId ∈ stepIds → r.exitedAt = none → r.enteredAt ≤ now) ∧
    StepFrame id (db.stepsRemoved taskId stepIds now) db' := by
  obtain ⟨task, -, h⟩ := bind_eq_ok.mp h
  obtain ⟨hmissing, h⟩ := throwIf_bind_eq_ok.mp h
  obtain ⟨hdeleted, h⟩ := throwIf_bind_eq_ok.mp h
  obtain ⟨db₁, h₁, h⟩ := bind_eq_ok.mp h
  obtain ⟨hle, rfl⟩ := closeOpenRecords_eq_ok h₁
  cases h
  have hnone : ∀ {l : List ClientId}, ¬ Sorting.sortBy id l ≠ [] → ∀ stepId, stepId ∉ l := by
    intro l hl stepId hmem
    have hsorted : stepId ∈ Sorting.sortBy id l := Sorting.mem_sortBy.mpr hmem
    rw [not_not.mp hl] at hsorted
    cases hsorted
  refine ⟨fun stepId hid => ?_, hle, ?_⟩
  · have hfound : stepId ∈ (db.stepsOfTask taskId stepIds).map (·.clientId) := by
      by_contra hno
      exact hnone hmissing stepId (List.mem_filter.mpr ⟨hid, by simpa using hno⟩)
    obtain ⟨s, hs, rfl⟩ := List.mem_map.mp hfound
    obtain ⟨hmem, hp⟩ := List.mem_filter.mp hs
    simp only [Bool.and_eq_true, beq_iff_eq] at hp
    refine ⟨s, hmem, rfl, hp.1, ?_⟩
    by_contra hd
    exact hnone hdeleted s.clientId
      (List.mem_map_of_mem (List.mem_filter.mpr ⟨hs, by simpa using hd⟩))
  · split
    · exact .updateTask _ _ _
    · exact .updateTask _ _ _

theorem removeTaskSteps_eq_ok {request : RemoveTaskStepsRequest}
    (h : removeTaskSteps db request now = .ok db') :
    removeTaskStepsInSession db request.taskId request.stepIds now = .ok db' :=
  (throwIf_bind_eq_ok.mp h).2

end StepCommands

end BeyoManager.TaskSteps
