import BeyoManager.TaskSteps.Progress

/-! # The progress of the stored tasks

The progress that the tables hold for each task, and what the pieces of the commands do to it
and to the rows of the tasks: most do nothing, and the move of a step moves one entry and the
row of one task.
-/

namespace BeyoManager.TaskSteps

open Relational Transition
open StockReport (TaskState)

variable {db db' db'' : Db} {now : Instant} {limit : LimitOne Row}

def Db.hasStarted (db : Db) (stepId : ClientId) : Bool :=
  db.stepStateRecords.any fun r => r.stepId == stepId && r.state == .working

def TaskStep.progress (s : TaskStep) (db : Db) : StepProgress :=
  ⟨s.clientId, s.state, db.hasStarted s.clientId⟩

def Db.progress (db : Db) (taskId : ClientId) : List StepProgress :=
  (db.liveSteps taskId).map (·.progress db)

theorem mem_liveSteps {taskId : ClientId} {s : TaskStep} :
    s ∈ db.liveSteps taskId ↔ s ∈ db.taskSteps ∧ s.taskId = taskId ∧ s.isDeleted = false := by
  simp [Db.liveSteps]

theorem mem_progress {taskId : ClientId} {e : StepProgress} :
    e ∈ db.progress taskId ↔
      ∃ s ∈ db.taskSteps, s.taskId = taskId ∧ s.isDeleted = false ∧ s.progress db = e := by
  simp only [Db.progress, List.mem_map, mem_liveSteps, and_assoc]

def TaskStep.outline (s : TaskStep) : ClientId × ClientId × TaskStepState × Bool :=
  (s.clientId, s.taskId, s.state, s.isDeleted)

theorem progress_congr (hstarted : ∀ stepId, db'.hasStarted stepId = db.hasStarted stepId)
    (hsteps : db'.taskSteps.map TaskStep.outline = db.taskSteps.map TaskStep.outline)
    (taskId : ClientId) : db'.progress taskId = db.progress taskId := by
  have houtline : ∀ db : Db, db.progress taskId =
      (((db.taskSteps.map TaskStep.outline).filter fun o => o.2.1 == taskId && !o.2.2.2).map
        fun o => ⟨o.1, o.2.2.1, db.hasStarted o.1⟩) := by
    intro db
    rw [List.filter_map, List.map_map]
    rfl
  rw [houtline, houtline, hsteps]
  refine List.map_congr_left fun o _ => ?_
  rw [hstarted]

theorem any_started_update {p : StepStateRecord → Bool} {f : StepStateRecord → StepStateRecord}
    (hf : ∀ r, (f r).stepId = r.stepId ∧ (f r).state = r.state) (t : List StepStateRecord)
    (stepId : ClientId) :
    (updateWhere p f t).any (fun r => r.stepId == stepId && r.state == .working) =
      t.any fun r => r.stepId == stepId && r.state == .working := by
  rw [updateWhere, List.any_map]
  refine congrArg (List.any t) (funext fun r => ?_)
  simp only [Function.comp_apply]
  split
  · rw [(hf r).1, (hf r).2]
  · rfl

/-- The owners of the steps, the rows of the tasks and the progress are as they were. -/
structure Idle (db db' : Db) : Prop where
  tasks : db'.tasks = db.tasks
  owners : db'.taskSteps.map (·.taskId) = db.taskSteps.map (·.taskId)
  progress : ∀ taskId, db'.progress taskId = db.progress taskId

namespace Idle

theorem refl (db : Db) : Idle db db := ⟨rfl, rfl, fun _ => rfl⟩

theorem trans (h : Idle db db') (h' : Idle db' db'') : Idle db db'' :=
  ⟨h'.tasks.trans h.tasks, h'.owners.trans h.owners,
    fun taskId => (h'.progress taskId).trans (h.progress taskId)⟩

theorem of_outline (htasks : db'.tasks = db.tasks)
    (hstarted : ∀ stepId, db'.hasStarted stepId = db.hasStarted stepId)
    (hsteps : db'.taskSteps.map TaskStep.outline = db.taskSteps.map TaskStep.outline) :
    Idle db db' := by
  refine ⟨htasks, ?_, progress_congr hstarted hsteps⟩
  have howners := congrArg (List.map fun o : ClientId × ClientId × TaskStepState × Bool => o.2.1)
    hsteps
  rwa [List.map_map, List.map_map] at howners

theorem of_core (htasks : db'.tasks = db.tasks) (hrec : db'.stepStateRecords = db.stepStateRecords)
    (hsteps : db'.taskSteps.map TaskStep.core = db.taskSteps.map TaskStep.core) : Idle db db' := by
  refine .of_outline htasks (fun stepId => ?_) ?_
  · rw [Db.hasStarted, Db.hasStarted, hrec]
  · have houtline := congrArg (List.map TaskStep.outline) hsteps
    rwa [List.map_map, List.map_map] at houtline

theorem of_count (htasks : db'.tasks = db.tasks) (h : CountFrame db db') : Idle db db' :=
  .of_core htasks h.records h.core

theorem updateStep {f : TaskStep → TaskStep} (hf : ∀ s, (f s).core = s.core) (db : Db)
    (stepId : ClientId) : Idle db (db.updateStep stepId f) :=
  .of_core rfl rfl (map_updateWhere_of_fixed fun s _ _ => hf s)

end Idle

section Pieces

theorem settleClosedStepTime_idle (db : Db) (stepId : ClientId) (closingState : TaskStepState)
    (creditedUserId : ClientId) (now : Instant) :
    Idle db (settleClosedStepTime db stepId closingState creditedUserId now) := by
  have hframe := (settleClosedStepTime_frame db stepId closingState creditedUserId
    now).core_of_untimed
  refine .of_core ?_ hframe.stepStateRecords hframe.steps
  rw [settleClosedStepTime]
  split
  · rfl
  · rw [settleStepTimeTotals]
    split <;> rfl

theorem cascadeStepCompletion_idle {stepId : ClientId}
    (h : cascadeStepCompletion db stepId = .ok db') : Idle db db' := by
  obtain ⟨heq, hframe⟩ := cascadeStepCompletion_frame h
  refine .of_core ?_ hframe.stepStateRecords hframe.core_of_uncounted.steps
  have htasks : ∀ (edges : List TaskStepDependency) (db : Db),
      (edges.foldl cascadeEdge db).tasks = db.tasks := by
    intro edges
    induction edges with
    | nil => exact fun _ => rfl
    | cons e edges ih =>
      intro db
      rw [List.foldl_cons, ih, cascadeEdge]
      split <;> rfl
  rw [heq, htasks]

theorem applyInaccurateTimeFlag_idle (db : Db) (recordId stepId : ClientId) :
    Idle db (applyInaccurateTimeFlag db recordId stepId) := by
  rw [applyInaccurateTimeFlag_eq]
  refine .of_outline rfl (fun id => ?_) ?_
  · refine any_started_update ?_ db.stepStateRecords id
    exact fun r => ⟨rfl, rfl⟩
  · exact map_updateWhere_of_fixed fun s _ _ => rfl

theorem maybeAdvanceTaskToWorking_eq (db : Db) (taskId : ClientId) :
    maybeAdvanceTaskToWorking db taskId = db.updateTask taskId Task.advance := rfl

theorem maybeEvaluateTaskReady_eq (db : Db) (taskId : ClientId) (now : Instant) :
    maybeEvaluateTaskReady db taskId now =
      db.updateTask taskId (Task.evaluate (db.progress taskId) now) := by
  have hall : (db.progress taskId).all (·.state.isTerminal) =
      (db.liveSteps taskId).all (·.state.isTerminal) := by
    rw [Db.progress, List.all_map]
    rfl
  have hnil : db.progress taskId = [] ↔ db.liveSteps taskId = [] := List.map_eq_nil_iff
  rw [maybeEvaluateTaskReady, Db.updateTask, Db.updateTask]
  congr 2
  funext t
  simp only [Task.evaluate, hall, hnil]

end Pieces

/-- One step has moved to a state, and the row of its task has followed. -/
structure Moved (step : TaskStep) (newState : TaskStepState) (now : Instant) (db db' : Db) :
    Prop where
  owners : db'.taskSteps.map (·.taskId) = db.taskSteps.map (·.taskId)
  progress : ∀ taskId, db'.progress taskId =
    updateWhere (fun e => e.stepId == step.clientId) (·.move newState) (db.progress taskId)
  tasks : db'.tasks = updateWhere (fun t => t.clientId == step.taskId)
    (·.afterMove newState (db'.progress step.taskId) now) db.tasks

section Moved

variable {step : TaskStep}

/-- A replaced record moves its step. -/
theorem progress_replaced (closingId : ClientId) (record : StepStateRecord) (fc fn : Bool)
    (taskId : ClientId) :
    (db.replaced closingId record now fc fn).progress taskId =
      updateWhere (fun e => e.stepId == record.stepId) (·.move record.state)
        (db.progress taskId) := by
  have hstarted : ∀ id, (db.replaced closingId record now fc fn).hasStarted id =
      (db.hasStarted id || (record.stepId == id && record.state == .working)) := by
    intro id
    rw [Db.hasStarted, Db.replaced, List.any_append, List.any_cons, List.any_nil, Bool.or_false,
      any_started_update]
    · rfl
    · exact fun r => ⟨rfl, rfl⟩
  have hlive : (db.replaced closingId record now fc fn).liveSteps taskId =
      updateWhere (fun s => s.clientId == record.stepId) (fun s => { s.flagged (fc || fn) with
        state := record.state, latestStateRecordId := some record.clientId })
        (db.liveSteps taskId) := by
    rw [Db.liveSteps, Db.replaced, filter_updateWhere]
    · rfl
    · exact fun _ _ _ => rfl
  rw [Db.progress, Db.progress, hlive, updateWhere, updateWhere, List.map_map, List.map_map]
  refine List.map_congr_left fun s _ => ?_
  simp only [Function.comp_apply, TaskStep.progress, hstarted, StepProgress.move]
  by_cases hid : s.clientId = record.stepId
  · simp [hid, TaskStep.flagged]
  · have hid' : ¬ record.stepId = s.clientId := Ne.symm hid
    simp [hid, hid']

theorem replaced_owners (db : Db) (closingId : ClientId) (record : StepStateRecord)
    (now : Instant) (fc fn : Bool) :
    (db.replaced closingId record now fc fn).taskSteps.map (·.taskId) =
      db.taskSteps.map (·.taskId) :=
  map_updateWhere_of_fixed fun _ _ _ => rfl

/-- The side effects of a transition: the row of the task follows, and no more. -/
theorem transitionSideEffects_tasks {newState : TaskStepState}
    (h : transitionSideEffects db step newState now = .ok db') :
    (∀ taskId, db'.progress taskId = db.progress taskId) ∧
      db'.taskSteps.map (·.taskId) = db.taskSteps.map (·.taskId) ∧
      db'.tasks = updateWhere (fun t => t.clientId == step.taskId)
        (·.afterMove newState (db.progress step.taskId) now) db.tasks := by
  have hclosed : Idle db (if newState.isTerminal then
      db.updateStep step.clientId fun s => { s with closedAt := some now } else db) := by
    split
    · refine .updateStep ?_ db _
      exact fun s => rfl
    · exact .refl db
  rw [transitionSideEffects] at h
  generalize (if newState.isTerminal then
      db.updateStep step.clientId fun s =>
        { s with closedAt := some now } else db) = db₁ at hclosed h
  rw [← hclosed.tasks, ← hclosed.progress, ← hclosed.owners]
  simp only [maybeAdvanceTaskToWorking_eq, maybeEvaluateTaskReady_eq] at h
  have hrest : ∀ (f : Task → Task) (db₂ : Db), Idle (db₁.updateTask step.taskId f) db₂ →
      (∀ taskId, db₂.progress taskId = db.progress taskId) ∧
        db₂.taskSteps.map (·.taskId) = db₁.taskSteps.map (·.taskId) ∧
        db₂.tasks = updateWhere (fun t => t.clientId == step.taskId) f db₁.tasks := by
    intro f db₂ hidle
    exact ⟨fun taskId => (hidle.progress taskId).trans (hclosed.progress taskId), hidle.owners,
      hidle.tasks⟩
  cases newState with
  | working =>
    cases h
    exact hrest Task.advance _ (.refl _)
  | completed => exact hrest _ _ (cascadeStepCompletion_idle h)
  | skipped | failed | cancelled =>
    cases h
    exact hrest _ _ (.refl _)
  | pending | paused | blocked =>
    cases h
    have hkeep : db₁.tasks = updateWhere (fun t => t.clientId == step.taskId) (fun t => t)
        db₁.tasks := (updateWhere_id (p := fun t : Task => t.clientId == step.taskId)).symm
    exact ⟨hclosed.progress, rfl, hkeep⟩

theorem closeAndOpen_moved {closing : StepStateRecord} {t : StepTransition}
    (h : closeAndOpen db step closing t now = .ok db') : Moved step t.newState now db db' := by
  obtain ⟨-, -, h⟩ := closeAndOpen_eq_ok h
  obtain ⟨hprogress, howners, htasks⟩ := transitionSideEffects_tasks h
  have hsettled : Idle (db.replaced closing.clientId (t.newRecord step.clientId now) now
      (t.flagsClosing closing) (t.flagsClosing closing && t.newState == .completed))
      (db.transitioned step closing t now) := settleClosedStepTime_idle _ _ _ _ _
  have hmoved : ∀ taskId, db'.progress taskId = updateWhere (fun e => e.stepId == step.clientId)
      (·.move t.newState) (db.progress taskId) := fun taskId =>
    (hprogress taskId).trans ((hsettled.progress taskId).trans (progress_replaced _ _ _ _ _))
  refine ⟨howners.trans (hsettled.owners.trans (replaced_owners _ _ _ _ _ _)), hmoved, ?_⟩
  rw [htasks, hsettled.tasks, ← hprogress]
  rfl

theorem autoPause_moved {t : StepTransition} (h : autoPause db limit step t now = .ok db') :
    db' = db ∨ ∃ row ∈ db.openUserWorkingRows [t.performerId, t.creditedUserId] step.clientId,
      Moved row.2 .paused now db db' := by
  rcases autoPause_cases h with ⟨rfl, -⟩ | ⟨row, hrow, -, -, -, -, -, rfl⟩
  · exact .inl rfl
  · refine .inr ⟨row, hrow, ?_⟩
    have hsettled := settleClosedStepTime_idle (db.replaced row.1.clientId
      (t.autoPauseRecord db step.taskId row.2.clientId now) now false false) row.2.clientId .working
        t.performerId now
    refine ⟨hsettled.owners.trans (replaced_owners _ _ _ _ _ _), fun taskId =>
      (hsettled.progress taskId).trans (progress_replaced _ _ _ _ _), ?_⟩
    rw [hsettled.tasks]
    exact (updateWhere_id (p := fun u : Task => u.clientId == row.2.taskId)).symm

theorem completeDeferred_moved {closing : StepStateRecord} {payload : PendingStepCompletion}
    {newRecordId : ClientId} (hid : payload.stepId = step.clientId)
    (h : completeDeferred db step closing payload now newRecordId = .ok db') :
    Moved step .completed now db db' := by
  obtain ⟨db₁, h₁, h⟩ := bind_eq_ok.mp h
  obtain ⟨rfl, -⟩ := replaceRecord_eq_ok h₁
  obtain ⟨db₂, h₂, h⟩ := bind_eq_ok.mp h
  cases h
  have hidle := (((Idle.updateStep (f := fun s => { s with
    closedAt := some payload.completionRequestedAt }) (fun s => rfl) _ step.clientId).trans
      (settleClosedStepTime_idle _ step.clientId closing.state payload.creditedUserId
        payload.completionRequestedAt)).trans (cascadeStepCompletion_idle h₂))
  have hmoved : ∀ taskId, db₂.progress taskId =
      updateWhere (fun e => e.stepId == step.clientId) (·.move .completed)
        (db.progress taskId) := fun taskId => by
    rw [hidle.progress taskId, progress_replaced, PendingStepCompletion.newRecord, hid]
  rw [maybeEvaluateTaskReady_eq]
  refine ⟨hidle.owners.trans (replaced_owners _ _ _ _ _ _), hmoved, ?_⟩
  exact congrArg (updateWhere _ _) hidle.tasks

end Moved

end BeyoManager.TaskSteps
