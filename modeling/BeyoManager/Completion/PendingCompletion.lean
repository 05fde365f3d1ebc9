import BeyoManager.TaskSteps.CommandWrites
import BeyoManager.TaskSteps.Resettlement
import BeyoManager.TaskSteps.TaskCommands

/-! # The deferred completion of a step

A completion that was requested is carried out later, at the instant of the request. The handler
is a copy of the transition: it closes the record, settles the step, cascades over the dependent
steps and evaluates the task.
-/

namespace BeyoManager.Completion

open Analytics Relational Transition
open TaskSteps

/-- A deferred completion of an accepted request: both users are known, and a pause reason has an
id. -/
structure RequestedCompletion extends PendingStepCompletion where
  performed : performedByUserId ≠ ""
  credited : creditedUserId ≠ ""
  named : pauseReasonId ≠ some ""

variable (p : RequestedCompletion)

def close (closedAt : Instant) (s : TaskStep) : TaskStep := { s with closedAt := some closedAt }

/-- The context of the request. -/
def RequestedCompletion.ctx : ServiceContext := ⟨p.performedByUserId, p.performed⟩

/-- The request for an immediate transition. -/
def RequestedCompletion.request : TransitionStepStateRequest where
  stepId := p.stepId
  taskId := p.taskId
  newState := .completed
  creditedUserId := some p.creditedUserId
  pauseReasonId := p.pauseReasonId
  description := p.description
  markClosingRecordInaccurate := false

/-- The pause reason of the request, if it has one, is accepted for its user and section. -/
def PauseReasonAccepted (db : Db) (workingSectionId : ClientId) : Prop :=
  ∀ id ∈ p.pauseReasonId, ∃ reason,
    db.pauseReasons.find? (fun r => r.clientId == id && !r.isDeleted) = some reason ∧
      ¬ (reason.requiresDescription ∧ PyString.strip (p.description.getD "") = "") ∧
      isPauseReasonEligible reason [p.creditedUserId] [workingSectionId] = true

variable {p} {db db' : Db} {step : TaskStep} {closing : StepStateRecord} {now : Instant}
  {newRecordId autoPauseRecordId : ClientId} {limit : LimitOne Row}

/-! ### Settling and closing commute -/

theorem keepsTime_close (closedAt : Instant) : KeepsTime (close closedAt) :=
  ⟨fun _ => rfl, fun _ => rfl, fun _ => rfl, fun _ => rfl, fun _ => rfl, fun _ => rfl⟩

theorem computeRecordContributions_updateStep {f : TaskStep → TaskStep} (hf : KeepsTime f)
    (db : Db) (stepId userId : ClientId) (windowStart windowEnd now : Instant) :
    computeRecordContributions (db.updateStep stepId f) userId windowStart windowEnd now =
      computeRecordContributions db userId windowStart windowEnd now := by
  have hinterval : ∀ row : Row, Row.interval
      (row.1, if row.2.clientId == stepId then f row.2 else row.2) = row.interval := by
    intro row
    split
    · simp only [Row.interval, hf.recordedTimeMarkedWrong, hf.allowsBatchWorking]
    · rfl
  simp only [computeRecordContributions, workerRows_updateStep hf.clientId, List.filter_map,
    List.map_map]
  have hintervals : Row.interval ∘
      (fun row : Row => (row.1, if row.2.clientId == stepId then f row.2 else row.2)) =
        Row.interval := funext hinterval
  rw [hintervals]
  refine List.map_congr_left fun row _ => ?_
  exact contribution_updateStep hf row _ _

theorem settleClosedStepTime_close (db : Db) (stepId creditedUserId : ClientId)
    (closingState : TaskStepState) (closedAt now : Instant) :
    settleClosedStepTime (db.updateStep stepId (close closedAt)) stepId closingState creditedUserId
        now =
      (settleClosedStepTime db stepId closingState creditedUserId now).updateStep stepId
        (close closedAt) := by
  unfold settleClosedStepTime
  split
  · rfl
  · have hcontributions : settleContributions (db.updateStep stepId (close closedAt)) stepId now =
        settleContributions db stepId now := by
      unfold settleContributions
      refine List.map_congr_left fun w _ => ?_
      simp only [computeRecordContributions_updateStep (keepsTime_close closedAt)]
    rw [settleStepTimeTotals, settleStepTimeTotals, hcontributions,
      fetchTaskStep_updateStep (keepsTime_close closedAt)]
    cases db.fetchTaskStep stepId with
    | none => rfl
    | some s =>
      simp only [Option.map_some]
      rw [updateStep_updateStep (keepsTime_close closedAt).clientId,
        updateStep_updateStep (keepsTime_withTotals _ _).clientId]
      rfl

/-! ### The cascade and the task commute -/

theorem cascadeEdge_tasks (db : Db) (tasks : List Task) (edge : TaskStepDependency) :
    cascadeEdge { db with tasks := tasks } edge =
      { cascadeEdge db edge with tasks := tasks } := by
  have hfetch : ({ db with tasks := tasks } : Db).fetchTaskStep edge.dependentStepId =
      db.fetchTaskStep edge.dependentStepId := rfl
  unfold cascadeEdge
  rw [hfetch]
  cases db.fetchTaskStep edge.dependentStepId <;> rfl

theorem foldl_cascadeEdge_tasks (edges : List TaskStepDependency) (db : Db) (tasks : List Task) :
    edges.foldl cascadeEdge { db with tasks := tasks } =
      { edges.foldl cascadeEdge db with tasks := tasks } := by
  induction edges generalizing db with
  | nil => rfl
  | cons edge edges ih => rw [List.foldl_cons, List.foldl_cons, cascadeEdge_tasks, ih]

/-- What of a step decides whether its task is ready. -/
def standing (s : TaskStep) : ClientId × ClientId × TaskStepState × Bool :=
  (s.clientId, s.taskId, s.state, s.isDeleted)

def AllEnded (db : Db) (taskId : ClientId) : Prop :=
  db.liveSteps taskId ≠ [] ∧ ∀ s ∈ db.liveSteps taskId, s.state.isTerminal

instance (db : Db) (taskId : ClientId) : Decidable (AllEnded db taskId) :=
  inferInstanceAs (Decidable (_ ∧ _))

def TaskOpen (db : Db) (taskId : ClientId) : Prop :=
  ∃ t ∈ db.tasks, t.clientId = taskId ∧ isTerminalTaskState t.state = false ∧ t.state ≠ .ready

instance (db : Db) (taskId : ClientId) : Decidable (TaskOpen db taskId) :=
  inferInstanceAs (Decidable (∃ t ∈ db.tasks, _))

theorem map_standing_liveSteps (db : Db) (taskId : ClientId) :
    (db.liveSteps taskId).map standing =
      (db.taskSteps.map standing).filter fun x => x.2.1 == taskId && !x.2.2.2 := by
  rw [Db.liveSteps, List.filter_map]
  rfl

theorem allEnded_iff (db : Db) (taskId : ClientId) : AllEnded db taskId ↔
    (db.liveSteps taskId).map standing ≠ [] ∧
      ∀ x ∈ (db.liveSteps taskId).map standing, x.2.2.1.isTerminal := by
  simp [AllEnded, standing]

theorem allEnded_congr (h : db'.taskSteps.map standing = db.taskSteps.map standing)
    (taskId : ClientId) : AllEnded db' taskId ↔ AllEnded db taskId := by
  rw [allEnded_iff, allEnded_iff, map_standing_liveSteps, map_standing_liveSteps, h]

/-- A task is ready when it is open and all its steps have ended. -/
theorem maybeEvaluateTaskReady_eq (db : Db) (taskId : ClientId) (now : Instant) :
    maybeEvaluateTaskReady db taskId now = db.updateTask taskId fun t =>
      if AllEnded db taskId ∧ isTerminalTaskState t.state = false ∧ t.state ≠ .ready then
        { t with state := .ready, completedAt := some now }
      else t := by
  rw [maybeEvaluateTaskReady]
  congr 1
  funext t
  by_cases hended : AllEnded db taskId
  · have hall : (db.liveSteps taskId).all (·.state.isTerminal) = true := by
      rw [List.all_eq_true]
      exact hended.2
    have hsteps : ¬ (db.liveSteps taskId = [] ∨
        ¬ (db.liveSteps taskId).all (·.state.isTerminal) = true) := by
      rw [not_or, not_not]
      exact ⟨hended.1, hall⟩
    rw [if_neg hsteps]
    by_cases hstate : isTerminalTaskState t.state = true ∨ t.state = .ready
    · rw [if_pos hstate, if_neg]
      rintro ⟨-, hopen, hready⟩
      rcases hstate with hstate | hstate
      · rw [hopen] at hstate
        cases hstate
      · exact hready hstate
    · rw [if_neg hstate, if_pos]
      rw [not_or, Bool.not_eq_true] at hstate
      exact ⟨hended, hstate⟩
  · have hsteps : db.liveSteps taskId = [] ∨
        ¬ (db.liveSteps taskId).all (·.state.isTerminal) = true := by
      by_contra hcontra
      rw [not_or, not_not, List.all_eq_true] at hcontra
      exact hended hcontra
    have hnot : ¬ (AllEnded db taskId ∧ isTerminalTaskState t.state = false ∧ t.state ≠ .ready) :=
      fun h => hended h.1
    rw [if_neg hnot, if_pos hsteps, ite_self]

/-- The cascade and the evaluation of the task do not see each other. -/
theorem cascadeStepCompletion_maybeEvaluateTaskReady (db : Db) (taskId stepId : ClientId)
    (now : Instant) :
    cascadeStepCompletion (maybeEvaluateTaskReady db taskId now) stepId =
      (cascadeStepCompletion db stepId).map fun db' => maybeEvaluateTaskReady db' taskId now := by
  have hframe : ∀ db₁ : Db, StepFrame TaskStep.uncounted db₁
      ((db₁.edgesFrom stepId).foldl cascadeEdge db₁) := by
    intro db₁
    refine .foldl (fun d e => ?_) _ db₁
    rw [cascadeEdge]
    split
    · exact .refl d
    · refine .updateStep ?_ d _
      exact fun s => rfl
  have hended := allEnded_congr ((hframe db).comp standing).steps taskId
  have htasks := congrArg Db.tasks (foldl_cascadeEdge_tasks (db.edgesFrom stepId) db db.tasks)
  change ((db.edgesFrom stepId).foldl cascadeEdge db).tasks = db.tasks at htasks
  have hfold := foldl_cascadeEdge_tasks (db.edgesFrom stepId) db
    (maybeEvaluateTaskReady db taskId now).tasks
  have hready : ((db.edgesFrom stepId).foldl cascadeEdge (maybeEvaluateTaskReady db taskId now)) =
      maybeEvaluateTaskReady ((db.edgesFrom stepId).foldl cascadeEdge db) taskId now := by
    refine Eq.trans hfold ?_
    rw [maybeEvaluateTaskReady_eq, maybeEvaluateTaskReady_eq, Db.updateTask, Db.updateTask, htasks]
    simp only [hended]
  unfold cascadeStepCompletion
  have hedges : (maybeEvaluateTaskReady db taskId now).edgesFrom stepId = db.edgesFrom stepId := rfl
  rw [hedges, hready]
  change throwIf (∃ s ∈ ((db.edgesFrom stepId).foldl cascadeEdge db).taskSteps,
    s.totalDependencies < s.completedDependencies) _ >>= _ = _
  by_cases hlimit : ∃ s ∈ ((db.edgesFrom stepId).foldl cascadeEdge db).taskSteps,
      s.totalDependencies < s.completedDependencies
  · simp only [throwIf, if_pos hlimit]
    rfl
  · simp only [throwIf, if_neg hlimit]
    rfl

/-- Evaluating a task at two instants leaves the same tables when they are one, or the task does
not become ready. -/
theorem maybeEvaluateTaskReady_eq_iff {taskId : ClientId} {now' : Instant} :
    maybeEvaluateTaskReady db taskId now = maybeEvaluateTaskReady db taskId now' ↔
      now = now' ∨ ¬ (AllEnded db taskId ∧ TaskOpen db taskId) := by
  rw [maybeEvaluateTaskReady_eq, maybeEvaluateTaskReady_eq]
  constructor
  · intro h
    by_contra hcontra
    rw [not_or, not_not] at hcontra
    obtain ⟨hne, hended, t, ht, hid, hopen⟩ := hcontra
    apply hne
    have htasks := congrArg Db.tasks h
    simp only [Db.updateTask, updateWhere] at htasks
    have hat := (List.map_inj_left.mp htasks) t ht
    have hbecomes : AllEnded db taskId ∧ isTerminalTaskState t.state = false ∧ t.state ≠ .ready :=
      ⟨hended, hopen⟩
    simp only [hid, beq_self_eq_true, if_true, if_pos hbecomes] at hat
    exact Option.some.inj (congrArg Task.completedAt hat)
  · rintro (rfl | hnot)
    · rfl
    · rw [Db.updateTask, Db.updateTask]
      congr 1
      apply updateWhere_congr
      intro t ht hid
      have hstays : ¬ (AllEnded db taskId ∧ isTerminalTaskState t.state = false ∧
          t.state ≠ .ready) := by
        rintro ⟨hended, hopen⟩
        exact hnot ⟨hended, t, ht, by simpa using hid, hopen⟩
      rw [if_neg hstays, if_neg hstays]

/-! ### The two copies -/

variable (p) in
/-- What the handler and the transition have in common: the records, the settled step, and the
cascade. -/
def cascaded (db : Db) (step : TaskStep) (closing : StepStateRecord) (newRecordId : ClientId) :
    Except CommandError Db := do
  let db ← replaceRecord db closing.clientId (p.newRecord newRecordId) p.completionRequestedAt
    false false
  cascadeStepCompletion (settleClosedStepTime
    (db.updateStep step.clientId (close p.completionRequestedAt)) step.clientId closing.state
      p.creditedUserId p.completionRequestedAt) step.clientId

theorem completeDeferred_eq :
    completeDeferred db step closing p.toPendingStepCompletion now newRecordId =
      (cascaded p db step closing newRecordId).map fun db' =>
        maybeEvaluateTaskReady db' step.taskId now := by
  unfold completeDeferred cascaded
  cases replaceRecord db closing.clientId (p.newRecord newRecordId) p.completionRequestedAt
    false false with
  | error e => rfl
  | ok base =>
    change (cascadeStepCompletion (settleClosedStepTime
      (base.updateStep step.clientId (close p.completionRequestedAt)) step.clientId closing.state
        p.creditedUserId p.completionRequestedAt) step.clientId >>= _) =
      Except.map _ (cascadeStepCompletion _ _)
    cases cascadeStepCompletion (settleClosedStepTime
      (base.updateStep step.clientId (close p.completionRequestedAt)) step.clientId closing.state
        p.creditedUserId p.completionRequestedAt) step.clientId <;> rfl

theorem creditedUserId_request (newRecordId autoPauseRecordId : ClientId) :
    (p.request.transition p.ctx newRecordId autoPauseRecordId).creditedUserId =
      p.creditedUserId := by
  have hfilter : (some p.creditedUserId).filter (· != "") = some p.creditedUserId := by
    rw [Option.filter_some, if_pos (by simpa using p.credited)]
  rw [TransitionStepStateRequest.transition, resolveTransitionCreditUserId,
    RequestedCompletion.request, hfilter]
  rfl

theorem newRecord_eq (newRecordId autoPauseRecordId : ClientId) :
    (p.request.transition p.ctx newRecordId autoPauseRecordId).newRecord p.stepId
        p.completionRequestedAt = p.newRecord newRecordId := by
  have hreason : p.pauseReasonId.filter (· != "") = p.pauseReasonId := by
    cases hid : p.pauseReasonId with
    | none => rfl
    | some id =>
      have hne : id ≠ "" := fun he => p.named (hid.trans (congrArg some he))
      rw [Option.filter_some, if_pos (by simpa using hne)]
  rw [StepTransition.newRecord, PendingStepCompletion.newRecord, creditedUserId_request, hreason]
  rfl

/-- The transition writes what the handler writes, and evaluates the task at the instant of the
request. -/
theorem closeAndOpen_eq (hstep : step.clientId = p.stepId) :
    closeAndOpen db step closing (p.request.transition p.ctx newRecordId autoPauseRecordId)
        p.completionRequestedAt =
      (cascaded p db step closing newRecordId).map fun db' =>
        maybeEvaluateTaskReady db' step.taskId p.completionRequestedAt := by
  unfold closeAndOpen cascaded
  rw [hstep, newRecord_eq, creditedUserId_request, ← hstep]
  change (replaceRecord db closing.clientId (p.newRecord newRecordId) p.completionRequestedAt
    false false >>= _) = _
  cases replaceRecord db closing.clientId (p.newRecord newRecordId) p.completionRequestedAt
    false false with
  | error e => rfl
  | ok base =>
    have heffects : ∀ settled : Db, transitionSideEffects settled step .completed
        p.completionRequestedAt = (cascadeStepCompletion (settled.updateStep step.clientId
          (close p.completionRequestedAt)) step.clientId).map fun db' =>
            maybeEvaluateTaskReady db' step.taskId p.completionRequestedAt := by
      intro settled
      rw [← cascadeStepCompletion_maybeEvaluateTaskReady]
      rfl
    refine (heffects _).trans ?_
    rw [← settleClosedStepTime_close]
    rfl

theorem fetchPauseReason_eq_ok_iff {pauseReasonId : Option ClientId} {description : Option String}
    {found : Option PauseReason} :
    fetchPauseReason db pauseReasonId description = .ok found ↔
      (pauseReasonId = none ∧ found = none) ∨ ∃ id reason, pauseReasonId = some id ∧
        found = some reason ∧
        db.pauseReasons.find? (fun r => r.clientId == id && !r.isDeleted) = some reason ∧
        ¬ (reason.requiresDescription ∧ PyString.strip (description.getD "") = "") := by
  cases pauseReasonId with
  | none =>
    constructor
    · intro h
      cases h
      exact .inl ⟨rfl, rfl⟩
    · rintro (⟨-, rfl⟩ | ⟨id, reason, hid, -⟩)
      · rfl
      · cases hid
  | some id =>
    constructor
    · intro h
      obtain ⟨reason, hreason, h⟩ := bind_eq_ok.mp h
      obtain ⟨hdescribed, h⟩ := throwIf_bind_eq_ok.mp h
      cases h
      exact .inr ⟨id, reason, rfl, rfl, getOr_eq_ok.mp hreason, hdescribed⟩
    · rintro (⟨hid, -⟩ | ⟨id, reason, hid, rfl, hreason, hdescribed⟩)
      · cases hid
      · cases hid
        exact bind_eq_ok.mpr ⟨reason, getOr_eq_ok.mpr hreason,
          throwIf_bind_eq_ok.mpr ⟨hdescribed, rfl⟩⟩

/-- A request for a completion is accepted when its pause reason is. -/
theorem transitionStepState_eq_ok_iff (hstep : db.fetchStepOfTask p.taskId p.stepId = some step)
    (hworking : step.state = .working) {task : Task} (htask : db.fetchTask p.taskId = some task)
    (hclosing : db.openRecord step.clientId = some closing) :
    transitionStepState db p.ctx p.request limit p.completionRequestedAt newRecordId
        autoPauseRecordId = .ok db' ↔
      PauseReasonAccepted p db step.workingSectionId ∧
        (cascaded p db step closing newRecordId).map (fun db' =>
          maybeEvaluateTaskReady db' step.taskId p.completionRequestedAt) = .ok db' := by
  obtain ⟨-, hid, htaskId, -⟩ := fetchStepOfTask_eq_some hstep
  rw [← closeAndOpen_eq hid]
  have hallowed : p.request.newState ∈ allowedTransitions step.state := by
    rw [hworking]
    change TaskStepState.completed ∈ allowedTransitions .working
    decide
  have hgoing : ¬ step.state.isTerminal := by
    rw [hworking]
    decide
  constructor
  · intro h
    obtain ⟨step₁, hstep₁, h⟩ := bind_eq_ok.mp h
    cases (getOr_eq_ok.mp hstep₁).symm.trans hstep
    obtain ⟨-, h⟩ := throwIf_bind_eq_ok.mp h
    obtain ⟨-, h⟩ := throwIf_bind_eq_ok.mp h
    obtain ⟨task₁, -, h⟩ := bind_eq_ok.mp h
    obtain ⟨found, hfound, h⟩ := bind_eq_ok.mp h
    rcases fetchPauseReason_eq_ok_iff.mp hfound with
      ⟨hnone, rfl⟩ | ⟨id, reason, hsome, rfl, hreason, hdescribed⟩
    · obtain ⟨db₁, hpaused, h⟩ := bind_eq_ok.mp h
      cases hpaused
      obtain ⟨closing₁, hclosing₁, h⟩ := bind_eq_ok.mp h
      cases (getOr_eq_ok.mp hclosing₁).symm.trans hclosing
      refine ⟨fun id hid => ?_, h⟩
      cases hnone.symm.trans hid
    · obtain ⟨heligible, h⟩ := throwIf_bind_eq_ok.mp h
      obtain ⟨db₁, hpaused, h⟩ := bind_eq_ok.mp h
      cases hpaused
      obtain ⟨closing₁, hclosing₁, h⟩ := bind_eq_ok.mp h
      cases (getOr_eq_ok.mp hclosing₁).symm.trans hclosing
      refine ⟨fun id' hid' => ?_, h⟩
      cases Option.some.inj (hsome.symm.trans hid')
      refine ⟨reason, hreason, hdescribed, ?_⟩
      rw [not_not, creditedUserId_request] at heligible
      exact heligible
  · rintro ⟨haccepted, h⟩
    refine bind_eq_ok.mpr ⟨step, getOr_eq_ok.mpr hstep, ?_⟩
    refine throwIf_bind_eq_ok.mpr ⟨hgoing, ?_⟩
    refine throwIf_bind_eq_ok.mpr ⟨not_not.mpr hallowed, ?_⟩
    refine bind_eq_ok.mpr ⟨task, getOr_eq_ok.mpr (htaskId ▸ htask), ?_⟩
    have hrest : (do
        let db ← autoPause db limit step
          (p.request.transition p.ctx newRecordId autoPauseRecordId) p.completionRequestedAt
        let closingRecord ← getOr (.conflict "No open state record found for this step.")
          (db.openRecord step.clientId)
        closeAndOpen db step closingRecord
          (p.request.transition p.ctx newRecordId autoPauseRecordId) p.completionRequestedAt) =
        .ok db' :=
      bind_eq_ok.mpr ⟨db, rfl, bind_eq_ok.mpr ⟨closing, getOr_eq_ok.mpr hclosing, h⟩⟩
    cases hid : p.pauseReasonId with
    | none => exact bind_eq_ok.mpr ⟨none, fetchPauseReason_eq_ok_iff.mpr (.inl ⟨hid, rfl⟩), hrest⟩
    | some id =>
      obtain ⟨reason, hreason, hdescribed, heligible⟩ := haccepted id hid
      refine bind_eq_ok.mpr ⟨some reason, fetchPauseReason_eq_ok_iff.mpr
        (.inr ⟨id, reason, hid, rfl, hreason, hdescribed⟩), ?_⟩
      refine throwIf_bind_eq_ok.mpr ⟨?_, hrest⟩
      rw [not_not, creditedUserId_request]
      exact heligible

end BeyoManager.Completion
