import BeyoManager.TaskSteps.StepCommands

/-! # What the pieces of a transition write

Replacing a record is one statement on the records and one on the steps. A settlement
writes the totals of a step; the side effects of a transition write the tasks, the counters
of the dependent steps and when a step was closed.
-/

namespace BeyoManager.TaskSteps

open Relational Transition

variable {β γ : Type} {db db' db'' : Db} {now : Instant}

/-- Set the inaccurate-time flags of a record when `flag` holds. -/
def StepStateRecord.flagged (flag : Bool) (r : StepStateRecord) : StepStateRecord :=
  { r with
    recordedTimeMarkedWrong := r.recordedTimeMarkedWrong || flag
    takenFromAverage := r.takenFromAverage || flag }

/-- Set the inaccurate-time flags of a step when `flag` holds. -/
def TaskStep.flagged (flag : Bool) (s : TaskStep) : TaskStep :=
  { s with
    recordedTimeMarkedWrong := s.recordedTimeMarkedWrong || flag
    takenFromAverage := s.takenFromAverage || flag }

@[simp] theorem StepStateRecord.flagged_false (r : StepStateRecord) : r.flagged false = r := by
  simp [flagged]

@[simp] theorem TaskStep.flagged_false (s : TaskStep) : s.flagged false = s := by
  simp [flagged]

theorem TaskStep.flagged_flagged (f g : Bool) (s : TaskStep) :
    (s.flagged f).flagged g = s.flagged (f || g) := by
  simp [flagged, Bool.or_assoc]

theorem applyInaccurateTimeFlag_eq (db : Db) (recordId stepId : ClientId) :
    applyInaccurateTimeFlag db recordId stepId =
      { db with
        stepStateRecords :=
          updateWhere (fun r => r.clientId == recordId) (·.flagged true) db.stepStateRecords
        taskSteps := updateWhere (fun s => s.clientId == stepId)
          (·.flagged true) db.taskSteps } := by
  simp only [applyInaccurateTimeFlag, Db.updateRecord, Db.updateStep, StepStateRecord.flagged,
    TaskStep.flagged, Bool.or_true]

theorem flagIf_eq (db : Db) (flag : Bool) (recordId stepId : ClientId) :
    (if flag then applyInaccurateTimeFlag db recordId stepId else db) =
      { db with
        stepStateRecords :=
          updateWhere (fun r => r.clientId == recordId) (·.flagged flag) db.stepStateRecords
        taskSteps := updateWhere (fun s => s.clientId == stepId)
          (·.flagged flag) db.taskSteps } := by
  cases flag with
  | true => exact applyInaccurateTimeFlag_eq db recordId stepId
  | false =>
    simp only [Bool.false_eq_true, if_false, StepStateRecord.flagged_false,
      TaskStep.flagged_false, updateWhere, ite_self, List.map_id']

def Db.replaced (db : Db) (closingId : ClientId) (record : StepStateRecord) (now : Instant)
    (flagClosing flagNew : Bool) : Db :=
  { db with
    stepStateRecords :=
      updateWhere (fun r => r.clientId == closingId)
        (fun r => { r with exitedAt := some now }.flagged flagClosing) db.stepStateRecords ++
        [record.flagged flagNew]
    taskSteps :=
      updateWhere (fun s => s.clientId == record.stepId)
        (fun s => { s.flagged (flagClosing || flagNew) with
          state := record.state
          latestStateRecordId := some record.clientId }) db.taskSteps }

theorem closeRecord_eq_ok {recordId : ClientId} (h : db.closeRecord recordId now = .ok db') :
    db' = db.updateRecord recordId (fun r => { r with exitedAt := some now }) ∧
      ∀ r ∈ db.stepStateRecords, r.clientId = recordId → r.enteredAt ≤ now := by
  obtain ⟨hle, h⟩ := throwIf_bind_eq_ok.mp h
  cases h
  exact ⟨rfl, fun r hr hid => not_lt.mp fun hlt => hle ⟨r, hr, hid, hlt⟩⟩

theorem insertRecord_eq_ok {record : StepStateRecord} (h : db.insertRecord record = .ok db') :
    db' = { db with stepStateRecords := db.stepStateRecords ++ [record] } ∧
      (∀ r ∈ db.stepStateRecords, r.clientId ≠ record.clientId) ∧
      ∀ r ∈ db.stepStateRecords, r.stepId = record.stepId → r.exitedAt ≠ none := by
  obtain ⟨hfresh, h⟩ := throwIf_bind_eq_ok.mp h
  obtain ⟨hopen, h⟩ := throwIf_bind_eq_ok.mp h
  cases h
  exact ⟨rfl, fun r hr hid => hfresh ⟨r, hr, hid⟩, fun r hr hs ho => hopen ⟨r, hr, hs, ho⟩⟩

/-- A replaced record: the closing one was entered by now, the new one has a new id, and no
other record of the step was open. -/
theorem replaceRecord_eq_ok {closingId : ClientId} {record : StepStateRecord}
    {flagClosing flagNew : Bool}
    (h : replaceRecord db closingId record now flagClosing flagNew = .ok db') :
    db' = db.replaced closingId record now flagClosing flagNew ∧
      (∀ r ∈ db.stepStateRecords, r.clientId = closingId → r.enteredAt ≤ now) ∧
      (∀ r ∈ db.stepStateRecords, r.clientId ≠ record.clientId) ∧
      ∀ r ∈ db.stepStateRecords, r.stepId = record.stepId → r.exitedAt = none →
        r.clientId = closingId := by
  obtain ⟨db₁, h₁, h⟩ := bind_eq_ok.mp h
  obtain ⟨rfl, hle⟩ := closeRecord_eq_ok h₁
  rw [flagIf_eq] at h
  obtain ⟨db₂, h₂, h⟩ := bind_eq_ok.mp h
  obtain ⟨rfl, hfresh, hopen⟩ := insertRecord_eq_ok h₂
  rw [flagIf_eq] at h
  cases h
  have hrecords : updateWhere (fun r => r.clientId == closingId) (·.flagged flagClosing)
      (updateWhere (fun r => r.clientId == closingId) (fun r => { r with exitedAt := some now })
        db.stepStateRecords) = updateWhere (fun r => r.clientId == closingId)
          (fun r => { r with exitedAt := some now }.flagged flagClosing) db.stepStateRecords :=
    updateWhere_updateWhere fun _ _ hr => hr
  simp only [Db.updateRecord, hrecords] at hfresh hopen ⊢
  have hfresh' : ∀ r ∈ db.stepStateRecords, r.clientId ≠ record.clientId := by
    intro r hr hid
    refine hfresh _ (mem_updateWhere_of_mem hr) ?_
    split
    · exact hid
    · exact hid
  have hsteps : ∀ g : TaskStep → TaskStep, updateWhere (fun s => s.clientId == record.stepId) g
      (updateWhere (fun s => s.clientId == record.stepId) (·.flagged flagNew)
        (updateWhere (fun s => s.clientId == record.stepId) (·.flagged flagClosing)
          db.taskSteps)) = updateWhere (fun s => s.clientId == record.stepId)
            (fun s => g (s.flagged (flagClosing || flagNew))) db.taskSteps := by
    intro g
    have hkey : ∀ (flag : Bool) (s : TaskStep), s ∈ db.taskSteps → (s.clientId == record.stepId) →
        (s.flagged flag).clientId == record.stepId := fun _ _ _ hs => hs
    rw [updateWhere_updateWhere (hkey flagClosing)]
    simp only [TaskStep.flagged_flagged]
    rw [updateWhere_updateWhere (hkey (flagClosing || flagNew))]
  -- the flag of the new record reaches no record under another id
  have hnew : ∀ l : List StepStateRecord, (∀ r ∈ l, r.clientId ≠ record.clientId) →
      updateWhere (fun r => r.clientId == record.clientId) (·.flagged flagNew) (l ++ [record]) =
        l ++ [record.flagged flagNew] := by
    intro l hl
    rw [updateWhere, List.map_append, List.map_singleton, beq_self_eq_true, if_pos rfl]
    congr 1
    refine (List.map_congr_left fun r hr => ?_).trans (List.map_id _)
    rw [if_neg (by simpa using hl r hr), id_eq]
  refine ⟨?_, hle, hfresh', ?_⟩
  · rw [Db.replaced, Db.updateStep, hsteps, hnew _ hfresh]
  · intro r hr hs ho
    by_contra hid
    refine hopen _ (mem_updateWhere_of_mem hr) ?_ ?_
    · simpa [hid] using hs
    · simpa [hid] using ho

/-- Some columns of the steps, and the tasks, are all that is written; `view` reads the other
columns. -/
structure StepFrame (view : TaskStep → β) (db db' : Db) : Prop where
  steps : db'.taskSteps.map view = db.taskSteps.map view
  rest : db' = { db with taskSteps := db'.taskSteps, tasks := db'.tasks }

namespace StepFrame

variable {view : TaskStep → β}

theorem refl (db : Db) : StepFrame view db db := ⟨rfl, rfl⟩

theorem trans (h : StepFrame view db db') (h' : StepFrame view db' db'') :
    StepFrame view db db'' :=
  ⟨h'.steps.trans h.steps, by rw [h'.rest, h.rest]⟩

theorem comp (h : StepFrame view db db') (g : β → γ) : StepFrame (fun s => g (view s)) db db' := by
  refine ⟨?_, h.rest⟩
  have hmap := congrArg (List.map g) h.steps
  rwa [List.map_map, List.map_map] at hmap

theorem stepStateRecords (h : StepFrame view db db') :
    db'.stepStateRecords = db.stepStateRecords := by
  rw [h.rest]

theorem taskStepDependencies (h : StepFrame view db db') :
    db'.taskStepDependencies = db.taskStepDependencies := by
  rw [h.rest]

theorem exists_step (h : StepFrame view db db') {s : TaskStep} (hs : s ∈ db'.taskSteps) :
    ∃ s₀ ∈ db.taskSteps, view s₀ = view s := by
  have hmem : view s ∈ db'.taskSteps.map view := List.mem_map_of_mem hs
  rw [h.steps] at hmem
  exact List.mem_map.mp hmem

theorem exists_step' (h : StepFrame view db db') {s : TaskStep} (hs : s ∈ db.taskSteps) :
    ∃ s₁ ∈ db'.taskSteps, view s₁ = view s := by
  have hmem : view s ∈ db.taskSteps.map view := List.mem_map_of_mem hs
  rw [← h.steps] at hmem
  exact List.mem_map.mp hmem

theorem updateStep {f : TaskStep → TaskStep} (hf : ∀ s, view (f s) = view s) (db : Db)
    (stepId : ClientId) : StepFrame view db (db.updateStep stepId f) :=
  ⟨map_updateWhere_of_fixed fun s _ _ => hf s, rfl⟩

theorem updateTask (f : Task → Task) (db : Db) (taskId : ClientId) :
    StepFrame view db (db.updateTask taskId f) :=
  ⟨rfl, rfl⟩

theorem foldl {δ : Type} {f : Db → δ → Db} (hf : ∀ db d, StepFrame view db (f db d)) (l : List δ)
    (db : Db) : StepFrame view db (l.foldl f db) := by
  induction l generalizing db with
  | nil => exact refl db
  | cons d l ih => exact (hf db d).trans (ih (f db d))

end StepFrame

def TaskStep.untimed (s : TaskStep) : TaskStep :=
  { s with
    totalWorking := ⟨0, 0, 0⟩
    totalPause := ⟨0, 0, 0⟩
    totalEndedShift := ⟨0, 0, 0⟩
    totalCostMinor := none }

/-- A step without its dependency counters and the instant it was closed. -/
def TaskStep.uncounted (s : TaskStep) : TaskStep :=
  { s with
    closedAt := none
    totalDependencies := 0
    completedDependencies := 0
    readinessStatus := .ready }

def TaskStep.core (s : TaskStep) : TaskStep := s.untimed.uncounted

theorem TaskStep.core_eq {s s' : TaskStep} (h : s.core = s'.core) :
    s.clientId = s'.clientId ∧ s.taskId = s'.taskId ∧ s.state = s'.state ∧
      s.workingSectionId = s'.workingSectionId ∧
      s.recordedTimeMarkedWrong = s'.recordedTimeMarkedWrong ∧
      s.allowsBatchWorking = s'.allowsBatchWorking ∧
      s.latestStateRecordId = s'.latestStateRecordId ∧ s.isDeleted = s'.isDeleted := by
  simp only [core, untimed, uncounted, TaskStep.mk.injEq, true_and] at h
  obtain ⟨hid, htask, hstate, hsection, hwrong, -, hbatch, hlatest, hdeleted⟩ := h
  exact ⟨hid, htask, hstate, hsection, hwrong, hbatch, hlatest, hdeleted⟩

theorem StepFrame.core_of_untimed (h : StepFrame TaskStep.untimed db db') :
    StepFrame TaskStep.core db db' :=
  h.comp TaskStep.uncounted

theorem StepFrame.core_of_uncounted (h : StepFrame TaskStep.uncounted db db') :
    StepFrame TaskStep.core db db' :=
  h.comp TaskStep.untimed

theorem settleClosedStepTime_frame (db : Db) (stepId : ClientId) (closingState : TaskStepState)
    (creditedUserId : ClientId) (now : Instant) :
    StepFrame TaskStep.untimed db
      (settleClosedStepTime db stepId closingState creditedUserId now) := by
  rw [settleClosedStepTime]
  split
  · exact .refl db
  · rw [settleStepTimeTotals]
    split
    · exact .refl db
    · refine .updateStep ?_ db stepId
      exact fun s => rfl

theorem cascadeStepCompletion_frame {stepId : ClientId}
    (h : cascadeStepCompletion db stepId = .ok db') :
    db' = (db.edgesFrom stepId).foldl cascadeEdge db ∧ StepFrame TaskStep.uncounted db db' := by
  obtain ⟨-, h⟩ := throwIf_bind_eq_ok.mp h
  cases h
  refine ⟨rfl, .foldl (fun db e => ?_) _ db⟩
  rw [cascadeEdge]
  split
  · exact .refl db
  · refine .updateStep ?_ db _
    exact fun s => rfl

def TaskStep.unclosed (s : TaskStep) : TaskStep := { s with closedAt := none }

/-- The side effects of a transition: the tasks, when a step was closed, and the cascade. -/
theorem transitionSideEffects_eq_ok {step : TaskStep} {newState : TaskStepState}
    (h : transitionSideEffects db step newState now = .ok db') :
    ∃ db₁, StepFrame TaskStep.unclosed db db₁ ∧
      if newState = .completed then cascadeStepCompletion db₁ step.clientId = .ok db'
      else db' = db₁ := by
  have hclosed : ∀ db, StepFrame TaskStep.unclosed db (if newState.isTerminal then
      db.updateStep step.clientId fun s => { s with closedAt := some now } else db) := by
    intro db
    split
    · refine .updateStep ?_ db _
      exact fun s => rfl
    · exact .refl db
  have hworking : ∀ db, StepFrame TaskStep.unclosed db (if newState = .working then
      maybeAdvanceTaskToWorking db step.taskId else db) := by
    intro db
    split
    · exact .updateTask _ db _
    · exact .refl db
  have hready : ∀ db, StepFrame TaskStep.unclosed db (if newState.isTerminal then
      maybeEvaluateTaskReady db step.taskId now else db) := by
    intro db
    split
    · exact .updateTask _ db _
    · exact .refl db
  refine ⟨_, ((hclosed db).trans (hworking _)).trans (hready _), ?_⟩
  rw [transitionSideEffects] at h
  by_cases hc : newState = .completed
  · rw [if_pos hc] at h ⊢
    exact h
  · rw [if_neg hc] at h ⊢
    cases h
    rfl

theorem transitionSideEffects_frame {step : TaskStep} {newState : TaskStepState}
    (h : transitionSideEffects db step newState now = .ok db') :
    StepFrame TaskStep.uncounted db db' := by
  obtain ⟨db₁, hframe, h⟩ := transitionSideEffects_eq_ok h
  have hbefore : StepFrame TaskStep.uncounted db db₁ := hframe.comp TaskStep.uncounted
  split at h
  · exact hbefore.trans (cascadeStepCompletion_frame h).2
  · exact h ▸ hbefore

end BeyoManager.TaskSteps
