import BeyoManager.Shifts.Reconcile
import BeyoManager.TaskSteps.CommandWrites

/-! # What a closure does

Closing a shift pauses the working steps that began in it and leaves every other working step
alone. Of the shift records it keeps the markers, and no record of the closed shift stays open.
-/

namespace BeyoManager.Shifts

open Relational Sorting Transition
open TaskSteps (ClientId StepStateRecord TaskStep TaskStepState Task)

variable {db db' : Db} {ids : NewIds} {userId : ClientId} {now : Instant}

section Steps

variable {steps steps' : TaskSteps.Db} {actorId : ClientId} {clockOutAt : Instant}
  {row : StepStateRecord × TaskStep × Task} {rows : List (StepStateRecord × TaskStep × Task)}

def place (s : TaskStep) : ClientId × ClientId × Bool := (s.clientId, s.taskId, s.isDeleted)

/-- The records under some ids are closed at an instant, some that are not working are added, and
the steps and the tasks stay where they are. -/
structure Pauses (clockOutAt : Instant) (closed : List ClientId) (steps steps' : TaskSteps.Db) :
    Prop where
  records : ∃ added, steps'.stepStateRecords =
    updateWhere (fun r => closed.contains r.clientId)
      (fun r => { r with exitedAt := some clockOutAt }) steps.stepStateRecords ++ added ∧
        ∀ r ∈ added, r.state ≠ .working
  places : steps'.taskSteps.map place = steps.taskSteps.map place
  tasks : steps'.tasks = steps.tasks

theorem Pauses.refl (steps : TaskSteps.Db) : Pauses clockOutAt [] steps steps where
  records := ⟨[], by simp [updateWhere], by simp⟩
  places := rfl
  tasks := rfl

theorem Pauses.trans {closed closed' : List ClientId} {steps'' : TaskSteps.Db}
    (h : Pauses clockOutAt closed steps steps') (h' : Pauses clockOutAt closed' steps' steps'') :
    Pauses clockOutAt (closed ++ closed') steps steps'' := by
  obtain ⟨added, hrecords, hadded⟩ := h.records
  obtain ⟨added', hrecords', hadded'⟩ := h'.records
  refine ⟨⟨updateWhere (fun r => closed'.contains r.clientId)
    (fun r => { r with exitedAt := some clockOutAt }) added ++ added', ?_, ?_⟩,
    h'.places.trans h.places, h'.tasks.trans h.tasks⟩
  · rw [hrecords', hrecords, updateWhere, List.map_append, ← updateWhere, ← updateWhere,
      List.append_assoc]
    congr 1
    rw [updateWhere, updateWhere, updateWhere, List.map_map]
    refine List.map_congr_left fun r _ => ?_
    by_cases hc : closed.contains r.clientId
    · by_cases hc' : closed'.contains r.clientId <;> simp_all
    · by_cases hc' : closed'.contains r.clientId <;> simp_all
  · intro r hr
    rcases List.mem_append.mp hr with hr | hr
    · obtain ⟨x, hx, rfl⟩ := mem_updateWhere.mp hr
      split
      · exact hadded x hx
      · exact hadded x hx
    · exact hadded' r hr

theorem pauseWorkingStep_pauses
    (h : pauseWorkingStep ids userId actorId clockOutAt steps row = .ok steps') :
    Pauses clockOutAt [row.1.clientId] steps steps' := by
  rw [pauseWorkingStep] at h
  cases hok : TaskSteps.applyStepTransition steps .head row.2.1 row.1
      (shiftEndedTransition ids userId actorId row.2.1.clientId clockOutAt) clockOutAt with
  | error e =>
    rw [hok] at h
    cases h
  | ok steps₁ =>
    rw [hok] at h
    cases h
    obtain ⟨db₁, h₁, hok⟩ := bind_eq_ok.mp hok
    rw [TaskSteps.autoPause, if_neg fun hc => by cases hc.1] at h₁
    cases h₁
    obtain ⟨-, -, hok⟩ := TaskSteps.closeAndOpen_eq_ok hok
    cases hok
    have hframe := TaskSteps.settleClosedStepTime_frame (steps.replaced row.1.clientId
      ((shiftEndedTransition ids userId actorId row.2.1.clientId clockOutAt).newRecord
        row.2.1.clientId clockOutAt) clockOutAt false false) row.2.1.clientId row.1.state userId
          clockOutAt
    refine ⟨⟨[(shiftEndedTransition ids userId actorId row.2.1.clientId clockOutAt).newRecord
      row.2.1.clientId clockOutAt], ?_, ?_⟩, ?_, ?_⟩
    · refine hframe.stepStateRecords.trans ?_
      simp only [TaskSteps.Db.replaced, TaskSteps.StepStateRecord.flagged_false]
      congr 1
      refine List.map_congr_left fun r _ => ?_
      simp
    · rintro r hr hw
      rw [List.mem_singleton.mp hr] at hw
      cases hw
    · refine (hframe.comp place).steps.trans ?_
      exact map_updateWhere_of_fixed fun _ _ _ => rfl
    · exact TaskSteps.settleClosedStepTime_tasks _ _ _ _ _

theorem foldlM_pauses
    (h : rows.foldlM (pauseWorkingStep ids userId actorId clockOutAt) steps = .ok steps') :
    Pauses clockOutAt (rows.map fun row => row.1.clientId) steps steps' := by
  induction rows generalizing steps with
  | nil =>
    cases h
    exact .refl _
  | cons row rows ih =>
    rw [List.foldlM_cons] at h
    obtain ⟨steps₁, h₁, h⟩ := bind_eq_ok.mp h
    exact (pauseWorkingStep_pauses h₁).trans (ih h)

theorem Pauses.map_fetchTaskStep {closed : List ClientId}
    (h : Pauses clockOutAt closed steps steps')
    (stepId : ClientId) :
    (steps'.fetchTaskStep stepId).map place = (steps.fetchTaskStep stepId).map place := by
  have hfind : ∀ d : TaskSteps.Db, (d.fetchTaskStep stepId).map place =
      (d.taskSteps.map place).find? fun p => p.1 == stepId && !p.2.2 := by
    intro d
    rw [List.find?_map]
    rfl
  rw [hfind, hfind, h.places]

end Steps

section Working

variable {clockOutAt : Instant} {steps' : TaskSteps.Db}

/-- The open working records of a worker. -/
def Db.openWorking (db : Db) (userId : ClientId) : List StepStateRecord :=
  (db.creditedRecords userId).filter fun r => r.exitedAt.isNone && r.state == .working

theorem loadOpenSteps_working (db : Db) (userId : ClientId) :
    db.loadOpenSteps userId [.working] none =
      sortBy (fun r => toLex (r.enteredAt, r.clientId)) (db.openWorking userId) := by
  rw [Db.loadOpenSteps, Db.openWorking]
  congr 1
  refine List.filter_congr fun r _ => ?_
  simp [beq_eq_decide]

/-- Pausing takes the closed records out of the open working ones. -/
theorem Pauses.openWorking {closed : List ClientId}
    (h : Pauses clockOutAt closed db.steps steps') (hdb : db'.steps = steps') :
    db'.openWorking userId =
      (db.openWorking userId).filter fun r => !closed.contains r.clientId := by
  subst hdb
  obtain ⟨added, hrecords, hadded⟩ := h.records
  have hstep : ∀ r, (db'.stepOf r).isSome = (db.stepOf r).isSome := by
    intro r
    have hmap := congrArg Option.isSome (h.map_fetchTaskStep r.stepId)
    rwa [Option.isSome_map, Option.isSome_map] at hmap
  simp only [Db.openWorking, Db.creditedRecords, List.filter_filter, hrecords, List.filter_append,
    hstep]
  have hnone : added.filter (fun r => r.exitedAt.isNone && r.state == .working &&
      (r.worker == some userId && !r.isDeleted && (db.stepOf r).isSome)) = [] := by
    rw [List.filter_eq_nil_iff]
    intro r hr
    simp [hadded r hr]
  rw [hnone, List.append_nil, filter_updateWhere_of_not, List.filter_filter]
  intro r _ _
  simp

end Working

section Shifts

variable {shiftStart clockOutAt : Instant} {newId : UserShiftState → Instant → ClientId}
  {state : UserShiftState} {r : UserShiftStateRecord}

def IsSpan (userId : ClientId) (r : UserShiftStateRecord) : Prop :=
  r.userId = userId ∧ r.exitedAt ≠ none ∧ r.state.isDurationful = true

theorem segmentToShiftState_isDurationful {s : Analytics.LinearTimeline.SegmentState}
    (h : segmentToShiftState s = some state) : state.isDurationful = true := by
  cases s <;> cases h <;> rfl

theorem idleRecord_isSpan (start stop : Instant) :
    IsSpan userId (idleRecord userId newId start stop) := by
  refine ⟨rfl, ?_, rfl⟩
  intro h
  cases h

theorem addSegment_isSpan {acc : List UserShiftStateRecord × Instant}
    (h : ∀ r ∈ acc.1, IsSpan userId r) (segment : Analytics.LinearTimeline.LinearSegment) :
    ∀ r ∈ (db.addSegment userId shiftStart clockOutAt newId acc segment).1, IsSpan userId r := by
  unfold Db.addSegment
  split
  · exact h
  · next hstate =>
    intro r hr
    rcases List.mem_append.mp hr with hr | hr
    · rcases List.mem_append.mp hr with hr | hr
      · exact h r hr
      · split at hr
        · rw [List.mem_singleton.mp hr]
          exact idleRecord_isSpan _ _
        · cases hr
    · rw [List.mem_singleton.mp hr]
      refine ⟨rfl, ?_, segmentToShiftState_isDurationful hstate⟩
      intro hnone
      cases hnone

theorem rebuiltRecords_isSpan :
    ∀ r ∈ db.rebuiltRecords userId shiftStart clockOutAt newId, IsSpan userId r := by
  have hfold : ∀ (segments : List Analytics.LinearTimeline.LinearSegment)
      (acc : List UserShiftStateRecord × Instant), (∀ r ∈ acc.1, IsSpan userId r) →
        ∀ r ∈ (segments.foldl (db.addSegment userId shiftStart clockOutAt newId) acc).1,
          IsSpan userId r := by
    intro segments
    induction segments with
    | nil => exact fun _ h => h
    | cons segment segments ih => exact fun acc h => ih _ (addSegment_isSpan h segment)
  intro r hr
  have hrebuilt := hfold (Analytics.LinearTimeline.computeLinearSegments
    (db.shiftIntervals userId shiftStart clockOutAt) shiftStart clockOutAt clockOutAt [])
      ([], shiftStart) (fun _ h => absurd h List.not_mem_nil)
  unfold Db.rebuiltRecords at hr
  dsimp only at hr
  split at hr
  · rcases List.mem_append.mp hr with hr | hr
    · exact hrebuilt r hr
    · rw [List.mem_singleton.mp hr]
      exact idleRecord_isSpan _ _
  · exact hrebuilt r hr

/-- Spans are no markers. -/
theorem markers_dropProjectionsFrom (hs : state.isDurationful = false) :
    (dropProjectionsFrom db userId clockOutAt).markers userId state = db.markers userId state := by
  have hmarker : ∀ r : UserShiftStateRecord, (r.userId == userId && r.state == state) →
      r.state.isDurationful = false := by
    intro r hr
    simp only [Bool.and_eq_true, beq_iff_eq] at hr
    rw [hr.2, hs]
  rw [Db.markers, dropProjectionsFrom]
  dsimp only
  rw [filter_updateWhere, deleteWhere, List.filter_filter]
  swap
  · exact fun _ _ _ => rfl
  have hkeep : db.shiftRecords.filter (fun r => (r.userId == userId && r.state == state) &&
      !((r.userId == userId && r.state.isDurationful && decide (clockOutAt ≤ r.enteredAt)) &&
        !r.isLegacyManual)) = db.markers userId state := by
    refine List.filter_congr fun r _ => ?_
    by_cases hm : (r.userId == userId && r.state == state) = true
    · simp [hm, hmarker r hm]
    · simp [Bool.eq_false_iff.mpr hm]
  rw [hkeep]
  refine updateWhere_of_forall_not fun r hr => ?_
  simp [hmarker r (List.mem_filter.mp hr).2]

theorem markers_reconstructShiftMiddle (hs : state.isDurationful = false) :
    (reconstructShiftMiddle db userId shiftStart clockOutAt newId).markers userId state =
      db.markers userId state := by
  rw [Db.markers, reconstructShiftMiddle, List.filter_append, deleteWhere, List.filter_filter]
  have hnone : (db.rebuiltRecords userId shiftStart clockOutAt newId).filter
      (fun r => r.userId == userId && r.state == state) = [] := by
    rw [List.filter_eq_nil_iff]
    intro r hr hm
    simp only [Bool.and_eq_true, beq_iff_eq] at hm
    have hspan := (rebuiltRecords_isSpan r hr).2.2
    rw [hm.2, hs] at hspan
    cases hspan
  rw [hnone, List.append_nil]
  refine List.filter_congr fun r _ => ?_
  by_cases hm : (r.userId == userId && r.state == state) = true
  · have hstate : r.state.isDurationful = false := by
      simp only [Bool.and_eq_true, beq_iff_eq] at hm
      rw [hm.2, hs]
    simp [hm, hstate]
  · simp [Bool.eq_false_iff.mpr hm]

structure Closes (userId : ClientId) (shiftStart clockOutAt : Instant) (db db' : Db) : Prop where
  steps : Pauses clockOutAt
    ((db.loadOpenWorkingStepRows userId clockOutAt).map fun row =>
      row.1.clientId) db.steps db'.steps
  started : db'.markers userId .startedShift = db.markers userId .startedShift
  ended : ∃ e, e.enteredAt = clockOutAt ∧
    db'.markers userId .endedShift = db.markers userId .endedShift ++ [e]
  isOpen : ∀ r ∈ db'.shiftRecords, r.userId = userId → r.exitedAt = none →
    r ∈ db.shiftRecords ∧ (r.state.isDurationful = true → r.enteredAt < shiftStart)

theorem mem_dropProjectionsFrom_of_open
    (hr : r ∈ (dropProjectionsFrom db userId clockOutAt).shiftRecords)
    (hopen : r.exitedAt = none) (hu : r.userId = userId) :
    r ∈ db.shiftRecords ∧ (r.state.isDurationful = true → r.enteredAt < clockOutAt) := by
  obtain ⟨x, hx, he⟩ := mem_updateWhere.mp hr
  obtain ⟨hx, hkept⟩ := List.mem_filter.mp hx
  split at he
  · rw [← he] at hopen
    cases hopen
  · next hclosed =>
    subst he
    refine ⟨hx, fun hspan => ?_⟩
    by_contra hlate
    simp only [hu, hspan, hopen, not_lt.mp hlate, beq_self_eq_true, Bool.true_and, decide_true,
      Option.isNone_none, Bool.and_true] at hkept hclosed
    rw [Bool.not_not] at hkept
    exact hclosed hkept

theorem closeOpenShift_closes {changedById : Option ClientId} {pausedStepIds : List ClientId}
    (h : closeOpenShift db ids userId shiftStart clockOutAt changedById =
      .ok (db', pausedStepIds)) :
    Closes userId shiftStart clockOutAt db db' ∧ pausedStepIds =
      (db.loadOpenWorkingStepRows userId clockOutAt).map fun row => row.2.1.clientId := by
  obtain ⟨steps, hsteps, h⟩ := bind_eq_ok.mp h
  obtain ⟨db₁, hinsert, h⟩ := bind_eq_ok.mp h
  obtain ⟨-, hinsert⟩ := throwIf_bind_eq_ok.mp hinsert
  obtain ⟨-, hinsert⟩ := throwIf_bind_eq_ok.mp hinsert
  cases hinsert
  cases h
  have hmarkers : ∀ state : UserShiftState, state.isDurationful = false →
      (reconstructShiftMiddle (dropProjectionsFrom (clampOpenDeclared db userId clockOutAt) userId
        clockOutAt) userId shiftStart clockOutAt ids.shiftRecord).markers userId state =
          db.markers userId state := by
    intro state hs
    rw [markers_reconstructShiftMiddle hs, markers_dropProjectionsFrom hs]
    rfl
  refine ⟨⟨foldlM_pauses hsteps, ?_, ?_, ?_⟩, rfl⟩
  · rw [← hmarkers .startedShift rfl]
    simp [Db.markers, marker]
  · refine ⟨marker ids userId .endedShift clockOutAt changedById, rfl, ?_⟩
    rw [← hmarkers .endedShift rfl]
    simp [Db.markers, marker]
  · intro r hr hu hopen
    rcases List.mem_append.mp hr with hr | hr
    · rcases List.mem_append.mp hr with hr | hr
      · obtain ⟨hr, hkept⟩ := List.mem_filter.mp hr
        obtain ⟨hr, hlt⟩ := mem_dropProjectionsFrom_of_open hr hopen hu
        refine ⟨hr, fun hspan => ?_⟩
        by_contra hlate
        simp [hu, hspan, enteredIn, not_lt.mp hlate, hlt hspan] at hkept
      · exact absurd hopen (rebuiltRecords_isSpan r hr).2.1
    · rw [List.mem_singleton.mp hr] at hopen
      cases hopen

end Shifts

end BeyoManager.Shifts
