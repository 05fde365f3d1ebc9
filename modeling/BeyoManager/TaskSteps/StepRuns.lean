import BeyoManager.TaskSteps.StepLogs

/-! # The logs of the steps over whole runs

Adding and removing steps keeps the logs too. So after every run each step that is not
deleted has one open record, at the end of a chain of closed ones.
-/

namespace BeyoManager.TaskSteps

open OpenChain Relational Transition

variable {db db' : Db} {now : Instant} {ctx : ServiceContext}

section Create

/-- A created step starts its log with the pending record. -/
theorem createStep_keeps (inv : ChainInv db) {taskId : ClientId} {input : StepInput}
    (h : createStep db ctx taskId input now = .ok db') : ChainInv db' ∧ Kept db db' := by
  obtain ⟨hnewStep, hnewRecord, hsteps, hrecords, -⟩ := createStep_eq_ok h
  have hold : ∀ s ∈ db.taskSteps, s ∈ db'.taskSteps := fun s hs => by
    rw [hsteps]
    exact List.mem_append_left _ hs
  have hrecordsOf : ∀ stepId, db'.recordsOf stepId = db.recordsOf stepId ++
      if input.stepId = stepId then [input.pendingRecord ctx now] else [] := by
    intro stepId
    have hid : ((input.pendingRecord ctx now).stepId == stepId) = decide (input.stepId = stepId) :=
      rfl
    rw [Db.recordsOf, hrecords, List.filter_append, List.filter_singleton, hid, Db.recordsOf]
    congr 1
    split <;> simp_all
  refine ⟨⟨?_, ?_, ?_, ?_⟩, fun s hs => ⟨s, hold s hs, rfl, fun hd => hd, fun _ => .inl rfl⟩⟩
  · rw [hsteps]
    refine keyed_append.mpr ⟨inv.keyedSteps, List.nodup_singleton _, fun s hs s' hs' => ?_⟩
    obtain rfl := List.mem_singleton.mp hs'
    exact hnewStep s hs
  · rw [hrecords]
    refine keyed_append.mpr ⟨inv.keyedRecords, List.nodup_singleton _, fun r hr r' hr' => ?_⟩
    obtain rfl := List.mem_singleton.mp hr'
    exact hnewRecord r hr
  · intro r hr
    rw [hrecords, List.mem_append, List.mem_singleton] at hr
    rcases hr with hr | rfl
    · obtain ⟨s, hs, hid⟩ := inv.owned r hr
      exact ⟨s, hold s hs, hid⟩
    · refine ⟨input.storedStep db taskId, ?_, rfl⟩
      rw [hsteps]
      exact List.mem_append_right _ (List.mem_singleton_self _)
  · intro s hs hd
    rw [hsteps, List.mem_append, List.mem_singleton] at hs
    rcases hs with hs | rfl
    · obtain ⟨closed, last, hlog⟩ := inv.log s hs hd
      refine ⟨closed, last, ?_, hlog.chain, hlog.latest, hlog.state⟩
      rw [hrecordsOf, if_neg (hnewStep s hs).symm, List.append_nil, hlog.records]
    · -- no record has the id of a step that was not there
      have hnone : db.recordsOf input.stepId = [] := by
        refine List.filter_eq_nil_iff.mpr fun r hr => ?_
        obtain ⟨s, hs, hid⟩ := inv.owned r hr
        simpa using hid ▸ hnewStep s hs
      refine ⟨[], input.pendingRecord ctx now, ?_, .single rfl, rfl, rfl⟩
      have hid : (input.storedStep db taskId).clientId = input.stepId := rfl
      rw [hid, hrecordsOf, if_pos rfl, hnone]

theorem addTaskSteps_keeps (inv : ChainInv db) {taskId : ClientId} {inputs : List StepInput}
    {newEdgeId : ClientId → ClientId → ClientId}
    (h : addTaskSteps db ctx taskId inputs now newEdgeId = .ok db') :
      ChainInv db' ∧ Kept db db' := by
  obtain ⟨db₁, h₁, db₂, hframe, h⟩ := addTaskSteps_eq_ok h
  have hcreated : ChainInv db₁ ∧ Kept db db₁ := by
    refine foldlM_invariant (fun t => ChainInv t ∧ Kept db t) ?_ ⟨inv, .refl db⟩ h₁
    rintro t input - t' ⟨hinv, hkept⟩ ht
    obtain ⟨hinv', hkept'⟩ := createStep_keeps hinv ht
    exact ⟨hinv', hkept.trans hkept'⟩
  have hcore : StepFrame TaskStep.core db₁ db₂ := hframe.comp TaskStep.core
  have hwired := wireBatchSteps_frame h
  exact ⟨(hcreated.1.frame hcore).congr hwired.records hwired.core,
    (hcreated.2.trans (.of_core hcore.steps)).trans (.of_core hwired.core)⟩

end Create

section Remove

variable {taskId : ClientId} {stepIds : List ClientId}

theorem dropRemovedDependencies_frame (db : Db) (edges : List TaskStepDependency)
    (stepIds completed : List ClientId) :
    CountFrame db (db.dropRemovedDependencies edges stepIds completed) :=
  ⟨rfl, map_updateWhere_of_fixed fun _ _ _ => rfl⟩

/-- The tables after the rows of some steps and their open records have been written. -/
def Db.closedOff (db : Db) (stepIds : List ClientId) (now : Instant) : Db :=
  { db.markStepsRemoved stepIds now with
    stepStateRecords := updateWhere (fun r => stepIds.contains r.stepId && r.isOpen)
      (fun r => { r with exitedAt := some now }) db.stepStateRecords }

theorem stepsRemoved_frame (db : Db) (taskId : ClientId) (stepIds : List ClientId)
    (now : Instant) : CountFrame (db.closedOff stepIds now)
    (db.stepsRemoved taskId stepIds now) := by
  have hedges : CountFrame (db.closedOff stepIds now)
      ((db.closedOff stepIds now).removeEdges (db.edgesTouching stepIds) now) := ⟨rfl, rfl⟩
  exact hedges.trans (dropRemovedDependencies_frame _ _ _ _)

theorem mem_closedOff {s : TaskStep} (h : s ∈ (db.closedOff stepIds now).taskSteps) :
    ∃ s₀ ∈ db.taskSteps, s₀.clientId = s.clientId ∧
      if s₀.clientId ∈ stepIds then s.isDeleted = true ∧ s.state = .skipped else s = s₀ := by
  obtain ⟨s₀, hs₀, rfl⟩ := mem_updateWhere.mp h
  refine ⟨s₀, hs₀, ?_⟩
  by_cases hid : s₀.clientId ∈ stepIds <;> simp [hid]

/-- Removed steps have no log to keep; the others have theirs. -/
theorem closedOff_keeps (inv : ChainInv db) (stepIds : List ClientId) (now : Instant) :
    ChainInv (db.closedOff stepIds now) ∧ Kept db (db.closedOff stepIds now) := by
  refine ⟨⟨keyed_update inv.keyedSteps fun _ _ _ => rfl,
    keyed_update inv.keyedRecords fun _ _ _ => rfl, ?_, ?_⟩, ?_⟩
  · intro r hr
    obtain ⟨r₀, hr₀, rfl⟩ := mem_updateWhere.mp hr
    obtain ⟨s, hs, hid⟩ := inv.owned r₀ hr₀
    refine ⟨_, mem_updateWhere_of_mem hs, ?_⟩
    split <;> split <;> exact hid
  · intro s hs hd
    obtain ⟨s₀, hs₀, -, hrest⟩ := mem_closedOff hs
    split at hrest
    · rw [hd] at hrest
      cases hrest.1
    · rename_i hid
      subst hrest
      obtain ⟨closed, last, hlog⟩ := inv.log s hs₀ hd
      refine ⟨closed, last, ?_, hlog.chain, hlog.latest, hlog.state⟩
      rw [← hlog.records, Db.recordsOf, Db.closedOff, filter_stepId_update]
      · refine updateWhere_of_forall_not fun r hr => ?_
        have hrs : r.stepId = s.clientId := (mem_recordsOf.mp hr).2
        simp [hrs, hid]
      · exact fun r => rfl
  · intro s hs
    refine ⟨_, mem_updateWhere_of_mem hs, ?_⟩
    by_cases hid : s.clientId ∈ stepIds
    · simp [hid, TaskStepState.isTerminal]
    · simp [hid]

theorem removeTaskStepsInSession_keeps (inv : ChainInv db)
    (h : removeTaskStepsInSession db taskId stepIds now = .ok db') :
    ChainInv db' ∧ Kept db db' := by
  obtain ⟨-, -, hframe⟩ := removeTaskStepsInSession_eq_ok h
  obtain ⟨hinv, hkept⟩ := closedOff_keeps inv stepIds now
  have hremoved := stepsRemoved_frame db taskId stepIds now
  have hcore : StepFrame TaskStep.core (db.stepsRemoved taskId stepIds now) db' :=
    hframe.comp TaskStep.core
  exact ⟨(hinv.congr hremoved.records hremoved.core).frame hcore,
    (hkept.trans (.of_core hremoved.core)).trans (.of_core hcore.steps)⟩

end Remove

theorem execute_keeps (inv : ChainInv db) {op : Op} (h : op.execute db now = .ok db') :
    ChainInv db' ∧ Kept db db' := by
  have hcount : CountFrame db db' → ChainInv db' ∧ Kept db db' := fun hf =>
    ⟨inv.congr hf.records hf.core, .of_core hf.core⟩
  cases op with
  | transition => exact transitionStepState_keeps inv h
  | transitionBatch => exact transitionStepStateBatch_keeps inv h
  | markInaccurate =>
    obtain ⟨record, -, step, -, -, -, rfl⟩ := markStepTimeInaccurate_eq_ok h
    exact ⟨inv.flag _ _, .flag _ _ _⟩
  | addSteps => exact addTaskSteps_keeps inv h
  | removeStep => exact removeTaskStepsInSession_keeps inv h
  | removeSteps => exact removeTaskStepsInSession_keeps inv (removeTaskSteps_eq_ok h)
  | addDependency => exact hcount (addStepDependency_frame h)
  | removeDependency => exact hcount (removeStepDependency_frame h)
  | editSectionDependencies => exact hcount (editWorkingSectionDependencies_frame h)

theorem chainInv_withoutSteps (db : Db) : ChainInv db.withoutSteps :=
  ⟨keyed_nil, keyed_nil, by simp [Db.withoutSteps], by simp [Db.withoutSteps]⟩

theorem run_chainInv {s : System} (inv : ChainInv s.db) (commands : List Command) :
    ChainInv (run s commands).db :=
  run_invariant (fun s => ChainInv s.db)
    (fun _ _ _ hinv h => (execute_keeps hinv (step_eq_ok h).2).1) inv commands

theorem run_kept {s : System} (inv : ChainInv s.db) (commands : List Command) :
    Kept s.db (run s commands).db := by
  have hrun : ChainInv (run s commands).db ∧ Kept s.db (run s commands).db := by
    refine run_invariant (fun t : System => ChainInv t.db ∧ Kept s.db t.db) ?_ ⟨inv, .refl s.db⟩
      commands
    rintro t c t' ⟨hinv, hkept⟩ h
    obtain ⟨hinv', hkept'⟩ := execute_keeps hinv (step_eq_ok h).2
    exact ⟨hinv', hkept.trans hkept'⟩
  exact hrun.2

/-- After every run, each step that is not deleted has one open record. The step points to it
and has its state; the others are closed and each ends where the next one begins. No step
leaves a terminal state unless it is removed, which skips it, and a batch that one of its items
makes fail changes nothing. -/
theorem stepRecords_chained (tables : Db) (clock : Instant) (commands : List Command) :
    let s := run ⟨clock, tables.withoutSteps⟩ commands
    (∀ step ∈ s.db.taskSteps, step.isDeleted = false →
      ∃ closed last, s.db.recordsOf step.clientId = closed ++ [last] ∧
        (∀ r ∈ s.db.stepStateRecords, r.stepId = step.clientId →
          (r.exitedAt = none ↔ r = last)) ∧
        step.latestStateRecordId = some last.clientId ∧ last.state = step.state ∧
        (closed ++ [last]).Pairwise (fun r r' => r.enteredAt ≤ r'.enteredAt) ∧
        (closed ++ [last]).IsChain fun r r' => r.exitedAt = some r'.enteredAt) ∧
    (∀ later : List Command, ∀ step ∈ s.db.taskSteps, step.state.isTerminal = true →
      ∃ step' ∈ (run s later).db.taskSteps, step'.clientId = step.clientId ∧
        (step'.state = step.state ∨ step'.isDeleted = true ∧ step'.state = .skipped)) ∧
    (∀ ctx (request : BatchTransitionStepStateRequest) limit newRecordId autoPauseRecordId elapsed,
      (∃ item ∈ request.items, batchItemError s.db request.newState item ≠ none) →
        run s [⟨elapsed, .transitionBatch ctx request limit newRecordId autoPauseRecordId⟩] =
          s) := by
  intro s
  have inv : ChainInv s.db := run_chainInv (chainInv_withoutSteps tables) commands
  refine ⟨fun step hs hd => ?_, fun later step hs ht => ?_, ?_⟩
  · obtain ⟨closed, last, hlog⟩ := inv.log step hs hd
    refine ⟨closed, last, hlog.records, fun r hr hrs => ?_, hlog.latest, hlog.state,
      hlog.chain.ordered, hlog.chain.chain.imp fun _ _ h => h.1⟩
    exact ⟨hlog.eq_last hr hrs, fun he => he ▸ hlog.chain.isOpen⟩
  · obtain ⟨step', hs', hid, -, hterm⟩ := run_kept inv later step hs
    exact ⟨step', hs', hid, hterm ht⟩
  · rintro ctx request limit newRecordId autoPauseRecordId elapsed ⟨item, hitem, herror⟩
    have hcommit := @commit_cases _ _ _ step s
      ⟨elapsed, .transitionBatch ctx request limit newRecordId autoPauseRecordId⟩
    rcases hcommit with h | h
    · exact absurd (step_eq_ok h).2 (transitionStepStateBatch_error hitem herror _)
    · exact h

/-- A completed step that is removed: its state becomes skipped. -/
theorem removed_step_leaves_completed :
    let s := run ⟨0, workshop.withoutSteps⟩ [addsSteps [("a", "sewing")],
      moves worker none "a" .working false, moves worker none "a" .completed false]
    ¬ ∀ later : List Command, ∀ step ∈ s.db.taskSteps, step.state.isTerminal = true →
      ∀ step' ∈ (run s later).db.taskSteps, step'.clientId = step.clientId →
        step'.state = step.state := by
  intro s h
  have hcompleted : s.db.taskSteps.map (fun step => (step.clientId, step.state)) =
      [("a", .completed)] := by decide +kernel
  have hskipped : (run s [⟨0, .removeStep "task" "a"⟩]).db.taskSteps.map
      (fun step => (step.clientId, step.state)) = [("a", .skipped)] := by decide +kernel
  obtain ⟨step, hstep, hs⟩ := List.mem_map.mp
    (hcompleted ▸ List.mem_singleton_self _ :
      (("a", .completed) : ClientId × TaskStepState) ∈ s.db.taskSteps.map _)
  obtain ⟨step', hstep', hs'⟩ := List.mem_map.mp
    (hskipped ▸ List.mem_singleton_self _ :
      (("a", .skipped) : ClientId × TaskStepState) ∈ (run s _).db.taskSteps.map _)
  obtain ⟨hid, hstate⟩ := Prod.mk.inj hs
  obtain ⟨hid', hstate'⟩ := Prod.mk.inj hs'
  have hsame := h _ step hstep (by rw [hstate]; rfl) step' hstep' (hid'.trans hid.symm)
  rw [hstate, hstate'] at hsame
  cases hsame

end BeyoManager.TaskSteps
