import BeyoManager.TaskSteps.DependencyWrites

/-! # The dependency counters over whole runs

A transition passes a completion on along the edges, and every other command but three keeps
the counters too. The three are the single edge added after a completed prerequisite, and the
removals that take a completed edge off a step which still waits for another one.
-/

namespace BeyoManager.TaskSteps

open Relational Transition

variable {db db' : Db} {now : Instant} {ctx : ServiceContext} {limit : LimitOne Row}

section Transition

variable {s step : TaskStep} {t : StepTransition}

theorem not_completed_of_not_isTerminal {state : TaskStepState} (h : state.isTerminal = false) :
    state ≠ .completed := by
  rintro rfl
  cases h

theorem counters_replaced {closingId : ClientId} {record : StepStateRecord} {fc fn : Bool} :
    (db.replaced closingId record now fc fn).taskSteps.map TaskStep.counters =
      db.taskSteps.map fun x =>
        (if x.clientId == record.stepId then { x with state := record.state } else x).counters := by
  rw [Db.replaced, updateWhere, List.map_map]
  refine List.map_congr_left fun x _ => ?_
  rw [Function.comp_apply]
  split <;> rfl

theorem DependencyInv.replaced (inv : DependencyInv db) {closingId : ClientId}
    {record : StepStateRecord} {fc fn : Bool}
    (hold : ∀ x ∈ db.taskSteps, x.clientId = record.stepId → x.state ≠ .completed)
    (hnew : record.state ≠ .completed) :
    DependencyInv (db.replaced closingId record now fc fn) := by
  refine inv.congr rfl ?_
  rw [counters_replaced]
  refine List.map_congr_left fun x hx => ?_
  split
  · rename_i hid
    simp only [TaskStep.counters, if_neg hnew, if_neg (hold x hx (by simpa using hid))]
  · rfl

theorem autoPause_counters (chain : ChainInv db) (inv : DependencyInv db)
    (h : autoPause db limit step t now = .ok db') : DependencyInv db' := by
  rcases autoPause_cases h with ⟨rfl, -⟩ | ⟨row, hrow, -, -, -, -, -, rfl⟩
  · exact inv
  · obtain ⟨hr, -, hw, ho, -, -⟩ := mem_openUserWorkingRows.mp hrow
    obtain ⟨hs, hsid, hd, -⟩ := step_of_openUserWorkingRows hrow
    obtain ⟨closed, hlog⟩ := chain.log_of_open hs hd hr hsid.symm ho
    have hpaused : DependencyInv (db.replaced row.1.clientId
        (t.autoPauseRecord db step.taskId row.2.clientId now) now false false) := by
      refine inv.replaced (fun x hx hid => ?_) (not_completed_of_not_isTerminal rfl)
      obtain rfl := inv.keyedSteps.inj hx hs hid
      rw [← hlog.state, hw]
      decide
    exact hpaused.frame (settleClosedStepTime_frame _ _ _ _ _).counters_of_untimed

/-- A transition of a step that is not completed, with the cascade when it completes it. -/
theorem closeAndOpen_counters (inv : DependencyInv db) {closing : StepStateRecord}
    (hs : s ∈ db.taskSteps) (hid : s.clientId = step.clientId) (hnot : s.state ≠ .completed)
    (h : closeAndOpen db step closing t now = .ok db') : DependencyInv db' := by
  obtain ⟨-, -, h⟩ := closeAndOpen_eq_ok h
  obtain ⟨db₁, hframe, h⟩ := transitionSideEffects_eq_ok h
  have hcounters : StepFrame TaskStep.counters (db.replaced closing.clientId
      (t.newRecord step.clientId now) now (t.flagsClosing closing)
        (t.flagsClosing closing && t.newState == .completed)) db₁ :=
    (settleClosedStepTime_frame _ _ _ _ _).counters_of_untimed.trans hframe.counters_of_unclosed
  split at h
  · rename_i hc
    rw [← hid] at h
    refine inv.cascade hs hnot hcounters.taskStepDependencies ?_ h
    rw [hcounters.steps, counters_replaced]
    have hrs : (t.newRecord step.clientId now).stepId = s.clientId := hid.symm
    have hstate : (t.newRecord step.clientId now).state = .completed := hc
    rw [hrs, hstate]
  · rename_i hc
    rw [h]
    refine DependencyInv.frame (inv.replaced (fun x hx hx' => ?_) hc) hcounters
    obtain rfl := inv.keyedSteps.inj hx hs (hx'.trans hid.symm)
    exact hnot

theorem transitionStepState_counters (chain : ChainInv db) (inv : DependencyInv db)
    {request : TransitionStepStateRequest} {newRecordId autoPauseRecordId : ClientId}
    (h : transitionStepState db ctx request limit now newRecordId autoPauseRecordId = .ok db') :
    DependencyInv db' := by
  obtain ⟨step, hstep, hallowed, db₁, closing, hpause, -, h⟩ := transitionStepState_eq_ok h
  obtain ⟨hs, -, -, -⟩ := fetchStepOfTask_eq_some hstep
  obtain ⟨-, -, hsame⟩ := autoPause_keeps chain hpause
  obtain ⟨s, hs₁, hcore⟩ := hsame step hs rfl
  obtain ⟨hid, -, hstate, -⟩ := TaskStep.core_eq hcore
  refine closeAndOpen_counters (autoPause_counters chain inv hpause) hs₁ hid ?_ h
  rw [hstate]
  intro hc
  exact not_mem_allowedTransitions_of_isTerminal (by rw [hc]; rfl) hallowed

theorem transitionStepStateBatch_counters (chain : ChainInv db) (inv : DependencyInv db)
    {request : BatchTransitionStepStateRequest}
    {newRecordId autoPauseRecordId : ClientId → ClientId}
    (h : transitionStepStateBatch db ctx request limit now newRecordId autoPauseRecordId =
      .ok db') : DependencyInv db' := by
  refine transitionStepStateBatch_loop chain (fun _ db₁ => DependencyInv db₁) inv ?_ h
  intro x l db₁ db₂ _ hinv hloaded _ h₁
  have hx := hloaded x List.mem_cons_self
  obtain ⟨s, hs, hcore⟩ := hx.step
  obtain ⟨hid, -, hstate, -⟩ := TaskStep.core_eq hcore
  exact closeAndOpen_counters hinv hs hid
    (hstate ▸ not_completed_of_not_isTerminal hx.state) h₁

end Transition

/-- A command that counts the edges that it adds and removes: a single edge is added before its
prerequisite is completed, and no removal takes a completed edge off a step that waits for
another one. -/
def Op.CountsEdges (db : Db) : Op → Prop
  | .addDependency taskId _ prerequisiteStepId _ =>
    ∀ p ∈ db.fetchStepOfTask taskId prerequisiteStepId, p.state ≠ .completed
  | .removeDependency dependencyId =>
    ∀ e ∈ db.taskStepDependencies, e.clientId = dependencyId → e.isActive = true →
      db.DropsRight [e]
  | .editSectionDependencies sectionId depIds _ =>
    db.DropsRight (db.edgesForSections sectionId
      ((db.prerequisiteSections sectionId).filter fun id => id ∉ depIds))
  | _ => True

instance (db : Db) : (op : Op) → Decidable (op.CountsEdges db)
  | .addDependency .. => inferInstanceAs (Decidable (∀ p ∈ _, _))
  | .removeDependency _ => inferInstanceAs (Decidable (∀ e ∈ db.taskStepDependencies, _))
  | .editSectionDependencies .. => inferInstanceAs (Decidable (db.DropsRight _))
  | .transition .. | .transitionBatch .. | .markInaccurate .. | .addSteps .. | .removeStep ..
  | .removeSteps .. => .isTrue trivial

theorem execute_counters (chain : ChainInv db) (inv : DependencyInv db) {op : Op}
    (hcond : op.CountsEdges db) (h : op.execute db now = .ok db') : DependencyInv db' := by
  cases op with
  | transition => exact transitionStepState_counters chain inv h
  | transitionBatch => exact transitionStepStateBatch_counters chain inv h
  | markInaccurate =>
    obtain ⟨record, -, step, -, -, -, rfl⟩ := markStepTimeInaccurate_eq_ok h
    rw [applyInaccurateTimeFlag_eq]
    refine inv.congr rfl (map_updateWhere_of_fixed fun _ _ _ => rfl)
  | addSteps => exact addTaskSteps_counters inv h
  | removeStep => exact removeTaskStepsInSession_counters inv h
  | removeSteps => exact removeTaskStepsInSession_counters inv (removeTaskSteps_eq_ok h)
  | addDependency => exact addStepDependency_counters inv hcond h
  | removeDependency => exact removeStepDependency_counters inv hcond h
  | editSectionDependencies => exact editWorkingSectionDependencies_counters inv hcond h

theorem dependencyInv_withoutSteps (db : Db) : DependencyInv db.withoutSteps :=
  ⟨keyed_nil, keyed_nil, by simp [Db.withoutSteps], by simp [Db.withoutSteps]⟩

/-- In a run in which every command counts the edges that it adds and removes, the counters of
every step that is not deleted are right. -/
theorem countersRight_of_countsEdges (tables : Db) (clock : Instant) (commands : List Command)
    (h : Meets step (fun s c => c.op.CountsEdges s.db) ⟨clock, tables.withoutSteps⟩ commands) :
    (run ⟨clock, tables.withoutSteps⟩ commands).db.CountersRight := by
  have hinv := h.invariant (fun s => ChainInv s.db ∧ DependencyInv s.db) ?_
    ⟨chainInv_withoutSteps tables, dependencyInv_withoutSteps tables⟩
  · exact hinv.2.countersRight
  · rintro s c s' ⟨hchain, hinv⟩ hcond hstep
    have hexec := (step_eq_ok hstep).2
    exact ⟨(execute_keeps hchain hexec).1, execute_counters hchain hinv hcond hexec⟩

/-- An edge that is added before its prerequisite is completed, and removed afterwards. -/
theorem countersRight_of_countsEdges_oneEdge :
    (run ⟨0, workshop.withoutSteps⟩ [addsSteps [("a", "sewing"), ("b", "sewing")],
      ⟨0, .addDependency "task" "b" "a" "edge"⟩, moves worker none "a" .working false,
      moves worker none "a" .completed false, ⟨0, .removeDependency "edge"⟩]).db.CountersRight := by
  refine countersRight_of_countsEdges workshop 0 _
    ⟨fun _ => trivial, fun _ => ?_, fun _ => trivial, fun _ => trivial, fun _ => ?_, trivial⟩
  · decide +kernel
  · decide +kernel

/-- An edge that is added after its prerequisite is completed: the dependent step waits for a
step that is done. -/
theorem blocked_of_completed :
    ¬ (run ⟨0, workshop.withoutSteps⟩ [addsSteps [("a", "sewing"), ("b", "sewing")],
      moves worker none "a" .working false, moves worker none "a" .completed false,
      ⟨0, .addDependency "task" "b" "a" "edge"⟩]).db.CountersRight := by
  decide +kernel

end BeyoManager.TaskSteps
