import BeyoManager.TaskSteps.OneActiveStep

/-! # One active step over whole runs

Every command but the start of a step outside batch working keeps one active step for each
worker. A start keeps it when the auto-pause finds the worker's other record: the query looks
at the creators of the records and leaves one row.
-/

namespace BeyoManager.TaskSteps

open Relational Transition

variable {db db' : Db} {now : Instant} {ctx : ServiceContext} {limit : LimitOne Row}

theorem transitionStepStateBatch_active (inv : ActiveInv db)
    {request : BatchTransitionStepStateRequest}
    {newRecordId autoPauseRecordId : ClientId → ClientId}
    (h : transitionStepStateBatch db ctx request limit now newRecordId autoPauseRecordId =
      .ok db') : ActiveInv db' := by
  refine transitionStepStateBatch_loop inv.chain (fun _ db₁ => ActiveInv db₁) inv ?_ h
  intro x l db₁ db₂ _ hinv hloaded _ h₁
  have hx := hloaded x List.mem_cons_self
  obtain ⟨s, hs, hcore⟩ := hx.step
  obtain ⟨hid, -, hstate, -, -, hbatch, -, hdeleted⟩ := TaskStep.core_eq hcore
  refine closeAndOpen_active hinv hs hid (hdeleted.trans hx.live) (hstate ▸ hx.state) hx.record
    hx.recordOf hx.isOpen (fun _ hb => ?_) h₁
  rw [hbatch, hx.batch] at hb
  cases hb

theorem applyInaccurateTimeFlag_active (inv : ActiveInv db) (recordId stepId : ClientId) :
    ActiveInv (applyInaccurateTimeFlag db recordId stepId) := by
  have hstep : ∀ s ∈ (applyInaccurateTimeFlag db recordId stepId).taskSteps, ∃ s₀ ∈ db.taskSteps,
      s₀.clientId = s.clientId ∧ s₀.allowsBatchWorking = s.allowsBatchWorking ∧
        s₀.isDeleted = s.isDeleted := by
    intro s hs
    rw [applyInaccurateTimeFlag_eq] at hs
    obtain ⟨s₀, hs₀, rfl⟩ := mem_updateWhere.mp hs
    refine ⟨s₀, hs₀, ?_⟩
    split <;> exact ⟨rfl, rfl, rfl⟩
  have hrecord : ∀ r ∈ (applyInaccurateTimeFlag db recordId stepId).stepStateRecords,
      ∃ r₀ ∈ db.stepStateRecords, r₀.clientId = r.clientId ∧ r₀.stepId = r.stepId ∧
        r₀.state = r.state ∧ r₀.exitedAt = r.exitedAt ∧ r₀.worker = r.worker := by
    intro r hr
    rw [applyInaccurateTimeFlag_eq] at hr
    obtain ⟨r₀, hr₀, rfl⟩ := mem_updateWhere.mp hr
    refine ⟨r₀, hr₀, ?_⟩
    split <;> exact ⟨rfl, rfl, rfl, rfl, rfl⟩
  refine inv.of_activeFrom (inv.chain.flag recordId stepId) ?_ ?_
  · intro r hr ho s hs hid
    obtain ⟨r₀, hr₀, -, hrs, -, hexit, -⟩ := hrecord r hr
    obtain ⟨s₀, hs₀, hsid, -, hdeleted⟩ := hstep s hs
    exact hdeleted.symm.trans
      (inv.openLive r₀ hr₀ (hexit.trans ho) s₀ hs₀ (hsid.trans (hid.trans hrs.symm)))
  · intro userId r hr
    obtain ⟨hr, hw, hstate, ho, s, hs, hid, hb⟩ := mem_activeRecords.mp hr
    obtain ⟨r₀, hr₀, hrid, hrs, hrstate, hexit, hworker⟩ := hrecord r hr
    obtain ⟨s₀, hs₀, hsid, hbatch, -⟩ := hstep s hs
    exact ⟨r₀, mem_activeRecords.mpr ⟨hr₀, hworker.trans hw, hrstate.trans hstate, hexit.trans ho,
      s₀, hs₀, hsid.trans (hid.trans hrs.symm), hbatch.trans hb⟩, hrid⟩

theorem createStep_active (inv : ActiveInv db) {taskId : ClientId} {input : StepInput}
    (h : createStep db ctx taskId input now = .ok db') : ActiveInv db' := by
  obtain ⟨hnewStep, -, hsteps, hrecords, -⟩ := createStep_eq_ok h
  -- no record that was there belongs to the new step
  have hold : ∀ r ∈ db.stepStateRecords, ∀ s ∈ db'.taskSteps, s.clientId = r.stepId →
      s ∈ db.taskSteps := by
    intro r hr s hs hid
    rw [hsteps, List.mem_append, List.mem_singleton] at hs
    rcases hs with hs | rfl
    · exact hs
    · obtain ⟨s₀, hs₀, hid₀⟩ := inv.chain.owned r hr
      exact absurd (hid₀.trans hid.symm) (hnewStep s₀ hs₀)
  refine inv.of_activeFrom (createStep_keeps inv.chain h).1 ?_ ?_
  · intro r hr ho s hs hid
    rw [hrecords, List.mem_append, List.mem_singleton] at hr
    rcases hr with hr | rfl
    · exact inv.openLive r hr ho s (hold r hr s hs hid) hid
    · rw [hsteps, List.mem_append, List.mem_singleton] at hs
      rcases hs with hs | rfl
      · exact absurd hid (hnewStep s hs)
      · rfl
  · intro userId r hr
    obtain ⟨hr, hw, hstate, ho, s, hs, hid, hb⟩ := mem_activeRecords.mp hr
    rw [hrecords, List.mem_append, List.mem_singleton] at hr
    rcases hr with hr | rfl
    · exact ⟨r, mem_activeRecords.mpr ⟨hr, hw, hstate, ho, s, hold r hr s hs hid, hid, hb⟩, rfl⟩
    · cases hstate

theorem addTaskSteps_active (inv : ActiveInv db) {taskId : ClientId} {inputs : List StepInput}
    {newEdgeId : ClientId → ClientId → ClientId}
    (h : addTaskSteps db ctx taskId inputs now newEdgeId = .ok db') : ActiveInv db' := by
  obtain ⟨db₁, h₁, db₂, hframe, h⟩ := addTaskSteps_eq_ok h
  have hcreated : ActiveInv db₁ :=
    foldlM_invariant ActiveInv (fun _ _ _ _ hinv ht => createStep_active hinv ht) inv h₁
  have hcore : StepFrame TaskStep.core db₁ db₂ := hframe.comp TaskStep.core
  have hwired := wireBatchSteps_frame h
  exact (hcreated.congr hcore.stepStateRecords hcore.steps).congr hwired.records hwired.core

theorem closedOff_active (inv : ActiveInv db) (stepIds : List ClientId) (now : Instant) :
    ActiveInv (db.closedOff stepIds now) := by
  have hrecord : ∀ r ∈ (db.closedOff stepIds now).stepStateRecords, r.exitedAt = none →
      r ∈ db.stepStateRecords ∧ r.stepId ∉ stepIds := by
    intro r hr ho
    obtain ⟨r₀, hr₀, rfl⟩ := mem_updateWhere.mp hr
    by_cases hid : r₀.stepId ∈ stepIds
    · by_cases hopen : r₀.exitedAt = none
      · simp [StepStateRecord.isOpen, hid, hopen] at ho
      · simp [StepStateRecord.isOpen, hid, hopen] at ho
    · simpa [hid] using hr₀
  have hstep : ∀ r ∈ db.stepStateRecords, r.stepId ∉ stepIds →
      ∀ s ∈ (db.closedOff stepIds now).taskSteps, s.clientId = r.stepId → s ∈ db.taskSteps := by
    intro r _ hnot s hs hid
    obtain ⟨s₀, hs₀, hid₀, hrest⟩ := mem_closedOff hs
    rw [if_neg (by rwa [hid₀, hid])] at hrest
    exact hrest ▸ hs₀
  refine inv.of_activeFrom (closedOff_keeps inv.chain stepIds now).1 ?_ ?_
  · intro r hr ho s hs hid
    obtain ⟨hr, hnot⟩ := hrecord r hr ho
    exact inv.openLive r hr ho s (hstep r hr hnot s hs hid) hid
  · intro userId r hr
    obtain ⟨hr, hw, hstate, ho, s, hs, hid, hb⟩ := mem_activeRecords.mp hr
    obtain ⟨hr, hnot⟩ := hrecord r hr ho
    exact ⟨r, mem_activeRecords.mpr ⟨hr, hw, hstate, ho, s, hstep r hr hnot s hs hid, hid, hb⟩, rfl⟩

theorem removeTaskStepsInSession_active (inv : ActiveInv db) {taskId : ClientId}
    {stepIds : List ClientId} (h : removeTaskStepsInSession db taskId stepIds now = .ok db') :
    ActiveInv db' := by
  obtain ⟨-, -, hframe⟩ := removeTaskStepsInSession_eq_ok h
  have hremoved := stepsRemoved_frame db taskId stepIds now
  have hcore : StepFrame TaskStep.core (db.stepsRemoved taskId stepIds now) db' :=
    hframe.comp TaskStep.core
  exact ((closedOff_active inv stepIds now).congr hremoved.records hremoved.core).congr
    hcore.stepStateRecords hcore.steps

/-- The open working records that some users created, on live steps outside batch working. -/
def Db.createdActiveRecords (db : Db) (userIds : List ClientId) : List StepStateRecord :=
  db.stepStateRecords.filter fun r =>
    r.createdById.any (fun u => userIds.contains u) && r.state == .working && r.isOpen &&
      db.taskSteps.any fun s => s.clientId == r.stepId && !s.isDeleted && !s.allowsBatchWorking

/-- A command that starts a step outside batch working for a worker who is active on another
one: the caller or the worker created that record, and no other such record of the two is open
beside it. -/
def Op.PausesOther (db : Db) : Op → Prop
  | .transition ctx request _ _ _ =>
    request.newState = .working →
      ∀ step ∈ db.fetchStepOfTask request.taskId request.stepId, step.allowsBatchWorking = false →
        ∀ r ∈ db.activeRecords (resolveTransitionCreditUserId ctx request),
          r.stepId ≠ step.clientId →
            (∃ u ∈ [ctx.userId, resolveTransitionCreditUserId ctx request],
              r.createdById = some u) ∧
            ∀ other ∈ db.createdActiveRecords
              [ctx.userId, resolveTransitionCreditUserId ctx request],
              other.stepId ≠ step.clientId → other = r
  | _ => True

instance (db : Db) : (op : Op) → Decidable (op.PausesOther db)
  | .transition _ request _ _ _ => inferInstanceAs (Decidable (request.newState = .working → _))
  | .transitionBatch .. | .markInaccurate .. | .addSteps .. | .removeStep .. | .removeSteps ..
  | .addDependency .. | .removeDependency .. | .editSectionDependencies .. => .isTrue trivial

theorem createdActive_of_openUserWorkingRows {userIds : List ClientId} {excludeStepId : ClientId}
    {row : Row} (h : row ∈ db.openUserWorkingRows userIds excludeStepId) :
    row.1 ∈ db.createdActiveRecords userIds ∧ row.1.stepId ≠ excludeStepId := by
  obtain ⟨hr, ⟨u, hu, hcreated⟩, hw, ho, hne, -⟩ := mem_openUserWorkingRows.mp h
  obtain ⟨hs, hsid, hd, hb⟩ := step_of_openUserWorkingRows h
  refine ⟨List.mem_filter.mpr ⟨hr, ?_⟩, hne⟩
  have hstep : db.taskSteps.any (fun s =>
      s.clientId == row.1.stepId && !s.isDeleted && !s.allowsBatchWorking) = true :=
    List.any_eq_true.mpr ⟨row.2, hs, by simp [hsid, hd, hb]⟩
  simp [hcreated, hu, hw, StepStateRecord.isOpen, ho, hstep]

theorem exists_openUserWorkingRows (hlive : db.OpenLive) {userIds : List ClientId}
    {userId excludeStepId : ClientId} {r : StepStateRecord} (h : r ∈ db.activeRecords userId)
    (hcreated : ∃ u ∈ userIds, r.createdById = some u) (hne : r.stepId ≠ excludeStepId) :
    ∃ row ∈ db.openUserWorkingRows userIds excludeStepId, row.1 = r := by
  obtain ⟨hr, -, hw, ho, s, hs, hid, hb⟩ := mem_activeRecords.mp h
  have hsome : (db.taskSteps.find? fun s =>
      s.clientId == r.stepId && !s.isDeleted && !s.allowsBatchWorking).isSome = true :=
    List.find?_isSome.mpr ⟨s, hs, by simp [hid, hb, hlive r hr ho s hs hid]⟩
  obtain ⟨found, hfound⟩ := Option.isSome_iff_exists.mp hsome
  exact ⟨(r, found), mem_openUserWorkingRows.mpr ⟨hr, hcreated, hw, ho, hne, hfound⟩, rfl⟩

theorem transitionStepState_active (inv : ActiveInv db) {request : TransitionStepStateRequest}
    {newRecordId autoPauseRecordId : ClientId}
    (hcond : (Op.transition ctx request limit newRecordId autoPauseRecordId).PausesOther db)
    (h : transitionStepState db ctx request limit now newRecordId autoPauseRecordId = .ok db') :
    ActiveInv db' := by
  obtain ⟨step, hstep, hallowed, db₁, closing, hpause, hclosing, h⟩ := transitionStepState_eq_ok h
  obtain ⟨hs, -, -, hd⟩ := fetchStepOfTask_eq_some hstep
  obtain ⟨-, -, hsame⟩ := autoPause_keeps inv.chain hpause
  obtain ⟨inv₁, hactive⟩ := autoPause_active inv hpause
  obtain ⟨s, hs₁, hcore⟩ := hsame step hs rfl
  obtain ⟨hid, -, hstate, -, -, hbatch, -, hdeleted⟩ := TaskStep.core_eq hcore
  obtain ⟨hc, hcs, ho⟩ := openRecord_eq_some hclosing
  have hterm : s.state.isTerminal = false := by
    rw [hstate]
    by_contra ht
    exact not_mem_allowedTransitions_of_isTerminal (by simpa using ht) hallowed
  refine closeAndOpen_active inv₁ hs₁ hid (hdeleted.trans hd) hterm hc hcs ho ?_ h
  intro hw hb r hr
  obtain ⟨hr, hpaused⟩ := hactive _ r hr
  by_contra hne
  obtain ⟨hcreated, honly⟩ := hcond hw step hstep (hbatch.symm.trans hb) r hr hne
  obtain ⟨found, hfound, -⟩ := exists_openUserWorkingRows inv.openLive hr hcreated hne
  -- whichever row the limit leaves, it is this record's
  obtain ⟨row, hrow⟩ := Option.isSome_iff_exists.mp
    (limit.some_of_ne_nil _ (List.ne_nil_of_mem hfound))
  obtain ⟨hcreatedActive, hother⟩ :=
    createdActive_of_openUserWorkingRows (limit.mem _ _ hrow)
  exact hpaused hw (hbatch.symm.trans hb) row hrow (honly _ hcreatedActive hother)

theorem execute_active (inv : ActiveInv db) {op : Op} (hcond : op.PausesOther db)
    (h : op.execute db now = .ok db') : ActiveInv db' := by
  have hcount : CountFrame db db' → ActiveInv db' := fun hf => inv.congr hf.records hf.core
  cases op with
  | transition => exact transitionStepState_active inv hcond h
  | transitionBatch => exact transitionStepStateBatch_active inv h
  | markInaccurate =>
    obtain ⟨record, -, step, -, -, -, rfl⟩ := markStepTimeInaccurate_eq_ok h
    exact applyInaccurateTimeFlag_active inv _ _
  | addSteps => exact addTaskSteps_active inv h
  | removeStep => exact removeTaskStepsInSession_active inv h
  | removeSteps => exact removeTaskStepsInSession_active inv (removeTaskSteps_eq_ok h)
  | addDependency => exact hcount (addStepDependency_frame h)
  | removeDependency => exact hcount (removeStepDependency_frame h)
  | editSectionDependencies => exact hcount (editWorkingSectionDependencies_frame h)

theorem activeInv_withoutSteps (db : Db) : ActiveInv db.withoutSteps :=
  ⟨chainInv_withoutSteps db, by simp [Db.OpenLive, Db.withoutSteps],
    by simp [Db.activeRecords, Db.withoutSteps]⟩

/-- In a run in which every start outside batch working pauses the other active record of the
worker that it credits, each worker is credited on at most one open working record outside
batch working. -/
theorem oneActive_of_pausesOther (tables : Db) (clock : Instant) (commands : List Command)
    (h : Meets step (fun s c => c.op.PausesOther s.db) ⟨clock, tables.withoutSteps⟩ commands) :
    (run ⟨clock, tables.withoutSteps⟩ commands).db.OneActive := by
  refine ActiveInv.oneActive (h.invariant (fun s => ActiveInv s.db) ?_
    (activeInv_withoutSteps tables))
  exact fun s c s' hinv hcond hstep => execute_active hinv hcond (step_eq_ok hstep).2

/-- A worker who starts one step and then another is paused on the first. -/
theorem oneActive_of_pausesOther_ownWork :
    (run ⟨0, workshop.withoutSteps⟩ [addsSteps [("a", "sewing"), ("b", "sewing")],
      moves worker none "a" .working false,
        moves worker none "b" .working false]).db.OneActive := by
  refine oneActive_of_pausesOther workshop 0 _ ⟨fun _ => trivial, fun _ => ?_, fun _ => ?_, trivial⟩
  · decide +kernel
  · decide +kernel

/-- A manager starts a step for a worker, who then starts another one: the query for the worker's
own start looks at the creators of the records and misses the manager's. -/
theorem twoActive_of_manager :
    ¬ (run ⟨0, workshop.withoutSteps⟩ [addsSteps [("a", "sewing"), ("b", "sewing")],
      moves manager (some "worker") "a" .working false,
      moves worker none "b" .working false]).db.OneActive := by
  intro h
  have htwo : ((run ⟨0, workshop.withoutSteps⟩ [addsSteps [("a", "sewing"), ("b", "sewing")],
      moves manager (some "worker") "a" .working false,
      moves worker none "b" .working false]).db.activeRecords "worker").length = 2 := by
    decide +kernel
  exact absurd (h "worker") (by rw [htwo]; decide)

end BeyoManager.TaskSteps
