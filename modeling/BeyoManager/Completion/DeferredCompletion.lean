import BeyoManager.Completion.PendingCompletion
import BeyoManager.Upholstery.Installation

/-! # When the deferred completion is the transition

The handler keeps no record that it closes from before its entry, and writes what an immediate
transition at the instant of the request would. It differs in three places: it does not look at the
pause reason again, it stamps the task with the instant it fires, and it leaves the fabric of the
installation alone.
-/

namespace BeyoManager.Completion

open Analytics Relational Transition
open TaskSteps

/-- The tables of the steps and of the fabric, with the section name that each step was given. -/
structure Store where
  steps : TaskSteps.Db
  upholstery : Upholstery.Db
  workingSectionNameSnapshot : ClientId → Option String

def Store.finalize (s : Store) (p : RequestedCompletion) (now : Instant) (newRecordId : ClientId) :
    Except TaskSteps.CommandError Store := do
  let steps ← finalizePendingStepCompletion s.steps p.toPendingStepCompletion now newRecordId
  pure { s with steps }

def Store.transition (s : Store) (p : RequestedCompletion) (limit : LimitOne Row)
    (newRecordId autoPauseRecordId : ClientId) :
    Except (TaskSteps.CommandError ⊕ Upholstery.CommandError) Store := do
  let steps ← (transitionStepState s.steps p.ctx p.request limit p.completionRequestedAt newRecordId
    autoPauseRecordId).mapError .inl
  let upholstery ← (Upholstery.applyUpholsteryInstallationSideEffect s.upholstery p.taskId
    (s.workingSectionNameSnapshot p.stepId) .completed).mapError .inr
  pure { s with steps, upholstery }

def ClosedAfterEntry (db db' : TaskSteps.Db) : Prop :=
  ∀ r ∈ db'.stepStateRecords, r ∉ db.stepStateRecords →
    ∀ exitedAt ∈ r.exitedAt, r.enteredAt ≤ exitedAt

/-- The handler changes nothing, or does what the immediate transition does; it closes no record
before its entry. -/
def MatchesTransition (s : Store) (p : RequestedCompletion) (now : Instant) (limit : LimitOne Row)
    (newRecordId autoPauseRecordId : ClientId) : Prop :=
  ∀ s', s.finalize p now newRecordId = .ok s' →
    (s' = s ∨ s.transition p limit newRecordId autoPauseRecordId = .ok s') ∧
      ClosedAfterEntry s.steps s'.steps

/-- The step is still working, and the tables take its completion. -/
structure Completes (db : TaskSteps.Db) (p : RequestedCompletion) (newRecordId : ClientId)
    (step : TaskStep) (closing : StepStateRecord) : Prop where
  found : db.fetchStepOfTask p.taskId p.stepId = some step
  working : step.state = .working
  ofTask : db.fetchTask p.taskId ≠ none
  opened : db.openRecord step.clientId = some closing
  entered : ∀ r ∈ db.stepStateRecords, r.clientId = closing.clientId →
    r.enteredAt ≤ p.completionRequestedAt
  fresh : ∀ r ∈ db.stepStateRecords, r.clientId ≠ newRecordId
  only : ∀ r ∈ db.stepStateRecords, r.stepId = p.stepId → r.exitedAt = none →
    r.clientId = closing.clientId
  counted : ∃ db', cascadeStepCompletion db step.clientId = .ok db'

/-- The task is open, and its other steps have ended. -/
def LastOpenStep (db : TaskSteps.Db) (step : TaskStep) : Prop :=
  TaskOpen db step.taskId ∧
    ∀ s ∈ db.liveSteps step.taskId, s.clientId ≠ step.clientId → s.state.isTerminal

variable {p : RequestedCompletion} {db db' : TaskSteps.Db} {s s' : Store} {step : TaskStep}
  {closing : StepStateRecord} {now : Instant} {newRecordId autoPauseRecordId : ClientId}
  {limit : LimitOne Row}

/-! ### The handler -/

/-- The handler leaves the tables, or it found what it completes. -/
theorem finalizePendingStepCompletion_cases
    (h : finalizePendingStepCompletion db p.toPendingStepCompletion now newRecordId = .ok db') :
    db' = db ∨ ∃ step closing, db.fetchStepOfTask p.taskId p.stepId = some step ∧
      step.state = .working ∧ db.fetchTask p.taskId ≠ none ∧
      db.openRecord step.clientId = some closing ∧
      completeDeferred db step closing p.toPendingStepCompletion now newRecordId = .ok db' := by
  rw [finalizePendingStepCompletion] at h
  split at h
  · cases h
    exact .inl rfl
  · next step hstep =>
    split_ifs at h with hskip
    · cases h
      exact .inl rfl
    · rw [not_or, not_not] at hskip
      split at h
      · cases h
        exact .inl rfl
      · next closing hclosing =>
        exact .inr ⟨step, closing, hstep, hskip.1, hskip.2, hclosing, h⟩

theorem finalizePendingStepCompletion_of_completes
    (h : Completes db p newRecordId step closing) :
    finalizePendingStepCompletion db p.toPendingStepCompletion now newRecordId =
      completeDeferred db step closing p.toPendingStepCompletion now newRecordId := by
  have hskip : ¬ (step.state ≠ .working ∨ db.fetchTask p.taskId = none) := by
    rw [not_or, not_not]
    exact ⟨h.working, h.ofTask⟩
  rw [finalizePendingStepCompletion, h.found]
  simp only [if_neg hskip, h.opened]

/-! ### When the cascade goes through -/

def tally (s : TaskStep) : ClientId × Bool × ℕ × ℕ :=
  (s.clientId, s.isDeleted, s.totalDependencies, s.completedDependencies)

theorem map_tally_cascadeEdge (db : TaskSteps.Db) (edge : TaskStepDependency) :
    (cascadeEdge db edge).taskSteps.map tally =
      if ∃ x ∈ db.taskSteps.map tally, (x.1 == edge.dependentStepId && !x.2.1) = true then
        (db.taskSteps.map tally).map fun x =>
          if x.1 == edge.dependentStepId then (x.1, x.2.1, x.2.2.1, x.2.2.2 + 1) else x
      else db.taskSteps.map tally := by
  have hfound : (∃ x ∈ db.taskSteps.map tally, (x.1 == edge.dependentStepId && !x.2.1) = true) ↔
      db.fetchTaskStep edge.dependentStepId ≠ none := by
    rw [ne_eq, Db.fetchTaskStep, List.find?_eq_none]
    simp [tally]
  rw [cascadeEdge]
  cases hfetch : db.fetchTaskStep edge.dependentStepId with
  | none => rw [if_neg (by rw [hfound, hfetch]; simp)]
  | some s =>
    rw [if_pos (by rw [hfound, hfetch]; simp)]
    change (updateWhere _ _ db.taskSteps).map tally = _
    rw [updateWhere, List.map_map, List.map_map]
    refine List.map_congr_left fun x _ => ?_
    by_cases hid : x.clientId = edge.dependentStepId
    · simp [tally, hid, TaskStep.completeDependency, recalculateReadiness]
    · simp [tally, hid]

theorem map_tally_foldl_cascadeEdge (edges : List TaskStepDependency)
    (h : db'.taskSteps.map tally = db.taskSteps.map tally) :
    (edges.foldl cascadeEdge db').taskSteps.map tally =
      (edges.foldl cascadeEdge db).taskSteps.map tally := by
  induction edges generalizing db db' with
  | nil => exact h
  | cons edge edges ih =>
    refine ih ?_
    rw [map_tally_cascadeEdge, map_tally_cascadeEdge, h]

theorem exists_cascadeStepCompletion_iff {stepId : ClientId} :
    (∃ db', cascadeStepCompletion db stepId = .ok db') ↔
      ∀ x ∈ ((db.edgesFrom stepId).foldl cascadeEdge db).taskSteps.map tally,
        x.2.2.2 ≤ x.2.2.1 := by
  constructor
  · rintro ⟨db', h⟩
    obtain ⟨hlimit, -⟩ := throwIf_bind_eq_ok.mp h
    intro x hx
    obtain ⟨s, hs, rfl⟩ := List.mem_map.mp hx
    by_contra hlt
    exact hlimit ⟨s, hs, not_le.mp hlt⟩
  · intro h
    refine ⟨_, throwIf_bind_eq_ok.mpr ⟨?_, rfl⟩⟩
    rintro ⟨s, hs, hlt⟩
    exact absurd (h _ (List.mem_map_of_mem hs)) (not_le.mpr hlt)

theorem exists_cascadeStepCompletion_congr {stepId : ClientId}
    (hsteps : db'.taskSteps.map tally = db.taskSteps.map tally)
    (hedges : db'.taskStepDependencies = db.taskStepDependencies) :
    (∃ db₁, cascadeStepCompletion db' stepId = .ok db₁) ↔
      ∃ db₁, cascadeStepCompletion db stepId = .ok db₁ := by
  have hfrom : db'.edgesFrom stepId = db.edgesFrom stepId := by
    rw [Db.edgesFrom, Db.edgesFrom, hedges]
  rw [exists_cascadeStepCompletion_iff, exists_cascadeStepCompletion_iff, hfrom,
    map_tally_foldl_cascadeEdge _ hsteps]

/-! ### What was written before the task -/

theorem updateWhere_cases {α : Type} {q : α → Bool} {f : α → α} {t : List α} {y : α}
    (h : y ∈ updateWhere q f t) : (∃ x ∈ t, q x = true ∧ y = f x) ∨ y ∈ t ∧ q y = false := by
  obtain ⟨x, hx, rfl⟩ := mem_updateWhere.mp h
  by_cases hq : q x = true
  · rw [if_pos hq]
    exact .inl ⟨x, hx, hq, rfl⟩
  · rw [if_neg hq]
    exact .inr ⟨hx, Bool.eq_false_iff.mpr hq⟩

theorem replaceRecord_eq_ok_iff {closingId : ClientId} {record : StepStateRecord} {at' : Instant} :
    replaceRecord db closingId record at' false false = .ok db' ↔
      db' = db.replaced closingId record at' false false ∧
        (∀ r ∈ db.stepStateRecords, r.clientId = closingId → r.enteredAt ≤ at') ∧
        (∀ r ∈ db.stepStateRecords, r.clientId ≠ record.clientId) ∧
        ∀ r ∈ db.stepStateRecords, r.stepId = record.stepId → r.exitedAt = none →
          r.clientId = closingId := by
  refine ⟨replaceRecord_eq_ok, ?_⟩
  rintro ⟨rfl, hentered, hfresh, honly⟩
  have hcloses : db.closeRecord closingId at' =
      .ok (db.updateRecord closingId fun r => { r with exitedAt := some at' }) := by
    refine throwIf_bind_eq_ok.mpr ⟨?_, rfl⟩
    rintro ⟨r, hr, hid, hlt⟩
    exact absurd (hentered r hr hid) (not_le.mpr hlt)
  have hinserts : (db.updateRecord closingId fun r => { r with exitedAt := some at' }).insertRecord
      record = .ok { db with
        stepStateRecords := updateWhere (fun r => r.clientId == closingId)
          (fun r => { r with exitedAt := some at' }) db.stepStateRecords ++ [record] } := by
    refine throwIf_bind_eq_ok.mpr ⟨?_, throwIf_bind_eq_ok.mpr ⟨?_, rfl⟩⟩
    · rintro ⟨r, hr, hid⟩
      obtain ⟨r₀, hr₀, rfl⟩ := List.mem_map.mp hr
      refine hfresh r₀ hr₀ ?_
      rw [← hid]
      split <;> rfl
    · rintro ⟨r, hr, hs, ho⟩
      obtain ⟨r₀, hr₀, rfl⟩ := List.mem_map.mp hr
      by_cases hid : r₀.clientId = closingId
      · simp [hid] at ho
      · simp only [beq_iff_eq, hid, if_false] at hs ho
        exact hid (honly r₀ hr₀ hs ho)
  refine bind_eq_ok.mpr ⟨_, hcloses, ?_⟩
  refine bind_eq_ok.mpr ⟨_, hinserts, ?_⟩
  simp only [Db.replaced, StepStateRecord.flagged_false, TaskStep.flagged_false, Bool.or_self]
  rfl

theorem cascadeStepCompletion_tasks {stepId : ClientId}
    (h : cascadeStepCompletion db stepId = .ok db') : db'.tasks = db.tasks := by
  obtain ⟨rfl, -⟩ := cascadeStepCompletion_frame h
  have htasks := congrArg Db.tasks (foldl_cascadeEdge_tasks (db.edgesFrom stepId) db db.tasks)
  exact htasks

/-- The common part keeps the records of the replacement, the tasks, and the standing of the
steps. -/
theorem cascaded_eq_ok (h : cascaded p db step closing newRecordId = .ok db') :
    ∃ base, replaceRecord db closing.clientId (p.newRecord newRecordId) p.completionRequestedAt
        false false = .ok base ∧
      db'.stepStateRecords = base.stepStateRecords ∧ db'.tasks = base.tasks ∧
      db'.taskSteps.map standing = base.taskSteps.map standing := by
  obtain ⟨base, hbase, h⟩ := bind_eq_ok.mp h
  refine ⟨base, hbase, ?_⟩
  have hclosed : StepFrame TaskStep.unclosed base
      (base.updateStep step.clientId (close p.completionRequestedAt)) := by
    refine .updateStep ?_ _ _
    exact fun s => rfl
  have hsettled := settleClosedStepTime_frame
    (base.updateStep step.clientId (close p.completionRequestedAt)) step.clientId closing.state
      p.creditedUserId p.completionRequestedAt
  have hframe : StepFrame standing base db' :=
    ((hclosed.comp standing).trans (hsettled.comp standing)).trans
      ((cascadeStepCompletion_frame h).2.comp standing)
  refine ⟨hframe.stepStateRecords, ?_, hframe.steps⟩
  rw [cascadeStepCompletion_tasks h, settleClosedStepTime_tasks]
  rfl

/-- The common part goes through when the record can be replaced and the tables take the
cascade. -/
theorem exists_cascaded_iff : (∃ db', cascaded p db step closing newRecordId = .ok db') ↔
    (∃ base, replaceRecord db closing.clientId (p.newRecord newRecordId) p.completionRequestedAt
        false false = .ok base) ∧
      ∃ db', cascadeStepCompletion db step.clientId = .ok db' := by
  have hcounts : ∀ base, replaceRecord db closing.clientId (p.newRecord newRecordId)
      p.completionRequestedAt false false = .ok base →
      ((∃ db', cascadeStepCompletion (settleClosedStepTime
          (base.updateStep step.clientId (close p.completionRequestedAt)) step.clientId
          closing.state p.creditedUserId p.completionRequestedAt) step.clientId = .ok db') ↔
        ∃ db', cascadeStepCompletion db step.clientId = .ok db') := by
    intro base hbase
    obtain ⟨rfl, -⟩ := replaceRecord_eq_ok_iff.mp hbase
    have hclosed : StepFrame tally (db.replaced closing.clientId (p.newRecord newRecordId)
        p.completionRequestedAt false false) ((db.replaced closing.clientId
          (p.newRecord newRecordId) p.completionRequestedAt false false).updateStep step.clientId
            (close p.completionRequestedAt)) := by
      refine .updateStep ?_ _ _
      exact fun s => rfl
    have hsettled := (settleClosedStepTime_frame ((db.replaced closing.clientId
      (p.newRecord newRecordId) p.completionRequestedAt false false).updateStep step.clientId
        (close p.completionRequestedAt)) step.clientId closing.state p.creditedUserId
          p.completionRequestedAt).comp tally
    refine exists_cascadeStepCompletion_congr ?_ ?_
    · refine ((hclosed.trans hsettled).steps).trans (map_updateWhere_of_fixed fun s _ _ => rfl)
    · exact (hclosed.trans hsettled).taskStepDependencies
  constructor
  · rintro ⟨db', h⟩
    obtain ⟨base, hbase, h⟩ := bind_eq_ok.mp h
    exact ⟨⟨base, hbase⟩, (hcounts base hbase).mp ⟨db', h⟩⟩
  · rintro ⟨⟨base, hbase⟩, hcascade⟩
    obtain ⟨db', h⟩ := (hcounts base hbase).mpr hcascade
    exact ⟨db', bind_eq_ok.mpr ⟨base, hbase, h⟩⟩

theorem completes_iff (hfound : db.fetchStepOfTask p.taskId p.stepId = some step) :
    Completes db p newRecordId step closing ↔
      step.state = .working ∧ db.fetchTask p.taskId ≠ none ∧
        db.openRecord step.clientId = some closing ∧
          ∃ db', cascaded p db step closing newRecordId = .ok db' := by
  rw [exists_cascaded_iff]
  constructor
  · intro h
    exact ⟨h.working, h.ofTask, h.opened, ⟨_, replaceRecord_eq_ok_iff.mpr
      ⟨rfl, h.entered, h.fresh, h.only⟩⟩, h.counted⟩
  · rintro ⟨hworking, htask, hclosing, ⟨base, hbase⟩, hcounted⟩
    obtain ⟨-, hentered, hfresh, honly⟩ := replaceRecord_eq_ok_iff.mp hbase
    exact ⟨hfound, hworking, htask, hclosing, hentered, hfresh, honly, hcounted⟩

/-- The task becomes ready when the step was its last open one. -/
theorem becomesReady_iff (hfound : db.fetchStepOfTask p.taskId p.stepId = some step)
    (h : cascaded p db step closing newRecordId = .ok db') :
    AllEnded db' step.taskId ∧ TaskOpen db' step.taskId ↔ LastOpenStep db step := by
  obtain ⟨hmem, hid, -, hlive⟩ := fetchStepOfTask_eq_some hfound
  obtain ⟨base, hbase, -, htasks, hstanding⟩ := cascaded_eq_ok h
  obtain ⟨rfl, -⟩ := replaceRecord_eq_ok_iff.mp hbase
  have hopen : TaskOpen db' step.taskId ↔ TaskOpen db step.taskId := by
    rw [TaskOpen, TaskOpen, htasks]
    rfl
  let completed (s : TaskStep) : TaskStep := { s.flagged (false || false) with
    state := (p.newRecord newRecordId).state
    latestStateRecordId := some (p.newRecord newRecordId).clientId }
  rw [allEnded_congr hstanding, hopen, LastOpenStep, and_comm]
  refine and_congr_right fun _ => ?_
  constructor
  · rintro ⟨-, hended⟩ s hs hne
    obtain ⟨hs, hp⟩ := List.mem_filter.mp hs
    refine hended s (List.mem_filter.mpr ⟨?_, hp⟩)
    refine List.mem_map.mpr ⟨s, hs, if_neg ?_⟩
    rw [beq_iff_eq]
    exact fun he => hne (he.trans hid.symm)
  · intro hended
    refine ⟨List.ne_nil_of_mem (a := completed step) (List.mem_filter.mpr ⟨?_, ?_⟩), ?_⟩
    · exact List.mem_map.mpr ⟨step, hmem, if_pos (beq_iff_eq.mpr hid)⟩
    · simpa [completed] using hlive
    · intro s hs
      obtain ⟨hs, hp⟩ := List.mem_filter.mp hs
      rcases updateWhere_cases hs with ⟨s₀, -, -, rfl⟩ | ⟨hs, hother⟩
      · rfl
      · refine hended s (List.mem_filter.mpr ⟨hs, hp⟩) fun he => ?_
        exact beq_eq_false_iff_ne.mp hother (he.trans hid)

theorem mapError_eq_ok {ε ε' α : Type} {x : Except ε α} {f : ε → ε'} {a : α} :
    x.mapError f = .ok a ↔ x = .ok a := by
  cases x with
  | error e => simp [Except.mapError]
  | ok b => simp [Except.mapError]

theorem finalize_of_completes (h : Completes s.steps p newRecordId step closing)
    (hcascaded : cascaded p s.steps step closing newRecordId = .ok db) :
    s.finalize p now newRecordId =
      .ok { s with steps := maybeEvaluateTaskReady db step.taskId now } := by
  rw [Store.finalize, finalizePendingStepCompletion_of_completes h, completeDeferred_eq, hcascaded]
  rfl

/-- The transition on the tables that take the completion. -/
theorem transition_of_completes (h : Completes s.steps p newRecordId step closing)
    (hcascaded : cascaded p s.steps step closing newRecordId = .ok db) :
    s.transition p limit newRecordId autoPauseRecordId = .ok s' ↔
      PauseReasonAccepted p s.steps step.workingSectionId ∧
        maybeEvaluateTaskReady db step.taskId p.completionRequestedAt = s'.steps ∧
        Upholstery.applyUpholsteryInstallationSideEffect s.upholstery p.taskId
          (s.workingSectionNameSnapshot p.stepId) .completed = .ok s'.upholstery ∧
        s.workingSectionNameSnapshot = s'.workingSectionNameSnapshot := by
  obtain ⟨task, htask⟩ := Option.ne_none_iff_exists'.mp h.ofTask
  have hsteps : ∀ db', transitionStepState s.steps p.ctx p.request limit p.completionRequestedAt
      newRecordId autoPauseRecordId = .ok db' ↔
      PauseReasonAccepted p s.steps step.workingSectionId ∧
        maybeEvaluateTaskReady db step.taskId p.completionRequestedAt = db' := by
    intro db'
    rw [transitionStepState_eq_ok_iff h.found h.working htask h.opened, hcascaded]
    simp [Except.map]
  constructor
  · intro ht
    obtain ⟨steps, hs, ht⟩ := bind_eq_ok.mp ht
    obtain ⟨upholstery, hu, ht⟩ := bind_eq_ok.mp ht
    cases ht
    obtain ⟨haccepted, hready⟩ := (hsteps steps).mp (mapError_eq_ok.mp hs)
    exact ⟨haccepted, hready, mapError_eq_ok.mp hu, rfl⟩
  · rintro ⟨haccepted, hready, hu, hnames⟩
    refine bind_eq_ok.mpr ⟨s'.steps, mapError_eq_ok.mpr ((hsteps _).mpr ⟨haccepted, hready⟩), ?_⟩
    refine bind_eq_ok.mpr ⟨s'.upholstery, mapError_eq_ok.mpr hu, ?_⟩
    rw [hnames]
    rfl

theorem closedAfterEntry_of_completes (h : Completes db p newRecordId step closing)
    (hcascaded : cascaded p db step closing newRecordId = .ok db') {taskId : ClientId} :
    ClosedAfterEntry db (maybeEvaluateTaskReady db' taskId now) := by
  obtain ⟨base, hbase, hrecords, -⟩ := cascaded_eq_ok hcascaded
  obtain ⟨rfl, -⟩ := replaceRecord_eq_ok_iff.mp hbase
  intro r hr hnew exitedAt hexited
  change r ∈ db'.stepStateRecords at hr
  rw [hrecords, Db.replaced] at hr
  rcases List.mem_append.mp hr with hr | hr
  · rcases updateWhere_cases hr with ⟨r₀, hr₀, hid, rfl⟩ | ⟨hr₀, -⟩
    · cases hexited
      exact h.entered r₀ hr₀ (by simpa using hid)
    · exact absurd hr₀ hnew
  · rw [List.mem_singleton.mp hr] at hexited
    cases hexited

/-- The handler matches the transition exactly when, on tables that take the completion, the pause
reason is accepted still, the task is not made ready at a later instant, and there is nothing to
install. -/
theorem handle_finalize_pending_step_completion_matches_iff :
    MatchesTransition s p now limit newRecordId autoPauseRecordId ↔
      ∀ step closing, Completes s.steps p newRecordId step closing →
        PauseReasonAccepted p s.steps step.workingSectionId ∧
          (now = p.completionRequestedAt ∨ ¬ LastOpenStep s.steps step) ∧
          s.upholstery.NothingToInstall p.taskId (s.workingSectionNameSnapshot p.stepId) := by
  constructor
  · intro hmatches step closing h
    obtain ⟨db, hcascaded⟩ := ((completes_iff h.found).mp h).2.2.2
    rcases (hmatches _ (finalize_of_completes h hcascaded)).1 with hsame | hsame
    · obtain ⟨base, hbase, hrecords, -⟩ := cascaded_eq_ok hcascaded
      obtain ⟨rfl, -⟩ := replaceRecord_eq_ok_iff.mp hbase
      have hlength := congrArg (fun s : Store => s.steps.stepStateRecords.length) hsame
      change db.stepStateRecords.length = _ at hlength
      rw [hrecords, Db.replaced, List.length_append, length_updateWhere] at hlength
      simp at hlength
    · obtain ⟨haccepted, hready, hu, -⟩ := (transition_of_completes h hcascaded).mp hsame
      refine ⟨haccepted, ?_, Upholstery.applyUpholsteryInstallationSideEffect_eq_self.mp hu⟩
      rcases maybeEvaluateTaskReady_eq_iff.mp hready with hnow | hnot
      · exact .inl hnow.symm
      · exact .inr fun hlast => hnot ((becomesReady_iff h.found hcascaded).mpr hlast)
  · intro hcondition s' hs'
    obtain ⟨steps, hsteps, hs'⟩ := bind_eq_ok.mp hs'
    cases hs'
    rcases finalizePendingStepCompletion_cases hsteps with
      rfl | ⟨step, closing, hfound, hworking, htask, hclosing, hdone⟩
    · exact ⟨.inl rfl, fun r hr hnew => absurd hr hnew⟩
    · rw [completeDeferred_eq] at hdone
      cases hcascaded : cascaded p s.steps step closing newRecordId with
      | error e =>
        rw [hcascaded] at hdone
        cases hdone
      | ok db =>
        rw [hcascaded] at hdone
        cases hdone
        have h := (completes_iff hfound).mpr ⟨hworking, htask, hclosing, db, hcascaded⟩
        obtain ⟨haccepted, hinstant, hnothing⟩ := hcondition step closing h
        refine ⟨.inr ?_, closedAfterEntry_of_completes h hcascaded⟩
        refine (transition_of_completes h hcascaded).mpr ⟨haccepted, ?_, ?_, rfl⟩
        · refine maybeEvaluateTaskReady_eq_iff.mpr ?_
          rcases hinstant with rfl | hlast
          · exact .inl rfl
          · exact .inr fun hready => hlast ((becomesReady_iff hfound hcascaded).mp hready)
        · exact Upholstery.applyUpholsteryInstallationSideEffect_eq_self.mpr hnothing

/-- A chair in installation: its last step is being worked on, and two metres are in use. -/
def chairStore : Store where
  steps :=
    { tasks := [⟨"tsk_1", .working, none, false⟩]
      taskSteps := [⟨"stp_1", "tsk_1", .working, .ready, "wsec_1", 0, 0, false, false, false, none,
        some "ssr_1", ⟨0, 0, 0⟩, ⟨0, 0, 0⟩, ⟨0, 0, 0⟩, none, false⟩]
      stepStateRecords := [⟨"ssr_1", "stp_1", .working, none, none, none, false, false, 0, none,
        some "usr_1", some "usr_1", false⟩]
      taskStepDependencies := []
      workingSections := [⟨"wsec_1", false, false⟩]
      workingSectionDependencies := []
      pauseReasons := []
      items := [⟨"itm_1", none, none, false⟩]
      taskItems := [⟨"tsk_1", "itm_1", true, false⟩]
      userWorkProfiles := [] }
  upholstery :=
    { upholsteries := [⟨"uph_1", "Wool", none, false⟩]
      upholsteryInventory := [⟨"uin_1", "uph_1", .outOfStock, 0, 0, 2000, 0, 0, 0, 0, 0, none,
        false⟩]
      itemUpholsteries := [⟨"iup_1", "itm_1", some "uph_1", some 2000, .internal, some "iur_1",
        false⟩]
      requirements := [⟨"iur_1", "iup_1", some "uin_1", some 2000, .inventory, .inUse, 0, none,
        none, false⟩]
      orders := []
      items := [⟨"itm_1", false⟩]
      tasks := [⟨"tsk_1", .working, none, false, none⟩]
      taskItems := [⟨"tsk_1", "itm_1", true, false⟩]
      clamped := false }
  workingSectionNameSnapshot := fun _ => some "Upholstery installation"

def chairCompletion : RequestedCompletion where
  stepId := "stp_1"
  taskId := "tsk_1"
  performedByUserId := "usr_1"
  creditedUserId := "usr_1"
  pauseReasonId := none
  description := none
  completionRequestedAt := 3600
  performed := by decide
  credited := by decide
  named := by decide

/-- The handler completes the step of the chair five seconds later and leaves the fabric in use,
where the transition completes the requirement. -/
theorem handler_leaves_fabric_in_use :
    ¬ MatchesTransition chairStore chairCompletion 3605 .head "ssr_2" "ssr_3" ∧
      ((chairStore.finalize chairCompletion 3605 "ssr_2").toOption.map fun s =>
        (s.steps.taskSteps.map (·.state), s.upholstery.requirements.map (·.state))) =
          some ([.completed], [.inUse]) ∧
      ((chairStore.transition chairCompletion .head "ssr_2" "ssr_3").toOption.map fun s =>
        (s.steps.taskSteps.map (·.state), s.upholstery.requirements.map (·.state))) =
          some ([.completed], [.completed]) := by
  have hfinalize : ((chairStore.finalize chairCompletion 3605 "ssr_2").toOption.map fun s =>
      (s.steps.taskSteps.map (·.state), s.upholstery.requirements.map (·.state))) =
        some ([.completed], [.inUse]) := by decide +kernel
  have htransition : ((chairStore.transition chairCompletion .head "ssr_2" "ssr_3").toOption.map
      fun s => (s.steps.taskSteps.map (·.state), s.upholstery.requirements.map (·.state))) =
        some ([.completed], [.completed]) := by decide +kernel
  refine ⟨fun hmatches => ?_, hfinalize, htransition⟩
  cases hs : chairStore.finalize chairCompletion 3605 "ssr_2" with
  | error e =>
    rw [hs] at hfinalize
    cases hfinalize
  | ok s =>
    rw [hs] at hfinalize
    have hstates := Option.some.inj hfinalize
    rcases (hmatches s hs).1 with rfl | hsame
    · exact absurd (congrArg Prod.fst hstates) (by decide)
    · rw [hsame] at htransition
      exact absurd (hstates.symm.trans (Option.some.inj htransition)) (by decide)

end BeyoManager.Completion
