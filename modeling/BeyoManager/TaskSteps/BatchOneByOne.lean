import BeyoManager.TaskSteps.StepRuns
import BeyoManager.TaskSteps.TaskProgress

/-! # A batch is its transitions one after the other

A batch validates all its items on the tables as they are before the first write, and loads
the steps and the records once. The single command validates on what it finds. Both write
the same, as no item of a batch changes what the later items read.
-/

namespace BeyoManager.TaskSteps

open Relational Transition

variable {db db₀ db' : Db} {now : Instant} {ctx : ServiceContext} {limit : LimitOne Row}
  {request : BatchTransitionStepStateRequest} {newState : TaskStepState}
  {item : BatchTransitionItem} {step : TaskStep} {record : StepStateRecord}

def BatchTransitionStepStateRequest.single (request : BatchTransitionStepStateRequest)
    (item : BatchTransitionItem) : TransitionStepStateRequest where
  stepId := item.stepId
  taskId := item.taskId
  newState := request.newState
  creditedUserId := none
  pauseReasonId := request.pauseReasonId
  description := request.description
  markClosingRecordInaccurate := item.markClosingRecordInaccurate

/-- The items of a batch as single transitions, in their order. -/
def transitionOneByOne (db : Db) (ctx : ServiceContext) (request : BatchTransitionStepStateRequest)
    (limit : LimitOne Row) (now : Instant) (newRecordId autoPauseRecordId : ClientId → ClientId)
    (items : List BatchTransitionItem) : Except CommandError Db :=
  items.foldlM (fun db item => transitionStepState db ctx (request.single item) limit now
    (newRecordId item.stepId) (autoPauseRecordId item.stepId)) db

/-- The steps that the items name, where they exist, may be worked on in a batch. -/
def BatchCapable (db : Db) (items : List BatchTransitionItem) : Prop :=
  ∀ item ∈ items, ∀ step, db.fetchTaskStep item.stepId = some step →
    step.allowsBatchWorking = true

section Checks

/-- An item passes the checks with this step and this open record. -/
structure Admits (db : Db) (newState : TaskStepState) (item : BatchTransitionItem)
    (step : TaskStep) (record : StepStateRecord) : Prop where
  fetched : db.fetchTaskStep item.stepId = some step
  taskId : step.taskId = item.taskId
  batch : step.allowsBatchWorking = true
  task : db.fetchTask step.taskId ≠ none
  live : step.state.isTerminal = false
  allowed : newState ∈ allowedTransitions step.state
  opened : db.openRecord item.stepId = some record

/-- The pause reason of a request may be used for the performer in these sections. -/
def ReasonAdmits (db : Db) (ctx : ServiceContext) (request : BatchTransitionStepStateRequest)
    (sectionIds : List ClientId) : Prop :=
  ∃ reason, fetchPauseReason db request.pauseReasonId request.description = .ok reason ∧
    ∀ r ∈ reason, isPauseReasonEligible r [ctx.userId] sectionIds = true

theorem batchItemError_eq_none_iff :
    batchItemError db newState item = none ↔
      ∃ step record, Admits db newState item step record := by
  constructor
  · intro h
    rw [batchItemError] at h
    split at h
    · cases h
    · rename_i step hstep
      split_ifs at h with htask hbatch hfetch hterm hallowed hopen
      obtain ⟨record, hrecord⟩ := Option.ne_none_iff_exists'.mp hopen
      exact ⟨step, record, hstep, not_not.mp htask, hbatch, hfetch, by simpa using hterm,
        hallowed, hrecord⟩
  · rintro ⟨step, record, h⟩
    have hopen : db.openRecord item.stepId ≠ none := by
      rw [h.opened]
      exact Option.some_ne_none record
    rw [batchItemError, h.fetched]
    dsimp only
    rw [if_neg (not_not.mpr h.taskId), if_neg (not_not.mpr h.batch), if_neg h.task,
      if_neg (by simp [h.live]), if_neg (not_not.mpr h.allowed), if_neg hopen]

/-- A reason may be used in several sections when it may be used in each. -/
theorem reasonAdmits_iff {sectionIds : List ClientId} (hne : sectionIds ≠ []) :
    ReasonAdmits db ctx request sectionIds ↔
      ∀ id ∈ sectionIds, ReasonAdmits db ctx request [id] := by
  have heligible : ∀ r : PauseReason, isPauseReasonEligible r [ctx.userId] sectionIds = true ↔
      ∀ id ∈ sectionIds, isPauseReasonEligible r [ctx.userId] [id] = true := by
    intro r
    obtain ⟨first, rest, rfl⟩ := List.exists_cons_of_ne_nil hne
    simp only [isPauseReasonEligible, Bool.and_eq_true, Bool.or_eq_true, List.all_eq_true,
      List.mem_singleton, forall_eq]
    constructor
    · rintro ⟨husers, hsections⟩ id hid
      exact ⟨husers, hsections.imp_right fun h => h id hid⟩
    · intro h
      refine ⟨(h first List.mem_cons_self).1, ?_⟩
      by_cases hempty : r.linkedWorkingSectionIds.isEmpty = true
      · exact .inl hempty
      · exact .inr fun id hid => (h id hid).2.resolve_left hempty
  constructor
  · rintro ⟨reason, hfetch, h⟩ id hid
    exact ⟨reason, hfetch, fun r hr => (heligible r).mp (h r hr) id hid⟩
  · intro h
    obtain ⟨first, rest, rfl⟩ := List.exists_cons_of_ne_nil hne
    obtain ⟨reason, hfetch, -⟩ := h first List.mem_cons_self
    refine ⟨reason, hfetch, fun r hr => (heligible r).mpr fun id hid => ?_⟩
    obtain ⟨reason', hfetch', helig⟩ := h id hid
    obtain rfl := Except.ok.inj (hfetch.symm.trans hfetch')
    exact helig r hr

theorem fetchStepOfTask_of_fetchTaskStep (h : db.fetchTaskStep item.stepId = some step)
    (htask : step.taskId = item.taskId) :
    db.fetchStepOfTask item.taskId item.stepId = some step := by
  obtain ⟨hp, before, after, hsteps, hbefore⟩ := List.find?_eq_some_iff_append.mp h
  refine List.find?_eq_some_iff_append.mpr ⟨?_, before, after, hsteps, fun s hs => ?_⟩
  · simp only [Bool.and_eq_true, beq_iff_eq] at hp ⊢
    exact ⟨⟨hp.1, htask⟩, hp.2⟩
  · have hnot := hbefore s hs
    simp only [Bool.not_eq_true', Bool.and_eq_false_iff] at hnot ⊢
    exact hnot.imp_left .inl

theorem fetchTaskStep_of_fetchStepOfTask (inv : ChainInv db)
    (h : db.fetchStepOfTask item.taskId item.stepId = some step) :
    db.fetchTaskStep item.stepId = some step := by
  obtain ⟨hs, hid, -, hd⟩ := fetchStepOfTask_eq_some h
  have hsome : (db.fetchTaskStep item.stepId).isSome := by
    rw [Db.fetchTaskStep, List.find?_isSome]
    exact ⟨step, hs, by simp [hid, hd]⟩
  obtain ⟨s, hfetch⟩ := Option.isSome_iff_exists.mp hsome
  obtain ⟨hs', hid', -⟩ := fetchTaskStep_eq_some hfetch
  obtain rfl := inv.keyedSteps.inj hs' hs (hid'.trans hid.symm)
  exact hfetch

end Checks

section Single

variable {newRecordId autoPauseRecordId : ClientId}

/-- A single transition of a step that may be worked on in a batch: it passes the checks, and
nothing is paused for it. -/
theorem transitionStepState_single_iff (inv : ChainInv db)
    (hcapable : ∀ step, db.fetchTaskStep item.stepId = some step →
      step.allowsBatchWorking = true) :
    transitionStepState db ctx (request.single item) limit now newRecordId autoPauseRecordId =
        .ok db' ↔
      ∃ step record, Admits db request.newState item step record ∧
        ReasonAdmits db ctx request [step.workingSectionId] ∧
        closeAndOpen db step record (request.transition ctx item newRecordId autoPauseRecordId)
          now = .ok db' := by
  constructor
  · intro h
    obtain ⟨step, hstep, h⟩ := bind_eq_ok.mp h
    obtain ⟨hterm, h⟩ := throwIf_bind_eq_ok.mp h
    obtain ⟨hallowed, h⟩ := throwIf_bind_eq_ok.mp h
    obtain ⟨task, htask, h⟩ := bind_eq_ok.mp h
    obtain ⟨reason, hreason, h⟩ := bind_eq_ok.mp h
    have hstep := getOr_eq_ok.mp hstep
    have hfetch := fetchTaskStep_of_fetchStepOfTask inv hstep
    have hid := (fetchTaskStep_eq_some hfetch).2.1
    have hrest : (∀ r ∈ reason, isPauseReasonEligible r [ctx.userId] [step.workingSectionId] =
        true) ∧ (do
          let db ← autoPause db limit step
            (request.transition ctx item newRecordId autoPauseRecordId) now
          let closingRecord ← getOr (.conflict "No open state record found for this step.")
            (db.openRecord step.clientId)
          closeAndOpen db step closingRecord
            (request.transition ctx item newRecordId autoPauseRecordId) now) = .ok db' := by
      cases reason with
      | none => exact ⟨nofun, h⟩
      | some reason =>
        obtain ⟨u, helig, h⟩ := bind_eq_ok.mp h
        refine ⟨fun r hr => ?_, h⟩
        obtain rfl := Option.mem_some_iff.mp hr
        exact not_not.mp (throwIf_eq_ok.mp helig)
    obtain ⟨helig, h⟩ := hrest
    rw [autoPause_of_batch (hcapable step hfetch)] at h
    change (getOr _ (db.openRecord step.clientId) >>= _) = _ at h
    obtain ⟨record, hrecord, h⟩ := bind_eq_ok.mp h
    refine ⟨step, record, ⟨hfetch, (fetchStepOfTask_eq_some hstep).2.2.1, hcapable step hfetch, ?_,
      by simpa using hterm, not_not.mp hallowed, ?_⟩, ⟨reason, hreason, helig⟩, h⟩
    · rw [getOr_eq_ok.mp htask]
      exact Option.some_ne_none task
    · rw [← hid]
      exact getOr_eq_ok.mp hrecord
  · rintro ⟨step, record, hadmits, ⟨reason, hreason, helig⟩, h⟩
    obtain ⟨task, htask⟩ := Option.ne_none_iff_exists'.mp hadmits.task
    have hid := (fetchTaskStep_eq_some hadmits.fetched).2.1
    have hrest : (do
        let db ← autoPause db limit step
          (request.transition ctx item newRecordId autoPauseRecordId) now
        let closingRecord ← getOr (.conflict "No open state record found for this step.")
          (db.openRecord step.clientId)
        closeAndOpen db step closingRecord
          (request.transition ctx item newRecordId autoPauseRecordId) now) = .ok db' := by
      rw [autoPause_of_batch hadmits.batch]
      refine bind_eq_ok.mpr ⟨db, rfl, bind_eq_ok.mpr ⟨record, getOr_eq_ok.mpr ?_, h⟩⟩
      rw [hid, hadmits.opened]
    refine bind_eq_ok.mpr ⟨step, getOr_eq_ok.mpr
      (fetchStepOfTask_of_fetchTaskStep hadmits.fetched hadmits.taskId), ?_⟩
    refine throwIf_bind_eq_ok.mpr ⟨by simp [hadmits.live], ?_⟩
    refine throwIf_bind_eq_ok.mpr ⟨not_not.mpr hadmits.allowed, ?_⟩
    refine bind_eq_ok.mpr ⟨task, getOr_eq_ok.mpr htask, ?_⟩
    refine bind_eq_ok.mpr ⟨reason, hreason, ?_⟩
    cases reason with
    | none => exact hrest
    | some reason =>
      refine bind_eq_ok.mpr ⟨(), throwIf_eq_ok.mpr (not_not.mpr (helig reason rfl)), hrest⟩

end Single

section Alike

/-- What the checks of an item read of a step is the same in the two tables. -/
structure Alike (stepId : ClientId) (db db' : Db) : Prop where
  reasons : db'.pauseReasons = db.pauseReasons
  tasks : ∀ taskId, db'.fetchTask taskId = none ↔ db.fetchTask taskId = none
  steps : (db'.fetchTaskStep stepId).map TaskStep.core = (db.fetchTaskStep stepId).map TaskStep.core
  records : db'.openRecord stepId = db.openRecord stepId

namespace Alike

variable {stepId : ClientId} {db'' : Db}

theorem refl (stepId : ClientId) (db : Db) : Alike stepId db db := ⟨rfl, fun _ => .rfl, rfl, rfl⟩

theorem symm (h : Alike stepId db db') : Alike stepId db' db :=
  ⟨h.reasons.symm, fun taskId => (h.tasks taskId).symm, h.steps.symm, h.records.symm⟩

theorem trans (h : Alike stepId db db') (h' : Alike stepId db' db'') : Alike stepId db db'' :=
  ⟨h'.reasons.trans h.reasons, fun taskId => (h'.tasks taskId).trans (h.tasks taskId),
    h'.steps.trans h.steps, h'.records.trans h.records⟩

theorem admits (h : Alike item.stepId db db') (hadmits : Admits db newState item step record) :
    ∃ step', step'.core = step.core ∧ Admits db' newState item step' record := by
  have hsteps := h.steps
  rw [hadmits.fetched, Option.map_some] at hsteps
  obtain ⟨step', hstep, hcore⟩ := Option.map_eq_some_iff.mp hsteps
  obtain ⟨-, htask, hstate, -, -, hbatch, -⟩ := TaskStep.core_eq hcore
  refine ⟨step', hcore, hstep, htask.trans hadmits.taskId, hbatch.trans hadmits.batch, ?_, ?_, ?_,
    h.records.trans hadmits.opened⟩
  · rw [htask, Ne, h.tasks]
    exact hadmits.task
  · rw [hstate]
    exact hadmits.live
  · rw [hstate]
    exact hadmits.allowed

theorem reasonAdmits (h : Alike stepId db db') {sectionIds : List ClientId}
    (hreason : ReasonAdmits db ctx request sectionIds) :
    ReasonAdmits db' ctx request sectionIds := by
  obtain ⟨reason, hfetch, helig⟩ := hreason
  refine ⟨reason, ?_, helig⟩
  rw [← hfetch]
  unfold fetchPauseReason
  rw [h.reasons]

end Alike

theorem closeAndOpen_congr {step' : TaskStep} {t : StepTransition} (h : step'.core = step.core) :
    closeAndOpen db step' record t now = closeAndOpen db step record t now := by
  obtain ⟨hid, htask, -⟩ := TaskStep.core_eq h
  simp only [closeAndOpen, transitionSideEffects, hid, htask]

theorem find?_updateWhere_of_not {α : Type} {p q : α → Bool} {f : α → α} {t : List α}
    (h : ∀ x ∈ t, p x = true → q x = false ∧ q (f x) = false) :
    (updateWhere p f t).find? q = t.find? q := by
  rw [← List.head?_filter, ← List.head?_filter, filter_updateWhere, updateWhere_of_forall_not]
  · intro x hx
    obtain ⟨hx, hq⟩ := List.mem_filter.mp hx
    by_contra hp
    rw [(h x hx (by simpa using hp)).1] at hq
    cases hq
  · intro x hx hp
    rw [(h x hx hp).1, (h x hx hp).2]

theorem Task.afterMove_isDeleted {t : Task} {progress : List StepProgress} :
    (t.afterMove newState progress now).isDeleted = t.isDeleted := by
  simp only [Task.afterMove, Task.advance, Task.evaluate]
  split_ifs <;> rfl

/-- The transition of a step changes nothing that the checks of another step read. -/
theorem closeAndOpen_alike (inv : ChainInv db) (hadmits : Admits db newState item step record)
    {t : StepTransition} (h : closeAndOpen db step record t now = .ok db') {stepId : ClientId}
    (hne : stepId ≠ item.stepId) : Alike stepId db db' := by
  obtain ⟨-, hid, -⟩ := fetchTaskStep_eq_some hadmits.fetched
  obtain ⟨hr, hrs, -⟩ := openRecord_eq_some hadmits.opened
  obtain ⟨-, -, heffects⟩ := closeAndOpen_eq_ok h
  have hframe : StepFrame TaskStep.core (db.replaced record.clientId
      (t.newRecord step.clientId now) now (t.flagsClosing record)
        (t.flagsClosing record && t.newState == .completed)) db' :=
    (settleClosedStepTime_frame _ _ _ _ _).core_of_untimed.trans
      (transitionSideEffects_frame heffects).core_of_uncounted
  constructor
  · rw [hframe.rest]
    rfl
  · intro taskId
    have hkey : ∀ x : Task, ((if x.clientId == step.taskId then
        x.afterMove t.newState (db'.progress step.taskId) now else x).clientId == taskId &&
          !(if x.clientId == step.taskId then
            x.afterMove t.newState (db'.progress step.taskId) now else x).isDeleted) =
        (x.clientId == taskId && !x.isDeleted) := by
      intro x
      split
      · rw [Task.afterMove_clientId, Task.afterMove_isDeleted]
      · rfl
    rw [Db.fetchTask, Db.fetchTask, (closeAndOpen_moved h).tasks, List.find?_eq_none,
      List.find?_eq_none]
    simp only [updateWhere, List.forall_mem_map, hkey]
  · have hfind : ∀ l : List TaskStep,
        (l.find? fun s => s.clientId == stepId && !s.isDeleted).map TaskStep.core =
          (l.map TaskStep.core).find? fun s => s.clientId == stepId && !s.isDeleted := by
      intro l
      rw [List.find?_map]
      rfl
    rw [Db.fetchTaskStep, Db.fetchTaskStep, hfind, hframe.steps, ← hfind]
    refine congrArg (Option.map TaskStep.core) (find?_updateWhere_of_not fun s _ hs => ?_)
    have hother : (s.clientId == stepId) = false := by
      rw [beq_iff_eq.mp hs]
      exact beq_eq_false_iff_ne.mpr fun he => hne (he.symm.trans hid)
    simp [hother, TaskStep.flagged]
  · have hother : (item.stepId == stepId) = false := beq_eq_false_iff_ne.mpr (Ne.symm hne)
    rw [Db.openRecord, Db.openRecord, hframe.stepStateRecords, Db.replaced, List.find?_append,
      find?_updateWhere_of_not]
    · simp [StepTransition.newRecord, StepStateRecord.flagged, hid, hother]
    · intro r hr' hid'
      obtain rfl := inv.keyedRecords.inj hr' hr (beq_iff_eq.mp hid')
      simp [StepStateRecord.flagged, hrs, hother]

end Alike

section Loop

variable {newRecordId autoPauseRecordId : ClientId → ClientId} {items : List BatchTransitionItem}

theorem applyStepTransition_eq {t : StepTransition} (hbatch : step.allowsBatchWorking = true) :
    applyStepTransition db limit step record t now = closeAndOpen db step record t now := by
  rw [applyStepTransition, autoPause_of_batch hbatch]
  rfl

theorem loadBatch_cons (hadmits : Admits db newState item step record) :
    loadBatch db (item :: items) = (item, step, record) :: loadBatch db items := by
  rw [loadBatch, List.filterMap_cons, hadmits.fetched, hadmits.opened]
  rfl

theorem mem_loadBatch_of_admits (hadmits : Admits db newState item step record)
    (hitem : item ∈ items) : (item, step, record) ∈ loadBatch db items := by
  refine List.mem_filterMap.mpr ⟨item, hitem, ?_⟩
  rw [hadmits.fetched, hadmits.opened]
  rfl

theorem workingSectionId_of_core {step' : TaskStep} (h : step'.core = step.core) :
    step'.workingSectionId = step.workingSectionId := (TaskStep.core_eq h).2.2.2.1

/-- The induction on the items: they pass the checks where they are reached exactly when they
pass them on the tables before the first, and write the same with what was loaded there. -/
theorem transitionOneByOne_iff (inv : ChainInv db)
    (halike : ∀ item ∈ items, Alike item.stepId db₀ db)
    (hdistinct : (items.map BatchTransitionItem.stepId).Nodup)
    (hcapable : BatchCapable db₀ items) :
    transitionOneByOne db ctx request limit now newRecordId autoPauseRecordId items = .ok db' ↔
      (∀ item ∈ items, ∃ step record, Admits db₀ request.newState item step record ∧
        ReasonAdmits db₀ ctx request [step.workingSectionId]) ∧
      (loadBatch db₀ items).foldlM (fun db x => applyStepTransition db limit x.2.1 x.2.2
        (request.transition ctx x.1 (newRecordId x.1.stepId) (autoPauseRecordId x.1.stepId)) now)
        db = .ok db' := by
  induction items generalizing db with
  | nil => simp [transitionOneByOne, loadBatch]
  | cons item items ih =>
    obtain ⟨hfresh, hdistinct⟩ := List.nodup_cons.mp hdistinct
    have hitem := halike item List.mem_cons_self
    have hbatch : ∀ step, db.fetchTaskStep item.stepId = some step →
        step.allowsBatchWorking = true := by
      intro step hstep
      have hsteps := hitem.steps
      rw [hstep, Option.map_some] at hsteps
      obtain ⟨step₀, hstep₀, hcore⟩ := Option.map_eq_some_iff.mp hsteps.symm
      exact (TaskStep.core_eq hcore).2.2.2.2.2.1.symm.trans
        (hcapable item List.mem_cons_self step₀ hstep₀)
    -- the items after this one are as they were before it
    have hnext : ∀ {step record t db₁}, Admits db request.newState item step record →
        closeAndOpen db step record t now = .ok db₁ →
          ChainInv db₁ ∧ ∀ later ∈ items, Alike later.stepId db₀ db₁ := by
      intro step record t db₁ hadmits h
      obtain ⟨hs, hid, hd⟩ := fetchTaskStep_eq_some hadmits.fetched
      obtain ⟨hr, hrs, ho⟩ := openRecord_eq_some hadmits.opened
      refine ⟨(closeAndOpen_keeps inv hs rfl hd hadmits.live hr (hrs.trans hid.symm) ho h).1,
        fun later hlater => (halike later (List.mem_cons_of_mem item hlater)).trans
          (closeAndOpen_alike inv hadmits h fun he => hfresh ?_)⟩
      exact List.mem_map.mpr ⟨later, hlater, he⟩
    have hcapable : BatchCapable db₀ items := fun later hlater =>
      hcapable later (List.mem_cons_of_mem item hlater)
    rw [transitionOneByOne, List.foldlM_cons, List.forall_mem_cons]
    constructor
    · intro h
      obtain ⟨db₁, h₁, hrest⟩ := bind_eq_ok.mp h
      obtain ⟨step, record, hadmits, hreason, h₁⟩ :=
        (transitionStepState_single_iff inv hbatch).mp h₁
      obtain ⟨inv₁, halike₁⟩ := hnext hadmits h₁
      obtain ⟨hitems, hfold⟩ := (ih inv₁ halike₁ hdistinct hcapable).mp hrest
      obtain ⟨step₀, hcore, hadmits₀⟩ := hitem.symm.admits hadmits
      refine ⟨⟨⟨step₀, record, hadmits₀, ?_⟩, hitems⟩, ?_⟩
      · rw [workingSectionId_of_core hcore]
        exact hitem.symm.reasonAdmits hreason
      · rw [loadBatch_cons hadmits₀, List.foldlM_cons]
        refine bind_eq_ok.mpr ⟨db₁, ?_, hfold⟩
        rw [applyStepTransition_eq hadmits₀.batch, closeAndOpen_congr hcore]
        exact h₁
    · rintro ⟨⟨⟨step₀, record, hadmits₀, hreason₀⟩, hitems⟩, hfold⟩
      rw [loadBatch_cons hadmits₀, List.foldlM_cons] at hfold
      obtain ⟨db₁, h₁, hfold⟩ := bind_eq_ok.mp hfold
      rw [applyStepTransition_eq hadmits₀.batch] at h₁
      obtain ⟨step, hcore, hadmits⟩ := hitem.admits hadmits₀
      rw [← closeAndOpen_congr hcore] at h₁
      obtain ⟨inv₁, halike₁⟩ := hnext hadmits h₁
      refine bind_eq_ok.mpr ⟨db₁, (transitionStepState_single_iff inv hbatch).mpr
        ⟨step, record, hadmits, ?_, h₁⟩, (ih inv₁ halike₁ hdistinct hcapable).mpr ⟨hitems, hfold⟩⟩
      rw [workingSectionId_of_core hcore]
      exact hitem.reasonAdmits hreason₀

/-- A batch that succeeds: no item has an error, the reason may be used, and each is applied. -/
theorem transitionStepStateBatch_eq_ok_iff :
    transitionStepStateBatch db ctx request limit now newRecordId autoPauseRecordId = .ok db' ↔
      (∀ item ∈ request.items, batchItemError db request.newState item = none) ∧
      ReasonAdmits db ctx request
        ((loadBatch db request.items).map fun x => x.2.1.workingSectionId) ∧
      (loadBatch db request.items).foldlM (fun db x => applyStepTransition db limit x.2.1 x.2.2
        (request.transition ctx x.1 (newRecordId x.1.stepId) (autoPauseRecordId x.1.stepId)) now)
        db = .ok db' := by
  constructor
  · intro h
    obtain ⟨herrors, hfold⟩ := transitionStepStateBatch_eq_ok h
    refine ⟨herrors, ?_, hfold⟩
    obtain ⟨reason, hreason, h⟩ := bind_eq_ok.mp h
    obtain ⟨-, h⟩ := throwIf_bind_eq_ok.mp h
    refine ⟨reason, hreason, fun r hr => ?_⟩
    obtain rfl := Option.mem_def.mp hr
    obtain ⟨u, helig, -⟩ := bind_eq_ok.mp h
    exact not_not.mp (throwIf_eq_ok.mp helig)
  · rintro ⟨herrors, ⟨reason, hreason, helig⟩, hfold⟩
    refine bind_eq_ok.mpr ⟨reason, hreason, throwIf_bind_eq_ok.mpr ⟨not_not.mpr ?_, ?_⟩⟩
    · rw [List.filterMap_eq_nil_iff]
      intro item hitem
      rw [herrors item hitem, Option.map_none]
    · cases reason with
      | none => exact hfold
      | some reason =>
        exact bind_eq_ok.mpr ⟨(), throwIf_eq_ok.mpr (not_not.mpr (helig reason rfl)), hfold⟩

/-- On tables that keep the logs, a batch succeeds exactly when its steps may be worked on in a
batch and the single transitions succeed in their order, and the tables are the same then. -/
theorem transitionStepStateBatch_iff_oneByOne (inv : ChainInv db) :
    transitionStepStateBatch db ctx request limit now newRecordId autoPauseRecordId = .ok db' ↔
      BatchCapable db request.items ∧
      transitionOneByOne db ctx request limit now newRecordId autoPauseRecordId request.items =
        .ok db' := by
  have hiff : BatchCapable db request.items → (transitionOneByOne db ctx request limit now
      newRecordId autoPauseRecordId request.items = .ok db' ↔ _) := fun hcapable =>
    transitionOneByOne_iff inv (fun item _ => Alike.refl item.stepId db) request.distinct hcapable
  rw [transitionStepStateBatch_eq_ok_iff]
  constructor
  · rintro ⟨herrors, hreason, hfold⟩
    have hadmits : ∀ item ∈ request.items, ∃ step record,
        Admits db request.newState item step record := fun item hitem =>
      batchItemError_eq_none_iff.mp (herrors item hitem)
    have hcapable : BatchCapable db request.items := by
      intro item hitem step hstep
      obtain ⟨step', record, h⟩ := hadmits item hitem
      obtain rfl := Option.some.inj (hstep.symm.trans h.fetched)
      exact h.batch
    refine ⟨hcapable, (hiff hcapable).mpr ⟨fun item hitem => ?_, hfold⟩⟩
    obtain ⟨step, record, h⟩ := hadmits item hitem
    have hmem : step.workingSectionId ∈
        (loadBatch db request.items).map fun x => x.2.1.workingSectionId :=
      List.mem_map.mpr ⟨_, mem_loadBatch_of_admits h hitem, rfl⟩
    exact ⟨step, record, h, (reasonAdmits_iff (List.ne_nil_of_mem hmem)).mp hreason _ hmem⟩
  · rintro ⟨hcapable, h⟩
    obtain ⟨hitems, hfold⟩ := (hiff hcapable).mp h
    refine ⟨fun item hitem => ?_, ?_, hfold⟩
    · obtain ⟨step, record, hadmits, -⟩ := hitems item hitem
      exact batchItemError_eq_none_iff.mpr ⟨step, record, hadmits⟩
    · obtain ⟨first, hfirst⟩ := List.exists_mem_of_ne_nil _ request.nonempty
      obtain ⟨step, record, hadmits, -⟩ := hitems first hfirst
      have hne : (loadBatch db request.items).map (fun x => x.2.1.workingSectionId) ≠ [] :=
        List.ne_nil_of_mem (List.mem_map.mpr ⟨_, mem_loadBatch_of_admits hadmits hfirst, rfl⟩)
      refine (reasonAdmits_iff hne).mpr fun id hid => ?_
      obtain ⟨x, hx, rfl⟩ := List.mem_map.mp hid
      obtain ⟨hitem, hstep, -⟩ := mem_loadBatch hx
      obtain ⟨step, record, hadmits, hreason⟩ := hitems x.1 hitem
      obtain rfl := Option.some.inj (hstep.symm.trans hadmits.fetched)
      exact hreason

end Loop

/-- After every run of commands, a batch does what its single transitions do in their order, and
is accepted exactly when these are and its steps may be worked on in a batch. -/
theorem batch_eq_oneByOne (tables : Db) (clock : Instant) (commands : List Command)
    (ctx : ServiceContext) (request : BatchTransitionStepStateRequest) (limit : LimitOne Row)
    (now : Instant) (newRecordId autoPauseRecordId : ClientId → ClientId) (db' : Db) :
    transitionStepStateBatch (run ⟨clock, tables.withoutSteps⟩ commands).db ctx request limit now
        newRecordId autoPauseRecordId = .ok db' ↔
      BatchCapable (run ⟨clock, tables.withoutSteps⟩ commands).db request.items ∧
      transitionOneByOne (run ⟨clock, tables.withoutSteps⟩ commands).db ctx request limit now
        newRecordId autoPauseRecordId request.items = .ok db' :=
  transitionStepStateBatch_iff_oneByOne (run_chainInv (chainInv_withoutSteps tables) commands)

end BeyoManager.TaskSteps
