import BeyoManager.TaskSteps.CommandWrites
import BeyoManager.TaskSteps.RecordChain

/-! # Every command keeps the logs

Each command keeps the chain of every step's records, and no command takes a step out of a
terminal state. The loop of a batch keeps the records that were loaded for its later items.
-/

namespace BeyoManager.TaskSteps

open OpenChain Relational Transition

variable {db db' : Db} {now : Instant} {ctx : ServiceContext} {limit : LimitOne Row}

/-- Every step stays. A deleted step stays deleted, and a step in a terminal state keeps its
state or is removed, which skips it. -/
def Kept (db db' : Db) : Prop :=
  ∀ s ∈ db.taskSteps, ∃ s' ∈ db'.taskSteps, s'.clientId = s.clientId ∧
    (s.isDeleted = true → s'.isDeleted = true) ∧
    (s.state.isTerminal = true →
      s'.state = s.state ∨ s'.isDeleted = true ∧ s'.state = .skipped)

namespace Kept

theorem isTerminal {s s' : TaskStep}
    (h : s'.state = s.state ∨ s'.isDeleted = true ∧ s'.state = .skipped)
    (ht : s.state.isTerminal = true) : s'.state.isTerminal = true := by
  rcases h with h | ⟨-, h⟩
  · rw [h]
    exact ht
  · rw [h]
    rfl

theorem refl (db : Db) : Kept db db :=
  fun s hs => ⟨s, hs, rfl, fun h => h, fun _ => .inl rfl⟩

theorem trans {db'' : Db} (h : Kept db db') (h' : Kept db' db'') : Kept db db'' := by
  intro s hs
  obtain ⟨s₁, hs₁, hid₁, hdel₁, hterm₁⟩ := h s hs
  obtain ⟨s₂, hs₂, hid₂, hdel₂, hterm₂⟩ := h' s₁ hs₁
  refine ⟨s₂, hs₂, hid₂.trans hid₁, fun hd => hdel₂ (hdel₁ hd), fun ht => ?_⟩
  rcases hterm₂ (isTerminal (hterm₁ ht) ht) with hsame | hskipped
  · rw [hsame]
    exact (hterm₁ ht).imp_right fun h => ⟨hdel₂ h.1, h.2⟩
  · exact .inr hskipped

theorem of_core (h : db'.taskSteps.map TaskStep.core = db.taskSteps.map TaskStep.core) :
    Kept db db' := by
  intro s hs
  have hmem : s.core ∈ db.taskSteps.map TaskStep.core := List.mem_map_of_mem hs
  rw [← h] at hmem
  obtain ⟨s₁, hs₁, hcore⟩ := List.mem_map.mp hmem
  obtain ⟨hid, -, hstate, -, -, -, -, hdeleted⟩ := TaskStep.core_eq hcore
  exact ⟨s₁, hs₁, hid, fun hd => hdeleted.trans hd, fun _ => .inl hstate⟩

theorem replaced {closingId : ClientId} {record : StepStateRecord} {fc fn : Bool}
    (h : ∀ s ∈ db.taskSteps, s.clientId = record.stepId → s.state.isTerminal = false) :
    Kept db (db.replaced closingId record now fc fn) := by
  intro s hs
  refine ⟨_, mem_updateWhere_of_mem hs, ?_⟩
  by_cases hid : s.clientId = record.stepId
  · simp [hid, h s hs hid, TaskStep.flagged]
  · simp [hid]

theorem flag (db : Db) (recordId stepId : ClientId) :
    Kept db (applyInaccurateTimeFlag db recordId stepId) := by
  rw [applyInaccurateTimeFlag_eq]
  intro s hs
  refine ⟨_, mem_updateWhere_of_mem hs, ?_⟩
  split <;> simp [TaskStep.flagged]

end Kept

section Replaced

variable {closing record : StepStateRecord} {fc fn : Bool}

theorem mem_replaced_of_ne (inv : ChainInv db) (hc : closing ∈ db.stepStateRecords)
    {r : StepStateRecord} (hr : r ∈ db.stepStateRecords) (hne : r.stepId ≠ closing.stepId) :
    r ∈ (db.replaced closing.clientId record now fc fn).stepStateRecords := by
  refine List.mem_append_left _ (mem_updateWhere.mpr ⟨r, hr, if_neg ?_⟩)
  intro hid
  exact hne (congrArg _ (inv.keyedRecords.inj hr hc (by simpa using hid)))

theorem step_mem_replaced_of_ne {closingId : ClientId} {s : TaskStep} (hs : s ∈ db.taskSteps)
    (hne : s.clientId ≠ record.stepId) :
    s ∈ (db.replaced closingId record now fc fn).taskSteps :=
  mem_updateWhere.mpr ⟨s, hs, if_neg (by simpa using hne)⟩

end Replaced

/-- The steps and the records of other steps are still there, up to what a transition does not
read. -/
structure Others (stepId : ClientId) (db db' : Db) : Prop where
  records : ∀ r ∈ db.stepStateRecords, r.stepId ≠ stepId → r ∈ db'.stepStateRecords
  steps : ∀ s ∈ db.taskSteps, s.clientId ≠ stepId → ∃ s₁ ∈ db'.taskSteps, s₁.core = s.core

theorem Others.of_replaced (inv : ChainInv db) {closing record : StepStateRecord} {fc fn : Bool}
    (hc : closing ∈ db.stepStateRecords) (hcs : closing.stepId = record.stepId)
    (h : StepFrame TaskStep.core (db.replaced closing.clientId record now fc fn) db') :
    Others record.stepId db db' := by
  refine ⟨fun r hr hne => ?_, fun s hs hne => ?_⟩
  · rw [h.stepStateRecords]
    exact mem_replaced_of_ne inv hc hr (hcs ▸ hne)
  · exact h.exists_step' (step_mem_replaced_of_ne hs hne)

section Transition

variable {step : TaskStep} {t : StepTransition}

theorem autoPause_keeps (inv : ChainInv db) (h : autoPause db limit step t now = .ok db') :
    ChainInv db' ∧ Kept db db' ∧ ∀ s ∈ db.taskSteps, s.clientId = step.clientId →
      ∃ s₁ ∈ db'.taskSteps, s₁.core = s.core := by
  rcases autoPause_cases h with ⟨rfl, -⟩ | ⟨row, hrow, -, -, -, hle, hfresh, rfl⟩
  · exact ⟨inv, .refl _, fun s hs _ => ⟨s, hs, rfl⟩⟩
  · obtain ⟨hr, -, hw, ho, hother, -⟩ := mem_openUserWorkingRows.mp hrow
    obtain ⟨hs, hsid, hd, -⟩ := step_of_openUserWorkingRows hrow
    have hframe := (settleClosedStepTime_frame (db.replaced row.1.clientId
      (t.autoPauseRecord db step.taskId row.2.clientId now) now false false)
        row.2.clientId .working t.performerId now).core_of_untimed
    have hinv := inv.replaced
      (t.autoPauseRecord db step.taskId row.2.clientId now) false false hs hd
      hr hsid.symm ho (hle row.1 hr rfl) hfresh rfl rfl rfl
    have hothers := Others.of_replaced inv hr hsid.symm hframe
    obtain ⟨closed, hlog⟩ := inv.log_of_open hs hd hr hsid.symm ho
    refine ⟨hinv.frame hframe, .trans (.replaced fun s hs' hid => ?_) (.of_core hframe.steps),
      fun s hs' hid => hothers.steps s hs' fun he => hother (hsid.symm.trans (he.symm.trans hid))⟩
    obtain rfl := inv.keyedSteps.inj hs' hs hid
    rw [← hlog.state, hw]
    rfl

theorem closeAndOpen_keeps (inv : ChainInv db) {s : TaskStep} {closing : StepStateRecord}
    (hs : s ∈ db.taskSteps) (hid : s.clientId = step.clientId) (hd : s.isDeleted = false)
    (hstate : s.state.isTerminal = false) (hc : closing ∈ db.stepStateRecords)
    (hcs : closing.stepId = step.clientId) (ho : closing.exitedAt = none)
    (h : closeAndOpen db step closing t now = .ok db') :
    ChainInv db' ∧ Kept db db' ∧ Others step.clientId db db' := by
  obtain ⟨hle, hfresh, h⟩ := closeAndOpen_eq_ok h
  have hframe : StepFrame TaskStep.core (db.replaced closing.clientId
      (t.newRecord step.clientId now) now (t.flagsClosing closing)
        (t.flagsClosing closing && t.newState == .completed)) db' :=
    (settleClosedStepTime_frame _ _ _ _ _).core_of_untimed.trans
      (transitionSideEffects_frame h).core_of_uncounted
  have hinv := inv.replaced (t.newRecord step.clientId now) (t.flagsClosing closing)
    (t.flagsClosing closing && t.newState == .completed) hs hd hc (hcs.trans hid.symm) ho
    (hle closing hc rfl) hfresh hid.symm rfl rfl
  refine ⟨hinv.frame hframe, .trans (.replaced fun s' hs' hid' => ?_) (.of_core hframe.steps),
    .of_replaced inv hc hcs hframe⟩
  obtain rfl := inv.keyedSteps.inj hs' hs (hid'.trans hid.symm)
  exact hstate

theorem transitionStepState_keeps (inv : ChainInv db) {request : TransitionStepStateRequest}
    {newRecordId autoPauseRecordId : ClientId}
    (h : transitionStepState db ctx request limit now newRecordId autoPauseRecordId = .ok db') :
    ChainInv db' ∧ Kept db db' := by
  obtain ⟨step, hstep, hallowed, db₁, closing, hpause, hclosing, h⟩ := transitionStepState_eq_ok h
  obtain ⟨hs, -, -, hd⟩ := fetchStepOfTask_eq_some hstep
  obtain ⟨inv₁, hkept₁, hsame⟩ := autoPause_keeps inv hpause
  obtain ⟨s, hs₁, hcore⟩ := hsame step hs rfl
  obtain ⟨hid, -, hstate, -, -, -, -, hdeleted⟩ := TaskStep.core_eq hcore
  obtain ⟨hc, hcs, ho⟩ := openRecord_eq_some hclosing
  have hterm : s.state.isTerminal = false := by
    rw [hstate]
    by_contra ht
    exact not_mem_allowedTransitions_of_isTerminal (by simpa using ht) hallowed
  obtain ⟨inv₂, hkept₂, -⟩ := closeAndOpen_keeps inv₁ hs₁ hid (hdeleted.trans hd) hterm hc hcs ho h
  exact ⟨inv₂, hkept₁.trans hkept₂⟩

end Transition

section Batch

/-- What a batch has loaded for an item is still what is stored. -/
structure Loaded (db : Db) (x : BatchTransitionItem × TaskStep × StepStateRecord) : Prop where
  step : ∃ s ∈ db.taskSteps, s.core = x.2.1.core
  batch : x.2.1.allowsBatchWorking = true
  live : x.2.1.isDeleted = false
  state : x.2.1.state.isTerminal = false
  record : x.2.2 ∈ db.stepStateRecords
  recordOf : x.2.2.stepId = x.2.1.clientId
  isOpen : x.2.2.exitedAt = none

theorem Loaded.of_others {x : BatchTransitionItem × TaskStep × StepStateRecord} (h : Loaded db x)
    {stepId : ClientId} (hothers : Others stepId db db') (hne : x.2.1.clientId ≠ stepId) :
    Loaded db' x := by
  obtain ⟨s, hs, hcore⟩ := h.step
  obtain ⟨s₁, hs₁, hcore₁⟩ := hothers.steps s hs ((TaskStep.core_eq hcore).1 ▸ hne)
  exact ⟨⟨s₁, hs₁, hcore₁.trans hcore⟩, h.batch, h.live, h.state,
    hothers.records _ h.record (h.recordOf ▸ hne), h.recordOf, h.isOpen⟩

theorem mem_loadBatch {items : List BatchTransitionItem}
    {x : BatchTransitionItem × TaskStep × StepStateRecord} (h : x ∈ loadBatch db items) :
    x.1 ∈ items ∧ db.fetchTaskStep x.1.stepId = some x.2.1 ∧
      db.openRecord x.1.stepId = some x.2.2 := by
  obtain ⟨item, hitem, h⟩ := List.mem_filterMap.mp h
  obtain ⟨step, hstep, h⟩ := Option.bind_eq_some_iff.mp h
  obtain ⟨record, hrecord, rfl⟩ := Option.map_eq_some_iff.mp h
  exact ⟨hitem, hstep, hrecord⟩

theorem nodup_loadBatch {items : List BatchTransitionItem}
    (h : (items.map BatchTransitionItem.stepId).Nodup) :
    ((loadBatch db items).map fun x => x.2.1.clientId).Nodup := by
  have hsub : ∀ l : List BatchTransitionItem,
      ((loadBatch db l).map fun x => x.1.stepId).Sublist (l.map BatchTransitionItem.stepId) := by
    intro l
    induction l with
    | nil => exact .slnil
    | cons item l ih =>
      rw [loadBatch, List.filterMap_cons, ← loadBatch]
      split
      · exact ih.cons _
      · rename_i x hx
        obtain ⟨step, -, hx⟩ := Option.bind_eq_some_iff.mp hx
        obtain ⟨record, -, rfl⟩ := Option.map_eq_some_iff.mp hx
        exact ih.cons_cons _
  have hids : (loadBatch db items).map (fun x => x.2.1.clientId) =
      (loadBatch db items).map fun x => x.1.stepId :=
    List.map_congr_left fun x hx => (fetchTaskStep_eq_some (mem_loadBatch hx).2.1).2.1
  rw [hids]
  exact (hsub items).nodup h

theorem loaded_of_mem {items : List BatchTransitionItem} {newState : TaskStepState}
    (herrors : ∀ item ∈ items, batchItemError db newState item = none)
    {x : BatchTransitionItem × TaskStep × StepStateRecord} (h : x ∈ loadBatch db items) :
    Loaded db x := by
  obtain ⟨hitem, hstep, hrecord⟩ := mem_loadBatch h
  obtain ⟨step, closing, hstep', hbatch, hallowed, -⟩ := batchItemError_eq_none (herrors _ hitem)
  obtain rfl := Option.some.inj (hstep.symm.trans hstep')
  obtain ⟨hs, hid, hd⟩ := fetchTaskStep_eq_some hstep
  obtain ⟨hr, hrs, ho⟩ := openRecord_eq_some hrecord
  refine ⟨⟨_, hs, rfl⟩, hbatch, hd, ?_, hr, hrs.trans hid.symm, ho⟩
  by_contra ht
  exact not_mem_allowedTransitions_of_isTerminal (by simpa using ht) hallowed

theorem applyStepTransition_of_batch {step : TaskStep} {closing : StepStateRecord}
    {t : StepTransition} (hb : step.allowsBatchWorking = true)
    (h : applyStepTransition db limit step closing t now = .ok db') :
    closeAndOpen db step closing t now = .ok db' := by
  obtain ⟨db₁, h₁, h⟩ := bind_eq_ok.mp h
  rw [autoPause_of_batch hb] at h₁
  cases h₁
  exact h

theorem closeAndOpen_loaded (inv : ChainInv db)
    {x : BatchTransitionItem × TaskStep × StepStateRecord} {t : StepTransition}
    (hx : Loaded db x) (h : closeAndOpen db x.2.1 x.2.2 t now = .ok db') :
    ChainInv db' ∧ Kept db db' ∧ Others x.2.1.clientId db db' := by
  obtain ⟨s, hs, hcore⟩ := hx.step
  obtain ⟨hid, -, hstate, -, -, -, -, hdeleted⟩ := TaskStep.core_eq hcore
  exact closeAndOpen_keeps inv hs hid (hdeleted.trans hx.live) (hstate ▸ hx.state) hx.record
    hx.recordOf hx.isOpen h

variable {request : BatchTransitionStepStateRequest}
  {newRecordId autoPauseRecordId : ClientId → ClientId}

/-- Loop rule of a batch: the invariant speaks of the items that are left, and at each item what
was loaded for these is still what is stored. -/
theorem transitionStepStateBatch_loop (inv : ChainInv db)
    (I : List (BatchTransitionItem × TaskStep × StepStateRecord) → Db → Prop)
    (hinit : I (loadBatch db request.items) db)
    (hitem : ∀ x l db₁ db₂, ChainInv db₁ → I (x :: l) db₁ → (∀ y ∈ x :: l, Loaded db₁ y) →
      (∀ y ∈ l, y.2.1.clientId ≠ x.2.1.clientId) →
        closeAndOpen db₁ x.2.1 x.2.2 (request.transition ctx x.1 (newRecordId x.1.stepId)
          (autoPauseRecordId x.1.stepId)) now = .ok db₂ → I l db₂)
    (h : transitionStepStateBatch db ctx request limit now newRecordId autoPauseRecordId =
      .ok db') : I [] db' := by
  obtain ⟨herrors, h⟩ := transitionStepStateBatch_eq_ok h
  have hloop := foldlM_loop (fun l db₁ => (ChainInv db₁ ∧ I l db₁) ∧
    (∀ x ∈ l, Loaded db₁ x) ∧ (l.map fun x => x.2.1.clientId).Nodup) ?_
    ⟨⟨inv, hinit⟩, fun x hx => loaded_of_mem herrors hx, nodup_loadBatch request.distinct⟩ h
  · exact hloop.1.2
  · rintro x l db₁ db₂ ⟨⟨inv₁, hI⟩, hloaded, hnodup⟩ h₁
    obtain ⟨hx, hnodup⟩ := List.nodup_cons.mp hnodup
    have hload := hloaded x List.mem_cons_self
    have hne : ∀ y ∈ l, y.2.1.clientId ≠ x.2.1.clientId := fun y hy he =>
      hx (List.mem_map.mpr ⟨y, hy, he⟩)
    have h₁ := applyStepTransition_of_batch hload.batch h₁
    obtain ⟨inv₂, -, hothers⟩ := closeAndOpen_loaded inv₁ hload h₁
    refine ⟨⟨inv₂, hitem x l db₁ db₂ inv₁ hI hloaded hne h₁⟩, fun y hy => ?_, hnodup⟩
    exact (hloaded y (List.mem_cons_of_mem x hy)).of_others hothers (hne y hy)

theorem transitionStepStateBatch_keeps (inv : ChainInv db)
    (h : transitionStepStateBatch db ctx request limit now newRecordId autoPauseRecordId =
      .ok db') : ChainInv db' ∧ Kept db db' := by
  refine transitionStepStateBatch_loop inv (fun _ db₁ => ChainInv db₁ ∧ Kept db db₁)
    ⟨inv, .refl db⟩ ?_ h
  rintro x l db₁ db₂ inv₁ ⟨-, hkept⟩ hloaded - h₁
  obtain ⟨inv₂, hkept₂, -⟩ := closeAndOpen_loaded inv₁ (hloaded x List.mem_cons_self) h₁
  exact ⟨inv₂, hkept.trans hkept₂⟩

end Batch

end BeyoManager.TaskSteps
