import BeyoManager.TaskSteps.StepRuns

/-! # One active step for each worker

A worker should be credited on at most one open working record outside batch working. Only
the start of a step that is not batch-capable can break this, when the auto-pause does not
find the worker's other record.
-/

namespace BeyoManager.TaskSteps

open Relational Transition

variable {db db' : Db} {now : Instant} {ctx : ServiceContext} {limit : LimitOne Row}
  {userId : ClientId} {r : StepStateRecord}

/-- The open working records of steps outside batch working that a user is credited on. -/
def Db.activeRecords (db : Db) (userId : ClientId) : List StepStateRecord :=
  db.stepStateRecords.filter fun r =>
    r.worker == some userId && r.state == .working && r.isOpen &&
      db.taskSteps.any fun s => s.clientId == r.stepId && !s.allowsBatchWorking

/-- Each worker is credited on at most one such record. -/
def Db.OneActive (db : Db) : Prop :=
  ∀ userId, (db.activeRecords userId).length ≤ 1

def Db.OpenLive (db : Db) : Prop :=
  ∀ r ∈ db.stepStateRecords, r.exitedAt = none → ∀ s ∈ db.taskSteps, s.clientId = r.stepId →
    s.isDeleted = false

/-- The logs are kept, open records belong to steps that are not deleted, and no worker has two
active records. -/
structure ActiveInv (db : Db) : Prop where
  chain : ChainInv db
  openLive : db.OpenLive
  unique : ∀ userId, ∀ r ∈ db.activeRecords userId, ∀ r' ∈ db.activeRecords userId, r = r'

theorem mem_activeRecords : r ∈ db.activeRecords userId ↔
    r ∈ db.stepStateRecords ∧ r.worker = some userId ∧ r.state = .working ∧ r.exitedAt = none ∧
      ∃ s ∈ db.taskSteps, s.clientId = r.stepId ∧ s.allowsBatchWorking = false := by
  simp only [Db.activeRecords, List.mem_filter, Bool.and_eq_true, beq_iff_eq, List.any_eq_true,
    StepStateRecord.isOpen, Option.isNone_iff_eq_none, Bool.not_eq_true', and_assoc]

theorem ActiveInv.oneActive (inv : ActiveInv db) : db.OneActive := by
  intro userId
  have hnodup : (db.activeRecords userId).Nodup := inv.chain.keyedRecords.nodup.filter _
  by_contra hlen
  obtain ⟨a, b, rest, hl⟩ : ∃ a b rest, db.activeRecords userId = a :: b :: rest := by
    match h : db.activeRecords userId with
    | [] => simp [h] at hlen
    | [a] => simp [h] at hlen
    | a :: b :: rest => exact ⟨a, b, rest, rfl⟩
  have hab : a = b := inv.unique userId a (by simp [hl]) b (by simp [hl])
  rw [hl] at hnodup
  exact (List.nodup_cons.mp hnodup).1 (hab ▸ List.mem_cons_self)

def ActiveFrom (db db' : Db) : Prop :=
  ∀ userId, ∀ r' ∈ db'.activeRecords userId, ∃ r ∈ db.activeRecords userId,
    r.clientId = r'.clientId

theorem ActiveInv.of_activeFrom (inv : ActiveInv db) (chain : ChainInv db')
    (openLive : db'.OpenLive) (h : ActiveFrom db db') : ActiveInv db' := by
  refine ⟨chain, openLive, fun userId r hr r' hr' => ?_⟩
  obtain ⟨r₀, hr₀, hid⟩ := h userId r hr
  obtain ⟨r₀', hr₀', hid'⟩ := h userId r' hr'
  obtain rfl := inv.unique userId r₀ hr₀ r₀' hr₀'
  exact chain.keyedRecords.inj (mem_activeRecords.mp hr).1 (mem_activeRecords.mp hr').1
    (hid.symm.trans hid')

section Congr

variable (hrec : db'.stepStateRecords = db.stepStateRecords)
  (hsteps : db'.taskSteps.map TaskStep.core = db.taskSteps.map TaskStep.core)

include hsteps in
theorem exists_core {s : TaskStep} (hs : s ∈ db'.taskSteps) :
    ∃ s₀ ∈ db.taskSteps, s₀.core = s.core := by
  have hmem : s.core ∈ db'.taskSteps.map TaskStep.core := List.mem_map_of_mem hs
  rw [hsteps] at hmem
  exact List.mem_map.mp hmem

include hrec hsteps in
theorem ActiveInv.congr (inv : ActiveInv db) : ActiveInv db' := by
  refine inv.of_activeFrom (inv.chain.congr hrec hsteps) ?_ ?_
  · intro r hr ho s hs hid
    rw [hrec] at hr
    obtain ⟨s₀, hs₀, hcore⟩ := exists_core hsteps hs
    obtain ⟨hid₀, -, -, -, -, -, -, hdeleted⟩ := TaskStep.core_eq hcore
    exact hdeleted.symm.trans (inv.openLive r hr ho s₀ hs₀ (hid₀.trans hid))
  · intro userId r hr
    obtain ⟨hr, hw, hstate, ho, s, hs, hid, hb⟩ := mem_activeRecords.mp hr
    rw [hrec] at hr
    obtain ⟨s₀, hs₀, hcore⟩ := exists_core hsteps hs
    obtain ⟨hid₀, -, -, -, -, hbatch, -, -⟩ := TaskStep.core_eq hcore
    exact ⟨r, mem_activeRecords.mpr ⟨hr, hw, hstate, ho, s₀, hs₀, hid₀.trans hid,
      hbatch.trans hb⟩, rfl⟩

end Congr

section Replaced

variable {closing record : StepStateRecord} {fc fn : Bool}

theorem step_of_replaced {closingId : ClientId} {s : TaskStep}
    (hs : s ∈ (db.replaced closingId record now fc fn).taskSteps) :
    ∃ s₀ ∈ db.taskSteps, s₀.clientId = s.clientId ∧
      s₀.allowsBatchWorking = s.allowsBatchWorking ∧ s₀.isDeleted = s.isDeleted := by
  obtain ⟨s₀, hs₀, rfl⟩ := mem_updateWhere.mp hs
  refine ⟨s₀, hs₀, ?_⟩
  split <;> exact ⟨rfl, rfl, rfl⟩

theorem open_of_replaced {closingId : ClientId}
    (hr : r ∈ (db.replaced closingId record now fc fn).stepStateRecords)
    (ho : r.exitedAt = none) :
    r = record.flagged fn ∨ (r ∈ db.stepStateRecords ∧ r.clientId ≠ closingId) := by
  rcases List.mem_append.mp hr with hr | hr
  · obtain ⟨r₀, hr₀, rfl⟩ := mem_updateWhere.mp hr
    by_cases hid : r₀.clientId = closingId
    · simp [hid, StepStateRecord.flagged] at ho
    · exact .inr (by simpa [hid] using hr₀)
  · exact .inl (List.mem_singleton.mp hr)

theorem openLive_replaced {closingId : ClientId} {s : TaskStep} (inv : ChainInv db)
    (hlive : db.OpenLive) (hs : s ∈ db.taskSteps) (hd : s.isDeleted = false)
    (hid : record.stepId = s.clientId) : (db.replaced closingId record now fc fn).OpenLive := by
  intro r hr ho s' hs' hrs
  obtain ⟨s₀, hs₀, hid₀, -, hdeleted⟩ := step_of_replaced hs'
  rw [← hdeleted]
  rcases open_of_replaced hr ho with rfl | ⟨hr, -⟩
  · obtain rfl := inv.keyedSteps.inj hs hs₀ (hid.symm.trans (hrs.symm.trans hid₀.symm))
    exact hd
  · exact hlive r hr ho s₀ hs₀ (hid₀.trans hrs)

theorem active_of_replaced {closingId : ClientId}
    (hr : r ∈ (db.replaced closingId record now fc fn).activeRecords userId) :
    (r = record.flagged fn ∧ record.worker = some userId ∧ record.state = .working ∧
      ∃ s ∈ db.taskSteps, s.clientId = record.stepId ∧ s.allowsBatchWorking = false) ∨
    (r ∈ db.activeRecords userId ∧ r.clientId ≠ closingId) := by
  obtain ⟨hr, hw, hstate, ho, s, hs, hid, hb⟩ := mem_activeRecords.mp hr
  obtain ⟨s₀, hs₀, hid₀, hbatch, -⟩ := step_of_replaced hs
  rcases open_of_replaced hr ho with rfl | ⟨hr, hne⟩
  · exact .inl ⟨rfl, hw, hstate, s₀, hs₀, hid₀.trans hid, hbatch.trans hb⟩
  · exact .inr ⟨mem_activeRecords.mpr ⟨hr, hw, hstate, ho, s₀, hs₀, hid₀.trans hid,
      hbatch.trans hb⟩, hne⟩

end Replaced

section Transition

variable {step : TaskStep} {t : StepTransition}

/-- The auto-pause leaves what is active except the record that it found. -/
theorem autoPause_active (inv : ActiveInv db) (h : autoPause db limit step t now = .ok db') :
    ActiveInv db' ∧ ∀ userId, ∀ r ∈ db'.activeRecords userId, r ∈ db.activeRecords userId ∧
      (t.newState = .working → step.allowsBatchWorking = false →
        ∀ row, limit.first (db.openUserWorkingRows [t.performerId, t.creditedUserId]
          step.clientId) = some row → row.1 ≠ r) := by
  have hchain := (autoPause_keeps inv.chain h).1
  rcases autoPause_cases h with ⟨rfl, hnone⟩ | ⟨row, hrow, -, -, hfirst, hle, hfresh, rfl⟩
  · refine ⟨inv, fun userId r hr => ⟨hr, fun hw hb row hrow => ?_⟩⟩
    rw [hnone hw hb] at hrow
    cases hrow
  · have hframe := (settleClosedStepTime_frame (db.replaced row.1.clientId
      (t.autoPauseRecord db step.taskId row.2.clientId now) now false false)
        row.2.clientId .working t.performerId now).core_of_untimed
    obtain ⟨hs, hsid, hd, -⟩ := step_of_openUserWorkingRows hrow
    obtain ⟨hr, -, -, ho, -, -⟩ := mem_openUserWorkingRows.mp hrow
    have hactive : ∀ userId, ∀ r ∈ (db.replaced row.1.clientId
        (t.autoPauseRecord db step.taskId row.2.clientId now) now false false).activeRecords userId,
        r ∈ db.activeRecords userId ∧ r.clientId ≠ row.1.clientId := by
      intro userId r hr
      rcases active_of_replaced hr with ⟨-, -, hstate, -⟩ | h
      · cases hstate
      · exact h
    have hinv : ActiveInv (db.replaced row.1.clientId
        (t.autoPauseRecord db step.taskId row.2.clientId now) now false false) :=
      inv.of_activeFrom
        (inv.chain.replaced _ false false hs hd hr hsid.symm ho
          (hle row.1 hr rfl) hfresh rfl rfl rfl)
        (openLive_replaced inv.chain inv.openLive hs hd rfl)
        fun userId r hr => ⟨r, (hactive userId r hr).1, rfl⟩
    refine ⟨hinv.congr hframe.stepStateRecords hframe.steps, fun userId r hr => ?_⟩
    have hback : r ∈ (db.replaced row.1.clientId (t.autoPauseRecord db step.taskId
        row.2.clientId now) now false false).activeRecords userId := by
      obtain ⟨hr, hw, hstate, ho, s, hs, hid, hb⟩ := mem_activeRecords.mp hr
      rw [hframe.stepStateRecords] at hr
      obtain ⟨s₀, hs₀, hcore⟩ := hframe.exists_step hs
      obtain ⟨hid₀, -, -, -, -, hbatch, -, -⟩ := TaskStep.core_eq hcore
      exact mem_activeRecords.mpr ⟨hr, hw, hstate, ho, s₀, hs₀, hid₀.trans hid, hbatch.trans hb⟩
    obtain ⟨hr, hne⟩ := hactive userId r hback
    refine ⟨hr, fun _ _ row' hrow' he => ?_⟩
    rw [hfirst] at hrow'
    cases hrow'
    exact hne (congrArg _ he.symm)

/-- A transition keeps one active step when it starts none outside batch working, or when the
worker that it credits is active on no other step. -/
theorem closeAndOpen_active (inv : ActiveInv db) {s : TaskStep} {closing : StepStateRecord}
    (hs : s ∈ db.taskSteps) (hid : s.clientId = step.clientId) (hd : s.isDeleted = false)
    (hstate : s.state.isTerminal = false) (hc : closing ∈ db.stepStateRecords)
    (hcs : closing.stepId = step.clientId) (ho : closing.exitedAt = none)
    (halone : t.newState = .working → s.allowsBatchWorking = false →
      ∀ r ∈ db.activeRecords t.creditedUserId, r.stepId = step.clientId)
    (h : closeAndOpen db step closing t now = .ok db') : ActiveInv db' := by
  have hchain := (closeAndOpen_keeps inv.chain hs hid hd hstate hc hcs ho h).1
  obtain ⟨hle, hfresh, h⟩ := closeAndOpen_eq_ok h
  have hframe : StepFrame TaskStep.core (db.replaced closing.clientId
      (t.newRecord step.clientId now) now (t.flagsClosing closing)
        (t.flagsClosing closing && t.newState == .completed)) db' :=
    (settleClosedStepTime_frame _ _ _ _ _).core_of_untimed.trans
      (transitionSideEffects_frame h).core_of_uncounted
  have hinv := inv.chain.replaced (t.newRecord step.clientId now) (t.flagsClosing closing)
    (t.flagsClosing closing && t.newState == .completed) hs hd hc (hcs.trans hid.symm) ho
    (hle closing hc rfl) hfresh hid.symm rfl rfl
  refine ActiveInv.congr hframe.stepStateRecords hframe.steps ⟨hinv,
    openLive_replaced inv.chain inv.openLive hs hd hid.symm, fun userId r hr r' hr' => ?_⟩
  -- a new active record leaves its worker no other one
  have hnew : ∀ r ∈ db.activeRecords userId, r.clientId ≠ closing.clientId →
      (t.newRecord step.clientId now).worker = some userId → t.newState = .working →
      (∃ s ∈ db.taskSteps, s.clientId = step.clientId ∧ s.allowsBatchWorking = false) → False := by
    rintro r hr hne hw hstart ⟨s', hs', hid', hb⟩
    obtain rfl := inv.chain.keyedSteps.inj hs' hs (hid'.trans hid.symm)
    obtain rfl : t.creditedUserId = userId := Option.some.inj hw
    have hrs := halone hstart hb r hr
    obtain ⟨hmem, -, -, hopen, -⟩ := mem_activeRecords.mp hr
    obtain ⟨closed, hlog⟩ := inv.chain.log_of_open hs hd hc (hcs.trans hid.symm) ho
    exact hne (congrArg _ (hlog.eq_last hmem (hrs.trans hid.symm) hopen))
  rcases active_of_replaced hr with ⟨rfl, hw, hstart, hstep⟩ | ⟨hr, hne⟩
  · rcases active_of_replaced hr' with ⟨rfl, -⟩ | ⟨hr', hne'⟩
    · rfl
    · exact (hnew r' hr' hne' hw hstart hstep).elim
  · rcases active_of_replaced hr' with ⟨rfl, hw, hstart, hstep⟩ | ⟨hr', hne'⟩
    · exact (hnew r hr hne hw hstart hstep).elim
    · exact inv.unique userId r hr r' hr'

end Transition

end BeyoManager.TaskSteps
