import BeyoManager.TaskSteps.TaskLifeCommands

/-! # The life of a task over whole runs

The commands on whole tasks keep every task consistent with the progress of its steps. A run
breaks this in three places: a removal that takes the last step of a ready or an ended task, a
task created as ready, and a step of a pending task that is started.
-/

namespace BeyoManager.TaskSteps

open Relational Transition
open StockReport (TaskState)

variable {db db' : Db} {now : Instant} {ctx : ServiceContext} {limit : LimitOne Row}
  {taskId : ClientId}

section Rows

/-- A row that was loaded is still what is stored, and its step is open. -/
structure Held (db : Db) (row : Row) : Prop where
  step : ∃ s ∈ db.taskSteps, s.core = row.2.core
  live : row.2.isDeleted = false
  state : row.2.state.isTerminal = false
  record : row.1 ∈ db.stepStateRecords
  recordOf : row.1.stepId = row.2.clientId
  isOpen : row.1.exitedAt = none

theorem Held.of_others {row : Row} (h : Held db row) {stepId : ClientId}
    (hothers : Others stepId db db') (hne : row.2.clientId ≠ stepId) : Held db' row := by
  obtain ⟨s, hs, hcore⟩ := h.step
  obtain ⟨s₁, hs₁, hcore₁⟩ := hothers.steps s hs ((TaskStep.core_eq hcore).1 ▸ hne)
  exact ⟨⟨s₁, hs₁, hcore₁.trans hcore⟩, h.live, h.state,
    hothers.records _ h.record (h.recordOf ▸ hne), h.recordOf, h.isOpen⟩

theorem applyStepTransition_of_not_working {step : TaskStep} {closing : StepStateRecord}
    {t : StepTransition} (hw : t.newState ≠ .working)
    (h : applyStepTransition db limit step closing t now = .ok db') :
    closeAndOpen db step closing t now = .ok db' := by
  obtain ⟨db₁, h₁, h⟩ := bind_eq_ok.mp h
  rw [autoPause, if_neg fun hc => hw hc.1] at h₁
  cases h₁
  exact h

/-- Loaded rows of different steps are moved one after the other; none is started. -/
theorem moveRows_life (t : Row → StepTransition) (movedAt : Row → Instant)
    (hw : ∀ row, (t row).newState ≠ .working) (inv : TaskInv db) {rows : List Row}
    (hheld : ∀ row ∈ rows, Held db row) (hnodup : (rows.map fun row => row.2.clientId).Nodup)
    (h : rows.foldlM (fun db row =>
      applyStepTransition db limit row.2 row.1 (t row) (movedAt row)) db = .ok db') :
    TaskInv db' ∧ EndKept db db' := by
  refine (foldlM_loop (fun l db₁ => (TaskInv db₁ ∧ EndKept db db₁) ∧ (∀ row ∈ l, Held db₁ row) ∧
    (l.map fun row => row.2.clientId).Nodup) ?_ ⟨⟨inv, .refl db⟩, hheld, hnodup⟩ h).1
  rintro row l db₁ db₂ ⟨⟨inv₁, hend⟩, hheld, hnodup⟩ h₁
  obtain ⟨hx, hnodup⟩ := List.nodup_cons.mp hnodup
  have hrow := hheld row List.mem_cons_self
  have h₁ := applyStepTransition_of_not_working (hw row) h₁
  obtain ⟨s, hs, hcore⟩ := hrow.step
  obtain ⟨hid, -, hst, -, -, -, -, hdeleted⟩ := TaskStep.core_eq hcore
  obtain ⟨inv₂, hend₂, -⟩ := closeAndOpen_life inv₁ hs hcore hrow.live hrow.state hrow.record
    hrow.recordOf hrow.isOpen (fun hc => absurd hc (hw row)) h₁
  have hothers := (closeAndOpen_keeps inv₁.chain hs hid (hdeleted.trans hrow.live)
    (hst ▸ hrow.state) hrow.record hrow.recordOf hrow.isOpen h₁).2.2
  refine ⟨⟨inv₂, hend.trans hend₂⟩, fun y hy => ?_, hnodup⟩
  refine (hheld y (List.mem_cons_of_mem row hy)).of_others hothers fun he => ?_
  exact hx (List.mem_map.mpr ⟨y, hy, he⟩)

theorem mem_openWorkingStepRows {scope : StepStateRecord → TaskStep → Bool} {row : Row}
    (h : row ∈ db.openWorkingStepRows scope) :
    row.1 ∈ db.stepStateRecords ∧ row.1.exitedAt = none ∧ row.1.state = .working ∧
      row.2 ∈ db.taskSteps ∧ row.2.clientId = row.1.stepId ∧ row.2.isDeleted = false := by
  obtain ⟨r, hr, hrow⟩ := List.mem_filterMap.mp h
  obtain ⟨s, hs, rfl⟩ := Option.map_eq_some_iff.mp hrow
  obtain ⟨hr, hp⟩ := List.mem_filter.mp (Sorting.mem_sortBy.mp hr)
  simp only [Bool.and_eq_true, StepStateRecord.isOpen, Option.isNone_iff_eq_none,
    beq_iff_eq] at hp
  have hq := List.find?_some hs
  simp only [Bool.and_eq_true, beq_iff_eq, Bool.not_eq_true'] at hq
  exact ⟨hr, hp.1.2, hp.2, List.mem_of_find?_eq_some hs, hq.1.1, hq.1.2⟩

theorem map_fst_filterMap_sublist {α β : Type} (g : α → Option β) (l : List α) :
    ((l.filterMap fun a => (g a).map (a, ·)).map Prod.fst).Sublist l := by
  induction l with
  | nil => exact .slnil
  | cons a l ih =>
    rw [List.filterMap_cons]
    cases g a with
    | none => exact ih.cons a
    | some b => exact ih.cons_cons a

theorem openWorkingStepRows_held (inv : ChainInv db) {scope : StepStateRecord → TaskStep → Bool} :
    (∀ row ∈ db.openWorkingStepRows scope, Held db row) ∧
      ((db.openWorkingStepRows scope).map fun row => row.2.clientId).Nodup := by
  constructor
  · intro row hrow
    obtain ⟨hr, ho, hw, hs, hid, hd⟩ := mem_openWorkingStepRows hrow
    obtain ⟨closed, hlog⟩ := inv.log_of_open hs hd hr hid.symm ho
    refine ⟨⟨row.2, hs, rfl⟩, hd, ?_, hr, hid.symm, ho⟩
    rw [← hlog.state, hw]
    rfl
  · have hrecords : ((db.openWorkingStepRows scope).map Prod.fst).Nodup :=
      (map_fst_filterMap_sublist _ _).nodup
        (Sorting.nodup_sortBy.mpr (inv.keyedRecords.nodup.filter _))
    refine (List.Nodup.of_map _ hrecords).map_on fun x hx y hy hxy => ?_
    obtain ⟨hr, ho, -, hs, hid, hd⟩ := mem_openWorkingStepRows hx
    obtain ⟨hr', ho', -, hs', hid', -⟩ := mem_openWorkingStepRows hy
    obtain ⟨closed, hlog⟩ := inv.log_of_open hs hd hr hid.symm ho
    have hrecord : y.1 = x.1 := hlog.eq_last hr' (hid'.symm.trans hxy.symm) ho'
    exact Prod.ext hrecord.symm (inv.keyedSteps.inj hs hs' hxy)

theorem pauseRows_life (inv : TaskInv db) {p : Pause} {scope : StepStateRecord → TaskStep → Bool}
    (h : pauseRows db limit p (db.openWorkingStepRows scope) = .ok db') :
    TaskInv db' ∧ EndKept db db' := by
  obtain ⟨hheld, hnodup⟩ := openWorkingStepRows_held inv.chain
  exact moveRows_life (fun row => p.transition row.1) (fun row => p.pausedAt row.1)
    (fun _ => by simp [Pause.transition]) inv hheld hnodup h

end Rows

section Commands

theorem markDeleted_life (inv : TaskInv db) (taskId : ClientId) (deleted : Bool) :
    TaskInv (db.updateTask taskId fun t => { t with isDeleted := deleted }) ∧
      EndKept db (db.updateTask taskId fun t => { t with isDeleted := deleted }) := by
  refine ⟨inv.updateTask (fun _ => rfl) fun t ht hid => ?_,
    .of_update rfl (fun _ => rfl) fun _ _ _ _ => rfl⟩
  have hcons := inv.consistent t ht
  rw [hid] at hcons
  exact ⟨⟨hcons.done, hcons.completed, hcons.started⟩, hcons.ready⟩

theorem deleteTask_life (inv : TaskInv db) {newRecordId : ClientId → ClientId}
    (h : deleteTask db ctx limit taskId now newRecordId = .ok db') :
    TaskInv db' ∧ EndKept db db' := by
  obtain ⟨task, -, h⟩ := bind_eq_ok.mp h
  obtain ⟨-, h⟩ := throwIf_bind_eq_ok.mp h
  obtain ⟨db₁, h₁, h⟩ := bind_eq_ok.mp h
  cases h
  obtain ⟨inv₁, hend₁⟩ := pauseRows_life inv h₁
  obtain ⟨inv₂, hend₂⟩ := markDeleted_life inv₁ task.clientId true
  exact ⟨inv₂, hend₁.trans hend₂⟩

theorem restoreTask_life (inv : TaskInv db) {deletedAt : Option Instant}
    {newRecordId : ClientId → ClientId}
    (h : restoreTask db ctx limit taskId deletedAt newRecordId = .ok db') :
    TaskInv db' ∧ EndKept db db' := by
  obtain ⟨task, -, h⟩ := bind_eq_ok.mp h
  obtain ⟨-, h⟩ := throwIf_bind_eq_ok.mp h
  obtain ⟨inv₁, hend₁⟩ := markDeleted_life inv task.clientId false
  cases deletedAt with
  | none =>
    cases h
    exact ⟨inv₁, hend₁⟩
  | some pausedAt =>
    obtain ⟨inv₂, hend₂⟩ := pauseRows_life inv₁ h
    exact ⟨inv₂, hend₁.trans hend₂⟩

theorem finishTask_life (inv : TaskInv db) {finish : Task → Task}
    (hid : ∀ t, (finish t).clientId = t.clientId)
    (hterm : ∀ t, isTerminalTaskState (finish t).state = true)
    (h : finishTask db taskId finish = .ok db') : TaskInv db' ∧ EndKept db db' := by
  obtain ⟨task, htask, h⟩ := bind_eq_ok.mp h
  obtain ⟨hopen, h⟩ := throwIf_bind_eq_ok.mp h
  cases h
  have hmem := List.mem_of_find?_eq_some (getOr_eq_ok.mp htask)
  refine ⟨inv.updateTask hid fun t ht _ => ?_, .of_update rfl hid fun t ht hp ht' => ?_⟩
  · have hnot : ¬ isTerminalTaskState (finish t).state = false := by simp [hterm t]
    refine ⟨⟨fun hc => absurd hc hnot, fun hc => absurd hc hnot, fun _ _ _ => ?_⟩, fun hr => ?_⟩
    · have := hterm t
      cases hs : (finish t).state <;> simp_all [isTerminalTaskState, isBeforeWork]
    · have := hterm t
      rw [hr] at this
      cases this
  · obtain rfl := inv.keyedTasks.inj ht hmem (by simpa using hp)
    exact absurd ht' hopen

/-- A new task that is not ready, and its steps. -/
theorem createTask_life (inv : TaskInv db) {roleName : Option String}
    {request : CreateTaskRequest} {newEdgeId : ClientId → ClientId → ClientId}
    (hstate : request.initialState roleName ≠ .ready)
    (h : createTask db ctx roleName request now newEdgeId = .ok db') :
    TaskInv db' ∧ EndKept db db' := by
  obtain ⟨-, h⟩ := throwIf_bind_eq_ok.mp h
  obtain ⟨db₁, h₁, h⟩ := bind_eq_ok.mp h
  obtain ⟨hfresh, h₁⟩ := throwIf_bind_eq_ok.mp h₁
  cases h₁
  obtain ⟨u, -, h⟩ := bind_eq_ok.mp h
  obtain ⟨-, h⟩ := throwIf_bind_eq_ok.mp h
  obtain ⟨db₂, h₂, h⟩ := bind_eq_ok.mp h
  have hnew : ∀ t ∈ db.tasks, t.clientId ≠ request.taskId := fun t ht hid => hfresh ⟨t, ht, hid⟩
  have hinserted : TaskInv { db with tasks := db.tasks ++ [request.newTask roleName] } := by
    refine ⟨inv.chain.congr rfl rfl, ?_, fun s hs => ?_, fun t ht => ?_⟩
    · refine keyed_append.mpr ⟨inv.keyedTasks, List.nodup_singleton _, fun t ht t' ht' => ?_⟩
      obtain rfl := List.mem_singleton.mp ht'
      exact hnew t ht
    · obtain ⟨t, ht, hid⟩ := inv.owned s hs
      exact ⟨t, List.mem_append_left _ ht, hid⟩
    · rcases List.mem_append.mp ht with ht | ht
      · exact inv.consistent t ht
      · obtain rfl := List.mem_singleton.mp ht
        -- no step belongs to a task that was not there
        have hnil : db.progress request.taskId = [] := by
          refine List.eq_nil_iff_forall_not_mem.mpr fun e he => ?_
          obtain ⟨s, hs, hid, -, -⟩ := mem_progress.mp he
          obtain ⟨t, ht, hts⟩ := inv.owned s hs
          exact hnew t ht (hts.trans hid)
        change Consistent _ (db.progress request.taskId)
        rw [hnil]
        exact Consistent.stepless rfl hstate
  have hrow : ∀ t ∈ db.tasks ++ [request.newTask roleName], t.clientId = request.taskId →
      t.state ≠ .ready := by
    intro t ht hid
    rcases List.mem_append.mp ht with ht | ht
    · exact absurd hid (hnew t ht)
    · obtain rfl := List.mem_singleton.mp ht
      exact hstate
  have hsteps : TaskInv db₂ ∧ db₂.tasks = db.tasks ++ [request.newTask roleName] := by
    refine foldlM_invariant
      (fun t => TaskInv t ∧ t.tasks = db.tasks ++ [request.newTask roleName]) ?_
      ⟨hinserted, rfl⟩ h₂
    rintro t input - t' ⟨hinv, htasks⟩ ht
    refine ⟨createInitialStep_life hinv ?_ (fun u hu => hrow u (htasks ▸ hu)) ht,
      (createInitialStep_eq_ok ht).2.1.trans htasks⟩
    refine ⟨request.newTask roleName, ?_, rfl⟩
    rw [htasks]
    exact List.mem_append_right _ (List.mem_singleton_self _)
  have hwired := wireBatchSteps_idle h
  refine ⟨hsteps.1.idle (hsteps.1.chain.congr (wireBatchSteps_frame h).records
    (wireBatchSteps_frame h).core) hwired, fun t ht _ => ⟨t, ?_, rfl, rfl⟩⟩
  rw [hwired.tasks, hsteps.2]
  exact List.mem_append_left _ ht

theorem Consistent.evaluateStepless {t : Task} {progress : List StepProgress}
    (h : Consistent t progress) :
    Consistent (if isTerminalTaskState t.state ∨ t.state = .ready then t
      else if ¬ progress.all (·.state.isTerminal) then t
      else { t with state := .ready, completedAt := some now }) progress := by
  split
  · exact h
  · split
    · exact h
    · rename_i hall
      exact ⟨⟨fun _ _ _ => rfl, fun _ => by simp, fun _ _ _ => rfl⟩,
        fun _ => List.all_eq_true.mp (not_not.mp hall)⟩

/-- Open steps with their open records. -/
theorem openSteps_held {l : List TaskStep}
    (hl : ∀ s ∈ l, s ∈ db.taskSteps ∧ s.isDeleted = false ∧ s.state.isTerminal = false)
    (hnodup : (l.map (·.clientId)).Nodup) :
    (∀ row ∈ l.filterMap fun s => (db.openRecord s.clientId).map (·, s), Held db row) ∧
      ((l.filterMap fun s => (db.openRecord s.clientId).map (·, s)).map
        fun row : Row => row.2.clientId).Nodup := by
  constructor
  · intro row hrow
    obtain ⟨s, hs, hrow⟩ := List.mem_filterMap.mp hrow
    obtain ⟨r, hr, rfl⟩ := Option.map_eq_some_iff.mp hrow
    obtain ⟨hs, hd, hstate⟩ := hl s hs
    obtain ⟨hr, hrs, ho⟩ := openRecord_eq_some hr
    exact ⟨⟨s, hs, rfl⟩, hd, hstate, hr, hrs, ho⟩
  · refine List.Nodup.sublist ?_ hnodup
    clear hl hnodup
    induction l with
    | nil => exact .slnil
    | cons s l ih =>
      rw [List.filterMap_cons]
      cases db.openRecord s.clientId with
      | none => exact ih.cons _
      | some r => exact ih.cons_cons _

theorem forceTaskReady_life (inv : TaskInv db) {request : ForceTaskReadyRequest}
    {sequenceOrder : ClientId → ℤ} {newRecordId : ClientId → ClientId}
    (h : forceTaskReady db ctx request limit now sequenceOrder newRecordId = .ok db') :
    TaskInv db' ∧ EndKept db db' := by
  obtain ⟨task, htask, h⟩ := bind_eq_ok.mp h
  obtain ⟨-, h⟩ := throwIf_bind_eq_ok.mp h
  obtain ⟨-, h⟩ := throwIf_bind_eq_ok.mp h
  obtain ⟨-, h⟩ := throwIf_bind_eq_ok.mp h
  obtain ⟨-, h⟩ := throwIf_bind_eq_ok.mp h
  obtain ⟨db₁, h₁, h⟩ := bind_eq_ok.mp h
  obtain ⟨-, h⟩ := throwIf_bind_eq_ok.mp h
  cases h
  have hopen : ∀ s ∈ (Sorting.sortBy (fun s => toLex (sequenceOrder s.clientId, s.clientId))
      (db.liveSteps task.clientId)).filter fun s => !s.state.isTerminal,
      s ∈ db.taskSteps ∧ s.isDeleted = false ∧ s.state.isTerminal = false := by
    intro s hs
    obtain ⟨hs, hp⟩ := List.mem_filter.mp hs
    obtain ⟨hs, -, hd⟩ := mem_liveSteps.mp (Sorting.mem_sortBy.mp hs)
    exact ⟨hs, hd, by simpa using hp⟩
  have hids : (((Sorting.sortBy (fun s => toLex (sequenceOrder s.clientId, s.clientId))
      (db.liveSteps task.clientId)).filter fun s => !s.state.isTerminal).map
        (·.clientId)).Nodup := by
    refine List.Nodup.sublist (List.filter_sublist.map _) ?_
    exact ((Sorting.sortBy_perm _ _).map _).nodup_iff.mpr (keyed_filter inv.chain.keyedSteps _)
  obtain ⟨hheld, hnodup⟩ := openSteps_held hopen hids
  obtain ⟨inv₁, hend₁⟩ := moveRows_life
    (fun row => request.transition ctx row.1 (newRecordId row.2.clientId)) (fun _ => now)
    (fun _ => by simp [ForceTaskReadyRequest.transition]) inv hheld
    hnodup h₁
  have hid : ∀ t : Task, (if isTerminalTaskState t.state ∨ t.state = .ready then t
      else if ¬ (db₁.liveSteps task.clientId).all (·.state.isTerminal) then t
      else { t with state := .ready, completedAt := some now }).clientId = t.clientId := by
    intro t
    split_ifs <;> rfl
  refine ⟨inv₁.updateTask hid fun t ht hts => ?_, hend₁.trans (.of_update rfl hid ?_)⟩
  · have hall : (db₁.liveSteps task.clientId).all (·.state.isTerminal) =
        (db₁.progress task.clientId).all (·.state.isTerminal) := by
      rw [Db.progress, List.all_map]
      rfl
    have hcons := inv₁.consistent t ht
    rw [hts] at hcons
    rw [hall]
    exact hcons.evaluateStepless
  · intro t _ _ hterm
    rw [if_pos (.inl hterm)]

theorem finalizePendingStepCompletion_life (inv : TaskInv db) {payload : PendingStepCompletion}
    {newRecordId : ClientId}
    (h : finalizePendingStepCompletion db payload now newRecordId = .ok db') :
    TaskInv db' ∧ EndKept db db' := by
  rw [finalizePendingStepCompletion] at h
  split at h
  · cases h
    exact ⟨inv, .refl db⟩
  · rename_i step hstep
    split at h
    · cases h
      exact ⟨inv, .refl db⟩
    · rename_i hw
      rw [not_or, not_not] at hw
      split at h
      · cases h
        exact ⟨inv, .refl db⟩
      · rename_i closing hclosing
        obtain ⟨hs, hid, -, hd⟩ := fetchStepOfTask_eq_some hstep
        obtain ⟨hc, hcs, ho⟩ := openRecord_eq_some hclosing
        have hmoved := completeDeferred_moved hid.symm h
        have hopen : step.state.isTerminal = false := by
          rw [hw.1]
          rfl
        refine ⟨inv.moved ?_ hmoved hs rfl rfl hd hopen (by simp), hmoved.endKept⟩
        obtain ⟨db₁, h₁, h⟩ := bind_eq_ok.mp h
        obtain ⟨rfl, hle, hfresh, -⟩ := replaceRecord_eq_ok h₁
        obtain ⟨db₂, h₂, h⟩ := bind_eq_ok.mp h
        cases h
        have hinv := inv.chain.replaced (payload.newRecord newRecordId) false false hs hd hc hcs ho
          (hle closing hc rfl) hfresh hid.symm rfl rfl
        have hclosed : StepFrame TaskStep.core (db.replaced closing.clientId
            (payload.newRecord newRecordId) payload.completionRequestedAt false false)
            ((db.replaced closing.clientId (payload.newRecord newRecordId)
              payload.completionRequestedAt false false).updateStep step.clientId fun s =>
                { s with closedAt := some payload.completionRequestedAt }) := by
          refine .updateStep ?_ _ _
          exact fun s => rfl
        exact ((hinv.frame hclosed).frame (settleClosedStepTime_frame _ _ _ _ _).core_of_untimed
          |>.frame (cascadeStepCompletion_frame h₂).2.core_of_uncounted).congr rfl rfl

end Commands

section Runs

/-- A removal that takes the last steps of a task finds it neither ready nor at an end. -/
def Db.MayRemove (db : Db) (taskId : ClientId) (stepIds : List ClientId) : Prop :=
  (∀ s ∈ db.liveSteps taskId, s.clientId ∈ stepIds) → ∀ t ∈ db.tasks, t.clientId = taskId →
    isTerminalTaskState t.state = false ∧ t.state ≠ .ready

def Db.MayStart (db : Db) (newState : TaskStepState) (taskIds : List ClientId) : Prop :=
  newState = .working → ∀ taskId ∈ taskIds, ∀ t ∈ db.tasks, t.clientId = taskId →
    t.state ≠ .pending

/-- A removal of the last steps finds its task neither ready nor at an end, a task is not created
as ready, and no step of a pending task is started. -/
def TaskOp.KeepsRules (db : Db) : TaskOp → Prop
  | .onSteps (.transition _ request _ _ _) => db.MayStart request.newState [request.taskId]
  | .onSteps (.transitionBatch _ request _ _ _) =>
    db.MayStart request.newState (request.items.map (·.taskId))
  | .onSteps (.removeStep taskId stepId) => db.MayRemove taskId [stepId]
  | .onSteps (.removeSteps request) => db.MayRemove request.taskId request.stepIds
  | .create _ roleName request _ => request.initialState roleName ≠ .ready
  | _ => True

instance (db : Db) (taskId : ClientId) (stepIds : List ClientId) :
    Decidable (db.MayRemove taskId stepIds) :=
  inferInstanceAs (Decidable ((∀ s ∈ db.liveSteps taskId, s.clientId ∈ stepIds) → _))

instance (db : Db) (newState : TaskStepState) (taskIds : List ClientId) :
    Decidable (db.MayStart newState taskIds) :=
  inferInstanceAs (Decidable (newState = .working → _))

theorem Op.execute_life (inv : TaskInv db) {op : Op} (hcond : (TaskOp.onSteps op).KeepsRules db)
    (h : op.execute db now = .ok db') : TaskInv db' ∧ EndKept db db' := by
  have hidle : Idle db db' → TaskInv db' ∧ EndKept db db' := fun hi =>
    ⟨inv.idle (execute_keeps inv.chain h).1 hi, .of_tasks_eq hi.tasks⟩
  cases op with
  | transition =>
    exact transitionStepState_life inv
      (fun hw => hcond hw _ (List.mem_singleton_self _)) h
  | transitionBatch =>
    exact transitionStepStateBatch_life inv
      (fun hw item hitem => hcond hw _ (List.mem_map_of_mem hitem)) h
  | markInaccurate =>
    obtain ⟨record, -, step, -, -, -, heq⟩ := markStepTimeInaccurate_eq_ok h
    exact hidle (heq ▸ applyInaccurateTimeFlag_idle db _ _)
  | addSteps => exact addTaskSteps_life inv h
  | removeStep => exact removeTaskStepsInSession_life inv hcond h
  | removeSteps => exact removeTaskStepsInSession_life inv hcond (removeTaskSteps_eq_ok h)
  | addDependency => exact hidle (addStepDependency_idle h)
  | removeDependency => exact hidle (removeStepDependency_idle h)
  | editSectionDependencies => exact hidle (editWorkingSectionDependencies_idle h)

/-- Every command under its condition keeps the tasks consistent with their steps and takes none
out of a terminal state. -/
theorem TaskOp.execute_life (inv : TaskInv db) {op : TaskOp} (hcond : op.KeepsRules db)
    (h : op.execute db now = .ok db') : TaskInv db' ∧ EndKept db db' := by
  cases op with
  | onSteps op => exact op.execute_life inv hcond h
  | create => exact createTask_life inv hcond h
  | forceReady => exact forceTaskReady_life inv h
  | resolve =>
    refine finishTask_life inv ?_ ?_ h
    · exact fun _ => rfl
    · exact fun _ => rfl
  | fail =>
    refine finishTask_life inv ?_ ?_ h
    · exact fun _ => rfl
    · exact fun _ => rfl
  | cancel =>
    refine finishTask_life inv ?_ ?_ h
    · exact fun _ => rfl
    · exact fun _ => rfl
  | delete => exact deleteTask_life inv h
  | restore => exact restoreTask_life inv h
  | pauseForCase => exact pauseRows_life inv h
  | pauseForDeclaredState => exact pauseRows_life inv h
  | pauseForClockOut => exact pauseRows_life inv h
  | finalize => exact finalizePendingStepCompletion_life inv h

theorem taskInv_withoutTasks (db : Db) : TaskInv db.withoutTasks :=
  ⟨(chainInv_withoutSteps db).congr rfl rfl, keyed_nil, by simp [Db.withoutTasks, Db.withoutSteps],
    by simp [Db.withoutTasks]⟩

theorem runTasks_life {s : System} (inv : TaskInv s.db) {commands : List TaskCommand}
    (h : Meets taskStep (fun s c => c.op.KeepsRules s.db) s commands) :
    TaskInv (runTasks s commands).db ∧ EndKept s.db (runTasks s commands).db := by
  refine h.invariant (fun t : System => TaskInv t.db ∧ EndKept s.db t.db) ?_ ⟨inv, .refl s.db⟩
  rintro t c t' ⟨hinv, hend⟩ hcond hstep
  obtain ⟨hinv', hend'⟩ := c.op.execute_life hinv hcond (taskStep_eq_ok hstep).2
  exact ⟨hinv', hend.trans hend'⟩

/-- In a run in which no removal takes the last step of a ready or an ended task, no task is
created as ready, and no step of a pending task is started: no task leaves a terminal state; a
ready task has no open step; a task with steps that has not ended is ready when they are all at
an end; once a step of a task has been started the task is no longer pending or assigned; and a
task that has not ended is marked as completed exactly when it is ready. -/
theorem tasks_follow_steps (tables : Db) (clock : Instant) (commands later : List TaskCommand)
    (h : Meets taskStep (fun s c => c.op.KeepsRules s.db) ⟨clock, tables.withoutTasks⟩
      (commands ++ later)) :
    let s := runTasks ⟨clock, tables.withoutTasks⟩ commands
    ∀ t ∈ s.db.tasks,
      (isTerminalTaskState t.state = true →
        ∃ t' ∈ (runTasks s later).db.tasks, t'.clientId = t.clientId ∧ t'.state = t.state) ∧
      (t.state = .ready → ∀ step ∈ s.db.liveSteps t.clientId, step.state.isTerminal = true) ∧
      (isTerminalTaskState t.state = false → s.db.liveSteps t.clientId ≠ [] →
        (∀ step ∈ s.db.liveSteps t.clientId, step.state.isTerminal = true) → t.state = .ready) ∧
      ((∃ step ∈ s.db.liveSteps t.clientId, ∃ r ∈ s.db.stepStateRecords,
        r.stepId = step.clientId ∧ r.state = .working) → t.state ≠ .pending ∧ t.state ≠ .assigned) ∧
      (isTerminalTaskState t.state = false → (t.completedAt.isSome ↔ t.state = .ready)) := by
  intro s t ht
  obtain ⟨inv, -⟩ := runTasks_life (taskInv_withoutTasks tables) h.of_append
  have hcons := inv.consistent t ht
  have hforall : (∀ e ∈ s.db.progress t.clientId, e.state.isTerminal = true) ↔
      ∀ step ∈ s.db.liveSteps t.clientId, step.state.isTerminal = true := List.forall_mem_map
  refine ⟨fun hterm => ?_, fun hr => hforall.mp (hcons.ready hr), fun hterm hne hall => ?_, ?_,
    hcons.completed⟩
  · exact (runTasks_life inv h.append).2 t ht hterm
  · exact hcons.done hterm (fun hnil => hne (List.map_eq_nil_iff.mp hnil)) (hforall.mpr hall)
  · rintro ⟨step, hstep, r, hr, hrs, hw⟩
    have hstarted : (step.progress s.db).started = true :=
      List.any_eq_true.mpr ⟨r, hr, by simp [hrs, hw]⟩
    have hbefore := hcons.started _ (List.mem_map_of_mem hstep) hstarted
    constructor
    · rintro hp
      rw [hp] at hbefore
      cases hbefore
    · rintro ha
      rw [ha] at hbefore
      cases hbefore

section Workshop

def createsTask (roleName : Option String) (state : Option TaskState) (stepIds : List ClientId) :
    TaskCommand where
  elapsed := 0
  op := .create manager roleName
    ⟨some "task", "task", state, stepIds.map fun id => ⟨some id, "sewing", id, "opens " ++ id⟩⟩
    fun dependentId prerequisiteId => dependentId ++ " after " ++ prerequisiteId

def onSteps (c : Command) : TaskCommand := ⟨c.elapsed, .onSteps c.op⟩

def removes (stepId : ClientId) : TaskCommand :=
  ⟨(10 : ℕ), .onSteps (.removeStep "task" stepId)⟩

def taskAfter (commands : List TaskCommand) : Option Task :=
  (runTasks ⟨0, workshop.withoutTasks⟩ commands).db.anyTask "task"

end Workshop

/-- A task that is created with two steps, worked on, completed and resolved. -/
theorem tasks_follow_steps_resolved :
    let commands := [createsTask none none ["a", "b"],
      onSteps (moves worker none "a" .working false),
      onSteps (moves worker none "a" .completed false), removes "b"]
    let s := runTasks ⟨0, workshop.withoutTasks⟩ commands
    ∀ t ∈ s.db.tasks,
      (isTerminalTaskState t.state = true →
        ∃ t' ∈ (runTasks s [⟨10, .resolve "task"⟩]).db.tasks,
          t'.clientId = t.clientId ∧ t'.state = t.state) ∧
      (t.state = .ready → ∀ step ∈ s.db.liveSteps t.clientId, step.state.isTerminal = true) ∧
      (isTerminalTaskState t.state = false → s.db.liveSteps t.clientId ≠ [] →
        (∀ step ∈ s.db.liveSteps t.clientId, step.state.isTerminal = true) → t.state = .ready) ∧
      ((∃ step ∈ s.db.liveSteps t.clientId, ∃ r ∈ s.db.stepStateRecords,
        r.stepId = step.clientId ∧ r.state = .working) → t.state ≠ .pending ∧ t.state ≠ .assigned) ∧
      (isTerminalTaskState t.state = false → (t.completedAt.isSome ↔ t.state = .ready)) := by
  refine tasks_follow_steps workshop 0 _ _ ⟨fun _ => ?_, fun _ => ?_, fun _ => ?_, fun _ => ?_,
    fun _ => trivial, trivial⟩
  · change (_ : TaskState) ≠ .ready
    decide
  · change Db.MayStart _ .working ["task"]
    decide +kernel
  · change Db.MayStart _ .completed ["task"]
    decide +kernel
  · change Db.MayRemove _ "task" ["b"]
    decide +kernel

/-- A resolved task becomes pending when its last step is removed. A ready one is left marked as
completed. A step that is started leaves a seller's task pending. A task created as ready is not
marked as completed. -/
theorem task_leaves_resolved :
    (taskAfter [createsTask none none ["a"], ⟨10, .resolve "task"⟩]).map (·.state) =
        some .resolved ∧
      (taskAfter [createsTask none none ["a"], ⟨10, .resolve "task"⟩, removes "a"]).map (·.state) =
        some .pending ∧
      (taskAfter [createsTask none none ["a"], onSteps (moves worker none "a" .working false),
        onSteps (moves worker none "a" .completed false), removes "a"]).map
          (fun t => (t.state, t.completedAt)) = some (.pending, some 20) ∧
      (taskAfter [createsTask (some "seller") none ["a"],
        onSteps (moves worker none "a" .working false)]).map (·.state) = some .pending ∧
      (taskAfter [createsTask none (some .ready) []]).map (fun t => (t.state, t.completedAt)) =
        some (.ready, none) := by
  refine ⟨?_, ?_, ?_, ?_, ?_⟩ <;> decide +kernel

end Runs

end BeyoManager.TaskSteps
