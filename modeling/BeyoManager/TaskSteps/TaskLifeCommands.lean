import BeyoManager.TaskSteps.TaskLife

/-! # The life of a task under the other commands

New steps, removed steps, dependencies, system pauses, forced readiness, and the creation and the
end of a task. Each is read as a write on the progress and the row of one task.
-/

namespace BeyoManager.TaskSteps

open Relational Transition
open StockReport (TaskState)

variable {db db' db'' : Db} {now : Instant} {ctx : ServiceContext} {limit : LimitOne Row}
  {taskId : ClientId}

section Create

variable {input : StepInput}

def Task.assign (t : Task) : Task := if t.state = .pending then { t with state := .assigned } else t

theorem createStep_of_initial (h : createInitialStep db ctx taskId input now = .ok db') :
    createStep db ctx taskId input now = .ok (db'.updateTask taskId Task.assign) := by
  obtain ⟨db₁, h₁, h⟩ := bind_eq_ok.mp h
  obtain ⟨db₂, h₂, h⟩ := bind_eq_ok.mp h
  cases h
  exact bind_eq_ok.mpr ⟨db₁, h₁, bind_eq_ok.mpr ⟨db₂, h₂, rfl⟩⟩

theorem initial_of_createStep (h : createStep db ctx taskId input now = .ok db') :
    ∃ db₁, createInitialStep db ctx taskId input now = .ok db₁ ∧
      db' = db₁.updateTask taskId Task.assign := by
  obtain ⟨db₁, h₁, h⟩ := bind_eq_ok.mp h
  obtain ⟨db₂, h₂, h⟩ := bind_eq_ok.mp h
  cases h
  exact ⟨_, bind_eq_ok.mpr ⟨db₁, h₁, bind_eq_ok.mpr ⟨db₂, h₂, rfl⟩⟩, rfl⟩

theorem createInitialStep_eq_ok (h : createInitialStep db ctx taskId input now = .ok db') :
    (∀ s ∈ db.taskSteps, s.clientId ≠ input.stepId) ∧
      db'.tasks = db.tasks ∧
      db'.taskSteps = db.taskSteps ++ [input.storedStep db taskId] ∧
      db'.stepStateRecords = db.stepStateRecords ++ [input.pendingRecord ctx now] := by
  obtain ⟨hnew, -, hsteps, hrecords, -⟩ := createStep_eq_ok (createStep_of_initial h)
  refine ⟨hnew, ?_, hsteps, hrecords⟩
  obtain ⟨db₁, h₁, h⟩ := bind_eq_ok.mp h
  obtain ⟨-, h₁⟩ := throwIf_bind_eq_ok.mp h₁
  cases h₁
  obtain ⟨db₂, h₂, h⟩ := bind_eq_ok.mp h
  obtain ⟨rfl, -, -⟩ := insertRecord_eq_ok h₂
  cases h
  rfl

theorem createInitialStep_chain (inv : ChainInv db)
    (h : createInitialStep db ctx taskId input now = .ok db') : ChainInv db' :=
  (createStep_keeps inv (createStep_of_initial h)).1.congr rfl rfl

/-- A created step is one more entry, pending and not started. -/
theorem createInitialStep_progress (inv : ChainInv db)
    (h : createInitialStep db ctx taskId input now = .ok db') (taskId' : ClientId) :
    db'.progress taskId' = db.progress taskId' ++
      if taskId = taskId' then [⟨input.stepId, .pending, false⟩] else [] := by
  obtain ⟨hnew, -, hsteps, hrecords⟩ := createInitialStep_eq_ok h
  have hstarted : ∀ id, db'.hasStarted id = db.hasStarted id := by
    intro id
    have hpending : ((input.pendingRecord ctx now).stepId == id &&
        (input.pendingRecord ctx now).state == .working) = false := by
      simp [StepInput.pendingRecord]
    rw [Db.hasStarted, hrecords, List.any_append, List.any_cons, List.any_nil, Bool.or_false,
      hpending, Bool.or_false]
    rfl
  have hnone : db.hasStarted input.stepId = false := by
    refine Bool.not_eq_true _ ▸ fun hs => ?_
    obtain ⟨r, hr, hp⟩ := List.any_eq_true.mp hs
    simp only [Bool.and_eq_true, beq_iff_eq] at hp
    obtain ⟨s, hs, hid⟩ := inv.owned r hr
    exact hnew s hs (hid.trans hp.1)
  rw [Db.progress, Db.liveSteps, hsteps, List.filter_append, List.map_append]
  congr 1
  · exact List.map_congr_left fun s _ => by rw [TaskStep.progress, TaskStep.progress, hstarted]
  · have hkeep : ((input.storedStep db taskId).taskId == taskId' &&
        !(input.storedStep db taskId).isDeleted) = (taskId == taskId') := by
      simp [StepInput.storedStep, StepInput.newStep]
    have hentry : (input.storedStep db taskId).progress db' = ⟨input.stepId, .pending, false⟩ := by
      rw [TaskStep.progress]
      have hid : (input.storedStep db taskId).clientId = input.stepId := rfl
      rw [hid, hstarted, hnone]
      rfl
    rw [List.filter_singleton, hkeep]
    by_cases hid : taskId = taskId'
    · simp [hid, ← hentry]
    · simp [hid, beq_eq_false_iff_ne.mpr hid]

theorem createInitialStep_owned
    (howned : ∀ s ∈ db.taskSteps, ∃ t ∈ db.tasks, t.clientId = s.taskId)
    (htask : ∃ t ∈ db.tasks, t.clientId = taskId)
    (h : createInitialStep db ctx taskId input now = .ok db') :
    ∀ s ∈ db'.taskSteps, ∃ t ∈ db.tasks, t.clientId = s.taskId := by
  obtain ⟨-, -, hsteps, -⟩ := createInitialStep_eq_ok h
  intro s hs
  rw [hsteps, List.mem_append, List.mem_singleton] at hs
  rcases hs with hs | rfl
  · exact howned s hs
  · exact htask

theorem createInitialStep_life (inv : TaskInv db) (htask : ∃ t ∈ db.tasks, t.clientId = taskId)
    (hready : ∀ t ∈ db.tasks, t.clientId = taskId → t.state ≠ .ready)
    (h : createInitialStep db ctx taskId input now = .ok db') : TaskInv db' := by
  have htasks : db'.tasks = updateWhere (fun t => t.clientId == taskId) (fun t => t) db.tasks := by
    rw [(createInitialStep_eq_ok h).2.1]
    exact (updateWhere_id (p := fun t : Task => t.clientId == taskId)).symm
  refine inv.update (createInitialStep_chain inv.chain h) htasks (fun _ => rfl)
    (createInitialStep_owned inv.owned htask h) ?_ ?_
  · intro t _ hne
    rw [createInitialStep_progress inv.chain h, if_neg (Ne.symm hne), List.append_nil]
  · intro t ht hid
    have hcons := inv.consistent t ht
    rw [hid] at hcons
    rw [createInitialStep_progress inv.chain h, if_pos rfl]
    exact hcons.append_pending input.stepId (hready t ht hid)

/-- The step of a task that may have been ready; the task is to be taken back to work. -/
theorem createStep_life (inv : InvExcept taskId db) (htask : ∃ t ∈ db.tasks, t.clientId = taskId)
    (hloose : ∀ t ∈ db.tasks, t.clientId = taskId → Loose t (db.progress taskId))
    (h : createStep db ctx taskId input now = .ok db') :
    InvExcept taskId db' ∧ (∃ t ∈ db'.tasks, t.clientId = taskId) ∧
      (∀ t ∈ db'.tasks, t.clientId = taskId → Loose t (db'.progress taskId)) ∧
      (∃ e ∈ db'.progress taskId, e.state.isTerminal = false) ∧ EndKept db db' := by
  obtain ⟨db₁, h₁, rfl⟩ := initial_of_createStep h
  have htasks : (db₁.updateTask taskId Task.assign).tasks =
      updateWhere (fun t => t.clientId == taskId) Task.assign db.tasks := by
    rw [Db.updateTask, (createInitialStep_eq_ok h₁).2.1]
  have hid : ∀ t : Task, t.assign.clientId = t.clientId := by
    intro t
    rw [Task.assign]
    split <;> rfl
  have hprogress : ∀ taskId', (db₁.updateTask taskId Task.assign).progress taskId' =
      db.progress taskId' ++ if taskId = taskId' then [⟨input.stepId, .pending, false⟩] else [] :=
    fun taskId' => createInitialStep_progress inv.chain h₁ taskId'
  refine ⟨inv.update ((createInitialStep_chain inv.chain h₁).congr rfl rfl) htasks hid
    (fun s hs => createInitialStep_owned inv.owned htask h₁ s hs) ?_, ?_, ?_, ?_,
    .of_update htasks hid ?_⟩
  · intro t _ hne
    rw [hprogress, if_neg (Ne.symm hne), List.append_nil]
  · obtain ⟨t, ht, hts⟩ := htask
    refine ⟨_, htasks ▸ mem_updateWhere_of_mem ht, ?_⟩
    split
    · exact (hid t).trans hts
    · exact hts
  · intro t ht hts
    obtain ⟨t₀, ht₀, hid₀, rfl⟩ := of_mem_updateTask htasks hid ht hts
    rw [hprogress, if_pos rfl]
    exact (hloose t₀ ht₀ hid₀).assign input.stepId
  · refine ⟨⟨input.stepId, .pending, false⟩, ?_, rfl⟩
    rw [hprogress, if_pos rfl]
    exact List.mem_append_right _ (List.mem_singleton_self _)
  · intro t _ _ hterm
    rw [Task.assign, if_neg]
    rintro hp
    rw [hp] at hterm
    cases hterm

end Create

section Wire

theorem insertDependency_idle {e : TaskStepDependency} (h : db.insertDependency e = .ok db') :
    Idle db db' := by
  refine .of_count ?_ (insertDependency_frame h)
  rw [(insertDependency_eq_ok h).1]

theorem Idle.foldlM {δ : Type} {f : Db → δ → Except CommandError Db}
    (hf : ∀ db d db', f db d = .ok db' → Idle db db') {l : List δ}
    (h : l.foldlM f db = .ok db') : Idle db db' :=
  foldlM_invariant (Idle db) (fun t d _ t' ht hd => ht.trans (hf t d t' hd)) (.refl db) h

theorem wireBatchSteps_idle {newSteps : List TaskStep}
    {newEdgeId : ClientId → ClientId → ClientId}
    (h : wireBatchSteps db newSteps taskId newEdgeId = .ok db') : Idle db db' := by
  refine Idle.foldlM (fun db wired db' h => ?_) h
  refine .trans (.updateStep (fun s => ?_) db wired.1.clientId)
    (.foldlM (fun _ _ _ => insertDependency_idle) h)
  rfl

theorem addStepDependency_idle {stepId prerequisiteStepId newEdgeId : ClientId}
    (h : addStepDependency db taskId stepId prerequisiteStepId newEdgeId = .ok db') :
    Idle db db' := by
  have hframe := addStepDependency_frame h
  obtain ⟨_, _, db₁, -, -, h₁, rfl⟩ := addStepDependency_eq_ok h
  exact .of_count (insertDependency_idle h₁).tasks hframe

theorem removeStepDependency_idle {dependencyId : ClientId}
    (h : removeStepDependency db dependencyId now = .ok db') : Idle db db' := by
  refine .of_count ?_ (removeStepDependency_frame h)
  obtain ⟨edge, -, -, -, rfl⟩ := removeStepDependency_eq_ok h
  split <;> rfl

theorem editWorkingSectionDependencies_idle {sectionId : ClientId} {depIds : List ClientId}
    {newEdgeId : ClientId → ClientId → ClientId}
    (h : editWorkingSectionDependencies db sectionId depIds now newEdgeId = .ok db') :
    Idle db db' := by
  refine .of_count ?_ (editWorkingSectionDependencies_frame h)
  have hremoved : ∀ (edges : List TaskStepDependency) (db : Db), (edges.foldl (fun db e =>
      (db.removeEdge e.clientId now).updateStep e.dependentStepId TaskStep.dropDependency)
        db).tasks = db.tasks := by
    intro edges
    induction edges with
    | nil => exact fun _ => rfl
    | cons e edges ih =>
      intro db
      rw [List.foldl_cons, ih]
      rfl
  have hadded : ∀ {db₁ : Db} {addedSectionIds : List ClientId},
      addEdgesForSections db₁ sectionId addedSectionIds newEdgeId = .ok db' →
        db'.tasks = db₁.tasks := by
    intro db₁ addedSectionIds h
    refine foldlM_invariant (fun t => t.tasks = db₁.tasks) (fun t pair _ t' ht hd => ?_) rfl h
    obtain ⟨step, prereq⟩ := pair
    dsimp only at hd
    split at hd
    · cases hd
      exact ht
    · obtain ⟨db₂, h₂, hd⟩ := bind_eq_ok.mp hd
      cases hd
      exact (insertDependency_idle h₂).tasks.trans ht
  rw [hadded (editWorkingSectionDependencies_eq_ok h)]
  exact hremoved _ _

end Wire

/-- `maybe_reopen_task_to_working` on a row. -/
def Task.reopen (t : Task) : Task :=
  if t.state = .ready then { t with state := .working, completedAt := none } else t

/-- Steps added to a task that has not come to an end. -/
theorem addTaskSteps_life (inv : TaskInv db) {inputs : List StepInput}
    {newEdgeId : ClientId → ClientId → ClientId}
    (h : addTaskSteps db ctx taskId inputs now newEdgeId = .ok db') :
    TaskInv db' ∧ EndKept db db' := by
  have hchain := (addTaskSteps_keeps inv.chain h).1
  obtain ⟨-, h⟩ := throwIf_bind_eq_ok.mp h
  obtain ⟨-, h⟩ := throwIf_bind_eq_ok.mp h
  obtain ⟨task, htask, h⟩ := bind_eq_ok.mp h
  obtain ⟨-, h⟩ := throwIf_bind_eq_ok.mp h
  obtain ⟨u, -, h⟩ := bind_eq_ok.mp h
  obtain ⟨db₁, h₁, h⟩ := bind_eq_ok.mp h
  have hexists : ∃ t ∈ db.tasks, t.clientId = taskId := by
    have hp := List.find?_some (getOr_eq_ok.mp htask)
    simp only [Bool.and_eq_true, beq_iff_eq] at hp
    exact ⟨task, List.mem_of_find?_eq_some (getOr_eq_ok.mp htask), hp.1⟩
  have hwired := wireBatchSteps_idle h
  by_cases hnone : inputs = []
  · rw [if_pos hnone] at hwired
    subst hnone
    cases h₁
    exact ⟨inv.idle hchain hwired, .of_tasks_eq hwired.tasks⟩
  · rw [if_neg hnone] at hwired
    -- the loop leaves the task with an open step, ready or not
    have hloop := foldlM_loop
      (fun l t => (InvExcept taskId t ∧ (∃ u ∈ t.tasks, u.clientId = taskId) ∧
      (∀ u ∈ t.tasks, u.clientId = taskId → Loose u (t.progress taskId)) ∧ EndKept db t) ∧
      (l = [] → ∃ e ∈ t.progress taskId, e.state.isTerminal = false)) ?_
      ⟨⟨inv.except taskId, hexists, fun u hu hid => hid ▸ (inv.consistent u hu).toLoose, .refl db⟩,
        fun hl => absurd hl hnone⟩ h₁
    · obtain ⟨⟨hinv, -, hloose, hend⟩, hopen⟩ := hloop
      have htasks : (maybeReopenTaskToWorking db₁ taskId).tasks =
          updateWhere (fun t => t.clientId == taskId) Task.reopen db₁.tasks := rfl
      have hid : ∀ t : Task, t.reopen.clientId = t.clientId := by
        intro t
        rw [Task.reopen]
        split <;> rfl
      have hupdated : InvExcept taskId (maybeReopenTaskToWorking db₁ taskId) :=
        hinv.update (hinv.chain.congr rfl rfl) htasks hid hinv.owned fun _ _ _ => rfl
      have hreopened : TaskInv (maybeReopenTaskToWorking db₁ taskId) := by
        refine hupdated.restored fun t ht hts => ?_
        obtain ⟨t₀, ht₀, hid₀, rfl⟩ := of_mem_updateTask htasks hid ht hts
        exact (hloose t₀ ht₀ hid₀).reopen (hopen rfl)
      refine ⟨hreopened.idle hchain hwired, (hend.trans (.of_update htasks hid ?_)).trans
        (.of_tasks_eq hwired.tasks)⟩
      intro t _ _ hterm
      rw [Task.reopen, if_neg]
      rintro hr
      rw [hr] at hterm
      cases hterm
    · rintro input l t t' ⟨⟨hinv, hex, hloose, hend⟩, -⟩ ht
      obtain ⟨hinv', hex', hloose', hopen', hend'⟩ := createStep_life hinv hex hloose ht
      exact ⟨⟨hinv', hex', hloose', hend.trans hend'⟩, fun _ => hopen'⟩

section Remove

variable {stepIds : List ClientId}

theorem progress_closedOff (db : Db) (stepIds : List ClientId) (now : Instant) (taskId : ClientId) :
    (db.closedOff stepIds now).progress taskId =
      (db.progress taskId).filter fun e => !stepIds.contains e.stepId := by
  have hstarted : ∀ id, (db.closedOff stepIds now).hasStarted id = db.hasStarted id := by
    intro id
    refine any_started_update ?_ db.stepStateRecords id
    exact fun r => ⟨rfl, rfl⟩
  have hlive : (db.closedOff stepIds now).liveSteps taskId =
      (db.liveSteps taskId).filter fun s => !stepIds.contains s.clientId := by
    refine filter_updateWhere_of_not fun s _ _ => ?_
    rw [Bool.not_true, Bool.and_false]
  rw [Db.progress, Db.progress, hlive, List.filter_map]
  exact List.map_congr_left fun s _ => by rw [TaskStep.progress, TaskStep.progress, hstarted]

/-- Removed steps of a task: it is evaluated when steps are left, and is pending otherwise. -/
theorem removeTaskStepsInSession_life (inv : TaskInv db)
    (hempty : (∀ s ∈ db.liveSteps taskId, s.clientId ∈ stepIds) → ∀ t ∈ db.tasks,
      t.clientId = taskId → isTerminalTaskState t.state = false ∧ t.state ≠ .ready)
    (h : removeTaskStepsInSession db taskId stepIds now = .ok db') :
    TaskInv db' ∧ EndKept db db' := by
  have hchain := (removeTaskStepsInSession_keeps inv.chain h).1
  obtain ⟨hfound, -, -⟩ := removeTaskStepsInSession_eq_ok h
  obtain ⟨task, htask, h⟩ := bind_eq_ok.mp h
  obtain ⟨-, h⟩ := throwIf_bind_eq_ok.mp h
  obtain ⟨-, h⟩ := throwIf_bind_eq_ok.mp h
  obtain ⟨db₁, h₁, h⟩ := bind_eq_ok.mp h
  obtain ⟨-, rfl⟩ := closeOpenRecords_eq_ok h₁
  obtain ⟨-, rfl⟩ := mem_of_find?_key (getOr_eq_ok.mp htask)
  have hidle : Idle (db.closedOff stepIds now) (db.stepsRemoved task.clientId stepIds now) :=
    .of_count rfl (stepsRemoved_frame db task.clientId stepIds now)
  have hprogress : ∀ id, (db.stepsRemoved task.clientId stepIds now).progress id =
      (db.progress id).filter fun e => !stepIds.contains e.stepId :=
    fun id => (hidle.progress id).trans (progress_closedOff db stepIds now id)
  have hother : ∀ t ∈ db.tasks, t.clientId ≠ task.clientId →
      (db.stepsRemoved task.clientId stepIds now).progress t.clientId = db.progress t.clientId := by
    intro t _ hne
    rw [hprogress, List.filter_eq_self]
    intro e he
    obtain ⟨s, hs, hst, -, rfl⟩ := mem_progress.mp he
    have hnot : s.clientId ∉ stepIds := by
      rintro hmem
      obtain ⟨s₀, hs₀, hid₀, htask₀, -⟩ := hfound s.clientId hmem
      obtain rfl := inv.chain.keyedSteps.inj hs₀ hs hid₀
      exact hne (hst.symm.trans htask₀)
    simpa [TaskStep.progress] using hnot
  have howned : ∀ s ∈ (db.stepsRemoved task.clientId stepIds now).taskSteps,
      ∃ t ∈ db.tasks, t.clientId = s.taskId := by
    intro s hs
    have hmem : s.taskId ∈ (db.stepsRemoved task.clientId stepIds now).taskSteps.map (·.taskId) :=
      List.mem_map_of_mem hs
    have hclosed : (db.closedOff stepIds now).taskSteps.map (·.taskId) =
        db.taskSteps.map (·.taskId) := map_updateWhere_of_fixed fun _ _ _ => rfl
    rw [hidle.owners, hclosed] at hmem
    obtain ⟨s₀, hs₀, hid⟩ := List.mem_map.mp hmem
    exact hid ▸ inv.owned s₀ hs₀
  have hlive : (db.stepsRemoved task.clientId stepIds now).liveSteps task.clientId = [] ↔
      ∀ s ∈ db.liveSteps task.clientId, s.clientId ∈ stepIds := by
    have hnil : (db.stepsRemoved task.clientId stepIds now).liveSteps task.clientId = [] ↔
        (db.stepsRemoved task.clientId stepIds now).progress task.clientId = [] :=
      List.map_eq_nil_iff.symm
    rw [hnil, hprogress, List.filter_eq_nil_iff, Db.progress, List.forall_mem_map]
    refine forall₂_congr fun s _ => ?_
    simp [TaskStep.progress]
  change pure (if (db.stepsRemoved task.clientId stepIds now).liveSteps task.clientId = [] then
    (db.stepsRemoved task.clientId stepIds now).updateTask task.clientId
      fun t => { t with state := .pending }
    else maybeEvaluateTaskReady (db.stepsRemoved task.clientId stepIds now) task.clientId now) =
      Except.ok db' at h
  cases h
  split at hchain
  · rename_i hnone
    rw [if_pos hnone]
    have hstate := hempty (hlive.mp hnone)
    have hnil : (db.stepsRemoved task.clientId stepIds now).progress task.clientId = [] :=
      List.map_eq_nil_iff.mpr hnone
    refine ⟨inv.update hchain rfl (fun _ => rfl) howned hother fun t ht hid => ?_,
      .of_update rfl (fun _ => rfl) fun t ht hp hterm => ?_⟩
    · obtain ⟨hterm, hready⟩ := hstate t ht hid
      change Consistent _ ((db.stepsRemoved task.clientId stepIds now).progress task.clientId)
      rw [hnil]
      exact (inv.consistent t ht).emptied hterm hready
    · rw [(hstate t ht (by simpa using hp)).1] at hterm
      cases hterm
  · rename_i hsome
    rw [if_neg hsome, maybeEvaluateTaskReady_eq]
    rw [maybeEvaluateTaskReady_eq] at hchain
    refine ⟨inv.update hchain rfl (fun _ => Task.evaluate_clientId) howned hother
      fun t ht hid => ?_, .of_update rfl (fun _ => Task.evaluate_clientId) fun t _ _ hterm => ?_⟩
    · have hcons := inv.consistent t ht
      rw [hid] at hcons
      change Consistent _ ((db.stepsRemoved task.clientId stepIds now).progress task.clientId)
      rw [hprogress]
      exact hcons.evaluate_filter _
    · rw [Task.evaluate_of_isTerminal hterm]

end Remove

end BeyoManager.TaskSteps
