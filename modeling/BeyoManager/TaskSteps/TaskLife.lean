import BeyoManager.TaskSteps.TaskProgress

/-! # The life of a task under the step commands

The tasks are consistent with the progress of their steps. The move of an open step keeps this
when it does not start the work of a pending task; so do added steps, and removed ones that leave
a step or a task that is neither ready nor at an end.
-/

namespace BeyoManager.TaskSteps

open Relational Transition
open StockReport (TaskState)

variable {db db' db'' : Db} {now : Instant} {ctx : ServiceContext} {limit : LimitOne Row}

/-- The logs are kept, every step belongs to a task, and every task agrees with its progress. -/
structure TaskInv (db : Db) : Prop where
  chain : ChainInv db
  keyedTasks : Keyed Task.clientId db.tasks
  owned : ∀ s ∈ db.taskSteps, ∃ t ∈ db.tasks, t.clientId = s.taskId
  consistent : ∀ t ∈ db.tasks, Consistent t (db.progress t.clientId)

def EndKept (db db' : Db) : Prop :=
  ∀ t ∈ db.tasks, isTerminalTaskState t.state = true →
    ∃ t' ∈ db'.tasks, t'.clientId = t.clientId ∧ t'.state = t.state

def NonePending (db db' : Db) : Prop :=
  ∀ t' ∈ db'.tasks, t'.state = .pending → ∃ t ∈ db.tasks, t.clientId = t'.clientId ∧
    t.state = .pending

namespace EndKept

theorem refl (db : Db) : EndKept db db := fun t ht _ => ⟨t, ht, rfl, rfl⟩

theorem trans (h : EndKept db db') (h' : EndKept db' db'') : EndKept db db'' := by
  intro t ht hterm
  obtain ⟨t₁, ht₁, hid₁, hstate₁⟩ := h t ht hterm
  obtain ⟨t₂, ht₂, hid₂, hstate₂⟩ := h' t₁ ht₁ (hstate₁ ▸ hterm)
  exact ⟨t₂, ht₂, hid₂.trans hid₁, hstate₂.trans hstate₁⟩

theorem of_tasks_eq (h : db'.tasks = db.tasks) : EndKept db db' :=
  fun t ht _ => ⟨t, h ▸ ht, rfl, rfl⟩

theorem of_update {p : Task → Bool} {f : Task → Task}
    (h : db'.tasks = updateWhere p f db.tasks) (hid : ∀ t, (f t).clientId = t.clientId)
    (hf : ∀ t ∈ db.tasks, p t = true → isTerminalTaskState t.state = true →
      (f t).state = t.state) : EndKept db db' := by
  intro t ht hterm
  refine ⟨if p t then f t else t, h ▸ mem_updateWhere_of_mem ht, ?_⟩
  by_cases hp : p t = true
  · rw [if_pos hp]
    exact ⟨hid t, hf t ht hp hterm⟩
  · rw [if_neg hp]
    exact ⟨rfl, rfl⟩

end EndKept

namespace TaskInv

theorem idle (inv : TaskInv db) (hchain : ChainInv db') (h : Idle db db') : TaskInv db' := by
  refine ⟨hchain, h.tasks ▸ inv.keyedTasks, fun s hs => ?_, fun t ht => ?_⟩
  · have hmem : s.taskId ∈ db'.taskSteps.map (·.taskId) := List.mem_map_of_mem hs
    rw [h.owners] at hmem
    obtain ⟨s₀, hs₀, hid⟩ := List.mem_map.mp hmem
    rw [h.tasks, ← hid]
    exact inv.owned s₀ hs₀
  · rw [h.progress]
    exact inv.consistent t (h.tasks ▸ ht)

end TaskInv

/-- The same, except that one task need not agree with its progress. -/
structure InvExcept (taskId : ClientId) (db : Db) : Prop where
  chain : ChainInv db
  keyedTasks : Keyed Task.clientId db.tasks
  owned : ∀ s ∈ db.taskSteps, ∃ t ∈ db.tasks, t.clientId = s.taskId
  consistent : ∀ t ∈ db.tasks, t.clientId ≠ taskId → Consistent t (db.progress t.clientId)

theorem TaskInv.except (inv : TaskInv db) (taskId : ClientId) : InvExcept taskId db :=
  ⟨inv.chain, inv.keyedTasks, inv.owned, fun t ht _ => inv.consistent t ht⟩

namespace InvExcept

variable {taskId : ClientId} {f : Task → Task}

/-- A write on the row of that task and on its steps. -/
theorem update (inv : InvExcept taskId db) (hchain : ChainInv db')
    (htasks : db'.tasks = updateWhere (fun t => t.clientId == taskId) f db.tasks)
    (hid : ∀ t, (f t).clientId = t.clientId)
    (howned : ∀ s ∈ db'.taskSteps, ∃ t ∈ db.tasks, t.clientId = s.taskId)
    (hother : ∀ t ∈ db.tasks, t.clientId ≠ taskId →
      db'.progress t.clientId = db.progress t.clientId) : InvExcept taskId db' := by
  refine ⟨hchain, ?_, fun s hs => ?_, fun t ht hne => ?_⟩
  · rw [htasks]
    exact keyed_update inv.keyedTasks fun t _ _ => hid t
  · obtain ⟨t, ht, hts⟩ := howned s hs
    refine ⟨_, htasks ▸ mem_updateWhere_of_mem ht, ?_⟩
    split
    · exact (hid t).trans hts
    · exact hts
  · rw [htasks] at ht
    obtain ⟨t₀, ht₀, rfl⟩ := mem_updateWhere.mp ht
    by_cases h : t₀.clientId = taskId
    · rw [if_pos (by simpa using h)] at hne
      exact absurd ((hid t₀).trans h) hne
    · rw [if_neg (by simpa using h), hother t₀ ht₀ h]
      exact inv.consistent t₀ ht₀ h

theorem restored (inv : InvExcept taskId db)
    (h : ∀ t ∈ db.tasks, t.clientId = taskId → Consistent t (db.progress taskId)) :
    TaskInv db := by
  refine ⟨inv.chain, inv.keyedTasks, inv.owned, fun t ht => ?_⟩
  by_cases hid : t.clientId = taskId
  · rw [hid]
    exact h t ht hid
  · exact inv.consistent t ht hid

end InvExcept

theorem of_mem_updateTask {taskId : ClientId} {f : Task → Task}
    (htasks : db'.tasks = updateWhere (fun t => t.clientId == taskId) f db.tasks)
    (hid : ∀ t, (f t).clientId = t.clientId) {t : Task} (ht : t ∈ db'.tasks)
    (h : t.clientId = taskId) : ∃ t₀ ∈ db.tasks, t₀.clientId = taskId ∧ t = f t₀ := by
  rw [htasks] at ht
  obtain ⟨t₀, ht₀, rfl⟩ := mem_updateWhere.mp ht
  refine ⟨t₀, ht₀, ?_⟩
  split at h
  · rename_i hp
    exact ⟨(hid t₀).symm.trans h, if_pos hp⟩
  · rename_i hp
    exact absurd (by simpa using h) hp

namespace TaskInv

theorem update (inv : TaskInv db) (hchain : ChainInv db') {taskId : ClientId} {f : Task → Task}
    (htasks : db'.tasks = updateWhere (fun t => t.clientId == taskId) f db.tasks)
    (hid : ∀ t, (f t).clientId = t.clientId)
    (howned : ∀ s ∈ db'.taskSteps, ∃ t ∈ db.tasks, t.clientId = s.taskId)
    (hother : ∀ t ∈ db.tasks, t.clientId ≠ taskId →
      db'.progress t.clientId = db.progress t.clientId)
    (htask : ∀ t ∈ db.tasks, t.clientId = taskId → Consistent (f t) (db'.progress taskId)) :
    TaskInv db' := by
  refine ((inv.except taskId).update hchain htasks hid howned hother).restored fun t ht h => ?_
  obtain ⟨t₀, ht₀, hid₀, rfl⟩ := of_mem_updateTask htasks hid ht h
  exact htask t₀ ht₀ hid₀

theorem updateTask (inv : TaskInv db) {taskId : ClientId} {f : Task → Task}
    (hid : ∀ t, (f t).clientId = t.clientId)
    (htask : ∀ t ∈ db.tasks, t.clientId = taskId → Consistent (f t) (db.progress taskId)) :
    TaskInv (db.updateTask taskId f) :=
  inv.update (inv.chain.congr rfl rfl) rfl hid inv.owned (fun _ _ _ => rfl) htask

theorem progress_entry {s : TaskStep} (hs : s ∈ db.taskSteps) (hd : s.isDeleted = false) :
    s.progress db ∈ db.progress s.taskId :=
  mem_progress.mpr ⟨s, hs, rfl, hd, rfl⟩

theorem moved (inv : TaskInv db) (hchain : ChainInv db') {step s : TaskStep}
    {newState : TaskStepState} (h : Moved step newState now db db') (hs : s ∈ db.taskSteps)
    (hid : s.clientId = step.clientId) (htask : s.taskId = step.taskId)
    (hd : s.isDeleted = false) (hopen : s.state.isTerminal = false)
    (hstart : newState = .working → ∀ t ∈ db.tasks, t.clientId = step.taskId →
      t.state ≠ .pending) : TaskInv db' := by
  refine inv.update hchain h.tasks (fun t => Task.afterMove_clientId) ?_ ?_ ?_
  · intro s' hs'
    have hmem : s'.taskId ∈ db'.taskSteps.map (·.taskId) := List.mem_map_of_mem hs'
    rw [h.owners] at hmem
    obtain ⟨s₀, hs₀, hid₀⟩ := List.mem_map.mp hmem
    exact hid₀ ▸ inv.owned s₀ hs₀
  · intro t ht hne
    rw [h.progress]
    refine updateWhere_of_forall_not fun e he => ?_
    obtain ⟨s₀, hs₀, htask₀, -, rfl⟩ := mem_progress.mp he
    refine beq_eq_false_iff_ne.mpr fun hid₀ => hne ?_
    obtain rfl := inv.chain.keyedSteps.inj hs₀ hs (hid₀.trans hid.symm)
    exact htask₀.symm.trans htask
  · intro t ht hid₀
    have hcons := inv.consistent t ht
    rw [hid₀] at hcons
    rw [h.progress]
    refine hcons.move ⟨s.progress db, ?_, hid, hopen⟩ fun hw => hstart hw t ht hid₀
    exact htask ▸ progress_entry hs hd

end TaskInv

section Moved

variable {step : TaskStep} {newState : TaskStepState}

theorem Moved.endKept (h : Moved step newState now db db') : EndKept db db' :=
  .of_update h.tasks (fun _ => Task.afterMove_clientId)
    fun t _ _ hterm => by rw [Task.afterMove_of_isTerminal hterm]

theorem Task.afterMove_pending {t : Task} {progress : List StepProgress}
    (h : (t.afterMove newState progress now).state = .pending) : t.state = .pending := by
  revert h
  rw [Task.afterMove, Task.advance, Task.evaluate]
  split_ifs <;> simp

theorem Moved.nonePending (h : Moved step newState now db db') : NonePending db db' := by
  intro t' ht' hp
  rw [h.tasks] at ht'
  obtain ⟨t, ht, rfl⟩ := mem_updateWhere.mp ht'
  refine ⟨t, ht, ?_⟩
  split at hp
  · rename_i hid
    rw [if_pos hid]
    exact ⟨Task.afterMove_clientId.symm, Task.afterMove_pending hp⟩
  · rename_i hid
    rw [if_neg hid]
    exact ⟨rfl, hp⟩

end Moved

section Transitions

variable {step : TaskStep} {t : StepTransition}

theorem autoPause_life (inv : TaskInv db) (h : autoPause db limit step t now = .ok db') :
    TaskInv db' ∧ EndKept db db' ∧ NonePending db db' := by
  have hchain := (autoPause_keeps inv.chain h).1
  rcases autoPause_moved h with rfl | ⟨row, hrow, hmoved⟩
  · exact ⟨inv, .refl _, fun t' ht' hp => ⟨t', ht', rfl, hp⟩⟩
  · obtain ⟨hr, -, hw, ho, -, -⟩ := mem_openUserWorkingRows.mp hrow
    obtain ⟨hs, hsid, hd, -⟩ := step_of_openUserWorkingRows hrow
    obtain ⟨closed, hlog⟩ := inv.chain.log_of_open hs hd hr hsid.symm ho
    refine ⟨inv.moved hchain hmoved hs rfl rfl hd ?_ (by simp), hmoved.endKept,
      hmoved.nonePending⟩
    rw [← hlog.state, hw]
    rfl

theorem closeAndOpen_life (inv : TaskInv db) {s : TaskStep} {closing : StepStateRecord}
    (hs : s ∈ db.taskSteps) (hcore : s.core = step.core) (hd : step.isDeleted = false)
    (hstate : step.state.isTerminal = false) (hc : closing ∈ db.stepStateRecords)
    (hcs : closing.stepId = step.clientId) (ho : closing.exitedAt = none)
    (hstart : t.newState = .working → ∀ u ∈ db.tasks, u.clientId = step.taskId →
      u.state ≠ .pending)
    (h : closeAndOpen db step closing t now = .ok db') :
    TaskInv db' ∧ EndKept db db' ∧ NonePending db db' := by
  obtain ⟨hid, htask, hst, -, -, -, -, hdeleted⟩ := TaskStep.core_eq hcore
  have hopen : s.state.isTerminal = false := hst ▸ hstate
  have hchain := (closeAndOpen_keeps inv.chain hs hid (hdeleted.trans hd) hopen hc hcs ho h).1
  have hmoved := closeAndOpen_moved h
  exact ⟨inv.moved hchain hmoved hs hid htask (hdeleted.trans hd) hopen hstart, hmoved.endKept,
    hmoved.nonePending⟩

theorem transitionStepState_life (inv : TaskInv db) {request : TransitionStepStateRequest}
    {newRecordId autoPauseRecordId : ClientId}
    (hstart : request.newState = .working → ∀ u ∈ db.tasks, u.clientId = request.taskId →
      u.state ≠ .pending)
    (h : transitionStepState db ctx request limit now newRecordId autoPauseRecordId = .ok db') :
    TaskInv db' ∧ EndKept db db' := by
  obtain ⟨step, hstep, hallowed, db₁, closing, hpause, hclosing, h⟩ := transitionStepState_eq_ok h
  obtain ⟨hs, -, htask, hd⟩ := fetchStepOfTask_eq_some hstep
  obtain ⟨-, -, hsame⟩ := autoPause_keeps inv.chain hpause
  obtain ⟨inv₁, hend₁, hpending₁⟩ := autoPause_life inv hpause
  obtain ⟨s, hs₁, hcore⟩ := hsame step hs rfl
  obtain ⟨hc, hcs, ho⟩ := openRecord_eq_some hclosing
  have hopen : step.state.isTerminal = false := by
    by_contra ht
    exact not_mem_allowedTransitions_of_isTerminal (by simpa using ht) hallowed
  obtain ⟨inv₂, hend₂, -⟩ := closeAndOpen_life inv₁ hs₁ hcore hd hopen hc hcs ho
    (fun hw u hu hid hp => by
      obtain ⟨u₀, hu₀, hid₀, hp₀⟩ := hpending₁ u hu hp
      exact hstart hw u₀ hu₀ (hid₀.trans (hid.trans htask)) hp₀) h
  exact ⟨inv₂, hend₁.trans hend₂⟩

theorem transitionStepStateBatch_life (inv : TaskInv db)
    {request : BatchTransitionStepStateRequest}
    {newRecordId autoPauseRecordId : ClientId → ClientId}
    (hstart : request.newState = .working → ∀ item ∈ request.items, ∀ u ∈ db.tasks,
      u.clientId = item.taskId → u.state ≠ .pending)
    (h : transitionStepStateBatch db ctx request limit now newRecordId autoPauseRecordId =
      .ok db') : TaskInv db' ∧ EndKept db db' := by
  have hloop := transitionStepStateBatch_loop inv.chain
    (fun l db₁ => (TaskInv db₁ ∧ EndKept db db₁) ∧ (request.newState = .working →
      ∀ x ∈ l, ∀ u ∈ db₁.tasks, u.clientId = x.2.1.taskId → u.state ≠ .pending)) ?_ ?_ h
  · exact hloop.1
  · refine ⟨⟨inv, .refl db⟩, fun hw x hx u hu hid => hstart hw x.1 (mem_loadBatch hx).1 u hu ?_⟩
    -- an accepted item names the task of its step
    have hnone := (transitionStepStateBatch_eq_ok h).1 x.1 (mem_loadBatch hx).1
    rw [batchItemError, (mem_loadBatch hx).2.1] at hnone
    dsimp only at hnone
    split at hnone
    · cases hnone
    · rename_i htask
      rw [hid, ← not_not.mp htask]
  · rintro x l db₁ db₂ inv₁ ⟨⟨hinv, hend⟩, hpending⟩ hloaded - h₁
    have hx := hloaded x List.mem_cons_self
    obtain ⟨s, hs, hcore⟩ := hx.step
    obtain ⟨inv₂, hend₂, hpending₂⟩ := closeAndOpen_life hinv hs hcore hx.live hx.state hx.record
      hx.recordOf hx.isOpen (fun hw => hpending hw x List.mem_cons_self) h₁
    refine ⟨⟨inv₂, hend.trans hend₂⟩, fun hw y hy u hu hid hp => ?_⟩
    obtain ⟨u₀, hu₀, hid₀, hp₀⟩ := hpending₂ u hu hp
    exact hpending hw y (List.mem_cons_of_mem x hy) u₀ hu₀ (hid₀.trans hid) hp₀

end Transitions

end BeyoManager.TaskSteps
