import BeyoManager.Workers.Tended

/-! # What an event does to rows and executions

When no pass of the router is overtaken and a worker only writes to a task that its execution still
holds, each row and each execution after an event is read back to what it was before it.
-/

namespace BeyoManager.Workers

open Relational Transition

/-- A worker that leaves its task changes the row as it read it. -/
def ExitSession.Writes (session : ExitSession) : Prop :=
  session.exit.rewrite session.now session.read ≠ session.read

instance (session : ExitSession) : Decidable session.Writes := inferInstanceAs (Decidable (¬ _))

/-- No pass writes a row that was overtaken, and no worker writes to a task that its execution does
not hold. -/
def Exclusive (s : System) : Event → Prop
  | .commitPass => ∀ session ∈ s.router, NotOvertaken s session
  | .commitExit number => ∀ e ∈ s.executions, e.claim.number = number →
    ∀ session ∈ e.exiting, session.Writes → s.Holds e
  | .commitUnclaimedRescue session => session.read.state ≠ .inProgress
  | _ => True

instance (s : System) : (event : Event) → Decidable (Exclusive s event)
  | .commitPass => inferInstanceAs (Decidable (∀ session ∈ s.router, _))
  | .commitExit _ => inferInstanceAs (Decidable (∀ e ∈ s.executions, _))
  | .commitUnclaimedRescue _ => inferInstanceAs (Decidable (¬ _))
  | .advance _ | .createExecutionTask _ _ _ | .readPass _ _ | .abortPass | .claimTask _ _
  | .readExit _ _ | .abortExit _ | .stopWorker _ | .readUnclaimedRescue _ => .isTrue trivial

/-- The tasks are tended, and an execution holds its task unless it was recovered or rescued. -/
structure Attended (s : System) : Prop extends Coherent s where
  rows : ∀ id task, s.tasks id = some task → Tended task
  reads : ∀ session ∈ s.router, session.now ≤ s.clock ∧ ∀ id read,
    session.read? id = some read → Tended read ∧ ∃ task, s.tasks id = some task ∧ Behind read task
  claims : ∀ e ∈ s.executions, ∃ task c, s.tasks e.taskId = some task ∧ task.claim = some c ∧
    e.claim.number ≤ c.number
  holds : ∀ e ∈ s.executions, e.recovered = false → e.rescued = false → s.Holds e
  stale : ∀ e ∈ s.executions, e.recovered = true → e.claim.claimedAt + staleInProgress < s.clock
  exits : ∀ e ∈ s.executions, ∀ session ∈ e.exiting, s.Holds e →
    s.tasks e.taskId = some session.read

/-- What becomes of a row in an event that is no commit of the router. -/
inductive WorkerStep (s s' : System) (id : ClientId) (task : ExecutionTask) : ExecutionTask → Prop
  | same : WorkerStep s s' id task task
  | claim (workerId : String) (hpending : task.state = .pending)
      (hruns : ∃ e ∈ s'.executions, e.taskId = id ∧ e.claim = ⟨s.nextClaim, s.clock⟩) :
      WorkerStep s s' id task (task.claimedBy workerId ⟨s.nextClaim, s.clock⟩)
  | exit (e : Execution) (exit : Exit) (now : Instant) (hid : e.taskId = id) (hholds : s.Holds e)
      (hleft : ∀ e' ∈ s'.executions, e'.claim.number = e.claim.number → e'.rescued = true) :
      WorkerStep s s' id task (exit.rewrite now task)

structure Continues (s : System) (event : Event) (s' : System) (e e' : Execution) : Prop where
  taskId : e'.taskId = e.taskId
  claim : e'.claim = e.claim
  rescued : e'.rescued = false → e.rescued = false
  recovered : e'.recovered = false → e.recovered = false
  stale : e'.recovered = true →
    e.recovered = true ∨ event = .commitPass ∧ ∃ session ∈ s.router, s.Recovers session e
  recovers : event = .commitPass → ∀ session ∈ s.router, s.Recovers session e → e'.recovered = true
  exiting : ∀ session ∈ e'.exiting,
    session ∈ e.exiting ∨ s.tasks e.taskId = some session.read ∧ s'.tasks = s.tasks

section Steps

variable {s s' : System} {event : Event} {id : ClientId} {task task' read : ExecutionTask}
  {e e' : Execution} {session : RouterSession}

theorem commitExit_row (h : Attended s) (he : e ∈ s.executions)
    (hcond : Exclusive s (.commitExit e.claim.number)) {session : ExitSession}
    (hsession : e.exiting = some session) (htask : s.tasks e.taskId = some task) :
    session.commitRow task = task ∨
      s.Holds e ∧ session.commitRow task = session.exit.rewrite session.now task := by
  by_cases hwrites : session.Writes
  · right
    have hholds := hcond e he rfl session hsession hwrites
    obtain rfl := Option.some.inj (htask.symm.trans (h.exits e he session hsession hholds))
    obtain ⟨htype, hmax, hclaim⟩ := session.exit.rewrite_fixed session.now session.read
    exact ⟨hholds, writeBack_read htype hmax hclaim⟩
  · left
    rw [ExitSession.commitRow, not_not.mp hwrites, writeBack_same]

/-- What becomes of a row in an event that is no commit of the router. -/
theorem workerStep (h : Attended s) (hcond : Exclusive s event) (hok : step s event = .ok s')
    (hevent : event ≠ .commitPass) (htask : s.tasks id = some task) :
    ∃ task', s'.tasks id = some task' ∧ WorkerStep s s' id task task' := by
  cases event with
  | commitPass => exact absurd rfl hevent
  | advance elapsed =>
    cases hok
    exact ⟨task, htask, .same⟩
  | createExecutionTask taskId taskType maxTry =>
    obtain ⟨hnone, rfl⟩ := step_createExecutionTask hok
    have hne : id ≠ taskId := by
      rintro rfl
      cases hnone.symm.trans htask
    exact ⟨task, (Function.update_of_ne hne _ _).trans htask, .same⟩
  | readPass pass taskIds =>
    obtain ⟨-, -, rfl⟩ := step_readPass hok
    exact ⟨task, htask, .same⟩
  | abortPass =>
    cases hok
    exact ⟨task, htask, .same⟩
  | claimTask taskId workerId =>
    obtain ⟨pendingTask, hpendingTask, hpending, rfl⟩ := step_claimTask hok
    by_cases hid : id = taskId
    · subst hid
      obtain rfl := Option.some.inj (htask.symm.trans hpendingTask)
      exact ⟨_, writeTask_self htask, .claim workerId hpending
        ⟨_, List.mem_append_right _ List.mem_cons_self, rfl, rfl⟩⟩
    · exact ⟨task, (writeTask_of_ne hid).trans htask, .same⟩
  | readExit number exit =>
    obtain ⟨e, -, -, -, -, _, -, rfl⟩ := step_readExit hok
    exact ⟨task, htask, .same⟩
  | commitExit number =>
    obtain ⟨e, he, rfl, session, hsession, rfl⟩ := step_commitExit hok
    by_cases hid : id = e.taskId
    · subst hid
      refine ⟨_, writeTask_self htask, ?_⟩
      rcases commitExit_row h he hcond hsession htask with hrow | ⟨hholds, hrow⟩
      · rw [hrow]
        exact .same
      · rw [hrow]
        refine .exit e _ _ rfl hholds fun e' he' hnumber => ?_
        rcases mem_executionsAfter h.keyed he he' with ⟨-, hne⟩ | rfl
        · exact absurd hnumber hne
        · rfl
    · exact ⟨task, (writeTask_of_ne hid).trans htask, .same⟩
  | abortExit number =>
    cases hok
    exact ⟨task, htask, .same⟩
  | stopWorker number =>
    cases hok
    exact ⟨task, htask, .same⟩
  | readUnclaimedRescue taskId =>
    obtain ⟨_, -, rfl⟩ := step_readUnclaimedRescue hok
    exact ⟨task, htask, .same⟩
  | commitUnclaimedRescue session =>
    rw [h.tasks_commitUnclaimedRescue hcond hok]
    exact ⟨task, htask, .same⟩

/-- A row that an event adds to the table is a new one. -/
theorem tasks_of_none (hok : step s event = .ok s') (hnone : s.tasks id = none)
    (htask : s'.tasks id = some task') : ∃ taskType maxTry, task' = newTask taskType maxTry := by
  have hwrite : ∀ taskId f, s.writeTask taskId f id = none := by
    intro taskId f
    by_cases hid : id = taskId
    · subst hid
      rw [System.writeTask, Function.update_self, hnone, Option.map_none]
    · rw [writeTask_of_ne hid, hnone]
  cases event with
  | createExecutionTask taskId taskType maxTry =>
    obtain ⟨-, rfl⟩ := step_createExecutionTask hok
    by_cases hid : id = taskId
    · subst hid
      have htask : Function.update s.tasks id (some (newTask taskType maxTry)) id = some task' :=
        htask
      rw [Function.update_self] at htask
      exact ⟨taskType, maxTry, (Option.some.inj htask).symm⟩
    · cases hnone.symm.trans ((Function.update_of_ne hid _ _).symm.trans htask)
  | commitPass =>
    obtain ⟨session, -, rfl⟩ := step_commitPass hok
    simp [hnone] at htask
  | claimTask taskId workerId =>
    obtain ⟨_, -, -, rfl⟩ := step_claimTask hok
    cases (hwrite _ _).symm.trans htask
  | commitExit number =>
    obtain ⟨e, -, -, session, -, rfl⟩ := step_commitExit hok
    cases (hwrite _ _).symm.trans htask
  | commitUnclaimedRescue session =>
    obtain ⟨-, rfl⟩ := step_commitUnclaimedRescue hok
    cases (hwrite _ _).symm.trans htask
  | readPass pass taskIds =>
    obtain ⟨-, -, rfl⟩ := step_readPass hok
    cases hnone.symm.trans htask
  | readExit number exit =>
    obtain ⟨e, -, -, -, -, _, -, rfl⟩ := step_readExit hok
    cases hnone.symm.trans htask
  | readUnclaimedRescue taskId =>
    obtain ⟨_, -, rfl⟩ := step_readUnclaimedRescue hok
    cases hnone.symm.trans htask
  | advance elapsed =>
    cases hok
    cases hnone.symm.trans htask
  | abortPass =>
    cases hok
    cases hnone.symm.trans htask
  | abortExit number =>
    cases hok
    cases hnone.symm.trans htask
  | stopWorker number =>
    cases hok
    cases hnone.symm.trans htask

theorem commitPass_row (h : Attended s) (hcond : Exclusive s .commitPass)
    (hsession : s.router = some session) (htask : s.tasks id = some task) :
    session.commitRow id task = task ∧ session.read? id = none ∨
      ∃ read, session.read? id = some read ∧ Behind read task ∧ ¬ Overtaken read task ∧
        Tended (session.commitRow id task) ∧
          (session.commitRow id task).state ≠ .inProgress := by
  cases hread : session.read? id with
  | none => exact .inl ⟨commitRow_of_none hread, rfl⟩
  | some read =>
    right
    obtain ⟨htended, task', htask', hbehind⟩ := (h.reads session hsession).2 id read hread
    obtain rfl := Option.some.inj (htask.symm.trans htask')
    have hnot := (hcond session hsession).of_read? hread htask
    refine ⟨read, rfl, hbehind, hnot, ?_⟩
    rw [commitRow_of_read? hread]
    exact htended.writeBack (h.rows id task htask) (h.selected session hsession id read hread)
      hbehind hnot

theorem commitRow_claim : (session.commitRow id task).claim = task.claim := by
  unfold RouterSession.commitRow
  split <;> rfl

theorem Continues.refl (hevent : event ≠ .commitPass) (e : Execution) :
    Continues s event s' e e where
  taskId := rfl
  claim := rfl
  rescued := id
  recovered := id
  stale := .inl
  recovers h := absurd h hevent
  exiting _ := .inl

/-- Each execution after an event is an earlier one, or the one of the task that is claimed. -/
theorem execution_origin (h : Coherent s) (hok : step s event = .ok s') (he' : e' ∈ s'.executions) :
    (∃ e ∈ s.executions, Continues s event s' e e') ∨
      ∃ taskId workerId, event = .claimTask taskId workerId ∧
        e' = ⟨taskId, ⟨s.nextClaim, s.clock⟩, none, false, false⟩ := by
  cases event with
  | advance elapsed =>
    cases hok
    exact .inl ⟨e', he', .refl (by simp) e'⟩
  | createExecutionTask taskId taskType maxTry =>
    obtain ⟨-, rfl⟩ := step_createExecutionTask hok
    exact .inl ⟨e', he', .refl (by simp) e'⟩
  | readPass pass taskIds =>
    obtain ⟨-, -, rfl⟩ := step_readPass hok
    exact .inl ⟨e', he', .refl (by simp) e'⟩
  | commitPass =>
    obtain ⟨session, hsession, rfl⟩ := step_commitPass hok
    obtain ⟨e, he, rfl⟩ := mem_updateWhere.mp he'
    refine .inl ⟨e, he, ?_⟩
    split
    · rename_i hrecovers
      have hrecovers : s.Recovers session e := by simpa using hrecovers
      exact ⟨rfl, rfl, id, nofun, fun _ => .inr ⟨rfl, session, hsession, hrecovers⟩,
        fun _ _ _ _ => rfl, fun _ => .inl⟩
    · rename_i hrecovers
      refine ⟨rfl, rfl, id, id, .inl, ?_, fun _ => .inl⟩
      intro _ session' hsession' hrecovers'
      obtain rfl := Option.some.inj (hsession.symm.trans hsession')
      exact absurd (by simpa using hrecovers') hrecovers
  | abortPass =>
    cases hok
    exact .inl ⟨e', he', .refl (by simp) e'⟩
  | claimTask taskId workerId =>
    obtain ⟨task, -, -, rfl⟩ := step_claimTask hok
    rcases List.mem_append.mp he' with he' | he'
    · exact .inl ⟨e', he', .refl (by simp) e'⟩
    · exact .inr ⟨taskId, workerId, rfl, List.mem_singleton.mp he'⟩
  | readExit number exit =>
    obtain ⟨e, he, rfl, -, -, task, htask, rfl⟩ := step_readExit hok
    rcases h.keyed.mem_update he he' with rfl | ⟨hmem, -⟩
    · refine .inl ⟨e, he, rfl, rfl, id, id, .inl, nofun, ?_⟩
      intro session hsession
      obtain rfl := Option.some.inj hsession
      exact .inr ⟨htask, rfl⟩
    · exact .inl ⟨e', hmem, .refl (by simp) e'⟩
  | commitExit number =>
    obtain ⟨e, he, rfl, session, -, rfl⟩ := step_commitExit hok
    rcases mem_executionsAfter h.keyed he he' with ⟨hmem, -⟩ | rfl
    · exact .inl ⟨e', hmem, .refl (by simp) e'⟩
    · refine .inl ⟨e, he, rfl, rfl, ?_, id, .inl, ?_, ?_⟩
      · intro hrescued
        cases hrescued
      · intro hevent
        cases hevent
      · intro session hsession
        cases hsession
  | abortExit number =>
    cases hok
    obtain ⟨e, he, rfl⟩ := mem_updateWhere.mp he'
    refine .inl ⟨e, he, ?_⟩
    split
    · refine ⟨rfl, rfl, id, id, .inl, ?_, ?_⟩
      · intro hevent
        cases hevent
      · intro session hsession
        cases hsession
    · exact .refl (by simp) e
  | stopWorker number =>
    cases hok
    exact .inl ⟨e', (mem_deleteWhere.mp he').1, .refl (by simp) e'⟩
  | readUnclaimedRescue taskId =>
    obtain ⟨_, -, rfl⟩ := step_readUnclaimedRescue hok
    exact .inl ⟨e', he', .refl (by simp) e'⟩
  | commitUnclaimedRescue session =>
    obtain ⟨-, rfl⟩ := step_commitUnclaimedRescue hok
    exact .inl ⟨e', he', .refl (by simp) e'⟩

theorem clock_le (hok : step s event = .ok s') : s.clock ≤ s'.clock := by
  cases event with
  | advance elapsed =>
    cases hok
    exact le_add_of_nonneg_right (Int.natCast_nonneg elapsed)
  | createExecutionTask => obtain ⟨-, rfl⟩ := step_createExecutionTask hok; exact le_rfl
  | readPass => obtain ⟨-, -, rfl⟩ := step_readPass hok; exact le_rfl
  | commitPass => obtain ⟨_, -, rfl⟩ := step_commitPass hok; exact le_rfl
  | abortPass => cases hok; exact le_rfl
  | claimTask => obtain ⟨_, -, -, rfl⟩ := step_claimTask hok; exact le_rfl
  | readExit => obtain ⟨_, -, -, -, -, _, -, rfl⟩ := step_readExit hok; exact le_rfl
  | commitExit => obtain ⟨_, -, -, _, -, rfl⟩ := step_commitExit hok; exact le_rfl
  | abortExit => cases hok; exact le_rfl
  | stopWorker => cases hok; exact le_rfl
  | readUnclaimedRescue => obtain ⟨_, -, rfl⟩ := step_readUnclaimedRescue hok; exact le_rfl
  | commitUnclaimedRescue => obtain ⟨-, rfl⟩ := step_commitUnclaimedRescue hok; exact le_rfl

/-- The session of the router after an event is the one before it, or has just read the table. -/
theorem router_origin (hok : step s event = .ok s') (hsession : session ∈ s'.router) :
    session ∈ s.router ∧ event ≠ .commitPass ∨
      session.now = s.clock ∧ session.rows = s.tasks ∧ s'.tasks = s.tasks := by
  cases event with
  | advance => cases hok; exact .inl ⟨hsession, nofun⟩
  | createExecutionTask =>
    obtain ⟨-, rfl⟩ := step_createExecutionTask hok; exact .inl ⟨hsession, nofun⟩
  | readPass =>
    obtain ⟨-, -, rfl⟩ := step_readPass hok
    obtain rfl := Option.some.inj hsession
    exact .inr ⟨rfl, rfl, rfl⟩
  | commitPass => obtain ⟨_, -, rfl⟩ := step_commitPass hok; cases hsession
  | abortPass => cases hok; cases hsession
  | claimTask => obtain ⟨_, -, -, rfl⟩ := step_claimTask hok; exact .inl ⟨hsession, nofun⟩
  | readExit => obtain ⟨_, -, -, -, -, _, -, rfl⟩ := step_readExit hok; exact .inl ⟨hsession, nofun⟩
  | commitExit => obtain ⟨_, -, -, _, -, rfl⟩ := step_commitExit hok; exact .inl ⟨hsession, nofun⟩
  | abortExit => cases hok; exact .inl ⟨hsession, nofun⟩
  | stopWorker => cases hok; exact .inl ⟨hsession, nofun⟩
  | readUnclaimedRescue =>
    obtain ⟨_, -, rfl⟩ := step_readUnclaimedRescue hok; exact .inl ⟨hsession, nofun⟩
  | commitUnclaimedRescue =>
    obtain ⟨-, rfl⟩ := step_commitUnclaimedRescue hok; exact .inl ⟨hsession, nofun⟩

end Steps

end BeyoManager.Workers
