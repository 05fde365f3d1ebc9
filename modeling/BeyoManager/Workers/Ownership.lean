import BeyoManager.Workers.Sessions

/-! # Finished tasks stay finished

A running execution holds its task until its worker leaves it, and a finished task is not written
again, in every run in which no pass of the router writes a task that was claimed or finished after
the pass had read it. A pass that was overtaken reopens a completed task.
-/

namespace BeyoManager.Workers

open Relational Transition

/-- The task was claimed or finished after a pass had read it. -/
def Overtaken (read task : ExecutionTask) : Prop :=
  task.state.terminal = true ∨ task.state = .inProgress ∧ read.state ≠ .inProgress

instance (read task : ExecutionTask) : Decidable (Overtaken read task) :=
  inferInstanceAs (Decidable (_ ∨ _))

/-- None of the rows that a pass is about to write was overtaken. -/
def NotOvertaken (s : System) (session : RouterSession) : Prop :=
  ∀ id ∈ session.taskIds, ∀ read ∈ session.rows id, ∀ task ∈ s.tasks id, ¬ Overtaken read task

instance (s : System) (session : RouterSession) : Decidable (NotOvertaken s session) :=
  inferInstanceAs (Decidable (∀ id ∈ session.taskIds, _))

/-- What the sessions and the executions agree on in every state. -/
structure Coherent (s : System) : Prop where
  keyed : Keyed (fun e : Execution => e.claim.number) s.executions
  fresh : ∀ e ∈ s.executions, e.claim.number < s.nextClaim
  stays : ∀ e ∈ s.executions, e.rescued = true → e.exiting = none
  selected : ∀ session ∈ s.router, ∀ id read, session.read? id = some read →
    session.pass.selects session.now read = true
  rescues : ∀ session ∈ s.unclaimedRescues, session.exit = .rescueInFlightTask

/-- What keeps the executions and the router out of each other's way: no pass writes a row that was
overtaken, the stale cleanup recovers no task whose execution still holds it, and no worker rescues
a task in progress that it has not claimed. -/
def Undisturbed (s : System) : Event → Prop
  | .commitPass => ∀ session ∈ s.router,
    NotOvertaken s session ∧ ∀ e ∈ s.executions, ¬ s.Recovers session e
  | .commitUnclaimedRescue session => session.read.state ≠ .inProgress
  | _ => True

instance (s : System) : (event : Event) → Decidable (Undisturbed s event)
  | .commitPass => inferInstanceAs (Decidable (∀ session ∈ s.router, _))
  | .commitUnclaimedRescue _ => inferInstanceAs (Decidable (¬ _))
  | .advance _ | .createExecutionTask _ _ _ | .readPass _ _ | .abortPass | .claimTask _ _
  | .readExit _ _ | .commitExit _ | .abortExit _ | .stopWorker _ | .readUnclaimedRescue _ =>
    .isTrue trivial

/-- An execution holds its task as long as it runs. -/
structure Owned (s : System) : Prop extends Coherent s where
  holds : ∀ e ∈ s.executions, e.rescued = false → s.Holds e

section Frames

variable {s s' : System} {e e' : Execution} {session : RouterSession} {id : ClientId}
  {read task : ExecutionTask}

theorem holds_congr (h : s'.tasks e.taskId = s.tasks e.taskId) : s'.Holds e ↔ s.Holds e := by
  unfold System.Holds
  rw [h]

theorem holds_row (h : s.Holds e) (htask : s.tasks e.taskId = some task) :
    task.state = .inProgress ∧ task.claim = some e.claim := by
  obtain ⟨task', htask', hrow⟩ := h
  obtain rfl := Option.some.inj (htask.symm.trans htask')
  exact hrow

theorem read?_eq_some :
    session.read? id = some read ↔ id ∈ session.taskIds ∧ session.rows id = some read := by
  unfold RouterSession.read?
  split
  · rename_i hid
    exact (and_iff_right hid).symm
  · rename_i hid
    simp [hid]

theorem NotOvertaken.of_read? (h : NotOvertaken s session) (hread : session.read? id = some read)
    (htask : s.tasks id = some task) : ¬ Overtaken read task := by
  obtain ⟨hid, hrow⟩ := read?_eq_some.mp hread
  exact h id hid read hrow task htask

theorem writeTask_of_ne {f : ExecutionTask → ExecutionTask} {taskId : ClientId} (h : id ≠ taskId) :
    s.writeTask taskId f id = s.tasks id :=
  Function.update_of_ne h _ _

theorem writeTask_self {f : ExecutionTask → ExecutionTask} (h : s.tasks id = some task) :
    s.writeTask id f id = some (f task) := by
  rw [System.writeTask, Function.update_self, h, Option.map_some]

theorem writeTask_of_fixed {f : ExecutionTask → ExecutionTask}
    (h : ∀ task, s.tasks id = some task → f task = task) : s.writeTask id f = s.tasks := by
  funext id'
  by_cases hid : id' = id
  · subst hid
    cases htask : s.tasks id' with
    | none => rw [System.writeTask, Function.update_self, htask, Option.map_none]
    | some task => rw [writeTask_self htask, h task htask]
  · exact writeTask_of_ne hid

theorem commitRow_of_read? (h : session.read? id = some read) :
    session.commitRow id task = writeBack read (session.pass.rewrite session.now read) task := by
  rw [RouterSession.commitRow, h]

theorem commitRow_of_none (h : session.read? id = none) : session.commitRow id task = task := by
  rw [RouterSession.commitRow, h]

theorem mem_executionsAfter (hk : Keyed (fun e : Execution => e.claim.number) s.executions)
    (he : e ∈ s.executions) {exit : Exit} (he' : e' ∈ s.executionsAfter e.claim.number exit) :
    e' ∈ s.executions ∧ e'.claim.number ≠ e.claim.number ∨
      e' = { e with exiting := none, rescued := true } := by
  unfold System.executionsAfter at he'
  split at he'
  · exact (hk.mem_update he he').symm
  · obtain ⟨hmem, hnumber⟩ := mem_deleteWhere.mp he'
    exact .inl ⟨hmem, by simpa using hnumber⟩

theorem keyed_executionsAfter (hk : Keyed (fun e : Execution => e.claim.number) s.executions)
    (number : ℕ) (exit : Exit) :
    Keyed (fun e : Execution => e.claim.number) (s.executionsAfter number exit) := by
  unfold System.executionsAfter
  split
  · exact keyed_update hk fun _ _ _ => rfl
  · exact keyed_delete hk _

theorem holds_claim_eq (h : s.Holds e) (h' : s.Holds e') (htask : e.taskId = e'.taskId) :
    e.claim = e'.claim := by
  obtain ⟨task, hrow, -, hclaim⟩ := h
  obtain ⟨task', hrow', -, hclaim'⟩ := h'
  rw [htask] at hrow
  obtain rfl := Option.some.inj (hrow.symm.trans hrow')
  exact Option.some.inj (hclaim.symm.trans hclaim')

end Frames

section Coherence

variable {s s' : System} {event : Event}

theorem coherent_start (clock : Instant) : Coherent (System.start clock) where
  keyed := List.nodup_nil
  fresh := by simp [System.start]
  stays := by simp [System.start]
  selected := by simp [System.start]
  rescues := by simp [System.start]

/-- A coherent state is coherent after every event. -/
theorem Coherent.step (h : Coherent s) (hok : step s event = .ok s') : Coherent s' := by
  cases event with
  | advance elapsed =>
    cases hok
    exact ⟨h.keyed, h.fresh, h.stays, h.selected, h.rescues⟩
  | createExecutionTask taskId taskType maxTry =>
    obtain ⟨-, rfl⟩ := step_createExecutionTask hok
    exact ⟨h.keyed, h.fresh, h.stays, h.selected, h.rescues⟩
  | readPass pass taskIds =>
    obtain ⟨-, hselected, rfl⟩ := step_readPass hok
    refine ⟨h.keyed, h.fresh, h.stays, ?_, h.rescues⟩
    rintro session hsession id read hread
    obtain rfl := Option.some.inj hsession
    obtain ⟨hid, hrow⟩ := read?_eq_some.mp hread
    have hrow : s.tasks id = some read := hrow
    have := hselected id hid
    rwa [hrow] at this
  | commitPass =>
    obtain ⟨session, -, rfl⟩ := step_commitPass hok
    refine ⟨keyed_update h.keyed fun _ _ _ => rfl, ?_, ?_, by simp, h.rescues⟩
    · intro e' he'
      obtain ⟨e, he, rfl⟩ := mem_updateWhere.mp he'
      split <;> exact h.fresh e he
    · intro e' he'
      obtain ⟨e, he, rfl⟩ := mem_updateWhere.mp he'
      split <;> exact h.stays e he
  | abortPass =>
    cases hok
    exact ⟨h.keyed, h.fresh, h.stays, by simp, h.rescues⟩
  | claimTask taskId workerId =>
    obtain ⟨task, -, -, rfl⟩ := step_claimTask hok
    refine ⟨?_, ?_, ?_, h.selected, h.rescues⟩
    · refine keyed_append.mpr ⟨h.keyed, List.nodup_singleton _, fun e he e' he' => ?_⟩
      obtain rfl := List.mem_singleton.mp he'
      exact (h.fresh e he).ne
    · intro e he
      rcases List.mem_append.mp he with he | he
      · exact (h.fresh e he).trans (Nat.lt_succ_self _)
      · obtain rfl := List.mem_singleton.mp he
        exact Nat.lt_succ_self _
    · intro e he
      rcases List.mem_append.mp he with he | he
      · exact h.stays e he
      · obtain rfl := List.mem_singleton.mp he
        exact fun _ => rfl
  | readExit number exit =>
    obtain ⟨e, he, rfl, -, hrescued, task, -, rfl⟩ := step_readExit hok
    refine ⟨keyed_update h.keyed fun _ _ _ => rfl, ?_, ?_, h.selected, h.rescues⟩
    · intro e' he'
      obtain ⟨x, hx, rfl⟩ := mem_updateWhere.mp he'
      split <;> exact h.fresh x hx
    · intro e' he' hrescued'
      rcases h.keyed.mem_update he he' with rfl | ⟨hmem, -⟩
      · cases hrescued.symm.trans hrescued'
      · exact h.stays e' hmem hrescued'
  | commitExit number =>
    obtain ⟨e, he, rfl, session, -, rfl⟩ := step_commitExit hok
    refine ⟨keyed_executionsAfter h.keyed _ _, ?_, ?_, h.selected, h.rescues⟩
    · intro e' he'
      rcases mem_executionsAfter h.keyed he he' with ⟨hmem, -⟩ | rfl
      · exact h.fresh e' hmem
      · exact h.fresh e he
    · intro e' he' hrescued
      rcases mem_executionsAfter h.keyed he he' with ⟨hmem, -⟩ | rfl
      · exact h.stays e' hmem hrescued
      · rfl
  | abortExit number =>
    cases hok
    refine ⟨keyed_update h.keyed fun _ _ _ => rfl, ?_, ?_, h.selected, h.rescues⟩
    · intro e' he'
      obtain ⟨e, he, rfl⟩ := mem_updateWhere.mp he'
      split <;> exact h.fresh e he
    · intro e' he' hrescued
      obtain ⟨e, he, rfl⟩ := mem_updateWhere.mp he'
      split at hrescued
      · rename_i hnumber
        rw [if_pos hnumber]
      · rename_i hnumber
        rw [if_neg hnumber]
        exact h.stays e he hrescued
  | stopWorker number =>
    cases hok
    have hsub : ∀ e ∈ s.removeExecution number, e ∈ s.executions :=
      fun e he => (mem_deleteWhere.mp he).1
    exact ⟨keyed_delete h.keyed _, fun e he => h.fresh e (hsub e he),
      fun e he => h.stays e (hsub e he), h.selected, h.rescues⟩
  | readUnclaimedRescue taskId =>
    obtain ⟨task, -, rfl⟩ := step_readUnclaimedRescue hok
    refine ⟨h.keyed, h.fresh, h.stays, h.selected, fun session hsession => ?_⟩
    rcases List.mem_append.mp hsession with hsession | hsession
    · exact h.rescues session hsession
    · obtain rfl := List.mem_singleton.mp hsession
      rfl
  | commitUnclaimedRescue session =>
    obtain ⟨-, rfl⟩ := step_commitUnclaimedRescue hok
    exact ⟨h.keyed, h.fresh, h.stays, h.selected,
      fun session hsession => h.rescues session (List.mem_of_mem_erase hsession)⟩

end Coherence

section Ownership

variable {s s' : System} {event : Event} {e : Execution} {session : RouterSession}
  {pass : Pass} {now : Instant} {read task : ExecutionTask} {id : ClientId}

theorem selects_inProgress (h : pass.selects now read = true) (hread : read.state = .inProgress) :
    pass = .cleanupStaleTasks := by
  cases pass <;> simp [Pass.selects, hread] at h ⊢

theorem commitRow_of_holds (h : Coherent s) (hsession : s.router = some session)
    (hnot : NotOvertaken s session) (hrecovers : ¬ s.Recovers session e) (he : s.Holds e)
    (htask : s.tasks e.taskId = some task) : session.commitRow e.taskId task = task := by
  cases hread : session.read? e.taskId with
  | none => exact commitRow_of_none hread
  | some read =>
    exfalso
    have hrow := not_or.mp (hnot.of_read? hread htask)
    have hstate : read.state = .inProgress := by
      by_contra hne
      exact hrow.2 ⟨(holds_row he htask).1, hne⟩
    have hpass := selects_inProgress (h.selected session hsession _ _ hread) hstate
    exact hrecovers ⟨hpass, by simp [hread], he⟩

theorem commitRow_rescue {session : ExitSession} (hexit : session.exit = .rescueInFlightTask)
    (hread : session.read.state ≠ .inProgress) : session.commitRow task = task := by
  rw [ExitSession.commitRow, hexit, Exit.rewrite, if_neg hread]
  simp [writeBack, writeColumn]

theorem Coherent.tasks_commitUnclaimedRescue (h : Coherent s) {session : ExitSession}
    (hcond : Undisturbed s (.commitUnclaimedRescue session))
    (hok : Workers.step s (.commitUnclaimedRescue session) = .ok s') : s'.tasks = s.tasks := by
  obtain ⟨hmem, rfl⟩ := step_commitUnclaimedRescue hok
  exact writeTask_of_fixed fun task _ => commitRow_rescue (h.rescues session hmem) hcond

/-- An execution holds its task until its worker leaves it, after every undisturbed event. -/
theorem Owned.step (h : Owned s) (hcond : Undisturbed s event) (hok : step s event = .ok s') :
    Owned s' := by
  refine ⟨h.toCoherent.step hok, ?_⟩
  cases event with
  | advance elapsed =>
    cases hok
    exact h.holds
  | createExecutionTask taskId taskType maxTry =>
    obtain ⟨hnone, rfl⟩ := step_createExecutionTask hok
    intro e he hrescued
    have hholds := h.holds e he hrescued
    have hne : e.taskId ≠ taskId := by
      rintro rfl
      obtain ⟨task, htask, -⟩ := hholds
      cases hnone.symm.trans htask
    exact (holds_congr (Function.update_of_ne hne _ _)).mpr hholds
  | readPass pass taskIds =>
    obtain ⟨-, -, rfl⟩ := step_readPass hok
    exact h.holds
  | commitPass =>
    obtain ⟨session, hsession, rfl⟩ := step_commitPass hok
    obtain ⟨hnot, hrecovers⟩ := hcond session hsession
    intro e' he' hrescued
    obtain ⟨e, he, rfl⟩ := mem_updateWhere.mp he'
    rw [if_neg (by simpa using hrecovers e he)] at hrescued ⊢
    have hholds := h.holds e he hrescued
    obtain ⟨task, htask, -⟩ := id hholds
    refine (holds_congr ?_).mpr hholds
    have hrow := commitRow_of_holds h.toCoherent hsession hnot (hrecovers e he) hholds htask
    have htask : s.tasks e.taskId = some task := htask
    simp only [htask, Option.map_some, hrow]
  | abortPass =>
    cases hok
    exact h.holds
  | claimTask taskId workerId =>
    obtain ⟨task, htask, hpending, rfl⟩ := step_claimTask hok
    intro e he hrescued
    rcases List.mem_append.mp he with he | he
    · have hholds := h.holds e he hrescued
      have hne : e.taskId ≠ taskId := by
        rintro rfl
        cases hpending.symm.trans (holds_row hholds htask).1
      exact (holds_congr (writeTask_of_ne hne)).mpr hholds
    · obtain rfl := List.mem_singleton.mp he
      exact ⟨_, writeTask_self htask, rfl, rfl⟩
  | readExit number exit =>
    obtain ⟨e, he, rfl, -, -, task, -, rfl⟩ := step_readExit hok
    intro e' he' hrescued
    obtain ⟨x, hx, rfl⟩ := mem_updateWhere.mp he'
    split at hrescued
    · rename_i hnumber
      rw [if_pos hnumber]
      exact h.holds x hx hrescued
    · rename_i hnumber
      rw [if_neg hnumber]
      exact h.holds x hx hrescued
  | commitExit number =>
    obtain ⟨e, he, rfl, session, hsession, rfl⟩ := step_commitExit hok
    have hrescued : e.rescued = false := by
      cases hr : e.rescued with
      | false => rfl
      | true => cases hsession.symm.trans (h.stays e he hr)
    intro e' he' hrescued'
    rcases mem_executionsAfter h.keyed he he' with ⟨hmem, hnumber⟩ | rfl
    · have hholds := h.holds e' hmem hrescued'
      refine (holds_congr (writeTask_of_ne fun htask => hnumber ?_)).mpr hholds
      rw [holds_claim_eq hholds (h.holds e he hrescued) htask]
    · cases hrescued'
  | abortExit number =>
    cases hok
    intro e' he' hrescued
    obtain ⟨x, hx, rfl⟩ := mem_updateWhere.mp he'
    split at hrescued
    · rename_i hnumber
      rw [if_pos hnumber]
      exact h.holds x hx hrescued
    · rename_i hnumber
      rw [if_neg hnumber]
      exact h.holds x hx hrescued
  | stopWorker number =>
    cases hok
    exact fun e he hrescued => h.holds e (mem_deleteWhere.mp he).1 hrescued
  | readUnclaimedRescue taskId =>
    obtain ⟨task, -, rfl⟩ := step_readUnclaimedRescue hok
    exact h.holds
  | commitUnclaimedRescue session =>
    have htasks := h.tasks_commitUnclaimedRescue hcond hok
    obtain ⟨-, rfl⟩ := step_commitUnclaimedRescue hok
    exact fun e he hrescued => (holds_congr (congrFun htasks e.taskId)).mpr (h.holds e he hrescued)

theorem Owned.holds_commitExit (h : Owned s) {number : ℕ}
    (hok : Workers.step s (.commitExit number) = .ok s') :
    ∃ e ∈ s.executions, e.claim.number = number ∧ s.Holds e := by
  obtain ⟨e, he, rfl, session, hsession, -⟩ := step_commitExit hok
  refine ⟨e, he, rfl, h.holds e he ?_⟩
  cases hr : e.rescued with
  | false => rfl
  | true => cases hsession.symm.trans (h.stays e he hr)

/-- A finished task is left as it is by every undisturbed event. -/
theorem Owned.finished (h : Owned s) (hcond : Undisturbed s event)
    (hok : Workers.step s event = .ok s') (htask : s.tasks id = some task)
    (hterminal : task.state.terminal = true) : s'.tasks id = some task := by
  cases event with
  | advance elapsed =>
    cases hok
    exact htask
  | createExecutionTask taskId taskType maxTry =>
    obtain ⟨hnone, rfl⟩ := step_createExecutionTask hok
    have hne : id ≠ taskId := by
      rintro rfl
      cases hnone.symm.trans htask
    exact (Function.update_of_ne hne _ _).trans htask
  | readPass pass taskIds =>
    obtain ⟨-, -, rfl⟩ := step_readPass hok
    exact htask
  | commitPass =>
    obtain ⟨session, hsession, rfl⟩ := step_commitPass hok
    have hnone : session.read? id = none := by
      rw [Option.eq_none_iff_forall_ne_some]
      intro read hread
      exact (hcond session hsession).1.of_read? hread htask (.inl hterminal)
    simp only [htask, Option.map_some, commitRow_of_none hnone]
  | abortPass =>
    cases hok
    exact htask
  | claimTask taskId workerId =>
    obtain ⟨pendingTask, hpendingTask, hpending, rfl⟩ := step_claimTask hok
    have hne : id ≠ taskId := by
      rintro rfl
      obtain rfl := Option.some.inj (htask.symm.trans hpendingTask)
      rw [hpending] at hterminal
      cases hterminal
    exact (writeTask_of_ne hne).trans htask
  | readExit number exit =>
    obtain ⟨e, -, -, -, -, _, -, rfl⟩ := step_readExit hok
    exact htask
  | commitExit number =>
    obtain ⟨e', he', hnumber', hholds⟩ := h.holds_commitExit hok
    obtain ⟨e, he, hnumber, session, -, rfl⟩ := step_commitExit hok
    obtain rfl := h.keyed.inj he he' (hnumber.trans hnumber'.symm)
    have hne : id ≠ e.taskId := by
      rintro rfl
      rw [(holds_row hholds htask).1] at hterminal
      cases hterminal
    exact (writeTask_of_ne hne).trans htask
  | abortExit number =>
    cases hok
    exact htask
  | stopWorker number =>
    cases hok
    exact htask
  | readUnclaimedRescue taskId =>
    obtain ⟨_, -, rfl⟩ := step_readUnclaimedRescue hok
    exact htask
  | commitUnclaimedRescue session =>
    rw [h.tasks_commitUnclaimedRescue hcond hok]
    exact htask

end Ownership

section Runs

variable {clock : Instant} {events : List Event}

theorem owned_start (clock : Instant) : Owned (System.start clock) where
  toCoherent := coherent_start clock
  holds := by simp [System.start]

theorem owned_run (h : Meets step Undisturbed (System.start clock) events) :
    Owned (run step (System.start clock) events) :=
  h.invariant Owned (fun _ _ _ hs hcond hok => hs.step hcond hok) (owned_start clock)

/-- In every undisturbed run a finished task stays as it is, and a worker that leaves a task
changes it only while its own execution holds it. -/
theorem finished_tasks_stay_finished
    (h : Meets step Undisturbed (System.start clock) events) :
    (∀ before after, events = before ++ after → ∀ id task,
      (run step (System.start clock) before).tasks id = some task → task.state.terminal = true →
        (run step (System.start clock) events).tasks id = some task) ∧
      ∀ before event after s', events = before ++ event :: after →
        step (run step (System.start clock) before) event = .ok s' →
          (∀ number, event = .commitExit number →
            ∃ e ∈ (run step (System.start clock) before).executions,
              e.claim.number = number ∧ (run step (System.start clock) before).Holds e) ∧
          ∀ session, event = .commitUnclaimedRescue session →
            s'.tasks = (run step (System.start clock) before).tasks := by
  constructor
  · rintro before after rfl id task htask hterminal
    rw [run_append]
    refine (h.append.invariant (fun s => Owned s ∧ s.tasks id = some task) ?_
      ⟨owned_run h.of_append, htask⟩).2
    rintro s event s' ⟨hs, htask⟩ hcond hok
    exact ⟨hs.step hcond hok, hs.finished hcond hok htask hterminal⟩
  · rintro before event after s' rfl hok
    have howned : Owned (run step (System.start clock) before) := owned_run h.of_append
    constructor
    · rintro number rfl
      exact howned.holds_commitExit hok
    · rintro session rfl
      exact howned.tasks_commitUnclaimedRescue (h.append.1 ⟨s', hok⟩) hok

def completedRun : List Event :=
  [.createExecutionTask "t" .recordViewStart 3, .createExecutionTask "u" .recordViewStart 3,
    .readPass (.routeOpenTasks true) ["t", "u"], .commitPass, .claimTask "t" "w",
    .claimTask "u" "v", .readExit 0 .finalizeTask, .commitExit 0]

/-- The worker of the other one dies, and the task is recovered. -/
theorem finished_tasks_stay_finished_completed :
    let events := completedRun ++ [.stopWorker 1, .advance 6000000000,
      .readPass .cleanupStaleTasks ["u"], .commitPass]
    ((run step (System.start 0) events).tasks "u").map (·.state) = some .open ∧
      ∀ id task, (run step (System.start 0) completedRun).tasks id = some task →
        task.state.terminal = true → (run step (System.start 0) events).tasks id = some task :=
  ⟨by decide +kernel, (finished_tasks_stay_finished (by decide +kernel)).1 completedRun _ rfl⟩

/-- The router reads a task that is stuck as pending; before it commits, a worker claims the task
and completes it. -/
def overtakenRun : List Event :=
  [.createExecutionTask "t" .recordViewStart 3, .readPass (.routeOpenTasks true) ["t"], .commitPass,
    .advance 360000000, .readPass .recoverStuckPendingTasks ["t"], .claimTask "t" "w",
    .readExit 0 .finalizeTask, .commitExit 0]

/-- The commit of the router reopens the completed task. -/
theorem completed_task_reopens :
    ((run step (System.start 0) overtakenRun).tasks "t").map (·.state) = some .completed ∧
      ((run step (System.start 0) (overtakenRun ++ [.commitPass])).tasks "t").map (·.state) =
        some .open := by
  constructor <;> decide +kernel

end Runs

end BeyoManager.Workers
