import BeyoManager.Workers.Attendance
import Mathlib.Data.Int.ConditionallyCompleteOrder

/-! # One handler at a time, and no task left behind

In a run without overtaken passes and stray writes, a second handler of a task runs only after the
first was recovered or rescued, no attempt is made beyond the last one, and each unfinished task
waits for some pass of the router.
-/

namespace BeyoManager.Workers

open Relational Transition

section Steps

variable {s s' : System} {event : Event} {id : ClientId} {task task' read : ExecutionTask}
  {e e' : Execution} {session : RouterSession}

/-- The rows stay tended. -/
theorem Attended.rows_step (h : Attended s) (hcond : Exclusive s event)
    (hok : step s event = .ok s') (htask' : s'.tasks id = some task') : Tended task' := by
  cases htask : s.tasks id with
  | none =>
    obtain ⟨taskType, maxTry, rfl⟩ := tasks_of_none hok htask htask'
    exact tended_newTask taskType maxTry
  | some task =>
    have htended := h.rows id task htask
    by_cases hevent : event = .commitPass
    · subst hevent
      obtain ⟨session, hsession, rfl⟩ := step_commitPass hok
      obtain rfl : session.commitRow id task = task' := by simpa [htask] using htask'
      rcases commitPass_row h hcond hsession htask with ⟨hrow, -⟩ | ⟨_, -, -, -, hrow, -⟩
      · rwa [hrow]
      · exact hrow
    · obtain ⟨task'', htask'', hstep⟩ := workerStep h hcond hok hevent htask
      obtain rfl := Option.some.inj (htask'.symm.trans htask'')
      cases hstep with
      | same => exact htended
      | claim workerId hpending => exact htended.claimedBy hpending workerId _
      | exit e exit now hid hholds hleft =>
        subst hid
        exact htended.exitRewrite (holds_row hholds htask).1 exit now

/-- A worker moves a row only on to a later state. -/
theorem Behind.step (h : Behind read task) (hstep : WorkerStep s s' id task task')
    (htask : s.tasks id = some task) : Behind read task' := by
  cases hstep with
  | same => exact h
  | claim workerId hpending =>
    rcases h with rfl | ⟨-, hstate⟩ | ⟨-, hstate | hstate⟩
    · exact .inr (.inl ⟨hpending, rfl⟩)
    · cases hpending.symm.trans hstate
    · cases hpending.symm.trans hstate
    · rw [hpending] at hstate
      cases hstate
  | exit e exit now hid hholds hleft =>
    subst hid
    have hstate := (holds_row hholds htask).1
    have hleaves := @Exit.rewrite_state _ exit now hstate
    rcases h with rfl | ⟨hread, -⟩ | ⟨-, hstate' | hstate'⟩
    · exact .inr (.inr ⟨.inr hstate, hleaves⟩)
    · exact .inr (.inr ⟨.inl hread, hleaves⟩)
    · cases hstate.symm.trans hstate'
    · rw [hstate] at hstate'
      cases hstate'

theorem Attended.reads_step (h : Attended s) (hcond : Exclusive s event)
    (hok : step s event = .ok s') (hsession : session ∈ s'.router) :
    session.now ≤ s'.clock ∧ ∀ id read, session.read? id = some read →
      Tended read ∧ ∃ task, s'.tasks id = some task ∧ Behind read task := by
  rcases router_origin hok hsession with ⟨hsession, hevent⟩ | ⟨hnow, hrows, htasks⟩
  · obtain ⟨hnow, hreads⟩ := h.reads session hsession
    refine ⟨hnow.trans (clock_le hok), fun id read hread => ?_⟩
    obtain ⟨htended, task, htask, hbehind⟩ := hreads id read hread
    obtain ⟨task', htask', hstep⟩ := workerStep h hcond hok hevent htask
    exact ⟨htended, task', htask', hbehind.step hstep htask⟩
  · refine ⟨hnow.trans_le (clock_le hok), fun id read hread => ?_⟩
    obtain ⟨-, hrow⟩ := read?_eq_some.mp hread
    rw [hrows] at hrow
    exact ⟨h.rows id read hrow, read, htasks ▸ hrow, .inl rfl⟩

theorem claim_step (h : Attended s) (hcond : Exclusive s event) (hok : step s event = .ok s')
    (htask : s.tasks id = some task) : ∃ task', s'.tasks id = some task' ∧
      (task'.claim = task.claim ∨ ∃ c, task'.claim = some c ∧ c.number = s.nextClaim) := by
  by_cases hevent : event = .commitPass
  · subst hevent
    obtain ⟨session, -, rfl⟩ := step_commitPass hok
    refine ⟨session.commitRow id task, ?_, .inl commitRow_claim⟩
    simp only [htask, Option.map_some]
  · obtain ⟨task', htask', hstep⟩ := workerStep h hcond hok hevent htask
    refine ⟨task', htask', ?_⟩
    cases hstep with
    | same => exact .inl rfl
    | claim workerId hpending => exact .inr ⟨_, rfl, rfl⟩
    | exit e exit now hid hholds hleft => exact .inl (exit.rewrite_fixed now task).2.2

theorem Attended.claims_step (h : Attended s) (hcond : Exclusive s event)
    (hok : step s event = .ok s') (he' : e' ∈ s'.executions) :
    ∃ task c, s'.tasks e'.taskId = some task ∧ task.claim = some c ∧
      e'.claim.number ≤ c.number := by
  rcases execution_origin h.toCoherent hok he' with ⟨e, he, hcont⟩ | ⟨taskId, workerId, rfl, rfl⟩
  · obtain ⟨task, c, htask, hclaim, hle⟩ := h.claims e he
    obtain ⟨task', htask', hclaim'⟩ := claim_step h hcond hok htask
    rw [hcont.taskId, hcont.claim]
    rcases hclaim' with hclaim' | ⟨c', hclaim', hnumber⟩
    · exact ⟨task', c, htask', hclaim'.trans hclaim, hle⟩
    · exact ⟨task', c', htask', hclaim', hnumber ▸ (h.fresh e he).le⟩
  · obtain ⟨task, htask, -, rfl⟩ := step_claimTask hok
    exact ⟨_, _, writeTask_self htask, rfl, le_rfl⟩

theorem recovers_of_read? (h : Attended s) (hcond : Exclusive s .commitPass)
    (hsession : s.router = some session) (he : s.Holds e)
    (hread : session.read? e.taskId = some read) :
    s.Recovers session e ∧ e.claim.claimedAt + staleInProgress < s.clock := by
  obtain ⟨hnow, hreads⟩ := h.reads session hsession
  obtain ⟨htended, task, htask, hbehind⟩ := hreads _ _ hread
  obtain ⟨hstate, hclaim⟩ := holds_row he htask
  have hselects := h.selected session hsession _ _ hread
  rcases hbehind.cases_of_not_overtaken ((hcond session hsession).of_read? hread htask) with
    rfl | ⟨-, hretry⟩
  · have hpass := selects_inProgress hselects hstate
    refine ⟨⟨hpass, by simp [hread], he⟩, ?_⟩
    obtain ⟨c, hc, hlocked⟩ := htended.claimed hstate
    obtain rfl := Option.some.inj (hclaim.symm.trans hc)
    rw [hpass] at hselects
    have hstale : e.claim.claimedAt < session.now - staleInProgress := by
      simpa [Pass.selects, hstate, hlocked] using hselects
    exact (Int.add_lt_of_lt_sub_right hstale).trans_le hnow
  · cases hstate.symm.trans hretry

/-- An execution that was neither recovered nor rescued holds its task after the event. -/
theorem Attended.holds_step (h : Attended s) (hcond : Exclusive s event)
    (hok : step s event = .ok s') (he' : e' ∈ s'.executions) (hrecovered : e'.recovered = false)
    (hrescued : e'.rescued = false) : s'.Holds e' := by
  rcases execution_origin h.toCoherent hok he' with ⟨e, he, hcont⟩ | ⟨taskId, workerId, rfl, rfl⟩
  · have hholds := h.holds e he (hcont.recovered hrecovered) (hcont.rescued hrescued)
    obtain ⟨task, htask, hrow⟩ := id hholds
    have htask : s.tasks e.taskId = some task := htask
    rw [System.Holds, hcont.taskId, hcont.claim]
    by_cases hevent : event = .commitPass
    · subst hevent
      obtain ⟨session, hsession, rfl⟩ := step_commitPass hok
      refine ⟨session.commitRow e.taskId task, ?_, ?_⟩
      · simp only [htask, Option.map_some, Option.mem_def]
      · cases hread : session.read? e.taskId with
        | none => rwa [commitRow_of_none hread]
        | some read =>
          have hrecovers := (recovers_of_read? h hcond hsession hholds hread).1
          cases hrecovered.symm.trans (hcont.recovers rfl session hsession hrecovers)
    · obtain ⟨task', htask', hstep⟩ := workerStep h hcond hok hevent htask
      refine ⟨task', htask', ?_⟩
      cases hstep with
      | same => exact hrow
      | claim workerId hpending => cases hpending.symm.trans hrow.1
      | exit e'' exit now hid hholds' hleft =>
        have hclaim := holds_claim_eq hholds hholds' hid.symm
        have := hleft e' he' (by rw [hcont.claim, hclaim])
        cases hrescued.symm.trans this
  · obtain ⟨task, htask, -, rfl⟩ := step_claimTask hok
    exact ⟨_, writeTask_self htask, rfl, rfl⟩

theorem Attended.stale_step (h : Attended s) (hcond : Exclusive s event)
    (hok : step s event = .ok s') (he' : e' ∈ s'.executions) (hrecovered : e'.recovered = true) :
    e'.claim.claimedAt + staleInProgress < s'.clock := by
  rcases execution_origin h.toCoherent hok he' with ⟨e, he, hcont⟩ | ⟨taskId, workerId, rfl, rfl⟩
  · rw [hcont.claim]
    refine lt_of_lt_of_le ?_ (clock_le hok)
    rcases hcont.stale hrecovered with hrecovered | ⟨rfl, session, hsession, -, hread, hholds⟩
    · exact h.stale e he hrecovered
    · obtain ⟨read, hread⟩ := Option.isSome_iff_exists.mp hread
      exact (recovers_of_read? h hcond hsession hholds hread).2
  · cases hrecovered

/-- While an execution holds its task, the row is as its worker read it. -/
theorem Attended.exits_step (h : Attended s) (hcond : Exclusive s event)
    (hok : step s event = .ok s') (he' : e' ∈ s'.executions) {session : ExitSession}
    (hsession : session ∈ e'.exiting) (hholds : s'.Holds e') :
    s'.tasks e'.taskId = some session.read := by
  rcases execution_origin h.toCoherent hok he' with ⟨e, he, hcont⟩ | ⟨taskId, workerId, rfl, rfl⟩
  · obtain ⟨task, c, htask, -⟩ := h.claims e he
    rw [System.Holds, hcont.taskId, hcont.claim] at hholds
    rw [hcont.taskId]
    have hsame (hrow : s'.tasks e.taskId = some task) (hold : session ∈ e.exiting) :
        s'.tasks e.taskId = some session.read := by
      have hrows : s'.tasks e.taskId = s.tasks e.taskId := hrow.trans htask.symm
      rw [hrows]
      exact h.exits e he session hold ((holds_congr hrows).mp hholds)
    obtain ⟨task', htask', hstate, hclaim⟩ := hholds
    have htask' : s'.tasks e.taskId = some task' := htask'
    rcases hcont.exiting session hsession with hold | ⟨hread, htasks⟩
    · by_cases hevent : event = .commitPass
      · subst hevent
        obtain ⟨routerSession, hrouter, rfl⟩ := step_commitPass hok
        have hrow : (s.tasks e.taskId).map (routerSession.commitRow e.taskId) =
            some (routerSession.commitRow e.taskId task) := by rw [htask, Option.map_some]
        rcases commitPass_row h hcond hrouter htask with ⟨hfixed, -⟩ | ⟨_, -, -, -, -, hne⟩
        · exact hsame (hrow.trans (congrArg some hfixed)) hold
        · obtain rfl := Option.some.inj (htask'.symm.trans hrow)
          exact absurd hstate hne
      · obtain ⟨task'', htask'', hstep⟩ := workerStep h hcond hok hevent htask
        obtain rfl := Option.some.inj (htask'.symm.trans htask'')
        cases hstep with
        | same => exact hsame htask' hold
        | claim workerId hpending =>
          have hnumber : s.nextClaim = e.claim.number :=
            congrArg Claim.number (Option.some.inj hclaim)
          exact absurd (h.fresh e he) (by rw [hnumber]; exact lt_irrefl _)
        | exit e'' exit now hid hholds' hleft =>
          rw [← hid] at htask
          rcases exit.rewrite_state (holds_row hholds' htask).1 with hleaves | hleaves
          · cases hstate.symm.trans hleaves
          · rw [hstate] at hleaves
            cases hleaves
    · rw [htasks]
      exact hread
  · cases hsession

/-- An execution goes on unless its worker is stopped or leaves the task. -/
theorem execution_persists (hok : step s event = .ok s') (he : e ∈ s.executions)
    (hstop : event ≠ .stopWorker e.claim.number) (hexit : event ≠ .commitExit e.claim.number) :
    ∃ e' ∈ s'.executions, e'.taskId = e.taskId ∧ e'.claim = e.claim := by
  have hupdate : ∀ (p : Execution → Bool) (f : Execution → Execution),
      (∀ x, (f x).taskId = x.taskId ∧ (f x).claim = x.claim) →
        ∃ e' ∈ updateWhere p f s.executions, e'.taskId = e.taskId ∧ e'.claim = e.claim := by
    intro p f hf
    refine ⟨_, mem_updateWhere_of_mem he, ?_⟩
    split
    · exact hf e
    · exact ⟨rfl, rfl⟩
  cases event with
  | advance => cases hok; exact ⟨e, he, rfl, rfl⟩
  | createExecutionTask => obtain ⟨-, rfl⟩ := step_createExecutionTask hok; exact ⟨e, he, rfl, rfl⟩
  | readPass => obtain ⟨-, -, rfl⟩ := step_readPass hok; exact ⟨e, he, rfl, rfl⟩
  | commitPass =>
    obtain ⟨session, -, rfl⟩ := step_commitPass hok
    exact hupdate _ _ fun _ => ⟨rfl, rfl⟩
  | abortPass => cases hok; exact ⟨e, he, rfl, rfl⟩
  | claimTask =>
    obtain ⟨_, -, -, rfl⟩ := step_claimTask hok
    exact ⟨e, List.mem_append_left _ he, rfl, rfl⟩
  | readExit =>
    obtain ⟨_, -, -, -, -, _, -, rfl⟩ := step_readExit hok
    exact hupdate _ _ fun _ => ⟨rfl, rfl⟩
  | commitExit number =>
    obtain ⟨_, -, -, session, -, rfl⟩ := step_commitExit hok
    have hne : e.claim.number ≠ number := fun hnumber => hexit (by rw [hnumber])
    cases hexit : session.exit with
    | rescueInFlightTask => exact hupdate _ _ fun _ => ⟨rfl, rfl⟩
    | finalizeTask | failTask | markNoHandler | markOutboundDisabled =>
      exact ⟨e, mem_deleteWhere.mpr ⟨he, by simpa using hne⟩, rfl, rfl⟩
  | abortExit =>
    cases hok
    exact hupdate _ _ fun _ => ⟨rfl, rfl⟩
  | stopWorker number =>
    cases hok
    have hne : e.claim.number ≠ number := fun hnumber => hstop (by rw [hnumber])
    exact ⟨e, mem_deleteWhere.mpr ⟨he, by simpa using hne⟩, rfl, rfl⟩
  | readUnclaimedRescue =>
    obtain ⟨_, -, rfl⟩ := step_readUnclaimedRescue hok
    exact ⟨e, he, rfl, rfl⟩
  | commitUnclaimedRescue =>
    obtain ⟨-, rfl⟩ := step_commitUnclaimedRescue hok
    exact ⟨e, he, rfl, rfl⟩

theorem Attended.leaves (h : Attended s) (he : e ∈ s.executions) (hholds : s.Holds e)
    (hok : Workers.step s (.commitExit e.claim.number) = .ok s')
    (htask' : s'.tasks e.taskId = some task') : task'.state ≠ .inProgress := by
  obtain ⟨x, hx, hnumber, session, hsession, rfl⟩ := step_commitExit hok
  obtain rfl := h.keyed.inj hx he hnumber
  have hread := h.exits x hx session hsession hholds
  obtain rfl := Option.some.inj ((writeTask_self hread).symm.trans htask')
  obtain ⟨htype, hmax, hclaim⟩ := session.exit.rewrite_fixed session.now session.read
  rw [ExitSession.commitRow, writeBack_read htype hmax hclaim]
  rcases session.exit.rewrite_state (holds_row hholds hread).1 with hstate | hstate
  · rw [hstate]
    decide
  · intro hprogress
    rw [hprogress] at hstate
    cases hstate

/-- Each task in progress has the execution of its last claim, unless that worker was stopped. -/
def Manned (stopped : ℕ → Prop) (s : System) : Prop :=
  ∀ id task, s.tasks id = some task → task.state = .inProgress → ∀ c, task.claim = some c →
    (∃ e ∈ s.executions, e.taskId = id ∧ e.claim = c) ∨ stopped c.number

theorem Manned.step {stopped : ℕ → Prop} (hm : Manned stopped s) (h : Attended s)
    (hcond : Exclusive s event) (hstop : ∀ number, event = .stopWorker number → stopped number)
    (hok : step s event = .ok s') : Manned stopped s' := by
  intro id task' htask' hstate c hclaim
  -- a row that stays in progress keeps the execution of its claim
  have hkept : s.tasks id = some task' →
      (∃ e ∈ s'.executions, e.taskId = id ∧ e.claim = c) ∨ stopped c.number := by
    intro htask
    rcases hm id task' htask hstate c hclaim with ⟨e, he, rfl, rfl⟩ | hstopped
    · by_cases hexit : event = .commitExit e.claim.number
      · subst hexit
        exact absurd hstate (h.leaves he ⟨task', htask, hstate, hclaim⟩ hok htask')
      · by_cases hstopped : event = .stopWorker e.claim.number
        · exact .inr (hstop _ hstopped)
        · exact .inl (execution_persists hok he hstopped hexit)
    · exact .inr hstopped
  cases htask : s.tasks id with
  | none =>
    obtain ⟨_, _, rfl⟩ := tasks_of_none hok htask htask'
    cases hstate
  | some task =>
    by_cases hevent : event = .commitPass
    · subst hevent
      obtain ⟨session, hsession, hs'⟩ := step_commitPass hok
      have hrow : session.commitRow id task = task' := by
        rw [hs'] at htask'
        simpa [htask] using htask'
      rcases commitPass_row h hcond hsession htask with ⟨hfixed, -⟩ | ⟨_, -, -, -, -, hne⟩
      · exact hkept (by rw [htask, ← hrow, hfixed])
      · exact absurd hstate (hrow ▸ hne)
    · obtain ⟨task'', htask'', hstep⟩ := workerStep h hcond hok hevent htask
      obtain rfl := Option.some.inj (htask'.symm.trans htask'')
      cases hstep with
      | same => exact hkept htask
      | claim workerId hpending hruns =>
        obtain rfl := Option.some.inj hclaim
        exact .inl hruns
      | exit e exit now hid hholds hleft =>
        rw [← hid] at htask
        rcases exit.rewrite_state (holds_row hholds htask).1 with hleaves | hleaves
        · cases hstate.symm.trans hleaves
        · rw [hstate] at hleaves
          cases hleaves

theorem Attended.step (h : Attended s) (hcond : Exclusive s event) (hok : step s event = .ok s') :
    Attended s' where
  toCoherent := h.toCoherent.step hok
  rows _ _ := h.rows_step hcond hok
  reads _ := h.reads_step hcond hok
  claims _ := h.claims_step hcond hok
  holds _ := h.holds_step hcond hok
  stale _ := h.stale_step hcond hok
  exits _ he _ := h.exits_step hcond hok he

end Steps

section Runs

variable {clock : Instant} {events : List Event} {s : System}

theorem attended_start (clock : Instant) : Attended (System.start clock) where
  toCoherent := coherent_start clock
  rows := by simp [System.start]
  reads := by simp [System.start]
  claims := by simp [System.start]
  holds := by simp [System.start]
  stale := by simp [System.start]
  exits := by simp [System.start]

/-- After some events, at most one execution of a task runs, unless the earlier one was recovered
as stale or rescued; attempts are bounded; and an unfinished task is where a pass of the router
looks for it, or an execution holds it, or the worker that held it was stopped. -/
structure Sound (events : List Event) (s : System) : Prop where
  single : ∀ e ∈ s.executions, ∀ e' ∈ s.executions, e.taskId = e'.taskId →
    e.claim.number < e'.claim.number →
      e.recovered = true ∧ e.claim.claimedAt + staleInProgress < s.clock ∨ e.rescued = true
  attempts : ∀ id task, s.tasks id = some task → task.tryCount ≤ task.maxTry
  placed : ∀ id task, s.tasks id = some task → task.state.terminal = false →
    task.state = .open ∨ task.state = .pending ∧ task.lockedAt ≠ none ∨
      task.state = .retryScheduled ∧ task.nextRetryAt ≠ none ∨
        task.state = .inProgress ∧ task.lockedAt ≠ none ∧
          ((∃ e ∈ s.executions, e.taskId = id ∧ s.Holds e) ∨
            ∃ c, task.claim = some c ∧ .stopWorker c.number ∈ events)

theorem Attended.sound (h : Attended s)
    (hm : Manned (fun number => .stopWorker number ∈ events) s) : Sound events s where
  single := by
    intro e he e' he' htask hless
    by_contra hnot
    obtain ⟨hrecovered, hrescued⟩ := not_or.mp hnot
    have hrecovered : e.recovered = false := by
      cases hr : e.recovered with
      | false => rfl
      | true => exact absurd ⟨hr, h.stale e he hr⟩ hrecovered
    have hholds := h.holds e he hrecovered (by simpa using hrescued)
    obtain ⟨task, c, hrow, hclaim, hle⟩ := h.claims e' he'
    rw [← htask] at hrow
    have := (holds_row hholds hrow).2
    obtain rfl := Option.some.inj (hclaim.symm.trans this)
    exact absurd hless (Nat.not_lt.mpr hle)
  attempts id task htask := (h.rows id task htask).attempts
  placed := by
    intro id task htask hterminal
    have htended := h.rows id task htask
    cases hstate : task.state with
    | «open» => exact .inl rfl
    | pending => exact .inr (.inl ⟨rfl, htended.pending hstate⟩)
    | inProgress =>
      obtain ⟨c, hclaim, hlocked⟩ := htended.claimed hstate
      refine .inr (.inr (.inr ⟨rfl, by simp [hlocked], ?_⟩))
      rcases hm id task htask hstate c hclaim with ⟨e, he, rfl, rfl⟩ | hstopped
      · exact .inl ⟨e, he, rfl, task, htask, hstate, hclaim⟩
      · exact .inr ⟨c, hclaim, hstopped⟩
    | retrying => exact absurd hstate htended.known
    | retryScheduled => exact .inr (.inr (.inl ⟨rfl, htended.retry hstate⟩))
    | completed | fail | cancel =>
      rw [hstate] at hterminal
      cases hterminal

/-- In every exclusive run at most one handler of a task runs unless the earlier one was recovered
or rescued, no handler starts after the last attempt, and no unfinished task is lost. -/
theorem handlers_run_one_at_a_time (h : Meets step Exclusive (System.start clock) events) :
    ∀ before after, events = before ++ after →
      Sound before (run step (System.start clock) before) ∧
        ∀ taskId workerId s',
          step (run step (System.start clock) before) (.claimTask taskId workerId) = .ok s' →
            ∀ task, (run step (System.start clock) before).tasks taskId = some task →
              task.tryCount < task.maxTry := by
  rintro before after rfl
  have hmeets : Meets step (fun s event => Exclusive s event ∧ event ∈ before)
      (System.start clock) before := by
    rw [meets_iff]
    rintro js event ks s' rfl hok
    exact ⟨meets_iff.mp h.of_append js event ks s' rfl hok, by simp⟩
  obtain ⟨hattended, hmanned⟩ := hmeets.invariant
    (fun s => Attended s ∧ Manned (fun number => .stopWorker number ∈ before) s)
    (fun _ _ _ hs hcond hok => ⟨hs.1.step hcond.1 hok, hs.2.step hs.1 hcond.1
      (fun number hevent => hevent ▸ hcond.2) hok⟩)
    ⟨attended_start clock, by simp [Manned, System.start]⟩
  refine ⟨hattended.sound hmanned, fun taskId workerId s' hok task htask => ?_⟩
  obtain ⟨task', htask', hpending, -⟩ := step_claimTask hok
  obtain rfl := Option.some.inj (htask.symm.trans htask')
  exact (hattended.rows taskId task htask).remaining (by rw [hpending]; rfl)

/-- A worker fails, and the task is tried again. -/
def retriedRun : List Event :=
  [.createExecutionTask "t" .recordViewStart (Nat.succPNat 2),
    .readPass (.routeOpenTasks true) ["t"], .commitPass,
    .claimTask "t" "w", .readExit 0 (.failTask "timeout" 0), .commitExit 0, .advance 30000000,
    .readPass .requeueRetryScheduledTasks ["t"], .commitPass,
    .readPass (.routeOpenTasks true) ["t"], .commitPass, .claimTask "t" "v"]

theorem handlers_run_one_at_a_time_retried :
    Sound retriedRun (run step (System.start 0) retriedRun) :=
  (handlers_run_one_at_a_time (by decide +kernel) retriedRun [] rfl).1

/-- The router reads a task that is stuck as pending, a worker claims it, and the router reopens it
and routes it again. -/
def claimedTwiceRun : List Event :=
  [.createExecutionTask "t" .recordViewStart (Nat.succPNat 2),
    .readPass (.routeOpenTasks true) ["t"], .commitPass,
    .advance 360000000, .readPass .recoverStuckPendingTasks ["t"], .claimTask "t" "w", .commitPass,
    .readPass (.routeOpenTasks true) ["t"], .commitPass, .claimTask "t" "v"]

/-- Two handlers of the task run, and the first was neither recovered as stale nor rescued. -/
theorem handlers_run_side_by_side :
    ¬ Sound claimedTwiceRun (run step (System.start 0) claimedTwiceRun) := by
  intro h
  have := h.single ⟨"t", ⟨0, 360000000⟩, none, false, false⟩ (by decide +kernel)
    ⟨"t", ⟨1, 360000000⟩, none, false, false⟩ (by decide +kernel) rfl (by decide)
  revert this
  decide +kernel

end Runs

end BeyoManager.Workers
