import BeyoManager.Library.Relational
import BeyoManager.Schedulers.Tables
import Mathlib.Algebra.Order.Group.Int

/-! # Passes of the delayed runner

The runner fires the schedulers that are due, and sets those whose firing failed back to active.
A pass over the table is read back as one step of each scheduler and of the tasks it has created.
-/

namespace BeyoManager.Schedulers

open Relational

/-- `DELAYED_TYPE_TO_TASK_TYPE`. -/
def delayedTypeToTaskType : DelayedSchedulerType → TaskType
  | .notifyToCustomer => .delayedNotifyToCustomer
  | .sendReport => .delayedSendReport
  | .reminder => .delayedReminder
  | .batchNotification => .delayedBatchNotification
  | .pendingStepCompletion => .delayedStepCompletion
  | .stockReportVersionActivation => .stockReportVersionActivation

/-- `ERROR_RETRY_MINUTES`, in microseconds. -/
def errorRetry : ℤ := 15 * 60 * 1000000

namespace DelayedScheduler

variable (s : DelayedScheduler) (now : Instant)

/-- The execution task of a fire. -/
def executionTask : ExecutionTask where
  taskType := delayedTypeToTaskType s.type
  scheduledAt := some s.scheduledFor
  originSource := .delayedScheduler
  originId := s.clientId
  eventClientId := s.eventClientId
  payload := s.payloadSnapshot

def fire : DelayedScheduler := { s with state := .fired, firedAt := some now }

def fail (message : String) : DelayedScheduler :=
  { s with state := .error, lastError := some message, updatedAt := some now }

def retry : DelayedScheduler :=
  { s with state := .active, lastError := none, updatedAt := some now }

/-- The condition of the statement that reads the schedulers to fire. -/
def due : Bool := s.state == .active && decide (s.scheduledFor ≤ now)

/-- The condition of the statement that reads the schedulers to set back. -/
def errored : Bool :=
  s.state == .error && decide (now < s.scheduledFor) &&
    s.updatedAt.any fun updatedAt => decide (updatedAt < now - errorRetry)

end DelayedScheduler

/-- One scheduler of `_fire_due_schedulers`; none when an exception leaves the pass. -/
def fireDelayed (now : Instant) (creation : ClientId → Creation) (db : Db)
    (scheduler : DelayedScheduler) : Option Db :=
  let created := db.createExecutionTask scheduler.executionTask
  match creation scheduler.clientId with
  | .created => some (created.updateDelayed scheduler.clientId (·.fire now))
  | .flushFailed => none
  | .touchFailed message =>
    some (created.updateDelayed scheduler.clientId fun s => (s.fire now).fail now message)

/-- One scheduler of `_retry_errored_schedulers`. -/
def retryDelayed (now : Instant) (db : Db) (scheduler : DelayedScheduler) : Db :=
  db.updateDelayed scheduler.clientId (·.retry now)

/-- The passes of the runner, each some time after the one before it: a poll is a firing pass and,
when that one did not end in an exception, a retry pass. A pass whose session does not come to its
commit is rolled back. -/
inductive DelayedPass
  | fireDueSchedulers (elapsed : ℕ) (limit : Limit 50 DelayedScheduler)
      (creation : ClientId → Creation) (commits : Bool)
  | retryErroredSchedulers (elapsed : ℕ) (limit : Limit 20 DelayedScheduler) (commits : Bool)

namespace DelayedPass

/-- The instant of a pass. -/
def now (s : System) : DelayedPass → Instant
  | .fireDueSchedulers elapsed _ _ _ => s.clock + elapsed
  | .retryErroredSchedulers elapsed _ _ => s.clock + elapsed

def candidates (s : System) : DelayedPass → List DelayedScheduler
  | .fireDueSchedulers elapsed limit _ _ =>
    limit.rows (s.db.delayedSchedulers.filter (·.due (s.clock + elapsed)))
  | .retryErroredSchedulers elapsed limit _ =>
    limit.rows (s.db.delayedSchedulers.filter (·.errored (s.clock + elapsed)))

end DelayedPass

/-- `_fire_due_schedulers` and `_retry_errored_schedulers`. -/
def runPass (s : System) (p : DelayedPass) : System where
  clock := p.now s
  db :=
    match p with
    | .fireDueSchedulers _ _ creation true =>
      ((p.candidates s).foldlM (fireDelayed (p.now s) creation) s.db).getD s.db
    | .retryErroredSchedulers _ _ true => (p.candidates s).foldl (retryDelayed (p.now s)) s.db
    | _ => s.db

/-- Pass after pass. -/
def runPasses (s : System) (passes : List DelayedPass) : System := passes.foldl runPass s

inductive SchedulerStep (now : Instant) (r : DelayedScheduler) (tasks : List ExecutionTask) :
    DelayedScheduler → List ExecutionTask → Prop
  | pass : SchedulerStep now r tasks r tasks
  | fire (hactive : r.state = .active) (hdue : r.scheduledFor ≤ now) :
      SchedulerStep now r tasks (r.fire now) (tasks ++ [r.executionTask])
  | fail (message : String) (hactive : r.state = .active) (hdue : r.scheduledFor ≤ now) :
      SchedulerStep now r tasks ((r.fire now).fail now message) (tasks ++ [r.executionTask])
  | retry (herror : r.state = .error) (hdue : now < r.scheduledFor) :
      SchedulerStep now r tasks (r.retry now) tasks

section Fold

variable {now : Instant} {creation : ClientId → Creation}

def fireRow (now : Instant) (creation : ClientId → Creation) (r : DelayedScheduler) :
    DelayedScheduler :=
  match creation r.clientId with
  | .touchFailed message => (r.fire now).fail now message
  | _ => r.fire now

theorem fireRow_clientId (r : DelayedScheduler) :
    (fireRow now creation r).clientId = r.clientId := by
  unfold fireRow
  split <;> rfl

theorem fireRow_fireRow (r : DelayedScheduler) :
    fireRow now creation (fireRow now creation r) = fireRow now creation r := by
  unfold fireRow
  cases h : creation r.clientId <;> simp [DelayedScheduler.fire, DelayedScheduler.fail, h]

/-- The tables after one scheduler whose execution task could be created. -/
def fired (now : Instant) (creation : ClientId → Creation) (db : Db) (c : DelayedScheduler) : Db :=
  { db with
    delayedSchedulers := updateWhere (fun s => s.clientId == c.clientId) (fireRow now creation)
      db.delayedSchedulers
    executionTasks := db.executionTasks ++ [c.executionTask] }

theorem fireDelayed_eq (db : Db) (c : DelayedScheduler) : fireDelayed now creation db c =
    if creation c.clientId = .flushFailed then none else some (fired now creation db c) := by
  unfold fireDelayed
  cases hc : creation c.clientId with
  | flushFailed => rfl
  | created =>
    have hrow : ∀ s ∈ db.delayedSchedulers, s.clientId == c.clientId →
        s.fire now = fireRow now creation s := by
      intro s _ hs
      rw [fireRow, beq_iff_eq.mp hs, hc]
    simp only [Db.updateDelayed, Db.createExecutionTask, updateWhere_congr hrow]
    rfl
  | touchFailed message =>
    have hrow : ∀ s ∈ db.delayedSchedulers, s.clientId == c.clientId →
        (s.fire now).fail now message = fireRow now creation s := by
      intro s _ hs
      rw [fireRow, beq_iff_eq.mp hs, hc]
    simp only [Db.updateDelayed, Db.createExecutionTask, updateWhere_congr hrow]
    rfl

def writtenBy (candidates : List DelayedScheduler) (s : DelayedScheduler) : Bool :=
  candidates.any fun c => c.clientId == s.clientId

theorem foldl_fired (candidates : List DelayedScheduler) (db : Db) :
    candidates.foldl (fired now creation) db =
      { db with
        delayedSchedulers :=
          updateWhere (writtenBy candidates) (fireRow now creation) db.delayedSchedulers
        executionTasks := db.executionTasks ++ candidates.map DelayedScheduler.executionTask } := by
  have hfold : ∀ db : Db, candidates.foldl (fired now creation) db =
      { db with
        delayedSchedulers := candidates.foldl (fun t c =>
          updateWhere (fun s => s.clientId == c.clientId) (fireRow now creation) t)
          db.delayedSchedulers
        executionTasks := db.executionTasks ++ candidates.map DelayedScheduler.executionTask } := by
    induction candidates with
    | nil => simp
    | cons c candidates ih =>
      intro db
      rw [List.foldl_cons, ih, List.map_cons, List.append_cons]
      rfl
  rw [hfold, foldl_updateWhere_of_idempotent DelayedScheduler.clientId fireRow_clientId
    fireRow_fireRow]
  rfl

theorem foldlM_fireDelayed (candidates : List DelayedScheduler) (db : Db) :
    candidates.foldlM (fireDelayed now creation) db =
      if ∃ c ∈ candidates, creation c.clientId = .flushFailed then none
      else some (candidates.foldl (fired now creation) db) := by
  induction candidates generalizing db with
  | nil => simp
  | cons c candidates ih =>
    rw [List.foldlM_cons, fireDelayed_eq]
    by_cases hc : creation c.clientId = .flushFailed
    · rw [if_pos hc, if_pos ⟨c, List.mem_cons_self, hc⟩]
      rfl
    · rw [if_neg hc, Option.bind_eq_bind, Option.bind_some, ih, List.foldl_cons]
      simp [hc]

theorem foldl_retryDelayed (candidates : List DelayedScheduler) (db : Db) :
    candidates.foldl (retryDelayed now) db =
      { db with
        delayedSchedulers :=
          updateWhere (writtenBy candidates) (·.retry now) db.delayedSchedulers } := by
  have hfold : ∀ db : Db, candidates.foldl (retryDelayed now) db =
      { db with
        delayedSchedulers := candidates.foldl (fun t c =>
          updateWhere (fun s => s.clientId == c.clientId) (·.retry now) t)
            db.delayedSchedulers } := by
    induction candidates with
    | nil => exact fun db => rfl
    | cons c candidates ih =>
      intro db
      rw [List.foldl_cons, ih]
      rfl
  have hkey : ∀ s : DelayedScheduler, (s.retry now).clientId = s.clientId := fun _ => rfl
  have hidem : ∀ s : DelayedScheduler, (s.retry now).retry now = s.retry now := fun _ => rfl
  rw [hfold, foldl_updateWhere_of_idempotent DelayedScheduler.clientId hkey hidem]
  rfl

end Fold

section Pass

variable {s : System} {r c : DelayedScheduler} {rows candidates : List DelayedScheduler}

theorem mem_of_writtenBy (hkeyed : Keyed DelayedScheduler.clientId rows)
    (hsub : ∀ c ∈ candidates, c ∈ rows) (hr : r ∈ rows) (h : writtenBy candidates r = true) :
    r ∈ candidates := by
  obtain ⟨c, hc, hid⟩ := List.any_eq_true.mp h
  obtain rfl := hkeyed.inj (hsub c hc) hr (beq_iff_eq.mp hid)
  exact hc

/-- Among rows with different ids, the tasks of one scheduler are those of its own row. -/
theorem tasks_filter (hnodup : (candidates.map (·.clientId)).Nodup) (hr : r ∈ candidates) :
    (candidates.map DelayedScheduler.executionTask).filter
      (fun t => t.originSource == .delayedScheduler && t.originId == r.clientId) =
        [r.executionTask] := by
  induction candidates with
  | nil => cases hr
  | cons c candidates ih =>
    obtain ⟨hnot, hnodup⟩ := List.nodup_cons.mp hnodup
    rcases List.mem_cons.mp hr with rfl | hr
    · have hnone : (candidates.map DelayedScheduler.executionTask).filter
          (fun t => t.originSource == .delayedScheduler && t.originId == r.clientId) = [] := by
        rw [List.filter_eq_nil_iff]
        rintro t ht
        obtain ⟨c, hc, rfl⟩ := List.mem_map.mp ht
        have hne : c.clientId ≠ r.clientId := fun he => hnot (List.mem_map.mpr ⟨c, hc, he⟩)
        simpa [DelayedScheduler.executionTask] using hne
      rw [List.map_cons, List.filter_cons_of_pos (by simp [DelayedScheduler.executionTask]), hnone]
    · have hne : c.clientId ≠ r.clientId := fun he => hnot (List.mem_map.mpr ⟨r, hr, he.symm⟩)
      rw [List.map_cons, List.filter_cons_of_neg
        (by simpa [DelayedScheduler.executionTask] using hne)]
      exact ih hnodup hr

variable {p : DelayedPass}

theorem candidates_sub (p : DelayedPass) : ∀ c ∈ p.candidates s, c ∈ s.db.delayedSchedulers := by
  cases p with
  | fireDueSchedulers elapsed limit creation commits =>
    exact fun c hc => List.mem_of_mem_filter (limit.mem_of_mem_rows hc)
  | retryErroredSchedulers elapsed limit commits =>
    exact fun c hc => List.mem_of_mem_filter (limit.mem_of_mem_rows hc)

theorem candidates_nodup (hkeyed : Keyed DelayedScheduler.clientId s.db.delayedSchedulers)
    (p : DelayedPass) : ((p.candidates s).map (·.clientId)).Nodup := by
  cases p with
  | fireDueSchedulers elapsed limit creation commits =>
    exact limit.nodup_map (keyed_filter hkeyed _)
  | retryErroredSchedulers elapsed limit commits =>
    exact limit.nodup_map (keyed_filter hkeyed _)

theorem runPass_ids (s : System) (p : DelayedPass) :
    (runPass s p).db.delayedSchedulers.map (·.clientId) =
      s.db.delayedSchedulers.map (·.clientId) := by
  cases p with
  | fireDueSchedulers elapsed limit creation commits =>
    cases commits with
    | false => rfl
    | true =>
      rw [runPass, foldlM_fireDelayed]
      split
      · rfl
      · rw [Option.getD_some, foldl_fired]
        exact map_updateWhere_of_fixed fun _ _ _ => fireRow_clientId _
  | retryErroredSchedulers elapsed limit commits =>
    cases commits with
    | false => rfl
    | true =>
      rw [runPass, foldl_retryDelayed]
      exact map_updateWhere_of_fixed fun _ _ _ => rfl

theorem runPass_keyed (hkeyed : Keyed DelayedScheduler.clientId s.db.delayedSchedulers)
    (p : DelayedPass) : Keyed DelayedScheduler.clientId (runPass s p).db.delayedSchedulers :=
  hkeyed.of_map_eq (runPass_ids s p)

theorem tasksOf_fired {creation : ClientId → Creation}
    (hkeyed : Keyed DelayedScheduler.clientId s.db.delayedSchedulers)
    (hr : r ∈ s.db.delayedSchedulers) {now : Instant} (p : DelayedPass) :
    ((p.candidates s).foldl (fired now creation) s.db).tasksOf .delayedScheduler r.clientId =
      s.db.tasksOf .delayedScheduler r.clientId ++
        if r ∈ p.candidates s then [r.executionTask] else [] := by
  rw [foldl_fired, Db.tasksOf, List.filter_append]
  refine congrArg (s.db.tasksOf .delayedScheduler r.clientId ++ ·) ?_
  by_cases hfires : r ∈ p.candidates s
  · rw [if_pos hfires]
    exact tasks_filter (candidates_nodup hkeyed p) hfires
  · rw [if_neg hfires, List.filter_eq_nil_iff]
    intro t ht htask
    obtain ⟨c, hc, rfl⟩ := List.mem_map.mp ht
    have hid : c.clientId = r.clientId := by simpa [DelayedScheduler.executionTask] using htask
    obtain rfl := hkeyed.inj (candidates_sub p c hc) hr hid
    exact hfires hc

/-- Each scheduler makes one step in a pass. -/
theorem runPass_step (hkeyed : Keyed DelayedScheduler.clientId s.db.delayedSchedulers)
    (hr : r ∈ s.db.delayedSchedulers) (p : DelayedPass) :
    ∃ r' ∈ (runPass s p).db.delayedSchedulers, r'.clientId = r.clientId ∧
      SchedulerStep (p.now s) r (s.db.tasksOf .delayedScheduler r.clientId) r'
        ((runPass s p).db.tasksOf .delayedScheduler r.clientId) := by
  have hwritten : writtenBy (p.candidates s) r = true → r ∈ p.candidates s :=
    mem_of_writtenBy hkeyed (candidates_sub p) hr
  cases p with
  | fireDueSchedulers elapsed limit creation commits =>
    cases commits with
    | false => exact ⟨r, hr, rfl, .pass⟩
    | true =>
      rw [runPass, foldlM_fireDelayed]
      split
      · exact ⟨r, hr, rfl, .pass⟩
      have htasks := @tasksOf_fired s _ creation hkeyed hr (s.clock + elapsed)
        (.fireDueSchedulers elapsed limit creation true)
      rw [Option.getD_some]
      refine ⟨if writtenBy
        ((DelayedPass.fireDueSchedulers elapsed limit creation true).candidates s)
        r then fireRow (s.clock + elapsed) creation r else r, ?_, ?_, ?_⟩
      · rw [foldl_fired]
        exact mem_updateWhere_of_mem hr
      · split
        · exact fireRow_clientId r
        · rfl
      · dsimp only [DelayedPass.now]
        rw [htasks]
        split
        · rename_i hw
          have hc := hwritten hw
          have hdue := (List.mem_filter.mp (limit.mem_of_mem_rows hc)).2
          rw [DelayedScheduler.due, Bool.and_eq_true, beq_iff_eq, decide_eq_true_eq] at hdue
          rw [if_pos hc, fireRow]
          split
          · exact .fail _ hdue.1 hdue.2
          · exact .fire hdue.1 hdue.2
        · rename_i hw
          have hnot :
              ¬ r ∈ (DelayedPass.fireDueSchedulers elapsed limit creation true).candidates s :=
            fun hc => hw (List.any_eq_true.mpr ⟨r, hc, beq_self_eq_true _⟩)
          rw [if_neg hnot, List.append_nil]
          exact .pass
  | retryErroredSchedulers elapsed limit commits =>
    cases commits with
    | false => exact ⟨r, hr, rfl, .pass⟩
    | true =>
      refine ⟨if writtenBy ((DelayedPass.retryErroredSchedulers elapsed limit true).candidates s) r
        then r.retry (s.clock + elapsed) else r, ?_, ?_, ?_⟩
      · rw [runPass, foldl_retryDelayed]
        exact mem_updateWhere_of_mem hr
      · split <;> rfl
      · rw [runPass]
        dsimp only [DelayedPass.now]
        rw [foldl_retryDelayed]
        split
        · rename_i hw
          have hdue := (List.mem_filter.mp (limit.mem_of_mem_rows (hwritten hw))).2
          rw [DelayedScheduler.errored, Bool.and_eq_true, Bool.and_eq_true, beq_iff_eq,
            decide_eq_true_eq] at hdue
          exact .retry hdue.1.1 hdue.1.2
        · exact .pass

theorem runPass_origin (hkeyed : Keyed DelayedScheduler.clientId s.db.delayedSchedulers)
    (p : DelayedPass) {r' : DelayedScheduler} (hr' : r' ∈ (runPass s p).db.delayedSchedulers) :
    ∃ r ∈ s.db.delayedSchedulers, r'.clientId = r.clientId ∧
      SchedulerStep (p.now s) r (s.db.tasksOf .delayedScheduler r.clientId) r'
        ((runPass s p).db.tasksOf .delayedScheduler r.clientId) := by
  have hid := List.mem_map_of_mem (f := DelayedScheduler.clientId) hr'
  rw [runPass_ids] at hid
  obtain ⟨r, hr, hid⟩ := List.mem_map.mp hid
  obtain ⟨r'', hr'', hid'', hstep⟩ := runPass_step hkeyed hr p
  obtain rfl := (runPass_keyed hkeyed p).inj hr' hr'' (hid.symm.trans hid''.symm)
  exact ⟨r, hr, hid.symm, hstep⟩

end Pass

end BeyoManager.Schedulers
