import BeyoManager.Schedulers.DelayedRunner

/-! # Fired once, and not set back

Over a run of passes a delayed scheduler is fired at most once and not before its time. A pass
that cannot create an execution task is lost as a whole and leaves its schedulers active. A firing
that fails after its task was created can only be that of a scheduler which is due, and the retry
pass looks for schedulers that are not due yet, so that the scheduler stays in its error state.
-/

namespace BeyoManager.Schedulers

open Relational

/-- A fired scheduler was due and has its execution task, and so has one in its error state that
failed after the task was created; another one has none. -/
structure SoundRow (clock : Instant) (r : DelayedScheduler) (tasks : List ExecutionTask) :
    Prop where
  fired : r.state = .fired →
    (∃ t ∈ r.firedAt, r.scheduledFor ≤ t ∧ t ≤ clock) ∧ tasks = [r.executionTask]
  errored : r.state = .error → tasks = [] ∨ r.scheduledFor ≤ clock ∧ tasks = [r.executionTask]
  waiting : r.state ≠ .fired → r.state ≠ .error → tasks = []

/-- The schedulers have different ids, and each of them is sound. -/
structure Sound (s : System) : Prop where
  keyed : Keyed DelayedScheduler.clientId s.db.delayedSchedulers
  row : ∀ r ∈ s.db.delayedSchedulers,
    SoundRow s.clock r (s.db.tasksOf .delayedScheduler r.clientId)

namespace DelayedPass

variable (p : DelayedPass) (s : System) (id : ClientId)

/-- The pass is lost, because an execution task could not be created. -/
def Lost : Prop :=
  match p with
  | .fireDueSchedulers _ _ creation true =>
    ∃ c ∈ p.candidates s, creation c.clientId = .flushFailed
  | _ => False

instance : Decidable (p.Lost s) := by
  unfold Lost
  split <;> infer_instance

def Fails : Prop :=
  match p with
  | .fireDueSchedulers _ _ creation true =>
    ¬ p.Lost s ∧ creation id ≠ .created ∧ ∃ r ∈ p.candidates s, r.clientId = id
  | _ => False

instance : Decidable (p.Fails s id) := by
  unfold Fails
  split <;> infer_instance

def IsRetry : Prop :=
  match p with
  | .retryErroredSchedulers _ _ true => True
  | _ => False

instance : Decidable p.IsRetry := by
  unfold IsRetry
  split <;> infer_instance

end DelayedPass

/-- The first retry pass later than an instant leaves the scheduler active. -/
def SetBack (id : ClientId) (cooledAt : Instant) : System → List DelayedPass → Prop
  | _, [] => True
  | s, p :: passes =>
    if p.IsRetry ∧ cooledAt < p.now s then
      ∃ r ∈ (runPass s p).db.delayedSchedulers, r.clientId = id ∧ r.state = .active
    else SetBack id cooledAt (runPass s p) passes

/-- Each scheduler whose firing failed is set back by the first retry pass that runs more than the
cooldown after the failure. -/
def FailuresSetBack : System → List DelayedPass → Prop
  | _, [] => True
  | s, p :: passes =>
    (∀ id, p.Fails s id → SetBack id (p.now s + errorRetry) (runPass s p) passes) ∧
      FailuresSetBack (runPass s p) passes

def RetriedAfter (t : Instant) : System → List DelayedPass → Prop
  | _, [] => False
  | s, p :: passes => (p.IsRetry ∧ t < p.now s) ∨ RetriedAfter t (runPass s p) passes

/-- No firing fails that a retry pass follows more than the cooldown later. -/
def NoLateRetry : System → List DelayedPass → Prop
  | _, [] => True
  | s, p :: passes =>
    (∀ id, p.Fails s id → ¬ RetriedAfter (p.now s + errorRetry) (runPass s p) passes) ∧
      NoLateRetry (runPass s p) passes

section Safety

variable {s : System} {p : DelayedPass} {r r' : DelayedScheduler}

theorem clock_le_now (s : System) (p : DelayedPass) : s.clock ≤ p.now s := by
  cases p <;> exact le_add_of_nonneg_right (Int.natCast_nonneg _)

section Step

variable {now : Instant} {tasks tasks' : List ExecutionTask}

theorem SchedulerStep.tasks_eq (h : SchedulerStep now r tasks r' tasks') :
    tasks' = tasks ∨
      r.state = .active ∧ r.scheduledFor ≤ now ∧ tasks' = tasks ++ [r.executionTask] := by
  cases h with
  | pass => exact .inl rfl
  | fire hactive hdue => exact .inr ⟨hactive, hdue, rfl⟩
  | fail message hactive hdue => exact .inr ⟨hactive, hdue, rfl⟩
  | retry herror hdue => exact .inl rfl

theorem SchedulerStep.soundRow {clock : Instant} (h : SchedulerStep now r tasks r' tasks')
    (hclock : clock ≤ now) (hr : SoundRow clock r tasks) : SoundRow now r' tasks' := by
  cases h with
  | pass =>
    refine ⟨fun hfired => ?_, fun herror => ?_, hr.waiting⟩
    · obtain ⟨⟨t, ht, hle, htclock⟩, htasks⟩ := hr.fired hfired
      exact ⟨⟨t, ht, hle, htclock.trans hclock⟩, htasks⟩
    · exact (hr.errored herror).imp_right fun h => ⟨h.1.trans hclock, h.2⟩
  | fire hactive hdue =>
    have hnone := hr.waiting (by rw [hactive]; decide) (by rw [hactive]; decide)
    refine ⟨fun _ => ⟨⟨now, rfl, hdue, le_rfl⟩, ?_⟩, (fun herror => nomatch herror),
      fun hfired => absurd rfl hfired⟩
    rw [hnone]
    rfl
  | fail message hactive hdue =>
    have hnone := hr.waiting (by rw [hactive]; decide) (by rw [hactive]; decide)
    refine ⟨(fun hfired => nomatch hfired), fun _ => .inr ⟨hdue, ?_⟩,
      fun _ herror => absurd rfl herror⟩
    rw [hnone]
    rfl
  | retry herror hdue =>
    refine ⟨(fun hfired => nomatch hfired), (fun herror => nomatch herror), fun _ _ => ?_⟩
    -- a task was only created when the scheduler was due, and it is not due yet
    rcases hr.errored herror with hnone | ⟨hpast, -⟩
    · exact hnone
    · exact absurd (hpast.trans hclock) (not_le.mpr hdue)

theorem SchedulerStep.stuck {clock : Instant} (h : SchedulerStep now r tasks r' tasks')
    (hclock : clock ≤ now) (herror : r.state = .error) (hdue : r.scheduledFor ≤ clock) :
      r' = r := by
  cases h with
  | pass => rfl
  | fire hactive => cases herror.symm.trans hactive
  | fail message hactive => cases herror.symm.trans hactive
  | retry _ hlater => exact absurd (hdue.trans hclock) (not_le.mpr hlater)

end Step

theorem Sound.runPass (h : Sound s) (p : DelayedPass) : Sound (runPass s p) where
  keyed := runPass_keyed h.keyed p
  row r' hr' := by
    obtain ⟨r, hr, hid, hstep⟩ := runPass_origin h.keyed p hr'
    rw [hid]
    exact hstep.soundRow (clock_le_now s p) (h.row r hr)

theorem Sound.runPasses (h : Sound s) (passes : List DelayedPass) : Sound (runPasses s passes) := by
  induction passes generalizing s with
  | nil => exact h
  | cons p passes ih => exact ih (h.runPass p)

end Safety

section Stuck

variable {s : System} {p : DelayedPass} {id : ClientId}

/-- A scheduler whose firing failed when it was due. -/
structure Stuck (s : System) (id : ClientId) : Prop where
  keyed : Keyed DelayedScheduler.clientId s.db.delayedSchedulers
  row : ∃ r ∈ s.db.delayedSchedulers, r.clientId = id ∧ r.state = .error ∧ r.scheduledFor ≤ s.clock

theorem Stuck.runPass (h : Stuck s id) (p : DelayedPass) : Stuck (runPass s p) id where
  keyed := runPass_keyed h.keyed p
  row := by
    obtain ⟨r, hr, hid, herror, hdue⟩ := h.row
    obtain ⟨r', hr', hid', hstep⟩ := runPass_step h.keyed hr p
    obtain rfl := hstep.stuck (clock_le_now s p) herror hdue
    exact ⟨r', hr', hid, herror, hdue.trans (clock_le_now s p)⟩

theorem Stuck.not_active (h : Stuck s id) :
    ¬ ∃ r ∈ s.db.delayedSchedulers, r.clientId = id ∧ r.state = .active := by
  rintro ⟨r', hr', hid', hactive⟩
  obtain ⟨r, hr, hid, herror, -⟩ := h.row
  obtain rfl := h.keyed.inj hr hr' (hid.trans hid'.symm)
  cases herror.symm.trans hactive

/-- A firing can only fail when the scheduler is due. -/
theorem DelayedPass.Fails.stuck (hkeyed : Keyed DelayedScheduler.clientId s.db.delayedSchedulers)
    (h : p.Fails s id) : Stuck (Schedulers.runPass s p) id := by
  refine ⟨runPass_keyed hkeyed p, ?_⟩
  cases p with
  | retryErroredSchedulers elapsed limit commits => exact h.elim
  | fireDueSchedulers elapsed limit creation commits =>
    cases commits with
    | false => exact h.elim
    | true =>
      obtain ⟨hkept, hfailed, r, hr, rfl⟩ := h
      have hnone : ¬ ∃ c ∈ (DelayedPass.fireDueSchedulers elapsed limit creation true).candidates s,
          creation c.clientId = .flushFailed := hkept
      have hmem := List.mem_filter.mp (limit.mem_of_mem_rows hr)
      have hdue := hmem.2
      rw [DelayedScheduler.due, Bool.and_eq_true, beq_iff_eq, decide_eq_true_eq] at hdue
      have hwritten : writtenBy
        ((DelayedPass.fireDueSchedulers elapsed limit creation true).candidates
          s) r = true := List.any_eq_true.mpr ⟨r, hr, beq_self_eq_true _⟩
      refine ⟨fireRow (s.clock + elapsed) creation r, ?_, fireRow_clientId r, ?_⟩
      · rw [Schedulers.runPass, foldlM_fireDelayed, if_neg hnone, Option.getD_some, foldl_fired]
        refine mem_updateWhere.mpr ⟨r, hmem.1, ?_⟩
        rw [if_pos hwritten]
        rfl
      · rw [fireRow]
        cases hc : creation r.clientId with
        | created => exact absurd hc hfailed
        | flushFailed => exact absurd ⟨r, hr, hc⟩ hkept
        | touchFailed message => exact ⟨rfl, hdue.2⟩

theorem Stuck.setBack_iff (h : Stuck s id) {t : Instant} {passes : List DelayedPass} :
    SetBack id t s passes ↔ ¬ RetriedAfter t s passes := by
  induction passes generalizing s with
  | nil => simp [SetBack, RetriedAfter]
  | cons p passes ih =>
    rw [SetBack, RetriedAfter, not_or]
    split
    · rename_i hlate
      constructor
      · intro hactive
        exact absurd hactive (h.runPass p).not_active
      · rintro ⟨hnot, -⟩
        exact absurd hlate hnot
    · rename_i hlate
      rw [ih (h.runPass p)]
      exact (and_iff_right hlate).symm

theorem failuresSetBack_iff (hkeyed : Keyed DelayedScheduler.clientId s.db.delayedSchedulers)
    {passes : List DelayedPass} : FailuresSetBack s passes ↔ NoLateRetry s passes := by
  induction passes generalizing s with
  | nil => rfl
  | cons p passes ih =>
    rw [FailuresSetBack, NoLateRetry, ih (runPass_keyed hkeyed p)]
    refine and_congr_left fun _ => forall_congr' fun id => ?_
    constructor
    · intro h hfails
      exact (hfails.stuck hkeyed).setBack_iff.mp (h hfails)
    · intro h hfails
      exact (hfails.stuck hkeyed).setBack_iff.mpr (h hfails)

end Stuck

theorem DelayedPass.Lost.db_eq {s : System} {p : DelayedPass} (h : p.Lost s) :
    (runPass s p).db = s.db := by
  cases p with
  | retryErroredSchedulers elapsed limit commits => exact h.elim
  | fireDueSchedulers elapsed limit creation commits =>
    cases commits with
    | false => exact h.elim
    | true =>
      have hlost : ∃ c ∈ (DelayedPass.fireDueSchedulers elapsed limit creation true).candidates s,
          creation c.clientId = .flushFailed := h
      rw [runPass, foldlM_fireDelayed, if_pos hlost, Option.getD_none]

/-- In every run of passes a scheduler is fired at most once and when it is due, a fired one has
its execution task, a pass that cannot create a task leaves its schedulers active, and the failures
are set back if and only if none is followed by a retry pass that could do so. -/
theorem delayed_failures_set_back_iff {s : System} (h : Sound s) (passes : List DelayedPass) :
    (∀ before p after, passes = before ++ p :: after →
      Sound (runPass (runPasses s before) p) ∧
        (p.Lost (runPasses s before) →
          (runPass (runPasses s before) p).db = (runPasses s before).db) ∧
        ∀ r ∈ (runPasses s before).db.delayedSchedulers,
          (runPass (runPasses s before) p).db.tasksOf .delayedScheduler r.clientId ≠
              (runPasses s before).db.tasksOf .delayedScheduler r.clientId →
            r.scheduledFor ≤ p.now (runPasses s before) ∧
              (runPasses s before).db.tasksOf .delayedScheduler r.clientId = [] ∧
                (runPass (runPasses s before) p).db.tasksOf .delayedScheduler r.clientId =
                  [r.executionTask]) ∧
      (FailuresSetBack s passes ↔ NoLateRetry s passes) := by
  refine ⟨?_, failuresSetBack_iff h.keyed⟩
  rintro before p after -
  have hsound := h.runPasses before
  refine ⟨hsound.runPass p, DelayedPass.Lost.db_eq, fun r hr hne => ?_⟩
  obtain ⟨r', -, -, hstep⟩ := runPass_step hsound.keyed hr p
  rcases hstep.tasks_eq with hsame | ⟨hactive, hdue, htasks⟩
  · exact absurd hsame hne
  · have hnone := (hsound.row r hr).waiting (by rw [hactive]; decide) (by rw [hactive]; decide)
    rw [hnone] at htasks
    exact ⟨hdue, hnone, htasks⟩

def dueReminder (state : SchedulerState) : DelayedScheduler where
  clientId := "a"
  type := .reminder
  state := state
  eventClientId := none
  scheduledFor := 0
  payloadSnapshot := "{}"
  lastError := none
  updatedAt := none
  firedAt := none

/-- A firing pass at which every creation ends alike, and a retry pass. -/
def firing (creation : Creation) : DelayedPass :=
  .fireDueSchedulers 1 (.take 50 _) (fun _ => creation) true

def retrying (elapsed : ℕ) : DelayedPass := .retryErroredSchedulers elapsed (.take 20 _) true

theorem sound_dueReminder : Sound ⟨0, ⟨[], [dueReminder .active], []⟩⟩ := by
  refine ⟨by decide, fun r hr => ?_⟩
  obtain rfl := List.mem_singleton.mp hr
  exact ⟨by decide, by decide, fun _ _ => rfl⟩

theorem delayed_failures_set_back_iff_reminder :
    let s : System := ⟨0, ⟨[], [dueReminder .active], []⟩⟩
    let passes := [firing .flushFailed, firing (.touchFailed "timeout"),
      retrying 5, firing .created]
    ((firing .flushFailed).Lost s → (runPass s (firing .flushFailed)).db = s.db) ∧
      (FailuresSetBack s passes ↔ NoLateRetry s passes) := by
  intro s passes
  obtain ⟨hsafe, hback⟩ := delayed_failures_set_back_iff sound_dueReminder passes
  exact ⟨(hsafe [] _ _ rfl).2.1, hback⟩

/-- A scheduler that failed after its task was created is not set back: an hour later the retry
pass leaves it in its error state, though the connection is there again. -/
theorem failed_reminder_is_lost :
    let s : System := ⟨0, ⟨[], [dueReminder .active], []⟩⟩
    let passes := [firing (.touchFailed "timeout"), retrying 3600000000, firing .created]
    ¬ FailuresSetBack s passes ∧
      (runPasses s passes).db.delayedSchedulers =
        [((dueReminder .active).fire 1).fail 1 "timeout"] ∧
      (runPasses s passes).db.executionTasks = [(dueReminder .active).executionTask] := by
  refine ⟨?_, by decide +kernel, by decide +kernel⟩
  rintro ⟨hback, -⟩
  obtain ⟨r, hr, -, hactive⟩ :=
    hback "a" ⟨by decide, by decide, dueReminder .active, by decide, rfl⟩
  revert r
  decide +kernel

end BeyoManager.Schedulers
