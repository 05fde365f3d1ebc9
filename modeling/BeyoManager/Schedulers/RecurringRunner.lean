import BeyoManager.Library.Relational
import BeyoManager.Schedulers.RecurringGrid

/-! # Polls of the recurring runner

A poll looks at active schedulers, creates an execution task for each one that is due and records
the slot that it served. Over a run of polls, what a scheduler records is what a server of slots
remembers that is called at the polls which reach the scheduler.
-/

namespace BeyoManager.Schedulers

open Relational Slots

/-- `RECURRING_TYPE_TO_TASK_TYPE`. -/
def recurringTypeToTaskType : RecurringSchedulerType → TaskType
  | .sendReport => .recurringSendReport
  | .reminder => .recurringReminder
  | .pinTask => .recurringPinTask
  | .autoClockOutOpenShifts => .autoClockOutOpenShifts

/-- The execution task of a fire. -/
def RecurringScheduler.executionTask (s : RecurringScheduler) (now : Instant) : ExecutionTask where
  taskType := recurringTypeToTaskType s.type
  scheduledAt := some now
  originSource := .recurringScheduler
  originId := s.clientId
  eventClientId := s.eventClientId
  payload := s.payloadSnapshot

def Db.recordRecurringError (db : Db) (id : ClientId) (message : String) : Db :=
  db.updateRecurring id fun s => { s with lastError := some message }

def recordFire (now : Instant) (creation : Creation) (db : Db) (scheduler : RecurringScheduler) :
    Db :=
  match recurringGridPoint scheduler now with
  | .error e => db.recordRecurringError scheduler.clientId e.message
  | .ok slot =>
    let db := db.updateRecurring scheduler.clientId fun s => { s with lastInterval := some slot }
    match creation with
    | .touchFailed message => db.recordRecurringError scheduler.clientId message
    | _ => db

/-- One candidate of `_fire_due_recurring_schedulers`; none when an exception leaves the poll. -/
def fireRecurring (now : Instant) (creation : ClientId → Creation) (db : Db)
    (scheduler : RecurringScheduler) : Option Db :=
  match recurringIsDue scheduler now with
  | .error (.valueError message) => some (db.recordRecurringError scheduler.clientId message)
  | .error (.overflowError _) => none
  | .ok false => some db
  | .ok true =>
    if creation scheduler.clientId = .flushFailed then none
    else some (recordFire now (creation scheduler.clientId)
      (db.createExecutionTask (scheduler.executionTask now)) scheduler)

def Db.activeRecurring (db : Db) : List RecurringScheduler :=
  db.recurringSchedulers.filter fun s => s.state == .active

/-- A poll, some time after the one before it. A poll whose session does not come to its commit is
rolled back. -/
structure RecurringPoll where
  elapsed : ℕ
  limit : Limit 200 RecurringScheduler
  creation : ClientId → Creation
  commits : Bool

/-- The instant of a poll. -/
def RecurringPoll.now (p : RecurringPoll) (s : System) : Instant := s.clock + p.elapsed

def RecurringPoll.candidates (p : RecurringPoll) (s : System) : List RecurringScheduler :=
  p.limit.rows s.db.activeRecurring

/-- The tables that a poll would commit; none when an exception leaves it. -/
def RecurringPoll.pass (p : RecurringPoll) (s : System) : Option Db :=
  (p.candidates s).foldlM (fireRecurring (p.now s) p.creation) s.db

/-- `_fire_due_recurring_schedulers`. -/
def fireDueRecurringSchedulers (s : System) (p : RecurringPoll) : System where
  clock := p.now s
  db := if p.commits then (p.pass s).getD s.db else s.db

/-- Poll after poll. -/
def pollRecurring (s : System) (polls : List RecurringPoll) : System :=
  polls.foldl fireDueRecurringSchedulers s

/-- The poll looks at a scheduler, and comes to its commit. -/
def RecurringPoll.Reaches (p : RecurringPoll) (s : System) (id : ClientId) : Prop :=
  p.commits = true ∧ (p.pass s).isSome ∧ ∃ r ∈ p.candidates s, r.clientId = id

instance (p : RecurringPoll) (s : System) (id : ClientId) : Decidable (p.Reaches s id) :=
  inferInstanceAs (Decidable (_ ∧ _ ∧ _))

/-- The instants of the polls that reach a scheduler. -/
def reachedAt (id : ClientId) : System → List RecurringPoll → List Instant
  | _, [] => []
  | s, p :: polls =>
    (if p.Reaches s id then [p.now s] else []) ++
      reachedAt id (fireDueRecurringSchedulers s p) polls

section Poll

variable {db : Db} {now : Instant} {creation : ClientId → Creation} {id : ClientId}

def RecurringScheduler.plan (s : RecurringScheduler) : RecurringScheduler :=
  { s with lastInterval := none, lastError := none }

/-- The scheduler that is stored under an id, as far as it is never written, and what it has
recorded. -/
structure Stored (db : Db) (r : RecurringScheduler) (last : Option Instant) : Prop where
  keyed : Keyed RecurringScheduler.clientId db.recurringSchedulers
  mem : ∃ s ∈ db.recurringSchedulers, s.plan = r.plan ∧ s.lastInterval = last

theorem plan_eq {s r : RecurringScheduler} (h : s.plan = r.plan) :
    s.clientId = r.clientId ∧ s.state = r.state ∧ s.createdAt = r.createdAt ∧
      (s.HasGrid ↔ r.HasGrid) ∧ s.slot = r.slot ∧
      ∀ now, s.executionTask now = r.executionTask now := by
  simp only [RecurringScheduler.plan, RecurringScheduler.mk.injEq, true_and, and_true] at h
  obtain ⟨hid, htype, hstate, hevent, hcreated, hinterval, hvalue, hpayload⟩ := h
  refine ⟨hid, hstate, hcreated, ?_, ?_, fun now => ?_⟩
  · rw [RecurringScheduler.HasGrid, RecurringScheduler.HasGrid, hinterval, hvalue]
  · funext now
    rw [RecurringScheduler.slot, RecurringScheduler.slot, RecurringScheduler.period,
      RecurringScheduler.period, hcreated, hinterval, hvalue]
  · simp only [RecurringScheduler.executionTask, hid, htype, hevent, hpayload]

theorem Stored.record {r : RecurringScheduler} {last : Option Instant} (h : Stored db r last)
    (id : ClientId) (f : RecurringScheduler → RecurringScheduler)
    (hf : ∀ s, (f s).plan = s.plan)
    (hlast : id = r.clientId → ∀ s, (f s).lastInterval = s.lastInterval) :
    Stored (db.updateRecurring id f) r last := by
  refine ⟨keyed_update h.keyed fun s _ _ => (plan_eq (hf s)).1, ?_⟩
  obtain ⟨s, hs, hplan, hl⟩ := h.mem
  refine ⟨_, mem_updateWhere_of_mem hs, ?_⟩
  split
  · rename_i hid
    refine ⟨(hf s).trans hplan, (hlast ?_ s).trans hl⟩
    exact (beq_iff_eq.mp hid).symm.trans (plan_eq hplan).1
  · exact ⟨hplan, hl⟩

variable {r c : RecurringScheduler} {last : Option Instant}

structure Served (r : RecurringScheduler) (last : Option Instant) (now : Instant) (reached : Prop)
    [Decidable reached] (db db' : Db) : Prop where
  stored : Stored db' r (if reached then serve r.slot r.createdAt last now else last)
  tasks : db'.tasksOf .recurringScheduler r.clientId =
    db.tasksOf .recurringScheduler r.clientId ++
      if reached ∧ Due r.slot r.createdAt last now then [r.executionTask now] else []

theorem tasksOf_createExecutionTask (db : Db) (c : RecurringScheduler) (now : Instant)
    (id : ClientId) : (db.createExecutionTask (c.executionTask now)).tasksOf
      .recurringScheduler id =
      db.tasksOf .recurringScheduler id ++
        if c.clientId = id then [c.executionTask now] else [] := by
  rw [Db.tasksOf, Db.createExecutionTask, List.filter_append, Db.tasksOf]
  congr 1
  by_cases hid : c.clientId = id <;> simp [RecurringScheduler.executionTask, hid]

theorem Stored.recordRecurringError (h : Stored db r last) (id : ClientId) (message : String) :
    Stored (db.recordRecurringError id message) r last :=
  h.record id _ (fun _ => rfl) fun _ _ => rfl

theorem Stored.serve_slot (h : Stored db r last) (hid : c.clientId = r.clientId) (slot : Instant) :
    Stored (db.updateRecurring c.clientId fun s => { s with lastInterval := some slot }) r
      (some slot) := by
  refine ⟨keyed_update h.keyed fun _ _ _ => rfl, ?_⟩
  obtain ⟨s, hs, hplan, -⟩ := h.mem
  refine ⟨_, mem_updateWhere_of_mem hs, ?_⟩
  rw [if_pos (beq_iff_eq.mpr ((plan_eq hplan).1.trans hid.symm))]
  exact ⟨hplan, rfl⟩

section Fire

variable {db' : Db} {outcome : Creation}

@[simp] theorem recordFire_executionTasks :
    (recordFire now outcome db c).executionTasks = db.executionTasks := by
  unfold recordFire
  split
  · rfl
  · dsimp only
    split <;> rfl

theorem tasksOf_recordFire :
    (recordFire now outcome db c).tasksOf .recurringScheduler id =
      db.tasksOf .recurringScheduler id := by
  rw [Db.tasksOf, recordFire_executionTasks, Db.tasksOf]

theorem Stored.recordFire_other (h : Stored db r last) (hid : c.clientId ≠ r.clientId) :
    Stored (recordFire now outcome db c) r last := by
  have hslot : ∀ slot, Stored (db.updateRecurring c.clientId
      fun s => { s with lastInterval := some slot }) r last := fun slot =>
    h.record _ _ (fun _ => rfl) fun he => absurd he hid
  unfold recordFire
  split
  · exact h.recordRecurringError _ _
  · dsimp only
    split
    · exact (hslot _).recordRecurringError _ _
    · exact hslot _

theorem Stored.recordFire_self (h : Stored db r last) (hgrid : c.HasGrid)
    (hid : c.clientId = r.clientId) :
    Stored (recordFire now outcome db c) r (some (c.slot now)) := by
  rw [recordFire, recurringGridPoint_eq hgrid]
  dsimp only
  split
  · exact (h.serve_slot hid _).recordRecurringError _ _
  · exact h.serve_slot hid _

theorem fireRecurring_other (h : Stored db r last) (hid : c.clientId ≠ r.clientId)
    (hok : fireRecurring now creation db c = some db') :
    Stored db' r last ∧
      db'.tasksOf .recurringScheduler r.clientId = db.tasksOf .recurringScheduler r.clientId := by
  have hcreate : Stored (db.createExecutionTask (c.executionTask now)) r last := ⟨h.keyed, h.mem⟩
  unfold fireRecurring at hok
  split at hok
  · cases hok
    exact ⟨h.recordRecurringError _ _, rfl⟩
  · cases hok
  · cases hok
    exact ⟨h, rfl⟩
  · split_ifs at hok
    cases hok
    refine ⟨hcreate.recordFire_other hid, ?_⟩
    rw [tasksOf_recordFire, tasksOf_createExecutionTask, if_neg hid, List.append_nil]

/-- A candidate that is due fires and records its slot. -/
theorem fireRecurring_self (hgrid : r.HasGrid) (h : Stored db r last) (hplan : c.plan = r.plan)
    (hlast : c.lastInterval = last) (hok : fireRecurring now creation db c = some db') :
    Served r last now True db db' := by
  obtain ⟨hid, -, hcreated, hgrid', hslot, htask⟩ := plan_eq hplan
  rw [fireRecurring, recurringIsDue_eq (hgrid'.mpr hgrid), hslot, hcreated, hlast] at hok
  by_cases hdue : Due r.slot r.createdAt last now
  · rw [decide_eq_true hdue] at hok
    dsimp only at hok
    split_ifs at hok
    cases hok
    have hcreate : Stored (db.createExecutionTask (c.executionTask now)) r last := ⟨h.keyed, h.mem⟩
    refine ⟨?_, ?_⟩
    · rw [if_pos trivial, serve_of_due hdue, ← hslot]
      exact hcreate.recordFire_self (hgrid'.mpr hgrid) hid
    · rw [if_pos ⟨trivial, hdue⟩, tasksOf_recordFire,
        tasksOf_createExecutionTask, if_pos hid, htask]
  · rw [decide_eq_false hdue] at hok
    cases hok
    refine ⟨?_, ?_⟩
    · rw [serve_of_not_due hdue, ite_self]
      exact h
    · rw [if_neg fun hc => hdue hc.2, List.append_nil]

theorem foldlM_fireRecurring_other {candidates : List RecurringScheduler} (h : Stored db r last)
    (hids : ∀ c ∈ candidates, c.clientId ≠ r.clientId)
    (hok : candidates.foldlM (fireRecurring now creation) db = some db') :
    Stored db' r last ∧
      db'.tasksOf .recurringScheduler r.clientId = db.tasksOf .recurringScheduler r.clientId := by
  induction candidates generalizing db with
  | nil =>
    cases hok
    exact ⟨h, rfl⟩
  | cons c candidates ih =>
    rw [List.foldlM_cons] at hok
    obtain ⟨db₁, h₁, hok⟩ := Option.bind_eq_some_iff.mp hok
    obtain ⟨hstored, htasks⟩ := fireRecurring_other h (hids c List.mem_cons_self) h₁
    obtain ⟨hstored', htasks'⟩ := ih hstored
      (fun c' hc' => hids c' (List.mem_cons_of_mem c hc')) hok
    exact ⟨hstored', htasks'.trans htasks⟩

/-- A pass over candidates with different ids serves each scheduler among them. -/
theorem foldlM_fireRecurring (hgrid : r.HasGrid) (h : Stored db r last)
    {candidates : List RecurringScheduler}
    (hread : ∀ c ∈ candidates, c.clientId = r.clientId → c.plan = r.plan ∧ c.lastInterval = last)
    (hnodup : (candidates.map (·.clientId)).Nodup)
    (hok : candidates.foldlM (fireRecurring now creation) db = some db') :
    Served r last now (∃ c ∈ candidates, c.clientId = r.clientId) db db' := by
  induction candidates generalizing db with
  | nil =>
    cases hok
    refine ⟨?_, ?_⟩
    · rw [if_neg (by simp)]
      exact h
    · rw [if_neg (by simp), List.append_nil]
  | cons c candidates ih =>
    obtain ⟨hnot, hnodup⟩ := List.nodup_cons.mp hnodup
    rw [List.foldlM_cons] at hok
    obtain ⟨db₁, h₁, hok⟩ := Option.bind_eq_some_iff.mp hok
    by_cases hid : c.clientId = r.clientId
    · obtain ⟨hplan, hlast⟩ := hread c List.mem_cons_self hid
      have hself := fireRecurring_self hgrid h hplan hlast h₁
      -- no later candidate has the id, so the rest of the pass leaves the scheduler
      obtain ⟨hstored, htasks⟩ := foldlM_fireRecurring_other hself.stored (fun c' hc' he => hnot
        (List.mem_map.mpr ⟨c', hc', he.trans hid.symm⟩)) hok
      have hreached : (∃ c' ∈ c :: candidates, c'.clientId = r.clientId) ↔ True :=
        iff_true_intro ⟨c, List.mem_cons_self, hid⟩
      refine ⟨?_, ?_⟩
      · simp only [hreached]
        exact hstored
      · simp only [hreached]
        exact htasks.trans hself.tasks
    · obtain ⟨hstored, htasks⟩ := fireRecurring_other h hid h₁
      have hserved := ih hstored (fun c' hc' => hread c' (List.mem_cons_of_mem c hc')) hnodup hok
      have hreached : (∃ c' ∈ c :: candidates, c'.clientId = r.clientId) ↔
          ∃ c' ∈ candidates, c'.clientId = r.clientId := by
        simp [hid]
      refine ⟨?_, ?_⟩
      · simp only [hreached]
        exact hserved.stored
      · simp only [hreached]
        exact hserved.tasks.trans (by rw [htasks])

end Fire

/-- A poll serves each scheduler that it reaches. -/
theorem fireDueRecurringSchedulers_served {s : System} (hgrid : r.HasGrid)
    (h : Stored s.db r last) (p : RecurringPoll) :
    Served r last (p.now s) (p.Reaches s r.clientId) s.db (fireDueRecurringSchedulers s p).db := by
  have hmem : ∀ c ∈ p.candidates s, c ∈ s.db.recurringSchedulers := fun c hc =>
    List.mem_of_mem_filter (p.limit.mem_of_mem_rows hc)
  have hread : ∀ c ∈ p.candidates s, c.clientId = r.clientId →
      c.plan = r.plan ∧ c.lastInterval = last := by
    intro c hc hid
    obtain ⟨s₀, hs₀, hplan, hlast⟩ := h.mem
    obtain rfl := h.keyed.inj (hmem c hc) hs₀ (hid.trans (plan_eq hplan).1.symm)
    exact ⟨hplan, hlast⟩
  have hnodup : ((p.candidates s).map (·.clientId)).Nodup :=
    p.limit.nodup_map (keyed_filter h.keyed _)
  by_cases hc : p.commits = true ∧ (p.pass s).isSome
  · obtain ⟨db', hpass⟩ := Option.isSome_iff_exists.mp hc.2
    have hserved := foldlM_fireRecurring hgrid h hread hnodup hpass
    have hreached : p.Reaches s r.clientId ↔ ∃ c ∈ p.candidates s, c.clientId = r.clientId :=
      ⟨fun h => h.2.2, fun h => ⟨hc.1, hc.2, h⟩⟩
    rw [fireDueRecurringSchedulers, if_pos hc.1, hpass, Option.getD_some]
    refine ⟨?_, ?_⟩
    · simp only [hreached]
      exact hserved.stored
    · simp only [hreached]
      exact hserved.tasks
  · have hreached : ¬ p.Reaches s r.clientId := fun h => hc ⟨h.1, h.2.1⟩
    have hdb : (fireDueRecurringSchedulers s p).db = s.db := by
      rw [fireDueRecurringSchedulers]
      split_ifs with hcommits
      · have hlost : p.pass s = none := by
          by_contra hne
          exact hc ⟨hcommits, Option.isSome_iff_ne_none.mpr hne⟩
        rw [hlost, Option.getD_none]
      · rfl
    rw [hdb]
    refine ⟨?_, ?_⟩
    · rw [if_neg hreached]
      exact h
    · rw [if_neg fun h => hreached h.1, List.append_nil]

end Poll

section Runs

variable {r : RecurringScheduler} {last : Option Instant}

/-- What a scheduler has recorded after a run of polls: what a server of slots remembers that was
called at the polls which reached it. -/
theorem pollRecurring_stored {s : System} (hgrid : r.HasGrid) (h : Stored s.db r last)
    (polls : List RecurringPoll) :
    Stored (pollRecurring s polls).db r
      (serveAll r.slot r.createdAt last (reachedAt r.clientId s polls)) := by
  induction polls generalizing s last with
  | nil => exact h
  | cons p polls ih =>
    have hstored := (fireDueRecurringSchedulers_served hgrid h p).stored
    rw [reachedAt, serveAll_append]
    refine ih ?_
    split
    · rename_i hr
      rw [if_pos hr] at hstored
      exact hstored
    · rename_i hr
      rw [if_neg hr] at hstored
      exact hstored

theorem clock_le_pollRecurring (s : System) (polls : List RecurringPoll) :
    s.clock ≤ (pollRecurring s polls).clock := by
  induction polls generalizing s with
  | nil => exact le_rfl
  | cons p polls ih =>
    have hnow : s.clock ≤ p.now s := le_add_of_nonneg_right (Int.natCast_nonneg _)
    exact hnow.trans (ih _)

theorem reachedAt_le {id : ClientId} {s : System} {polls : List RecurringPoll} :
    ∀ c ∈ reachedAt id s polls, c ≤ (pollRecurring s polls).clock := by
  induction polls generalizing s with
  | nil => simp [reachedAt]
  | cons p polls ih =>
    intro c hc
    rcases List.mem_append.mp hc with hc | hc
    · have hend := clock_le_pollRecurring (fireDueRecurringSchedulers s p) polls
      split at hc
      · obtain rfl := List.mem_singleton.mp hc
        exact hend
      · cases hc
    · exact ih c hc

end Runs

end BeyoManager.Schedulers
