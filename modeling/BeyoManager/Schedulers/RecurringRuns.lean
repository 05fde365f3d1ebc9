import BeyoManager.Schedulers.RecurringRunner

/-! # One fire for each slot

Over a run of polls a recurring scheduler fires at the first poll of each slot that reaches it,
and it is due when the next run that was reported has come. A query of the runner returns only
some of the schedulers when there are many, so the first poll of a slot need not reach all.
-/

namespace BeyoManager.Schedulers

open Relational Slots

/-- The row of a recurring scheduler. -/
def Db.recurring? (db : Db) (id : ClientId) : Option RecurringScheduler :=
  db.recurringSchedulers.find? fun s => s.clientId == id

/-- The polls that reach a scheduler and at which it fires: the first ones of their slots. -/
def FiresAt (r : RecurringScheduler) (before : List Instant) (now : Instant) : Prop :=
  r.createdAt ≤ now ∧ (∀ l ∈ r.lastInterval, l < r.slot now) ∧
    ∀ c ∈ before, r.createdAt ≤ c → (c - r.createdAt) / r.period ≠ (now - r.createdAt) / r.period

instance (r : RecurringScheduler) (before : List Instant) (now : Instant) :
    Decidable (FiresAt r before now) :=
  inferInstanceAs (Decidable (_ ∧ _ ∧ _))

section Rows

variable {db : Db} {r : RecurringScheduler} {last : Option Instant}

theorem Stored.recurring? (h : Stored db r last) :
    ∃ row, db.recurring? r.clientId = some row ∧ row.plan = r.plan ∧ row.lastInterval = last := by
  obtain ⟨s, hs, hplan, hlast⟩ := h.mem
  refine ⟨s, ?_, hplan, hlast⟩
  rw [← (plan_eq hplan).1]
  exact h.keyed.find?_eq hs

theorem stored_of_mem (hkeyed : Keyed RecurringScheduler.clientId db.recurringSchedulers)
    (hr : r ∈ db.recurringSchedulers) : Stored db r r.lastInterval :=
  ⟨hkeyed, r, hr, rfl, rfl⟩

end Rows

section Runs

variable {r : RecurringScheduler} {last : Option Instant}

/-- A run creates tasks, and leaves what is recorded when it creates none. -/
theorem pollRecurring_tasks {s : System} (hgrid : r.HasGrid) (h : Stored s.db r last)
    (polls : List RecurringPoll) : ∃ fired,
      (pollRecurring s polls).db.tasksOf .recurringScheduler r.clientId =
        s.db.tasksOf .recurringScheduler r.clientId ++ fired ∧
      (fired = [] → Stored (pollRecurring s polls).db r last) := by
  induction polls generalizing s last with
  | nil => exact ⟨[], (List.append_nil _).symm, fun _ => h⟩
  | cons p polls ih =>
    have hserved := fireDueRecurringSchedulers_served hgrid h p
    obtain ⟨fired, htasks, hstored⟩ := ih hserved.stored
    refine ⟨_, htasks.trans
      ((congrArg (· ++ fired) hserved.tasks).trans (List.append_assoc ..)), ?_⟩
    intro hnone
    obtain ⟨hnow, rfl⟩ := List.append_eq_nil_iff.mp hnone
    have hlast : (if p.Reaches s r.clientId then serve r.slot r.createdAt last
      (p.now s) else last) =
        last := by
      split
      · rename_i hreach
        refine serve_of_not_due fun hdue => ?_
        rw [if_pos ⟨hreach, hdue⟩] at hnow
        cases hnow
      · rfl
    rw [hlast] at hstored
    exact hstored rfl

theorem due_iff_firesAt (hgrid : r.HasGrid) {before : List Instant} {now : Instant}
    (hbefore : ∀ c ∈ before, c ≤ now) :
    Due r.slot r.createdAt (serveAll r.slot r.createdAt r.lastInterval before) now ↔
      FiresAt r before now := by
  rw [due_serveAll_iff hgrid.isSlot hbefore, FiresAt]
  have hslot : ∀ c, r.slot c = r.slot now ↔
      (c - r.createdAt) / r.period = (now - r.createdAt) / r.period := fun c =>
    gridPoint_eq_iff hgrid.period_pos
  simp only [ne_eq, hslot]

end Runs

/-- A scheduler fires at a poll that reaches it if and only if no poll of the same slot has
reached it before and the slot was not served at the start. It records the slot and never goes
back, and until it fires again it is due from the next run on that is reported. -/
theorem recurring_fires_once_per_slot {db : Db} {r : RecurringScheduler} (clock : Instant)
    (hkeyed : Keyed RecurringScheduler.clientId db.recurringSchedulers)
    (hr : r ∈ db.recurringSchedulers) (hgrid : r.HasGrid) (hlast : ∀ l ∈ r.lastInterval, l ≤ clock)
    (polls : List RecurringPoll) (p : RecurringPoll) :
    let s := pollRecurring ⟨clock, db⟩ polls
    let s' := fireDueRecurringSchedulers s p
    let fires := p.Reaches s r.clientId ∧
      FiresAt r (reachedAt r.clientId ⟨clock, db⟩ polls) (p.now s)
    s'.db.tasksOf .recurringScheduler r.clientId =
        s.db.tasksOf .recurringScheduler r.clientId ++
          (if fires then [r.executionTask (p.now s)] else []) ∧
      ∃ row row', s.db.recurring? r.clientId = some row ∧ s'.db.recurring? r.clientId = some row' ∧
        row'.lastInterval = (if fires then some (r.slot (p.now s)) else row.lastInterval) ∧
        (∀ l ∈ row.lastInterval, ∃ l' ∈ row'.lastInterval, l ≤ l') ∧
        ∀ reportedAt, p.now s ≤ reportedAt →
          (reportedAt + r.period ≤ datetimeMax →
            ∃ next, recurringNextRunAt row' reportedAt = .ok next) ∧
          ∀ next, recurringNextRunAt row' reportedAt = .ok next →
            ∀ later, (pollRecurring s' later).db.tasksOf .recurringScheduler r.clientId =
                s'.db.tasksOf .recurringScheduler r.clientId →
              ∃ rowLater, (pollRecurring s' later).db.recurring? r.clientId = some rowLater ∧
                ∀ t, reportedAt ≤ t → recurringIsDue rowLater t = .ok (decide (next ≤ t)) := by
  intro s s' fires
  have hstored := pollRecurring_stored (s := ⟨clock, db⟩) hgrid (stored_of_mem hkeyed hr) polls
  have hserved := fireDueRecurringSchedulers_served hgrid hstored p
  have hnow : s.clock ≤ p.now s := le_add_of_nonneg_right (Int.natCast_nonneg _)
  have hbefore : ∀ c ∈ reachedAt r.clientId ⟨clock, db⟩ polls, c ≤ p.now s := fun c hc =>
    (reachedAt_le c hc).trans hnow
  have hdue := due_iff_firesAt hgrid hbefore
  have hpast : ∀ l ∈ serveAll r.slot r.createdAt r.lastInterval
      (reachedAt r.clientId ⟨clock, db⟩ polls), l ≤ p.now s :=
    serveAll_le hgrid.isSlot hbefore fun l hl =>
      ((hlast l hl).trans (clock_le_pollRecurring _ polls)).trans hnow
  obtain ⟨row, hrow, -, hlastrow⟩ := hstored.recurring?
  obtain ⟨row', hrow', hplan', hlastrow'⟩ := hserved.stored.recurring?
  have hrecord : row'.lastInterval =
    if fires then some (r.slot (p.now s)) else row.lastInterval := by
    rw [hlastrow', hlastrow]
    by_cases hreach : p.Reaches s r.clientId
    · by_cases hfires : FiresAt r (reachedAt r.clientId ⟨clock, db⟩ polls) (p.now s)
      · rw [if_pos hreach, serve_of_due (hdue.mpr hfires), if_pos ⟨hreach, hfires⟩]
      · rw [if_pos hreach, serve_of_not_due (mt hdue.mp hfires), if_neg fun h => hfires h.2]
    · rw [if_neg hreach, if_neg fun h => hreach h.1]
  refine ⟨?_, row, row', hrow, hrow', hrecord, ?_, ?_⟩
  · have hfires : p.Reaches s r.clientId ∧ Due r.slot r.createdAt (serveAll r.slot r.createdAt
        r.lastInterval (reachedAt r.clientId ⟨clock, db⟩ polls)) (p.now s) ↔ fires :=
      and_congr_right fun _ => hdue
    exact hserved.tasks.trans (congrArg _ (if_congr hfires rfl rfl))
  · intro l hl
    rw [hlastrow] at hl
    rw [hlastrow']
    split
    · exact le_serve hl
    · exact ⟨l, hl, le_rfl⟩
  · intro reportedAt hreported
    have hgrid' : row'.HasGrid := (plan_eq hplan').2.2.2.1.mpr hgrid
    have hpast' : ∀ l ∈ row'.lastInterval, l ≤ reportedAt := by
      intro l hl
      rw [hrecord] at hl
      split at hl
      · obtain rfl := Option.mem_some_iff.mp hl
        exact (hgrid.isSlot.le _).trans hreported
      · rw [hlastrow] at hl
        exact (hpast l hl).trans hreported
    have hperiod : row'.period = r.period := by
      rw [RecurringScheduler.period, RecurringScheduler.period]
      simp only [RecurringScheduler.plan, RecurringScheduler.mk.injEq] at hplan'
      rw [hplan'.2.2.2.2.2.1, hplan'.2.2.2.2.2.2.1]
    refine ⟨fun hend => recurringNextRunAt_ok hgrid' (by rwa [hperiod]),
      fun next hnext later hlater => ?_⟩
    obtain ⟨fired, htasks, hsame⟩ := pollRecurring_tasks hgrid hserved.stored later
    have hnone : fired = [] := List.append_right_eq_self.mp (htasks.symm.trans hlater)
    obtain ⟨rowLater, hfind, hplanLater, hlastLater⟩ := (hsame hnone).recurring?
    refine ⟨rowLater, hfind, fun t ht => ?_⟩
    have hplan := plan_eq (hplanLater.trans hplan'.symm)
    have hgridLater : rowLater.HasGrid := hplan.2.2.2.1.mpr hgrid'
    rw [← recurringNextRunAt_spec hgrid' hpast' hnext ht, recurringIsDue_eq hgridLater,
      recurringIsDue_eq hgrid', hplan.2.2.2.2.1, hplan.2.2.1, hlastLater, hlastrow']

def dailyReminder (id : ClientId) (createdAt : Instant) : RecurringScheduler where
  clientId := id
  type := .reminder
  state := .active
  eventClientId := none
  createdAt := createdAt
  interval := 1
  intervalValue := .days
  lastInterval := none
  payloadSnapshot := "{}"
  lastError := none

/-- A poll that creates every task and is committed; its query returns the rows that come first. -/
def plainPoll (elapsed : ℕ) : RecurringPoll where
  elapsed := elapsed
  limit := .take 200 _
  creation := fun _ => .created
  commits := true

theorem recurring_fires_once_per_slot_daily :
    let s : System := ⟨5, ⟨[dailyReminder "a" 0], [], []⟩⟩
    let s' := fireDueRecurringSchedulers s (plainPoll 3)
    s'.db.executionTasks = [(dailyReminder "a" 0).executionTask 8] ∧
      (fireDueRecurringSchedulers s' (plainPoll 86400000000)).db.executionTasks =
        [(dailyReminder "a" 0).executionTask 8, (dailyReminder "a" 0).executionTask 86400000008] ∧
      ((fireDueRecurringSchedulers s' (plainPoll 86400000000)).db.tasksOf .recurringScheduler "a" =
        s'.db.tasksOf .recurringScheduler "a" ++
          if (plainPoll 86400000000).Reaches s' "a" ∧ FiresAt (dailyReminder "a" 0)
            (reachedAt "a" s [plainPoll 3]) 86400000008
          then [(dailyReminder "a" 0).executionTask 86400000008] else []) := by
  have hkeyed : Keyed RecurringScheduler.clientId [dailyReminder "a" 0] := by decide
  refine ⟨by decide +kernel, by decide +kernel, ?_⟩
  exact (@recurring_fires_once_per_slot ⟨[dailyReminder "a" 0], [], []⟩ _ 5 hkeyed
    (List.mem_singleton.mpr rfl) (by decide) (by decide) [plainPoll 3] (plainPoll 86400000000)).1

/-- Two hundred schedulers of a later day before one that is due. -/
def crowdedSchedulers : List RecurringScheduler :=
  (List.range 200).map (fun n => dailyReminder (.ofList (.replicate (n + 1) 'x')) 86400000000) ++
    [dailyReminder "due" 0]

theorem keyed_crowdedSchedulers : Keyed RecurringScheduler.clientId crowdedSchedulers := by
  rw [Keyed, crowdedSchedulers, List.map_append, List.map_map, List.nodup_append]
  refine ⟨List.Nodup.map (fun n m h => ?_) List.nodup_range, List.nodup_singleton _, ?_⟩
  · have hlength := congrArg (fun id : String => id.toList.length) h
    simpa [dailyReminder] using hlength
  · rintro id hid due hdue rfl
    obtain ⟨n, -, hn⟩ := List.mem_map.mp hid
    have hchars := congrArg String.toList (hn.trans (List.mem_singleton.mp hdue))
    simp [dailyReminder, List.replicate_succ] at hchars

/-- The first poll of the first slot of an active scheduler, which has never fired, does not look
at it: the query returns two hundred others. -/
theorem first_poll_of_slot_passes_over :
    let s : System := ⟨5, ⟨crowdedSchedulers, [], []⟩⟩
    Keyed RecurringScheduler.clientId s.db.recurringSchedulers ∧
      dailyReminder "due" 0 ∈ s.db.recurringSchedulers ∧ (dailyReminder "due" 0).HasGrid ∧
      FiresAt (dailyReminder "due" 0) [] ((plainPoll 3).now s) ∧
      (fireDueRecurringSchedulers s (plainPoll 3)).db.tasksOf .recurringScheduler "due" = [] :=
  ⟨keyed_crowdedSchedulers, List.mem_append_right _ (List.mem_singleton.mpr rfl), by decide,
    by decide, by decide +kernel⟩

end BeyoManager.Schedulers
