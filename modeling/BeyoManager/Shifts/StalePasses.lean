import BeyoManager.Shifts.ClosureEffects

/-! # The passes over stale shifts

Each pass of the loop closes its shift on a later day than the pass before, so the loop ends. A
pass pauses the step that its shift was opened from unless the task of that step is deleted, and
when the loop ends no shift that has outlived its work day is open.
-/

namespace BeyoManager.Shifts

open Relational Sorting Transition
open TaskSteps (ClientId StepStateRecord TaskStep)

section Tables

variable {db db' : Db} {ids : NewIds} {userId : ClientId} {now shiftStart clockOutAt : Instant}
  {e r : StepStateRecord} {rest : List StepStateRecord}

abbrev Db.workingSteps (db : Db) (userId : ClientId) : List StepStateRecord :=
  db.loadOpenSteps userId [.working] none

def Db.onLiveTask (db : Db) (r : StepStateRecord) : Bool :=
  (db.stepOf r).any fun s => (db.steps.fetchTask s.taskId).isSome

theorem mem_workingSteps : r ∈ db.workingSteps userId ↔ r ∈ db.openWorking userId := by
  rw [Db.workingSteps, loadOpenSteps_working]
  exact (sortBy_perm _ _).mem_iff

theorem earliest_le (h : db.workingSteps userId = e :: rest) (hr : r ∈ db.workingSteps userId) :
    e.enteredAt ≤ r.enteredAt := by
  have hsorted : (db.workingSteps userId).Pairwise fun a b =>
      toLex (a.enteredAt, a.clientId) ≤ toLex (b.enteredAt, b.clientId) := by
    rw [Db.workingSteps, loadOpenSteps_working]
    exact pairwise_sortBy
  rw [h] at hsorted hr
  rcases List.mem_cons.mp hr with rfl | hr
  · exact le_rfl
  · rcases Prod.Lex.toLex_le_toLex.mp (List.rel_of_pairwise_cons hsorted hr) with hlt | ⟨heq, -⟩
    · exact hlt.le
    · exact heq.le

theorem exists_pausedRow (hr : r ∈ db.openWorking userId) (hlive : db.onLiveTask r)
    (hlt : r.enteredAt < clockOutAt) :
    ∃ row ∈ db.loadOpenWorkingStepRows userId clockOutAt,
      row.1 = r ∧ row.2.1.clientId = r.stepId := by
  obtain ⟨hcredited, hopen⟩ := List.mem_filter.mp hr
  simp only [Bool.and_eq_true] at hopen
  obtain ⟨s, hs, htask⟩ := (Option.any_eq_true _ _).mp hlive
  obtain ⟨t, ht⟩ := Option.isSome_iff_exists.mp htask
  refine ⟨(r, s, t), List.mem_filterMap.mpr ⟨r, ?_, ?_⟩, rfl,
    (TaskSteps.fetchTaskStep_eq_some hs).2.1⟩
  · refine (sortBy_perm _ _).mem_iff.mpr (List.mem_filter.mpr ⟨hcredited, ?_⟩)
    simp only [Bool.and_eq_true, decide_eq_true_iff]
    exact ⟨hopen, hlt⟩
  · rw [hs, Option.bind_some, ht, Option.map_some]

theorem Closes.openWorking (h : Closes userId shiftStart clockOutAt db db') :
    db'.openWorking userId = (db.openWorking userId).filter fun r =>
      !((db.loadOpenWorkingStepRows userId clockOutAt).map fun row => row.1.clientId).contains
        r.clientId :=
  h.steps.openWorking rfl

theorem Closes.workingSteps_subset (h : Closes userId shiftStart clockOutAt db db') :
    db'.workingSteps userId ⊆ db.workingSteps userId := by
  intro r hr
  rw [mem_workingSteps, h.openWorking] at hr
  exact mem_workingSteps.mpr (List.mem_filter.mp hr).1

theorem length_workingSteps : (db.workingSteps userId).length = (db.openWorking userId).length := by
  rw [Db.workingSteps, loadOpenSteps_working]
  exact (sortBy_perm _ _).length_eq

theorem Closes.length_le (h : Closes userId shiftStart clockOutAt db db') :
    (db'.workingSteps userId).length ≤ (db.workingSteps userId).length := by
  rw [length_workingSteps, length_workingSteps, h.openWorking]
  exact List.length_filter_le _ _

theorem Closes.length_lt (h : Closes userId shiftStart clockOutAt db db')
    (hr : r ∈ db.workingSteps userId) (hlive : db.onLiveTask r) (hlt : r.enteredAt < clockOutAt) :
    (db'.workingSteps userId).length < (db.workingSteps userId).length := by
  rw [length_workingSteps, length_workingSteps, h.openWorking]
  have hr := mem_workingSteps.mp hr
  obtain ⟨row, hrow, hrec, -⟩ := exists_pausedRow hr hlive hlt
  refine List.length_filter_lt_length_iff_exists.mpr ⟨r, hr, ?_⟩
  have hmem : r.clientId ∈ (db.loadOpenWorkingStepRows userId clockOutAt).map
      fun row => row.1.clientId := hrec ▸ List.mem_map_of_mem hrow
  simpa using hmem

theorem Closes.onLiveTask (h : Closes userId shiftStart clockOutAt db db')
    (r : StepStateRecord) : db'.onLiveTask r = db.onLiveTask r := by
  have hmap := h.steps.map_fetchTaskStep r.stepId
  have hany : ∀ d : Db, d.onLiveTask r = ((d.steps.fetchTaskStep r.stepId).map place).any
      fun p => (d.steps.tasks.find? fun t => t.clientId == p.2.1 && !t.isDeleted).isSome := by
    intro d
    rw [Option.any_map]
    rfl
  rw [hany, hany, hmap, h.steps.tasks]

theorem lastStart_eq_some {start : Instant} : db.lastStart userId now = some start ↔
    (∃ m ∈ db.markers userId .startedShift, m.enteredAt ≤ now ∧ m.enteredAt = start) ∧
      ∀ m ∈ db.markers userId .startedShift, m.enteredAt ≤ now → m.enteredAt ≤ start := by
  rw [Db.lastStart, List.max?_eq_some_iff]
  simp only [List.mem_map, List.mem_filter, decide_eq_true_iff, and_assoc, forall_exists_index,
    and_imp]
  constructor
  · rintro ⟨hex, hle⟩
    exact ⟨hex, fun m hm hnow => hle _ m hm hnow rfl⟩
  · rintro ⟨hex, hle⟩
    exact ⟨hex, fun _ m hm hnow he => he ▸ hle m hm hnow⟩

theorem lastEnd_eq_some {end_ : Instant} : db.lastEnd userId = some end_ ↔
    (∃ m ∈ db.markers userId .endedShift, m.enteredAt = end_) ∧
      ∀ m ∈ db.markers userId .endedShift, m.enteredAt ≤ end_ := by
  rw [Db.lastEnd, List.max?_eq_some_iff]
  simp only [List.mem_map, forall_exists_index, and_imp, forall_apply_eq_imp_iff₂]

theorem lastEnd_eq_none : db.lastEnd userId = none ↔ db.markers userId .endedShift = [] := by
  rw [Db.lastEnd, List.max?_eq_none_iff, List.map_eq_nil_iff]

end Tables

section Rows

variable (db : Db) (userId : ClientId) (now : Instant)

/-- At most one shift record is open, it is a span, and no start marker is later; without an open
one, every start marker has an end marker at or after it. -/
structure Db.Kept : Prop where
  unique : ∀ r ∈ db.shiftRecords, ∀ r' ∈ db.shiftRecords, r.userId = userId → r'.userId = userId →
    r.exitedAt = none → r'.exitedAt = none → r = r'
  span : ∀ r ∈ db.shiftRecords, r.userId = userId → r.exitedAt = none →
    r.state.isDurationful = true ∧
      ∀ m ∈ db.markers userId .startedShift, m.enteredAt ≤ now → m.enteredAt ≤ r.enteredAt
  ended : (∀ r ∈ db.shiftRecords, r.userId = userId → r.exitedAt ≠ none) →
    ∀ m ∈ db.markers userId .startedShift, m.enteredAt ≤ now →
      ∃ e ∈ db.markers userId .endedShift, m.enteredAt ≤ e.enteredAt

/-- No shift is open whose work day has ended. -/
def Db.NoneOutlived : Prop :=
  ∀ r ∈ db.shiftRecords, r.userId = userId → r.exitedAt = none →
    now < workDayEnd (db.openShiftStartedAt userId r now)

def Db.NoneOpen : Prop := ∀ r ∈ db.shiftRecords, r.userId = userId → r.exitedAt ≠ none

variable {db userId now}

theorem openShift_eq_none : db.openShift userId = none ↔ db.NoneOpen userId := by
  rw [Db.openShift, List.find?_eq_none]
  constructor
  · intro h r hr hu hopen
    exact h r hr (by simp [hu, hopen])
  · intro h r hr hopen
    simp only [Bool.and_eq_true, beq_iff_eq, Option.isNone_iff_eq_none] at hopen
    exact h r hr hopen.1 hopen.2

theorem openShift_eq_some {r : UserShiftStateRecord} (h : db.openShift userId = some r) :
    r ∈ db.shiftRecords ∧ r.userId = userId ∧ r.exitedAt = none := by
  have hp := List.find?_some h
  simp only [Bool.and_eq_true, beq_iff_eq, Option.isNone_iff_eq_none] at hp
  exact ⟨List.mem_of_find?_eq_some h, hp.1, hp.2⟩

theorem insertShiftRecord_eq_ok {db' : Db} {r : UserShiftStateRecord}
    (h : db.insertShiftRecord r = .ok db') :
    db' = { db with shiftRecords := db.shiftRecords ++ [r] } ∧
      (r.exitedAt = none → db.NoneOpen r.userId) := by
  obtain ⟨-, h⟩ := throwIf_bind_eq_ok.mp h
  obtain ⟨hopen, h⟩ := throwIf_bind_eq_ok.mp h
  cases h
  exact ⟨rfl, fun hnone x hx hu hx' => hopen ⟨hnone, x, hx, hu, hx'⟩⟩

end Rows

section Sweep

variable {ids : NewIds} {userId : ClientId} {now start : Instant} {db₀ : Db} {s s' : Sweep}
  {res : Sweep ⊕ SweepEnd}

def Db.started (db : Db) (ids : NewIds) (userId : ClientId) (start : Instant) : Db :=
  { db with shiftRecords := db.shiftRecords ++ [marker ids userId .startedShift start none] }

/-- A round without a shift: nothing is being worked, or a shift is opened no earlier than the
earliest step and the last end marker, and it has outlived its day or not. -/
theorem openFromSteps_eq_ok (h : openFromSteps ids userId now s = .ok res) :
    (s.db.workingSteps userId = [] ∧ res = .inr (.noShift s)) ∨
      ∃ e rest start, s.db.workingSteps userId = e :: rest ∧ e.enteredAt ≤ start ∧
        (∀ m ∈ s.db.markers userId .endedShift, m.enteredAt ≤ start) ∧
        (isPastWorkDayEnd start now ∧ s.db.NoneOpen userId ∧
            res = .inl
              { s with
                db := { s.db.started ids userId start with
                  shiftRecords := (s.db.started ids userId start).shiftRecords ++
                    [openIdleRecord ids userId start none] }
                current := some (openIdleRecord ids userId start none)
                shiftStartedAt := some start
                autoClockedIn := true } ∨
          ¬ isPastWorkDayEnd start now ∧ res = .inr (.shift
            { s with
              db := s.db.started ids userId start
              autoClockedIn := true
              shiftStartedAt := some start })) := by
  unfold openFromSteps at h
  split at h
  · next hnone =>
    cases h
    exact .inl ⟨hnone, rfl⟩
  · next e rest hsteps =>
    right
    dsimp only at h
    generalize hstart : s.db.autoStart userId e = start at h
    obtain ⟨db₁, h₁, h⟩ := bind_eq_ok.mp h
    obtain ⟨rfl, -⟩ := insertShiftRecord_eq_ok h₁
    refine ⟨e, rest, start, hsteps, ?_, ?_, ?_⟩
    · rw [← hstart, Db.autoStart]
      split
      · exact le_max_left _ _
      · exact le_rfl
    · intro m hm
      rw [← hstart, Db.autoStart]
      split
      · next hend => exact ((lastEnd_eq_some.mp hend).2 m hm).trans (le_max_right _ _)
      · next hend =>
        rw [lastEnd_eq_none.mp hend] at hm
        cases hm
    · split at h
      · next hpast =>
        obtain ⟨db₂, h₂, h⟩ := bind_eq_ok.mp h
        obtain ⟨rfl, hopen⟩ := insertShiftRecord_eq_ok h₂
        cases h
        refine .inl ⟨hpast, fun r hr hu => hopen rfl r (List.mem_append_left _ hr) hu, rfl⟩
      · next hpast =>
        cases h
        exact .inr ⟨hpast, rfl⟩

/-- A round with a shift: it is inside its work day, or it is closed where that day ended. -/
theorem sweepRound_of_current {current : UserShiftStateRecord} (hcurrent : s.current = some current)
    (h : sweepRound ids userId now s = .ok res) :
    (now < workDayEnd (s.db.openShiftStartedAt userId current now) ∧ res = .inr (.shift s)) ∨
      ∃ db' pausedStepIds, workDayEnd (s.db.openShiftStartedAt userId current now) ≤ now ∧
        closeOpenShift s.db ids userId (s.db.openShiftStartedAt userId current now)
          (workDayEnd (s.db.openShiftStartedAt userId current now)) none =
            .ok (db', pausedStepIds) ∧
        openFromSteps ids userId now
          { db := db'
            current := none
            shiftStartedAt := none
            autoClockedIn := false
            closures := s.closures ++ [⟨workDayEnd (s.db.openShiftStartedAt userId current now),
              pausedStepIds⟩] } = .ok res := by
  unfold sweepRound at h
  rw [hcurrent] at h
  obtain ⟨stale, hstale, h⟩ := bind_eq_ok.mp h
  unfold closeStaleOpenShift at hstale
  dsimp only at hstale
  split at hstale
  · next hinside =>
    cases hstale
    cases h
    exact .inl ⟨hinside, rfl⟩
  · next houtside =>
    obtain ⟨⟨db', pausedStepIds⟩, hclose, hstale⟩ := bind_eq_ok.mp hstale
    cases hstale
    exact .inr ⟨db', pausedStepIds, not_lt.mp houtside, hclose, h⟩

variable (ids userId now db₀) in
/-- Between two passes, without a shift: what has been closed so far, measured against the tables
before the loop. -/
structure Ready (s : Sweep) : Prop where
  chain : (s.closures.map StaleShiftClosure.closedAt).Pairwise (· < ·)
  ended : ∀ c ∈ s.closures, ∃ m ∈ s.db.markers userId .endedShift, c.closedAt ≤ m.enteredAt
  steps : s.db.workingSteps userId ⊆ db₀.workingSteps userId
  live : ∀ r, s.db.onLiveTask r = db₀.onLiveTask r
  count : (∀ r ∈ db₀.workingSteps userId, db₀.onLiveTask r) →
    s.closures.length + (s.db.workingSteps userId).length ≤
      1 + (db₀.workingSteps userId).length
  settled : db₀.Kept userId now → s.db.NoneOpen userId ∧
    ∀ m ∈ s.db.markers userId .startedShift, m.enteredAt ≤ now →
      ∃ e ∈ s.db.markers userId .endedShift, m.enteredAt ≤ e.enteredAt

variable (ids userId now db₀) in
/-- Between two passes, with a shift that the loop has opened and that has outlived its day. -/
structure Opened (start : Instant) (s : Sweep) : Prop where
  current : s.current = some (openIdleRecord ids userId start none)
  startedAt : s.shiftStartedAt = some start
  past : isPastWorkDayEnd start now
  marked : ∃ m ∈ s.db.markers userId .startedShift, m.enteredAt = start
  chain : (s.closures.map StaleShiftClosure.closedAt).Pairwise (· < ·)
  closures_le : ∀ c ∈ s.closures, c.closedAt ≤ start
  steps : s.db.workingSteps userId ⊆ db₀.workingSteps userId
  earliest : ∃ e rest, s.db.workingSteps userId = e :: rest ∧ e.enteredAt ≤ start
  live : ∀ r, s.db.onLiveTask r = db₀.onLiveTask r
  count : (∀ r ∈ db₀.workingSteps userId, db₀.onLiveTask r) →
    s.closures.length + (s.db.workingSteps userId).length ≤
      1 + (db₀.workingSteps userId).length
  onlyOpen : ∀ r ∈ s.db.shiftRecords, r.userId = userId → r.exitedAt = none →
    r = openIdleRecord ids userId start none
  settled : db₀.Kept userId now →
    ∀ m ∈ s.db.markers userId .startedShift, m.enteredAt ≤ now → m.enteredAt ≤ start

theorem lt_of_isPastWorkDayEnd (h : isPastWorkDayEnd start now) : start < now :=
  (lt_workDayEnd start).trans_le h

theorem Opened.le_startedAt (h : Opened ids userId now db₀ start s)
    (current : UserShiftStateRecord) :
    start ≤ s.db.openShiftStartedAt userId current now := by
  obtain ⟨m, hm, hstart⟩ := h.marked
  have hnow : m.enteredAt ≤ now := hstart ▸ (lt_of_isPastWorkDayEnd h.past).le
  unfold Db.openShiftStartedAt
  cases hlast : s.db.lastStart userId now with
  | none =>
    rw [Db.lastStart, List.max?_eq_none_iff, List.map_eq_nil_iff, List.filter_eq_nil_iff] at hlast
    exact absurd (decide_eq_true hnow) (hlast m hm)
  | some last => exact hstart ▸ (lastStart_eq_some.mp hlast).2 m hm hnow

/-- The state after a closure is ready for the next shift. -/
theorem ready_of_closes {db' : Db} {shiftStart boundary : Instant} {pausedStepIds : List ClientId}
    (hclose : Closes userId shiftStart boundary s.db db') (hstart : shiftStart < boundary)
    (hchain : (s.closures.map StaleShiftClosure.closedAt).Pairwise (· < ·))
    (hlt : ∀ c ∈ s.closures, c.closedAt < boundary)
    (hsteps : s.db.workingSteps userId ⊆ db₀.workingSteps userId)
    (hlive : ∀ r, s.db.onLiveTask r = db₀.onLiveTask r)
    (hcount : (∀ r ∈ db₀.workingSteps userId, db₀.onLiveTask r) →
      s.closures.length + 1 + (db'.workingSteps userId).length ≤
        1 + (db₀.workingSteps userId).length)
    (hopen : db₀.Kept userId now → ∀ r ∈ s.db.shiftRecords, r.userId = userId →
      r.exitedAt = none → r.state.isDurationful = true ∧ shiftStart ≤ r.enteredAt)
    (hstarted : db₀.Kept userId now → ∀ m ∈ s.db.markers userId .startedShift,
      m.enteredAt ≤ now → m.enteredAt ≤ shiftStart) :
    Ready userId now db₀
      { db := db'
        current := none
        shiftStartedAt := none
        autoClockedIn := false
        closures := s.closures ++ [⟨boundary, pausedStepIds⟩] } := by
  obtain ⟨e, he, hended⟩ := hclose.ended
  have hmem : e ∈ db'.markers userId .endedShift := by
    rw [hended]
    exact List.mem_append_right _ (List.mem_singleton_self _)
  constructor
  · rw [List.map_append, List.pairwise_append]
    refine ⟨hchain, List.pairwise_singleton _ _, ?_⟩
    intro a ha b hb
    obtain ⟨c, hc, rfl⟩ := List.mem_map.mp ha
    rw [List.mem_singleton.mp hb]
    exact hlt c hc
  · intro c hc
    rcases List.mem_append.mp hc with hc | hc
    · exact ⟨e, hmem, he ▸ (hlt c hc).le⟩
    · rw [List.mem_singleton.mp hc]
      exact ⟨e, hmem, he.ge⟩
  · exact fun r hr => hsteps (hclose.workingSteps_subset hr)
  · exact fun r => (hclose.onLiveTask r).trans (hlive r)
  · intro hall
    rw [List.length_append]
    exact hcount hall
  · intro hkept
    constructor
    · intro r hr hu hnone
      obtain ⟨hr, hearly⟩ := hclose.isOpen r hr hu hnone
      obtain ⟨hspan, hle⟩ := hopen hkept r hr hu hnone
      exact (hearly hspan).not_ge hle
    · intro m hm hnow
      change m ∈ db'.markers userId .startedShift at hm
      rw [hclose.started] at hm
      exact ⟨e, hmem, he ▸ ((hstarted hkept m hm hnow).trans hstart.le)⟩

end Sweep

end BeyoManager.Shifts
