import BeyoManager.Shifts.StalePasses

/-! # The loop over stale shifts

Between two passes the loop holds either the tables it began with or a shift that it has opened
itself. Such a shift is opened on a later day than the one before it, which bounds the passes, and
its closure pauses the step it was opened from unless the task of that step is deleted.
-/

namespace BeyoManager.Shifts

open Relational Sorting Transition
open TaskSteps (ClientId StepStateRecord TaskStep)

variable {ids : NewIds} {userId : ClientId} {now start : Instant} {db db₀ : Db} {s s' : Sweep}
  {res : Sweep ⊕ SweepEnd}

/-- The variables with which the loop is left. -/
def SweepEnd.sweep : SweepEnd → Sweep
  | shift s => s
  | noShift s => s

/-! ### Opening a shift -/

theorem markers_append (records : List UserShiftStateRecord) (state : UserShiftState) :
    ({ db with shiftRecords := db.shiftRecords ++ records } : Db).markers userId state =
      db.markers userId state ++
        records.filter fun r => r.userId == userId && r.state == state := by
  rw [Db.markers, List.filter_append, ← Db.markers]

theorem startSweep_ready (hnone : db.NoneOpen userId) :
    Ready userId now db (db.startSweep userId) where
  chain := List.Pairwise.nil
  ended := fun _ hc => absurd hc List.not_mem_nil
  steps := List.Subset.refl _
  live := fun _ => rfl
  count := fun _ => by
    change 0 + (db.workingSteps userId).length ≤ 1 + (db.workingSteps userId).length
    omega
  settled := fun hkept => ⟨hnone, hkept.ended hnone⟩

/-- A shift that has outlived its day when it is opened. -/
theorem Ready.opened (h : Ready userId now db₀ s)
    (hok : openFromSteps ids userId now s = .ok (.inl s')) :
    ∃ start, Opened ids userId now db₀ start s' ∧
      ∀ m ∈ s.db.markers userId .endedShift, m.enteredAt ≤ start := by
  rcases openFromSteps_eq_ok hok with ⟨-, hres⟩ | ⟨e, rest, start, hsteps, he, hended, hres⟩
  · cases hres
  rcases hres with ⟨hpast, hnone, hres⟩ | ⟨-, hres⟩
  swap
  · cases hres
  cases hres
  refine ⟨start, ?_, hended⟩
  have hstarted : ∀ m, m ∈ Db.markers
      { s.db.started ids userId start with
        shiftRecords := (s.db.started ids userId start).shiftRecords ++
          [openIdleRecord ids userId start none] } userId .startedShift ↔
      m ∈ s.db.markers userId .startedShift ∨ m = marker ids userId .startedShift start none := by
    intro m
    rw [markers_append, Db.started, markers_append]
    simp [marker, openIdleRecord]
  constructor
  · rfl
  · rfl
  · exact hpast
  · exact ⟨_, (hstarted _).mpr (.inr rfl), rfl⟩
  · exact h.chain
  · intro c hc
    obtain ⟨m, hm, hle⟩ := h.ended c hc
    exact hle.trans (hended m hm)
  · exact h.steps
  · exact ⟨e, rest, hsteps, he⟩
  · exact h.live
  · exact h.count
  · intro r hr hu hopen
    rcases List.mem_append.mp hr with hr | hr
    · rcases List.mem_append.mp hr with hr | hr
      · exact absurd hopen (hnone r hr hu)
      · rw [List.mem_singleton.mp hr] at hopen
        cases hopen
    · exact List.mem_singleton.mp hr
  · intro hkept m hm hnow
    rcases (hstarted m).mp hm with hm | rfl
    · obtain ⟨e', he', hle⟩ := (h.settled hkept).2 m hm hnow
      exact hle.trans (hended e' he')
    · exact le_rfl

theorem Ready.ends {e : SweepEnd} (h : Ready userId now db₀ s)
    (hok : openFromSteps ids userId now s = .ok (.inr e)) :
    e.sweep.closures = s.closures ∧
      (db₀.Kept userId now → e.sweep.db.NoneOpen userId) := by
  rcases openFromSteps_eq_ok hok with ⟨-, hres⟩ | ⟨_, _, start, -, -, -, hres⟩
  · cases hres
    exact ⟨rfl, fun hkept => (h.settled hkept).1⟩
  rcases hres with ⟨-, -, hres⟩ | ⟨-, hres⟩
  · cases hres
  cases hres
  refine ⟨rfl, fun hkept r hr hu hopen => ?_⟩
  rcases List.mem_append.mp hr with hr | hr
  · exact (h.settled hkept).1 r hr hu hopen
  · rw [List.mem_singleton.mp hr] at hopen
    cases hopen

/-! ### Closing a shift -/

variable (ids userId now db₀) in
/-- What the loop holds before a pass: the tables it began with, or a shift it has opened. -/
def BeforePass (s : Sweep) : Prop :=
  s = db₀.startSweep userId ∨ ∃ start, Opened ids userId now db₀ start s

/-- When the kept tables have an open shift, its start is that of its only open record. -/
theorem Db.Kept.startedAt (hkept : db.Kept userId now) {current : UserShiftStateRecord}
    (hcurrent : db.openShift userId = some current) :
    (∀ r ∈ db.shiftRecords, r.userId = userId → r.exitedAt = none →
      r.state.isDurationful = true ∧ db.openShiftStartedAt userId current now ≤ r.enteredAt) ∧
    ∀ m ∈ db.markers userId .startedShift, m.enteredAt ≤ now →
      m.enteredAt ≤ db.openShiftStartedAt userId current now := by
  obtain ⟨hmem, hu, hopen⟩ := openShift_eq_some hcurrent
  unfold Db.openShiftStartedAt
  cases hlast : db.lastStart userId now with
  | none =>
    constructor
    · intro r hr hru hropen
      obtain rfl := hkept.unique r hr current hmem hru hu hropen hopen
      exact ⟨(hkept.span r hr hru hropen).1, le_rfl⟩
    · intro m hm hnow
      rw [Db.lastStart, List.max?_eq_none_iff, List.map_eq_nil_iff, List.filter_eq_nil_iff] at hlast
      exact absurd (decide_eq_true hnow) (hlast m hm)
  | some last =>
    obtain ⟨⟨m, hm, hnow, hlast⟩, hle⟩ := lastStart_eq_some.mp hlast
    constructor
    · intro r hr hru hropen
      obtain ⟨hspan, hmarks⟩ := hkept.span r hr hru hropen
      exact ⟨hspan, hlast ▸ hmarks m hm hnow⟩
    · exact hle

theorem Opened.startedAt_eq (h : Opened ids userId now db₀ start s) (hkept : db₀.Kept userId now)
    (current : UserShiftStateRecord) : s.db.openShiftStartedAt userId current now = start := by
  apply le_antisymm _ (h.le_startedAt current)
  unfold Db.openShiftStartedAt
  cases hlast : s.db.lastStart userId now with
  | none =>
    obtain ⟨m, hm, hstart⟩ := h.marked
    rw [Db.lastStart, List.max?_eq_none_iff, List.map_eq_nil_iff, List.filter_eq_nil_iff] at hlast
    have hnow : m.enteredAt ≤ now := hstart ▸ (lt_of_isPastWorkDayEnd h.past).le
    exact absurd (decide_eq_true hnow) (hlast m hm)
  | some last =>
    obtain ⟨⟨m, hm, hnow, hlast⟩, -⟩ := lastStart_eq_some.mp hlast
    exact hlast ▸ h.settled hkept m hm hnow

/-- A closure leaves the loop ready for the next shift. -/
theorem BeforePass.ready (h : BeforePass ids userId now db₀ s) {current : UserShiftStateRecord}
    (hcurrent : s.current = some current) {db' : Db} {pausedStepIds : List ClientId}
    (hclose : closeOpenShift s.db ids userId (s.db.openShiftStartedAt userId current now)
      (workDayEnd (s.db.openShiftStartedAt userId current now)) none = .ok (db', pausedStepIds)) :
    Ready userId now db₀
      { db := db'
        current := none
        shiftStartedAt := none
        autoClockedIn := false
        closures := s.closures ++ [⟨workDayEnd (s.db.openShiftStartedAt userId current now),
          pausedStepIds⟩] } := by
  obtain ⟨hcloses, -⟩ := closeOpenShift_closes hclose
  rcases h with rfl | ⟨start, h⟩
  · apply ready_of_closes hcloses (lt_workDayEnd _)
    · exact List.Pairwise.nil
    · exact fun _ hc => absurd hc List.not_mem_nil
    · exact List.Subset.refl _
    · exact fun _ => rfl
    · intro _
      have hle := hcloses.length_le
      change 0 + 1 + _ ≤ _
      change _ ≤ (db₀.workingSteps userId).length at hle
      omega
    · exact fun hkept => (hkept.startedAt hcurrent).1
    · exact fun hkept => (hkept.startedAt hcurrent).2
  · have hstart := h.le_startedAt current
    obtain ⟨e, rest, hsteps, he⟩ := h.earliest
    have hmem : e ∈ s.db.workingSteps userId := by
      rw [hsteps]
      exact List.mem_cons_self
    have hbefore := (he.trans hstart).trans_lt (lt_workDayEnd (s.db.openShiftStartedAt userId
      current now))
    apply ready_of_closes hcloses (lt_workDayEnd _) h.chain
    · exact fun c hc => ((h.closures_le c hc).trans hstart).trans_lt (lt_workDayEnd _)
    · exact h.steps
    · exact h.live
    · intro hall
      have hlt := hcloses.length_lt hmem ((h.live e).trans (hall e (h.steps hmem))) hbefore
      have hcount := h.count hall
      omega
    · intro hkept r hr hu hopen
      rw [h.startedAt_eq hkept, h.onlyOpen r hr hu hopen]
      exact ⟨rfl, le_rfl⟩
    · intro hkept
      rw [h.startedAt_eq hkept]
      exact h.settled hkept

/-! ### Passes -/

/-- What is done in a pass: the shift is closed where its work day ended, and another one is
opened; without a shift, one is opened. -/
theorem BeforePass.round (h : BeforePass ids userId now db₀ s)
    (hok : sweepRound ids userId now s = .ok res) :
    (∃ current, s.current = some current ∧
        now < workDayEnd (s.db.openShiftStartedAt userId current now) ∧ res = .inr (.shift s)) ∨
      ∃ s₁, Ready userId now db₀ s₁ ∧ openFromSteps ids userId now s₁ = .ok res ∧
        (s.current = none ∧ s₁ = s ∨
          ∃ current pausedStepIds db', s.current = some current ∧
            closeOpenShift s.db ids userId (s.db.openShiftStartedAt userId current now)
              (workDayEnd (s.db.openShiftStartedAt userId current now)) none =
                .ok (db', pausedStepIds) ∧
            s₁.db = db' ∧
            s₁.closures = s.closures ++ [⟨workDayEnd (s.db.openShiftStartedAt userId current now),
              pausedStepIds⟩]) := by
  cases hcurrent : s.current with
  | none =>
    right
    rcases h with rfl | ⟨start, h⟩
    · refine ⟨_, startSweep_ready (openShift_eq_none.mp hcurrent), ?_, .inl ⟨rfl, rfl⟩⟩
      rw [sweepRound, hcurrent] at hok
      exact hok
    · rw [h.current] at hcurrent
      cases hcurrent
  | some current =>
    rcases sweepRound_of_current hcurrent hok with ⟨hinside, hres⟩ | ⟨db', paused, -, hclose, hopen⟩
    · exact .inl ⟨current, rfl, hinside, hres⟩
    · exact .inr ⟨_, h.ready hcurrent hclose, hopen, .inr ⟨current, paused, db', rfl, hclose,
        rfl, rfl⟩⟩

theorem BeforePass.opened (h : BeforePass ids userId now db₀ s)
    (hok : Loop.Repeats (sweepRound ids userId now) s s') :
    ∃ start, Opened ids userId now db₀ start s' := by
  rcases h.round hok with ⟨_, -, -, hres⟩ | ⟨s₁, hready, hopen, -⟩
  · cases hres
  · obtain ⟨start, hopened, -⟩ := hready.opened hopen
    exact ⟨start, hopened⟩

variable (userId now db₀) in
def passesLeft (s : Sweep) : ℕ :=
  match s.shiftStartedAt with
  | some start => (dayOf now - dayOf start).toNat
  | none => db₀.sweepBound userId now - 1

theorem passesLeft_of_opened (h : Opened ids userId now db₀ start s) :
    passesLeft userId now db₀ s = (dayOf now - dayOf start).toNat := by
  rw [passesLeft, h.startedAt]

/-- A pass that is followed by another one leaves fewer. -/
theorem BeforePass.passesLeft_lt (h : BeforePass ids userId now db₀ s)
    (hok : Loop.Repeats (sweepRound ids userId now) s s') :
    passesLeft userId now db₀ s' < passesLeft userId now db₀ s := by
  rcases h.round hok with ⟨_, -, -, hres⟩ | ⟨s₁, hready, hopen, hfrom⟩
  · cases hres
  obtain ⟨start', hopened, hended⟩ := hready.opened hopen
  rw [passesLeft_of_opened hopened]
  have hpast := dayOf_lt hopened.past
  rcases h with rfl | ⟨start, h⟩
  · -- the first pass: the shift is opened on the day of a step that was being worked, or later
    obtain ⟨e, rest, hsteps, he⟩ := hopened.earliest
    have hmem : e ∈ db₀.workingSteps userId := hopened.steps (hsteps ▸ List.mem_cons_self)
    rw [passesLeft]
    change _ < db₀.sweepBound userId now - 1
    cases hbegin : db₀.workingSteps userId with
    | nil =>
      rw [hbegin] at hmem
      cases hmem
    | cons first others =>
      have hday := dayOf_mono ((earliest_le hbegin hmem).trans he)
      rw [Db.sweepBound, show db₀.loadOpenSteps userId [.working] none =
        first :: others from hbegin]
      change _ < (dayOf now - dayOf first.enteredAt).toNat + 3 - 1
      omega
  · -- a later pass: the shift is opened after the day on which the one before it was closed
    rw [passesLeft_of_opened h]
    rcases hfrom with ⟨hnone, -⟩ | ⟨current, paused, db', -, hclose, rfl, -⟩
    · rw [h.current] at hnone
      cases hnone
    obtain ⟨m, hm, hmarks⟩ := (closeOpenShift_closes hclose).1.ended
    have hboundary : workDayEnd (s.db.openShiftStartedAt userId current now) ≤ start' := by
      rw [← hm]
      apply hended
      rw [hmarks]
      exact List.mem_append_right _ (List.mem_singleton_self _)
    have hday := dayOf_mono hboundary
    rw [dayOf_workDayEnd] at hday
    have hstart := dayOf_mono (h.le_startedAt current)
    omega

theorem sweepStale_ne_none : sweepStale ids userId now db ≠ .ok none := by
  apply Loop.run_ne_none (P := BeforePass ids userId now db) (μ := passesLeft userId now db)
  · intro s s' h hok
    exact ⟨.inr (h.opened hok), h.passesLeft_lt hok⟩
  · exact .inl rfl
  · change db.sweepBound userId now - 1 < db.sweepBound userId now
    unfold Db.sweepBound
    split <;> omega

theorem beforePass_of_reaches
    (h : Relation.ReflTransGen (Loop.Repeats (sweepRound ids userId now))
      (db.startSweep userId) s) :
    BeforePass ids userId now db s :=
  Loop.invariant (fun _ _ hs hok => .inr (hs.opened hok)) h (.inl rfl)

/-- How the loop is left. -/
theorem BeforePass.ends {e : SweepEnd} (h : BeforePass ids userId now db₀ s)
    (hok : sweepRound ids userId now s = .ok (.inr e)) :
    (e.sweep.closures.map StaleShiftClosure.closedAt).Pairwise (· < ·) ∧
      ((∀ r ∈ db₀.workingSteps userId, db₀.onLiveTask r) →
        e.sweep.closures.length ≤ 1 + (db₀.workingSteps userId).length) ∧
      (db₀.Kept userId now → e.sweep.db.NoneOutlived userId now) := by
  rcases h.round hok with ⟨current, hcurrent, hinside, hres⟩ | ⟨s₁, hready, hopen, -⟩
  · cases hres
    rcases h with rfl | ⟨start, h⟩
    · refine ⟨List.Pairwise.nil, fun _ => Nat.zero_le _, fun hkept r hr hu hnone => ?_⟩
      obtain ⟨hmem, hu', hopen⟩ := openShift_eq_some hcurrent
      obtain rfl := hkept.unique r hr current hmem hu hu' hnone hopen
      exact hinside
    · refine ⟨h.chain, fun hall => ?_, fun hkept r hr hu hnone => ?_⟩
      · have hcount := h.count hall
        change s.closures.length ≤ _
        omega
      · rw [h.onlyOpen r hr hu hnone]
        rw [h.current] at hcurrent
        cases hcurrent
        exact hinside
  · obtain ⟨hclosures, hnone⟩ := hready.ends hopen
    rw [hclosures]
    refine ⟨hready.chain, fun hall => ?_, fun hkept r hr hu hopen => ?_⟩
    · have hcount := hready.count hall
      omega
    · exact absurd hopen (hnone hkept r hr hu)

variable (ids userId now db) in
/-- What the loop over stale shifts is for: it ends; every closure is later than the one before; a
pass pauses every working step of a live task that was started before the closure, and after the
first pass the earliest working step was; when all tasks are live, the working steps bound the
passes; and when the tables are kept, no shift that has outlived its work day stays open. -/
structure SweepSettles : Prop where
  ends : sweepStale ids userId now db ≠ .ok none
  later : ∀ e, sweepStale ids userId now db = .ok (some e) →
    (e.sweep.closures.map StaleShiftClosure.closedAt).Pairwise (· < ·)
  pauses : ∀ s db' closure, Relation.ReflTransGen (Loop.Repeats (sweepRound ids userId now))
      (db.startSweep userId) s →
    closeStaleOpenShift s.db ids userId s.current now = .ok (some (db', closure)) →
      ∀ r ∈ s.db.workingSteps userId, s.db.onLiveTask r → r.enteredAt < closure.closedAt →
        r.stepId ∈ closure.pausedStepIds
  earliest : ∀ s db' closure, Relation.TransGen (Loop.Repeats (sweepRound ids userId now))
      (db.startSweep userId) s →
    closeStaleOpenShift s.db ids userId s.current now = .ok (some (db', closure)) →
      ∃ earliest rest, s.db.workingSteps userId = earliest :: rest ∧
        earliest.enteredAt < closure.closedAt
  passes : (∀ r ∈ db.workingSteps userId, db.onLiveTask r) →
    ∀ e, sweepStale ids userId now db = .ok (some e) →
      e.sweep.closures.length ≤ 1 + (db.workingSteps userId).length
  settled : db.Kept userId now → ∀ e, sweepStale ids userId now db = .ok (some e) →
    e.sweep.db.NoneOutlived userId now

theorem closeStaleOpenShift_eq_some {current : Option UserShiftStateRecord} {db' : Db}
    {closure : StaleShiftClosure}
    (hok : closeStaleOpenShift db ids userId current now = .ok (some (db', closure))) :
    ∃ r, current = some r ∧
      closure.closedAt = workDayEnd (db.openShiftStartedAt userId r now) ∧
      closeOpenShift db ids userId (db.openShiftStartedAt userId r now) closure.closedAt none =
        .ok (db', closure.pausedStepIds) := by
  unfold closeStaleOpenShift at hok
  split at hok
  · cases hok
  · next r =>
    dsimp only at hok
    split at hok
    · cases hok
    obtain ⟨⟨db₁, paused⟩, hclose, hok⟩ := bind_eq_ok.mp hok
    cases hok
    exact ⟨r, rfl, rfl, hclose⟩

/-- The loop over stale shifts settles whatever tables it is given. -/
theorem stale_sweep_settles : SweepSettles ids userId now db := by
  have hends : ∀ e, sweepStale ids userId now db = .ok (some e) →
      ∃ s, BeforePass ids userId now db s ∧ sweepRound ids userId now s = .ok (.inr e) := by
    intro e h
    obtain ⟨s, hreach, hok⟩ := Loop.run_eq_some h
    exact ⟨s, beforePass_of_reaches hreach, hok⟩
  constructor
  · exact sweepStale_ne_none
  · intro e h
    obtain ⟨s, hs, hok⟩ := hends e h
    exact (hs.ends hok).1
  · intro s db' closure _ hok r hr hlive hbefore
    obtain ⟨_, -, -, hclose⟩ := closeStaleOpenShift_eq_some hok
    obtain ⟨row, hrow, -, hid⟩ := exists_pausedRow (mem_workingSteps.mp hr) hlive hbefore
    rw [(closeOpenShift_closes hclose).2, ← hid]
    exact List.mem_map_of_mem hrow
  · intro s db' closure hreach hok
    obtain ⟨s₀, hreach, hrepeats⟩ := Relation.TransGen.tail'_iff.mp hreach
    obtain ⟨start, hopened⟩ := (beforePass_of_reaches hreach).opened hrepeats
    obtain ⟨e, rest, hsteps, he⟩ := hopened.earliest
    obtain ⟨current, -, hclosedAt, -⟩ := closeStaleOpenShift_eq_some hok
    refine ⟨e, rest, hsteps, ?_⟩
    rw [hclosedAt]
    exact (he.trans (hopened.le_startedAt current)).trans_lt (lt_workDayEnd _)
  · intro hall e h
    obtain ⟨s, hs, hok⟩ := hends e h
    exact (hs.ends hok).2.1 hall
  · intro hkept e h
    obtain ⟨s, hs, hok⟩ := hends e h
    exact (hs.ends hok).2.2 hkept

/-! ### Clocking in and out -/

section Clock

variable {changedById : Option ClientId} {actorId : ClientId} {pausedStepIds : List ClientId}
  {db' : Db}

/-- A shift counts as clocked in until its work day has ended. -/
def Db.ClockedIn (db : Db) (userId : ClientId) (now : Instant) : Prop :=
  ∃ current, db.openShift userId = some current ∧
    now < workDayEnd (db.openShiftStartedAt userId current now)

theorem closeStaleOpenShift_eq_none {current : UserShiftStateRecord}
    (hok : closeStaleOpenShift db ids userId (some current) now = .ok none) :
    now < workDayEnd (db.openShiftStartedAt userId current now) := by
  unfold closeStaleOpenShift at hok
  dsimp only at hok
  split at hok
  · assumption
  obtain ⟨_, -, hok⟩ := bind_eq_ok.mp hok
  cases hok

theorem not_clockedIn_of_closed {closed : Db × StaleShiftClosure}
    (hok : closeStaleOpenShift db ids userId (db.openShift userId) now = .ok (some closed)) :
    ¬ db.ClockedIn userId now := by
  rintro ⟨current, hcurrent, hinside⟩
  rw [hcurrent] at hok
  unfold closeStaleOpenShift at hok
  dsimp only at hok
  rw [if_pos hinside] at hok
  cases hok

/-- Clocking in is for a worker without a shift, and leaves one that is open. -/
theorem clockInShiftForUser_eq_ok
    (hok : clockInShiftForUser db ids userId now actorId = .ok (db', pausedStepIds)) :
    ¬ db.ClockedIn userId now ∧
      db'.openShift userId = some (openIdleRecord ids userId now (some actorId)) := by
  obtain ⟨stale, hstale, hok⟩ := bind_eq_ok.mp hok
  obtain ⟨hfree, hok⟩ := throwIf_bind_eq_ok.mp hok
  constructor
  · cases stale with
    | none =>
      rintro ⟨current, hcurrent, -⟩
      exact hfree ⟨rfl, by simp [hcurrent]⟩
    | some closed => exact not_clockedIn_of_closed hstale
  · dsimp only at hok
    obtain ⟨db₁, hstart, hok⟩ := bind_eq_ok.mp hok
    obtain ⟨db₂, hidle, hok⟩ := bind_eq_ok.mp hok
    cases hok
    obtain ⟨rfl, hnone⟩ := insertShiftRecord_eq_ok hidle
    have hnone : db₁.openShift userId = none := openShift_eq_none.mpr (hnone rfl)
    rw [Db.openShift] at hnone ⊢
    rw [List.find?_append, hnone]
    simp [openIdleRecord]

/-- Clocking out ends the shift, whichever end it is given. -/
theorem clockOutShiftForUser_eq_ok (hkept : db.Kept userId now)
    (hok : clockOutShiftForUser db ids userId now changedById = .ok (db', pausedStepIds)) :
    db.openShift userId ≠ none ∧ db'.NoneOpen userId := by
  obtain ⟨current, hcurrent, hok⟩ := bind_eq_ok.mp hok
  have hcurrent := getOr_eq_ok.mp hcurrent
  obtain ⟨stale, hstale, hok⟩ := bind_eq_ok.mp hok
  have hcloses : ∃ shiftEnd by_, closeOpenShift db ids userId
      (db.openShiftStartedAt userId current now) shiftEnd by_ = .ok (db', pausedStepIds) := by
    cases stale with
    | none => exact ⟨_, _, hok⟩
    | some closed =>
      obtain ⟨r, hr, -, hclose⟩ := closeStaleOpenShift_eq_some hstale
      cases hr
      cases hok
      exact ⟨_, _, hclose⟩
  obtain ⟨shiftEnd, by_, hclose⟩ := hcloses
  refine ⟨by simp [hcurrent], fun r hr hu hopen => ?_⟩
  obtain ⟨hmem, hbefore⟩ := (closeOpenShift_closes hclose).1.isOpen r hr hu hopen
  obtain ⟨hspan, hle⟩ := (hkept.startedAt hcurrent).1 r hmem hu hopen
  exact absurd (hbefore hspan) (not_lt.mpr hle)

/-- A toggle clocks out exactly when the worker counts as clocked in, and then no shift stays open;
otherwise it opens one. -/
theorem toggleWorkerShift_eq_ok {action : ToggleAction} (hkept : db.Kept userId now)
    (hok : toggleWorkerShift db ids userId actorId now = .ok (db', action, pausedStepIds)) :
    (action = .clockOut ∧ db.ClockedIn userId now ∧ db'.NoneOpen userId) ∨
      (action = .clockIn ∧ ¬ db.ClockedIn userId now ∧
        db'.openShift userId = some (openIdleRecord ids userId now (some actorId))) := by
  obtain ⟨stale, hstale, hok⟩ := bind_eq_ok.mp hok
  cases stale with
  | some closed =>
    obtain ⟨⟨db₁, paused⟩, hin, hok⟩ := bind_eq_ok.mp hok
    cases hok
    exact .inr ⟨rfl, not_clockedIn_of_closed hstale, (clockInShiftForUser_eq_ok hin).2⟩
  | none =>
    cases hcurrent : db.openShift userId with
    | none =>
      rw [hcurrent] at hok
      obtain ⟨⟨db₁, paused⟩, hin, hok⟩ := bind_eq_ok.mp hok
      cases hok
      exact .inr ⟨rfl, clockInShiftForUser_eq_ok hin⟩
    | some current =>
      rw [hcurrent] at hok hstale
      obtain ⟨⟨db₁, paused⟩, hout, hok⟩ := bind_eq_ok.mp hok
      cases hok
      exact .inl ⟨rfl, ⟨current, hcurrent, closeStaleOpenShift_eq_none hstale⟩,
        (clockOutShiftForUser_eq_ok hkept hout).2⟩

end Clock

/-! ### A first pass that pauses nothing, and a row from before its shift -/

def sewing : TaskStep where
  clientId := "sewing"
  taskId := "sofa"
  state := .working
  readinessStatus := .ready
  workingSectionId := "atelier"
  totalDependencies := 0
  completedDependencies := 0
  recordedTimeMarkedWrong := false
  takenFromAverage := false
  allowsBatchWorking := false
  closedAt := none
  latestStateRecordId := some "r"
  totalWorking := ⟨0, 0, 0⟩
  totalPause := ⟨0, 0, 0⟩
  totalEndedShift := ⟨0, 0, 0⟩
  totalCostMinor := none
  isDeleted := false

def sewingSince (enteredAt : Instant) : StepStateRecord where
  clientId := "r"
  stepId := "sewing"
  state := .working
  pauseReasonId := none
  transitionReason := none
  description := none
  takenFromAverage := false
  recordedTimeMarkedWrong := false
  enteredAt := enteredAt
  exitedAt := none
  createdById := some "ada"
  creditedUserId := some "ada"
  isDeleted := false

def shiftIds : NewIds where
  shiftRecord _ _ := "shift"
  stepRecord _ _ := "step"

/-- The tables of a worker with some shift records and step records. -/
def atelier (shiftRecords : List UserShiftStateRecord) (records : List StepStateRecord) : Db where
  shiftRecords := shiftRecords
  declaredRecords := []
  steps :=
    { tasks := [⟨"sofa", .working, none, false⟩]
      taskSteps := [sewing]
      stepStateRecords := records
      taskStepDependencies := []
      workingSections := []
      workingSectionDependencies := []
      pauseReasons := []
      items := []
      taskItems := []
      userWorkProfiles := [] }

/-- A shift that nobody has ended, with a step that was started on the next day. -/
def forgottenShift : Db :=
  atelier [marker shiftIds "ada" .startedShift 28800 none, openIdleRecord shiftIds "ada" 28800 none]
    [sewingSince 90000]

def lateMarker : Db :=
  atelier [marker shiftIds "ada" .startedShift 28800 none, openIdleRecord shiftIds "ada" 18000 none]
    []

/-- The first pass closes a shift that nobody has ended and pauses no step, as the only one was
started after the shift was over; and a row that was opened before its start marker stays open,
though its work day has ended. -/
theorem first_pass_pauses_nothing :
    (forgottenShift.workingSteps "ada" ≠ [] ∧
      ((closeStaleOpenShift forgottenShift shiftIds "ada" (forgottenShift.openShift "ada")
        90100).map fun closed => closed.map Prod.snd) = .ok (some ⟨86400, []⟩)) ∧
    ((sweepStale shiftIds "ada" 90100 lateMarker).map fun e => e.map fun e =>
      (e.sweep.db.shiftRecords.filter fun r => r.userId = "ada" ∧ r.exitedAt = none ∧
        workDayEnd (e.sweep.db.openShiftStartedAt "ada" r 90100) ≤ 90100).length) =
      .ok (some 1) := by
  decide +kernel

end BeyoManager.Shifts
