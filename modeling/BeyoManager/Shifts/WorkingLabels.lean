import BeyoManager.Analytics.LinearSegments
import BeyoManager.Shifts.StaleRuns

/-! # When a worker counts as working

Both the timeline of a closed shift and the live state are derived from the step records that were
entered in the shift. Work that was begun before the start marker is a carryover and leaves the
worker idle, also when it goes on in the shift.
-/

namespace BeyoManager.Shifts

open Relational Sorting Transition
open Analytics.LinearTimeline
open TaskSteps (ClientId StepStateRecord TaskStep TaskStepState)

/-- A step record is working at an instant. -/
def WorksAt (r : StepStateRecord) (t : Instant) : Prop :=
  r.state = .working ∧ r.enteredAt ≤ t ∧ ∀ x ∈ r.exitedAt, t < x

instance (r : StepStateRecord) (t : Instant) : Decidable (WorksAt r t) :=
  inferInstanceAs (Decidable (_ ∧ _ ∧ _))

/-- The timeline of a shift labels an instant as working. -/
def Db.LabelledWorking (db : Db) (userId : ClientId) (shiftStart t : Instant) : Prop :=
  ∃ r ∈ db.shiftRecords, r.userId = userId ∧ r.state = .working ∧ shiftStart ≤ r.enteredAt ∧
    r.enteredAt ≤ t ∧ ∀ x ∈ r.exitedAt, t < x

instance (db : Db) (userId : ClientId) (shiftStart t : Instant) :
    Decidable (db.LabelledWorking userId shiftStart t) :=
  inferInstanceAs (Decidable (∃ r ∈ db.shiftRecords, _))

section Segments

variable {intervals : List LinearInterval} {start stop t : ℚ}

/-- An instant is in a working segment exactly when a working interval covers it. -/
theorem exists_workingSegment_iff :
    (∃ seg ∈ computeLinearSegments intervals start stop stop [],
        seg.state = .working ∧ seg.start ≤ t ∧ t < seg.stop) ↔
      ∃ i ∈ intervals, i.state = .working ∧ CoversAt start stop stop i t := by
  have hparts : Partitions intervals start stop stop [] :=
    partitions_of_breaksInSpan breaksInSpan_nil
  constructor
  · rintro ⟨seg, hseg, hstate, hle, hlt⟩
    have heff := hparts.effective seg hseg t ⟨hle, hlt⟩
    rw [hstate] at heff
    generalize seg.reason = reason, seg.transitionReason = transitionReason at heff
    cases heff with
    | working hi hwork hcovers => exact ⟨_, hi, hwork, hcovers⟩
  · rintro ⟨i, hi, hwork, s, hs, hle, hlt⟩
    have hclamped : clamped start stop stop intervals ≠ [] :=
      List.ne_nil_of_mem (mem_clamped (c := (s.1, s.2, i)).mpr ⟨hi, hs⟩)
    obtain ⟨⟨a, ha⟩, b, hb⟩ := exists_span hclamped
    have hat : a ≤ t := (ha.2 ⟨i, hi, s, hs, rfl⟩).trans hle
    have htb : t < b := hlt.trans_le (hb.2 ⟨i, hi, s, hs, rfl⟩)
    obtain ⟨span, hspan, hspan₁, hspan₂⟩ := (hparts.tiles a b ha hb).exists_mem hat htb
    obtain ⟨seg, hseg, rfl⟩ := List.mem_map.mp hspan
    refine ⟨seg, hseg, ?_, hspan₁, hspan₂⟩
    have heff := hparts.effective seg hseg t ⟨hspan₁, hspan₂⟩
    generalize seg.state = state, seg.reason = reason, seg.transitionReason = transitionReason
      at heff
    cases heff with
    | working => rfl
    | paused hnone => exact absurd ⟨s, hs, hle, hlt⟩ (hnone i hi hwork)
    | endedShift hnone => exact absurd ⟨s, hs, hle, hlt⟩ (hnone i hi hwork)
    | idle hnone => exact absurd ⟨s, hs, hle, hlt⟩ (hnone i hi hwork)

theorem le_start_of_mem {seg : LinearSegment}
    (hseg : seg ∈ computeLinearSegments intervals start stop stop []) : start ≤ seg.start := by
  have hparts : Partitions intervals start stop stop [] :=
    partitions_of_breaksInSpan breaksInSpan_nil
  have hclamped : clamped start stop stop intervals ≠ [] := by
    intro hnil
    rw [hparts.empty (clamped_eq_nil_iff.mp hnil)] at hseg
    cases hseg
  obtain ⟨⟨a, ha⟩, b, hb⟩ := exists_span hclamped
  have hbounds := (hparts.tiles a b ha hb).bounds (List.mem_map_of_mem hseg)
  obtain ⟨i, -, s, hs, rfl⟩ := ha.1
  refine le_trans ?_ hbounds.1
  unfold clamp at hs
  dsimp only at hs
  split at hs
  · cases hs
  obtain rfl := Option.some.inj hs
  exact le_max_right _ _

end Segments

section Rebuild

variable {db db' : Db} {ids : NewIds} {userId : ClientId} {shiftStart shiftEnd t : Instant}
  {newId : UserShiftState → Instant → ClientId} {r : UserShiftStateRecord}

/-- A segment adds its own working record and no other. -/
theorem mem_addSegment {acc : List UserShiftStateRecord × Instant} {segment : LinearSegment}
    (hr : r.state = .working) :
    r ∈ (db.addSegment userId shiftStart shiftEnd newId acc segment).1 ↔
      r ∈ acc.1 ∨ segment.state = .working ∧
        r = db.segmentRecord userId shiftStart shiftEnd newId segment .working := by
  have hidle : ∀ start stop, r ≠ idleRecord userId newId start stop := by
    rintro start stop rfl
    cases hr
  have hrecord : ∀ state, r = db.segmentRecord userId shiftStart shiftEnd newId segment state →
      state = .working := by
    rintro state rfl
    exact hr
  unfold Db.addSegment
  cases hstate : segment.state with
  | endedShift => simp [segmentToShiftState]
  | working =>
    simp only [segmentToShiftState, List.mem_append, List.mem_singleton, true_and]
    split <;> simp [hidle]
  | paused =>
    simp only [segmentToShiftState, List.mem_append, List.mem_singleton]
    have hne : r ≠ db.segmentRecord userId shiftStart shiftEnd newId segment .inPause :=
      fun h => by cases hrecord _ h
    split <;> simp [hidle, hne]
  | idle =>
    simp only [segmentToShiftState, List.mem_append, List.mem_singleton]
    have hne : r ≠ db.segmentRecord userId shiftStart shiftEnd newId segment .idle :=
      fun h => by cases hrecord _ h
    split <;> simp [hidle, hne]

/-- The working records that are rebuilt are those of the working segments. -/
theorem mem_rebuiltRecords (hr : r.state = .working) :
    r ∈ db.rebuiltRecords userId shiftStart shiftEnd newId ↔
      ∃ segment ∈ computeLinearSegments (db.shiftIntervals userId shiftStart shiftEnd) shiftStart
        shiftEnd shiftEnd [], segment.state = .working ∧
          r = db.segmentRecord userId shiftStart shiftEnd newId segment .working := by
  have hfold : ∀ (segments : List LinearSegment) (acc : List UserShiftStateRecord × Instant),
      r ∈ (segments.foldl (db.addSegment userId shiftStart shiftEnd newId) acc).1 ↔
        r ∈ acc.1 ∨ ∃ segment ∈ segments, segment.state = .working ∧
          r = db.segmentRecord userId shiftStart shiftEnd newId segment .working := by
    intro segments
    induction segments with
    | nil => simp
    | cons segment segments ih =>
      intro acc
      rw [List.foldl_cons, ih, mem_addSegment hr, or_assoc]
      simp
  have hidle : ∀ start stop, r ≠ idleRecord userId newId start stop := by
    rintro start stop rfl
    cases hr
  unfold Db.rebuiltRecords
  dsimp only
  split
  · rw [List.mem_append, hfold]
    simp [hidle]
  · rw [hfold]
    simp

theorem coversAt_iff (hstart : shiftStart ≤ t) (hend : t < shiftEnd) (i : LinearInterval) :
    CoversAt shiftStart shiftEnd shiftEnd i t ↔
      i.enteredAt ≤ t ∧ ∀ x ∈ i.exitedAt, t < x := by
  have hstop : t < min (i.exitedAt.getD shiftEnd) shiftEnd ↔ ∀ x ∈ i.exitedAt, t < x := by
    rw [lt_min_iff]
    cases i.exitedAt <;> simp [hend]
  have hbegin : max i.enteredAt shiftStart ≤ t ↔ i.enteredAt ≤ t := by
    rw [max_le_iff]
    exact and_iff_left hstart
  rw [← hstop, ← hbegin]
  unfold CoversAt clamp
  dsimp only
  constructor
  · rintro ⟨s, hs, hle, hlt⟩
    split at hs
    · cases hs
    obtain rfl := Option.some.inj hs
    exact ⟨hle, hlt⟩
  · rintro ⟨hle, hlt⟩
    exact ⟨_, if_neg (not_le.mpr (hle.trans_lt hlt)), hle, hlt⟩

theorem bucketFor_eq_working {record : StepStateRecord} :
    bucketFor record = .working ↔ record.state = .working := by
  unfold bucketFor
  split
  · next h => exact iff_of_true rfl h
  · next h =>
    refine iff_of_false ?_ h
    split <;> simp

/-- The working intervals of a shift are those of its working step records. -/
theorem exists_workingInterval_iff (hstart : shiftStart ≤ t) (hend : t < shiftEnd) :
    (∃ i ∈ db.shiftIntervals userId shiftStart shiftEnd,
        i.state = .working ∧ CoversAt shiftStart shiftEnd shiftEnd i t) ↔
      ∃ record ∈ db.creditedRecords userId, shiftStart ≤ record.enteredAt ∧ WorksAt record t := by
  simp only [coversAt_iff hstart hend]
  constructor
  · rintro ⟨i, hi, hwork, hle, hlt⟩
    rcases List.mem_append.mp hi with hi | hi
    · rcases List.mem_append.mp hi with hi | hi
      · obtain ⟨record, hrecord, rfl⟩ := List.mem_map.mp hi
        obtain ⟨hcredited, hrow⟩ := List.mem_filter.mp hrecord
        simp only [enteredIn, Bool.and_eq_true, decide_eq_true_iff] at hrow
        exact ⟨record, hcredited, hrow.2.1, bucketFor_eq_working.mp hwork, hle, hlt⟩
      · obtain ⟨_, -, rfl⟩ := List.mem_map.mp hi
        cases hwork
    · obtain ⟨_, -, rfl⟩ := List.mem_map.mp hi
      cases hwork
  · rintro ⟨record, hcredited, hentered, hwork, hle, hlt⟩
    refine ⟨stepInterval record, ?_, bucketFor_eq_working.mpr hwork, hle, hlt⟩
    refine List.mem_append_left _ (List.mem_append_left _ (List.mem_map_of_mem ?_))
    refine List.mem_filter.mpr ⟨hcredited, ?_⟩
    simp [enteredIn, hwork, hentered, hle.trans_lt hend]

theorem creditedRecords_congr (h : db'.steps = db.steps) :
    db'.creditedRecords userId = db.creditedRecords userId := by
  unfold Db.creditedRecords Db.stepOf
  rw [h]

/-- The timeline of a closed shift labels as working the instants that a working step record of
the worker covers, if the record was entered in the shift. -/
theorem closeOpenShift_labels {changedById : Option ClientId} {pausedStepIds : List ClientId}
    (hok : closeOpenShift db ids userId shiftStart shiftEnd changedById = .ok (db', pausedStepIds))
    (hstart : shiftStart ≤ t) (hend : t < shiftEnd) :
    db'.LabelledWorking userId shiftStart t ↔
      ∃ record ∈ db.creditedRecords userId, shiftStart ≤ record.enteredAt ∧ WorksAt record t := by
  obtain ⟨steps, -, hok⟩ := bind_eq_ok.mp hok
  obtain ⟨db₁, hinsert, hok⟩ := bind_eq_ok.mp hok
  obtain ⟨rfl, -⟩ := insertShiftRecord_eq_ok hinsert
  cases hok
  set dropped := dropProjectionsFrom (clampOpenDeclared db userId shiftEnd) userId shiftEnd
    with hdropped
  have hcredited : dropped.creditedRecords userId = db.creditedRecords userId :=
    creditedRecords_congr rfl
  rw [← hcredited, ← exists_workingInterval_iff hstart hend, ← exists_workingSegment_iff]
  constructor
  · rintro ⟨r, hr, hu, hwork, hentered, hle, hlt⟩
    rcases List.mem_append.mp hr with hr | hr
    · rcases List.mem_append.mp hr with hr | hr
      · -- a span of the worker that began in the shift has been deleted
        obtain ⟨-, hkept⟩ := List.mem_filter.mp hr
        simp [hu, hwork, UserShiftState.isDurationful, enteredIn, hentered, hle.trans_lt hend]
          at hkept
      · obtain ⟨segment, hsegment, hstate, rfl⟩ := (mem_rebuiltRecords hwork).mp hr
        exact ⟨segment, hsegment, hstate, hle, hlt _ rfl⟩
    · rw [List.mem_singleton.mp hr] at hwork
      cases hwork
  · rintro ⟨segment, hsegment, hstate, hle, hlt⟩
    refine ⟨dropped.segmentRecord userId shiftStart shiftEnd ids.shiftRecord segment .working, ?_,
      rfl, rfl, ?_, hle, ?_⟩
    · refine List.mem_append_left _ (List.mem_append_right _ ?_)
      exact (mem_rebuiltRecords rfl).mpr ⟨segment, hsegment, hstate, rfl⟩
    · exact le_start_of_mem hsegment
    · intro x hx
      obtain rfl := Option.some.inj hx
      exact hlt

end Rebuild

section Reconcile

variable {db db' : Db} {ids : NewIds} {userId : ClientId} {now shiftStart : Instant} {s : Sweep}
  {outcome : ShiftReconcileOutcome}

theorem deriveTargetState_eq_working {openWorking openDeclared openPaused : ℕ} :
    deriveTargetState openWorking openDeclared openPaused = .working ↔ 1 ≤ openWorking := by
  unfold deriveTargetState
  split
  · next h => exact iff_of_true rfl h
  · next h =>
    refine iff_of_false ?_ h
    split
    · simp
    · split <;> simp

theorem countP_loadOpenSteps_pos :
    1 ≤ (db.loadOpenSteps userId [.working, .paused] (some shiftStart)).countP
        (fun r => r.state == .working) ↔
      ∃ r ∈ db.openWorking userId, shiftStart ≤ r.enteredAt := by
  rw [Nat.one_le_iff_ne_zero, ← Nat.pos_iff_ne_zero, List.countP_pos_iff]
  constructor
  · rintro ⟨r, hr, hwork⟩
    obtain ⟨hcredited, hopen⟩ := List.mem_filter.mp ((sortBy_perm _ _).mem_iff.mp hr)
    simp only [Bool.and_eq_true, Option.all_some, decide_eq_true_iff] at hopen
    refine ⟨r, List.mem_filter.mpr ⟨hcredited, ?_⟩, hopen.2⟩
    rw [Bool.and_eq_true]
    exact ⟨hopen.1.1, hwork⟩
  · rintro ⟨r, hr, hentered⟩
    obtain ⟨hcredited, hopen⟩ := List.mem_filter.mp hr
    rw [Bool.and_eq_true] at hopen
    refine ⟨r, (sortBy_perm _ _).mem_iff.mpr (List.mem_filter.mpr ⟨hcredited, ?_⟩), hopen.2⟩
    simp [hopen.1, eq_of_beq hopen.2, hentered]

theorem closeDeclared_steps {declared : Option UserDeclaredStateRecord}
    (h : db.closeDeclared declared now = .ok db') : db'.steps = db.steps := by
  cases declared with
  | none =>
    cases h
    rfl
  | some declared =>
    obtain ⟨-, h⟩ := throwIf_bind_eq_ok.mp h
    cases h
    rfl

theorem closeShiftRecord_steps {r : UserShiftStateRecord}
    (h : db.closeShiftRecord r now = .ok db') : db'.steps = db.steps := by
  obtain ⟨-, h⟩ := throwIf_bind_eq_ok.mp h
  cases h
  rfl

theorem replaceShiftRecord_steps {current : Option UserShiftStateRecord}
    {record : UserShiftStateRecord} (h : db.replaceShiftRecord current record now = .ok db') :
    db'.steps = db.steps := by
  obtain ⟨-, h⟩ := throwIf_bind_eq_ok.mp h
  cases current with
  | none =>
    obtain ⟨rfl, -⟩ := insertShiftRecord_eq_ok h
    rfl
  | some current =>
    obtain ⟨db₁, hclose, h⟩ := bind_eq_ok.mp h
    obtain ⟨rfl, -⟩ := insertShiftRecord_eq_ok h
    change db₁.steps = db.steps
    exact closeShiftRecord_steps hclose

theorem eq_or_eq_of_ite_eq {α : Type*} {c : Prop} [Decidable c] {x y a : α}
    (h : (if c then x else y) = a) : x = a ∨ y = a := by
  split at h
  · exact .inl h
  · exact .inr h

theorem deriveState_working (hok : deriveState ids userId now s = .ok (outcome, db')) :
    db'.steps = s.db.steps ∧ ∃ start, s.startOf userId now = some start ∧
      (outcome.state = some .working ↔ ∃ r ∈ s.db.openWorking userId, start ≤ r.enteredAt) := by
  obtain ⟨start, hstart, hok⟩ := bind_eq_ok.mp hok
  rw [getOr_eq_ok] at hstart
  obtain ⟨db₁, hclose, hok⟩ := bind_eq_ok.mp hok
  have hsteps := closeDeclared_steps hclose
  dsimp only at hok
  generalize htarget : deriveTargetState _ _ _ = target at hok
  have hwrites : db'.steps = s.db.steps ∧ outcome.state = some target := by
    rcases eq_or_eq_of_ite_eq hok with hok | hok
    · cases hok
      exact ⟨hsteps, rfl⟩
    · obtain ⟨db₂, hreplace, hok⟩ := bind_eq_ok.mp hok
      cases hok
      exact ⟨(replaceShiftRecord_steps hreplace).trans hsteps, rfl⟩
  refine ⟨hwrites.1, start, hstart, ?_⟩
  rw [hwrites.2, Option.some.injEq, ← htarget, deriveTargetState_eq_working,
    countP_loadOpenSteps_pos]

theorem noShift_workingSteps {db : Db}
    (hok : sweepStale ids userId now db = .ok (some (.noShift s))) :
    s.db.workingSteps userId = [] := by
  obtain ⟨s₀, hreach, hround⟩ := Loop.run_eq_some hok
  rcases (beforePass_of_reaches hreach).round hround with ⟨_, -, -, hres⟩ | ⟨s₁, -, hopen, -⟩
  · cases hres
  rcases openFromSteps_eq_ok hopen with ⟨hnone, hres⟩ | ⟨_, _, _, -, -, -, hres⟩
  · cases hres
    exact hnone
  · rcases hres with ⟨-, -, hres⟩ | ⟨-, hres⟩ <;> cases hres

/-- A reconcile reports the worker working exactly when, after it, a working record of the worker
is open that was entered at or after the start of the shift. -/
theorem reconcileOnce_working (hok : reconcileOnce ids userId now db = .ok (outcome, db')) :
    ∃ e, sweepStale ids userId now db = .ok (some e) ∧
      (outcome.state = some .working ↔ ∃ start ∈ e.sweep.startOf userId now,
        ∃ r ∈ db'.openWorking userId, start ≤ r.enteredAt) := by
  obtain ⟨e, he, hok⟩ := bind_eq_ok.mp hok
  have hopen : ∀ {db₁ db₂ : Db}, db₁.steps = db₂.steps →
      db₁.openWorking userId = db₂.openWorking userId := by
    intro db₁ db₂ h
    rw [Db.openWorking, creditedRecords_congr h]
    rfl
  rcases e with _ | e
  · cases hok
  · cases e with
    | noShift s =>
      cases hok
      refine ⟨_, he, iff_of_false (by simp) ?_⟩
      rintro ⟨_, -, r, hr, -⟩
      have hnone := noShift_workingSteps he
      have hmem := mem_workingSteps.mpr hr
      change r ∈ s.db.workingSteps userId at hmem
      rw [hnone] at hmem
      cases hmem
    | shift s =>
      obtain ⟨hsteps, start, hstart, hiff⟩ := deriveState_working hok
      refine ⟨_, he, ?_⟩
      rw [hiff, hopen hsteps]
      change _ ↔ ∃ start ∈ s.startOf userId now, _
      rw [hstart]
      simp

end Reconcile

/-- Work counts as such exactly when it was entered in the shift: in the timeline of a closed
shift, and in the live state that a reconcile reports. -/
theorem working_labels_scoped {userId : ClientId} {ids : NewIds} :
    (∀ (db db' : Db) (shiftStart shiftEnd : Instant) (changedById : Option ClientId)
        (pausedStepIds : List ClientId),
      closeOpenShift db ids userId shiftStart shiftEnd changedById = .ok (db', pausedStepIds) →
        ∀ t, shiftStart ≤ t → t < shiftEnd →
          (db'.LabelledWorking userId shiftStart t ↔
            ∃ r ∈ db.creditedRecords userId, shiftStart ≤ r.enteredAt ∧ WorksAt r t)) ∧
      ∀ (db db' : Db) (now : Instant) (outcome : ShiftReconcileOutcome),
        reconcileOnce ids userId now db = .ok (outcome, db') →
          ∃ e, sweepStale ids userId now db = .ok (some e) ∧
            (outcome.state = some .working ↔ ∃ start ∈ e.sweep.startOf userId now,
              ∃ r ∈ db'.openWorking userId, start ≤ r.enteredAt) :=
  ⟨fun _ _ _ _ _ _ hok _ hstart hend => closeOpenShift_labels hok hstart hend,
    fun _ _ _ _ hok => reconcileOnce_working hok⟩

/-- A step that is worked since shortly after the worker clocked in. -/
def clockedIn : Db :=
  atelier [marker shiftIds "ada" .startedShift 28800 none, openIdleRecord shiftIds "ada" 28800 none]
    [sewingSince 28900]

/-- The step counts as working when the shift is closed, and in the live state before. -/
theorem working_labels_scoped_bench :
    (∃ db' pausedStepIds, closeOpenShift clockedIn shiftIds "ada" 28800 30000 (some "ada") =
        .ok (db', pausedStepIds) ∧ db'.LabelledWorking "ada" 28800 29000) ∧
      ∃ outcome db', reconcileOnce shiftIds "ada" 29000 clockedIn = .ok (outcome, db') ∧
        outcome.state = some .working ∧
        ∃ e, sweepStale shiftIds "ada" 29000 clockedIn = .ok (some e) ∧
          ∃ start ∈ e.sweep.startOf "ada" 29000, ∃ r ∈ db'.openWorking "ada",
            start ≤ r.enteredAt := by
  have hcloses : (closeOpenShift clockedIn shiftIds "ada" 28800 30000
      (some "ada")).toOption.isSome := by
    decide +kernel
  have hworks : (reconcileOnce shiftIds "ada" 29000 clockedIn).map (fun result => result.1.state) =
      .ok (some .working) := by
    decide +kernel
  constructor
  · cases hok : closeOpenShift clockedIn shiftIds "ada" 28800 30000 (some "ada") with
    | error e =>
      rw [hok] at hcloses
      cases hcloses
    | ok closed =>
      refine ⟨closed.1, closed.2, rfl, ?_⟩
      refine (working_labels_scoped.1 _ _ _ _ _ _ hok 29000 (by decide +kernel)
        (by decide +kernel)).mpr ⟨sewingSince 28900, ?_⟩
      decide +kernel
  · cases hok : reconcileOnce shiftIds "ada" 29000 clockedIn with
    | error e =>
      rw [hok] at hworks
      cases hworks
    | ok result =>
      rw [hok] at hworks
      have hstate : result.1.state = some .working := Except.ok.inj hworks
      obtain ⟨e, he, hiff⟩ := working_labels_scoped.2 _ _ _ _ hok
      exact ⟨result.1, result.2, rfl, hstate, e, he, hiff.mp hstate⟩

/-! ### A step started just before the clock-in -/

/-- A step that is worked since shortly before the worker clocked in. -/
def earlyBird : Db :=
  atelier [marker shiftIds "ada" .startedShift 28800 none, openIdleRecord shiftIds "ada" 28800 none]
    [sewingSince 28700]

/-- The step is being worked, the live state is idle, and so is the timeline of the shift. -/
theorem early_start_counts_idle :
    (∃ r ∈ earlyBird.creditedRecords "ada", WorksAt r 29000 ∧ r.exitedAt = none) ∧
      (reconcileOnce shiftIds "ada" 29000 earlyBird).map (fun result => result.1.state) =
        .ok (some .idle) ∧
      (closeOpenShift earlyBird shiftIds "ada" 28800 30000 (some "ada")).map
        (fun closed => decide (closed.1.LabelledWorking "ada" 28800 29000)) = .ok false := by
  decide +kernel

end BeyoManager.Shifts
