import BeyoManager.Library.Slots
import BeyoManager.Schedulers.Tables
import Mathlib.Algebra.Order.Group.Int
import Mathlib.Tactic.Linarith
import Mathlib.Tactic.Ring

/-! # The grid of a recurring scheduler

A recurring job fires on the grid of its creation and its interval. Whether it is due and when
it runs next are computed from the latest grid point and the last one that was served.
-/

namespace BeyoManager.Schedulers

open Slots

/-- `INTERVAL_UNIT_TO_SECONDS`; a month has 30 days. -/
def intervalUnitToSeconds : IntervalValue → ℤ
  | .seconds => 1
  | .minutes => 60
  | .days => 86400
  | .months => 2592000

inductive CalendarError
  | valueError (message : String)
  | overflowError (message : String)
  deriving DecidableEq, Repr

/-- `str` of an exception. -/
def CalendarError.message : CalendarError → String
  | .valueError message | .overflowError message => message

/-- The seconds that no `timedelta` has: its days go up to 999999999. -/
def timedeltaLimit : ℤ := 1000000000 * 86400

/-- `datetime.max`. -/
def datetimeMax : Instant := 253402300799999999

/-- The message of a `timedelta` that is out of range. -/
def timedeltaOverflow (days : ℤ) : String :=
  if days < 2 ^ 31 then "days=" ++ toString days ++ "; must have magnitude <= 999999999"
  else "Python int too large to convert to C int"

/-- `recurring_interval`, in microseconds. -/
def recurringInterval (interval : ℤ) (intervalValue : IntervalValue) : Except CalendarError ℤ :=
  let seconds := interval * intervalUnitToSeconds intervalValue
  if seconds ≤ 0 then .error (.valueError "A recurring interval must be positive.")
  else if timedeltaLimit ≤ seconds then
    .error (.overflowError (timedeltaOverflow (seconds / 86400)))
  else .ok (seconds * 1000000)

/-- `grid_point`. -/
def gridPoint (anchor : Instant) (interval : ℤ) (now : Instant) : Instant :=
  anchor + (now - anchor) / interval * interval

/-- `recurring_grid_point`. -/
def recurringGridPoint (job : RecurringScheduler) (now : Instant) :
    Except CalendarError Instant := do
  let interval ← recurringInterval job.interval job.intervalValue
  pure (gridPoint job.createdAt interval now)

/-- `recurring_is_due`. -/
def recurringIsDue (job : RecurringScheduler) (now : Instant) : Except CalendarError Bool :=
  if now < job.createdAt then pure false
  else
    match job.lastInterval with
    | none => pure true
    | some lastInterval => do
      let slot ← recurringGridPoint job now
      pure (lastInterval < slot)

/-- `recurring_next_run_at`. -/
def recurringNextRunAt (job : RecurringScheduler) (now : Instant) :
    Except CalendarError Instant :=
  if now < job.createdAt then pure job.createdAt
  else do
    let currentSlot ← recurringGridPoint job now
    if ∀ lastInterval ∈ job.lastInterval, lastInterval < currentSlot then pure currentSlot
    else
      let interval ← recurringInterval job.interval job.intervalValue
      if datetimeMax < currentSlot + interval then
        throw (.overflowError "date value out of range")
      else pure (currentSlot + interval)

section GridPoint

variable {anchor now : Instant} {interval : ℤ}

theorem gridPoint_le (h : 0 < interval) : gridPoint anchor interval now ≤ now := by
  have := Int.ediv_mul_le (now - anchor) h.ne'
  rw [gridPoint]
  linarith

theorem le_gridPoint_iff (h : 0 < interval) (k : ℤ) :
    anchor + k * interval ≤ gridPoint anchor interval now ↔ anchor + k * interval ≤ now := by
  rw [gridPoint, add_le_add_iff_left, mul_le_mul_iff_of_pos_right h, Int.le_ediv_iff_mul_le h]
  constructor
  · intro hk
    linarith
  · intro hk
    linarith

theorem isSlot_gridPoint (h : 0 < interval) : IsSlot (gridPoint anchor interval) where
  le _ := gridPoint_le h
  mono _ _ hab := (le_gridPoint_iff h _).mpr ((gridPoint_le h).trans hab)
  idem _ := le_antisymm (gridPoint_le h) ((le_gridPoint_iff h _).mpr le_rfl)

theorem gridPoint_eq_iff (h : 0 < interval) {t : Instant} :
    gridPoint anchor interval t = gridPoint anchor interval now ↔
      (t - anchor) / interval = (now - anchor) / interval := by
  rw [gridPoint, gridPoint, add_right_inj, mul_left_inj' h.ne']

theorem gridPoint_add_le_iff (h : 0 < interval) {t : Instant} :
    gridPoint anchor interval now + interval ≤ t ↔
      gridPoint anchor interval now < gridPoint anchor interval t := by
  have hnext : gridPoint anchor interval now + interval =
      anchor + ((now - anchor) / interval + 1) * interval := by
    rw [gridPoint]
    ring
  constructor
  · intro hle
    rw [hnext, ← le_gridPoint_iff h, ← hnext] at hle
    linarith
  · intro hlt
    have hle : gridPoint anchor interval t ≤ t := gridPoint_le h
    refine le_trans ?_ hle
    rw [gridPoint, gridPoint, add_lt_add_iff_left, mul_lt_mul_iff_of_pos_right h] at hlt
    rw [hnext, gridPoint, add_le_add_iff_left, mul_le_mul_iff_of_pos_right h]
    exact hlt

end GridPoint

section Job

variable {job : RecurringScheduler} {now t : Instant}

/-- The job has a grid: its interval is positive and a `timedelta`. -/
def RecurringScheduler.HasGrid (job : RecurringScheduler) : Prop :=
  0 < job.interval * intervalUnitToSeconds job.intervalValue ∧
    job.interval * intervalUnitToSeconds job.intervalValue < timedeltaLimit

instance (job : RecurringScheduler) : Decidable job.HasGrid :=
  inferInstanceAs (Decidable (_ ∧ _))

/-- The length of the interval of a job that has a grid. -/
def RecurringScheduler.period (job : RecurringScheduler) : ℤ :=
  job.interval * intervalUnitToSeconds job.intervalValue * 1000000

/-- The slot rule of a job that has a grid. -/
def RecurringScheduler.slot (job : RecurringScheduler) (now : Instant) : Instant :=
  gridPoint job.createdAt job.period now

theorem RecurringScheduler.HasGrid.period_pos (h : job.HasGrid) : 0 < job.period :=
  mul_pos h.1 (by norm_num)

theorem RecurringScheduler.HasGrid.isSlot (h : job.HasGrid) : IsSlot job.slot :=
  isSlot_gridPoint h.period_pos

theorem recurringInterval_eq (h : job.HasGrid) :
    recurringInterval job.interval job.intervalValue = .ok job.period := by
  rw [recurringInterval]
  exact (if_neg (not_le.mpr h.1)).trans (if_neg (not_le.mpr h.2))

theorem recurringGridPoint_eq (h : job.HasGrid) :
    recurringGridPoint job now = .ok (job.slot now) := by
  rw [recurringGridPoint, recurringInterval_eq h]
  rfl

theorem recurringIsDue_eq (h : job.HasGrid) :
    recurringIsDue job now = .ok (decide (Due job.slot job.createdAt job.lastInterval now)) := by
  rw [recurringIsDue]
  split
  · rename_i hearly
    have hnot : ¬ Due job.slot job.createdAt job.lastInterval now := fun hd =>
      absurd hd.1 (not_le.mpr hearly)
    rw [decide_eq_false hnot]
    rfl
  · rename_i hstart
    split
    · rename_i hnone
      rw [hnone, decide_eq_true ⟨not_lt.mp hstart, by simp⟩]
      rfl
    · rename_i lastInterval hsome
      rw [recurringGridPoint_eq h, hsome]
      refine congrArg Except.ok (decide_eq_decide.mpr ?_)
      simp [Due, not_lt.mp hstart]

theorem recurringNextRunAt_eq (h : job.HasGrid) : recurringNextRunAt job now =
    if now < job.createdAt then .ok job.createdAt
    else if ∀ l ∈ job.lastInterval, l < job.slot now then .ok (job.slot now)
    else if datetimeMax < job.slot now + job.period then
      .error (.overflowError "date value out of range")
    else .ok (job.slot now + job.period) := by
  rw [recurringNextRunAt, recurringGridPoint_eq h, recurringInterval_eq h]
  rfl

theorem recurringNextRunAt_ok (h : job.HasGrid) (hnow : now + job.period ≤ datetimeMax) :
    ∃ next, recurringNextRunAt job now = .ok next := by
  have hslot : job.slot now + job.period ≤ datetimeMax := by
    have := h.isSlot.le now
    linarith
  rw [recurringNextRunAt_eq h, if_neg (not_lt.mpr hslot)]
  split_ifs <;> exact ⟨_, rfl⟩

/-- The next run as it is reported at an instant that the last one lies before: from then on the
job is due once the next run has come. -/
theorem recurringNextRunAt_spec (h : job.HasGrid) (hlast : ∀ l ∈ job.lastInterval, l ≤ now)
    {next : Instant} (hnext : recurringNextRunAt job now = .ok next) (ht : now ≤ t) :
    recurringIsDue job t = .ok (decide (next ≤ t)) := by
  have hslot := h.isSlot
  rw [recurringNextRunAt_eq h] at hnext
  rw [recurringIsDue_eq h]
  refine congrArg Except.ok (decide_eq_decide.mpr ?_)
  split_ifs at hnext with hearly hdue hend
  · cases hnext
    refine ⟨fun hd => hd.1, fun ht => ⟨ht, ?_⟩⟩
    intro l hl
    have hfirst : job.createdAt + 0 * job.period ≤ job.slot t :=
      (le_gridPoint_iff h.period_pos 0).mpr (by simpa using ht)
    rw [zero_mul, add_zero] at hfirst
    exact ((hlast l hl).trans_lt hearly).trans_le hfirst
  · cases hnext
    refine ⟨fun _ => (hslot.le now).trans ht, fun _ => ?_⟩
    exact ⟨(not_lt.mp hearly).trans ht, fun l hl => (hdue l hl).trans_le (hslot.mono ht)⟩
  · cases hnext
    push Not at hdue
    obtain ⟨l, hl, hle⟩ := hdue
    rw [RecurringScheduler.slot, gridPoint_add_le_iff h.period_pos]
    -- the last interval lies in the slot of `now`, so a later slot is one that is not served
    have hsame : job.slot l = job.slot now :=
      le_antisymm (hslot.mono (hlast l hl)) ((hslot.idem now).symm.trans_le (hslot.mono hle))
    constructor
    · rintro ⟨-, hd⟩
      exact lt_of_le_of_lt hle (hd l hl)
    · intro hlt
      refine ⟨(not_lt.mp hearly).trans ht, fun l' hl' => ?_⟩
      obtain rfl := Option.mem_unique hl' hl
      by_contra hc
      have hback := hslot.mono (not_lt.mp hc)
      rw [hslot.idem, hsame] at hback
      exact absurd hlt (not_lt.mpr hback)

end Job

end BeyoManager.Schedulers
