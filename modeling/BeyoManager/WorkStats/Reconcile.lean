import BeyoManager.WorkStats.Recompute
import Mathlib.Data.List.Dedup

/-! # Reconciling the day of a user

The rows of a user's day are set to recomputed figures, and the differences to what they held are
added to the totals. Time and completions go the same way, each with its own columns.
-/

namespace BeyoManager.WorkStats

open Rollup TaskSteps

/-- `DayReconcileResult`: the deltas for the totals. -/
structure DayReconcileResult where
  userDelta : Totals
  sectionDeltas : List (ClientId × Totals)

section Pass

variable (columns : Column → Bool) (figures : DayFigures) (userId : ClientId) (workDate : Date)

def existingSections (t : Table (ClientId × ClientId × Date) StatsRow) : List ClientId :=
  t.keys.filterMap fun k => if k.1 = userId ∧ k.2.2 = workDate then some k.2.1 else none

/-- `all_section_ids`. -/
def allSectionIds (t : Table (ClientId × ClientId × Date) StatsRow) : List ClientId :=
  (figures.perSection.map Prod.fst ++ existingSections userId workDate t).dedup

def setSection (acc : Table (ClientId × ClientId × Date) StatsRow × List (ClientId × Totals))
    (sectionId : ClientId) :
    Table (ClientId × ClientId × Date) StatsRow × List (ClientId × Totals) :=
  let row := getOrCreate acc.1 (userId, sectionId, workDate)
  let totals := figures.ofSection sectionId
  (acc.1.insert (userId, sectionId, workDate) (applySet columns totals row),
    acc.2 ++ [(sectionId, asDelta columns totals row)])

def reconcileUserDay (stats : Stats) : Stats × DayReconcileResult :=
  let row := getOrCreate stats.userDaily (userId, workDate)
  let sections := (allSectionIds figures userId workDate stats.userSectionDaily).foldl
    (setSection columns figures userId workDate) (stats.userSectionDaily, [])
  ({ stats with
      userDaily := stats.userDaily.insert (userId, workDate) (applySet columns figures.day row)
      userSectionDaily := sections.1 },
    ⟨asDelta columns figures.day row, sections.2⟩)

def applySectionDelta (t : Table (ClientId × Date) StatsRow) (d : ClientId × Totals) :
    Table (ClientId × Date) StatsRow :=
  t.insert (d.1, workDate) (applyDelta columns d.2 (getOrCreate t (d.1, workDate)))

def applyDeltas (stats : Stats) (result : DayReconcileResult) : Stats :=
  { stats with
    userLifetime := stats.userLifetime.insert userId
      (applyDelta columns result.userDelta (getOrCreate stats.userLifetime userId))
    sectionDaily :=
      result.sectionDeltas.foldl (applySectionDelta columns workDate) stats.sectionDaily }

def pass (stats : Stats) : Stats :=
  let (stats', result) := reconcileUserDay columns figures userId workDate stats
  applyDeltas columns userId workDate stats' result

end Pass

section Handler

variable (records : Records) (userId : ClientId) (workDate : Date) (now : Instant) (stats : Stats)

/-- `reconcile_user_day_time`. -/
def reconcileUserDayTime : Stats × DayReconcileResult :=
  reconcileUserDay Column.isTime (timeFigures records userId workDate now) userId workDate stats

/-- `apply_reconcile_deltas`. -/
def applyReconcileDeltas (result : DayReconcileResult) : Stats :=
  applyDeltas Column.isTime userId workDate stats result

/-- `reconcile_user_day_completions`. -/
def reconcileUserDayCompletions : Stats × DayReconcileResult :=
  reconcileUserDay Column.isCompletion (completionFigures records userId workDate) userId workDate
    stats

/-- `apply_completion_reconcile_deltas`. -/
def applyCompletionReconcileDeltas (result : DayReconcileResult) : Stats :=
  applyDeltas Column.isCompletion userId workDate stats result

/-- `StepTransitionPayload`, as far as the statistics depend on it. -/
structure StepTransitionPayload where
  closingRecordId : ClientId
  closingState : TaskStepState
  newState : TaskStepState
  creditedUserId : ClientId
  enteredAt : Instant
  exitedAt : Instant
  deriving DecidableEq, Repr

def reconcileTime (payload : StepTransitionPayload) : Stats :=
  if payload.creditedUserId ≠ "" ∧ payload.closingState.isTimeBearing then
    let workDate := dateOf payload.enteredAt
    let (stats', result) :=
      reconcileUserDayTime records payload.creditedUserId workDate now stats
    applyReconcileDeltas payload.creditedUserId workDate stats' result
  else stats

def reconcileCompletions (payload : StepTransitionPayload) : Stats :=
  if payload.newState = .completed ∧ payload.creditedUserId ≠ "" then
    let completionDate := dateOf payload.exitedAt
    let (stats', result) :=
      reconcileUserDayCompletions records payload.creditedUserId completionDate stats
    applyCompletionReconcileDeltas payload.creditedUserId completionDate stats' result
  else stats

/-- One run of the handler: what it reads before and after the shift of the worker is reconciled,
which may pause steps, and the time. -/
structure HandlerRun where
  payload : StepTransitionPayload
  before : Records
  after : Records
  now : Instant

/-- `handle_process_step_transition`; nothing happens when the closed record is not found. -/
def handleProcessStepTransition (run : HandlerRun) : Stats :=
  if run.before.db.stepStateRecords.any fun r => r.clientId == run.payload.closingRecordId then
    reconcileCompletions run.after (reconcileTime run.before run.now stats run.payload) run.payload
  else stats

/-- Handler runs one after the other. -/
def runHandlers (runs : List HandlerRun) : Stats := runs.foldl handleProcessStepTransition stats

end Handler

section Rows

variable {columns : Column → Bool} {totals delta : Totals} {row : StatsRow} {κ : Type}
  [DecidableEq κ] {t : Table κ StatsRow} {k : κ}

theorem figures_newRow : figures newRow = 0 := by
  funext c
  cases c <;> rfl

theorem valueAt_figures : valueAt figures t k = figures (getOrCreate t k) := by
  rw [valueAt, getOrCreate]
  cases t.lookup k with
  | none => exact figures_newRow.symm
  | some row => rfl

theorem figures_applySet : figures (applySet columns totals row) =
    figures row + asDelta columns totals row := by
  funext c
  simp only [figures, applySet, asDelta, Pi.add_apply]
  split
  · rw [Option.getD_some]
    ring
  · rw [add_zero]

theorem figures_applyDelta (h : ∀ c, columns c = false → delta c = 0) :
    figures (applyDelta columns delta row) = figures row + delta := by
  funext c
  simp only [figures, applyDelta, Pi.add_apply]
  split
  · rfl
  · rename_i hc
    rw [h c (by simpa using hc), add_zero]

theorem asDelta_of_not {c : Column} (h : columns c = false) : asDelta columns totals row c = 0 := by
  rw [asDelta, if_neg (by simp [h])]

theorem figures_applySet_apply (c : Column) :
    figures (applySet columns totals row) c = if columns c then totals c else figures row c := by
  simp only [figures, applySet]
  split <;> rfl

theorem asDelta_of_eq (h : ∀ c, columns c → figures row c = totals c) :
    asDelta columns totals row = 0 := by
  funext c
  rw [asDelta]
  split
  · rename_i hc
    rw [h c hc, sub_self, Pi.zero_apply]
  · rfl

theorem getOrCreate_of_lookup (h : t.lookup k = some row) : getOrCreate t k = row := by
  rw [getOrCreate, h, Option.getD_some]

end Rows

end BeyoManager.WorkStats
