import BeyoManager.Library.Rollup
import BeyoManager.TaskSteps.Settlement
import Mathlib.Data.Fintype.Pi

/-! # Tables of the work statistics

The four tables have the same columns under different keys. A row of a user and day, or of a user,
section and day, is set from a recompute; a row of a user, or of a section and day, adds up the
rows under it and follows them by deltas.
-/

namespace BeyoManager.WorkStats

open Rollup
open TaskSteps (ClientId Instant)

/-- A date, as the number of its day. -/
abbrev Date := ℤ

inductive Column
  | totalWorkingSeconds | totalPauseSeconds | totalEndedShiftSeconds
  | totalWorkingCount | totalPauseCount | totalEndedShiftCount
  | inaccurateWorkingSeconds | inaccuratePauseSeconds | inaccurateEndedShiftSeconds
  | inaccurateStepCount | totalCostMinor
  | totalCompletedCount | totalIssuesCount | totalIssuesResolvedCount
  deriving DecidableEq, Repr

instance : Fintype Column :=
  .ofList [.totalWorkingSeconds, .totalPauseSeconds, .totalEndedShiftSeconds, .totalWorkingCount,
    .totalPauseCount, .totalEndedShiftCount, .inaccurateWorkingSeconds, .inaccuratePauseSeconds,
    .inaccurateEndedShiftSeconds, .inaccurateStepCount, .totalCostMinor, .totalCompletedCount,
    .totalIssuesCount, .totalIssuesResolvedCount] fun c => by cases c <;> simp

/-- The columns of `_CompletionTotals`. -/
def Column.isCompletion : Column → Bool
  | .totalCompletedCount | .totalIssuesCount | .totalIssuesResolvedCount => true
  | _ => false

/-- The columns of `_TimeTotals`. -/
def Column.isTime (c : Column) : Bool := !c.isCompletion

/-- `_TimeTotals` and `_CompletionTotals`: a figure for each column, zero where it has none. -/
abbrev Totals := Column → ℤ

/-- The columns of a row; only the cost may be `NULL`. -/
abbrev StatsRow := Column → Option ℤ

def newRow : StatsRow := fun c => if c = .totalCostMinor then none else some 0

/-- The figures of a row; `NULL` counts as zero. -/
def figures (row : StatsRow) : Totals := fun c => (row c).getD 0

/-- The tables of the work statistics of one workspace. -/
structure Stats where
  userDaily : Table (ClientId × Date) StatsRow
  userSectionDaily : Table (ClientId × ClientId × Date) StatsRow
  sectionDaily : Table (ClientId × Date) StatsRow
  userLifetime : Table ClientId StatsRow

/-- No rows. -/
def Stats.empty : Stats := ⟨∅, ∅, ∅, ∅⟩

/-- `_get_or_create_…`. -/
def getOrCreate {κ : Type} [DecidableEq κ] (t : Table κ StatsRow) (k : κ) : StatsRow :=
  (t.lookup k).getD newRow

section Columns

variable (columns : Column → Bool)

/-- `_apply_set`, and `_apply_set_completions`: write the columns of one kind of totals. -/
def applySet (totals : Totals) (row : StatsRow) : StatsRow :=
  fun c => if columns c then some (totals c) else row c

/-- `_apply_delta`, and `_apply_delta_completions`. -/
def applyDelta (delta : Totals) (row : StatsRow) : StatsRow :=
  fun c => if columns c then some (figures row c + delta c) else row c

/-- `as_delta` from the `_snapshot` of a row. -/
def asDelta (totals : Totals) (row : StatsRow) : Totals :=
  fun c => if columns c then totals c - figures row c else 0

end Columns

end BeyoManager.WorkStats
