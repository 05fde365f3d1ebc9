import BeyoManager.Library.Dict
import BeyoManager.Library.Grouping
import BeyoManager.Library.Sorting
import BeyoManager.StockReport.Tables
import Mathlib.Data.Prod.Lex
import Mathlib.Data.String.Basic

/-! # Rules of versions and snapshots

What makes a version or a snapshot a draft, active or closed, which quantity counts
as requested, the ceiling of the missing quantity, and the merge of priorities.
-/

namespace BeyoManager.StockReport

open Sorting

section States

/-- `is_version_draft`. -/
def isVersionDraft (version : SnapshotVersion) : Bool :=
  version.activeAt.isNone && version.closedAt.isNone

/-- `is_version_active`; the column predicate `version_is_active` says the same. -/
def isVersionActive (version : SnapshotVersion) : Bool :=
  version.activeAt.isSome && version.closedAt.isNone

/-- The column predicate `version_is_draft`. -/
def versionIsDraft (version : SnapshotVersion) : Bool := version.activeAt.isNone

/-- `is_snapshot_open`; the column predicate says the same. -/
def isSnapshotOpen (snapshot : ItemSnapshot) : Bool := snapshot.closedAt.isNone

/-- `is_snapshot_active`; the column predicate says the same. -/
def isSnapshotActive (snapshot : ItemSnapshot) : Bool :=
  snapshot.activeAt.isSome && snapshot.closedAt.isNone

end States

section Quantities

variable (snapshot : ItemSnapshot) (row : StockReportItem)

/-- `scanner_quantity_requested`: a draft reads the row live. -/
def scannerQuantityRequested : Option ℤ :=
  if snapshot.activeAt.isNone then some row.quantityRequested
  else snapshot.quantityRequestedScanner

/-- `effective_quantity_requested`: what a manager typed wins. -/
def effectiveQuantityRequested : Option ℤ :=
  match snapshot.quantityRequestedManual with
  | some quantity => some quantity
  | none => scannerQuantityRequested snapshot row

/-- `quantity_requested_source`. -/
def quantityRequestedSource : QuantityRequestedSource :=
  if snapshot.quantityRequestedManual.isSome then .manual else .scanner

/-- `effective_quantity_missing`: a draft borrows the number of the row's active snapshot unless
one was typed. -/
def effectiveQuantityMissing (activeQuantityMissing : Option ℤ) : Option ℤ :=
  if snapshot.activeAt.isSome then snapshot.quantityMissing
  else
    match snapshot.quantityMissing with
    | some typed => some typed
    | none => some (activeQuantityMissing.getD 0)

/-- `missing_quantity_ceiling`. -/
def missingQuantityCeiling (quantityRequested : ℤ) (counters : Counters)
    (quantityResolved : ℤ) : ℤ :=
  max 0 (quantityRequested - (counters.covered + quantityResolved))

/-- The ceiling as the statements compute it; `GREATEST` ignores a missing operand. -/
def missingCeiling : ℤ :=
  match effectiveQuantityRequested snapshot row with
  | some quantity => missingQuantityCeiling quantity row.counters snapshot.quantityResolved
  | none => 0

end Quantities

section Priorities

def proposedPlace (sourceByRow : ClientId → Option ItemSnapshot) (snapshot : ItemSnapshot) :
    Option StockReportPriority × ℕ ×ₗ ℤ ×ₗ String :=
  match sourceByRow snapshot.stockReportItemId with
  | some origin =>
    (origin.priority, toLex (0, toLex (origin.priorityOrder.getD 0, snapshot.clientId)))
  | none =>
    (snapshot.priority, toLex (1, toLex (snapshot.priorityOrder.getD 0, snapshot.clientId)))

def proposedGroup (sourceByRow : ClientId → Option ItemSnapshot) (active : List ItemSnapshot)
    (priority : StockReportPriority) : List ItemSnapshot :=
  sortBy (fun s => (proposedPlace sourceByRow s).2)
    (active.filter fun s => (proposedPlace sourceByRow s).1 = some priority)

def proposedPriority (sourceByRow : ClientId → Option ItemSnapshot) (active : List ItemSnapshot)
    (snapshot : ItemSnapshot) : Option StockReportPriority × Option ℤ :=
  match (proposedPlace sourceByRow snapshot).1 with
  | none => (none, none)
  | some priority =>
    (some priority, some ((proposedGroup sourceByRow active priority).idxOf snapshot + 1))

/-- The source snapshot of each row; of several, the last one. -/
def sourceByRow (source : List ItemSnapshot) (rowId : ClientId) : Option ItemSnapshot :=
  source.reverse.find? fun s => s.stockReportItemId = rowId

/-- `merge_priority_orders`: the snapshots whose priority or order changes, with the new ones. -/
def mergePriorityOrders (active source : List ItemSnapshot) :
    List (ClientId × Option StockReportPriority × Option ℤ) :=
  (active.filter fun s =>
    proposedPriority (sourceByRow source) active s ≠ (s.priority, s.priorityOrder)).map fun s =>
      (s.clientId, proposedPriority (sourceByRow source) active s)

end Priorities

end BeyoManager.StockReport
