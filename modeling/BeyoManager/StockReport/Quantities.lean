import BeyoManager.StockReport.Versions

/-! # Typed quantities

A manager types the missing or the requested quantity of one open snapshot.
-/

namespace BeyoManager.StockReport

open Relational Transition

variable (db : Db)

def lockedLiveRow (rowId : ClientId) : Except CommandError StockReportItem := do
  let row ← getOr (.notFound rowNotFoundMessage) (db.row? rowId)
  throwIf row.isDeleted (.notFound rowNotFoundMessage)
  pure row

def typedTarget (rowId : ClientId) (versionId : Option ClientId) :
    Except CommandError (StockReportItem × SnapshotVersion × ItemSnapshot) := do
  let row ← lockedLiveRow db rowId
  let target ← discoverTargetSnapshot db row.clientId versionId
  let (version, snapshot) ← checkLockedTarget db target (db.snapshot? target.snapshot.clientId)
  pure (row, version, snapshot)

def setMissing (snapshotId : ClientId) (quantity : Option ℤ) : Db :=
  { db with
    snapshots := updateWhere (fun s => s.clientId == snapshotId)
      (fun s => { s with quantityMissing := quantity }) db.snapshots }

def checkMissing (row : StockReportItem) (version : SnapshotVersion) (snapshot : ItemSnapshot)
    (target : Option ℤ) : Except CommandError Unit :=
  match target with
  | none => throwIf (isVersionActive version) (.validation versionNotDraftMessage)
  | some quantity => do
    let requested ← getOr (.typeError "quantity_requested")
      (effectiveQuantityRequested snapshot row)
    let ceiling := missingQuantityCeiling requested row.counters snapshot.quantityResolved
    throwIf (quantity < 0 ∨ ceiling < quantity) (.validation
      (s!"STOCK_REPORT_MISSING_EXCEEDS_CEILING: {quantity} is outside 0..{ceiling}; only " ++
        s!"{ceiling} of the snapshot's {requested} requested units are still uncovered."))

/-- `set_stock_report_item_snapshot_missing_quantity`. -/
def setStockReportItemSnapshotMissingQuantity (rowId : ClientId) (versionId : Option ClientId)
    (target : Option ℤ) : Except CommandError Db := do
  let (row, version, snapshot) ← typedTarget db rowId versionId
  checkMissing row version snapshot target
  if target = snapshot.quantityMissing then pure db
  else pure (setMissing db snapshot.clientId target)

def setManual (snapshotId : ClientId) (quantity : Option ℤ) : Db :=
  { db with
    snapshots := updateWhere (fun s => s.clientId == snapshotId)
      (fun s => { s with quantityRequestedManual := quantity }) db.snapshots }

/-- `set_stock_report_item_snapshot_requested_quantity`. -/
def setStockReportItemSnapshotRequestedQuantity (rowId : ClientId) (versionId : Option ClientId)
    (target : Option ℤ) (now : Timestamp) (newHistoryId : ClientId) :
    Except CommandError Db := do
  let (row, version, snapshot) ← typedTarget db rowId versionId
  if target = snapshot.quantityRequestedManual then pure db
  else
    let written := setManual db snapshot.clientId target
    if isVersionActive version then do
      let clamped := clampSnapshotMissingQuantity written row.clientId
      let after ← getOr (.typeError "written") (loadVersionSnapshot clamped row.clientId
        version.clientId)
      insertHistories clamped [snapshotHistory newHistoryId .quantityRequestedOverride after row
        after.priority after.priorityOrder now]
    else pure written

end BeyoManager.StockReport
