import BeyoManager.StockReport.Assignments
import BeyoManager.StockReport.Versions

/-! # Demand of the Scanner and deletion of rows

The Scanner states what is requested; rows that are new join every draft. A row is
deleted with its assignments, its counters and its open snapshots.
-/

namespace BeyoManager.StockReport

open Relational Transition Sorting

abbrev Identity := ClientId × String

/-- The identity of one row. -/
def identityOf (row : StockReportItem) : Identity := (row.itemCategoryId, row.propertiesSignature)

structure DemandEntry where
  itemCategoryKey : String
  propertiesNormalized : JsonText
  propertiesSignature : String
  quantityRequested : ℤ
  deriving DecidableEq, Repr

section Lookup

/-- `discover_live_rows_by_identity`; of several rows, the last one. -/
def discoverLiveRow (db : Db) (identity : Identity) : Option StockReportItem :=
  (db.rows.filter fun r => !r.isDeleted).reverse.find? fun r => identityOf r == identity

/-- The entries by identity; a later entry replaces an earlier one. -/
def entriesByIdentity (categoryByKey : String → Option ClientId) (entries : List DemandEntry) :
    List (Identity × DemandEntry) :=
  Dict.ofList <| entries.filterMap fun e =>
    (categoryByKey e.itemCategoryKey).map fun c => ((c, e.propertiesSignature), e)

end Lookup

section Demand

def absentRows (db : Db) (byIdentity : List (Identity × DemandEntry)) (newId : ℕ → ClientId) :
    List StockReportItem :=
  let absent := byIdentity.filter fun e => (discoverLiveRow db e.1).isNone
  (sortBy (fun e => toLex e.1) absent).zipIdx.map fun (e, index) => {
    clientId := newId index
    itemCategoryId := e.1.1
    properties := e.2.propertiesNormalized
    propertiesSignature := e.1.2
    quantityRequested := 0
    counters := 0
    isDeleted := false }

def insertRows (db : Db) (new : List StockReportItem) : Except CommandError Db := do
  let rows ← insertRecords StockReportItem.clientId
    (.integrityError "pk_stock_report_items") new db.rows
  pure { db with rows := rows }

/-- The draft snapshots of new rows; a row that a draft holds already is left out. -/
def newDraftSnapshots (db : Db) (rows : List StockReportItem) (newId : ℕ → ClientId) :
    List ItemSnapshot :=
  let drafts := sortBy SnapshotVersion.clientId (db.versions.filter versionIsDraft)
  ((drafts.flatMap fun d => rows.map fun r => (d.clientId, r)).zipIdx.map fun (pair, index) =>
    draftSnapshotValues (newId index) pair.1 pair.2).filter fun s =>
      !db.snapshots.any fun t =>
        t.versionId == s.versionId && t.stockReportItemId == s.stockReportItemId

/-- `add_rows_to_every_draft`: the snapshots, and the counts of the drafts. -/
def addRowsToEveryDraft (db : Db) (rows : List StockReportItem) (newId : ℕ → ClientId) :
    Except CommandError Db := do
  let new := newDraftSnapshots db rows newId
  let db ← insertSnapshots db new
  pure { db with
    versions := db.versions.map fun v =>
      { v with snapshotCount := v.snapshotCount + new.countP fun s => s.versionId == v.clientId } }

/-- The rows whose requested quantity changes, with the new quantity. -/
def demandChanges (db : Db) (byIdentity : List (Identity × DemandEntry)) :
    Except CommandError (List (StockReportItem × ℤ)) := do
  let locked ← byIdentity.mapM fun e => do
    let row ← getOr (.runtimeError "stock demand identity vanished under lock")
      (discoverLiveRow db e.1)
    pure (row, e.2.quantityRequested)
  pure (locked.filter fun c => decide (c.2 ≠ c.1.quantityRequested))

def writeDemand (db : Db) (changes : List (StockReportItem × ℤ)) : Db :=
  { db with
    rows := db.rows.map fun r =>
      match changes.find? fun c => c.1.clientId == r.clientId with
      | some c => { r with quantityRequested := c.2 }
      | none => r }

def goalRecord (db : Db) (now : Timestamp) (newId : ℕ → ClientId)
    (indexed : (StockReportItem × ℤ) × ℕ) : HistoryRecord where
  clientId := newId indexed.2
  stockReportItemId := indexed.1.1.clientId
  type := .quantityRequestedChange
  quantityRequested := indexed.1.2
  quantityRequestedSource := .scanner
  quantityAwaiting := 0
  priority := (loadActiveSnapshot db indexed.1.1.clientId).bind ItemSnapshot.priority
  priorityOrder := (loadActiveSnapshot db indexed.1.1.clientId).bind ItemSnapshot.priorityOrder
  createdAt := now
  isDeleted := false

/-- `apply_stock_demand`; `late` says that the deadline passed before the commit. -/
def applyStockDemand (db : Db) (categoryByKey : String → Option ClientId)
    (entries : List DemandEntry) (now : Timestamp) (late : Bool)
    (newRowId newSnapshotId newHistoryId : ℕ → ClientId) : Except CommandError Db := do
  let byIdentity := entriesByIdentity categoryByKey entries
  let created := absentRows db byIdentity newRowId
  let db ← insertRows db created
  let db ← addRowsToEveryDraft db created newSnapshotId
  let changes ← demandChanges db byIdentity
  let db := writeDemand db changes
  let grown := changes.filter fun c => decide (c.1.quantityRequested < c.2)
  let db ← insertHistories db (grown.zipIdx.map (goalRecord db now newHistoryId))
  throwIf late .stockDemandDeadlineExceeded
  pure db

end Demand

section Cascade

/-- The repair records of counters that are left when the last assignment is gone. -/
def leftoverRepairs (row : StockReportItem) (trigger : String) : List RepairRecord :=
  [("quantity_in_queue", row.counters.quantityInQueue),
   ("quantity_in_progress", row.counters.quantityInProgress),
   ("quantity_awaiting", row.counters.quantityAwaiting)].filterMap fun (field, stored) =>
    if stored = 0 then none
    else some (repairRecord .stockReportItem row.clientId field stored 0 s!"inline:{trigger}")

def zeroLeftover (db : Db) (rowId : ClientId) (trigger : String) : Except CommandError Db := do
  let row ← getOr .noResultFound (db.row? rowId)
  pure { setRowCounters db rowId 0 with
    repairs := db.repairs ++ leftoverRepairs row trigger }

/-- Take one open snapshot of a deleted row out of its version. -/
def removeSnapshot (now : Timestamp) (db : Db) (snapshot : ItemSnapshot) : Db :=
  -- the order was read before the earlier snapshots of the row were taken out
  let db := leaveGroup db snapshot
  match snapshot.activeAt with
  | none => updateVersion
      { db with
        snapshots := deleteWhere (fun s => s.clientId == snapshot.clientId) db.snapshots }
      snapshot.versionId fun v => { v with snapshotCount := v.snapshotCount - 1 }
  | some _ => { db with
      snapshots := updateWhere (fun s => s.clientId == snapshot.clientId)
        (fun s => { s with closedAt := some now, counters := 0 }) db.snapshots }

def markRowDeleted (db : Db) (rowId : ClientId) : Db :=
  { db with
    rows := updateWhere (fun r => r.clientId == rowId)
      (fun r => { r with isDeleted := true }) db.rows
    histories := updateWhere (fun h => h.stockReportItemId == rowId && !h.isDeleted)
      (fun h => { h with isDeleted := true }) db.histories }

def openSnapshotsOf (db : Db) (rowId : ClientId) : List ItemSnapshot :=
  sortBy ItemSnapshot.clientId <| db.snapshots.filter fun s =>
    s.stockReportItemId == rowId && isSnapshotOpen s

def liveAssignmentsOf (db : Db) (rowId : ClientId) : List StockTaskAssignment :=
  sortBy StockTaskAssignment.clientId <| db.assignments.filter fun a =>
    a.stockReportItemId == rowId && !a.isDeleted

/-- `cascade_delete_stock_report_item`. -/
def cascadeDeleteStockReportItem (now : Timestamp) (trigger : String) (db : Db)
    (rowId : ClientId) : Except CommandError Db := do
  let db ← removeAssignments db (liveAssignmentsOf db rowId) trigger
  let db ← zeroLeftover db rowId trigger
  let db := (openSnapshotsOf db rowId).foldl (removeSnapshot now) db
  pure (markRowDeleted db rowId)

/-- `delete_stock_report_item`. -/
def deleteStockReportItem (db : Db) (rowId : ClientId) (now : Timestamp) :
    Except CommandError Db := do
  let row ← findRow db rowId
  cascadeDeleteStockReportItem now "delete_stock_report_item" db row.clientId

/-- `process_stock_demand_deleted`, for the rows with these identities. -/
def processStockDemandDeleted (db : Db) (categoryByKey : String → Option ClientId)
    (entries : List DemandEntry) (now : Timestamp) (late : Bool) : Except CommandError Db := do
  let identities := entries.filterMap fun e =>
    (categoryByKey e.itemCategoryKey).map fun c => (c, e.propertiesSignature)
  let rowIds := sortBy id ((identities.filterMap fun identity =>
    (discoverLiveRow db identity).map StockReportItem.clientId).dedup)
  let db ← rowIds.foldlM
    (cascadeDeleteStockReportItem now "stock_demand_deleted") db
  throwIf late .stockDemandDeadlineExceeded
  pure db

end Cascade

end BeyoManager.StockReport
