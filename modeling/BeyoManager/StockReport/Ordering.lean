import BeyoManager.StockReport.MoveAssignment

/-! # Priorities and their orders

Inside one version the open snapshots of a priority stand in an order. Positions are
kept by band shifts, by appending after the greatest order, and by the merge of
another version's priorities.
-/

namespace BeyoManager.StockReport

open Relational Transition Sorting

section Shifts

/-- The open snapshots of one priority group. -/
def inGroup (versionId : ClientId) (priority : StockReportPriority) (s : ItemSnapshot) : Bool :=
  s.versionId == versionId && s.priority == some priority && isSnapshotOpen s

/-- The snapshot's order lies in the band; without an order it lies in none. -/
def inBand (low : ℤ) (high : Option ℤ) (s : ItemSnapshot) : Bool :=
  s.priorityOrder.any fun order => decide (low ≤ order) && high.all fun h => decide (order ≤ h)

/-- `_shift`. -/
def shift (db : Db) (versionId : ClientId) (priority : StockReportPriority) (low : ℤ)
    (high : Option ℤ) (delta : ℤ) : Db :=
  if high.any fun h => decide (h < low) then db
  else { db with
    snapshots := updateWhere (fun s => inGroup versionId priority s && inBand low high s)
      (fun s => { s with priorityOrder := s.priorityOrder.map (· + delta) }) db.snapshots }

/-- `close_priority_gap`. -/
def closePriorityGap (db : Db) (versionId : ClientId) (priority : StockReportPriority)
    (removedOrder : Option ℤ) : Db :=
  match removedOrder with
  | none => db
  | some order => shift db versionId priority (order + 1) none (-1)

def leaveGroup (db : Db) (snapshot : ItemSnapshot) : Db :=
  match snapshot.priority with
  | some priority => closePriorityGap db snapshot.versionId priority snapshot.priorityOrder
  | none => db

/-- `append_to_priority_group`: the order after the greatest one. -/
def appendToPriorityGroup (db : Db) (versionId : ClientId) (priority : StockReportPriority) : ℤ :=
  (((db.snapshots.filter (inGroup versionId priority)).filterMap
    ItemSnapshot.priorityOrder).max?).getD 0 + 1

/-- `shift_within_group`. -/
def shiftWithinGroup (db : Db) (versionId : ClientId) (priority : StockReportPriority)
    (fromOrder toOrder : ℤ) : Db :=
  if toOrder = fromOrder then db
  else if toOrder < fromOrder then
    shift db versionId priority toOrder (some (fromOrder - 1)) 1
  else shift db versionId priority (fromOrder + 1) (some toOrder) (-1)

def setPlace (db : Db) (snapshotId : ClientId) (priority : Option StockReportPriority)
    (priorityOrder : Option ℤ) : Db :=
  { db with
    snapshots := updateWhere (fun s => s.clientId == snapshotId)
      (fun s => { s with priority := priority, priorityOrder := priorityOrder }) db.snapshots }

end Shifts

section Targets

/-- `STOCK_REPORT_NO_ACTIVE_SNAPSHOT`. -/
def noActiveSnapshotMessage : String :=
  "STOCK_REPORT_NO_ACTIVE_SNAPSHOT: this stock report item has no active snapshot; " ++
    "create a new stock report version first."

/-- `VERSION_NOT_FOUND_MESSAGE`. -/
def versionNotFoundMessage : String := "Stock report snapshot version not found."

/-- `VERSION_IS_CLOSED_MESSAGE`. -/
def versionIsClosedMessage : String :=
  "STOCK_REPORT_VERSION_IS_CLOSED: this version is closed; its snapshots are history and " ++
    "cannot be edited."

/-- `VERSION_NOT_DRAFT_MESSAGE`. -/
def versionNotDraftMessage : String :=
  "STOCK_REPORT_VERSION_NOT_DRAFT: this action applies to a draft version only."

/-- `ROW_NOT_FOUND_MESSAGE`. -/
def rowNotFoundMessage : String := "Stock report item not found."

variable (db : Db)

/-- `find_version`. -/
def findVersion (versionId : ClientId) : Except CommandError SnapshotVersion :=
  getOr (.notFound versionNotFoundMessage) (db.version? versionId)

/-- `find_row`: the live row with this id. -/
def findRow (rowId : ClientId) : Except CommandError StockReportItem :=
  getOr (.notFound rowNotFoundMessage)
    (db.rows.find? fun r => r.clientId == rowId && !r.isDeleted)

/-- `load_active_snapshot`. -/
def loadActiveSnapshot (rowId : ClientId) : Option ItemSnapshot :=
  db.snapshots.find? fun s => s.stockReportItemId == rowId && isSnapshotActive s

/-- `load_version_snapshot`. -/
def loadVersionSnapshot (rowId versionId : ClientId) : Option ItemSnapshot :=
  db.snapshots.find? fun s => s.stockReportItemId == rowId && s.versionId == versionId

/-- `TargetSnapshot`. -/
structure TargetSnapshot where
  snapshot : ItemSnapshot
  versionId : ClientId
  shortcut : Bool
  deriving DecidableEq, Repr

/-- `discover_target_snapshot`. -/
def discoverTargetSnapshot (rowId : ClientId) (versionId : Option ClientId) :
    Except CommandError TargetSnapshot :=
  match versionId with
  | none => do
    let discovered ← getOr (.validation noActiveSnapshotMessage) (loadActiveSnapshot db rowId)
    pure ⟨discovered, discovered.versionId, true⟩
  | some versionId => do
    let _ ← findVersion db versionId
    let discovered ← getOr (.notFound rowNotFoundMessage) (loadVersionSnapshot db rowId versionId)
    pure ⟨discovered, versionId, false⟩

/-- `lock_snapshot_and_groups`. -/
def lockSnapshotAndGroups (versionId snapshotId : ClientId)
    (priorities : List (Option StockReportPriority)) : List ItemSnapshot :=
  sortBy ItemSnapshot.clientId <| db.snapshots.filter fun s =>
    s.versionId == versionId && isSnapshotOpen s &&
      (s.clientId == snapshotId || s.priority.any fun p => decide (some p ∈ priorities))

/-- `check_locked_target`: the version and the locked snapshot. -/
def checkLockedTarget (target : TargetSnapshot) (snapshot : Option ItemSnapshot) :
    Except CommandError (SnapshotVersion × ItemSnapshot) := do
  throwIf (target.shortcut ∧ ¬ snapshot.any isSnapshotActive)
    (.validation noActiveSnapshotMessage)
  let version ← findVersion db target.versionId
  throwIf version.closedAt.isSome (.validation versionIsClosedMessage)
  let snapshot ← getOr (.notFound rowNotFoundMessage) snapshot
  pure (version, snapshot)

end Targets

section Histories

def insertHistories (db : Db) (new : List HistoryRecord) : Except CommandError Db := do
  let histories ← insertRecords HistoryRecord.clientId
    (.integrityError "pk_stock_report_history_records") new db.histories
  pure { db with histories := histories }

/-- A history record about a snapshot, with `snapshot_history_quantities`. -/
def snapshotHistory (clientId : ClientId) (type : HistoryRecordType) (snapshot : ItemSnapshot)
    (row : StockReportItem) (priority : Option StockReportPriority) (priorityOrder : Option ℤ)
    (now : Timestamp) : HistoryRecord where
  clientId := clientId
  stockReportItemId := row.clientId
  type := type
  quantityRequested := (effectiveQuantityRequested snapshot row).getD 0
  quantityRequestedSource := quantityRequestedSource snapshot
  quantityAwaiting := row.counters.quantityAwaiting
  priority := priority
  priorityOrder := priorityOrder
  createdAt := now
  isDeleted := false

end Histories

section Commands

variable (db : Db) (now : Timestamp) (newId : ℕ → ClientId)

/-- `set_stock_report_item_priority`. -/
def setStockReportItemPriority (rowId : ClientId) (versionId : Option ClientId)
    (targetPriority : Option StockReportPriority) : Except CommandError Db := do
  let row ← findRow db rowId
  let target ← discoverTargetSnapshot db row.clientId versionId
  let locked := lockSnapshotAndGroups db target.versionId target.snapshot.clientId
    [target.snapshot.priority, targetPriority]
  let (version, snapshot) ← checkLockedTarget db target
    (locked.find? fun s => s.clientId == target.snapshot.clientId)
  if snapshot.priority = targetPriority then pure db
  else do
    let shifted := leaveGroup db snapshot
    let targetOrder := targetPriority.map fun p =>
      appendToPriorityGroup shifted snapshot.versionId p
    let written := setPlace shifted snapshot.clientId targetPriority targetOrder
    if isVersionActive version then
      insertHistories written [snapshotHistory (newId 0) .priorityChange snapshot row
        targetPriority targetOrder now]
    else pure written

/-- `set_stock_report_item_priority_order`. -/
def setStockReportItemPriorityOrder (rowId : ClientId) (versionId : Option ClientId)
    (targetOrder : ℤ) : Except CommandError Db := do
  let row ← findRow db rowId
  let target ← discoverTargetSnapshot db row.clientId versionId
  let locked := lockSnapshotAndGroups db target.versionId target.snapshot.clientId
    [target.snapshot.priority]
  let (version, snapshot) ← checkLockedTarget db target
    (locked.find? fun s => s.clientId == target.snapshot.clientId)
  let priority ← getOr (.validation ("STOCK_REPORT_ROW_HAS_NO_PRIORITY: this stock report item " ++
    "has no priority, so it has no position to move within.")) snapshot.priority
  let n : ℤ := locked.countP fun s => s.priority == some priority
  throwIf (¬ (1 ≤ targetOrder ∧ targetOrder ≤ n)) (.validation
    (s!"STOCK_REPORT_TARGET_OUT_OF_RANGE: {targetOrder} is outside 1..{n} for priority group " ++
      s!"'{priority.value}'."))
  let position ← getOr (.typeError "priority_order") snapshot.priorityOrder
  if targetOrder = position then pure db
  else do
    let shifted := shiftWithinGroup db snapshot.versionId priority position targetOrder
    let written := setPlace shifted snapshot.clientId (some priority) (some targetOrder)
    if isVersionActive version then
      insertHistories written [snapshotHistory (newId 0) .priorityOrderChange snapshot row
        (some priority) (some targetOrder) now]
    else pure written

/-- `_resolve_target`: the active version, or the open version that the request names. -/
def resolveTarget (source : SnapshotVersion) (targetVersionId : Option ClientId) :
    Except CommandError (Option SnapshotVersion) :=
  match targetVersionId with
  | none => do
    throwIf (isVersionActive source) (.validation
      ("STOCK_REPORT_SOURCE_VERSION_IS_ACTIVE: the active version cannot be applied onto " ++
        "itself; pick a previous version."))
    pure (db.versions.find? isVersionActive)
  | some targetVersionId => do
    let target ← findVersion db targetVersionId
    throwIf target.closedAt.isSome (.validation
      ("STOCK_REPORT_TARGET_VERSION_IS_CLOSED: priorities can only be applied onto the " ++
        "active version or a draft."))
    throwIf (target.clientId = source.clientId) (.validation
      "STOCK_REPORT_SOURCE_IS_TARGET: a version cannot be applied onto itself.")
    pure (some target)

def writePlaces (db : Db) (versionId : ClientId)
    (changed : List (ClientId × Option StockReportPriority × Option ℤ)) : Db :=
  { db with
    snapshots := db.snapshots.map fun s =>
      match changed.find? fun c => c.1 == s.clientId with
      | some c =>
        if s.versionId = versionId ∧ isSnapshotOpen s then
          { s with priority := c.2.1, priorityOrder := c.2.2 }
        else s
      | none => s }

def placeHistory (db : Db) (now : Timestamp) (newId : ℕ → ClientId)
    (indexed : ItemSnapshot × ℕ) : Except CommandError HistoryRecord := do
  let (before, index) := indexed
  let row ← getOr (.keyError before.stockReportItemId) (db.row? before.stockReportItemId)
  let written ← getOr (.keyError before.clientId) (db.snapshot? before.clientId)
  pure (snapshotHistory (newId index)
    (if written.priority ≠ before.priority then .priorityChange else .priorityOrderChange)
    before row written.priority written.priorityOrder now)

/-- `apply_stock_report_snapshot_version_priorities`. -/
def applyStockReportSnapshotVersionPriorities (sourceVersionId : ClientId)
    (targetVersionId : Option ClientId) : Except CommandError Db := do
  let sourceVersion ← findVersion db sourceVersionId
  let target ← resolveTarget db sourceVersion targetVersionId
  match target with
  | none => pure db
  | some target => do
    let targetSnapshots := sortBy ItemSnapshot.clientId <| db.snapshots.filter fun s =>
      s.versionId == target.clientId && isSnapshotOpen s
    let source := db.snapshots.filter fun s => s.versionId == sourceVersion.clientId
    let changed := mergePriorityOrders targetSnapshots source
    let written := writePlaces db target.clientId changed
    if isVersionActive target then do
      let before := targetSnapshots.filter fun s => decide (s.clientId ∈ changed.map Prod.fst)
      let histories ← before.zipIdx.mapM (placeHistory written now newId)
      insertHistories written histories
    else pure written

end Commands

end BeyoManager.StockReport
