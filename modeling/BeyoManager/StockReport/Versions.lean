import BeyoManager.StockReport.Ordering

/-! # Versions of the stock report

A version is created as a draft or active, activated by hand or by its schedule,
refreshed while it is active, and closed when the next one goes live. What a version
is, its snapshots repeat in their own dates.
-/

namespace BeyoManager.StockReport

open Relational Transition Sorting

section Schedules

def isActivationOf (versionId : ClientId) (s : DelayedScheduler) : Bool :=
  s.eventClientId == some versionId && s.type == .stockReportVersionActivation &&
    s.state == .active

/-- `cancel_activation_schedulers`, of one instant when it is given. -/
def cancelActivationSchedulers (db : Db) (versionId : ClientId)
    (scheduledFor : Option Timestamp) : Db :=
  { db with
    schedulers := updateWhere
      (fun s => isActivationOf versionId s && scheduledFor.all fun t => s.scheduledFor == t)
      (fun s => { s with state := .canceled }) db.schedulers }

/-- `create_activation_scheduler`. -/
def createActivationScheduler (db : Db) (versionId : ClientId) (scheduledFor : Timestamp)
    (newSchedulerId : ClientId) : Except CommandError Db := do
  let schedulers ← insertRecords DelayedScheduler.clientId
    (.integrityError "pk_delayed_schedulers")
    [⟨newSchedulerId, .stockReportVersionActivation, .active, some versionId, scheduledFor⟩]
    db.schedulers
  pure { db with schedulers := schedulers }

/-- `validate_schedule`. -/
def validateSchedule (scheduledActivationAt : Option Timestamp) (now : Timestamp) :
    Except CommandError Unit :=
  throwIf (scheduledActivationAt.any fun t => decide (t ≤ now)) (.validation
    "STOCK_REPORT_SCHEDULE_IN_THE_PAST: scheduled_activation_at must be after now.")

end Schedules

section Statements

def liveRows (db : Db) : List StockReportItem :=
  sortBy StockReportItem.clientId (db.rows.filter fun r => !r.isDeleted)

/-- `draft_snapshot_values`. -/
def draftSnapshotValues (clientId versionId : ClientId) (row : StockReportItem) :
    ItemSnapshot where
  clientId := clientId
  versionId := versionId
  stockReportItemId := row.clientId
  quantityRequestedScanner := none
  quantityRequestedManual := none
  counters := row.counters
  quantityMissing := none
  quantityResolved := 0
  priority := none
  priorityOrder := none
  activeAt := none
  closedAt := none

def activeSnapshotValues (clientId versionId : ClientId) (row : StockReportItem)
    (activeAt : Option Timestamp) : ItemSnapshot :=
  { draftSnapshotValues clientId versionId row with
    quantityRequestedScanner := some row.quantityRequested
    quantityMissing := some 0
    activeAt := activeAt }

def insertSnapshots (db : Db) (new : List ItemSnapshot) : Except CommandError Db := do
  let snapshots ← insertRecords ItemSnapshot.clientId
    (.integrityError "pk_stock_report_item_snapshots") new db.snapshots
  pure { db with snapshots := snapshots }

def insertVersion (db : Db) (version : SnapshotVersion) : Except CommandError Db := do
  let versions ← insertRecords SnapshotVersion.clientId
    (.integrityError "pk_stock_report_snapshot_versions") [version] db.versions
  pure { db with versions := versions }

def updateVersion (db : Db) (versionId : ClientId) (f : SnapshotVersion → SnapshotVersion) : Db :=
  { db with versions := updateWhere (fun v => v.clientId == versionId) f db.versions }

def countSnapshots (db : Db) (versionId : ClientId) : ℤ :=
  db.snapshots.countP fun s => s.versionId == versionId

/-- `_FREEZE_STATEMENT`: close every active snapshot with the counters of its row. -/
def freezeActiveSnapshots (db : Db) (now : Timestamp) : Db :=
  { db with
    snapshots := db.snapshots.map fun s =>
      match db.row? s.stockReportItemId with
      | some row =>
        if isSnapshotActive s then { s with closedAt := some now, counters := row.counters }
        else s
      | none => s }

/-- `close_active_version`. -/
def closeActiveVersion (db : Db) (now : Timestamp) : Db × Option SnapshotVersion :=
  match db.versions.find? isVersionActive with
  | none => (db, none)
  | some previous =>
    (updateVersion (freezeActiveSnapshots db now) previous.clientId
      fun v => { v with closedAt := some now }, some previous)

end Statements

section Creation

structure CreateVersionRequest where
  title : Option String
  draft : Bool
  /-- A schedule key was sent. -/
  scheduleRequested : Bool
  scheduledActivationAt : Option Timestamp
  scheduledActivationKeepsActiveMissing : Bool
  deriving DecidableEq, Repr

def snapshotEachRow (values : ClientId → ClientId → StockReportItem → ItemSnapshot)
    (versionId : ClientId) (rows : List StockReportItem) (newId : ℕ → ClientId) :
    List ItemSnapshot :=
  rows.zipIdx.map fun (row, index) => values (newId index) versionId row

/-- `create_stock_report_snapshot_version`. -/
def createStockReportSnapshotVersion (db : Db) (request : CreateVersionRequest) (now : Timestamp)
    (newVersionId newSchedulerId : ClientId) (newId : ℕ → ClientId) :
    Except CommandError Db := do
  throwIf (request.draft = false ∧ request.scheduleRequested) (.validation versionNotDraftMessage)
  validateSchedule request.scheduledActivationAt now
  let rows := liveRows db
  if request.draft then do
    let db ← insertVersion db {
      clientId := newVersionId
      title := request.title
      activeAt := none
      closedAt := none
      scheduledActivationAt := request.scheduledActivationAt
      scheduledActivationKeepsActiveMissing := request.scheduledActivationKeepsActiveMissing
      snapshotCount := rows.length
      createdAt := now }
    let db ← insertSnapshots db (snapshotEachRow draftSnapshotValues newVersionId rows newId)
    match request.scheduledActivationAt with
    | some scheduledFor => createActivationScheduler db newVersionId scheduledFor newSchedulerId
    | none => pure db
  else do
    let db ← insertVersion (closeActiveVersion db now).1 {
      clientId := newVersionId
      title := request.title
      activeAt := some now
      closedAt := none
      scheduledActivationAt := none
      scheduledActivationKeepsActiveMissing := false
      snapshotCount := rows.length
      createdAt := now }
    insertSnapshots db (snapshotEachRow
      (fun clientId versionId row => activeSnapshotValues clientId versionId row (some now))
      newVersionId rows newId)

end Creation

section Activation

/-- Why a scheduled activation leaves the version alone. -/
inductive SupersedeReason
  | moved | handPublished | laterPlanDue
  deriving DecidableEq, Repr

/-- The body of an activation; `expected` is the instant that a scheduled fire was made for. -/
structure ActivateRequest where
  clientId : ClientId
  expected : Option Timestamp
  keepActiveMissing : Bool
  deriving DecidableEq, Repr

/-- `_schedule_key`, of a version that has a schedule. -/
def scheduleKey (scheduledAt : Timestamp) (version : SnapshotVersion) : ℤ ×ₗ ℤ ×ₗ String :=
  toLex (scheduledAt, toLex (version.createdAt, version.clientId))

def isLaterDue (now scheduledAt : Timestamp) (version other : SnapshotVersion) : Bool :=
  versionIsDraft other && other.clientId != version.clientId &&
    other.scheduledActivationAt.any fun t =>
      decide (t ≤ now) && decide (scheduleKey scheduledAt version < scheduleKey t other)

/-- `_supersede_reason`. -/
def supersedeReason (db : Db) (version : SnapshotVersion) (expected now : Timestamp) :
    Option SupersedeReason :=
  if version.scheduledActivationAt ≠ some expected then some .moved
  else if (db.versions.find? isVersionActive).any fun active =>
      active.activeAt.any fun t => decide (expected < t) then some .handPublished
  else if db.versions.any (isLaterDue now expected version) then some .laterPlanDue
  else none

/-- `_skip`: the version stays a draft without a schedule. -/
def skipActivation (db : Db) (versionId : ClientId) : Db :=
  cancelActivationSchedulers
    (updateVersion db versionId fun v => { v with scheduledActivationAt := none }) versionId none

/-- `_reconcile_membership`: a draft snapshot for every live row that the version lacks. -/
def reconcileMembership (db : Db) (versionId : ClientId) (held : List ClientId)
    (newId : ℕ → ClientId) : Except CommandError Db :=
  let missing := (liveRows db).filter fun r => decide (r.clientId ∉ held)
  let new := (snapshotEachRow draftSnapshotValues versionId missing newId).filter fun s =>
    !db.snapshots.any fun t =>
      t.versionId == s.versionId && t.stockReportItemId == s.stockReportItemId
  insertSnapshots db new

def activatedMissing (db : Db) (previousId : Option ClientId) (keep : Bool) (s : ItemSnapshot) :
    ℤ :=
  match s.quantityMissing with
  | some own => own
  | none =>
    match db.snapshots.find? fun a =>
        a.stockReportItemId == s.stockReportItemId && some a.versionId == previousId with
    | some a => if keep then a.quantityMissing.getD 0 else 0
    | none => 0

/-- `_ACTIVATE_SNAPSHOTS_STATEMENT`. -/
def activateSnapshots (db : Db) (versionId : ClientId) (previousId : Option ClientId)
    (keep : Bool) (now : Timestamp) : Db :=
  { db with
    snapshots := db.snapshots.map fun s =>
      match db.row? s.stockReportItemId with
      | some row =>
        if s.versionId = versionId then
          { s with
            quantityRequestedScanner := some row.quantityRequested
            quantityMissing := some (activatedMissing db previousId keep s)
            activeAt := some now
            counters := row.counters }
        else s
      | none => s }

/-- `_write_activation_history`: one record for each prioritised snapshot. -/
def writeActivationHistory (db : Db) (versionId : ClientId) (now : Timestamp)
    (newId : ℕ → ClientId) : Except CommandError Db := do
  let prioritised := sortBy ItemSnapshot.clientId <| db.snapshots.filter fun s =>
    s.versionId == versionId && s.priority.isSome
  let histories ← prioritised.zipIdx.mapM fun (s, index) => do
    let row ← getOr (.keyError s.stockReportItemId) (db.row? s.stockReportItemId)
    pure (snapshotHistory (newId index) .priorityChange s row s.priority s.priorityOrder now)
  insertHistories db histories

/-- Put the date of activation on a version, clear its schedule and count its snapshots. -/
def markActive (db : Db) (versionId : ClientId) (now : Timestamp) : Db :=
  updateVersion db versionId fun v => { v with
    activeAt := some now
    scheduledActivationAt := none
    snapshotCount := countSnapshots db versionId }

/-- `_go_live`. -/
def goLive (db : Db) (request : ActivateRequest) (version : SnapshotVersion) (now : Timestamp)
    (newId newHistoryId : ℕ → ClientId) : Except CommandError Db := do
  let held := (db.snapshots.filter fun s =>
    isSnapshotOpen s && s.versionId == version.clientId).map ItemSnapshot.stockReportItemId
  let keep := if request.expected.isSome then version.scheduledActivationKeepsActiveMissing
    else request.keepActiveMissing
  let (db, previous) := closeActiveVersion db now
  let db ← reconcileMembership db version.clientId held newId
  let db := activateSnapshots db version.clientId (previous.map SnapshotVersion.clientId) keep now
  let db := markActive db version.clientId now
  let db := cancelActivationSchedulers db version.clientId none
  let db := clampVersionMissingQuantities db version.clientId
  writeActivationHistory db version.clientId now newHistoryId

/-- `activate_stock_report_snapshot_version`. -/
def activateStockReportSnapshotVersion (db : Db) (request : ActivateRequest) (now : Timestamp)
    (newId newHistoryId : ℕ → ClientId) : Except CommandError Db := do
  let version ← findVersion db request.clientId
  throwIf (¬ isVersionDraft version) (.validation versionNotDraftMessage)
  match request.expected.bind fun expected => supersedeReason db version expected now with
  | some .moved => pure db
  | some .handPublished => pure (skipActivation db version.clientId)
  | some .laterPlanDue => pure (skipActivation db version.clientId)
  | none => goLive db request version now newId newHistoryId

end Activation

section Refresh

/-- `_REFREEZE_STATEMENT`. -/
def refreezeScanner (db : Db) (versionId : ClientId) : Db :=
  { db with
    snapshots := db.snapshots.map fun s =>
      match db.row? s.stockReportItemId with
      | some row =>
        if s.versionId = versionId ∧ isSnapshotOpen s ∧ row.isDeleted = false ∧
            s.quantityRequestedScanner.any (fun q => decide (q ≠ row.quantityRequested)) then
          { s with quantityRequestedScanner := some row.quantityRequested }
        else s
      | none => s }

/-- The open snapshots of a version with a requested quantity that a manager typed. -/
def hasManual (versionId : ClientId) (s : ItemSnapshot) : Bool :=
  s.versionId == versionId && isSnapshotOpen s && s.quantityRequestedManual.isSome

/-- The history record of a manual quantity that the refresh takes back. -/
def clearedHistory (db : Db) (now : Timestamp) (newId : ℕ → ClientId)
    (indexed : ItemSnapshot × ℕ) : HistoryRecord where
  clientId := newId indexed.2
  stockReportItemId := indexed.1.stockReportItemId
  type := .quantityRequestedOverride
  quantityRequested := indexed.1.quantityRequestedScanner.getD 0
  quantityRequestedSource := .scanner
  quantityAwaiting := (((db.rows.filter fun r => !r.isDeleted).find? fun r =>
    r.clientId == indexed.1.stockReportItemId).map fun r => r.counters.quantityAwaiting).getD 0
  priority := indexed.1.priority
  priorityOrder := indexed.1.priorityOrder
  createdAt := now
  isDeleted := false

def clearManual (db : Db) (versionId : ClientId) (now : Timestamp) (newHistoryId : ℕ → ClientId) :
    Except CommandError Db :=
  let cleared := sortBy ItemSnapshot.clientId (db.snapshots.filter (hasManual versionId))
  insertHistories { db with
    snapshots := updateWhere (hasManual versionId)
      (fun s => { s with quantityRequestedManual := none }) db.snapshots }
    (cleared.zipIdx.map (clearedHistory db now newHistoryId))

def refreshManual (db : Db) (versionId : ClientId) (keepManualRequested : Bool) (now : Timestamp)
    (newHistoryId : ℕ → ClientId) : Except CommandError Db :=
  if keepManualRequested then .ok db else clearManual db versionId now newHistoryId

/-- Add a snapshot for every live row that the active version lacks. -/
def addMissingRows (db : Db) (version : SnapshotVersion) (newId : ℕ → ClientId) :
    Except CommandError Db := do
  let held := (db.snapshots.filter fun s => s.versionId == version.clientId).map
    ItemSnapshot.stockReportItemId
  let newRows := (liveRows db).filter fun r => decide (r.clientId ∉ held)
  if newRows = [] then pure db
  else do
    let db ← insertSnapshots db (snapshotEachRow
      (fun clientId versionId row => activeSnapshotValues clientId versionId row version.activeAt)
      version.clientId newRows newId)
    pure (updateVersion db version.clientId fun v =>
      { v with snapshotCount := countSnapshots db version.clientId })

/-- `refresh_stock_report_snapshot_version_requested`. -/
def refreshStockReportSnapshotVersionRequested (db : Db) (versionId : ClientId)
    (keepManualRequested : Bool) (now : Timestamp) (newId newHistoryId : ℕ → ClientId) :
    Except CommandError Db := do
  let version ← findVersion db versionId
  throwIf (¬ isVersionActive version) (.validation
    ("STOCK_REPORT_VERSION_NOT_ACTIVE: only the active version can be refreshed; a draft is " ++
      "live already and a closed version is history."))
  let db := refreezeScanner db version.clientId
  let db ← refreshManual db version.clientId keepManualRequested now newHistoryId
  let db ← addMissingRows db version newId
  pure (clampVersionMissingQuantities db version.clientId)

end Refresh

section DraftCommands

/-- `delete_stock_report_snapshot_version`. -/
def deleteStockReportSnapshotVersion (db : Db) (versionId : ClientId) :
    Except CommandError Db := do
  let version ← findVersion db versionId
  throwIf (¬ isVersionDraft version) (.validation versionNotDraftMessage)
  let db := cancelActivationSchedulers db version.clientId none
  pure { db with
    snapshots := deleteWhere (fun s => s.versionId == version.clientId) db.snapshots
    versions := deleteWhere (fun v => v.clientId == version.clientId) db.versions }

/-- The body of an update; a field that was not sent is `none`. -/
structure UpdateVersionRequest where
  clientId : ClientId
  title : Option (Option String)
  scheduledActivationAt : Option (Option Timestamp)
  scheduledActivationKeepsActiveMissing : Option Bool
  deriving DecidableEq, Repr

def UpdateVersionRequest.apply (request : UpdateVersionRequest) (version : SnapshotVersion) :
    SnapshotVersion :=
  { version with
    title := request.title.getD version.title
    scheduledActivationAt := request.scheduledActivationAt.getD version.scheduledActivationAt
    scheduledActivationKeepsActiveMissing :=
      request.scheduledActivationKeepsActiveMissing.getD
        version.scheduledActivationKeepsActiveMissing }

/-- `update_stock_report_snapshot_version`. -/
def updateStockReportSnapshotVersion (db : Db) (request : UpdateVersionRequest) (now : Timestamp)
    (newSchedulerId : ClientId) : Except CommandError Db := do
  let version ← findVersion db request.clientId
  throwIf ((request.scheduledActivationAt.isSome ∨
      request.scheduledActivationKeepsActiveMissing.isSome) ∧ ¬ isVersionDraft version)
    (.validation versionNotDraftMessage)
  validateSchedule (request.scheduledActivationAt.getD none) now
  let written := updateVersion db version.clientId request.apply
  if (request.apply version).scheduledActivationAt = version.scheduledActivationAt then
    pure written
  else
    let db := cancelActivationSchedulers written version.clientId none
    match (request.apply version).scheduledActivationAt with
    | some scheduledFor => createActivationScheduler db version.clientId scheduledFor newSchedulerId
    | none => pure db

end DraftCommands

end BeyoManager.StockReport
