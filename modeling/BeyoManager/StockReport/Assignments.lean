import BeyoManager.Library.PyText
import BeyoManager.StockReport.MoveAssignment

/-! # Commands on assignments

Creation, the sync with the states of the tasks, the Scanner's processed items, and
deletion. A command that discovers records before it locks them is split there: a
discovery on one state, and a part that runs on the state it finds under its locks.
-/

namespace BeyoManager.StockReport

open Relational Transition Sorting

/-- `_lock`: the records with these ids, in the order of the ids. -/
def lock {α : Type} (key : α → ClientId) (table : List α) (clientIds : List ClientId) : List α :=
  sortBy key (table.filter fun x => decide (key x ∈ clientIds))

def getLocked {α : Type} (key : α → ClientId) (locked : List α) (clientId : ClientId) :
    Except CommandError α :=
  getOr (.keyError clientId) (locked.find? fun x => key x == clientId)

section Creation

structure CreateEntry where
  stockReportItemId : ClientId
  taskId : ClientId
  itemId : ClientId
  overridePropertyMismatch : Bool
  deriving DecidableEq, Repr

variable (db : Db)

def isPrimaryPair (taskId itemId : ClientId) : Bool :=
  db.taskItems.any fun l =>
    l.taskId == taskId && l.itemId == itemId && l.role == .primary && !l.isRemoved

def isProcessedPair (taskId itemId : ClientId) : Bool :=
  db.assignments.any fun a => a.taskId == taskId && a.itemId == itemId && !a.isDeleted &&
    (a.state == .resolved || a.state == .resolvedEarly)

def isLiveActive (a : StockTaskAssignment) : Bool := !a.isDeleted && a.state.isActive

/-- The first check of an entry that fails, in the order of `_CHECK_ORDER`. -/
def firstFailedCheck (row : Option StockReportItem) (task : Option Task) (item : Option Item)
    (taskId itemId : ClientId) : Option String :=
  if row.all StockReportItem.isDeleted then some "stock_report_item_not_found"
  else if task.all Task.isDeleted then some "task_not_found"
  else if item.all Item.isDeleted then some "item_not_found"
  else if !isPrimaryPair db taskId itemId then some "item_not_task_primary"
  else if isProcessedPair db taskId itemId then some "already_processed_by_scanner"
  else if task.any fun t => t.state = .failed ∨ t.state = .cancelled then
    some "task_failed_or_cancelled"
  else if db.assignments.any fun a => a.itemId == itemId && isLiveActive a then
    some "item_already_assigned"
  else if item.any fun i => i.itemCategoryId.isNone then some "item_has_no_category"
  else if row.any fun r => item.any fun i => i.itemCategoryId.any fun c => c != r.itemCategoryId
    then some "category_mismatch"
  else none

/-- Why an entry is refused: duplicates in the batch first, then the checks. -/
def refusalReason (entries : List CreateEntry) (entry : CreateEntry) : Option String :=
  if 1 < entries.countP (fun e => e.itemId = entry.itemId) then some "duplicate_item_in_batch"
  else if 1 < entries.countP (fun e => e.taskId = entry.taskId) then some "duplicate_task_in_batch"
  else firstFailedCheck db (db.row? entry.stockReportItemId) (db.task? entry.taskId)
    (db.item? entry.itemId) entry.taskId entry.itemId

/-- Insert an assignment; an item and a task have at most one active assignment each. -/
def insertAssignment (assignment : StockTaskAssignment) : Except CommandError Db :=
  if isLiveActive assignment ∧ ∃ a ∈ db.assignments, isLiveActive a ∧
      (a.itemId = assignment.itemId ∨ a.taskId = assignment.taskId) then
    .error (.integrityError "uix_stock_task_assignments_active")
  else do
    let assignments ← insertRecords StockTaskAssignment.clientId
      (.integrityError "pk_stock_task_assignments") [assignment] db.assignments
    pure { db with assignments := assignments }

def refuseOnIntegrityError {α : Type} (index : ℕ) : Except CommandError α → Except CommandError α
  | .error (.integrityError _) =>
    .error (.stockAssignmentRefused [(index, "item_already_assigned")])
  | result => result

/-- Write one entry: the assignment, its creation move, and the flag of its task. -/
def createEntry (criteriaFail : Item → JsonText → Bool) (newId : ℕ → ClientId) (db : Db)
    (indexed : CreateEntry × ℕ) : Except CommandError Db := do
  let (entry, index) := indexed
  let row ← getOr (.keyError entry.stockReportItemId) (db.row? entry.stockReportItemId)
  let item ← getOr (.keyError entry.itemId) (db.item? entry.itemId)
  let task ← getOr (.keyError entry.taskId) (db.task? entry.taskId)
  let targetState := assignmentStateByTaskState task.state
  let assignment : StockTaskAssignment := {
    clientId := newId index
    stockReportItemId := row.clientId
    taskId := task.clientId
    itemId := item.clientId
    creditedHistoryRecordId := none
    quantity := 1
    propertyMismatchOverridden :=
      criteriaFail item row.properties && entry.overridePropertyMismatch
    state := targetState
    isDeleted := false }
  refuseOnIntegrityError index do
    let db ← insertAssignment db assignment
    let db ← moveAssignment db assignment (.state targetState) "create_assignments" true
    setTaskStockFlag db task.clientId true

/-- The entries whose item fails the criteria of the row without an override. -/
def mismatches (criteriaFail : Item → JsonText → Bool) (entries : List CreateEntry) : List ℕ :=
  (entries.zipIdx.filter fun (entry, _) =>
    (db.row? entry.stockReportItemId).any fun row => (db.item? entry.itemId).any fun item =>
      criteriaFail item row.properties && !entry.overridePropertyMismatch).map Prod.snd

/-- `create_stock_task_assignments`. -/
def createStockTaskAssignments (criteriaFail : Item → JsonText → Bool) (newId : ℕ → ClientId)
    (entries : List CreateEntry) : Except CommandError Db := do
  let reasons := entries.zipIdx.filterMap fun (entry, index) =>
    (refusalReason db entries entry).map fun reason => (index, reason)
  throwIf (reasons ≠ []) (.stockAssignmentRefused reasons)
  throwIf (mismatches db criteriaFail entries ≠ [])
    (.stockAssignmentPropertyMismatch (mismatches db criteriaFail entries))
  (sortBy (fun indexed => indexed.1.itemId) entries.zipIdx).foldlM
    (createEntry criteriaFail newId) db

end Creation

section Sync

/-- Move the assignment of one task to the state that the task's state asks for. -/
def syncTask (db : Db) (taskId : ClientId) : Except CommandError Db :=
  match db.task? taskId with
  | none => .error (.keyError taskId)
  | some task =>
    match db.assignments.filter fun a => a.taskId == taskId && isLiveActive a with
    | [] => .ok db
    | [assignment] =>
      let target := assignmentStateByTaskState task.state
      if assignment.state = target then .ok db
      else moveAssignment db assignment (.state target) "task_sync" false
    | _ => .error .multipleResultsFound

/-- `sync_task_stock_assignments`, for the tasks that changed. -/
def syncTaskStockAssignments (db : Db) (changed : List ClientId) : Except CommandError Db :=
  (sortBy id changed).foldlM syncTask db

def setTaskState (db : Db) (change : ClientId × TaskState) : Db :=
  { db with
    tasks := updateWhere (fun t => t.clientId == change.1)
      (fun t => { t with state := change.2 }) db.tasks }

def changeTaskStates (db : Db) (changes : List (ClientId × TaskState)) : Except CommandError Db :=
  syncTaskStockAssignments (changes.foldl setTaskState db) (changes.map Prod.fst)

end Sync

section Removal

def removeAssignments (db : Db) (assignments : List StockTaskAssignment) (trigger : String) :
    Except CommandError Db :=
  assignments.foldlM (fun db a => removeAssignment db a trigger) db

def requestedIds (clientIds : List ClientId) : List ClientId := sortBy id clientIds.dedup

/-- The unlocked discovery of `delete_stock_task_assignments`. -/
def discoverDeleted (db : Db) (clientIds : List ClientId) : List ClientId :=
  (db.assignments.filter fun a => decide (a.clientId ∈ clientIds) && !a.isDeleted).map
    StockTaskAssignment.clientId

/-- `delete_stock_task_assignments` under its locks. -/
def deleteDiscovered (db : Db) (clientIds discovered : List ClientId) :
    Except CommandError Db := do
  let locked := lock StockTaskAssignment.clientId db.assignments discovered
  let missing := sortBy id ((requestedIds clientIds).filter (fun id => decide (id ∉ discovered)) ++
    (locked.filter StockTaskAssignment.isDeleted).map StockTaskAssignment.clientId).dedup
  let names := String.intercalate ", " missing
  throwIf (missing ≠ []) (.notFound s!"Stock task assignment(s) not found: {names}")
  let assignments ← (requestedIds clientIds).mapM
    (getLocked StockTaskAssignment.clientId locked)
  removeAssignments db assignments "delete_assignments"

/-- `delete_stock_task_assignments`. -/
def deleteStockTaskAssignments (db : Db) (clientIds : List ClientId) : Except CommandError Db :=
  deleteDiscovered db clientIds (discoverDeleted db clientIds)

/-- The commands outside the stock report that remove the assignments of what they delete. -/
inductive Remover
  | removeItemFromTask (taskId itemId : ClientId)
  | deleteTask (taskId : ClientId)
  | deleteItem (itemId : ClientId)
  deriving DecidableEq, Repr

namespace Remover

def concerns (a : StockTaskAssignment) : Remover → Bool
  | removeItemFromTask taskId itemId => a.taskId == taskId && a.itemId == itemId
  | deleteTask taskId => a.taskId == taskId
  | deleteItem itemId => a.itemId == itemId

/-- The trigger of the command's repair records. -/
def trigger : Remover → String
  | removeItemFromTask _ _ => "remove_item_from_task"
  | deleteTask _ => "delete_task"
  | deleteItem _ => "delete_item"

def mark (db : Db) : Remover → Db
  | removeItemFromTask taskId itemId => { db with
      taskItems := updateWhere (fun l => l.taskId == taskId && l.itemId == itemId)
        (fun l => { l with isRemoved := true }) db.taskItems }
  | deleteTask taskId => { db with
      tasks := updateWhere (fun t => t.clientId == taskId)
        (fun t => { t with isDeleted := true }) db.tasks }
  | deleteItem itemId => { db with
      items := updateWhere (fun i => i.clientId == itemId)
        (fun i => { i with isDeleted := true }) db.items }

end Remover

def discoverConcerned (db : Db) (remover : Remover) : List ClientId :=
  (db.assignments.filter fun a => remover.concerns a && !a.isDeleted).map
    StockTaskAssignment.clientId

/-- A remover under its locks: it skips what a concurrent delete took first. -/
def removeDiscovered (db : Db) (remover : Remover) (discovered : List ClientId) :
    Except CommandError Db := do
  let locked := lock StockTaskAssignment.clientId db.assignments discovered
  let db ← removeAssignments db (locked.filter fun a => !a.isDeleted) remover.trigger
  pure (remover.mark db)

def runRemover (db : Db) (remover : Remover) : Except CommandError Db :=
  removeDiscovered db remover (discoverConcerned db remover)

end Removal

section ItemsProcessed

/-- What the webhook learns before it locks anything. -/
structure ProcessedDiscovery where
  /-- The live item of each article number. -/
  itemIdByNumber : List (String × ClientId)
  /-- The live active assignments of these items: item, assignment and row. -/
  assignments : List (ClientId × ClientId × ClientId)
  deriving DecidableEq, Repr

def discoverItems (db : Db) (stripped : List String) : List (String × ClientId) :=
  db.items.filterMap fun i =>
    match i.articleNumber with
    | some number => if !i.isDeleted && decide (number ∈ stripped) then some (number, i.clientId)
      else none
    | none => none

def discoverAssignments (db : Db) (itemIds : List ClientId) :
    List (ClientId × ClientId × ClientId) :=
  (db.assignments.filter fun a => decide (a.itemId ∈ itemIds) && isLiveActive a).map fun a =>
    (a.itemId, a.clientId, a.stockReportItemId)

/-- The unlocked reads of `process_items_processed`. -/
def discoverProcessed (db : Db) (numbers : List String) : ProcessedDiscovery :=
  let items := discoverItems db (numbers.map PyString.strip)
  ⟨items, discoverAssignments db (items.map Prod.snd)⟩

def lastOf {α : Type} (entries : List (ClientId × α)) (key : ClientId) : Option α :=
  (entries.reverse.find? fun e => e.1 == key).map Prod.snd

structure ProcessedResult where
  articleNumber : String
  outcome : ItemsProcessedOutcome
  reason : Option ItemsProcessedReason
  deriving DecidableEq, Repr

structure ProcessedDecision where
  workingState : List (ClientId × StockTaskAssignmentState)
  movedAssignmentIds : List ClientId
  results : List ProcessedResult
  deriving DecidableEq, Repr

def decideNumber (found : ProcessedDiscovery) (decision : ProcessedDecision) (raw : String) :
    Except CommandError ProcessedDecision :=
  let ignored (reason : ItemsProcessedReason) : ProcessedDecision :=
    { decision with results := decision.results ++ [⟨raw, .ignored, some reason⟩] }
  match lastOf found.itemIdByNumber (PyString.strip raw) with
  | none => .ok (ignored .itemNotFound)
  | some itemId =>
    match lastOf found.assignments itemId with
    | none => .ok (ignored .noOpenAssignment)
    | some (assignmentId, _) => do
      let state ← Dict.getItem CommandError.keyError decision.workingState assignmentId
      if state.isActive then
        pure {
          workingState := Dict.set decision.workingState assignmentId (processedTarget state)
          movedAssignmentIds := if assignmentId ∈ decision.movedAssignmentIds
            then decision.movedAssignmentIds else decision.movedAssignmentIds ++ [assignmentId]
          results := decision.results ++
            [⟨raw, .resolved, if state = .awaiting then none else some .early⟩] }
      else pure (ignored .noOpenAssignment)

/-- The decision over the locked assignments, which are read by their state alone. -/
def decideNumbers (found : ProcessedDiscovery) (locked : List StockTaskAssignment)
    (numbers : List String) : Except CommandError ProcessedDecision :=
  numbers.foldlM (decideNumber found)
    ⟨locked.map fun a => (a.clientId, a.state), [], []⟩

def resolveMoved (db : Db) (lockedRows : List StockReportItem)
    (assignments : List StockTaskAssignment) : Except CommandError Db :=
  (sortBy id (Grouping.keys StockTaskAssignment.stockReportItemId assignments)).foldlM
    (fun db rowId => do
      let row ← getLocked StockReportItem.clientId lockedRows rowId
      resolveProcessedGroup db
        (Grouping.group StockTaskAssignment.stockReportItemId assignments rowId)
        row.clientId "items_processed") db

/-- `process_items_processed` under its locks. -/
def processDiscovered (db : Db) (found : ProcessedDiscovery) (numbers : List String) :
    Except CommandError (Db × List ProcessedResult) := do
  let lockedRows := lock StockReportItem.clientId db.rows (found.assignments.map fun e => e.2.2)
  let locked := lock StockTaskAssignment.clientId db.assignments
    (found.assignments.map fun e => e.2.1)
  let decision ← decideNumbers found locked numbers
  let assignments ← decision.movedAssignmentIds.mapM
    (getLocked StockTaskAssignment.clientId locked)
  let db ← resolveMoved db lockedRows assignments
  pure (db, decision.results)

/-- `process_items_processed`. -/
def processItemsProcessed (db : Db) (numbers : List String) :
    Except CommandError (Db × List ProcessedResult) :=
  processDiscovered db (discoverProcessed db numbers) numbers

end ItemsProcessed

end BeyoManager.StockReport
