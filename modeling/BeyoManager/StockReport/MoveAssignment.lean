import BeyoManager.StockReport.SnapshotRules

/-! # Moves of assignments

Every change of an assignment goes through one writer: it writes the assignment's own
columns, moves the counters of its row by a delta, adjusts the goal record, and last
the row's active snapshot. A delta that would make a counter negative is replaced by
the sums over the assignments, with a repair record for each counter that drifted.
-/

namespace BeyoManager.StockReport

open Relational Transition Sorting

section Consistency

variable (db : Db)

def stateCounters : StockTaskAssignmentState → ℤ → Counters
  | .inQueue, q => ⟨q, 0, 0⟩
  | .inProgress, q => ⟨0, q, 0⟩
  | .awaiting, q => ⟨0, 0, q⟩
  | .resolved, _ | .failed, _ | .resolvedEarly, _ => 0

/-- `recompute_row_counters`. -/
def recomputeRowCounters (rowId : ClientId) : Counters :=
  total (fun a => stateCounters a.state a.quantity) <| db.assignments.filter fun a =>
    a.stockReportItemId == rowId && !a.isDeleted && a.state.isActive

/-- `recompute_goal_total`. -/
def recomputeGoalTotal (historyRecordId : ClientId) : ℤ :=
  total StockTaskAssignment.quantity <| db.assignments.filter fun a =>
    a.creditedHistoryRecordId == some historyRecordId

/-- `expected_task_flag`. -/
def expectedTaskFlag (taskId : ClientId) : Bool :=
  db.assignments.any fun a => a.taskId == taskId && !a.isDeleted

end Consistency

/-- `write_repair_record` for two integers. -/
def repairRecord (targetKind : RepairTargetKind) (targetClientId : ClientId) (field : String)
    (storedValue recomputedValue : ℤ) (trigger : String) : RepairRecord :=
  ⟨targetKind, targetClientId, field, some (toString storedValue),
    some (toString recomputedValue), trigger⟩

/-- Where an assignment moves to: a state, or `ASSIGNMENT_DELETE`. -/
inductive MoveTarget
  | state (state : StockTaskAssignmentState)
  | delete
  deriving DecidableEq, Repr

namespace MoveTarget

/-- The target as Python prints it with `!r`. -/
def pyRepr : MoveTarget → String
  | state s => s.pyRepr
  | delete => "ASSIGNMENT_DELETE"

def isActive : MoveTarget → Bool
  | state s => s.isActive
  | delete => false

end MoveTarget

def assertAllowedStateMove (fromState target : StockTaskAssignmentState) :
    Except CommandError Unit :=
  if fromState = target then .ok ()
  else if fromState.isTerminal then
    .error (.illegalAssignmentMove
      s!"illegal move from terminal state {fromState.pyRepr} to {target.pyRepr}")
  else if target.isActive then .ok ()
  else match target with
    | .resolved =>
      if fromState = .awaiting then .ok ()
      else .error (.illegalAssignmentMove
        s!"illegal move {fromState.pyRepr} -> resolved (Scanner exits only from awaiting)")
    | .resolvedEarly =>
      if fromState = .inQueue ∨ fromState = .inProgress then .ok ()
      else .error (.illegalAssignmentMove s!"illegal move {fromState.pyRepr} -> resolved_early")
    | _ => .ok ()

/-- `_assert_allowed_move`; a creation has no state to come from. -/
def assertAllowedMove (fromState : Option StockTaskAssignmentState) (target : MoveTarget) :
    Except CommandError Unit :=
  match fromState, target with
  | none, target =>
    if target.isActive then .ok ()
    else .error (.illegalAssignmentMove s!"illegal creation move ∅ -> {target.pyRepr}")
  | some _, .delete => .ok ()
  | some fromState, .state target => assertAllowedStateMove fromState target

/-- `_delta_vector`. -/
def deltaVector (fromState : Option StockTaskAssignmentState) (target : MoveTarget)
    (quantity : ℤ) : Counters :=
  (match target with
    | .state s => stateCounters s quantity
    | .delete => 0) -
  (match fromState with
    | some s => stateCounters s quantity
    | none => 0)

section CounterDelta

def counterRepairs (rowId : ClientId) (stored deltas recomputed : Counters) (trigger : String) :
    List RepairRecord :=
  [("quantity_in_queue", Counters.quantityInQueue),
   ("quantity_in_progress", Counters.quantityInProgress),
   ("quantity_awaiting", Counters.quantityAwaiting)].filterMap fun (field, read) =>
    if read stored + read deltas ≠ read recomputed then
      some (repairRecord .stockReportItem rowId field (read stored) (read recomputed)
        s!"inline:{trigger}")
    else none

def setRowCounters (db : Db) (rowId : ClientId) (counters : Counters) : Db :=
  { db with
    rows := updateWhere (fun r => r.clientId == rowId)
      (fun r => { r with counters := counters }) db.rows }

/-- `_apply_counter_delta`. -/
def applyCounterDelta (db : Db) (rowId : ClientId) (deltas : Counters) (trigger : String) :
    Except CommandError Db :=
  match db.row? rowId with
  | none => .error .noResultFound
  | some row =>
    if (row.counters + deltas).Nonneg then .ok (setRowCounters db rowId (row.counters + deltas))
    else
      let recomputed := recomputeRowCounters db rowId
      .ok { setRowCounters db rowId recomputed with
        repairs := db.repairs ++ counterRepairs rowId row.counters deltas recomputed trigger }

end CounterDelta

section GoalEffect

def goalRecords (db : Db) (rowId : ClientId) : List HistoryRecord :=
  sortByDescending (fun h => toLex (h.createdAt, h.clientId)) <| db.histories.filter fun h =>
    h.stockReportItemId == rowId && h.type == .quantityRequestedChange && !h.isDeleted

/-- `current_goal_record_id`. -/
def currentGoalRecordId (db : Db) (rowId : ClientId) : Option ClientId :=
  (goalRecords db rowId).head?.map HistoryRecord.clientId

def addToGoal (db : Db) (historyId : ClientId) (quantity : ℤ) : Db :=
  { db with
    histories := updateWhere (fun h => h.clientId == historyId)
      (fun h => { h with quantityAwaiting := h.quantityAwaiting + quantity }) db.histories }

def setCredit (db : Db) (assignmentId : ClientId) (credit : Option ClientId) : Db :=
  { db with
    assignments := updateWhere (fun a => a.clientId == assignmentId)
      (fun a => { a with creditedHistoryRecordId := credit }) db.assignments }

/-- `_credit_current_goal`. -/
def creditCurrentGoal (db : Db) (assignment : StockTaskAssignment) : Db :=
  match currentGoalRecordId db assignment.stockReportItemId with
  | none => db
  | some goalId => setCredit (addToGoal db goalId assignment.quantity) assignment.clientId goalId

/-- `_uncredit`. -/
def uncredit (db : Db) (assignment : StockTaskAssignment) (trigger : String) :
    Except CommandError Db :=
  match assignment.creditedHistoryRecordId with
  | none => .ok db
  | some recordId =>
    let db := setCredit db assignment.clientId none
    match db.history? recordId with
    | none => .error (.runtimeError s!"goal self-heal affected 0 rows for {recordId}")
    | some history =>
      if 0 ≤ history.quantityAwaiting - assignment.quantity then
        .ok (addToGoal db recordId (-assignment.quantity))
      else
        let recomputed := recomputeGoalTotal db recordId
        .ok { db with
          histories := updateWhere (fun h => h.clientId == recordId)
            (fun h => { h with quantityAwaiting := recomputed }) db.histories
          repairs := db.repairs ++ [repairRecord .historyRecord recordId "quantity_awaiting"
            history.quantityAwaiting recomputed s!"inline:{trigger}"] }

/-- `apply_goal_effect`. -/
def applyGoalEffect (db : Db) (assignment : StockTaskAssignment)
    (fromState : Option StockTaskAssignmentState) (toState : MoveTarget) (trigger : String) :
    Except CommandError Db :=
  if toState = .state .awaiting ∨ toState = .state .resolvedEarly then
    if fromState ≠ some .awaiting then .ok (creditCurrentGoal db assignment) else .ok db
  else if fromState = some .awaiting then
    if toState = .state .resolved then .ok db else uncredit db assignment trigger
  else .ok db

end GoalEffect

section Snapshots

/-- `clamp_snapshot_missing_quantity` and its twin for a version: lower to the ceiling. -/
def clampMissing (db : Db) (p : ItemSnapshot → Bool) : Db :=
  { db with
    snapshots := db.snapshots.map fun s =>
      match db.row? s.stockReportItemId with
      | none => s
      | some row =>
        match s.quantityMissing with
        | none => s
        | some missing =>
          if p s && isSnapshotActive s && decide (missingCeiling s row < missing) then
            { s with quantityMissing := some (missingCeiling s row) }
          else s }

/-- `clamp_snapshot_missing_quantity`. -/
def clampSnapshotMissingQuantity (db : Db) (rowId : ClientId) : Db :=
  clampMissing db fun s => s.stockReportItemId == rowId

/-- `clamp_version_missing_quantities`. -/
def clampVersionMissingQuantities (db : Db) (versionId : ClientId) : Db :=
  clampMissing db fun s => s.versionId == versionId

/-- `credit_snapshot_resolved`. -/
def creditSnapshotResolved (db : Db) (rowId : ClientId) (quantity : ℤ) : Db :=
  if quantity ≤ 0 then db
  else { db with
    snapshots := updateWhere (fun s => s.stockReportItemId == rowId && isSnapshotActive s)
      (fun s => { s with quantityResolved := s.quantityResolved + quantity }) db.snapshots }

end Snapshots

def moved (assignment : StockTaskAssignment) : MoveTarget → StockTaskAssignment
  | .state s => { assignment with state := s }
  | .delete => { assignment with isDeleted := true }

def writeMoved (db : Db) (assignment : StockTaskAssignment) (target : MoveTarget) : Db :=
  { db with
    assignments := updateWhere (fun a => a.clientId == assignment.clientId)
      (fun a => moved a target) db.assignments }

def snapshotEffect (db : Db) (assignment : StockTaskAssignment) (target : MoveTarget)
    (isCreation : Bool) : Db :=
  if isCreation then clampSnapshotMissingQuantity db assignment.stockReportItemId
  else if target = .state .resolved ∨ target = .state .resolvedEarly then
    creditSnapshotResolved db assignment.stockReportItemId assignment.quantity
  else db

def fromStateOf (assignment : StockTaskAssignment) (isCreation : Bool) :
    Option StockTaskAssignmentState :=
  if isCreation then none else some assignment.state

/-- `move_assignment`. -/
def moveAssignment (db : Db) (assignment : StockTaskAssignment) (target : MoveTarget)
    (trigger : String) (isCreation : Bool) : Except CommandError Db :=
  if isCreation = false ∧ target = .state assignment.state then .ok db
  else do
    let fromState := fromStateOf assignment isCreation
    assertAllowedMove fromState target
    let db := writeMoved db assignment target
    let db ← applyCounterDelta db assignment.stockReportItemId
      (deltaVector fromState target assignment.quantity) trigger
    let db ← applyGoalEffect db assignment fromState target trigger
    pure (snapshotEffect db assignment target isCreation)

section TaskFlag

/-- `set_task_stock_flag`. -/
def setTaskStockFlag (db : Db) (taskId : ClientId) (value : Bool) : Except CommandError Db :=
  if (db.tasks.filter fun t => t.clientId == taskId && t.isStockAssignment != value).length ≤ 1
  then .ok { db with
    tasks := updateWhere (fun t => t.clientId == taskId && t.isStockAssignment != value)
      (fun t => { t with isStockAssignment := value }) db.tasks }
  else .error (.runtimeError "task flag update affected an unexpected number of rows")

/-- `recompute_task_stock_flag`. -/
def recomputeTaskStockFlag (db : Db) (taskId : ClientId) : Except CommandError Db :=
  setTaskStockFlag db taskId (expectedTaskFlag db taskId)

end TaskFlag

/-- `remove_assignment`. -/
def removeAssignment (db : Db) (assignment : StockTaskAssignment) (trigger : String) :
    Except CommandError Db := do
  let db ← moveAssignment db assignment .delete trigger false
  recomputeTaskStockFlag db assignment.taskId

section ProcessedGroup

def processedTarget (state : StockTaskAssignmentState) : StockTaskAssignmentState :=
  if state = .awaiting then .resolved else .resolvedEarly

def movedGroup (assignments : List StockTaskAssignment) : List StockTaskAssignment :=
  assignments.filter fun a => a.state ≠ processedTarget a.state

def groupDelta (moved : List StockTaskAssignment) : Counters :=
  total (fun a => -stateCounters a.state a.quantity) moved

/-- `resolve_processed_group`. -/
def resolveProcessedGroup (db : Db) (assignments : List StockTaskAssignment) (rowId : ClientId)
    (trigger : String) : Except CommandError Db := do
  let moved := movedGroup assignments
  moved.forM fun a => assertAllowedMove (some a.state) (.state (processedTarget a.state))
  if moved = [] then pure db
  else do
    let db := moved.foldl (fun db a => writeMoved db a (.state (processedTarget a.state))) db
    let db ← applyCounterDelta db rowId (groupDelta moved) trigger
    let db ← moved.foldlM (fun db a =>
      applyGoalEffect db a (some a.state) (.state (processedTarget a.state)) trigger) db
    pure (creditSnapshotResolved db rowId (total StockTaskAssignment.quantity moved))

end ProcessedGroup

end BeyoManager.StockReport
