import BeyoManager.Library.Relational
import BeyoManager.Library.Transition
import BeyoManager.StockReport.Enums
import Mathlib.Tactic.Linarith

/-! # Tables of the stock report

The records of one workspace, as the statements of the commands read and write
them. Identifiers are the generated strings of `client_id`; instants count
microseconds; a JSON column is its text.
-/

namespace BeyoManager.StockReport

open Relational

/-- A `client_id`. -/
abbrev ClientId := String

/-- An aware datetime, in microseconds. -/
abbrev Timestamp := ℤ

abbrev JsonText := String

/-- The three unit counters of a stock report row. -/
@[ext]
structure Counters where
  quantityInQueue : ℤ
  quantityInProgress : ℤ
  quantityAwaiting : ℤ
  deriving DecidableEq, Repr

namespace Counters

instance : Zero Counters := ⟨⟨0, 0, 0⟩⟩

instance : Add Counters :=
  ⟨fun a b => ⟨a.quantityInQueue + b.quantityInQueue,
    a.quantityInProgress + b.quantityInProgress, a.quantityAwaiting + b.quantityAwaiting⟩⟩

instance : Neg Counters :=
  ⟨fun a => ⟨-a.quantityInQueue, -a.quantityInProgress, -a.quantityAwaiting⟩⟩

instance : Sub Counters :=
  ⟨fun a b => ⟨a.quantityInQueue - b.quantityInQueue,
    a.quantityInProgress - b.quantityInProgress, a.quantityAwaiting - b.quantityAwaiting⟩⟩

variable (a b : Counters)

@[simp] theorem zero_quantityInQueue : (0 : Counters).quantityInQueue = 0 := rfl
@[simp] theorem zero_quantityInProgress : (0 : Counters).quantityInProgress = 0 := rfl
@[simp] theorem zero_quantityAwaiting : (0 : Counters).quantityAwaiting = 0 := rfl
@[simp] theorem add_quantityInQueue :
    (a + b).quantityInQueue = a.quantityInQueue + b.quantityInQueue := rfl
@[simp] theorem add_quantityInProgress :
    (a + b).quantityInProgress = a.quantityInProgress + b.quantityInProgress := rfl
@[simp] theorem add_quantityAwaiting :
    (a + b).quantityAwaiting = a.quantityAwaiting + b.quantityAwaiting := rfl
@[simp] theorem neg_quantityInQueue : (-a).quantityInQueue = -a.quantityInQueue := rfl
@[simp] theorem neg_quantityInProgress : (-a).quantityInProgress = -a.quantityInProgress := rfl
@[simp] theorem neg_quantityAwaiting : (-a).quantityAwaiting = -a.quantityAwaiting := rfl
@[simp] theorem sub_quantityInQueue :
    (a - b).quantityInQueue = a.quantityInQueue - b.quantityInQueue := rfl
@[simp] theorem sub_quantityInProgress :
    (a - b).quantityInProgress = a.quantityInProgress - b.quantityInProgress := rfl
@[simp] theorem sub_quantityAwaiting :
    (a - b).quantityAwaiting = a.quantityAwaiting - b.quantityAwaiting := rfl

instance : AddCommGroup Counters where
  add_assoc a b c := by ext <;> simp [add_assoc]
  zero_add a := by ext <;> simp
  add_zero a := by ext <;> simp
  add_comm a b := by ext <;> simp [add_comm]
  neg_add_cancel a := by ext <;> simp
  sub_eq_add_neg a b := by ext <;> simp [sub_eq_add_neg]
  nsmul := nsmulRec
  zsmul := zsmulRec

def covered (c : Counters) : ℤ :=
  c.quantityInQueue + c.quantityInProgress + c.quantityAwaiting

/-- No counter is negative. -/
def Nonneg (c : Counters) : Prop :=
  0 ≤ c.quantityInQueue ∧ 0 ≤ c.quantityInProgress ∧ 0 ≤ c.quantityAwaiting

instance (c : Counters) : Decidable c.Nonneg := inferInstanceAs (Decidable (_ ∧ _ ∧ _))

theorem Nonneg.add {a b : Counters} (ha : a.Nonneg) (hb : b.Nonneg) : (a + b).Nonneg :=
  ⟨add_nonneg ha.1 hb.1, add_nonneg ha.2.1 hb.2.1, add_nonneg ha.2.2 hb.2.2⟩

theorem nonneg_zero : (0 : Counters).Nonneg := ⟨le_rfl, le_rfl, le_rfl⟩

end Counters

/-- `items`. -/
structure Item where
  clientId : ClientId
  articleNumber : Option String
  itemCategoryId : Option ClientId
  properties : JsonText
  quantity : ℤ
  isDeleted : Bool
  deriving DecidableEq, Repr

/-- `tasks`. -/
structure Task where
  clientId : ClientId
  state : TaskState
  isStockAssignment : Bool
  isDeleted : Bool
  deriving DecidableEq, Repr

/-- `task_items`; `isRemoved` says that `removed_at` is set. -/
structure TaskItem where
  taskId : ClientId
  itemId : ClientId
  role : TaskItemRole
  isRemoved : Bool
  deriving DecidableEq, Repr

/-- `stock_report_items`: a row of the report. -/
structure StockReportItem where
  clientId : ClientId
  itemCategoryId : ClientId
  properties : JsonText
  propertiesSignature : String
  quantityRequested : ℤ
  counters : Counters
  isDeleted : Bool
  deriving DecidableEq, Repr

/-- `stock_report_snapshot_versions`. -/
structure SnapshotVersion where
  clientId : ClientId
  title : Option String
  activeAt : Option Timestamp
  closedAt : Option Timestamp
  scheduledActivationAt : Option Timestamp
  scheduledActivationKeepsActiveMissing : Bool
  snapshotCount : ℤ
  createdAt : Timestamp
  deriving DecidableEq, Repr

/-- `stock_report_item_snapshots`: a row's place inside one version. -/
structure ItemSnapshot where
  clientId : ClientId
  versionId : ClientId
  stockReportItemId : ClientId
  quantityRequestedScanner : Option ℤ
  quantityRequestedManual : Option ℤ
  counters : Counters
  quantityMissing : Option ℤ
  quantityResolved : ℤ
  priority : Option StockReportPriority
  priorityOrder : Option ℤ
  activeAt : Option Timestamp
  closedAt : Option Timestamp
  deriving DecidableEq, Repr

/-- `stock_task_assignments`. -/
structure StockTaskAssignment where
  clientId : ClientId
  stockReportItemId : ClientId
  taskId : ClientId
  itemId : ClientId
  creditedHistoryRecordId : Option ClientId
  quantity : ℤ
  propertyMismatchOverridden : Bool
  state : StockTaskAssignmentState
  isDeleted : Bool
  deriving DecidableEq, Repr

/-- `stock_report_history_records`. -/
structure HistoryRecord where
  clientId : ClientId
  stockReportItemId : ClientId
  type : HistoryRecordType
  quantityRequested : ℤ
  quantityRequestedSource : QuantityRequestedSource
  quantityAwaiting : ℤ
  priority : Option StockReportPriority
  priorityOrder : Option ℤ
  createdAt : Timestamp
  isDeleted : Bool
  deriving DecidableEq, Repr

/-- `stock_report_repair_records`. -/
structure RepairRecord where
  targetKind : RepairTargetKind
  targetClientId : ClientId
  field : String
  storedValue : Option String
  recomputedValue : Option String
  trigger : String
  deriving DecidableEq, Repr

/-- `delayed_schedulers`. -/
structure DelayedScheduler where
  clientId : ClientId
  type : DelayedSchedulerType
  state : SchedulerState
  eventClientId : Option ClientId
  scheduledFor : Timestamp
  deriving DecidableEq, Repr

/-- The records of one workspace. -/
structure Db where
  items : List Item
  tasks : List Task
  taskItems : List TaskItem
  rows : List StockReportItem
  versions : List SnapshotVersion
  snapshots : List ItemSnapshot
  assignments : List StockTaskAssignment
  histories : List HistoryRecord
  repairs : List RepairRecord
  schedulers : List DelayedScheduler
  deriving DecidableEq, Repr

inductive CommandError
  | notFound (message : String)
  | validation (message : String)
  | stockAssignmentRefused (entries : List (ℕ × String))
  | stockAssignmentPropertyMismatch (indices : List ℕ)
  | stockDemandDeadlineExceeded
  | illegalAssignmentMove (message : String)
  | integrityError (constraint : String)
  | noResultFound
  | multipleResultsFound
  | keyError (key : String)
  | typeError (name : String)
  | runtimeError (message : String)
  deriving DecidableEq, Repr

namespace Db

variable (db : Db)

def item? (id : ClientId) : Option Item :=
  db.items.find? fun i => i.clientId == id

def task? (id : ClientId) : Option Task :=
  db.tasks.find? fun t => t.clientId == id

/-- The row with this id. -/
def row? (id : ClientId) : Option StockReportItem :=
  db.rows.find? fun r => r.clientId == id

def version? (id : ClientId) : Option SnapshotVersion :=
  db.versions.find? fun v => v.clientId == id

def snapshot? (id : ClientId) : Option ItemSnapshot :=
  db.snapshots.find? fun s => s.clientId == id

def assignment? (id : ClientId) : Option StockTaskAssignment :=
  db.assignments.find? fun a => a.clientId == id

def history? (id : ClientId) : Option HistoryRecord :=
  db.histories.find? fun h => h.clientId == id

end Db

end BeyoManager.StockReport
