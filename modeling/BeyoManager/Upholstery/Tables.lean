import BeyoManager.Library.Decimal
import BeyoManager.Library.FixedScale
import BeyoManager.Library.Relational
import BeyoManager.Library.Transition
import BeyoManager.StockReport.Enums

/-! # Tables of the upholstery

The fabric of one workspace: what is in stock of each upholstery, which upholstery an item
gets, and the requirements that lay claim to the stock. Amounts are decimals of metres, computed
with the 28 digits of the default context and kept in columns of three decimals. A statement that
breaks a constraint of the tables fails.
-/

namespace BeyoManager.Upholstery

open Relational Transition
open StockReport (TaskState)

/-- A `client_id`. -/
abbrev ClientId := String

/-- An aware datetime, in seconds. -/
abbrev Instant := ℚ

/-- A `Decimal` amount of metres. -/
abbrev Meters := ℚ

/-- A `Numeric(·, 3)` column of metres, in thousandths. -/
abbrev MetersColumn := ℤ

/-- The amount in a column. -/
abbrev MetersColumn.value (n : MetersColumn) : Meters := FixedScale.value 1000 n

/-- An amount as a column keeps it. -/
abbrev Meters.toColumn (x : Meters) : MetersColumn := FixedScale.store 1000 x

/-- A sum or a difference of amounts in the default context. Every column of metres is smaller
than `10 ^ 14`: a larger result cannot be written, whatever its digits are. -/
def Meters.rounded (x : Meters) : Meters := if |x| < 10 ^ 14 then Decimal.round 28 x else x

abbrev Meters.IsShort (x : Meters) : Prop := FixedScale.Exact (10 ^ 14) x

section Rounded

variable {x y : Meters} {n m : MetersColumn}

theorem Meters.IsShort.rounded (h : x.IsShort) : x.rounded = x := by
  obtain ⟨k, rfl⟩ := h
  rw [Meters.rounded]
  split_ifs with hlt
  · have hvalue : FixedScale.value (10 ^ 14) k = (k : ℚ) / 10 ^ 14 := by
      rw [FixedScale.value, Nat.cast_pow, Nat.cast_ofNat]
    rw [hvalue] at hlt ⊢
    refine Decimal.round_eq_self rfl ?_
    rw [abs_div, abs_of_pos (by positivity : (0 : ℚ) < 10 ^ 14), div_lt_iff₀ (by positivity)] at hlt
    have hdigits : |(k : ℚ)| < 10 ^ 28 := hlt.trans_eq (by norm_num)
    exact_mod_cast hdigits
  · rfl

theorem MetersColumn.isShort (n : MetersColumn) : Meters.IsShort n.value :=
  ⟨n * 10 ^ 11, by rw [MetersColumn.value, FixedScale.value, FixedScale.value]; push_cast; ring⟩

theorem Meters.IsShort.rounded_value_add (h : x.IsShort) (n : MetersColumn) :
    Meters.rounded (FixedScale.value 1000 n + x) = FixedScale.value 1000 n + x :=
  Meters.IsShort.rounded (n.isShort.add h)

theorem Meters.IsShort.rounded_value_sub (h : x.IsShort) (n : MetersColumn) :
    Meters.rounded (FixedScale.value 1000 n - x) = FixedScale.value 1000 n - x :=
  Meters.IsShort.rounded (n.isShort.sub h)

theorem Meters.IsShort.rounded_value_sub_add (h : x.IsShort) (n m : MetersColumn) :
    Meters.rounded (FixedScale.value 1000 n - (FixedScale.value 1000 m + x)) =
      FixedScale.value 1000 n - (FixedScale.value 1000 m + x) :=
  Meters.IsShort.rounded (n.isShort.sub (m.isShort.add h))

theorem Meters.IsShort.rounded_sub_value (h : x.IsShort) (n : MetersColumn) :
    Meters.rounded (x - FixedScale.value 1000 n) = x - FixedScale.value 1000 n :=
  Meters.IsShort.rounded (h.sub n.isShort)

@[simp] theorem rounded_value_sub_value :
    Meters.rounded (FixedScale.value 1000 n - FixedScale.value 1000 m) =
      FixedScale.value 1000 n - FixedScale.value 1000 m :=
  Meters.IsShort.rounded (n.isShort.sub m.isShort)

end Rounded

def MetersColumn.text (n : MetersColumn) : String :=
  let thousandths := toString (n % 1000)
  toString (n / 1000) ++ "." ++ String.ofList (List.replicate (3 - thousandths.length) '0') ++
    thousandths

/-- `ItemUpholsterySourceEnum`. -/
inductive ItemUpholsterySource
  | internal | customer
  deriving DecidableEq, Repr

/-- `ItemUpholsteryRequirementSourceEnum`. -/
inductive RequirementSource
  | inventory | surplus
  deriving DecidableEq, Repr

/-- `ItemUpholsteryRequirementStateEnum`. -/
inductive RequirementState
  | missingQuantity | available | needsOrdering | ordered | inUse | completed | failed
  deriving DecidableEq, Repr

/-- `UpholsteryInventoryConditionEnum`. -/
inductive InventoryCondition
  | available | lowStock | outOfStock
  deriving DecidableEq, Repr

/-- `UpholsteryOrderStateEnum`. -/
inductive UpholsteryOrderState
  | draft | pending | approved | ordered | failed | cancelled | partiallyReceived | received
  deriving DecidableEq, Repr

/-- `upholsteries`. -/
structure UpholsteryRow where
  clientId : ClientId
  name : String
  code : Option String
  isDeleted : Bool
  deriving DecidableEq, Repr

/-- `upholstery_inventory`; every command that creates a row fills its amounts. -/
structure UpholsteryInventory where
  clientId : ClientId
  upholsteryId : ClientId
  inventoryCondition : InventoryCondition
  currentStored : MetersColumn
  currentInNeed : MetersColumn
  currentInUse : MetersColumn
  currentOrdered : MetersColumn
  totalUsed : MetersColumn
  totalUsedInventory : MetersColumn
  totalUsedSurplus : MetersColumn
  totalSurplus : MetersColumn
  lowStockThreshold : Option MetersColumn
  isDeleted : Bool
  deriving DecidableEq, Repr

/-- `item_upholsteries`. -/
structure ItemUpholstery where
  clientId : ClientId
  itemId : ClientId
  upholsteryId : Option ClientId
  amountMeters : Option MetersColumn
  source : ItemUpholsterySource
  activeRequirementId : Option ClientId
  isDeleted : Bool
  deriving DecidableEq, Repr

/-- `item_upholstery_requirements`. -/
structure ItemUpholsteryRequirement where
  clientId : ClientId
  itemUpholsteryId : ClientId
  upholsteryInventoryId : Option ClientId
  amountMeters : Option MetersColumn
  source : RequirementSource
  state : RequirementState
  createdAt : Instant
  orderedAt : Option Instant
  failedAt : Option Instant
  isDeleted : Bool
  deriving DecidableEq, Repr

/-- `upholstery_orders`. -/
structure UpholsteryOrder where
  clientId : ClientId
  upholsteryInventoryId : Option ClientId
  orderAmount : MetersColumn
  receivedAmount : Option MetersColumn
  state : UpholsteryOrderState
  isDeleted : Bool
  deriving DecidableEq, Repr

/-- `items`. -/
structure Item where
  clientId : ClientId
  isDeleted : Bool
  deriving DecidableEq, Repr

/-- `tasks`. -/
structure Task where
  clientId : ClientId
  state : TaskState
  readyByAt : Option Instant
  isDeleted : Bool
  deletedAt : Option Instant
  deriving DecidableEq, Repr

/-- `task_items`; `isPrimary` says that the role is `PRIMARY`. -/
structure TaskItem where
  taskId : ClientId
  itemId : ClientId
  isPrimary : Bool
  isRemoved : Bool
  deriving DecidableEq, Repr

/-- The tables of one workspace. `clamped` is not stored: it tells whether a `max(0, …)` of an
inventory amount has changed a value. -/
structure Db where
  upholsteries : List UpholsteryRow
  upholsteryInventory : List UpholsteryInventory
  itemUpholsteries : List ItemUpholstery
  requirements : List ItemUpholsteryRequirement
  orders : List UpholsteryOrder
  items : List Item
  tasks : List Task
  taskItems : List TaskItem
  clamped : Bool
  deriving DecidableEq, Repr

inductive CommandError
  | notFound (message : String)
  | conflict (message : String)
  | validation (message : String)
  | integrity (constraint : String)
  | typeError
  deriving DecidableEq, Repr

namespace RequirementState

/-- `DEMAND_REQUIREMENT_STATES`. -/
def isDemand : RequirementState → Bool
  | available | needsOrdering | ordered => true
  | missingQuantity | inUse | completed | failed => false

/-- `UNFINISHED_REQUIREMENT_STATES`. -/
def isUnfinished : RequirementState → Bool
  | missingQuantity | available | needsOrdering | ordered | inUse => true
  | completed | failed => false

end RequirementState

/-- `requirement.amount_meters or Decimal("0")`. -/
def ItemUpholsteryRequirement.amount (r : ItemUpholsteryRequirement) : MetersColumn :=
  r.amountMeters.getD 0

namespace Db

variable (db : Db)

def updateInventory (inventoryId : ClientId) (f : UpholsteryInventory → UpholsteryInventory) : Db :=
  { db with
    upholsteryInventory :=
      updateWhere (fun i => i.clientId == inventoryId) f db.upholsteryInventory }

def updateItemUpholstery (itemUpholsteryId : ClientId) (f : ItemUpholstery → ItemUpholstery) : Db :=
  { db with
    itemUpholsteries := updateWhere (fun u => u.clientId == itemUpholsteryId)
      f db.itemUpholsteries }

def updateRequirement (requirementId : ClientId)
    (f : ItemUpholsteryRequirement → ItemUpholsteryRequirement) : Db :=
  { db with requirements := updateWhere (fun r => r.clientId == requirementId) f db.requirements }

/-- Insert an inventory row; an upholstery has at most one that is not deleted. -/
def insertInventory (i : UpholsteryInventory) : Except CommandError Db := do
  throwIf (∃ x ∈ db.upholsteryInventory, x.clientId = i.clientId)
    (.integrity "upholstery_inventory_pkey")
  throwIf (∀ u ∈ db.upholsteries, u.clientId ≠ i.upholsteryId)
    (.integrity "upholstery_inventory_upholstery_id_fkey")
  throwIf (∃ x ∈ db.upholsteryInventory, x.upholsteryId = i.upholsteryId ∧ x.isDeleted = false)
    (.integrity "uix_upholstery_inventory_workspace_upholstery_active")
  throwIf (∃ threshold ∈ i.lowStockThreshold, threshold ≤ 0)
    (.integrity "ck_upholstery_inventory_low_stock_threshold_positive")
  pure { db with upholsteryInventory := db.upholsteryInventory ++ [i] }

def insertItemUpholstery (u : ItemUpholstery) : Except CommandError Db := do
  throwIf (∃ x ∈ db.itemUpholsteries, x.clientId = u.clientId)
    (.integrity "item_upholsteries_pkey")
  throwIf (∃ upholsteryId ∈ u.upholsteryId, ∀ x ∈ db.upholsteries, x.clientId ≠ upholsteryId)
    (.integrity "item_upholsteries_upholstery_id_fkey")
  pure { db with itemUpholsteries := db.itemUpholsteries ++ [u] }

def insertRequirement (r : ItemUpholsteryRequirement) : Except CommandError Db := do
  throwIf (∃ x ∈ db.requirements, x.clientId = r.clientId)
    (.integrity "item_upholstery_requirements_pkey")
  pure { db with requirements := db.requirements ++ [r] }

def insertOrder (o : UpholsteryOrder) : Except CommandError Db := do
  throwIf (∃ x ∈ db.orders, x.clientId = o.clientId) (.integrity "upholstery_orders_pkey")
  pure { db with orders := db.orders ++ [o] }

def inventoryOf (upholsteryId : ClientId) : Option UpholsteryInventory :=
  db.upholsteryInventory.find? fun i => i.upholsteryId == upholsteryId && !i.isDeleted

def fetchItemUpholstery (itemUpholsteryId : ClientId) : Option ItemUpholstery :=
  db.itemUpholsteries.find? fun u => u.clientId == itemUpholsteryId && !u.isDeleted

def fetchRequirement (requirementId : ClientId) : Option ItemUpholsteryRequirement :=
  db.requirements.find? fun r => r.clientId == requirementId && !r.isDeleted

def fetchActiveRequirement (u : ItemUpholstery) : Option ItemUpholsteryRequirement :=
  u.activeRequirementId.bind db.fetchRequirement

def fetchOwnActiveRequirement (u : ItemUpholstery) : Option ItemUpholsteryRequirement :=
  (db.fetchActiveRequirement u).filter fun r => r.itemUpholsteryId == u.clientId

def requirementsOf (inventoryId : ClientId) (states : List RequirementState) :
    List ItemUpholsteryRequirement :=
  db.requirements.filter fun r =>
    r.upholsteryInventoryId == some inventoryId && states.contains r.state && !r.isDeleted

end Db

end BeyoManager.Upholstery
