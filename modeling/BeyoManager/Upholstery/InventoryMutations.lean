import BeyoManager.Upholstery.Tables

/-! # Mutations of an inventory row

The helpers that the commands move the totals of an inventory row with, and the condition
that is derived from these totals.
-/

namespace BeyoManager.Upholstery

open Relational Transition

/-- `evaluate_inventory_condition`. -/
def evaluateInventoryCondition (stored inNeed : Meters) (threshold : Option Meters) :
    InventoryCondition :=
  let net := (stored - inNeed).rounded
  if net ≤ 0 then .outOfStock
  else if threshold.any fun t => net ≤ t then .lowStock
  else .available

namespace UpholsteryInventory

/-- The threshold of low stock. -/
def threshold (i : UpholsteryInventory) : Option Meters :=
  i.lowStockThreshold.map (·.value)

def new (clientId upholsteryId : ClientId) : UpholsteryInventory where
  clientId := clientId
  upholsteryId := upholsteryId
  inventoryCondition := .available
  currentStored := 0
  currentInNeed := 0
  currentInUse := 0
  currentOrdered := 0
  totalUsed := 0
  totalUsedInventory := 0
  totalUsedSurplus := 0
  totalSurplus := 0
  lowStockThreshold := none
  isDeleted := false

def use (i : UpholsteryInventory) (quantity : Meters) (source : RequirementSource) :
    UpholsteryInventory :=
  let i := { i with totalUsed := (i.totalUsed.value + quantity).toColumn }
  match source with
  | .inventory =>
    { i with totalUsedInventory := (i.totalUsedInventory.value + quantity).toColumn }
  | .surplus => { i with totalUsedSurplus := (i.totalUsedSurplus.value + quantity).toColumn }

section Use

variable (i : UpholsteryInventory) (quantity : Meters) (source : RequirementSource)

@[simp] theorem use_clientId : (i.use quantity source).clientId = i.clientId := by
  cases source <;> rfl

@[simp] theorem use_currentStored : (i.use quantity source).currentStored = i.currentStored := by
  cases source <;> rfl

@[simp] theorem use_currentInNeed : (i.use quantity source).currentInNeed = i.currentInNeed := by
  cases source <;> rfl

@[simp] theorem use_currentInUse : (i.use quantity source).currentInUse = i.currentInUse := by
  cases source <;> rfl

@[simp] theorem use_inventoryCondition :
    (i.use quantity source).inventoryCondition = i.inventoryCondition := by
  cases source <;> rfl

@[simp] theorem use_threshold : (i.use quantity source).threshold = i.threshold := by
  cases source <;> rfl

end Use

end UpholsteryInventory

/-- What `check_and_inject_need` and `adjust_need` answer; the row is known by its id. -/
structure NeedResult where
  inventoryId : ClientId
  sufficient : Bool
  condition : InventoryCondition
  deriving DecidableEq, Repr

namespace Db

variable (db : Db)

/-- `_load_inventory`. -/
def loadInventory (inventoryId : ClientId) : Except CommandError UpholsteryInventory :=
  getOr (.notFound "UpholsteryInventory not found.")
    (db.upholsteryInventory.find? fun i => i.clientId == inventoryId && !i.isDeleted)

def loadOrCreateInventory (upholsteryId : Option ClientId) (newInventoryId : ClientId) :
    Except CommandError (Db × UpholsteryInventory) :=
  match upholsteryId with
  | none => .error (.integrity "upholstery_inventory_upholstery_id_not_null")
  | some upholsteryId =>
    match db.inventoryOf upholsteryId with
    | some inv => .ok (db, inv)
    | none => do
      let db ← db.insertInventory (.new newInventoryId upholsteryId)
      pure (db, .new newInventoryId upholsteryId)

/-- `check_and_inject_need`, as every caller uses it: the need is injected. -/
def checkAndInjectNeed (upholsteryId : Option ClientId) (quantity : Meters)
    (newInventoryId : ClientId) : Except CommandError (Db × NeedResult) := do
  let (db, inv) ← db.loadOrCreateInventory upholsteryId newInventoryId
  let inNeed := (inv.currentInNeed.value + quantity).rounded
  let condition := evaluateInventoryCondition inv.currentStored.value inNeed inv.threshold
  let db := db.updateInventory inv.clientId fun i =>
    { i with currentInNeed := inNeed.toColumn, inventoryCondition := condition }
  pure (db, ⟨inv.clientId, 0 ≤ (inv.currentStored.value - inNeed).rounded, condition⟩)

/-- Note that `max(0, amount)` has been written. -/
def clamp (amount : Meters) : Db := { db with clamped := db.clamped || decide (amount < 0) }

/-- `consume_to_in_use`; its quantity and that of the completions and the rollback are amounts of
columns, whose sums and differences need no rounding. -/
def consumeToInUse (inventoryId : ClientId) (quantity : Meters) : Except CommandError Db := do
  let inv ← db.loadInventory inventoryId
  let newStored := inv.currentStored.value - quantity
  throwIf (newStored < 0) (.validation ("Not enough upholstery in stored inventory to start " ++
    "production — please add more stock before marking in-use."))
  let inNeed := inv.currentInNeed.value - quantity
  pure ((db.clamp inNeed).updateInventory inventoryId fun i =>
    { i with
      currentStored := newStored.toColumn
      currentInUse := (inv.currentInUse.value + quantity).toColumn
      currentInNeed := (max 0 inNeed : Meters).toColumn })

/-- `finish_in_use`. -/
def finishInUse (inventoryId : ClientId) (quantity : Meters) (source : RequirementSource) :
    Except CommandError Db := do
  let inv ← db.loadInventory inventoryId
  let newInUse := inv.currentInUse.value - quantity
  throwIf (newInUse < 0) (.validation
    "Inventory inconsistency: completion quantity exceeds recorded in-use amount.")
  pure (db.updateInventory inventoryId fun i =>
    { i.use quantity source with currentInUse := newInUse.toColumn })

/-- `add_ordered`. -/
def addOrdered (inventoryId : ClientId) (quantity : Meters) : Except CommandError Db := do
  let inv ← db.loadInventory inventoryId
  pure (db.updateInventory inventoryId fun i =>
    { i with currentOrdered := (inv.currentOrdered.value + quantity).rounded.toColumn })

/-- `confirm_ordered_to_stock`. -/
def confirmOrderedToStock (inventoryId : ClientId) (quantity : Meters) :
    Except CommandError Db := do
  let inv ← db.loadInventory inventoryId
  let newOrdered := (inv.currentOrdered.value - quantity).rounded
  throwIf (newOrdered < 0) (.validation ("Confirmed quantity exceeds the recorded ordered " ++
    "amount — verify the stock quantity before confirming."))
  let stored := (inv.currentStored.value + quantity).rounded
  pure (db.updateInventory inventoryId fun i =>
    { i with
      currentOrdered := newOrdered.toColumn
      currentStored := stored.toColumn
      inventoryCondition :=
        evaluateInventoryCondition stored inv.currentInNeed.value inv.threshold })

/-- `add_stored_surplus`. -/
def addStoredSurplus (inventoryId : ClientId) (quantity : Meters) : Except CommandError Db := do
  let inv ← db.loadInventory inventoryId
  let stored := (inv.currentStored.value + quantity).rounded
  pure (db.updateInventory inventoryId fun i =>
    { i with
      currentStored := stored.toColumn
      totalSurplus := (inv.totalSurplus.value + quantity).rounded.toColumn
      inventoryCondition :=
        evaluateInventoryCondition stored inv.currentInNeed.value inv.threshold })

/-- `adjust_need`. -/
def adjustNeed (inventoryId : ClientId) (delta : Meters) :
    Except CommandError (Db × NeedResult) := do
  let inv ← db.loadInventory inventoryId
  let adjusted := (inv.currentInNeed.value + delta).rounded
  let newInNeed : Meters := max 0 adjusted
  let condition := evaluateInventoryCondition inv.currentStored.value newInNeed inv.threshold
  let db := (db.clamp adjusted).updateInventory inventoryId fun i =>
    { i with currentInNeed := newInNeed.toColumn, inventoryCondition := condition }
  pure (db, ⟨inventoryId, 0 ≤ (inv.currentStored.value - newInNeed).rounded, condition⟩)

/-- `complete_available_direct`. -/
def completeAvailableDirect (inventoryId : ClientId) (quantity : Meters)
    (source : RequirementSource) : Except CommandError Db := do
  let inv ← db.loadInventory inventoryId
  let newStored := inv.currentStored.value - quantity
  throwIf (newStored < 0) (.validation ("Not enough upholstery in stored inventory to complete " ++
    "directly — stock may have changed since availability was confirmed."))
  let inNeed := inv.currentInNeed.value - quantity
  pure ((db.clamp inNeed).updateInventory inventoryId fun i =>
    { i.use quantity source with
      currentStored := newStored.toColumn
      currentInNeed := (max 0 inNeed : Meters).toColumn })

/-- `rollback_in_use_to_stored`. -/
def rollbackInUseToStored (inventoryId : ClientId) (quantity : Meters) :
    Except CommandError Db := do
  let inv ← db.loadInventory inventoryId
  let newInUse := inv.currentInUse.value - quantity
  throwIf (newInUse < 0) (.validation
    "Inventory inconsistency: rollback quantity exceeds recorded in-use amount.")
  let stored := inv.currentStored.value + quantity
  pure (db.updateInventory inventoryId fun i =>
    { i with
      currentInUse := newInUse.toColumn
      currentStored := stored.toColumn
      inventoryCondition :=
        evaluateInventoryCondition stored inv.currentInNeed.value inv.threshold })

end Db

end BeyoManager.Upholstery
