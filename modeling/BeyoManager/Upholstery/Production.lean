import BeyoManager.Library.PyText
import BeyoManager.TaskSteps.Enums
import BeyoManager.Upholstery.Allocation

/-! # Requirements in production

A requirement takes its amount out of the stock when production starts and is completed when
it ends; an available requirement may be completed at once. A deleted task gives up the
requirements of its items, and a restored task asks for them again.
-/

namespace BeyoManager.Upholstery

open Relational Transition
open TaskSteps (TaskStepState)

/-- Start one available requirement. -/
def startRequirement (db : Db) (r : ItemUpholsteryRequirement) : Except CommandError Db := do
  let db ← match r.upholsteryInventoryId with
    | some inventoryId => do
      let quantity ← getOr .typeError r.amountMeters
      db.consumeToInUse inventoryId quantity.value
    | none => pure db
  pure (db.updateRequirement r.clientId fun x => { x with state := .inUse })

/-- Complete one requirement that is in use or available. -/
def completeRequirement (db : Db) (r : ItemUpholsteryRequirement) : Except CommandError Db := do
  let db ← match r.upholsteryInventoryId with
    | some inventoryId => do
      let quantity ← getOr .typeError r.amountMeters
      if r.state = .inUse then db.finishInUse inventoryId quantity.value r.source
      else db.completeAvailableDirect inventoryId quantity.value r.source
    | none => pure db
  pure (db.updateRequirement r.clientId fun x => { x with state := .completed })

/-- The requirements of an item upholstery in some states. -/
def Db.ownRequirements (db : Db) (itemUpholsteryId : ClientId) (states : List RequirementState) :
    List ItemUpholsteryRequirement :=
  db.requirements.filter fun r =>
    r.itemUpholsteryId == itemUpholsteryId && states.contains r.state && !r.isDeleted

/-- `mark_requirements_in_use`. -/
def markRequirementsInUse (db : Db) (itemUpholsteryId : ClientId) : Except CommandError Db := do
  let iup ← getOr (.notFound "ItemUpholstery not found.") (db.fetchItemUpholstery itemUpholsteryId)
  ensureRequirementActionsAreAvailable iup
  let requirements := db.ownRequirements itemUpholsteryId [.available]
  throwIf (requirements = [])
    (.validation "No AVAILABLE requirements found for this item upholstery.")
  requirements.foldlM startRequirement db

/-- `mark_requirements_completed`. -/
def markRequirementsCompleted (db : Db) (itemUpholsteryId : ClientId) :
    Except CommandError Db := do
  let iup ← getOr (.notFound "ItemUpholstery not found.") (db.fetchItemUpholstery itemUpholsteryId)
  ensureRequirementActionsAreAvailable iup
  let requirements := db.ownRequirements itemUpholsteryId [.inUse, .available]
  throwIf (requirements = [])
    (.validation "No IN_USE or AVAILABLE requirements found for this item upholstery.")
  requirements.foldlM completeRequirement db

/-- `complete_single_requirement`. -/
def completeSingleRequirement (db : Db) (requirementId : ClientId) : Except CommandError Db := do
  let req ← getOr (.notFound "ItemUpholsteryRequirement not found.")
    (db.fetchRequirement requirementId)
  throwIf (req.state ≠ .inUse)
    (.validation "Only IN_USE requirements can be completed individually.")
  completeRequirement db req

section Installation

/-- The section name that `apply_upholstery_installation_side_effect` looks for. -/
def upholsteryInstallationSectionName : String := "upholstery installation"

/-- `_promote_requirements`. -/
def promoteRequirements (db : Db) (itemUpholsteryId : ClientId) (newState : TaskStepState) :
    Except CommandError Db :=
  if newState = .working then
    (db.ownRequirements itemUpholsteryId [.available]).foldlM startRequirement db
  else (db.ownRequirements itemUpholsteryId [.inUse, .available]).foldlM completeRequirement db

/-- `apply_upholstery_installation_side_effect`. -/
def applyUpholsteryInstallationSideEffect (db : Db) (taskId : ClientId)
    (sectionName : Option String) (newState : TaskStepState) : Except CommandError Db :=
  if newState ≠ .working ∧ newState ≠ .completed then pure db
  else if (PyString.strip (sectionName.getD "")).toLower ≠ upholsteryInstallationSectionName then
    pure db
  else
    match db.taskItems.find? fun l => l.taskId == taskId && l.isPrimary && !l.isRemoved with
    | none => pure db
    | some primary =>
      (db.currentItemUpholsteries primary.itemId).foldlM
        (fun db u => promoteRequirements db u.clientId newState) db

end Installation

section Tasks

/-- `ACTIVE_TASK_STATES`. -/
def isActiveTaskState : StockReport.TaskState → Bool
  | .pending | .assigned | .working | .stalled | .ready => true
  | .resolved | .failed | .cancelled => false

def Db.itemsWithoutActiveTasks (db : Db) (taskId : ClientId) : List ClientId :=
  let linked := (db.taskItems.filter fun l => l.taskId == taskId && !l.isRemoved).map (·.itemId)
  Sorting.sortBy id (linked.eraseDups.filter fun itemId =>
    !db.taskItems.any fun l => l.itemId == itemId && !l.isRemoved && l.taskId != taskId &&
      db.tasks.any fun t => t.clientId == l.taskId && !t.isDeleted && isActiveTaskState t.state)

def Db.updateTask (db : Db) (taskId : ClientId) (f : Task → Task) : Db :=
  { db with tasks := updateWhere (fun t => t.clientId == taskId) f db.tasks }

/-- `load_unfinished_item_requirements`. -/
def Db.unfinishedItemRequirements (db : Db) (itemIds : List ClientId) :
    List ItemUpholsteryRequirement :=
  db.requirements.filter fun r =>
    !r.isDeleted && r.state.isUnfinished && db.itemUpholsteries.any fun u =>
      u.clientId == r.itemUpholsteryId && itemIds.contains u.itemId && !u.isDeleted

/-- `delete_task`. -/
def deleteTask (db : Db) (taskId : ClientId) (now : Instant) : Except CommandError Db := do
  let task ← getOr (.notFound "Task not found.") (db.tasks.find? fun t => t.clientId == taskId)
  throwIf task.isDeleted (.conflict "Task is already deleted.")
  let db ← cancelRequirements now db
    (db.unfinishedItemRequirements (db.itemsWithoutActiveTasks taskId))
  pure (db.updateTask taskId fun t => { t with isDeleted := true, deletedAt := some now })

/-- `_revive_upholstery_need`. -/
def reviveUpholsteryNeed (deletedAt now : Instant)
    (newItemUpholsteryId newRequirementId newInventoryId : ClientId → ClientId) (db : Db)
    (itemId : ClientId) : Except CommandError Db :=
  match db.currentItemUpholsteries itemId with
  | [current] =>
    match db.fetchActiveRequirement current with
    | some r =>
      if r.state = .failed ∧ r.failedAt = some deletedAt then do
        let (db, _, _) ← ensureItemUpholsteryInSession db itemId
          ⟨none, some current.upholsteryId, some (r.amountMeters.map (·.value)), current.source⟩
          (newItemUpholsteryId itemId) (newRequirementId itemId) (newInventoryId itemId) now
        pure db
      else pure db
    | none => pure db
  | _ => pure db

/-- `restore_task`. -/
def restoreTask (db : Db) (taskId : ClientId) (now : Instant)
    (newItemUpholsteryId newRequirementId newInventoryId : ClientId → ClientId) :
    Except CommandError Db := do
  let task ← getOr (.notFound "Task not found.") (db.tasks.find? fun t => t.clientId == taskId)
  let revivableItemIds := db.itemsWithoutActiveTasks taskId
  throwIf (¬ task.isDeleted) (.conflict "Task is not deleted.")
  let db := db.updateTask taskId fun t => { t with isDeleted := false, deletedAt := none }
  match task.deletedAt with
  | some deletedAt => revivableItemIds.foldlM (reviveUpholsteryNeed deletedAt now
      newItemUpholsteryId newRequirementId newInventoryId) db
  | none => pure db

end Tasks

section Catalog

/-- `CreateUpholsteryRequest`, without what concerns categories and suppliers. -/
structure CreateUpholsteryRequest where
  clientId : ClientId
  inventoryId : ClientId
  name : String
  code : Option String
  currentStoredAmountMeters : Option Meters
  lowStockThresholdMeters : Option Meters
  reuseExisting : Bool

def checkThreshold (threshold : Option Meters) : Except CommandError Unit :=
  throwIf (∃ t ∈ threshold, t ≤ 0) (.validation ("low_stock_threshold_meters: Value error, " ++
    "low_stock_threshold_meters must be greater than 0."))

/-- The row that a request describes is there already: answer with it, or refuse. -/
def existingUpholstery (db : Db) (reusable : Bool) (message : String) : Except CommandError Db :=
  if reusable then .ok db else .error (.conflict message)

/-- `create_upholstery`. -/
def createUpholstery (db : Db) (request : CreateUpholsteryRequest) : Except CommandError Db := do
  checkThreshold request.lowStockThresholdMeters
  throwIf (∃ stored ∈ request.currentStoredAmountMeters, stored < 0) (.validation
    "current_stored_amount_meters: Value error, current_stored_amount_meters must be >= 0.")
  let live := db.upholsteries.filter fun u => !u.isDeleted
  if db.upholsteries.any fun u => u.clientId == request.clientId then
    existingUpholstery db
      (request.reuseExisting && live.any fun u => u.clientId == request.clientId)
      "Provided client_id is already in use."
  else if db.upholsteryInventory.any fun i => i.clientId == request.inventoryId then
    existingUpholstery db
      (request.reuseExisting && db.upholsteryInventory.any fun i =>
        i.clientId == request.inventoryId && !i.isDeleted &&
          live.any fun u => u.clientId == i.upholsteryId)
      "Provided upholstery_inventory_id is already in use."
  else if live.any fun u => u.name == request.name then
    existingUpholstery db request.reuseExisting
      "An upholstery with this name already exists in the workspace."
  else if request.code.any fun code => live.any fun u => u.code == some code then
    existingUpholstery db request.reuseExisting
      "An upholstery with this code already exists in the workspace."
  else do
    let initialStock := request.currentStoredAmountMeters.getD 0
    let upholstery : UpholsteryRow := ⟨request.clientId, request.name, request.code, false⟩
    let db := { db with upholsteries := db.upholsteries ++ [upholstery] }
    db.insertInventory { UpholsteryInventory.new request.inventoryId request.clientId with
      inventoryCondition :=
        evaluateInventoryCondition initialStock 0 request.lowStockThresholdMeters
      currentStored := initialStock.toColumn
      lowStockThreshold := request.lowStockThresholdMeters.map (·.toColumn) }

/-- `create_upholstery_inventory`. -/
def createUpholsteryInventory (db : Db) (inventoryId upholsteryId : ClientId)
    (lowStockThresholdMeters : Option Meters) : Except CommandError Db := do
  checkThreshold lowStockThresholdMeters
  throwIf (∃ i ∈ db.upholsteryInventory, i.clientId = inventoryId)
    (.conflict "Provided client_id is already in use.")
  throwIf (db.inventoryOf upholsteryId ≠ none)
    (.conflict "An inventory record already exists for this upholstery in this workspace.")
  db.insertInventory { UpholsteryInventory.new inventoryId upholsteryId with
    lowStockThreshold := lowStockThresholdMeters.map (·.toColumn) }

/-- `update_upholstery_inventory`. -/
def updateUpholsteryInventory (db : Db) (inventoryId : ClientId)
    (lowStockThresholdMeters : Option Meters) : Except CommandError Db := do
  checkThreshold lowStockThresholdMeters
  let inv ← db.loadInventory inventoryId
  throwIf (∃ t ∈ lowStockThresholdMeters, t.toColumn ≤ 0)
    (.integrity "ck_upholstery_inventory_low_stock_threshold_positive")
  pure (db.updateInventory inv.clientId fun i =>
    { i with lowStockThreshold :=
        (lowStockThresholdMeters.map (·.toColumn)).or i.lowStockThreshold })

/-- `add_ordered_to_inventory`. -/
def addOrderedToInventory (db : Db) (inventoryId : ClientId) (quantity : Meters) :
    Except CommandError Db := do
  throwIf (quantity ≤ 0) (.validation "quantity: Value error, quantity must be > 0.")
  db.addOrdered inventoryId quantity

/-- `confirm_ordered_to_stock_inventory`. -/
def confirmOrderedToStockInventory (db : Db) (inventoryId : ClientId) (quantity : Meters) :
    Except CommandError Db := do
  throwIf (quantity ≤ 0) (.validation "quantity: Value error, quantity must be > 0.")
  db.confirmOrderedToStock inventoryId quantity

end Catalog

end BeyoManager.Upholstery
