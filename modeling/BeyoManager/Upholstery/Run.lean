import BeyoManager.Upholstery.Production
import Mathlib.Data.NNRat.Defs

/-! # Runs of the upholstery commands

The commands that move fabric, each executed atomically. The clock that a command reads never
goes back. Generated ids are parameters of a command. What the rest of the workspace does to
the items and the tasks is arbitrary.
-/

namespace BeyoManager.Upholstery

/-- A command, with everything that it reads from outside the tables. -/
inductive Op
  | createUpholstery (request : CreateUpholsteryRequest)
  | createUpholsteryInventory (inventoryId upholsteryId : ClientId) (threshold : Option Meters)
  | updateUpholsteryInventory (inventoryId : ClientId) (threshold : Option Meters)
  | addOrderedToInventory (inventoryId : ClientId) (quantity : Meters)
  | confirmOrderedToStock (inventoryId : ClientId) (quantity : Meters)
  | setCurrentStoredAmount (inventoryId : ClientId) (amount : Meters)
  | createOrder (request : CreateUpholsteryOrderRequest)
  | receiveOrder (orderId : ClientId) (received : Meters) (priorityIds : List ClientId)
  | markOrdered (upholsteryId : ClientId) (quantity : Meters) (priorityIds : List ClientId)
  | resolveAfterStock (upholsteryId : ClientId) (priorityIds : List ClientId)
  | reallocateStock (upholsteryId : ClientId) (donorIds priorityIds : List ClientId)
  | createItemUpholstery (request : CreateItemUpholsteryRequest)
      (newItemUpholsteryId newRequirementId newInventoryId : ClientId)
  | createItem (request : CreateItemUpholsteryRequest)
      (newItemUpholsteryId newRequirementId newInventoryId : ClientId)
  | createTask (itemId : ClientId) (data : ItemUpholsteryData)
      (newItemUpholsteryId newRequirementId newInventoryId : ClientId)
  | updateItemUpholstery (request : UpdateItemUpholsteryRequest)
      (newRequirementId newInventoryId : ClientId)
  | deleteItemUpholstery (itemUpholsteryId : ClientId)
  | updateQuantity (itemUpholsteryId : ClientId) (amount : Meters) (newInventoryId : ClientId)
  | applySurplus (itemUpholsteryId : ClientId) (amount : Meters) (newRequirementId : ClientId)
  | markInUse (itemUpholsteryId : ClientId)
  | markCompleted (itemUpholsteryId : ClientId)
  | completeSingle (requirementId : ClientId)
  | installationSideEffect (taskId : ClientId) (sectionName : Option String)
      (newState : TaskSteps.TaskStepState)
  | deleteTask (taskId : ClientId)
  | restoreTask (taskId : ClientId)
      (newItemUpholsteryId newRequirementId newInventoryId : ClientId → ClientId)
  | elsewhere (upholsteries : List UpholsteryRow) (items : List Item) (tasks : List Task)
      (taskItems : List TaskItem)

/-- Execute one command at an instant. -/
def Op.execute (db : Db) (now : Instant) : Op → Except CommandError Db
  | .createUpholstery request => Upholstery.createUpholstery db request
  | .createUpholsteryInventory inventoryId upholsteryId threshold =>
    Upholstery.createUpholsteryInventory db inventoryId upholsteryId threshold
  | .updateUpholsteryInventory inventoryId threshold =>
    Upholstery.updateUpholsteryInventory db inventoryId threshold
  | .addOrderedToInventory inventoryId quantity =>
    Upholstery.addOrderedToInventory db inventoryId quantity
  | .confirmOrderedToStock inventoryId quantity =>
    confirmOrderedToStockInventory db inventoryId quantity
  | .setCurrentStoredAmount inventoryId amount =>
    setCurrentStoredAmountInventory db inventoryId amount
  | .createOrder request => createUpholsteryOrder db request now
  | .receiveOrder orderId received priorityIds =>
    receiveUpholsteryOrder db orderId received priorityIds
  | .markOrdered upholsteryId quantity priorityIds =>
    markRequirementsOrdered db upholsteryId quantity priorityIds now
  | .resolveAfterStock upholsteryId priorityIds =>
    resolveRequirementsAfterStock db upholsteryId priorityIds
  | .reallocateStock upholsteryId donorIds priorityIds =>
    Upholstery.reallocateStock db upholsteryId donorIds priorityIds
  | .createItemUpholstery request newItemUpholsteryId newRequirementId newInventoryId =>
    Upholstery.createItemUpholstery db request newItemUpholsteryId newRequirementId
      newInventoryId now
  | .createItem request newItemUpholsteryId newRequirementId newInventoryId =>
    createItemWithUpholstery db request newItemUpholsteryId newRequirementId newInventoryId now
  | .createTask itemId data newItemUpholsteryId newRequirementId newInventoryId =>
    createTaskItemUpholstery db itemId data newItemUpholsteryId newRequirementId newInventoryId now
  | .updateItemUpholstery request newRequirementId newInventoryId =>
    Upholstery.updateItemUpholstery db request newRequirementId newInventoryId now
  | .deleteItemUpholstery itemUpholsteryId =>
    Upholstery.deleteItemUpholstery db itemUpholsteryId now
  | .updateQuantity itemUpholsteryId amount newInventoryId =>
    updateRequirementQuantity db itemUpholsteryId amount newInventoryId
  | .applySurplus itemUpholsteryId amount newRequirementId =>
    applySurplusToRequirement db itemUpholsteryId amount newRequirementId now
  | .markInUse itemUpholsteryId => markRequirementsInUse db itemUpholsteryId
  | .markCompleted itemUpholsteryId => markRequirementsCompleted db itemUpholsteryId
  | .completeSingle requirementId => completeSingleRequirement db requirementId
  | .installationSideEffect taskId sectionName newState =>
    applyUpholsteryInstallationSideEffect db taskId sectionName newState
  | .deleteTask taskId => Upholstery.deleteTask db taskId now
  | .restoreTask taskId newItemUpholsteryId newRequirementId newInventoryId =>
    Upholstery.restoreTask db taskId now newItemUpholsteryId newRequirementId newInventoryId
  | .elsewhere upholsteries items tasks taskItems =>
    .ok { db with upholsteries, items, tasks, taskItems }

/-- The tables and the clock. -/
structure System where
  clock : Instant
  db : Db

/-- A command, some time after the one before it. -/
structure Command where
  elapsed : ℚ≥0
  op : Op

/-- The instant at which a command is executed. -/
def System.now (s : System) (c : Command) : Instant := s.clock + c.elapsed

def step (s : System) (c : Command) : Except CommandError System := do
  let db ← c.op.execute s.db (s.now c)
  pure ⟨s.now c, db⟩

abbrev run (s : System) (commands : List Command) : System := Transition.run step s commands

/-- The tables before the first upholstery is in stock. -/
def Db.withoutUpholstery (db : Db) : Db :=
  { db with
    upholsteryInventory := [], itemUpholsteries := [], requirements := [], orders := []
    clamped := false }

theorem step_eq_ok {s s' : System} {c : Command} (h : step s c = .ok s') :
    c.op.execute s.db (s.now c) = .ok s'.db := by
  obtain ⟨db, hdb, h⟩ := Transition.bind_eq_ok.mp h
  cases h
  exact hdb

end BeyoManager.Upholstery
