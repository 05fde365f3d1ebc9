import BeyoManager.Upholstery.Requirements
import Mathlib.Data.Prod.Lex
import Mathlib.Order.WithBot

/-! # Allocation of stock

Requirements are served in an order of priority: each that still fits into the pool takes its
amount out of it, the others are skipped. The commands differ in who is served, in which order
and from which pool.
-/

namespace BeyoManager.Upholstery

open Relational Transition

/-- The requirements that `run_skip_and_continue_allocation` resolves. -/
def resolvedRequirements : Meters → List ItemUpholsteryRequirement → List ItemUpholsteryRequirement
  | _, [] => []
  | pool, r :: rs =>
    if 0 ≤ (pool - r.amount.value).rounded then
      r :: resolvedRequirements (pool - r.amount.value).rounded rs
    else resolvedRequirements pool rs

def Db.updateRequirements (db : Db) (requirements : List ItemUpholsteryRequirement)
    (f : ItemUpholsteryRequirement → ItemUpholsteryRequirement) : Db :=
  { db with requirements :=
      updateWhere (fun x => requirements.any fun r => r.clientId == x.clientId) f db.requirements }

/-- `run_skip_and_continue_allocation`; `orderedAt` is stamped when it is given. -/
def runSkipAndContinueAllocation (db : Db) (candidates : List ItemUpholsteryRequirement)
    (pool : Meters) (targetState : RequirementState) (orderedAt : Option Instant) : Db :=
  db.updateRequirements (resolvedRequirements pool candidates) fun r =>
    { r with state := targetState, orderedAt := orderedAt.or r.orderedAt }

/-- `PoolMode`. -/
inductive PoolMode
  | ordered | stored
  deriving DecidableEq, Repr

def totalAmount (requirements : List ItemUpholsteryRequirement) : MetersColumn :=
  total (·.amount) requirements

/-- `calculate_pooled_requirement_pool`, from the amounts of the inventory row in the session. -/
def calculatePooledRequirementPool (stored inNeed ordered : Meters)
    (candidates : List ItemUpholsteryRequirement) (mode : PoolMode) : Meters :=
  let inNeedExcludingCandidates := inNeed - (totalAmount candidates).value
  match mode with
  | .ordered => ((stored + ordered).rounded - inNeedExcludingCandidates).rounded
  | .stored => stored - inNeedExcludingCandidates

/-- `allocate_pooled_requirements`. -/
def allocatePooledRequirements (db : Db) (stored inNeed ordered : Meters)
    (orderedCandidates : List ItemUpholsteryRequirement) (targetState : RequirementState)
    (mode : PoolMode) (orderedAt : Option Instant) : Db :=
  runSkipAndContinueAllocation db orderedCandidates
    (calculatePooledRequirementPool stored inNeed ordered orderedCandidates mode) targetState
    orderedAt

section Order

variable (priorityIds : List ClientId)

/-- `priority_order[id]`: the last place of an id in the list. -/
def priorityOrder (id : ClientId) : ℕ := priorityIds.length - 1 - priorityIds.reverse.idxOf id

def priorityTier (requirements : List ItemUpholsteryRequirement) :
    List ItemUpholsteryRequirement :=
  Sorting.sortBy (fun r => priorityOrder priorityIds r.itemUpholsteryId)
    (requirements.filter fun r => priorityIds.contains r.itemUpholsteryId)

def withoutPriority (requirements : List ItemUpholsteryRequirement) :
    List ItemUpholsteryRequirement :=
  requirements.filter fun r => !priorityIds.contains r.itemUpholsteryId

def priorityThenOldest (requirements : List ItemUpholsteryRequirement) :
    List ItemUpholsteryRequirement :=
  priorityTier priorityIds requirements ++
    Sorting.sortBy (·.createdAt) (withoutPriority priorityIds requirements)

/-- Sort by when the item has to be ready, those that need not last, then by age. -/
def sortByReadyBy (readyByAt : ClientId → Option Instant)
    (requirements : List ItemUpholsteryRequirement) : List ItemUpholsteryRequirement :=
  Sorting.sortBy (fun r =>
    toLex ((readyByAt r.itemUpholsteryId).elim (⊤ : WithTop ℚ) (↑·), r.createdAt)) requirements

def inState (state : RequirementState) (requirements : List ItemUpholsteryRequirement) :
    List ItemUpholsteryRequirement :=
  requirements.filter fun r => r.state == state

end Order

namespace Db

variable (db : Db)

/-- The earliest `ready_by_at` of the tasks that a current item upholstery's item is linked to. -/
def earliestReadyByAt (keepItem : ClientId → Bool) (itemUpholsteryId : ClientId) :
    Option Instant :=
  let tasks := (db.itemUpholsteries.filter fun u =>
      u.clientId == itemUpholsteryId && !u.isDeleted && keepItem u.itemId).flatMap fun u =>
    (db.taskItems.filter fun l => l.itemId == u.itemId && !l.isRemoved).flatMap fun l =>
      db.tasks.filter fun t => t.clientId == l.taskId && !t.isDeleted
  Sorting.minBy id (tasks.filterMap (·.readyByAt))

/-- `fetch_earliest_ready_by_at`, for one id. -/
def fetchEarliestReadyByAt : ClientId → Option Instant :=
  db.earliestReadyByAt fun itemId => db.items.any fun i => i.clientId == itemId && !i.isDeleted

end Db

/-- `mark_requirements_ordered`. -/
def markRequirementsOrdered (db : Db) (upholsteryId : ClientId) (orderedQuantity : Meters)
    (priorityIds : List ClientId) (now : Instant) : Except CommandError Db := do
  throwIf (orderedQuantity ≤ 0)
    (.validation "ordered_quantity: Value error, ordered_quantity must be > 0.")
  let validInventoryIds := (db.upholsteryInventory.filter fun i =>
    i.upholsteryId == upholsteryId && !i.isDeleted).map (·.clientId)
  let candidates := db.requirements.filter fun r =>
    r.state == .needsOrdering && !r.isDeleted &&
      r.upholsteryInventoryId.any fun id => validInventoryIds.contains id
  pure (runSkipAndContinueAllocation db (priorityThenOldest priorityIds candidates)
    orderedQuantity .ordered (some now))

/-- `resolve_requirements_after_stock`. -/
def resolveRequirementsAfterStock (db : Db) (upholsteryId : ClientId)
    (priorityIds : List ClientId) : Except CommandError Db := do
  let inv ← getOr (.notFound "UpholsteryInventory not found.") (db.inventoryOf upholsteryId)
  let candidates := db.requirementsOf inv.clientId [.ordered, .needsOrdering]
  let rest := withoutPriority priorityIds candidates
  let orderedCandidates := priorityTier priorityIds candidates ++
    Sorting.sortBy (fun r => r.orderedAt.getD r.createdAt) (inState .ordered rest) ++
    Sorting.sortBy (·.createdAt) (inState .needsOrdering rest)
  pure (allocatePooledRequirements db inv.currentStored.value inv.currentInNeed.value
    inv.currentOrdered.value orderedCandidates .available .stored none)

/-- `reallocate_stock`. -/
def reallocateStock (db : Db) (upholsteryId : ClientId)
    (donorIds priorityIds : List ClientId) : Except CommandError Db := do
  let inv ← getOr (.notFound "UpholsteryInventory not found.") (db.inventoryOf upholsteryId)
  let donors := (db.requirementsOf inv.clientId [.available]).filter fun r =>
    donorIds.contains r.itemUpholsteryId
  let db := db.updateRequirements donors fun r => { r with state := .needsOrdering }
  let pool := (totalAmount donors).value
  if pool ≤ 0 then pure db
  else
    let allNeeds := db.requirementsOf inv.clientId [.needsOrdering]
    pure (runSkipAndContinueAllocation db (priorityThenOldest priorityIds allNeeds) pool
      .available none)

section Orders

/-- `CreateUpholsteryOrderRequest`. -/
structure CreateUpholsteryOrderRequest where
  clientId : ClientId
  upholsteryId : ClientId
  orderAmountMeters : Meters
  priorityIds : List ClientId
  state : UpholsteryOrderState

/-- `_allocate_requirements` of a new order; the ordered amount is that of the session. -/
def allocateOrderedRequirements (db : Db) (inv : UpholsteryInventory) (ordered : Meters)
    (priorityIds : List ClientId) (now : Instant) : Db :=
  let candidates := db.requirementsOf inv.clientId [.needsOrdering]
  let orderedCandidates := priorityTier priorityIds candidates ++
    sortByReadyBy (db.earliestReadyByAt fun _ => true) (withoutPriority priorityIds candidates)
  allocatePooledRequirements db inv.currentStored.value inv.currentInNeed.value ordered
    orderedCandidates .ordered .ordered (some now)

/-- `create_upholstery_order`, after its supplier has been found. -/
def createUpholsteryOrder (db : Db) (request : CreateUpholsteryOrderRequest) (now : Instant) :
    Except CommandError Db := do
  throwIf (request.state ∉ [.draft, .pending, .approved, .ordered]) (.validation
    "state: Value error, state on creation must be one of: draft, pending, approved, ordered.")
  throwIf (request.orderAmountMeters ≤ 0)
    (.validation "order_amount_meters: Value error, order_amount_meters must be > 0.")
  let inv ← getOr (.notFound "No active inventory record found for the given upholstery_id.")
    (db.inventoryOf request.upholsteryId)
  let db ← db.insertOrder ⟨request.clientId, some inv.clientId,
    request.orderAmountMeters.toColumn, none, request.state, false⟩
  if request.state = .ordered then do
    let db ← db.addOrdered inv.clientId request.orderAmountMeters
    pure (allocateOrderedRequirements db inv
      (inv.currentOrdered.value + request.orderAmountMeters).rounded request.priorityIds now)
  else pure db

/-- `_allocate_received_requirements`. -/
def allocateReceivedRequirements (db : Db) (inventoryId : ClientId)
    (priorityIds : List ClientId) : Except CommandError Db := do
  let inv ← db.loadInventory inventoryId
  let candidates := db.requirementsOf inventoryId [.ordered, .needsOrdering]
  let rest := withoutPriority priorityIds candidates
  let orderedCandidates := priorityTier priorityIds candidates ++
    sortByReadyBy db.fetchEarliestReadyByAt (inState .ordered rest) ++
    sortByReadyBy db.fetchEarliestReadyByAt (inState .needsOrdering rest)
  pure (allocatePooledRequirements db inv.currentStored.value inv.currentInNeed.value
    inv.currentOrdered.value orderedCandidates .available .stored none)

/-- `receive_upholstery_order`; the request keeps whole thousandths of a metre. -/
def receiveUpholsteryOrder (db : Db) (orderId : ClientId) (receivedAmountMeters : Meters)
    (priorityIds : List ClientId) : Except CommandError Db := do
  let received := receivedAmountMeters.toColumn
  throwIf (received ≤ 0)
    (.validation "received_amount_meters: Value error, received_amount_meters must be > 0.")
  let order ← getOr (.notFound "Upholstery order not found.")
    (db.orders.find? fun o => o.clientId == orderId && !o.isDeleted)
  throwIf (order.state ≠ .ordered ∧ order.state ≠ .partiallyReceived)
    (.validation "Order must be in ORDERED or PARTIALLY_RECEIVED state to record a receipt.")
  let inventoryId ← getOr (.validation "Order has no linked inventory - cannot confirm stock.")
    order.upholsteryInventoryId
  let cumulativeReceived := order.receivedAmount.getD 0 + received
  throwIf (order.orderAmount < cumulativeReceived)
    (.validation ("Received amount exceeds the ordered amount. Maximum receivable: " ++
      (order.orderAmount - order.receivedAmount.getD 0).text ++ " m."))
  let db := { db with orders := updateWhere (fun o => o.clientId == order.clientId) (fun o =>
    { o with
      state := if cumulativeReceived = order.orderAmount then .received else .partiallyReceived
      receivedAmount := some cumulativeReceived }) db.orders }
  let db ← db.confirmOrderedToStock inventoryId received.value
  allocateReceivedRequirements db inventoryId priorityIds

end Orders

section SetStored

/-- `_demotion_sort_key`: items that need not be ready first, then the latest. -/
def demotionSortKey (readyByAt : ClientId → Option Instant) (r : ItemUpholsteryRequirement) :
    Bool ×ₗ ℚ ×ₗ ℚ :=
  let ready := readyByAt r.itemUpholsteryId
  toLex (ready.isSome, toLex (-ready.getD 0, -r.createdAt))

def demotedRequirements : MetersColumn → List ItemUpholsteryRequirement →
    List ItemUpholsteryRequirement
  | _, [] => []
  | deficit, r :: rs =>
    if deficit ≤ r.amount then [r] else r :: demotedRequirements (deficit - r.amount) rs

/-- `_demote_available_requirements`. -/
def demoteAvailableRequirements (db : Db) (candidates : List ItemUpholsteryRequirement)
    (newStored : MetersColumn) (readyByAt : ClientId → Option Instant) : Db :=
  let deficit := max 0 (totalAmount candidates - newStored)
  if deficit = 0 then db
  else db.updateRequirements
    (demotedRequirements deficit (Sorting.sortBy (demotionSortKey readyByAt) candidates))
    fun r => { r with state := .needsOrdering }

/-- `_promote_forward_requirements`. -/
def promoteForwardRequirements (db : Db) (inv : UpholsteryInventory) (newStored : MetersColumn)
    (candidates : List ItemUpholsteryRequirement) (readyByAt : ClientId → Option Instant) : Db :=
  allocatePooledRequirements db newStored.value inv.currentInNeed.value inv.currentOrdered.value
    (sortByReadyBy readyByAt (inState .ordered candidates) ++
      sortByReadyBy readyByAt (inState .needsOrdering candidates)) .available .stored none

/-- `set_current_stored_amount_inventory`; the request keeps whole thousandths of a metre. -/
def setCurrentStoredAmountInventory (db : Db) (inventoryId : ClientId)
    (currentStoredAmountMeters : Meters) : Except CommandError Db := do
  let newStored := currentStoredAmountMeters.toColumn
  throwIf (newStored < 0) (.validation ("current_stored_amount_meters: Value error, " ++
    "current_stored_amount_meters must be >= 0."))
  let inv ← db.loadInventory inventoryId
  if newStored = inv.currentStored then pure db
  else
    let db := db.updateInventory inventoryId fun i =>
      { i with
        currentStored := newStored
        inventoryCondition :=
          evaluateInventoryCondition newStored.value inv.currentInNeed.value inv.threshold }
    let readyByAt := db.fetchEarliestReadyByAt
    let db := demoteAvailableRequirements db (db.requirementsOf inventoryId [.available]) newStored
      readyByAt
    pure (promoteForwardRequirements db inv newStored
      (db.requirementsOf inventoryId [.ordered, .needsOrdering]) readyByAt)

end SetStored

end BeyoManager.Upholstery
