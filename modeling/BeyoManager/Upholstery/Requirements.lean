import BeyoManager.Library.Sorting
import BeyoManager.Upholstery.InventoryMutations
import Mathlib.Data.String.Basic

/-! # Item upholsteries and their requirements

An item has at most one current upholstery, which points to one active requirement. Choosing
another fabric fails the active requirement and opens a new one; a partial surplus splits the
active requirement in two.
-/

namespace BeyoManager.Upholstery

open Relational Transition

section Selection

variable (source : ItemUpholsterySource) (upholsteryId : Option ClientId)
  (amountMeters : Option Meters)

/-- `has_positive_amount_meters`. -/
def hasPositiveAmountMeters : Bool := amountMeters.any fun q => 0 < q

/-- `is_internal_selection_missing`. -/
def isInternalSelectionMissing : Bool := source == .internal && upholsteryId == none

/-- `is_deferred_internal_upholstery`. -/
def isDeferredInternalUpholstery : Bool :=
  isInternalSelectionMissing source upholsteryId && hasPositiveAmountMeters amountMeters

/-- `should_defer_requirement_creation`. -/
def shouldDeferRequirementCreation : Bool :=
  isDeferredInternalUpholstery source upholsteryId amountMeters

/-- `_raise_if_internal_selection_still_missing`. -/
def raiseIfInternalSelectionStillMissing : Except CommandError Unit :=
  throwIf (isInternalSelectionMissing source upholsteryId && !hasPositiveAmountMeters amountMeters)
    (.validation ("upholstery_id is required when source is INTERNAL unless positive " ++
      "amount_meters is provided."))

end Selection

/-- `coerce_zero_to_null` of the requests. -/
def coerceZeroToNull (amountMeters : Option Meters) : Option Meters :=
  amountMeters.filter fun q => 0 < q

/-- `ensure_requirement_actions_are_available`. -/
def ensureRequirementActionsAreAvailable (u : ItemUpholstery) : Except CommandError Unit :=
  throwIf (u.activeRequirementId = none ∧
      isDeferredInternalUpholstery u.source u.upholsteryId (u.amountMeters.map (·.value)))
    (.validation "Upholstery must be selected before requirement actions can be performed.")

section Cancel

variable (now : Instant)

def cancelRequirement (db : Db) (r : ItemUpholsteryRequirement) : Except CommandError Db := do
  if r.state.isUnfinished then
    let db ← match r.upholsteryInventoryId with
      | some inventoryId =>
        if 0 < r.amount then
          if r.state.isDemand then do
            let (db, _) ← db.adjustNeed inventoryId (-r.amount.value)
            pure db
          else if r.state = .inUse then db.rollbackInUseToStored inventoryId r.amount.value
          else pure db
        else pure db
      | none => pure db
    pure (db.updateRequirement r.clientId fun x =>
      { x with state := .failed, failedAt := some now })
  else pure db

/-- `cancel_requirements_in_session`. -/
def cancelRequirements (db : Db) (requirements : List ItemUpholsteryRequirement) :
    Except CommandError Db :=
  (Sorting.sortBy (·.clientId) requirements).foldlM (cancelRequirement now) db

end Cancel

def ItemUpholsteryRequirement.new (clientId itemUpholsteryId : ClientId) (now : Instant) :
    ItemUpholsteryRequirement where
  clientId := clientId
  itemUpholsteryId := itemUpholsteryId
  upholsteryInventoryId := none
  amountMeters := none
  source := .inventory
  state := .missingQuantity
  createdAt := now
  orderedAt := none
  failedAt := none
  isDeleted := false

/-- `AVAILABLE` when the stock is sufficient, `NEEDS_ORDERING` otherwise. -/
def NeedResult.state (result : NeedResult) : RequirementState :=
  if result.sufficient then .available else .needsOrdering

section Initial

variable (db : Db) (itemUpholsteryId : ClientId) (upholsteryId : Option ClientId)
  (amountMeters : Option Meters) (source : ItemUpholsterySource)
  (newRequirementId newInventoryId : ClientId) (now : Instant)

/-- `_create_initial_requirement_for_item_upholstery`. -/
def createInitialRequirement : Except CommandError Db := do
  let req := ItemUpholsteryRequirement.new newRequirementId itemUpholsteryId now
  let (db, req) ← match amountMeters, source with
    | some quantity, .internal => do
      let (db, result) ← db.checkAndInjectNeed upholsteryId quantity newInventoryId
      pure (db, { req with
        upholsteryInventoryId := some result.inventoryId
        amountMeters := some quantity.toColumn
        state := result.state })
    | none, _ => pure (db, req)
    | some quantity, .customer => pure (db, { req with
        amountMeters := some quantity.toColumn
        state := .available })
  let db ← db.insertRequirement req
  pure (db.updateItemUpholstery itemUpholsteryId fun u =>
    { u with activeRequirementId := some newRequirementId })

end Initial

/-- `_create_item_upholstery_in_session`. -/
def createItemUpholsteryInSession (db : Db) (itemId : ClientId) (upholsteryId : Option ClientId)
    (amountMeters : Option Meters) (source : ItemUpholsterySource) (clientId : Option ClientId)
    (newItemUpholsteryId newRequirementId newInventoryId : ClientId) (now : Instant) :
    Except CommandError (Db × ClientId) := do
  throwIf (∃ u ∈ db.itemUpholsteries, some u.clientId = clientId)
    (.conflict "Provided client_id is already in use.")
  let itemUpholsteryId := clientId.getD newItemUpholsteryId
  let db ← db.insertItemUpholstery
    ⟨itemUpholsteryId, itemId, upholsteryId, amountMeters.map (·.toColumn), source, none, false⟩
  if shouldDeferRequirementCreation source upholsteryId amountMeters then
    pure (db, itemUpholsteryId)
  else do
    let db ← createInitialRequirement db itemUpholsteryId upholsteryId amountMeters source
      newRequirementId newInventoryId now
    pure (db, itemUpholsteryId)

/-- `UpdateItemUpholsteryRequest`; the outer option of a field tells whether it is set. -/
structure UpdateItemUpholsteryRequest where
  clientId : ClientId
  upholsteryId : Option (Option ClientId)
  source : Option ItemUpholsterySource
  amountMeters : Option (Option Meters)

/-- Write the fabric, the source and the amount of an item upholstery. -/
def Db.writeSelection (db : Db) (itemUpholsteryId : ClientId) (upholsteryId : Option ClientId)
    (source : ItemUpholsterySource) (amountMeters : Option Meters) : Except CommandError Db := do
  throwIf (∃ id ∈ upholsteryId, ∀ x ∈ db.upholsteries, x.clientId ≠ id)
    (.integrity "item_upholsteries_upholstery_id_fkey")
  pure (db.updateItemUpholstery itemUpholsteryId fun u =>
    { u with
      upholsteryId := upholsteryId
      source := source
      amountMeters := amountMeters.map (·.toColumn) })

def ItemUpholstery.swapRequested (u : ItemUpholstery) (request : UpdateItemUpholsteryRequest) :
    Bool :=
  request.upholsteryId.any (· != u.upholsteryId) || request.source.any (· != u.source)

/-- `_update_item_upholstery_in_session`. -/
def updateItemUpholsteryInSession (db : Db) (request : UpdateItemUpholsteryRequest)
    (newRequirementId newInventoryId : ClientId) (now : Instant) : Except CommandError Db := do
  let iup ← getOr (.notFound "ItemUpholstery not found.") (db.fetchItemUpholstery request.clientId)
  let source := request.source.getD iup.source
  let upholsteryId := request.upholsteryId.getD iup.upholsteryId
  let amountMeters := request.amountMeters.getD (iup.amountMeters.map (·.value))
  raiseIfInternalSelectionStillMissing source upholsteryId amountMeters
  if iup.swapRequested request then
    match iup.activeRequirementId with
    | none => do
      let db ← db.writeSelection iup.clientId upholsteryId source amountMeters
      if source = .internal ∧ upholsteryId ≠ none then
        createInitialRequirement db iup.clientId upholsteryId amountMeters source newRequirementId
          newInventoryId now
      else pure db
    | some _ => do
      let activeReq ← getOr (.notFound "Active requirement not found.")
        (db.fetchOwnActiveRequirement iup)
      throwIf (activeReq.state = .completed)
        (.conflict "Cannot swap upholstery after requirement completion.")
      let db ← cancelRequirements now db [activeReq]
      throwIf (source ≠ .customer ∧ upholsteryId = none)
        (.validation "upholstery_id is required when source is not CUSTOMER.")
      let db ← db.writeSelection iup.clientId upholsteryId source amountMeters
      createInitialRequirement db iup.clientId upholsteryId amountMeters source newRequirementId
        newInventoryId now
  else
    pure (db.updateItemUpholstery iup.clientId fun u =>
      { u with amountMeters :=
        (request.amountMeters.map (·.map (·.toColumn))).getD u.amountMeters })

/-- `update_item_upholstery`. -/
def updateItemUpholstery (db : Db) (request : UpdateItemUpholsteryRequest)
    (newRequirementId newInventoryId : ClientId) (now : Instant) : Except CommandError Db :=
  updateItemUpholsteryInSession db
    { request with amountMeters := request.amountMeters.map coerceZeroToNull }
    newRequirementId newInventoryId now

/-- `delete_item_upholstery`. -/
def deleteItemUpholstery (db : Db) (itemUpholsteryId : ClientId) (now : Instant) :
    Except CommandError Db := do
  let iup ← getOr (.notFound "ItemUpholstery not found.") (db.fetchItemUpholstery itemUpholsteryId)
  let db ← match db.fetchOwnActiveRequirement iup with
    | some activeReq => do
      throwIf (activeReq.state = .completed)
        (.conflict "Cannot delete upholstery after requirement completion.")
      cancelRequirements now db [activeReq]
    | none => pure db
  pure (db.updateItemUpholstery iup.clientId fun u => { u with isDeleted := true })

section Quantity

variable (db : Db) (itemUpholsteryId : ClientId) (amountMeters : Meters)
  (newInventoryId : ClientId)

/-- The states in which `update_requirement_quantity` may change a quantity. -/
def RequirementState.isMutable : RequirementState → Bool
  | .missingQuantity | .available | .needsOrdering => true
  | .ordered | .inUse | .completed | .failed => false

def setRequirementQuantity (iup : ItemUpholstery) (activeReq : ItemUpholsteryRequirement) :
    Except CommandError Db := do
  if activeReq.upholsteryInventoryId = none ∧ iup.upholsteryId = none then
    pure (db.updateRequirement activeReq.clientId fun r =>
      { r with amountMeters := some amountMeters.toColumn, state := .available })
  else if activeReq.state = .missingQuantity then do
    let (db, result) ← db.checkAndInjectNeed iup.upholsteryId amountMeters newInventoryId
    pure (db.updateRequirement activeReq.clientId fun r =>
      { r with
        amountMeters := some amountMeters.toColumn
        upholsteryInventoryId := some result.inventoryId
        state := result.state })
  else do
    let inventoryId ← getOr (.validation
      "Requirement has no linked inventory record - quantity cannot be adjusted.")
      activeReq.upholsteryInventoryId
    let delta := (amountMeters - activeReq.amount.value).rounded
    if delta = 0 then pure db
    else do
      let (db, result) ← db.adjustNeed inventoryId delta
      pure (db.updateRequirement activeReq.clientId fun r =>
        { r with amountMeters := some amountMeters.toColumn, state := result.state })

/-- `update_requirement_quantity`. -/
def updateRequirementQuantity : Except CommandError Db := do
  throwIf (amountMeters ≤ 0)
    (.validation "amount_meters: Value error, amount_meters must be > 0.")
  let iup ← getOr (.notFound "ItemUpholstery not found.") (db.fetchItemUpholstery itemUpholsteryId)
  let withAmount := db.updateItemUpholstery iup.clientId fun u =>
    { u with amountMeters := some amountMeters.toColumn }
  if iup.activeRequirementId = none ∧ isInternalSelectionMissing iup.source iup.upholsteryId then
    pure withAmount
  else do
    ensureRequirementActionsAreAvailable iup
    let activeReq ← getOr (.notFound "Active requirement not found.")
      (db.fetchActiveRequirement iup)
    throwIf (¬ activeReq.state.isMutable)
      (.validation ("Quantity can only be set on requirements " ++
      "in MISSING_QUANTITY, AVAILABLE, or NEEDS_ORDERING state."))
    setRequirementQuantity withAmount amountMeters newInventoryId iup activeReq

end Quantity

/-- What a caller of `ensure_item_upholstery_in_session` asks for; the outer option of a field
tells whether the key is there. -/
structure ItemUpholsteryData where
  clientId : Option ClientId
  upholsteryId : Option (Option ClientId)
  amountMeters : Option (Option Meters)
  source : ItemUpholsterySource

def Db.currentItemUpholsteries (db : Db) (itemId : ClientId) : List ItemUpholstery :=
  db.itemUpholsteries.filter fun u => u.itemId == itemId && !u.isDeleted

section Ensure

variable (db : Db) (itemId : ClientId) (data : ItemUpholsteryData)
  (newItemUpholsteryId newRequirementId newInventoryId : ClientId) (now : Instant)

def updateCurrentItemUpholstery (current : ItemUpholstery) : Except CommandError Db := do
  let request : UpdateItemUpholsteryRequest :=
    ⟨current.clientId, data.upholsteryId, some data.source, data.amountMeters.map coerceZeroToNull⟩
  let db ← updateItemUpholsteryInSession db request newRequirementId newInventoryId now
  match data.amountMeters.join with
  | some amountMeters =>
    if ¬ current.swapRequested request ∧ current.activeRequirementId ≠ none ∧
        some amountMeters ≠ current.amountMeters.map (·.value) then
      updateRequirementQuantity db current.clientId amountMeters newInventoryId
    else pure db
  | none => pure db

/-- `ensure_item_upholstery_in_session`; the answer is the upholstery and whether it is new. -/
def ensureItemUpholsteryInSession : Except CommandError (Db × ClientId × Bool) := do
  throwIf (∀ i ∈ db.items, i.clientId = itemId → i.isDeleted) (.notFound "Item not found.")
  let create (db : Db) (clientId : Option ClientId) :
    Except CommandError (Db × ClientId × Bool) := do
    let (db, itemUpholsteryId) ← createItemUpholsteryInSession db itemId data.upholsteryId.join
      data.amountMeters.join data.source clientId newItemUpholsteryId newRequirementId
      newInventoryId now
    pure (db, itemUpholsteryId, true)
  match db.currentItemUpholsteries itemId with
  | [] => create db data.clientId
  | [current] => do
    throwIf (∃ requested ∈ data.clientId, requested ≠ current.clientId)
      (.conflict "The requested item upholstery does not match the current item upholstery.")
    let finished ← match current.activeRequirementId with
      | none => pure false
      | some _ => do
        let activeReq ← getOr
          (.conflict "Current item upholstery has no active requirement row.")
          (db.fetchOwnActiveRequirement current)
        pure (activeReq.state == .completed || activeReq.state == .failed)
    if finished then
      create (db.updateItemUpholstery current.clientId fun u => { u with isDeleted := true }) none
    else do
      let db ← updateCurrentItemUpholstery db data newRequirementId newInventoryId now current
      pure (db, current.clientId, false)
  | _ :: _ :: _ => .error (.conflict ("Item has multiple active upholstery contexts; resolve " ++
      "the duplicate data before creating another."))

end Ensure

/-- `CreateItemUpholsteryRequest`. -/
structure CreateItemUpholsteryRequest where
  clientId : Option ClientId
  itemId : ClientId
  upholsteryId : Option ClientId
  amountMeters : Option Meters
  source : ItemUpholsterySource

/-- `create_item_upholstery`. -/
def createItemUpholstery (db : Db) (request : CreateItemUpholsteryRequest)
    (newItemUpholsteryId newRequirementId newInventoryId : ClientId) (now : Instant) :
    Except CommandError Db := do
  let amountMeters := coerceZeroToNull request.amountMeters
  raiseIfInternalSelectionStillMissing request.source request.upholsteryId amountMeters
  throwIf (∀ i ∈ db.items, i.clientId = request.itemId → i.isDeleted) (.notFound "Item not found.")
  throwIf (request.source = .internal ∧ ∃ id ∈ request.upholsteryId,
      ∀ x ∈ db.upholsteries, x.clientId = id → x.isDeleted) (.notFound "Upholstery not found.")
  let (db, _, _) ← ensureItemUpholsteryInSession db request.itemId
    ⟨request.clientId, some request.upholsteryId, some amountMeters, request.source⟩
    newItemUpholsteryId newRequirementId newInventoryId now
  pure db

/-- The upholstery that `create_task` is asked for with the item of the task. -/
def createTaskItemUpholstery (db : Db) (itemId : ClientId) (data : ItemUpholsteryData)
    (newItemUpholsteryId newRequirementId newInventoryId : ClientId) (now : Instant) :
    Except CommandError Db := do
  let data := { data with amountMeters := data.amountMeters.map coerceZeroToNull }
  raiseIfInternalSelectionStillMissing data.source data.upholsteryId.join data.amountMeters.join
  let (db, _, _) ← ensureItemUpholsteryInSession db itemId data newItemUpholsteryId
    newRequirementId newInventoryId now
  pure db

/-- `create_item`, with the upholstery that it is asked for. -/
def createItemWithUpholstery (db : Db) (request : CreateItemUpholsteryRequest)
    (newItemUpholsteryId newRequirementId newInventoryId : ClientId) (now : Instant) :
    Except CommandError Db := do
  let amountMeters := coerceZeroToNull request.amountMeters
  raiseIfInternalSelectionStillMissing request.source request.upholsteryId amountMeters
  throwIf (request.source = .customer ∧ request.upholsteryId ≠ none)
    (.validation "item_upholstery.upholstery_id must be null when source is customer.")
  throwIf (∃ i ∈ db.items, i.clientId = request.itemId)
    (.conflict "Provided client_id is already in use.")
  let db := { db with items := db.items ++ [⟨request.itemId, false⟩] }
  throwIf (request.source = .internal ∧ ∃ id ∈ request.upholsteryId,
      ∀ x ∈ db.upholsteries, x.clientId = id → x.isDeleted) (.notFound "Upholstery not found.")
  let (db, _, _) ← ensureItemUpholsteryInSession db request.itemId
    ⟨request.clientId, some request.upholsteryId, some amountMeters, request.source⟩
    newItemUpholsteryId newRequirementId newInventoryId now
  pure db

/-- `apply_surplus_to_requirement`. -/
def applySurplusToRequirement (db : Db) (itemUpholsteryId : ClientId)
    (surplusAmountMeters : Meters) (newRequirementId : ClientId) (now : Instant) :
    Except CommandError Db := do
  throwIf (surplusAmountMeters ≤ 0)
    (.validation "surplus_amount_meters: Value error, surplus_amount_meters must be > 0.")
  let iup ← getOr (.notFound "ItemUpholstery not found.") (db.fetchItemUpholstery itemUpholsteryId)
  ensureRequirementActionsAreAvailable iup
  let activeReq ← getOr (.notFound "Active requirement not found.") (db.fetchActiveRequirement iup)
  throwIf (activeReq.state ≠ .needsOrdering ∧ activeReq.state ≠ .ordered)
    (.validation "Surplus can only be applied to NEEDS_ORDERING or ORDERED requirements.")
  throwIf (activeReq.amount.value < surplusAmountMeters)
    (.validation "Surplus amount cannot exceed requirement amount_meters.")
  let inventoryId ← getOr (.notFound "UpholsteryInventory not found.")
    activeReq.upholsteryInventoryId
  let db ← db.addStoredSurplus inventoryId surplusAmountMeters
  if activeReq.amountMeters.map (·.value) = some surplusAmountMeters then
    pure (db.updateRequirement activeReq.clientId fun r =>
      { r with source := .surplus, state := .available })
  else do
    let db := db.updateRequirement activeReq.clientId fun r =>
      { r with
        amountMeters := some (activeReq.amount.value - surplusAmountMeters).rounded.toColumn }
    db.insertRequirement
      { ItemUpholsteryRequirement.new newRequirementId iup.clientId now with
        upholsteryInventoryId := some inventoryId
        amountMeters := some surplusAmountMeters.toColumn
        source := .surplus
        state := .available }

end BeyoManager.Upholstery
