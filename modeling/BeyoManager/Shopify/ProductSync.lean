import BeyoManager.Library.Dict
import BeyoManager.Library.Interaction
import BeyoManager.Library.Json
import BeyoManager.Shopify.Webhooks

/-! # The sync of products to Shopify

A task brings a list of sync items to Shopify, each through four stages. Every remote call and
every commit is a question to the world, at which the worker may die; what is committed is where
the next delivery of the task goes on.
-/

namespace BeyoManager.Shopify.ProductSync

open Interaction PyText Relational Transition

section Rows

abbrev ItemId := PyStr

/-- `ShopifyProductSyncOperationEnum`. -/
inductive SyncOperation
  | create | update
  deriving DecidableEq, Repr

/-- `ShopifyProductSyncItemStatusEnum`. -/
inductive SyncItemStatus
  | pending | processing | succeeded | failed
  deriving DecidableEq, Repr

/-- `ShopifyProductSyncStageEnum`. -/
inductive SyncStage
  | queued | productCreated | variantConfigured | inventorySet
  deriving DecidableEq, Repr

/-- `_STAGE_ORDER`. -/
def SyncStage.order : SyncStage → ℕ
  | .queued => 0
  | .productCreated => 1
  | .variantConfigured => 2
  | .inventorySet => 3

/-- `should_run_stage`. -/
def shouldRunStage (currentStage targetStage : SyncStage) : Bool :=
  decide (currentStage.order < targetStage.order)

/-- The entry `product` of a normalised payload. -/
structure ProductInput where
  title : PyStr
  descriptionHtml : Option PyStr
  status : PyStr
  tags : List PyStr
  productType : Option PyStr

/-- The entry `variant` of a normalised payload. -/
structure VariantInput where
  barcode : Option PyStr
  price : Option PyStr
  inventoryItem : Option Json

/-- The entry `image` of a normalised payload. -/
inductive ImageReference
  | imageId (id : PyStr)
  | imageUrl (url : PyStr)

structure Metafield where
  key : PyStr
  type : PyStr
  value : PyStr

/-- `normalized_payload_json`; the inventory may have the shape of an earlier release. -/
structure Payload where
  product : ProductInput
  variant : VariantInput
  image : Option ImageReference
  imageAltText : Option PyStr
  inventory : Json
  metafields : List Metafield

structure Media where
  originalSource : PyStr
  alt : Option PyStr

/-- A quantity that a location shall have. -/
structure InventoryEntry where
  locationId : PyStr
  quantity : ℤ
  deriving DecidableEq

inductive InventoryOutcome
  | pending | applied
  deriving DecidableEq, Repr

/-- An entry of `inventory_result_json`. -/
structure SummaryEntry where
  locationId : PyStr
  quantity : ℤ
  beforeAvailable : ℤ
  outcome : InventoryOutcome
  available : Option ℤ
  deriving DecidableEq

/-- A row of `shopify_product_sync_items`. -/
structure SyncItem where
  clientId : ItemId
  workspaceId : PyStr
  shopIntegrationId : PyStr
  requestedOperation : Option SyncOperation
  status : SyncItemStatus
  stage : SyncStage
  syncOrigin : PyStr
  normalizedPayload : Payload
  shopifyProductId : Option PyStr
  shopifyVariantId : Option PyStr
  shopifyInventoryItemId : Option PyStr
  shopifyMediaId : Option PyStr
  mediaStatus : Option PyStr
  inventoryResult : Option (List SummaryEntry)
  errorCode : Option String
  errorMessage : Option String

/-- A row of `shopify_shop_integrations`, with its id. -/
structure Shop where
  clientId : PyStr
  integration : ShopIntegration

end Rows

section Inventory

/-- The exceptions that the sync tells apart. -/
inductive Failure
  | retryable (errorCode message : String)
  | nonRetryable (errorCode message : String)
  | ambiguous (errorCode message : String)
  | other (message : String)
  deriving DecidableEq, Repr

/-- `str(exc)`. -/
def Failure.message : Failure → String
  | .retryable _ message | .nonRetryable _ message | .ambiguous _ message
    | .other message => message

/-- `bool(value)`. -/
def truthy : Json → Bool
  | .null => false
  | .bool b => b
  | .int z => z ≠ 0
  | .float repr => repr ≠ ofString "0.0" && repr ≠ ofString "-0.0"
  | .str s => !s.isEmpty
  | .arr items => !items.isEmpty
  | .obj fields => !fields.isEmpty

/-- `fields.get(key)`. -/
def getField (fields : List (PyStr × Json)) (key : String) : Json :=
  ((fields.find? fun field => field.1 = ofString key).map Prod.snd).getD .null

/-- `_SHOPIFY_LOCATION_GID.fullmatch(value) is not None`. -/
def isLocationGid (value : PyStr) : Bool :=
  let stem := ofString "gid://shopify/Location/"
  stem.isPrefixOf value && isDecimal (value.drop stem.length)

/-- `_MAX_INVENTORY_QUANTITY`. -/
def maxInventoryQuantity : ℤ := 1000000

def invalidInventoryPayload (message : String) : Failure :=
  .nonRetryable "invalid_inventory_payload" message

def readEntry (locationId quantity : Json) : Option InventoryEntry :=
  match locationId, quantity with
  | .str locationId, .int quantity =>
    if isLocationGid locationId ∧ 0 ≤ quantity ∧ quantity ≤ maxInventoryQuantity then
      some ⟨locationId, quantity⟩
    else none
  | _, _ => none

/-- One pass of `_validate_absolute_inventory_entries`. -/
def validateEntry (normalized : List InventoryEntry) (entry : Json) :
    Except Failure (List InventoryEntry) :=
  match entry with
  | .obj fields => do
    let e ← getOr (invalidInventoryPayload
        "A Shopify inventory quantity has an invalid location or quantity.")
      (readEntry (getField fields "location_id") (getField fields "quantity"))
    throwIf (∃ seen ∈ normalized, seen.locationId = e.locationId) (.nonRetryable
      "duplicate_inventory_location" "A Shopify inventory location was supplied more than once.")
    pure (normalized ++ [e])
  | _ => .error (invalidInventoryPayload "Each Shopify inventory quantity must be an object.")

/-- `_validate_absolute_inventory_entries`. -/
def validateAbsoluteInventoryEntries : Json → Except Failure (List InventoryEntry)
  | .arr entries => entries.foldlM validateEntry []
  | _ => .error (invalidInventoryPayload "Shopify inventory quantities must be a list.")

def InventoryEntry.toJson (e : InventoryEntry) : Json :=
  .obj [(ofString "location_id", .str e.locationId), (ofString "quantity", .int e.quantity)]

/-- An adjustment of an earlier release, read as an absolute quantity. -/
def convertAdjustment : Json → Option Json
  | .obj fields => some (.obj [(ofString "location_id", getField fields "location_id"),
      (ofString "quantity", getField fields "quantity_to_add")])
  | _ => none

def convertAdjustments : Json → Except Failure Json
  | .arr entries => (getOr (invalidInventoryPayload
      "Legacy Shopify inventory adjustments must be a list of objects.")
    (entries.mapM convertAdjustment)).map .arr
  | _ => .error (invalidInventoryPayload
      "Legacy Shopify inventory adjustments must be a list of objects.")

/-- `_resolve_absolute_inventory_entries`. -/
def resolveAbsoluteInventoryEntries : Json → Except Failure (List InventoryEntry × Bool)
  | .obj fields => do
    let quantities := getField fields "quantities"
    let adjustments := getField fields "adjustments"
    throwIf (truthy quantities ∧ truthy adjustments) (.nonRetryable "mixed_inventory_payload"
      "A Shopify sync item cannot contain both quantities and legacy adjustments.")
    match quantities, adjustments with
    | .null, .null => pure ([], false)
    | .null, adjustments => do
      let converted ← convertAdjustments adjustments
      let entries ← validateAbsoluteInventoryEntries converted
      pure (entries, true)
    | quantities, _ => do
      let entries ← validateAbsoluteInventoryEntries quantities
      pure (entries, false)
  | _ => pure ([], false)

def canonicalInventory (entries : List InventoryEntry) : Json :=
  .obj [(ofString "quantities", .arr (entries.map InventoryEntry.toJson))]

end Inventory

section Questions

/-- A call that changes the side of Shopify. -/
inductive Mutation
  | create (product : ProductInput) (media : Option Media)
  | update (productId : PyStr) (product : ProductInput) (media : Option Media)
  | configureVariant (productId variantId : PyStr) (variant : VariantInput)
  | enableTracking (inventoryItemId : PyStr)
  | activate (inventoryItemId locationId idempotencyKey : PyStr)
  | setQuantities (inventoryItemId : PyStr) (quantities : List InventoryEntry)
      (referenceDocumentUri idempotencyKey : PyStr)
  | setMetafields (productId : Option PyStr) (batch : List Metafield)

/-- The stage that a mutation belongs to; the metafields come after the last one. -/
def Mutation.order : Mutation → ℕ
  | .create .. | .update .. => 1
  | .configureVariant .. => 2
  | .enableTracking .. | .activate .. | .setQuantities .. => 3
  | .setMetafields .. => 4

structure MutationReply where
  productId : Option PyStr
  variantId : Option PyStr
  inventoryItemId : Option PyStr
  mediaId : Option PyStr
  mediaStatus : Option PyStr

structure VariantNode where
  id : Option PyStr
  barcode : Option PyStr
  productId : Option PyStr
  inventoryItemId : Option PyStr

/-- A location, as `fetch_inventory_set_locations` returns it. -/
structure Location where
  locationId : PyStr
  isActive : Bool
  isFulfillmentService : Bool

/-- What `resolve_inventory_item_state` returns of the state of an inventory item. -/
structure InventoryItemState where
  tracked : Bool
  levelExists : Bool
  available : ℤ

/-- A stored image, and `get_storage_client().public_url` of it. -/
structure StoredImage where
  isS3 : Bool
  imageUrl : PyStr
  publicUrl : PyStr

def StoredImage.url (image : StoredImage) : PyStr :=
  if image.isS3 then image.publicUrl else image.imageUrl

/-- What the worker asks; searches and mutations are asked for an item. -/
inductive Question
  | rows (workspaceId : PyStr) (ids : List ItemId)
  | shops (ids : List PyStr)
  | commit (row : SyncItem)
  | reload (id : ItemId)
  | image (item : ItemId) (id : PyStr)
  | findVariants (item : ItemId) (barcode : PyStr)
  | locations
  | inventoryState (inventoryItemId locationId : PyStr)
  | mutate (item : ItemId) (mutation : Mutation)

abbrev Question.Answer : Question → Type
  | .rows .. => List SyncItem
  | .shops .. => List Shop
  | .commit .. => Except String Unit
  | .reload .. => SyncItem
  | .image .. => Option StoredImage
  | .findVariants .. => Except Failure (List VariantNode)
  | .locations => Except Failure (List Location)
  | .inventoryState .. => Except Failure InventoryItemState
  | .mutate .. => Except Failure MutationReply

/-- A part of the worker that has the row of one item in its hands. -/
abbrev Sync (α : Type) := Routine Question Question.Answer SyncItem Failure α

def raising {σ α : Type} : Except Failure α → Routine Question Question.Answer σ Failure α
  | .ok a => pure a
  | .error e => throw e

/-- `session.commit()`. -/
def commit : Sync Unit := do
  let row ← get
  let answer : Except String Unit ← Routine.ask (Question.commit row)
  raising (answer.mapError .other)

def mutate (mutation : Mutation) : Sync MutationReply := do
  let row ← get
  let reply : Except Failure MutationReply ← Routine.ask (Question.mutate row.clientId mutation)
  raising reply

def mutateUnless (done : Bool) (mutation : Mutation) : Sync Unit :=
  if done then pure () else do
    let _ ← mutate mutation

end Questions

section Clients

/-- `_clean_str`. -/
def cleanStr (value : Option PyStr) : Option PyStr :=
  match value with
  | none => none
  | some value => if strip value = [] then none else some (strip value)

/-- `ProductSyncMatchResult`, of a match that was found. -/
structure VariantMatch where
  productId : PyStr
  variantId : PyStr
  inventoryItemId : Option PyStr

def exactMatch (expected : PyStr) (node : VariantNode) : Option VariantMatch :=
  if cleanStr node.barcode = some expected then
    match cleanStr node.productId, cleanStr node.id with
    | some productId, some variantId =>
      some ⟨productId, variantId, cleanStr node.inventoryItemId⟩
    | _, _ => none
  else none

/-- `select_exact_variant_match`, of a barcode. -/
def selectExactVariantMatch (nodes : List VariantNode) (identityValue : PyStr) :
    Except Failure (Option VariantMatch) :=
  match cleanStr (some identityValue) with
  | none => .ok none
  | some expected =>
    match nodes.filterMap (exactMatch expected) with
    | [] => .ok none
    | [found] => .ok (some found)
    | _ => .error (.ambiguous "ambiguous_product_match"
        "Multiple Shopify variants matched the same barcode.")

/-- `find_product_variant_by_identity`, of a barcode. -/
def findProductVariantByIdentity (barcode : PyStr) : Sync (List VariantNode) := do
  let row ← get
  let nodes : Except Failure (List VariantNode) ←
    Routine.ask (Question.findVariants row.clientId barcode)
  raising nodes

/-- `fetch_inventory_set_locations`. -/
def fetchInventorySetLocations : Sync (List Location) := do
  let locations : Except Failure (List Location) ← Routine.ask Question.locations
  raising locations

/-- `resolve_inventory_item_state`. -/
def resolveInventoryItemState (inventoryItemId locationId : PyStr) : Sync InventoryItemState := do
  let state : Except Failure InventoryItemState ←
    Routine.ask (Question.inventoryState inventoryItemId locationId)
  raising state

/-- What `urlparse` is to the sync. -/
structure Environment where
  isAbsoluteHttpsUrl : PyStr → Bool

def resolveImageUrl : ImageReference → Sync (Option PyStr)
  | .imageUrl url => pure (cleanStr (some url))
  | .imageId id => do
    let row ← get
    let image : Option StoredImage ← Routine.ask (Question.image row.clientId id)
    match image with
    | none =>
      throw (.nonRetryable "product_image_unresolved"
        "Shopify product image could not be resolved.")
    | some image => pure (some image.url)

def mediaOf (env : Environment) (payload : Payload) (url : Option PyStr) : Sync (Option Media) :=
  match url.filter env.isAbsoluteHttpsUrl with
  | none => throw (.nonRetryable "invalid_product_image_url"
      "Shopify product image must use an absolute HTTPS URL.")
  | some url => pure (some ⟨url, cleanStr payload.imageAltText⟩)

/-- `resolve_product_media`. -/
def resolveProductMedia (env : Environment) (payload : Payload) : Sync (Option Media) :=
  match payload.image with
  | none => pure none
  | some reference => do
    let url ← resolveImageUrl reference
    mediaOf env payload url

/-- What `create_shopify_product` and `update_shopify_product` return. -/
structure ProductResult where
  productId : PyStr
  variantId : PyStr
  inventoryItemId : Option PyStr
  mediaId : Option PyStr
  mediaStatus : Option PyStr

/-- `_media_result`. -/
def mediaResult (reply : MutationReply) : Option PyStr × Option PyStr :=
  match cleanStr reply.mediaId with
  | none => (none, none)
  | some mediaId => (some mediaId, cleanStr reply.mediaStatus)

/-- `_required_id`. -/
def requiredId (value : Option PyStr) (message : String) : Except Failure PyStr :=
  getOr (.other message) (cleanStr value)

/-- `create_shopify_product`. -/
def createShopifyProduct (payload : Payload) (media : Option Media) : Sync ProductResult := do
  let reply ← mutate (.create payload.product media)
  let productId ← raising (requiredId reply.productId "Shopify product id missing after create.")
  let variantId ← raising
    (requiredId reply.variantId "Shopify default variant id missing after create.")
  pure ⟨productId, variantId, none, (mediaResult reply).1, (mediaResult reply).2⟩

/-- `update_shopify_product`. -/
def updateShopifyProduct (found : VariantMatch) (payload : Payload) (media : Option Media) :
    Sync ProductResult := do
  let reply ← mutate (.update found.productId payload.product media)
  pure ⟨found.productId, found.variantId, cleanStr found.inventoryItemId, (mediaResult reply).1,
    (mediaResult reply).2⟩

/-- `configure_shopify_product_variant`. -/
def configureShopifyProductVariant (productId variantId : PyStr) (payload : Payload) :
    Sync (PyStr × Option PyStr) := do
  let reply ← mutate (.configureVariant productId variantId payload.variant)
  pure ((cleanStr reply.variantId).getD variantId, cleanStr reply.inventoryItemId)

/-- `_METAFIELDS_SET_BATCH_SIZE`. -/
def metafieldsSetBatchSize : ℕ := 25

/-- The batches of `set_shopify_product_metafields`. -/
def metafieldBatches (metafields : List Metafield) : List (List Metafield) :=
  metafields.toChunks metafieldsSetBatchSize

/-- `set_shopify_product_metafields`. -/
def setShopifyProductMetafields (productId : Option PyStr) (metafields : List Metafield) :
    Sync PUnit :=
  forM (metafieldBatches metafields) fun batch => do
    let _ ← mutate (.setMetafields productId batch)

end Clients

section Stages

def findMatch (payload : Payload) : Sync (Option VariantMatch) :=
  match cleanStr payload.variant.barcode with
  | none => pure none
  | some barcode => do
    let nodes ← findProductVariantByIdentity barcode
    raising (selectExactVariantMatch nodes barcode)

def sendProduct (payload : Payload) (media : Option Media) :
    Option VariantMatch → Sync ProductResult
  | some found => do
    modify fun row => { row with requestedOperation := some .update }
    updateShopifyProduct found payload media
  | none => do
    modify fun row => { row with requestedOperation := some .create }
    createShopifyProduct payload media

/-- The row at the stage `PRODUCT_CREATED`. -/
def SyncItem.withProduct (row : SyncItem) (result : ProductResult) : SyncItem :=
  { row with
    shopifyProductId := some result.productId
    shopifyVariantId := some result.variantId
    shopifyInventoryItemId := result.inventoryItemId
    shopifyMediaId := result.mediaId
    mediaStatus := result.mediaStatus
    stage := .productCreated }

def createProduct (env : Environment) (payload : Payload) : Sync (Option VariantMatch) := do
  let media ← resolveProductMedia env payload
  let found ← findMatch payload
  let result ← sendProduct payload media found
  modify fun row => row.withProduct result
  commit
  pure found

/-- The row at the stage `VARIANT_CONFIGURED`. -/
def SyncItem.withVariant (row : SyncItem) (result : PyStr × Option PyStr) : SyncItem :=
  { row with
    shopifyVariantId := some result.1
    shopifyInventoryItemId := result.2 <|> row.shopifyInventoryItemId
    stage := .variantConfigured }

def configureVariant (payload : Payload) : Sync Unit := do
  let row ← get
  let result ← configureShopifyProductVariant
    (row.shopifyProductId.getD []) (row.shopifyVariantId.getD []) payload
  modify fun row => row.withVariant result
  commit

/-- `_REQUIRED_INVENTORY_SCOPES`. -/
def requiredInventoryScopes : List String := ["read_locations", "write_inventory"]

def isValidLocation (locations : List Location) (entry : InventoryEntry) : Bool :=
  match (Dict.ofList (locations.map fun l => (l.locationId, l))).find? fun e =>
      e.1 = entry.locationId with
  | none => false
  | some (_, location) => location.isActive && !location.isFulfillmentService

def previousEntry (row : SyncItem) (locationId : PyStr) : Option SummaryEntry :=
  ((Dict.ofList ((row.inventoryResult.getD []).map fun e => (e.locationId, e))).find? fun e =>
    e.1 = locationId).map Prod.snd

/-- One pass of the loop of `_sync_absolute_inventory`. -/
def prepareLocation (inventoryItemId : PyStr) (entry : InventoryEntry) : Sync SummaryEntry := do
  let row ← get
  let state ← resolveInventoryItemState inventoryItemId entry.locationId
  mutateUnless state.tracked (.enableTracking inventoryItemId)
  mutateUnless state.levelExists (.activate inventoryItemId entry.locationId
    (row.clientId ++ ofString ":" ++ entry.locationId))
  let beforeAvailable :=
    ((previousEntry row entry.locationId).map SummaryEntry.beforeAvailable).getD state.available
  pure ⟨entry.locationId, entry.quantity, beforeAvailable, .pending, none⟩

def SummaryEntry.applied (e : SummaryEntry) : SummaryEntry :=
  { e with outcome := .applied, available := some e.quantity }

def SyncItem.withInventory (row : SyncItem) (summary : List SummaryEntry) : SyncItem :=
  { row with inventoryResult := some summary }

/-- `_sync_absolute_inventory`. -/
def syncAbsoluteInventory (shop : Shop) (inventoryItemId : Option PyStr)
    (quantities : List InventoryEntry) : Sync Unit := do
  raising (throwIf (¬ hasAllRequiredScopes requiredInventoryScopes
      (shop.integration.grantedScopes.getD [])) (.nonRetryable "missing_inventory_scope"
    "Shopify inventory access needs reauthorization before inventory can be updated."))
  let inventoryItemId ← raising (getOr (.nonRetryable "inventory_item_unresolved"
    "Shopify inventory item could not be resolved.") (inventoryItemId.filter fun id => id ≠ []))
  let locations ← fetchInventorySetLocations
  raising (throwIf (¬ quantities.all (isValidLocation locations)) (.nonRetryable
    "inventory_location_invalid" "One or more Shopify locations are unavailable for inventory."))
  let summary ← quantities.mapM (prepareLocation inventoryItemId)
  modify fun row => row.withInventory summary
  commit
  let row ← get
  let _ ← mutate (.setQuantities inventoryItemId quantities
    (ofString "managerbeyo://inventory-set/" ++ row.clientId)
    (ofString "shopify-inventory-set:" ++ row.clientId))
  modify fun row => row.withInventory (summary.map SummaryEntry.applied)
  commit

/-- `_match_inventory_item_id`. -/
def matchInventoryItemId (found : Option VariantMatch) : Option PyStr :=
  match found with
  | none => none
  | some found => cleanStr found.inventoryItemId

/-- The quantities, if there are any, are sent to the inventory item of the row or of the match. -/
def sendInventory (shop : Shop) (found : Option VariantMatch) (entries : List InventoryEntry) :
    Sync Unit :=
  if entries = [] then pure () else do
    let row ← get
    let inventoryItemId := cleanStr row.shopifyInventoryItemId <|> matchInventoryItemId found
    modify fun row => { row with shopifyInventoryItemId := inventoryItemId }
    syncAbsoluteInventory shop inventoryItemId entries

def setInventory (shop : Shop) (found : Option VariantMatch) (entries : List InventoryEntry) :
    Sync Unit := do
  sendInventory shop found entries
  modify fun row => { row with stage := .inventorySet }
  commit

def productStage (env : Environment) (payload : Payload) : Sync (Option VariantMatch) := do
  let row ← get
  if shouldRunStage row.stage .productCreated then createProduct env payload else pure none

def variantStage (payload : Payload) : Sync Unit := do
  let row ← get
  if shouldRunStage row.stage .variantConfigured then configureVariant payload else pure ()

def inventoryStage (shop : Shop) (found : Option VariantMatch) (entries : List InventoryEntry) :
    Sync Unit := do
  let row ← get
  if shouldRunStage row.stage .inventorySet then setInventory shop found entries else pure ()

def metafieldsStage (payload : Payload) : Sync PUnit := do
  let row ← get
  if payload.metafields.isEmpty then pure ⟨⟩
  else setShopifyProductMetafields row.shopifyProductId payload.metafields

/-- The `try` block of `sync_one_product_sync_item`. -/
def runStages (env : Environment) (shop : Shop) (payload : Payload)
    (entries : List InventoryEntry) : Sync Unit := do
  let found ← productStage env payload
  variantStage payload
  inventoryStage shop found entries
  metafieldsStage payload
  modify fun row => { row with status := .succeeded, errorCode := none, errorMessage := none }
  commit

/-- `str(exc)[:1024]`. -/
def truncated (message : String) : String := String.ofList (message.toList.take 1024)

def SyncItem.failedWith (row : SyncItem) (errorCode message : String) : SyncItem :=
  { row with status := .failed, errorCode := some errorCode, errorMessage := some message }

/-- The `except` block of `sync_one_product_sync_item`. -/
def recordFailure : Failure → Sync Unit
  | .nonRetryable errorCode message | .ambiguous errorCode message => do
    modify fun row => row.failedWith errorCode (truncated message)
    commit
  | e => throw e

/-- The payload that the row keeps, converted when the inventory was of an earlier release. -/
def Payload.withResolved (payload : Payload) (resolved : List InventoryEntry × Bool) : Payload :=
  if resolved.2 then { payload with inventory := canonicalInventory resolved.1 } else payload

def SyncItem.processing (row : SyncItem) (payload : Payload) : SyncItem :=
  { row with
    normalizedPayload := payload, status := .processing, errorCode := none, errorMessage := none }

/-- `sync_one_product_sync_item`. -/
def syncOneProductSyncItem (env : Environment) (shop : Shop) : Sync Unit := do
  let row ← get
  let resolved ← raising (resolveAbsoluteInventoryEntries row.normalizedPayload.inventory)
  let payload := row.normalizedPayload.withResolved resolved
  modify fun row => row.processing payload
  commit
  tryCatch (runStages env shop payload resolved.1) recordFailure

end Stages

section Handler

/-- `ShopifyProductSyncOriginEnum(value)` returns. -/
def isSyncOrigin (value : PyStr) : Bool :=
  value = ofString "standard_product_sync" || value = ofString "preorder_task"

def rejectItem (errorCode message : String) : Sync Unit := do
  modify fun row => row.failedWith errorCode message
  commit

/-- `session.rollback()`, with the row read again. -/
def rollback : Sync Unit := do
  let row ← get
  let row : SyncItem ← Routine.ask (Question.reload row.clientId)
  set row

/-- The `except` blocks of `handle_shopify_process_products`. -/
def recordUnexpected (e : Failure) : Sync Unit := do
  rollback
  match e with
  | .retryable .. => throw e
  | _ => do
    modify fun row => row.failedWith "unexpected_error" (truncated e.message)
    commit

/-- One pass of the loop of `handle_shopify_process_products`. -/
def processItem (env : Environment) (shops : List Shop) : Sync Unit := do
  let row ← get
  match shops.find? (fun shop => shop.clientId = row.shopIntegrationId) with
  | none =>
    rejectItem "missing_shop_integration" "Shopify shop integration not found or no longer active."
  | some shop =>
    if PyString.strip (shop.integration.accessTokenEncrypted.getD "") = "" then
      rejectItem "missing_access_token" "Shopify access token is not available."
    else tryCatch (syncOneProductSyncItem env shop) recordUnexpected

def putRow (row : SyncItem) (rows : List SyncItem) : List SyncItem :=
  updateWhere (fun r => r.clientId = row.clientId) (fun _ => row) rows

def processId (env : Environment) (shops : List Shop) (id : ItemId) :
    Routine Question Question.Answer (List SyncItem) Failure PUnit := do
  let rows ← get
  match rows.find? (fun row => row.clientId = id) with
  | none => pure ⟨⟩
  | some row => Routine.within (fun _ => row) putRow (processItem env shops)

/-- `handle_shopify_process_products`. -/
def handleShopifyProcessProducts (env : Environment) (workspaceId : PyStr)
    (syncItemClientIds : List ItemId) :
    Routine Question Question.Answer (List SyncItem) Failure PUnit := do
  let rows : List SyncItem ← Routine.ask (Question.rows workspaceId syncItemClientIds)
  set rows
  raising (throwIf (¬ rows.all fun row => isSyncOrigin row.syncOrigin)
    (.other "Unsupported Shopify product sync origin"))
  let shops : List Shop ← Routine.ask (Question.shops (rows.map SyncItem.shopIntegrationId))
  let shops := shops.filter fun shop =>
    !shop.integration.isDeleted && decide (shop.integration.status = .active)
  forM syncItemClientIds (processId env shops)

end Handler

end BeyoManager.Shopify.ProductSync
