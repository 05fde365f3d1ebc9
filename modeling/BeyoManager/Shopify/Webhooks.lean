import BeyoManager.Library.Grouping
import BeyoManager.Library.PyText
import BeyoManager.Library.Relational
import BeyoManager.Library.Sorting
import BeyoManager.Library.Transition
import Mathlib.Data.String.Basic
import Mathlib.Algebra.Order.Ring.Rat

/-! # Webhook subscriptions

The registry of topics, the granted scopes, the subscriptions that Shopify has and their local
rows. Shopify writes a topic with capitals and underscores, the registry with slashes.
-/

namespace BeyoManager.Shopify

open Transition

/-- An aware datetime. -/
abbrev Instant := ℚ

abbrev RemoteId := String

/-- `ShopifyIntegrationStatusEnum`. -/
inductive IntegrationStatus
  | pendingInstall | active | needsReauth | scopesOutdated | webhooksOutdated | disabled
  | uninstalled | error
  deriving DecidableEq, Repr

/-- `ShopifyWebhookSubscriptionStatusEnum`. -/
inductive WebhookSubscriptionStatus
  | pending | active | failed | disabled | removed
  deriving DecidableEq, Repr

/-- `ShopifyWebhookPayloadFormatEnum`. -/
inductive WebhookPayloadFormat
  | json
  deriving DecidableEq, Repr

def WebhookPayloadFormat.argument : WebhookPayloadFormat → String
  | .json => "JSON"

/-- `ShopifyWebhookDefinition`. -/
structure WebhookDefinition where
  topic : String
  callbackPath : String
  requiredScopes : List String
  payloadFormat : WebhookPayloadFormat
  enabled : Bool
  deriving DecidableEq, Repr

/-- `SHOPIFY_WEBHOOK_CALLBACK_PATH`. -/
def webhookCallbackPath : String := "/api/v1/shopify/webhooks"

/-- `SHOPIFY_WEBHOOK_REGISTRY`. -/
def webhookRegistry : List WebhookDefinition :=
  [("app/uninstalled", []), ("orders/create", ["read_orders"]),
    ("orders/updated", ["read_orders"]), ("orders/paid", ["read_orders"]),
    ("orders/cancelled", ["read_orders"]), ("products/create", ["read_products"]),
    ("products/update", ["read_products"]), ("products/delete", ["read_products"])].map
      fun (topic, requiredScopes) => ⟨topic, webhookCallbackPath, requiredScopes, .json, true⟩

/-- `webhook_definition_enabled`. -/
def webhookDefinitionEnabled (shopifyWebhooksEnabled : Bool) (definition : WebhookDefinition) :
    Bool :=
  definition.enabled && shopifyWebhooksEnabled

section Scopes

/-- `normalize_scope`. -/
def normalizeScope (scope : String) : String :=
  String.ofList ((PyString.strip scope).toList.map Char.toLower)

/-- `normalize_scopes`. -/
def normalizeScopes (scopes : List String) : List String :=
  Sorting.sortBy id ((scopes.map normalizeScope).filter fun scope => scope ≠ "").eraseDups

def impliedScope (scope : String) : Option String :=
  if "write_".toList.isPrefixOf scope.toList then
    some (String.ofList ("read_".toList ++ scope.toList.drop "write_".length))
  else none

/-- `_expand_implied_scopes`. -/
def expandImpliedScopes (scopes : List String) : List String :=
  let normalized := normalizeScopes scopes
  Sorting.sortBy id (normalized ++ normalized.filterMap impliedScope).eraseDups

/-- The field `missing` of `compare_requested_and_granted_scopes`. -/
def missingScopes (requestedScopes grantedScopes : List String) : List String :=
  let granted := expandImpliedScopes (normalizeScopes grantedScopes)
  (normalizeScopes requestedScopes).filter fun scope => !granted.contains scope

/-- `has_all_required_scopes`. -/
def hasAllRequiredScopes (requestedScopes grantedScopes : List String) : Bool :=
  (missingScopes requestedScopes grantedScopes).isEmpty

example : hasAllRequiredScopes [" Read_Orders"] ["write_orders"] = true := by decide +kernel

end Scopes

/-- `ShopifyGraphQLError`. -/
structure ShopifyGraphQLError where
  errorCode : String
  message : String
  deriving DecidableEq, Repr

section Client

inductive SyncError
  | validation (message : String)
  | shopifyGraphQL (e : ShopifyGraphQLError)
  | attribute (message : String)
  | value (message : String)
  deriving DecidableEq, Repr

/-- A subscription as Shopify has it, always with an id and a topic; only an HTTP endpoint has a
callback URL, which is not blank. -/
structure SubscriptionNode where
  id : RemoteId
  topic : String
  callbackUrl : Option String
  format : Option String
  deriving DecidableEq, Repr

/-- `RemoteWebhookSubscription`. -/
structure RemoteWebhookSubscription where
  id : RemoteId
  topic : String
  callbackUrl : String
  payloadFormat : WebhookPayloadFormat
  deriving DecidableEq, Repr

/-- The topic that `create_remote_webhook_subscription` sends. -/
def topicArgument (topic : String) : String :=
  String.ofList ((topic.toList.map Char.toUpper).map fun c => if c = '/' then '_' else c)

/-- The topic that `_map_remote_subscription` reads. -/
def topicOfNode (topic : String) : String :=
  String.ofList ((topic.toList.map Char.toLower).map fun c => if c = '_' then '/' else c)

/-- `raw_format`. -/
def SubscriptionNode.rawFormat (node : SubscriptionNode) : String :=
  String.ofList (((node.format.filter (· ≠ "")).getD "json").toList.map Char.toLower)

/-- What a node with a callback is read as; JSON is the only format. -/
def readSubscription (node : SubscriptionNode) : Option RemoteWebhookSubscription :=
  node.callbackUrl.map fun callbackUrl => ⟨node.id, topicOfNode node.topic, callbackUrl, .json⟩

/-- `_map_remote_subscription`; the enumeration of the formats raises for any but JSON, after the
nodes without a callback have been passed over. -/
def mapRemoteSubscription (node : SubscriptionNode) :
    Except SyncError (Option RemoteWebhookSubscription) := do
  throwIf (node.callbackUrl ≠ none ∧ node.rawFormat ≠ "json")
    (.value ("'" ++ node.rawFormat ++ "' is not a valid ShopifyWebhookPayloadFormatEnum"))
  return readSubscription node

example : mapRemoteSubscription ⟨"1", "ORDERS_CREATE", some "https://elsewhere", some "XML"⟩ =
    .error (.value "'xml' is not a valid ShopifyWebhookPayloadFormatEnum") := by decide +kernel

/-- Reading a topic back gives the topic that was sent. -/
def SurvivesClient (topic : String) : Prop := topicOfNode (topicArgument topic) = topic

instance (topic : String) : Decidable (SurvivesClient topic) := inferInstanceAs (Decidable (_ = _))

example : SurvivesClient "orders/create" ∧ ¬ SurvivesClient "inventory_levels/update" := by
  decide +kernel

/-- A remote call that changes the subscriptions. -/
inductive Mutation
  | create (topic : String)
  | delete (id : RemoteId)
  deriving DecidableEq, Repr

/-- The side of Shopify, as one run of the sync finds it. A run creates at most one subscription
for a topic and deletes each at most once, so a failure belongs to the call. Ids are not given
twice. -/
structure Remote where
  nodes : List SubscriptionNode
  newId : String → RemoteId
  listFails : Option ShopifyGraphQLError
  fails : Mutation → Option ShopifyGraphQLError
  nodup : (nodes.map SubscriptionNode.id).Nodup
  fresh : ∀ topic, newId topic ∉ nodes.map SubscriptionNode.id
  injective : Function.Injective newId

/-- `list_remote_webhook_subscriptions`. -/
def listRemoteWebhookSubscriptions (remote : Remote) :
    Except SyncError (List RemoteWebhookSubscription) :=
  match remote.listFails with
  | some e => .error (.shopifyGraphQL e)
  | none => do
    let mapped ← remote.nodes.mapM mapRemoteSubscription
    return mapped.filterMap id

end Client

section Rows

/-- A row of `shopify_webhook_subscriptions`, of one shop. -/
structure WebhookSubscription where
  topic : String
  callbackUrl : String
  remoteSubscriptionId : Option RemoteId
  payloadFormat : WebhookPayloadFormat
  requiredScopes : Option (List String)
  status : WebhookSubscriptionStatus
  installedAt : Option Instant
  lastVerifiedAt : Option Instant
  lastInstallAttemptAt : Option Instant
  lastErrorCode : Option String
  lastErrorMessage : Option String
  deriving DecidableEq, Repr

/-- A row of `shopify_shop_integrations`. -/
structure ShopIntegration where
  isDeleted : Bool
  status : IntegrationStatus
  accessTokenEncrypted : Option String
  grantedScopes : Option (List String)
  deriving DecidableEq, Repr

/-- `_SYNCABLE_INTEGRATION_STATUSES`. -/
def syncableIntegrationStatuses : List IntegrationStatus :=
  [.pendingInstall, .active, .needsReauth, .scopesOutdated, .webhooksOutdated, .error]

/-- `_load_shopify_integration`. -/
def loadShopifyIntegration (stored : Option ShopIntegration) :
    Except SyncError ShopIntegration := do
  let integration ← getOr
    (.validation "shop_integration_id does not reference an existing Shopify integration.") stored
  throwIf integration.isDeleted (.validation "Shopify integration is deleted.")
  throwIf (integration.status ∉ syncableIntegrationStatuses)
    (.validation "Shopify integration is not in a syncable status.")
  throwIf (integration.accessTokenEncrypted.getD "" = "")
    (.validation "Shopify integration does not have an access token.")
  pure integration

/-- `_build_callback_url`. -/
def buildCallbackUrl (shopifyWebhookBaseUrl : Option String) : Except SyncError String := do
  let baseUrl := shopifyWebhookBaseUrl.getD ""
  throwIf (baseUrl = "") (.validation "SHOPIFY_WEBHOOK_BASE_URL is not configured.")
  pure (String.ofList (baseUrl.toList.reverse.dropWhile (· = '/')).reverse ++ webhookCallbackPath)

end Rows

end BeyoManager.Shopify
