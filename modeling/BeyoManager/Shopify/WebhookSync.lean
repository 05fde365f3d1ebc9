import BeyoManager.Shopify.Webhooks

/-! # The sync of the webhook subscriptions of a shop

Three passes: over the registry, over the topics that Shopify has and the registry does not, and
over the rows that are left. A failed remote call is recorded in the row of its topic.
-/

namespace BeyoManager.Shopify

open Grouping Relational Transition

/-- What a sync starts from: a shop that loads, the settings, the registry with one definition for
a topic, the side of Shopify and the local rows of the shop, one for a topic. -/
structure SyncInput where
  integration : ShopIntegration
  loaded : loadShopifyIntegration (some integration) = .ok integration
  shopifyWebhookBaseUrl : Option String
  callbackUrl : String
  built : buildCallbackUrl shopifyWebhookBaseUrl = .ok callbackUrl
  shopifyWebhooksEnabled : Bool
  registry : List WebhookDefinition
  topics : (registry.map WebhookDefinition.topic).Nodup
  remote : Remote
  rows : List WebhookSubscription
  keyed : Keyed WebhookSubscription.topic rows
  now : Instant

structure SyncReport where
  createdTopics : List String
  removedTopics : List String
  verifiedTopics : List String
  missingScopeTopics : List String
  failedTopics : List String
  deriving DecidableEq, Repr

/-- The subscriptions of Shopify, the calls that were made to change them, the local rows and the
report, as a sync goes on. -/
structure SyncState where
  nodes : List SubscriptionNode
  calls : List Mutation
  rows : List WebhookSubscription
  report : SyncReport
  deriving DecidableEq, Repr

variable (input : SyncInput)

namespace SyncInput

def grantedScopes : List String := input.integration.grantedScopes.getD []

def backendRemote : List RemoteWebhookSubscription :=
  (input.remote.nodes.filterMap readSubscription).filter fun r =>
    r.callbackUrl == input.callbackUrl

/-- The entry of `backend_remote_by_topic`. -/
def ownedRemote (topic : String) : List RemoteWebhookSubscription :=
  group RemoteWebhookSubscription.topic input.backendRemote topic

/-- The entry of `local_rows`. -/
def localRow (topic : String) : Option WebhookSubscription :=
  input.rows.find? fun row => row.topic == topic

/-- `registry_topics`. -/
def registryTopics : List String := input.registry.map WebhookDefinition.topic

end SyncInput

/-- `_payload_format_for_topic`. -/
def payloadFormatForTopic (topic : String) (fallback : Option WebhookPayloadFormat) :
    WebhookPayloadFormat :=
  match input.registry.find? fun definition => definition.topic == topic with
  | some definition => definition.payloadFormat
  | none => fallback.getD .json

/-- What `_upsert_local_subscription_row` writes, apart from the callback and the format. -/
structure RowWrite where
  requiredScopes : List String
  status : WebhookSubscriptionStatus
  remoteSubscriptionId : Option RemoteId
  installedAt : Option Instant
  lastVerifiedAt : Option Instant
  lastInstallAttemptAt : Option Instant
  lastErrorCode : Option String
  lastErrorMessage : Option String

def writtenRow (topic : String) (w : RowWrite) (fallback : Option WebhookPayloadFormat) :
    WebhookSubscription where
  topic := topic
  callbackUrl := input.callbackUrl
  remoteSubscriptionId := w.remoteSubscriptionId
  payloadFormat := payloadFormatForTopic input topic fallback
  requiredScopes := some w.requiredScopes
  status := w.status
  installedAt := w.installedAt
  lastVerifiedAt := w.lastVerifiedAt
  lastInstallAttemptAt := w.lastInstallAttemptAt
  lastErrorCode := w.lastErrorCode
  lastErrorMessage := w.lastErrorMessage

/-- `_upsert_local_subscription_row`. -/
def upsertLocalSubscriptionRow (s : SyncState) (topic : String) (w : RowWrite) : SyncState :=
  match input.localRow topic with
  | none => { s with rows := s.rows ++ [writtenRow input topic w none] }
  | some _ =>
    { s with
      rows := updateWhere (fun row => row.topic == topic)
        (fun row => writtenRow input topic w (some row.payloadFormat)) s.rows }

/-- `_mark_topic_failed`, after the topic has been reported as failed. -/
def markTopicFailed (s : SyncState) (topic : String) (requiredScopes : List String)
    (remoteSubscriptionId : Option RemoteId) (e : ShopifyGraphQLError) : SyncState :=
  upsertLocalSubscriptionRow input
    { s with report := { s.report with failedTopics := s.report.failedTopics ++ [topic] } } topic
    { requiredScopes
      status := .failed
      remoteSubscriptionId
      installedAt := (input.localRow topic).bind (·.installedAt)
      lastVerifiedAt := some input.now
      lastInstallAttemptAt := some input.now
      lastErrorCode := some e.errorCode
      lastErrorMessage := some e.message }

def markTopicRemoved (s : SyncState) (topic : String) (requiredScopes : List String) : SyncState :=
  let s := upsertLocalSubscriptionRow input s topic
    { requiredScopes
      status := .removed
      remoteSubscriptionId := none
      installedAt := (input.localRow topic).bind (·.installedAt)
      lastVerifiedAt := some input.now
      lastInstallAttemptAt := (input.localRow topic).bind (·.lastInstallAttemptAt)
      lastErrorCode := none
      lastErrorMessage := none }
  { s with report := { s.report with removedTopics := s.report.removedTopics ++ [topic] } }

def deleteRemoteSubscriptions : List RemoteId → SyncState → SyncState × Option ShopifyGraphQLError
  | [], s => (s, none)
  | id :: ids, s =>
    let called := { s with calls := s.calls ++ [.delete id] }
    match input.remote.fails (.delete id) with
    | some e => (called, some e)
    | none =>
      deleteRemoteSubscriptions ids { called with nodes := s.nodes.filter fun n => n.id ≠ id }

/-- `create_remote_webhook_subscription`. -/
def createRemoteWebhookSubscription (s : SyncState) (definition : WebhookDefinition) :
    SyncState × Except ShopifyGraphQLError RemoteId :=
  let called := { s with calls := s.calls ++ [.create definition.topic] }
  match input.remote.fails (.create definition.topic) with
  | some e => (called, .error e)
  | none =>
    let id := input.remote.newId definition.topic
    ({ called with
        nodes := s.nodes ++ [⟨id, topicArgument definition.topic, some input.callbackUrl,
          some definition.payloadFormat.argument⟩] }, .ok id)

/-- `_first_remote_id`. -/
def firstRemoteId (remoteSubscriptions : List RemoteWebhookSubscription) : Option RemoteId :=
  remoteSubscriptions.head?.map RemoteWebhookSubscription.id

def syncDisabled (s : SyncState) (definition : WebhookDefinition) : SyncState :=
  let topic := definition.topic
  let ownedRemote := input.ownedRemote topic
  if (input.localRow topic).any fun row => row.status = .removed then s
  else if ownedRemote ≠ [] then
    match deleteRemoteSubscriptions input (ownedRemote.map (·.id)) s with
    | (s, none) => markTopicRemoved input s topic definition.requiredScopes
    | (s, some e) =>
      markTopicFailed input s topic definition.requiredScopes (firstRemoteId ownedRemote) e
  else if (input.localRow topic).isSome then
    markTopicRemoved input s topic definition.requiredScopes
  else s

/-- `MISSING_REQUIRED_SCOPE_ERROR_CODE`. -/
def missingRequiredScopeErrorCode : String := "missing_required_scope"

def syncWithoutScopes (s : SyncState) (definition : WebhookDefinition) : SyncState :=
  let topic := definition.topic
  upsertLocalSubscriptionRow input
    { s with
      report := { s.report with missingScopeTopics := s.report.missingScopeTopics ++ [topic] } }
    topic
    { requiredScopes := definition.requiredScopes
      status := .failed
      remoteSubscriptionId := firstRemoteId (input.ownedRemote topic)
      installedAt := (input.localRow topic).bind (·.installedAt)
      lastVerifiedAt := some input.now
      lastInstallAttemptAt := some input.now
      lastErrorCode := some missingRequiredScopeErrorCode
      lastErrorMessage := some "Missing required Shopify scopes for webhook subscription." }

def syncInstalled (s : SyncState) (definition : WebhookDefinition)
    (remoteSubscription : RemoteWebhookSubscription) : SyncState :=
  let topic := definition.topic
  let s := upsertLocalSubscriptionRow input s topic
    { requiredScopes := definition.requiredScopes
      status := .active
      remoteSubscriptionId := some remoteSubscription.id
      installedAt := some (((input.localRow topic).bind (·.installedAt)).getD input.now)
      lastVerifiedAt := some input.now
      lastInstallAttemptAt := (input.localRow topic).bind (·.lastInstallAttemptAt)
      lastErrorCode := none
      lastErrorMessage := none }
  { s with report := { s.report with verifiedTopics := s.report.verifiedTopics ++ [topic] } }

def syncNotInstalled (s : SyncState) (definition : WebhookDefinition) : SyncState :=
  let topic := definition.topic
  match createRemoteWebhookSubscription input s definition with
  | (s, .ok remoteSubscriptionId) =>
    let s := upsertLocalSubscriptionRow input s topic
      { requiredScopes := definition.requiredScopes
        status := .active
        remoteSubscriptionId := some remoteSubscriptionId
        installedAt := some input.now
        lastVerifiedAt := some input.now
        lastInstallAttemptAt := some input.now
        lastErrorCode := none
        lastErrorMessage := none }
    { s with report := { s.report with createdTopics := s.report.createdTopics ++ [topic] } }
  | (s, .error e) => markTopicFailed input s topic definition.requiredScopes none e

def syncDefinition (s : SyncState) (definition : WebhookDefinition) : SyncState :=
  if !webhookDefinitionEnabled input.shopifyWebhooksEnabled definition then
    syncDisabled input s definition
  else if !hasAllRequiredScopes definition.requiredScopes input.grantedScopes then
    syncWithoutScopes input s definition
  else
    match input.ownedRemote definition.topic with
    | remoteSubscription :: _ => syncInstalled input s definition remoteSubscription
    | [] => syncNotInstalled input s definition

/-- One pass over the topics that Shopify has. Without a local row the required scopes of the row
are read from `None`; the state is what is left when that raises. -/
def syncBackendTopic (s : SyncState) (topic : String) : Except SyncState SyncState :=
  if topic ∈ input.registryTopics then .ok s
  else if (input.localRow topic).any fun row => row.status = .removed then .ok s
  else
    match deleteRemoteSubscriptions input ((input.ownedRemote topic).map (·.id)) s,
      input.localRow topic with
    | (s, none), none => .error s
    | (s, none), some row => .ok (markTopicRemoved input s topic (row.requiredScopes.getD []))
    | (s, some e), row =>
      .ok (markTopicFailed input s topic ((row.bind (·.requiredScopes)).getD [])
        (firstRemoteId (input.ownedRemote topic)) e)

def syncLocalRow (s : SyncState) (row : WebhookSubscription) : SyncState :=
  if row.topic ∈ input.registryTopics then s
  else if row.status = .removed then s
  else if row.topic ∈ keys RemoteWebhookSubscription.topic input.backendRemote then s
  else markTopicRemoved input s row.topic (row.requiredScopes.getD [])

/-- The state that the passes start from. -/
def SyncInput.start : SyncState := ⟨input.remote.nodes, [], input.rows, ⟨[], [], [], [], []⟩⟩

def syncTopics : Except SyncState SyncState := do
  let s := input.registry.foldl (syncDefinition input) input.start
  let s ← (keys RemoteWebhookSubscription.topic input.backendRemote).foldlM
    (syncBackendTopic input) s
  pure (input.rows.foldl (syncLocalRow input) s)

structure SyncOutcome where
  nodes : List SubscriptionNode
  calls : List Mutation
  rows : List WebhookSubscription
  result : Except SyncError SyncReport

/-- `sync_shopify_webhook_subscriptions_for_shop`; when it raises, the rows are rolled back and the
remote calls are not. -/
def syncShopifyWebhookSubscriptionsForShop : SyncOutcome :=
  match listRemoteWebhookSubscriptions input.remote with
  | .error e => ⟨input.remote.nodes, [], input.rows, .error e⟩
  | .ok _ =>
    match syncTopics input with
    | .ok s => ⟨s.nodes, s.calls, s.rows, .ok s.report⟩
    | .error s => ⟨s.nodes, s.calls, input.rows,
        .error (.attribute "'NoneType' object has no attribute 'required_scopes'")⟩

end BeyoManager.Shopify
