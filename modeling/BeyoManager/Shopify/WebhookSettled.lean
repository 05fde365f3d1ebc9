import BeyoManager.Shopify.WebhookPasses

/-! # When the sync reconciles the subscriptions of a shop

The registry, Shopify and the local rows agree after a sync exactly when no topic has subscriptions
that its pass leaves behind, and none that no row is there for.
-/

namespace BeyoManager.Shopify

open Grouping Relational Transition

variable (input : SyncInput)

namespace SyncInput

def FailedCall (topic : String) : Prop :=
  input.remote.listFails.isSome ∨
    ∃ m ∈ (syncShopifyWebhookSubscriptionsForShop input).calls,
      input.isAbout topic m = true ∧ (input.remote.fails m).isSome

def MissesScopes (topic : String) : Prop :=
  ∃ definition ∈ input.registry, definition.topic = topic ∧
    hasAllRequiredScopes definition.requiredScopes input.grantedScopes = false

def Enabled (topic : String) : Prop :=
  ∃ definition ∈ input.registry, definition.topic = topic ∧
    webhookDefinitionEnabled input.shopifyWebhooksEnabled definition = true

/-- After the sync, an enabled topic has one subscription, which its row names as active; another
topic has none, and its row is removed. -/
def TopicReconciled (topic : String) : Prop :=
  let outcome := syncShopifyWebhookSubscriptionsForShop input
  (input.Enabled topic → ∃ n, outcome.nodes.filter (input.owns topic) = [n] ∧
    ∀ row ∈ outcome.rows, row.topic = topic →
      row.status = .active ∧ row.remoteSubscriptionId = some n.id) ∧
  (¬ input.Enabled topic → outcome.nodes.filter (input.owns topic) = [] ∧
    ∀ row ∈ outcome.rows, row.topic = topic → row.status = .removed)

/-- A sync of the same shop, under the same settings, that starts from what a sync has left. -/
structure RunsAgain (again : SyncInput) : Prop where
  registry : again.registry = input.registry
  settings : again.shopifyWebhooksEnabled = input.shopifyWebhooksEnabled
  scopes : again.grantedScopes = input.grantedScopes
  callbackUrl : again.callbackUrl = input.callbackUrl
  nodes : again.remote.nodes = (syncShopifyWebhookSubscriptionsForShop input).nodes
  rows : again.rows = (syncShopifyWebhookSubscriptionsForShop input).rows

/-- What a sync is for: it raises nothing but a failure of Shopify, leaves the subscriptions with
another callback alone, reconciles every topic that no call has failed for and that misses no
scopes, and has nothing to do again after a run without failures. -/
structure Reconciles : Prop where
  noOtherError : ∀ e, (syncShopifyWebhookSubscriptionsForShop input).result = .error e →
    ∃ g, e = .shopifyGraphQL g
  foreign : (syncShopifyWebhookSubscriptionsForShop input).nodes.filter
      (fun n => n.callbackUrl ≠ some input.callbackUrl) =
    input.remote.nodes.filter fun n => n.callbackUrl ≠ some input.callbackUrl
  topics : ∀ topic, ¬ input.FailedCall topic → ¬ input.MissesScopes topic →
    input.TopicReconciled topic
  again : input.remote.listFails = none →
    (∀ m ∈ (syncShopifyWebhookSubscriptionsForShop input).calls, input.remote.fails m = none) →
    ∀ again, input.RunsAgain again → (syncShopifyWebhookSubscriptionsForShop again).calls = []

/-- An unregistered topic without a local row has no subscription, or one that cannot be
deleted. -/
def NoOrphan : Prop :=
  ∀ topic, topic ∉ input.registryTopics → input.localRow topic = none →
    input.ownedNodes topic ≠ [] →
      ∃ n ∈ input.ownedNodes topic, (input.remote.fails (.delete n.id)).isSome

/-- A wanted topic has one subscription, or none and a name that comes back from Shopify as it was
sent, if the creation succeeds; an unwanted one whose row is removed has none. -/
def TopicSettles (topic : String) : Prop :=
  (∀ definition, input.Wanted definition → definition.topic = topic →
    (input.ownedNodes topic).length = 1 ∨ input.ownedNodes topic = [] ∧
      (input.remote.fails (.create topic) = none → SurvivesClient topic)) ∧
  (¬ input.Enabled topic → ¬ input.MissesScopes topic → input.RowRemoved topic →
    input.ownedNodes topic = [])

/-- Every subscription with a callback, also a foreign one, has a format that the client knows. -/
def Readable : Prop := ∀ n ∈ input.remote.nodes, n.callbackUrl ≠ none → n.rawFormat = "json"

def Listed : Prop := input.remote.listFails = none ∧ input.Readable

/-- The listing fails, or all subscriptions can be read and no topic is left behind. -/
def Settles : Prop :=
  input.remote.listFails.isSome ∨
    input.Readable ∧ input.NoOrphan ∧ ∀ topic, input.TopicSettles topic

end SyncInput

section Facts

variable {input} {topic : String} {s : SyncState} {definition : WebhookDefinition}

theorem not_enabled_iff : ¬ input.Enabled topic ↔ input.Unwanted topic := by
  constructor
  · intro h d hd ht
    by_contra hyes
    exact h ⟨d, hd, ht, by simpa using hyes⟩
  · rintro h ⟨d, hd, ht, hyes⟩
    rw [h d hd ht] at hyes
    cases hyes

theorem enabled_of_wanted (h : input.Wanted definition) : input.Enabled definition.topic :=
  ⟨definition, h.1, rfl, h.2.1⟩

theorem not_missesScopes_of_wanted (h : input.Wanted definition) :
    ¬ input.MissesScopes definition.topic := by
  rintro ⟨d, hd, ht, hmissing⟩
  obtain rfl := Keyed.inj input.topics hd h.1 ht
  rw [h.2.2] at hmissing
  cases hmissing

theorem deleteRemoteSubscriptions_ok_iff :
    (deleteRemoteSubscriptions input
      ((input.ownedRemote topic).map RemoteWebhookSubscription.id) s).2 = none ↔
      ∀ n ∈ input.ownedNodes topic, input.remote.fails (.delete n.id) = none := by
  rw [ids_ownedRemote]
  obtain ⟨-, -, hdone, hfailed⟩ :=
    deleteRemoteSubscriptions_spec (s := s) fun n (hn : n ∈ input.ownedNodes topic) => hn
  constructor
  · exact fun h => (hdone h).1
  · intro h
    by_contra hne
    obtain ⟨e, he⟩ := Option.ne_none_iff_exists'.mp hne
    obtain ⟨n, hn, hne, -⟩ := hfailed e he
    rw [h n hn] at hne
    cases hne

/-- A pass over a topic that Shopify has raises for an orphan. -/
theorem syncBackendTopic_ok_iff : (∃ s', syncBackendTopic input s topic = .ok s') ↔
    (topic ∉ input.registryTopics → input.localRow topic = none →
      ∃ n ∈ input.ownedNodes topic, (input.remote.fails (.delete n.id)).isSome) := by
  have hdelete := @deleteRemoteSubscriptions_ok_iff input topic s
  rw [syncBackendTopic]
  by_cases hreg : topic ∈ input.registryTopics
  · rw [if_pos hreg]
    exact iff_of_true ⟨s, rfl⟩ fun hno => absurd hreg hno
  rw [if_neg hreg]
  revert hdelete
  generalize deleteRemoteSubscriptions input
    ((input.ownedRemote topic).map RemoteWebhookSubscription.id) s = r
  obtain ⟨t, e⟩ := r
  intro hdelete
  cases hfound : input.localRow topic with
  | some row =>
    refine iff_of_true ?_ fun _ h => by cases h
    cases e <;> by_cases hrow : row.status = .removed <;> simp [hrow]
  | none =>
    cases e with
    | none =>
      refine iff_of_false (by simp) fun h => ?_
      obtain ⟨n, hn, hsome⟩ := h hreg rfl
      rw [hdelete.mp rfl n hn] at hsome
      cases hsome
    | some e =>
      refine iff_of_true (by simp) fun _ _ => ?_
      by_contra hall
      simp only [not_exists, not_and, Option.not_isSome_iff_eq_none] at hall
      exact absurd (hdelete.mpr hall) (by simp)

theorem syncTopics_ok_iff : (∃ s, syncTopics input = .ok s) ↔ input.NoOrphan := by
  have hloop := KeyedLoop.foldlM_ok_iff (f := syncBackendTopic input)
    (l := keys RemoteWebhookSubscription.topic input.backendRemote)
    (s := input.registry.foldl (syncDefinition input) input.start)
    fun s t _ => syncBackendTopic_ok_iff
  have hrest : (∃ s, syncTopics input = .ok s) ↔ ∃ s',
      (keys RemoteWebhookSubscription.topic input.backendRemote).foldlM (syncBackendTopic input)
        (input.registry.foldl (syncDefinition input) input.start) = .ok s' := by
    constructor
    · rintro ⟨s, hs⟩
      obtain ⟨t, ht, -⟩ := bind_eq_ok.mp hs
      exact ⟨t, ht⟩
    · rintro ⟨t, ht⟩
      exact ⟨_, bind_eq_ok.mpr ⟨t, ht, rfl⟩⟩
  rw [hrest, hloop]
  constructor
  · exact fun h t hreg hrow howned => h t (mem_backendTopics.mpr howned) hreg hrow
  · exact fun h t ht hreg hrow => h t hreg hrow (mem_backendTopics.mp ht)

/-- The listing fails, or reads a format that is not known, or gives the subscriptions. -/
theorem list_cases (input : SyncInput) :
    (∃ e, input.remote.listFails = some e ∧
      listRemoteWebhookSubscriptions input.remote = .error (.shopifyGraphQL e)) ∨
    (input.remote.listFails = none ∧ ¬ input.Readable ∧
      ∃ message, listRemoteWebhookSubscriptions input.remote = .error (.value message)) ∨
    input.Listed ∧ ∃ l, listRemoteWebhookSubscriptions input.remote = .ok l := by
  rw [listRemoteWebhookSubscriptions]
  cases hlist : input.remote.listFails with
  | some e => exact .inl ⟨e, rfl, rfl⟩
  | none =>
    right
    have hmap : ∀ n, mapRemoteSubscription n = .ok (readSubscription n) ∨
        (n.callbackUrl ≠ none ∧ n.rawFormat ≠ "json") ∧
          ∃ message, mapRemoteSubscription n = .error (.value message) := by
      intro n
      by_cases hunknown : n.callbackUrl ≠ none ∧ n.rawFormat ≠ "json"
      · exact .inr ⟨hunknown, _, by rw [mapRemoteSubscription, throwIf, if_pos hunknown]; rfl⟩
      · exact .inl (by rw [mapRemoteSubscription, throwIf, if_neg hunknown]; rfl)
    have hnodes : ∀ nodes : List SubscriptionNode,
        (∀ n ∈ nodes, n.callbackUrl ≠ none → n.rawFormat = "json") ∧
          (∃ l, nodes.mapM mapRemoteSubscription = .ok l) ∨
        ¬ (∀ n ∈ nodes, n.callbackUrl ≠ none → n.rawFormat = "json") ∧
          ∃ message, nodes.mapM mapRemoteSubscription = .error (.value message) := by
      intro nodes
      induction nodes with
      | nil => exact .inl ⟨by simp, [], rfl⟩
      | cons n nodes ih =>
        rw [List.mapM_cons, List.forall_mem_cons]
        rcases hmap n with hread | ⟨⟨hcallback, hformat⟩, message, hfail⟩
        · have hknown : n.callbackUrl ≠ none → n.rawFormat = "json" := by
            intro hcallback
            by_contra hformat
            rw [mapRemoteSubscription, throwIf, if_pos ⟨hcallback, hformat⟩] at hread
            cases hread
          rcases ih with ⟨hall, l, hl⟩ | ⟨hnot, message, hfail⟩
          · exact .inl ⟨⟨hknown, hall⟩, _, by rw [hread, hl]; rfl⟩
          · exact .inr ⟨fun h => hnot h.2, message, by rw [hread, hfail]; rfl⟩
        · exact .inr ⟨fun h => hformat (h.1 hcallback), message, by rw [hfail]; rfl⟩
    rcases hnodes input.remote.nodes with ⟨hall, l, hl⟩ | ⟨hnot, message, hfail⟩
    · exact .inr ⟨⟨hlist, hall⟩, _, by simp only [hl]; rfl⟩
    · exact .inl ⟨rfl, hnot, message, by simp only [hfail]; rfl⟩

theorem sync_eq_of_ok (hlist : input.Listed) (h : syncTopics input = .ok s) :
    syncShopifyWebhookSubscriptionsForShop input = ⟨s.nodes, s.calls, s.rows, .ok s.report⟩ := by
  rcases list_cases input with ⟨e, hfails, -⟩ | ⟨-, hunknown, -⟩ | ⟨-, l, hl⟩
  · rw [hlist.1] at hfails
    cases hfails
  · exact absurd hlist.2 hunknown
  · rw [syncShopifyWebhookSubscriptionsForShop, hl]
    dsimp only
    rw [h]

theorem sync_eq_of_not_listed (hlist : ¬ input.Listed) :
    ∃ e, syncShopifyWebhookSubscriptionsForShop input =
      ⟨input.remote.nodes, [], input.rows, .error e⟩ ∧
        ((∃ g, e = .shopifyGraphQL g) ↔ input.remote.listFails.isSome = true) := by
  rcases list_cases input with ⟨g, hfails, he⟩ | ⟨hfails, -, message, he⟩ | ⟨hlisted, -⟩
  · exact ⟨.shopifyGraphQL g, by rw [syncShopifyWebhookSubscriptionsForShop, he],
      by simp [hfails]⟩
  · exact ⟨.value message, by rw [syncShopifyWebhookSubscriptionsForShop, he], by simp [hfails]⟩
  · exact absurd hlisted hlist

theorem failedCall_iff (hlist : input.Listed) (h : syncTopics input = .ok s) :
    input.FailedCall topic ↔
      ∃ m ∈ (s.view input topic).calls, (input.remote.fails m).isSome := by
  rw [SyncInput.FailedCall, hlist.1, sync_eq_of_ok hlist h]
  simp only [Option.isSome_none, Bool.false_eq_true, false_or]
  constructor
  · rintro ⟨m, hm, habout, hfail⟩
    exact ⟨m, List.mem_filter.mpr ⟨hm, habout⟩, hfail⟩
  · rintro ⟨m, hm, hfail⟩
    exact ⟨m, (List.mem_filter.mp hm).1, (List.mem_filter.mp hm).2, hfail⟩

theorem part_of_created : input.isPartOf topic (input.createdNode definition) = true ↔
    definition.topic = topic := by
  have hfresh : (input.remote.nodes.map SubscriptionNode.id).contains
      (input.createdNode definition).id = false := by
    rw [Bool.eq_false_iff]
    exact fun h => input.remote.fresh definition.topic (List.contains_iff_mem.mp h)
  rw [SyncInput.isPartOf, hfresh, Bool.false_and, Bool.or_false, beq_iff_eq]
  exact input.remote.injective.eq_iff

theorem owns_created : input.owns topic (input.createdNode definition) = true ↔
    topicOfNode (topicArgument definition.topic) = topic := by
  rw [owns_iff]
  exact and_iff_right rfl

theorem filter_owns (inv : SyncInv input s) (hsurvive : ∀ definition, input.Wanted definition →
    input.ownedNodes definition.topic = [] →
      input.remote.fails (.create definition.topic) = none → SurvivesClient definition.topic) :
    s.nodes.filter (input.owns topic) = (s.view input topic).nodes := by
  refine List.filter_congr fun n hn => ?_
  rcases inv.origin n hn with hn | ⟨definition, hd, hnone, hok, rfl⟩
  · exact (part_of_initial hn).symm
  · rw [Bool.eq_iff_iff, owns_created, part_of_created]
    rw [show topicOfNode (topicArgument definition.topic) = definition.topic from
      hsurvive definition hd hnone hok]

theorem length_part_le (h : ∀ n ∈ (s.view input topic).nodes, input.owns topic n = true) :
    (s.view input topic).nodes.length ≤ (s.nodes.filter (input.owns topic)).length := by
  have hsub : (s.view input topic).nodes = (s.nodes.filter (input.owns topic)).filter
      (input.isPartOf topic) := by
    rw [List.filter_filter]
    refine List.filter_congr fun n hn => ?_
    cases hp : input.isPartOf topic n with
    | false => rfl
    | true => rw [h n (List.mem_filter.mpr ⟨hn, hp⟩), Bool.true_and]
  rw [hsub]
  exact List.length_filter_le _ _

end Facts

section Forward

variable {input} {topic : String} {s : SyncState}

theorem survives_of_settles (hsettles : ∀ topic, input.TopicSettles topic)
    {definition : WebhookDefinition} (hd : input.Wanted definition)
    (hnone : input.ownedNodes definition.topic = [])
    (hok : input.remote.fails (.create definition.topic) = none) :
    SurvivesClient definition.topic := by
  rcases (hsettles definition.topic).1 definition hd rfl with hone | ⟨-, hsurvives⟩
  · rw [hnone] at hone
    cases hone
  · exact hsurvives hok

/-- What a sync leaves of a topic that settles and that no call has failed for. -/
theorem topicReconciled_of_settles (hlist : input.Listed)
    (h : syncTopics input = .ok s) (hsettles : ∀ topic, input.TopicSettles topic)
    (hcalls : ¬ input.FailedCall topic) (hscopes : ¬ input.MissesScopes topic) :
    input.TopicReconciled topic := by
  obtain ⟨inv, hresult⟩ := syncTopics_spec h
  have hnodes := @filter_owns input topic s inv fun d hd hnone hok =>
    survives_of_settles hsettles hd hnone hok
  have hrows : ∀ row ∈ s.rows, row.topic = topic → row ∈ (s.view input topic).rows :=
    fun row hrow ht => List.mem_filter.mpr ⟨hrow, by simpa using ht⟩
  rw [failedCall_iff hlist h] at hcalls
  rw [SyncInput.TopicReconciled, sync_eq_of_ok hlist h]
  dsimp only
  rw [hnodes]
  have hview := hresult topic
  generalize s.view input topic = view at hview hrows hcalls
  cases hview with
  | missingScopes d rows hd ht _ hmissing => exact absurd ⟨d, hd, ht, hmissing⟩ hscopes
  | verified d n ns row hd ht howned hactive hid =>
    refine ⟨fun _ => ⟨n, ?_, fun r hr hrt => ?_⟩, fun hno => absurd (ht ▸ enabled_of_wanted hd) hno⟩
    · rcases (hsettles topic).1 d hd ht with hone | ⟨hnil, -⟩
      · rw [howned, List.length_cons, Nat.add_eq_right, List.length_eq_zero_iff] at hone
        rw [hone]
      · rw [howned] at hnil
        cases hnil
    · rw [List.mem_singleton.mp (hrows r hr hrt)]
      exact ⟨hactive, hid⟩
  | created d row hd ht howned hok hactive hid =>
    refine ⟨fun _ => ⟨_, rfl, fun r hr hrt => ?_⟩,
      fun hno => absurd (ht ▸ enabled_of_wanted hd) hno⟩
    rw [List.mem_singleton.mp (hrows r hr hrt)]
    refine ⟨hactive, ?_⟩
    rw [hid, ← ht]
    rfl
  | notCreated d view hd ht howned hfailed hcalled => exact absurd ⟨_, hcalled, hfailed⟩ hcalls
  | skipped row hoff hfound hstatus =>
    have hno := not_enabled_iff.mpr hoff
    refine ⟨fun hyes => absurd hyes hno, fun _ => ⟨?_, fun r hr hrt => ?_⟩⟩
    · exact (hsettles topic).2 hno hscopes ⟨row, hfound, hstatus⟩
    · rw [List.mem_singleton.mp (hrows r hr hrt)]
      exact hstatus
  | removed rows hoff hopen hok hstatus =>
    have hno := not_enabled_iff.mpr hoff
    exact ⟨fun hyes => absurd hyes hno, fun _ => ⟨rfl, fun r hr hrt => hstatus r (hrows r hr hrt)⟩⟩
  | notRemoved view n hoff hopen howned hfailed hcalled =>
    exact absurd ⟨_, hcalled, hfailed⟩ hcalls

variable {again : SyncInput}

theorem owned_again_of_wanted (hview : TopicResult input topic (s.view input topic))
    (hsurvive : s.nodes.filter (input.owns topic) = (s.view input topic).nodes)
    (hok : ∀ m ∈ (s.view input topic).calls, input.remote.fails m = none)
    {definition : WebhookDefinition} (hd : input.Wanted definition)
    (ht : definition.topic = topic) : s.nodes.filter (input.owns topic) ≠ [] := by
  rw [hsurvive]
  generalize s.view input topic = view at hview hok
  have hscopes : ¬ input.MissesScopes topic := ht ▸ not_missesScopes_of_wanted hd
  have henabled : input.Enabled topic := ht ▸ enabled_of_wanted hd
  cases hview with
  | missingScopes d rows hd' ht' _ hmissing => exact absurd ⟨d, hd', ht', hmissing⟩ hscopes
  | verified => exact List.cons_ne_nil _ _
  | created => exact List.cons_ne_nil _ _
  | notCreated d view hd' ht' howned hfailed hcalled =>
    rw [hok _ hcalled] at hfailed
    cases hfailed
  | skipped row hoff => exact absurd henabled (not_enabled_iff.mpr hoff)
  | removed rows hoff => exact absurd henabled (not_enabled_iff.mpr hoff)
  | notRemoved view n hoff => exact absurd henabled (not_enabled_iff.mpr hoff)

/-- After a run without failures an unwanted topic has no subscription, or its row is removed. -/
theorem owned_again_of_unwanted (hview : TopicResult input topic (s.view input topic))
    (hsurvive : s.nodes.filter (input.owns topic) = (s.view input topic).nodes)
    (hok : ∀ m ∈ (s.view input topic).calls, input.remote.fails m = none)
    (hoff : input.Unwanted topic) : s.nodes.filter (input.owns topic) = [] ∨
      input.RowRemoved topic ∧ ∃ row : WebhookSubscription, row.status = .removed ∧
        s.rows.filter (fun row => row.topic == topic) = [row] := by
  rw [hsurvive]
  have hrows : s.rows.filter (fun row => row.topic == topic) = (s.view input topic).rows := rfl
  rw [hrows]
  generalize s.view input topic = view at hview hok
  have hno := not_enabled_iff.mpr hoff
  cases hview with
  | missingScopes d rows hd ht henabled => exact absurd ⟨d, hd, ht, henabled⟩ hno
  | verified d n ns row hd ht => exact absurd (ht ▸ enabled_of_wanted hd) hno
  | created d row hd ht => exact absurd (ht ▸ enabled_of_wanted hd) hno
  | notCreated d view hd ht => exact absurd (ht ▸ enabled_of_wanted hd) hno
  | skipped row _ hfound hstatus => exact .inr ⟨⟨row, hfound, hstatus⟩, row, hstatus, rfl⟩
  | removed => exact .inl rfl
  | notRemoved view n _ _ howned hfailed hcalled =>
    rw [hok _ hcalled] at hfailed
    cases hfailed

end Forward

section Again

variable {input again : SyncInput} {topic : String} {s : SyncState}

theorem owns_again (h : input.RunsAgain again) : again.owns topic = input.owns topic := by
  funext n
  rw [SyncInput.owns, SyncInput.owns, h.callbackUrl]

theorem wanted_again (h : input.RunsAgain again) {definition : WebhookDefinition} :
    again.Wanted definition ↔ input.Wanted definition := by
  rw [SyncInput.Wanted, SyncInput.Wanted, h.registry, h.settings, h.scopes]

theorem unwanted_again (h : input.RunsAgain again) :
    again.Unwanted topic ↔ input.Unwanted topic := by
  rw [SyncInput.Unwanted, SyncInput.Unwanted, h.registry, h.settings]

/-- An unwanted topic needs no deletion in the next run. -/
theorem settled_again_of_unwanted (hagain : input.RunsAgain again)
    (hlist : input.Listed) (h : syncTopics input = .ok s)
    (hnodes : ∀ topic, s.nodes.filter (input.owns topic) = (s.view input topic).nodes)
    (hok : ∀ m ∈ s.calls, input.remote.fails m = none) (hoff : input.Unwanted topic) :
    again.ownedNodes topic = [] ∨ again.RowRemoved topic ∧ input.RowRemoved topic := by
  have houtcome := sync_eq_of_ok hlist h
  rcases owned_again_of_unwanted ((syncTopics_spec h).2 topic) (hnodes topic)
    (fun m hm => hok m (List.mem_filter.mp hm).1) hoff with hnil | ⟨hrow, row, hstatus, hrows⟩
  · left
    rw [SyncInput.ownedNodes, owns_again hagain, hagain.nodes, houtcome]
    exact hnil
  · refine .inr ⟨⟨row, ?_, hstatus⟩, hrow⟩
    have hlocal := @localRow_toList again topic
    rw [hagain.rows, houtcome] at hlocal
    have hsingle : (again.localRow topic).toList = [row] := hlocal.symm.trans hrows
    cases hfound : again.localRow topic with
    | none =>
      rw [hfound] at hsingle
      cases hsingle
    | some row' =>
      rw [hfound] at hsingle
      cases hsingle
      rfl

/-- A run right after one without failures has nothing to do. -/
theorem calls_again_eq_nil (hagain : input.RunsAgain again)
    (hlist : input.Listed) (h : syncTopics input = .ok s)
    (hsettles : ∀ topic, input.TopicSettles topic)
    (hok : ∀ m ∈ s.calls, input.remote.fails m = none) :
    (syncShopifyWebhookSubscriptionsForShop again).calls = [] := by
  obtain ⟨inv, hresult⟩ := syncTopics_spec h
  have hnodes : ∀ topic, s.nodes.filter (input.owns topic) = (s.view input topic).nodes :=
    fun topic => filter_owns inv fun d hd hnone hcreate =>
      survives_of_settles hsettles hd hnone hcreate
  have hcalls : ∀ topic, ∀ m ∈ (s.view input topic).calls, input.remote.fails m = none :=
    fun _ m hm => hok m (List.mem_filter.mp hm).1
  have howned : ∀ topic, again.ownedNodes topic = s.nodes.filter (input.owns topic) := by
    intro topic
    rw [SyncInput.ownedNodes, owns_again hagain, hagain.nodes, sync_eq_of_ok hlist h]
  by_cases hlist₂ : again.Listed
  swap
  · obtain ⟨e, he, -⟩ := sync_eq_of_not_listed hlist₂
    rw [he]
  · have hreg : again.registryTopics = input.registryTopics :=
      congrArg (List.map _) hagain.registry
    have horphan : again.NoOrphan := by
      intro topic hno hrow hne
      rw [hreg] at hno
      rcases settled_again_of_unwanted hagain hlist h hnodes hok
        (unwanted_of_not_registered hno) with hnil | ⟨⟨row, hfound, -⟩, -⟩
      · exact absurd hnil hne
      · rw [hrow] at hfound
        cases hfound
    obtain ⟨s₂, h₂⟩ := syncTopics_ok_iff.mpr horphan
    rw [sync_eq_of_ok hlist₂ h₂]
    obtain ⟨inv₂, hresult₂⟩ := syncTopics_spec h₂
    refine List.eq_nil_iff_forall_not_mem.mpr fun m hm => ?_
    obtain ⟨topic, habout⟩ := inv₂.about m hm
    have hmem : m ∈ (s₂.view again topic).calls := List.mem_filter.mpr ⟨hm, habout⟩
    have hview := hresult₂ topic
    generalize s₂.view again topic = view at hview hmem
    have hunwanted : again.Unwanted topic → ¬ again.RowRemoved topic →
        again.ownedNodes topic = [] := fun hoff hopen =>
      (settled_again_of_unwanted hagain hlist h hnodes hok
        ((unwanted_again hagain).mp hoff)).resolve_right fun hr => hopen hr.1
    have hwanted : ∀ d, again.Wanted d → d.topic = topic → again.ownedNodes topic ≠ [] := by
      intro d hd ht
      rw [howned]
      exact owned_again_of_wanted (hresult topic) (hnodes topic) (hcalls topic)
        ((wanted_again hagain).mp hd) ht
    cases hview with
    | missingScopes => cases hmem
    | verified => cases hmem
    | created d row hd ht hnil => exact hwanted d hd ht hnil
    | notCreated d view hd ht hnil => exact hwanted d hd ht hnil
    | skipped => cases hmem
    | removed rows hoff hopen =>
      rw [hunwanted hoff hopen] at hmem
      cases hmem
    | notRemoved view n hoff hopen hn =>
      rw [hunwanted hoff hopen] at hn
      cases hn

end Again

section Backward

variable {input} {topic : String} {s : SyncState}

/-- A topic that the sync reconciles settles. -/
theorem topicSettles_of_reconciles (hlist : input.Listed)
    (h : syncTopics input = .ok s)
    (hreconciled : ∀ topic, ¬ input.FailedCall topic → ¬ input.MissesScopes topic →
      input.TopicReconciled topic) : input.TopicSettles topic := by
  obtain ⟨inv, hresult⟩ := syncTopics_spec h
  have hview := hresult topic
  have hpart := @length_part_le input topic s
  have hrows : ∀ row ∈ (s.view input topic).rows, row ∈ s.rows ∧ row.topic = topic := by
    intro row hrow
    obtain ⟨hmem, ht⟩ := List.mem_filter.mp hrow
    exact ⟨hmem, by simpa using ht⟩
  have hspec := hreconciled topic
  rw [failedCall_iff hlist h, SyncInput.TopicReconciled, sync_eq_of_ok hlist h] at hspec
  dsimp only at hspec
  generalize s.view input topic = view at hview hpart hspec hrows
  have howns : ∀ n ∈ input.ownedNodes topic, input.owns topic n = true :=
    fun n hn => (mem_ownedNodes.mp hn).2
  constructor
  · intro d hd ht
    have hscopes : ¬ input.MissesScopes topic := ht ▸ not_missesScopes_of_wanted hd
    have henabled : input.Enabled topic := ht ▸ enabled_of_wanted hd
    cases hview with
    | missingScopes d' rows hd' ht' _ hmissing => exact absurd ⟨d', hd', ht', hmissing⟩ hscopes
    | verified d' n ns row _ _ howned =>
      left
      obtain ⟨n', hone, -⟩ := (hspec (by simp) hscopes).1 henabled
      rw [howned] at howns ⊢
      have hle := hpart howns
      rw [hone] at hle
      simp only [List.length_cons, List.length_nil] at hle ⊢
      omega
    | created d' row _ ht' howned hok _ hid =>
      refine .inr ⟨howned, fun _ => ?_⟩
      obtain ⟨n', hone, hactive⟩ := (hspec (by simp [hok]) hscopes).1 henabled
      obtain ⟨hrow, hrt⟩ := hrows row (List.mem_singleton_self row)
      have hid' := (hactive row hrow hrt).2
      rw [hid, Option.some_inj] at hid'
      -- the row names the subscription that was created for the topic
      obtain ⟨hmem, hown⟩ := List.mem_filter.mp (hone ▸ List.mem_singleton_self n')
      rcases inv.origin n' hmem with hold | ⟨d'', -, -, -, rfl⟩
      · exact absurd hid'.symm (newId_ne hold)
      · have htopic := input.remote.injective hid'
        rw [SurvivesClient, htopic]
        exact (owns_created.mp hown).trans htopic
    | notCreated d' view _ _ howned hfailed =>
      refine .inr ⟨howned, fun hok => ?_⟩
      rw [hok] at hfailed
      cases hfailed
    | skipped row hoff => exact absurd henabled (not_enabled_iff.mpr hoff)
    | removed rows hoff => exact absurd henabled (not_enabled_iff.mpr hoff)
    | notRemoved view n hoff => exact absurd henabled (not_enabled_iff.mpr hoff)
  · intro hno hscopes hremoved
    cases hview with
    | missingScopes d rows hd ht henabled => exact absurd ⟨d, hd, ht, henabled⟩ hno
    | verified d n ns row hd ht => exact absurd (ht ▸ enabled_of_wanted hd) hno
    | created d row hd ht => exact absurd (ht ▸ enabled_of_wanted hd) hno
    | notCreated d view hd ht => exact absurd (ht ▸ enabled_of_wanted hd) hno
    | skipped row hoff =>
      have hnil := ((hspec (by simp) hscopes).2 hno).1
      have hle := hpart howns
      rw [hnil] at hle
      exact List.length_eq_zero_iff.mp (Nat.le_zero.mp hle)
    | removed rows hoff hopen => exact absurd hremoved hopen
    | notRemoved view n hoff hopen => exact absurd hremoved hopen

end Backward

/-- A sync reconciles the registry, Shopify and the local rows exactly when the listing fails, or
every subscription can be read and no topic is left behind: an unregistered topic without a row has
no subscription that could be deleted, a wanted topic has at most one subscription and a name that
survives the client, and a topic whose row is removed has no subscription any more. -/
theorem reconciles_iff_settles : input.Reconciles ↔ input.Settles := by
  rw [SyncInput.Settles]
  by_cases hlist : input.Listed
  swap
  · obtain ⟨e, houtcome, hgraphQL⟩ := sync_eq_of_not_listed hlist
    constructor
    · intro h
      exact .inl (hgraphQL.mp (h.noOtherError e (by rw [houtcome])))
    · intro hsettles
      have hsome : input.remote.listFails.isSome = true := by
        rcases hsettles with hsome | ⟨hread, -⟩
        · exact hsome
        · exact Option.isSome_iff_ne_none.mpr fun hnone => hlist ⟨hnone, hread⟩
      refine ⟨fun e' he => ?_, ?_, fun topic hno => ?_, fun hnone => ?_⟩
      · rw [houtcome] at he
        obtain rfl := Except.error.inj he
        exact hgraphQL.mpr hsome
      · rw [houtcome]
      · exact absurd (.inl hsome) hno
      · rw [hnone] at hsome
        cases hsome
  · constructor
    · intro h
      have hok : ∃ s, syncTopics input = .ok s := by
        rcases list_cases input with ⟨e, hfails, -⟩ | ⟨-, hunknown, -⟩ | ⟨-, l, hl⟩
        · rw [hlist.1] at hfails
          cases hfails
        · exact absurd hlist.2 hunknown
        cases hs : syncTopics input with
        | ok s => exact ⟨s, rfl⟩
        | error s =>
          obtain ⟨g, hg⟩ := h.noOtherError
            (.attribute "'NoneType' object has no attribute 'required_scopes'") (by
              rw [syncShopifyWebhookSubscriptionsForShop, hl]
              dsimp only
              rw [hs])
          cases hg
      obtain ⟨s, hs⟩ := hok
      exact .inr ⟨hlist.2, syncTopics_ok_iff.mp ⟨s, hs⟩, fun topic =>
        topicSettles_of_reconciles hlist hs h.topics⟩
    · rintro (hsome | ⟨-, horphan, hsettles⟩)
      · rw [hlist.1] at hsome
        cases hsome
      obtain ⟨s, hs⟩ := syncTopics_ok_iff.mpr horphan
      have houtcome := sync_eq_of_ok hlist hs
      refine ⟨fun e he => ?_, ?_, fun topic => ?_, fun _ hcalls again hagain => ?_⟩
      · rw [houtcome] at he
        cases he
      · rw [houtcome]
        exact (syncTopics_spec hs).1.foreign
      · exact topicReconciled_of_settles hlist hs hsettles
      · rw [houtcome] at hcalls
        exact calls_again_eq_nil hagain hlist hs hsettles hcalls

section Legacy

/-- Shopify has a subscription for a topic that has left the registry. -/
def legacyRemote : Remote where
  nodes := [⟨"gid://shopify/WebhookSubscription/1", "CUSTOMERS_CREATE",
    some "https://backend.example.com/api/v1/shopify/webhooks", some "JSON"⟩]
  newId topic := "created for " ++ topic
  listFails := none
  fails _ := none
  nodup := by decide
  fresh topic h := by
    have hlist := congrArg String.toList (List.mem_singleton.mp h)
    simp at hlist
  injective a b h := by
    have hlist := congrArg String.toList h
    exact String.toList_inj.mp (by simpa using hlist)

def legacyInput : SyncInput where
  integration := ⟨false, .active, some "token", some ["read_orders", "read_products"]⟩
  loaded := by decide
  shopifyWebhookBaseUrl := some "https://backend.example.com/"
  callbackUrl := "https://backend.example.com/api/v1/shopify/webhooks"
  built := by decide +kernel
  shopifyWebhooksEnabled := true
  registry := webhookRegistry
  topics := by decide
  remote := legacyRemote
  rows := []
  keyed := keyed_nil
  now := 0

/-- The required scopes of a row that is not there are read. -/
theorem not_reconciles_legacyInput : ¬ legacyInput.Reconciles := by
  intro h
  have hresult : (syncShopifyWebhookSubscriptionsForShop legacyInput).result =
      .error (.attribute "'NoneType' object has no attribute 'required_scopes'") := by
    rfl
  obtain ⟨g, hg⟩ := h.noOtherError _ hresult
  cases hg

end Legacy

end BeyoManager.Shopify
