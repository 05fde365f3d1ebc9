import BeyoManager.Shopify.WebhookTopics

/-! # How a sync leaves each topic

A topic is verified, created or left without scopes when it is wanted, and removed or skipped when
it is not; a failed call leaves it as far as the calls went.
-/

namespace BeyoManager.Shopify

open Grouping Relational Transition

variable {input : SyncInput} {topic : String} {s s' : SyncState}

def SyncInput.initialView (input : SyncInput) (topic : String) : TopicView :=
  ⟨input.ownedNodes topic, (input.localRow topic).toList, []⟩

def SyncInput.RowRemoved (input : SyncInput) (topic : String) : Prop :=
  ∃ row, input.localRow topic = some row ∧ row.status = .removed

inductive TopicResult (input : SyncInput) (topic : String) : TopicView → Prop
  | missingScopes (definition : WebhookDefinition) (rows : List WebhookSubscription)
      (registered : definition ∈ input.registry) (named : definition.topic = topic)
      (enabled : webhookDefinitionEnabled input.shopifyWebhooksEnabled definition = true)
      (missing : hasAllRequiredScopes definition.requiredScopes input.grantedScopes = false) :
      TopicResult input topic ⟨input.ownedNodes topic, rows, []⟩
  | verified (definition : WebhookDefinition) (n : SubscriptionNode) (ns : List SubscriptionNode)
      (row : WebhookSubscription) (wanted : input.Wanted definition)
      (named : definition.topic = topic) (owned : input.ownedNodes topic = n :: ns)
      (active : row.status = .active) (id : row.remoteSubscriptionId = some n.id) :
      TopicResult input topic ⟨n :: ns, [row], []⟩
  | created (definition : WebhookDefinition) (row : WebhookSubscription)
      (wanted : input.Wanted definition) (named : definition.topic = topic)
      (owned : input.ownedNodes topic = [])
      (ok : input.remote.fails (.create topic) = none) (active : row.status = .active)
      (id : row.remoteSubscriptionId = some (input.remote.newId topic)) :
      TopicResult input topic ⟨[input.createdNode definition], [row], [.create topic]⟩
  | notCreated (definition : WebhookDefinition) (view : TopicView)
      (wanted : input.Wanted definition) (named : definition.topic = topic)
      (owned : input.ownedNodes topic = [])
      (failed : (input.remote.fails (.create topic)).isSome) (called : .create topic ∈ view.calls) :
      TopicResult input topic view
  | skipped (row : WebhookSubscription) (unwanted : input.Unwanted topic)
      (found : input.localRow topic = some row) (status : row.status = .removed) :
      TopicResult input topic ⟨input.ownedNodes topic, [row], []⟩
  | removed (rows : List WebhookSubscription) (unwanted : input.Unwanted topic)
      (open_ : ¬ input.RowRemoved topic)
      (ok : ∀ n ∈ input.ownedNodes topic, input.remote.fails (.delete n.id) = none)
      (status : ∀ row ∈ rows, row.status = .removed) :
      TopicResult input topic ⟨[], rows, (input.ownedNodes topic).map fun n => .delete n.id⟩
  | notRemoved (view : TopicView) (n : SubscriptionNode) (unwanted : input.Unwanted topic)
      (open_ : ¬ input.RowRemoved topic) (owned : n ∈ input.ownedNodes topic)
      (failed : (input.remote.fails (.delete n.id)).isSome) (called : .delete n.id ∈ view.calls) :
      TopicResult input topic view

theorem view_start : input.start.view input topic = input.initialView topic := by
  have hnodes : input.remote.nodes.filter (input.isPartOf topic) = input.ownedNodes topic :=
    List.filter_congr fun _ hn => part_of_initial hn
  rw [SyncState.view, SyncInput.start, SyncInput.initialView, hnodes, localRow_toList,
    List.filter_nil]

theorem syncInv_start : SyncInv input input.start :=
  ⟨fun _ hn => .inl hn, rfl, fun _ hm => absurd hm List.not_mem_nil⟩

theorem isRemoved_iff : ((input.localRow topic).any fun row => row.status = .removed) = true ↔
    input.RowRemoved topic := by
  cases h : input.localRow topic <;> simp [SyncInput.RowRemoved, h]

section Marks

theorem upsert_view (w : RowWrite) {nodes : List SubscriptionNode} {calls : List Mutation}
    (hv : s.view input topic = ⟨nodes, (input.localRow topic).toList, calls⟩) :
    ∃ fallback, (upsertLocalSubscriptionRow input s topic w).view input topic =
      ⟨nodes, [writtenRow input topic w fallback], calls⟩ := by
  obtain ⟨hnodes, hrows, hcalls⟩ := TopicView.mk.inj hv
  obtain ⟨fallback, hrow⟩ := upsert_rows w hrows
  refine ⟨fallback, TopicView.mk.injEq .. |>.mpr ⟨?_, hrow, ?_⟩⟩
  · rw [(upsert_nodes w).1, hnodes]
  · rw [(upsert_nodes w).2, hcalls]

variable {requiredScopes : List String}

theorem markTopicRemoved_touches :
    Touches input topic s (markTopicRemoved input s topic requiredScopes) :=
  (upsert_touches _).trans (touches_report _ _)

theorem markTopicRemoved_view {nodes : List SubscriptionNode} {calls : List Mutation}
    (hv : s.view input topic = ⟨nodes, (input.localRow topic).toList, calls⟩) :
    ∃ row : WebhookSubscription, row.status = .removed ∧
      (markTopicRemoved input s topic requiredScopes).view input topic = ⟨nodes, [row], calls⟩ := by
  obtain ⟨fallback, hview⟩ := upsert_view
    { requiredScopes
      status := .removed
      remoteSubscriptionId := none
      installedAt := (input.localRow topic).bind (·.installedAt)
      lastVerifiedAt := some input.now
      lastInstallAttemptAt := (input.localRow topic).bind (·.lastInstallAttemptAt)
      lastErrorCode := none
      lastErrorMessage := none } hv
  refine ⟨_, ?_, hview⟩
  rfl

variable {remoteId : Option RemoteId} {e : ShopifyGraphQLError}

theorem markTopicFailed_touches :
    Touches input topic s (markTopicFailed input s topic requiredScopes remoteId e) :=
  (touches_report s _).trans (upsert_touches _)

theorem markTopicFailed_calls :
    (markTopicFailed input s topic requiredScopes remoteId e).calls = s.calls :=
  (upsert_nodes _).2

end Marks

section Removal

theorem filter_owned (hv : s.view input topic = input.initialView topic) :
    (s.nodes.filter fun n => n.id ∉ (input.ownedNodes topic).map SubscriptionNode.id).filter
      (input.isPartOf topic) = [] := by
  have hnodes : s.nodes.filter (input.isPartOf topic) = input.ownedNodes topic :=
    (TopicView.mk.inj hv).1
  refine List.filter_eq_nil_iff.mpr fun n hn hpart => ?_
  obtain ⟨hn, hid⟩ := List.mem_filter.mp hn
  have howned : n ∈ input.ownedNodes topic := by
    rw [← hnodes]
    exact List.mem_filter.mpr ⟨hn, hpart⟩
  exact (of_decide_eq_true hid) (List.mem_map_of_mem howned)

theorem filter_about_deletes : ((input.ownedNodes topic).map fun n => Mutation.delete n.id).filter
    (input.isAbout topic) = (input.ownedNodes topic).map fun n => .delete n.id := by
  refine List.filter_eq_self.mpr fun m hm => ?_
  obtain ⟨n, hn, rfl⟩ := List.mem_map.mp hm
  exact List.any_eq_true.mpr ⟨n, hn, beq_self_eq_true _⟩

/-- The deletion of all subscriptions of an unwanted topic, and the mark that follows. -/
theorem deleteOwned_spec (hoff : input.Unwanted topic) (hrow : ¬ input.RowRemoved topic)
    (requiredScopes : List String) :
    let r := deleteRemoteSubscriptions input
      ((input.ownedRemote topic).map RemoteWebhookSubscription.id) s
    Touches input topic s r.1 ∧ (s.view input topic = input.initialView topic →
      (r.2 = none → TopicResult input topic
        ((markTopicRemoved input r.1 topic requiredScopes).view input topic)) ∧
      ∀ e, r.2 = some e → ∀ remoteId, TopicResult input topic
        ((markTopicFailed input r.1 topic requiredScopes remoteId e).view input topic)) := by
  rw [ids_ownedRemote]
  intro r
  obtain ⟨htouch, hrows, hdone, hfailed⟩ :=
    deleteRemoteSubscriptions_spec (s := s) fun n (hn : n ∈ input.ownedNodes topic) => hn
  refine ⟨htouch, fun hv => ⟨fun hnone => ?_, fun e he remoteId => ?_⟩⟩
  · obtain ⟨hok, hnodes, hcalls⟩ := hdone hnone
    obtain ⟨-, hvrows, hvcalls⟩ := TopicView.mk.inj hv
    have hview : r.1.view input topic = ⟨[], (input.localRow topic).toList,
        (input.ownedNodes topic).map fun n => .delete n.id⟩ := by
      refine TopicView.mk.injEq .. |>.mpr ⟨?_, ?_, ?_⟩
      · rw [show r.1.nodes = _ from hnodes]
        exact filter_owned hv
      · rw [show r.1.rows = _ from hrows]
        exact hvrows
      · rw [show r.1.calls = _ from hcalls, List.filter_append, hvcalls, List.nil_append]
        exact filter_about_deletes
    obtain ⟨row, hstatus, hmark⟩ := markTopicRemoved_view hview
    rw [hmark]
    refine .removed [row] hoff hrow hok fun row' hrow' => ?_
    rw [List.mem_singleton.mp hrow', hstatus]
  · obtain ⟨n, hn, hne, hcalled⟩ := hfailed e he
    refine .notRemoved _ n hoff hrow hn (by rw [hne]; rfl) (List.mem_filter.mpr ⟨?_, ?_⟩)
    · rw [markTopicFailed_calls]
      exact hcalled
    · exact List.any_eq_true.mpr ⟨n, hn, beq_self_eq_true _⟩

end Removal

section Passes

variable {definition : WebhookDefinition}

/-- A disabled topic. -/
theorem syncDisabled_spec (hoff : input.Unwanted definition.topic) :
    Touches input definition.topic s (syncDisabled input s definition) ∧
      (s.view input definition.topic = input.initialView definition.topic →
        TopicResult input definition.topic
          ((syncDisabled input s definition).view input definition.topic)) := by
  rw [syncDisabled]
  split
  · rename_i hremoved
    refine ⟨.refl s, fun hv => ?_⟩
    obtain ⟨row, hfound, hstatus⟩ := isRemoved_iff.mp hremoved
    rw [hv, SyncInput.initialView, hfound]
    exact .skipped row hoff hfound hstatus
  · rename_i hremoved
    have hrow : ¬ input.RowRemoved definition.topic := fun h => hremoved (isRemoved_iff.mpr h)
    split
    · obtain ⟨htouch, hresult⟩ := deleteOwned_spec (s := s) hoff hrow definition.requiredScopes
      split
      · rename_i t ht
        rw [ht] at htouch hresult
        exact ⟨htouch.trans markTopicRemoved_touches, fun hv => (hresult hv).1 rfl⟩
      · rename_i t e ht
        rw [ht] at htouch hresult
        exact ⟨htouch.trans markTopicFailed_touches, fun hv => (hresult hv).2 e rfl _⟩
    · rename_i hnone
      have howned : input.ownedNodes definition.topic = [] :=
        ownedRemote_eq_nil.mp (not_not.mp hnone)
      have hok : ∀ n ∈ input.ownedNodes definition.topic,
          input.remote.fails (.delete n.id) = none := by
        rw [howned]
        exact fun n hn => absurd hn List.not_mem_nil
      split
      · refine ⟨markTopicRemoved_touches, fun hv => ?_⟩
        rw [SyncInput.initialView, howned] at hv
        obtain ⟨row, hstatus, hmark⟩ :=
          markTopicRemoved_view hv
        have hresult := TopicResult.removed [row] hoff hrow hok fun row' hrow' => by
          rw [List.mem_singleton.mp hrow', hstatus]
        rw [howned] at hresult
        rwa [hmark]
      · rename_i hsome
        refine ⟨.refl s, fun hv => ?_⟩
        have hresult := TopicResult.removed [] hoff hrow hok fun row hmem =>
          absurd hmem List.not_mem_nil
        rw [howned] at hresult
        rw [hv, SyncInput.initialView, howned, Option.not_isSome_iff_eq_none.mp hsome]
        exact hresult

theorem syncWithoutScopes_spec (hmem : definition ∈ input.registry)
    (henabled : webhookDefinitionEnabled input.shopifyWebhooksEnabled definition = true)
    (hmissing : hasAllRequiredScopes definition.requiredScopes input.grantedScopes = false) :
    Touches input definition.topic s (syncWithoutScopes input s definition) ∧
      (s.view input definition.topic = input.initialView definition.topic →
        TopicResult input definition.topic
          ((syncWithoutScopes input s definition).view input definition.topic)) := by
  refine ⟨(touches_report s _).trans (upsert_touches _), fun hv => ?_⟩
  have hreport : ({ s with
      report := { s.report with
        missingScopeTopics := s.report.missingScopeTopics ++ [definition.topic] } } :
          SyncState).view input definition.topic = input.initialView definition.topic := hv
  obtain ⟨fallback, hview⟩ := upsert_view
    { requiredScopes := definition.requiredScopes
      status := .failed
      remoteSubscriptionId := firstRemoteId (input.ownedRemote definition.topic)
      installedAt := (input.localRow definition.topic).bind (·.installedAt)
      lastVerifiedAt := some input.now
      lastInstallAttemptAt := some input.now
      lastErrorCode := some missingRequiredScopeErrorCode
      lastErrorMessage := some "Missing required Shopify scopes for webhook subscription." } hreport
  have hresult := congrArg (TopicResult input definition.topic) hview
  exact hresult.mpr (.missingScopes definition _ hmem rfl henabled hmissing)

theorem syncInstalled_spec (hd : input.Wanted definition) {r : RemoteWebhookSubscription}
    {rs : List RemoteWebhookSubscription} (howned : input.ownedRemote definition.topic = r :: rs) :
    Touches input definition.topic s (syncInstalled input s definition r) ∧
      (s.view input definition.topic = input.initialView definition.topic →
        TopicResult input definition.topic
          ((syncInstalled input s definition r).view input definition.topic)) := by
  refine ⟨(upsert_touches _).trans (touches_report _ _), fun hv => ?_⟩
  have hids := @ids_ownedRemote input definition.topic
  rw [howned] at hids
  obtain ⟨n, ns, hns, hid, -⟩ := List.map_eq_cons_iff.mp hids.symm
  obtain ⟨fallback, hview⟩ := upsert_view
    { requiredScopes := definition.requiredScopes
      status := .active
      remoteSubscriptionId := some r.id
      installedAt := some (((input.localRow definition.topic).bind (·.installedAt)).getD input.now)
      lastVerifiedAt := some input.now
      lastInstallAttemptAt := (input.localRow definition.topic).bind (·.lastInstallAttemptAt)
      lastErrorCode := none
      lastErrorMessage := none } hv
  have hresult := congrArg (TopicResult input definition.topic) hview
  rw [hns] at hresult
  exact hresult.mpr (.verified definition n ns _ hd rfl hns rfl (congrArg some hid.symm))

theorem syncNotInstalled_spec (hd : input.Wanted definition)
    (howned : input.ownedNodes definition.topic = []) :
    Touches input definition.topic s (syncNotInstalled input s definition) ∧
      (s.view input definition.topic = input.initialView definition.topic →
        TopicResult input definition.topic
          ((syncNotInstalled input s definition).view input definition.topic)) := by
  have habout : input.isAbout definition.topic (.create definition.topic) = true :=
    beq_self_eq_true _
  cases hfail : input.remote.fails (.create definition.topic) with
  | some e =>
    have hcreate : createRemoteWebhookSubscription input s definition =
        ({ s with calls := s.calls ++ [.create definition.topic] }, .error e) := by
      rw [createRemoteWebhookSubscription, hfail]
    rw [syncNotInstalled]
    dsimp only
    rw [hcreate]
    refine ⟨(called_touches habout).trans markTopicFailed_touches, fun _ => ?_⟩
    refine .notCreated definition _ hd rfl howned (by rw [hfail]; rfl)
      (List.mem_filter.mpr ⟨?_, habout⟩)
    rw [markTopicFailed_calls]
    exact List.mem_append_right _ (List.mem_singleton_self _)
  | none =>
    have hcreate : createRemoteWebhookSubscription input s definition =
        ({ s with
            calls := s.calls ++ [.create definition.topic]
            nodes := s.nodes ++ [input.createdNode definition] },
          .ok (input.remote.newId definition.topic)) := by
      rw [createRemoteWebhookSubscription, hfail]
      rfl
    rw [syncNotInstalled]
    dsimp only
    rw [hcreate]
    refine ⟨((added_touches hd howned hfail).trans (called_touches habout)).trans
      ((upsert_touches _).trans (touches_report _ _)), fun hv => ?_⟩
    have hcreated : ({ s with
        calls := s.calls ++ [.create definition.topic]
        nodes := s.nodes ++ [input.createdNode definition] } : SyncState).view input
          definition.topic = ⟨[input.createdNode definition],
            (input.localRow definition.topic).toList, [.create definition.topic]⟩ := by
      obtain ⟨hnodes, hrows, hcalls⟩ := TopicView.mk.inj hv
      have hpart : input.isPartOf definition.topic (input.createdNode definition) = true := by
        rw [SyncInput.isPartOf, SyncInput.createdNode, beq_self_eq_true, Bool.true_or]
      refine TopicView.mk.injEq .. |>.mpr ⟨?_, hrows, ?_⟩
      · rw [List.filter_append, hnodes, howned, List.nil_append, List.filter_singleton, hpart]
        rfl
      · rw [List.filter_append, hcalls, List.nil_append, List.filter_singleton, habout]
        rfl
    obtain ⟨fallback, hview⟩ := upsert_view
      { requiredScopes := definition.requiredScopes
        status := .active
        remoteSubscriptionId := some (input.remote.newId definition.topic)
        installedAt := some input.now
        lastVerifiedAt := some input.now
        lastInstallAttemptAt := some input.now
        lastErrorCode := none
        lastErrorMessage := none } hcreated
    have hresult := congrArg (TopicResult input definition.topic) hview
    exact hresult.mpr (.created definition _ hd rfl howned hfail rfl rfl)

/-- The pass of a definition. -/
theorem syncDefinition_spec (hmem : definition ∈ input.registry) :
    Touches input definition.topic s (syncDefinition input s definition) ∧
      (s.view input definition.topic = input.initialView definition.topic →
        TopicResult input definition.topic
          ((syncDefinition input s definition).view input definition.topic)) := by
  rw [syncDefinition]
  split
  · rename_i hdisabled
    refine syncDisabled_spec fun d hd ht => ?_
    -- a topic has one definition
    obtain rfl := Keyed.inj input.topics hd hmem ht
    simpa using hdisabled
  · rename_i henabled
    split
    · rename_i hmissing
      exact syncWithoutScopes_spec hmem (by simpa using henabled) (by simpa using hmissing)
    · rename_i hscopes
      have hd : input.Wanted definition :=
        ⟨hmem, by simpa using henabled, by simpa using hscopes⟩
      split
      · rename_i r rs howned
        exact syncInstalled_spec hd howned
      · rename_i howned
        exact syncNotInstalled_spec hd (ownedRemote_eq_nil.mp howned)

theorem unwanted_of_not_registered (h : topic ∉ input.registryTopics) : input.Unwanted topic :=
  fun _ hd ht => absurd (ht ▸ List.mem_map_of_mem hd) h

/-- The pass of a topic that Shopify has. -/
theorem syncBackendTopic_spec (h : syncBackendTopic input s topic = .ok s') :
    Touches input topic s s' ∧ (topic ∈ input.registryTopics → s' = s) ∧
      (topic ∉ input.registryTopics → s.view input topic = input.initialView topic →
        TopicResult input topic (s'.view input topic)) := by
  rw [syncBackendTopic] at h
  split at h
  · rename_i hreg
    cases h
    exact ⟨.refl s, fun _ => rfl, fun hno => absurd hreg hno⟩
  · rename_i hreg
    have hoff := unwanted_of_not_registered hreg
    split at h
    · rename_i hremoved
      cases h
      refine ⟨.refl s, fun _ => rfl, fun _ hv => ?_⟩
      obtain ⟨row, hfound, hstatus⟩ := isRemoved_iff.mp hremoved
      rw [hv, SyncInput.initialView, hfound]
      exact .skipped row hoff hfound hstatus
    · rename_i hremoved
      have hrow : ¬ input.RowRemoved topic := fun hr => hremoved (isRemoved_iff.mpr hr)
      split at h
      · cases h
      · rename_i t row ht _
        cases h
        obtain ⟨htouch, hresult⟩ :=
          deleteOwned_spec (s := s) hoff hrow (row.requiredScopes.getD [])
        rw [ht] at htouch hresult
        exact ⟨htouch.trans markTopicRemoved_touches, fun h => absurd h hreg,
          fun _ hv => (hresult hv).1 rfl⟩
      · rename_i t e ht
        cases h
        obtain ⟨htouch, hresult⟩ := deleteOwned_spec (s := s) hoff hrow
          (((input.localRow topic).bind (·.requiredScopes)).getD [])
        rw [ht] at htouch hresult
        exact ⟨htouch.trans markTopicFailed_touches, fun h => absurd h hreg,
          fun _ hv => (hresult hv).2 e rfl _⟩

theorem mem_backendTopics : topic ∈ keys RemoteWebhookSubscription.topic input.backendRemote ↔
    input.ownedNodes topic ≠ [] := by
  rw [← not_iff_not, not_not, ← ownedRemote_eq_nil, SyncInput.ownedRemote, group_eq_nil]

/-- The pass of a local row. -/
theorem syncLocalRow_spec {row : WebhookSubscription} (hrow : row ∈ input.rows) :
    Touches input row.topic s (syncLocalRow input s row) ∧
      (row.topic ∈ input.registryTopics ∨ input.ownedNodes row.topic ≠ [] →
        syncLocalRow input s row = s) ∧
      (row.topic ∉ input.registryTopics → input.ownedNodes row.topic = [] →
        s.view input row.topic = input.initialView row.topic →
          TopicResult input row.topic ((syncLocalRow input s row).view input row.topic)) := by
  have hfound : input.localRow row.topic = some row := input.keyed.find?_eq hrow
  rw [syncLocalRow]
  split
  · rename_i hreg
    exact ⟨.refl s, fun _ => rfl, fun hno => absurd hreg hno⟩
  · rename_i hreg
    have hoff := unwanted_of_not_registered hreg
    split
    · rename_i hstatus
      refine ⟨.refl s, fun _ => rfl, fun _ _ hv => ?_⟩
      rw [hv, SyncInput.initialView, hfound]
      exact .skipped row hoff hfound hstatus
    · rename_i hstatus
      have hopen : ¬ input.RowRemoved row.topic := by
        rintro ⟨row', hfound', hstatus'⟩
        rw [hfound, Option.some_inj] at hfound'
        exact hstatus (hfound' ▸ hstatus')
      split
      · rename_i hbackend
        exact ⟨.refl s, fun _ => rfl, fun _ hnil => absurd hnil (mem_backendTopics.mp hbackend)⟩
      · rename_i hbackend
        refine ⟨markTopicRemoved_touches, ?_, fun _ hnil hv => ?_⟩
        · rintro (h | h)
          · exact absurd h hreg
          · exact absurd (mem_backendTopics.mpr h) hbackend
        · obtain ⟨row', hstatus', hmark⟩ :=
            markTopicRemoved_view hv
          have hok : ∀ n ∈ input.ownedNodes row.topic,
              input.remote.fails (.delete n.id) = none := by
            rw [hnil]
            exact fun n hn => absurd hn List.not_mem_nil
          have hresult := TopicResult.removed [row'] hoff hopen hok fun r hr => by
            rw [List.mem_singleton.mp hr, hstatus']
          rw [hnil] at hresult
          rw [hmark, hnil]
          exact hresult

end Passes

section Run

theorem syncDefinition_keeps : ∀ s, ∀ d ∈ input.registry, SyncInv input s →
    SyncInv input (syncDefinition input s d) :=
  fun _ _ hd hs => ((syncDefinition_spec hd).1 hs).1

theorem syncDefinition_frame : ∀ s, ∀ d ∈ input.registry, SyncInv input s → ∀ u ≠ d.topic,
    (syncDefinition input s d).view input u = s.view input u :=
  fun _ _ hd hs => ((syncDefinition_spec hd).1 hs).2

theorem syncLocalRow_keeps : ∀ s, ∀ row ∈ input.rows, SyncInv input s →
    SyncInv input (syncLocalRow input s row) :=
  fun _ _ hrow hs => ((syncLocalRow_spec hrow).1 hs).1

theorem syncLocalRow_frame : ∀ s, ∀ row ∈ input.rows, SyncInv input s → ∀ u ≠ row.topic,
    (syncLocalRow input s row).view input u = s.view input u :=
  fun _ _ hrow hs => ((syncLocalRow_spec hrow).1 hs).2

theorem registryPasses_result (hreg : topic ∈ input.registryTopics) :
    TopicResult input topic
      ((input.registry.foldl (syncDefinition input) input.start).view input topic) := by
  obtain ⟨d, hd, rfl⟩ := List.mem_map.mp hreg
  obtain ⟨t, -, hstart, hview⟩ := KeyedLoop.foldl_view
    syncDefinition_keeps syncDefinition_frame syncInv_start input.topics hd
  rw [hview]
  exact (syncDefinition_spec hd).2 (hstart.trans view_start)

theorem backendPasses_keep {topics : List String} (inv : SyncInv input s)
    (hreg : topic ∈ input.registryTopics)
    (h : topics.foldlM (syncBackendTopic input) s = .ok s') :
    s'.view input topic = s.view input topic := by
  refine (foldlM_invariant (fun t => SyncInv input t ∧ t.view input topic = s.view input topic)
    (fun t u _ t' ht hu => ?_) ⟨inv, rfl⟩ h).2
  obtain ⟨htouch, hskip, -⟩ := syncBackendTopic_spec hu
  refine ⟨(htouch ht.1).1, ?_⟩
  by_cases hut : topic = u
  · rw [hskip (hut ▸ hreg), ht.2]
  · exact ((htouch ht.1).2 topic hut).trans ht.2

theorem rowPasses_keep {rows : List WebhookSubscription} (hrows : ∀ row ∈ rows, row ∈ input.rows)
    (inv : SyncInv input s)
    (htopic : topic ∈ input.registryTopics ∨ input.ownedNodes topic ≠ []) :
    (rows.foldl (syncLocalRow input) s).view input topic = s.view input topic := by
  induction rows generalizing s with
  | nil => rfl
  | cons row rows ih =>
    obtain ⟨htouch, hskip, -⟩ := @syncLocalRow_spec input s row (hrows row List.mem_cons_self)
    refine (ih (fun r hr => hrows r (List.mem_cons_of_mem row hr)) (htouch inv).1).trans ?_
    by_cases hrow : topic = row.topic
    · rw [hskip (hrow ▸ htopic)]
    · exact (htouch inv).2 topic hrow

/-- A sync that does not raise keeps the invariant and leaves each topic with its result. -/
theorem syncTopics_spec (h : syncTopics input = .ok s) :
    SyncInv input s ∧ ∀ topic, TopicResult input topic (s.view input topic) := by
  obtain ⟨s₂, h₂, h⟩ := bind_eq_ok.mp h
  cases h
  set s₁ := input.registry.foldl (syncDefinition input) input.start with hs₁
  have hkeep₂ : ∀ s, ∀ t ∈ keys RemoteWebhookSubscription.topic input.backendRemote, ∀ s',
      SyncInv input s → syncBackendTopic input s t = .ok s' → SyncInv input s' :=
    fun s t _ s' hs hs' => ((syncBackendTopic_spec hs').1 hs).1
  have hframe₂ : ∀ s, ∀ t ∈ keys RemoteWebhookSubscription.topic input.backendRemote, ∀ s',
      SyncInv input s → syncBackendTopic input s t = .ok s' → ∀ u ≠ id t,
        s'.view input u = s.view input u :=
    fun s t _ s' hs hs' => ((syncBackendTopic_spec hs').1 hs).2
  obtain ⟨inv₁, hrest₁⟩ := KeyedLoop.foldl_frame
    syncDefinition_keeps syncDefinition_frame (syncInv_start)
  obtain ⟨inv₂, hrest₂⟩ := KeyedLoop.foldlM_frame hkeep₂ hframe₂
    inv₁ h₂
  obtain ⟨inv₃, hrest₃⟩ := KeyedLoop.foldl_frame
    syncLocalRow_keeps syncLocalRow_frame inv₂
  rw [List.map_id] at hrest₂
  refine ⟨inv₃, fun topic => ?_⟩
  by_cases hreg : topic ∈ input.registryTopics
  · rw [rowPasses_keep (fun _ h => h) inv₂ (.inl hreg), backendPasses_keep inv₁ hreg h₂]
    exact registryPasses_result hreg
  have hstart : s₁.view input topic = input.initialView topic :=
    (hrest₁ topic hreg).trans view_start
  by_cases howned : input.ownedNodes topic = []
  · have hs₂ : s₂.view input topic = input.initialView topic :=
      (hrest₂ topic fun hmem => mem_backendTopics.mp hmem howned).trans hstart
    cases hfound : input.localRow topic with
    | some row =>
      have hrow := List.mem_of_find?_eq_some hfound
      obtain rfl : row.topic = topic := by simpa using List.find?_some hfound
      obtain ⟨t, -, hbefore, hview⟩ := KeyedLoop.foldl_view
        syncLocalRow_keeps syncLocalRow_frame inv₂ input.keyed hrow
      rw [hview]
      exact (syncLocalRow_spec hrow).2.2 hreg howned (hbefore.trans hs₂)
    | none =>
      have hno : topic ∉ input.rows.map WebhookSubscription.topic := by
        intro hmem
        obtain ⟨row, hrow, ht⟩ := List.mem_map.mp hmem
        have := List.find?_eq_none.mp hfound row hrow
        simp [ht] at this
      rw [hrest₃ topic hno, hs₂, SyncInput.initialView, hfound, howned]
      have hresult := TopicResult.removed []
        (unwanted_of_not_registered hreg) (fun ⟨row, hrow, _⟩ => by rw [hfound] at hrow; cases hrow)
        (by rw [howned]; exact fun n hn => absurd hn List.not_mem_nil)
        fun row hrow => absurd hrow List.not_mem_nil
      rwa [howned] at hresult
  · obtain ⟨t, t', -, hbefore, hpass, hview⟩ := KeyedLoop.foldlM_view
      hkeep₂ hframe₂ inv₁ (by rw [List.map_id]; exact keys_nodup) h₂ (mem_backendTopics.mpr howned)
    rw [rowPasses_keep (fun _ h => h) inv₂ (.inr howned)]
    have hpass_view : s₂.view input topic = t'.view input topic := hview
    rw [hpass_view]
    exact (syncBackendTopic_spec hpass).2.2 hreg (hbefore.trans hstart)

end Run

end BeyoManager.Shopify
