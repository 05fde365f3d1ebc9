import BeyoManager.Library.Loop
import BeyoManager.Shopify.WebhookSync

/-! # What a sync does to one topic

A pass of the sync changes the subscriptions, the calls and the rows of its own topic only, and
nothing with another callback. So each topic ends as its own pass leaves it.
-/

namespace BeyoManager.Shopify

open Grouping Relational Transition

variable (input : SyncInput)

namespace SyncInput

def owns (topic : String) (n : SubscriptionNode) : Bool :=
  n.callbackUrl == some input.callbackUrl && topicOfNode n.topic == topic

def ownedNodes (topic : String) : List SubscriptionNode :=
  input.remote.nodes.filter (input.owns topic)

def createdNode (definition : WebhookDefinition) : SubscriptionNode :=
  ⟨input.remote.newId definition.topic, topicArgument definition.topic, some input.callbackUrl,
    some definition.payloadFormat.argument⟩

def Wanted (definition : WebhookDefinition) : Prop :=
  definition ∈ input.registry ∧
    webhookDefinitionEnabled input.shopifyWebhooksEnabled definition = true ∧
    hasAllRequiredScopes definition.requiredScopes input.grantedScopes = true

def Unwanted (topic : String) : Prop :=
  ∀ definition ∈ input.registry, definition.topic = topic →
    webhookDefinitionEnabled input.shopifyWebhooksEnabled definition = false

def isAbout (topic : String) : Mutation → Bool
  | .create t => t == topic
  | .delete id => (input.ownedNodes topic).any fun n => n.id == id

def isPartOf (topic : String) (n : SubscriptionNode) : Bool :=
  n.id == input.remote.newId topic ||
    (input.remote.nodes.map SubscriptionNode.id).contains n.id && input.owns topic n

end SyncInput

@[simp] theorem topic_writtenRow (topic : String) (w : RowWrite)
    (fallback : Option WebhookPayloadFormat) : (writtenRow input topic w fallback).topic = topic :=
  rfl

structure TopicView where
  nodes : List SubscriptionNode
  rows : List WebhookSubscription
  calls : List Mutation

def SyncState.view (topic : String) (s : SyncState) : TopicView where
  nodes := s.nodes.filter (input.isPartOf topic)
  rows := s.rows.filter fun row => row.topic == topic
  calls := s.calls.filter (input.isAbout topic)

/-- Every subscription was there or has been created, those with another callback are as they
were, and each call is about a topic. -/
structure SyncInv (s : SyncState) : Prop where
  origin : ∀ n ∈ s.nodes, n ∈ input.remote.nodes ∨ ∃ definition, input.Wanted definition ∧
    input.ownedNodes definition.topic = [] ∧
    input.remote.fails (.create definition.topic) = none ∧ n = input.createdNode definition
  foreign : s.nodes.filter (fun n => n.callbackUrl ≠ some input.callbackUrl) =
    input.remote.nodes.filter fun n => n.callbackUrl ≠ some input.callbackUrl
  about : ∀ m ∈ s.calls, ∃ topic, input.isAbout topic m = true

def Touches (topic : String) (s s' : SyncState) : Prop :=
  SyncInv input s → SyncInv input s' ∧ ∀ u ≠ topic, s'.view input u = s.view input u

section Basics

variable {input} {topic : String} {s s' s'' : SyncState}

theorem Touches.refl (s : SyncState) : Touches input topic s s := fun h => ⟨h, fun _ _ => rfl⟩

theorem Touches.trans (h : Touches input topic s s') (h' : Touches input topic s' s'') :
    Touches input topic s s'' := by
  intro hs
  obtain ⟨hs', hview⟩ := h hs
  obtain ⟨hs'', hview'⟩ := h' hs'
  exact ⟨hs'', fun u hu => (hview' u hu).trans (hview u hu)⟩

theorem owns_iff {n : SubscriptionNode} : input.owns topic n = true ↔
    n.callbackUrl = some input.callbackUrl ∧ topicOfNode n.topic = topic := by
  simp [SyncInput.owns]

theorem mem_ownedNodes {n : SubscriptionNode} :
    n ∈ input.ownedNodes topic ↔ n ∈ input.remote.nodes ∧ input.owns topic n = true :=
  List.mem_filter

theorem ids_ownedRemote : (input.ownedRemote topic).map RemoteWebhookSubscription.id =
    (input.ownedNodes topic).map SubscriptionNode.id := by
  rw [SyncInput.ownedRemote, group, SyncInput.backendRemote, SyncInput.ownedNodes]
  induction input.remote.nodes with
  | nil => rfl
  | cons n nodes ih =>
    cases hc : n.callbackUrl with
    | none => simpa [readSubscription, SyncInput.owns, hc] using ih
    | some url =>
      by_cases hu : url = input.callbackUrl <;> by_cases ht : topicOfNode n.topic = topic <;>
        simpa [readSubscription, SyncInput.owns, hc, hu, ht] using ih

theorem ownedRemote_eq_nil : input.ownedRemote topic = [] ↔ input.ownedNodes topic = [] := by
  rw [← List.map_eq_nil_iff (f := RemoteWebhookSubscription.id), ids_ownedRemote,
    List.map_eq_nil_iff]

theorem node_unique {n n' : SubscriptionNode} (hn : n ∈ input.remote.nodes)
    (hn' : n' ∈ input.remote.nodes) (h : n.id = n'.id) : n = n' :=
  Keyed.inj input.remote.nodup hn hn' h

theorem topic_unique {u : String} {n : SubscriptionNode} (h : input.owns topic n = true)
    (h' : input.owns u n = true) : topic = u :=
  (owns_iff.mp h).2.symm.trans (owns_iff.mp h').2

theorem mem_or_created (inv : SyncInv input s) {n : SubscriptionNode} (hn : n ∈ s.nodes) :
    n ∈ input.remote.nodes ∨ ∃ t, n.id = input.remote.newId t ∧
      n.callbackUrl = some input.callbackUrl := by
  rcases inv.origin n hn with hn | ⟨definition, -, -, -, rfl⟩
  · exact .inl hn
  · exact .inr ⟨definition.topic, rfl, rfl⟩

theorem newId_ne {t : String} {n : SubscriptionNode} (hn : n ∈ input.remote.nodes) :
    n.id ≠ input.remote.newId t :=
  fun h => input.remote.fresh t (h ▸ List.mem_map_of_mem hn)

theorem part_of_initial {n : SubscriptionNode} (hn : n ∈ input.remote.nodes) :
    input.isPartOf topic n = input.owns topic n := by
  have hmem : (input.remote.nodes.map SubscriptionNode.id).contains n.id = true :=
    List.contains_iff_mem.mpr (List.mem_map_of_mem hn)
  rw [SyncInput.isPartOf, hmem, beq_eq_false_iff_ne.mpr (newId_ne hn), Bool.false_or, Bool.true_and]

theorem localRow_toList :
    input.rows.filter (fun row => row.topic == topic) = (input.localRow topic).toList :=
  input.keyed.filter_eq_toList_find? topic

end Basics

section Writes

variable {input} {topic : String} {s s' : SyncState}

theorem touches_report (s : SyncState) (report : SyncReport) :
    Touches input topic s { s with report } :=
  fun h => ⟨⟨h.origin, h.foreign, h.about⟩, fun _ _ => rfl⟩

theorem upsert_nodes (w : RowWrite) :
    (upsertLocalSubscriptionRow input s topic w).nodes = s.nodes ∧
      (upsertLocalSubscriptionRow input s topic w).calls = s.calls := by
  rw [upsertLocalSubscriptionRow]
  split <;> exact ⟨rfl, rfl⟩

theorem upsert_rows_of_ne (w : RowWrite) {u : String} (hu : u ≠ topic) :
    (upsertLocalSubscriptionRow input s topic w).rows.filter (fun row => row.topic == u) =
      s.rows.filter fun row => row.topic == u := by
  rw [upsertLocalSubscriptionRow]
  split
  · simp [List.filter_append, Ne.symm hu]
  · have hno : ∀ row : WebhookSubscription, row.topic == topic → (row.topic == u) = false := by
      intro row hrow
      rw [beq_iff_eq.mp hrow]
      exact beq_eq_false_iff_ne.mpr (Ne.symm hu)
    rw [filter_updateWhere fun row _ hrow => ?_]
    · exact updateWhere_of_forall_not fun row hrow => by
        by_contra hp
        have := hno row (by simpa using hp)
        simp [(List.mem_filter.mp hrow).2] at this
    · rw [hno row hrow]
      exact beq_eq_false_iff_ne.mpr (Ne.symm hu)

theorem upsert_touches (w : RowWrite) :
    Touches input topic s (upsertLocalSubscriptionRow input s topic w) := by
  obtain ⟨hnodes, hcalls⟩ := @upsert_nodes input topic s w
  refine fun h => ⟨⟨hnodes ▸ h.origin, hnodes ▸ h.foreign, hcalls ▸ h.about⟩, fun u hu => ?_⟩
  rw [SyncState.view, SyncState.view, hnodes, hcalls, upsert_rows_of_ne w hu]

theorem upsert_rows (w : RowWrite)
    (h : s.rows.filter (fun row => row.topic == topic) = (input.localRow topic).toList) :
    ∃ fallback, (upsertLocalSubscriptionRow input s topic w).rows.filter
      (fun row => row.topic == topic) = [writtenRow input topic w fallback] := by
  rw [upsertLocalSubscriptionRow]
  split
  · rename_i hnone
    rw [hnone] at h
    exact ⟨none, by simp [h]⟩
  · rename_i row hrow
    rw [hrow] at h
    refine ⟨some row.payloadFormat, ?_⟩
    rw [filter_updateWhere fun row _ hrow => ?_, h]
    · have hmem : row ∈ s.rows.filter fun row => row.topic == topic := by
        rw [h]
        exact List.mem_singleton_self row
      have ht : row.topic = topic := by simpa using (List.mem_filter.mp hmem).2
      simp [updateWhere, ht]
    · exact (beq_self_eq_true topic).trans hrow.symm

theorem owned_of_id (inv : SyncInv input s) {n n₀ : SubscriptionNode} (hn : n ∈ s.nodes)
    (hn₀ : n₀ ∈ input.ownedNodes topic) (hid : n.id = n₀.id) : n = n₀ := by
  obtain ⟨hn₀, -⟩ := mem_ownedNodes.mp hn₀
  rcases mem_or_created inv hn with hn | ⟨t, ht, -⟩
  · exact node_unique hn hn₀ hid
  · exact absurd (hid.symm.trans ht) (newId_ne hn₀)

theorem about_unique {m : Mutation} {u : String} (h : input.isAbout topic m = true)
    (h' : input.isAbout u m = true) : topic = u := by
  cases m with
  | create t => exact (beq_iff_eq.mp h).symm.trans (beq_iff_eq.mp h')
  | delete id =>
    obtain ⟨n, hn, hid⟩ := List.any_eq_true.mp h
    obtain ⟨n', hn', hid'⟩ := List.any_eq_true.mp h'
    obtain ⟨hn, ho⟩ := mem_ownedNodes.mp hn
    obtain ⟨hn', ho'⟩ := mem_ownedNodes.mp hn'
    obtain rfl := node_unique hn hn' ((beq_iff_eq.mp hid).trans (beq_iff_eq.mp hid').symm)
    exact topic_unique ho ho'

theorem called_touches {m : Mutation} (hm : input.isAbout topic m = true) :
    Touches input topic s { s with calls := s.calls ++ [m] } := by
  refine fun h => ⟨⟨h.origin, h.foreign, fun m' hm' => ?_⟩, fun u hu => ?_⟩
  · rcases List.mem_append.mp hm' with hm' | hm'
    · exact h.about m' hm'
    · exact ⟨topic, List.mem_singleton.mp hm' ▸ hm⟩
  · have hno : input.isAbout u m = false := by
      by_contra hyes
      exact hu (about_unique hm (by simpa using hyes)).symm
    simp [SyncState.view, hno]

/-- Taking an owned subscription away. -/
theorem dropped_touches {n₀ : SubscriptionNode} (hn₀ : n₀ ∈ input.ownedNodes topic) :
    Touches input topic s { s with nodes := s.nodes.filter fun n => n.id ≠ n₀.id } := by
  refine fun h => ⟨⟨fun n hn => h.origin n (List.mem_filter.mp hn).1, ?_, h.about⟩, fun u hu => ?_⟩
  · rw [← h.foreign, List.filter_filter]
    refine List.filter_congr fun n hn => ?_
    by_cases hid : n.id = n₀.id
    · obtain rfl := owned_of_id h hn hn₀ hid
      simp [(owns_iff.mp (mem_ownedNodes.mp hn₀).2).1]
    · simp [hid]
  · have hnodes : (s.nodes.filter fun n => n.id ≠ n₀.id).filter (input.isPartOf u) =
        s.nodes.filter (input.isPartOf u) := by
      rw [List.filter_filter]
      refine List.filter_congr fun n hn => ?_
      by_cases hid : n.id = n₀.id
      · obtain rfl := owned_of_id h hn hn₀ hid
        obtain ⟨hmem, howns⟩ := mem_ownedNodes.mp hn₀
        have hno : input.owns u n = false := by
          by_contra hyes
          exact hu (topic_unique howns (by simpa using hyes)).symm
        simp [SyncInput.isPartOf, newId_ne hmem, hno]
      · simp [hid]
    simp only [SyncState.view, hnodes]

/-- Adding the subscription of a definition. -/
theorem added_touches {definition : WebhookDefinition} (hd : input.Wanted definition)
    (hnone : input.ownedNodes definition.topic = [])
    (hok : input.remote.fails (.create definition.topic) = none) :
    Touches input definition.topic s
      { s with nodes := s.nodes ++ [input.createdNode definition] } := by
  refine fun h => ⟨⟨fun n hn => ?_, ?_, h.about⟩, fun u hu => ?_⟩
  · rcases List.mem_append.mp hn with hn | hn
    · exact h.origin n hn
    · exact .inr ⟨definition, hd, hnone, hok, List.mem_singleton.mp hn⟩
  · rw [← h.foreign]
    simp [SyncInput.createdNode]
  · have hid : (input.createdNode definition).id ≠ input.remote.newId u :=
      fun he => hu (input.remote.injective he).symm
    have hfresh : (input.createdNode definition).id ∉
        input.remote.nodes.map SubscriptionNode.id := input.remote.fresh definition.topic
    have hno : input.isPartOf u (input.createdNode definition) = false := by
      rw [SyncInput.isPartOf, beq_eq_false_iff_ne.mpr hid, Bool.false_or, Bool.and_eq_false_imp]
      intro hc
      exact absurd (List.contains_iff_mem.mp hc) hfresh
    simp [SyncState.view, hno]

/-- The deletion of owned subscriptions: all of them, or up to one that fails. -/
theorem deleteRemoteSubscriptions_spec {ns : List SubscriptionNode}
    (hns : ∀ n ∈ ns, n ∈ input.ownedNodes topic) :
    let r := deleteRemoteSubscriptions input (ns.map SubscriptionNode.id) s
    Touches input topic s r.1 ∧ r.1.rows = s.rows ∧
      (r.2 = none → (∀ n ∈ ns, input.remote.fails (.delete n.id) = none) ∧
        r.1.nodes = s.nodes.filter (fun n => n.id ∉ ns.map SubscriptionNode.id) ∧
        r.1.calls = s.calls ++ ns.map fun n => .delete n.id) ∧
      ∀ e, r.2 = some e → ∃ n ∈ ns, input.remote.fails (.delete n.id) = some e ∧
        .delete n.id ∈ r.1.calls := by
  induction ns generalizing s with
  | nil => exact ⟨.refl s, rfl, fun _ => ⟨by simp, by simp [deleteRemoteSubscriptions],
      by simp [deleteRemoteSubscriptions]⟩, by simp [deleteRemoteSubscriptions]⟩
  | cons n ns ih =>
    have hn := hns n List.mem_cons_self
    have hrest := fun m hm => hns m (List.mem_cons_of_mem n hm)
    have habout : input.isAbout topic (.delete n.id) = true :=
      List.any_eq_true.mpr ⟨n, hn, beq_self_eq_true _⟩
    intro r
    cases hfail : input.remote.fails (.delete n.id) with
    | some e =>
      have hr : r = ({ s with calls := s.calls ++ [.delete n.id] }, some e) := by
        simp only [r, List.map_cons, deleteRemoteSubscriptions, hfail]
      rw [hr]
      refine ⟨called_touches habout, rfl, nofun, fun e' he => ?_⟩
      cases he
      exact ⟨n, List.mem_cons_self, hfail, List.mem_append_right _ (List.mem_singleton_self _)⟩
    | none =>
      have hr : r = deleteRemoteSubscriptions input (ns.map SubscriptionNode.id)
          { s with
            calls := s.calls ++ [.delete n.id]
            nodes := s.nodes.filter fun m => m.id ≠ n.id } := by
        simp only [r, List.map_cons, deleteRemoteSubscriptions, hfail]
      obtain ⟨htouch, hrows, hdone, hfailed⟩ := ih hrest
      rw [hr]
      refine ⟨((dropped_touches hn).trans (called_touches habout)).trans htouch, hrows,
        fun he => ?_, fun e he => ?_⟩
      · obtain ⟨hnone, hnodes, hcalls⟩ := hdone he
        refine ⟨?_, ?_, ?_⟩
        · rintro m hm
          rcases List.mem_cons.mp hm with rfl | hm
          · exact hfail
          · exact hnone m hm
        · rw [hnodes, List.filter_filter]
          refine List.filter_congr fun m _ => ?_
          rw [Bool.eq_iff_iff]
          simp only [List.map_cons, List.mem_cons, not_or, Bool.and_eq_true, decide_eq_true_eq]
          exact and_comm
        · rw [hcalls, List.append_assoc, List.map_cons, List.singleton_append]
      · obtain ⟨m, hm, hme, hcalled⟩ := hfailed e he
        exact ⟨m, List.mem_cons_of_mem n hm, hme, hcalled⟩

end Writes

end BeyoManager.Shopify
