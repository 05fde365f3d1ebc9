import BeyoManager.Shopify.ProductSyncStages

/-! # Deliveries of the product sync that may die

Rows are enqueued and the task is delivered, any number of times, and every delivery may die at
every question. Whatever happens, a stage that is committed is never performed again, an item has
succeeded only when everything it asks for is confirmed, and all requests that set its quantities
are one request.
-/

namespace BeyoManager.Shopify.ProductSync

open Interaction PyText Relational Transition

section Conversion

variable {entries : List InventoryEntry} {e : InventoryEntry}

def IsValidEntry (e : InventoryEntry) : Prop :=
  readEntry (.str e.locationId) (.int e.quantity) = some e

theorem isValidEntry_of_readEntry {locationId quantity : Json}
    (h : readEntry locationId quantity = some e) : IsValidEntry e := by
  unfold readEntry at h
  split at h
  · next locationId quantity =>
    split_ifs at h with hvalid
    obtain rfl := Option.some.inj h
    exact if_pos hvalid
  · cases h

/-- Validated entries are valid, each for a location of its own. -/
theorem valid_of_validate {l : List Json} {acc : List InventoryEntry}
    (h : l.foldlM validateEntry acc = .ok entries)
    (hacc : (∀ e ∈ acc, IsValidEntry e) ∧ (acc.map InventoryEntry.locationId).Nodup) :
    (∀ e ∈ entries, IsValidEntry e) ∧ (entries.map InventoryEntry.locationId).Nodup := by
  refine Transition.foldlM_invariant (fun acc => (∀ e ∈ acc, IsValidEntry e) ∧
    (acc.map InventoryEntry.locationId).Nodup) ?_ hacc h
  rintro acc entry - acc' ⟨hvalid, hnodup⟩ hpass
  cases entry with
  | obj fields =>
    rw [validateEntry] at hpass
    obtain ⟨e, he, hpass⟩ := bind_eq_ok.mp hpass
    obtain ⟨hfresh, hpass⟩ := throwIf_bind_eq_ok.mp hpass
    obtain rfl := Except.ok.inj hpass
    constructor
    · intro e' he'
      rcases List.mem_append.mp he' with he' | he'
      · exact hvalid e' he'
      · rw [List.mem_singleton.mp he']
        exact isValidEntry_of_readEntry (getOr_eq_ok.mp he)
    · rw [List.map_append, List.nodup_append]
      refine ⟨hnodup, List.nodup_singleton _, ?_⟩
      rintro a ha b hb rfl
      rw [List.map_singleton, List.mem_singleton] at hb
      exact hfresh (List.mem_map.mp (hb ▸ ha))
  | null | bool | int | float | str | arr => cases hpass

theorem validateEntry_toJson {acc : List InventoryEntry} (he : IsValidEntry e)
    (hfresh : e.locationId ∉ acc.map InventoryEntry.locationId) :
    validateEntry acc e.toJson = .ok (acc ++ [e]) := by
  have hlocation : getField [(ofString "location_id", .str e.locationId),
      (ofString "quantity", .int e.quantity)] "location_id" = .str e.locationId := rfl
  have hquantity : getField [(ofString "location_id", .str e.locationId),
      (ofString "quantity", .int e.quantity)] "quantity" = .int e.quantity := rfl
  rw [InventoryEntry.toJson, validateEntry, hlocation, hquantity, he]
  exact throwIf_bind_eq_ok.mpr ⟨fun h => hfresh (List.mem_map.mpr h), rfl⟩

theorem validate_toJson {acc : List InventoryEntry} (hvalid : ∀ e ∈ entries, IsValidEntry e)
    (hnodup : ((acc ++ entries).map InventoryEntry.locationId).Nodup) :
    (entries.map InventoryEntry.toJson).foldlM validateEntry acc = .ok (acc ++ entries) := by
  induction entries generalizing acc with
  | nil => rw [List.append_nil]; rfl
  | cons e entries ih =>
    have hfresh : e.locationId ∉ acc.map InventoryEntry.locationId := by
      intro hmem
      rw [List.map_append, List.map_cons, List.nodup_append] at hnodup
      exact hnodup.2.2 _ hmem _ List.mem_cons_self rfl
    rw [List.map_cons, List.foldlM_cons,
      validateEntry_toJson (hvalid e List.mem_cons_self) hfresh]
    rw [List.append_cons] at hnodup
    rw [List.append_cons acc e entries]
    exact ih (fun e he => hvalid e (List.mem_cons_of_mem _ he)) hnodup

theorem resolve_canonicalInventory {value : Json}
    (h : validateAbsoluteInventoryEntries value = .ok entries) :
    resolveAbsoluteInventoryEntries (canonicalInventory entries) = .ok (entries, false) := by
  cases value with
  | arr l =>
    obtain ⟨hvalid, hnodup⟩ := valid_of_validate h ⟨nofun, List.nodup_nil⟩
    have hentries : validateAbsoluteInventoryEntries (.arr (entries.map InventoryEntry.toJson)) =
        .ok ([] ++ entries) := validate_toJson hvalid hnodup
    have hquantities : getField [(ofString "quantities", .arr (entries.map InventoryEntry.toJson))]
        "quantities" = .arr (entries.map InventoryEntry.toJson) := rfl
    have hadjustments : getField [(ofString "quantities", .arr (entries.map InventoryEntry.toJson))]
        "adjustments" = .null := rfl
    rw [canonicalInventory, resolveAbsoluteInventoryEntries, hquantities, hadjustments]
    refine throwIf_bind_eq_ok.mpr ⟨fun h => absurd h.2 (by decide), ?_⟩
    exact bind_eq_ok.mpr ⟨_, hentries, rfl⟩
  | null | bool | int | float | str | obj => cases h

theorem validate_of_resolve_converted {value : Json}
    (h : resolveAbsoluteInventoryEntries value = .ok (entries, true)) :
    ∃ converted, validateAbsoluteInventoryEntries converted = .ok entries := by
  cases value with
  | obj fields =>
    rw [resolveAbsoluteInventoryEntries] at h
    obtain ⟨-, h⟩ := throwIf_bind_eq_ok.mp h
    split at h
    · cases h
    · obtain ⟨converted, -, h⟩ := bind_eq_ok.mp h
      obtain ⟨entries', hentries, h⟩ := bind_eq_ok.mp h
      obtain ⟨rfl, -⟩ := Prod.mk.inj (Except.ok.inj h)
      exact ⟨converted, hentries⟩
    · obtain ⟨entries', -, h⟩ := bind_eq_ok.mp h
      cases h
  | null | bool | int | float | str | arr => cases h

theorem entriesOf_withResolved {row row' : SyncItem} {resolved : List InventoryEntry × Bool}
    (h : resolveAbsoluteInventoryEntries row.normalizedPayload.inventory = .ok resolved)
    (hrow' : row'.normalizedPayload = row.normalizedPayload.withResolved resolved) :
    entriesOf row' = resolved.1 ∧ entriesOf row = resolved.1 := by
  obtain ⟨entries, converted⟩ := resolved
  have hrow : entriesOf row = entries := by rw [entriesOf, h]
  refine ⟨?_, hrow⟩
  cases converted with
  | false =>
    rw [entriesOf, hrow', Payload.withResolved, if_neg (by simp), h]
  | true =>
    obtain ⟨converted, hconverted⟩ := validate_of_resolve_converted h
    rw [entriesOf, hrow', Payload.withResolved, if_pos rfl, resolve_canonicalInventory hconverted]

end Conversion

section Item

variable {i : ItemId} {others : ItemId → Option SyncItem} {payload : Payload}
  {stored row : SyncItem} {w : World}

/-- What is left when the sync of an item throws. -/
def Lost (i : ItemId) (others : ItemId → Option SyncItem) (_ : Failure) (row : SyncItem)
    (w : World) : Prop := row.clientId = i ∧ ∃ stored, Held i others stored w

theorem Fails.lost {e : Failure} (h : Fails i others payload e row w) : Lost i others e row w :=
  ⟨h.id, h.held⟩

theorem wp_productStage (h : Linked i others payload row row w) (env : Environment) :
    Routine.wp setting Safe (Fails i others payload)
      (fun found row' w' => Linked i others payload row' row' w' ∧ row'.stage ≠ .queued ∧
        (row'.shopifyInventoryItemId = none → matchInventoryItemId found = none))
      (productStage env payload) row w := by
  rw [productStage, Routine.wp_bind, Routine.wp_get]
  cases hstage : row.stage with
  | queued =>
    refine Routine.wp_mono (wp_createProduct h hstage env) ?_ fun _ _ _ h => h
    rintro found row' w' ⟨h', hstage', hfound⟩
    exact ⟨h', by rw [hstage']; nofun, hfound⟩
  | productCreated | variantConfigured | inventorySet =>
    exact ⟨h, by rw [hstage]; nofun, fun _ => rfl⟩

theorem wp_variantStage (h : Linked i others payload row row w) (hqueued : row.stage ≠ .queued) :
    Routine.wp setting Safe (Fails i others payload)
      (fun _ row' w' => Linked i others payload row' row' w' ∧ 2 ≤ row'.stage.order ∧
        (row'.shopifyInventoryItemId = none → row.shopifyInventoryItemId = none))
      (variantStage payload) row w := by
  rw [variantStage, Routine.wp_bind, Routine.wp_get]
  cases hstage : row.stage with
  | queued => exact absurd hstage hqueued
  | productCreated =>
    refine Routine.wp_mono (wp_configureVariant h hstage) ?_ fun _ _ _ h => h
    rintro _ row' w' ⟨h', hstage', hid⟩
    exact ⟨h', by rw [hstage']; rfl, hid⟩
  | variantConfigured | inventorySet => exact ⟨h, by rw [hstage]; decide, fun h => h⟩

theorem wp_inventoryStage (h : Linked i others payload row row w) (htwo : 2 ≤ row.stage.order)
    {found : Option VariantMatch}
    (hfound : row.shopifyInventoryItemId = none → matchInventoryItemId found = none) (shop : Shop) :
    Routine.wp setting Safe (Fails i others payload)
      (fun _ row' w' => Linked i others payload row' row' w' ∧ row'.stage = .inventorySet)
      (inventoryStage shop found (entriesOf row)) row w := by
  rw [inventoryStage, Routine.wp_bind, Routine.wp_get]
  cases hstage : row.stage with
  | queued | productCreated =>
    rw [hstage] at htwo
    exact absurd htwo (by decide)
  | variantConfigured => exact wp_setInventory h hstage hfound shop
  | inventorySet => exact ⟨h, hstage⟩

/-- Every stage, and then the success. -/
theorem wp_runStages (h : Linked i others payload row row w) (env : Environment) (shop : Shop) :
    Routine.wp setting Safe (Fails i others payload)
      (fun _ row' w' => Held i others row' w')
      (runStages env shop payload (entriesOf row)) row w := by
  have hentries : ∀ row' w', Linked i others payload row' row' w' → entriesOf row =
    entriesOf row' := by
    intro row' w' h'
    rw [entriesOf, entriesOf, h.payload, h'.payload]
  rw [runStages, Routine.wp_bind]
  refine Routine.wp_mono (wp_productStage h env) ?_ fun _ _ _ h => h
  rintro found row₁ w₁ ⟨h₁, hqueued, hfound⟩
  rw [Routine.wp_bind]
  refine Routine.wp_mono (wp_variantStage h₁ hqueued) ?_ fun _ _ _ h => h
  rintro _ row₂ w₂ ⟨h₂, htwo, hid⟩
  rw [Routine.wp_bind, hentries row₂ w₂ h₂]
  refine Routine.wp_mono (wp_inventoryStage h₂ htwo (fun h => hfound (hid h)) shop) ?_
    fun _ _ _ h => h
  rintro _ row₃ w₃ ⟨h₃, hstage⟩
  rw [Routine.wp_bind]
  refine Routine.wp_mono (wp_metafieldsStage h₃ hstage) ?_ fun _ _ _ h => h
  rintro _ _ w₄ ⟨rfl, h₄, variantId, events, batches, hvariant, hevents, hbatches, hsub⟩
  rw [Routine.wp_bind, Routine.wp_modify]
  have hsame : Continues row₃
      { row₃ with status := .succeeded, errorCode := none, errorMessage := none } :=
    ⟨.of_payload rfl rfl, rfl, rfl, rfl, rfl⟩
  refine Routine.wp_mono (wp_commit h₄.held hsame.advances ⟨fun hq => ?_, fun _ => ?_, ?_⟩) ?_
    fun _ _ _ h => h
  · exact (h₄.backed.performed hq).congr hsame.request rfl rfl rfl
  · exact ⟨hstage, variantId, events, batches, hvariant,
      hevents.congr hsame.request rfl fun _ => rfl, hbatches, hsub⟩
  · exact h₄.backed.clean
  · rintro _ _ _ ⟨rfl, held, -⟩
    exact held

theorem wp_commit_continues (held : Held i others stored w) (h : Continues stored row)
    (hstatus : row.status ≠ .succeeded) :
    Routine.wp setting Safe (Lost i others) (fun _ row' w' => row = row' ∧ Held i others row' w')
      commit row w := by
  refine Routine.wp_mono (@wp_commit _ _ row.normalizedPayload _ _ _ held h.advances
    (h.backed held.backed hstatus)) ?_ fun _ _ _ h => h.lost
  rintro _ _ _ ⟨rfl, held, -⟩
  exact ⟨rfl, held⟩

theorem Continues.failedWith (h : Continues stored row) (errorCode message : String) :
    Continues stored (row.failedWith errorCode message) := by
  obtain ⟨hrequest, hstage, hproduct, hvariant, hinventory⟩ := h
  exact ⟨hrequest.trans (.of_payload rfl rfl), hstage, hproduct, hvariant, hinventory⟩

theorem wp_recordFailure {e : Failure} (h : Fails i others payload e row w) :
    Routine.wp setting Safe (Lost i others) (fun _ row' w' => Held i others row' w')
      (recordFailure e) row w := by
  have hcaught : ∀ errorCode message, (∀ message, e ≠ .other message) →
      Routine.wp setting Safe (Lost i others) (fun _ row' w' => Held i others row' w')
        commit (row.failedWith errorCode message) w := by
    intro errorCode message hne
    obtain ⟨stored, held, hcontinues, -, -⟩ := h.linked hne
    refine Routine.wp_mono (wp_commit_continues held (hcontinues.failedWith _ _) nofun) ?_
      fun _ _ _ h => h
    rintro _ _ _ ⟨rfl, held⟩
    exact held
  cases e with
  | nonRetryable errorCode message =>
    rw [recordFailure, Routine.wp_bind, Routine.wp_modify]
    exact hcaught _ _ nofun
  | ambiguous errorCode message =>
    rw [recordFailure, Routine.wp_bind, Routine.wp_modify]
    exact hcaught _ _ nofun
  | retryable errorCode message => exact h.lost
  | other message => exact h.lost

theorem continues_processing {resolved : List InventoryEntry × Bool}
    (h : resolveAbsoluteInventoryEntries row.normalizedPayload.inventory = .ok resolved) :
    entriesOf (row.processing (row.normalizedPayload.withResolved resolved)) = resolved.1 ∧
      Continues row (row.processing (row.normalizedPayload.withResolved resolved)) := by
  have hentries := @entriesOf_withResolved row
    (row.processing (row.normalizedPayload.withResolved resolved)) resolved h rfl
  refine ⟨hentries.1, ⟨rfl, ?_, ?_, ?_, ?_, ?_, hentries.1.trans hentries.2.symm⟩, rfl, rfl, rfl,
    rfl⟩
  all_goals
    rw [SyncItem.processing, Payload.withResolved]
    split_ifs <;> rfl

theorem wp_syncOneProductSyncItem (h : Held i others row w) (env : Environment) (shop : Shop) :
    Routine.wp setting Safe (Lost i others) (fun _ row' w' => Held i others row' w')
      (syncOneProductSyncItem env shop) row w := by
  rw [syncOneProductSyncItem, Routine.wp_bind, Routine.wp_get, Routine.wp_bind, wp_raising]
  refine ⟨fun e _ => ⟨h.id, row, h⟩, fun resolved hresolved => ?_⟩
  obtain ⟨hentries, hsame⟩ := continues_processing hresolved
  have hcommit := wp_commit_continues h hsame nofun
  rw [Routine.wp_bind, Routine.wp_modify, Routine.wp_bind]
  refine Routine.wp_mono hcommit ?_ fun _ _ _ h => h
  rintro _ _ w' ⟨rfl, held⟩
  rw [Routine.wp_tryCatch, ← hentries]
  exact Routine.wp_mono (wp_runStages (held.linked nofun rfl) env shop) (fun _ _ _ h => h)
    fun e row' w' h => wp_recordFailure h

theorem wp_recordUnexpected {e : Failure} (h : Lost i others e row w) :
    Routine.wp setting Safe (Lost i others) (fun _ row' w' => Held i others row' w')
      (recordUnexpected e) row w := by
  obtain ⟨rfl, stored, held⟩ := h
  have hrollback : Routine.wp setting Safe (Lost row.clientId others)
      (fun _ row' w' => Held row.clientId others row' w') rollback row w := by
    rw [rollback, Routine.wp_bind, Routine.wp_get, Routine.wp_bind]
    refine (Routine.wp_ask (q := Question.reload row.clientId)).mpr ⟨?_, ?_⟩
    · rintro w' rfl
      exact held.safe
    · rintro reloaded w' ⟨rfl, hreloaded⟩
      obtain rfl : stored = reloaded := Option.some.inj (held.here.symm.trans hreloaded)
      exact held
  unfold recordUnexpected
  rw [Routine.wp_bind]
  refine Routine.wp_mono hrollback ?_ fun _ _ _ h => h
  intro _ row' w' held'
  have hother : Routine.wp setting Safe (Lost row.clientId others)
      (fun _ row' w' => Held row.clientId others row' w')
      (do
        modify fun row : SyncItem => row.failedWith "unexpected_error" (truncated e.message)
        commit) row' w' := by
    rw [Routine.wp_bind, Routine.wp_modify]
    refine Routine.wp_mono (wp_commit_continues held' ((Continues.refl row').failedWith _ _) nofun)
      ?_ fun _ _ _ h => h
    rintro _ _ _ ⟨rfl, held⟩
    exact held
  cases e with
  | retryable errorCode message => exact ⟨held'.id, row', held'⟩
  | nonRetryable errorCode message => exact hother
  | ambiguous errorCode message => exact hother
  | other message => exact hother

theorem wp_processItem (h : Held i others row w) (env : Environment) (shops : List Shop) :
    Routine.wp setting Safe (Lost i others) (fun _ row' w' => Held i others row' w')
      (processItem env shops) row w := by
  have hreject : ∀ errorCode message, Routine.wp setting Safe (Lost i others)
      (fun _ row' w' => Held i others row' w') (rejectItem errorCode message) row w := by
    intro errorCode message
    rw [rejectItem, Routine.wp_bind, Routine.wp_modify]
    refine Routine.wp_mono (wp_commit_continues h
      ((Continues.refl row).failedWith errorCode message) nofun) ?_ fun _ _ _ h => h
    rintro _ _ _ ⟨rfl, held⟩
    exact held
  rw [processItem, Routine.wp_bind, Routine.wp_get]
  split
  · exact hreject _ _
  · split
    · exact hreject _ _
    · rw [Routine.wp_tryCatch]
      exact Routine.wp_mono (wp_syncOneProductSyncItem h env _) (fun _ _ _ h => h)
        fun e row' w' h => wp_recordUnexpected h

end Item

section Delivery

variable {w : World}

def InSession (rows : List SyncItem) (w : World) : Prop :=
  Safe w ∧ ∀ row ∈ rows, w.stored row.clientId = some row

theorem wp_processId {rows : List SyncItem} (h : InSession rows w) (env : Environment)
    (shops : List Shop) (id : ItemId) :
    Routine.wp setting Safe (fun _ _ => Safe) (fun _ => InSession)
      (processId env shops id) rows w := by
  rw [processId, Routine.wp_bind, Routine.wp_get]
  split
  · exact h
  · next row hfind =>
    have hrow : row ∈ rows := List.mem_of_find?_eq_some hfind
    rw [Routine.wp_within]
    have held : Held row.clientId w.stored row w :=
      ⟨h.1, h.2 row hrow, fun _ _ => rfl, rfl⟩
    refine Routine.wp_mono (wp_processItem held env shops) ?_ ?_
    · rintro _ row' w' held'
      refine ⟨held'.safe, fun r hr => ?_⟩
      obtain ⟨r₀, hr₀, rfl⟩ := mem_updateWhere.mp hr
      split_ifs with hid
      · rw [held'.id]
        exact held'.here
      · rw [held'.id, decide_eq_true_eq] at hid
        rw [held'.others _ hid]
        exact h.2 r₀ hr₀
    · rintro e row' w' ⟨-, stored, held'⟩
      exact held'.safe

/-- A delivery keeps the log of every item legal, to its end or to its death. -/
theorem wp_handleShopifyProcessProducts (h : Safe w) (env : Environment) (workspaceId : PyStr)
    (ids : List ItemId) :
    Routine.wp setting Safe (fun _ _ => Safe) (fun _ _ => Safe)
      (handleShopifyProcessProducts env workspaceId ids) [] w := by
  rw [handleShopifyProcessProducts, Routine.wp_bind]
  refine (Routine.wp_ask (q := Question.rows workspaceId ids)).mpr ⟨?_, ?_⟩
  · rintro w' rfl
    exact h
  rintro rows w' ⟨rfl, -, hrows⟩
  have hsession : InSession rows w' := ⟨h, fun row hrow => ((hrows row).mp hrow).2.2⟩
  rw [Routine.wp_bind, Routine.wp_set, Routine.wp_bind, wp_raising]
  refine ⟨fun _ _ => h, fun _ _ => ?_⟩
  rw [Routine.wp_bind]
  refine (Routine.wp_ask (q := Question.shops _)).mpr ⟨?_, ?_⟩
  · rintro w'' rfl
    exact h
  rintro shops w'' rfl
  refine Routine.wp_mono (Routine.wp_forM (I := fun _ => InSession) ?_ hsession)
    (fun _ _ _ h => h.1) fun _ _ _ h => h
  intro id _ _ rows w h
  exact wp_processId h env _ id

theorem Safe.empty : Safe ⟨fun _ => none, []⟩ := by
  constructor
  · intro i before e after h
    simp [World.trail] at h
  · intro i
    rfl

theorem IsEnqueued.backed {before : List Event} {row : SyncItem} (h : IsEnqueued row) :
    Backed before row := by
  obtain ⟨hstatus, hstage, -, -, -, hid, -⟩ := h
  refine ⟨fun hq => absurd hstage hq, fun hs => ?_, by rw [hid]; rfl⟩
  rw [hstatus] at hs
  cases hs

theorem Reached.safe (h : Reached w) : Safe w := by
  refine Reaches.invariant ?_ ?_ h Safe.empty
  · intro d w hw
    refine Program.wp_mono (wp_handleShopifyProcessProducts hw d.env d.workspaceId _) ?_
    rintro ⟨_ | _, _⟩ w' hw'
    · exact hw'
    · exact hw'
  · rintro w _ ⟨row, henqueued, hnone, rfl⟩ hw
    refine hw.commit ⟨henqueued.backed, fun last hlast => ?_⟩
    rw [hw.stored, hnone] at hlast
    cases hlast

end Delivery

section Sample

def sampleEntry : InventoryEntry := ⟨ofString "gid://shopify/Location/1", 3⟩

def sampleLocation : Location := ⟨ofString "gid://shopify/Location/1", true, false⟩

def legacyInventory : Json :=
  .obj [(ofString "adjustments", .arr [.obj [(ofString "location_id",
    .str (ofString "gid://shopify/Location/1")), (ofString "quantity_to_add", .int 3)]])]

def sampleMetafield : Metafield :=
  ⟨ofString "wood", ofString "single_line_text_field", ofString "oak"⟩

def sampleItem : SyncItem :=
  ⟨[1], [2], [3], none, .pending, .queued, ofString "preorder_task",
    ⟨⟨ofString "Chair", none, ofString "UNLISTED", [], none⟩, ⟨some (ofString "73"), none, none⟩,
      some (.imageId [7]), none, legacyInventory, [sampleMetafield]⟩,
    none, none, none, none, none, none, none, none⟩

def sampleShop : Shop :=
  ⟨[3], ⟨false, .active, some "token", some ["read_locations", "write_inventory"]⟩⟩

def sampleReply : MutationReply := ⟨some [4], some [5], some [6], none, none⟩

def sampleQuantities : Mutation :=
  .setQuantities [6] [sampleEntry] (ofString "managerbeyo://inventory-set/" ++ [1])
    (ofString "shopify-inventory-set:" ++ [1])

def sampleDelivery : Delivery := ⟨⟨fun _ => true⟩, [2], [[1]]⟩

def sampleStart : World := World.commit ⟨fun _ => none, []⟩ sampleItem

theorem reached_sampleStart : Reached sampleStart :=
  .single (.inl ⟨sampleItem, ⟨rfl, rfl, rfl, rfl, rfl, rfl, rfl⟩, rfl, rfl⟩)

theorem answers_sampleRows {w : World} {row : SyncItem}
    (h : w.stored [1] = some row ∧ row.clientId = [1] ∧ row.workspaceId = [2]) :
    setting.answers w (.rows sampleDelivery.workspaceId sampleDelivery.syncItemClientIds) [row]
      w := by
  obtain ⟨hstored, hid, hworkspace⟩ := h
  refine ⟨rfl, List.nodup_singleton _, fun row' => ?_⟩
  rw [List.mem_singleton]
  constructor
  · rintro rfl
    exact ⟨hworkspace, List.mem_singleton.mpr hid, hid ▸ hstored⟩
  · rintro ⟨-, hid', hstored'⟩
    rw [List.mem_singleton.mp hid', hstored] at hstored'
    exact (Option.some.inj hstored').symm

/-- The log of an item with an inventory of an earlier release: its product is created, the reply
to the request that sets the quantities is lost and the request is sent again, the item succeeds,
and its metafields are sent once more. -/
structure SampleLog (log : List Event) : Prop where
  enqueued : log[0]? = some (.committed sampleItem)
  created : ∃ row, log[6]? = some (.committed row) ∧ row.clientId = [1] ∧
    row.stage = .productCreated
  lost : log[11]? = some (.sent [1] sampleQuantities)
  again : log[14]? = some (.sent [1] sampleQuantities)
  succeeded : ∃ row, log[20]? = some (.committed row) ∧ row.clientId = [1] ∧
    row.status = .succeeded ∧ row.normalizedPayload.metafields = [sampleMetafield]
  after : log[22]? = some (.sent [1] (.setMetafields (some [4]) [sampleMetafield]))

/-- Three deliveries: at the first the reply is lost, at the second all goes well, and at the third
the worker dies. -/
theorem sample_delivered : ∃ w, Reached w ∧ SampleLog w.log := by
  suffices h : ∃ a w₁ b w₂ w₃, sampleDelivery.program.Runs setting sampleStart (some a) w₁ ∧
      sampleDelivery.program.Runs setting w₁ (some b) w₂ ∧
      sampleDelivery.program.Runs setting w₂ none w₃ ∧ SampleLog w₃.log by
    obtain ⟨a, w₁, b, w₂, w₃, h₁, h₂, h₃, hlog⟩ := h
    exact ⟨w₃, ((reached_sampleStart.tail (.inr ⟨_, _, h₁⟩)).tail (.inr ⟨_, _, h₂⟩)).tail
      (.inr ⟨_, _, h₃⟩), hlog⟩
  iterate 5 apply Exists.intro
  apply And.intro
  · apply Program.Runs.goesOn
    · exact answers_sampleRows ⟨rfl, rfl, rfl⟩
    apply Program.Runs.goesOn (r := [sampleShop]) rfl
    apply Program.Runs.goesOn (r := .ok ()) rfl
    apply Program.Runs.goesOn (r := some ⟨false, ofString "https", []⟩) rfl
    apply Program.Runs.goesOn (r := .ok []) rfl
    apply Program.Runs.goesOn (r := .ok sampleReply) rfl
    apply Program.Runs.goesOn (r := .ok ()) rfl
    apply Program.Runs.goesOn (r := .ok sampleReply) rfl
    apply Program.Runs.goesOn (r := .ok ()) rfl
    apply Program.Runs.goesOn (r := .ok [sampleLocation]) rfl
    apply Program.Runs.goesOn (r := .ok ⟨true, true, 0⟩) rfl
    apply Program.Runs.goesOn (r := .ok ()) rfl
    apply Program.Runs.goesOn (r := .error (.retryable "timeout" "timeout")) rfl
    apply Program.Runs.goesOn
    · exact ⟨rfl, rfl⟩
    exact .done _ _
  apply And.intro
  · apply Program.Runs.goesOn
    · exact answers_sampleRows ⟨rfl, rfl, rfl⟩
    apply Program.Runs.goesOn (r := [sampleShop]) rfl
    apply Program.Runs.goesOn (r := .ok ()) rfl
    apply Program.Runs.goesOn (r := .ok [sampleLocation]) rfl
    apply Program.Runs.goesOn (r := .ok ⟨true, true, 0⟩) rfl
    apply Program.Runs.goesOn (r := .ok ()) rfl
    apply Program.Runs.goesOn (r := .ok sampleReply) rfl
    apply Program.Runs.goesOn (r := .ok ()) rfl
    apply Program.Runs.goesOn (r := .ok ()) rfl
    apply Program.Runs.goesOn (r := .ok sampleReply) rfl
    apply Program.Runs.goesOn (r := .ok ()) rfl
    exact .done _ _
  apply And.intro
  · apply Program.Runs.goesOn
    · exact answers_sampleRows ⟨rfl, rfl, rfl⟩
    apply Program.Runs.goesOn (r := [sampleShop]) rfl
    apply Program.Runs.goesOn (r := .ok ()) rfl
    exact .dies (.inr rfl)
  · exact ⟨rfl, ⟨_, rfl, rfl, rfl⟩, rfl, rfl, ⟨_, rfl, rfl, rfl, rfl⟩, rfl⟩

theorem split_of_getElem? {l : List Event} {n : ℕ} {e : Event} (h : l[n]? = some e) :
    l = l.take n ++ e :: l.drop (n + 1) := by
  obtain ⟨hn, rfl⟩ := List.getElem?_eq_some_iff.mp h
  rw [List.getElem_cons_drop, List.take_append_drop]

theorem mem_drop_of_getElem? {l : List Event} {n k : ℕ} {e : Event} (h : l[n + k]? = some e) :
    e ∈ l.drop n := List.mem_of_getElem? (List.getElem?_drop ▸ h)

end Sample

section Results

variable {w : World} {i : ItemId} {row row' row'' last : SyncItem}
  {t before after l l' : List Event}

theorem Advances.refl (row : SyncItem) : Advances row row :=
  ⟨.refl row, le_rfl, fun _ => rfl, fun _ => rfl⟩

theorem Advances.trans (h : Advances row row') (h' : Advances row' row'') : Advances row row'' :=
  ⟨h.request.trans h'.request, h.stage.trans h'.stage,
    fun hone => (h'.product (hone.trans h.stage)).trans (h.product hone),
    fun htwo => (h'.inventoryItem (htwo.trans h.stage)).trans (h.inventoryItem htwo)⟩

theorem Legal.of_append (h : Legal (l ++ l')) : Legal l := by
  rintro before e after rfl
  exact h before e (after ++ l') (by simp)

theorem Legal.advances (h : Legal (before ++ .committed row :: after)) :
    ∃ last ∈ lastRow (before ++ .committed row :: after), Advances row last := by
  induction after using List.reverseRecOn with
  | nil => exact ⟨row, lastRow_committed, .refl row⟩
  | append_singleton after e ih =>
    have hsplit : before ++ .committed row :: (after ++ [e]) =
        (before ++ .committed row :: after) ++ [e] := by simp
    rw [hsplit] at h ⊢
    obtain ⟨last, hlast, hadvances⟩ := ih h.of_append
    cases e with
    | committed row' =>
      exact ⟨row', lastRow_committed, hadvances.trans ((h _ _ [] rfl).2 last hlast)⟩
    | imageFound | variantsFound | sent | confirmed =>
      exact ⟨last, (lastRow_append_of_none rfl).trans hlast, hadvances⟩

theorem Legal.asks {mutation : Mutation} (h : Legal t) (hmem : .sent i mutation ∈ t) :
    ∃ row, .committed row ∈ t ∧ mutation.order = row.stage.order + 1 ∧ Asks row mutation ∧
      ∃ last ∈ lastRow t, Advances row last := by
  obtain ⟨before, after, rfl⟩ := List.append_of_mem hmem
  obtain ⟨row, hrow, horder, hasks⟩ := h before _ after rfl
  have hcommitted := committed_of_lastRow hrow
  refine ⟨row, List.mem_append_left _ hcommitted, horder, hasks, ?_⟩
  obtain ⟨before', after', rfl⟩ := List.append_of_mem hcommitted
  rw [List.append_assoc, List.cons_append] at h ⊢
  exact h.advances

theorem mem_trail {e : Event} : e ∈ w.trail i ↔ e ∈ w.log ∧ e.item = i := by
  simp [World.trail]

theorem trail_eq_of_log (h : w.log = l ++ .committed row :: l') : w.trail row.clientId =
    l.filter (fun e => e.item = row.clientId) ++ .committed row ::
      l'.filter (fun e => e.item = row.clientId) := by
  rw [World.trail, h, List.filter_append, List.filter_cons_of_pos (by simp [Event.item])]

theorem Safe.follows (h : Safe w) (hlog : w.log = l ++ .committed row :: l') {e : Event}
    (hmem : e ∈ l') (hitem : e.item = row.clientId) :
    ∃ before, Permitted before e ∧ ∃ last ∈ lastRow before, Advances row last := by
  have hlegal := h.legal row.clientId
  have hfiltered : e ∈ l'.filter fun e => e.item = row.clientId :=
    List.mem_filter.mpr ⟨hmem, decide_eq_true hitem⟩
  obtain ⟨mid, rest, hrest⟩ := List.append_of_mem hfiltered
  rw [trail_eq_of_log hlog, hrest, ← List.cons_append, ← List.append_assoc] at hlegal
  exact ⟨_, hlegal _ _ _ rfl, hlegal.of_append.advances⟩

/-- A stage that is committed is behind the item: later mutations belong to later stages, later
commits go no stage back, and the product stays. -/
theorem stages_committed_once (h : Reached w) (hlog : w.log = l ++ .committed row :: l') :
    (∀ mutation, .sent row.clientId mutation ∈ l' → row.stage.order < mutation.order) ∧
      ∀ row', .committed row' ∈ l' → row'.clientId = row.clientId →
        row.stage.order ≤ row'.stage.order ∧
          (row.stage ≠ .queued → row'.shopifyProductId = row.shopifyProductId) := by
  constructor
  · intro mutation hmem
    obtain ⟨before, ⟨last, hlast, horder, -⟩, last', hlast', hadvances⟩ :=
      h.safe.follows hlog hmem rfl
    obtain rfl : last' = last := Option.some.inj (hlast'.symm.trans hlast)
    have := hadvances.stage
    omega
  · intro row' hmem hid
    obtain ⟨before, ⟨-, hpermitted⟩, last, hlast, hadvances⟩ := h.safe.follows hlog hmem hid
    have hadvances' := hadvances.trans (hpermitted last hlast)
    refine ⟨hadvances'.stage, fun hqueued => hadvances'.product ?_⟩
    cases hstage : row.stage <;> simp [hstage, SyncStage.order] at hqueued ⊢

theorem stages_committed_once_sample : ∃ w l row l', Reached w ∧
    w.log = l ++ .committed row :: l' ∧ row.stage = .productCreated ∧
    [.sent [1] sampleQuantities, .sent [1] sampleQuantities].Sublist l' ∧
      ∀ mutation, .sent row.clientId mutation ∈ l' → row.stage.order < mutation.order := by
  obtain ⟨w, hw, hlog⟩ := sample_delivered
  obtain ⟨row, hcreated, -, hstage⟩ := hlog.created
  have hsplit := split_of_getElem? hcreated
  refine ⟨w, _, row, _, hw, hsplit, hstage, ?_, (stages_committed_once hw hsplit).1⟩
  have hlost : (w.log.drop 7)[4]? = some (.sent [1] sampleQuantities) := by
    rw [List.getElem?_drop]
    exact hlog.lost
  have hagain : .sent [1] sampleQuantities ∈ (w.log.drop 7).drop 5 := by
    rw [List.drop_drop]
    exact mem_drop_of_getElem? (k := 2) hlog.again
  rw [split_of_getElem? hlost]
  exact ((List.singleton_sublist.mpr hagain).cons_cons _).trans (List.sublist_append_right _ _)

/-- An item has succeeded only when everything it asks for was confirmed, in the order of the
stages; what is sent for it afterwards sets the same metafields of the same product. -/
theorem succeeded_completed (h : Reached w) (hlog : w.log = l ++ .committed row :: l')
    (hstatus : row.status = .succeeded) :
    Completed row l ∧ ∀ mutation, .sent row.clientId mutation ∈ l' →
      ∃ batch ∈ metafieldBatches row.normalizedPayload.metafields,
        mutation = .setMetafields row.shopifyProductId batch := by
  have hlegal := h.safe.legal row.clientId
  rw [trail_eq_of_log hlog] at hlegal
  obtain ⟨hstage, hcompleted⟩ := (hlegal _ _ _ rfl).1.completed hstatus
  refine ⟨hcompleted.mono List.filter_sublist, fun mutation hmem => ?_⟩
  obtain ⟨before, ⟨last, hlast, horder, hasks⟩, last', hlast', hadvances⟩ :=
    h.safe.follows hlog hmem rfl
  obtain rfl : last' = last := Option.some.inj (hlast'.symm.trans hlast)
  have hthree : 3 ≤ last'.stage.order := by
    have := hadvances.stage
    rwa [hstage] at this
  cases mutation with
  | setMetafields productId batch =>
    obtain ⟨hproduct, hbatch⟩ := hasks
    rw [hadvances.request.metafields] at hbatch
    exact ⟨batch, hbatch, by rw [hproduct, hadvances.product (by rw [hstage]; decide)]⟩
  | create | update | configureVariant | enableTracking | activate | setQuantities =>
    simp only [Mutation.order] at horder
    omega

theorem succeeded_completed_sample : ∃ w l row l', Reached w ∧
    w.log = l ++ .committed row :: l' ∧ row.status = .succeeded ∧
    row.normalizedPayload.metafields = [sampleMetafield] ∧ Completed row l ∧
      .sent row.clientId (.setMetafields (some [4]) [sampleMetafield]) ∈ l' ∧
      ∀ mutation, .sent row.clientId mutation ∈ l' →
        ∃ batch ∈ metafieldBatches row.normalizedPayload.metafields,
          mutation = .setMetafields row.shopifyProductId batch := by
  obtain ⟨w, hw, hlog⟩ := sample_delivered
  obtain ⟨row, hrow, hid, hstatus, hmetafields⟩ := hlog.succeeded
  have hsplit := split_of_getElem? hrow
  obtain ⟨hcompleted, hafter⟩ := succeeded_completed hw hsplit hstatus
  refine ⟨w, _, row, _, hw, hsplit, hstatus, hmetafields, hcompleted, ?_, hafter⟩
  rw [hid]
  exact mem_drop_of_getElem? (k := 1) hlog.after

theorem Safe.quantities (h : Safe w) {id uri key : PyStr} {quantities : List InventoryEntry}
    (hsent : .sent i (.setQuantities id quantities uri key) ∈ w.log) :
    ∃ last ∈ w.stored i, last.shopifyInventoryItemId = some id ∧ quantities = entriesOf last ∧
      uri = ofString "managerbeyo://inventory-set/" ++ i ∧
      key = ofString "shopify-inventory-set:" ++ i := by
  obtain ⟨row, hrow, horder, ⟨hid, hquantities, huri, hkey⟩, last, hlast, hadvances⟩ :=
    (h.legal i).asks (mem_trail.mpr ⟨hsent, rfl⟩)
  obtain rfl : row.clientId = i := (mem_trail.mp hrow).2
  have htwo : row.stage.order = 2 := by
    simp only [Mutation.order] at horder
    omega
  refine ⟨last, ?_, ?_, ?_, huri, hkey⟩
  · rwa [← h.stored]
  · rw [hadvances.inventoryItem htwo.ge, hid]
  · rw [hadvances.request.entries, hquantities]

/-- The requests that set quantities have one idempotency key for an item, different keys for
different items, and two requests with one key are the same request. -/
theorem quantities_requested_once (h : Reached w) {i j : ItemId} {id id' uri uri' key key' : PyStr}
    {quantities quantities' : List InventoryEntry}
    (hsent : .sent i (.setQuantities id quantities uri key) ∈ w.log)
    (hsent' : .sent j (.setQuantities id' quantities' uri' key') ∈ w.log) :
    (key = key' ↔ i = j) ∧ (key = key' → id = id' ∧ quantities = quantities' ∧ uri = uri') := by
  obtain ⟨last, hlast, hid, hquantities, huri, hkey⟩ := h.safe.quantities hsent
  obtain ⟨last', hlast', hid', hquantities', huri', hkey'⟩ := h.safe.quantities hsent'
  have hkeys : key = key' ↔ i = j := by
    rw [hkey, hkey']
    exact List.append_right_inj _
  refine ⟨hkeys, fun heq => ?_⟩
  obtain rfl := hkeys.mp heq
  obtain rfl : last = last' := Option.some.inj (hlast.symm.trans hlast')
  exact ⟨Option.some.inj (hid.symm.trans hid'), hquantities.trans hquantities'.symm,
    huri.trans huri'.symm⟩

theorem quantities_requested_once_sample : ∃ w l l' id id' uri uri' key key' quantities quantities',
    Reached w ∧ .committed sampleItem ∈ l ∧
    resolveAbsoluteInventoryEntries sampleItem.normalizedPayload.inventory =
      .ok ([sampleEntry], true) ∧
    w.log = l ++ .sent [1] (.setQuantities id quantities uri key) :: l' ∧
    .sent [1] (.setQuantities id' quantities' uri' key') ∈ l' ∧
      (key = key' ↔ ([1] : ItemId) = [1]) ∧
      (key = key' → id = id' ∧ quantities = quantities' ∧ uri = uri') := by
  obtain ⟨w, hw, hlog⟩ := sample_delivered
  have hagain := mem_drop_of_getElem? (n := 12) (k := 2) hlog.again
  have henqueued : .committed sampleItem ∈ w.log.take 11 := by
    refine List.mem_of_getElem? (i := 0) ?_
    rw [List.getElem?_take_of_lt (by decide)]
    exact hlog.enqueued
  have hsame := quantities_requested_once hw (List.mem_of_getElem? hlog.lost)
    (List.mem_of_mem_drop hagain)
  exact ⟨w, _, _, _, _, _, _, _, _, _, _, hw, henqueued, rfl,
    split_of_getElem? hlog.lost, hagain, hsame⟩

end Results

end BeyoManager.Shopify.ProductSync
