import BeyoManager.Shopify.ProductSyncLog

/-! # The stages of the product sync

What each part of the worker leaves, whatever Shopify answers and wherever the worker dies: the log
stays legal, the rows of the other items stay as they are, and after an exception that is caught the
row in the hands of the worker may still be committed.
-/

namespace BeyoManager.Shopify.ProductSync

open Interaction PyText Relational Transition

section Questions

variable {α : Type} {w : World}

/-- Whatever ends it, a part of the worker that reads leaves the row and the world alone. -/
def Reads (m : Sync α) (post : α → Prop) : Prop :=
  ∀ row w, Safe w → Routine.wp setting Safe (fun _ row' w' => row = row' ∧ w = w')
    (fun a row' w' => row = row' ∧ w = w' ∧ post a) m row w

theorem wp_raising {σ : Type} {s : σ} {fail : Failure → σ → World → Prop} {x : Except Failure α}
    {post : α → σ → World → Prop} : Routine.wp setting Safe fail post (raising x) s w ↔
      (∀ e, x = .error e → fail e s w) ∧ ∀ a, x = .ok a → post a s w := by
  cases x with
  | error e => exact ⟨fun h => ⟨by rintro _ ⟨⟩; exact h, nofun⟩, fun h => h.1 e rfl⟩
  | ok a => exact ⟨fun h => ⟨nofun, by rintro _ ⟨⟩; exact h⟩, fun h => h.2 a rfl⟩

theorem reads_raising {x : Except Failure α} {post : α → Prop} (h : ∀ a, x = .ok a → post a) :
    Reads (raising x) post := by
  intro row w _
  cases x with
  | error e => exact ⟨rfl, rfl⟩
  | ok a => exact ⟨rfl, rfl, h a rfl⟩

theorem Reads.bind {β : Type} {m : Sync α} {f : α → Sync β} {post : α → Prop} {post' : β → Prop}
    (hm : Reads m post) (hf : ∀ a, post a → Reads (f a) post') : Reads (m >>= f) post' := by
  intro row w hw
  rw [Routine.wp_bind]
  refine Routine.wp_mono (hm row w hw) ?_ fun _ _ _ h => h
  rintro a _ _ ⟨rfl, rfl, ha⟩
  exact hf a ha row w hw

theorem reads_ask {q : Question} (hdies : ∀ w w', dies w q w' → w' = w)
    (hanswers : ∀ w r w', answers w q r w' → w' = w) :
    Reads (Routine.ask q : Sync q.Answer) fun _ => True := by
  intro row w hw
  rw [Routine.wp_ask]
  constructor
  · intro w' h
    rwa [hdies w w' h]
  · intro r w' h
    exact ⟨rfl, (hanswers w r w' h).symm, trivial⟩

theorem reads_fetchInventorySetLocations : Reads fetchInventorySetLocations fun _ => True :=
  (reads_ask (q := .locations) (fun _ _ h => h) fun _ _ _ h => h).bind fun _ _ =>
    reads_raising fun _ _ => trivial

theorem reads_resolveInventoryItemState (inventoryItemId locationId : PyStr) :
    Reads (resolveInventoryItemState inventoryItemId locationId) fun _ => True :=
  (reads_ask (q := .inventoryState inventoryItemId locationId) (fun _ _ h => h)
    fun _ _ _ h => h).bind fun _ _ => reads_raising fun _ _ => trivial

end Questions

section Writes

variable {i : ItemId} {others : ItemId → Option SyncItem} {payload : Payload}
  {stored row : SyncItem} {w : World} {mutation : Mutation}

/-- The worker has the row of the item in its hands, at the stage that is stored. -/
structure Linked (i : ItemId) (others : ItemId → Option SyncItem) (payload : Payload)
    (stored row : SyncItem) (w : World) : Prop where
  held : Held i others stored w
  continues : Continues stored row
  running : row.status ≠ .succeeded
  payload : row.normalizedPayload = payload

theorem Continues.withOperation (h : Continues stored row) (operation : SyncOperation) :
    Continues stored { row with requestedOperation := some operation } where
  request := h.request.trans (.of_payload rfl rfl)
  stage := h.stage
  product := h.product
  variant := h.variant
  inventoryItem := h.inventoryItem

/-- What is left when the worker throws: the item is as it was stored, and after an exception
that is caught the row may still be committed. -/
structure Fails (i : ItemId) (others : ItemId → Option SyncItem) (payload : Payload) (e : Failure)
    (row : SyncItem) (w : World) : Prop where
  id : row.clientId = i
  held : ∃ stored, Held i others stored w
  linked : (∀ message, e ≠ .other message) → ∃ stored, Linked i others payload stored row w

namespace Linked

theorem id (h : Linked i others payload stored row w) : row.clientId = i :=
  h.continues.request.clientId.trans h.held.id

theorem fails (h : Linked i others payload stored row w) (e : Failure) :
    Fails i others payload e row w := ⟨h.id, ⟨stored, h.held⟩, fun _ => ⟨stored, h⟩⟩

theorem confirmed {reply : MutationReply} (h : Linked i others payload stored row w)
    (horder : mutation.order = stored.stage.order + 1) (hasks : Asks stored mutation) :
    Linked i others payload stored row
      (w.record [.sent i mutation, .confirmed i mutation reply]) :=
  ⟨h.held.confirmed horder hasks, h.continues, h.running, h.payload⟩

theorem found {e : Event} (h : Linked i others payload stored row w) (hrow : e.row? = none)
    (hitem : e.item = i) (he : Permitted (w.trail i) e) :
    Linked i others payload stored row (w.record [e]) :=
  ⟨h.held.found hrow hitem he, h.continues, h.running, h.payload⟩

theorem withOperation (h : Linked i others payload stored row w) (operation : SyncOperation) :
    Linked i others payload stored { row with requestedOperation := some operation } w where
  held := h.held
  continues := h.continues.withOperation operation
  running := h.running
  payload := h.payload

theorem backed (h : Linked i others payload stored row w) : Backed (w.trail i) row :=
  h.continues.backed h.held.backed h.running

end Linked

theorem Fails.of_other (message : String) (hid : row.clientId = i)
    (held : Held i others stored w) : Fails i others payload (.other message) row w :=
  ⟨hid, ⟨stored, held⟩, fun h => absurd rfl (h message)⟩

theorem Reads.wp {α : Type} {m : Sync α} {post : α → Prop} (hm : Reads m post)
    (h : Linked i others payload stored row w) :
    Routine.wp setting Safe (Fails i others payload)
      (fun a row' w' => row = row' ∧ w = w' ∧ post a) m row w := by
  refine Routine.wp_mono (hm row w h.held.safe) (fun _ _ _ h => h) ?_
  rintro e _ _ ⟨rfl, rfl⟩
  exact h.fails e

theorem wp_mutate (h : Linked i others payload stored row w)
    (horder : mutation.order = stored.stage.order + 1) (hasks : Asks stored mutation) :
    Routine.wp setting Safe (Fails i others payload)
      (fun reply row' w' => row = row' ∧ Linked i others payload stored row w' ∧
        w'.trail i = w.trail i ++ [.sent i mutation] ++ [.confirmed i mutation reply])
      (mutate mutation) row w := by
  obtain rfl : row.clientId = i := h.id
  rw [mutate, Routine.wp_bind, Routine.wp_get, Routine.wp_bind]
  have hsent : Held row.clientId others stored (w.record [.sent row.clientId mutation]) :=
    h.held.sent horder hasks
  refine (Routine.wp_ask (q := Question.mutate row.clientId mutation)).mpr ⟨?_, ?_⟩
  · rintro w' (rfl | rfl)
    · exact h.held.safe
    · exact hsent.safe
  · rintro (e | reply) w' hw'
    · obtain rfl : w' = w.record [.sent row.clientId mutation] := hw'
      exact ⟨rfl, ⟨stored, hsent⟩, fun _ => ⟨stored, hsent, h.continues, h.running, h.payload⟩⟩
    · obtain rfl : w' = w.record [_, .confirmed row.clientId mutation reply] := hw'
      exact ⟨rfl, h.confirmed horder hasks, trail_confirmed⟩

theorem wp_commit (held : Held i others stored w) (hadvances : Advances stored row)
    (hbacked : Backed (w.trail i) row) :
    Routine.wp setting Safe (Fails i others payload)
      (fun _ row' w' => row = row' ∧ Held i others row w' ∧
        w'.trail i = w.trail i ++ [.committed row]) commit row w := by
  have hid : row.clientId = i := hadvances.request.clientId.trans held.id
  have hcommit : Held i others row (w.commit row) := held.commit hadvances hbacked
  rw [commit, Routine.wp_bind, Routine.wp_get, Routine.wp_bind]
  refine (Routine.wp_ask (q := Question.commit row)).mpr ⟨?_, ?_⟩
  · rintro w' (rfl | rfl)
    · exact held.safe
    · exact hcommit.safe
  · rintro (message | ⟨⟨⟩⟩) w' hw'
    · obtain rfl : w' = w := hw'
      exact .of_other message hid held
    · obtain rfl : w' = w.commit row := hw'
      exact ⟨rfl, hcommit, by rw [trail_commit, if_pos hid]⟩

theorem cleanStr_cleanStr (value : Option PyStr) : cleanStr (cleanStr value) = cleanStr value := by
  cases value with
  | none => rfl
  | some value =>
    by_cases h : strip value = []
    · simp [cleanStr, h]
    · simp [cleanStr, h, strip_strip]

theorem requiredId_eq_error {value : Option PyStr} {message : String} {e : Failure}
    (h : requiredId value message = .error e) : e = .other message := by
  rw [requiredId] at h
  cases hvalue : cleanStr value with
  | none =>
    rw [hvalue] at h
    exact (Except.error.inj h).symm
  | some id =>
    rw [hvalue] at h
    cases h

theorem Linked.queued_found {e : Event} (h : Linked i others payload stored row w)
    (hqueued : stored.stage = .queued) (hrow : e.row? = none) (hitem : e.item = row.clientId)
    (he : (∃ row ∈ lastRow (w.trail i), row.stage = .queued) → Permitted (w.trail i) e) :
    Linked i others payload stored row (w.record [e]) ∧
      (w.record [e]).trail i = w.trail i ++ [e] := by
  refine ⟨h.found hrow (hitem.trans h.id) (he ⟨stored, h.held.lastRow, hqueued⟩), ?_⟩
  rw [trail_record]
  simp [hitem.trans h.id]

theorem wp_resolveProductMedia (h : Linked i others payload stored row w)
    (hqueued : stored.stage = .queued) (env : Environment) :
    Routine.wp setting Safe (Fails i others payload)
      (fun media row' w' => row = row' ∧ Linked i others payload stored row w' ∧
        ∃ events, Illustrated row events media ∧ w'.trail i = w.trail i ++ events)
      (resolveProductMedia env payload) row w := by
  have hpayload := h.payload
  rw [resolveProductMedia]
  cases himage : payload.image with
  | none =>
    exact ⟨rfl, h, [], .noImage (by rw [hpayload, himage]), (List.append_nil _).symm⟩
  | some reference =>
    have hchecked : ∀ url w' events, Linked i others payload stored row w' →
        w'.trail i = w.trail i ++ events →
        (∀ source, url = some source →
          Illustrated row events (some ⟨source, cleanStr row.normalizedPayload.imageAltText⟩)) →
        Routine.wp setting Safe (Fails i others payload)
          (fun media row' w' => row = row' ∧ Linked i others payload stored row w' ∧
            ∃ events, Illustrated row events media ∧ w'.trail i = w.trail i ++ events)
          (mediaOf env payload url) row w' := by
      intro url w' events h' htrail hmedia
      unfold mediaOf
      cases hurl : url.filter env.isAbsoluteHttpsUrl with
      | none => exact h'.fails _
      | some source =>
        refine ⟨rfl, h', events, ?_, htrail⟩
        rw [← hpayload]
        exact hmedia source (Option.filter_eq_some_iff.mp hurl).1
    simp only
    rw [Routine.wp_bind]
    cases reference with
    | imageUrl url =>
      refine hchecked (cleanStr (some url)) w [] h (List.append_nil _).symm fun source hsource => ?_
      exact .ofUrl (by rw [hpayload, himage]) hsource
    | imageId id =>
      rw [resolveImageUrl, Routine.wp_bind, Routine.wp_get, Routine.wp_bind]
      refine (Routine.wp_ask (q := Question.image row.clientId id)).mpr ⟨?_, ?_⟩
      · rintro w' rfl
        exact h.held.safe
      rintro (_ | image) w' hw'
      · obtain rfl : w' = w := hw'
        exact h.fails _
      · obtain rfl : w' = w.record [.imageFound row.clientId id image] := hw'
        obtain ⟨h', htrail⟩ :=
          @Linked.queued_found _ _ _ _ _ _ (.imageFound row.clientId id image) h hqueued rfl rfl
            fun h => h
        refine hchecked (some image.url) _ _ h' htrail ?_
        rintro source ⟨⟩
        exact .ofImage (by rw [hpayload, himage])

theorem wp_findMatch (h : Linked i others payload stored row w)
    (hqueued : stored.stage = .queued) :
    Routine.wp setting Safe (Fails i others payload)
      (fun found row' w' => row = row' ∧ Linked i others payload stored row w' ∧
        ∃ events, Searched row events found ∧ w'.trail i = w.trail i ++ events)
      (findMatch payload) row w := by
  have hpayload := h.payload
  rw [findMatch]
  cases hbarcode : cleanStr payload.variant.barcode with
  | none =>
    exact ⟨rfl, h, [], .noBarcode (by rw [hpayload, hbarcode]), (List.append_nil _).symm⟩
  | some barcode =>
    simp only
    rw [Routine.wp_bind, findProductVariantByIdentity, Routine.wp_bind, Routine.wp_get,
      Routine.wp_bind]
    refine (Routine.wp_ask (q := Question.findVariants row.clientId barcode)).mpr ⟨?_, ?_⟩
    · rintro w' rfl
      exact h.held.safe
    rintro (e | nodes) w' hw'
    · obtain rfl : w' = w := hw'
      exact h.fails e
    · obtain rfl : w' = w.record [.variantsFound row.clientId barcode nodes] := hw'
      obtain ⟨h', htrail⟩ :=
        @Linked.queued_found _ _ _ _ _ _ (.variantsFound row.clientId barcode nodes) h hqueued rfl
          rfl fun h => h
      refine wp_raising.mpr ⟨nofun, fun _ hnodes => ?_⟩
      obtain rfl := Except.ok.inj hnodes
      refine wp_raising.mpr ⟨fun e _ => h'.fails e, fun found hfound => ?_⟩
      exact ⟨rfl, h', _, .ofBarcode (by rw [hpayload, hbarcode]) hfound, htrail⟩

/-- The product operation of the payload was confirmed, and gave the result. -/
theorem wp_sendProduct (h : Linked i others payload stored row w) (hqueued : stored.stage = .queued)
    {media : Option Media} {found : Option VariantMatch} {seen searched : List Event}
    (hmedia : Illustrated row seen media) (hsearched : Searched row searched found)
    (hpast : (seen ++ searched).Sublist (w.trail i)) :
    Routine.wp setting Safe (Fails i others payload)
      (fun result row' w' => Linked i others payload stored row' w' ∧
        (∃ events, Performed (row'.withProduct result) 1 result.variantId events ∧
          events.Sublist (w'.trail i)) ∧
        cleanStr result.inventoryItemId = result.inventoryItemId ∧
        (result.inventoryItemId = none → matchInventoryItemId found = none))
      (sendProduct payload media found) row w := by
  obtain rfl : row.clientId = i := h.id
  obtain rfl : row.normalizedPayload = payload := h.payload
  have hproduct : row.normalizedPayload.product = stored.normalizedPayload.product ∧
      ∃ events, Illustrated stored events media :=
    ⟨h.continues.request.product, seen,
      hmedia.congr h.continues.request.symm⟩
  have hafter : ∀ {mutation : Mutation} {reply : MutationReply} {w' : World},
      w'.trail row.clientId =
        w.trail row.clientId ++ [.sent row.clientId mutation] ++
          [.confirmed row.clientId mutation reply] →
      (seen ++ searched ++ [Event.confirmed row.clientId mutation reply]).Sublist
        (w'.trail row.clientId) := by
    intro mutation reply w' htrail
    rw [htrail]
    exact (hpast.trans (List.sublist_append_left _ _)).append (.refl _)
  have hsame : ∀ operation (result : ProductResult),
      SameRequest row ({ row with requestedOperation := some operation }.withProduct result) :=
    fun _ _ => .of_payload rfl rfl
  cases found with
  | some found =>
    rw [sendProduct, Routine.wp_bind, Routine.wp_modify, updateShopifyProduct, Routine.wp_bind]
    have h' := h.withOperation .update
    have horder : (Mutation.update found.productId row.normalizedPayload.product media).order =
        stored.stage.order + 1 := by rw [hqueued]; rfl
    refine Routine.wp_mono (wp_mutate h' horder hproduct) ?_ fun _ _ _ h => h
    rintro reply _ w' ⟨rfl, hconfirmed, htrail⟩
    refine ⟨hconfirmed, ⟨_, ?_, hafter htrail⟩, cleanStr_cleanStr _, fun h => h⟩
    exact .updated (hmedia.congr (hsame _ _)) (hsearched.congr (hsame _ _)) rfl
  | none =>
    rw [sendProduct, Routine.wp_bind, Routine.wp_modify, createShopifyProduct, Routine.wp_bind]
    have h' := h.withOperation .create
    have horder : (Mutation.create row.normalizedPayload.product media).order =
        stored.stage.order + 1 := by rw [hqueued]; rfl
    refine Routine.wp_mono (wp_mutate h' horder hproduct) ?_ fun _ _ _ h => h
    rintro reply _ w' ⟨rfl, hconfirmed, htrail⟩
    rw [Routine.wp_bind, wp_raising]
    refine ⟨fun e he => ?_, fun productId hid => ?_⟩
    · rw [requiredId_eq_error he]
      exact .of_other _ hconfirmed.id hconfirmed.held
    rw [Routine.wp_bind, wp_raising]
    refine ⟨fun e he => ?_, fun variantId hvariant => ?_⟩
    · rw [requiredId_eq_error he]
      exact .of_other _ hconfirmed.id hconfirmed.held
    refine ⟨hconfirmed, ⟨_, ?_, hafter htrail⟩, rfl, fun _ => rfl⟩
    exact .created (hmedia.congr (hsame _ _)) (hsearched.congr (hsame _ _)) rfl
      (getOr_eq_ok.mp hid) (getOr_eq_ok.mp hvariant)

theorem Held.linked (h : Held i others row w) (hrunning : row.status ≠ .succeeded)
    (hpayload : row.normalizedPayload = payload) : Linked i others payload row row w :=
  ⟨h, .refl row, hrunning, hpayload⟩

theorem wp_createProduct (h : Linked i others payload stored row w)
    (hqueued : stored.stage = .queued) (env : Environment) :
    Routine.wp setting Safe (Fails i others payload)
      (fun found row' w' => Linked i others payload row' row' w' ∧ row'.stage = .productCreated ∧
        (row'.shopifyInventoryItemId = none → matchInventoryItemId found = none))
      (createProduct env payload) row w := by
  rw [createProduct, Routine.wp_bind]
  refine Routine.wp_mono (wp_resolveProductMedia h hqueued env) ?_ fun _ _ _ h => h
  rintro media _ w₁ ⟨rfl, h₁, seen, hmedia, htrail₁⟩
  rw [Routine.wp_bind]
  refine Routine.wp_mono (wp_findMatch h₁ hqueued) ?_ fun _ _ _ h => h
  rintro found _ w₂ ⟨rfl, h₂, searched, hsearched, htrail₂⟩
  have hpast : (seen ++ searched).Sublist (w₂.trail i) := by
    rw [htrail₂, htrail₁, List.append_assoc]
    exact List.sublist_append_right _ _
  rw [Routine.wp_bind]
  refine Routine.wp_mono (wp_sendProduct h₂ hqueued hmedia hsearched hpast) ?_ fun _ _ _ h => h
  rintro result row' w' ⟨h', ⟨events, hevents, hsub⟩, hclean, hfound⟩
  have hadvances : Advances stored (row'.withProduct result) := by
    have hzero : stored.stage.order = 0 := by rw [hqueued]; rfl
    exact ⟨h'.continues.request.trans (.of_payload rfl rfl), by omega, by omega, by omega⟩
  have hbacked : Backed (w'.trail i) (row'.withProduct result) :=
    ⟨fun _ => ⟨_, events, rfl, hevents, hsub⟩, fun hstatus => absurd hstatus h'.running, hclean⟩
  rw [Routine.wp_bind, Routine.wp_modify, Routine.wp_bind]
  refine Routine.wp_mono (wp_commit h'.held hadvances hbacked) ?_ fun _ _ _ h => h
  rintro _ _ _ ⟨rfl, held, -⟩
  exact ⟨held.linked h'.running h'.payload, rfl, hfound⟩

theorem wp_configureVariant (h : Linked i others payload row row w)
    (hstage : row.stage = .productCreated) :
    Routine.wp setting Safe (Fails i others payload)
      (fun _ row' w' => Linked i others payload row' row' w' ∧ row'.stage = .variantConfigured ∧
        (row'.shopifyInventoryItemId = none → row.shopifyInventoryItemId = none))
      (configureVariant payload) row w := by
  obtain ⟨variantId, events, hvariant, hevents, hsub⟩ := h.backed.performed (by rw [hstage]; nofun)
  have hone : row.stage.order = 1 := by rw [hstage]; rfl
  rw [hone] at hevents
  obtain ⟨productId, hid⟩ := hevents.productId
  have horder : (Mutation.configureVariant (row.shopifyProductId.getD [])
      (row.shopifyVariantId.getD []) payload.variant).order = row.stage.order + 1 := by
    rw [hone]
    rfl
  have hasks : Asks row (.configureVariant (row.shopifyProductId.getD [])
      (row.shopifyVariantId.getD []) payload.variant) := ⟨rfl, rfl, by rw [h.payload]⟩
  rw [configureVariant, Routine.wp_bind, Routine.wp_get, Routine.wp_bind,
    configureShopifyProductVariant, Routine.wp_bind]
  refine Routine.wp_mono (wp_mutate h horder hasks) ?_ fun _ _ _ h => h
  rintro reply _ w' ⟨rfl, h', htrail⟩
  rw [Routine.wp_pure, Routine.wp_bind, Routine.wp_modify]
  have hadvances : ∀ result, Advances row (row.withVariant result) := fun _ =>
    ⟨.of_payload rfl rfl, by rw [hone]; exact Nat.le_succ 1, fun _ => rfl, by omega⟩
  refine Routine.wp_mono (wp_commit h'.held (hadvances _) ⟨fun _ => ?_, fun hstatus => ?_, ?_⟩) ?_
    fun _ _ _ h => h
  · refine ⟨(cleanStr reply.variantId).getD variantId, events ++ [.confirmed row.clientId
      (.configureVariant productId variantId row.normalizedPayload.variant) reply],
      by rw [SyncItem.withVariant, hvariant]; rfl,
      .configured (hevents.congr (hadvances _).request rfl (by omega)) hid, ?_⟩
    rw [htrail, hid, hvariant, h.payload, h.id]
    exact (hsub.trans (List.sublist_append_left _ _)).append (.refl _)
  · exact absurd hstatus h.running
  · cases hreply : cleanStr reply.inventoryItemId with
    | none => exact h.backed.clean
    | some inventoryItemId =>
      change cleanStr (some inventoryItemId) = some inventoryItemId
      rw [← hreply, cleanStr_cleanStr]
  · rintro _ _ _ ⟨rfl, held, -⟩
    refine ⟨held.linked h.running h.payload, rfl, fun hnone => ?_⟩
    cases hreply : cleanStr reply.inventoryItemId with
    | none => simpa [SyncItem.withVariant, hreply] using hnone
    | some inventoryItemId => simp [SyncItem.withVariant, hreply] at hnone

/-- A location is prepared, whatever it takes. -/
theorem wp_prepareLocation (h : Linked i others payload stored row w)
    (hstage : stored.stage = .variantConfigured) {inventoryItemId : PyStr}
    (hid : stored.shopifyInventoryItemId = some inventoryItemId) (entry : InventoryEntry) :
    Routine.wp setting Safe (Fails i others payload)
      (fun _ row' w' => row = row' ∧ Linked i others payload stored row w')
      (prepareLocation inventoryItemId entry) row w := by
  have horder : ∀ m : Mutation, m.order = 3 → m.order = stored.stage.order + 1 := by
    intro m hm
    rw [hm, hstage]
    rfl
  have hunless : ∀ (c : Bool) (m : Mutation) w, m.order = 3 → Asks stored m →
      Linked i others payload stored row w → Routine.wp setting Safe (Fails i others payload)
        (fun _ row' w' => row = row' ∧ Linked i others payload stored row w')
        (mutateUnless c m) row w := by
    intro c m w hm hasks h
    cases c with
    | true => exact ⟨rfl, h⟩
    | false =>
      change Routine.wp _ _ _ _ (mutate m >>= fun _ => pure ()) row w
      rw [Routine.wp_bind]
      refine Routine.wp_mono (wp_mutate h (horder m hm) hasks) ?_ fun _ _ _ h => h
      rintro reply _ _ ⟨rfl, h', -⟩
      exact ⟨rfl, h'⟩
  rw [prepareLocation, Routine.wp_bind, Routine.wp_get, Routine.wp_bind]
  refine Routine.wp_mono ((reads_resolveInventoryItemState _ _).wp h) ?_ fun _ _ _ h => h
  rintro state _ _ ⟨rfl, rfl, -⟩
  rw [Routine.wp_bind]
  refine Routine.wp_mono (hunless state.tracked _ _ rfl hid h) ?_ fun _ _ _ h => h
  rintro _ _ w' ⟨rfl, h'⟩
  rw [Routine.wp_bind]
  refine Routine.wp_mono (hunless state.levelExists _ _ rfl hid h') ?_ fun _ _ _ h => h
  rintro _ _ w'' ⟨rfl, h''⟩
  exact ⟨rfl, h''⟩

/-- The quantities were sent and confirmed, to the inventory item of the row. -/
theorem wp_syncAbsoluteInventory (h : Linked i others payload row row w)
    (hstage : row.stage = .variantConfigured) (hne : entriesOf row ≠ []) (shop : Shop) :
    Routine.wp setting Safe (Fails i others payload)
      (fun _ row' w' => Linked i others payload row' row' w' ∧ row'.stage = .variantConfigured ∧
        HasReached row' 3 (w'.trail i))
      (syncAbsoluteInventory shop row.shopifyInventoryItemId (entriesOf row)) row w := by
  have htwo : row.stage.order = 2 := by rw [hstage]; rfl
  rw [syncAbsoluteInventory, Routine.wp_bind, wp_raising]
  refine ⟨fun e _ => h.fails e, fun _ _ => ?_⟩
  rw [Routine.wp_bind, wp_raising]
  refine ⟨fun e _ => h.fails e, fun inventoryItemId hid => ?_⟩
  have hid : row.shopifyInventoryItemId = some inventoryItemId :=
    (Option.filter_eq_some_iff.mp (getOr_eq_ok.mp hid)).1
  rw [Routine.wp_bind]
  refine Routine.wp_mono (reads_fetchInventorySetLocations.wp h) ?_ fun _ _ _ h => h
  rintro locations _ _ ⟨rfl, rfl, -⟩
  rw [Routine.wp_bind, wp_raising]
  refine ⟨fun e _ => h.fails e, fun _ _ => ?_⟩
  rw [Routine.wp_bind]
  refine Routine.wp_mono (Routine.wp_mapM
    (I := fun row' w' => row = row' ∧ Linked i others payload row row w') ?_ ⟨rfl, h⟩) ?_
    fun _ _ _ h => h
  · rintro entry _ _ w' ⟨rfl, h'⟩
    exact wp_prepareLocation h' hstage hid entry
  rintro summary _ w₁ ⟨rfl, h₁⟩
  have hreached := h₁.backed.performed (by rw [hstage]; nofun)
  rw [htwo] at hreached
  rw [Routine.wp_bind, Routine.wp_modify, Routine.wp_bind]
  have hsame : ∀ (row : SyncItem) summary, Continues row (row.withInventory summary) := fun _ _ =>
    ⟨.of_payload rfl rfl, rfl, rfl, rfl, rfl⟩
  refine Routine.wp_mono (wp_commit h₁.held (hsame row _).advances
    ((hsame row _).backed h₁.backed h.running)) ?_ fun _ _ _ h => h
  rintro _ _ _ ⟨rfl, held₂, htrail₂⟩
  have h₂ := held₂.linked h.running h.payload
  rw [Routine.wp_bind, Routine.wp_get, Routine.wp_bind]
  have horder : (Mutation.setQuantities inventoryItemId (entriesOf row)
      (ofString "managerbeyo://inventory-set/" ++ row.clientId)
      (ofString "shopify-inventory-set:" ++ row.clientId)).order =
      (row.withInventory summary).stage.order + 1 := congrArg (· + 1) htwo.symm
  have hasks : Asks (row.withInventory summary) (.setQuantities inventoryItemId (entriesOf row)
      (ofString "managerbeyo://inventory-set/" ++ row.clientId)
      (ofString "shopify-inventory-set:" ++ row.clientId)) := ⟨hid, rfl, rfl, rfl⟩
  refine Routine.wp_mono (wp_mutate h₂ horder hasks) ?_ fun _ _ _ h => h
  rintro reply _ _ ⟨rfl, h₃, htrail₃⟩
  rw [Routine.wp_bind, Routine.wp_modify]
  refine Routine.wp_mono (wp_commit h₃.held (hsame _ _).advances
    ((hsame _ _).backed h₃.backed h.running)) ?_ fun _ _ _ h => h
  rintro _ _ _ ⟨rfl, held₄, htrail₄⟩
  have hcontinues := (hsame row summary).request.trans
    (hsame (row.withInventory summary) (summary.map SummaryEntry.applied)).request
  obtain ⟨variantId, events, hvariant, hevents, hsub⟩ := hreached
  refine ⟨held₄.linked h.running h.payload, hstage, variantId, _, hvariant,
    @Performed.inventorySet _ _ _ _ reply (hevents.congr hcontinues rfl fun _ => rfl) hid hne, ?_⟩
  obtain rfl : row.clientId = i := h.id
  rw [htrail₄, htrail₃, htrail₂]
  refine List.Sublist.trans (List.Sublist.append ?_ (List.Sublist.refl _))
    (List.sublist_append_left _ _)
  rw [List.append_assoc]
  exact hsub.trans (List.sublist_append_left _ _)

/-- The stage of the inventory, from the row at the stage before. -/
theorem wp_setInventory (h : Linked i others payload row row w)
    (hstage : row.stage = .variantConfigured) {found : Option VariantMatch}
    (hfound : row.shopifyInventoryItemId = none → matchInventoryItemId found = none) (shop : Shop) :
    Routine.wp setting Safe (Fails i others payload)
      (fun _ row' w' => Linked i others payload row' row' w' ∧ row'.stage = .inventorySet)
      (setInventory shop found (entriesOf row)) row w := by
  have hfinish : ∀ row' w', Linked i others payload row' row' w' →
      row'.stage = .variantConfigured → HasReached row' 3 (w'.trail i) →
      Routine.wp setting Safe (Fails i others payload)
        (fun _ row' w' => Linked i others payload row' row' w' ∧ row'.stage = .inventorySet)
        commit { row' with stage := .inventorySet } w' := by
    intro row' w' h' hstage' hreached
    have hadvances : Advances row' { row' with stage := .inventorySet } :=
      ⟨.of_payload rfl rfl, by rw [hstage']; exact Nat.le_succ 2, fun _ => rfl, fun _ => rfl⟩
    refine Routine.wp_mono (wp_commit h'.held hadvances ⟨fun _ => ?_, fun hstatus => ?_, ?_⟩) ?_
      fun _ _ _ h => h
    · exact hreached.congr hadvances.request rfl rfl rfl
    · exact absurd hstatus h'.running
    · exact h'.backed.clean
    · rintro _ _ _ ⟨rfl, held, -⟩
      exact ⟨held.linked h'.running h'.payload, rfl⟩
  rw [setInventory, Routine.wp_bind, sendInventory]
  by_cases hnil : entriesOf row = []
  · rw [if_pos hnil]
    refine hfinish row w h hstage ?_
    have hreached := h.backed.performed (by rw [hstage]; nofun)
    rw [hstage] at hreached
    obtain ⟨variantId, events, hvariant, hevents, hsub⟩ := hreached
    exact ⟨variantId, events, hvariant, .noInventory hevents hnil, hsub⟩
  · have hresolved : (cleanStr row.shopifyInventoryItemId <|> matchInventoryItemId found) =
        row.shopifyInventoryItemId := by
      rw [h.backed.clean]
      cases hid : row.shopifyInventoryItemId with
      | none => exact hfound hid
      | some inventoryItemId => rfl
    rw [if_neg hnil, Routine.wp_bind, Routine.wp_get, Routine.wp_bind, Routine.wp_modify,
      hresolved]
    refine Routine.wp_mono (wp_syncAbsoluteInventory h hstage hnil shop) ?_ fun _ _ _ h => h
    rintro _ row' w' ⟨h', hstage', hreached⟩
    exact hfinish row' w' h' hstage' hreached

/-- The metafields are confirmed, batch by batch. -/
theorem wp_metafieldsStage (h : Linked i others payload row row w)
    (hstage : row.stage = .inventorySet) :
    Routine.wp setting Safe (Fails i others payload)
      (fun _ row' w' => row = row' ∧ Linked i others payload row row w' ∧
        Completed row (w'.trail i)) (metafieldsStage payload) row w := by
  have hreached := h.backed.performed (by rw [hstage]; nofun)
  rw [hstage] at hreached
  obtain ⟨variantId, events, hvariant, hevents, hsub⟩ := hreached
  have hmetafields : payload.metafields = row.normalizedPayload.metafields := by rw [h.payload]
  rw [metafieldsStage, Routine.wp_bind, Routine.wp_get]
  split_ifs with hempty
  · have hnil : payload.metafields = [] := List.isEmpty_iff.mp hempty
    refine ⟨rfl, h, variantId, events, [], hvariant, hevents, ?_, by rwa [List.append_nil]⟩
    rw [← hmetafields, hnil]
    exact .nil
  rw [setShopifyProductMetafields]
  refine Routine.wp_mono (Routine.wp_forM (I := fun done row' w' => row = row' ∧
    Linked i others payload row row w' ∧ ∃ batches, List.Forall₂ (ConfirmsBatch row) done batches ∧
      (events ++ batches).Sublist (w'.trail i)) ?_ ⟨rfl, h, [], .nil, by rwa [List.append_nil]⟩) ?_
    fun _ _ _ h => h
  · rintro batch hbatch done _ w' ⟨rfl, h', batches, hbatches, hsub'⟩
    rw [Routine.wp_bind]
    refine Routine.wp_mono (wp_mutate h' (by rw [hstage]; rfl) ⟨rfl, hmetafields ▸ hbatch⟩) ?_
      fun _ _ _ h => h
    rintro reply _ w'' ⟨rfl, h'', htrail⟩
    refine ⟨rfl, h'', _, List.rel_append hbatches (.cons ⟨reply, rfl⟩ .nil), ?_⟩
    rw [htrail, h.id, ← List.append_assoc]
    exact (hsub'.trans (List.sublist_append_left _ _)).append (.refl _)
  · rintro _ _ w' ⟨rfl, h', batches, hbatches, hsub'⟩
    rw [hmetafields] at hbatches
    exact ⟨rfl, h', variantId, events, batches, hvariant, hevents, hbatches, hsub'⟩

end Writes

end BeyoManager.Shopify.ProductSync
