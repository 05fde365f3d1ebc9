import BeyoManager.Shopify.ProductSync

/-! # Deliveries of the product sync that may die

A log records what was committed, what was found for an item, what was sent to Shopify and what
Shopify has confirmed. A delivery of the task may die at every question, and a call that failed may
have changed the side of Shopify all the same. Whatever happens, the log of an item is legal: a
mutation is sent only by the stage that follows the committed one, and a stage is committed only
when its mutations are confirmed.
-/

namespace BeyoManager.Shopify.ProductSync

open Interaction PyText Relational Transition

section World

inductive Event
  | committed (row : SyncItem)
  | imageFound (item : ItemId) (id : PyStr) (image : StoredImage)
  | variantsFound (item : ItemId) (barcode : PyStr) (nodes : List VariantNode)
  | sent (item : ItemId) (mutation : Mutation)
  | confirmed (item : ItemId) (mutation : Mutation) (reply : MutationReply)

def Event.item : Event → ItemId
  | .committed row => row.clientId
  | .imageFound item _ _ => item
  | .variantsFound item _ _ => item
  | .sent item _ => item
  | .confirmed item _ _ => item

/-- The row that an event commits. -/
def Event.row? : Event → Option SyncItem
  | .committed row => some row
  | .imageFound .. | .variantsFound .. | .sent .. | .confirmed .. => none

structure World where
  stored : ItemId → Option SyncItem
  log : List Event

namespace World

def commit (w : World) (row : SyncItem) : World :=
  ⟨Function.update w.stored row.clientId (some row), w.log ++ [.committed row]⟩

def record (w : World) (events : List Event) : World := ⟨w.stored, w.log ++ events⟩

def trail (w : World) (i : ItemId) : List Event := w.log.filter fun e => e.item = i

end World

/-- What may be answered: anything of Shopify, the stored rows of the database. -/
def answers : World → (q : Question) → q.Answer → World → Prop
  | w, .rows workspaceId ids, rows, w' => w' = w ∧ (rows.map SyncItem.clientId).Nodup ∧
      ∀ row, row ∈ rows ↔ row.workspaceId = workspaceId ∧ row.clientId ∈ ids ∧
        w.stored row.clientId = some row
  | w, .reload id, row, w' => w' = w ∧ w.stored id = some row
  | w, .commit row, .ok (), w' => w' = w.commit row
  | w, .commit _, .error _, w' => w' = w
  | w, .mutate item mutation, .ok reply, w' =>
      w' = w.record [.sent item mutation, .confirmed item mutation reply]
  | w, .mutate item mutation, .error _, w' => w' = w.record [.sent item mutation]
  | w, .shops _, _, w' => w' = w
  | w, .image item id, some image, w' => w' = w.record [.imageFound item id image]
  | w, .image .., none, w' => w' = w
  | w, .findVariants item barcode, .ok nodes, w' =>
      w' = w.record [.variantsFound item barcode nodes]
  | w, .findVariants .., .error _, w' => w' = w
  | w, .locations, _, w' => w' = w
  | w, .inventoryState .., _, w' => w' = w

def dies : World → Question → World → Prop
  | w, .commit row, w' => w' = w ∨ w' = w.commit row
  | w, .mutate item mutation, w' => w' = w ∨ w' = w.record [.sent item mutation]
  | w, _, w' => w' = w

def setting : Setting Question Question.Answer World := ⟨answers, dies⟩

/-- A row as `enqueue_shopify_product_sync` inserts it. -/
def IsEnqueued (row : SyncItem) : Prop :=
  row.status = .pending ∧ row.stage = .queued ∧ row.requestedOperation = none ∧
    row.shopifyProductId = none ∧ row.shopifyVariantId = none ∧
    row.shopifyInventoryItemId = none ∧ row.inventoryResult = none

def Enqueues (w w' : World) : Prop :=
  ∃ row, IsEnqueued row ∧ w.stored row.clientId = none ∧ w' = w.commit row

/-- A delivery of the task: the environment of the worker, the workspace and the ids. -/
structure Delivery where
  env : Environment
  workspaceId : PyStr
  syncItemClientIds : List ItemId

def Delivery.program (d : Delivery) :
    Program Question Question.Answer (Except Failure PUnit × List SyncItem) :=
  handleShopifyProcessProducts d.env d.workspaceId d.syncItemClientIds []

/-- The worlds that enqueued rows and deliveries lead to. -/
def Reached (w : World) : Prop := Reaches setting Delivery.program Enqueues ⟨fun _ => none, []⟩ w

end World

section Legality

def entriesOf (row : SyncItem) : List InventoryEntry :=
  match resolveAbsoluteInventoryEntries row.normalizedPayload.inventory with
  | .ok (entries, _) => entries
  | .error _ => []

/-- Two rows ask for the same; only the shape of the inventory may differ. -/
structure SameRequest (row row' : SyncItem) : Prop where
  clientId : row'.clientId = row.clientId
  product : row'.normalizedPayload.product = row.normalizedPayload.product
  variant : row'.normalizedPayload.variant = row.normalizedPayload.variant
  image : row'.normalizedPayload.image = row.normalizedPayload.image
  imageAltText : row'.normalizedPayload.imageAltText = row.normalizedPayload.imageAltText
  metafields : row'.normalizedPayload.metafields = row.normalizedPayload.metafields
  entries : entriesOf row' = entriesOf row

/-- The media of the image that the row asks for, and the events that found the image. -/
inductive Illustrated (row : SyncItem) : List Event → Option Media → Prop
  | noImage (himage : row.normalizedPayload.image = none) : Illustrated row [] none
  | ofUrl {url source : PyStr} (himage : row.normalizedPayload.image = some (.imageUrl url))
      (hsource : cleanStr (some url) = some source) :
      Illustrated row [] (some ⟨source, cleanStr row.normalizedPayload.imageAltText⟩)
  | ofImage {id : PyStr} {image : StoredImage}
      (himage : row.normalizedPayload.image = some (.imageId id)) :
      Illustrated row [.imageFound row.clientId id image]
        (some ⟨image.url, cleanStr row.normalizedPayload.imageAltText⟩)

/-- The variant that has the barcode of the row, and the events that found it. -/
inductive Searched (row : SyncItem) : List Event → Option VariantMatch → Prop
  | noBarcode (hbarcode : cleanStr row.normalizedPayload.variant.barcode = none) :
      Searched row [] none
  | ofBarcode {barcode : PyStr} {nodes : List VariantNode} {found : Option VariantMatch}
      (hbarcode : cleanStr row.normalizedPayload.variant.barcode = some barcode)
      (hfound : selectExactVariantMatch nodes barcode = .ok found) :
      Searched row [.variantsFound row.clientId barcode nodes] found

def Asks (row : SyncItem) : Mutation → Prop
  | .create product media | .update _ product media => product = row.normalizedPayload.product ∧
      ∃ events, Illustrated row events media
  | .configureVariant productId variantId variant => productId = row.shopifyProductId.getD [] ∧
      variantId = row.shopifyVariantId.getD [] ∧ variant = row.normalizedPayload.variant
  | .enableTracking inventoryItemId | .activate inventoryItemId _ _ =>
      row.shopifyInventoryItemId = some inventoryItemId
  | .setQuantities inventoryItemId quantities uri key =>
      row.shopifyInventoryItemId = some inventoryItemId ∧ quantities = entriesOf row ∧
        uri = ofString "managerbeyo://inventory-set/" ++ row.clientId ∧
        key = ofString "shopify-inventory-set:" ++ row.clientId
  | .setMetafields productId batch => productId = row.shopifyProductId ∧
      batch ∈ metafieldBatches row.normalizedPayload.metafields

/-- The events that bring an item to a stage, in their order: what was found for it, and the
mutations that were confirmed. The product operation names the variant that is configured, and
the configuration the variant of the row. -/
inductive Performed (row : SyncItem) : ℕ → PyStr → List Event → Prop
  | created {productId variantId : PyStr} {media : Option Media} {reply : MutationReply}
      {seen searched : List Event} (hmedia : Illustrated row seen media)
      (hsearched : Searched row searched none) (hid : row.shopifyProductId = some productId)
      (hreply : cleanStr reply.productId = some productId)
      (hvariant : cleanStr reply.variantId = some variantId) :
      Performed row 1 variantId (seen ++ searched ++
        [.confirmed row.clientId (.create row.normalizedPayload.product media) reply])
  | updated {found : VariantMatch} {media : Option Media} {reply : MutationReply}
      {seen searched : List Event} (hmedia : Illustrated row seen media)
      (hsearched : Searched row searched (some found))
      (hid : row.shopifyProductId = some found.productId) :
      Performed row 1 found.variantId (seen ++ searched ++ [.confirmed row.clientId
        (.update found.productId row.normalizedPayload.product media) reply])
  | configured {events : List Event} {productId variantId : PyStr} {reply : MutationReply}
      (h : Performed row 1 variantId events) (hid : row.shopifyProductId = some productId) :
      Performed row 2 ((cleanStr reply.variantId).getD variantId)
        (events ++ [.confirmed row.clientId
        (.configureVariant productId variantId row.normalizedPayload.variant) reply])
  | inventorySet {events : List Event} {variantId inventoryItemId : PyStr} {reply : MutationReply}
      (h : Performed row 2 variantId events)
      (hid : row.shopifyInventoryItemId = some inventoryItemId) (hne : entriesOf row ≠ []) :
      Performed row 3 variantId (events ++ [.confirmed row.clientId
        (.setQuantities inventoryItemId (entriesOf row)
          (ofString "managerbeyo://inventory-set/" ++ row.clientId)
          (ofString "shopify-inventory-set:" ++ row.clientId)) reply])
  | noInventory {events : List Event} {variantId : PyStr} (h : Performed row 2 variantId events)
      (hnil : entriesOf row = []) : Performed row 3 variantId events

def ConfirmsBatch (row : SyncItem) (batch : List Metafield) (e : Event) : Prop :=
  ∃ reply, e = .confirmed row.clientId (.setMetafields row.shopifyProductId batch) reply

/-- Everything that the row asks for was confirmed, in its order. -/
def Completed (row : SyncItem) (before : List Event) : Prop :=
  ∃ variantId events batches, row.shopifyVariantId = some variantId ∧
    Performed row 3 variantId events ∧
    List.Forall₂ (ConfirmsBatch row) (metafieldBatches row.normalizedPayload.metafields) batches ∧
    (events ++ batches).Sublist before

def HasReached (row : SyncItem) (n : ℕ) (before : List Event) : Prop :=
  ∃ variantId events, row.shopifyVariantId = some variantId ∧ Performed row n variantId events ∧
    events.Sublist before

/-- The stage of the row was reached, and its success, if it has succeeded. -/
structure Backed (before : List Event) (row : SyncItem) : Prop where
  performed : row.stage ≠ .queued → HasReached row row.stage.order before
  completed : row.status = .succeeded → row.stage = .inventorySet ∧ Completed row before
  clean : cleanStr row.shopifyInventoryItemId = row.shopifyInventoryItemId

def lastRow (before : List Event) : Option SyncItem := (before.filterMap Event.row?).getLast?

structure Advances (row row' : SyncItem) : Prop where
  request : SameRequest row row'
  stage : row.stage.order ≤ row'.stage.order
  product : 1 ≤ row.stage.order → row'.shopifyProductId = row.shopifyProductId
  inventoryItem : 2 ≤ row.stage.order → row'.shopifyInventoryItemId = row.shopifyInventoryItemId

def Permitted (before : List Event) : Event → Prop
  | .committed row => Backed before row ∧ ∀ last ∈ lastRow before, Advances last row
  | .imageFound .. | .variantsFound .. => ∃ row ∈ lastRow before, row.stage = .queued
  | .sent _ mutation =>
      ∃ row ∈ lastRow before, mutation.order = row.stage.order + 1 ∧ Asks row mutation
  | .confirmed item mutation _ => before.getLast? = some (.sent item mutation)

def Legal (l : List Event) : Prop := ∀ before e after, l = before ++ e :: after → Permitted before e

/-- The log of every item is legal, and the stored row is the one that was committed last. -/
structure Safe (w : World) : Prop where
  legal : ∀ i, Legal (w.trail i)
  stored : ∀ i, lastRow (w.trail i) = w.stored i

end Legality

section Legality

variable {l : List Event} {e : Event} {row last : SyncItem}

theorem Legal.append (h : Legal l) (he : Permitted l e) : Legal (l ++ [e]) := by
  intro before x after heq
  rcases List.eq_nil_or_concat after with rfl | ⟨after, y, rfl⟩
  · obtain ⟨rfl, hx⟩ := List.append_inj' heq rfl
    obtain rfl : e = x := by simpa using hx
    exact he
  · rw [List.concat_eq_append, ← List.cons_append, ← List.append_assoc] at heq
    exact h before x after (List.append_inj' heq rfl).1

theorem lastRow_committed : lastRow (l ++ [.committed row]) = some row := by
  simp [lastRow, Event.row?]

theorem lastRow_append_of_none (he : e.row? = none) : lastRow (l ++ [e]) = lastRow l := by
  rw [lastRow, List.filterMap_append, List.filterMap_cons, he]
  simp [lastRow]

theorem committed_of_lastRow (h : lastRow l = some row) : .committed row ∈ l := by
  obtain ⟨e, he, hrow⟩ := List.mem_filterMap.mp (List.mem_of_getLast? h)
  cases e with
  | committed row' =>
    obtain rfl : row' = row := Option.some.inj hrow
    exact he
  | imageFound | variantsFound | sent | confirmed => cases hrow

theorem Completed.mono {l' : List Event} (h : Completed row l) (hl : l.Sublist l') :
    Completed row l' := by
  obtain ⟨variantId, events, batches, hvariant, hevents, hbatches, hsub⟩ := h
  exact ⟨variantId, events, batches, hvariant, hevents, hbatches, hsub.trans hl⟩

theorem HasReached.mono {n : ℕ} {l' : List Event} (h : HasReached row n l) (hl : l.Sublist l') :
    HasReached row n l' := by
  obtain ⟨variantId, events, hvariant, hevents, hsub⟩ := h
  exact ⟨variantId, events, hvariant, hevents, hsub.trans hl⟩

theorem Backed.mono {l' : List Event} (h : Backed l row) (hl : l.Sublist l') : Backed l' row := by
  refine ⟨fun hstage => (h.performed hstage).mono hl, fun hstatus => ?_, h.clean⟩
  exact ⟨(h.completed hstatus).1, (h.completed hstatus).2.mono hl⟩

theorem Legal.backed (h : Legal l) (hlast : lastRow l = some row) : Backed l row := by
  obtain ⟨before, after, rfl⟩ := List.append_of_mem (committed_of_lastRow hlast)
  exact (h before _ after rfl).1.mono (List.sublist_append_left _ _)

theorem SameRequest.refl (row : SyncItem) : SameRequest row row :=
  ⟨rfl, rfl, rfl, rfl, rfl, rfl, rfl⟩

theorem SameRequest.trans {row' row'' : SyncItem} (h : SameRequest row row')
    (h' : SameRequest row' row'') : SameRequest row row'' where
  clientId := h'.clientId.trans h.clientId
  product := h'.product.trans h.product
  variant := h'.variant.trans h.variant
  image := h'.image.trans h.image
  imageAltText := h'.imageAltText.trans h.imageAltText
  metafields := h'.metafields.trans h.metafields
  entries := h'.entries.trans h.entries

theorem SameRequest.of_payload {row' : SyncItem} (hid : row'.clientId = row.clientId)
    (hpayload : row'.normalizedPayload = row.normalizedPayload) : SameRequest row row' := by
  refine ⟨hid, ?_, ?_, ?_, ?_, ?_, by rw [entriesOf, entriesOf, hpayload]⟩
  all_goals rw [hpayload]

theorem SameRequest.symm {row' : SyncItem} (h : SameRequest row row') : SameRequest row' row :=
  ⟨h.clientId.symm, h.product.symm, h.variant.symm, h.image.symm, h.imageAltText.symm,
    h.metafields.symm, h.entries.symm⟩

theorem Illustrated.congr {row' : SyncItem} {events : List Event} {media : Option Media}
    (h : Illustrated row events media) (hrequest : SameRequest row row') :
    Illustrated row' events media := by
  cases h with
  | noImage himage => exact .noImage (hrequest.image.trans himage)
  | ofUrl himage hsource =>
    rw [← hrequest.imageAltText]
    exact .ofUrl (hrequest.image.trans himage) hsource
  | ofImage himage =>
    rw [← hrequest.imageAltText, ← hrequest.clientId]
    exact .ofImage (hrequest.image.trans himage)

theorem Searched.congr {row' : SyncItem} {events : List Event} {found : Option VariantMatch}
    (h : Searched row events found) (hrequest : SameRequest row row') :
    Searched row' events found := by
  cases h with
  | noBarcode hbarcode => exact .noBarcode (by rw [hrequest.variant, hbarcode])
  | ofBarcode hbarcode hfound =>
    rw [← hrequest.clientId]
    exact .ofBarcode (by rw [hrequest.variant, hbarcode]) hfound

/-- What was performed for a row was performed for every row that asks for the same, of the same
product. -/
theorem Performed.congr {row' : SyncItem} {n : ℕ} {variantId : PyStr} {events : List Event}
    (h : Performed row n variantId events) (hrequest : SameRequest row row')
    (hproduct : row'.shopifyProductId = row.shopifyProductId)
    (hinventory : 3 ≤ n → row'.shopifyInventoryItemId = row.shopifyInventoryItemId) :
    Performed row' n variantId events := by
  induction h with
  | created hmedia hsearched hid hreply hvariant =>
    rw [← hrequest.clientId, ← hrequest.product]
    exact .created (hmedia.congr hrequest) (hsearched.congr hrequest) (hproduct.trans hid) hreply
      hvariant
  | updated hmedia hsearched hid =>
    rw [← hrequest.clientId, ← hrequest.product]
    exact .updated (hmedia.congr hrequest) (hsearched.congr hrequest) (hproduct.trans hid)
  | configured _ hid ih =>
    rw [← hrequest.clientId, ← hrequest.variant]
    exact .configured (ih fun h => absurd h (by decide)) (hproduct.trans hid)
  | inventorySet _ hid hne ih =>
    rw [← hrequest.clientId, ← hrequest.entries]
    exact .inventorySet (ih fun h => absurd h (by decide)) ((hinventory le_rfl).trans hid)
      (hrequest.entries ▸ hne)
  | noInventory _ hnil ih =>
    exact .noInventory (ih fun h => absurd h (by decide)) (hrequest.entries.trans hnil)

theorem Performed.productId {n : ℕ} {variantId : PyStr} {events : List Event}
    (h : Performed row n variantId events) :
      ∃ productId, row.shopifyProductId = some productId := by
  induction h with
  | created _ _ hid _ _ => exact ⟨_, hid⟩
  | updated _ _ hid => exact ⟨_, hid⟩
  | configured _ hid _ => exact ⟨_, hid⟩
  | inventorySet _ _ _ ih => exact ih
  | noInventory _ _ ih => exact ih

theorem HasReached.congr {row' : SyncItem} {n : ℕ} (h : HasReached row n l)
    (hrequest : SameRequest row row') (hproduct : row'.shopifyProductId = row.shopifyProductId)
    (hvariant : row'.shopifyVariantId = row.shopifyVariantId)
    (hinventory : row'.shopifyInventoryItemId = row.shopifyInventoryItemId) :
    HasReached row' n l := by
  obtain ⟨variantId, events, hid, hevents, hsub⟩ := h
  exact ⟨variantId, events, hvariant.trans hid,
    hevents.congr hrequest hproduct fun _ => hinventory, hsub⟩

end Legality

section Worlds

variable {w : World} {row : SyncItem} {i j : ItemId} {mutation : Mutation} {reply : MutationReply}

theorem trail_commit : (w.commit row).trail i =
    if row.clientId = i then w.trail i ++ [.committed row] else w.trail i := by
  rw [World.trail, World.commit, List.filter_append]
  split_ifs with h <;> simp [World.trail, Event.item, h]

theorem trail_record (events : List Event) :
    (w.record events).trail i = w.trail i ++ events.filter fun e => e.item = i :=
  List.filter_append ..

theorem record_record (events events' : List Event) :
    w.record (events ++ events') = (w.record events).record events' := by
  rw [World.record, World.record, World.record, List.append_assoc]

theorem trail_sent : (w.record [.sent i mutation]).trail i = w.trail i ++ [.sent i mutation] := by
  rw [trail_record]
  simp [Event.item]

theorem trail_confirmed : (w.record [.sent i mutation, .confirmed i mutation reply]).trail i =
    w.trail i ++ [.sent i mutation] ++ [.confirmed i mutation reply] := by
  rw [trail_record]
  simp [Event.item]

@[simp] theorem stored_commit :
    (w.commit row).stored = Function.update w.stored row.clientId (some row) := rfl

@[simp] theorem stored_record (events : List Event) : (w.record events).stored = w.stored := rfl

theorem Safe.commit (h : Safe w) (hrow : Permitted (w.trail row.clientId) (.committed row)) :
    Safe (w.commit row) := by
  constructor
  · intro i
    rw [trail_commit]
    split_ifs with hi
    · subst hi
      exact (h.legal _).append hrow
    · exact h.legal i
  · intro i
    rw [trail_commit, stored_commit]
    split_ifs with hi
    · subst hi
      rw [lastRow_committed, Function.update_self]
    · rw [h.stored, Function.update_of_ne (Ne.symm hi)]

theorem Safe.record_of_none {e : Event} (h : Safe w) (hrow : e.row? = none)
    (he : Permitted (w.trail e.item) e) : Safe (w.record [e]) := by
  constructor
  · intro i
    rw [trail_record]
    by_cases hi : e.item = i
    · subst hi
      simpa using (h.legal _).append he
    · simpa [hi] using h.legal i
  · intro i
    rw [trail_record, stored_record]
    by_cases hi : e.item = i
    · subst hi
      simpa [lastRow_append_of_none hrow] using h.stored _
    · simpa [hi] using h.stored i

theorem Safe.sent (h : Safe w) (hsent : Permitted (w.trail i) (.sent i mutation)) :
    Safe (w.record [.sent i mutation]) := h.record_of_none rfl hsent

theorem Safe.confirmed (h : Safe w) (hsent : Permitted (w.trail i) (.sent i mutation)) :
    Safe (w.record [.sent i mutation, .confirmed i mutation reply]) := by
  rw [← List.singleton_append, record_record]
  refine (h.sent hsent).record_of_none rfl ?_
  change ((w.record [.sent i mutation]).trail i).getLast? = some (.sent i mutation)
  rw [trail_sent, List.getLast?_concat]

end Worlds

section Held

/-- The row of the worker may still be committed at the stage of the stored one. -/
structure Continues (stored row : SyncItem) : Prop where
  request : SameRequest stored row
  stage : row.stage = stored.stage
  product : row.shopifyProductId = stored.shopifyProductId
  variant : row.shopifyVariantId = stored.shopifyVariantId
  inventoryItem : row.shopifyInventoryItemId = stored.shopifyInventoryItemId

theorem Continues.refl (row : SyncItem) : Continues row row := ⟨.refl row, rfl, rfl, rfl, rfl⟩

/-- The rows of the other items, which a worker leaves alone. -/
structure Held (i : ItemId) (others : ItemId → Option SyncItem) (stored : SyncItem) (w : World) :
    Prop where
  safe : Safe w
  here : w.stored i = some stored
  others : ∀ j, j ≠ i → w.stored j = others j
  id : stored.clientId = i

variable {i : ItemId} {others : ItemId → Option SyncItem} {stored row : SyncItem} {w : World}
  {mutation : Mutation} {reply : MutationReply}

namespace Held

theorem lastRow (h : Held i others stored w) : lastRow (w.trail i) = some stored :=
  (h.safe.stored i).trans h.here

theorem backed (h : Held i others stored w) : Backed (w.trail i) stored :=
  (h.safe.legal i).backed h.lastRow

theorem permitted_sent (h : Held i others stored w)
    (horder : mutation.order = stored.stage.order + 1) (hasks : Asks stored mutation) :
    Permitted (w.trail i) (.sent i mutation) := ⟨stored, h.lastRow, horder, hasks⟩

theorem found {e : Event} (h : Held i others stored w) (hrow : e.row? = none) (hitem : e.item = i)
    (he : Permitted (w.trail i) e) : Held i others stored (w.record [e]) := by
  subst hitem
  exact ⟨h.safe.record_of_none hrow he, h.here, h.others, h.id⟩

theorem sent (h : Held i others stored w) (horder : mutation.order = stored.stage.order + 1)
    (hasks : Asks stored mutation) : Held i others stored (w.record [.sent i mutation]) :=
  ⟨h.safe.sent (h.permitted_sent horder hasks), h.here, h.others, h.id⟩

theorem confirmed (h : Held i others stored w) (horder : mutation.order = stored.stage.order + 1)
    (hasks : Asks stored mutation) :
    Held i others stored (w.record [.sent i mutation, .confirmed i mutation reply]) :=
  ⟨h.safe.confirmed (h.permitted_sent horder hasks), h.here, h.others, h.id⟩

theorem permitted_commit (h : Held i others stored w) (hadvances : Advances stored row)
    (hbacked : Backed (w.trail i) row) : Permitted (w.trail i) (.committed row) := by
  refine ⟨hbacked, fun last hlast => ?_⟩
  obtain rfl : stored = last := Option.some.inj (h.lastRow.symm.trans hlast)
  exact hadvances

theorem commit (h : Held i others stored w) (hadvances : Advances stored row)
    (hbacked : Backed (w.trail i) row) : Held i others row (w.commit row) := by
  have hid : row.clientId = i := hadvances.request.clientId.trans h.id
  refine ⟨h.safe.commit ?_, ?_, fun j hj => ?_, hid⟩
  · rw [hid]
    exact h.permitted_commit hadvances hbacked
  · rw [stored_commit, hid, Function.update_self]
  · rw [stored_commit, hid, Function.update_of_ne hj, h.others j hj]

end Held

theorem Continues.advances (h : Continues stored row) : Advances stored row :=
  ⟨h.request, by rw [h.stage], fun _ => h.product, fun _ => h.inventoryItem⟩

theorem Continues.backed {before : List Event} (h : Continues stored row)
    (hbacked : Backed before stored) (hstatus : row.status ≠ .succeeded) : Backed before row := by
  refine ⟨fun hstage => ?_, fun hs => absurd hs hstatus, ?_⟩
  · rw [h.stage] at hstage ⊢
    exact (hbacked.performed hstage).congr h.request h.product h.variant h.inventoryItem
  · rw [h.inventoryItem]
    exact hbacked.clean

end Held

end BeyoManager.Shopify.ProductSync
