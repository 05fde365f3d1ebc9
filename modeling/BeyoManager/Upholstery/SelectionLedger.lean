import BeyoManager.Upholstery.SelectionFrames

/-! # Selections in the books

The commands on item upholsteries keep the books: what they cancel gives back its need or its
stock, and what they open asks for an amount that is not negative.
-/

namespace BeyoManager.Upholstery

open Relational Transition

variable {db db' : Db} {now : Instant} {itemUpholsteryId newItemUpholsteryId newRequirementId
  newInventoryId : ClientId}

section Passes

/-- The books are right, and what is left of a loop is still in the table. -/
structure Pending (l rest : List ItemUpholsteryRequirement) (db : Db) : Prop where
  balanced : db.Balanced
  keyed : Keyed ItemUpholsteryRequirement.clientId rest
  subset : rest ⊆ l
  mem : ∀ r ∈ rest, r ∈ db.requirements

variable {pass : Db → ItemUpholsteryRequirement → Except CommandError Db}
  {l : List ItemUpholsteryRequirement}
  (hpass : ∀ db r db', r ∈ l → db.Balanced → r ∈ db.requirements → pass db r = .ok db' →
    db'.Balanced ∧ ∃ f, RewritesOne r.clientId f db db')
include hpass

theorem Pending.next {r : ItemUpholsteryRequirement} {rest : List ItemUpholsteryRequirement}
    (h : Pending l (r :: rest) db) (hok : pass db r = .ok db') : Pending l rest db' := by
  obtain ⟨hfresh, hkeyed⟩ := List.nodup_cons.mp
    (show (r.clientId :: rest.map (·.clientId)).Nodup from h.keyed)
  obtain ⟨h', f, hf⟩ := hpass db r db' (h.subset List.mem_cons_self) h.balanced
    (h.mem r List.mem_cons_self) hok
  refine ⟨h', hkeyed, fun x hx => h.subset (List.mem_cons_of_mem r hx), fun x hx => ?_⟩
  refine hf.mem_of_ne (h.mem x (List.mem_cons_of_mem r hx)) fun he => hfresh ?_
  exact he ▸ List.mem_map_of_mem hx

variable (hl : Keyed ItemUpholsteryRequirement.clientId l) (h : db.Balanced)
  (hmem : ∀ r ∈ l, r ∈ db.requirements)
include hl h hmem

theorem foldlM_balanced (hok : l.foldlM pass db = .ok db') : db'.Balanced :=
  (foldlM_loop (Pending l) (fun _ _ _ _ h hok => h.next hpass hok)
    ⟨h, hl, List.Subset.refl l, hmem⟩ hok).balanced

theorem foldlM_balanced_eq_error {e : CommandError} (hf : l.foldlM pass db = .error e) :
    ∃ r ∈ l, ∃ db₁, db₁.Balanced ∧ r ∈ db₁.requirements ∧ pass db₁ r = .error e := by
  obtain ⟨r, rest, db₁, h₁, hr⟩ := foldlM_eq_error (Pending l)
    (fun _ _ _ _ h hok => h.next hpass hok) ⟨h, hl, List.Subset.refl l, hmem⟩ hf
  exact ⟨r, h₁.subset List.mem_cons_self, db₁, h₁.balanced, h₁.mem r List.mem_cons_self, hr⟩

end Passes

section Loops

theorem keyed_filter_requirements (h : db.Balanced) (p : ItemUpholsteryRequirement → Bool) :
    Keyed ItemUpholsteryRequirement.clientId (db.requirements.filter p) :=
  keyed_filter h.books.requirementsKeyed p

theorem available_of_mem {r : ItemUpholsteryRequirement}
    (hr : r ∈ db.ownRequirements itemUpholsteryId [.available]) :
    r ∈ db.requirements ∧ r.state = .available ∧ r.isDeleted = false := by
  obtain ⟨hr, hs⟩ := List.mem_filter.mp hr
  simp only [Bool.and_eq_true, List.contains_cons, List.contains_nil, Bool.or_false, beq_iff_eq,
    Bool.not_eq_true'] at hs
  exact ⟨hr, hs.1.2, hs.2⟩

theorem inUse_or_available_of_mem {r : ItemUpholsteryRequirement}
    (hr : r ∈ db.ownRequirements itemUpholsteryId [.inUse, .available]) :
    r ∈ db.requirements ∧ (r.state = .inUse ∨ r.state = .available) ∧ r.isDeleted = false := by
  obtain ⟨hr, hs⟩ := List.mem_filter.mp hr
  simp only [Bool.and_eq_true, List.contains_cons, List.contains_nil, Bool.or_false, beq_iff_eq,
    Bool.or_eq_true, Bool.not_eq_true'] at hs
  exact ⟨hr, hs.1.2, hs.2⟩

theorem startRequirement_pass : ∀ db₁ r db₂, r ∈ db.ownRequirements itemUpholsteryId [.available] →
    db₁.Balanced → r ∈ db₁.requirements → startRequirement db₁ r = .ok db₂ →
      db₂.Balanced ∧ ∃ f, RewritesOne r.clientId f db₁ db₂ := by
  intro db₁ r db₂ hr h₁ hrdb hpass
  obtain ⟨-, hs, hd⟩ := available_of_mem hr
  exact ⟨startRequirement_balanced h₁ hrdb hd hs hpass, _, startRequirement_rewritesOne hpass⟩

theorem completeRequirement_pass : ∀ db₁ r db₂,
    r ∈ db.ownRequirements itemUpholsteryId [.inUse, .available] → db₁.Balanced →
      r ∈ db₁.requirements → completeRequirement db₁ r = .ok db₂ →
        db₂.Balanced ∧ ∃ f, RewritesOne r.clientId f db₁ db₂ := by
  intro db₁ r db₂ hr h₁ hrdb hpass
  obtain ⟨-, hs, hd⟩ := inUse_or_available_of_mem hr
  exact ⟨completeRequirement_balanced h₁ hrdb hd hs hpass, _, completeRequirement_rewritesOne hpass⟩

theorem startRequirements_balanced (h : db.Balanced)
    (hok : (db.ownRequirements itemUpholsteryId [.available]).foldlM startRequirement db =
      .ok db') : db'.Balanced :=
  foldlM_balanced startRequirement_pass (keyed_filter_requirements h _) h
    (fun _ hr => (available_of_mem hr).1) hok

theorem completeRequirements_balanced (h : db.Balanced)
    (hok : (db.ownRequirements itemUpholsteryId [.inUse, .available]).foldlM
      completeRequirement db =
      .ok db') : db'.Balanced :=
  foldlM_balanced completeRequirement_pass (keyed_filter_requirements h _) h
    (fun _ hr => (inUse_or_available_of_mem hr).1) hok

theorem cancelRequirements_balanced (h : db.Balanced) {l : List ItemUpholsteryRequirement}
    (hl : Keyed ItemUpholsteryRequirement.clientId l)
    (hmem : ∀ r ∈ l, r ∈ db.requirements ∧ r.isDeleted = false)
    (hok : cancelRequirements now db l = .ok db') : db'.Balanced := by
  have hperm := Sorting.sortBy_perm ItemUpholsteryRequirement.clientId l
  refine foldlM_balanced ?_ (hl.perm hperm) h (fun r hr => (hmem r (hperm.subset hr)).1) hok
  intro db₁ r db₂ hr h₁ hrdb hpass
  refine ⟨cancelRequirement_balanced h₁ hrdb (hmem r (hperm.subset hr)).2 hpass, ?_⟩
  by_cases hunfinished : r.state.isUnfinished
  · exact ⟨_, cancelRequirement_rewritesOne hunfinished hpass⟩
  · rw [cancelRequirement, if_neg hunfinished] at hpass
    cases hpass
    exact ⟨id, rfl, updateWhere_id.symm, rfl⟩

end Loops

/-- The books are right, and the item upholsteries have no negative amounts. -/
structure Db.Sound (db : Db) : Prop where
  balanced : db.Balanced
  selected : ∀ u ∈ db.itemUpholsteries, ∀ n ∈ u.amountMeters, 0 ≤ n

theorem Narrows.sound (h : Narrows db db') (hs : db.Sound) (hb : db'.Balanced) : db'.Sound :=
  ⟨hb, h.itemUpholsteries ▸ hs.selected⟩

section Selection

variable {upholsteryId : Option ClientId} {amountMeters : Option Meters}
  {source : ItemUpholsterySource} {amount : Meters}

theorem updateItemUpholstery_sound (h : db.Sound) {f : ItemUpholstery → ItemUpholstery}
    (hf : ∀ u ∈ db.itemUpholsteries, ∀ n ∈ (f u).amountMeters, 0 ≤ n) :
    (db.updateItemUpholstery itemUpholsteryId f).Sound := by
  refine ⟨⟨h.balanced.books, h.balanced.unclamped⟩, fun u' hu' => ?_⟩
  obtain ⟨u, hu, rfl⟩ := mem_updateWhere.mp hu'
  split
  · exact hf u hu
  · exact h.selected u hu

theorem Opens.sound {r : ItemUpholsteryRequirement}
    (hopens : Opens itemUpholsteryId upholsteryId r db db') (h : db.Sound) (hb : db'.Balanced) :
    db'.Sound := by
  refine ⟨hb, fun u' hu' => ?_⟩
  obtain ⟨u, hu, rfl⟩ := mem_updateWhere.mp (hopens.itemUpholsteries ▸ hu')
  split <;> exact h.selected u hu

theorem toColumn_nonneg (h : ∀ quantity ∈ amountMeters, 0 ≤ quantity) :
    ∀ n ∈ amountMeters.map (·.toColumn), 0 ≤ n := by
  intro n hn
  obtain ⟨quantity, hq, rfl⟩ := Option.map_eq_some_iff.mp hn
  exact FixedScale.store_nonneg (h quantity hq)

theorem createInitialRequirement_sound (h : db.Sound)
    (hamount : ∀ quantity ∈ amountMeters, 0 ≤ quantity)
    (hshort : source = .internal → ∀ quantity ∈ amountMeters, Meters.IsShort quantity)
    (hok : createInitialRequirement db itemUpholsteryId upholsteryId amountMeters source
      newRequirementId newInventoryId now = .ok db') : db'.Sound := by
  obtain ⟨r, hopens⟩ := createInitialRequirement_opens hok
  exact hopens.sound h (createInitialRequirement_balanced h.balanced hamount hshort hok)

theorem createItemUpholsteryInSession_sound {itemId created : ClientId}
    {clientId : Option ClientId} (h : db.Sound)
    (hamount : ∀ quantity ∈ amountMeters, 0 ≤ quantity)
    (hshort : source = .internal → ∀ quantity ∈ amountMeters, Meters.IsShort quantity)
    (hok : createItemUpholsteryInSession db itemId upholsteryId amountMeters source clientId
      newItemUpholsteryId newRequirementId newInventoryId now = .ok (db', created)) :
    db'.Sound := by
  obtain ⟨-, hok⟩ := throwIf_bind_eq_ok.mp hok
  obtain ⟨db₁, hins, hok⟩ := bind_eq_ok.mp hok
  have h₁ : db₁.Sound := by
    obtain ⟨-, hins⟩ := throwIf_bind_eq_ok.mp hins
    obtain ⟨-, hins⟩ := throwIf_bind_eq_ok.mp hins
    cases hins
    refine ⟨⟨h.balanced.books, h.balanced.unclamped⟩, fun u hu => ?_⟩
    rcases List.mem_append.mp hu with hu | hu
    · exact h.selected u hu
    · obtain rfl := List.mem_singleton.mp hu
      exact toColumn_nonneg hamount
  split at hok
  · cases hok
    exact h₁
  · obtain ⟨db₂, hinit, hok⟩ := bind_eq_ok.mp hok
    cases hok
    exact createInitialRequirement_sound h₁ hamount hshort hinit

theorem writeSelection_sound (h : db.Sound)
    (hamount : ∀ quantity ∈ amountMeters, 0 ≤ quantity)
    (hok : db.writeSelection itemUpholsteryId upholsteryId source amountMeters = .ok db') :
    db'.Sound := by
  obtain ⟨-, hok⟩ := throwIf_bind_eq_ok.mp hok
  cases hok
  exact updateItemUpholstery_sound h fun u _ => toColumn_nonneg hamount

theorem cancelRequirements_sound {l : List ItemUpholsteryRequirement} (h : db.Sound)
    (hl : Keyed ItemUpholsteryRequirement.clientId l)
    (hmem : ∀ r ∈ l, r ∈ db.requirements ∧ r.isDeleted = false)
    (hok : cancelRequirements now db l = .ok db') : db'.Sound := by
  obtain ⟨ids, hcancels, -⟩ := cancelRequirements_cancels h.balanced.books.requirementsKeyed
    (fun r hr => (hmem r hr).1) hok
  exact ⟨cancelRequirements_balanced h.balanced hl hmem hok,
    hcancels.itemUpholsteries ▸ h.selected⟩

theorem cancelRequirement_sound {r : ItemUpholsteryRequirement} (h : db.Sound)
    (hr : r ∈ db.requirements) (hd : r.isDeleted = false)
    (hok : cancelRequirements now db [r] = .ok db') : db'.Sound := by
  refine cancelRequirements_sound h ?_ (fun x hx => ?_) hok
  · exact List.nodup_singleton r.clientId
  · obtain rfl := List.mem_singleton.mp hx
    exact ⟨hr, hd⟩

theorem fetchItemUpholstery_eq_some {u : ItemUpholstery}
    (h : db.fetchItemUpholstery itemUpholsteryId = some u) :
    u ∈ db.itemUpholsteries ∧ u.clientId = itemUpholsteryId ∧ u.isDeleted = false := by
  have := List.find?_some h
  simp only [Bool.and_eq_true, beq_iff_eq, Bool.not_eq_true'] at this
  exact ⟨List.mem_of_find?_eq_some h, this.1, this.2⟩

/-- The amount of a request that is counted into an inventory row, which the fabric of a customer
is not. -/
def Db.countedUpdate (db : Db) (request : UpdateItemUpholsteryRequest) : Option Meters :=
  request.amountMeters.join.filter fun _ =>
    (db.fetchItemUpholstery request.clientId).all fun iup =>
      request.source.getD iup.source == .internal

theorem mem_countedUpdate {request : UpdateItemUpholsteryRequest} :
    amount ∈ db.countedUpdate request ↔ amount ∈ request.amountMeters.join ∧
      ∀ iup ∈ db.fetchItemUpholstery request.clientId,
        request.source.getD iup.source = .internal := by
  cases hfetch : db.fetchItemUpholstery request.clientId <;>
    simp [Db.countedUpdate, Option.filter_eq_some_iff, hfetch]

theorem updateItemUpholsteryInSession_sound {request : UpdateItemUpholsteryRequest} (h : db.Sound)
    (hamount : ∀ amountMeters ∈ request.amountMeters, ∀ quantity ∈ amountMeters, 0 ≤ quantity)
    (hshort : ∀ quantity ∈ db.countedUpdate request, Meters.IsShort quantity)
    (hok : updateItemUpholsteryInSession db request newRequirementId newInventoryId now = .ok db') :
    db'.Sound := by
  obtain ⟨iup, hiup, hok⟩ := bind_eq_ok.mp hok
  obtain ⟨u, -, hok⟩ := bind_eq_ok.mp hok
  have hfetch := getOr_eq_ok.mp hiup
  have hiup := fetchItemUpholstery_eq_some hfetch
  have hcounted : request.source.getD iup.source = .internal → ∀ quantity ∈
      request.amountMeters.getD (iup.amountMeters.map (·.value)), Meters.IsShort quantity := by
    intro hsource quantity hq
    cases hrequest : request.amountMeters with
    | some amountMeters =>
      rw [hrequest] at hq
      refine hshort quantity (mem_countedUpdate.mpr ⟨by rw [hrequest]; exact hq, ?_⟩)
      rintro u hu
      rwa [Option.some_inj.mp (hfetch.symm.trans hu)] at hsource
    | none =>
      rw [hrequest] at hq
      obtain ⟨n, -, rfl⟩ := Option.map_eq_some_iff.mp hq
      exact n.isShort
  have hresolved : ∀ quantity ∈ request.amountMeters.getD (iup.amountMeters.map (·.value)),
      0 ≤ quantity := by
    intro quantity hq
    cases hrequest : request.amountMeters with
    | some amountMeters =>
      rw [hrequest] at hq
      exact hamount amountMeters hrequest quantity hq
    | none =>
      rw [hrequest] at hq
      obtain ⟨n, hn, rfl⟩ := Option.map_eq_some_iff.mp hq
      exact FixedScale.value_nonneg.mpr (h.selected iup hiup.1 n hn)
  split at hok
  case isFalse =>
    cases hok
    refine updateItemUpholstery_sound h fun u hu => ?_
    cases hrequest : request.amountMeters with
    | some amountMeters => exact toColumn_nonneg (hamount amountMeters hrequest)
    | none => exact h.selected u hu
  split at hok
  · obtain ⟨db₁, hwrite, hok⟩ := bind_eq_ok.mp hok
    have h₁ := writeSelection_sound h hresolved hwrite
    split at hok
    · exact createInitialRequirement_sound h₁ hresolved hcounted hok
    · cases hok
      exact h₁
  · obtain ⟨r, hr, hok⟩ := bind_eq_ok.mp hok
    obtain ⟨-, hok⟩ := throwIf_bind_eq_ok.mp hok
    obtain ⟨db₁, hcancel, hok⟩ := bind_eq_ok.mp hok
    obtain ⟨-, hok⟩ := throwIf_bind_eq_ok.mp hok
    obtain ⟨db₂, hwrite, hok⟩ := bind_eq_ok.mp hok
    obtain ⟨hr, -, hd, -⟩ := fetchOwnActiveRequirement_eq_some (getOr_eq_ok.mp hr)
    have h₁ := cancelRequirement_sound h hr hd hcancel
    exact createInitialRequirement_sound (writeSelection_sound h₁ hresolved hwrite) hresolved
      hcounted hok

theorem mem_of_mem_coerceZeroToNull (h : amount ∈ coerceZeroToNull amountMeters) :
    amount ∈ amountMeters := (Option.filter_eq_some_iff.mp h).1

theorem coerceZeroToNull_nonneg : ∀ quantity ∈ coerceZeroToNull amountMeters, 0 ≤ quantity := by
  intro quantity hq
  have := (Option.filter_eq_some_iff.mp hq).2
  exact (by simpa using this : 0 < quantity).le

theorem mem_join_of_coerced {amountMeters : Option (Option Meters)}
    (h : amount ∈ (amountMeters.map coerceZeroToNull).join) : amount ∈ amountMeters.join := by
  cases amountMeters with
  | none => exact h
  | some amountMeters => exact mem_of_mem_coerceZeroToNull h

theorem mem_countedUpdate_of_coerced {request : UpdateItemUpholsteryRequest}
    (h : amount ∈ db.countedUpdate
      { request with amountMeters := request.amountMeters.map coerceZeroToNull }) :
    amount ∈ db.countedUpdate request := by
  obtain ⟨hmem, hsource⟩ := mem_countedUpdate.mp h
  exact mem_countedUpdate.mpr ⟨mem_join_of_coerced hmem, hsource⟩

theorem updateItemUpholstery_request_sound {request : UpdateItemUpholsteryRequest} (h : db.Sound)
    (hshort : ∀ quantity ∈ db.countedUpdate request, Meters.IsShort quantity)
    (hok : updateItemUpholstery db request newRequirementId newInventoryId now = .ok db') :
    db'.Sound := by
  refine updateItemUpholsteryInSession_sound h (fun amountMeters hmem => ?_)
    (fun quantity hq => hshort quantity (mem_countedUpdate_of_coerced hq)) hok
  obtain ⟨_, -, rfl⟩ := Option.map_eq_some_iff.mp hmem
  exact coerceZeroToNull_nonneg

theorem deleteItemUpholstery_sound (h : db.Sound)
    (hok : deleteItemUpholstery db itemUpholsteryId now = .ok db') : db'.Sound := by
  unfold deleteItemUpholstery at hok
  obtain ⟨iup, -, hok⟩ := bind_eq_ok.mp hok
  cases hactive : db.fetchOwnActiveRequirement iup with
  | some r =>
    simp only [hactive] at hok
    obtain ⟨-, hok⟩ := throwIf_bind_eq_ok.mp hok
    obtain ⟨db₁, hcancel, hok⟩ := bind_eq_ok.mp hok
    cases hok
    obtain ⟨hr, -, hd, -⟩ := fetchOwnActiveRequirement_eq_some hactive
    have h₁ := cancelRequirement_sound h hr hd hcancel
    exact updateItemUpholstery_sound h₁ h₁.selected
  | none =>
    simp only [hactive] at hok
    cases hok
    exact updateItemUpholstery_sound h h.selected

/-- Writing the quantity of a requirement, and the need of its row, writes no selection. -/
theorem setRequirementQuantity_itemUpholsteries {iup : ItemUpholstery}
    {r : ItemUpholsteryRequirement}
    (hok : setRequirementQuantity db amount newInventoryId iup r = .ok db') :
    db'.itemUpholsteries = db.itemUpholsteries := by
  unfold setRequirementQuantity at hok
  split at hok
  · cases hok
    rfl
  split at hok
  · obtain ⟨⟨db₁, result⟩, hneed, hok⟩ := bind_eq_ok.mp hok
    cases hok
    exact (checkAndInjectNeed_rowsKept hneed).2.2.2
  · obtain ⟨inventoryId, -, hok⟩ := bind_eq_ok.mp hok
    dsimp only at hok
    split at hok
    · cases hok
      rfl
    · obtain ⟨⟨db₁, result⟩, hadjust, hok⟩ := bind_eq_ok.mp hok
      cases hok
      exact (adjustNeed_inventoryOnly hadjust).itemUpholsteries

theorem updateRequirementQuantity_sound (h : db.Sound) (hshort : amount.IsShort)
    (hok : updateRequirementQuantity db itemUpholsteryId amount newInventoryId = .ok db') :
    db'.Sound := by
  obtain ⟨hpos, hok⟩ := throwIf_bind_eq_ok.mp hok
  have hpos := not_le.mp hpos
  obtain ⟨iup, -, hok⟩ := bind_eq_ok.mp hok
  have hwith : (db.updateItemUpholstery iup.clientId fun u =>
      { u with amountMeters := some amount.toColumn }).Sound := by
    refine updateItemUpholstery_sound h fun u _ n hn => ?_
    obtain rfl := Option.some_inj.mp hn
    exact FixedScale.store_nonneg hpos.le
  dsimp only at hok
  split at hok
  · cases hok
    exact hwith
  · obtain ⟨u, -, hok⟩ := bind_eq_ok.mp hok
    obtain ⟨r, hr, hok⟩ := bind_eq_ok.mp hok
    obtain ⟨hmutable, hok⟩ := throwIf_bind_eq_ok.mp hok
    obtain ⟨hr, -, hd⟩ := fetchActiveRequirement_eq_some (getOr_eq_ok.mp hr)
    refine ⟨setRequirementQuantity_balanced hwith.balanced hr hd (not_not.mp hmutable) hpos.le
      hshort hok, ?_⟩
    rw [setRequirementQuantity_itemUpholsteries hok]
    exact hwith.selected

theorem applySurplusToRequirement_itemUpholsteries
    (hok : applySurplusToRequirement db itemUpholsteryId amount newRequirementId now = .ok db') :
    db'.itemUpholsteries = db.itemUpholsteries := by
  obtain ⟨-, hok⟩ := throwIf_bind_eq_ok.mp hok
  obtain ⟨iup, -, hok⟩ := bind_eq_ok.mp hok
  obtain ⟨u, -, hok⟩ := bind_eq_ok.mp hok
  obtain ⟨r, -, hok⟩ := bind_eq_ok.mp hok
  obtain ⟨-, hok⟩ := throwIf_bind_eq_ok.mp hok
  obtain ⟨-, hok⟩ := throwIf_bind_eq_ok.mp hok
  obtain ⟨inventoryId, -, hok⟩ := bind_eq_ok.mp hok
  obtain ⟨db₁, hadd, hok⟩ := bind_eq_ok.mp hok
  have hadd := (addStoredSurplus_inventoryOnly hadd).itemUpholsteries
  split at hok
  · cases hok
    exact hadd
  · obtain ⟨-, rfl⟩ := insertRequirement_eq_ok hok
    exact hadd

theorem applySurplusToRequirement_sound (h : db.Sound) (hshort : amount.IsShort)
    (htie : ¬ db.splitsAtTie itemUpholsteryId amount)
    (hok : applySurplusToRequirement db itemUpholsteryId amount newRequirementId now = .ok db') :
    db'.Sound :=
  ⟨applySurplusToRequirement_balanced h.balanced hshort htie hok,
    applySurplusToRequirement_itemUpholsteries hok ▸ h.selected⟩

end Selection

section Ensure

variable {itemId : ClientId} {data : ItemUpholsteryData} {created : ClientId × Bool}
  {amountMeters : Option Meters} {source : ItemUpholsterySource} {amount : Meters}

/-- The amount that is counted into an inventory row when an upholstery is ensured for an item,
which the fabric of a customer is not when the item has no upholstery yet. -/
def Db.countedAmount (db : Db) (itemId : ClientId) (source : ItemUpholsterySource)
    (amountMeters : Option Meters) : Option Meters :=
  amountMeters.filter fun _ =>
    source == .internal || !(db.currentItemUpholsteries itemId).isEmpty

theorem mem_countedAmount : amount ∈ db.countedAmount itemId source amountMeters ↔
    amount ∈ amountMeters ∧ (source = .internal ∨ db.currentItemUpholsteries itemId ≠ []) := by
  simp [Db.countedAmount, Option.filter_eq_some_iff]

theorem mem_countedAmount_of_coerced
    (h : amount ∈ db.countedAmount itemId source (coerceZeroToNull amountMeters)) :
    amount ∈ db.countedAmount itemId source amountMeters := by
  obtain ⟨hmem, hcounted⟩ := mem_countedAmount.mp h
  exact mem_countedAmount.mpr ⟨mem_of_mem_coerceZeroToNull hmem, hcounted⟩

theorem mem_countedAmount_of_current {current : ItemUpholstery}
    (hcurrent : db.currentItemUpholsteries itemId = [current]) (h : amount ∈ amountMeters) :
    amount ∈ db.countedAmount itemId source amountMeters :=
  mem_countedAmount.mpr ⟨h, .inr (by simp [hcurrent])⟩

theorem updateCurrentItemUpholstery_sound {current : ItemUpholstery} (h : db.Sound)
    (hshort : ∀ quantity ∈ data.amountMeters.join, Meters.IsShort quantity)
    (hok : updateCurrentItemUpholstery db data newRequirementId newInventoryId now current =
      .ok db') : db'.Sound := by
  obtain ⟨db₁, hupdate, hok⟩ := bind_eq_ok.mp hok
  have h₁ : db₁.Sound := by
    refine updateItemUpholsteryInSession_sound h (fun amountMeters hmem => ?_)
      (fun quantity hq => hshort quantity ?_) hupdate
    · obtain ⟨_, -, rfl⟩ := Option.map_eq_some_iff.mp hmem
      exact coerceZeroToNull_nonneg
    · exact mem_join_of_coerced (mem_countedUpdate.mp hq).1
  split at hok
  · rename_i amountMeters hamount
    split at hok
    · exact updateRequirementQuantity_sound h₁ (hshort amountMeters hamount) hok
    · cases hok
      exact h₁
  · cases hok
    exact h₁

theorem ensureItemUpholsteryInSession_sound (h : db.Sound)
    (hamount : ∀ quantity ∈ data.amountMeters.join, 0 ≤ quantity)
    (hshort : ∀ quantity ∈ db.countedAmount itemId data.source data.amountMeters.join,
      Meters.IsShort quantity)
    (hok : ensureItemUpholsteryInSession db itemId data newItemUpholsteryId newRequirementId
      newInventoryId now = .ok (db', created)) : db'.Sound := by
  rcases ensureItemUpholsteryInSession_cases hok with
    ⟨-, hcreate⟩ | ⟨current, r, hcurrent, -, -, hcreate⟩ | ⟨current, hcurrent, hupdate⟩
  · exact createItemUpholsteryInSession_sound h hamount
      (fun hsource quantity hq =>
        hshort quantity (mem_countedAmount.mpr ⟨hq, .inl hsource⟩)) hcreate
  · refine createItemUpholsteryInSession_sound ?_ hamount
      (fun _ quantity hq => hshort quantity (mem_countedAmount_of_current hcurrent hq)) hcreate
    exact updateItemUpholstery_sound h h.selected
  · exact updateCurrentItemUpholstery_sound h
      (fun quantity hq => hshort quantity (mem_countedAmount_of_current hcurrent hq)) hupdate

theorem createItemUpholstery_sound {request : CreateItemUpholsteryRequest} (h : db.Sound)
    (hshort : ∀ quantity ∈ db.countedAmount request.itemId request.source request.amountMeters,
      Meters.IsShort quantity)
    (hok : createItemUpholstery db request newItemUpholsteryId newRequirementId newInventoryId now =
      .ok db') : db'.Sound := by
  obtain ⟨u, -, hok⟩ := bind_eq_ok.mp hok
  obtain ⟨-, hok⟩ := throwIf_bind_eq_ok.mp hok
  obtain ⟨-, hok⟩ := throwIf_bind_eq_ok.mp hok
  obtain ⟨⟨db₁, created⟩, hensure, hok⟩ := bind_eq_ok.mp hok
  cases hok
  refine ensureItemUpholsteryInSession_sound h ?_
    (fun quantity hq => hshort quantity (mem_countedAmount_of_coerced hq)) hensure
  exact coerceZeroToNull_nonneg

theorem createTaskItemUpholstery_sound (h : db.Sound)
    (hshort : ∀ quantity ∈ db.countedAmount itemId data.source data.amountMeters.join,
      Meters.IsShort quantity)
    (hok : createTaskItemUpholstery db itemId data newItemUpholsteryId newRequirementId
      newInventoryId now = .ok db') : db'.Sound := by
  obtain ⟨u, -, hok⟩ := bind_eq_ok.mp hok
  obtain ⟨⟨db₁, created⟩, hensure, hok⟩ := bind_eq_ok.mp hok
  cases hok
  refine ensureItemUpholsteryInSession_sound h (fun quantity hq => ?_) (fun quantity hq => ?_)
    hensure
  · cases hdata : data.amountMeters with
    | none => simp [hdata] at hq
    | some amountMeters =>
      simp only [hdata, Option.map_some, Option.join_some] at hq
      exact coerceZeroToNull_nonneg quantity hq
  · obtain ⟨hq, hcounted⟩ := mem_countedAmount.mp hq
    exact hshort quantity (mem_countedAmount.mpr ⟨mem_join_of_coerced hq, hcounted⟩)

theorem createItemWithUpholstery_sound {request : CreateItemUpholsteryRequest} (h : db.Sound)
    (hshort : ∀ quantity ∈ db.countedAmount request.itemId request.source request.amountMeters,
      Meters.IsShort quantity)
    (hok : createItemWithUpholstery db request newItemUpholsteryId newRequirementId newInventoryId
      now = .ok db') : db'.Sound := by
  obtain ⟨u, -, hok⟩ := bind_eq_ok.mp hok
  obtain ⟨-, hok⟩ := throwIf_bind_eq_ok.mp hok
  obtain ⟨-, hok⟩ := throwIf_bind_eq_ok.mp hok
  obtain ⟨-, hok⟩ := throwIf_bind_eq_ok.mp hok
  obtain ⟨⟨db₁, created⟩, hensure, hok⟩ := bind_eq_ok.mp hok
  cases hok
  refine ensureItemUpholsteryInSession_sound ?_ ?_
    (fun quantity hq => hshort quantity (mem_countedAmount_of_coerced hq)) hensure
  · exact ⟨⟨h.balanced.books, h.balanced.unclamped⟩, h.selected⟩
  · exact coerceZeroToNull_nonneg

end Ensure

section Tasks

variable {taskId : ClientId}

theorem updateTask_sound (h : db.Sound) (f : Task → Task) : (db.updateTask taskId f).Sound :=
  ⟨⟨h.balanced.books, h.balanced.unclamped⟩, h.selected⟩

theorem deleteTask_sound (h : db.Sound) (hok : deleteTask db taskId now = .ok db') :
    db'.Sound := by
  obtain ⟨task, -, hok⟩ := bind_eq_ok.mp hok
  obtain ⟨-, hok⟩ := throwIf_bind_eq_ok.mp hok
  obtain ⟨db₁, hcancel, hok⟩ := bind_eq_ok.mp hok
  cases hok
  refine updateTask_sound (cancelRequirements_sound h (keyed_filter_requirements h.balanced _)
    (fun r hr => ?_) hcancel) _
  obtain ⟨hr, hp⟩ := List.mem_filter.mp hr
  simp only [Bool.and_eq_true, Bool.not_eq_true'] at hp
  exact ⟨hr, hp.1.1⟩

/-- Asking again for what a deleted task gave up keeps the books. -/
theorem reviveUpholsteryNeed_sound {deletedAt : Instant} {itemId : ClientId}
    {newItemUpholsteryIdOf newRequirementIdOf newInventoryIdOf : ClientId → ClientId}
    (h : db.Sound)
    (hok : reviveUpholsteryNeed deletedAt now newItemUpholsteryIdOf newRequirementIdOf
      newInventoryIdOf db itemId = .ok db') : db'.Sound := by
  unfold reviveUpholsteryNeed at hok
  split at hok
  · split at hok
    · rename_i current _ r hr
      split at hok
      · obtain ⟨⟨db₁, created⟩, hensure, hok⟩ := bind_eq_ok.mp hok
        cases hok
        refine ensureItemUpholsteryInSession_sound h (fun quantity hq => ?_)
          (fun quantity hq => ?_) hensure
        · obtain ⟨hr, -, -⟩ := fetchActiveRequirement_eq_some hr
          simp only [Option.join_some] at hq
          obtain ⟨n, hn, rfl⟩ := Option.map_eq_some_iff.mp hq
          have := h.balanced.books.amount_nonneg r hr
          rw [ItemUpholsteryRequirement.amount, hn, Option.getD_some] at this
          exact FixedScale.value_nonneg.mpr this
        · obtain ⟨n, -, rfl⟩ := Option.map_eq_some_iff.mp (mem_countedAmount.mp hq).1
          exact n.isShort
      · cases hok
        exact h
    · cases hok
      exact h
  · cases hok
    exact h

theorem restoreTask_sound
    {newItemUpholsteryIdOf newRequirementIdOf newInventoryIdOf : ClientId → ClientId}
    (h : db.Sound)
    (hok : restoreTask db taskId now newItemUpholsteryIdOf newRequirementIdOf newInventoryIdOf =
      .ok db') : db'.Sound := by
  obtain ⟨task, -, hok⟩ := bind_eq_ok.mp hok
  obtain ⟨-, hok⟩ := throwIf_bind_eq_ok.mp hok
  dsimp only at hok
  split at hok
  · exact foldlM_invariant Db.Sound (fun _ _ _ _ h hp => reviveUpholsteryNeed_sound h hp)
      (updateTask_sound h _) hok
  · cases hok
    exact updateTask_sound h _

end Tasks

end BeyoManager.Upholstery
