import BeyoManager.Upholstery.AllocationEntries
import BeyoManager.Upholstery.Frames

/-! # What the commands on stock leave alone

The commands on inventory rows, orders and production open no requirement: each unfinished
requirement has been one of the same item upholstery and of the same row before.
-/

namespace BeyoManager.Upholstery

open Relational Transition

variable {db db₁ db' : Db} {now : Instant}

/-- The id of a requirement, its item upholstery, its inventory row, and whether it is deleted. -/
def ItemUpholsteryRequirement.owner (r : ItemUpholsteryRequirement) :
    ClientId × ClientId × Option ClientId × Bool :=
  (r.clientId, r.itemUpholsteryId, r.upholsteryInventoryId, r.isDeleted)

/-- Inventory rows keep their names, and new rows have new ids. -/
structure RowsKept (l l' : List UpholsteryInventory) : Prop where
  names : ∀ i ∈ l, ∃ i' ∈ l', i'.names = i.names
  keyed : Keyed UpholsteryInventory.clientId l → Keyed UpholsteryInventory.clientId l'

theorem RowsKept.refl (l : List UpholsteryInventory) : RowsKept l l :=
  ⟨fun i hi => ⟨i, hi, rfl⟩, id⟩

theorem RowsKept.trans {l l₁ l' : List UpholsteryInventory} (h₁ : RowsKept l l₁)
    (h₂ : RowsKept l₁ l') : RowsKept l l' := by
  refine ⟨fun i hi => ?_, h₂.keyed ∘ h₁.keyed⟩
  obtain ⟨i₁, hi₁, hn₁⟩ := h₁.names i hi
  obtain ⟨i₂, hi₂, hn₂⟩ := h₂.names i₁ hi₁
  exact ⟨i₂, hi₂, hn₂.trans hn₁⟩

theorem rowsKept_of_map_eq {l l' : List UpholsteryInventory}
    (h : l'.map (·.names) = l.map (·.names)) : RowsKept l l' := by
  refine ⟨fun i hi => ?_, fun hk => hk.of_map_eq ?_⟩
  · have hmem := List.mem_map_of_mem (f := UpholsteryInventory.names) hi
    obtain ⟨i', hi', he⟩ := List.mem_map.mp (h ▸ hmem)
    exact ⟨i', hi', he⟩
  · have := congrArg (List.map Prod.fst) h
    rwa [List.map_map, List.map_map] at this

theorem insertInventory_rowsKept {i : UpholsteryInventory} (h : db.insertInventory i = .ok db') :
    RowsKept db.upholsteryInventory db'.upholsteryInventory := by
  obtain ⟨hfresh, rfl⟩ := insertInventory_eq_ok h
  refine ⟨fun i hi => ⟨i, List.mem_append_left _ hi, rfl⟩, fun hk => ?_⟩
  refine keyed_append.mpr ⟨hk, List.nodup_singleton _, fun x hx y hy => ?_⟩
  obtain rfl := List.mem_singleton.mp hy
  exact hfresh x hx

/-- A requirement is no further from its end than before, and it has not failed since. -/
structure NoNearer (r r' : ItemUpholsteryRequirement) : Prop where
  owner : r'.owner = r.owner
  unfinished : r'.state.isUnfinished → r.state.isUnfinished
  failed : r'.state = .failed → r.state = .failed

/-- No requirement is opened or failed, and no item upholstery is written. -/
structure Narrows (db db' : Db) : Prop where
  rows : RowsKept db.upholsteryInventory db'.upholsteryInventory
  itemUpholsteries : db'.itemUpholsteries = db.itemUpholsteries
  owners : db'.requirements.map (·.owner) = db.requirements.map (·.owner)
  requirements : ∀ r' ∈ db'.requirements, ∃ r ∈ db.requirements, NoNearer r r'

theorem NoNearer.refl (r : ItemUpholsteryRequirement) : NoNearer r r := ⟨rfl, id, id⟩

theorem Narrows.refl (db : Db) : Narrows db db :=
  ⟨.refl _, rfl, rfl, fun r hr => ⟨r, hr, .refl r⟩⟩

theorem narrows_of_eq (hinventory : db'.upholsteryInventory = db.upholsteryInventory)
    (hiups : db'.itemUpholsteries = db.itemUpholsteries)
    (hrs : db'.requirements = db.requirements) : Narrows db db' :=
  ⟨hinventory ▸ .refl _, hiups, congrArg _ hrs,
    fun r hr => ⟨r, hrs ▸ hr, .refl r⟩⟩

theorem Narrows.trans (h₁ : Narrows db db₁) (h₂ : Narrows db₁ db') : Narrows db db' := by
  refine ⟨h₁.rows.trans h₂.rows, h₂.itemUpholsteries.trans h₁.itemUpholsteries,
    h₂.owners.trans h₁.owners, fun r'' hr'' => ?_⟩
  obtain ⟨r', hr', h'⟩ := h₂.requirements r'' hr''
  obtain ⟨r, hr, h⟩ := h₁.requirements r' hr'
  exact ⟨r, hr, h'.owner.trans h.owner, h.unfinished ∘ h'.unfinished, h.failed ∘ h'.failed⟩

theorem InventoryOnly.narrows (h : InventoryOnly db db') : Narrows db db' :=
  ⟨rowsKept_of_map_eq h.names, h.itemUpholsteries, congrArg _ h.requirements,
    fun r hr => ⟨r, h.requirements ▸ hr, .refl r⟩⟩

section Updates

variable {p : ItemUpholsteryRequirement → Bool}
  {f : ItemUpholsteryRequirement → ItemUpholsteryRequirement}
  (hf : ∀ r ∈ db.requirements, p r → NoNearer r (f r))
include hf

theorem narrows_of_update
    (hrows : RowsKept db.upholsteryInventory db'.upholsteryInventory)
    (hiups : db'.itemUpholsteries = db.itemUpholsteries)
    (hrs : db'.requirements = updateWhere p f db.requirements) : Narrows db db' := by
  refine ⟨hrows, hiups, hrs ▸ map_updateWhere_of_fixed fun r hr hp => (hf r hr hp).owner, ?_⟩
  intro r' hr'
  obtain ⟨r, hr, rfl⟩ := mem_updateWhere.mp (hrs ▸ hr')
  refine ⟨r, hr, ?_⟩
  split
  · exact hf r hr ‹_›
  · exact .refl r

end Updates

theorem RewritesOne.narrows {requirementId : ClientId}
    {f : ItemUpholsteryRequirement → ItemUpholsteryRequirement}
    (h : RewritesOne requirementId f db db')
    (hf : ∀ x ∈ db.requirements, x.clientId = requirementId → NoNearer x (f x)) :
    Narrows db db' :=
  narrows_of_update (fun x hx hp => hf x hx (by simpa using hp)) (rowsKept_of_map_eq h.names)
    h.itemUpholsteries h.requirements

theorem narrows_foldlM {β : Type} {pass : Db → β → Except CommandError Db} {l : List β}
    (hpass : ∀ db₁ b db₂, Narrows db db₁ → b ∈ l → pass db₁ b = .ok db₂ → Narrows db₁ db₂)
    (hok : l.foldlM pass db = .ok db') : Narrows db db' :=
  foldlM_invariant (Narrows db)
    (fun db₁ b hb db₂ h hp => h.trans (hpass db₁ b db₂ h hb hp)) (.refl db) hok

section Production

variable {itemUpholsteryId : ClientId} {states : List RequirementState}

theorem completeRequirement_narrows {r : ItemUpholsteryRequirement}
    (h : completeRequirement db r = .ok db') : Narrows db db' :=
  (completeRequirement_rewritesOne h).narrows fun _ _ _ => ⟨rfl, by simp [
    RequirementState.isUnfinished], by simp⟩

theorem completeRequirements_narrows {l : List ItemUpholsteryRequirement}
    (h : l.foldlM completeRequirement db = .ok db') : Narrows db db' :=
  narrows_foldlM (fun _ _ _ _ _ hp => completeRequirement_narrows hp) h

/-- Starting requirements that are available narrows. -/
theorem startRequirements_narrows (hk : Keyed ItemUpholsteryRequirement.clientId db.requirements)
    (h : (db.ownRequirements itemUpholsteryId [.available]).foldlM startRequirement db = .ok db') :
    Narrows db db' := by
  have havailable : ∀ r ∈ db.requirements,
      r.clientId ∈ (db.ownRequirements itemUpholsteryId [.available]).map (·.clientId) →
        r.state.isUnfinished := by
    intro r hr hid
    obtain ⟨x, hx, hid⟩ := List.mem_map.mp hid
    obtain ⟨hx, hs⟩ := List.mem_filter.mp hx
    obtain rfl := hk.inj hx hr hid
    simp only [Bool.and_eq_true, List.contains_cons, List.contains_nil, Bool.or_false,
      beq_iff_eq] at hs
    rw [hs.1.2]
    rfl
  refine (foldlM_invariant (fun db₁ => Narrows db db₁ ∧ ∀ r ∈ db₁.requirements,
    r.clientId ∈ (db.ownRequirements itemUpholsteryId [.available]).map (·.clientId) →
      r.state.isUnfinished) ?_ ⟨.refl db, havailable⟩ h).1
  rintro db₁ r hr db₂ ⟨hn, hunfinished⟩ hp
  have hrewrite := startRequirement_rewritesOne hp
  refine ⟨hn.trans (hrewrite.narrows fun x hx he => ⟨rfl, fun _ => ?_, by simp⟩), ?_⟩
  · exact hunfinished x hx (he ▸ List.mem_map_of_mem hr)
  · intro y hy hid
    obtain ⟨x, hx, rfl⟩ := mem_updateWhere.mp (hrewrite.requirements ▸ hy)
    split at hid
    · rw [if_pos ‹_›]
      rfl
    · rw [if_neg ‹_›]
      exact hunfinished x hx hid

theorem markRequirementsInUse_narrows
    (hk : Keyed ItemUpholsteryRequirement.clientId db.requirements)
    (h : markRequirementsInUse db itemUpholsteryId = .ok db') : Narrows db db' := by
  obtain ⟨iup, -, h⟩ := bind_eq_ok.mp h
  obtain ⟨u, -, h⟩ := bind_eq_ok.mp h
  obtain ⟨-, h⟩ := throwIf_bind_eq_ok.mp h
  exact startRequirements_narrows hk h

theorem markRequirementsCompleted_narrows
    (h : markRequirementsCompleted db itemUpholsteryId = .ok db') : Narrows db db' := by
  obtain ⟨iup, -, h⟩ := bind_eq_ok.mp h
  obtain ⟨u, -, h⟩ := bind_eq_ok.mp h
  obtain ⟨-, h⟩ := throwIf_bind_eq_ok.mp h
  exact completeRequirements_narrows h

theorem completeSingleRequirement_narrows {requirementId : ClientId}
    (h : completeSingleRequirement db requirementId = .ok db') : Narrows db db' := by
  obtain ⟨r, -, h⟩ := bind_eq_ok.mp h
  obtain ⟨-, h⟩ := throwIf_bind_eq_ok.mp h
  exact completeRequirement_narrows h

theorem Narrows.keyed (h : Narrows db db')
    (hk : Keyed ItemUpholsteryRequirement.clientId db.requirements) :
    Keyed ItemUpholsteryRequirement.clientId db'.requirements := by
  have := congrArg (List.map Prod.fst) h.owners
  rw [List.map_map, List.map_map] at this
  exact hk.of_map_eq this

theorem applyUpholsteryInstallationSideEffect_narrows {taskId : ClientId}
    {sectionName : Option String} {newState : TaskSteps.TaskStepState}
    (hk : Keyed ItemUpholsteryRequirement.clientId db.requirements)
    (h : applyUpholsteryInstallationSideEffect db taskId sectionName newState = .ok db') :
    Narrows db db' := by
  unfold applyUpholsteryInstallationSideEffect at h
  split at h
  · cases h
    exact .refl db
  split at h
  · cases h
    exact .refl db
  split at h
  · cases h
    exact .refl db
  refine narrows_foldlM (fun db₁ u db₂ hn _ hp => ?_) h
  unfold promoteRequirements at hp
  split at hp
  · exact startRequirements_narrows (hn.keyed hk) hp
  · exact completeRequirements_narrows hp

end Production

section Stock

variable {l candidates : List ItemUpholsteryRequirement} {target : RequirementState}
  {orderedAt : Option Instant} {pool : Meters} {priorityIds : List ClientId}
  {upholsteryId inventoryId : ClientId}

theorem updateRequirements_narrows {f : ItemUpholsteryRequirement → ItemUpholsteryRequirement}
    (hk : Keyed ItemUpholsteryRequirement.clientId db.requirements)
    (hl : ∀ r ∈ l, r ∈ db.requirements ∧ r.state.isDemand) (howner : ∀ r, (f r).owner = r.owner)
    (hstate : ∀ r, (f r).state = target) (htarget : target.isDemand) :
    Narrows db (db.updateRequirements l f) := by
  refine narrows_of_update (fun x hx hp => ⟨howner x, fun _ => ?_, fun he => ?_⟩)
    (.refl _) rfl rfl
  · obtain ⟨r, hr, he⟩ := List.any_eq_true.mp hp
    obtain rfl := hk.inj (hl r hr).1 hx (by simpa using he)
    have := (hl r hr).2
    cases hs : r.state <;> simp_all [RequirementState.isDemand, RequirementState.isUnfinished]
  · rw [hstate] at he
    rw [he] at htarget
    cases htarget

theorem runSkipAndContinueAllocation_narrows
    (hk : Keyed ItemUpholsteryRequirement.clientId db.requirements)
    (hl : ∀ r ∈ candidates, r ∈ db.requirements ∧ r.state.isDemand) (htarget : target.isDemand) :
    Narrows db (runSkipAndContinueAllocation db candidates pool target orderedAt) :=
  updateRequirements_narrows hk
    (fun r hr => hl r ((resolvedRequirements_sublist pool candidates).subset hr)) (fun _ => rfl)
    (fun _ => rfl) htarget

theorem allocate_narrows {states : List RequirementState}
    (hk : Keyed ItemUpholsteryRequirement.clientId db.requirements)
    (hstates : ∀ s ∈ states, s.isDemand)
    (hsub : ∀ r ∈ candidates, r ∈ db.requirementsOf inventoryId states)
    (htarget : target.isDemand) :
    Narrows db (runSkipAndContinueAllocation db candidates pool target orderedAt) :=
  runSkipAndContinueAllocation_narrows hk (fun r hr =>
    ⟨(mem_requirementsOf.mp (hsub r hr)).1, hstates _ (mem_requirementsOf.mp (hsub r hr)).2.2.1⟩)
    htarget

theorem isDemand_of_mem_open : ∀ s ∈ [RequirementState.ordered, .needsOrdering], s.isDemand := by
  decide

theorem isDemand_of_mem_available : ∀ s ∈ [RequirementState.available], s.isDemand := by decide

theorem isDemand_of_mem_needsOrdering : ∀ s ∈ [RequirementState.needsOrdering], s.isDemand := by
  decide

theorem needsOrdering_candidates (p : Option ClientId → Bool) :
    ∀ r ∈ db.requirements.filter fun r =>
      r.state == .needsOrdering && !r.isDeleted && p r.upholsteryInventoryId,
      r ∈ db.requirements ∧ r.state.isDemand := by
  intro r hr
  obtain ⟨hr, hs⟩ := List.mem_filter.mp hr
  simp only [Bool.and_eq_true, beq_iff_eq] at hs
  exact ⟨hr, by rw [hs.1.1]; rfl⟩

variable (hk : Keyed ItemUpholsteryRequirement.clientId db.requirements)
include hk

theorem demoteAvailableRequirements_narrows {newStored : MetersColumn}
    {readyByAt : ClientId → Option Instant} :
    Narrows db (demoteAvailableRequirements db (db.requirementsOf inventoryId [.available])
      newStored readyByAt) := by
  unfold demoteAvailableRequirements
  dsimp only
  split
  · exact .refl db
  refine updateRequirements_narrows hk (fun r hr => ?_) (fun _ => rfl) (fun _ => rfl) rfl
  have hr := (Sorting.sortBy_perm _ _).subset ((demotedRequirements_spec _ _).1.subset hr)
  obtain ⟨hr, -, hs, -⟩ := mem_requirementsOf.mp hr
  exact ⟨hr, isDemand_of_mem_available _ hs⟩

theorem markRequirementsOrdered_narrows {quantity : Meters}
    (h : markRequirementsOrdered db upholsteryId quantity priorityIds now = .ok db') :
    Narrows db db' := by
  obtain ⟨-, h⟩ := throwIf_bind_eq_ok.mp h
  cases h
  exact runSkipAndContinueAllocation_narrows hk (fun r hr =>
    needsOrdering_candidates _ r (priorityThenOldest_perm.subset hr)) rfl

theorem resolveRequirementsAfterStock_narrows
    (h : resolveRequirementsAfterStock db upholsteryId priorityIds = .ok db') :
    Narrows db db' := by
  obtain ⟨inv, -, h⟩ := bind_eq_ok.mp h
  cases h
  exact allocate_narrows hk isDemand_of_mem_open
    (fun r hr => (openOrder_perm (fun _ => Sorting.sortBy_perm _ _)
      (fun _ => Sorting.sortBy_perm _ _) fun _ => openRequirement_state).subset hr) rfl

theorem reallocateStock_narrows {donorIds : List ClientId}
    (h : reallocateStock db upholsteryId donorIds priorityIds = .ok db') : Narrows db db' := by
  obtain ⟨inv, -, h⟩ := bind_eq_ok.mp h
  have hdonors : Narrows db (db.updateRequirements ((db.requirementsOf inv.clientId
      [.available]).filter fun r => donorIds.contains r.itemUpholsteryId)
      fun r => { r with state := .needsOrdering }) := by
    refine updateRequirements_narrows hk (fun r hr => ?_) (fun _ => rfl) (fun _ => rfl) rfl
    obtain ⟨hr, -, hs, -⟩ := mem_requirementsOf.mp (List.mem_filter.mp hr).1
    exact ⟨hr, isDemand_of_mem_available _ hs⟩
  dsimp only at h
  split at h
  · cases h
    exact hdonors
  · cases h
    exact hdonors.trans (allocate_narrows (hdonors.keyed hk) isDemand_of_mem_needsOrdering
      (fun r hr => priorityThenOldest_perm.subset hr) rfl)

theorem createUpholsteryOrder_narrows {request : CreateUpholsteryOrderRequest}
    (h : createUpholsteryOrder db request now = .ok db') : Narrows db db' := by
  obtain ⟨-, h⟩ := throwIf_bind_eq_ok.mp h
  obtain ⟨-, h⟩ := throwIf_bind_eq_ok.mp h
  obtain ⟨inv, -, h⟩ := bind_eq_ok.mp h
  obtain ⟨db₁, hins, h⟩ := bind_eq_ok.mp h
  obtain ⟨-, hins⟩ := throwIf_bind_eq_ok.mp hins
  cases hins
  have hins : Narrows db { db with orders := db.orders ++ [⟨request.clientId, some inv.clientId,
      request.orderAmountMeters.toColumn, none, request.state, false⟩] } :=
    narrows_of_eq rfl rfl rfl
  split at h
  · obtain ⟨db₂, hadd, h⟩ := bind_eq_ok.mp h
    cases h
    have hn := hins.trans (addOrdered_inventoryOnly hadd).narrows
    exact hn.trans (allocate_narrows (hn.keyed hk) isDemand_of_mem_needsOrdering
      (fun r hr => (priorityTier_append_perm sortByReadyBy_perm).subset hr) rfl)
  · cases h
    exact hins

theorem receiveUpholsteryOrder_narrows {orderId : ClientId} {received : Meters}
    (h : receiveUpholsteryOrder db orderId received priorityIds = .ok db') : Narrows db db' := by
  obtain ⟨-, h⟩ := throwIf_bind_eq_ok.mp h
  obtain ⟨order, -, h⟩ := bind_eq_ok.mp h
  obtain ⟨-, h⟩ := throwIf_bind_eq_ok.mp h
  obtain ⟨inventoryId, -, h⟩ := bind_eq_ok.mp h
  obtain ⟨-, h⟩ := throwIf_bind_eq_ok.mp h
  obtain ⟨db₁, hconfirm, h⟩ := bind_eq_ok.mp h
  obtain ⟨inv, hload, h⟩ := bind_eq_ok.mp h
  cases h
  have hn : Narrows db db₁ := by
    refine Narrows.trans ?_ (confirmOrderedToStock_inventoryOnly hconfirm).narrows
    exact narrows_of_eq rfl rfl rfl
  exact hn.trans (allocate_narrows (hn.keyed hk) isDemand_of_mem_open
    (fun r hr => (openOrder_perm (fun _ => sortByReadyBy_perm)
      (fun _ => sortByReadyBy_perm) fun _ => openRequirement_state).subset hr) rfl)

theorem setCurrentStoredAmountInventory_narrows {amount : Meters}
    (h : setCurrentStoredAmountInventory db inventoryId amount = .ok db') : Narrows db db' := by
  obtain ⟨-, h⟩ := throwIf_bind_eq_ok.mp h
  obtain ⟨inv, -, h⟩ := bind_eq_ok.mp h
  split at h
  · cases h
    exact .refl db
  cases h
  have hstored : InventoryOnly db (db.updateInventory inventoryId fun i =>
      { i with
        currentStored := amount.toColumn
        inventoryCondition := evaluateInventoryCondition amount.toColumn.value
          inv.currentInNeed.value inv.threshold }) := updateInventory_inventoryOnly fun _ => rfl
  have hdemote : Narrows db (demoteAvailableRequirements _ (Db.requirementsOf _ inventoryId
      [.available]) amount.toColumn db.fetchEarliestReadyByAt) :=
    hstored.narrows.trans (demoteAvailableRequirements_narrows (hstored.narrows.keyed hk))
  exact hdemote.trans (allocate_narrows (hdemote.keyed hk) isDemand_of_mem_open
    (fun r hr => (((sortByReadyBy_perm.append sortByReadyBy_perm).trans
      (inState_append_perm fun _ => openRequirement_state)).subset hr)) rfl)

end Stock

section Catalog

variable {inventoryId upholsteryId : ClientId} {threshold : Option Meters} {quantity : Meters}

theorem insertInventory_narrows {i : UpholsteryInventory} (h : db.insertInventory i = .ok db') :
    Narrows db db' := by
  have hrows := insertInventory_rowsKept h
  obtain ⟨-, rfl⟩ := insertInventory_eq_ok h
  exact ⟨hrows, rfl, rfl, fun r hr => ⟨r, hr, .refl r⟩⟩

theorem existingUpholstery_eq_ok {reusable : Bool} {message : String}
    (h : existingUpholstery db reusable message = .ok db') : db' = db := by
  unfold existingUpholstery at h
  split at h
  · cases h
    rfl
  · cases h

theorem createUpholstery_narrows {request : CreateUpholsteryRequest}
    (h : createUpholstery db request = .ok db') : Narrows db db' := by
  obtain ⟨u, -, h⟩ := bind_eq_ok.mp h
  obtain ⟨-, h⟩ := throwIf_bind_eq_ok.mp h
  dsimp only at h
  split at h
  · exact existingUpholstery_eq_ok h ▸ .refl db
  split at h
  · exact existingUpholstery_eq_ok h ▸ .refl db
  split at h
  · exact existingUpholstery_eq_ok h ▸ .refl db
  split at h
  · exact existingUpholstery_eq_ok h ▸ .refl db
  refine Narrows.trans ?_ (insertInventory_narrows h)
  exact narrows_of_eq rfl rfl rfl

theorem createUpholsteryInventory_narrows
    (h : createUpholsteryInventory db inventoryId upholsteryId threshold = .ok db') :
    Narrows db db' := by
  obtain ⟨u, -, h⟩ := bind_eq_ok.mp h
  obtain ⟨-, h⟩ := throwIf_bind_eq_ok.mp h
  obtain ⟨-, h⟩ := throwIf_bind_eq_ok.mp h
  exact insertInventory_narrows h

theorem updateUpholsteryInventory_narrows
    (h : updateUpholsteryInventory db inventoryId threshold = .ok db') : Narrows db db' := by
  obtain ⟨u, -, h⟩ := bind_eq_ok.mp h
  obtain ⟨inv, -, h⟩ := bind_eq_ok.mp h
  obtain ⟨-, h⟩ := throwIf_bind_eq_ok.mp h
  cases h
  refine InventoryOnly.narrows ?_
  exact updateInventory_inventoryOnly fun _ => rfl

theorem addOrderedToInventory_narrows
    (h : addOrderedToInventory db inventoryId quantity = .ok db') :
    Narrows db db' := by
  obtain ⟨-, h⟩ := throwIf_bind_eq_ok.mp h
  exact (addOrdered_inventoryOnly h).narrows

theorem confirmOrderedToStockInventory_narrows
    (h : confirmOrderedToStockInventory db inventoryId quantity = .ok db') : Narrows db db' := by
  obtain ⟨-, h⟩ := throwIf_bind_eq_ok.mp h
  exact (confirmOrderedToStock_inventoryOnly h).narrows

end Catalog

end BeyoManager.Upholstery
