import BeyoManager.Upholstery.SelectionLedger

/-! # Stock in the books

The commands on inventory rows, orders and production keep the books: stock that has been
granted is there when it is taken, and nothing is granted that is not in stock.
-/

namespace BeyoManager.Upholstery

open Relational Transition

variable {db db' : Db} {now : Instant} {upholsteryId inventoryId itemUpholsteryId : ClientId}
  {priorityIds : List ClientId} {quantity : Meters}

section Allocation

variable {l candidates : List ItemUpholsteryRequirement} {target : RequirementState}

theorem ungranted_balanced (h : db.Balanced)
    {f : ItemUpholsteryRequirement → ItemUpholsteryRequirement} (hf : Restates target f)
    (hs : target.isDemand) (hna : target.isAvailable = false) (hl : l.Nodup)
    (hmem : ∀ r ∈ l, r ∈ db.requirements ∧ r.state.isDemand) :
    (db.updateRequirements l f).Balanced :=
  ⟨h.books.ungranted hf hs hna hl hmem, h.unclamped⟩

theorem markRequirementsOrdered_balanced (h : db.Balanced)
    (hok : markRequirementsOrdered db upholsteryId quantity priorityIds now = .ok db') :
    db'.Balanced := by
  obtain ⟨-, hok⟩ := throwIf_bind_eq_ok.mp hok
  cases hok
  have hsub := resolvedRequirements_sublist quantity (priorityThenOldest priorityIds
    (db.requirements.filter fun r => r.state == .needsOrdering && !r.isDeleted &&
      r.upholsteryInventoryId.any fun id => ((db.upholsteryInventory.filter fun i =>
        i.upholsteryId == upholsteryId && !i.isDeleted).map (·.clientId)).contains id))
  refine ungranted_balanced h (restates_allocation .ordered (some now)) rfl rfl ?_ fun r hr => ?_
  · exact hsub.nodup (priorityThenOldest_perm.nodup_iff.mpr
      (h.books.requirementsKeyed.nodup.filter _))
  · exact needsOrdering_candidates _ r (priorityThenOldest_perm.subset (hsub.subset hr))

theorem resolveRequirementsAfterStock_balanced (h : db.Balanced)
    (hok : resolveRequirementsAfterStock db upholsteryId priorityIds = .ok db') :
    db'.Balanced := by
  obtain ⟨inv, hinv, hok⟩ := bind_eq_ok.mp hok
  cases hok
  obtain ⟨hi, -⟩ := inventoryOf_eq_some (getOr_eq_ok.mp hinv)
  exact allocateStored_balanced h hi (openOrder_perm (fun _ => Sorting.sortBy_perm _ _)
    (fun _ => Sorting.sortBy_perm _ _) fun _ => openRequirement_state) _

theorem claimed_isAvailable_eq :
    claimed RequirementState.isAvailable inventoryId db.requirements =
      totalAmount (db.requirementsOf inventoryId [.available]) := by
  rw [totalAmount, Db.requirementsOf, total_filter]
  refine total_congr fun r _ => ?_
  unfold ItemUpholsteryRequirement.claim
  by_cases hlink : r.upholsteryInventoryId = some inventoryId
  · cases r.isDeleted <;> cases r.state <;> simp [hlink, RequirementState.isAvailable]
  · simp [hlink]

theorem claimed_withdrawn {f : ItemUpholsteryRequirement → ItemUpholsteryRequirement}
    (hf : Restates .needsOrdering f)
    (hmem : ∀ r ∈ l, r ∈ db.requirementsOf inventoryId [.available]) :
    total (fun r => (f r).claim RequirementState.isAvailable inventoryId -
      r.claim RequirementState.isAvailable inventoryId) l = -totalAmount l := by
  rw [totalAmount, ← total_neg]
  refine total_congr fun r hr => ?_
  obtain ⟨-, hlink, hs, hd⟩ := mem_requirementsOf.mp (hmem r hr)
  rw [claim_restated hf, if_neg (by simp [RequirementState.isAvailable]),
    claim_of_state hlink (by rw [List.mem_singleton.mp hs]; rfl) hd, zero_sub]

theorem reallocateStock_balanced {donorIds : List ClientId} (h : db.Balanced)
    (hok : reallocateStock db upholsteryId donorIds priorityIds = .ok db') : db'.Balanced := by
  obtain ⟨inv, hinv, hok⟩ := bind_eq_ok.mp hok
  obtain ⟨hi, -⟩ := inventoryOf_eq_some (getOr_eq_ok.mp hinv)
  dsimp only at hok
  generalize hdonors : ((db.requirementsOf inv.clientId [.available]).filter fun r =>
    donorIds.contains r.itemUpholsteryId) = donors at hok
  have hsub : ∀ r ∈ donors, r ∈ db.requirementsOf inv.clientId [.available] := fun r hr =>
    (List.mem_filter.mp (hdonors ▸ hr)).1
  have hnodup : donors.Nodup := hdonors ▸ (nodup_requirementsOf h.books).filter _
  have hf : Restates .needsOrdering fun r : ItemUpholsteryRequirement =>
      { r with state := .needsOrdering } :=
    ⟨fun _ => rfl, fun _ => rfl, fun _ => rfl, fun _ => rfl, fun _ => rfl⟩
  have h₁ := ungranted_balanced h hf rfl rfl hnodup fun r hr => by
    obtain ⟨hr, -, hs, -⟩ := mem_requirementsOf.mp (hsub r hr)
    exact ⟨hr, isDemand_of_mem_available _ hs⟩
  split at hok
  · cases hok
    exact h₁
  cases hok
  have hpool : 0 ≤ totalAmount donors := by
    refine List.sum_nonneg fun x hx => ?_
    obtain ⟨r, hr, rfl⟩ := List.mem_map.mp hx
    exact h.books.amount_nonneg r (mem_requirementsOf.mp (hsub r hr)).1
  refine ⟨h₁.books.grant (restates_allocation .available none) rfl hi ?_ (fun r hr => ?_) ?_,
    h₁.unclamped⟩
  · exact (resolvedRequirements_sublist _ _).nodup
      (priorityThenOldest_perm.nodup_iff.mpr (nodup_requirementsOf h₁.books))
  · have hr := priorityThenOldest_perm.subset ((resolvedRequirements_sublist _ _).subset hr)
    obtain ⟨hr, hlink, hs, hd⟩ := mem_requirementsOf.mp hr
    exact ⟨hr, hlink, .inr (List.mem_singleton.mp hs), hd⟩
  · refine (totalAmount_resolvedRequirements_le hpool _).trans ?_
    have hgranted := h.books.granted inv hi
    have hwithdrawn := claimed_restated h.books.requirementsKeyed hnodup
      (f := fun r => { r with state := .needsOrdering })
      (p := RequirementState.isAvailable) (k := inv.clientId)
      fun r hr => (mem_requirementsOf.mp (hsub r hr)).1
    rw [claimed_withdrawn hf hsub] at hwithdrawn
    change totalAmount donors ≤ inv.currentStored - claimed _ _ (updateWhere _ _ _)
    rw [hwithdrawn]
    linarith

end Allocation

section Orders

theorem addOrdered_balanced (h : db.Balanced)
    (hok : db.addOrdered inventoryId quantity = .ok db') : db'.Balanced := by
  obtain ⟨inv, hload, hok⟩ := bind_eq_ok.mp hok
  obtain ⟨hi, rfl⟩ := loadInventory_eq_ok hload
  cases hok
  exact ⟨h.books.stock hi rfl rfl rfl le_rfl, h.unclamped⟩

theorem confirmOrderedToStock_balanced (h : db.Balanced) (hq : 0 ≤ quantity)
    (hshort : quantity.IsShort)
    (hok : db.confirmOrderedToStock inventoryId quantity = .ok db') : db'.Balanced := by
  obtain ⟨inv, hload, hok⟩ := bind_eq_ok.mp hok
  obtain ⟨hi, rfl⟩ := loadInventory_eq_ok hload
  obtain ⟨-, hok⟩ := throwIf_bind_eq_ok.mp hok
  cases hok
  refine ⟨h.books.stock hi rfl rfl rfl ?_, h.unclamped⟩
  have hadd : (inv.currentStored.value + quantity).toColumn =
      inv.currentStored + quantity.toColumn :=
    FixedScale.store_value_add (currentStored_nonneg h.books hi) hq
  have : 0 ≤ quantity.toColumn := FixedScale.store_nonneg hq
  simp only [hshort.rounded_value_add, hadd]
  exact le_add_of_nonneg_right this

theorem createUpholsteryOrder_balanced {request : CreateUpholsteryOrderRequest} (h : db.Balanced)
    (hok : createUpholsteryOrder db request now = .ok db') : db'.Balanced := by
  obtain ⟨-, hok⟩ := throwIf_bind_eq_ok.mp hok
  obtain ⟨-, hok⟩ := throwIf_bind_eq_ok.mp hok
  obtain ⟨inv, -, hok⟩ := bind_eq_ok.mp hok
  obtain ⟨db₁, hins, hok⟩ := bind_eq_ok.mp hok
  obtain ⟨-, hins⟩ := throwIf_bind_eq_ok.mp hins
  cases hins
  split at hok
  · obtain ⟨db₂, hadd, hok⟩ := bind_eq_ok.mp hok
    cases hok
    have h₂ : db₂.Balanced := by
      refine addOrdered_balanced ?_ hadd
      exact ⟨h.books, h.unclamped⟩
    refine ungranted_balanced h₂ (restates_allocation .ordered (some now)) rfl rfl ?_ fun r hr => ?_
    · exact (resolvedRequirements_sublist _ _).nodup
        ((priorityTier_append_perm sortByReadyBy_perm).nodup_iff.mpr
          (nodup_requirementsOf h₂.books))
    · have hr := (priorityTier_append_perm sortByReadyBy_perm).subset
        ((resolvedRequirements_sublist _ _).subset hr)
      obtain ⟨hr, -, hs, -⟩ := mem_requirementsOf.mp hr
      exact ⟨hr, isDemand_of_mem_needsOrdering _ hs⟩
  · cases hok
    exact ⟨h.books, h.unclamped⟩

theorem receiveUpholsteryOrder_balanced {orderId : ClientId} (h : db.Balanced)
    (hok : receiveUpholsteryOrder db orderId quantity priorityIds = .ok db') : db'.Balanced := by
  obtain ⟨hpos, hok⟩ := throwIf_bind_eq_ok.mp hok
  obtain ⟨order, -, hok⟩ := bind_eq_ok.mp hok
  obtain ⟨-, hok⟩ := throwIf_bind_eq_ok.mp hok
  obtain ⟨inventoryId, -, hok⟩ := bind_eq_ok.mp hok
  obtain ⟨-, hok⟩ := throwIf_bind_eq_ok.mp hok
  obtain ⟨db₁, hconfirm, hok⟩ := bind_eq_ok.mp hok
  have h₁ : db₁.Balanced := by
    refine confirmOrderedToStock_balanced ?_ (FixedScale.value_nonneg.mpr (not_le.mp hpos).le)
      (MetersColumn.isShort _) hconfirm
    exact ⟨h.books, h.unclamped⟩
  obtain ⟨inv, hload, hok⟩ := bind_eq_ok.mp hok
  obtain ⟨hi, rfl⟩ := loadInventory_eq_ok hload
  cases hok
  exact allocateStored_balanced h₁ hi (openOrder_perm (fun _ => sortByReadyBy_perm)
    (fun _ => sortByReadyBy_perm) fun _ => openRequirement_state) _

end Orders

section SetStored

/-- The requirements whose grants a new stock does not cover. -/
theorem demoteAvailableRequirements_eq (db : Db) (newStored : MetersColumn)
    (readyByAt : ClientId → Option Instant) (candidates : List ItemUpholsteryRequirement) :
    ∃ l, l.Sublist (Sorting.sortBy (demotionSortKey readyByAt) candidates) ∧
      totalAmount candidates - totalAmount l ≤ max 0 newStored ∧
      demoteAvailableRequirements db candidates newStored readyByAt =
        db.updateRequirements l fun r => { r with state := .needsOrdering } := by
  unfold demoteAvailableRequirements
  dsimp only
  split
  case isTrue hzero =>
    refine ⟨[], List.nil_sublist _, ?_, ?_⟩
    · rw [totalAmount, totalAmount, total_nil, sub_zero]
      exact le_max_of_le_right (sub_nonpos.mp (max_eq_left_iff.mp hzero))
    · have hsame : updateWhere (fun x => ([] : List ItemUpholsteryRequirement).any fun r =>
          r.clientId == x.clientId) (fun r => { r with state := .needsOrdering }) db.requirements =
            db.requirements := updateWhere_of_forall_not fun _ _ => rfl
      rw [Db.updateRequirements, hsame]
  case isFalse hdeficit =>
    obtain ⟨hsub, hspec⟩ := demotedRequirements_spec (max 0 (totalAmount candidates - newStored))
      (Sorting.sortBy (demotionSortKey readyByAt) candidates)
    refine ⟨_, hsub, ?_, rfl⟩
    rcases hspec with hle | he
    · have := le_max_right 0 (totalAmount candidates - newStored)
      have := le_max_right 0 newStored
      linarith
    · rw [he, totalAmount, totalAmount, total_perm (Sorting.sortBy_perm _ _), sub_self]
      exact le_max_left _ _

theorem setCurrentStoredAmountInventory_balanced {amount : Meters} (h : db.Balanced)
    (hok : setCurrentStoredAmountInventory db inventoryId amount = .ok db') : db'.Balanced := by
  obtain ⟨hnonneg, hok⟩ := throwIf_bind_eq_ok.mp hok
  obtain ⟨inv, hload, hok⟩ := bind_eq_ok.mp hok
  obtain ⟨hi, rfl⟩ := loadInventory_eq_ok hload
  split at hok
  · cases hok
    exact h
  dsimp only at hok
  generalize hg : (fun i : UpholsteryInventory =>
    { i with
      currentStored := amount.toColumn
      inventoryCondition := evaluateInventoryCondition amount.toColumn.value
        inv.currentInNeed.value inv.threshold }) = g at hok
  cases hok
  have hid : (g inv).clientId = inv.clientId := by rw [← hg]
  have hneed : (g inv).currentInNeed = inv.currentInNeed := by rw [← hg]
  have hstored : (g inv).currentStored = amount.toColumn := by rw [← hg]
  obtain ⟨l, hsub, hle, hdemote⟩ := demoteAvailableRequirements_eq
    (db.updateInventory inv.clientId g) amount.toColumn
    (db.updateInventory inv.clientId g).fetchEarliestReadyByAt
    ((db.updateInventory inv.clientId g).requirementsOf inv.clientId [.available])
  have hmem : ∀ r ∈ l, r ∈ db.requirementsOf inv.clientId [.available] := fun r hr =>
    (Sorting.sortBy_perm _ _).subset (hsub.subset hr)
  have hf : Restates .needsOrdering fun r : ItemUpholsteryRequirement =>
      { r with state := .needsOrdering } :=
    ⟨fun _ => rfl, fun _ => rfl, fun _ => rfl, fun _ => rfl, fun _ => rfl⟩
  have hnodup : l.Nodup :=
    hsub.nodup ((Sorting.sortBy_perm _ _).nodup_iff.mpr (nodup_requirementsOf h.books))
  have h₁ : ((db.updateInventory inv.clientId g).updateRequirements l fun r =>
      { r with state := .needsOrdering }).Balanced := by
    refine ⟨h.books.restate hf hi hid hneed (by rw [← hg]) rfl hnodup
      (fun r hr => ?_) ?_, h.unclamped⟩
    · obtain ⟨hr, hlink, hs, -⟩ := mem_requirementsOf.mp (hmem r hr)
      exact ⟨hr, isDemand_of_mem_available _ hs, hlink⟩
    · rw [claimed_withdrawn hf hmem, claimed_isAvailable_eq, ← sub_eq_add_neg, hstored]
      exact hle.trans_eq (max_eq_right (not_lt.mp hnonneg))
  have hrow := mem_updateWhere_of_mem (p := fun i => i.clientId == inv.clientId) (f := g) hi
  rw [if_pos (beq_self_eq_true _)] at hrow
  rw [hdemote, promoteForwardRequirements, ← hstored, ← hneed]
  refine allocateStored_balanced h₁ hrow ?_ _
  rw [hid]
  exact (sortByReadyBy_perm.append sortByReadyBy_perm).trans
    (inState_append_perm fun _ => openRequirement_state)

end SetStored

section Production

theorem markRequirementsInUse_balanced (h : db.Balanced)
    (hok : markRequirementsInUse db itemUpholsteryId = .ok db') : db'.Balanced := by
  obtain ⟨iup, -, hok⟩ := bind_eq_ok.mp hok
  obtain ⟨u, -, hok⟩ := bind_eq_ok.mp hok
  obtain ⟨-, hok⟩ := throwIf_bind_eq_ok.mp hok
  exact startRequirements_balanced h hok

theorem markRequirementsCompleted_balanced (h : db.Balanced)
    (hok : markRequirementsCompleted db itemUpholsteryId = .ok db') : db'.Balanced := by
  obtain ⟨iup, -, hok⟩ := bind_eq_ok.mp hok
  obtain ⟨u, -, hok⟩ := bind_eq_ok.mp hok
  obtain ⟨-, hok⟩ := throwIf_bind_eq_ok.mp hok
  exact completeRequirements_balanced h hok

theorem completeSingleRequirement_balanced {requirementId : ClientId} (h : db.Balanced)
    (hok : completeSingleRequirement db requirementId = .ok db') : db'.Balanced := by
  obtain ⟨r, hr, hok⟩ := bind_eq_ok.mp hok
  obtain ⟨hs, hok⟩ := throwIf_bind_eq_ok.mp hok
  obtain ⟨hr, -, hd⟩ := fetchRequirement_eq_some (getOr_eq_ok.mp hr)
  exact completeRequirement_balanced h hr hd (.inl (not_not.mp hs)) hok

theorem applyUpholsteryInstallationSideEffect_balanced {taskId : ClientId}
    {sectionName : Option String} {newState : TaskSteps.TaskStepState} (h : db.Balanced)
    (hok : applyUpholsteryInstallationSideEffect db taskId sectionName newState = .ok db') :
    db'.Balanced := by
  unfold applyUpholsteryInstallationSideEffect at hok
  split at hok
  · cases hok
    exact h
  split at hok
  · cases hok
    exact h
  split at hok
  · cases hok
    exact h
  refine foldlM_invariant Db.Balanced (fun db₁ u _ db₂ h₁ hp => ?_) h hok
  unfold promoteRequirements at hp
  split at hp
  · exact startRequirements_balanced h₁ hp
  · exact completeRequirements_balanced h₁ hp

end Production

section Catalog

variable {threshold : Option Meters}

theorem insertInventory_balanced {i : UpholsteryInventory} (h : db.Balanced)
    (hneed : i.currentInNeed = 0) (huse : i.currentInUse = 0) (hstored : 0 ≤ i.currentStored)
    (hok : db.insertInventory i = .ok db') : db'.Balanced := by
  obtain ⟨hfresh, rfl⟩ := insertInventory_eq_ok hok
  exact ⟨h.books.newRow hfresh hneed huse hstored, h.unclamped⟩

theorem createUpholstery_balanced {request : CreateUpholsteryRequest} (h : db.Balanced)
    (hok : createUpholstery db request = .ok db') : db'.Balanced := by
  obtain ⟨u, -, hok⟩ := bind_eq_ok.mp hok
  obtain ⟨hnonneg, hok⟩ := throwIf_bind_eq_ok.mp hok
  dsimp only at hok
  split at hok
  · exact existingUpholstery_eq_ok hok ▸ h
  split at hok
  · exact existingUpholstery_eq_ok hok ▸ h
  split at hok
  · exact existingUpholstery_eq_ok hok ▸ h
  split at hok
  · exact existingUpholstery_eq_ok hok ▸ h
  refine insertInventory_balanced ?_ rfl rfl (FixedScale.store_nonneg ?_) hok
  · exact ⟨h.books, h.unclamped⟩
  · cases hstored : request.currentStoredAmountMeters with
    | none => exact le_rfl
    | some stored => exact not_lt.mp fun hlt => hnonneg ⟨stored, hstored, hlt⟩

theorem createUpholsteryInventory_balanced (h : db.Balanced)
    (hok : createUpholsteryInventory db inventoryId upholsteryId threshold = .ok db') :
    db'.Balanced := by
  obtain ⟨u, -, hok⟩ := bind_eq_ok.mp hok
  obtain ⟨-, hok⟩ := throwIf_bind_eq_ok.mp hok
  obtain ⟨-, hok⟩ := throwIf_bind_eq_ok.mp hok
  exact insertInventory_balanced h rfl rfl le_rfl hok

theorem updateUpholsteryInventory_balanced (h : db.Balanced)
    (hok : updateUpholsteryInventory db inventoryId threshold = .ok db') : db'.Balanced := by
  obtain ⟨u, -, hok⟩ := bind_eq_ok.mp hok
  obtain ⟨inv, hload, hok⟩ := bind_eq_ok.mp hok
  obtain ⟨hi, -⟩ := loadInventory_eq_ok hload
  obtain ⟨-, hok⟩ := throwIf_bind_eq_ok.mp hok
  cases hok
  exact ⟨h.books.stock hi rfl rfl rfl le_rfl, h.unclamped⟩

theorem addOrderedToInventory_balanced (h : db.Balanced)
    (hok : addOrderedToInventory db inventoryId quantity = .ok db') : db'.Balanced := by
  obtain ⟨-, hok⟩ := throwIf_bind_eq_ok.mp hok
  exact addOrdered_balanced h hok

theorem confirmOrderedToStockInventory_balanced (h : db.Balanced) (hshort : quantity.IsShort)
    (hok : confirmOrderedToStockInventory db inventoryId quantity = .ok db') : db'.Balanced := by
  obtain ⟨hpos, hok⟩ := throwIf_bind_eq_ok.mp hok
  exact confirmOrderedToStock_balanced h (not_le.mp hpos).le hshort hok

end Catalog

end BeyoManager.Upholstery
