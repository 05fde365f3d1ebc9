import BeyoManager.Upholstery.Condition
import BeyoManager.Upholstery.OwnerRuns

/-! # The condition over whole runs

In a run whose requests name whole thousandths of a metre, whose rows are not created without
an upholstery of their own, and whose thresholds are changed only where the condition stays what
it is, the condition of every row is that of its amounts.
-/

namespace BeyoManager.Upholstery

open Relational Transition

variable {db db₁ db' : Db} {now : Instant} {itemUpholsteryId newItemUpholsteryId newRequirementId
  newInventoryId : ClientId} {upholsteryId : Option ClientId} {amountMeters : Option Meters}
  {source : ItemUpholsterySource} {amount : Meters}

/-- The rows have ids of their own, and their conditions are those of their amounts. -/
structure Db.LawfulRows (db : Db) : Prop where
  keyed : Keyed UpholsteryInventory.clientId db.upholsteryInventory
  lawful : db.Lawful

theorem Db.LawfulRows.of_eq (h : db.LawfulRows)
    (he : db'.upholsteryInventory = db.upholsteryInventory) : db'.LawfulRows :=
  ⟨he ▸ h.keyed, h.lawful.of_eq he⟩

section Selection

theorem cancelRequirements_lawfulRows {l : List ItemUpholsteryRequirement} (h : db.LawfulRows)
    (hok : cancelRequirements now db l = .ok db') : db'.LawfulRows := by
  refine foldlM_invariant Db.LawfulRows (fun db₁ r _ db₂ h₁ hp => ?_) h hok
  refine ⟨?_, cancelRequirement_lawful h₁.keyed h₁.lawful hp⟩
  by_cases hunfinished : r.state.isUnfinished
  · exact (rowsKept_of_map_eq (cancelRequirement_rewritesOne hunfinished hp).names).keyed h₁.keyed
  · rw [cancelRequirement, if_neg hunfinished] at hp
    cases hp
    exact h₁.keyed

theorem createInitialRequirement_lawfulRows (h : db.LawfulRows)
    (hwhole : source = .internal → ∀ quantity ∈ amountMeters, Meters.IsWhole quantity)
    (hok : createInitialRequirement db itemUpholsteryId upholsteryId amountMeters source
      newRequirementId newInventoryId now = .ok db') : db'.LawfulRows := by
  obtain ⟨r, hopens⟩ := createInitialRequirement_opens hok
  refine ⟨hopens.rows.keyed h.keyed, ?_⟩
  unfold createInitialRequirement at hok
  cases amountMeters with
  | none =>
    obtain ⟨_, hpair, hok⟩ := bind_eq_ok.mp hok
    cases hpair
    obtain ⟨db₁, hins, hok⟩ := bind_eq_ok.mp hok
    cases hok
    obtain ⟨-, rfl⟩ := insertRequirement_eq_ok hins
    exact h.lawful
  | some quantity =>
    cases source with
    | customer =>
      obtain ⟨_, hpair, hok⟩ := bind_eq_ok.mp hok
      cases hpair
      obtain ⟨db₁, hins, hok⟩ := bind_eq_ok.mp hok
      cases hok
      obtain ⟨-, rfl⟩ := insertRequirement_eq_ok hins
      exact h.lawful
    | internal =>
      obtain ⟨⟨db₁, result⟩, hneed, hok⟩ := bind_eq_ok.mp hok
      obtain ⟨_, hpair, hok⟩ := bind_eq_ok.mp hok
      cases hpair
      obtain ⟨db₂, hins, hok⟩ := bind_eq_ok.mp hok
      cases hok
      obtain ⟨-, rfl⟩ := insertRequirement_eq_ok hins
      exact (checkAndInjectNeed_lawful h.keyed h.lawful (hwhole rfl quantity rfl) hneed).of_eq rfl

theorem createItemUpholsteryInSession_lawfulRows {itemId created : ClientId}
    {clientId : Option ClientId} (h : db.LawfulRows)
    (hwhole : source = .internal → ∀ quantity ∈ amountMeters, Meters.IsWhole quantity)
    (hok : createItemUpholsteryInSession db itemId upholsteryId amountMeters source clientId
      newItemUpholsteryId newRequirementId newInventoryId now = .ok (db', created)) :
    db'.LawfulRows := by
  obtain ⟨-, hok⟩ := throwIf_bind_eq_ok.mp hok
  obtain ⟨db₁, hins, hok⟩ := bind_eq_ok.mp hok
  have h₁ : db₁.LawfulRows := by
    obtain ⟨-, hins⟩ := throwIf_bind_eq_ok.mp hins
    obtain ⟨-, hins⟩ := throwIf_bind_eq_ok.mp hins
    cases hins
    exact h.of_eq rfl
  split at hok
  · cases hok
    exact h₁
  · obtain ⟨db₂, hinit, hok⟩ := bind_eq_ok.mp hok
    cases hok
    exact createInitialRequirement_lawfulRows h₁ hwhole hinit

theorem writeSelection_lawfulRows (h : db.LawfulRows)
    (hok : db.writeSelection itemUpholsteryId upholsteryId source amountMeters = .ok db') :
    db'.LawfulRows := by
  obtain ⟨-, hok⟩ := throwIf_bind_eq_ok.mp hok
  cases hok
  exact h.of_eq rfl

theorem updateItemUpholsteryInSession_lawfulRows {request : UpdateItemUpholsteryRequest}
    (h : db.LawfulRows)
    (hwhole : ∀ quantity ∈ db.countedUpdate request, Meters.IsWhole quantity)
    (hok : updateItemUpholsteryInSession db request newRequirementId newInventoryId now = .ok db') :
    db'.LawfulRows := by
  obtain ⟨iup, hiup, hok⟩ := bind_eq_ok.mp hok
  obtain ⟨_, -, hok⟩ := bind_eq_ok.mp hok
  have hresolved : request.source.getD iup.source = .internal → ∀ quantity ∈
      request.amountMeters.getD (iup.amountMeters.map (·.value)), Meters.IsWhole quantity := by
    intro hsource quantity hq
    cases hrequest : request.amountMeters with
    | some amountMeters =>
      rw [hrequest] at hq
      refine hwhole quantity (mem_countedUpdate.mpr ⟨by rw [hrequest]; exact hq, ?_⟩)
      rintro u hu
      rwa [Option.some_inj.mp ((getOr_eq_ok.mp hiup).symm.trans hu)] at hsource
    | none =>
      rw [hrequest] at hq
      obtain ⟨n, hn, rfl⟩ := Option.map_eq_some_iff.mp hq
      exact FixedScale.exact_value n
  split at hok
  case isFalse =>
    cases hok
    exact h.of_eq rfl
  split at hok
  · obtain ⟨db₁, hwrite, hok⟩ := bind_eq_ok.mp hok
    have h₁ := writeSelection_lawfulRows h hwrite
    split at hok
    · exact createInitialRequirement_lawfulRows h₁ hresolved hok
    · cases hok
      exact h₁
  · obtain ⟨r, -, hok⟩ := bind_eq_ok.mp hok
    obtain ⟨-, hok⟩ := throwIf_bind_eq_ok.mp hok
    obtain ⟨db₁, hcancel, hok⟩ := bind_eq_ok.mp hok
    obtain ⟨-, hok⟩ := throwIf_bind_eq_ok.mp hok
    obtain ⟨db₂, hwrite, hok⟩ := bind_eq_ok.mp hok
    exact createInitialRequirement_lawfulRows
      (writeSelection_lawfulRows (cancelRequirements_lawfulRows h hcancel) hwrite) hresolved hok

theorem deleteItemUpholstery_lawfulRows (h : db.LawfulRows)
    (hok : deleteItemUpholstery db itemUpholsteryId now = .ok db') : db'.LawfulRows := by
  unfold deleteItemUpholstery at hok
  obtain ⟨iup, -, hok⟩ := bind_eq_ok.mp hok
  cases hactive : db.fetchOwnActiveRequirement iup with
  | some r =>
    simp only [hactive] at hok
    obtain ⟨-, hok⟩ := throwIf_bind_eq_ok.mp hok
    obtain ⟨db₁, hcancel, hok⟩ := bind_eq_ok.mp hok
    cases hok
    exact (cancelRequirements_lawfulRows h hcancel).of_eq rfl
  | none =>
    simp only [hactive] at hok
    cases hok
    exact h.of_eq rfl

theorem setRequirementQuantity_lawfulRows {iup : ItemUpholstery} {r : ItemUpholsteryRequirement}
    (h : db.LawfulRows) (hwhole : amount.IsWhole)
    (hok : setRequirementQuantity db amount newInventoryId iup r = .ok db') : db'.LawfulRows := by
  unfold setRequirementQuantity at hok
  split at hok
  · cases hok
    exact h.of_eq rfl
  split at hok
  · obtain ⟨⟨db₁, result⟩, hneed, hok⟩ := bind_eq_ok.mp hok
    have h₁ : db₁.LawfulRows := ⟨(checkAndInjectNeed_rowsKept hneed).1.keyed h.keyed,
      checkAndInjectNeed_lawful h.keyed h.lawful hwhole hneed⟩
    cases hok
    exact h₁.of_eq rfl
  · obtain ⟨inventoryId, -, hok⟩ := bind_eq_ok.mp hok
    dsimp only at hok
    rw [hwhole.isShort.rounded_sub_value] at hok
    split at hok
    · cases hok
      exact h
    · obtain ⟨⟨db₁, result⟩, hadjust, hok⟩ := bind_eq_ok.mp hok
      have h₁ : db₁.LawfulRows := ⟨(adjustNeed_inventoryOnly hadjust).narrows.rows.keyed h.keyed,
        adjustNeed_lawful h.keyed h.lawful (hwhole.sub (FixedScale.exact_value _)) hadjust⟩
      cases hok
      exact h₁.of_eq rfl

theorem updateRequirementQuantity_lawfulRows (h : db.LawfulRows) (hwhole : amount.IsWhole)
    (hok : updateRequirementQuantity db itemUpholsteryId amount newInventoryId = .ok db') :
    db'.LawfulRows := by
  obtain ⟨-, hok⟩ := throwIf_bind_eq_ok.mp hok
  obtain ⟨iup, -, hok⟩ := bind_eq_ok.mp hok
  dsimp only at hok
  split at hok
  · cases hok
    exact h.of_eq rfl
  · obtain ⟨_, -, hok⟩ := bind_eq_ok.mp hok
    obtain ⟨r, -, hok⟩ := bind_eq_ok.mp hok
    obtain ⟨-, hok⟩ := throwIf_bind_eq_ok.mp hok
    refine setRequirementQuantity_lawfulRows (h.of_eq ?_) hwhole hok
    rfl

theorem applySurplusToRequirement_lawfulRows (h : db.LawfulRows) (hwhole : amount.IsWhole)
    (hok : applySurplusToRequirement db itemUpholsteryId amount newRequirementId now = .ok db') :
    db'.LawfulRows := by
  obtain ⟨-, hok⟩ := throwIf_bind_eq_ok.mp hok
  obtain ⟨iup, -, hok⟩ := bind_eq_ok.mp hok
  obtain ⟨_, -, hok⟩ := bind_eq_ok.mp hok
  obtain ⟨r, -, hok⟩ := bind_eq_ok.mp hok
  obtain ⟨-, hok⟩ := throwIf_bind_eq_ok.mp hok
  obtain ⟨-, hok⟩ := throwIf_bind_eq_ok.mp hok
  obtain ⟨inventoryId, -, hok⟩ := bind_eq_ok.mp hok
  obtain ⟨db₁, hadd, hok⟩ := bind_eq_ok.mp hok
  have h₁ : db₁.LawfulRows := ⟨(addStoredSurplus_inventoryOnly hadd).narrows.rows.keyed h.keyed,
    addStoredSurplus_lawful h.keyed h.lawful hwhole hadd⟩
  split at hok
  · cases hok
    exact h₁.of_eq rfl
  · obtain ⟨-, rfl⟩ := insertRequirement_eq_ok hok
    exact h₁.of_eq rfl

end Selection

section Ensure

variable {itemId taskId : ClientId} {data : ItemUpholsteryData} {created : ClientId × Bool}

theorem ensureItemUpholsteryInSession_lawfulRows (h : db.LawfulRows)
    (hwhole : ∀ quantity ∈ db.countedAmount itemId data.source data.amountMeters.join,
      Meters.IsWhole quantity)
    (hok : ensureItemUpholsteryInSession db itemId data newItemUpholsteryId newRequirementId
      newInventoryId now = .ok (db', created)) : db'.LawfulRows := by
  rcases ensureItemUpholsteryInSession_cases hok with
    ⟨-, hcreate⟩ | ⟨current, r, hcurrent, -, -, hcreate⟩ | ⟨current, hcurrent, hupdate⟩
  · exact createItemUpholsteryInSession_lawfulRows h
      (fun hsource quantity hq =>
        hwhole quantity (mem_countedAmount.mpr ⟨hq, .inl hsource⟩)) hcreate
  · refine createItemUpholsteryInSession_lawfulRows (h.of_eq ?_)
      (fun _ quantity hq => hwhole quantity (mem_countedAmount_of_current hcurrent hq)) hcreate
    rfl
  · obtain ⟨db₁, hin, hupdate⟩ := bind_eq_ok.mp hupdate
    have hamounts : ∀ quantity ∈ data.amountMeters.join, Meters.IsWhole quantity :=
      fun quantity hq => hwhole quantity (mem_countedAmount_of_current hcurrent hq)
    have h₁ : db₁.LawfulRows := updateItemUpholsteryInSession_lawfulRows h
      (fun quantity hq => hamounts quantity (mem_join_of_coerced (mem_countedUpdate.mp hq).1)) hin
    split at hupdate
    · rename_i amount hamount
      split at hupdate
      · exact updateRequirementQuantity_lawfulRows h₁ (hamounts amount hamount) hupdate
      · cases hupdate
        exact h₁
    · cases hupdate
      exact h₁

theorem createItemUpholstery_lawfulRows {request : CreateItemUpholsteryRequest}
    (h : db.LawfulRows)
    (hwhole : ∀ quantity ∈ db.countedAmount request.itemId request.source request.amountMeters,
      Meters.IsWhole quantity)
    (hok : createItemUpholstery db request newItemUpholsteryId newRequirementId newInventoryId now =
      .ok db') : db'.LawfulRows := by
  obtain ⟨_, -, hok⟩ := bind_eq_ok.mp hok
  obtain ⟨-, hok⟩ := throwIf_bind_eq_ok.mp hok
  obtain ⟨-, hok⟩ := throwIf_bind_eq_ok.mp hok
  obtain ⟨⟨db₁, created⟩, hensure, hok⟩ := bind_eq_ok.mp hok
  cases hok
  exact ensureItemUpholsteryInSession_lawfulRows h
    (fun quantity hq => hwhole quantity (mem_countedAmount_of_coerced hq)) hensure

theorem createTaskItemUpholstery_lawfulRows (h : db.LawfulRows)
    (hwhole : ∀ quantity ∈ db.countedAmount itemId data.source data.amountMeters.join,
      Meters.IsWhole quantity)
    (hok : createTaskItemUpholstery db itemId data newItemUpholsteryId newRequirementId
      newInventoryId now = .ok db') : db'.LawfulRows := by
  obtain ⟨_, -, hok⟩ := bind_eq_ok.mp hok
  obtain ⟨⟨db₁, created⟩, hensure, hok⟩ := bind_eq_ok.mp hok
  cases hok
  refine ensureItemUpholsteryInSession_lawfulRows h (fun quantity hq => ?_) hensure
  obtain ⟨hq, hcounted⟩ := mem_countedAmount.mp hq
  exact hwhole quantity (mem_countedAmount.mpr ⟨mem_join_of_coerced hq, hcounted⟩)

theorem createItemWithUpholstery_lawfulRows {request : CreateItemUpholsteryRequest}
    (h : db.LawfulRows)
    (hwhole : ∀ quantity ∈ db.countedAmount request.itemId request.source request.amountMeters,
      Meters.IsWhole quantity)
    (hok : createItemWithUpholstery db request newItemUpholsteryId newRequirementId newInventoryId
      now = .ok db') : db'.LawfulRows := by
  obtain ⟨_, -, hok⟩ := bind_eq_ok.mp hok
  obtain ⟨-, hok⟩ := throwIf_bind_eq_ok.mp hok
  obtain ⟨-, hok⟩ := throwIf_bind_eq_ok.mp hok
  obtain ⟨-, hok⟩ := throwIf_bind_eq_ok.mp hok
  obtain ⟨⟨db₁, created⟩, hensure, hok⟩ := bind_eq_ok.mp hok
  cases hok
  refine ensureItemUpholsteryInSession_lawfulRows (h.of_eq ?_)
    (fun quantity hq => hwhole quantity (mem_countedAmount_of_coerced hq)) hensure
  rfl

theorem deleteTask_lawfulRows (h : db.LawfulRows) (hok : deleteTask db taskId now = .ok db') :
    db'.LawfulRows := by
  obtain ⟨task, -, hok⟩ := bind_eq_ok.mp hok
  obtain ⟨-, hok⟩ := throwIf_bind_eq_ok.mp hok
  obtain ⟨db₁, hcancel, hok⟩ := bind_eq_ok.mp hok
  cases hok
  exact (cancelRequirements_lawfulRows h hcancel).of_eq rfl

theorem reviveUpholsteryNeed_lawfulRows {deletedAt : Instant}
    {newItemUpholsteryIdOf newRequirementIdOf newInventoryIdOf : ClientId → ClientId}
    (h : db.LawfulRows)
    (hok : reviveUpholsteryNeed deletedAt now newItemUpholsteryIdOf newRequirementIdOf
      newInventoryIdOf db itemId = .ok db') : db'.LawfulRows := by
  unfold reviveUpholsteryNeed at hok
  split at hok
  · split at hok
    · split at hok
      · obtain ⟨⟨db₁, created⟩, hensure, hok⟩ := bind_eq_ok.mp hok
        cases hok
        refine ensureItemUpholsteryInSession_lawfulRows h (fun quantity hq => ?_) hensure
        obtain ⟨n, -, rfl⟩ := Option.map_eq_some_iff.mp (mem_countedAmount.mp hq).1
        exact FixedScale.exact_value n
      · cases hok
        exact h
    · cases hok
      exact h
  · cases hok
    exact h

theorem restoreTask_lawfulRows
    {newItemUpholsteryIdOf newRequirementIdOf newInventoryIdOf : ClientId → ClientId}
    (h : db.LawfulRows)
    (hok : restoreTask db taskId now newItemUpholsteryIdOf newRequirementIdOf newInventoryIdOf =
      .ok db') : db'.LawfulRows := by
  obtain ⟨task, -, hok⟩ := bind_eq_ok.mp hok
  obtain ⟨-, hok⟩ := throwIf_bind_eq_ok.mp hok
  have htask : ∀ f, (db.updateTask taskId f).LawfulRows := fun _ => h.of_eq rfl
  dsimp only at hok
  split at hok
  · exact foldlM_invariant Db.LawfulRows (fun _ _ _ _ h hp => reviveUpholsteryNeed_lawfulRows h hp)
      (htask _) hok
  · cases hok
    exact htask _

end Ensure

section Stock

variable {inventoryId : ClientId} {priorityIds : List ClientId} {threshold : Option Meters}

theorem addOrdered_lawfulRows (h : db.LawfulRows)
    (hok : db.addOrdered inventoryId amount = .ok db') : db'.LawfulRows :=
  ⟨(addOrdered_inventoryOnly hok).narrows.rows.keyed h.keyed,
    addOrdered_lawful h.keyed h.lawful hok⟩

theorem createUpholsteryOrder_lawfulRows {request : CreateUpholsteryOrderRequest}
    (h : db.LawfulRows) (hok : createUpholsteryOrder db request now = .ok db') :
    db'.LawfulRows := by
  obtain ⟨-, hok⟩ := throwIf_bind_eq_ok.mp hok
  obtain ⟨-, hok⟩ := throwIf_bind_eq_ok.mp hok
  obtain ⟨inv, -, hok⟩ := bind_eq_ok.mp hok
  obtain ⟨db₁, hins, hok⟩ := bind_eq_ok.mp hok
  obtain ⟨-, hins⟩ := throwIf_bind_eq_ok.mp hins
  cases hins
  split at hok
  · obtain ⟨db₂, hadd, hok⟩ := bind_eq_ok.mp hok
    have h₂ : db₂.LawfulRows := by
      refine addOrdered_lawfulRows (h.of_eq ?_) hadd
      rfl
    cases hok
    exact h₂.of_eq rfl
  · cases hok
    exact h.of_eq rfl

theorem confirmOrderedToStock_lawfulRows (h : db.LawfulRows) (hwhole : amount.IsWhole)
    (hok : db.confirmOrderedToStock inventoryId amount = .ok db') : db'.LawfulRows :=
  ⟨(confirmOrderedToStock_inventoryOnly hok).narrows.rows.keyed h.keyed,
    confirmOrderedToStock_lawful h.keyed h.lawful hwhole hok⟩

theorem receiveUpholsteryOrder_lawfulRows {orderId : ClientId} (h : db.LawfulRows)
    (hok : receiveUpholsteryOrder db orderId amount priorityIds = .ok db') : db'.LawfulRows := by
  obtain ⟨-, hok⟩ := throwIf_bind_eq_ok.mp hok
  obtain ⟨order, -, hok⟩ := bind_eq_ok.mp hok
  obtain ⟨-, hok⟩ := throwIf_bind_eq_ok.mp hok
  obtain ⟨inventoryId, -, hok⟩ := bind_eq_ok.mp hok
  obtain ⟨-, hok⟩ := throwIf_bind_eq_ok.mp hok
  obtain ⟨db₁, hconfirm, hok⟩ := bind_eq_ok.mp hok
  have h₁ : db₁.LawfulRows := by
    refine confirmOrderedToStock_lawfulRows (h.of_eq ?_) (FixedScale.exact_value _) hconfirm
    rfl
  obtain ⟨inv, -, hok⟩ := bind_eq_ok.mp hok
  cases hok
  exact h₁.of_eq rfl

theorem reallocateStock_lawfulRows {upholsteryId : ClientId} {donorIds : List ClientId}
    (h : db.LawfulRows)
    (hok : reallocateStock db upholsteryId donorIds priorityIds = .ok db') : db'.LawfulRows := by
  obtain ⟨inv, -, hok⟩ := bind_eq_ok.mp hok
  dsimp only at hok
  split at hok <;>
  · cases hok
    exact h.of_eq rfl

theorem setCurrentStoredAmountInventory_lawfulRows (h : db.LawfulRows)
    (hok : setCurrentStoredAmountInventory db inventoryId amount = .ok db') : db'.LawfulRows := by
  obtain ⟨-, hok⟩ := throwIf_bind_eq_ok.mp hok
  obtain ⟨inv, hload, hok⟩ := bind_eq_ok.mp hok
  obtain ⟨hi, rfl⟩ := loadInventory_eq_ok hload
  split at hok
  · cases hok
    exact h
  dsimp only at hok
  generalize hg : (fun i : UpholsteryInventory =>
    { i with
      currentStored := amount.toColumn
      inventoryCondition := evaluateInventoryCondition amount.toColumn.value
        inv.currentInNeed.value inv.threshold }) = g at hok
  cases hok
  have hstored : (db.updateInventory inv.clientId g).LawfulRows := by
    refine ⟨keyed_update h.keyed fun i _ _ => by rw [← hg],
      updateLoaded_lawful h.keyed h.lawful hi ?_⟩
    rw [← hg]
    rfl
  refine hstored.of_eq ?_
  obtain ⟨l, -, -, hdemote⟩ := demoteAvailableRequirements_eq (db.updateInventory inv.clientId g)
    amount.toColumn (db.updateInventory inv.clientId g).fetchEarliestReadyByAt
    ((db.updateInventory inv.clientId g).requirementsOf inv.clientId [.available])
  rw [hdemote]
  rfl

theorem insertInventory_lawfulRows {i : UpholsteryInventory} (h : db.LawfulRows) (hi : i.Lawful)
    (hok : db.insertInventory i = .ok db') : db'.LawfulRows := by
  refine ⟨(insertInventory_rowsKept hok).keyed h.keyed, fun x hx => ?_⟩
  obtain ⟨-, rfl⟩ := insertInventory_eq_ok hok
  rcases List.mem_append.mp hx with hx | hx
  · exact h.lawful x hx
  · exact List.mem_singleton.mp hx ▸ hi

theorem createUpholstery_lawfulRows {request : CreateUpholsteryRequest} (h : db.LawfulRows)
    (hstored : ∀ stored ∈ request.currentStoredAmountMeters, stored.IsWhole)
    (hthreshold : ∀ threshold ∈ request.lowStockThresholdMeters, threshold.IsWhole)
    (hok : createUpholstery db request = .ok db') : db'.LawfulRows := by
  obtain ⟨_, -, hok⟩ := bind_eq_ok.mp hok
  obtain ⟨-, hok⟩ := throwIf_bind_eq_ok.mp hok
  dsimp only at hok
  split at hok
  · exact existingUpholstery_eq_ok hok ▸ h
  split at hok
  · exact existingUpholstery_eq_ok hok ▸ h
  split at hok
  · exact existingUpholstery_eq_ok hok ▸ h
  split at hok
  · exact existingUpholstery_eq_ok hok ▸ h
  refine insertInventory_lawfulRows (h.of_eq ?_) ?_ hok
  · rfl
  have hwhole : (request.currentStoredAmountMeters.getD 0).toColumn.value =
      request.currentStoredAmountMeters.getD 0 := by
    cases hs : request.currentStoredAmountMeters with
    | none => exact FixedScale.Exact.value_store ⟨0, FixedScale.value_zero⟩
    | some stored => exact (hstored stored hs).value_store
  have hsame : (request.lowStockThresholdMeters.map (·.toColumn)).map (·.value) =
      request.lowStockThresholdMeters := by
    cases ht : request.lowStockThresholdMeters with
    | none => rfl
    | some threshold => exact congrArg some (hthreshold threshold ht).value_store
  simp only [UpholsteryInventory.Lawful, UpholsteryInventory.threshold, hwhole, hsame]
  congr 1
  exact FixedScale.value_zero.symm

theorem updateUpholsteryInventory_lawfulRows (h : db.LawfulRows)
    (hthreshold : ∀ inv, db.loadInventory inventoryId = .ok inv → ∀ t ∈ threshold,
      evaluateInventoryCondition inv.currentStored.value inv.currentInNeed.value inv.threshold =
        evaluateInventoryCondition inv.currentStored.value inv.currentInNeed.value
          (some t.toColumn.value))
    (hok : updateUpholsteryInventory db inventoryId threshold = .ok db') : db'.LawfulRows := by
  refine ⟨(updateUpholsteryInventory_narrows hok).rows.keyed h.keyed, ?_⟩
  obtain ⟨_, -, hok⟩ := bind_eq_ok.mp hok
  obtain ⟨inv, hload, hok⟩ := bind_eq_ok.mp hok
  obtain ⟨hi, -⟩ := loadInventory_eq_ok hload
  obtain ⟨-, hok⟩ := throwIf_bind_eq_ok.mp hok
  cases hok
  refine updateLoaded_lawful h.keyed h.lawful hi ?_
  cases ht : threshold with
  | none => exact h.lawful inv hi
  | some t => exact (h.lawful inv hi).trans (hthreshold inv hload t ht)

end Stock

section Runs

/-- The command leaves the conditions right: it creates no row on its own, gives a threshold only
where the condition under the old one is that under the new one, and counts whole thousandths of a
metre. -/
def Op.KeepsConditions (db : Db) (op : Op) : Prop :=
  (∀ amount ∈ op.countedAmount db, Meters.IsWhole amount) ∧
  match op with
  | .createUpholstery request =>
    (∀ stored ∈ request.currentStoredAmountMeters, stored.IsWhole) ∧
      ∀ threshold ∈ request.lowStockThresholdMeters, threshold.IsWhole
  | .createUpholsteryInventory _ _ _ => False
  | .updateUpholsteryInventory inventoryId threshold =>
    ∀ inv, db.loadInventory inventoryId = .ok inv → ∀ t ∈ threshold,
      evaluateInventoryCondition inv.currentStored.value inv.currentInNeed.value inv.threshold =
        evaluateInventoryCondition inv.currentStored.value inv.currentInNeed.value
          (some t.toColumn.value)
  | _ => True

theorem Op.KeepsConditions.countsShort {op : Op} (h : op.KeepsConditions db) :
    op.CountsShort db := fun amount hamount => Meters.IsWhole.isShort (h.1 amount hamount)

theorem not_splitsAtTie_of_keepsConditions {op : Op} (h : op.KeepsConditions db) :
    ¬ op.SplitsAtTie db := by
  cases op with
  | applySurplus itemUpholsteryId amount =>
    exact fun htie => FixedScale.Exact.fract_ne (h.1 amount rfl) (by exact_mod_cast htie.1)
  | _ => exact id

/-- Every command keeps the conditions right, if the books are and it does not touch them. -/
theorem execute_lawfulRows {op : Op} (hs : db.Sound) (h : db.LawfulRows)
    (hkeeps : op.KeepsConditions db) (hok : op.execute db now = .ok db') : db'.LawfulRows := by
  have hk := hs.balanced.books.requirementsKeyed
  cases op with
  | createUpholstery => exact createUpholstery_lawfulRows h hkeeps.2.1 hkeeps.2.2 hok
  | createUpholsteryInventory => exact hkeeps.2.elim
  | updateUpholsteryInventory => exact updateUpholsteryInventory_lawfulRows h hkeeps.2 hok
  | addOrderedToInventory =>
    obtain ⟨-, hok⟩ := throwIf_bind_eq_ok.mp hok
    exact addOrdered_lawfulRows h hok
  | confirmOrderedToStock =>
    obtain ⟨-, hok⟩ := throwIf_bind_eq_ok.mp hok
    exact confirmOrderedToStock_lawfulRows h (hkeeps.1 _ rfl) hok
  | setCurrentStoredAmount => exact setCurrentStoredAmountInventory_lawfulRows h hok
  | createOrder => exact createUpholsteryOrder_lawfulRows h hok
  | receiveOrder => exact receiveUpholsteryOrder_lawfulRows h hok
  | markOrdered =>
    obtain ⟨-, hok⟩ := throwIf_bind_eq_ok.mp hok
    cases hok
    exact h.of_eq rfl
  | resolveAfterStock =>
    obtain ⟨inv, -, hok⟩ := bind_eq_ok.mp hok
    cases hok
    exact h.of_eq rfl
  | reallocateStock => exact reallocateStock_lawfulRows h hok
  | createItemUpholstery => exact createItemUpholstery_lawfulRows h hkeeps.1 hok
  | createItem => exact createItemWithUpholstery_lawfulRows h hkeeps.1 hok
  | createTask => exact createTaskItemUpholstery_lawfulRows h hkeeps.1 hok
  | updateItemUpholstery =>
    exact updateItemUpholsteryInSession_lawfulRows h
      (fun amount hq => hkeeps.1 amount (mem_countedUpdate_of_coerced hq)) hok
  | deleteItemUpholstery => exact deleteItemUpholstery_lawfulRows h hok
  | updateQuantity => exact updateRequirementQuantity_lawfulRows h (hkeeps.1 _ rfl) hok
  | applySurplus => exact applySurplusToRequirement_lawfulRows h (hkeeps.1 _ rfl) hok
  | markInUse =>
    refine ⟨(markRequirementsInUse_narrows hk hok).rows.keyed h.keyed, ?_⟩
    obtain ⟨iup, -, hok⟩ := bind_eq_ok.mp hok
    obtain ⟨_, -, hok⟩ := bind_eq_ok.mp hok
    obtain ⟨-, hok⟩ := throwIf_bind_eq_ok.mp hok
    exact startRequirements_lawful hs.balanced h.lawful hok
  | markCompleted =>
    refine ⟨(markRequirementsCompleted_narrows hok).rows.keyed h.keyed, ?_⟩
    obtain ⟨iup, -, hok⟩ := bind_eq_ok.mp hok
    obtain ⟨_, -, hok⟩ := bind_eq_ok.mp hok
    obtain ⟨-, hok⟩ := throwIf_bind_eq_ok.mp hok
    exact completeRequirements_lawful hs.balanced h.lawful hok
  | completeSingle =>
    refine ⟨(completeSingleRequirement_narrows hok).rows.keyed h.keyed, ?_⟩
    obtain ⟨r, hr, hok⟩ := bind_eq_ok.mp hok
    obtain ⟨hstate, hok⟩ := throwIf_bind_eq_ok.mp hok
    obtain ⟨hr, -, hd⟩ := fetchRequirement_eq_some (getOr_eq_ok.mp hr)
    exact completeRequirement_lawful hs.balanced h.lawful hr hd (.inl (not_not.mp hstate)) hok
  | installationSideEffect =>
    refine ⟨(applyUpholsteryInstallationSideEffect_narrows hk hok).rows.keyed h.keyed, ?_⟩
    exact applyUpholsteryInstallationSideEffect_lawful hs.balanced h.lawful hok
  | deleteTask => exact deleteTask_lawfulRows h hok
  | restoreTask => exact restoreTask_lawfulRows h hok
  | elsewhere =>
    cases hok
    exact h.of_eq rfl

/-- The condition of every inventory row is that of its amounts, in every state of a run whose
commands keep the conditions. -/
theorem run_condition_eq (db : Db) (clock : Instant) (commands : List Command)
    (hm : Meets step (fun s c => c.op.KeepsConditions s.db) ⟨clock, db.withoutUpholstery⟩
      commands) :
    ∀ i ∈ (run ⟨clock, db.withoutUpholstery⟩ commands).db.upholsteryInventory,
      i.inventoryCondition =
        evaluateInventoryCondition i.currentStored.value i.currentInNeed.value i.threshold := by
  refine (Meets.invariant (fun s : System => s.db.Sound ∧ s.db.LawfulRows)
    (fun s c s' h hkeeps hok => ?_)
    ⟨withoutUpholstery_sound db, keyed_nil, by simp [Db.withoutUpholstery, Db.Lawful]⟩ hm).2.lawful
  have hok := step_eq_ok hok
  exact ⟨execute_sound h.1 hkeeps.countsShort (not_splitsAtTie_of_keepsConditions hkeeps) hok,
    execute_lawfulRows h.1 h.2 hkeeps hok⟩

/-- Two metres of linen come into stock; half a metre is asked for and taken. -/
theorem run_condition_eq_linen :
    (run ⟨0, velvetSofa.withoutUpholstery⟩
      [⟨0, .createUpholstery ⟨"linen", "inv", "Linen", none, some 2, some 1, false⟩⟩,
        ⟨0, .createItemUpholstery ⟨some "iup", "sofa", some "linen", some (1 / 2), .internal⟩ ""
          "need" ""⟩,
        ⟨0, .markInUse "iup"⟩]).db.Lawful := by
  refine run_condition_eq velvetSofa 0 _ ⟨fun _ => ⟨?_, ?_, ?_⟩, fun _ => ⟨?_, trivial⟩,
    fun _ => ⟨?_, trivial⟩, trivial⟩
  · rintro _ ⟨⟩
  · rintro _ ⟨⟩
    exact ⟨2000, by norm_num [FixedScale.value]⟩
  · rintro _ ⟨⟩
    exact ⟨1000, by norm_num [FixedScale.value]⟩
  · intro amount hamount
    obtain rfl := Option.some_inj.mp (mem_countedAmount.mp hamount).1
    exact ⟨500, by norm_num [FixedScale.value]⟩
  · rintro _ ⟨⟩

instance (i : UpholsteryInventory) : Decidable i.Lawful := inferInstanceAs (Decidable (_ = _))

instance (db : Db) : Decidable db.Lawful := inferInstanceAs (Decidable (∀ i ∈ _, _))

/-- A new row without stock is not out of stock, a higher threshold does not make a row low on
stock, and an amount that rounds to nothing makes a row available. -/
theorem condition_differs :
    ¬ (run ⟨0, velvetSofa.withoutUpholstery⟩
      [⟨0, .createUpholsteryInventory "inv" "velvet" none⟩]).db.Lawful ∧
    ¬ (run ⟨0, velvetSofa.withoutUpholstery⟩
      [⟨0, .createUpholstery ⟨"linen", "inv", "Linen", none, some 2, none, false⟩⟩,
        ⟨0, .updateUpholsteryInventory "inv" (some 3)⟩]).db.Lawful ∧
    ¬ (run ⟨0, velvetSofa.withoutUpholstery⟩
      [⟨0, .createUpholstery ⟨"linen", "inv", "Linen", none, none, none, false⟩⟩,
        ⟨0, .addOrderedToInventory "inv" 1⟩,
        ⟨0, .confirmOrderedToStock "inv" (1 / 2500)⟩]).db.Lawful := by
  decide +kernel

end Runs

end BeyoManager.Upholstery
