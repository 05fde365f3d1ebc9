import BeyoManager.Upholstery.Production

/-! # What the helpers leave alone

The helpers that move the totals of an inventory row write nothing else: the rows keep their
ids and their upholsteries, and the other tables stay as they are.
-/

namespace BeyoManager.Upholstery

open Relational Transition

variable {db db' : Db} {inventoryId : ClientId} {quantity : Meters}

def UpholsteryInventory.names (i : UpholsteryInventory) : ClientId × ClientId :=
  (i.clientId, i.upholsteryId)

structure InventoryOnly (db db' : Db) : Prop where
  names : db'.upholsteryInventory.map (·.names) = db.upholsteryInventory.map (·.names)
  requirements : db'.requirements = db.requirements
  itemUpholsteries : db'.itemUpholsteries = db.itemUpholsteries

theorem updateInventory_inventoryOnly {f : UpholsteryInventory → UpholsteryInventory}
    (hf : ∀ i, (f i).names = i.names) : InventoryOnly db (db.updateInventory inventoryId f) :=
  ⟨map_updateWhere_of_fixed fun i _ _ => hf i, rfl, rfl⟩

theorem clamp_updateInventory_inventoryOnly {amount : Meters}
    {f : UpholsteryInventory → UpholsteryInventory} (hf : ∀ i, (f i).names = i.names) :
    InventoryOnly db ((db.clamp amount).updateInventory inventoryId f) :=
  ⟨map_updateWhere_of_fixed fun i _ _ => hf i, rfl, rfl⟩

theorem consumeToInUse_inventoryOnly (h : db.consumeToInUse inventoryId quantity = .ok db') :
    InventoryOnly db db' := by
  obtain ⟨inv, -, h⟩ := bind_eq_ok.mp h
  obtain ⟨-, h⟩ := throwIf_bind_eq_ok.mp h
  cases h
  exact clamp_updateInventory_inventoryOnly fun _ => rfl

theorem finishInUse_inventoryOnly {source : RequirementSource}
    (h : db.finishInUse inventoryId quantity source = .ok db') : InventoryOnly db db' := by
  obtain ⟨inv, -, h⟩ := bind_eq_ok.mp h
  obtain ⟨-, h⟩ := throwIf_bind_eq_ok.mp h
  cases h
  exact updateInventory_inventoryOnly fun i => by cases source <;> rfl

theorem addOrdered_inventoryOnly (h : db.addOrdered inventoryId quantity = .ok db') :
    InventoryOnly db db' := by
  obtain ⟨inv, -, h⟩ := bind_eq_ok.mp h
  cases h
  exact updateInventory_inventoryOnly fun _ => rfl

theorem confirmOrderedToStock_inventoryOnly
    (h : db.confirmOrderedToStock inventoryId quantity = .ok db') : InventoryOnly db db' := by
  obtain ⟨inv, -, h⟩ := bind_eq_ok.mp h
  obtain ⟨-, h⟩ := throwIf_bind_eq_ok.mp h
  cases h
  exact updateInventory_inventoryOnly fun _ => rfl

theorem addStoredSurplus_inventoryOnly (h : db.addStoredSurplus inventoryId quantity = .ok db') :
    InventoryOnly db db' := by
  obtain ⟨inv, -, h⟩ := bind_eq_ok.mp h
  cases h
  exact updateInventory_inventoryOnly fun _ => rfl

theorem adjustNeed_inventoryOnly {result : NeedResult}
    (h : db.adjustNeed inventoryId quantity = .ok (db', result)) : InventoryOnly db db' := by
  obtain ⟨inv, -, h⟩ := bind_eq_ok.mp h
  cases h
  exact clamp_updateInventory_inventoryOnly fun _ => rfl

theorem completeAvailableDirect_inventoryOnly {source : RequirementSource}
    (h : db.completeAvailableDirect inventoryId quantity source = .ok db') :
    InventoryOnly db db' := by
  obtain ⟨inv, -, h⟩ := bind_eq_ok.mp h
  obtain ⟨-, h⟩ := throwIf_bind_eq_ok.mp h
  cases h
  exact clamp_updateInventory_inventoryOnly fun i => by cases source <;> rfl

theorem rollbackInUseToStored_inventoryOnly
    (h : db.rollbackInUseToStored inventoryId quantity = .ok db') : InventoryOnly db db' := by
  obtain ⟨inv, -, h⟩ := bind_eq_ok.mp h
  obtain ⟨-, h⟩ := throwIf_bind_eq_ok.mp h
  cases h
  exact updateInventory_inventoryOnly fun _ => rfl

section Requirement

variable {r : ItemUpholsteryRequirement}

/-- One requirement has been rewritten, with totals of inventory rows. -/
structure RewritesOne (requirementId : ClientId)
    (f : ItemUpholsteryRequirement → ItemUpholsteryRequirement) (db db' : Db) : Prop where
  names : db'.upholsteryInventory.map (·.names) = db.upholsteryInventory.map (·.names)
  requirements : db'.requirements =
    updateWhere (fun x => x.clientId == requirementId) f db.requirements
  itemUpholsteries : db'.itemUpholsteries = db.itemUpholsteries

theorem InventoryOnly.updateRequirement {db₁ : Db} {requirementId : ClientId}
    {f : ItemUpholsteryRequirement → ItemUpholsteryRequirement} (h : InventoryOnly db db₁) :
    RewritesOne requirementId f db (db₁.updateRequirement requirementId f) :=
  ⟨h.names, congrArg (updateWhere _ f) h.requirements, h.itemUpholsteries⟩

theorem inventoryOnly_refl : InventoryOnly db db := ⟨rfl, rfl, rfl⟩

theorem startRequirement_rewritesOne (h : startRequirement db r = .ok db') :
    RewritesOne r.clientId (fun x => { x with state := .inUse }) db db' := by
  unfold startRequirement at h
  cases hlink : r.upholsteryInventoryId with
  | none =>
    simp only [hlink] at h
    cases h
    exact inventoryOnly_refl.updateRequirement
  | some inventoryId =>
    simp only [hlink] at h
    obtain ⟨quantity, -, h⟩ := bind_eq_ok.mp h
    obtain ⟨db₁, hconsume, h⟩ := bind_eq_ok.mp h
    cases h
    exact (consumeToInUse_inventoryOnly hconsume).updateRequirement

theorem completeRequirement_rewritesOne (h : completeRequirement db r = .ok db') :
    RewritesOne r.clientId (fun x => { x with state := .completed }) db db' := by
  unfold completeRequirement at h
  cases hlink : r.upholsteryInventoryId with
  | none =>
    simp only [hlink] at h
    cases h
    exact inventoryOnly_refl.updateRequirement
  | some inventoryId =>
    simp only [hlink] at h
    obtain ⟨quantity, -, h⟩ := bind_eq_ok.mp h
    split at h
    · obtain ⟨db₁, hfinish, h⟩ := bind_eq_ok.mp h
      cases h
      exact (finishInUse_inventoryOnly hfinish).updateRequirement
    · obtain ⟨db₁, hdirect, h⟩ := bind_eq_ok.mp h
      cases h
      exact (completeAvailableDirect_inventoryOnly hdirect).updateRequirement

theorem cancelRequirement_rewritesOne {now : Instant} (hr : r.state.isUnfinished)
    (h : cancelRequirement now db r = .ok db') :
    RewritesOne r.clientId (fun x => { x with state := .failed, failedAt := some now }) db db' := by
  unfold cancelRequirement at h
  rw [if_pos hr] at h
  cases hlink : r.upholsteryInventoryId with
  | none =>
    simp only [hlink] at h
    cases h
    exact inventoryOnly_refl.updateRequirement
  | some inventoryId =>
    simp only [hlink] at h
    split at h
    case isFalse =>
      cases h
      exact inventoryOnly_refl.updateRequirement
    split at h
    · obtain ⟨⟨db₁, result⟩, hadjust, h⟩ := bind_eq_ok.mp h
      cases h
      exact (adjustNeed_inventoryOnly hadjust).updateRequirement
    · split at h
      · obtain ⟨db₁, hrollback, h⟩ := bind_eq_ok.mp h
        cases h
        exact (rollbackInUseToStored_inventoryOnly hrollback).updateRequirement
      · cases h
        exact inventoryOnly_refl.updateRequirement

theorem RewritesOne.mem_of_ne {requirementId : ClientId}
    {f : ItemUpholsteryRequirement → ItemUpholsteryRequirement}
    (h : RewritesOne requirementId f db db') {x : ItemUpholsteryRequirement}
    (hx : x ∈ db.requirements) (hne : x.clientId ≠ requirementId) : x ∈ db'.requirements := by
  have := mem_updateWhere_of_mem (p := fun x => x.clientId == requirementId) (f := f) hx
  rw [if_neg (by simpa using hne)] at this
  rwa [h.requirements]

end Requirement

end BeyoManager.Upholstery
