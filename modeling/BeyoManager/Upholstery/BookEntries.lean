import BeyoManager.Upholstery.Books
import BeyoManager.Upholstery.Production

/-! # One entry in the books

Each helper moves the totals of an inventory row, and the command that calls it moves the
state of a requirement: together they keep the books.
-/

namespace BeyoManager.Upholstery

open Relational Transition

variable {db db' : Db} {r : ItemUpholsteryRequirement} {i : UpholsteryInventory}
  {inventoryId : ClientId}

theorem loadInventory_eq_ok (h : db.loadInventory inventoryId = .ok i) :
    i ∈ db.upholsteryInventory ∧ i.clientId = inventoryId := by
  have h := getOr_eq_ok.mp h
  refine ⟨List.mem_of_find?_eq_some h, ?_⟩
  have := List.find?_some h
  simp only [Bool.and_eq_true, beq_iff_eq] at this
  exact this.1

theorem inventoryOf_eq_some {upholsteryId : ClientId} (h : db.inventoryOf upholsteryId = some i) :
    i ∈ db.upholsteryInventory ∧ i.upholsteryId = upholsteryId := by
  refine ⟨List.mem_of_find?_eq_some h, ?_⟩
  have := List.find?_some h
  simp only [Bool.and_eq_true, beq_iff_eq] at this
  exact this.1

section Bounds

variable (h : Books db.upholsteryInventory db.requirements) (hi : i ∈ db.upholsteryInventory)
  (hr : r ∈ db.requirements) (hlink : r.upholsteryInventoryId = some i.clientId)
  (hd : r.isDeleted = false)
include h hi hr hlink hd

theorem amount_le_inNeed (hs : r.state.isDemand) : r.amount ≤ i.currentInNeed := by
  rw [h.inNeed i hi, ← claim_of_state (p := RequirementState.isDemand) hlink hs hd]
  exact claim_le_claimed h.amount_nonneg hr

theorem amount_le_inUse (hs : r.state = .inUse) : r.amount ≤ i.currentInUse := by
  rw [h.inUse i hi, ← claim_of_state (p := RequirementState.isInUse) hlink (by rw [hs]; rfl) hd]
  exact claim_le_claimed h.amount_nonneg hr

theorem amount_le_stored (hs : r.state = .available) : r.amount ≤ i.currentStored := by
  refine le_trans ?_ (h.granted i hi)
  rw [← claim_of_state (p := RequirementState.isAvailable) hlink (by rw [hs]; rfl) hd]
  exact claim_le_claimed h.amount_nonneg hr

end Bounds

section States

theorem Books.restateUnclaimed {inventory : List UpholsteryInventory}
    {requirements : List ItemUpholsteryRequirement} (h : Books inventory requirements)
    (hr : r ∈ requirements) {f : ItemUpholsteryRequirement → ItemUpholsteryRequirement}
    (hrid : (f r).clientId = r.clientId)
    (hlink : (f r).upholsteryInventoryId = r.upholsteryInventoryId)
    (hamount : (f r).amountMeters = r.amountMeters)
    (hnone : r.upholsteryInventoryId = none ∨ r.amount = 0) :
    Books inventory (updateWhere (fun x => x.clientId == r.clientId) f requirements) := by
  have hsame : (f r).amount = r.amount := by
    rw [ItemUpholsteryRequirement.amount, hamount, ItemUpholsteryRequirement.amount]
  refine h.rewrite hr hrid hlink (hsame ▸ h.amount_nonneg r hr) fun p _ k => ?_
  rcases hnone with hnone | hzero
  · rw [claim_of_ne (by rw [hlink, hnone]; simp), claim_of_ne (by rw [hnone]; simp)]
  · simp [ItemUpholsteryRequirement.claim, hsame, hzero]

end States

section Production

variable (h : db.Balanced) (hr : r ∈ db.requirements) (hd : r.isDeleted = false)
include h hr hd

/-- Starting an available requirement keeps the books. -/
theorem startRequirement_balanced (hs : r.state = .available)
    (hok : startRequirement db r = .ok db') : db'.Balanced := by
  unfold startRequirement at hok
  cases hlink : r.upholsteryInventoryId with
  | none =>
    simp only [hlink] at hok
    cases hok
    exact ⟨h.books.restateUnclaimed hr rfl rfl rfl (.inl hlink), h.unclamped⟩
  | some inventoryId =>
    simp only [hlink] at hok
    obtain ⟨quantity, hq, hok⟩ := bind_eq_ok.mp hok
    have hamount : r.amount = quantity := by
      rw [ItemUpholsteryRequirement.amount, getOr_eq_ok.mp hq, Option.getD_some]
    obtain ⟨db₁, hconsume, hok⟩ := bind_eq_ok.mp hok
    cases hok
    obtain ⟨i, hload, hok⟩ := bind_eq_ok.mp hconsume
    obtain ⟨hi, rfl⟩ := loadInventory_eq_ok hload
    obtain ⟨hstored, hok⟩ := throwIf_bind_eq_ok.mp hok
    cases hok
    have hneed := amount_le_inNeed h.books hi hr hlink hd (by rw [hs]; rfl)
    rw [hamount] at hneed
    refine ⟨?_, ?_⟩
    · refine h.books.update hi rfl hr rfl ?_ (h.books.amount_nonneg r hr) ?_ ?_
          (by simp [hlink]) ?_
      · simp [hlink]
      · simp [FixedScale.max_zero_value_sub hneed, ItemUpholsteryRequirement.claim, hlink, hs, hd,
          RequirementState.isDemand, hamount]
        ring
      · simp [ItemUpholsteryRequirement.claim, hlink, hs, hd, RequirementState.isInUse]
        exact hamount.symm
      · simp [ItemUpholsteryRequirement.claim, hlink, hs, hd, RequirementState.isAvailable]
        exact hamount.ge
    · simp [Db.clamp, Db.updateInventory, Db.updateRequirement, h.unclamped, hneed]

/-- Completing a requirement that is in use or available keeps the books. -/
theorem completeRequirement_balanced (hs : r.state = .inUse ∨ r.state = .available)
    (hok : completeRequirement db r = .ok db') : db'.Balanced := by
  unfold completeRequirement at hok
  cases hlink : r.upholsteryInventoryId with
  | none =>
    simp only [hlink] at hok
    cases hok
    exact ⟨h.books.restateUnclaimed hr rfl rfl rfl (.inl hlink), h.unclamped⟩
  | some inventoryId =>
    simp only [hlink] at hok
    obtain ⟨quantity, hq, hok⟩ := bind_eq_ok.mp hok
    have hamount : r.amount = quantity := by
      rw [ItemUpholsteryRequirement.amount, getOr_eq_ok.mp hq, Option.getD_some]
    rcases hs with hs | hs
    · rw [if_pos hs] at hok
      obtain ⟨db₁, hfinish, hok⟩ := bind_eq_ok.mp hok
      cases hok
      obtain ⟨i, hload, hok⟩ := bind_eq_ok.mp hfinish
      obtain ⟨hi, rfl⟩ := loadInventory_eq_ok hload
      obtain ⟨-, hok⟩ := throwIf_bind_eq_ok.mp hok
      cases hok
      refine ⟨?_, h.unclamped⟩
      refine h.books.update hi (by simp) hr rfl ?_ (h.books.amount_nonneg r hr) ?_ ?_
          (by simp [hlink]) ?_
      · simp [hlink]
      · simp [ItemUpholsteryRequirement.claim, hs, RequirementState.isDemand]
      · simp [ItemUpholsteryRequirement.claim, hlink, hs, hd, RequirementState.isInUse, hamount]
        ring
      · simp [ItemUpholsteryRequirement.claim, hs, RequirementState.isAvailable]
    · rw [if_neg (by simp [hs])] at hok
      obtain ⟨db₁, hdirect, hok⟩ := bind_eq_ok.mp hok
      cases hok
      obtain ⟨i, hload, hok⟩ := bind_eq_ok.mp hdirect
      obtain ⟨hi, rfl⟩ := loadInventory_eq_ok hload
      obtain ⟨-, hok⟩ := throwIf_bind_eq_ok.mp hok
      cases hok
      have hneed := amount_le_inNeed h.books hi hr hlink hd (by rw [hs]; rfl)
      rw [hamount] at hneed
      refine ⟨?_, ?_⟩
      · refine h.books.update hi (by simp) hr rfl ?_ (h.books.amount_nonneg r hr) ?_ ?_
          (by simp [hlink]) ?_
        · simp [hlink]
        · simp [FixedScale.max_zero_value_sub hneed, ItemUpholsteryRequirement.claim, hlink, hs, hd,
            RequirementState.isDemand, hamount]
          ring
        · simp [ItemUpholsteryRequirement.claim, hs, RequirementState.isInUse]
        · simp [ItemUpholsteryRequirement.claim, hlink, hs, hd, RequirementState.isAvailable]
          exact hamount.ge
      · simp [Db.clamp, Db.updateInventory, Db.updateRequirement, h.unclamped, hneed]

/-- Failing a requirement and reversing its entries keeps the books. -/
theorem cancelRequirement_balanced {now : Instant}
    (hok : cancelRequirement now db r = .ok db') : db'.Balanced := by
  unfold cancelRequirement at hok
  split at hok
  case isFalse => cases hok; exact h
  rename_i hunfinished
  cases hlink : r.upholsteryInventoryId with
  | none =>
    simp only [hlink] at hok
    cases hok
    exact ⟨h.books.restateUnclaimed hr rfl rfl rfl (.inl hlink), h.unclamped⟩
  | some inventoryId =>
    simp only [hlink] at hok
    split at hok
    case isFalse hzero =>
      cases hok
      have hzero : r.amount = 0 := le_antisymm (not_lt.mp hzero) (h.books.amount_nonneg r hr)
      exact ⟨h.books.restateUnclaimed hr rfl rfl rfl (.inr hzero), h.unclamped⟩
    split at hok
    case isTrue hdemand =>
      obtain ⟨⟨db₁, result⟩, hadjust, hok⟩ := bind_eq_ok.mp hok
      cases hok
      obtain ⟨i, hload, hok⟩ := bind_eq_ok.mp hadjust
      obtain ⟨hi, rfl⟩ := loadInventory_eq_ok hload
      cases hok
      have hneed := amount_le_inNeed h.books hi hr hlink hd hdemand
      have huse := isInUse_of_isDemand _ hdemand
      refine ⟨?_, ?_⟩
      · refine h.books.update hi rfl hr rfl ?_ (h.books.amount_nonneg r hr) ?_ ?_
          (by simp [hlink]) ?_
        · simp [hlink]
        · simp [← sub_eq_add_neg, FixedScale.max_zero_value_sub hneed,
            ItemUpholsteryRequirement.claim, hlink, hdemand, hd]
          simp [RequirementState.isDemand]
          ring
        · simp [ItemUpholsteryRequirement.claim, huse]
          simp [RequirementState.isInUse]
        · rw [claim_of_not (by rfl), zero_sub, sub_self, neg_nonpos]
          exact claim_nonneg (h.books.amount_nonneg r hr)
      · simp [Db.clamp, Db.updateInventory, Db.updateRequirement, h.unclamped, hneed,
          ← sub_eq_add_neg]
    case isFalse hdemand =>
      split at hok
      case isTrue hs =>
        obtain ⟨db₁, hrollback, hok⟩ := bind_eq_ok.mp hok
        cases hok
        obtain ⟨i, hload, hok⟩ := bind_eq_ok.mp hrollback
        obtain ⟨hi, rfl⟩ := loadInventory_eq_ok hload
        obtain ⟨-, hok⟩ := throwIf_bind_eq_ok.mp hok
        cases hok
        refine ⟨?_, h.unclamped⟩
        refine h.books.update hi rfl hr rfl ?_ (h.books.amount_nonneg r hr) ?_ ?_
          (by simp [hlink]) ?_
        · simp [hlink]
        · simp [ItemUpholsteryRequirement.claim, hs, RequirementState.isDemand]
        · simp [ItemUpholsteryRequirement.claim, hlink, hs, hd, RequirementState.isInUse]
          ring
        · simp [ItemUpholsteryRequirement.claim, hs, RequirementState.isAvailable]
          exact h.books.amount_nonneg r hr
      case isFalse hs =>
        cases hok
        refine ⟨h.books.rewrite hr rfl rfl (h.books.amount_nonneg r hr) fun p hp k => ?_,
          h.unclamped⟩
        have hclaiming : r.state.isClaiming = false := by
          simp [RequirementState.isClaiming, RequirementState.isInUse, hdemand, hs]
        rw [claim_of_not, claim_of_not]
        · exact Bool.eq_false_iff.mpr fun hps => by simp [hp _ hps] at hclaiming
        · exact Bool.eq_false_iff.mpr fun hps => absurd (hp .failed hps) (by decide)

end Production

end BeyoManager.Upholstery
