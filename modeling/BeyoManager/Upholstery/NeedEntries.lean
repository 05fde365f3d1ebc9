import BeyoManager.Upholstery.BookEntries

/-! # Need and surplus in the books

A quantity that is asked for is injected into the need of a row and is granted when the stock
is sufficient for all of the need. A surplus enters the stock with the requirement that it is
granted to.
-/

namespace BeyoManager.Upholstery

open Relational Transition

variable {db db' : Db} {r : ItemUpholsteryRequirement} {i : UpholsteryInventory}
  {inventoryId : ClientId}

section Need

variable {result : NeedResult} {quantity : Meters}

@[simp] theorem NeedResult.isDemand_state : result.state.isDemand = true := by
  unfold NeedResult.state
  split <;> rfl

@[simp] theorem NeedResult.isInUse_state : result.state.isInUse = false := by
  unfold NeedResult.state
  split <;> rfl

@[simp] theorem NeedResult.isAvailable_state : result.state.isAvailable = result.sufficient := by
  unfold NeedResult.state
  cases result.sufficient <;> rfl

theorem inNeed_nonneg (h : Books db.upholsteryInventory db.requirements)
    (hi : i ∈ db.upholsteryInventory) : 0 ≤ i.currentInNeed := by
  rw [h.inNeed i hi]
  exact claimed_nonneg h.amount_nonneg

theorem claimed_add_le_stored (h : Books db.upholsteryInventory db.requirements)
    (hi : i ∈ db.upholsteryInventory) (hq : 0 ≤ quantity)
    (hsufficient : 0 ≤ i.currentStored.value - (i.currentInNeed.value + quantity)) :
    claimed RequirementState.isAvailable i.clientId db.requirements + quantity.toColumn ≤
      i.currentStored := by
  have hneed := inNeed_nonneg h hi
  have hle : (i.currentInNeed.value + quantity).toColumn ≤ i.currentStored :=
    FixedScale.store_le (add_nonneg (FixedScale.value_nonneg.mpr hneed) hq)
      (sub_nonneg.mp hsufficient)
  rw [Meters.toColumn, FixedScale.store_value_add hneed hq, h.inNeed i hi] at hle
  exact le_trans (by gcongr; exact claimed_le_claimed h.amount_nonneg isDemand_of_isAvailable) hle

section Inject

variable (h : Books db.upholsteryInventory db.requirements) (hi : i ∈ db.upholsteryInventory)
  (hq : 0 ≤ quantity)
  (hresult : result.sufficient =
    decide (0 ≤ i.currentStored.value - (i.currentInNeed.value + quantity)))
  {g : UpholsteryInventory → UpholsteryInventory} (hid : (g i).clientId = i.clientId)
  (hneed : (g i).currentInNeed = (i.currentInNeed.value + quantity).toColumn)
  (huse : (g i).currentInUse = i.currentInUse) (hstored : (g i).currentStored = i.currentStored)
include h hi hq hresult hid hneed huse hstored

theorem insert_injected (hfresh : ∀ x ∈ db.requirements, x.clientId ≠ r.clientId)
    (hlink : r.upholsteryInventoryId = some i.clientId)
    (hamount : r.amountMeters = some quantity.toColumn) (hstate : r.state = result.state)
    (hd : r.isDeleted = false) :
    Books (updateWhere (fun x => x.clientId == i.clientId) g db.upholsteryInventory)
      (db.requirements ++ [r]) := by
  have hr : r.amount = quantity.toColumn := by
    rw [ItemUpholsteryRequirement.amount, hamount, Option.getD_some]
  refine h.insert hi hid hfresh hlink (hr ▸ FixedScale.store_nonneg hq) ?_ ?_ ?_
  · rw [claim_of_state hlink (by simp [hstate]) hd, hneed, hr, Meters.toColumn,
      FixedScale.store_value_add (inNeed_nonneg h hi) hq]
  · rw [claim_of_not (by simp [hstate]), huse, add_zero]
  · rw [hstored]
    by_cases hs : result.sufficient
    · rw [claim_of_state hlink (by simp [hstate, hs]) hd, hr]
      exact claimed_add_le_stored h hi hq (by simpa [hresult] using hs)
    · rw [claim_of_not (by simpa [hstate] using hs), add_zero]
      exact h.granted i hi

/-- A requirement without a quantity whose need is injected keeps the books. -/
theorem update_injected (hr : r ∈ db.requirements) (hmissing : r.state = .missingQuantity)
    {f : ItemUpholsteryRequirement → ItemUpholsteryRequirement}
    (hrid : (f r).clientId = r.clientId) (hlink : (f r).upholsteryInventoryId = some i.clientId)
    (hamount : (f r).amountMeters = some quantity.toColumn) (hstate : (f r).state = result.state)
    (hd : (f r).isDeleted = false) :
    Books (updateWhere (fun x => x.clientId == i.clientId) g db.upholsteryInventory)
      (updateWhere (fun x => x.clientId == r.clientId) f db.requirements) := by
  have hfr : (f r).amount = quantity.toColumn := by
    rw [ItemUpholsteryRequirement.amount, hamount, Option.getD_some]
  have hnone : ∀ p : RequirementState → Bool, p .missingQuantity = false → ∀ k,
      r.claim p k = 0 := fun p hp k => claim_of_not (by rw [hmissing, hp])
  refine h.updateGranting hi hid hr hrid ?_ (hfr ▸ FixedScale.store_nonneg hq) ?_ ?_ ?_ ?_
  · simp [hlink]
  · rw [claim_of_state hlink (by simp [hstate]) hd, hnone _ rfl, hneed, hfr, sub_zero,
      Meters.toColumn, FixedScale.store_value_add (inNeed_nonneg h hi) hq]
  · rw [claim_of_not (by simp [hstate]), hnone _ rfl, huse, sub_zero, add_zero]
  · exact fun p hp k _ => hnone p (Bool.eq_false_iff.mpr fun hps => absurd (hp _ hps) (by decide)) k
  · rw [hnone _ rfl, hstored, sub_zero]
    by_cases hs : result.sufficient
    · rw [claim_of_state hlink (by simp [hstate, hs]) hd, hfr]
      exact claimed_add_le_stored h hi hq (by simpa [hresult] using hs)
    · rw [claim_of_not (by simpa [hstate] using hs), add_zero]
      exact h.granted i hi

end Inject

theorem insertInventory_eq_ok {new : UpholsteryInventory} (h : db.insertInventory new = .ok db') :
    (∀ x ∈ db.upholsteryInventory, x.clientId ≠ new.clientId) ∧
      db' = { db with upholsteryInventory := db.upholsteryInventory ++ [new] } := by
  obtain ⟨hid, h⟩ := throwIf_bind_eq_ok.mp h
  obtain ⟨-, h⟩ := throwIf_bind_eq_ok.mp h
  obtain ⟨-, h⟩ := throwIf_bind_eq_ok.mp h
  obtain ⟨-, h⟩ := throwIf_bind_eq_ok.mp h
  cases h
  exact ⟨fun x hx he => hid ⟨x, hx, he⟩, rfl⟩

theorem loadOrCreateInventory_balanced (h : db.Balanced) {upholsteryId : Option ClientId}
    {newInventoryId : ClientId}
    (hok : db.loadOrCreateInventory upholsteryId newInventoryId = .ok (db', i)) :
    db'.Balanced ∧ i ∈ db'.upholsteryInventory ∧ db'.requirements = db.requirements := by
  unfold Db.loadOrCreateInventory at hok
  cases upholsteryId with
  | none => cases hok
  | some upholsteryId =>
    cases hinv : db.inventoryOf upholsteryId with
    | some inv =>
      simp only [hinv] at hok
      cases hok
      exact ⟨h, (inventoryOf_eq_some hinv).1, rfl⟩
    | none =>
      simp only [hinv] at hok
      obtain ⟨db₁, hins, hok⟩ := bind_eq_ok.mp hok
      cases hok
      obtain ⟨hfresh, rfl⟩ := insertInventory_eq_ok hins
      exact ⟨⟨h.books.newRow hfresh rfl rfl le_rfl, h.unclamped⟩, by simp, rfl⟩

theorem insertRequirement_eq_ok {r : ItemUpholsteryRequirement}
    (h : db.insertRequirement r = .ok db') :
    (∀ x ∈ db.requirements, x.clientId ≠ r.clientId) ∧
      db' = { db with requirements := db.requirements ++ [r] } := by
  obtain ⟨hid, h⟩ := throwIf_bind_eq_ok.mp h
  cases h
  exact ⟨fun x hx he => hid ⟨x, hx, he⟩, rfl⟩

/-- Opening the first requirement of an item upholstery keeps the books. -/
theorem createInitialRequirement_balanced (h : db.Balanced) {itemUpholsteryId : ClientId}
    {upholsteryId : Option ClientId} {amountMeters : Option Meters}
    {source : ItemUpholsterySource} {newRequirementId newInventoryId : ClientId} {now : Instant}
    (hamount : ∀ quantity ∈ amountMeters, 0 ≤ quantity)
    (hshort : source = .internal → ∀ quantity ∈ amountMeters, Meters.IsShort quantity)
    (hok : createInitialRequirement db itemUpholsteryId upholsteryId amountMeters source
      newRequirementId newInventoryId now = .ok db') : db'.Balanced := by
  unfold createInitialRequirement at hok
  cases amountMeters with
  | none =>
    obtain ⟨_, hpair, hok⟩ := bind_eq_ok.mp hok
    cases hpair
    obtain ⟨db₁, hins, hok⟩ := bind_eq_ok.mp hok
    cases hok
    obtain ⟨hfresh, rfl⟩ := insertRequirement_eq_ok hins
    exact ⟨h.books.insertUnlinked hfresh rfl le_rfl, h.unclamped⟩
  | some quantity =>
    have hq := hamount quantity rfl
    cases source with
    | customer =>
      obtain ⟨_, hpair, hok⟩ := bind_eq_ok.mp hok
      cases hpair
      obtain ⟨db₁, hins, hok⟩ := bind_eq_ok.mp hok
      cases hok
      obtain ⟨hfresh, rfl⟩ := insertRequirement_eq_ok hins
      exact ⟨h.books.insertUnlinked hfresh rfl (FixedScale.store_nonneg hq), h.unclamped⟩
    | internal =>
      obtain ⟨⟨db₁, result⟩, hneed, hok⟩ := bind_eq_ok.mp hok
      obtain ⟨_, hpair, hok⟩ := bind_eq_ok.mp hok
      cases hpair
      obtain ⟨db₂, hins, hok⟩ := bind_eq_ok.mp hok
      cases hok
      obtain ⟨⟨db₀, i⟩, hload, hneed⟩ := bind_eq_ok.mp hneed
      cases hneed
      obtain ⟨h₀, hi, -⟩ := loadOrCreateInventory_balanced h hload
      obtain ⟨hfresh, rfl⟩ := insertRequirement_eq_ok hins
      have hshort := hshort rfl quantity rfl
      refine ⟨insert_injected h₀.books hi hq ?_ rfl ?_ rfl rfl hfresh rfl rfl rfl rfl,
        h₀.unclamped⟩
      · simp only [hshort.rounded_value_add, hshort.rounded_value_sub_add]
      · simp only [hshort.rounded_value_add]

theorem fetchRequirement_eq_some {requirementId : ClientId}
    (h : db.fetchRequirement requirementId = some r) :
    r ∈ db.requirements ∧ r.clientId = requirementId ∧ r.isDeleted = false := by
  have := List.find?_some h
  simp only [Bool.and_eq_true, beq_iff_eq, Bool.not_eq_true'] at this
  exact ⟨List.mem_of_find?_eq_some h, this.1, this.2⟩

theorem fetchActiveRequirement_eq_some {u : ItemUpholstery}
    (h : db.fetchActiveRequirement u = some r) :
    r ∈ db.requirements ∧ u.activeRequirementId = some r.clientId ∧ r.isDeleted = false := by
  obtain ⟨requirementId, hid, h⟩ := Option.bind_eq_some_iff.mp h
  obtain ⟨hr, rfl, hd⟩ := fetchRequirement_eq_some h
  exact ⟨hr, hid, hd⟩

theorem fetchOwnActiveRequirement_eq_some {u : ItemUpholstery}
    (h : db.fetchOwnActiveRequirement u = some r) :
    r ∈ db.requirements ∧ u.activeRequirementId = some r.clientId ∧ r.isDeleted = false ∧
      r.itemUpholsteryId = u.clientId := by
  obtain ⟨h, hu⟩ := Option.filter_eq_some_iff.mp h
  obtain ⟨hr, hid, hd⟩ := fetchActiveRequirement_eq_some h
  exact ⟨hr, hid, hd, by simpa using hu⟩

/-- A requirement whose need is adjusted to another quantity keeps the books. -/
theorem update_adjusted (h : Books db.upholsteryInventory db.requirements)
    (hi : i ∈ db.upholsteryInventory) (hr : r ∈ db.requirements) (hd : r.isDeleted = false)
    (hlink : r.upholsteryInventoryId = some i.clientId) (hdemand : r.state.isDemand)
    (hq : 0 ≤ quantity)
    (hresult : result.sufficient = decide (0 ≤ i.currentStored.value -
      ((i.currentInNeed - r.amount).value + quantity)))
    {g : UpholsteryInventory → UpholsteryInventory} (hid : (g i).clientId = i.clientId)
    (hneed : (g i).currentInNeed = ((i.currentInNeed - r.amount).value + quantity).toColumn)
    (huse : (g i).currentInUse = i.currentInUse) (hstored : (g i).currentStored = i.currentStored)
    {f : ItemUpholsteryRequirement → ItemUpholsteryRequirement}
    (hrid : (f r).clientId = r.clientId)
    (hflink : (f r).upholsteryInventoryId = r.upholsteryInventoryId)
    (hamount : (f r).amountMeters = some quantity.toColumn) (hstate : (f r).state = result.state)
    (hfd : (f r).isDeleted = r.isDeleted) :
    Books (updateWhere (fun x => x.clientId == i.clientId) g db.upholsteryInventory)
      (updateWhere (fun x => x.clientId == r.clientId) f db.requirements) := by
  have hfr : (f r).amount = quantity.toColumn := by
    rw [ItemUpholsteryRequirement.amount, hamount, Option.getD_some]
  have hrest : 0 ≤ i.currentInNeed - r.amount :=
    sub_nonneg.mpr (amount_le_inNeed h hi hr hlink hd hdemand)
  have huser := isInUse_of_isDemand _ hdemand
  have hflink' := hflink.trans hlink
  have hfd' := hfd.trans hd
  refine h.updateGranting hi hid hr hrid (by simp [hflink']) (hfr ▸ FixedScale.store_nonneg hq)
    ?_ ?_ (fun p _ k hne => claim_of_ne fun he => hne ?_) ?_
  · rw [claim_of_state hflink' (by simp [hstate]) hfd', claim_of_state hlink hdemand hd, hneed, hfr,
      Meters.toColumn, FixedScale.store_value_add hrest hq]
    ring
  · rw [claim_of_not (by simp [hstate]), claim_of_not huser, huse, sub_self, add_zero]
  · exact Option.some_inj.mp (he.symm.trans hlink)
  · rw [hstored]
    by_cases hs : result.sufficient
    · have hle : ((i.currentInNeed - r.amount).value + quantity).toColumn ≤ i.currentStored :=
        FixedScale.store_le (add_nonneg (FixedScale.value_nonneg.mpr hrest) hq)
          (sub_nonneg.mp (by simpa [hresult] using hs))
      have hothers := claimed_sub_claim_le (k := i.clientId) h.requirementsKeyed h.amount_nonneg hr
        isDemand_of_isAvailable rfl
      rw [← h.inNeed i hi, claim_of_state (p := RequirementState.isDemand) hlink hdemand hd]
        at hothers
      rw [Meters.toColumn, FixedScale.store_value_add hrest hq] at hle
      rw [claim_of_state (r := f r) hflink' (by simp [hstate, hs]) hfd', hfr]
      linarith
    · rw [claim_of_not (r := f r) (by simpa [hstate] using hs)]
      have := h.granted i hi
      have := claim_nonneg (p := RequirementState.isAvailable) (k := i.clientId)
        (h.amount_nonneg r hr)
      linarith

end Need

section Quantity

variable {itemUpholsteryId newRequirementId newInventoryId : ClientId} {quantity : Meters}

/-- Giving the active requirement another quantity keeps the books. -/
theorem setRequirementQuantity_balanced (h : db.Balanced) {iup : ItemUpholstery}
    (hr : r ∈ db.requirements) (hd : r.isDeleted = false) (hmutable : r.state.isMutable)
    (hq : 0 ≤ quantity) (hshort : quantity.IsShort)
    (hok : setRequirementQuantity db quantity newInventoryId iup r = .ok db') : db'.Balanced := by
  unfold setRequirementQuantity at hok
  split at hok
  case isTrue hnone =>
    cases hok
    refine ⟨h.books.rewrite hr rfl rfl (FixedScale.store_nonneg hq) fun p _ k => ?_, h.unclamped⟩
    rw [claim_of_ne (by rw [hnone.1]; simp), claim_of_ne (by rw [hnone.1]; simp)]
  split at hok
  case isTrue hmissing =>
    obtain ⟨⟨db₁, result⟩, hneed, hok⟩ := bind_eq_ok.mp hok
    cases hok
    obtain ⟨⟨db₀, i⟩, hload, hneed⟩ := bind_eq_ok.mp hneed
    cases hneed
    obtain ⟨h₀, hi, hrs⟩ := loadOrCreateInventory_balanced h hload
    refine ⟨update_injected h₀.books hi hq ?_ rfl ?_ rfl rfl (hrs ▸ hr) hmissing rfl rfl rfl rfl hd,
      h₀.unclamped⟩
    · simp only [hshort.rounded_value_add, hshort.rounded_value_sub_add]
    · simp only [hshort.rounded_value_add]
  case isFalse hmissing =>
    obtain ⟨inventoryId, hlink, hok⟩ := bind_eq_ok.mp hok
    have hlink := getOr_eq_ok.mp hlink
    dsimp only at hok
    split at hok
    · cases hok
      exact h
    obtain ⟨⟨db₁, result⟩, hadjust, hok⟩ := bind_eq_ok.mp hok
    cases hok
    obtain ⟨i, hload, hok⟩ := bind_eq_ok.mp hadjust
    obtain ⟨hi, rfl⟩ := loadInventory_eq_ok hload
    cases hok
    have hdemand : r.state.isDemand := by
      cases hs : r.state <;> simp_all [RequirementState.isMutable, RequirementState.isDemand]
    have hrest : 0 ≤ (i.currentInNeed - r.amount).value + quantity :=
      add_nonneg (FixedScale.value_nonneg.mpr
        (sub_nonneg.mpr (amount_le_inNeed h.books hi hr hlink hd hdemand))) hq
    have hsum : (i.currentInNeed.value + (quantity - r.amount.value).rounded).rounded =
        (i.currentInNeed - r.amount).value + quantity := by
      have : (i.currentInNeed - r.amount).value = i.currentInNeed.value - r.amount.value :=
        FixedScale.value_sub
      rw [hshort.rounded_sub_value,
        Meters.IsShort.rounded_value_add (hshort.sub r.amount.isShort), this]
      ring
    have hnet : (i.currentStored.value - ((i.currentInNeed - r.amount).value + quantity)).rounded =
        i.currentStored.value - ((i.currentInNeed - r.amount).value + quantity) :=
      hshort.rounded_value_sub_add _ _
    refine ⟨update_adjusted h.books hi hr hd hlink hdemand hq ?_ rfl
      ?_ rfl rfl rfl rfl rfl rfl rfl, ?_⟩
    · simp only [hsum, max_eq_right hrest, hnet]
    · simp only [hsum, max_eq_right hrest]
    · simp only [Db.updateRequirement, Db.updateInventory, Db.clamp, h.unclamped, hsum,
        Bool.false_or, decide_eq_false_iff_not, not_lt]
      exact hrest

end Quantity

section Surplus

variable {quantity : Meters}

theorem currentStored_nonneg (h : Books db.upholsteryInventory db.requirements)
    (hi : i ∈ db.upholsteryInventory) : 0 ≤ i.currentStored :=
  (claimed_nonneg h.amount_nonneg).trans (h.granted i hi)

variable (h : Books db.upholsteryInventory db.requirements) (hi : i ∈ db.upholsteryInventory)
  (hr : r ∈ db.requirements) (hd : r.isDeleted = false)
  (hlink : r.upholsteryInventoryId = some i.clientId)
  (hs : r.state = .needsOrdering ∨ r.state = .ordered) (hq : 0 ≤ quantity)
  {g : UpholsteryInventory → UpholsteryInventory} (hid : (g i).clientId = i.clientId)
  (hneed : (g i).currentInNeed = i.currentInNeed) (huse : (g i).currentInUse = i.currentInUse)
  (hstored : (g i).currentStored = (i.currentStored.value + quantity).toColumn)
include h hi hr hd hlink hs hq hid hneed huse hstored

omit hq in
/-- A surplus that covers a requirement keeps the books. -/
theorem cover_surplus (hcover : r.amount.value = quantity)
    {f : ItemUpholsteryRequirement → ItemUpholsteryRequirement}
    (hrid : (f r).clientId = r.clientId)
    (hflink : (f r).upholsteryInventoryId = r.upholsteryInventoryId)
    (hamount : (f r).amountMeters = r.amountMeters) (hstate : (f r).state = .available)
    (hfd : (f r).isDeleted = r.isDeleted) :
    Books (updateWhere (fun x => x.clientId == i.clientId) g db.upholsteryInventory)
      (updateWhere (fun x => x.clientId == r.clientId) f db.requirements) := by
  have hfr : (f r).amount = r.amount := by
    rw [ItemUpholsteryRequirement.amount, hamount, ItemUpholsteryRequirement.amount]
  have hdemand : r.state.isDemand := by rcases hs with hs | hs <;> rw [hs] <;> rfl
  have huser := isInUse_of_isDemand _ hdemand
  have havail : r.state.isAvailable = false := by rcases hs with hs | hs <;> rw [hs] <;> rfl
  have hflink' := hflink.trans hlink
  have hfd' := hfd.trans hd
  refine h.update hi hid hr hrid (by simp [hflink']) (hfr ▸ h.amount_nonneg r hr) ?_ ?_
    (fun k hk => (Option.some_inj.mp (hlink.symm.trans hk)).symm) ?_
  · rw [claim_of_state hflink' (by rw [hstate]; rfl) hfd', claim_of_state hlink hdemand hd, hfr,
      sub_self, add_zero, hneed]
  · rw [claim_of_not (by rw [hstate]; rfl), claim_of_not huser, sub_self, add_zero, huse]
  · rw [claim_of_state hflink' (by rw [hstate]; rfl) hfd', claim_of_not havail, hfr, hstored,
      ← hcover, Meters.toColumn, FixedScale.store_value_add_value]
    linarith

/-- A surplus that covers a part of a requirement keeps the books, unless it is a tie. -/
theorem split_surplus (hle : quantity ≤ r.amount.value)
    (htie : Int.fract (quantity * 1000) ≠ 1 / 2)
    {f : ItemUpholsteryRequirement → ItemUpholsteryRequirement}
    (hrid : (f r).clientId = r.clientId)
    (hflink : (f r).upholsteryInventoryId = r.upholsteryInventoryId)
    (hamount : (f r).amountMeters = some (r.amount.value - quantity).toColumn)
    (hstate : (f r).state = r.state) (hfd : (f r).isDeleted = r.isDeleted)
    {new : ItemUpholsteryRequirement} (hfresh : ∀ x ∈ db.requirements, x.clientId ≠ new.clientId)
    (hnewlink : new.upholsteryInventoryId = some i.clientId)
    (hnewamount : new.amountMeters = some quantity.toColumn) (hnewstate : new.state = .available)
    (hnewd : new.isDeleted = false) :
    Books (updateWhere (fun x => x.clientId == i.clientId) g db.upholsteryInventory)
      (updateWhere (fun x => x.clientId == r.clientId) f db.requirements ++ [new]) := by
  have hk := h.requirementsKeyed
  have hfr : (f r).amount = (r.amount.value - quantity).toColumn := by
    rw [ItemUpholsteryRequirement.amount, hamount, Option.getD_some]
  have hnew : new.amount = quantity.toColumn := by
    rw [ItemUpholsteryRequirement.amount, hnewamount, Option.getD_some]
  have hsplit : quantity.toColumn + (r.amount.value - quantity).toColumn = r.amount :=
    FixedScale.store_split hq hle htie
  have hdemand : r.state.isDemand := by rcases hs with hs | hs <;> rw [hs] <;> rfl
  have huser := isInUse_of_isDemand _ hdemand
  have havail : r.state.isAvailable = false := by rcases hs with hs | hs <;> rw [hs] <;> rfl
  have hflink' := hflink.trans hlink
  have hclaimed : ∀ p k, claimed p k
      (updateWhere (fun x => x.clientId == r.clientId) f db.requirements ++ [new]) =
      claimed p k db.requirements + ((f r).claim p k - r.claim p k) + new.claim p k :=
    fun p k => by rw [claimed_append, claimed_singleton, claimed_update hk hr]
  have hmem : ∀ y ∈ updateWhere (fun x => x.clientId == r.clientId) f db.requirements ++ [new],
      y = f r ∨ y ∈ db.requirements ∨ y = new := by
    intro y hy
    rcases List.mem_append.mp hy with hy | hy
    · exact (hk.mem_update hr hy).imp_right fun hy => .inl hy.1
    · exact .inr (.inr (List.mem_singleton.mp hy))
  refine h.entry hi hid ?_ ?_ ?_ ?_ ?_ ?_ ?_
  · refine keyed_append.mpr ⟨?_, List.nodup_singleton _, fun x hx y hy => ?_⟩
    · refine keyed_update hk fun x hx hp => ?_
      rw [hk.inj hx hr (by simpa using hp), hrid]
    · obtain rfl := List.mem_singleton.mp hy
      rcases hk.mem_update hr hx with rfl | ⟨hx, -⟩
      · rw [hrid]
        exact hfresh r hr
      · exact hfresh x hx
  · intro y hy inventoryId hinv
    rcases hmem y hy with rfl | hy | rfl
    · exact h.linked r hr inventoryId (hflink ▸ hinv)
    · exact h.linked y hy inventoryId hinv
    · exact ⟨i, hi, Option.some_inj.mp (hnewlink.symm.trans hinv)⟩
  · intro y hy
    rcases hmem y hy with rfl | hy | rfl
    · exact hfr ▸ FixedScale.store_nonneg (sub_nonneg.mpr hle)
    · exact h.amount_nonneg y hy
    · exact hnew ▸ FixedScale.store_nonneg hq
  · intro p _ k hne
    have hother : ∀ {x : ItemUpholsteryRequirement}, x.upholsteryInventoryId = some i.clientId →
        x.claim p k = 0 := fun hx => claim_of_ne fun he =>
      hne (Option.some_inj.mp (he.symm.trans hx))
    rw [hclaimed, hother hflink', hother hlink, hother hnewlink]
    ring
  · rw [hclaimed, claim_of_state hflink' (by rw [hstate]; exact hdemand) (hfd.trans hd),
      claim_of_state hlink hdemand hd,
        claim_of_state hnewlink (by rw [hnewstate]; rfl) hnewd, hneed,
      h.inNeed i hi, hfr, hnew]
    linarith
  · rw [hclaimed, claim_of_not (by rw [hstate]; exact huser), claim_of_not huser,
      claim_of_not (r := new) (by rw [hnewstate]; rfl), huse, h.inUse i hi]
    ring
  · rw [hclaimed, claim_of_not (by rw [hstate]; exact havail), claim_of_not havail,
      claim_of_state hnewlink (by rw [hnewstate]; rfl) hnewd, hnew, hstored]
    have hadd : (i.currentStored.value + quantity).toColumn = i.currentStored + quantity.toColumn :=
      FixedScale.store_value_add (currentStored_nonneg h hi) hq
    have := h.granted i hi
    linarith

end Surplus

section Surplus

variable {itemUpholsteryId newRequirementId : ClientId} {quantity : Meters} {now : Instant}

/-- The surplus is a part of the active requirement that is halfway between two thousandths. -/
def Db.splitsAtTie (db : Db) (itemUpholsteryId : ClientId) (quantity : Meters) : Prop :=
  Int.fract (quantity * 1000) = 1 / 2 ∧
    ∃ iup, db.fetchItemUpholstery itemUpholsteryId = some iup ∧
      ∃ r, db.fetchActiveRequirement iup = some r ∧ quantity < r.amount.value

/-- Applying a surplus keeps the books, unless it splits a requirement at a tie. -/
theorem applySurplusToRequirement_balanced (h : db.Balanced) (hshort : quantity.IsShort)
    (htie : ¬ db.splitsAtTie itemUpholsteryId quantity)
    (hok : applySurplusToRequirement db itemUpholsteryId quantity newRequirementId now = .ok db') :
    db'.Balanced := by
  obtain ⟨hpos, hok⟩ := throwIf_bind_eq_ok.mp hok
  obtain ⟨iup, hiup, hok⟩ := bind_eq_ok.mp hok
  obtain ⟨u, -, hok⟩ := bind_eq_ok.mp hok
  obtain ⟨r, hr, hok⟩ := bind_eq_ok.mp hok
  have hiup := getOr_eq_ok.mp hiup
  have hactive := getOr_eq_ok.mp hr
  obtain ⟨hr, -, hd⟩ := fetchActiveRequirement_eq_some hactive
  obtain ⟨hs, hok⟩ := throwIf_bind_eq_ok.mp hok
  obtain ⟨hle, hok⟩ := throwIf_bind_eq_ok.mp hok
  obtain ⟨inventoryId, hlink, hok⟩ := bind_eq_ok.mp hok
  have hlink := getOr_eq_ok.mp hlink
  obtain ⟨db₁, hadd, hok⟩ := bind_eq_ok.mp hok
  obtain ⟨i, hload, hadd⟩ := bind_eq_ok.mp hadd
  obtain ⟨hi, rfl⟩ := loadInventory_eq_ok hload
  cases hadd
  have hs : r.state = .needsOrdering ∨ r.state = .ordered := by tauto
  have hq : 0 ≤ quantity := (not_le.mp hpos).le
  have hle := not_lt.mp hle
  split at hok
  case isTrue hcover =>
    cases hok
    obtain ⟨n, hn, hcover⟩ := Option.map_eq_some_iff.mp hcover
    have hcover : r.amount.value = quantity := by
      rw [ItemUpholsteryRequirement.amount, hn, Option.getD_some, hcover]
    exact ⟨cover_surplus h.books hi hr hd hlink hs rfl rfl rfl
      (by simp only [hshort.rounded_value_add]) hcover rfl rfl rfl rfl rfl, h.unclamped⟩
  case isFalse hpart =>
    have hlt : quantity < r.amount.value := by
      refine lt_of_le_of_ne hle fun he => hpart ?_
      cases hn : r.amountMeters with
      | none =>
        rw [ItemUpholsteryRequirement.amount, hn] at he
        exact absurd (he.trans FixedScale.value_zero) (not_le.mp hpos).ne'
      | some n =>
        rw [he, ItemUpholsteryRequirement.amount, hn]
        rfl
    obtain ⟨hfresh, rfl⟩ := insertRequirement_eq_ok hok
    refine ⟨split_surplus h.books hi hr hd hlink hs hq rfl rfl rfl
      (by simp only [hshort.rounded_value_add]) hle
      (fun he => htie ⟨he, iup, hiup, r, hactive, hlt⟩) rfl rfl
      (by simp only [hshort.rounded_value_sub]) rfl rfl ?_ rfl rfl rfl rfl, h.unclamped⟩
    intro x hx
    by_cases hxr : x.clientId = r.clientId
    · obtain rfl := h.books.requirementsKeyed.inj hx hr hxr
      have := hfresh _ (mem_updateWhere_of_mem hx)
      simpa using this
    · have := hfresh _ (mem_updateWhere_of_mem hx)
      rwa [if_neg (by simpa using hxr)] at this

end Surplus

end BeyoManager.Upholstery
