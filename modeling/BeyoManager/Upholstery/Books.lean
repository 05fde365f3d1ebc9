import BeyoManager.Upholstery.InventoryMutations
import Mathlib.Algebra.Order.BigOperators.Group.List

/-! # The books of the inventory

What an inventory row should say, derived from the requirements that are linked to it: how much
is needed, how much is in use and how much of the stock has been granted.
-/

namespace BeyoManager.Upholstery

open Relational Transition

/-- What a requirement claims of an inventory row while its state meets `p`. -/
def ItemUpholsteryRequirement.claim (p : RequirementState → Bool) (inventoryId : ClientId)
    (r : ItemUpholsteryRequirement) : MetersColumn :=
  if r.upholsteryInventoryId = some inventoryId ∧ p r.state ∧ r.isDeleted = false then r.amount
  else 0

/-- The sum of the amounts of the requirements of an inventory row whose states meet `p`. -/
def claimed (p : RequirementState → Bool) (inventoryId : ClientId)
    (requirements : List ItemUpholsteryRequirement) : MetersColumn :=
  total (·.claim p inventoryId) requirements

/-- The state is `AVAILABLE`. -/
def RequirementState.isAvailable (s : RequirementState) : Bool := s == .available

/-- The state is `IN_USE`. -/
def RequirementState.isInUse (s : RequirementState) : Bool := s == .inUse

def RequirementState.isClaiming (s : RequirementState) : Bool := s.isDemand || s.isInUse

theorem isClaiming_of_isDemand (s : RequirementState) (h : s.isDemand) : s.isClaiming := by
  simp [RequirementState.isClaiming, h]

theorem isClaiming_of_isInUse (s : RequirementState) (h : s.isInUse) : s.isClaiming := by
  simp [RequirementState.isClaiming, h]

theorem isDemand_of_isAvailable (s : RequirementState) (h : s.isAvailable) : s.isDemand := by
  cases s <;> simp_all [RequirementState.isAvailable, RequirementState.isDemand]

theorem isInUse_of_isDemand (s : RequirementState) (h : s.isDemand) : s.isInUse = false := by
  cases s <;> simp_all [RequirementState.isInUse, RequirementState.isDemand]

theorem isClaiming_of_isAvailable (s : RequirementState) (h : s.isAvailable) : s.isClaiming :=
  isClaiming_of_isDemand s (isDemand_of_isAvailable s h)

/-- The totals of the inventory rows are those of the requirements, and no more stock has been
granted than there is. -/
structure Books (inventory : List UpholsteryInventory)
    (requirements : List ItemUpholsteryRequirement) : Prop where
  inventoryKeyed : Keyed UpholsteryInventory.clientId inventory
  requirementsKeyed : Keyed ItemUpholsteryRequirement.clientId requirements
  linked : ∀ r ∈ requirements, ∀ inventoryId ∈ r.upholsteryInventoryId,
    ∃ i ∈ inventory, i.clientId = inventoryId
  amount_nonneg : ∀ r ∈ requirements, 0 ≤ r.amount
  inNeed : ∀ i ∈ inventory,
    i.currentInNeed = claimed RequirementState.isDemand i.clientId requirements
  inUse : ∀ i ∈ inventory, i.currentInUse = claimed RequirementState.isInUse i.clientId requirements
  granted : ∀ i ∈ inventory,
    claimed RequirementState.isAvailable i.clientId requirements ≤ i.currentStored

/-- The books are right, and no amount has been clamped on the way. -/
structure Db.Balanced (db : Db) : Prop where
  books : Books db.upholsteryInventory db.requirements
  unclamped : db.clamped = false

section Claims

variable {p q : RequirementState → Bool} {k : ClientId}
  {rs : List ItemUpholsteryRequirement} {r : ItemUpholsteryRequirement}

theorem claim_nonneg (h : 0 ≤ r.amount) : 0 ≤ r.claim p k := by
  unfold ItemUpholsteryRequirement.claim
  split
  · exact h
  · exact le_rfl

theorem claim_of_ne (h : r.upholsteryInventoryId ≠ some k) : r.claim p k = 0 := by
  simp [ItemUpholsteryRequirement.claim, h]

theorem claim_of_state (hk : r.upholsteryInventoryId = some k) (hp : p r.state)
    (hd : r.isDeleted = false) : r.claim p k = r.amount := by
  simp [ItemUpholsteryRequirement.claim, hk, hp, hd]

theorem claim_of_not (hp : p r.state = false) : r.claim p k = 0 := by
  simp [ItemUpholsteryRequirement.claim, hp]

theorem claimed_nonneg (h : ∀ r ∈ rs, 0 ≤ r.amount) : 0 ≤ claimed p k rs := by
  refine List.sum_nonneg fun x hx => ?_
  obtain ⟨r, hr, rfl⟩ := List.mem_map.mp hx
  exact claim_nonneg (h r hr)

theorem claimed_append {rs' : List ItemUpholsteryRequirement} :
    claimed p k (rs ++ rs') = claimed p k rs + claimed p k rs' := total_append _

theorem claimed_singleton : claimed p k [r] = r.claim p k := by
  simp [claimed, total]

theorem claim_le_claimed (h : ∀ r ∈ rs, 0 ≤ r.amount) (hr : r ∈ rs) :
    r.claim p k ≤ claimed p k rs := by
  refine List.single_le_sum ?_ _ (List.mem_map_of_mem hr)
  rintro x hx
  obtain ⟨r', hr', rfl⟩ := List.mem_map.mp hx
  exact claim_nonneg (h r' hr')

theorem claimed_le_claimed (h : ∀ r ∈ rs, 0 ≤ r.amount) (hpq : ∀ s, p s → q s) :
    claimed p k rs ≤ claimed q k rs := by
  refine List.sum_le_sum fun r hr => ?_
  unfold ItemUpholsteryRequirement.claim
  split
  · rename_i hp
    rw [if_pos ⟨hp.1, hpq _ hp.2.1, hp.2.2⟩]
  · split
    · exact h r hr
    · exact le_rfl

theorem claimed_update (hk : Keyed ItemUpholsteryRequirement.clientId rs) (hr : r ∈ rs)
    (f : ItemUpholsteryRequirement → ItemUpholsteryRequirement) :
    claimed p k (updateWhere (fun x => x.clientId == r.clientId) f rs) =
      claimed p k rs + ((f r).claim p k - r.claim p k) :=
  hk.total_update hr f

theorem claimed_sub_claim_le (hk : Keyed ItemUpholsteryRequirement.clientId rs)
    (h : ∀ r ∈ rs, 0 ≤ r.amount) (hr : r ∈ rs) (hpq : ∀ s, p s → q s) (hq : q .failed = false) :
    claimed p k rs - r.claim p k ≤ claimed q k rs - r.claim q k := by
  have hp : p .failed = false := Bool.eq_false_iff.mpr fun he => by simp [hpq _ he] at hq
  have hle : claimed p k (updateWhere (fun x => x.clientId == r.clientId)
      (fun x => { x with state := .failed }) rs) ≤ claimed q k (updateWhere
        (fun x => x.clientId == r.clientId) (fun x => { x with state := .failed }) rs) := by
    refine claimed_le_claimed (fun y hy => ?_) hpq
    rcases hk.mem_update hr hy with rfl | ⟨hy, -⟩
    · exact h r hr
    · exact h y hy
  have hfp : ItemUpholsteryRequirement.claim p k { r with state := .failed } = 0 := claim_of_not hp
  have hfq : ItemUpholsteryRequirement.claim q k { r with state := .failed } = 0 := claim_of_not hq
  rw [claimed_update hk hr, claimed_update hk hr, hfp, hfq] at hle
  linarith

end Claims

section Entries

variable {inventory : List UpholsteryInventory} {requirements rs : List ItemUpholsteryRequirement}
  {i : UpholsteryInventory} {g : UpholsteryInventory → UpholsteryInventory}

/-- Writing one inventory row together with the requirements that are linked to it. -/
theorem Books.entry (h : Books inventory requirements) (hi : i ∈ inventory)
    (hid : (g i).clientId = i.clientId)
    (hkeyed : Keyed ItemUpholsteryRequirement.clientId rs)
    (hlinked : ∀ r ∈ rs, ∀ inventoryId ∈ r.upholsteryInventoryId,
      ∃ i ∈ inventory, i.clientId = inventoryId)
    (hamount : ∀ r ∈ rs, 0 ≤ r.amount)
    (hother : ∀ p : RequirementState → Bool, (∀ s, p s → s.isClaiming) → ∀ k, k ≠ i.clientId →
      claimed p k rs = claimed p k requirements)
    (hneed : (g i).currentInNeed = claimed RequirementState.isDemand i.clientId rs)
    (huse : (g i).currentInUse = claimed RequirementState.isInUse i.clientId rs)
    (hgranted : claimed RequirementState.isAvailable i.clientId rs ≤ (g i).currentStored) :
    Books (updateWhere (fun x => x.clientId == i.clientId) g inventory) rs := by
  have hrow : ∀ x ∈ inventory, x.clientId = i.clientId → x = i := fun x hx he =>
    h.inventoryKeyed.inj hx hi he
  refine ⟨?_, hkeyed, ?_, hamount, ?_, ?_, ?_⟩
  · refine keyed_update h.inventoryKeyed fun x hx hp => ?_
    rw [hrow x hx (by simpa using hp), hid]
  · intro r hr inventoryId hinv
    obtain ⟨x, hx, rfl⟩ := hlinked r hr inventoryId hinv
    refine ⟨_, mem_updateWhere_of_mem hx, ?_⟩
    by_cases hp : x.clientId = i.clientId
    · rw [if_pos (by simpa using hp), hrow x hx hp, hid]
    · rw [if_neg (by simpa using hp)]
  all_goals
    intro y hy
    rcases h.inventoryKeyed.mem_update hi hy with rfl | ⟨hy, hne⟩
  · rw [hid, hneed]
  · rw [hother _ isClaiming_of_isDemand _ hne]
    exact h.inNeed y hy
  · rw [hid, huse]
  · rw [hother _ isClaiming_of_isInUse _ hne]
    exact h.inUse y hy
  · rw [hid]
    exact hgranted
  · rw [hother _ isClaiming_of_isAvailable _ hne]
    exact h.granted y hy

theorem Books.stock (h : Books inventory requirements) (hi : i ∈ inventory)
    (hid : (g i).clientId = i.clientId) (hneed : (g i).currentInNeed = i.currentInNeed)
    (huse : (g i).currentInUse = i.currentInUse) (hstored : i.currentStored ≤ (g i).currentStored) :
    Books (updateWhere (fun x => x.clientId == i.clientId) g inventory) requirements :=
  h.entry hi hid h.requirementsKeyed h.linked h.amount_nonneg (fun _ _ _ _ => rfl)
    (hneed.trans (h.inNeed i hi)) (huse.trans (h.inUse i hi)) ((h.granted i hi).trans hstored)

/-- Inserting an inventory row that nothing is linked to. -/
theorem Books.newRow (h : Books inventory requirements)
    (hfresh : ∀ x ∈ inventory, x.clientId ≠ i.clientId) (hneed : i.currentInNeed = 0)
    (huse : i.currentInUse = 0) (hstored : 0 ≤ i.currentStored) :
    Books (inventory ++ [i]) requirements := by
  have hnone : ∀ p, claimed p i.clientId requirements = 0 := fun p =>
    total_eq_zero fun r hr => claim_of_ne fun he => by
      obtain ⟨x, hx, hxi⟩ := h.linked r hr i.clientId he
      exact hfresh x hx hxi
  refine ⟨?_, h.requirementsKeyed, ?_, h.amount_nonneg, ?_, ?_, ?_⟩
  · refine keyed_append.mpr ⟨h.inventoryKeyed, List.nodup_singleton _, fun x hx y hy => ?_⟩
    obtain rfl := List.mem_singleton.mp hy
    exact hfresh x hx
  · intro r hr inventoryId hinv
    obtain ⟨x, hx, he⟩ := h.linked r hr inventoryId hinv
    exact ⟨x, List.mem_append_left _ hx, he⟩
  all_goals
    intro x hx
    rcases List.mem_append.mp hx with hx | hx
  · exact h.inNeed x hx
  · obtain rfl := List.mem_singleton.mp hx
    rw [hneed, hnone]
  · exact h.inUse x hx
  · obtain rfl := List.mem_singleton.mp hx
    rw [huse, hnone]
  · exact h.granted x hx
  · obtain rfl := List.mem_singleton.mp hx
    rw [hnone]
    exact hstored

variable {r : ItemUpholsteryRequirement}
  {f : ItemUpholsteryRequirement → ItemUpholsteryRequirement}

section Update

variable (h : Books inventory requirements) (hi : i ∈ inventory)
  (hid : (g i).clientId = i.clientId) (hr : r ∈ requirements)
  (hrid : (f r).clientId = r.clientId)
  (hafter : ∀ inventoryId ∈ (f r).upholsteryInventoryId, inventoryId = i.clientId)
  (hamount : 0 ≤ (f r).amount)
  (hneed : (g i).currentInNeed = i.currentInNeed +
    ((f r).claim RequirementState.isDemand i.clientId -
      r.claim RequirementState.isDemand i.clientId))
  (huse : (g i).currentInUse = i.currentInUse +
    ((f r).claim RequirementState.isInUse i.clientId -
      r.claim RequirementState.isInUse i.clientId))
include h hi hid hr hrid hafter hamount hneed huse

/-- Rewriting one requirement that claims of no other inventory row, together with the row. -/
theorem Books.updateGranting
    (hbefore : ∀ p : RequirementState → Bool, (∀ s, p s → s.isClaiming) → ∀ k, k ≠ i.clientId →
      r.claim p k = 0)
    (hgranted : claimed RequirementState.isAvailable i.clientId requirements +
      ((f r).claim RequirementState.isAvailable i.clientId -
        r.claim RequirementState.isAvailable i.clientId) ≤ (g i).currentStored) :
    Books (updateWhere (fun x => x.clientId == i.clientId) g inventory)
      (updateWhere (fun x => x.clientId == r.clientId) f requirements) := by
  have hk := h.requirementsKeyed
  have hmem : ∀ y ∈ updateWhere (fun x => x.clientId == r.clientId) f requirements,
      y = f r ∨ y ∈ requirements := fun y hy =>
    (hk.mem_update hr hy).imp_right And.left
  refine h.entry hi hid ?_ ?_ ?_ ?_ ?_ ?_ ?_
  · refine keyed_update hk fun x hx hp => ?_
    rw [hk.inj hx hr (by simpa using hp), hrid]
  · intro y hy inventoryId hinv
    rcases hmem y hy with rfl | hy
    · exact ⟨i, hi, (hafter inventoryId hinv).symm⟩
    · exact h.linked y hy inventoryId hinv
  · intro y hy
    rcases hmem y hy with rfl | hy
    · exact hamount
    · exact h.amount_nonneg y hy
  · intro p hp k hne
    rw [claimed_update hk hr, claim_of_ne fun he => hne (hafter k he), hbefore p hp k hne,
      sub_zero, add_zero]
  · rw [claimed_update hk hr, hneed, h.inNeed i hi]
  · rw [claimed_update hk hr, huse, h.inUse i hi]
  · rw [claimed_update hk hr]
    exact hgranted

theorem Books.update
    (hbefore : ∀ inventoryId ∈ r.upholsteryInventoryId, inventoryId = i.clientId)
    (hgranted : (f r).claim RequirementState.isAvailable i.clientId -
      r.claim RequirementState.isAvailable i.clientId ≤ (g i).currentStored - i.currentStored) :
    Books (updateWhere (fun x => x.clientId == i.clientId) g inventory)
      (updateWhere (fun x => x.clientId == r.clientId) f requirements) := by
  refine h.updateGranting hi hid hr hrid hafter hamount hneed huse
    (fun p _ k hne => claim_of_ne fun he => hne (hbefore k he)) ?_
  have := h.granted i hi
  linarith

end Update

/-- Rewriting one requirement whose claims stay what they are. -/
theorem Books.rewrite (h : Books inventory requirements) (hr : r ∈ requirements)
    (hrid : (f r).clientId = r.clientId)
    (hlink : (f r).upholsteryInventoryId = r.upholsteryInventoryId) (hamount : 0 ≤ (f r).amount)
    (hclaim : ∀ p : RequirementState → Bool, (∀ s, p s → s.isClaiming) → ∀ k,
      (f r).claim p k = r.claim p k) :
    Books inventory (updateWhere (fun x => x.clientId == r.clientId) f requirements) := by
  have hk := h.requirementsKeyed
  have hclaimed : ∀ p : RequirementState → Bool, (∀ s, p s → s.isClaiming) → ∀ k,
      claimed p k (updateWhere (fun x => x.clientId == r.clientId) f requirements) =
        claimed p k requirements := fun p hp k => by
    rw [claimed_update hk hr, hclaim p hp, sub_self, add_zero]
  refine ⟨h.inventoryKeyed, ?_, ?_, ?_, ?_, ?_, ?_⟩
  · refine keyed_update hk fun x hx hp => ?_
    rw [hk.inj hx hr (by simpa using hp), hrid]
  · intro y hy inventoryId hinv
    rcases hk.mem_update hr hy with rfl | ⟨hy, -⟩
    · exact h.linked r hr inventoryId (hlink ▸ hinv)
    · exact h.linked y hy inventoryId hinv
  · intro y hy
    rcases hk.mem_update hr hy with rfl | ⟨hy, -⟩
    · exact hamount
    · exact h.amount_nonneg y hy
  · simpa only [hclaimed _ isClaiming_of_isDemand] using h.inNeed
  · simpa only [hclaimed _ isClaiming_of_isInUse] using h.inUse
  · simpa only [hclaimed _ isClaiming_of_isAvailable] using h.granted

/-- Inserting a requirement that is linked to an inventory row, together with the row. -/
theorem Books.insert (h : Books inventory requirements) (hi : i ∈ inventory)
    (hid : (g i).clientId = i.clientId) (hfresh : ∀ x ∈ requirements, x.clientId ≠ r.clientId)
    (hlink : r.upholsteryInventoryId = some i.clientId) (hamount : 0 ≤ r.amount)
    (hneed : (g i).currentInNeed = i.currentInNeed + r.claim RequirementState.isDemand i.clientId)
    (huse : (g i).currentInUse = i.currentInUse + r.claim RequirementState.isInUse i.clientId)
    (hgranted : claimed RequirementState.isAvailable i.clientId requirements +
      r.claim RequirementState.isAvailable i.clientId ≤ (g i).currentStored) :
    Books (updateWhere (fun x => x.clientId == i.clientId) g inventory) (requirements ++ [r]) := by
  refine h.entry hi hid ?_ ?_ ?_ ?_ ?_ ?_ ?_
  · refine keyed_append.mpr ⟨h.requirementsKeyed, List.nodup_singleton _, fun x hx y hy => ?_⟩
    obtain rfl := List.mem_singleton.mp hy
    exact hfresh x hx
  · intro y hy inventoryId hinv
    rcases List.mem_append.mp hy with hy | hy
    · exact h.linked y hy inventoryId hinv
    · obtain rfl := List.mem_singleton.mp hy
      rw [hlink, Option.mem_some_iff] at hinv
      exact ⟨i, hi, hinv⟩
  · intro y hy
    rcases List.mem_append.mp hy with hy | hy
    · exact h.amount_nonneg y hy
    · obtain rfl := List.mem_singleton.mp hy
      exact hamount
  · intro p _ k hne
    rw [claimed_append, claimed_singleton, claim_of_ne, add_zero]
    rw [hlink]
    exact fun he => hne (Option.some_inj.mp he).symm
  · rw [claimed_append, claimed_singleton, hneed, h.inNeed i hi]
  · rw [claimed_append, claimed_singleton, huse, h.inUse i hi]
  · rw [claimed_append, claimed_singleton]
    exact hgranted

/-- Inserting a requirement that is linked to no inventory row. -/
theorem Books.insertUnlinked (h : Books inventory requirements)
    (hfresh : ∀ x ∈ requirements, x.clientId ≠ r.clientId)
    (hlink : r.upholsteryInventoryId = none) (hamount : 0 ≤ r.amount) :
    Books inventory (requirements ++ [r]) := by
  have hclaimed : ∀ p k, claimed p k (requirements ++ [r]) = claimed p k requirements :=
    fun p k => by
      rw [claimed_append, claimed_singleton, claim_of_ne (by simp [hlink]), add_zero]
  refine ⟨h.inventoryKeyed, ?_, ?_, ?_, ?_, ?_, ?_⟩
  · refine keyed_append.mpr ⟨h.requirementsKeyed, List.nodup_singleton _, fun x hx y hy => ?_⟩
    obtain rfl := List.mem_singleton.mp hy
    exact hfresh x hx
  · intro y hy inventoryId hinv
    rcases List.mem_append.mp hy with hy | hy
    · exact h.linked y hy inventoryId hinv
    · obtain rfl := List.mem_singleton.mp hy
      simp [hlink] at hinv
  · intro y hy
    rcases List.mem_append.mp hy with hy | hy
    · exact h.amount_nonneg y hy
    · obtain rfl := List.mem_singleton.mp hy
      exact hamount
  · simpa only [hclaimed] using h.inNeed
  · simpa only [hclaimed] using h.inUse
  · simpa only [hclaimed] using h.granted

end Entries

end BeyoManager.Upholstery
