import BeyoManager.Upholstery.NeedEntries

/-! # Grants in the books

An allocation from the stock grants no more than what is left of the stock beside the grants
there are; the other allocations and the withdrawals grant nothing.
-/

namespace BeyoManager.Upholstery

open Relational Transition

variable {db db' : Db} {r : ItemUpholsteryRequirement} {i : UpholsteryInventory}
  {rs l : List ItemUpholsteryRequirement} {s : RequirementState}

section Resolved

theorem resolvedRequirements_sublist (pool : Meters) (candidates : List ItemUpholsteryRequirement) :
    (resolvedRequirements pool candidates).Sublist candidates := by
  induction candidates generalizing pool with
  | nil => exact .slnil
  | cons r rs ih =>
    unfold resolvedRequirements
    split
    · exact (ih _).cons_cons r
    · exact (ih _).cons r

theorem totalAmount_resolvedRequirements_le {pool : MetersColumn} (hpool : 0 ≤ pool)
    (candidates : List ItemUpholsteryRequirement) :
    totalAmount (resolvedRequirements pool.value candidates) ≤ pool := by
  induction candidates generalizing pool with
  | nil => exact hpool
  | cons r rs ih =>
    unfold resolvedRequirements
    split
    · rename_i hfits
      rw [rounded_value_sub_value] at hfits ⊢
      have hfits : 0 ≤ pool - r.amount :=
        sub_nonneg.mpr (FixedScale.value_sub_nonneg.mp hfits)
      have hrest := ih hfits
      have hvalue : (pool - r.amount).value = pool.value - r.amount.value := FixedScale.value_sub
      rw [hvalue] at hrest
      rw [totalAmount, total_cons, ← totalAmount]
      linarith
    · exact ih hpool

theorem demotedRequirements_spec (deficit : MetersColumn)
    (candidates : List ItemUpholsteryRequirement) :
    (demotedRequirements deficit candidates).Sublist candidates ∧
      (deficit ≤ totalAmount (demotedRequirements deficit candidates) ∨
        demotedRequirements deficit candidates = candidates) := by
  induction candidates generalizing deficit with
  | nil => exact ⟨.slnil, .inr rfl⟩
  | cons r rs ih =>
    unfold demotedRequirements
    split
    · rename_i hle
      refine ⟨(List.nil_sublist rs).cons_cons r, .inl ?_⟩
      rw [totalAmount, total_cons, total_nil, add_zero]
      exact hle
    · obtain ⟨hsub, hrest⟩ := ih (deficit - r.amount)
      refine ⟨hsub.cons_cons r, hrest.imp (fun hle => ?_) fun he => by rw [he]⟩
      rw [totalAmount, total_cons, ← totalAmount]
      linarith

end Resolved

section Restate

/-- The rewriting moves requirements to a state and leaves what they claim with. -/
structure Restates (s : RequirementState)
    (f : ItemUpholsteryRequirement → ItemUpholsteryRequirement) : Prop where
  clientId : ∀ r, (f r).clientId = r.clientId
  link : ∀ r, (f r).upholsteryInventoryId = r.upholsteryInventoryId
  amount : ∀ r, (f r).amount = r.amount
  isDeleted : ∀ r, (f r).isDeleted = r.isDeleted
  state : ∀ r, (f r).state = s

variable {f : ItemUpholsteryRequirement → ItemUpholsteryRequirement} (hf : Restates s f)
  {p : RequirementState → Bool} {k : ClientId}

theorem claimed_restated (hk : Keyed ItemUpholsteryRequirement.clientId rs) (hl : l.Nodup)
    (hmem : ∀ r ∈ l, r ∈ rs) :
    claimed p k (updateWhere (fun x => l.any fun r => r.clientId == x.clientId) f rs) =
      claimed p k rs + total (fun r => (f r).claim p k - r.claim p k) l :=
  hk.total_updateAll (hl.map_on fun x hx y hy he => hk.inj (hmem x hx) (hmem y hy) he) hmem f

include hf

theorem claim_restated (r : ItemUpholsteryRequirement) :
    (f r).claim p k = if r.upholsteryInventoryId = some k ∧ p s ∧ r.isDeleted = false
      then r.amount else 0 := by
  rw [ItemUpholsteryRequirement.claim, hf.link, hf.amount, hf.isDeleted, hf.state]

theorem claim_restated_of_same (hp : p r.state = p s) : (f r).claim p k = r.claim p k := by
  rw [claim_restated hf, ItemUpholsteryRequirement.claim, hp]

/-- Moving requirements of one row between states of demand, with the stock of the row. -/
theorem Books.restate {inventory : List UpholsteryInventory} (h : Books inventory rs)
    (hi : i ∈ inventory) {g : UpholsteryInventory → UpholsteryInventory}
    (hid : (g i).clientId = i.clientId) (hneed : (g i).currentInNeed = i.currentInNeed)
    (huse : (g i).currentInUse = i.currentInUse) (hs : s.isDemand) (hl : l.Nodup)
    (hmem : ∀ r ∈ l, r ∈ rs ∧ r.state.isDemand ∧ r.upholsteryInventoryId = some i.clientId)
    (hgranted : claimed RequirementState.isAvailable i.clientId rs +
      total (fun r => (f r).claim RequirementState.isAvailable i.clientId -
        r.claim RequirementState.isAvailable i.clientId) l ≤ (g i).currentStored) :
    Books (updateWhere (fun x => x.clientId == i.clientId) g inventory)
      (updateWhere (fun x => l.any fun r => r.clientId == x.clientId) f rs) := by
  have hk := h.requirementsKeyed
  have hclaimed : ∀ p : RequirementState → Bool, ∀ k, (∀ r ∈ l, (f r).claim p k = r.claim p k) →
      claimed p k (updateWhere (fun x => l.any fun r => r.clientId == x.clientId) f rs) =
        claimed p k rs := by
    intro p k hsame
    rw [claimed_restated hk hl fun r hr => (hmem r hr).1,
      total_eq_zero fun r hr => by rw [hsame r hr, sub_self], add_zero]
  refine h.entry hi hid ?_ ?_ ?_ ?_ ?_ ?_ ?_
  · exact keyed_update hk fun x _ _ => hf.clientId x
  · intro y hy inventoryId hinv
    obtain ⟨x, hx, rfl⟩ := mem_updateWhere.mp hy
    refine h.linked x hx inventoryId ?_
    split at hinv
    · exact hf.link x ▸ hinv
    · exact hinv
  · intro y hy
    obtain ⟨x, hx, rfl⟩ := mem_updateWhere.mp hy
    split
    · exact hf.amount x ▸ h.amount_nonneg x hx
    · exact h.amount_nonneg x hx
  · intro p _ k hne
    refine hclaimed p k fun r hr => ?_
    have hother : r.upholsteryInventoryId ≠ some k := fun he =>
      hne (Option.some_inj.mp (he.symm.trans (hmem r hr).2.2))
    rw [claim_of_ne hother, claim_of_ne (by rwa [hf.link])]
  · rw [hneed, h.inNeed i hi, hclaimed _ _ fun r hr => claim_restated_of_same hf (by
      rw [(hmem r hr).2.1, hs])]
  · rw [huse, h.inUse i hi, hclaimed _ _ fun r hr => claim_restated_of_same hf (by
      rw [isInUse_of_isDemand _ (hmem r hr).2.1, isInUse_of_isDemand _ hs])]
  · rw [claimed_restated hk hl fun r hr => (hmem r hr).1]
    exact hgranted

variable {inventory : List UpholsteryInventory} (h : Books inventory rs)
include h

theorem Books.grant (hs : s = .available) (hi : i ∈ inventory) (hl : l.Nodup)
    (hmem : ∀ r ∈ l, r ∈ rs ∧ r.upholsteryInventoryId = some i.clientId ∧
      (r.state = .ordered ∨ r.state = .needsOrdering) ∧ r.isDeleted = false)
    (hle : totalAmount l ≤
      i.currentStored - claimed RequirementState.isAvailable i.clientId rs) :
    Books inventory (updateWhere (fun x => l.any fun r => r.clientId == x.clientId) f rs) := by
  subst hs
  have hbooks := h.restate hf hi (g := id) rfl rfl rfl rfl hl
    (fun r hr => ⟨(hmem r hr).1, ?_, (hmem r hr).2.1⟩) ?_
  · rwa [updateWhere_id] at hbooks
  · rcases (hmem r hr).2.2.1 with hstate | hstate <;> rw [hstate] <;> rfl
  · have hdelta : total (fun r => (f r).claim RequirementState.isAvailable i.clientId -
        r.claim RequirementState.isAvailable i.clientId) l = totalAmount l := by
      refine total_congr fun r hr => ?_
      obtain ⟨-, hlink, hstate, hd⟩ := hmem r hr
      rw [claim_restated hf, if_pos ⟨hlink, rfl, hd⟩, claim_of_not, sub_zero]
      rcases hstate with hstate | hstate <;> rw [hstate] <;> rfl
    rw [hdelta, id_eq]
    linarith

/-- Moving requirements between states of demand without granting any. -/
theorem Books.ungranted (hs : s.isDemand) (hna : s.isAvailable = false) (hl : l.Nodup)
    (hmem : ∀ r ∈ l, r ∈ rs ∧ r.state.isDemand) :
    Books inventory (updateWhere (fun x => l.any fun r => r.clientId == x.clientId) f rs) := by
  have hk := h.requirementsKeyed
  have hsame : ∀ {p : RequirementState → Bool} {k},
    (∀ t : RequirementState, t.isDemand → p t = p s) →
      claimed p k (updateWhere (fun x => l.any fun r => r.clientId == x.clientId) f rs) =
        claimed p k rs := by
    intro p k hp
    rw [claimed_restated hk hl fun r hr => (hmem r hr).1, total_eq_zero fun r hr => by
      rw [claim_restated_of_same hf (hp _ (hmem r hr).2), sub_self], add_zero]
  have hless : ∀ k, claimed RequirementState.isAvailable k
      (updateWhere (fun x => l.any fun r => r.clientId == x.clientId) f rs) ≤
        claimed RequirementState.isAvailable k rs := by
    intro k
    rw [claimed_restated hk hl fun r hr => (hmem r hr).1]
    refine add_le_of_nonpos_right ((List.sum_le_sum (g := fun _ => 0) fun r hr => ?_).trans
      (by simp))
    rw [claim_restated hf, if_neg (by simp [hna]), zero_sub, neg_nonpos]
    exact claim_nonneg (h.amount_nonneg r (hmem r hr).1)
  refine ⟨h.inventoryKeyed, keyed_update hk fun x _ _ => hf.clientId x, ?_, ?_, ?_, ?_, ?_⟩
  · intro y hy inventoryId hinv
    obtain ⟨x, hx, rfl⟩ := mem_updateWhere.mp hy
    refine h.linked x hx inventoryId ?_
    split at hinv
    · exact hf.link x ▸ hinv
    · exact hinv
  · intro y hy
    obtain ⟨x, hx, rfl⟩ := mem_updateWhere.mp hy
    split
    · exact hf.amount x ▸ h.amount_nonneg x hx
    · exact h.amount_nonneg x hx
  · intro i hi
    rw [hsame fun t ht => by rw [ht, hs]]
    exact h.inNeed i hi
  · intro i hi
    rw [hsame fun t ht => by rw [isInUse_of_isDemand _ ht, isInUse_of_isDemand _ hs]]
    exact h.inUse i hi
  · exact fun i hi => (hless i.clientId).trans (h.granted i hi)

end Restate

section Allocate

theorem claimed_isDemand_eq {inventoryId : ClientId} :
    claimed RequirementState.isDemand inventoryId db.requirements =
      claimed RequirementState.isAvailable inventoryId db.requirements +
        totalAmount (db.requirementsOf inventoryId [.ordered, .needsOrdering]) := by
  rw [totalAmount, Db.requirementsOf, total_filter, claimed, claimed, total, total, total,
    ← List.sum_map_add]
  refine congrArg List.sum (List.map_congr_left fun r _ => ?_)
  unfold ItemUpholsteryRequirement.claim
  by_cases hlink : r.upholsteryInventoryId = some inventoryId
  · cases r.isDeleted <;> cases r.state <;>
      simp [hlink, RequirementState.isDemand, RequirementState.isAvailable]
  · simp [hlink]

theorem mem_requirementsOf {inventoryId : ClientId} {states : List RequirementState} :
    r ∈ db.requirementsOf inventoryId states ↔ r ∈ db.requirements ∧
      r.upholsteryInventoryId = some inventoryId ∧ r.state ∈ states ∧ r.isDeleted = false := by
  simp [Db.requirementsOf, and_assoc]

theorem nodup_requirementsOf (h : Books db.upholsteryInventory db.requirements)
    {inventoryId : ClientId} {states : List RequirementState} :
    (db.requirementsOf inventoryId states).Nodup := h.requirementsKeyed.nodup.filter _

theorem restates_allocation (target : RequirementState) (orderedAt : Option Instant) :
    Restates target fun r => { r with state := target, orderedAt := orderedAt.or r.orderedAt } :=
  ⟨fun _ => rfl, fun _ => rfl, fun _ => rfl, fun _ => rfl, fun _ => rfl⟩

/-- Allocating what is left of the stock keeps the books. -/
theorem allocateStored_balanced (h : db.Balanced) (hi : i ∈ db.upholsteryInventory)
    {candidates : List ItemUpholsteryRequirement}
    (hperm : candidates.Perm (db.requirementsOf i.clientId [.ordered, .needsOrdering]))
    (ordered : Meters) :
    (allocatePooledRequirements db i.currentStored.value i.currentInNeed.value ordered candidates
      .available .stored none).Balanced := by
  have hpool : calculatePooledRequirementPool i.currentStored.value i.currentInNeed.value ordered
      candidates .stored =
        (i.currentStored - claimed RequirementState.isAvailable i.clientId
          db.requirements).value := by
    have htotal : totalAmount candidates =
        totalAmount (db.requirementsOf i.clientId [.ordered, .needsOrdering]) := total_perm hperm
    have hneed := (h.books.inNeed i hi).trans claimed_isDemand_eq
    simp only [calculatePooledRequirementPool, MetersColumn.value, ← FixedScale.value_sub]
    congr 1
    rw [htotal, hneed]
    ring
  have hle := totalAmount_resolvedRequirements_le
    (sub_nonneg.mpr (h.books.granted i hi)) candidates
  rw [← hpool] at hle
  have hsub := resolvedRequirements_sublist (calculatePooledRequirementPool i.currentStored.value
    i.currentInNeed.value ordered candidates .stored) candidates
  refine ⟨h.books.grant (restates_allocation .available none) rfl hi
    (hsub.nodup (hperm.nodup_iff.mpr (nodup_requirementsOf h.books))) (fun r hr => ?_) hle,
    h.unclamped⟩
  obtain ⟨hr, hlink, hstate, hd⟩ := mem_requirementsOf.mp (hperm.subset (hsub.subset hr))
  exact ⟨hr, hlink, by simpa using hstate, hd⟩

end Allocate

section Orders

variable {priorityIds : List ClientId} {readyByAt : ClientId → Option Instant}

theorem priorityTier_append_perm {t : List ItemUpholsteryRequirement}
    (ht : t.Perm (withoutPriority priorityIds l)) : (priorityTier priorityIds l ++ t).Perm l := by
  refine ((Sorting.sortBy_perm _ _).append ht).trans ?_
  exact List.filter_append_perm (fun r => priorityIds.contains r.itemUpholsteryId) l

theorem priorityThenOldest_perm : (priorityThenOldest priorityIds l).Perm l :=
  priorityTier_append_perm (Sorting.sortBy_perm _ _)

theorem sortByReadyBy_perm : (sortByReadyBy readyByAt l).Perm l := Sorting.sortBy_perm _ _

theorem inState_append_perm (h : ∀ r ∈ l, r.state = .ordered ∨ r.state = .needsOrdering) :
    (inState .ordered l ++ inState .needsOrdering l).Perm l := by
  have hrest : inState .needsOrdering l = l.filter fun r => !(r.state == .ordered) := by
    refine List.filter_congr fun r hr => ?_
    rcases h r hr with hs | hs <;> simp [hs]
  rw [hrest]
  exact List.filter_append_perm (fun r => r.state == .ordered) l

theorem openOrder_perm {f g : List ItemUpholsteryRequirement → List ItemUpholsteryRequirement}
    (hf : ∀ l, (f l).Perm l) (hg : ∀ l, (g l).Perm l)
    (h : ∀ r ∈ l, r.state = .ordered ∨ r.state = .needsOrdering) :
    (priorityTier priorityIds l ++ f (inState .ordered (withoutPriority priorityIds l)) ++
      g (inState .needsOrdering (withoutPriority priorityIds l))).Perm l := by
  rw [List.append_assoc]
  refine priorityTier_append_perm (((hf _).append (hg _)).trans (inState_append_perm ?_))
  exact fun r hr => h r (List.mem_filter.mp hr).1

theorem openRequirement_state {inventoryId : ClientId}
    (h : r ∈ db.requirementsOf inventoryId [.ordered, .needsOrdering]) :
    r.state = .ordered ∨ r.state = .needsOrdering := by
  simpa using (mem_requirementsOf.mp h).2.2.1

end Orders

end BeyoManager.Upholstery
