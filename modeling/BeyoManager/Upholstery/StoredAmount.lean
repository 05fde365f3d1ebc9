import BeyoManager.Upholstery.StockLedger

/-! # Setting the stored amount

When the stored amount is set, available requirements are demoted from the latest on until the
new amount covers the rest, and the waiting ones are served from what is left, the demoted ones
among them. What is announced is right unless a demoted requirement is served again.
-/

namespace BeyoManager.Upholstery

open Relational Transition Sorting

section Allocation

variable {pool deficit : MetersColumn} {r : ItemUpholsteryRequirement}
  {l : List ItemUpholsteryRequirement} {g : ItemUpholsteryRequirement → ItemUpholsteryRequirement}

def served (pool : MetersColumn) (l : List ItemUpholsteryRequirement) :
    List ItemUpholsteryRequirement :=
  resolvedRequirements pool.value l

theorem served_cons : served pool (r :: l) =
    if r.amount ≤ pool then r :: served (pool - r.amount) l else served pool l := by
  have hvalue : (pool - r.amount).value = pool.value - r.amount.value := FixedScale.value_sub
  simp only [served, resolvedRequirements, rounded_value_sub_value, FixedScale.value_sub_nonneg,
    hvalue]

theorem served_subset (pool : MetersColumn) (l : List ItemUpholsteryRequirement) :
    served pool l ⊆ l := (resolvedRequirements_sublist _ l).subset

theorem totalAmount_cons : totalAmount (r :: l) = r.amount + totalAmount l := total_cons r

theorem totalAmount_append (s : List ItemUpholsteryRequirement) :
    totalAmount (l ++ s) = totalAmount l + totalAmount s := total_append s

theorem totalAmount_perm {s : List ItemUpholsteryRequirement} (h : l.Perm s) :
    totalAmount l = totalAmount s := total_perm h

theorem totalAmount_nonneg (h : ∀ r ∈ l, 0 ≤ r.amount) : 0 ≤ totalAmount l := by
  induction l with
  | nil => exact le_rfl
  | cons r l ih =>
    rw [totalAmount_cons]
    exact add_nonneg (h r List.mem_cons_self) (ih fun x hx => h x (List.mem_cons_of_mem r hx))

theorem totalAmount_served_nonneg (h : ∀ r ∈ l, 0 ≤ r.amount) :
    0 ≤ totalAmount (served pool l) :=
  totalAmount_nonneg fun r hr => h r (served_subset _ _ hr)

theorem lt_amount_of_not_served (h : ∀ r ∈ l, 0 ≤ r.amount) (hr : r ∈ l)
    (hnot : r ∉ served pool l) : pool - totalAmount (served pool l) < r.amount := by
  induction l generalizing pool with
  | nil => cases hr
  | cons x l ih =>
    have hl : ∀ r ∈ l, 0 ≤ r.amount := fun r hr => h r (List.mem_cons_of_mem x hr)
    rw [served_cons] at hnot ⊢
    split
    · next hfits =>
      rw [if_pos hfits, List.mem_cons, not_or] at hnot
      have hrest := ih hl ((List.mem_cons.mp hr).resolve_left hnot.1) hnot.2
      rw [totalAmount_cons]
      linarith
    · next hfits =>
      rw [if_neg hfits] at hnot
      rcases List.mem_cons.mp hr with rfl | hr
      · exact (sub_le_self _ (totalAmount_served_nonneg hl)).trans_lt (not_le.mp hfits)
      · exact ih hl hr hnot

theorem served_map (hg : ∀ r, (g r).amount = r.amount) :
    served pool (l.map g) = (served pool l).map g := by
  induction l generalizing pool with
  | nil => rfl
  | cons r l ih =>
    rw [List.map_cons, served_cons, served_cons, hg]
    split
    · rw [ih, List.map_cons]
    · exact ih

theorem totalAmount_map (hg : ∀ r, (g r).amount = r.amount) :
    totalAmount (l.map g) = totalAmount l := by
  induction l with
  | nil => rfl
  | cons r l ih => rw [List.map_cons, totalAmount_cons, totalAmount_cons, hg, ih]

/-- Each marked member is larger than what the unmarked ones before it leave of the pool. -/
def Stays (marked : ItemUpholsteryRequirement → Prop) [DecidablePred marked]
    (pool : MetersColumn) (l : List ItemUpholsteryRequirement) : Prop :=
  ∀ before r after, l = before ++ r :: after → marked r →
    pool - totalAmount (served pool (before.filter fun x => ¬ marked x)) < r.amount

/-- No marked member is served exactly when each is larger than what is left to it. -/
theorem stays_iff (marked : ItemUpholsteryRequirement → Prop) [DecidablePred marked] :
    Stays marked pool l ↔ ∀ r ∈ served pool l, ¬ marked r := by
  induction l generalizing pool with
  | nil =>
    apply iff_of_true
    · intro before r after h
      simp at h
    · intro r hr
      cases hr
  | cons x l ih =>
    have hsplit : Stays marked pool (x :: l) ↔ (marked x → pool < x.amount) ∧
        ∀ before r after, l = before ++ r :: after → marked r →
          pool - totalAmount (served pool ((x :: before).filter fun x => ¬ marked x)) <
            r.amount := by
      constructor
      · intro h
        refine ⟨fun hx => ?_, fun before r after hl hr => ?_⟩
        · have := h [] x l rfl hx
          rwa [List.filter_nil, show totalAmount (served pool []) = 0 from rfl, sub_zero] at this
        · exact h (x :: before) r after (by rw [hl, List.cons_append]) hr
      · rintro ⟨hx, hrest⟩ before r after hl hr
        cases before with
        | nil =>
          obtain ⟨rfl, -⟩ := List.cons.inj hl
          rw [List.filter_nil, show totalAmount (served pool []) = 0 from rfl, sub_zero]
          exact hx hr
        | cons y before =>
          obtain ⟨rfl, heq⟩ := List.cons.inj hl
          exact hrest before r after heq hr
    rw [hsplit, served_cons]
    by_cases hx : marked x
    · simp only [hx, List.filter_cons, not_true, decide_false, Bool.false_eq_true, if_false,
        forall_true_left]
      by_cases hfits : x.amount ≤ pool
      · rw [if_pos hfits]
        apply iff_of_false
        · rintro ⟨hlt, -⟩
          exact hlt.not_ge hfits
        · intro h
          exact h x List.mem_cons_self hx
      · rw [if_neg hfits, ← ih]
        exact and_iff_right (not_le.mp hfits)
    · by_cases hfits : x.amount ≤ pool
      · have hsame : ∀ before : List ItemUpholsteryRequirement,
            pool - totalAmount (served pool ((x :: before).filter fun x => ¬ marked x)) =
              pool - x.amount - totalAmount (served (pool - x.amount)
                (before.filter fun x => ¬ marked x)) := by
          intro before
          rw [List.filter_cons_of_pos (by simpa using hx), served_cons, if_pos hfits,
            totalAmount_cons, sub_sub]
        simp only [hsame]
        rw [if_pos hfits, List.forall_mem_cons, ← ih]
        constructor
        · rintro ⟨-, h⟩
          exact ⟨hx, h⟩
        · rintro ⟨-, h⟩
          exact ⟨fun h => absurd h hx, h⟩
      · have hsame : ∀ before : List ItemUpholsteryRequirement,
            served pool ((x :: before).filter fun x => ¬ marked x) =
              served pool (before.filter fun x => ¬ marked x) := by
          intro before
          rw [List.filter_cons_of_pos (by simpa using hx), served_cons, if_neg hfits]
        simp only [hsame]
        rw [if_neg hfits, ← ih]
        constructor
        · rintro ⟨-, h⟩
          exact h
        · exact fun h => ⟨fun h => absurd h hx, h⟩

def amountBefore (l : List ItemUpholsteryRequirement) (r : ItemUpholsteryRequirement) :
    MetersColumn :=
  totalAmount (l.takeWhile fun x => x ≠ r)

/-- The demoted requirements are those before which the deficit is not made up. -/
theorem mem_demotedRequirements (h : ∀ r ∈ l, 0 ≤ r.amount) (hpos : 0 < deficit) :
    r ∈ demotedRequirements deficit l ↔ r ∈ l ∧ amountBefore l r < deficit := by
  induction l generalizing deficit with
  | nil => simp [demotedRequirements]
  | cons x l ih =>
    have hl : ∀ r ∈ l, 0 ≤ r.amount := fun r hr => h r (List.mem_cons_of_mem x hr)
    by_cases hrx : r = x
    · subst hrx
      have hbefore : amountBefore (r :: l) r = 0 := by simp [amountBefore, totalAmount]
      rw [hbefore, demotedRequirements]
      apply iff_of_true
      · split <;> simp
      · exact ⟨List.mem_cons_self, hpos⟩
    · have hbefore : amountBefore (x :: l) r = x.amount + amountBefore l r := by
        rw [amountBefore, List.takeWhile_cons_of_pos (by simpa using Ne.symm hrx),
          totalAmount_cons, amountBefore]
      have hnonneg : 0 ≤ amountBefore l r :=
        totalAmount_nonneg fun y hy => hl y ((List.takeWhile_sublist _).subset hy)
      rw [hbefore, demotedRequirements, List.mem_cons, or_iff_right hrx]
      split
      · next hle =>
        apply iff_of_false
        · simpa using hrx
        · rintro ⟨-, hlt⟩
          linarith
      · next hle =>
        rw [List.mem_cons, or_iff_right hrx,
          ih hl (sub_pos.mpr (not_le.mp hle)), lt_sub_iff_add_lt']

end Allocation

section Outcome

/-- The requirements that `_demote_available_requirements` announces. -/
def demotedBy (candidates : List ItemUpholsteryRequirement) (newStored : MetersColumn)
    (readyByAt : ClientId → Option Instant) : List ItemUpholsteryRequirement :=
  let deficit := max 0 (totalAmount candidates - newStored)
  if deficit = 0 then []
  else demotedRequirements deficit (sortBy (demotionSortKey readyByAt) candidates)

/-- The order in which `_promote_forward_requirements` serves. -/
def promotionOrder (candidates : List ItemUpholsteryRequirement)
    (readyByAt : ClientId → Option Instant) : List ItemUpholsteryRequirement :=
  sortByReadyBy readyByAt (inState .ordered candidates) ++
    sortByReadyBy readyByAt (inState .needsOrdering candidates)

/-- The requirements that `_promote_forward_requirements` announces. -/
def promotedBy (inv : UpholsteryInventory) (newStored : MetersColumn)
    (candidates : List ItemUpholsteryRequirement) (readyByAt : ClientId → Option Instant) :
    List ItemUpholsteryRequirement :=
  resolvedRequirements (calculatePooledRequirementPool newStored.value inv.currentInNeed.value
    inv.currentOrdered.value (promotionOrder candidates readyByAt) .stored)
    (promotionOrder candidates readyByAt)

/-- The tables after the command, and the requirements whose item upholsteries it announces. -/
structure StoredOutcome where
  db : Db
  promoted : List ItemUpholsteryRequirement
  demoted : List ItemUpholsteryRequirement

/-- `promoted_ids`. -/
def StoredOutcome.promotedIds (o : StoredOutcome) : List ClientId :=
  o.promoted.map ItemUpholsteryRequirement.itemUpholsteryId

/-- `demoted_ids`. -/
def StoredOutcome.demotedIds (o : StoredOutcome) : List ClientId :=
  o.demoted.map ItemUpholsteryRequirement.itemUpholsteryId

/-- `set_current_stored_amount_inventory` with what it announces. -/
def setStoredOutcome (db : Db) (inventoryId : ClientId) (currentStoredAmountMeters : Meters) :
    Except CommandError StoredOutcome := do
  let newStored := currentStoredAmountMeters.toColumn
  throwIf (newStored < 0) (.validation ("current_stored_amount_meters: Value error, " ++
    "current_stored_amount_meters must be >= 0."))
  let inv ← db.loadInventory inventoryId
  if newStored = inv.currentStored then pure ⟨db, [], []⟩
  else
    let db := db.updateInventory inventoryId fun i =>
      { i with
        currentStored := newStored
        inventoryCondition :=
          evaluateInventoryCondition newStored.value inv.currentInNeed.value inv.threshold }
    let readyByAt := db.fetchEarliestReadyByAt
    let demoted := demotedBy (db.requirementsOf inventoryId [.available]) newStored readyByAt
    let db := db.updateRequirements demoted fun r => { r with state := .needsOrdering }
    let promoted := promotedBy inv newStored
      (db.requirementsOf inventoryId [.ordered, .needsOrdering]) readyByAt
    pure ⟨db.updateRequirements promoted fun r =>
      { r with state := .available, orderedAt := none.or r.orderedAt }, promoted, demoted⟩

theorem demoteAvailableRequirements_eq_demotedBy (db : Db)
    (candidates : List ItemUpholsteryRequirement) (newStored : MetersColumn)
    (readyByAt : ClientId → Option Instant) :
    demoteAvailableRequirements db candidates newStored readyByAt =
      db.updateRequirements (demotedBy candidates newStored readyByAt)
        fun r => { r with state := .needsOrdering } := by
  unfold demoteAvailableRequirements demotedBy
  dsimp only
  split
  · have hsame : updateWhere (fun x => ([] : List ItemUpholsteryRequirement).any fun r =>
        r.clientId == x.clientId) (fun r => { r with state := .needsOrdering }) db.requirements =
          db.requirements := updateWhere_of_forall_not fun _ _ => rfl
    rw [Db.updateRequirements, hsame]
  · rfl

theorem setStoredOutcome_db (db : Db) (inventoryId : ClientId) (amount : Meters) :
    (setStoredOutcome db inventoryId amount).map StoredOutcome.db =
      setCurrentStoredAmountInventory db inventoryId amount := by
  unfold setStoredOutcome setCurrentStoredAmountInventory
  change StoredOutcome.db <$> (_ : Except CommandError StoredOutcome) = _
  rw [map_bind]
  refine bind_congr fun _ => ?_
  rw [map_bind]
  refine bind_congr fun inv => ?_
  split
  · rfl
  · simp only [demoteAvailableRequirements_eq_demotedBy]
    rfl

end Outcome

end BeyoManager.Upholstery
