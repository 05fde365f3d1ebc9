import BeyoManager.Upholstery.StoredAmount

/-! # What setting the stored amount settles

The stock is allocated whatever amount is set, and the announced lists are those of the
requirements whose state changed, unless a demoted requirement is served again at once.
-/

namespace BeyoManager.Upholstery

open Relational Transition Sorting

section Verdict

variable (db : Db) (inventoryId : ClientId) (newStored : MetersColumn)

def Db.requirementState? (id : ClientId) : Option RequirementState :=
  (db.requirements.find? fun r => r.clientId == id).map ItemUpholsteryRequirement.state

/-- What the new amount leaves beside the available requirements. -/
def Db.leftOf : MetersColumn :=
  newStored - totalAmount (db.requirementsOf inventoryId [.available])

/-- The available requirements are covered, and no waiting one fits into the rest. -/
structure Db.Allocated : Prop where
  covered : totalAmount (db.requirementsOf inventoryId [.available]) ≤ newStored
  maximal : ∀ r ∈ db.requirementsOf inventoryId [.ordered, .needsOrdering],
    db.leftOf inventoryId newStored < r.amount

/-- The requirements that came into a state out of the states with a property. -/
def changedInto (before : Db) (p : RequirementState → Bool) (state : RequirementState) :
    List ItemUpholsteryRequirement :=
  before.requirements.filter fun r =>
    p r.state && db.requirementState? r.clientId == some state

/-- The stock is allocated, and the announcements say what changed. -/
structure Settles (o : StoredOutcome) : Prop where
  allocated : o.db.Allocated inventoryId newStored
  notDemoted : ∀ r ∈ o.demoted, o.db.requirementState? r.clientId ≠ some .available
  promoted : o.promotedIds.Perm ((changedInto o.db db (· ≠ .available) .available).map
    ItemUpholsteryRequirement.itemUpholsteryId)
  demoted : o.demotedIds.Perm ((changedInto o.db db (· = .available) .needsOrdering).map
    ItemUpholsteryRequirement.itemUpholsteryId)

/-- The available requirements of the row before which, in the order of demotion, the new amount's
deficit is not made up. -/
def Surrendered (r : ItemUpholsteryRequirement) : Prop :=
  r ∈ db.requirementsOf inventoryId [.available] ∧
    amountBefore (sortBy (demotionSortKey db.fetchEarliestReadyByAt)
      (db.requirementsOf inventoryId [.available])) r <
        totalAmount (db.requirementsOf inventoryId [.available]) - newStored

instance : DecidablePred (Surrendered db inventoryId newStored) :=
  fun _ => inferInstanceAs (Decidable (_ ∧ _))

/-- What the available requirements that are not surrendered leave of the new amount. -/
def leftover : MetersColumn :=
  newStored - totalAmount ((db.requirementsOf inventoryId [.available]).filter fun r =>
    ¬ Surrendered db inventoryId newStored r)

/-- The ordered requirements, then those that need ordering and the surrendered ones. -/
def waitingOrder : List ItemUpholsteryRequirement :=
  sortByReadyBy db.fetchEarliestReadyByAt (db.requirementsOf inventoryId [.ordered]) ++
    sortByReadyBy db.fetchEarliestReadyByAt (db.requirements.filter fun r =>
      r ∈ db.requirementsOf inventoryId [.needsOrdering] ∨ Surrendered db inventoryId newStored r)

/-- No surrendered requirement fits into what the waiting ones before it leave; an amount that is
stored already changes nothing, so the stock has to be allocated before. -/
def SettlesWhen (inv : UpholsteryInventory) : Prop :=
  if newStored = inv.currentStored then db.Allocated inventoryId newStored
  else Stays (Surrendered db inventoryId newStored) (leftover db inventoryId newStored)
    (waitingOrder db inventoryId newStored)

/-- The amount in need of a row counts its requirements. -/
structure Db.NeedCounted : Prop where
  keyed : Keyed ItemUpholsteryRequirement.clientId db.requirements
  amount_nonneg : ∀ r ∈ db.requirements, 0 ≤ r.amount
  inNeed : ∀ inv, db.loadInventory inventoryId = .ok inv →
    inv.currentInNeed = claimed RequirementState.isDemand inventoryId db.requirements

end Verdict

variable {db : Db} {inventoryId : ClientId} {newStored : MetersColumn}
  {l : List ItemUpholsteryRequirement} {r : ItemUpholsteryRequirement}
  {f : ItemUpholsteryRequirement → ItemUpholsteryRequirement}

theorem Db.Balanced.needCounted (h : db.Balanced) : db.NeedCounted inventoryId where
  keyed := h.books.requirementsKeyed
  amount_nonneg := h.books.amount_nonneg
  inNeed := by
    intro inv hload
    obtain ⟨hi, rfl⟩ := loadInventory_eq_ok hload
    exact h.books.inNeed inv hi

section Demotion

variable (h : db.NeedCounted inventoryId)

include h

theorem nodup_requirementsOf_of_needCounted {states : List RequirementState} :
    (db.requirementsOf inventoryId states).Nodup := h.keyed.nodup.filter _

theorem amount_nonneg_of_mem {states : List RequirementState}
    (hr : r ∈ db.requirementsOf inventoryId states) : 0 ≤ r.amount :=
  h.amount_nonneg r (mem_requirementsOf.mp hr).1

/-- The demoted requirements are the surrendered ones. -/
theorem mem_demotedBy :
    r ∈ demotedBy (db.requirementsOf inventoryId [.available]) newStored
      db.fetchEarliestReadyByAt ↔ Surrendered db inventoryId newStored r := by
  have hperm := sortBy_perm (demotionSortKey db.fetchEarliestReadyByAt)
    (db.requirementsOf inventoryId [.available])
  have hnonneg : ∀ x ∈ sortBy (demotionSortKey db.fetchEarliestReadyByAt)
      (db.requirementsOf inventoryId [.available]), 0 ≤ x.amount := fun x hx =>
    amount_nonneg_of_mem h (hperm.subset hx)
  unfold demotedBy
  dsimp only
  split
  · next hzero =>
    apply iff_of_false
    · simp
    · rintro ⟨-, hlt⟩
      have hle := max_eq_left_iff.mp hzero
      have hbefore : 0 ≤ amountBefore (sortBy (demotionSortKey db.fetchEarliestReadyByAt)
          (db.requirementsOf inventoryId [.available])) r :=
        totalAmount_nonneg fun y hy => hnonneg y ((List.takeWhile_sublist _).subset hy)
      linarith
  · next hdeficit =>
    have hpos : 0 < totalAmount (db.requirementsOf inventoryId [.available]) - newStored :=
      not_le.mp fun hle => hdeficit (max_eq_left hle)
    rw [max_eq_right hpos.le, mem_demotedRequirements hnonneg hpos, hperm.mem_iff]
    exact Iff.rfl

theorem nodup_demotedBy :
    (demotedBy (db.requirementsOf inventoryId [.available]) newStored
      db.fetchEarliestReadyByAt).Nodup := by
  unfold demotedBy
  dsimp only
  split
  · exact List.nodup_nil
  · exact (demotedRequirements_spec _ _).1.nodup
      ((sortBy_perm _ _).nodup_iff.mpr (nodup_requirementsOf_of_needCounted h))

theorem demotedBy_perm :
    (demotedBy (db.requirementsOf inventoryId [.available]) newStored
      db.fetchEarliestReadyByAt).Perm ((db.requirementsOf inventoryId [.available]).filter fun r =>
        Surrendered db inventoryId newStored r) := by
  refine (List.perm_ext_iff_of_nodup (nodup_demotedBy h)
    ((nodup_requirementsOf_of_needCounted h).filter _)).mpr fun r => ?_
  rw [mem_demotedBy h, List.mem_filter, decide_eq_true_iff]
  exact ⟨fun hr => ⟨hr.1, hr⟩, And.right⟩

theorem totalAmount_available :
    totalAmount ((db.requirementsOf inventoryId [.available]).filter fun r =>
        ¬ Surrendered db inventoryId newStored r) +
      totalAmount (demotedBy (db.requirementsOf inventoryId [.available]) newStored
        db.fetchEarliestReadyByAt) =
      totalAmount (db.requirementsOf inventoryId [.available]) := by
  have hperm := List.filter_append_perm (fun r => decide (Surrendered db inventoryId newStored r))
    (db.requirementsOf inventoryId [.available])
  rw [← totalAmount_perm hperm, totalAmount_append, totalAmount_perm (demotedBy_perm h)]
  simp only [decide_not]
  exact add_comm _ _

/-- The requirements that stay are covered. -/
theorem leftover_nonneg (hnonneg : 0 ≤ newStored) : 0 ≤ leftover db inventoryId newStored := by
  have htotal := @totalAmount_available db inventoryId newStored h
  unfold leftover
  rw [demotedBy] at htotal
  split at htotal
  · next hzero =>
    have hle := max_eq_left_iff.mp hzero
    rw [show totalAmount [] = 0 from rfl, add_zero] at htotal
    linarith
  · next hdeficit =>
    have hpos : 0 < totalAmount (db.requirementsOf inventoryId [.available]) - newStored :=
      not_le.mp fun hle => hdeficit (max_eq_left hle)
    rw [max_eq_right hpos.le] at htotal
    rcases (demotedRequirements_spec (totalAmount (db.requirementsOf inventoryId [.available]) -
      newStored) (sortBy (demotionSortKey db.fetchEarliestReadyByAt)
        (db.requirementsOf inventoryId [.available]))).2 with hle | hall
    · linarith
    · rw [hall] at htotal
      have hsorted := totalAmount_perm (sortBy_perm (demotionSortKey db.fetchEarliestReadyByAt)
        (db.requirementsOf inventoryId [.available]))
      linarith

end Demotion

section Fates

variable (db : Db) (inventoryId : ClientId) (newStored : MetersColumn)

def demote (r : ItemUpholsteryRequirement) : ItemUpholsteryRequirement :=
  if Surrendered db inventoryId newStored r then { r with state := .needsOrdering } else r

def granted : List ItemUpholsteryRequirement :=
  served (leftover db inventoryId newStored) (waitingOrder db inventoryId newStored)

def fate (r : ItemUpholsteryRequirement) : ItemUpholsteryRequirement :=
  if r ∈ granted db inventoryId newStored then
    { demote db inventoryId newStored r with
      state := .available
      orderedAt := none.or (demote db inventoryId newStored r).orderedAt }
  else demote db inventoryId newStored r

theorem demote_eq (r : ItemUpholsteryRequirement) :
    ∃ s, demote db inventoryId newStored r = { r with state := s } := by
  unfold demote
  split
  · exact ⟨_, rfl⟩
  · exact ⟨r.state, rfl⟩

theorem fate_eq (r : ItemUpholsteryRequirement) :
    ∃ s, fate db inventoryId newStored r = { r with state := s } := by
  obtain ⟨s, hs⟩ := demote_eq db inventoryId newStored r
  unfold fate
  split
  · exact ⟨_, by rw [hs]; rfl⟩
  · exact ⟨s, hs⟩

variable {db inventoryId newStored}

theorem clientId_demote : (demote db inventoryId newStored r).clientId = r.clientId := by
  obtain ⟨s, hs⟩ := demote_eq db inventoryId newStored r
  rw [hs]

theorem amount_demote : (demote db inventoryId newStored r).amount = r.amount := by
  obtain ⟨s, hs⟩ := demote_eq db inventoryId newStored r
  rw [hs]
  rfl

theorem demote_of_surrendered (hr : Surrendered db inventoryId newStored r) :
    demote db inventoryId newStored r = { r with state := .needsOrdering } := if_pos hr

theorem demote_of_not_surrendered (hr : ¬ Surrendered db inventoryId newStored r) :
    demote db inventoryId newStored r = r := if_neg hr

theorem requirements_updateRequirements (hk : Keyed ItemUpholsteryRequirement.clientId
    db.requirements) (hl : ∀ r ∈ l, r ∈ db.requirements) :
    (db.updateRequirements l f).requirements =
      db.requirements.map fun r => if r ∈ l then f r else r := by
  refine List.map_congr_left fun r hr => ?_
  by_cases hmem : r ∈ l
  · have hany : (l.any fun x => x.clientId == r.clientId) = true :=
      List.any_eq_true.mpr ⟨r, hmem, beq_self_eq_true _⟩
    exact (if_pos hany).trans (if_pos hmem).symm
  · rw [if_neg hmem, if_neg]
    intro hany
    obtain ⟨x, hx, he⟩ := List.any_eq_true.mp hany
    exact hmem (hk.inj (hl x hx) hr (beq_iff_eq.mp he) ▸ hx)

theorem sortByReadyBy_map_demote (readyByAt : ClientId → Option Instant) :
    sortByReadyBy readyByAt (l.map (demote db inventoryId newStored)) =
      (sortByReadyBy readyByAt l).map (demote db inventoryId newStored) := by
  symm
  apply map_sortBy
  intro a _ b _
  obtain ⟨s, hs⟩ := demote_eq db inventoryId newStored a
  obtain ⟨t, ht⟩ := demote_eq db inventoryId newStored b
  rw [hs, ht]

/-- The requirements served last are the waiting ones and those just demoted. -/
theorem promotionOrder_eq {db₁ : Db} (hdb : db₁.requirements =
    db.requirements.map (demote db inventoryId newStored)) :
    promotionOrder (db₁.requirementsOf inventoryId [.ordered, .needsOrdering])
        db.fetchEarliestReadyByAt =
      (waitingOrder db inventoryId newStored).map (demote db inventoryId newStored) := by
  have hordered : inState .ordered (db₁.requirementsOf inventoryId [.ordered, .needsOrdering]) =
      (db.requirementsOf inventoryId [.ordered]).map (demote db inventoryId newStored) := by
    rw [inState, Db.requirementsOf, hdb, List.filter_map, List.filter_map, List.filter_filter]
    refine congrArg _ (List.filter_congr fun r _ => ?_)
    by_cases hs : Surrendered db inventoryId newStored r
    · obtain ⟨-, -, hstate, -⟩ := mem_requirementsOf.mp hs.1
      simp [demote_of_surrendered hs, List.mem_singleton.mp hstate]
    · simp only [Function.comp_apply, demote_of_not_surrendered hs]
      cases r.state <;> simp
  have hneeds : inState .needsOrdering
      (db₁.requirementsOf inventoryId [.ordered, .needsOrdering]) =
        (db.requirements.filter fun r => r ∈ db.requirementsOf inventoryId [.needsOrdering] ∨
          Surrendered db inventoryId newStored r).map (demote db inventoryId newStored) := by
    rw [inState, Db.requirementsOf, hdb, List.filter_map, List.filter_map, List.filter_filter]
    refine congrArg _ (List.filter_congr fun r hr => ?_)
    by_cases hs : Surrendered db inventoryId newStored r
    · obtain ⟨-, hlink, -, hd⟩ := mem_requirementsOf.mp hs.1
      simp [demote_of_surrendered hs, hs, hlink, hd]
    · simp only [Function.comp_apply, demote_of_not_surrendered hs, hs, or_false,
        mem_requirementsOf]
      cases r.state <;> simp [hr, beq_eq_decide]
  rw [promotionOrder, hordered, hneeds, sortByReadyBy_map_demote, sortByReadyBy_map_demote,
    waitingOrder, List.map_append]

/-- The served requirements of the row. -/
theorem mem_waitingOrder :
    r ∈ waitingOrder db inventoryId newStored ↔ r ∈ db.requirements ∧
      (r ∈ db.requirementsOf inventoryId [.ordered, .needsOrdering] ∨
        Surrendered db inventoryId newStored r) := by
  rw [waitingOrder, List.mem_append, sortByReadyBy_perm.mem_iff, sortByReadyBy_perm.mem_iff,
    List.mem_filter, decide_eq_true_iff]
  constructor
  · rintro (hr | ⟨hr, hneeds | hs⟩)
    · obtain ⟨hmem, hlink, hstate, hd⟩ := mem_requirementsOf.mp hr
      refine ⟨hmem, .inl (mem_requirementsOf.mpr ⟨hmem, hlink, ?_, hd⟩)⟩
      rw [List.mem_singleton.mp hstate]
      decide
    · obtain ⟨hmem, hlink, hstate, hd⟩ := mem_requirementsOf.mp hneeds
      refine ⟨hmem, .inl (mem_requirementsOf.mpr ⟨hmem, hlink, ?_, hd⟩)⟩
      rw [List.mem_singleton.mp hstate]
      decide
    · exact ⟨hr, .inr hs⟩
  · rintro ⟨hr, hopen | hs⟩
    · obtain ⟨hmem, hlink, -, hd⟩ := mem_requirementsOf.mp hopen
      rcases openRequirement_state hopen with hstate | hstate
      · left
        exact mem_requirementsOf.mpr ⟨hmem, hlink, by simp [hstate], hd⟩
      · right
        exact ⟨hr, .inl (mem_requirementsOf.mpr ⟨hmem, hlink, by simp [hstate], hd⟩)⟩
    · exact .inr ⟨hr, .inr hs⟩

theorem granted_subset : granted db inventoryId newStored ⊆ waitingOrder db inventoryId newStored :=
  served_subset _ _

theorem state_fate :
    (fate db inventoryId newStored r).state =
      if r ∈ granted db inventoryId newStored then .available
      else if Surrendered db inventoryId newStored r then .needsOrdering else r.state := by
  unfold fate demote
  split
  · rfl
  · split <;> rfl

section Counted

variable (h : db.NeedCounted inventoryId)

include h

theorem nodup_waitingOrder : (waitingOrder db inventoryId newStored).Nodup := by
  rw [waitingOrder, List.nodup_append']
  refine ⟨sortByReadyBy_perm.nodup_iff.mpr (nodup_requirementsOf_of_needCounted h),
    sortByReadyBy_perm.nodup_iff.mpr (h.keyed.nodup.filter _), ?_⟩
  intro r hordered hrest
  have hordered := mem_requirementsOf.mp (sortByReadyBy_perm.subset hordered)
  have hstate := List.mem_singleton.mp hordered.2.2.1
  have hrest := List.mem_filter.mp (sortByReadyBy_perm.subset hrest)
  rcases decide_eq_true_iff.mp hrest.2 with hneeds | hs
  · have := (mem_requirementsOf.mp hneeds).2.2.1
    simp [hstate] at this
  · have := (mem_requirementsOf.mp hs.1).2.2.1
    simp [hstate] at this

theorem nodup_granted : (granted db inventoryId newStored).Nodup :=
  (resolvedRequirements_sublist _ _).nodup (nodup_waitingOrder h)

/-- What is waiting and what stays is all that the row needs. -/
theorem totalAmount_waitingOrder {inv : UpholsteryInventory}
    (hload : db.loadInventory inventoryId = .ok inv) :
    inv.currentInNeed = totalAmount (waitingOrder db inventoryId newStored) +
      totalAmount ((db.requirementsOf inventoryId [.available]).filter fun r =>
        ¬ Surrendered db inventoryId newStored r) := by
  have hperm : (waitingOrder db inventoryId newStored).Perm
      (db.requirementsOf inventoryId [.ordered, .needsOrdering] ++
        demotedBy (db.requirementsOf inventoryId [.available]) newStored
          db.fetchEarliestReadyByAt) := by
    refine (List.perm_ext_iff_of_nodup (nodup_waitingOrder h) ?_).mpr fun r => ?_
    · rw [List.nodup_append']
      refine ⟨nodup_requirementsOf_of_needCounted h, nodup_demotedBy h, ?_⟩
      intro r hopen hs
      have hs := (mem_requirementsOf.mp ((mem_demotedBy h).mp hs).1).2.2.1
      rcases openRequirement_state hopen with hstate | hstate <;> simp [hstate] at hs
    · rw [mem_waitingOrder, List.mem_append, mem_demotedBy h]
      constructor
      · exact And.right
      · rintro (hr | hr)
        · exact ⟨(mem_requirementsOf.mp hr).1, .inl hr⟩
        · exact ⟨(mem_requirementsOf.mp hr.1).1, .inr hr⟩
  have hstay := @totalAmount_available db inventoryId newStored h
  rw [h.inNeed inv hload, claimed_isDemand_eq, claimed_isAvailable_eq, totalAmount_perm hperm,
    totalAmount_append, ← hstay]
  abel

/-- The command rewrites every requirement as its fate says. -/
theorem setStoredOutcome_fate {amount : Meters} {o : StoredOutcome} {inv : UpholsteryInventory}
    (hload : db.loadInventory inventoryId = .ok inv) (hne : amount.toColumn ≠ inv.currentStored)
    (hok : setStoredOutcome db inventoryId amount = .ok o) :
    o.db.requirements = db.requirements.map (fate db inventoryId amount.toColumn) ∧
      o.promoted = (granted db inventoryId amount.toColumn).map
        (demote db inventoryId amount.toColumn) ∧
      o.demoted = demotedBy (db.requirementsOf inventoryId [.available]) amount.toColumn
        db.fetchEarliestReadyByAt := by
  obtain ⟨-, hok⟩ := throwIf_bind_eq_ok.mp hok
  obtain ⟨inv', hload', hok⟩ := bind_eq_ok.mp hok
  cases hload.symm.trans hload'
  rw [if_neg hne] at hok
  dsimp only at hok
  generalize hrow : db.updateInventory inventoryId _ = db₀ at hok
  have hreqs : db₀.requirements = db.requirements := by rw [← hrow]; rfl
  have hready : db₀.fetchEarliestReadyByAt = db.fetchEarliestReadyByAt := by rw [← hrow]; rfl
  have havailable : db₀.requirementsOf inventoryId [.available] =
      db.requirementsOf inventoryId [.available] := by rw [← hrow]; rfl
  rw [havailable, hready] at hok
  generalize hdb₁ : db₀.updateRequirements _ _ = db₁ at hok
  have hdemote : db₁.requirements =
      db.requirements.map (demote db inventoryId amount.toColumn) := by
    rw [← hdb₁, requirements_updateRequirements (by rw [hreqs]; exact h.keyed), hreqs]
    · refine List.map_congr_left fun r _ => ?_
      rw [demote]
      simp only [mem_demotedBy h]
    · intro r hr
      rw [hreqs]
      exact (mem_requirementsOf.mp ((mem_demotedBy h).mp hr).1).1
  have hpromoted : promotedBy inv amount.toColumn
      (db₁.requirementsOf inventoryId [.ordered, .needsOrdering]) db.fetchEarliestReadyByAt =
        (granted db inventoryId amount.toColumn).map (demote db inventoryId amount.toColumn) := by
    have hpool : calculatePooledRequirementPool amount.toColumn.value inv.currentInNeed.value
        inv.currentOrdered.value ((waitingOrder db inventoryId amount.toColumn).map
          (demote db inventoryId amount.toColumn)) .stored =
            (leftover db inventoryId amount.toColumn).value := by
      have hsub : ∀ m n : MetersColumn, (m - n).value = m.value - n.value := fun _ _ =>
        FixedScale.value_sub
      rw [calculatePooledRequirementPool, totalAmount_map fun _ => amount_demote, ← hsub, ← hsub,
        leftover, @totalAmount_waitingOrder db inventoryId amount.toColumn h _ hload,
        add_sub_cancel_left]
    rw [promotedBy, promotionOrder_eq hdemote, hpool, ← served,
      served_map fun _ => amount_demote]
    rfl
  rw [hpromoted] at hok
  cases hok
  refine ⟨?_, rfl, rfl⟩
  have hkeyed : Keyed ItemUpholsteryRequirement.clientId db₁.requirements := by
    refine h.keyed.of_map_eq ?_
    rw [hdemote, List.map_map]
    exact List.map_congr_left fun _ _ => clientId_demote
  have hmem : ∀ r ∈ granted db inventoryId amount.toColumn, r ∈ db.requirements := fun r hr =>
    (mem_waitingOrder.mp (granted_subset hr)).1
  rw [requirements_updateRequirements hkeyed, hdemote, List.map_map]
  · refine List.map_congr_left fun r hr => ?_
    have hiff : demote db inventoryId amount.toColumn r ∈ (granted db inventoryId
        amount.toColumn).map (demote db inventoryId amount.toColumn) ↔
          r ∈ granted db inventoryId amount.toColumn := by
      constructor
      · intro hr'
        obtain ⟨x, hx, he⟩ := List.mem_map.mp hr'
        have hid := congrArg ItemUpholsteryRequirement.clientId he
        rw [clientId_demote, clientId_demote] at hid
        exact h.keyed.inj (hmem x hx) hr hid ▸ hx
      · exact List.mem_map_of_mem
    simp only [Function.comp_apply, fate, hiff]
  · intro r hr
    obtain ⟨x, hx, rfl⟩ := List.mem_map.mp hr
    rw [hdemote]
    exact List.mem_map_of_mem (hmem x hx)

end Counted

end Fates

section After

variable {amount : Meters} {o : StoredOutcome} {db' : Db}
  (hfate : db'.requirements = db.requirements.map (fate db inventoryId newStored))

include hfate

theorem requirementsOf_after {states : List RequirementState} :
    db'.requirementsOf inventoryId states = (db.requirements.filter fun r =>
      r.upholsteryInventoryId == some inventoryId &&
        states.contains (fate db inventoryId newStored r).state && !r.isDeleted).map
          (fate db inventoryId newStored) := by
  rw [Db.requirementsOf, hfate, List.filter_map]
  refine congrArg _ (List.filter_congr fun r _ => ?_)
  obtain ⟨s, hs⟩ := fate_eq db inventoryId newStored r
  simp only [Function.comp_apply, hs]

theorem requirementState?_after (h : db.NeedCounted inventoryId) (hr : r ∈ db.requirements) :
    db'.requirementState? r.clientId = some (fate db inventoryId newStored r).state := by
  have hid : ∀ x, (fate db inventoryId newStored x).clientId = x.clientId := by
    intro x
    obtain ⟨s, hs⟩ := fate_eq db inventoryId newStored x
    rw [hs]
  have hkeyed : Keyed ItemUpholsteryRequirement.clientId db'.requirements := by
    refine h.keyed.of_map_eq ?_
    rw [hfate, List.map_map]
    exact List.map_congr_left fun x _ => hid x
  have hmem : fate db inventoryId newStored r ∈ db'.requirements := by
    rw [hfate]
    exact List.mem_map_of_mem hr
  rw [Db.requirementState?, ← hid r, hkeyed.find?_eq hmem]
  rfl

/-- What is available afterwards stayed, or was served. -/
theorem totalAmount_available_after (h : db.NeedCounted inventoryId) :
    totalAmount (db'.requirementsOf inventoryId [.available]) =
      totalAmount ((db.requirementsOf inventoryId [.available]).filter fun r =>
        ¬ Surrendered db inventoryId newStored r) +
          totalAmount (granted db inventoryId newStored) := by
  have hamount : ∀ x, (fate db inventoryId newStored x).amount = x.amount := by
    intro x
    obtain ⟨s, hs⟩ := fate_eq db inventoryId newStored x
    rw [hs]
    rfl
  rw [requirementsOf_after hfate, totalAmount_map hamount, ← totalAmount_append]
  apply totalAmount_perm
  refine (List.perm_ext_iff_of_nodup (h.keyed.nodup.filter _) ?_).mpr fun r => ?_
  · rw [List.nodup_append']
    refine ⟨(nodup_requirementsOf_of_needCounted h).filter _, nodup_granted h, ?_⟩
    intro r hstays hgranted
    obtain ⟨hstays, hnot⟩ := List.mem_filter.mp hstays
    have hstate := (mem_requirementsOf.mp hstays).2.2.1
    rcases (mem_waitingOrder.mp (granted_subset hgranted)).2 with hopen | hs
    · rcases openRequirement_state hopen with hopen | hopen <;> simp [hopen] at hstate
    · exact decide_eq_true_iff.mp hnot hs
  · rw [List.mem_append, List.mem_filter, List.mem_filter, mem_requirementsOf, state_fate]
    by_cases hgranted : r ∈ granted db inventoryId newStored
    · obtain ⟨hr, hwaiting⟩ := mem_waitingOrder.mp (granted_subset hgranted)
      have hlink : r.upholsteryInventoryId = some inventoryId ∧ r.isDeleted = false := by
        rcases hwaiting with hopen | hs
        · exact ⟨(mem_requirementsOf.mp hopen).2.1, (mem_requirementsOf.mp hopen).2.2.2⟩
        · exact ⟨(mem_requirementsOf.mp hs.1).2.1, (mem_requirementsOf.mp hs.1).2.2.2⟩
      simp [hgranted, hr, hlink.1, hlink.2]
    · by_cases hs : Surrendered db inventoryId newStored r
      · simp [hgranted, hs]
      · simp [hgranted, hs, and_assoc]

/-- The stock is allocated after every change of it. -/
theorem allocated_after (h : db.NeedCounted inventoryId) (hnonneg : 0 ≤ newStored) :
    db'.Allocated inventoryId newStored := by
  have htotal := totalAmount_available_after hfate h
  have hleft : db'.leftOf inventoryId newStored =
      leftover db inventoryId newStored - totalAmount (granted db inventoryId newStored) := by
    rw [Db.leftOf, htotal, leftover, sub_sub]
  constructor
  · rw [← sub_nonneg]
    refine (sub_nonneg.mpr (totalAmount_resolvedRequirements_le (leftover_nonneg h hnonneg)
      (waitingOrder db inventoryId newStored))).trans_eq ?_
    rw [← served, ← granted, ← hleft]
    rfl
  · intro x hx
    rw [requirementsOf_after hfate] at hx
    obtain ⟨r, hr, rfl⟩ := List.mem_map.mp hx
    obtain ⟨hr, hopen⟩ := List.mem_filter.mp hr
    have hamount : (fate db inventoryId newStored r).amount = r.amount := by
      obtain ⟨s, hs⟩ := fate_eq db inventoryId newStored r
      rw [hs]
      rfl
    rw [state_fate] at hopen
    rw [hleft, hamount]
    have hnot : r ∉ granted db inventoryId newStored := by
      intro hgranted
      simp [hgranted] at hopen
    refine lt_amount_of_not_served (fun x hx => ?_) ?_ hnot
    · exact h.amount_nonneg x (mem_waitingOrder.mp hx).1
    · refine mem_waitingOrder.mpr ⟨hr, ?_⟩
      by_cases hs : Surrendered db inventoryId newStored r
      · exact .inr hs
      · left
        rw [if_neg hnot, if_neg hs] at hopen
        exact List.mem_filter.mpr ⟨hr, hopen⟩

end After

section Settled

variable {amount : Meters} {o : StoredOutcome} {inv : UpholsteryInventory}

/-- The requirements that came into stock are the served ones, when no demoted one is served. -/
theorem changedInto_available_perm {db' : Db} (h : db.NeedCounted inventoryId)
    (hfate : db'.requirements = db.requirements.map (fate db inventoryId newStored))
    (hstays : ∀ r ∈ granted db inventoryId newStored, ¬ Surrendered db inventoryId newStored r) :
    (granted db inventoryId newStored).Perm (changedInto db' db (· ≠ .available) .available) := by
  refine (List.perm_ext_iff_of_nodup (nodup_granted h) (h.keyed.nodup.filter _)).mpr fun r => ?_
  rw [List.mem_filter]
  constructor
  · intro hgranted
    obtain ⟨hr, hwaiting⟩ := mem_waitingOrder.mp (granted_subset hgranted)
    have hopen := openRequirement_state (hwaiting.resolve_right (hstays r hgranted))
    refine ⟨hr, ?_⟩
    rw [requirementState?_after hfate h hr, state_fate, if_pos hgranted]
    rcases hopen with hopen | hopen <;> simp [hopen]
  · rintro ⟨hr, hchange⟩
    rw [requirementState?_after hfate h hr, state_fate] at hchange
    by_contra hgranted
    rw [if_neg hgranted] at hchange
    split at hchange
    · simp at hchange
    · simp at hchange

/-- The requirements that lost their stock are the demoted ones, when none of them is served. -/
theorem changedInto_needsOrdering_perm {db' : Db} (h : db.NeedCounted inventoryId)
    (hfate : db'.requirements = db.requirements.map (fate db inventoryId newStored))
    (hstays : ∀ r ∈ granted db inventoryId newStored, ¬ Surrendered db inventoryId newStored r) :
    (demotedBy (db.requirementsOf inventoryId [.available]) newStored
      db.fetchEarliestReadyByAt).Perm (changedInto db' db (· = .available) .needsOrdering) := by
  refine (List.perm_ext_iff_of_nodup (nodup_demotedBy h) (h.keyed.nodup.filter _)).mpr fun r => ?_
  rw [List.mem_filter, mem_demotedBy h]
  constructor
  · intro hs
    obtain ⟨hr, -, hstate, -⟩ := mem_requirementsOf.mp hs.1
    refine ⟨hr, ?_⟩
    rw [requirementState?_after hfate h hr, state_fate, if_neg fun hg => hstays r hg hs, if_pos hs,
      List.mem_singleton.mp hstate]
    rfl
  · rintro ⟨hr, hchange⟩
    rw [requirementState?_after hfate h hr, state_fate] at hchange
    by_contra hs
    rw [if_neg hs] at hchange
    split at hchange
    · simp at hchange
    · simp only [Bool.and_eq_true, decide_eq_true_eq, beq_iff_eq, Option.some.injEq] at hchange
      rw [hchange.1] at hchange
      cases hchange.2

/-- The stock is allocated and its changes announced rightly exactly when no surrendered
requirement is served again. -/
theorem set_stored_amount_settles_iff (h : db.NeedCounted inventoryId)
    (hload : db.loadInventory inventoryId = .ok inv)
    (hok : setStoredOutcome db inventoryId amount = .ok o) :
    Settles db inventoryId amount.toColumn o ↔
      SettlesWhen db inventoryId amount.toColumn inv := by
  unfold SettlesWhen
  split
  · next hsame =>
    have hunchanged : o = ⟨db, [], []⟩ := by
      obtain ⟨-, hok⟩ := throwIf_bind_eq_ok.mp hok
      obtain ⟨inv', hload', hok⟩ := bind_eq_ok.mp hok
      cases hload.symm.trans hload'
      rw [if_pos hsame] at hok
      exact (Except.ok.inj hok).symm
    subst hunchanged
    have hnone : ∀ p s, (∀ t, p t → t ≠ s) → changedInto db db p s = [] := by
      intro p s hps
      rw [changedInto, List.filter_eq_nil_iff]
      intro r hr hchange
      have hstate : db.requirementState? r.clientId = some r.state := by
        rw [Db.requirementState?, h.keyed.find?_eq hr]
        rfl
      rw [hstate] at hchange
      simp only [Bool.and_eq_true, beq_iff_eq, Option.some.injEq] at hchange
      exact hps r.state hchange.1 hchange.2
    constructor
    · exact Settles.allocated
    · intro hallocated
      refine ⟨hallocated, fun r hr => absurd hr List.not_mem_nil, ?_, ?_⟩
      · rw [hnone _ _ fun t ht => by simpa using ht]
        exact .nil
      · rw [hnone _ _ fun t ht => by rw [decide_eq_true_iff.mp ht]; decide]
        exact .nil
  · next hne =>
    have hnonneg : 0 ≤ amount.toColumn := not_lt.mp (throwIf_bind_eq_ok.mp hok).1
    obtain ⟨hfate, hpromoted, hdemoted⟩ := setStoredOutcome_fate h hload hne hok
    rw [stays_iff, ← granted]
    constructor
    · intro hsettles r hgranted hs
      refine hsettles.notDemoted r (by rwa [hdemoted, mem_demotedBy h]) ?_
      rw [requirementState?_after hfate h (mem_requirementsOf.mp hs.1).1, state_fate,
        if_pos hgranted]
    · intro hstays
      refine ⟨allocated_after hfate h hnonneg, ?_, ?_, ?_⟩
      · intro r hr
        rw [hdemoted, mem_demotedBy h] at hr
        rw [requirementState?_after hfate h (mem_requirementsOf.mp hr.1).1, state_fate,
          if_neg fun hg => hstays r hg hr, if_pos hr]
        decide
      · rw [StoredOutcome.promotedIds, hpromoted, List.map_map]
        have hid : (granted db inventoryId amount.toColumn).map
            (ItemUpholsteryRequirement.itemUpholsteryId ∘ demote db inventoryId amount.toColumn) =
              (granted db inventoryId amount.toColumn).map
                ItemUpholsteryRequirement.itemUpholsteryId := by
          refine List.map_congr_left fun r _ => ?_
          obtain ⟨s, hs⟩ := demote_eq db inventoryId amount.toColumn r
          rw [Function.comp_apply, hs]
        rw [hid]
        exact (changedInto_available_perm h hfate hstays).map _
      · rw [StoredOutcome.demotedIds, hdemoted]
        exact (changedInto_needsOrdering_perm h hfate hstays).map _

/-- A metre without a date and five metres with one, all of them in stock. -/
def bench : Db where
  upholsteries := []
  upholsteryInventory := [⟨"row", "velvet", .lowStock, 6000, 6000, 0, 0, 0, 0, 0, 0, none, false⟩]
  itemUpholsteries := [⟨"stool", "i1", some "velvet", some 1000, .internal, some "a", false⟩,
    ⟨"sofa", "i2", some "velvet", some 5000, .internal, some "b", false⟩]
  requirements := [⟨"a", "stool", some "row", some 1000, .inventory, .available,
    0, none, none, false⟩,
    ⟨"b", "sofa", some "row", some 5000, .inventory, .available, 0, none, none, false⟩]
  orders := []
  items := [⟨"i1", false⟩, ⟨"i2", false⟩]
  tasks := [⟨"t", .working, some 10, false, none⟩]
  taskItems := [⟨"t", "i2", true, false⟩]
  clamped := false

theorem bench_balanced : bench.Balanced where
  books :=
    { inventoryKeyed := by decide +kernel
      requirementsKeyed := by decide +kernel
      linked := by decide +kernel
      amount_nonneg := by decide +kernel
      inNeed := by decide +kernel
      inUse := by decide +kernel
      granted := by decide +kernel }
  unclamped := rfl

def benchRow : UpholsteryInventory :=
  ⟨"row", "velvet", .lowStock, 6000, 6000, 0, 0, 0, 0, 0, 0, none, false⟩

/-- Of five metres, the sofa keeps its share and the stool loses it. -/
theorem set_stored_amount_settles_bench :
    ∃ o, setStoredOutcome bench "row" 5 = .ok o ∧ o.demotedIds = ["stool"] ∧
      Settles bench "row" (5 : Meters).toColumn o := by
  have hrun : ((setStoredOutcome bench "row" 5).map StoredOutcome.demotedIds).toOption =
      some ["stool"] := by decide +kernel
  have hload : bench.loadInventory "row" = .ok benchRow := by decide +kernel
  cases hok : setStoredOutcome bench "row" 5 with
  | error e =>
    rw [hok] at hrun
    cases hrun
  | ok o =>
    rw [hok] at hrun
    refine ⟨o, rfl, Option.some.inj hrun,
      (set_stored_amount_settles_iff bench_balanced.needCounted hload hok).mpr ?_⟩
    · rw [SettlesWhen, if_neg (by decide +kernel), stays_iff]
      decide +kernel

/-- Of two metres, the stool is demoted and served again, and announced twice. -/
theorem demoted_served_again :
    bench.Balanced ∧ ∃ o, setStoredOutcome bench "row" 2 = .ok o ∧
      o.demotedIds = ["stool", "sofa"] ∧ o.promotedIds = ["stool"] ∧
      ¬ Settles bench "row" (2 : Meters).toColumn o := by
  refine ⟨bench_balanced, ?_⟩
  have hrun : ((setStoredOutcome bench "row" 2).map fun o =>
      (o.demotedIds, o.promotedIds, o.demoted.map fun r => o.db.requirementState? r.clientId)
        ).toOption = some (["stool", "sofa"], ["stool"],
          [some .available, some .needsOrdering]) := by
    decide +kernel
  cases hok : setStoredOutcome bench "row" 2 with
  | error e =>
    rw [hok] at hrun
    cases hrun
  | ok o =>
    rw [hok] at hrun
    obtain ⟨hdemoted, hrest⟩ := Prod.mk.inj (Option.some.inj hrun)
    obtain ⟨hpromoted, hstates⟩ := Prod.mk.inj hrest
    refine ⟨o, rfl, hdemoted, hpromoted, fun hsettles => ?_⟩
    have hmem : some RequirementState.available ∈
        o.demoted.map fun r => o.db.requirementState? r.clientId := by
      rw [hstates]
      exact List.mem_cons_self
    obtain ⟨r, hr, hstate⟩ := List.mem_map.mp hmem
    exact hsettles.notDemoted r hr hstate

end Settled

end BeyoManager.Upholstery
