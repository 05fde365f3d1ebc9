import BeyoManager.Upholstery.Ledger

/-! # The condition of an inventory row

The condition is derived from the stock, the need and the threshold of a row. The helpers derive
it before the columns round the amounts, and they leave it alone where stock and need fall
together; a command that writes whole thousandths and re-evaluates what it changes keeps it.
-/

namespace BeyoManager.Upholstery

open Relational Transition

variable {db db' : Db} {now : Instant} {i inv : UpholsteryInventory}
  {r : ItemUpholsteryRequirement} {inventoryId itemUpholsteryId newItemUpholsteryId
  newRequirementId newInventoryId : ClientId} {upholsteryId : Option ClientId} {quantity : Meters}

abbrev Meters.IsWhole (x : Meters) : Prop := FixedScale.Exact 1000 x

theorem Meters.IsWhole.isShort (h : quantity.IsWhole) : quantity.IsShort := by
  obtain ⟨n, rfl⟩ := h
  exact MetersColumn.isShort n

def UpholsteryInventory.Lawful (i : UpholsteryInventory) : Prop :=
  i.inventoryCondition =
    evaluateInventoryCondition i.currentStored.value i.currentInNeed.value i.threshold

def Db.Lawful (db : Db) : Prop := ∀ i ∈ db.upholsteryInventory, i.Lawful

theorem evaluateInventoryCondition_congr {stored inNeed stored' inNeed' : Meters}
    {threshold : Option Meters} (h : stored - inNeed = stored' - inNeed') :
    evaluateInventoryCondition stored inNeed threshold =
      evaluateInventoryCondition stored' inNeed' threshold := by
  simp only [evaluateInventoryCondition, h]

theorem Db.Lawful.of_eq (h : db.Lawful)
    (he : db'.upholsteryInventory = db.upholsteryInventory) : db'.Lawful := by
  unfold Db.Lawful
  rwa [he]

section Helpers

theorem updateInventory_lawful {f : UpholsteryInventory → UpholsteryInventory}
    (h : ∀ i ∈ db.upholsteryInventory, i.clientId ≠ inventoryId → i.Lawful)
    (hf : ∀ i ∈ db.upholsteryInventory, i.clientId = inventoryId → (f i).Lawful) :
    (db.updateInventory inventoryId f).Lawful := by
  intro y hy
  obtain ⟨i, hi, rfl⟩ := mem_updateWhere.mp hy
  split
  · rename_i hid
    exact hf i hi (beq_iff_eq.mp hid)
  · rename_i hid
    exact h i hi (by simpa using hid)

variable (hk : Keyed UpholsteryInventory.clientId db.upholsteryInventory)
include hk

theorem updateLoaded_lawful {f : UpholsteryInventory → UpholsteryInventory}
    (h : db.Lawful) (hinv : inv ∈ db.upholsteryInventory) (hf : (f inv).Lawful) :
    (db.updateInventory inv.clientId f).Lawful := by
  refine updateInventory_lawful (fun i hi _ => h i hi) fun i hi hid => ?_
  rwa [hk.inj hi hinv hid]

theorem confirmOrderedToStock_lawful (h : db.Lawful) (hq : quantity.IsWhole)
    (hok : db.confirmOrderedToStock inventoryId quantity = .ok db') : db'.Lawful := by
  obtain ⟨inv, hload, hok⟩ := bind_eq_ok.mp hok
  obtain ⟨hi, rfl⟩ := loadInventory_eq_ok hload
  obtain ⟨-, hok⟩ := throwIf_bind_eq_ok.mp hok
  cases hok
  refine updateLoaded_lawful hk h hi ?_
  have hstored := ((FixedScale.exact_value inv.currentStored).add hq).value_store
  simp only [UpholsteryInventory.Lawful, MetersColumn.value, Meters.toColumn,
    hq.isShort.rounded_value_add, hstored]
  rfl

theorem addStoredSurplus_lawful (h : db.Lawful) (hq : quantity.IsWhole)
    (hok : db.addStoredSurplus inventoryId quantity = .ok db') : db'.Lawful := by
  obtain ⟨inv, hload, hok⟩ := bind_eq_ok.mp hok
  obtain ⟨hi, rfl⟩ := loadInventory_eq_ok hload
  cases hok
  refine updateLoaded_lawful hk h hi ?_
  have hstored := ((FixedScale.exact_value inv.currentStored).add hq).value_store
  simp only [UpholsteryInventory.Lawful, MetersColumn.value, Meters.toColumn,
    hq.isShort.rounded_value_add, hstored]
  rfl

theorem adjustNeed_lawful {result : NeedResult} (h : db.Lawful) (hq : quantity.IsWhole)
    (hok : db.adjustNeed inventoryId quantity = .ok (db', result)) : db'.Lawful := by
  obtain ⟨inv, hload, hok⟩ := bind_eq_ok.mp hok
  obtain ⟨hi, rfl⟩ := loadInventory_eq_ok hload
  cases hok
  refine updateLoaded_lawful hk h hi ?_
  have hneed := ((FixedScale.exact_value inv.currentInNeed).add hq).max_zero.value_store
  simp only [UpholsteryInventory.Lawful, MetersColumn.value, Meters.toColumn,
    hq.isShort.rounded_value_add, hneed]
  rfl

theorem rollbackInUseToStored_lawful (h : db.Lawful) (hq : quantity.IsWhole)
    (hok : db.rollbackInUseToStored inventoryId quantity = .ok db') : db'.Lawful := by
  obtain ⟨inv, hload, hok⟩ := bind_eq_ok.mp hok
  obtain ⟨hi, rfl⟩ := loadInventory_eq_ok hload
  obtain ⟨-, hok⟩ := throwIf_bind_eq_ok.mp hok
  cases hok
  refine updateLoaded_lawful hk h hi ?_
  have hstored := ((FixedScale.exact_value inv.currentStored).add hq).value_store
  simp only [UpholsteryInventory.Lawful, MetersColumn.value, Meters.toColumn, hstored]
  rfl

theorem addOrdered_lawful (h : db.Lawful) (hok : db.addOrdered inventoryId quantity = .ok db') :
    db'.Lawful := by
  obtain ⟨inv, hload, hok⟩ := bind_eq_ok.mp hok
  obtain ⟨hi, rfl⟩ := loadInventory_eq_ok hload
  cases hok
  exact updateLoaded_lawful hk h hi (h inv hi)

theorem finishInUse_lawful {source : RequirementSource} (h : db.Lawful)
    (hok : db.finishInUse inventoryId quantity source = .ok db') : db'.Lawful := by
  obtain ⟨inv, hload, hok⟩ := bind_eq_ok.mp hok
  obtain ⟨hi, rfl⟩ := loadInventory_eq_ok hload
  obtain ⟨-, hok⟩ := throwIf_bind_eq_ok.mp hok
  cases hok
  refine updateLoaded_lawful hk h hi ?_
  have := h inv hi
  cases source <;> exact this

end Helpers

theorem lawful_of_same_net (h : inv.Lawful) {n : MetersColumn}
    (hcondition : i.inventoryCondition = inv.inventoryCondition)
    (hstored : i.currentStored = inv.currentStored - n)
    (hinNeed : i.currentInNeed = inv.currentInNeed - n) (hthreshold : i.threshold = inv.threshold) :
    i.Lawful := by
  rw [UpholsteryInventory.Lawful, hcondition, h, hthreshold, hstored, hinNeed]
  refine evaluateInventoryCondition_congr ?_
  simp only [MetersColumn.value, FixedScale.value_sub]
  ring

section Production

variable (h : db.Balanced) (hl : db.Lawful) (hr : r ∈ db.requirements) (hd : r.isDeleted = false)
include h hl hr hd

theorem startRequirement_lawful (hs : r.state = .available)
    (hok : startRequirement db r = .ok db') : db'.Lawful := by
  unfold startRequirement at hok
  cases hlink : r.upholsteryInventoryId with
  | none =>
    simp only [hlink] at hok
    cases hok
    exact hl
  | some inventoryId =>
    simp only [hlink] at hok
    obtain ⟨quantity, hq, hok⟩ := bind_eq_ok.mp hok
    have hamount : r.amount = quantity := by
      rw [ItemUpholsteryRequirement.amount, getOr_eq_ok.mp hq, Option.getD_some]
    obtain ⟨db₁, hconsume, hok⟩ := bind_eq_ok.mp hok
    cases hok
    obtain ⟨i, hload, hok⟩ := bind_eq_ok.mp hconsume
    obtain ⟨hi, rfl⟩ := loadInventory_eq_ok hload
    obtain ⟨-, hok⟩ := throwIf_bind_eq_ok.mp hok
    cases hok
    have hneed := amount_le_inNeed h.books hi hr hlink hd (by rw [hs]; rfl)
    rw [hamount] at hneed
    refine updateLoaded_lawful h.books.inventoryKeyed hl hi (lawful_of_same_net (hl i hi)
      (n := quantity) rfl (by simp) ?_ rfl)
    simp [FixedScale.max_zero_value_sub hneed]

theorem completeRequirement_lawful (hs : r.state = .inUse ∨ r.state = .available)
    (hok : completeRequirement db r = .ok db') : db'.Lawful := by
  unfold completeRequirement at hok
  cases hlink : r.upholsteryInventoryId with
  | none =>
    simp only [hlink] at hok
    cases hok
    exact hl
  | some inventoryId =>
    simp only [hlink] at hok
    obtain ⟨quantity, hq, hok⟩ := bind_eq_ok.mp hok
    have hamount : r.amount = quantity := by
      rw [ItemUpholsteryRequirement.amount, getOr_eq_ok.mp hq, Option.getD_some]
    rcases hs with hs | hs
    · rw [if_pos hs] at hok
      obtain ⟨db₁, hfinish, hok⟩ := bind_eq_ok.mp hok
      cases hok
      have h₁ : db₁.Lawful := finishInUse_lawful h.books.inventoryKeyed hl hfinish
      exact h₁
    · rw [if_neg (by simp [hs])] at hok
      obtain ⟨db₁, hdirect, hok⟩ := bind_eq_ok.mp hok
      cases hok
      obtain ⟨i, hload, hok⟩ := bind_eq_ok.mp hdirect
      obtain ⟨hi, rfl⟩ := loadInventory_eq_ok hload
      obtain ⟨-, hok⟩ := throwIf_bind_eq_ok.mp hok
      cases hok
      have hneed := amount_le_inNeed h.books hi hr hlink hd (by rw [hs]; rfl)
      rw [hamount] at hneed
      refine updateLoaded_lawful h.books.inventoryKeyed hl hi (lawful_of_same_net (hl i hi)
        (n := quantity) (by simp) (by simp) ?_ (i.use_threshold _ _))
      simp [FixedScale.max_zero_value_sub hneed]

end Production

section Loops

theorem foldlM_lawful {pass : Db → ItemUpholsteryRequirement → Except CommandError Db}
    {l : List ItemUpholsteryRequirement}
    (hpass : ∀ db r db', r ∈ l → db.Balanced → r ∈ db.requirements → pass db r = .ok db' →
      db'.Balanced ∧ ∃ f, RewritesOne r.clientId f db db')
    (hlawful : ∀ db r db', r ∈ l → db.Balanced → db.Lawful → r ∈ db.requirements →
      pass db r = .ok db' → db'.Lawful)
    (hkeyed : Keyed ItemUpholsteryRequirement.clientId l) (h : db.Balanced) (hl : db.Lawful)
    (hmem : ∀ r ∈ l, r ∈ db.requirements) (hok : l.foldlM pass db = .ok db') : db'.Lawful := by
  refine (foldlM_loop (fun rest db => Pending l rest db ∧ db.Lawful) ?_
    ⟨⟨h, hkeyed, List.Subset.refl l, hmem⟩, hl⟩ hok).2
  rintro r rest db₁ db₂ ⟨h₁, hl₁⟩ hp
  exact ⟨h₁.next hpass hp, hlawful db₁ r db₂ (h₁.subset List.mem_cons_self) h₁.balanced hl₁
    (h₁.mem r List.mem_cons_self) hp⟩

theorem startRequirements_lawful (h : db.Balanced) (hl : db.Lawful)
    (hok : (db.ownRequirements itemUpholsteryId [.available]).foldlM startRequirement db =
      .ok db') : db'.Lawful := by
  refine foldlM_lawful startRequirement_pass (fun db₁ r db₂ hr h₁ hl₁ hr₁ hp => ?_)
    (keyed_filter_requirements h _) h hl (fun _ hr => (available_of_mem hr).1) hok
  obtain ⟨-, hs, hd⟩ := available_of_mem hr
  exact startRequirement_lawful h₁ hl₁ hr₁ hd hs hp

theorem completeRequirements_lawful (h : db.Balanced) (hl : db.Lawful)
    (hok : (db.ownRequirements itemUpholsteryId [.inUse, .available]).foldlM
      completeRequirement db =
      .ok db') : db'.Lawful := by
  refine foldlM_lawful completeRequirement_pass (fun db₁ r db₂ hr h₁ hl₁ hr₁ hp => ?_)
    (keyed_filter_requirements h _) h hl (fun _ hr => (inUse_or_available_of_mem hr).1) hok
  obtain ⟨-, hs, hd⟩ := inUse_or_available_of_mem hr
  exact completeRequirement_lawful h₁ hl₁ hr₁ hd hs hp

theorem applyUpholsteryInstallationSideEffect_lawful {taskId : ClientId}
    {sectionName : Option String} {newState : TaskSteps.TaskStepState} (h : db.Balanced)
    (hl : db.Lawful)
    (hok : applyUpholsteryInstallationSideEffect db taskId sectionName newState = .ok db') :
    db'.Lawful := by
  unfold applyUpholsteryInstallationSideEffect at hok
  split at hok
  · cases hok
    exact hl
  split at hok
  · cases hok
    exact hl
  split at hok
  · cases hok
    exact hl
  refine (foldlM_invariant (fun db => db.Balanced ∧ db.Lawful) ?_ ⟨h, hl⟩ hok).2
  rintro db₁ u - db₂ ⟨h₁, hl₁⟩ hp
  unfold promoteRequirements at hp
  split at hp
  · exact ⟨startRequirements_balanced h₁ hp, startRequirements_lawful h₁ hl₁ hp⟩
  · exact ⟨completeRequirements_balanced h₁ hp, completeRequirements_lawful h₁ hl₁ hp⟩

/-- Giving back what a requirement has claimed keeps the conditions. -/
theorem cancelRequirement_lawful (hk : Keyed UpholsteryInventory.clientId db.upholsteryInventory)
    (hl : db.Lawful) (hok : cancelRequirement now db r = .ok db') : db'.Lawful := by
  unfold cancelRequirement at hok
  split at hok
  case isFalse => cases hok; exact hl
  cases hlink : r.upholsteryInventoryId with
  | none =>
    simp only [hlink] at hok
    cases hok
    exact hl
  | some inventoryId =>
    simp only [hlink] at hok
    split at hok
    case isFalse =>
      cases hok
      exact hl
    split at hok
    · obtain ⟨⟨db₁, result⟩, hadjust, hok⟩ := bind_eq_ok.mp hok
      cases hok
      have h₁ : db₁.Lawful := adjustNeed_lawful hk hl (FixedScale.exact_value _).neg hadjust
      exact h₁
    · split at hok
      · obtain ⟨db₁, hrollback, hok⟩ := bind_eq_ok.mp hok
        cases hok
        have h₁ : db₁.Lawful :=
          rollbackInUseToStored_lawful hk hl (FixedScale.exact_value _) hrollback
        exact h₁
      · cases hok
        exact hl

end Loops

section Need

/-- A need of whole thousandths, on the row that is there or on a new one. -/
theorem checkAndInjectNeed_lawful {result : NeedResult}
    (hk : Keyed UpholsteryInventory.clientId db.upholsteryInventory) (hl : db.Lawful)
    (hq : quantity.IsWhole)
    (hok : db.checkAndInjectNeed upholsteryId quantity newInventoryId = .ok (db', result)) :
    db'.Lawful := by
  obtain ⟨⟨db₀, inv⟩, hload, hok⟩ := bind_eq_ok.mp hok
  have hk₀ := (loadOrCreateInventory_rowsKept hload).1.keyed hk
  have hinv := (loadOrCreateInventory_rowsKept hload).2.1.1
  have hothers : ∀ i ∈ db₀.upholsteryInventory, i.clientId ≠ inv.clientId → i.Lawful := by
    unfold Db.loadOrCreateInventory at hload
    cases upholsteryId with
    | none => cases hload
    | some upholsteryId =>
      cases hfound : db.inventoryOf upholsteryId with
      | some inv =>
        simp only [hfound] at hload
        cases hload
        exact fun i hi _ => hl i hi
      | none =>
        simp only [hfound] at hload
        obtain ⟨db₁, hins, hload⟩ := bind_eq_ok.mp hload
        cases hload
        obtain ⟨-, rfl⟩ := insertInventory_eq_ok hins
        intro i hi hne
        rcases List.mem_append.mp hi with hi | hi
        · exact hl i hi
        · exact absurd (congrArg (·.clientId) (List.mem_singleton.mp hi)) hne
  cases hok
  refine updateInventory_lawful hothers fun i hi hid => ?_
  obtain rfl := hk₀.inj hi hinv hid
  have hneed := ((FixedScale.exact_value i.currentInNeed).add hq).value_store
  simp only [UpholsteryInventory.Lawful, MetersColumn.value, Meters.toColumn,
    hq.isShort.rounded_value_add, hneed]
  rfl

end Need

end BeyoManager.Upholstery
