import BeyoManager.Upholstery.Run
import BeyoManager.Upholstery.StockLedger

/-! # The ledger over whole runs

Every command keeps the books, but for an amount that the decimals do not hold exactly and for a
surplus that splits a requirement halfway between two thousandths of a metre. Stock that has been
granted is there when it is taken.
-/

namespace BeyoManager.Upholstery

open Relational Transition

variable {db db' : Db} {now : Instant}

/-- The amount of the request that the command counts into an inventory row as it is; the others
are rounded to a column before they are counted, or counted into no row. -/
def Op.countedAmount (db : Db) : Op → Option Meters
  | .confirmOrderedToStock _ amount | .updateQuantity _ amount _ | .applySurplus _ amount _ =>
    some amount
  | .createItemUpholstery request _ _ _ | .createItem request _ _ _ =>
    db.countedAmount request.itemId request.source request.amountMeters
  | .createTask itemId data _ _ _ =>
    db.countedAmount itemId data.source data.amountMeters.join
  | .updateItemUpholstery request _ _ => db.countedUpdate request
  | _ => none

/-- The amount that the command counts has at most 14 digits after the point. -/
def Op.CountsShort (db : Db) (op : Op) : Prop :=
  ∀ amount ∈ op.countedAmount db, Meters.IsShort amount

/-- The command splits a requirement halfway between two thousandths of a metre. -/
def Op.SplitsAtTie (db : Db) : Op → Prop
  | .applySurplus itemUpholsteryId amount _ => db.splitsAtTie itemUpholsteryId amount
  | _ => False

/-- Every command that counts a short amount keeps the books, unless it splits a requirement at a
tie. -/
theorem execute_sound {op : Op} (h : db.Sound) (hshort : op.CountsShort db)
    (htie : ¬ op.SplitsAtTie db)
    (hok : op.execute db now = .ok db') : db'.Sound := by
  have hk := h.balanced.books.requirementsKeyed
  cases op with
  | createUpholstery =>
    exact (createUpholstery_narrows hok).sound h (createUpholstery_balanced h.balanced hok)
  | createUpholsteryInventory =>
    exact (createUpholsteryInventory_narrows hok).sound h
      (createUpholsteryInventory_balanced h.balanced hok)
  | updateUpholsteryInventory =>
    exact (updateUpholsteryInventory_narrows hok).sound h
      (updateUpholsteryInventory_balanced h.balanced hok)
  | addOrderedToInventory =>
    exact (addOrderedToInventory_narrows hok).sound h
      (addOrderedToInventory_balanced h.balanced hok)
  | confirmOrderedToStock =>
    exact (confirmOrderedToStockInventory_narrows hok).sound h
      (confirmOrderedToStockInventory_balanced h.balanced (hshort _ rfl) hok)
  | setCurrentStoredAmount =>
    exact (setCurrentStoredAmountInventory_narrows hk hok).sound h
      (setCurrentStoredAmountInventory_balanced h.balanced hok)
  | createOrder =>
    exact (createUpholsteryOrder_narrows hk hok).sound h
      (createUpholsteryOrder_balanced h.balanced hok)
  | receiveOrder =>
    exact (receiveUpholsteryOrder_narrows hk hok).sound h
      (receiveUpholsteryOrder_balanced h.balanced hok)
  | markOrdered =>
    exact (markRequirementsOrdered_narrows hk hok).sound h
      (markRequirementsOrdered_balanced h.balanced hok)
  | resolveAfterStock =>
    exact (resolveRequirementsAfterStock_narrows hk hok).sound h
      (resolveRequirementsAfterStock_balanced h.balanced hok)
  | reallocateStock =>
    exact (reallocateStock_narrows hk hok).sound h (reallocateStock_balanced h.balanced hok)
  | createItemUpholstery => exact createItemUpholstery_sound h hshort hok
  | createItem => exact createItemWithUpholstery_sound h hshort hok
  | createTask => exact createTaskItemUpholstery_sound h hshort hok
  | updateItemUpholstery => exact updateItemUpholstery_request_sound h hshort hok
  | deleteItemUpholstery => exact deleteItemUpholstery_sound h hok
  | updateQuantity => exact updateRequirementQuantity_sound h (hshort _ rfl) hok
  | applySurplus => exact applySurplusToRequirement_sound h (hshort _ rfl) htie hok
  | markInUse =>
    exact (markRequirementsInUse_narrows hk hok).sound h
      (markRequirementsInUse_balanced h.balanced hok)
  | markCompleted =>
    exact (markRequirementsCompleted_narrows hok).sound h
      (markRequirementsCompleted_balanced h.balanced hok)
  | completeSingle =>
    exact (completeSingleRequirement_narrows hok).sound h
      (completeSingleRequirement_balanced h.balanced hok)
  | installationSideEffect =>
    exact (applyUpholsteryInstallationSideEffect_narrows hk hok).sound h
      (applyUpholsteryInstallationSideEffect_balanced h.balanced hok)
  | deleteTask => exact deleteTask_sound h hok
  | restoreTask => exact restoreTask_sound h hok
  | elsewhere =>
    cases hok
    exact ⟨⟨h.balanced.books, h.balanced.unclamped⟩, h.selected⟩

theorem withoutUpholstery_sound (db : Db) : db.withoutUpholstery.Sound := by
  refine ⟨⟨⟨keyed_nil, keyed_nil, ?_, ?_, ?_, ?_, ?_⟩, rfl⟩, ?_⟩ <;>
    simp [Db.withoutUpholstery]

section Stock

variable {r : ItemUpholsteryRequirement} {i : UpholsteryInventory} {inventoryId : ClientId}
  {message : String}

theorem loadInventory_ne_validation :
    db.loadInventory inventoryId ≠ .error (.validation message) := by
  unfold Db.loadInventory getOr
  split <;> simp

theorem amountMeters_ne_validation :
    getOr CommandError.typeError r.amountMeters ≠ .error (.validation message) := by
  cases r.amountMeters <;> simp [getOr]

variable (h : db.Balanced) (hr : r ∈ db.requirements) (hd : r.isDeleted = false)
include h hr hd

/-- An available requirement is not refused for lack of stock when it is started. -/
theorem startRequirement_ne_validation (hs : r.state = .available) :
    startRequirement db r ≠ .error (.validation message) := by
  intro herror
  unfold startRequirement at herror
  cases hlink : r.upholsteryInventoryId with
  | none =>
    simp only [hlink] at herror
    cases herror
  | some inventoryId =>
    simp only [hlink] at herror
    rcases bind_eq_error.mp herror with hq | ⟨quantity, hq, herror⟩
    · exact amountMeters_ne_validation hq
    have hamount : r.amount = quantity := by
      rw [ItemUpholsteryRequirement.amount, getOr_eq_ok.mp hq, Option.getD_some]
    rcases bind_eq_error.mp herror with hconsume | ⟨db₁, -, herror⟩
    · rcases bind_eq_error.mp hconsume with hload | ⟨i, hload, hconsume⟩
      · exact loadInventory_ne_validation hload
      obtain ⟨hi, rfl⟩ := loadInventory_eq_ok hload
      have hstored := amount_le_stored h.books hi hr hlink hd hs
      rw [hamount] at hstored
      rcases throwIf_bind_eq_error.mp hconsume with ⟨hlt, -⟩ | ⟨-, hconsume⟩
      · exact hlt.not_ge (FixedScale.value_sub_nonneg.mpr hstored)
      · cases hconsume
    · cases herror

/-- A requirement that is in use or available is not refused when it is completed. -/
theorem completeRequirement_ne_validation (hs : r.state = .inUse ∨ r.state = .available) :
    completeRequirement db r ≠ .error (.validation message) := by
  intro herror
  unfold completeRequirement at herror
  cases hlink : r.upholsteryInventoryId with
  | none =>
    simp only [hlink] at herror
    cases herror
  | some inventoryId =>
    simp only [hlink] at herror
    rcases bind_eq_error.mp herror with hq | ⟨quantity, hq, herror⟩
    · exact amountMeters_ne_validation hq
    have hamount : r.amount = quantity := by
      rw [ItemUpholsteryRequirement.amount, getOr_eq_ok.mp hq, Option.getD_some]
    rcases hs with hs | hs
    · rw [if_pos hs] at herror
      rcases bind_eq_error.mp herror with hfinish | ⟨db₁, -, herror⟩
      · rcases bind_eq_error.mp hfinish with hload | ⟨i, hload, hfinish⟩
        · exact loadInventory_ne_validation hload
        obtain ⟨hi, rfl⟩ := loadInventory_eq_ok hload
        have huse := amount_le_inUse h.books hi hr hlink hd hs
        rw [hamount] at huse
        rcases throwIf_bind_eq_error.mp hfinish with ⟨hlt, -⟩ | ⟨-, hfinish⟩
        · exact hlt.not_ge (FixedScale.value_sub_nonneg.mpr huse)
        · cases hfinish
      · cases herror
    · rw [if_neg (by simp [hs])] at herror
      rcases bind_eq_error.mp herror with hdirect | ⟨db₁, -, herror⟩
      · rcases bind_eq_error.mp hdirect with hload | ⟨i, hload, hdirect⟩
        · exact loadInventory_ne_validation hload
        obtain ⟨hi, rfl⟩ := loadInventory_eq_ok hload
        have hstored := amount_le_stored h.books hi hr hlink hd hs
        rw [hamount] at hstored
        rcases throwIf_bind_eq_error.mp hdirect with ⟨hlt, -⟩ | ⟨-, hdirect⟩
        · exact hlt.not_ge (FixedScale.value_sub_nonneg.mpr hstored)
        · cases hdirect
      · cases herror

end Stock

section Loops

variable {itemUpholsteryId : ClientId} {message : String}

theorem startRequirements_ne_validation (h : db.Balanced) :
    (db.ownRequirements itemUpholsteryId [.available]).foldlM startRequirement db ≠
      .error (.validation message) := by
  intro herror
  obtain ⟨r, hr, db₁, h₁, hr₁, herror⟩ := foldlM_balanced_eq_error startRequirement_pass
    (keyed_filter_requirements h _) h (fun _ hr => (available_of_mem hr).1) herror
  obtain ⟨-, hs, hd⟩ := available_of_mem hr
  exact startRequirement_ne_validation h₁ hr₁ hd hs herror

theorem completeRequirements_ne_validation (h : db.Balanced) :
    (db.ownRequirements itemUpholsteryId [.inUse, .available]).foldlM completeRequirement db ≠
      .error (.validation message) := by
  intro herror
  obtain ⟨r, hr, db₁, h₁, hr₁, herror⟩ := foldlM_balanced_eq_error completeRequirement_pass
    (keyed_filter_requirements h _) h (fun _ hr => (inUse_or_available_of_mem hr).1) herror
  obtain ⟨-, hs, hd⟩ := inUse_or_available_of_mem hr
  exact completeRequirement_ne_validation h₁ hr₁ hd hs herror

end Loops

section Runs

def velvetSofa : Db :=
  ⟨[⟨"velvet", "Velvet", none, false⟩], [], [], [], [], [⟨"sofa", false⟩], [], [], false⟩

def surplusRun (amount : Meters) : List Command :=
  [⟨0, .createUpholsteryInventory "inv" "velvet" none⟩,
    ⟨0, .createItemUpholstery ⟨some "iup", "sofa", some "velvet", some 1, .internal⟩ "" "need" ""⟩,
    ⟨0, .applySurplus "iup" amount "surplus"⟩]

theorem surplusRun_meets :
    Meets step (fun s c => c.op.CountsShort s.db ∧ ¬ c.op.SplitsAtTie s.db)
      ⟨0, velvetSofa.withoutUpholstery⟩ (surplusRun (1 / 4)) := by
  refine ⟨fun _ => ⟨?_, id⟩, fun _ => ⟨?_, id⟩, fun _ => ⟨?_, fun htie => ?_⟩, trivial⟩
  · rintro _ ⟨⟩
  · intro amount hamount
    obtain rfl := Option.some_inj.mp (mem_countedAmount.mp hamount).1
    exact ⟨10 ^ 14, by norm_num [FixedScale.value]⟩
  · rintro _ ⟨⟩
    exact ⟨10 ^ 14 / 4, by norm_num [FixedScale.value]⟩
  · have : Int.fract ((1 / 4 : ℚ) * 1000) = 0 := by norm_num [Int.fract]
    exact absurd (this.symm.trans htie.1) (by norm_num)

variable {clock : Instant} {commands : List Command}

theorem run_sound (hm : Meets step (fun s c => c.op.CountsShort s.db ∧ ¬ c.op.SplitsAtTie s.db)
    ⟨clock, db.withoutUpholstery⟩ commands) :
    (run ⟨clock, db.withoutUpholstery⟩ commands).db.Sound :=
  Meets.invariant (fun s => s.db.Sound)
    (fun _ _ _ h hcond hok => execute_sound h hcond.1 hcond.2 (step_eq_ok hok))
    (withoutUpholstery_sound db) hm

/-- The totals of every inventory row are those of its requirements, no amount is negative, and
no amount has been clamped, in every state of a run that counts short amounts and splits no
requirement at a tie. -/
theorem run_totals_eq (db : Db) (clock : Instant) (commands : List Command)
    (hm : Meets step (fun s c => c.op.CountsShort s.db ∧ ¬ c.op.SplitsAtTie s.db)
      ⟨clock, db.withoutUpholstery⟩ commands) :
    let db' := (run ⟨clock, db.withoutUpholstery⟩ commands).db
    (∀ i ∈ db'.upholsteryInventory,
      i.currentInNeed = claimed RequirementState.isDemand i.clientId db'.requirements ∧
      i.currentInUse = claimed RequirementState.isInUse i.clientId db'.requirements ∧
      0 ≤ i.currentStored ∧ 0 ≤ i.currentInNeed ∧ 0 ≤ i.currentInUse) ∧
    db'.clamped = false := by
  have h := (run_sound hm).balanced
  refine ⟨fun i hi => ⟨h.books.inNeed i hi, h.books.inUse i hi, currentStored_nonneg h.books hi,
    inNeed_nonneg h.books hi, ?_⟩, h.unclamped⟩
  rw [h.books.inUse i hi]
  exact claimed_nonneg h.books.amount_nonneg

theorem run_totals_eq_surplusRun :
    let db' := (run ⟨0, velvetSofa.withoutUpholstery⟩ (surplusRun (1 / 4))).db
    (∀ i ∈ db'.upholsteryInventory,
      i.currentInNeed = claimed RequirementState.isDemand i.clientId db'.requirements ∧
      i.currentInUse = claimed RequirementState.isInUse i.clientId db'.requirements ∧
      0 ≤ i.currentStored ∧ 0 ≤ i.currentInNeed ∧ 0 ≤ i.currentInUse) ∧
    db'.clamped = false :=
  run_totals_eq velvetSofa 0 (surplusRun (1 / 4)) surplusRun_meets

/-- A surplus of half a millimetre is counted as stock and stays in the need as well; a use of it
is clamped later on. -/
theorem totals_drift_at_tie :
    (∃ i ∈ (run ⟨0, velvetSofa.withoutUpholstery⟩
        (surplusRun (1 / 2000))).db.upholsteryInventory,
      i.currentInNeed ≠ claimed RequirementState.isDemand i.clientId
        (run ⟨0, velvetSofa.withoutUpholstery⟩ (surplusRun (1 / 2000))).db.requirements) ∧
    (run ⟨0, velvetSofa.withoutUpholstery⟩ (surplusRun (1 / 2000) ++
      [⟨0, .markInUse "iup"⟩, ⟨0, .setCurrentStoredAmount "inv" 1⟩,
        ⟨0, .markInUse "iup"⟩])).db.clamped = true := by
  decide +kernel

/-- So is a surplus that lies halfway once its difference is rounded to 28 digits. -/
example : ∃ i ∈ (run ⟨0, velvetSofa.withoutUpholstery⟩
    (surplusRun (1 / 2000 + 1 / 10 ^ 35))).db.upholsteryInventory,
    i.currentInNeed ≠ claimed RequirementState.isDemand i.clientId
      (run ⟨0, velvetSofa.withoutUpholstery⟩
        (surplusRun (1 / 2000 + 1 / 10 ^ 35))).db.requirements := by
  decide +kernel

/-- No more stock is granted than there is, and what has been granted is not refused, in every
state of a run that counts short amounts and splits no requirement at a tie. -/
theorem run_granted_le_stored (db : Db) (clock : Instant) (commands : List Command)
    (hm : Meets step (fun s c => c.op.CountsShort s.db ∧ ¬ c.op.SplitsAtTie s.db)
      ⟨clock, db.withoutUpholstery⟩ commands) :
    let db' := (run ⟨clock, db.withoutUpholstery⟩ commands).db
    (∀ i ∈ db'.upholsteryInventory,
      claimed RequirementState.isAvailable i.clientId db'.requirements ≤ i.currentStored) ∧
    (∀ r ∈ db'.requirements, r.state = .available → r.isDeleted = false → ∀ message,
      startRequirement db' r ≠ .error (.validation message) ∧
        completeRequirement db' r ≠ .error (.validation message)) ∧
    ∀ itemUpholsteryId message,
      (db'.ownRequirements itemUpholsteryId [.available]).foldlM startRequirement db' ≠
        .error (.validation message) ∧
      (db'.ownRequirements itemUpholsteryId [.inUse, .available]).foldlM completeRequirement db' ≠
        .error (.validation message) := by
  have h := (run_sound hm).balanced
  exact ⟨h.books.granted, fun r hr hs hd _ => ⟨startRequirement_ne_validation h hr hd hs,
      completeRequirement_ne_validation h hr hd (.inr hs)⟩,
    fun _ _ => ⟨startRequirements_ne_validation h, completeRequirements_ne_validation h⟩⟩

theorem run_granted_le_stored_surplusRun :
    let db' := (run ⟨0, velvetSofa.withoutUpholstery⟩ (surplusRun (1 / 4))).db
    (∀ i ∈ db'.upholsteryInventory,
      claimed RequirementState.isAvailable i.clientId db'.requirements ≤ i.currentStored) ∧
    (∀ r ∈ db'.requirements, r.state = .available → r.isDeleted = false → ∀ message,
      startRequirement db' r ≠ .error (.validation message) ∧
        completeRequirement db' r ≠ .error (.validation message)) ∧
    ∀ itemUpholsteryId message,
      (db'.ownRequirements itemUpholsteryId [.available]).foldlM startRequirement db' ≠
        .error (.validation message) ∧
      (db'.ownRequirements itemUpholsteryId [.inUse, .available]).foldlM completeRequirement db' ≠
        .error (.validation message) :=
  run_granted_le_stored velvetSofa 0 (surplusRun (1 / 4)) surplusRun_meets

/-- The half millimetre that stays in the need is granted twice. -/
theorem granted_exceeds_stored_at_tie :
    let db' := (run ⟨0, velvetSofa.withoutUpholstery⟩
      (surplusRun (1 / 2000) ++ [⟨0, .setCurrentStoredAmount "inv" 1⟩])).db
    (∃ i ∈ db'.upholsteryInventory,
      i.currentStored < claimed RequirementState.isAvailable i.clientId db'.requirements) ∧
    markRequirementsInUse db' "iup" = .error (.validation ("Not enough upholstery in stored " ++
      "inventory to start production — please add more stock before marking in-use.")) := by
  decide +kernel

end Runs

end BeyoManager.Upholstery
