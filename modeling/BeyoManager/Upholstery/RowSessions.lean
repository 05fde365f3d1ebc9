import BeyoManager.Library.ReadCommitted
import BeyoManager.Upholstery.BookEntries

/-! # Sessions over one inventory row

A command reads the inventory row without a lock, computes new amounts with the helpers and
writes the amounts that have changed. In the session an amount is an exact decimal, as that of
the helpers is for a quantity of at most 14 digits after the point; it is rounded when it is
written.
-/

namespace BeyoManager.Upholstery

open ReadCommitted Relational Transition

inductive AmountColumn
  | stored | inNeed | inUse | ordered
  deriving DecidableEq, Repr

/-- The current amounts of a row. -/
def UpholsteryInventory.amounts (i : UpholsteryInventory) : AmountColumn → MetersColumn
  | .stored => i.currentStored
  | .inNeed => i.currentInNeed
  | .inUse => i.currentInUse
  | .ordered => i.currentOrdered

/-- A call that changes the amounts of a row. -/
inductive InventoryMutation
  | checkAndInjectNeed (quantity : Meters)
  | consumeToInUse (quantity : Meters)
  | finishInUse (quantity : Meters) (source : RequirementSource)
  | addOrdered (quantity : Meters)
  | confirmOrderedToStock (quantity : Meters)
  | addStoredSurplus (quantity : Meters)
  | adjustNeed (delta : Meters)
  | completeAvailableDirect (quantity : Meters) (source : RequirementSource)
  | rollbackInUseToStored (quantity : Meters)
  | setCurrentStored (amount : Meters)

namespace InventoryMutation

def assign (a : AmountColumn → Meters) :
    InventoryMutation → Except CommandError (Writes AmountColumn Meters)
  | .checkAndInjectNeed quantity =>
    pure fun
      | .inNeed => some (a .inNeed + quantity)
      | _ => none
  | .consumeToInUse quantity => do
    throwIf (a .stored - quantity < 0) (.validation ("Not enough upholstery in stored inventory " ++
      "to start production — please add more stock before marking in-use."))
    pure fun
      | .stored => some (a .stored - quantity)
      | .inUse => some (a .inUse + quantity)
      | .inNeed => some (max 0 (a .inNeed - quantity))
      | .ordered => none
  | .finishInUse quantity _ => do
    throwIf (a .inUse - quantity < 0) (.validation
      "Inventory inconsistency: completion quantity exceeds recorded in-use amount.")
    pure fun
      | .inUse => some (a .inUse - quantity)
      | _ => none
  | .addOrdered quantity =>
    pure fun
      | .ordered => some (a .ordered + quantity)
      | _ => none
  | .confirmOrderedToStock quantity => do
    throwIf (a .ordered - quantity < 0) (.validation ("Confirmed quantity exceeds the recorded " ++
      "ordered amount — verify the stock quantity before confirming."))
    pure fun
      | .ordered => some (a .ordered - quantity)
      | .stored => some (a .stored + quantity)
      | _ => none
  | .addStoredSurplus quantity =>
    pure fun
      | .stored => some (a .stored + quantity)
      | _ => none
  | .adjustNeed delta =>
    pure fun
      | .inNeed => some (max 0 (a .inNeed + delta))
      | _ => none
  | .completeAvailableDirect quantity _ => do
    throwIf (a .stored - quantity < 0) (.validation ("Not enough upholstery in stored inventory " ++
      "to complete directly — stock may have changed since availability was confirmed."))
    pure fun
      | .stored => some (a .stored - quantity)
      | .inNeed => some (max 0 (a .inNeed - quantity))
      | _ => none
  | .rollbackInUseToStored quantity => do
    throwIf (a .inUse - quantity < 0) (.validation
      "Inventory inconsistency: rollback quantity exceeds recorded in-use amount.")
    pure fun
      | .inUse => some (a .inUse - quantity)
      | .stored => some (a .stored + quantity)
      | _ => none
  | .setCurrentStored amount => do
    throwIf (amount.toColumn < 0) (.validation ("current_stored_amount_meters: Value error, " ++
      "current_stored_amount_meters must be >= 0."))
    pure fun
      | .stored => some amount.toColumn.value
      | _ => none

def columns : InventoryMutation → List AmountColumn
  | .checkAndInjectNeed _ | .adjustNeed _ => [.inNeed]
  | .consumeToInUse _ => [.stored, .inUse, .inNeed]
  | .finishInUse _ _ => [.inUse]
  | .addOrdered _ => [.ordered]
  | .confirmOrderedToStock _ => [.ordered, .stored]
  | .addStoredSurplus _ | .setCurrentStored _ => [.stored]
  | .completeAvailableDirect _ _ => [.stored, .inNeed]
  | .rollbackInUseToStored _ => [.inUse, .stored]

variable (m : InventoryMutation)

theorem assign_confined : Confined (· ∈ m.columns) fun a => m.assign a := by
  constructor
  · intro a a' h
    cases m <;> simp only [columns, List.mem_cons, List.not_mem_nil, or_false] at h <;>
      simp [assign, h]
  · intro a w hw c hc
    cases m <;> simp only [columns, List.mem_cons, List.not_mem_nil, or_false] at hc <;>
      simp only [assign, throwIf_bind_eq_ok, pure, Except.pure, Except.ok.injEq] at hw
    all_goals
      first
      | obtain rfl := hw
      | obtain ⟨-, rfl⟩ := hw
      cases c <;> simp_all

/-- The quantity of a call. -/
def quantity : InventoryMutation → Meters
  | .checkAndInjectNeed quantity | .consumeToInUse quantity | .finishInUse quantity _
  | .addOrdered quantity | .confirmOrderedToStock quantity | .addStoredSurplus quantity
  | .adjustNeed quantity | .completeAvailableDirect quantity _ | .rollbackInUseToStored quantity
  | .setCurrentStored quantity => quantity

def run (db : Db) (i : UpholsteryInventory) : InventoryMutation → Except CommandError Db
  | .checkAndInjectNeed quantity => do
    let (db, _) ← db.checkAndInjectNeed (some i.upholsteryId) quantity i.clientId
    pure db
  | .consumeToInUse quantity => db.consumeToInUse i.clientId quantity
  | .finishInUse quantity source => db.finishInUse i.clientId quantity source
  | .addOrdered quantity => db.addOrdered i.clientId quantity
  | .confirmOrderedToStock quantity => db.confirmOrderedToStock i.clientId quantity
  | .addStoredSurplus quantity => db.addStoredSurplus i.clientId quantity
  | .adjustNeed delta => do
    let (db, _) ← db.adjustNeed i.clientId delta
    pure db
  | .completeAvailableDirect quantity source =>
    db.completeAvailableDirect i.clientId quantity source
  | .rollbackInUseToStored quantity => db.rollbackInUseToStored i.clientId quantity
  | .setCurrentStored amount => setCurrentStoredAmountInventory db i.clientId amount

end InventoryMutation

def rowTransaction (calls : List InventoryMutation) :
    Transaction AmountColumn MetersColumn CommandError :=
  session MetersColumn.value Meters.toColumn (calls.map fun m a => m.assign a)

section Refinement

variable {db db' : Db} {i : UpholsteryInventory} {m : InventoryMutation}

theorem loadInventory_updateInventory {f : UpholsteryInventory → UpholsteryInventory}
    (hid : ∀ i, (f i).clientId = i.clientId) (hdel : ∀ i, (f i).isDeleted = i.isDeleted)
    {inventoryId : ClientId} (h : db.loadInventory inventoryId = .ok i) :
    (db.updateInventory inventoryId f).loadInventory inventoryId = .ok (f i) := by
  have hfind := getOr_eq_ok.mp h
  have hi := (loadInventory_eq_ok h).2
  rw [Db.loadInventory, getOr_eq_ok]
  simp only [Db.updateInventory, updateWhere, List.find?_map]
  rw [show ((fun j : UpholsteryInventory => j.clientId == inventoryId && !j.isDeleted) ∘
      fun j => if (j.clientId == inventoryId) = true then f j else j) =
      fun j => j.clientId == inventoryId && !j.isDeleted from ?_, hfind]
  · simp [hi]
  · funext j
    by_cases hj : j.clientId = inventoryId <;> simp [hj, hid, hdel]

theorem loadInventory_demote {candidates : List ItemUpholsteryRequirement}
    {newStored : MetersColumn} {readyByAt : ClientId → Option Instant} {inventoryId : ClientId} :
    (demoteAvailableRequirements db candidates newStored readyByAt).loadInventory inventoryId =
      db.loadInventory inventoryId := by
  unfold demoteAvailableRequirements
  dsimp only
  split <;> rfl

theorem loadInventory_promote {inv : UpholsteryInventory} {newStored : MetersColumn}
    {candidates : List ItemUpholsteryRequirement} {readyByAt : ClientId → Option Instant}
    {inventoryId : ClientId} :
    (promoteForwardRequirements db inv newStored candidates readyByAt).loadInventory inventoryId =
      db.loadInventory inventoryId :=
  rfl

theorem runAlone_single {i' : UpholsteryInventory} {w : Writes AmountColumn Meters}
    (hw : m.assign (fun c => (i.amounts c).value) = .ok w)
    (h : ∀ c, i'.amounts c = (overlay (fun c => (i.amounts c).value) w c).toColumn) :
    runAlone i.amounts (rowTransaction [m]) = .ok i'.amounts := by
  rw [rowTransaction, List.map_singleton,
    runAlone_session_single (fun _ => FixedScale.store_value) hw]
  congr 1
  funext c
  exact (h c).symm

theorem runAlone_of_written {w : Writes AmountColumn Meters}
    {f : UpholsteryInventory → UpholsteryInventory} (hi : db.loadInventory i.clientId = .ok i)
    (hw : m.assign (fun c => (i.amounts c).value) = .ok w)
    (h : ∀ c, (f i).amounts c = (overlay (fun c => (i.amounts c).value) w c).toColumn)
    (hid : ∀ i, (f i).clientId = i.clientId) (hdel : ∀ i, (f i).isDeleted = i.isDeleted) :
    ∃ i', (db.updateInventory i.clientId f).loadInventory i.clientId = .ok i' ∧
      runAlone i.amounts (rowTransaction [m]) = .ok i'.amounts :=
  ⟨f i, loadInventory_updateInventory hid hdel hi, runAlone_single hw h⟩

/-- What one helper leaves of the amounts is what a session with this one call leaves. -/
theorem run_runAlone (hi : db.loadInventory i.clientId = .ok i)
    (hof : db.inventoryOf i.upholsteryId = some i) (hshort : m.quantity.IsShort)
    (hok : m.run db i = .ok db') :
    ∃ i', db'.loadInventory i.clientId = .ok i' ∧
      runAlone i.amounts (rowTransaction [m]) = .ok i'.amounts := by
  have hloaded : ∀ {inv}, db.loadInventory i.clientId = .ok inv → i = inv := fun hinv =>
    Except.ok.inj (hi.symm.trans hinv)
  cases m with
  | checkAndInjectNeed quantity =>
    simp only [InventoryMutation.run, Db.checkAndInjectNeed, Db.loadOrCreateInventory, hof, bind,
      Except.bind, pure, Except.pure, Except.ok.injEq] at hok
    subst hok
    have hshort : quantity.IsShort := hshort
    simp only [hshort.rounded_value_add]
    refine runAlone_of_written hi rfl ?_ (fun _ => rfl) fun _ => rfl
    rintro (_ | _ | _ | _) <;> simp [UpholsteryInventory.amounts, overlay]
  | consumeToInUse quantity =>
    obtain ⟨inv, hinv, hok⟩ := bind_eq_ok.mp hok
    obtain rfl := hloaded hinv
    obtain ⟨hle, hok⟩ := throwIf_bind_eq_ok.mp hok
    cases hok
    refine runAlone_of_written hi (throwIf_bind_eq_ok.mpr ⟨hle, rfl⟩) ?_ (fun _ => rfl) fun _ => rfl
    rintro (_ | _ | _ | _) <;> simp [UpholsteryInventory.amounts, overlay]
  | finishInUse quantity source =>
    obtain ⟨inv, hinv, hok⟩ := bind_eq_ok.mp hok
    obtain rfl := hloaded hinv
    obtain ⟨hle, hok⟩ := throwIf_bind_eq_ok.mp hok
    cases hok
    refine runAlone_of_written hi (throwIf_bind_eq_ok.mpr ⟨hle, rfl⟩) ?_
      (fun _ => by simp) fun _ => ?_
    · rintro (_ | _ | _ | _) <;> cases source <;>
        simp [UpholsteryInventory.amounts, overlay, UpholsteryInventory.use]
    · cases source <;> rfl
  | addOrdered quantity =>
    obtain ⟨inv, hinv, hok⟩ := bind_eq_ok.mp hok
    obtain rfl := hloaded hinv
    cases hok
    have hshort : quantity.IsShort := hshort
    simp only [hshort.rounded_value_add]
    refine runAlone_of_written hi rfl ?_ (fun _ => rfl) fun _ => rfl
    rintro (_ | _ | _ | _) <;> simp [UpholsteryInventory.amounts, overlay]
  | confirmOrderedToStock quantity =>
    obtain ⟨inv, hinv, hok⟩ := bind_eq_ok.mp hok
    obtain rfl := hloaded hinv
    obtain ⟨hle, hok⟩ := throwIf_bind_eq_ok.mp hok
    cases hok
    have hshort : quantity.IsShort := hshort
    rw [hshort.rounded_value_sub] at hle
    simp only [hshort.rounded_value_add, hshort.rounded_value_sub]
    refine runAlone_of_written hi (throwIf_bind_eq_ok.mpr ⟨hle, rfl⟩) ?_ (fun _ => rfl) fun _ => rfl
    rintro (_ | _ | _ | _) <;> simp [UpholsteryInventory.amounts, overlay]
  | addStoredSurplus quantity =>
    obtain ⟨inv, hinv, hok⟩ := bind_eq_ok.mp hok
    obtain rfl := hloaded hinv
    cases hok
    have hshort : quantity.IsShort := hshort
    simp only [hshort.rounded_value_add]
    refine runAlone_of_written hi rfl ?_ (fun _ => rfl) fun _ => rfl
    rintro (_ | _ | _ | _) <;> simp [UpholsteryInventory.amounts, overlay]
  | adjustNeed delta =>
    obtain ⟨⟨db₁, result⟩, hadjust, hok⟩ := bind_eq_ok.mp hok
    cases hok
    obtain ⟨inv, hinv, hadjust⟩ := bind_eq_ok.mp hadjust
    obtain rfl := hloaded hinv
    cases hadjust
    have hshort : delta.IsShort := hshort
    simp only [hshort.rounded_value_add]
    refine runAlone_of_written hi rfl ?_ (fun _ => rfl) fun _ => rfl
    rintro (_ | _ | _ | _) <;> simp [UpholsteryInventory.amounts, overlay]
  | completeAvailableDirect quantity source =>
    obtain ⟨inv, hinv, hok⟩ := bind_eq_ok.mp hok
    obtain rfl := hloaded hinv
    obtain ⟨hle, hok⟩ := throwIf_bind_eq_ok.mp hok
    cases hok
    refine runAlone_of_written hi (throwIf_bind_eq_ok.mpr ⟨hle, rfl⟩) ?_
      (fun _ => by simp) fun _ => ?_
    · rintro (_ | _ | _ | _) <;> cases source <;>
        simp [UpholsteryInventory.amounts, overlay, UpholsteryInventory.use]
    · cases source <;> rfl
  | rollbackInUseToStored quantity =>
    obtain ⟨inv, hinv, hok⟩ := bind_eq_ok.mp hok
    obtain rfl := hloaded hinv
    obtain ⟨hle, hok⟩ := throwIf_bind_eq_ok.mp hok
    cases hok
    refine runAlone_of_written hi (throwIf_bind_eq_ok.mpr ⟨hle, rfl⟩) ?_ (fun _ => rfl) fun _ => rfl
    rintro (_ | _ | _ | _) <;> simp [UpholsteryInventory.amounts, overlay]
  | setCurrentStored amount =>
    obtain ⟨hle, hok⟩ := throwIf_bind_eq_ok.mp hok
    obtain ⟨inv, hinv, hok⟩ := bind_eq_ok.mp hok
    obtain rfl := hloaded hinv
    have hassign : (InventoryMutation.setCurrentStored amount).assign
        (fun c => (i.amounts c).value) = _ := throwIf_bind_eq_ok.mpr ⟨hle, rfl⟩
    by_cases heq : amount.toColumn = i.currentStored
    · rw [if_pos heq] at hok
      cases hok
      refine ⟨i, hi, runAlone_single hassign ?_⟩
      rintro (_ | _ | _ | _) <;> simp [UpholsteryInventory.amounts, overlay, heq]
    · rw [if_neg heq] at hok
      cases hok
      simp only [loadInventory_promote, loadInventory_demote]
      refine runAlone_of_written hi hassign ?_ (fun _ => rfl) fun _ => rfl
      rintro (_ | _ | _ | _) <;> simp [UpholsteryInventory.amounts, overlay]

end Refinement

end BeyoManager.Upholstery
