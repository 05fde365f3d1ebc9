import BeyoManager.Upholstery.Ledger
import BeyoManager.Upholstery.OwnerCommands

/-! # Owners over whole runs

A partial surplus leaves an item upholstery with a requirement beside its active one. Deleting
or replacing the selection fails the active requirement only; in a run in which nothing else is
left behind, every unfinished requirement belongs to a current selection of its fabric.
-/

namespace BeyoManager.Upholstery

open Relational Transition

variable {db db₁ db' : Db} {now : Instant} {itemUpholsteryId newItemUpholsteryId newRequirementId
  newInventoryId : ClientId} {amount : Meters} {u : ItemUpholstery}
  {r : ItemUpholsteryRequirement}

/-- The requirement is an unfinished one of an item upholstery beside its active one. -/
structure IsLeftover (u : ItemUpholstery) (r : ItemUpholsteryRequirement) : Prop where
  owner : r.itemUpholsteryId = u.clientId
  unfinished : r.state.isUnfinished
  inactive : u.activeRequirementId ≠ some r.clientId

/-- Giving up the item upholstery leaves an unfinished requirement behind. -/
def Db.LeavesOnDrop (db : Db) (u : ItemUpholstery) : Prop :=
  ∃ r ∈ db.requirements, IsLeftover u r

/-- Choosing the fabric leaves an unfinished requirement of another fabric behind. -/
def Db.LeavesOnSwap (db : Db) (u : ItemUpholstery) (upholsteryId : Option (Option ClientId)) :
    Prop :=
  (∃ id ∈ upholsteryId, id ≠ u.upholsteryId) ∧
    ∃ r ∈ db.requirements, IsLeftover u r ∧ r.upholsteryInventoryId ≠ none

/-- Ensuring an upholstery of an item leaves an unfinished requirement behind: it replaces a
selection whose active requirement is completed, or chooses another fabric for the selection. -/
def Db.LeavesOnEnsure (db : Db) (itemId : ClientId) (upholsteryId : Option (Option ClientId)) :
    Prop :=
  ∃ current, db.currentItemUpholsteries itemId = [current] ∧
    ((∃ r, db.fetchOwnActiveRequirement current = some r ∧ r.state = .completed) ∧
        db.LeavesOnDrop current ∨
      db.LeavesOnSwap current upholsteryId)

/-- The command leaves an unfinished requirement of a dropped or replaced fabric behind. -/
def Op.LeavesClaims (db : Db) : Op → Prop
  | .deleteItemUpholstery itemUpholsteryId =>
    ∃ u, db.fetchItemUpholstery itemUpholsteryId = some u ∧ db.LeavesOnDrop u
  | .updateItemUpholstery request _ _ =>
    ∃ u, db.fetchItemUpholstery request.clientId = some u ∧ db.LeavesOnSwap u request.upholsteryId
  | .createItemUpholstery request _ _ _ | .createItem request _ _ _ =>
    db.LeavesOnEnsure request.itemId (some request.upholsteryId)
  | .createTask itemId data _ _ _ => db.LeavesOnEnsure itemId data.upholsteryId
  | _ => False

section Active

theorem Db.Owned.fetchOwnActiveRequirement (h : db.Owned)
    (hu : u ∈ db.itemUpholsteries) {id : ClientId}
    (hactive : u.activeRequirementId = some id) :
    ∃ r, db.fetchOwnActiveRequirement u = some r := by
  obtain ⟨r, hr, rfl, hown⟩ := h.active u hu id hactive
  have hfind : db.fetchActiveRequirement u = some r := by
    rw [Db.fetchActiveRequirement, hactive, Option.bind_some, Db.fetchRequirement]
    obtain ⟨x, hx⟩ := Option.isSome_iff_exists.mp
      (List.find?_isSome.mpr ⟨r, hr, by simp [h.live r hr]⟩ :
        (db.requirements.find? fun x => x.clientId == r.clientId && !x.isDeleted).isSome)
    obtain ⟨hx', hid, -⟩ := fetchRequirement_eq_some hx
    rw [hx, h.requirementsKeyed.inj hx' hr hid]
  exact ⟨r, Option.filter_eq_some_iff.mpr ⟨hfind, by simpa using hown⟩⟩

theorem Db.Owned.no_requirement (h : db.Owned) (hu : u ∈ db.itemUpholsteries)
    (hnone : db.fetchOwnActiveRequirement u = none) :
    ∀ r ∈ db.requirements, r.itemUpholsteryId ≠ u.clientId := by
  cases hactive : u.activeRequirementId with
  | none => exact h.unopened u hu hactive
  | some id =>
    obtain ⟨r, hr⟩ := h.fetchOwnActiveRequirement hu hactive
    rw [hnone] at hr
    cases hr

theorem cancelActive_owned (h : db.WellOwned) (hactive : db.fetchOwnActiveRequirement u = some r)
    (hok : cancelRequirements now db [r] = .ok db') :
    Cancels [r.clientId] db db' ∧ db'.Owned ∧ db'.FailedTogether (· ≠ u.clientId) := by
  obtain ⟨hr, hid, -, hown⟩ := fetchOwnActiveRequirement_eq_some hactive
  have hc : Cancels [r.clientId] db db' := by
    obtain ⟨db₁, hcancel, hok⟩ := foldlM_cons_eq_ok.mp hok
    obtain rfl : db₁ = db' := by simpa [pure, Except.pure] using hok
    refine cancelRequirement_cancels (fun x hx he hs => ?_) hcancel
    rwa [← h.owned.requirementsKeyed.inj hx hr he]
  refine ⟨hc, hc.owned h.owned, hc.failedTogether h.owned h.together (fun _ _ => trivial) ?_⟩
  intro v hv hne x hx hmem hxown
  obtain rfl := h.owned.requirementsKeyed.inj hx hr (List.mem_singleton.mp hmem)
  exact absurd (hxown.symm.trans hown) hne

end Active

section Commands

/-- Deleting an item upholstery that leaves nothing behind keeps the owners. -/
theorem deleteItemUpholstery_wellOwned (h : db.WellOwned)
    (hleaves : ¬ (Op.deleteItemUpholstery itemUpholsteryId).LeavesClaims db)
    (hok : deleteItemUpholstery db itemUpholsteryId now = .ok db') : db'.WellOwned := by
  unfold deleteItemUpholstery at hok
  obtain ⟨iup, hiup, hok⟩ := bind_eq_ok.mp hok
  have hiup := getOr_eq_ok.mp hiup
  obtain ⟨hu, -, -⟩ := fetchItemUpholstery_eq_some hiup
  have hothers : ∀ r ∈ db.requirements, r.itemUpholsteryId = iup.clientId →
      r.state.isUnfinished → iup.activeRequirementId = some r.clientId := by
    intro r hr hown hs
    by_contra hne
    exact hleaves ⟨iup, hiup, r, hr, hown, hs, hne⟩
  cases hactive : db.fetchOwnActiveRequirement iup with
  | none =>
    simp only [hactive] at hok
    cases hok
    exact dropItemUpholstery_wellOwned h fun r hr hown =>
      absurd hown (h.owned.no_requirement hu hactive r hr)
  | some r =>
    simp only [hactive] at hok
    obtain ⟨-, hok⟩ := throwIf_bind_eq_ok.mp hok
    obtain ⟨db₁, hcancel, hok⟩ := bind_eq_ok.mp hok
    cases hok
    obtain ⟨hc, howned, hf⟩ := cancelActive_owned h hactive hcancel
    obtain ⟨-, hid, -, -⟩ := fetchOwnActiveRequirement_eq_some hactive
    have hnone : ∀ x ∈ db₁.requirements, x.itemUpholsteryId = iup.clientId →
        x.state.isUnfinished = false := by
      intro x hx hown
      obtain ⟨y, hy, ho, hun, -⟩ := hc.requirements x hx
      refine Bool.eq_false_iff.mpr fun hs => ?_
      obtain ⟨hs, hmem⟩ := hun hs
      have := hothers y hy ((owner_eq ho).2.1 ▸ hown) hs
      exact hmem (List.mem_singleton.mpr (Option.some_inj.mp (this.symm.trans hid)))
    refine dropItemUpholstery_wellOwned
      ⟨howned, fun v hv _ x hx hpointer hfail y hy hown => ?_⟩ hnone
    by_cases hv' : v.clientId = iup.clientId
    · exact hnone y hy (hown.trans hv')
    · exact hf v hv hv' x hx hpointer hfail y hy hown

section Write

variable {upholsteryId : Option ClientId} {source : ItemUpholsterySource}
  {amountMeters : Option Meters} (hok : db.writeSelection itemUpholsteryId upholsteryId source
    amountMeters = .ok db')
include hok

theorem writeSelection_owned (h : db.Owned)
    (hfabric : ∀ u ∈ db.itemUpholsteries, u.clientId = itemUpholsteryId →
      ∀ r ∈ db.requirements, r.itemUpholsteryId = u.clientId → r.state.isUnfinished →
        upholsteryId = u.upholsteryId ∨ r.upholsteryInventoryId = none) : db'.Owned := by
  obtain ⟨-, hok⟩ := throwIf_bind_eq_ok.mp hok
  cases hok
  refine updateItemUpholstery_owned h (fun _ => rfl) (fun _ => rfl) ?_
  intro u hu hid r hr hs hserves
  refine ⟨hserves.owner, hserves.isDeleted, fun inventoryId hinv => ?_⟩
  rcases hfabric u hu hid r hr hserves.owner.symm hs with hsame | hnone
  · obtain ⟨i, hi, hiid, hfab⟩ := hserves.linked inventoryId hinv
    exact ⟨i, hi, hiid, hsame.trans hfab⟩
  · simp [hnone] at hinv

theorem writeSelection_together {p : ClientId → Prop} (h : db.FailedTogether p) :
    db'.FailedTogether p := by
  obtain ⟨-, hok⟩ := throwIf_bind_eq_ok.mp hok
  cases hok
  exact updateItemUpholstery_together h (fun _ => rfl) fun _ => rfl

theorem writeSelection_mem (hu : u ∈ db.itemUpholsteries) (hid : u.clientId = itemUpholsteryId) :
    ∃ u' ∈ db'.itemUpholsteries, u'.clientId = itemUpholsteryId ∧ u'.isDeleted = u.isDeleted ∧
      u'.upholsteryId = upholsteryId := by
  obtain ⟨-, hok⟩ := throwIf_bind_eq_ok.mp hok
  cases hok
  refine ⟨_, mem_updateWhere_of_mem hu, ?_⟩
  rw [if_pos (by simpa using hid)]
  exact ⟨hid, rfl, rfl⟩

end Write

/-- Choosing a fabric that leaves nothing of another behind keeps the owners. -/
theorem updateItemUpholsteryInSession_wellOwned {request : UpdateItemUpholsteryRequest}
    (h : db.WellOwned)
    (hleaves : ∀ u, db.fetchItemUpholstery request.clientId = some u →
      ¬ db.LeavesOnSwap u request.upholsteryId)
    (hok : updateItemUpholsteryInSession db request newRequirementId newInventoryId now = .ok db') :
    db'.WellOwned := by
  obtain ⟨iup, hiup, hok⟩ := bind_eq_ok.mp hok
  obtain ⟨_, -, hok⟩ := bind_eq_ok.mp hok
  have hiup := getOr_eq_ok.mp hiup
  have hleaves := hleaves iup hiup
  obtain ⟨hu, -, hd⟩ := fetchItemUpholstery_eq_some hiup
  split at hok
  case isFalse =>
    cases hok
    refine ⟨updateItemUpholstery_owned h.owned (fun _ => rfl) (fun _ => rfl) ?_,
      updateItemUpholstery_together h.together (fun _ => rfl) fun _ => rfl⟩
    exact fun u _ _ r _ _ hs => ⟨hs.owner, hs.isDeleted, hs.linked⟩
  split at hok
  · rename_i hnone
    obtain ⟨db₁, hwrite, hok⟩ := bind_eq_ok.mp hok
    obtain ⟨v, hv, hid, hvd, hfabric⟩ := writeSelection_mem hwrite hu rfl
    have h₁ : db₁.WellOwned := by
      refine ⟨writeSelection_owned hwrite h.owned fun w hw hid r hr hown => ?_,
        writeSelection_together hwrite h.together⟩
      exact absurd (hown.trans hid) (h.owned.unopened iup hu hnone r hr)
    split at hok
    · rw [← hid, ← hfabric] at hok
      exact createInitialRequirement_wellOwned h₁.owned h₁.together.mono hv (hvd.trans hd) hok
    · cases hok
      exact h₁
  · obtain ⟨r, hr, hok⟩ := bind_eq_ok.mp hok
    obtain ⟨-, hok⟩ := throwIf_bind_eq_ok.mp hok
    obtain ⟨db₁, hcancel, hok⟩ := bind_eq_ok.mp hok
    obtain ⟨-, hok⟩ := throwIf_bind_eq_ok.mp hok
    obtain ⟨db₂, hwrite, hok⟩ := bind_eq_ok.mp hok
    obtain ⟨hc, howned, hf⟩ := cancelActive_owned h (getOr_eq_ok.mp hr) hcancel
    obtain ⟨-, hactive, -, -⟩ := fetchOwnActiveRequirement_eq_some (getOr_eq_ok.mp hr)
    have hu₁ : iup ∈ db₁.itemUpholsteries := hc.itemUpholsteries ▸ hu
    obtain ⟨v, hv, hid, hvd, hfabric⟩ := writeSelection_mem hwrite hu₁ rfl
    have h₂ : db₂.Owned := by
      refine writeSelection_owned hwrite howned fun w hw hwid x hx hown hs => ?_
      obtain rfl := howned.itemUpholsteriesKeyed.inj hw hu₁ hwid
      rw [or_iff_not_imp_left]
      intro hother
      by_contra hlinked
      -- what is left beside the active requirement is linked to no row
      obtain ⟨y, hy, ho, hun, -⟩ := hc.requirements x hx
      obtain ⟨-, hyown, hlink, -⟩ := owner_eq ho
      obtain ⟨hs, hmem⟩ := hun hs
      refine hleaves ⟨?_, y, hy, ⟨hyown.symm.trans hown, hs, fun he => hmem ?_⟩, hlink ▸ hlinked⟩
      · cases hreq : request.upholsteryId with
        | none => exact absurd (by rw [hreq, Option.getD_none]) hother
        | some id => exact ⟨id, rfl, by simpa [hreq] using hother⟩
      · exact List.mem_singleton.mpr (Option.some_inj.mp (he.symm.trans hactive))
    have hf₂ : db₂.FailedTogether (· ≠ v.clientId) := by
      rw [hid]
      exact writeSelection_together hwrite hf
    rw [← hid, ← hfabric] at hok
    exact createInitialRequirement_wellOwned h₂ hf₂ hv (hvd.trans hd) hok

theorem isUnfinished_of_isMutable (h : r.state.isMutable) : r.state.isUnfinished := by
  cases hs : r.state <;> simp_all [RequirementState.isMutable, RequirementState.isUnfinished]

theorem updateActive_wellOwned {f : ItemUpholsteryRequirement → ItemUpholsteryRequirement}
    (h : db.WellOwned) (honly : InventoryOnly db db₁) (hu : u ∈ db.itemUpholsteries)
    (hr : r ∈ db.requirements) (hactive : u.activeRequirementId = some r.clientId)
    (hs : r.state.isUnfinished) (howner : (f r).owner = r.owner) (hfailed : (f r).state ≠ .failed) :
    (db₁.updateRequirement r.clientId f).WellOwned ∧
      (db₁.updateRequirement r.clientId f).Serves u (f r) := by
  obtain ⟨hid, hown, hlink, hd⟩ := owner_eq howner
  have hrows := rowsKept_of_map_eq honly.names
  have hserves := h.owned.serves hu hr (h.owned.active_own hu hr hactive) hs
  have hserves' : (db₁.updateRequirement r.clientId f).Serves u (f r) := by
    refine hserves.of_rows hrows ?_ rfl rfl rfl hown hlink
    rfl
  exact ⟨rewriteRequirement_wellOwned h hrows honly.itemUpholsteries
    (congrArg (updateWhere _ _) honly.requirements) hu hr hs hid hown hd hfailed hserves', hserves'⟩

/-- Giving the active requirement another quantity keeps the owners. -/
theorem setRequirementQuantity_wellOwned {iup : ItemUpholstery} (h : db.WellOwned)
    (hu : u ∈ db.itemUpholsteries) (hfabric : u.upholsteryId = iup.upholsteryId)
    (hr : r ∈ db.requirements) (hactive : u.activeRequirementId = some r.clientId)
    (hmutable : r.state.isMutable)
    (hok : setRequirementQuantity db amount newInventoryId iup r = .ok db') : db'.WellOwned := by
  have hs := isUnfinished_of_isMutable hmutable
  have hserves := h.owned.serves hu hr (h.owned.active_own hu hr hactive) hs
  unfold setRequirementQuantity at hok
  split at hok
  case isTrue hnone =>
    cases hok
    refine rewriteRequirement_wellOwned h (.refl _) rfl rfl hu hr hs rfl rfl rfl (by simp) ?_
    exact ⟨hserves.owner, hserves.isDeleted, by simp [hnone.1]⟩
  split at hok
  · obtain ⟨⟨db₁, result⟩, hneed, hok⟩ := bind_eq_ok.mp hok
    obtain ⟨hrows, ⟨i, hi, hid, hfab⟩, hrs, hiups⟩ := checkAndInjectNeed_rowsKept hneed
    cases hok
    refine rewriteRequirement_wellOwned h hrows hiups (congrArg (updateWhere _ _) hrs) hu hr hs rfl
      rfl rfl ?_ ⟨hserves.owner, hserves.isDeleted, fun inventoryId hinv => ?_⟩
    · simp only [NeedResult.state]
      split <;> simp
    · obtain rfl : result.inventoryId = inventoryId := Option.some_inj.mp hinv
      exact ⟨i, hi, hid, hfabric.trans hfab⟩
  · obtain ⟨inventoryId, -, hok⟩ := bind_eq_ok.mp hok
    dsimp only at hok
    split at hok
    · cases hok
      exact h
    · obtain ⟨⟨db₁, result⟩, hadjust, hok⟩ := bind_eq_ok.mp hok
      cases hok
      refine (updateActive_wellOwned h (adjustNeed_inventoryOnly hadjust) hu hr hactive hs rfl ?_).1
      simp only [NeedResult.state]
      split <;> simp

theorem updateRequirementQuantity_wellOwned (h : db.WellOwned)
    (hok : updateRequirementQuantity db itemUpholsteryId amount newInventoryId = .ok db') :
    db'.WellOwned := by
  obtain ⟨-, hok⟩ := throwIf_bind_eq_ok.mp hok
  obtain ⟨iup, hiup, hok⟩ := bind_eq_ok.mp hok
  obtain ⟨hu, -, -⟩ := fetchItemUpholstery_eq_some (getOr_eq_ok.mp hiup)
  have hwith : (db.updateItemUpholstery iup.clientId fun u =>
      { u with amountMeters := some amount.toColumn }).WellOwned := by
    refine ⟨updateItemUpholstery_owned h.owned (fun _ => rfl) (fun _ => rfl) ?_,
      updateItemUpholstery_together h.together (fun _ => rfl) fun _ => rfl⟩
    exact fun u _ _ r _ _ hs => ⟨hs.owner, hs.isDeleted, hs.linked⟩
  have hmem := mem_updateWhere_of_mem (p := fun u => u.clientId == iup.clientId)
    (f := fun u => { u with amountMeters := some amount.toColumn }) hu
  rw [if_pos (beq_self_eq_true _)] at hmem
  dsimp only at hok
  split at hok
  · cases hok
    exact hwith
  · obtain ⟨_, -, hok⟩ := bind_eq_ok.mp hok
    obtain ⟨r, hr, hok⟩ := bind_eq_ok.mp hok
    obtain ⟨hmutable, hok⟩ := throwIf_bind_eq_ok.mp hok
    obtain ⟨hr, hactive, -⟩ := fetchActiveRequirement_eq_some (getOr_eq_ok.mp hr)
    exact setRequirementQuantity_wellOwned hwith hmem rfl hr hactive (not_not.mp hmutable) hok

/-- Covering a requirement, or splitting it, keeps the owners. -/
theorem applySurplusToRequirement_wellOwned (h : db.WellOwned)
    (hok : applySurplusToRequirement db itemUpholsteryId amount newRequirementId now = .ok db') :
    db'.WellOwned := by
  obtain ⟨-, hok⟩ := throwIf_bind_eq_ok.mp hok
  obtain ⟨iup, hiup, hok⟩ := bind_eq_ok.mp hok
  obtain ⟨_, -, hok⟩ := bind_eq_ok.mp hok
  obtain ⟨r, hr, hok⟩ := bind_eq_ok.mp hok
  obtain ⟨hu, -, -⟩ := fetchItemUpholstery_eq_some (getOr_eq_ok.mp hiup)
  obtain ⟨hr, hactive, -⟩ := fetchActiveRequirement_eq_some (getOr_eq_ok.mp hr)
  obtain ⟨hstate, hok⟩ := throwIf_bind_eq_ok.mp hok
  obtain ⟨-, hok⟩ := throwIf_bind_eq_ok.mp hok
  obtain ⟨inventoryId, hlink, hok⟩ := bind_eq_ok.mp hok
  have hlink := getOr_eq_ok.mp hlink
  obtain ⟨db₁, hadd, hok⟩ := bind_eq_ok.mp hok
  have honly := addStoredSurplus_inventoryOnly hadd
  have hs : r.state.isUnfinished ∧ r.state ≠ .failed := by
    cases hs : r.state <;> simp_all [RequirementState.isUnfinished]
  split at hok
  · cases hok
    exact (updateActive_wellOwned h honly hu hr hactive hs.1 rfl (by simp)).1
  · generalize hf : (fun x : ItemUpholsteryRequirement =>
      { x with amountMeters := some (r.amount.value - amount).rounded.toColumn }) = f at hok
    have howner : (f r).owner = r.owner := by
      rw [← hf]
      rfl
    have hstate : (f r).state = r.state := by rw [← hf]
    obtain ⟨hsplit, hserves⟩ := updateActive_wellOwned h honly hu hr hactive hs.1 howner
      (hstate ▸ hs.2)
    obtain ⟨hid, hown, hlinked, -⟩ := owner_eq howner
    have hmem : f r ∈ (db₁.updateRequirement r.clientId f).requirements := by
      have := mem_updateWhere_of_mem (p := fun x => x.clientId == r.clientId) (f := f) hr
      rw [if_pos (beq_self_eq_true _), ← honly.requirements] at this
      exact this
    refine insertRequirement_wellOwned hsplit (honly.itemUpholsteries ▸ hu) hmem (hid ▸ hactive)
      (hstate ▸ hs.2) rfl ⟨rfl, hserves.isDeleted, fun id hinv => ?_⟩ hok
    exact hserves.linked id (hlinked.trans (hlink.trans hinv))

end Commands

section Ensure

variable {itemId taskId : ClientId} {data : ItemUpholsteryData} {created : ClientId × Bool}

theorem mem_currentItemUpholsteries (h : db.currentItemUpholsteries itemId = [u]) :
    u ∈ db.itemUpholsteries :=
  (List.mem_filter.mp (show u ∈ db.currentItemUpholsteries itemId by simp [h])).1

/-- Ensuring an upholstery that leaves nothing behind keeps the owners. -/
theorem ensureItemUpholsteryInSession_wellOwned (h : db.WellOwned)
    (hleaves : ¬ db.LeavesOnEnsure itemId data.upholsteryId)
    (hok : ensureItemUpholsteryInSession db itemId data newItemUpholsteryId newRequirementId
      newInventoryId now = .ok (db', created)) : db'.WellOwned := by
  rcases ensureItemUpholsteryInSession_cases hok with
    ⟨-, hcreate⟩ | ⟨current, r, hcurrent, hr, hfinished, hcreate⟩ | ⟨current, hcurrent, hupdate⟩
  · exact createItemUpholsteryInSession_wellOwned h hcreate
  · have hu := mem_currentItemUpholsteries hcurrent
    obtain ⟨hrdb, hactive, -, -⟩ := fetchOwnActiveRequirement_eq_some hr
    refine createItemUpholsteryInSession_wellOwned (dropItemUpholstery_wellOwned h ?_) hcreate
    intro x hx hown
    rcases hfinished with hcompleted | hfailed
    · refine Bool.eq_false_iff.mpr fun hs => hleaves ⟨current, hcurrent,
        .inl ⟨⟨r, hr, hcompleted⟩, x, hx, hown, hs, fun he => ?_⟩⟩
      have hid := Option.some_inj.mp (he.symm.trans hactive)
      obtain rfl := h.owned.requirementsKeyed.inj hx hrdb hid
      simp [hcompleted, RequirementState.isUnfinished] at hs
    · exact h.together current hu trivial r hrdb hactive hfailed x hx hown
  · have hu := mem_currentItemUpholsteries hcurrent
    obtain ⟨db₁, hin, hupdate⟩ := bind_eq_ok.mp hupdate
    have h₁ : db₁.WellOwned := by
      refine updateItemUpholsteryInSession_wellOwned h (fun u hfetch hswap => ?_) hin
      obtain ⟨hu', hid, -⟩ := fetchItemUpholstery_eq_some hfetch
      obtain rfl := h.owned.itemUpholsteriesKeyed.inj hu' hu hid
      exact hleaves ⟨u, hcurrent, .inr hswap⟩
    split at hupdate
    · split at hupdate
      · exact updateRequirementQuantity_wellOwned h₁ hupdate
      · cases hupdate
        exact h₁
    · cases hupdate
      exact h₁

theorem createItemUpholstery_wellOwned {request : CreateItemUpholsteryRequest} (h : db.WellOwned)
    (hleaves : ¬ db.LeavesOnEnsure request.itemId (some request.upholsteryId))
    (hok : createItemUpholstery db request newItemUpholsteryId newRequirementId newInventoryId now =
      .ok db') : db'.WellOwned := by
  obtain ⟨_, -, hok⟩ := bind_eq_ok.mp hok
  obtain ⟨-, hok⟩ := throwIf_bind_eq_ok.mp hok
  obtain ⟨-, hok⟩ := throwIf_bind_eq_ok.mp hok
  obtain ⟨⟨db₁, created⟩, hensure, hok⟩ := bind_eq_ok.mp hok
  cases hok
  exact ensureItemUpholsteryInSession_wellOwned h hleaves hensure

theorem createTaskItemUpholstery_wellOwned (h : db.WellOwned)
    (hleaves : ¬ db.LeavesOnEnsure itemId data.upholsteryId)
    (hok : createTaskItemUpholstery db itemId data newItemUpholsteryId newRequirementId
      newInventoryId now = .ok db') : db'.WellOwned := by
  obtain ⟨_, -, hok⟩ := bind_eq_ok.mp hok
  obtain ⟨⟨db₁, created⟩, hensure, hok⟩ := bind_eq_ok.mp hok
  cases hok
  refine ensureItemUpholsteryInSession_wellOwned h ?_ hensure
  exact hleaves

theorem createItemWithUpholstery_wellOwned {request : CreateItemUpholsteryRequest}
    (h : db.WellOwned)
    (hleaves : ¬ db.LeavesOnEnsure request.itemId (some request.upholsteryId))
    (hok : createItemWithUpholstery db request newItemUpholsteryId newRequirementId newInventoryId
      now = .ok db') : db'.WellOwned := by
  obtain ⟨_, -, hok⟩ := bind_eq_ok.mp hok
  obtain ⟨-, hok⟩ := throwIf_bind_eq_ok.mp hok
  obtain ⟨-, hok⟩ := throwIf_bind_eq_ok.mp hok
  obtain ⟨-, hok⟩ := throwIf_bind_eq_ok.mp hok
  obtain ⟨⟨db₁, created⟩, hensure, hok⟩ := bind_eq_ok.mp hok
  cases hok
  refine ensureItemUpholsteryInSession_wellOwned (h.of_eq ?_ ?_ ?_) hleaves hensure <;> rfl

theorem deleteTask_wellOwned (h : db.WellOwned) (hok : deleteTask db taskId now = .ok db') :
    db'.WellOwned := by
  obtain ⟨task, -, hok⟩ := bind_eq_ok.mp hok
  obtain ⟨-, hok⟩ := throwIf_bind_eq_ok.mp hok
  obtain ⟨db₁, hcancel, hok⟩ := bind_eq_ok.mp hok
  cases hok
  obtain ⟨ids, hc, hids⟩ := cancelRequirements_cancels h.owned.requirementsKeyed
    (fun r hr => (List.mem_filter.mp hr).1) hcancel
  have h₁ : db₁.WellOwned := by
    refine ⟨hc.owned h.owned, hc.failedTogether h.owned h.together (fun _ h => h) ?_⟩
    intro u hu _ r hr hmem hown x hx hxown hs
    obtain ⟨r', hr', hid⟩ := List.mem_map.mp ((hids _).mp hmem)
    obtain ⟨hr', hp⟩ := List.mem_filter.mp hr'
    obtain rfl := h.owned.requirementsKeyed.inj hr' hr hid
    refine (hids _).mpr (List.mem_map_of_mem (List.mem_filter.mpr ⟨hx, ?_⟩))
    simp only [Bool.and_eq_true] at hp ⊢
    exact ⟨⟨by simp [h.owned.live x hx], hs⟩, by rw [hxown, ← hown]; exact hp.2⟩
  refine h₁.of_eq ?_ ?_ ?_ <;> rfl

/-- Asking again for a need that has failed leaves nothing behind. -/
theorem reviveUpholsteryNeed_wellOwned {deletedAt : Instant}
    {newItemUpholsteryIdOf newRequirementIdOf newInventoryIdOf : ClientId → ClientId}
    (h : db.WellOwned)
    (hok : reviveUpholsteryNeed deletedAt now newItemUpholsteryIdOf newRequirementIdOf
      newInventoryIdOf db itemId = .ok db') : db'.WellOwned := by
  unfold reviveUpholsteryNeed at hok
  split at hok
  · rename_i current hcurrent
    split at hok
    · rename_i r hr
      split at hok
      · rename_i hfailed
        obtain ⟨⟨db₁, created⟩, hensure, hok⟩ := bind_eq_ok.mp hok
        cases hok
        refine ensureItemUpholsteryInSession_wellOwned h ?_ hensure
        rintro ⟨u, hu, ⟨⟨r', hr', hcompleted⟩, -⟩ | ⟨⟨id, hid, hne⟩, -⟩⟩
        · obtain rfl := List.singleton_inj.mp (hcurrent.symm.trans hu)
          have he := Option.some_inj.mp (hr.symm.trans (Option.filter_eq_some_iff.mp hr').1)
          rw [he, hcompleted] at hfailed
          exact absurd hfailed.1 (by simp)
        · obtain rfl := List.singleton_inj.mp (hcurrent.symm.trans hu)
          exact hne (Option.some_inj.mp hid).symm
      · cases hok
        exact h
    · cases hok
      exact h
  · cases hok
    exact h

theorem restoreTask_wellOwned
    {newItemUpholsteryIdOf newRequirementIdOf newInventoryIdOf : ClientId → ClientId}
    (h : db.WellOwned)
    (hok : restoreTask db taskId now newItemUpholsteryIdOf newRequirementIdOf newInventoryIdOf =
      .ok db') : db'.WellOwned := by
  obtain ⟨task, -, hok⟩ := bind_eq_ok.mp hok
  obtain ⟨-, hok⟩ := throwIf_bind_eq_ok.mp hok
  have htask : ∀ f, (db.updateTask taskId f).WellOwned := fun f => by
    refine h.of_eq ?_ ?_ ?_ <;> rfl
  dsimp only at hok
  split at hok
  · exact foldlM_invariant Db.WellOwned (fun _ _ _ _ h hp => reviveUpholsteryNeed_wellOwned h hp)
      (htask _) hok
  · cases hok
    exact htask _

end Ensure

section Runs

/-- Every command keeps the owners, unless it leaves a requirement behind. -/
theorem execute_wellOwned {op : Op} (h : db.WellOwned) (hleaves : ¬ op.LeavesClaims db)
    (hok : op.execute db now = .ok db') : db'.WellOwned := by
  have hk := h.owned.requirementsKeyed
  cases op with
  | createUpholstery => exact (createUpholstery_narrows hok).wellOwned h
  | createUpholsteryInventory => exact (createUpholsteryInventory_narrows hok).wellOwned h
  | updateUpholsteryInventory => exact (updateUpholsteryInventory_narrows hok).wellOwned h
  | addOrderedToInventory => exact (addOrderedToInventory_narrows hok).wellOwned h
  | confirmOrderedToStock => exact (confirmOrderedToStockInventory_narrows hok).wellOwned h
  | setCurrentStoredAmount => exact (setCurrentStoredAmountInventory_narrows hk hok).wellOwned h
  | createOrder => exact (createUpholsteryOrder_narrows hk hok).wellOwned h
  | receiveOrder => exact (receiveUpholsteryOrder_narrows hk hok).wellOwned h
  | markOrdered => exact (markRequirementsOrdered_narrows hk hok).wellOwned h
  | resolveAfterStock => exact (resolveRequirementsAfterStock_narrows hk hok).wellOwned h
  | reallocateStock => exact (reallocateStock_narrows hk hok).wellOwned h
  | createItemUpholstery => exact createItemUpholstery_wellOwned h hleaves hok
  | createItem => exact createItemWithUpholstery_wellOwned h hleaves hok
  | createTask => exact createTaskItemUpholstery_wellOwned h hleaves hok
  | updateItemUpholstery =>
    refine updateItemUpholsteryInSession_wellOwned h (fun u hu hswap => ?_) hok
    exact hleaves ⟨u, hu, hswap⟩
  | deleteItemUpholstery => exact deleteItemUpholstery_wellOwned h hleaves hok
  | updateQuantity => exact updateRequirementQuantity_wellOwned h hok
  | applySurplus => exact applySurplusToRequirement_wellOwned h hok
  | markInUse => exact (markRequirementsInUse_narrows hk hok).wellOwned h
  | markCompleted => exact (markRequirementsCompleted_narrows hok).wellOwned h
  | completeSingle => exact (completeSingleRequirement_narrows hok).wellOwned h
  | installationSideEffect =>
    exact (applyUpholsteryInstallationSideEffect_narrows hk hok).wellOwned h
  | deleteTask => exact deleteTask_wellOwned h hok
  | restoreTask => exact restoreTask_wellOwned h hok
  | elsewhere =>
    cases hok
    refine h.of_eq ?_ ?_ ?_ <;> rfl

theorem withoutUpholstery_wellOwned (db : Db) : db.withoutUpholstery.WellOwned := by
  refine ⟨⟨keyed_nil, keyed_nil, keyed_nil, ?_, ?_, ?_, ?_, ?_⟩, ?_⟩ <;>
    simp [Db.withoutUpholstery, Db.FailedTogether]

/-- Every unfinished requirement belongs to a current item upholstery, and the row that it is
linked to is of the fabric chosen there, in every state of a run that leaves none behind. -/
theorem run_unfinished_owned (db : Db) (clock : Instant) (commands : List Command)
    (hm : Meets step (fun s c => ¬ c.op.LeavesClaims s.db) ⟨clock, db.withoutUpholstery⟩
      commands) :
    let db' := (run ⟨clock, db.withoutUpholstery⟩ commands).db
    ∀ r ∈ db'.requirements, r.state.isUnfinished →
      ∃ u ∈ db'.itemUpholsteries, u.clientId = r.itemUpholsteryId ∧ u.isDeleted = false ∧
        ∀ i ∈ db'.upholsteryInventory, r.upholsteryInventoryId = some i.clientId →
          u.upholsteryId = some i.upholsteryId := by
  have h := Meets.invariant (fun s => s.db.WellOwned)
    (fun _ _ _ h hleaves hok => execute_wellOwned h hleaves (step_eq_ok hok))
    (withoutUpholstery_wellOwned db) hm
  intro db' r hr hs
  obtain ⟨u, hu, hserves⟩ := h.owned.unfinished r hr hs
  refine ⟨u, hu, hserves.owner, hserves.isDeleted, fun i hi hlink => ?_⟩
  obtain ⟨i', hi', hid, hfabric⟩ := hserves.linked i.clientId hlink
  rwa [h.owned.inventoryKeyed.inj hi' hi hid] at hfabric

theorem run_unfinished_owned_surplusRun :
    let db' := (run ⟨0, velvetSofa.withoutUpholstery⟩
      (surplusRun 1 ++ [⟨0, .deleteItemUpholstery "iup"⟩])).db
    ∀ r ∈ db'.requirements, r.state.isUnfinished →
      ∃ u ∈ db'.itemUpholsteries, u.clientId = r.itemUpholsteryId ∧ u.isDeleted = false ∧
        ∀ i ∈ db'.upholsteryInventory, r.upholsteryInventoryId = some i.clientId →
          u.upholsteryId = some i.upholsteryId := by
  have hactive : ∀ u ∈ (run ⟨0, velvetSofa.withoutUpholstery⟩ (surplusRun 1)).db.itemUpholsteries,
      ∀ r ∈ (run ⟨0, velvetSofa.withoutUpholstery⟩ (surplusRun 1)).db.requirements,
        u.activeRequirementId = some r.clientId := by decide +kernel
  refine run_unfinished_owned velvetSofa 0 _ ⟨fun _ => id, fun _ => ?_, fun _ => id, fun _ => ?_,
    trivial⟩
  · rintro ⟨current, hcurrent, -⟩
    cases hcurrent
  · rintro ⟨u, hu, r, hr, -, -, hne⟩
    exact hne (hactive u (fetchItemUpholstery_eq_some hu).1 r hr)

/-- A quarter of a metre of surplus goes on claiming stock for a selection that is deleted. -/
theorem leftover_claims_stock_of_deleted :
    let db' := (run ⟨0, velvetSofa.withoutUpholstery⟩
      (surplusRun (1 / 4) ++ [⟨0, .deleteItemUpholstery "iup"⟩])).db
    ∃ r ∈ db'.requirements, r.state = .available ∧ r.isDeleted = false ∧
      r.upholsteryInventoryId = some "inv" ∧
      ∀ u ∈ db'.itemUpholsteries, u.clientId = r.itemUpholsteryId → u.isDeleted = true := by
  decide +kernel

end Runs

end BeyoManager.Upholstery
