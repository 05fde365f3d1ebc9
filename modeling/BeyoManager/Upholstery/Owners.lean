import BeyoManager.Upholstery.SelectionFrames

/-! # Who a requirement belongs to

Every unfinished requirement belongs to a current item upholstery and is linked to no row or to
the row of its fabric. The commands on stock and the openings keep this; a command that drops a
selection keeps it when no unfinished requirement is left behind.
-/

namespace BeyoManager.Upholstery

open Relational Transition

variable {db db₁ db' : Db} {now : Instant} {itemUpholsteryId : ClientId}
  {upholsteryId : Option ClientId} {u : ItemUpholstery} {r : ItemUpholsteryRequirement}

/-- The item upholstery is current, and the row that the requirement is linked to is of its
fabric. -/
structure Db.Serves (db : Db) (u : ItemUpholstery) (r : ItemUpholsteryRequirement) : Prop where
  owner : u.clientId = r.itemUpholsteryId
  isDeleted : u.isDeleted = false
  linked : ∀ inventoryId ∈ r.upholsteryInventoryId, ∃ i ∈ db.upholsteryInventory,
    i.clientId = inventoryId ∧ u.upholsteryId = some i.upholsteryId

/-- Every unfinished requirement belongs to a current item upholstery. -/
structure Db.Owned (db : Db) : Prop where
  inventoryKeyed : Keyed UpholsteryInventory.clientId db.upholsteryInventory
  itemUpholsteriesKeyed : Keyed ItemUpholstery.clientId db.itemUpholsteries
  requirementsKeyed : Keyed ItemUpholsteryRequirement.clientId db.requirements
  live : ∀ r ∈ db.requirements, r.isDeleted = false
  owner : ∀ r ∈ db.requirements, ∃ u ∈ db.itemUpholsteries, u.clientId = r.itemUpholsteryId
  active : ∀ u ∈ db.itemUpholsteries, ∀ requirementId ∈ u.activeRequirementId,
    ∃ r ∈ db.requirements, r.clientId = requirementId ∧ r.itemUpholsteryId = u.clientId
  unopened : ∀ u ∈ db.itemUpholsteries, u.activeRequirementId = none →
    ∀ r ∈ db.requirements, r.itemUpholsteryId ≠ u.clientId
  unfinished : ∀ r ∈ db.requirements, r.state.isUnfinished →
    ∃ u ∈ db.itemUpholsteries, db.Serves u r

/-- An item upholstery whose active requirement has failed has no unfinished requirement. Beside
some item upholsteries. -/
def Db.FailedTogether (db : Db) (p : ClientId → Prop) : Prop :=
  ∀ u ∈ db.itemUpholsteries, p u.clientId → ∀ r ∈ db.requirements,
    u.activeRequirementId = some r.clientId → r.state = .failed →
      ∀ x ∈ db.requirements, x.itemUpholsteryId = u.clientId → x.state.isUnfinished = false

theorem Db.Owned.active_own (h : db.Owned) (hu : u ∈ db.itemUpholsteries)
    (hr : r ∈ db.requirements) (hactive : u.activeRequirementId = some r.clientId) :
    r.itemUpholsteryId = u.clientId := by
  obtain ⟨x, hx, hid, hown⟩ := h.active u hu r.clientId hactive
  rwa [h.requirementsKeyed.inj hx hr hid] at hown

theorem Db.Owned.serves (h : db.Owned) (hu : u ∈ db.itemUpholsteries)
    (hr : r ∈ db.requirements) (hown : r.itemUpholsteryId = u.clientId)
    (hunfinished : r.state.isUnfinished) : db.Serves u r := by
  obtain ⟨u', hu', hserves⟩ := h.unfinished r hr hunfinished
  rwa [h.itemUpholsteriesKeyed.inj hu' hu (hserves.owner.trans hown)] at hserves

theorem Db.Serves.of_rows {l : List UpholsteryInventory} (h : db.Serves u r)
    (hrows : RowsKept db.upholsteryInventory l) (hl : db'.upholsteryInventory = l)
    {u' : ItemUpholstery} {r' : ItemUpholsteryRequirement} (hu : u'.clientId = u.clientId)
    (hd : u'.isDeleted = u.isDeleted) (hfabric : u'.upholsteryId = u.upholsteryId)
    (hown : r'.itemUpholsteryId = r.itemUpholsteryId)
    (hlink : r'.upholsteryInventoryId = r.upholsteryInventoryId) : db'.Serves u' r' := by
  refine ⟨hu.trans (h.owner.trans hown.symm), hd.trans h.isDeleted, fun inventoryId hinv => ?_⟩
  obtain ⟨i, hi, rfl, hfab⟩ := h.linked inventoryId (hlink ▸ hinv)
  obtain ⟨i', hi', hn⟩ := hrows.names i hi
  obtain ⟨hid, hun⟩ := Prod.mk.inj hn
  exact ⟨i', hl ▸ hi', hid, hfabric.trans (hfab.trans (congrArg some hun.symm))⟩

theorem Db.Serves.congr (h : db.Serves u r)
    (hinventory : db'.upholsteryInventory = db.upholsteryInventory) : db'.Serves u r :=
  h.of_rows (.refl _) hinventory rfl rfl rfl rfl rfl

section Cancel

variable {ids : List ClientId}

theorem owner_eq {r r' : ItemUpholsteryRequirement} (h : r'.owner = r.owner) :
    r'.clientId = r.clientId ∧ r'.itemUpholsteryId = r.itemUpholsteryId ∧
      r'.upholsteryInventoryId = r.upholsteryInventoryId ∧ r'.isDeleted = r.isDeleted := by
  simpa [ItemUpholsteryRequirement.owner] using h

theorem exists_of_owners_eq (howners : db'.requirements.map (·.owner) =
    db.requirements.map (·.owner)) (hr : r ∈ db.requirements) :
    ∃ r' ∈ db'.requirements, r'.owner = r.owner := by
  have hmem := List.mem_map_of_mem (f := ItemUpholsteryRequirement.owner) hr
  obtain ⟨r', hr', he⟩ := List.mem_map.mp (howners ▸ hmem)
  exact ⟨r', hr', he⟩

/-- Finishing requirements, without touching the selections, keeps the owners. -/
theorem Db.Owned.of_owners (h : db.Owned)
    (hrows : RowsKept db.upholsteryInventory db'.upholsteryInventory)
    (hiups : db'.itemUpholsteries = db.itemUpholsteries)
    (howners : db'.requirements.map (·.owner) = db.requirements.map (·.owner))
    (hunfinished : ∀ r' ∈ db'.requirements, ∃ r ∈ db.requirements, r'.owner = r.owner ∧
      (r'.state.isUnfinished → r.state.isUnfinished)) : db'.Owned := by
  have hsource : ∀ r' ∈ db'.requirements, ∃ r ∈ db.requirements, r.owner = r'.owner :=
    fun r' hr' => exists_of_owners_eq howners.symm hr'
  refine ⟨hrows.keyed h.inventoryKeyed, hiups ▸ h.itemUpholsteriesKeyed, ?_, ?_, ?_, ?_, ?_, ?_⟩
  · have := congrArg (List.map Prod.fst) howners
    rw [List.map_map, List.map_map] at this
    exact h.requirementsKeyed.of_map_eq this
  · intro r' hr'
    obtain ⟨r, hr, ho⟩ := hsource r' hr'
    exact (owner_eq ho).2.2.2 ▸ h.live r hr
  · intro r' hr'
    obtain ⟨r, hr, ho⟩ := hsource r' hr'
    obtain ⟨u, hu, hown⟩ := h.owner r hr
    exact ⟨u, hiups ▸ hu, hown.trans (owner_eq ho).2.1⟩
  · intro u hu requirementId hid
    obtain ⟨r, hr, rfl, hown⟩ := h.active u (hiups ▸ hu) requirementId hid
    obtain ⟨r', hr', ho⟩ := exists_of_owners_eq howners hr
    exact ⟨r', hr', (owner_eq ho).1, (owner_eq ho).2.1.trans hown⟩
  · intro u hu hnone r' hr' hown
    obtain ⟨r, hr, ho⟩ := hsource r' hr'
    exact h.unopened u (hiups ▸ hu) hnone r hr ((owner_eq ho).2.1.trans hown)
  · intro r' hr' hs
    obtain ⟨r, hr, ho, hun⟩ := hunfinished r' hr'
    obtain ⟨u, hu, hserves⟩ := h.unfinished r hr (hun hs)
    obtain ⟨-, hown, hlink, -⟩ := owner_eq ho
    exact ⟨u, hiups ▸ hu, hserves.of_rows hrows rfl rfl rfl rfl hown hlink⟩

theorem Cancels.owned (hc : Cancels ids db db') (h : db.Owned) : db'.Owned :=
  h.of_owners hc.rows hc.itemUpholsteries hc.owners fun r' hr' => by
    obtain ⟨r, hr, ho, hu, -⟩ := hc.requirements r' hr'
    exact ⟨r, hr, ho, fun hs => (hu hs).1⟩

theorem Cancels.failedTogether {p q : ClientId → Prop} (hc : Cancels ids db db') (h : db.Owned)
    (hf : db.FailedTogether p) (hqp : ∀ id, q id → p id)
    (hall : ∀ u ∈ db.itemUpholsteries, q u.clientId → ∀ r ∈ db.requirements, r.clientId ∈ ids →
      r.itemUpholsteryId = u.clientId → ∀ x ∈ db.requirements, x.itemUpholsteryId = u.clientId →
        x.state.isUnfinished → x.clientId ∈ ids) : db'.FailedTogether q := by
  intro u hu hq r' hr' hactive hfailed x' hx' hown
  rw [hc.itemUpholsteries] at hu
  obtain ⟨r, hr, ho, -, hfail⟩ := hc.requirements r' hr'
  obtain ⟨x, hx, hox, hunx, -⟩ := hc.requirements x' hx'
  have hactive : u.activeRequirementId = some r.clientId := (owner_eq ho).1 ▸ hactive
  have hown : x.itemUpholsteryId = u.clientId := (owner_eq hox).2.1 ▸ hown
  rw [Bool.eq_false_iff]
  intro hs
  obtain ⟨hs, hids⟩ := hunx hs
  rcases hfail hfailed with hfailed | hmem
  · have := hf u hu (hqp _ hq) r hr hactive hfailed x hx hown
    exact absurd hs (by simp [this])
  · exact hids (hall u hu hq r hr hmem (h.active_own hu hr hactive) x hx hown hs)

end Cancel

section Narrowing

variable {p : ClientId → Prop}

theorem Narrows.owned (hn : Narrows db db') (h : db.Owned) : db'.Owned :=
  h.of_owners hn.rows hn.itemUpholsteries hn.owners fun r' hr' => by
    obtain ⟨r, hr, hnear⟩ := hn.requirements r' hr'
    exact ⟨r, hr, hnear.owner, hnear.unfinished⟩

theorem Narrows.failedTogether (hn : Narrows db db') (hf : db.FailedTogether p) :
    db'.FailedTogether p := by
  intro u hu hp r' hr' hactive hfailed x' hx' hown
  rw [hn.itemUpholsteries] at hu
  obtain ⟨r, hr, hnear⟩ := hn.requirements r' hr'
  obtain ⟨x, hx, hnearx⟩ := hn.requirements x' hx'
  have hall := hf u hu hp r hr ((owner_eq hnear.owner).1 ▸ hactive) (hnear.failed hfailed) x hx
    ((owner_eq hnearx.owner).2.1 ▸ hown)
  exact Bool.eq_false_iff.mpr fun hs => absurd (hnearx.unfinished hs) (by simp [hall])

end Narrowing

end BeyoManager.Upholstery
