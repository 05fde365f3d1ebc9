import BeyoManager.Upholstery.Owners
import BeyoManager.Upholstery.SelectionLedger

/-! # Owners through the commands on selections

Creating, swapping, splitting and restoring keep every unfinished requirement with a current
item upholstery; deleting and replacing do so when nothing unfinished is left behind.
-/

namespace BeyoManager.Upholstery

open Relational Transition

variable {db db₁ db' : Db} {now : Instant} {itemUpholsteryId newItemUpholsteryId newRequirementId
  newInventoryId : ClientId} {upholsteryId : Option ClientId} {amountMeters : Option Meters}
  {source : ItemUpholsterySource} {u : ItemUpholstery} {r : ItemUpholsteryRequirement}

/-- The owners are right, and what has failed has failed together. -/
structure Db.WellOwned (db : Db) : Prop where
  owned : db.Owned
  together : db.FailedTogether fun _ => True

theorem Narrows.wellOwned (hn : Narrows db db') (h : db.WellOwned) : db'.WellOwned :=
  ⟨hn.owned h.owned, hn.failedTogether h.together⟩

theorem Db.WellOwned.of_eq (h : db.WellOwned)
    (hinventory : db'.upholsteryInventory = db.upholsteryInventory)
    (hiups : db'.itemUpholsteries = db.itemUpholsteries)
    (hrs : db'.requirements = db.requirements) : db'.WellOwned :=
  (narrows_of_eq hinventory hiups hrs).wellOwned h

section Opening

theorem Opens.owned (ho : Opens itemUpholsteryId upholsteryId r db db') (h : db.Owned)
    (hu : u ∈ db.itemUpholsteries) (hid : u.clientId = itemUpholsteryId)
    (hd : u.isDeleted = false) (hfabric : u.upholsteryId = upholsteryId) : db'.Owned := by
  have hopened : { u with activeRequirementId := some r.clientId } ∈ db'.itemUpholsteries := by
    have := mem_updateWhere_of_mem (p := fun u => u.clientId == itemUpholsteryId)
      (f := fun u => { u with activeRequirementId := some r.clientId }) hu
    rwa [if_pos (by simpa using hid), ← ho.itemUpholsteries] at this
  have hkept : ∀ u ∈ db.itemUpholsteries, ∃ u' ∈ db'.itemUpholsteries,
      u'.clientId = u.clientId ∧ u'.isDeleted = u.isDeleted ∧ u'.upholsteryId = u.upholsteryId := by
    intro u hu
    refine ⟨_, ho.itemUpholsteries ▸ mem_updateWhere_of_mem hu, ?_⟩
    split <;> exact ⟨rfl, rfl, rfl⟩
  refine ⟨ho.rows.keyed h.inventoryKeyed, ?_, ?_, ?_, ?_, ?_, ?_, ?_⟩
  · exact ho.itemUpholsteries ▸ keyed_update h.itemUpholsteriesKeyed fun _ _ _ => rfl
  · rw [ho.requirements]
    refine keyed_append.mpr ⟨h.requirementsKeyed, List.nodup_singleton _, fun x hx y hy => ?_⟩
    obtain rfl := List.mem_singleton.mp hy
    exact ho.fresh x hx
  · intro x hx
    rcases List.mem_append.mp (ho.requirements ▸ hx) with hx | hx
    · exact h.live x hx
    · exact List.mem_singleton.mp hx ▸ ho.isDeleted
  · intro x hx
    rcases List.mem_append.mp (ho.requirements ▸ hx) with hx | hx
    · obtain ⟨u, hu, hown⟩ := h.owner x hx
      obtain ⟨u', hu', hid', -⟩ := hkept u hu
      exact ⟨u', hu', hid'.trans hown⟩
    · obtain rfl := List.mem_singleton.mp hx
      exact ⟨_, hopened, hid.trans ho.itemUpholsteryId_eq.symm⟩
  · intro y hy requirementId hactive
    rw [ho.requirements]
    obtain ⟨x, hx, rfl⟩ := mem_updateWhere.mp (ho.itemUpholsteries ▸ hy)
    split at hactive
    · rename_i hxid
      rw [if_pos hxid]
      obtain rfl := Option.some_inj.mp hactive
      exact ⟨r, by simp, rfl, ho.itemUpholsteryId_eq.trans (beq_iff_eq.mp hxid).symm⟩
    · rename_i hxid
      rw [if_neg hxid]
      obtain ⟨x', hx', he⟩ := h.active x hx requirementId hactive
      exact ⟨x', List.mem_append_left _ hx', he⟩
  · intro y hy hnone x hx hown
    obtain ⟨z, hz, rfl⟩ := mem_updateWhere.mp (ho.itemUpholsteries ▸ hy)
    split at hnone
    · cases hnone
    · rename_i hzid
      rw [if_neg hzid] at hown
      rcases List.mem_append.mp (ho.requirements ▸ hx) with hx | hx
      · exact h.unopened z hz hnone x hx hown
      · obtain rfl := List.mem_singleton.mp hx
        exact hzid (by simpa using hown.symm.trans ho.itemUpholsteryId_eq)
  · intro x hx hs
    rcases List.mem_append.mp (ho.requirements ▸ hx) with hx | hx
    · obtain ⟨u, hu, hserves⟩ := h.unfinished x hx hs
      obtain ⟨u', hu', hid', hd', hfab'⟩ := hkept u hu
      exact ⟨u', hu', hserves.of_rows ho.rows rfl hid' hd' hfab' rfl rfl⟩
    · obtain rfl := List.mem_singleton.mp hx
      refine ⟨_, hopened, hid.trans ho.itemUpholsteryId_eq.symm, hd, fun inventoryId hinv => ?_⟩
      obtain ⟨i, hi, hiid, hfab⟩ := ho.linked inventoryId hinv
      exact ⟨i, hi, hiid, hfabric.trans hfab⟩

/-- Opening a requirement settles what its item upholstery has failed. -/
theorem Opens.together (ho : Opens itemUpholsteryId upholsteryId r db db') (h : db.Owned)
    (hf : db.FailedTogether (· ≠ itemUpholsteryId)) : db'.FailedTogether fun _ => True := by
  intro y hy _ x hx hactive hfailed z hz hown
  obtain ⟨u, hu, rfl⟩ := mem_updateWhere.mp (ho.itemUpholsteries ▸ hy)
  split at hactive
  · have hxr : x = r := by
      rcases List.mem_append.mp (ho.requirements ▸ hx) with hx | hx
      · exact absurd (Option.some_inj.mp hactive).symm (ho.fresh x hx)
      · exact List.mem_singleton.mp hx
    exact absurd (hxr ▸ hfailed) ho.state
  · rename_i hid
    rw [if_neg hid] at hown
    have hid : u.clientId ≠ itemUpholsteryId := by simpa using hid
    have hold : ∀ x ∈ db'.requirements, x.itemUpholsteryId = u.clientId → x ∈ db.requirements := by
      intro x hx hown
      rcases List.mem_append.mp (ho.requirements ▸ hx) with hx | hx
      · exact hx
      · obtain rfl := List.mem_singleton.mp hx
        exact absurd (hown.symm.trans ho.itemUpholsteryId_eq) hid
    have hxown : x.itemUpholsteryId = u.clientId := by
      obtain ⟨x', hx', hxid, hown'⟩ := h.active u hu x.clientId hactive
      rcases List.mem_append.mp (ho.requirements ▸ hx) with hx | hx
      · rwa [h.requirementsKeyed.inj hx' hx hxid] at hown'
      · obtain rfl := List.mem_singleton.mp hx
        exact absurd hxid (ho.fresh x' hx')
    exact hf u hu hid x (hold x hx hxown) hactive hfailed z (hold z hz hown) hown

end Opening

section Selection

variable {f : ItemUpholstery → ItemUpholstery} {p : ClientId → Prop}

/-- Writing an item upholstery whose unfinished requirements it still serves keeps the owners. -/
theorem updateItemUpholstery_owned (h : db.Owned) (hid : ∀ u, (f u).clientId = u.clientId)
    (hactive : ∀ u, (f u).activeRequirementId = u.activeRequirementId)
    (hserves : ∀ u ∈ db.itemUpholsteries, u.clientId = itemUpholsteryId →
      ∀ r ∈ db.requirements, r.state.isUnfinished → db.Serves u r → db.Serves (f u) r) :
    (db.updateItemUpholstery itemUpholsteryId f).Owned := by
  refine ⟨h.inventoryKeyed, keyed_update h.itemUpholsteriesKeyed fun u _ _ => hid u,
    h.requirementsKeyed, h.live, fun r hr => ?_, fun y hy requirementId hreq => ?_,
    fun y hy hnone => ?_, fun r hr hs => ?_⟩
  · obtain ⟨u, hu, hown⟩ := h.owner r hr
    refine ⟨_, mem_updateWhere_of_mem hu, ?_⟩
    split
    · exact (hid u).trans hown
    · exact hown
  · obtain ⟨u, hu, rfl⟩ := mem_updateWhere.mp hy
    split at hreq
    · rw [if_pos ‹_›, hid]
      exact h.active u hu requirementId (hactive u ▸ hreq)
    · rw [if_neg ‹_›]
      exact h.active u hu requirementId hreq
  · obtain ⟨u, hu, rfl⟩ := mem_updateWhere.mp hy
    split at hnone
    · rw [if_pos ‹_›, hid]
      exact h.unopened u hu (hactive u ▸ hnone)
    · rw [if_neg ‹_›]
      exact h.unopened u hu hnone
  · obtain ⟨u, hu, hown⟩ := h.unfinished r hr hs
    refine ⟨_, mem_updateWhere_of_mem hu, ?_⟩
    split
    · rename_i hp
      exact (hserves u hu (beq_iff_eq.mp hp) r hr hs hown).congr rfl
    · exact hown.congr rfl

theorem updateItemUpholstery_together (h : db.FailedTogether p)
    (hid : ∀ u, (f u).clientId = u.clientId)
    (hactive : ∀ u, (f u).activeRequirementId = u.activeRequirementId) :
    (db.updateItemUpholstery itemUpholsteryId f).FailedTogether p := by
  intro y hy hp r hr hreq hfailed x hx hown
  obtain ⟨u, hu, rfl⟩ := mem_updateWhere.mp hy
  split at hreq
  · rw [if_pos ‹_›, hid] at hp hown
    exact h u hu hp r hr (hactive u ▸ hreq) hfailed x hx hown
  · rw [if_neg ‹_›] at hp hown
    exact h u hu hp r hr hreq hfailed x hx hown

theorem dropItemUpholstery_wellOwned (h : db.WellOwned)
    (hnone : ∀ r ∈ db.requirements, r.itemUpholsteryId = u.clientId →
      r.state.isUnfinished = false) :
    (db.updateItemUpholstery u.clientId fun u => { u with isDeleted := true }).WellOwned := by
  refine ⟨updateItemUpholstery_owned h.owned (fun _ => rfl) (fun _ => rfl) ?_,
    updateItemUpholstery_together h.together (fun _ => rfl) fun _ => rfl⟩
  intro u' _ hid r hr hs hserves
  exact absurd hs (by simp [hnone r hr (hserves.owner.symm.trans hid)])

theorem insertItemUpholstery_wellOwned (h : db.WellOwned) (hactive : u.activeRequirementId = none)
    (hok : db.insertItemUpholstery u = .ok db') :
    db'.WellOwned ∧ u ∈ db'.itemUpholsteries := by
  obtain ⟨hfresh, hok⟩ := throwIf_bind_eq_ok.mp hok
  obtain ⟨-, hok⟩ := throwIf_bind_eq_ok.mp hok
  cases hok
  have hown := h.owned
  have hfresh : ∀ x ∈ db.itemUpholsteries, x.clientId ≠ u.clientId := fun x hx he =>
    hfresh ⟨x, hx, he⟩
  refine ⟨⟨⟨hown.inventoryKeyed, ?_, hown.requirementsKeyed, hown.live, fun r hr => ?_,
    fun y hy requirementId hreq => ?_, fun y hy hnone r hr => ?_, fun r hr hs => ?_⟩,
    fun y hy _ r hr hreq => ?_⟩, by simp⟩
  · refine keyed_append.mpr ⟨hown.itemUpholsteriesKeyed, List.nodup_singleton _,
      fun x hx y hy => ?_⟩
    obtain rfl := List.mem_singleton.mp hy
    exact hfresh x hx
  · obtain ⟨x, hx, he⟩ := hown.owner r hr
    exact ⟨x, List.mem_append_left _ hx, he⟩
  · rcases List.mem_append.mp hy with hy | hy
    · exact hown.active y hy requirementId hreq
    · obtain rfl := List.mem_singleton.mp hy
      simp [hactive] at hreq
  · rcases List.mem_append.mp hy with hy | hy
    · exact hown.unopened y hy hnone r hr
    · obtain rfl := List.mem_singleton.mp hy
      obtain ⟨x, hx, he⟩ := hown.owner r hr
      exact fun he' => hfresh x hx (he.trans he')
  · obtain ⟨x, hx, he⟩ := hown.unfinished r hr hs
    exact ⟨x, List.mem_append_left _ hx, he.congr rfl⟩
  · rcases List.mem_append.mp hy with hy | hy
    · exact h.together y hy trivial r hr hreq
    · obtain rfl := List.mem_singleton.mp hy
      simp [hactive] at hreq

theorem createInitialRequirement_wellOwned (h : db.Owned)
    (hf : db.FailedTogether (· ≠ u.clientId)) (hu : u ∈ db.itemUpholsteries)
    (hd : u.isDeleted = false)
    (hok : createInitialRequirement db u.clientId u.upholsteryId amountMeters source
      newRequirementId newInventoryId now = .ok db') : db'.WellOwned := by
  obtain ⟨r, hopens⟩ := createInitialRequirement_opens hok
  exact ⟨hopens.owned h hu rfl hd rfl, hopens.together h hf⟩

theorem Db.FailedTogether.mono (h : db.FailedTogether fun _ => True) : db.FailedTogether p :=
  fun u hu _ => h u hu trivial

theorem createItemUpholsteryInSession_wellOwned {itemId created : ClientId}
    {clientId : Option ClientId} (h : db.WellOwned)
    (hok : createItemUpholsteryInSession db itemId upholsteryId amountMeters source clientId
      newItemUpholsteryId newRequirementId newInventoryId now = .ok (db', created)) :
    db'.WellOwned := by
  obtain ⟨-, hok⟩ := throwIf_bind_eq_ok.mp hok
  obtain ⟨db₁, hins, hok⟩ := bind_eq_ok.mp hok
  obtain ⟨h₁, hu⟩ := insertItemUpholstery_wellOwned h rfl hins
  split at hok
  · cases hok
    exact h₁
  · obtain ⟨db₂, hinit, hok⟩ := bind_eq_ok.mp hok
    cases hok
    exact createInitialRequirement_wellOwned h₁.owned h₁.together.mono hu rfl hinit

end Selection

section Requirement

variable {f : ItemUpholsteryRequirement → ItemUpholsteryRequirement}

/-- Rewriting an unfinished requirement that its item upholstery goes on serving. -/
theorem rewriteRequirement_wellOwned (h : db.WellOwned)
    (hrows : RowsKept db.upholsteryInventory db'.upholsteryInventory)
    (hiups : db'.itemUpholsteries = db.itemUpholsteries)
    (hrs : db'.requirements = updateWhere (fun x => x.clientId == r.clientId) f db.requirements)
    (hu : u ∈ db.itemUpholsteries) (hr : r ∈ db.requirements) (hunfinished : r.state.isUnfinished)
    (hid : (f r).clientId = r.clientId) (hown : (f r).itemUpholsteryId = r.itemUpholsteryId)
    (hd : (f r).isDeleted = r.isDeleted) (hfailed : (f r).state ≠ .failed)
    (hserves : db'.Serves u (f r)) : db'.WellOwned := by
  have hk := h.owned.requirementsKeyed
  have hcases : ∀ y ∈ db'.requirements, y = f r ∨ y ∈ db.requirements ∧ y.clientId ≠ r.clientId :=
    fun y hy => hk.mem_update hr (hrs ▸ hy)
  have hkept : ∀ x ∈ db.requirements, ∃ y ∈ db'.requirements, y.clientId = x.clientId ∧
      y.itemUpholsteryId = x.itemUpholsteryId := by
    intro x hx
    refine ⟨_, hrs ▸ mem_updateWhere_of_mem hx, ?_⟩
    split
    · rename_i hp
      obtain rfl := hk.inj hx hr (beq_iff_eq.mp hp)
      exact ⟨hid, hown⟩
    · exact ⟨rfl, rfl⟩
  refine ⟨⟨hrows.keyed h.owned.inventoryKeyed, hiups ▸ h.owned.itemUpholsteriesKeyed, ?_,
    fun y hy => ?_, fun y hy => ?_, fun v hv requirementId hreq => ?_, fun v hv hnone y hy => ?_,
    fun y hy hs => ?_⟩, fun v hv _ y hy hreq hfail x hx hxown => ?_⟩
  · rw [hrs]
    refine keyed_update hk fun x hx hp => ?_
    rw [hk.inj hx hr (beq_iff_eq.mp hp), hid]
  · rcases hcases y hy with rfl | ⟨hy, -⟩
    · exact hd.trans (h.owned.live r hr)
    · exact h.owned.live y hy
  · rw [hiups]
    rcases hcases y hy with rfl | ⟨hy, -⟩
    · exact hown ▸ h.owned.owner r hr
    · exact h.owned.owner y hy
  · obtain ⟨x, hx, rfl, hxown⟩ := h.owned.active v (hiups ▸ hv) requirementId hreq
    obtain ⟨y, hy, hyid, hyown⟩ := hkept x hx
    exact ⟨y, hy, hyid, hyown.trans hxown⟩
  · rcases hcases y hy with rfl | ⟨hy, -⟩
    · exact hown ▸ h.owned.unopened v (hiups ▸ hv) hnone r hr
    · exact h.owned.unopened v (hiups ▸ hv) hnone y hy
  · rw [hiups]
    rcases hcases y hy with rfl | ⟨hy, -⟩
    · exact ⟨u, hu, hserves⟩
    · obtain ⟨v, hv, hv'⟩ := h.owned.unfinished y hy hs
      exact ⟨v, hv, hv'.of_rows hrows rfl rfl rfl rfl rfl rfl⟩
  · rcases hcases y hy with rfl | ⟨hy, -⟩
    · exact absurd hfail hfailed
    · have hall := h.together v (hiups ▸ hv) trivial y hy hreq hfail
      rcases hcases x hx with rfl | ⟨hx, -⟩
      · exact absurd hunfinished (by simp [hall r hr (hown ▸ hxown)])
      · exact hall x hx hxown

/-- A further requirement of an item upholstery whose active requirement has not failed. -/
theorem insertRequirement_wellOwned (h : db.WellOwned) (hu : u ∈ db.itemUpholsteries)
    {active : ItemUpholsteryRequirement} (hactive : active ∈ db.requirements)
    (hpointer : u.activeRequirementId = some active.clientId) (hstate : active.state ≠ .failed)
    (hd : r.isDeleted = false) (hserves : db.Serves u r)
    (hok : db.insertRequirement r = .ok db') : db'.WellOwned := by
  obtain ⟨hfresh, rfl⟩ := insertRequirement_eq_ok hok
  have hown := h.owned
  refine ⟨⟨hown.inventoryKeyed, hown.itemUpholsteriesKeyed, ?_, fun y hy => ?_, fun y hy => ?_,
    fun v hv requirementId hreq => ?_, fun v hv hnone y hy => ?_, fun y hy hs => ?_⟩,
    fun v hv _ y hy hreq hfail x hx hxown => ?_⟩
  · refine keyed_append.mpr ⟨hown.requirementsKeyed, List.nodup_singleton _, fun x hx y hy => ?_⟩
    obtain rfl := List.mem_singleton.mp hy
    exact hfresh x hx
  · rcases List.mem_append.mp hy with hy | hy
    · exact hown.live y hy
    · exact List.mem_singleton.mp hy ▸ hd
  · rcases List.mem_append.mp hy with hy | hy
    · exact hown.owner y hy
    · obtain rfl := List.mem_singleton.mp hy
      exact ⟨u, hu, hserves.owner⟩
  · obtain ⟨x, hx, he⟩ := hown.active v hv requirementId hreq
    exact ⟨x, List.mem_append_left _ hx, he⟩
  · rcases List.mem_append.mp hy with hy | hy
    · exact hown.unopened v hv hnone y hy
    · obtain rfl := List.mem_singleton.mp hy
      intro he
      obtain rfl := hown.itemUpholsteriesKeyed.inj hu hv (hserves.owner.trans he)
      simp [hnone] at hpointer
  · rcases List.mem_append.mp hy with hy | hy
    · obtain ⟨v, hv, hv'⟩ := hown.unfinished y hy hs
      exact ⟨v, hv, hv'.congr rfl⟩
    · obtain rfl := List.mem_singleton.mp hy
      exact ⟨u, hu, hserves.congr rfl⟩
  · obtain ⟨y', hy', hid, -⟩ := hown.active v hv y.clientId hreq
    rcases List.mem_append.mp hy with hy | hy
    · rcases List.mem_append.mp hx with hx | hx
      · exact h.together v hv trivial y hy hreq hfail x hx hxown
      · rw [List.mem_singleton.mp hx] at hxown
        obtain rfl := hown.itemUpholsteriesKeyed.inj hu hv (hserves.owner.trans hxown)
        have he := Option.some_inj.mp (hpointer.symm.trans hreq)
        obtain rfl := hown.requirementsKeyed.inj hactive hy he
        exact absurd hfail hstate
    · obtain rfl := List.mem_singleton.mp hy
      exact absurd hid (hfresh y' hy')

end Requirement

end BeyoManager.Upholstery
