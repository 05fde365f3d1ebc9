import BeyoManager.Upholstery.CommandFrames

/-! # What the commands on a selection write

Opening a requirement adds it to the table and makes it the active one of its item upholstery;
cancelling fails requirements. Nothing else of the selections changes.
-/

namespace BeyoManager.Upholstery

open Relational Transition

variable {db db₁ db' : Db} {now : Instant} {itemUpholsteryId newRequirementId newInventoryId :
  ClientId} {upholsteryId : Option ClientId} {amountMeters : Option Meters}
  {source : ItemUpholsterySource}

theorem loadOrCreateInventory_rowsKept {inv : UpholsteryInventory}
    (h : db.loadOrCreateInventory upholsteryId newInventoryId = .ok (db', inv)) :
    RowsKept db.upholsteryInventory db'.upholsteryInventory ∧
      (inv ∈ db'.upholsteryInventory ∧ upholsteryId = some inv.upholsteryId) ∧
      db'.requirements = db.requirements ∧ db'.itemUpholsteries = db.itemUpholsteries := by
  unfold Db.loadOrCreateInventory at h
  cases upholsteryId with
  | none => cases h
  | some upholsteryId =>
    cases hinv : db.inventoryOf upholsteryId with
    | some inv =>
      simp only [hinv] at h
      cases h
      obtain ⟨hmem, rfl⟩ := inventoryOf_eq_some hinv
      exact ⟨.refl _, ⟨hmem, rfl⟩, rfl, rfl⟩
    | none =>
      simp only [hinv] at h
      obtain ⟨db₁, hins, h⟩ := bind_eq_ok.mp h
      cases h
      have hrows := insertInventory_rowsKept hins
      obtain ⟨-, rfl⟩ := insertInventory_eq_ok hins
      exact ⟨hrows, ⟨by simp, rfl⟩, rfl, rfl⟩

theorem checkAndInjectNeed_rowsKept {quantity : Meters} {result : NeedResult}
    (h : db.checkAndInjectNeed upholsteryId quantity newInventoryId = .ok (db', result)) :
    RowsKept db.upholsteryInventory db'.upholsteryInventory ∧
      (∃ i ∈ db'.upholsteryInventory, i.clientId = result.inventoryId ∧
        upholsteryId = some i.upholsteryId) ∧
      db'.requirements = db.requirements ∧ db'.itemUpholsteries = db.itemUpholsteries := by
  obtain ⟨⟨db₀, inv⟩, hload, h⟩ := bind_eq_ok.mp h
  obtain ⟨hrows, ⟨hmem, hu⟩, hrs, hiups⟩ := loadOrCreateInventory_rowsKept hload
  have honly : InventoryOnly db₀ db' := by
    cases h
    exact updateInventory_inventoryOnly fun _ => rfl
  have hid : inv.clientId = result.inventoryId := by
    cases h
    rfl
  have hkept := rowsKept_of_map_eq honly.names
  obtain ⟨i', hi', hn⟩ := hkept.names inv hmem
  obtain ⟨hn, hun⟩ := Prod.mk.inj hn
  exact ⟨hrows.trans hkept, ⟨i', hi', hn.trans hid, hu.trans (congrArg some hun.symm)⟩,
    honly.requirements.trans hrs, honly.itemUpholsteries.trans hiups⟩

/-- One requirement is opened: it is the active one of its item upholstery from then on, and it
is linked to no row or to one of the upholstery. -/
structure Opens (itemUpholsteryId : ClientId) (upholsteryId : Option ClientId)
    (r : ItemUpholsteryRequirement) (db db' : Db) : Prop where
  rows : RowsKept db.upholsteryInventory db'.upholsteryInventory
  itemUpholsteries : db'.itemUpholsteries = updateWhere (fun u => u.clientId == itemUpholsteryId)
    (fun u => { u with activeRequirementId := some r.clientId }) db.itemUpholsteries
  requirements : db'.requirements = db.requirements ++ [r]
  fresh : ∀ x ∈ db.requirements, x.clientId ≠ r.clientId
  itemUpholsteryId_eq : r.itemUpholsteryId = itemUpholsteryId
  isDeleted : r.isDeleted = false
  state : r.state ≠ .failed
  linked : ∀ inventoryId ∈ r.upholsteryInventoryId, ∃ i ∈ db'.upholsteryInventory,
    i.clientId = inventoryId ∧ upholsteryId = some i.upholsteryId

theorem createInitialRequirement_opens
    (h : createInitialRequirement db itemUpholsteryId upholsteryId amountMeters source
      newRequirementId newInventoryId now = .ok db') :
    ∃ r, Opens itemUpholsteryId upholsteryId r db db' := by
  unfold createInitialRequirement at h
  cases amountMeters with
  | none =>
    obtain ⟨_, hpair, h⟩ := bind_eq_ok.mp h
    cases hpair
    obtain ⟨db₁, hins, h⟩ := bind_eq_ok.mp h
    cases h
    obtain ⟨hfresh, rfl⟩ := insertRequirement_eq_ok hins
    exact ⟨_, .refl _, rfl, rfl, hfresh, rfl, rfl, by simp [ItemUpholsteryRequirement.new], by
      simp [ItemUpholsteryRequirement.new]⟩
  | some quantity =>
    cases source with
    | customer =>
      obtain ⟨_, hpair, h⟩ := bind_eq_ok.mp h
      cases hpair
      obtain ⟨db₁, hins, h⟩ := bind_eq_ok.mp h
      cases h
      obtain ⟨hfresh, rfl⟩ := insertRequirement_eq_ok hins
      exact ⟨_, .refl _, rfl, rfl, hfresh, rfl, rfl, by simp, by
        simp [ItemUpholsteryRequirement.new]⟩
    | internal =>
      obtain ⟨⟨db₁, result⟩, hneed, h⟩ := bind_eq_ok.mp h
      obtain ⟨_, hpair, h⟩ := bind_eq_ok.mp h
      cases hpair
      obtain ⟨db₂, hins, h⟩ := bind_eq_ok.mp h
      cases h
      obtain ⟨hrows, hlink, hrs, hiups⟩ := checkAndInjectNeed_rowsKept hneed
      obtain ⟨hfresh, rfl⟩ := insertRequirement_eq_ok hins
      refine ⟨_, hrows, ?_, congrArg (· ++ _) hrs, hrs ▸ hfresh, rfl, rfl, ?_, ?_⟩
      · exact congrArg (updateWhere _ _) hiups
      · unfold NeedResult.state
        split <;> simp
      · intro inventoryId hinv
        obtain rfl : result.inventoryId = inventoryId := Option.some_inj.mp hinv
        exact hlink

/-- Requirements under some ids are no longer unfinished; the others stay as they are. -/
structure Cancels (ids : List ClientId) (db db' : Db) : Prop where
  rows : RowsKept db.upholsteryInventory db'.upholsteryInventory
  itemUpholsteries : db'.itemUpholsteries = db.itemUpholsteries
  owners : db'.requirements.map (·.owner) = db.requirements.map (·.owner)
  requirements : ∀ r' ∈ db'.requirements, ∃ r ∈ db.requirements, r'.owner = r.owner ∧
    (r'.state.isUnfinished → r.state.isUnfinished ∧ r.clientId ∉ ids) ∧
    (r'.state = .failed → r.state = .failed ∨ r.clientId ∈ ids)

theorem Cancels.refl (db : Db) : Cancels [] db db :=
  ⟨.refl _, rfl, rfl, fun r hr => ⟨r, hr, rfl, fun h => ⟨h, by simp⟩, .inl⟩⟩

theorem Cancels.trans {ids ids' : List ClientId} (h₁ : Cancels ids db db₁)
    (h₂ : Cancels ids' db₁ db') : Cancels (ids ++ ids') db db' := by
  refine ⟨h₁.rows.trans h₂.rows, h₂.itemUpholsteries.trans h₁.itemUpholsteries,
    h₂.owners.trans h₁.owners, fun r'' hr'' => ?_⟩
  obtain ⟨r', hr', ho', hu', hf'⟩ := h₂.requirements r'' hr''
  obtain ⟨r, hr, ho, hu, hf⟩ := h₁.requirements r' hr'
  have hid : r'.clientId = r.clientId := congrArg Prod.fst ho
  refine ⟨r, hr, ho'.trans ho, fun h => ?_, fun h => ?_⟩
  · obtain ⟨h, hids'⟩ := hu' h
    obtain ⟨h, hids⟩ := hu h
    exact ⟨h, fun hmem => (List.mem_append.mp hmem).elim hids (hid ▸ hids')⟩
  · rw [List.mem_append, ← or_assoc]
    exact (hf' h).imp hf fun h => hid ▸ h

theorem cancelRequirement_cancels {r : ItemUpholsteryRequirement}
    (hr : ∀ x ∈ db.requirements, x.clientId = r.clientId → x.state.isUnfinished →
      r.state.isUnfinished)
    (h : cancelRequirement now db r = .ok db') : Cancels [r.clientId] db db' := by
  by_cases hunfinished : r.state.isUnfinished
  · have hrewrite := cancelRequirement_rewritesOne hunfinished h
    refine ⟨rowsKept_of_map_eq hrewrite.names, hrewrite.itemUpholsteries, ?_, fun y hy => ?_⟩
    · rw [hrewrite.requirements]
      exact map_updateWhere_of_fixed fun _ _ _ => rfl
    · obtain ⟨x, hx, rfl⟩ := mem_updateWhere.mp (hrewrite.requirements ▸ hy)
      refine ⟨x, hx, ?_⟩
      split
      · rename_i hid
        exact ⟨rfl, by simp [RequirementState.isUnfinished], fun _ => .inr (by simpa using hid)⟩
      · rename_i hid
        exact ⟨rfl, fun h => ⟨h, by simpa using hid⟩, .inl⟩
  · rw [cancelRequirement, if_neg hunfinished] at h
    cases h
    refine ⟨.refl _, rfl, rfl, fun x hx => ⟨x, hx, rfl, fun h => ⟨h, fun hid => ?_⟩, .inl⟩⟩
    exact hunfinished (hr x hx (List.mem_singleton.mp hid) h)

/-- Cancelling requirements that the table has. -/
theorem cancelRequirements_cancels {l : List ItemUpholsteryRequirement}
    (hk : Keyed ItemUpholsteryRequirement.clientId db.requirements)
    (hl : ∀ r ∈ l, r ∈ db.requirements) (h : cancelRequirements now db l = .ok db') :
    ∃ ids, Cancels ids db db' ∧ ∀ id, id ∈ ids ↔ id ∈ l.map (·.clientId) := by
  have hperm := Sorting.sortBy_perm ItemUpholsteryRequirement.clientId l
  refine ⟨(Sorting.sortBy (·.clientId) l).map (·.clientId), ?_,
    fun id => (hperm.map (·.clientId)).mem_iff⟩
  refine (foldlM_loop (fun rest db₁ => ∃ done, done ++ rest = Sorting.sortBy (·.clientId) l ∧
    Cancels (done.map (·.clientId)) db db₁) ?_ ⟨[], rfl, .refl db⟩ h).elim ?_
  · rintro r rest db₁ db₂ ⟨done, he, hc⟩ hp
    refine ⟨done ++ [r], by simpa using he, ?_⟩
    rw [List.map_append]
    refine hc.trans (cancelRequirement_cancels (fun x hx hid hunfinished => ?_) hp)
    obtain ⟨y, hy, ho, hu, -⟩ := hc.requirements x hx
    have hrl : r ∈ l := hperm.subset (he ▸ by simp)
    obtain rfl := hk.inj hy (hl r hrl) ((congrArg Prod.fst ho).symm.trans hid)
    exact (hu hunfinished).1
  · rintro done ⟨he, hc⟩
    rw [List.append_nil] at he
    exact he ▸ hc

/-- Ensuring an upholstery creates one, replaces the current one whose requirement is finished,
or updates the current one. -/
theorem ensureItemUpholsteryInSession_cases {itemId newItemUpholsteryId : ClientId}
    {data : ItemUpholsteryData} {created : ClientId × Bool}
    (h : ensureItemUpholsteryInSession db itemId data newItemUpholsteryId newRequirementId
      newInventoryId now = .ok (db', created)) :
    (db.currentItemUpholsteries itemId = [] ∧
      createItemUpholsteryInSession db itemId data.upholsteryId.join data.amountMeters.join
        data.source data.clientId newItemUpholsteryId newRequirementId newInventoryId now =
          .ok (db', created.1)) ∨
    (∃ current r, db.currentItemUpholsteries itemId = [current] ∧
      db.fetchOwnActiveRequirement current = some r ∧
      (r.state = .completed ∨ r.state = .failed) ∧
      createItemUpholsteryInSession
        (db.updateItemUpholstery current.clientId fun u => { u with isDeleted := true }) itemId
        data.upholsteryId.join data.amountMeters.join data.source none newItemUpholsteryId
        newRequirementId newInventoryId now = .ok (db', created.1)) ∨
    ∃ current, db.currentItemUpholsteries itemId = [current] ∧
      updateCurrentItemUpholstery db data newRequirementId newInventoryId now current =
        .ok db' := by
  obtain ⟨-, h⟩ := throwIf_bind_eq_ok.mp h
  dsimp only at h
  split at h
  · rename_i hcurrent
    obtain ⟨⟨db₁, itemUpholsteryId⟩, hin, h⟩ := bind_eq_ok.mp h
    cases h
    exact .inl ⟨hcurrent, hin⟩
  · rename_i current hcurrent
    right
    obtain ⟨-, h⟩ := throwIf_bind_eq_ok.mp h
    cases hactive : current.activeRequirementId with
    | none =>
      simp only [hactive] at h
      obtain ⟨finished, hfinished, h⟩ := bind_eq_ok.mp h
      cases hfinished
      obtain ⟨db₁, hupdate, h⟩ := bind_eq_ok.mp h
      cases h
      exact .inr ⟨current, hcurrent, hupdate⟩
    | some id =>
      simp only [hactive] at h
      obtain ⟨r, hr, h⟩ := bind_eq_ok.mp h
      obtain ⟨finished, hfinished, h⟩ := bind_eq_ok.mp h
      cases hfinished
      split at h
      · rename_i hfinished
        obtain ⟨⟨db₁, itemUpholsteryId⟩, hin, h⟩ := bind_eq_ok.mp h
        cases h
        exact .inl ⟨current, r, hcurrent, getOr_eq_ok.mp hr, by simpa using hfinished, hin⟩
      · obtain ⟨db₁, hupdate, h⟩ := bind_eq_ok.mp h
        cases h
        exact .inr ⟨current, hcurrent, hupdate⟩
  · cases h

end BeyoManager.Upholstery
