import BeyoManager.StockReport.VersionEntries

/-! # Commands on versions as steps

Every command on versions, places and typed quantities, and every demand request, is a
sequence of the elementary steps.
-/

namespace BeyoManager.StockReport

open Relational Transition Sorting

abbrev VersionTrace : Db → Db → Prop := Relation.ReflTransGen VersionStep

theorem VersionTrace.invariant {I : Db → Prop}
    (h : ∀ db db', I db → VersionStep db db' → I db') {db db' : Db} (hi : I db)
    (ht : VersionTrace db db') : I db' := by
  induction ht with
  | refl => exact hi
  | tail _ hstep ih => exact h _ _ ih hstep

section Targets

variable {db : Db} {rowId : ClientId} {versionId : Option ClientId}

theorem findVersion_eq_ok {i : ClientId} {v : SnapshotVersion} (h : findVersion db i = .ok v) :
    v ∈ db.versions ∧ v.clientId = i := by
  rw [findVersion, getOr_eq_ok] at h
  exact mem_of_find?_key h

theorem discoverTargetSnapshot_eq_ok {target : TargetSnapshot}
    (h : discoverTargetSnapshot db rowId versionId = .ok target) :
    target.snapshot ∈ db.snapshots ∧ target.snapshot.stockReportItemId = rowId ∧
      target.snapshot.versionId = target.versionId := by
  unfold discoverTargetSnapshot at h
  split at h
  · simp only [bind_eq_ok, getOr_eq_ok, pure, Except.pure, Except.ok.injEq] at h
    obtain ⟨s, hs, rfl⟩ := h
    have := List.find?_some hs
    exact ⟨List.mem_of_find?_eq_some hs, by simp_all, rfl⟩
  · simp only [bind_eq_ok, getOr_eq_ok, pure, Except.pure, Except.ok.injEq] at h
    obtain ⟨v, -, s, hs, rfl⟩ := h
    have := List.find?_some hs
    simp only [Bool.and_eq_true, beq_iff_eq] at this
    exact ⟨List.mem_of_find?_eq_some hs, this.1, this.2⟩

theorem checkLockedTarget_eq_ok {target : TargetSnapshot} {locked : Option ItemSnapshot}
    {v : SnapshotVersion} {s : ItemSnapshot} (h : checkLockedTarget db target locked = .ok (v, s)) :
    locked = some s ∧ v ∈ db.versions ∧ v.clientId = target.versionId ∧ v.closedAt = none := by
  simp only [checkLockedTarget, bind_eq_ok, throwIf_eq_ok, getOr_eq_ok, pure, Except.pure,
    Except.ok.injEq, Prod.mk.injEq] at h
  obtain ⟨-, -, w, hw, -, hopen, t, ht, rfl, rfl⟩ := h
  obtain ⟨hmem, hid⟩ := findVersion_eq_ok hw
  exact ⟨ht, hmem, hid, by simpa using hopen⟩

theorem mem_lockSnapshotAndGroups {i : ClientId} {priorities : List (Option StockReportPriority)}
    {v : ClientId} {s : ItemSnapshot} : s ∈ lockSnapshotAndGroups db v i priorities ↔
      s ∈ db.snapshots ∧ s.versionId = v ∧ s.closedAt = none ∧
        (s.clientId = i ∨ ∃ p, s.priority = some p ∧ some p ∈ priorities) := by
  rw [lockSnapshotAndGroups, (sortBy_perm _ _).mem_iff, List.mem_filter]
  simp [isSnapshotOpen, and_assoc, Option.any_eq_true]

theorem placeTarget_eq_ok (hk : Keyed ItemSnapshot.clientId db.snapshots) {target : TargetSnapshot}
    {priorities : List (Option StockReportPriority)} {v : SnapshotVersion} {s : ItemSnapshot}
    (hdiscover : discoverTargetSnapshot db rowId versionId = .ok target)
    (hcheck : checkLockedTarget db target ((lockSnapshotAndGroups db target.versionId
      target.snapshot.clientId priorities).find? fun s =>
        s.clientId == target.snapshot.clientId) = .ok (v, s)) :
    s = target.snapshot ∧ s ∈ db.snapshots ∧ isSnapshotOpen s ∧ v ∈ db.versions ∧
      v.clientId = s.versionId ∧ target.versionId = s.versionId := by
  obtain ⟨hmem, -, hversion⟩ := discoverTargetSnapshot_eq_ok hdiscover
  obtain ⟨hlocked, hv, hid, -⟩ := checkLockedTarget_eq_ok hcheck
  obtain ⟨hs, hkey⟩ := mem_of_find?_key hlocked
  obtain ⟨hsm, -, hopen, -⟩ := mem_lockSnapshotAndGroups.mp hs
  obtain rfl := hk.inj hsm hmem hkey
  exact ⟨rfl, hsm, isSnapshotOpen_iff.mpr hopen, hv, hid.trans hversion.symm, hversion.symm⟩

theorem countP_lockSnapshotAndGroups {v i : ClientId} {p : StockReportPriority} :
    (lockSnapshotAndGroups db v i [some p]).countP (fun t => t.priority == some p) =
      db.snapshots.countP (inGroup v p) := by
  rw [lockSnapshotAndGroups, (sortBy_perm _ _).countP_eq, List.countP_filter]
  refine List.countP_congr fun t _ => ?_
  simp only [inGroup, Bool.and_eq_true, beq_iff_eq, Bool.or_eq_true, Option.any_eq_true,
    List.mem_singleton, decide_eq_true_eq]
  constructor
  · rintro ⟨htp, ⟨htv, hto⟩, -⟩
    exact ⟨⟨htv, htp⟩, hto⟩
  · rintro ⟨⟨htv, htp⟩, hto⟩
    exact ⟨htp, ⟨htv, hto⟩, .inr ⟨p, htp, rfl⟩⟩

theorem typedTarget_eq_ok (hi : VersionInv none db) {r : StockReportItem} {v : SnapshotVersion}
    {s : ItemSnapshot} (h : typedTarget db rowId versionId = .ok (r, v, s)) :
    (r ∈ db.rows ∧ r.isDeleted = false ∧ r.clientId = s.stockReportItemId) ∧
      (v ∈ db.versions ∧ v.closedAt = none ∧ v.clientId = s.versionId) ∧ s ∈ db.snapshots := by
  simp only [typedTarget, lockedLiveRow, bind_eq_ok, throwIf_eq_ok, getOr_eq_ok, pure,
    Except.pure, Except.ok.injEq, Prod.mk.injEq, Prod.exists] at h
  obtain ⟨q, ⟨q', hq, -, hlive, rfl⟩, target, hdiscover, w, t, hcheck, rfl, rfl, rfl⟩ := h
  obtain ⟨hr, -⟩ := mem_of_find?_key hq
  obtain ⟨hmem, hrow, hversion⟩ := discoverTargetSnapshot_eq_ok hdiscover
  obtain ⟨hlocked, hv, hid, hopen⟩ := checkLockedTarget_eq_ok hcheck
  obtain ⟨hs, hkey⟩ := mem_of_find?_key hlocked
  obtain rfl := hi.snapshots_keyed.inj hs hmem hkey
  exact ⟨⟨hr, by simpa using hlive, hrow.symm⟩, ⟨hv, hopen, hid.trans hversion.symm⟩, hs⟩

end Targets

section Commands

variable {db db' : Db}

theorem insertHistories_aside {new : List HistoryRecord}
    (h : insertHistories db new = .ok db') : VersionTrace db db' := by
  obtain ⟨-, rfl⟩ := insertHistories_eq_ok.mp h
  exact .single (.aside rfl rfl rfl)

theorem createVersion_trace (hi : VersionInv none db) {request : CreateVersionRequest}
    {now : Timestamp} {newVersionId newSchedulerId : ClientId} {newId : ℕ → ClientId}
    (h : createStockReportSnapshotVersion db request now newVersionId newSchedulerId newId =
      .ok db') : VersionTrace db db' := by
  simp only [createStockReportSnapshotVersion, bind_eq_ok] at h
  obtain ⟨-, -, -, -, h⟩ := h
  split at h
  · simp only [bind_eq_ok, insertVersion_eq_ok, insertSnapshots_eq_ok] at h
    obtain ⟨_, ⟨hv, rfl⟩, _, ⟨hs, rfl⟩, h⟩ := h
    have henter := enter_version hi hv rfl (by simp [isVersionActive]) rfl
      (fun i r => draftSnapshotValues_fresh rfl) hs
    refine .tail (.single (.enter henter)) ?_
    split at h
    · obtain ⟨schedulers, rfl⟩ := createActivationScheduler_eq_ok h
      exact .aside rfl rfl rfl
    · obtain rfl := by simpa [pure, Except.pure] using h
      exact .aside rfl rfl rfl
  · simp only [bind_eq_ok, insertVersion_eq_ok, insertSnapshots_eq_ok] at h
    obtain ⟨_, ⟨hv, rfl⟩, hs, rfl⟩ := h
    have hrows : liveRows db = liveRows (closeActiveVersion db now).1 := by
      rw [liveRows, liveRows, (closeActiveVersion_frame now).rows]
    rw [hrows] at hv hs ⊢
    refine .tail (.single (.close now)) (.enter (enter_version (hi.close now) hv rfl ?_ rfl
      (fun i r => activeSnapshotValues_fresh rfl rfl) hs))
    exact fun _ => closeActiveVersion_none hi now

theorem reconcileMembership_none (hi : VersionInv none db) {v : SnapshotVersion}
    (hv : v ∈ db.versions) (hdraft : isVersionDraft v) {mid : Db} (hrows : mid.rows = db.rows)
    {newId : ℕ → ClientId}
    (h : reconcileMembership mid v.clientId ((db.snapshots.filter fun s =>
      isSnapshotOpen s && s.versionId == v.clientId).map ItemSnapshot.stockReportItemId) newId =
        .ok db') : db' = mid := by
  have hmissing : (liveRows mid).filter (fun r => decide (r.clientId ∉ (db.snapshots.filter fun s =>
      isSnapshotOpen s && s.versionId == v.clientId).map ItemSnapshot.stockReportItemId)) = [] := by
    refine List.filter_eq_nil_iff.mpr fun r hr => ?_
    obtain ⟨hrm, hlive⟩ := mem_liveRows.mp hr
    obtain ⟨s, hs, hsv, hsr⟩ := hi.draft_covers v hv hdraft r (hrows ▸ hrm) hlive (by simp)
    have hopen := isSnapshotOpen_iff.mpr (hi.draft_open s hs v hv hsv.symm hdraft)
    simp only [decide_eq_true_eq, not_not]
    exact List.mem_map.mpr ⟨s, List.mem_filter.mpr ⟨hs, by simp [hopen, hsv]⟩, hsr⟩
  rw [reconcileMembership, hmissing] at h
  obtain ⟨-, rfl⟩ := insertSnapshots_eq_ok.mp h
  simp [snapshotEachRow]

theorem goLive_trace (hi : VersionInv none db) {request : ActivateRequest} {v : SnapshotVersion}
    (hv : v ∈ db.versions) (hdraft : isVersionDraft v) {now : Timestamp}
    {newId newHistoryId : ℕ → ClientId}
    (h : goLive db request v now newId newHistoryId = .ok db') : VersionTrace db db' := by
  simp only [goLive, bind_eq_ok] at h
  obtain ⟨mid, hreconcile, h⟩ := h
  obtain rfl := reconcileMembership_none hi hv hdraft (closeActiveVersion_frame now).rows hreconcile
  have hstill : v ∈ (closeActiveVersion db now).1.versions := by
    rcases closeActiveVersion_cases hi now with ⟨heq, -⟩ | ⟨w, hw, hact, -, -, hversions, -⟩
    · rwa [heq]
    · have hne : ¬ (v.clientId == w.clientId) = true := fun he => by
        obtain rfl := hi.versions_keyed.inj hv hw (by simpa using he)
        rw [isVersionActive_iff, (isVersionDraft_iff.mp hdraft).1] at hact
        simp at hact
      exact hversions ▸ mem_updateWhere.mpr ⟨v, hv, if_neg hne⟩
  have hlive := VersionStep.goLive hstill hdraft (closeActiveVersion_none hi now)
    ((closeActiveVersion db now).2.map SnapshotVersion.clientId)
    (if request.expected.isSome then v.scheduledActivationKeepsActiveMissing
      else request.keepActiveMissing) now
  simp only [writeActivationHistory, bind_eq_ok] at h
  obtain ⟨histories, -, h⟩ := h
  refine .trans (.tail (.tail (.single (.close now)) hlive) ?_) (insertHistories_aside h)
  exact .aside rfl rfl rfl

theorem activateVersion_trace (hi : VersionInv none db) {request : ActivateRequest}
    {now : Timestamp} {newId newHistoryId : ℕ → ClientId}
    (h : activateStockReportSnapshotVersion db request now newId newHistoryId = .ok db') :
    VersionTrace db db' := by
  simp only [activateStockReportSnapshotVersion, bind_eq_ok, throwIf_eq_ok, not_not] at h
  obtain ⟨v, hfind, -, hdraft, h⟩ := h
  have hskip : VersionTrace db (skipActivation db v.clientId) :=
    .single (.aside rfl (map_updateWhere_of_fixed fun _ _ _ => rfl) rfl)
  split at h
  · obtain rfl := by simpa [pure, Except.pure] using h
    exact .refl
  · obtain rfl := by simpa [pure, Except.pure] using h
    exact hskip
  · obtain rfl := by simpa [pure, Except.pure] using h
    exact hskip
  · exact goLive_trace hi (findVersion_eq_ok hfind).1 hdraft h

/-- The Scanner's quantity of a snapshot, read again from its row. -/
def refrozen (db : Db) (versionId : ClientId) (s : ItemSnapshot) : ItemSnapshot :=
  match db.row? s.stockReportItemId with
  | some row =>
    if s.versionId = versionId ∧ isSnapshotOpen s ∧ row.isDeleted = false ∧
        s.quantityRequestedScanner.any (fun q => decide (q ≠ row.quantityRequested)) then
      { s with quantityRequestedScanner := some row.quantityRequested }
    else s
  | none => s

theorem refrozen_requested (versionId : ClientId) (s : ItemSnapshot) :
    (refrozen db versionId s).withoutRequested = s.withoutRequested := by
  unfold refrozen
  split
  · split
    · rename_i hif
      obtain ⟨q, hq, -⟩ := (Option.any_eq_true _ _).mp hif.2.2.2
      simp [ItemSnapshot.withoutRequested, hq]
    · rfl
  · rfl

theorem refrozen_rest {versionId : ClientId} {s : ItemSnapshot} (h : s.versionId ≠ versionId) :
    refrozen db versionId s = s := by
  unfold refrozen
  split
  · rw [if_neg fun hif => h hif.1]
  · rfl

theorem refreshVersion_trace (hi : VersionInv none db) {versionId : ClientId} {keep : Bool}
    {now : Timestamp} {newId newHistoryId : ℕ → ClientId}
    (h : refreshStockReportSnapshotVersionRequested db versionId keep now newId newHistoryId =
      .ok db') : VersionTrace db db' := by
  simp only [refreshStockReportSnapshotVersionRequested, bind_eq_ok, throwIf_eq_ok, not_not, pure,
    Except.pure, Except.ok.injEq] at h
  obtain ⟨v, hfind, -, hact, cleared, hclear, added, hadd, rfl⟩ := h
  obtain ⟨hv, -⟩ := findVersion_eq_ok hfind
  have hretyped : ∃ f, Retyped (fun s => s.versionId == v.clientId) f db cleared := by
    unfold refreshManual at hclear
    split at hclear
    · obtain rfl := by simpa using hclear
      exact ⟨refrozen db v.clientId, rfl, rfl, rfl,
        fun s _ hs => refrozen_rest (by simpa using hs), fun s _ => refrozen_requested _ s⟩
    · obtain ⟨-, rfl⟩ := insertHistories_eq_ok.mp hclear
      refine ⟨fun s => if hasManual v.clientId (refrozen db v.clientId s) then
          { refrozen db v.clientId s with quantityRequestedManual := none }
        else refrozen db v.clientId s, rfl, rfl, ?_, fun s _ hs => ?_, fun s _ => ?_⟩
      · exact List.map_map
      · have hne : s.versionId ≠ v.clientId := by simpa using hs
        simp only [refrozen_rest hne]
        rw [if_neg]
        simp [hasManual, hne]
      · rw [← refrozen_requested v.clientId s]
        split <;> rfl
  obtain ⟨f, hretyped⟩ := hretyped
  have hcleared : VersionInv none cleared := hi.congr hretyped.standing
  refine .single (.retype (fun s t he => ?_) hretyped
    (enter_missingRows hcleared (hretyped.versions ▸ hv) hact hadd))
  rw [show s.versionId = t.versionId from congrArg Prod.fst he]

theorem updateVersion_trace {request : UpdateVersionRequest} {now : Timestamp}
    {newSchedulerId : ClientId}
    (h : updateStockReportSnapshotVersion db request now newSchedulerId = .ok db') :
    VersionTrace db db' := by
  simp only [updateStockReportSnapshotVersion, bind_eq_ok] at h
  obtain ⟨v, -, -, -, -, -, h⟩ := h
  have hlives : (updateVersion db v.clientId request.apply).versions.map SnapshotVersion.life =
      db.versions.map SnapshotVersion.life := map_updateWhere_of_fixed fun _ _ _ => rfl
  split at h
  · obtain rfl := by simpa [pure, Except.pure] using h
    exact .single (.aside rfl hlives rfl)
  · split at h
    · obtain ⟨schedulers, rfl⟩ := createActivationScheduler_eq_ok h
      exact .single (.aside rfl hlives rfl)
    · obtain rfl := by simpa [pure, Except.pure] using h
      exact .single (.aside rfl hlives rfl)

theorem deleteVersion_trace {versionId : ClientId}
    (h : deleteStockReportSnapshotVersion db versionId = .ok db') : VersionTrace db db' := by
  simp only [deleteStockReportSnapshotVersion, bind_eq_ok, throwIf_eq_ok, not_not, pure,
    Except.pure, Except.ok.injEq] at h
  obtain ⟨v, hfind, -, hdraft, rfl⟩ := h
  have haside : VersionStep db (cancelActivationSchedulers db v.clientId none) :=
    .aside rfl rfl rfl
  refine .tail (.single haside) (.discard ?_ hdraft)
  exact (findVersion_eq_ok hfind).1

theorem applyPriorities_trace {sourceVersionId : ClientId} {targetVersionId : Option ClientId}
    {now : Timestamp} {newId : ℕ → ClientId}
    (h : applyStockReportSnapshotVersionPriorities db now newId sourceVersionId targetVersionId =
      .ok db') : VersionTrace db db' := by
  simp only [applyStockReportSnapshotVersionPriorities, bind_eq_ok] at h
  obtain ⟨source, -, target, -, h⟩ := h
  split at h
  · obtain rfl := by simpa [pure, Except.pure] using h
    exact .refl
  · rename_i target
    refine .trans (.single (.merge target.clientId
      (db.snapshots.filter fun s => s.versionId == source.clientId))) ?_
    split at h
    · obtain ⟨histories, -, h⟩ := bind_eq_ok.mp h
      exact insertHistories_aside h
    · obtain rfl := by simpa [pure, Except.pure] using h
      exact .refl

theorem setPriority_trace (hi : VersionInv none db) {rowId : ClientId} {versionId : Option ClientId}
    {priority : Option StockReportPriority} {now : Timestamp} {newId : ℕ → ClientId}
    (h : setStockReportItemPriority db now newId rowId versionId priority = .ok db') :
    VersionTrace db db' := by
  simp only [setStockReportItemPriority, bind_eq_ok] at h
  obtain ⟨row, -, target, hdiscover, ⟨v, s⟩, hcheck, h⟩ := h
  obtain ⟨-, hs, hopen, -, -, -⟩ := placeTarget_eq_ok hi.snapshots_keyed hdiscover hcheck
  split at h
  · obtain rfl := by simpa [pure, Except.pure] using h
    exact .refl
  · rename_i hne
    refine .trans (.single (.setPriority hs hopen hne)) ?_
    split at h
    · exact insertHistories_aside h
    · obtain rfl := by simpa [pure, Except.pure] using h
      exact .refl

theorem setPriorityOrder_trace (hi : VersionInv none db) {rowId : ClientId}
    {versionId : Option ClientId} {targetOrder : ℤ} {now : Timestamp} {newId : ℕ → ClientId}
    (h : setStockReportItemPriorityOrder db now newId rowId versionId targetOrder = .ok db') :
    VersionTrace db db' := by
  simp only [setStockReportItemPriorityOrder, bind_eq_ok, throwIf_eq_ok, not_not, getOr_eq_ok] at h
  obtain ⟨row, -, target, hdiscover, ⟨v, s⟩, hcheck, p, hp, -, ⟨hlow, hhigh⟩, position, hposition,
    h⟩ := h
  obtain ⟨hst, hs, hopen, -, -, hversion⟩ := placeTarget_eq_ok hi.snapshots_keyed hdiscover hcheck
  rw [hversion, ← hst, hp, countP_lockSnapshotAndGroups] at hhigh
  split at h
  · obtain rfl := by simpa [pure, Except.pure] using h
    exact .refl
  · rename_i hne
    refine .trans (.single (.setOrder hs hopen hp hposition hne hlow hhigh)) ?_
    split at h
    · exact insertHistories_aside h
    · obtain rfl := by simpa [pure, Except.pure] using h
      exact .refl

theorem setMissingQuantity_trace (hi : VersionInv none db) {rowId : ClientId}
    {versionId : Option ClientId} {quantity : Option ℤ}
    (h : setStockReportItemSnapshotMissingQuantity db rowId versionId quantity = .ok db') :
    VersionTrace db db' := by
  simp only [setStockReportItemSnapshotMissingQuantity, bind_eq_ok] at h
  obtain ⟨⟨r, v, s⟩, htarget, u, hcheck, h⟩ := h
  obtain ⟨⟨hr, -, hrow⟩, ⟨hv, hopen, hversion⟩, hs⟩ := typedTarget_eq_ok hi htarget
  split at h
  · obtain rfl := by simpa [pure, Except.pure] using h
    exact .refl
  obtain rfl := by simpa [pure, Except.pure] using h
  refine .single (.typed fun t ht hid => ?_)
  obtain rfl := hi.snapshots_keyed.inj ht hs hid
  cases quantity with
  | none =>
    have hnot : ¬ isVersionActive v := by simpa [checkMissing, throwIf_eq_ok] using hcheck
    have hdraft : v.activeAt = none := by
      by_contra hne
      exact hnot (isVersionActive_iff.mpr ⟨Option.isSome_iff_ne_none.mpr hne, hopen⟩)
    have hdate : t.activeAt = none := by
      have hso := hi.draft_open t hs v hv hversion (isVersionDraft_iff.mpr ⟨hdraft, hopen⟩)
      rw [(hi.open_date t hs hso v hv hversion).1, hdraft]
    exact ⟨rfl, by simp [hdate], by simp [isSnapshotActive, hdate]⟩
  | some q =>
    simp only [checkMissing, bind_eq_ok, getOr_eq_ok, throwIf_eq_ok, not_or, not_lt] at hcheck
    obtain ⟨requested, hrequested, hlow, hhigh⟩ := hcheck
    refine ⟨rfl, fun _ => rfl, fun _ => ⟨rfl, fun q' hq' => ?_⟩⟩
    obtain rfl : q = q' := by simpa using hq'
    refine ⟨hlow, fun r' hr' hid' => ?_⟩
    obtain rfl := hi.rows_keyed.inj hr' hr (hid'.trans hrow.symm)
    simpa [missingCeiling, hrequested] using hhigh

theorem setRequestedQuantity_trace (hi : VersionInv none db) {rowId : ClientId}
    {versionId : Option ClientId} {quantity : Option ℤ} {now : Timestamp} {newHistoryId : ClientId}
    (h : setStockReportItemSnapshotRequestedQuantity db rowId versionId quantity now newHistoryId =
      .ok db') : VersionTrace db db' := by
  simp only [setStockReportItemSnapshotRequestedQuantity, bind_eq_ok] at h
  obtain ⟨⟨r, v, s⟩, htarget, h⟩ := h
  obtain ⟨⟨hr, -, hrow⟩, ⟨hv, hopen, hversion⟩, hs⟩ := typedTarget_eq_ok hi htarget
  split at h
  · obtain rfl := by simpa [pure, Except.pure] using h
    exact .refl
  split at h
  · obtain ⟨after, -, h⟩ := bind_eq_ok.mp h
    refine .trans (.single ?_) (insertHistories_aside h)
    refine @VersionStep.retype db (setManual db s.clientId quantity) _
      (fun t => if t.clientId == s.clientId then { t with quantityRequestedManual := quantity }
        else t) _ (fun t u he => ?_) ⟨rfl, rfl, rfl, fun t ht hp => ?_, fun t _ => ?_⟩ (.inl rfl)
    · rw [show t.stockReportItemId = u.stockReportItemId from congrArg Prod.snd he]
    · refine if_neg fun hid => ?_
      obtain rfl := hi.snapshots_keyed.inj ht hs (by simpa using hid)
      simp [hrow] at hp
    · split <;> rfl
  · rename_i hnot
    obtain rfl := by simpa [pure, Except.pure] using h
    have hdraft : v.activeAt = none := by
      by_contra hne
      exact hnot (isVersionActive_iff.mpr ⟨Option.isSome_iff_ne_none.mpr hne, hopen⟩)
    refine .single (.typed fun t ht hid => ?_)
    obtain rfl := hi.snapshots_keyed.inj ht hs hid
    have hdate : t.activeAt = none := by
      have hso := hi.draft_open t hs v hv hversion (isVersionDraft_iff.mpr ⟨hdraft, hopen⟩)
      rw [(hi.open_date t hs hso v hv hversion).1, hdraft]
    exact ⟨rfl, by simp [hdate], by simp [isSnapshotActive, hdate]⟩

theorem stockDemand_trace (hi : VersionInv none db) {categoryByKey : String → Option ClientId}
    {entries : List DemandEntry} {now : Timestamp} {late : Bool}
    {newRowId newSnapshotId newHistoryId : ℕ → ClientId}
    (h : applyStockDemand db categoryByKey entries now late newRowId newSnapshotId newHistoryId =
      .ok db') : VersionTrace db db' := by
  obtain ⟨hk, drafted, changes, hdraft, -, hinsert⟩ := applyStockDemand_eq_ok h
  obtain ⟨new, henter⟩ := enter_demand hi hk (fun r hr => (absentRows_counters r hr).2) hdraft
  exact .trans (.tail (.single (.enter henter)) (.demand changes)) (insertHistories_aside hinsert)

end Commands

theorem step_versionTrace {db db' : Db} {op : Op} (hop : op.IsVersionCommand)
    (hi : VersionInv none db) (h : step db op = .ok db') : VersionTrace db db' := by
  cases op with
  | createVersion => exact createVersion_trace hi h
  | activateVersion => exact activateVersion_trace hi h
  | refreshVersion => exact refreshVersion_trace hi h
  | updateVersion => exact updateVersion_trace h
  | deleteVersion => exact deleteVersion_trace h
  | applyPriorities => exact applyPriorities_trace h
  | setPriority => exact setPriority_trace hi h
  | setPriorityOrder => exact setPriorityOrder_trace hi h
  | setMissingQuantity => exact setMissingQuantity_trace hi h
  | setRequestedQuantity => exact setRequestedQuantity_trace hi h
  | _ => exact hop.elim

end BeyoManager.StockReport
