import BeyoManager.StockReport.Departures
import Mathlib.Data.List.Find

/-! # What an activation settles

A draft shows what its rows ask for and what the board misses. The statement that activates it
joins the version that was just closed; it settles on the same numbers.
-/

namespace BeyoManager.StockReport

open Relational Transition Sorting

section Board

variable {leaving : Option ClientId} {db : Db} {s t : ItemSnapshot} {rowId : ClientId}

theorem VersionInv.version_of_active (hi : VersionInv leaving db) (hs : s ∈ db.snapshots)
    (hactive : isSnapshotActive s) : ∃ v ∈ db.versions, isVersionActive v ∧
      v.clientId = s.versionId := by
  obtain ⟨v, hv, hid⟩ := hi.version_of_snapshot s hs
  obtain ⟨hdate, hopen⟩ := isSnapshotActive_iff.mp hactive
  obtain ⟨heq, hvopen⟩ := hi.open_date s hs hopen v hv hid
  exact ⟨v, hv, isVersionActive_iff.mpr ⟨heq ▸ hdate, hvopen⟩, hid⟩

theorem VersionInv.active_unique (hi : VersionInv leaving db) (hs : s ∈ db.snapshots)
    (ht : t ∈ db.snapshots) (hsa : isSnapshotActive s) (hta : isSnapshotActive t)
    (hrow : s.stockReportItemId = t.stockReportItemId) : s = t := by
  obtain ⟨v, hv, hva, hvs⟩ := hi.version_of_active hs hsa
  obtain ⟨w, hw, hwa, hwt⟩ := hi.version_of_active ht hta
  obtain rfl := hi.one_active v hv w hw hva hwa
  exact hi.pairs_keyed.inj hs ht (Prod.ext (hvs.symm.trans hwt) hrow)

theorem VersionInv.loadActiveSnapshot_eq_some (hi : VersionInv leaving db) :
    loadActiveSnapshot db rowId = some s ↔
      s ∈ db.snapshots ∧ s.stockReportItemId = rowId ∧ isSnapshotActive s := by
  constructor
  · intro h
    have hmatch := List.find?_some h
    rw [Bool.and_eq_true, beq_iff_eq] at hmatch
    exact ⟨List.mem_of_find?_eq_some h, hmatch⟩
  · rintro ⟨hs, rfl, hactive⟩
    cases h : loadActiveSnapshot db s.stockReportItemId with
    | none =>
      have hnone := List.find?_eq_none.mp h s hs
      simp [hactive] at hnone
    | some t =>
      have hmatch := List.find?_some h
      rw [Bool.and_eq_true, beq_iff_eq] at hmatch
      rw [hi.active_unique (List.mem_of_find?_eq_some h) hs hmatch.2 hactive hmatch.1]

theorem frozen_versionId (now : Timestamp) (s : ItemSnapshot) :
    (frozen db now s).versionId = s.versionId ∧
      (frozen db now s).stockReportItemId = s.stockReportItemId ∧
        (frozen db now s).quantityMissing = s.quantityMissing := by
  unfold frozen
  split <;> exact ⟨rfl, rfl, rfl⟩

end Board

section Missing

variable {repairs : List RepairRecord} {db : Db} {s : ItemSnapshot} {v : SnapshotVersion}
  {now : Timestamp}

/-- What the draft shows as missing in one of its snapshots. -/
def displayedMissing (db : Db) (s : ItemSnapshot) : Option ℤ :=
  effectiveQuantityMissing s
    ((loadActiveSnapshot db s.stockReportItemId).bind ItemSnapshot.quantityMissing)

/-- The closing board's number for a row is that of the row's active snapshot. -/
theorem closed_missing (hi : ReportInv repairs db) (hs : s ∈ db.snapshots) (hv : v ∈ db.versions)
    (hid : v.clientId = s.versionId) (hdraft : isVersionDraft v) :
    (((closeActiveVersion db now).1.snapshots.find? fun a =>
        a.stockReportItemId == s.stockReportItemId &&
          some a.versionId == (closeActiveVersion db now).2.map SnapshotVersion.clientId).bind
      ItemSnapshot.quantityMissing) =
    (loadActiveSnapshot db s.stockReportItemId).bind ItemSnapshot.quantityMissing := by
  have hversions := hi.versions
  rcases closeActiveVersion_cases hversions now with ⟨heq, hnone⟩
    | ⟨p, hp, hact, hprev, -, -, hsnaps⟩
  · have hload : loadActiveSnapshot db s.stockReportItemId = none := by
      refine List.find?_eq_none.mpr fun a ha hmatch => ?_
      rw [Bool.and_eq_true] at hmatch
      obtain ⟨w, hw, hwa, -⟩ := hversions.version_of_active ha hmatch.2
      exact hnone w hw hwa
    have hfind : db.snapshots.find? (fun a => a.stockReportItemId == s.stockReportItemId &&
        some a.versionId == Option.map SnapshotVersion.clientId none) = none :=
      List.find?_eq_none.mpr fun a _ => by simp
    rw [heq, hload, hfind]
  · -- a row of the draft lives, so its snapshot on the board is still open
    have hactive : ∀ a ∈ db.snapshots, a.stockReportItemId = s.stockReportItemId →
        a.versionId = p.clientId → isSnapshotActive a := by
      intro a ha hrow hversion
      obtain ⟨hdate, hpopen⟩ := isVersionActive_iff.mp hact
      cases hclosed : a.closedAt with
      | none =>
        obtain ⟨hadate, -⟩ := hversions.open_date a ha hclosed p hp hversion.symm
        exact isSnapshotActive_iff.mpr ⟨hadate ▸ hdate, hclosed⟩
      | some closed =>
        obtain ⟨-, hdeleted⟩ := hi.early a ha
          ⟨by simp [hclosed], p, hp, hversion.symm, hpopen⟩
        obtain ⟨r, hr, hrid⟩ := hversions.row_of_snapshot s hs
        have hlive := hversions.draft_live s hs v hv hid hdraft r hr hrid
        rw [hdeleted r hr (hrid.trans hrow.symm)] at hlive
        cases hlive
    have hsame : db.snapshots.find? (fun a => a.stockReportItemId == s.stockReportItemId &&
        some a.versionId == some p.clientId) = loadActiveSnapshot db s.stockReportItemId := by
      refine List.find?_congr fun a ha => ?_
      rw [Bool.eq_iff_iff, Bool.and_eq_true, Bool.and_eq_true, beq_iff_eq, beq_iff_eq,
        Option.some.injEq]
      constructor
      · rintro ⟨hrow, hversion⟩
        exact ⟨hrow, hactive a ha hrow hversion⟩
      · rintro ⟨hrow, haa⟩
        obtain ⟨w, hw, hwa, hwid⟩ := hversions.version_of_active ha haa
        exact ⟨hrow, by rw [← hwid, hversions.one_active w hw p hp hwa hact]⟩
    have hfrozen : (fun a : ItemSnapshot => a.stockReportItemId == s.stockReportItemId &&
        some a.versionId == some p.clientId) ∘ frozen db now =
          fun a => a.stockReportItemId == s.stockReportItemId &&
            some a.versionId == some p.clientId := by
      funext a
      obtain ⟨hversion, hrow, -⟩ := @frozen_versionId db now a
      rw [Function.comp_apply, hversion, hrow]
    rw [hsnaps, hprev, Option.map_some, List.find?_map, hfrozen, hsame]
    cases loadActiveSnapshot db s.stockReportItemId with
    | none => rfl
    | some a => exact (@frozen_versionId db now a).2.2

theorem activatedMissing_eq (hi : ReportInv repairs db) (hs : s ∈ db.snapshots)
    (hv : v ∈ db.versions) (hid : v.clientId = s.versionId) (hdraft : isVersionDraft v)
    (keep : Bool) :
    some (activatedMissing (closeActiveVersion db now).1
      ((closeActiveVersion db now).2.map SnapshotVersion.clientId) keep s) =
      if keep then displayedMissing db s else some (s.quantityMissing.getD 0) := by
  have hdate : s.activeAt = none := by
    rw [(hi.versions.open_date s hs (hi.versions.draft_open s hs v hv hid hdraft) v hv hid).1,
      (isVersionDraft_iff.mp hdraft).1]
  have hborrowed := @closed_missing _ _ _ _ now hi hs hv hid hdraft
  rw [activatedMissing, displayedMissing, effectiveQuantityMissing, ← hborrowed, hdate]
  cases s.quantityMissing with
  | some own => simp
  | none =>
    cases List.find? _ (closeActiveVersion db now).1.snapshots with
    | none => simp
    | some a => cases keep <;> rfl

end Missing

section Snapshots

variable {repairs : List RepairRecord} {db db' : Db} {request : ActivateRequest}
  {v : SnapshotVersion} {now : Timestamp} {newId newHistoryId : ℕ → ClientId} {s : ItemSnapshot}
  {r : StockReportItem}

/-- Which number an activation settles on. -/
def keepsMissing (request : ActivateRequest) (v : SnapshotVersion) : Bool :=
  if request.expected.isSome then v.scheduledActivationKeepsActiveMissing
  else request.keepActiveMissing

def clampedBy (p : ItemSnapshot → Bool) (db : Db) (s : ItemSnapshot) : ItemSnapshot :=
  match db.row? s.stockReportItemId with
  | none => s
  | some row =>
    match s.quantityMissing with
    | none => s
    | some missing =>
      if p s && isSnapshotActive s && decide (missingCeiling s row < missing) then
        { s with quantityMissing := some (missingCeiling s row) }
      else s

theorem clampedBy_eq {p : ItemSnapshot → Bool} {missing : ℤ}
    (hrow : db.row? s.stockReportItemId = some r) (hmissing : s.quantityMissing = some missing)
    (hp : p s) (hactive : isSnapshotActive s) : clampedBy p db s =
      { s with quantityMissing := some (min (missingCeiling s r) missing) } := by
  simp only [clampedBy, hrow, hmissing, hp, hactive, Bool.and_self, Bool.true_and]
  split_ifs with hlt
  · rw [min_eq_left (le_of_lt (of_decide_eq_true hlt))]
  · rw [min_eq_right (not_lt.mp fun h => hlt (decide_eq_true h)), ← hmissing]

theorem clampedBy_of_not {p : ItemSnapshot → Bool} (hp : p s = false) : clampedBy p db s = s := by
  unfold clampedBy
  split
  · rfl
  · split
    · rfl
    · simp [hp]

theorem clampMissing_snapshots (db : Db) (p : ItemSnapshot → Bool) :
    (clampMissing db p).snapshots = db.snapshots.map (clampedBy p db) := by
  refine List.map_congr_left fun s _ => ?_
  unfold clampedBy
  cases db.row? s.stockReportItemId with
  | none => rfl
  | some row => cases s.quantityMissing <;> rfl

theorem clampedBy_congr {p : ItemSnapshot → Bool} (h : db'.rows = db.rows) :
    clampedBy p db' = clampedBy p db := by
  have hrow : db'.row? = db.row? := by
    funext id
    rw [Db.row?, Db.row?, h]
  funext s
  rw [clampedBy, clampedBy, hrow]

def afterActivation (db : Db) (request : ActivateRequest) (v : SnapshotVersion) (now : Timestamp)
    (s : ItemSnapshot) : ItemSnapshot :=
  clampedBy (fun s => s.versionId == v.clientId) db
    (activated (closeActiveVersion db now).1 v.clientId
      ((closeActiveVersion db now).2.map SnapshotVersion.clientId) (keepsMissing request v) now
      (frozen db now s))

/-- What an activation does to the snapshots: the board is frozen, the draft goes live. -/
theorem goLive_snapshots (hi : VersionInv none db) (hv : v ∈ db.versions)
    (hdraft : isVersionDraft v) (h : goLive db request v now newId newHistoryId = .ok db') :
    db'.rows = db.rows ∧ db'.snapshots = db.snapshots.map (afterActivation db request v now) := by
  simp only [goLive, bind_eq_ok] at h
  obtain ⟨mid, hreconcile, h⟩ := h
  have hrows := (@closeActiveVersion_frame db now).rows
  obtain rfl := reconcileMembership_none hi hv hdraft hrows hreconcile
  have hmid := hi.close now
  obtain ⟨histories, -, hinsert⟩ := bind_eq_ok.mp h
  obtain ⟨-, rfl⟩ := insertHistories_eq_ok.mp hinsert
  have hsnaps : (closeActiveVersion db now).1.snapshots = db.snapshots.map (frozen db now) := by
    rcases closeActiveVersion_cases hi now with ⟨heq, hnone⟩ | ⟨p, -, -, -, -, -, hsnaps⟩
    · rw [heq]
      refine (List.map_id _).symm.trans (List.map_congr_left fun s hs => ?_)
      rw [frozen, if_neg, id]
      intro hactive
      obtain ⟨w, hw, hwa, -⟩ := hi.version_of_active hs hactive
      exact hnone w hw hwa
    · exact hsnaps
  refine ⟨hrows, ?_⟩
  have hactivated := activateSnapshots_eq hmid v.clientId
    ((closeActiveVersion db now).2.map SnapshotVersion.clientId) (keepsMissing request v) now
  refine (clampMissing_snapshots _ _).trans ?_
  refine (congrArg (List.map _) hactivated).trans ?_
  rw [hsnaps, List.map_map, List.map_map]
  refine List.map_congr_left fun s _ => ?_
  rw [Function.comp_apply, Function.comp_apply, afterActivation, clampedBy_congr]
  exact hrows

/-- A snapshot of the draft goes live with the live quantity of its row and a clamped number. -/
theorem goLive_draft (hi : VersionInv none db) (hs : s ∈ db.snapshots) (hv : v ∈ db.versions)
    (hid : v.clientId = s.versionId) (hdraft : isVersionDraft v) (hr : r ∈ db.rows)
    (hrid : r.clientId = s.stockReportItemId)
    (h : goLive db request v now newId newHistoryId = .ok db') :
    ∃ s' ∈ db'.snapshots, s'.clientId = s.clientId ∧ s'.pair = s.pair ∧ isSnapshotActive s' ∧
      effectiveQuantityRequested s' r = effectiveQuantityRequested s r ∧
      s'.quantityMissing = some (min (missingCeiling s' r)
        (activatedMissing (closeActiveVersion db now).1
          ((closeActiveVersion db now).2.map SnapshotVersion.clientId)
          (keepsMissing request v) s)) := by
  obtain ⟨-, hsnaps⟩ := goLive_snapshots hi hv hdraft h
  have hclosed := hi.draft_open s hs v hv hid hdraft
  have hdate : s.activeAt = none := by
    rw [(hi.open_date s hs hclosed v hv hid).1, (isVersionDraft_iff.mp hdraft).1]
  have hrow : db.row? s.stockReportItemId = some r := hrid ▸ hi.rows_keyed.find?_eq hr
  have hrow' : (closeActiveVersion db now).1.row? s.stockReportItemId = some r := by
    rw [Db.row?, (closeActiveVersion_frame now).rows]
    exact hrow
  have hfrozen : frozen db now s = s := if_neg (by simp [isSnapshotActive, hdate])
  set missing := activatedMissing (closeActiveVersion db now).1
    ((closeActiveVersion db now).2.map SnapshotVersion.clientId) (keepsMissing request v) s
  set live : ItemSnapshot := { s with
    quantityRequestedScanner := some r.quantityRequested
    quantityMissing := some missing
    activeAt := some now
    counters := r.counters } with hlive
  have hactivated : activated (closeActiveVersion db now).1 v.clientId
      ((closeActiveVersion db now).2.map SnapshotVersion.clientId) (keepsMissing request v) now
        (frozen db now s) = live := by
    rw [hfrozen, activated, if_pos hid.symm, hrow']
    rfl
  have hclamped : clampedBy (fun s => s.versionId == v.clientId) db live =
      { live with quantityMissing := some (min (missingCeiling live r) missing) } :=
    clampedBy_eq hrow rfl (by simp [hlive, hid]) (by simp [hlive, isSnapshotActive, hclosed])
  refine ⟨{ live with quantityMissing := some (min (missingCeiling live r) missing) }, ?_, rfl, rfl,
    ?_, ?_, rfl⟩
  · rw [hsnaps, ← hclamped, ← hactivated]
    exact List.mem_map_of_mem (f := afterActivation db request v now) hs
  · simp [hlive, isSnapshotActive, hclosed]
  · rw [effectiveQuantityRequested, effectiveQuantityRequested, hlive]
    cases s.quantityRequestedManual with
    | some manual => rfl
    | none => simp [scannerQuantityRequested, hdate]

theorem goLive_board (hi : VersionInv none db) (hs : s ∈ db.snapshots) (hv : v ∈ db.versions)
    (hne : s.versionId ≠ v.clientId) (hdraft : isVersionDraft v) (hr : r ∈ db.rows)
    (hrid : r.clientId = s.stockReportItemId)
    (h : goLive db request v now newId newHistoryId = .ok db') :
    (if isSnapshotActive s then { s with closedAt := some now, counters := r.counters } else s) ∈
      db'.snapshots := by
  obtain ⟨-, hsnaps⟩ := goLive_snapshots hi hv hdraft h
  have hrow : db.row? s.stockReportItemId = some r := hrid ▸ hi.rows_keyed.find?_eq hr
  have hversion : (frozen db now s).versionId ≠ v.clientId := by
    rwa [(frozen_versionId now s).1]
  have hmem := List.mem_map_of_mem (f := afterActivation db request v now) hs
  rw [← hsnaps, afterActivation, activated, if_neg hversion,
    clampedBy_of_not (by simpa using hversion), frozen, hrow] at hmem
  exact hmem

end Snapshots

section Run

/-- In every reachable state an activation that fires leaves each live row with the quantity that
the draft showed for it, and with the missing quantity that the draft showed or that was typed, up
to the new ceiling; the closed board keeps its numbers and the counters of the rows. -/
theorem activation_keeps_display (start : Db) (hrows : Keyed StockReportItem.clientId start.rows)
    (hassign : start.assignments = []) (hzero : ∀ r ∈ start.rows, r.counters = 0)
    (hversions : start.versions = []) (hsnapshots : start.snapshots = []) (ops : List Op)
    {request : ActivateRequest} {v : SnapshotVersion} {now : Timestamp}
    {newId newHistoryId : ℕ → ClientId} {db' : Db}
    (hfind : findVersion (run start ops) request.clientId = .ok v)
    (hfire : (request.expected.bind fun expected =>
      supersedeReason (run start ops) v expected now) = none)
    (h : activateStockReportSnapshotVersion (run start ops) request now newId newHistoryId =
      .ok db') :
    db'.rows = (run start ops).rows ∧
    (∀ r ∈ db'.rows, r.isDeleted = false → ∃ s ∈ (run start ops).snapshots,
      s.versionId = v.clientId ∧ s.stockReportItemId = r.clientId ∧
      ∃ s', loadActiveSnapshot db' r.clientId = some s' ∧ s'.versionId = v.clientId ∧
        effectiveQuantityRequested s' r = effectiveQuantityRequested s r ∧
        s'.quantityMissing =
          (if keepsMissing request v then displayedMissing (run start ops) s
            else some (s.quantityMissing.getD 0)).map (min (missingCeiling s' r))) ∧
    ∀ p ∈ (run start ops).versions, isVersionActive p →
      ∀ s ∈ (run start ops).snapshots, s.versionId = p.clientId →
        ∃ s' ∈ db'.snapshots, s'.clientId = s.clientId ∧ s'.closedAt.isSome ∧
          s'.quantityRequestedScanner = s.quantityRequestedScanner ∧
          s'.quantityRequestedManual = s.quantityRequestedManual ∧
          s'.quantityMissing = s.quantityMissing ∧ s'.quantityResolved = s.quantityResolved ∧
          s'.priority = s.priority ∧ s'.priorityOrder = s.priorityOrder ∧
          ∃ r ∈ db'.rows, r.clientId = s.stockReportItemId ∧ s'.counters = r.counters := by
  have hi := (ReportInv.start hrows hassign hzero hversions hsnapshots).run ops
  set db := run start ops
  have hv : v ∈ db.versions := (findVersion_eq_ok hfind).1
  have hi' := hi.versions
  have hafter : VersionInv none db' :=
    (activateVersion_trace hi' h).invariant (fun _ _ hI hs => hI.step hs) hi'
  simp only [activateStockReportSnapshotVersion, hfind, bind_eq_ok, throwIf_eq_ok, not_not] at h
  obtain ⟨w, hw, -, hdraft, h⟩ := h
  obtain rfl := Except.ok.inj hw
  rw [hfire] at h
  replace h : goLive db request v now newId newHistoryId = .ok db' := h
  have hsame := (goLive_snapshots hi' hv hdraft h).1
  refine ⟨hsame, ?_, ?_⟩
  · intro r hr hlive
    rw [hsame] at hr
    obtain ⟨s, hs, hsv, hsr⟩ := hi'.draft_covers v hv hdraft r hr hlive (by simp)
    obtain ⟨s', hs', -, hpair, hactive, heffective, hmissing⟩ :=
      goLive_draft hi' hs hv hsv.symm hdraft hr hsr.symm h
    obtain ⟨hversion, hrow⟩ := Prod.mk.inj hpair
    refine ⟨s, hs, hsv, hsr, s', ?_, hversion.trans hsv, heffective, ?_⟩
    · exact hafter.loadActiveSnapshot_eq_some.mpr ⟨hs', hrow.trans hsr, hactive⟩
    · rw [hmissing, ← activatedMissing_eq hi hs hv hsv.symm hdraft, Option.map_some]
  · intro p hp hact s hs hsv
    obtain ⟨r, hr, hrid⟩ := hi'.row_of_snapshot s hs
    obtain ⟨hdate, hpopen⟩ := isVersionActive_iff.mp hact
    have hne : s.versionId ≠ v.clientId := by
      intro he
      obtain rfl := hi'.versions_keyed.inj hp hv (hsv.symm.trans he)
      rw [(isVersionDraft_iff.mp hdraft).1] at hdate
      cases hdate
    have hmem := goLive_board hi' hs hv hne hdraft hr hrid h
    rw [hsame]
    by_cases hactive : isSnapshotActive s
    · rw [if_pos hactive] at hmem
      exact ⟨_, hmem, rfl, rfl, rfl, rfl, rfl, rfl, rfl, rfl, r, hr, hrid, rfl⟩
    · -- the row was deleted while the board was running
      rw [if_neg hactive] at hmem
      have hclosed : s.closedAt.isSome := by
        by_contra hopen
        rw [Option.not_isSome_iff_eq_none] at hopen
        obtain ⟨hsdate, -⟩ := hi'.open_date s hs hopen p hp hsv.symm
        exact hactive (isSnapshotActive_iff.mpr ⟨hsdate ▸ hdate, hopen⟩)
      obtain ⟨hzero, hdeleted⟩ := hi.early s hs ⟨hclosed, p, hp, hsv.symm, hpopen⟩
      refine ⟨s, hmem, rfl, hclosed, rfl, rfl, rfl, rfl, rfl, rfl, r, hr, hrid, ?_⟩
      rw [hzero, hi.counters_of_deleted hr (hdeleted r hr hrid)]

def boardOps : List Op :=
  [.createVersion ⟨some "spring", false, false, none, false⟩ 10 "srv_1" "dsc_1" fun _ => "srs_1",
   .setMissingQuantity "sri_1" none (some 3),
   .createVersion ⟨some "summer", true, false, none, false⟩ 11 "srv_2" "dsc_2" fun _ => "srs_2"]

example : (activateStockReportSnapshotVersion (run shelfWorkspace boardOps) ⟨"srv_2", none, true⟩ 12
    (fun _ => "srs_3") (fun _ => "srh_1")).toOption.map
      (fun db => db.snapshots.map ItemSnapshot.quantityMissing) = some [some 3, some 3] := by
  decide +kernel

theorem summer_board_keeps_display :
    ∃ db', activateStockReportSnapshotVersion (run shelfWorkspace boardOps) ⟨"srv_2", none, true⟩ 12
        (fun _ => "srs_3") (fun _ => "srh_1") = .ok db' ∧
      ∀ r ∈ db'.rows, r.isDeleted = false → ∃ s ∈ (run shelfWorkspace boardOps).snapshots, ∃ s',
        loadActiveSnapshot db' r.clientId = some s' ∧
        s'.quantityMissing = (displayedMissing (run shelfWorkspace boardOps) s).map
          (min (missingCeiling s' r)) := by
  obtain ⟨db', hdb'⟩ : ∃ db', activateStockReportSnapshotVersion (run shelfWorkspace boardOps)
      ⟨"srv_2", none, true⟩ 12 (fun _ => "srs_3") (fun _ => "srh_1") = .ok db' := ⟨_, rfl⟩
  refine ⟨db', hdb', fun r hr hlive => ?_⟩
  obtain ⟨s, hs, -, -, s', hload, -, -, hmissing⟩ := (activation_keeps_display shelfWorkspace
    (by decide) rfl (by decide) rfl rfl boardOps rfl rfl hdb').2.1 r hr hlive
  exact ⟨s, hs, s', hload, hmissing⟩

end Run

end BeyoManager.StockReport
