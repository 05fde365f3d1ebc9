import BeyoManager.StockReport.Counters
import BeyoManager.StockReport.RowDeletion
import BeyoManager.StockReport.VersionCommands

/-! # Versions over whole runs

Every command keeps versions and snapshots in agreement, so they agree in every
reachable state.
-/

namespace BeyoManager.StockReport

open Relational Transition

section Runs

variable {db db' : Db}

theorem assignments_keyed_step (hk : Keyed StockTaskAssignment.clientId db.assignments) {op : Op}
    (h : step db op = .ok db') : Keyed StockTaskAssignment.clientId db'.assignments := by
  by_cases hassign : op.IsAssignmentCommand
  · obtain ⟨ids, ht⟩ := step_trace hassign hk h
    exact (ht.records hk).keyed
  · by_cases hversion : op.IsVersionCommand
    · exact (step_quiet hversion h).assignments ▸ hk
    · cases op with
      | stockDemand =>
        obtain ⟨-, drafted, changes, hdraft, -, hinsert⟩ := applyStockDemand_eq_ok h
        obtain ⟨-, rfl⟩ := insertHistories_eq_ok.mp hinsert
        exact (addRowsToEveryDraft_frame hdraft).assignments ▸ hk
      | _ => simp [Op.IsAssignmentCommand, Op.IsVersionCommand] at hassign hversion

theorem step_cases (hi : VersionInv none db)
    (hk : Keyed StockTaskAssignment.clientId db.assignments) {op : Op}
    (h : step db op = .ok db') : (∃ ids, Trace ids db db') ∨ VersionTrace db db' := by
  by_cases hassign : op.IsAssignmentCommand
  · exact .inl (step_trace hassign hk h)
  · by_cases hversion : op.IsVersionCommand
    · exact .inr (step_versionTrace hversion hi h)
    · cases op with
      | stockDemand => exact .inr (stockDemand_trace hi h)
      | _ => simp [Op.IsAssignmentCommand, Op.IsVersionCommand] at hassign hversion

/-- The tables of versions agree and no two assignments share an id. -/
structure VersionRunInv (db : Db) : Prop where
  versions : VersionInv none db
  assignments_keyed : Keyed StockTaskAssignment.clientId db.assignments

theorem VersionRunInv.step {op : Op} (hi : VersionRunInv db) (h : step db op = .ok db') :
    VersionRunInv db' := by
  refine ⟨?_, assignments_keyed_step hi.assignments_keyed h⟩
  rcases step_cases hi.versions hi.assignments_keyed h with ⟨ids, ht⟩ | ht
  · have hboth : VersionInv none db' ∧ Keyed StockTaskAssignment.clientId db'.assignments :=
      ht.invariant (I := fun db => VersionInv none db ∧
          Keyed StockTaskAssignment.clientId db.assignments)
        (fun _ _ _ hi hs => ⟨hs.versionInv hi.2 hi.1, (hs.records hi.2).keyed⟩)
        ⟨hi.versions, hi.assignments_keyed⟩
    exact hboth.1
  · exact ht.invariant (fun _ _ hi hs => hi.step hs) hi.versions

theorem VersionRunInv.run (hi : VersionRunInv db) (ops : List Op) : VersionRunInv (run db ops) :=
  run_invariant VersionRunInv (fun _ _ _ hi h => hi.step h) hi ops

theorem VersionRunInv.start (hrows : Keyed StockReportItem.clientId db.rows)
    (hassign : Keyed StockTaskAssignment.clientId db.assignments) (hversions : db.versions = [])
    (hsnapshots : db.snapshots = []) : VersionRunInv db := by
  refine ⟨⟨hrows, ?_, ?_, ?_, ?_, ?_, ?_, ?_, ?_, ?_, ?_, ?_, ?_, ?_⟩, hassign⟩
  all_goals simp [hversions, hsnapshots]

/-- After every run the three states of versions are repeated exactly on their snapshots. -/
theorem versions_agree (db : Db) (hrows : Keyed StockReportItem.clientId db.rows)
    (hassign : Keyed StockTaskAssignment.clientId db.assignments) (hversions : db.versions = [])
    (hsnapshots : db.snapshots = []) (ops : List Op) :
    (∀ v ∈ (run db ops).versions, ∀ w ∈ (run db ops).versions,
      isVersionActive v → isVersionActive w → v = w) ∧
    (∀ v ∈ (run db ops).versions, v.closedAt.isSome → v.activeAt.isSome) ∧
    (∀ s ∈ (run db ops).snapshots, isSnapshotOpen s → ∃ v ∈ (run db ops).versions,
      v.clientId = s.versionId ∧ s.activeAt = v.activeAt ∧ v.closedAt = none) ∧
    (∀ v ∈ (run db ops).versions, v.closedAt.isSome →
      ∀ s ∈ (run db ops).snapshots, s.versionId = v.clientId → ¬ isSnapshotOpen s) ∧
    (∀ v ∈ (run db ops).versions, isVersionDraft v →
      (∀ r ∈ (run db ops).rows, r.isDeleted = false → ∃! s, s ∈ (run db ops).snapshots ∧
        s.versionId = v.clientId ∧ s.stockReportItemId = r.clientId) ∧
      ∀ s ∈ (run db ops).snapshots, s.versionId = v.clientId → ∃ r ∈ (run db ops).rows,
        r.clientId = s.stockReportItemId ∧ r.isDeleted = false) ∧
    (∀ v ∈ (run db ops).versions, v.snapshotCount =
      ((run db ops).snapshots.filter fun s => s.versionId == v.clientId).length) ∧
    ∀ s ∈ (run db ops).snapshots, (s.quantityRequestedScanner.isSome ↔ s.activeAt.isSome) ∧
      (s.activeAt.isSome → s.quantityMissing.isSome) ∧
      (s.closedAt.isSome → s.activeAt.isSome) := by
  have hi := ((VersionRunInv.start hrows hassign hversions hsnapshots).run ops).versions
  refine ⟨hi.one_active, hi.closed_activated, fun s hs hopen => ?_,
    fun v hv hc s hs hid hopen => ?_,
    fun v hv hd => ⟨fun r hr hlive => ?_, fun s hs hid => ?_⟩, fun v hv => ?_, fun s hs => ?_⟩
  · obtain ⟨v, hv, hid⟩ := hi.version_of_snapshot s hs
    exact ⟨v, hv, hid, hi.open_date s hs (isSnapshotOpen_iff.mp hopen) v hv hid⟩
  · rw [(hi.open_date s hs (isSnapshotOpen_iff.mp hopen) v hv hid.symm).2] at hc
    simp at hc
  · obtain ⟨s, hs, hsv, hsr⟩ := hi.draft_covers v hv hd r hr hlive (by simp)
    refine ⟨s, ⟨hs, hsv, hsr⟩, fun t ht => ?_⟩
    exact hi.pairs_keyed.inj ht.1 hs (Prod.ext (ht.2.1.trans hsv.symm) (ht.2.2.trans hsr.symm))
  · obtain ⟨r, hr, hrid⟩ := hi.row_of_snapshot s hs
    exact ⟨r, hr, hrid, hi.draft_live s hs v hv hid.symm hd r hr hrid⟩
  · rw [hi.count_eq v hv, countSnapshots, List.countP_eq_length_filter]
  · exact ⟨(hi.checks s hs).scanner_iff, (hi.checks s hs).missing_set,
      (hi.checks s hs).closed_activated⟩

/-- A version is created and activated, a row is demanded, and a row is deleted. -/
def seasonOps : List Op :=
  [.createVersion ⟨some "spring", true, true, some 20, true⟩ 10 "srv_1" "dsc_1" fun _ => "srs_1",
   .stockDemand (fun _ => some "cat_2") [⟨"chairs", "{}", "sig_2", 3⟩] 11 false (fun _ => "sri_2")
    (fun _ => "srs_2") (fun _ => "srh_1"),
   .activateVersion ⟨"srv_1", some 20, false⟩ 20 (fun _ => "srs_3") (fun _ => "srh_2"),
   .createVersion ⟨none, true, false, none, true⟩ 21 "srv_2" "dsc_2"
    (fun i => if i = 0 then "srs_4" else "srs_5"),
   .deleteRow "sri_1" 22]

theorem versions_agree_season :
    (∀ v ∈ (run shelfWorkspace seasonOps).versions, ∀ w ∈ (run shelfWorkspace seasonOps).versions,
      isVersionActive v → isVersionActive w → v = w) ∧
    (run shelfWorkspace seasonOps).versions.map SnapshotVersion.snapshotCount = [2, 1] :=
  ⟨(versions_agree shelfWorkspace (by decide) (by decide) rfl rfl seasonOps).1, by decide +kernel⟩

end Runs

end BeyoManager.StockReport
