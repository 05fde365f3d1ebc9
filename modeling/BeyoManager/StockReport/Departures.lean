import BeyoManager.StockReport.VersionRuns

/-! # Rows that left the report

A live assignment is about a live row. A snapshot that is closed while its version still runs
belongs to a row that was deleted, and neither of them counts anything.
-/

namespace BeyoManager.StockReport

open Relational Transition Sorting

def ItemSnapshot.ending (s : ItemSnapshot) :
    (ClientId × ClientId) × Option Timestamp × Counters := (s.pair, s.closedAt, s.counters)

def ClosedEarly (db : Db) (s : ItemSnapshot) : Prop :=
  s.closedAt.isSome ∧ ∃ v ∈ db.versions, v.clientId = s.versionId ∧ v.closedAt = none

/-- What closed early belongs to a deleted row and counts nothing. -/
def EarlyInv (db : Db) : Prop :=
  ∀ s ∈ db.snapshots, ClosedEarly db s → s.counters = 0 ∧
    ∀ r ∈ db.rows, r.clientId = s.stockReportItemId → r.isDeleted

section Congr

variable {db db' : Db}

structure EndingFrame (db db' : Db) : Prop where
  rows : db'.rows.map StockReportItem.life = db.rows.map StockReportItem.life
  versions : db'.versions.map SnapshotVersion.dates = db.versions.map SnapshotVersion.dates
  snapshots : db'.snapshots.map ItemSnapshot.ending = db.snapshots.map ItemSnapshot.ending

theorem EarlyInv.congr (hi : EarlyInv db) (h : EndingFrame db db') : EarlyInv db' := by
  rintro s hs ⟨hclosed, v, hv, hid, hopen⟩
  obtain ⟨s', hs', he⟩ := mem_of_map_eq h.snapshots hs
  obtain ⟨v', hv', hd⟩ := mem_of_map_eq h.versions hv
  simp only [ItemSnapshot.ending, ItemSnapshot.pair, Prod.mk.injEq] at he
  obtain ⟨⟨hversion, hrow⟩, hc, hcounters⟩ := he
  simp only [SnapshotVersion.dates, Prod.mk.injEq] at hd
  have hearly : ClosedEarly db s' :=
    ⟨hc ▸ hclosed, v', hv', hd.1.trans (hid.trans hversion.symm), hd.2.2.trans hopen⟩
  obtain ⟨hzero, hdeleted⟩ := hi s' hs' hearly
  refine ⟨hcounters ▸ hzero, fun r hr hrid => ?_⟩
  obtain ⟨r', hr', hlife⟩ := mem_of_map_eq h.rows hr
  simp only [StockReportItem.life, Prod.mk.injEq] at hlife
  rw [← hlife.2]
  exact hdeleted r' hr' (hlife.1.trans (hrid.trans hrow.symm))

theorem TableFrame.ending (h : TableFrame db db') : EndingFrame db db' where
  rows := h.standing.rows
  versions := by rw [h.versions]
  snapshots := by
    have hmap : ∀ l : List ItemSnapshot, l.map ItemSnapshot.ending =
        (l.map ItemSnapshot.withoutAmounts).map ItemSnapshot.ending := fun l => by
      rw [List.map_map]
      rfl
    rw [hmap db'.snapshots, h.snapshots, ← hmap]

end Congr

section Assigned

variable {ids : List ClientId} {db db' : Db}

def Assigned (db : Db) : Prop :=
  ∀ a ∈ db.assignments, a.isDeleted = false →
    ∀ r ∈ db.rows, r.clientId = a.stockReportItemId → r.isDeleted = false

theorem Assigned.of_rows (hi : Assigned db)
    (hrows : db'.rows.map StockReportItem.life = db.rows.map StockReportItem.life)
    (h : ∀ b' ∈ db'.assignments, b'.isDeleted = false →
      (∃ b ∈ db.assignments, b.isDeleted = false ∧ b.stockReportItemId = b'.stockReportItemId) ∨
        ∀ r ∈ db.rows, r.clientId = b'.stockReportItemId → r.isDeleted = false) :
    Assigned db' := by
  intro b' hb' hlive r hr hid
  obtain ⟨r', hr', hlife⟩ := mem_of_map_eq hrows hr
  simp only [StockReportItem.life, Prod.mk.injEq] at hlife
  rw [← hlife.2]
  rcases h b' hb' hlive with ⟨b, hb, hbl, hrow⟩ | hnew
  · exact hi b hb hbl r' hr' (hlife.1.trans (hid.trans hrow.symm))
  · exact hnew r' hr' (hlife.1.trans hid)

theorem RecordStep.live {b b' : StockTaskAssignment} (h : RecordStep ids b b')
    (hlive : b'.isDeleted = false) :
    b.isDeleted = false ∧ b.stockReportItemId = b'.stockReportItemId := by
  rcases h with ⟨-, rfl⟩ | ⟨-, hmove⟩
  · exact ⟨hlive, rfl⟩
  · exact ⟨hmove.1, hmove.stockReportItemId_eq.symm⟩

theorem Assigned.of_records (hi : Assigned db)
    (hrows : db'.rows.map StockReportItem.life = db.rows.map StockReportItem.life)
    (h : RecordsStep ids db.assignments db'.assignments)
    (hstored : ∀ i ∈ ids, i ∈ db.assignments.map StockTaskAssignment.clientId) :
    Assigned db' := by
  refine hi.of_rows hrows fun b' hb' hlive => .inl ?_
  rcases h.backward b' hb' with ⟨b, hb, hstep⟩ | ⟨hmem, hnot, -⟩
  · exact ⟨b, hb, hstep.live hlive⟩
  · exact absurd (hstored _ hmem) hnot

theorem Step.assigned (hk : Keyed StockTaskAssignment.clientId db.assignments)
    (hkeyed : Keyed StockReportItem.clientId db.rows) (hi : Assigned db) (h : Step ids db db') :
    Assigned db' := by
  have hrecords := h.records hk
  cases h with
  | create hquantity hcredit hlive hrow hinsert hmove =>
    rename_i inserted a trigger
    obtain ⟨hk', rfl⟩ := insertAssignment_eq_ok hinsert
    have hframe := (moveAssignment_frame hmove).table.standing.rows
    refine hi.of_rows hframe fun b' hb' hb'live => ?_
    rw [moveAssignment_assignments (.inl rfl) hk' (by simp) hmove] at hb'
    obtain ⟨x, hx, rfl⟩ := mem_updateWhere.mp hb'
    rcases List.mem_append.mp hx with hx | hx
    · have hne : x.clientId ≠ a.clientId :=
        (keyed_append.mp hk').2.2 x hx a (List.mem_singleton.mpr rfl)
      rw [if_neg (by simpa using hne)] at hb'live ⊢
      exact .inl ⟨x, hx, hb'live, rfl⟩
    · obtain rfl := List.mem_singleton.mp hx
      refine .inr fun r hr hid => ?_
      obtain ⟨r', hr', hid', hlive'⟩ := hrow
      obtain rfl := hkeyed.inj hr hr' (hid.trans (by simp [credited, hid']))
      exact hlive'
  | move hmem hlive hne hmove =>
    refine hi.of_records (moveAssignment_frame hmove).table.standing.rows hrecords ?_
    simpa using ⟨_, hmem, rfl⟩
  | resolve hne hgroup hmem hlive hrow hresolve =>
    rename_i group rowId trigger
    have hactive : ∀ a ∈ group, a.state.isActive := fun a ha =>
      ((Bool.and_eq_true _ _).mp (hlive a ha)).2
    have hframe := (resolveProcessedGroup_assignments hne hactive hk hgroup hmem hrow hresolve).1
    refine hi.of_records hframe.table.standing.rows hrecords fun i hid => ?_
    obtain ⟨a, ha, rfl⟩ := List.mem_map.mp hid
    exact List.mem_map_of_mem (hmem a ha)
  | outside => exact hi
  | zero hgone hzero =>
    exact hi.of_records (zeroLeftover_frame hzero).table.standing.rows hrecords (by simp)
  | drop now hgone =>
    rename_i rowId
    have hframe := @foldl_removeSnapshot_frame db now (openSnapshotsOf db rowId)
    intro a ha hlive r hr hid
    have hmem : a ∈ db.assignments := hframe.assignments ▸ ha
    obtain ⟨r', hr', rfl⟩ := mem_updateWhere.mp hr
    rw [hframe.rows] at hr'
    split_ifs at hid ⊢ with hrow
    · have hgone' := hgone a hmem (hid.symm.trans (by simpa using hrow))
      rw [hlive] at hgone'
      cases hgone'
    · exact hi a hmem hlive r' hr' hid

end Assigned

section Steps

variable {ids : List ClientId} {db db' : Db}

theorem removeSnapshot_dates (now : Timestamp) (db : Db) (s : ItemSnapshot) :
    (removeSnapshot now db s).rows = db.rows ∧
      (removeSnapshot now db s).versions.map SnapshotVersion.dates =
        db.versions.map SnapshotVersion.dates := by
  cases hdate : s.activeAt with
  | none =>
    obtain ⟨hrows, hversions, -⟩ := @removeSnapshot_draft db s now hdate
    rw [hrows, hversions]
    exact ⟨rfl, map_updateWhere_of_fixed fun _ _ _ => rfl⟩
  | some date =>
    obtain ⟨hrows, hversions, -⟩ := @removeSnapshot_active db s now (by simp [hdate])
    rw [hrows, hversions]
    exact ⟨rfl, rfl⟩

/-- A row that leaves closes its open snapshots without counters. -/
theorem EarlyInv.drop (hi : EarlyInv db) (hv : VersionInv none db) (rowId : ClientId)
    (now : Timestamp) :
    EarlyInv (markRowDeleted ((openSnapshotsOf db rowId).foldl (removeSnapshot now) db) rowId) := by
  let leavingInv (d : Db) : Prop := ∀ s ∈ d.snapshots, ClosedEarly d s → s.counters = 0 ∧
    (s.stockReportItemId ≠ rowId → ∀ r ∈ d.rows, r.clientId = s.stockReportItemId → r.isDeleted)
  have hstart : leavingInv db := fun s hs hc => ⟨(hi s hs hc).1, fun _ => (hi s hs hc).2⟩
  obtain ⟨-, hloop⟩ := openSnapshotsOf_foldl hv hstart fun d s hd hI hs hrow _ => by
    obtain ⟨hrows, hversions⟩ := removeSnapshot_dates now d s
    rintro y hy ⟨hclosed, v, hvm, hid, hopen⟩
    obtain ⟨w, hw, hdates⟩ := mem_of_map_eq hversions hvm
    simp only [SnapshotVersion.dates, Prod.mk.injEq] at hdates
    obtain ⟨x, hx, ⟨-, rfl⟩ | ⟨hxs, rfl⟩⟩ := mem_removeSnapshot hy
    · obtain ⟨order, horder⟩ := @afterLeaving_order s x
      rw [horder] at hclosed hid ⊢
      have hold := hI x hx ⟨hclosed, w, hw, hdates.1.trans hid, hdates.2.2.trans hopen⟩
      exact ⟨hold.1, hrows ▸ hold.2⟩
    · obtain rfl := hd.snapshots_keyed.inj hx hs hxs
      exact ⟨rfl, fun hne => absurd (afterLeaving_row.trans hrow) hne⟩
  intro s hs hc
  obtain ⟨hzero, hdeleted⟩ := hloop s hs hc
  refine ⟨hzero, fun r hr hid => ?_⟩
  obtain ⟨r', hr', rfl⟩ := mem_updateWhere.mp hr
  split_ifs at hid ⊢ with hrow
  · rfl
  · exact hdeleted (fun he => hrow (by simpa using hid.trans he)) r' hr' hid

theorem Step.early (hk : Keyed StockTaskAssignment.clientId db.assignments)
    (hv : VersionInv none db) (hi : EarlyInv db) (h : Step ids db db') : EarlyInv db' := by
  rcases h.table hk with htable | ⟨rowId, now, rfl⟩
  · exact hi.congr htable.ending
  · exact hi.drop hv rowId now

theorem EndingFrame.mapSnapshots {f : ItemSnapshot → ItemSnapshot} (hrows : db'.rows = db.rows)
    (hversions : db'.versions = db.versions) (hsnapshots : db'.snapshots = db.snapshots.map f)
    (hf : ∀ s ∈ db.snapshots, (f s).ending = s.ending) : EndingFrame db db' := by
  refine ⟨by rw [hrows], by rw [hversions], ?_⟩
  rw [hsnapshots, List.map_map]
  exact List.map_congr_left hf

theorem EndingFrame.trans {db'' : Db} (h : EndingFrame db db') (h' : EndingFrame db' db'') :
    EndingFrame db db'' :=
  ⟨h'.rows.trans h.rows, h'.versions.trans h.versions, h'.snapshots.trans h.snapshots⟩

theorem clampMissing_ending (p : ItemSnapshot → Bool) : EndingFrame db (clampMissing db p) :=
  (clampMissing_frame p).table.ending

theorem leaveGroup_ending (s : ItemSnapshot) : EndingFrame db (leaveGroup db s) := by
  rw [leaveGroup_eq]
  refine EndingFrame.mapSnapshots rfl rfl rfl fun x _ => ?_
  obtain ⟨order, h⟩ := @afterLeaving_order s x
  rw [h]
  rfl

theorem setPlace_ending (snapshotId : ClientId) (p : Option StockReportPriority)
    (order : Option ℤ) : EndingFrame db (setPlace db snapshotId p order) :=
  EndingFrame.mapSnapshots rfl rfl rfl fun x _ => by split <;> rfl

theorem shift_ending (versionId : ClientId) (p : StockReportPriority) (low : ℤ) (high : Option ℤ)
    (delta : ℤ) : EndingFrame db (shift db versionId p low high delta) := by
  unfold shift
  split_ifs
  · exact ⟨rfl, rfl, rfl⟩
  · exact EndingFrame.mapSnapshots rfl rfl rfl fun x _ => by split <;> rfl

theorem shiftWithinGroup_ending (versionId : ClientId) (p : StockReportPriority)
    (position target : ℤ) : EndingFrame db (shiftWithinGroup db versionId p position target) := by
  unfold shiftWithinGroup
  split_ifs
  · exact ⟨rfl, rfl, rfl⟩
  · exact shift_ending ..
  · exact shift_ending ..

theorem writePlaces_ending (versionId : ClientId)
    (changed : List (ClientId × Option StockReportPriority × Option ℤ)) :
    EndingFrame db (writePlaces db versionId changed) := by
  refine EndingFrame.mapSnapshots rfl rfl rfl fun x _ => ?_
  split
  · split_ifs <;> rfl
  · rfl

theorem ItemSnapshot.withoutRequested_ending {s t : ItemSnapshot}
    (h : s.withoutRequested = t.withoutRequested) : s.ending = t.ending := by
  simp only [ItemSnapshot.withoutRequested, ItemSnapshot.mk.injEq] at h
  obtain ⟨-, h2, h3, -, -, hcounters, -, -, -, -, -, hclosed⟩ := h
  simp only [ItemSnapshot.ending, ItemSnapshot.pair, h2, h3, hcounters, hclosed]

theorem ItemSnapshot.withoutTyped_ending {s t : ItemSnapshot}
    (h : s.withoutTyped = t.withoutTyped) : s.ending = t.ending := by
  simp only [ItemSnapshot.withoutTyped, ItemSnapshot.mk.injEq] at h
  obtain ⟨-, h2, h3, -, -, hcounters, -, -, -, -, -, hclosed⟩ := h
  simp only [ItemSnapshot.ending, ItemSnapshot.pair, h2, h3, hcounters, hclosed]

/-- What enters is open, and its rows are new or still there. -/
theorem EarlyInv.enter (hi : EarlyInv db) (hv : VersionInv none db)
    {created : List StockReportItem} {opened : List SnapshotVersion} {new : List ItemSnapshot}
    (h : Enter created opened new db db') : EarlyInv db' := by
  rintro s hs ⟨hclosed, v, hvm, hid, hopen⟩
  rw [h.snapshots] at hs
  rcases List.mem_append.mp hs with hs | hs
  · obtain ⟨w, hw, hdates⟩ := mem_of_map_eq h.versions hvm
    simp only [SnapshotVersion.dates, Prod.mk.injEq] at hdates
    have hkeyed : Keyed SnapshotVersion.clientId (db.versions ++ opened) :=
      keyed_of_map_eq Prod.fst (fun _ => rfl) h.versions.symm h.versions_keyed
    obtain ⟨x, hx, hxid⟩ := hv.version_of_snapshot s hs
    obtain rfl := hkeyed.inj (List.mem_append_left _ hx) hw
      (hxid.trans (hid.symm.trans hdates.1.symm))
    obtain ⟨hzero, hdeleted⟩ := hi s hs ⟨hclosed, x, hx, hxid, hdates.2.2.trans hopen⟩
    refine ⟨hzero, fun r hr hrid => ?_⟩
    obtain ⟨q, hq, hqid⟩ := hv.row_of_snapshot s hs
    obtain rfl := h.rows_keyed.inj (h.rows ▸ List.mem_append_left _ hq) hr (hqid.trans hrid.symm)
    exact hdeleted q hq hqid
  · obtain ⟨w, -, -, r, -, -, hfresh⟩ := h.fresh s hs
    rw [hfresh.opened] at hclosed
    cases hclosed

theorem EarlyInv.close (hi : EarlyInv db) (hv : VersionInv none db) (now : Timestamp) :
    EarlyInv (closeActiveVersion db now).1 := by
  rcases closeActiveVersion_cases hv now with ⟨heq, -⟩ | ⟨v, hvm, hact, -, hrows, hversions, hsnaps⟩
  · rwa [heq]
  · rintro s hs ⟨hclosed, w, hw, hid, hopen⟩
    rw [hsnaps] at hs
    rw [hversions] at hw
    rw [hrows]
    obtain ⟨x, hx, rfl⟩ := List.mem_map.mp hs
    obtain ⟨w', hw', rfl⟩ := mem_updateWhere.mp hw
    split_ifs at hid hopen with hwv
    by_cases hactive : isSnapshotActive x
    · -- its version is the active one, which closes with it
      rw [frozen, if_pos hactive] at hid
      obtain ⟨hdate, hnot⟩ := isSnapshotActive_iff.mp hactive
      have hwact : isVersionActive w' := isVersionActive_iff.mpr
        ⟨(hv.open_date x hx hnot w' hw' hid).1 ▸ hdate, hopen⟩
      exact absurd (by rw [hv.one_active w' hw' v hvm hwact hact]; simp) hwv
    · rw [frozen, if_neg hactive] at hclosed hid ⊢
      exact hi x hx ⟨hclosed, w', hw', hid, hopen⟩

theorem EarlyInv.goLive (hi : EarlyInv db) (hv : VersionInv none db) {v : SnapshotVersion}
    (hvm : v ∈ db.versions) (hdraft : isVersionDraft v) (previousId : Option ClientId)
    (keep : Bool) (now : Timestamp) :
    EarlyInv (markActive (activateSnapshots db v.clientId previousId keep now) v.clientId now) := by
  rintro s hs ⟨hclosed, w, hw, hid, hopen⟩
  replace hs : s ∈ (activateSnapshots db v.clientId previousId keep now).snapshots := hs
  rw [activateSnapshots_eq hv] at hs
  obtain ⟨x, hx, rfl⟩ := List.mem_map.mp hs
  obtain ⟨w', hw', rfl⟩ := mem_updateWhere.mp hw
  by_cases hxv : x.versionId = v.clientId
  · rw [activated, if_pos hxv] at hclosed
    rw [hv.draft_open x hx v hvm hxv.symm hdraft] at hclosed
    cases hclosed
  · rw [activated, if_neg hxv] at hclosed hid ⊢
    refine hi x hx ⟨hclosed, w', hw', ?_⟩
    split_ifs at hid hopen with hwv
    · exact absurd (hid.symm.trans (by simpa using hwv)) hxv
    · exact ⟨hid, hopen⟩

/-- A step of a command on versions keeps what closed early without counters. -/
theorem VersionStep.early (hi : EarlyInv db) (hv : VersionInv none db) (h : VersionStep db db') :
    EarlyInv db' := by
  cases h with
  | aside hrows hversions hsnapshots =>
    refine hi.congr ⟨by rw [hrows], ?_, by rw [hsnapshots]⟩
    have hmap : ∀ l : List SnapshotVersion, l.map SnapshotVersion.dates =
        (l.map SnapshotVersion.life).map fun x => (x.1, x.2.1, x.2.2.1) := fun l => by
      rw [List.map_map]
      rfl
    rw [hmap db'.versions, hversions, ← hmap]
  | enter henter => exact hi.enter hv henter
  | close now => exact hi.close hv now
  | goLive hvm hdraft hnone previousId keep now =>
    exact (hi.goLive hv hvm hdraft previousId keep now).congr (clampMissing_ending _)
  | retype hp hretyped henter =>
    have hmid := hi.congr (EndingFrame.mapSnapshots hretyped.rows hretyped.versions
      hretyped.snapshots fun s hs => ItemSnapshot.withoutRequested_ending (hretyped.requested s hs))
    have hvmid := hv.congr hretyped.standing
    rcases henter with rfl | ⟨new, henter⟩
    · exact hmid.congr (clampMissing_ending _)
    · exact (hmid.enter hvmid henter).congr (clampMissing_ending _)
  | typed htyped =>
    refine hi.congr (EndingFrame.mapSnapshots rfl rfl rfl fun s hs => ?_)
    split_ifs with hid
    · exact ItemSnapshot.withoutTyped_ending (htyped s hs (by simpa using hid)).rest
    · rfl
  | setPriority hs hopen hne =>
    exact hi.congr ((leaveGroup_ending _).trans (setPlace_ending ..))
  | setOrder hs hopen hp hposition hne hlow hhigh =>
    exact hi.congr ((shiftWithinGroup_ending ..).trans (setPlace_ending ..))
  | merge versionId source => exact hi.congr (writePlaces_ending ..)
  | discard hvm hdraft =>
    rintro s hs ⟨hclosed, w, hw, hid, hopen⟩
    exact hi s (mem_deleteWhere.mp hs).1 ⟨hclosed, w, (mem_deleteWhere.mp hw).1, hid, hopen⟩
  | demand changes =>
    exact hi.congr ⟨(writeDemand_standing changes).rows, rfl, rfl⟩

end Steps

section Runs

variable {repairs : List RepairRecord} {db db' : Db}

/-- The tables agree, the counters are exact, and what left counts nothing. -/
structure ReportInv (repairs : List RepairRecord) (db : Db) : Prop where
  versions : VersionInv none db
  counters : CounterInv repairs 0 db
  assigned : Assigned db
  early : EarlyInv db

theorem Assigned.applyStockDemand (hi : Assigned db) {categoryByKey : String → Option ClientId}
    {entries : List DemandEntry} {now : Timestamp} {late : Bool}
    {newRowId newSnapshotId newHistoryId : ℕ → ClientId}
    (h : applyStockDemand db categoryByKey entries now late newRowId newSnapshotId newHistoryId =
      .ok db') : Assigned db' := by
  obtain ⟨-, drafted, changes, hdraft, -, hinsert⟩ := applyStockDemand_eq_ok h
  obtain ⟨-, rfl⟩ := insertHistories_eq_ok.mp hinsert
  have hframe := addRowsToEveryDraft_frame hdraft
  have hdrafted : Assigned drafted := by
    intro a ha hlive r hr hid
    rw [hframe.rows] at hr
    rw [hframe.assignments] at ha
    rcases List.mem_append.mp hr with hr | hr
    · exact hi a ha hlive r hr hid
    · exact (absentRows_counters r hr).2
  exact hdrafted.of_rows (writeDemand_standing changes).rows fun b hb hlive =>
    .inl ⟨b, hb, hlive, rfl⟩

theorem ReportInv.step {op : Op} (hi : ReportInv repairs db) (h : step db op = .ok db') :
    ReportInv repairs db' := by
  have hk := hi.counters.assignments_keyed
  have hversions : VersionRunInv db' := VersionRunInv.step ⟨hi.versions, hk⟩ h
  refine ⟨hversions.versions, hi.counters.step h, ?_, ?_⟩
  · by_cases hassign : op.IsAssignmentCommand
    · obtain ⟨ids, ht⟩ := step_trace hassign hk h
      have hall : Assigned db' ∧ Keyed StockTaskAssignment.clientId db'.assignments ∧
          VersionInv none db' :=
        ht.invariant (I := fun d => Assigned d ∧ Keyed StockTaskAssignment.clientId d.assignments ∧
          VersionInv none d) (fun _ _ _ hI hs => ⟨hs.assigned hI.2.1 hI.2.2.rows_keyed hI.1,
          (hs.records hI.2.1).keyed, hs.versionInv hI.2.1 hI.2.2⟩) ⟨hi.assigned, hk, hi.versions⟩
      exact hall.1
    · by_cases hversion : op.IsVersionCommand
      · have hquiet := step_quiet hversion h
        exact hi.assigned.of_rows (by rw [hquiet.rows]) fun b hb hlive =>
          .inl ⟨b, hquiet.assignments ▸ hb, hlive, rfl⟩
      · cases op with
        | stockDemand => exact hi.assigned.applyStockDemand h
        | _ => simp [Op.IsAssignmentCommand, Op.IsVersionCommand] at hassign hversion
  · rcases step_cases hi.versions hk h with ⟨ids, ht⟩ | ht
    · have hall : EarlyInv db' ∧ Keyed StockTaskAssignment.clientId db'.assignments ∧
          VersionInv none db' :=
        ht.invariant (I := fun d => EarlyInv d ∧ Keyed StockTaskAssignment.clientId d.assignments ∧
          VersionInv none d) (fun _ _ _ hI hs =>
            ⟨hs.early hI.2.1 hI.2.2 hI.1, (hs.records hI.2.1).keyed,
          hs.versionInv hI.2.1 hI.2.2⟩) ⟨hi.early, hk, hi.versions⟩
      exact hall.1
    · have hall : EarlyInv db' ∧ VersionInv none db' :=
        ht.invariant (I := fun d => EarlyInv d ∧ VersionInv none d)
          (fun _ _ hI hs => ⟨hs.early hI.1 hI.2, hI.2.step hs⟩) ⟨hi.early, hi.versions⟩
      exact hall.1

theorem ReportInv.run (hi : ReportInv repairs db) (ops : List Op) :
    ReportInv repairs (run db ops) :=
  run_invariant (ReportInv repairs) (fun _ _ _ hi h => hi.step h) hi ops

theorem ReportInv.start (hrows : Keyed StockReportItem.clientId db.rows)
    (hassign : db.assignments = []) (hzero : ∀ r ∈ db.rows, r.counters = 0)
    (hversions : db.versions = []) (hsnapshots : db.snapshots = []) :
    ReportInv (rowRepairs db) db where
  versions := (VersionRunInv.start hrows (by simp [hassign]) hversions hsnapshots).versions
  counters := ⟨hrows, by simp [hassign], by simp [hassign], by simp [hassign],
    fun r hr => by simp [hassign, hzero r hr], rfl⟩
  assigned := by simp [Assigned, hassign]
  early := by simp [EarlyInv, hsnapshots]

theorem ReportInv.counters_of_deleted (hi : ReportInv repairs db) {r : StockReportItem}
    (hr : r ∈ db.rows) (hdeleted : r.isDeleted) : r.counters = 0 := by
  have hsum := hi.counters.counters_eq r hr
  rw [Pi.zero_apply, add_zero] at hsum
  rw [hsum]
  refine total_eq_zero fun a ha => ?_
  rw [contribution, if_neg]
  rintro ⟨hrow, hlive⟩
  rw [hi.assigned a ha hlive r hr hrow.symm] at hdeleted
  cases hdeleted

end Runs

end BeyoManager.StockReport
