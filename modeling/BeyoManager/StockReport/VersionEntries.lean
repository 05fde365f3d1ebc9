import BeyoManager.StockReport.VersionSteps

/-! # What enters a version

A new version takes a snapshot of every live row, the refresh adds the rows that the
active version lacks, and new rows join every draft.
-/

namespace BeyoManager.StockReport

open Relational Transition Sorting

section Entering

variable {db db' : Db}

theorem mem_snapshotEachRow {values : ClientId → ClientId → StockReportItem → ItemSnapshot}
    {versionId : ClientId} {rows : List StockReportItem} {newId : ℕ → ClientId} {s : ItemSnapshot}
    (h : s ∈ snapshotEachRow values versionId rows newId) :
    ∃ r ∈ rows, ∃ i, s = values (newId i) versionId r := by
  obtain ⟨⟨r, i⟩, hri, rfl⟩ := List.mem_map.mp h
  exact ⟨r, (List.mem_zipIdx' hri).2 ▸ List.getElem_mem _, i, rfl⟩

theorem map_snapshotEachRow {β : Type} {g : ItemSnapshot → β} {g' : StockReportItem → β}
    {values : ClientId → ClientId → StockReportItem → ItemSnapshot} {versionId : ClientId}
    (rows : List StockReportItem) {newId : ℕ → ClientId}
    (hg : ∀ i r, g (values i versionId r) = g' r) :
    (snapshotEachRow values versionId rows newId).map g = rows.map g' := by
  have hmap : ∀ (rows : List StockReportItem) (n : ℕ),
      ((rows.zipIdx n).map fun e => values (newId e.2) versionId e.1).map g =
        rows.map g' := by
    intro rows
    induction rows with
    | nil => simp
    | cons r rows ih => intro n; simp [List.zipIdx_cons, hg, ih]
  exact hmap rows 0

theorem draftSnapshotValues_fresh {v : SnapshotVersion} {i : ClientId} {r : StockReportItem}
    (hv : v.activeAt = none) : (draftSnapshotValues i v.clientId r).Fresh v r where
  version := rfl
  row := rfl
  date := hv.symm
  opened := rfl
  place := ⟨rfl, rfl⟩
  missing := by simp [draftSnapshotValues]
  checks := ⟨by simp [draftSnapshotValues], by simp [draftSnapshotValues],
    by simp [draftSnapshotValues]⟩

theorem activeSnapshotValues_fresh {v : SnapshotVersion} {i : ClientId} {r : StockReportItem}
    {date : Option Timestamp} (hv : v.activeAt = date) (hdate : date.isSome) :
    (activeSnapshotValues i v.clientId r date).Fresh v r where
  version := rfl
  row := rfl
  date := hv.symm
  opened := rfl
  place := ⟨rfl, rfl⟩
  missing := by simp [activeSnapshotValues]
  checks := ⟨by simp [activeSnapshotValues, hdate], by simp [activeSnapshotValues],
    by simp [activeSnapshotValues, draftSnapshotValues]⟩

theorem countSnapshots_append {new : List ItemSnapshot}
    (h : db'.snapshots = db.snapshots ++ new) (versionId : ClientId) :
    countSnapshots db' versionId =
      countSnapshots db versionId + (new.countP fun s => s.versionId == versionId) := by
  simp [countSnapshots, h, List.countP_append]

theorem countSnapshots_eq_zero {versionId : ClientId}
    (h : ∀ s ∈ db.snapshots, s.versionId ≠ versionId) : countSnapshots db versionId = 0 := by
  simp only [countSnapshots, Nat.cast_eq_zero, List.countP_eq_zero, beq_iff_eq]
  exact h

/-- A new version with a snapshot for each live row. -/
theorem enter_version (hi : VersionInv none db) {v : SnapshotVersion} {newId : ℕ → ClientId}
    {values : ClientId → ClientId → StockReportItem → ItemSnapshot}
    (hv : Keyed SnapshotVersion.clientId (db.versions ++ [v])) (hopen : v.closedAt = none)
    (hnone : isVersionActive v → ∀ w ∈ db.versions, ¬ isVersionActive w)
    (hcount : v.snapshotCount = (liveRows db).length)
    (hfresh : ∀ i r, (values i v.clientId r).Fresh v r)
    (hs : Keyed ItemSnapshot.clientId
      (db.snapshots ++ snapshotEachRow values v.clientId (liveRows db) newId)) :
    Enter [] [v] (snapshotEachRow values v.clientId (liveRows db) newId) db { db with
      versions := db.versions ++ [v]
      snapshots := db.snapshots ++ snapshotEachRow values v.clientId (liveRows db) newId } := by
  have hnew : ∀ s ∈ db.snapshots, s.versionId ≠ v.clientId := fun s hsm he => by
    obtain ⟨w, hw, hid⟩ := hi.version_of_snapshot s hsm
    exact (keyed_append.mp hv).2.2 w hw v (List.mem_singleton.mpr rfl) (hid.trans he)
  have hall : ∀ s ∈ snapshotEachRow values v.clientId (liveRows db) newId,
      ∃ r ∈ liveRows db, s.Fresh v r := fun s hsm => by
    obtain ⟨r, hr, i, rfl⟩ := mem_snapshotEachRow hsm
    exact ⟨r, hr, hfresh _ _⟩
  have hmap : (snapshotEachRow values v.clientId (liveRows db) newId).map
      ItemSnapshot.stockReportItemId = (liveRows db).map StockReportItem.clientId :=
    map_snapshotEachRow (liveRows db) fun i r => (hfresh i r).row
  refine ⟨(List.append_nil _).symm, rfl, rfl, hi.rows_keyed, hv, hs, ?_,
    by simpa using hopen, ?_, fun s hsm => ?_, ?_, fun w hw => ?_⟩
  · refine keyed_append.mpr ⟨hi.pairs_keyed, ?_, fun s hsm t ht he => ?_⟩
    · have hrows : ((snapshotEachRow values v.clientId (liveRows db) newId).map
          ItemSnapshot.stockReportItemId).Nodup := hmap ▸ liveRows_keyed hi.rows_keyed
      refine List.Nodup.of_map Prod.snd ?_
      rwa [List.map_map]
    · obtain ⟨r, -, ht⟩ := hall t ht
      exact hnew s hsm ((congrArg Prod.fst he).trans ht.version)
  · intro w hw hact x hx hxact
    obtain rfl := List.mem_singleton.mp hw
    rcases List.mem_append.mp hx with hx | hx
    · exact absurd hxact (hnone hact x hx)
    · exact List.mem_singleton.mp hx
  · obtain ⟨r, hr, hfs⟩ := hall s hsm
    obtain ⟨hrm, hlive⟩ := mem_liveRows.mp hr
    exact ⟨v, by simp, hopen, r, hrm, hlive, hfs⟩
  · intro w hw _ r hr hlive hnew
    obtain rfl : w = v := by simpa using hnew
    have hr' : r.clientId ∈ (snapshotEachRow values w.clientId (liveRows db) newId).map
        ItemSnapshot.stockReportItemId :=
      hmap ▸ List.mem_map_of_mem (mem_liveRows.mpr ⟨hr, hlive⟩)
    obtain ⟨s, hsm, hrow⟩ := List.mem_map.mp hr'
    obtain ⟨q, -, hfs⟩ := hall s hsm
    exact ⟨s, hsm, hfs.version, hrow⟩
  · rw [countSnapshots_append rfl]
    rcases List.mem_append.mp hw with hw | hw
    · have hne : v.clientId ≠ w.clientId := fun he =>
        (keyed_append.mp hv).2.2 w hw v (List.mem_singleton.mpr rfl) he.symm
      rw [hi.count_eq w hw, List.countP_eq_zero.mpr fun s hsm => ?_, Nat.cast_zero, add_zero]
      obtain ⟨r, -, hfs⟩ := hall s hsm
      simpa [hfs.version] using hne
    · obtain rfl := List.mem_singleton.mp hw
      have hlen := congrArg List.length hmap
      simp only [List.length_map] at hlen
      rw [countSnapshots_eq_zero hnew, zero_add, hcount, List.countP_eq_length.mpr fun s hsm => ?_,
        hlen]
      obtain ⟨r, -, hfs⟩ := hall s hsm
      simp [hfs.version]

theorem pairs_keyed_append (hi : VersionInv none db) {new : List ItemSnapshot}
    (hnew : Keyed ItemSnapshot.pair new)
    (hdisjoint : ∀ s ∈ new, ∀ t ∈ db.snapshots, t.pair ≠ s.pair) :
    Keyed ItemSnapshot.pair (db.snapshots ++ new) :=
  keyed_append.mpr ⟨hi.pairs_keyed, hnew, fun t ht s hs => hdisjoint s hs t ht⟩

/-- The refresh adds the live rows that the active version lacks. -/
theorem enter_missingRows (hi : VersionInv none db) {v : SnapshotVersion}
    {newId : ℕ → ClientId} (hv : v ∈ db.versions) (hact : isVersionActive v)
    (h : addMissingRows db v newId = .ok db') :
    db' = db ∨ ∃ new, Enter [] [] new db db' := by
  unfold addMissingRows at h
  simp only at h
  split at h
  · obtain rfl := by simpa [pure, Except.pure] using h
    exact .inl rfl
  right
  simp only [bind_eq_ok, insertSnapshots_eq_ok, pure, Except.pure, Except.ok.injEq] at h
  obtain ⟨mid, ⟨hs, hmid⟩, hdb'⟩ := h
  obtain ⟨hdate, hopen⟩ := isVersionActive_iff.mp hact
  set held := (db.snapshots.filter fun s => s.versionId == v.clientId).map
    ItemSnapshot.stockReportItemId with hheld
  set rows := (liveRows db).filter fun r => decide (r.clientId ∉ held) with hrows
  set new := snapshotEachRow (fun clientId versionId row =>
    activeSnapshotValues clientId versionId row v.activeAt) v.clientId rows newId with hnewdef
  have hall : ∀ s ∈ new, ∃ r ∈ rows, s.Fresh v r := fun s hsm => by
    obtain ⟨r, hr, i, rfl⟩ := mem_snapshotEachRow hsm
    exact ⟨r, hr, activeSnapshotValues_fresh rfl hdate⟩
  have hmap : (snapshotEachRow (fun clientId versionId row =>
      activeSnapshotValues clientId versionId row v.activeAt) v.clientId rows newId).map
        ItemSnapshot.stockReportItemId = rows.map StockReportItem.clientId :=
    map_snapshotEachRow rows fun _ _ => rfl
  have hkeyed : Keyed ItemSnapshot.pair new := by
    refine List.Nodup.of_map Prod.snd ?_
    rw [List.map_map]
    exact hmap ▸ keyed_filter (liveRows_keyed hi.rows_keyed) _
  have hpairs : Keyed ItemSnapshot.pair (db.snapshots ++ new) :=
    pairs_keyed_append hi hkeyed fun s hsm t ht he => by
      obtain ⟨r, hr, hfs⟩ := hall s hsm
      have hnot : r.clientId ∉ held := by simpa using (List.mem_filter.mp hr).2
      refine hnot (List.mem_map.mpr ⟨t, List.mem_filter.mpr ⟨ht, ?_⟩, ?_⟩)
      · rw [beq_iff_eq]
        exact (congrArg Prod.fst he).trans hfs.version
      · exact (congrArg Prod.snd he).trans hfs.row
  subst hmid
  subst hdb'
  have hids : (updateWhere (fun w => w.clientId == v.clientId) (fun w => { w with
      snapshotCount := countSnapshots { db with snapshots := db.snapshots ++ new } v.clientId })
      db.versions).map SnapshotVersion.dates = (db.versions ++ []).map SnapshotVersion.dates := by
    rw [List.append_nil]
    exact map_updateWhere_of_fixed fun _ _ _ => rfl
  refine ⟨new, (List.append_nil _).symm, hids, rfl, hi.rows_keyed,
    keyed_update hi.versions_keyed fun _ _ _ => rfl, hs, hpairs, by simp, by simp,
    fun s hsm => ?_, fun w _ _ r _ _ hnew => by simp at hnew, fun w hw => ?_⟩
  · obtain ⟨r, hr, hfs⟩ := hall s hsm
    obtain ⟨hrm, hlive⟩ := mem_liveRows.mp (List.mem_filter.mp hr).1
    exact ⟨v, by simpa using hv, hopen, r, hrm, hlive, hfs⟩
  · obtain ⟨x, hx, rfl⟩ := mem_updateWhere.mp hw
    split_ifs with hxv
    · rw [beq_iff_eq] at hxv
      simp only [hxv]
      rfl
    · rw [@countSnapshots_append db _ _ rfl, hi.count_eq x hx,
        List.countP_eq_zero.mpr fun s hsm => ?_, Nat.cast_zero, add_zero]
      obtain ⟨r, -, hfs⟩ := hall s hsm
      rw [hfs.version, beq_iff_eq]
      exact fun he => hxv (beq_iff_eq.mpr he.symm)

theorem versionIsDraft_iff (hi : VersionInv none db) {v : SnapshotVersion} (hv : v ∈ db.versions) :
    versionIsDraft v ↔ isVersionDraft v := by
  rw [isVersionDraft_iff, versionIsDraft, Option.isNone_iff_eq_none]
  refine ⟨fun h => ⟨h, ?_⟩, fun h => h.1⟩
  by_contra hc
  simpa [h] using hi.closed_activated v hv (Option.isSome_iff_ne_none.mpr hc)

def draftPairs (db : Db) (rows : List StockReportItem) : List (ClientId × StockReportItem) :=
  (sortBy SnapshotVersion.clientId (db.versions.filter versionIsDraft)).flatMap fun d =>
    rows.map fun r => (d.clientId, r)

theorem newDraftSnapshots_eq {created : List StockReportItem} {newId : ℕ → ClientId}
    (hno : ∀ r ∈ created, ∀ t ∈ db.snapshots, t.stockReportItemId ≠ r.clientId) :
    newDraftSnapshots db created newId = (draftPairs db created).zipIdx.map fun (pair, index) =>
      draftSnapshotValues (newId index) pair.1 pair.2 := by
  refine List.filter_eq_self.mpr fun s hsm => ?_
  obtain ⟨⟨p, i⟩, hpi, rfl⟩ := List.mem_map.mp hsm
  have hp : p ∈ draftPairs db created := (List.mem_zipIdx' hpi).2 ▸ List.getElem_mem _
  obtain ⟨d, -, hp⟩ := List.mem_flatMap.mp hp
  obtain ⟨r, hr, rfl⟩ := List.mem_map.mp hp
  rw [Bool.not_eq_true', List.any_eq_false]
  exact fun t ht hc => hno r hr t ht (beq_iff_eq.mp ((Bool.and_eq_true _ _).mp hc).2)

theorem newDraftSnapshots_pair {created : List StockReportItem} {newId : ℕ → ClientId}
    (hno : ∀ r ∈ created, ∀ t ∈ db.snapshots, t.stockReportItemId ≠ r.clientId) :
    (newDraftSnapshots db created newId).map ItemSnapshot.pair =
      (draftPairs db created).map fun p => (p.1, p.2.clientId) := by
  rw [newDraftSnapshots_eq hno, List.map_map]
  conv_rhs => rw [← List.zipIdx_map_fst 0 (draftPairs db created), List.map_map]
  exact List.map_congr_left fun x _ => rfl

/-- New rows join every draft. -/
theorem enter_demand (hi : VersionInv none db) {created : List StockReportItem}
    {newId : ℕ → ClientId} (hrows : Keyed StockReportItem.clientId (db.rows ++ created))
    (hlive : ∀ r ∈ created, r.isDeleted = false)
    (h : addRowsToEveryDraft { db with rows := db.rows ++ created } created newId = .ok db') :
    ∃ new, Enter created [] new db db' := by
  simp only [addRowsToEveryDraft, bind_eq_ok, insertSnapshots_eq_ok, pure, Except.pure,
    Except.ok.injEq] at h
  obtain ⟨mid, ⟨hs, hmid⟩, hdb'⟩ := h
  set new := newDraftSnapshots { db with rows := db.rows ++ created } created newId with hnewdef
  subst hmid
  subst hdb'
  set drafts := sortBy SnapshotVersion.clientId (db.versions.filter versionIsDraft) with hdrafts
  set pairs := drafts.flatMap fun d => created.map fun r => (d.clientId, r) with hpairsdef
  have hmemDraft : ∀ {d}, d ∈ drafts ↔ d ∈ db.versions ∧ isVersionDraft d := fun {d} => by
    rw [hdrafts, (sortBy_perm _ _).mem_iff, List.mem_filter]
    exact and_congr_right fun hd => versionIsDraft_iff hi hd
  have hmemPairs : ∀ {p : ClientId × StockReportItem}, p ∈ pairs ↔
      ∃ d ∈ drafts, ∃ r ∈ created, (d.clientId, r) = p := by
    simp [hpairsdef, List.mem_flatMap]
  -- no snapshot of a created row was there, so the filter keeps every pair
  have hno : ∀ r ∈ created, ∀ t ∈ db.snapshots, t.stockReportItemId ≠ r.clientId :=
    fun r hr t ht he => by
      obtain ⟨q, hq, hid⟩ := hi.row_of_snapshot t ht
      exact (keyed_append.mp hrows).2.2 q hq r hr (hid.trans he)
  have hnew : new = pairs.zipIdx.map fun (pair, index) =>
      draftSnapshotValues (newId index) pair.1 pair.2 := newDraftSnapshots_eq hno
  have hmapNew : new.map ItemSnapshot.pair = pairs.map fun p => (p.1, p.2.clientId) :=
    newDraftSnapshots_pair hno
  have hall : ∀ s ∈ new, ∃ d ∈ drafts, ∃ r ∈ created, s.Fresh d r := fun s hsm => by
    rw [hnew] at hsm
    obtain ⟨⟨p, i⟩, hpi, rfl⟩ := List.mem_map.mp hsm
    obtain ⟨d, hd, r, hr, rfl⟩ := hmemPairs.mp ((List.mem_zipIdx' hpi).2 ▸ List.getElem_mem _)
    exact ⟨d, hd, r, hr, draftSnapshotValues_fresh (isVersionDraft_iff.mp (hmemDraft.mp hd).2).1⟩
  have hkeyed : Keyed ItemSnapshot.pair new := by
    rw [Keyed, hmapNew, hpairsdef, List.map_flatMap, List.nodup_flatMap]
    refine ⟨fun d _ => ?_, ?_⟩
    · rw [List.map_map]
      refine List.Nodup.of_map Prod.snd ?_
      rw [List.map_map]
      exact (keyed_append.mp hrows).2.1
    · have hd : Keyed SnapshotVersion.clientId drafts :=
        (keyed_filter hi.versions_keyed _).perm (sortBy_perm _ _)
      refine (List.pairwise_map.mp hd).imp fun {d e} hne => ?_
      intro x hxd hxe
      simp only [List.map_map, List.mem_map, Function.comp_apply] at hxd hxe
      obtain ⟨r, -, rfl⟩ := hxd
      obtain ⟨q, -, he⟩ := hxe
      exact hne (congrArg Prod.fst he).symm
  have hdates : (db.versions.map fun v => { v with snapshotCount := v.snapshotCount +
      (new.countP fun s => s.versionId == v.clientId : ℕ) }).map SnapshotVersion.dates =
      (db.versions ++ []).map SnapshotVersion.dates := by
    rw [List.append_nil, List.map_map]
    rfl
  refine ⟨new, rfl, hdates, rfl, hrows, ?_, hs, ?_, by simp, by simp, fun s hsm => ?_,
    fun v hv hd r _ _ hnewRow => ?_, fun v hv => ?_⟩
  · exact hi.versions_keyed.of_map_eq (by rw [List.map_map]; rfl)
  · refine pairs_keyed_append hi hkeyed fun s hsm t ht he => ?_
    obtain ⟨d, -, r, hr, hfs⟩ := hall s hsm
    exact hno r hr t ht ((congrArg Prod.snd he).trans hfs.row)
  · obtain ⟨d, hd, r, hr, hfs⟩ := hall s hsm
    obtain ⟨hdm, hdd⟩ := hmemDraft.mp hd
    exact ⟨d, by simpa using hdm, (isVersionDraft_iff.mp hdd).2, r, List.mem_append_right _ hr,
      hlive r hr, hfs⟩
  · rw [List.append_nil] at hv
    have hr : r ∈ created := by simpa using hnewRow
    have hpair : (v.clientId, r.clientId) ∈ new.map ItemSnapshot.pair := by
      rw [hmapNew]
      exact List.mem_map.mpr ⟨(v.clientId, r),
        hmemPairs.mpr ⟨v, hmemDraft.mpr ⟨hv, hd⟩, r, hr, rfl⟩, rfl⟩
    obtain ⟨s, hsm, he⟩ := List.mem_map.mp hpair
    exact ⟨s, hsm, congrArg Prod.fst he, congrArg Prod.snd he⟩
  · obtain ⟨w, hw, rfl⟩ := List.mem_map.mp hv
    rw [@countSnapshots_append db _ _ rfl, hi.count_eq w hw]

end Entering

end BeyoManager.StockReport
