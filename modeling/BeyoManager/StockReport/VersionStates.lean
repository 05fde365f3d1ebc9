import BeyoManager.StockReport.CommandSteps

/-! # The states of versions and snapshots

A version is a draft, active or closed, and each of its snapshots repeats that in its
own columns. The invariant says how the columns of the two tables agree, and that a
draft has a place for every live row. In the middle of a deletion the row that leaves
may have lost its places already.
-/

namespace BeyoManager.StockReport

open Relational Transition Sorting

def StockReportItem.life (r : StockReportItem) : ClientId × Bool := (r.clientId, r.isDeleted)

def SnapshotVersion.life (v : SnapshotVersion) :
    ClientId × Option Timestamp × Option Timestamp × ℤ :=
  (v.clientId, v.activeAt, v.closedAt, v.snapshotCount)

def ItemSnapshot.standing (s : ItemSnapshot) : (ClientId × ClientId × ClientId) ×
    (Bool × Bool) × Option Timestamp × Option Timestamp :=
  ((s.clientId, s.versionId, s.stockReportItemId),
    (s.quantityRequestedScanner.isSome, s.quantityMissing.isSome), s.activeAt, s.closedAt)

/-- The pair of a version and a row that a snapshot stands for. -/
def ItemSnapshot.pair (s : ItemSnapshot) : ClientId × ClientId :=
  (s.versionId, s.stockReportItemId)

structure ItemSnapshot.Checks (s : ItemSnapshot) : Prop where
  scanner_iff : s.quantityRequestedScanner.isSome ↔ s.activeAt.isSome
  missing_set : s.activeAt.isSome → s.quantityMissing.isSome
  closed_activated : s.closedAt.isSome → s.activeAt.isSome

/-- Versions and snapshots agree; the row that leaves may lack places in the drafts. -/
structure VersionInv (leaving : Option ClientId) (db : Db) : Prop where
  rows_keyed : Keyed StockReportItem.clientId db.rows
  versions_keyed : Keyed SnapshotVersion.clientId db.versions
  snapshots_keyed : Keyed ItemSnapshot.clientId db.snapshots
  pairs_keyed : Keyed ItemSnapshot.pair db.snapshots
  version_of_snapshot : ∀ s ∈ db.snapshots, ∃ v ∈ db.versions, v.clientId = s.versionId
  row_of_snapshot : ∀ s ∈ db.snapshots, ∃ r ∈ db.rows, r.clientId = s.stockReportItemId
  one_active : ∀ v ∈ db.versions, ∀ w ∈ db.versions, isVersionActive v → isVersionActive w → v = w
  closed_activated : ∀ v ∈ db.versions, v.closedAt.isSome → v.activeAt.isSome
  open_date : ∀ s ∈ db.snapshots, s.closedAt = none → ∀ v ∈ db.versions,
    v.clientId = s.versionId → s.activeAt = v.activeAt ∧ v.closedAt = none
  draft_open : ∀ s ∈ db.snapshots, ∀ v ∈ db.versions, v.clientId = s.versionId →
    isVersionDraft v → s.closedAt = none
  draft_covers : ∀ v ∈ db.versions, isVersionDraft v → ∀ r ∈ db.rows, r.isDeleted = false →
    some r.clientId ≠ leaving →
      ∃ s ∈ db.snapshots, s.versionId = v.clientId ∧ s.stockReportItemId = r.clientId
  draft_live : ∀ s ∈ db.snapshots, ∀ v ∈ db.versions, v.clientId = s.versionId →
    isVersionDraft v → ∀ r ∈ db.rows, r.clientId = s.stockReportItemId → r.isDeleted = false
  count_eq : ∀ v ∈ db.versions, v.snapshotCount = countSnapshots db v.clientId
  checks : ∀ s ∈ db.snapshots, s.Checks

section Congr

variable {leaving : Option ClientId} {db db' : Db}

theorem mem_of_map_eq {α β : Type} {f : α → β} {l l' : List α} (h : l'.map f = l.map f) {x : α}
    (hx : x ∈ l') : ∃ y ∈ l, f y = f x :=
  List.mem_map.mp (h ▸ List.mem_map_of_mem hx)

theorem keyed_of_map_eq {α β γ : Type} {f : α → β} {key : α → γ} (g : β → γ)
    (hg : ∀ x, g (f x) = key x) {l l' : List α} (h : l'.map f = l.map f) (hk : Keyed key l) :
    Keyed key l' := by
  have hmap : ∀ l : List α, l.map key = (l.map f).map g := fun l => by
    rw [List.map_map]
    exact List.map_congr_left fun x _ => (hg x).symm
  exact hk.of_map_eq (by rw [hmap, hmap, h])

theorem countSnapshots_congr
    (h : db'.snapshots.map ItemSnapshot.standing = db.snapshots.map ItemSnapshot.standing)
    (versionId : ClientId) : countSnapshots db' versionId = countSnapshots db versionId := by
  have hcount : ∀ l : List ItemSnapshot, l.countP (fun s => s.versionId == versionId) =
      (l.map ItemSnapshot.standing).countP fun s => s.1.2.1 == versionId := fun l => by
    rw [List.countP_map]
    rfl
  rw [countSnapshots, countSnapshots, hcount, hcount, h]

theorem isVersionActive_congr {v w : SnapshotVersion} (h : v.life = w.life) :
    isVersionActive v = isVersionActive w := by
  simp only [SnapshotVersion.life, Prod.mk.injEq] at h
  simp only [isVersionActive, h.2.1, h.2.2.1]

theorem isVersionDraft_congr {v w : SnapshotVersion} (h : v.life = w.life) :
    isVersionDraft v = isVersionDraft w := by
  simp only [SnapshotVersion.life, Prod.mk.injEq] at h
  simp only [isVersionDraft, h.2.1, h.2.2.1]

theorem SnapshotVersion.life_eq_iff {v w : SnapshotVersion} : v.life = w.life ↔
    v.clientId = w.clientId ∧ v.activeAt = w.activeAt ∧ v.closedAt = w.closedAt ∧
      v.snapshotCount = w.snapshotCount := by
  simp only [SnapshotVersion.life, Prod.mk.injEq]

theorem ItemSnapshot.standing_eq_iff {s t : ItemSnapshot} : s.standing = t.standing ↔
    (s.clientId = t.clientId ∧ s.versionId = t.versionId ∧
      s.stockReportItemId = t.stockReportItemId) ∧
    (s.quantityRequestedScanner.isSome = t.quantityRequestedScanner.isSome ∧
      s.quantityMissing.isSome = t.quantityMissing.isSome) ∧
    s.activeAt = t.activeAt ∧ s.closedAt = t.closedAt := by
  simp only [ItemSnapshot.standing, Prod.mk.injEq]

theorem ItemSnapshot.Checks.congr {s t : ItemSnapshot} (h : s.standing = t.standing)
    (hs : s.Checks) : t.Checks := by
  obtain ⟨-, ⟨hscanner, hmissing⟩, hactive, hclosed⟩ := ItemSnapshot.standing_eq_iff.mp h
  exact ⟨by rw [← hscanner, ← hactive]; exact hs.scanner_iff,
    by rw [← hmissing, ← hactive]; exact hs.missing_set,
    by rw [← hclosed, ← hactive]; exact hs.closed_activated⟩

structure StandingFrame (db db' : Db) : Prop where
  rows : db'.rows.map StockReportItem.life = db.rows.map StockReportItem.life
  versions : db'.versions.map SnapshotVersion.life = db.versions.map SnapshotVersion.life
  snapshots : db'.snapshots.map ItemSnapshot.standing = db.snapshots.map ItemSnapshot.standing

theorem StandingFrame.refl (db : Db) : StandingFrame db db := ⟨rfl, rfl, rfl⟩

theorem StandingFrame.trans {db'' : Db} (h : StandingFrame db db') (h' : StandingFrame db' db'') :
    StandingFrame db db'' :=
  ⟨h'.rows.trans h.rows, h'.versions.trans h.versions, h'.snapshots.trans h.snapshots⟩

/-- The invariant depends on lives and standings alone. -/
theorem VersionInv.congr (hi : VersionInv leaving db) (h : StandingFrame db db') :
    VersionInv leaving db' := by
  obtain ⟨hrows, hversions, hsnapshots⟩ := h
  have hr : ∀ r ∈ db'.rows, ∃ r' ∈ db.rows, r'.clientId = r.clientId ∧
      r'.isDeleted = r.isDeleted := fun r hr => by
    obtain ⟨r', hr', h⟩ := mem_of_map_eq hrows hr
    exact ⟨r', hr', by simpa [StockReportItem.life] using h⟩
  have hv : ∀ v ∈ db'.versions, ∃ v' ∈ db.versions, v'.life = v.life := fun v hv =>
    mem_of_map_eq hversions hv
  have hs : ∀ s ∈ db'.snapshots, ∃ s' ∈ db.snapshots, s'.standing = s.standing := fun s hs =>
    mem_of_map_eq hsnapshots hs
  refine ⟨keyed_of_map_eq Prod.fst (fun _ => rfl) hrows hi.rows_keyed,
    keyed_of_map_eq Prod.fst (fun _ => rfl) hversions hi.versions_keyed,
    keyed_of_map_eq (fun x => x.1.1) (fun _ => rfl) hsnapshots hi.snapshots_keyed,
    keyed_of_map_eq (fun x => x.1.2) (fun _ => rfl) hsnapshots hi.pairs_keyed,
    fun s hsm => ?_, fun s hsm => ?_, fun v hvm w hwm hva hwa => ?_, fun v hvm hc => ?_,
    fun s hsm hopen v hvm hid => ?_, fun s hsm v hvm hid hd => ?_,
    fun v hvm hd r hrm hlive hne => ?_, fun s hsm v hvm hid hd r hrm hrid => ?_,
    fun v hvm => ?_, fun s hsm => ?_⟩
  · obtain ⟨s', hs', hst⟩ := hs s hsm
    obtain ⟨v, hv, hid⟩ := hi.version_of_snapshot s' hs'
    obtain ⟨v', hv', hlife⟩ := mem_of_map_eq hversions.symm hv
    rw [ItemSnapshot.standing_eq_iff] at hst
    exact ⟨v', hv', (SnapshotVersion.life_eq_iff.mp hlife).1.trans (hid.trans hst.1.2.1)⟩
  · obtain ⟨s', hs', hst⟩ := hs s hsm
    obtain ⟨r, hr, hid⟩ := hi.row_of_snapshot s' hs'
    obtain ⟨r', hr', hlife⟩ := mem_of_map_eq hrows.symm hr
    rw [ItemSnapshot.standing_eq_iff] at hst
    exact ⟨r', hr', (congrArg Prod.fst hlife).trans (hid.trans hst.1.2.2)⟩
  · obtain ⟨v', hv', hvl⟩ := hv v hvm
    obtain ⟨w', hw', hwl⟩ := hv w hwm
    have hvw := hi.one_active v' hv' w' hw' (isVersionActive_congr hvl ▸ hva)
      (isVersionActive_congr hwl ▸ hwa)
    have hid : v.clientId = w.clientId := by
      rw [← (SnapshotVersion.life_eq_iff.mp hvl).1, ← (SnapshotVersion.life_eq_iff.mp hwl).1, hvw]
    exact (keyed_of_map_eq Prod.fst (fun _ => rfl) hversions hi.versions_keyed).inj hvm hwm hid
  · obtain ⟨v', hv', hvl⟩ := hv v hvm
    obtain ⟨-, ha, hcl, -⟩ := SnapshotVersion.life_eq_iff.mp hvl
    exact ha ▸ hi.closed_activated v' hv' (hcl ▸ hc)
  · obtain ⟨s', hs', hst⟩ := hs s hsm
    obtain ⟨v', hv', hvl⟩ := hv v hvm
    obtain ⟨⟨-, hsv, -⟩, -, hsa, hsc⟩ := ItemSnapshot.standing_eq_iff.mp hst
    obtain ⟨hvid, hva, hvc, -⟩ := SnapshotVersion.life_eq_iff.mp hvl
    obtain ⟨hdate, hvopen⟩ := hi.open_date s' hs' (hsc.trans hopen) v' hv'
      (hvid.trans (hid.trans hsv.symm))
    exact ⟨by rw [← hsa, ← hva, hdate], hvc ▸ hvopen⟩
  · obtain ⟨s', hs', hst⟩ := hs s hsm
    obtain ⟨v', hv', hvl⟩ := hv v hvm
    obtain ⟨⟨-, hsv, -⟩, -, -, hsc⟩ := ItemSnapshot.standing_eq_iff.mp hst
    obtain ⟨hvid, -⟩ := SnapshotVersion.life_eq_iff.mp hvl
    exact hsc ▸ hi.draft_open s' hs' v' hv' (hvid.trans (hid.trans hsv.symm))
      (isVersionDraft_congr hvl ▸ hd)
  · obtain ⟨v', hv', hvl⟩ := hv v hvm
    obtain ⟨r', hr', hrid, hrd⟩ := hr r hrm
    obtain ⟨s, hs, hsv, hsr⟩ := hi.draft_covers v' hv' (isVersionDraft_congr hvl ▸ hd) r' hr'
      (hrd.trans hlive) (hrid ▸ hne)
    obtain ⟨s', hs', hst⟩ := mem_of_map_eq hsnapshots.symm hs
    obtain ⟨⟨-, hsv', hsr'⟩, -⟩ := ItemSnapshot.standing_eq_iff.mp hst
    exact ⟨s', hs', hsv'.trans (hsv.trans (SnapshotVersion.life_eq_iff.mp hvl).1),
      hsr'.trans (hsr.trans hrid)⟩
  · obtain ⟨s', hs', hst⟩ := hs s hsm
    obtain ⟨v', hv', hvl⟩ := hv v hvm
    obtain ⟨r', hr', hrid', hrd⟩ := hr r hrm
    obtain ⟨⟨-, hsv, hsr⟩, -⟩ := ItemSnapshot.standing_eq_iff.mp hst
    obtain ⟨hvid, -⟩ := SnapshotVersion.life_eq_iff.mp hvl
    exact hrd ▸ hi.draft_live s' hs' v' hv' (hvid.trans (hid.trans hsv.symm))
      (isVersionDraft_congr hvl ▸ hd) r' hr' (hrid'.trans (hrid.trans hsr.symm))
  · obtain ⟨v', hv', hvl⟩ := hv v hvm
    obtain ⟨hvid, -, -, hcount⟩ := SnapshotVersion.life_eq_iff.mp hvl
    rw [← hcount, hi.count_eq v' hv', hvid, countSnapshots_congr hsnapshots]
  · obtain ⟨s', hs', hst⟩ := hs s hsm
    exact (hi.checks s' hs').congr hst

end Congr

section Frames

variable {leaving : Option ClientId} {db db' : Db}

theorem Frame.standing (h : Frame db db') : StandingFrame db db' where
  rows := by
    have hmap : ∀ l : List StockReportItem, l.map StockReportItem.life =
        (l.map StockReportItem.withoutCounters).map StockReportItem.life := fun l => by
      rw [List.map_map]
      rfl
    rw [hmap db'.rows, h.rows, ← hmap]
  versions := by rw [h.versions]
  snapshots := by
    have hmap : ∀ l : List ItemSnapshot, l.map ItemSnapshot.standing =
        (l.map ItemSnapshot.withoutAmounts).map ItemSnapshot.standing := fun l => by
      rw [List.map_map]
      exact List.map_congr_left fun s _ => by
        simp [ItemSnapshot.standing, ItemSnapshot.withoutAmounts]
    rw [hmap db'.snapshots, h.snapshots, ← hmap]

theorem StandingFrame.updateSnapshots {p : ItemSnapshot → Bool} {f : ItemSnapshot → ItemSnapshot}
    (hf : ∀ s ∈ db.snapshots, p s → (f s).standing = s.standing) :
    StandingFrame db { db with snapshots := updateWhere p f db.snapshots } :=
  ⟨rfl, rfl, map_updateWhere_of_fixed hf⟩

theorem StandingFrame.mapSnapshots {f : ItemSnapshot → ItemSnapshot}
    (hf : ∀ s ∈ db.snapshots, (f s).standing = s.standing) :
    StandingFrame db { db with snapshots := db.snapshots.map f } :=
  ⟨rfl, rfl, by rw [List.map_map]; exact List.map_congr_left hf⟩

theorem setPlace_standing (snapshotId : ClientId) (priority : Option StockReportPriority)
    (priorityOrder : Option ℤ) : StandingFrame db (setPlace db snapshotId priority priorityOrder) :=
  StandingFrame.updateSnapshots fun _ _ _ => rfl

theorem shift_standing (versionId : ClientId) (priority : StockReportPriority) (low : ℤ)
    (high : Option ℤ) (delta : ℤ) :
    StandingFrame db (shift db versionId priority low high delta) := by
  unfold shift
  split
  · exact StandingFrame.refl db
  · exact StandingFrame.updateSnapshots fun _ _ _ => rfl

theorem leaveGroup_standing (s : ItemSnapshot) : StandingFrame db (leaveGroup db s) := by
  unfold leaveGroup closePriorityGap
  split
  · split
    · exact StandingFrame.refl db
    · exact shift_standing _ _ _ _ _
  · exact StandingFrame.refl db

theorem shiftWithinGroup_standing (versionId : ClientId) (priority : StockReportPriority)
    (fromOrder toOrder : ℤ) :
    StandingFrame db (shiftWithinGroup db versionId priority fromOrder toOrder) := by
  unfold shiftWithinGroup
  split_ifs
  · exact StandingFrame.refl db
  · exact shift_standing _ _ _ _ _
  · exact shift_standing _ _ _ _ _

theorem writePlaces_standing (versionId : ClientId)
    (changed : List (ClientId × Option StockReportPriority × Option ℤ)) :
    StandingFrame db (writePlaces db versionId changed) := by
  refine StandingFrame.mapSnapshots fun s _ => ?_
  split
  · split <;> rfl
  · rfl

theorem clampMissing_standing (p : ItemSnapshot → Bool) : StandingFrame db (clampMissing db p) :=
  (clampMissing_frame p).standing

end Frames

end BeyoManager.StockReport
