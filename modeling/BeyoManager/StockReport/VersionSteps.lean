import BeyoManager.StockReport.VersionStates
import Mathlib.Logic.Relation

/-! # The steps of versions

A command on versions, places and typed quantities is a sequence of elementary steps.
Rows, versions and snapshots enter; the active version closes and a draft goes live;
requested quantities are read again; a manager types a quantity; a snapshot changes
its place; a draft is thrown away.
-/

namespace BeyoManager.StockReport

open Relational Transition Sorting

section Entering

def SnapshotVersion.dates (v : SnapshotVersion) :
    ClientId × Option Timestamp × Option Timestamp := (v.clientId, v.activeAt, v.closedAt)

structure ItemSnapshot.Fresh (v : SnapshotVersion) (r : StockReportItem) (s : ItemSnapshot) :
    Prop where
  version : s.versionId = v.clientId
  row : s.stockReportItemId = r.clientId
  date : s.activeAt = v.activeAt
  opened : s.closedAt = none
  place : s.priority = none ∧ s.priorityOrder = none
  missing : ∀ q ∈ s.quantityMissing, q = 0
  checks : s.Checks

/-- Rows, versions and snapshots enter the tables. -/
structure Enter (created : List StockReportItem) (opened : List SnapshotVersion)
    (new : List ItemSnapshot) (db db' : Db) : Prop where
  rows : db'.rows = db.rows ++ created
  versions : db'.versions.map SnapshotVersion.dates =
    (db.versions ++ opened).map SnapshotVersion.dates
  snapshots : db'.snapshots = db.snapshots ++ new
  rows_keyed : Keyed StockReportItem.clientId db'.rows
  versions_keyed : Keyed SnapshotVersion.clientId db'.versions
  snapshots_keyed : Keyed ItemSnapshot.clientId db'.snapshots
  pairs_keyed : Keyed ItemSnapshot.pair db'.snapshots
  opened_open : ∀ v ∈ opened, v.closedAt = none
  opened_active : ∀ v ∈ opened, isVersionActive v →
    ∀ w ∈ db.versions ++ opened, isVersionActive w → w = v
  fresh : ∀ s ∈ new, ∃ v ∈ db.versions ++ opened, v.closedAt = none ∧
    ∃ r ∈ db'.rows, r.isDeleted = false ∧ s.Fresh v r
  covers : ∀ v ∈ db.versions ++ opened, isVersionDraft v → ∀ r ∈ db'.rows, r.isDeleted = false →
    v ∈ opened ∨ r ∈ created →
      ∃ s ∈ new, s.versionId = v.clientId ∧ s.stockReportItemId = r.clientId
  count_eq : ∀ v ∈ db'.versions, v.snapshotCount = countSnapshots db' v.clientId

end Entering

section Changes

variable {leaving : Option ClientId} {db db' : Db}

theorem mem_liveRows {r : StockReportItem} :
    r ∈ liveRows db ↔ r ∈ db.rows ∧ r.isDeleted = false := by
  simp [liveRows]

theorem liveRows_keyed (hk : Keyed StockReportItem.clientId db.rows) :
    Keyed StockReportItem.clientId (liveRows db) :=
  (keyed_filter hk _).perm (sortBy_perm _ _)

theorem countSnapshots_map {f : ItemSnapshot → ItemSnapshot}
    (hf : ∀ s ∈ db.snapshots, (f s).versionId = s.versionId)
    (hs : db'.snapshots = db.snapshots.map f) (versionId : ClientId) :
    countSnapshots db' versionId = countSnapshots db versionId := by
  rw [countSnapshots, countSnapshots, hs, List.countP_map]
  congr 1
  exact List.countP_congr fun s hs => by simp [hf s hs]

/-- Rewriting versions and snapshots that keep their keys. -/
theorem VersionInv.rewrite (hi : VersionInv leaving db) {f : ItemSnapshot → ItemSnapshot}
    {g : SnapshotVersion → SnapshotVersion} (hrows : db'.rows = db.rows)
    (hversions : db'.versions = db.versions.map g) (hsnapshots : db'.snapshots = db.snapshots.map f)
    (hg : ∀ v ∈ db.versions, (g v).clientId = v.clientId)
    (hf : ∀ s ∈ db.snapshots, (f s).clientId = s.clientId ∧ (f s).pair = s.pair)
    (hdraft : ∀ v ∈ db.versions, isVersionDraft (g v) → isVersionDraft v)
    (hactive : ∀ v ∈ db.versions, ∀ w ∈ db.versions, isVersionActive (g v) →
      isVersionActive (g w) → v = w)
    (hclosed : ∀ v ∈ db.versions, (g v).closedAt.isSome → (g v).activeAt.isSome)
    (hdate : ∀ s ∈ db.snapshots, ∀ v ∈ db.versions, v.clientId = s.versionId →
      (f s).closedAt = none → (f s).activeAt = (g v).activeAt ∧ (g v).closedAt = none)
    (hopen : ∀ s ∈ db.snapshots, ∀ v ∈ db.versions, v.clientId = s.versionId →
      isVersionDraft (g v) → (f s).closedAt = none)
    (hcount : ∀ v ∈ db.versions, (g v).snapshotCount = countSnapshots db v.clientId)
    (hchecks : ∀ s ∈ db.snapshots, (f s).Checks) : VersionInv leaving db' := by
  have hversion : ∀ s ∈ db.snapshots, (f s).versionId = s.versionId := fun s hs =>
    congrArg Prod.fst (hf s hs).2
  have hrow : ∀ s ∈ db.snapshots, (f s).stockReportItemId = s.stockReportItemId := fun s hs =>
    congrArg Prod.snd (hf s hs).2
  have hcounts := countSnapshots_map hversion hsnapshots
  have hv : ∀ {v}, v ∈ db'.versions ↔ ∃ w ∈ db.versions, g w = v := by simp [hversions]
  have hs : ∀ {s}, s ∈ db'.snapshots ↔ ∃ t ∈ db.snapshots, f t = s := by simp [hsnapshots]
  refine ⟨hrows ▸ hi.rows_keyed, ?_, ?_, ?_, ?_, ?_, ?_, ?_, ?_, ?_, ?_, ?_, ?_, ?_⟩
  · exact hi.versions_keyed.of_map_eq (by
      rw [hversions, List.map_map]; exact List.map_congr_left hg)
  · exact hi.snapshots_keyed.of_map_eq (by
      rw [hsnapshots, List.map_map]; exact List.map_congr_left fun s hs => (hf s hs).1)
  · exact hi.pairs_keyed.of_map_eq (by
      rw [hsnapshots, List.map_map]; exact List.map_congr_left fun s hs => (hf s hs).2)
  · intro s hsm
    obtain ⟨t, ht, rfl⟩ := hs.mp hsm
    obtain ⟨v, hvm, hid⟩ := hi.version_of_snapshot t ht
    exact ⟨g v, hv.mpr ⟨v, hvm, rfl⟩, by rw [hg v hvm, hid, hversion t ht]⟩
  · intro s hsm
    obtain ⟨t, ht, rfl⟩ := hs.mp hsm
    rw [hrows, hrow t ht]
    exact hi.row_of_snapshot t ht
  · intro v' hvm' w' hwm' hva hwa
    obtain ⟨v, hvm, rfl⟩ := hv.mp hvm'
    obtain ⟨w, hwm, rfl⟩ := hv.mp hwm'
    rw [hactive v hvm w hwm hva hwa]
  · intro v' hvm' hc
    obtain ⟨v, hvm, rfl⟩ := hv.mp hvm'
    exact hclosed v hvm hc
  · intro s hsm hopen v' hvm' hid
    obtain ⟨t, ht, rfl⟩ := hs.mp hsm
    obtain ⟨v, hvm, rfl⟩ := hv.mp hvm'
    exact hdate t ht v hvm (by rw [← hg v hvm, hid, hversion t ht]) hopen
  · intro s hsm v' hvm' hid hd
    obtain ⟨t, ht, rfl⟩ := hs.mp hsm
    obtain ⟨v, hvm, rfl⟩ := hv.mp hvm'
    exact hopen t ht v hvm (by rw [← hg v hvm, hid, hversion t ht]) hd
  · intro v' hvm' hd r hr hlive hne
    obtain ⟨v, hvm, rfl⟩ := hv.mp hvm'
    obtain ⟨t, ht, htv, htr⟩ := hi.draft_covers v hvm (hdraft v hvm hd) r (hrows ▸ hr) hlive hne
    exact ⟨f t, hs.mpr ⟨t, ht, rfl⟩, by rw [hversion t ht, htv, hg v hvm], by rw [hrow t ht, htr]⟩
  · intro s hsm v' hvm' hid hd r hr hrid
    obtain ⟨t, ht, rfl⟩ := hs.mp hsm
    obtain ⟨v, hvm, rfl⟩ := hv.mp hvm'
    exact hi.draft_live t ht v hvm (by rw [← hg v hvm, hid, hversion t ht]) (hdraft v hvm hd) r
      (hrows ▸ hr) (by rw [hrid, hrow t ht])
  · intro v' hvm'
    obtain ⟨v, hvm, rfl⟩ := hv.mp hvm'
    rw [hcount v hvm, hg v hvm, hcounts]
  · intro s hsm
    obtain ⟨t, ht, rfl⟩ := hs.mp hsm
    exact hchecks t ht

/-- What enters agrees with itself and with what was there. -/
theorem VersionInv.enter (hi : VersionInv leaving db) {created : List StockReportItem}
    {opened : List SnapshotVersion} {new : List ItemSnapshot}
    (h : Enter created opened new db db') : VersionInv leaving db' := by
  have hv : ∀ v ∈ db'.versions, ∃ w ∈ db.versions ++ opened, w.clientId = v.clientId ∧
      w.activeAt = v.activeAt ∧ w.closedAt = v.closedAt := fun v hvm => by
    obtain ⟨w, hwm, he⟩ := mem_of_map_eq h.versions hvm
    exact ⟨w, hwm, by simpa [SnapshotVersion.dates] using he⟩
  have hs : ∀ {s}, s ∈ db'.snapshots ↔ s ∈ db.snapshots ∨ s ∈ new := by simp [h.snapshots]
  have hr : ∀ {r}, r ∈ db'.rows ↔ r ∈ db.rows ∨ r ∈ created := by simp [h.rows]
  have hkeyed : Keyed SnapshotVersion.clientId (db.versions ++ opened) :=
    keyed_of_map_eq Prod.fst (fun _ => rfl) h.versions.symm h.versions_keyed
  have hold : ∀ s ∈ db.snapshots, ∀ w ∈ db.versions ++ opened, w.clientId = s.versionId →
      w ∈ db.versions := fun s hsm w hwm hid => by
    obtain ⟨x, hxm, hxid⟩ := hi.version_of_snapshot s hsm
    exact hkeyed.inj (List.mem_append_left _ hxm) hwm (hxid.trans hid.symm) ▸ hxm
  refine ⟨h.rows_keyed, h.versions_keyed, h.snapshots_keyed, h.pairs_keyed, ?_, ?_, ?_, ?_, ?_,
    ?_, ?_, ?_, h.count_eq, ?_⟩
  · intro s hsm
    obtain ⟨v, hvm, hid⟩ : ∃ v ∈ db.versions ++ opened, v.clientId = s.versionId := by
      rcases hs.mp hsm with hsm | hsm
      · obtain ⟨v, hvm, hid⟩ := hi.version_of_snapshot s hsm
        exact ⟨v, List.mem_append_left _ hvm, hid⟩
      · obtain ⟨v, hvm, -, r, -, -, hfresh⟩ := h.fresh s hsm
        exact ⟨v, hvm, hfresh.version.symm⟩
    obtain ⟨w, hwm, he⟩ := mem_of_map_eq h.versions.symm hvm
    exact ⟨w, hwm, (congrArg Prod.fst he).trans hid⟩
  · intro s hsm
    rcases hs.mp hsm with hsm | hsm
    · obtain ⟨r, hrm, hid⟩ := hi.row_of_snapshot s hsm
      exact ⟨r, hr.mpr (.inl hrm), hid⟩
    · obtain ⟨v, -, -, r, hrm, -, hfresh⟩ := h.fresh s hsm
      exact ⟨r, hrm, hfresh.row.symm⟩
  · intro v hvm w hwm hva hwa
    obtain ⟨v₀, hv₀, hvid, hvact, hvcl⟩ := hv v hvm
    obtain ⟨w₀, hw₀, hwid, hwact, hwcl⟩ := hv w hwm
    have hva₀ : isVersionActive v₀ := by simpa only [isVersionActive, hvact, hvcl] using hva
    have hwa₀ : isVersionActive w₀ := by simpa only [isVersionActive, hwact, hwcl] using hwa
    have heq : v₀ = w₀ := by
      rcases List.mem_append.mp hw₀ with hw₁ | hw₁
      · rcases List.mem_append.mp hv₀ with hv₁ | hv₁
        · exact hi.one_active v₀ hv₁ w₀ hw₁ hva₀ hwa₀
        · exact (h.opened_active v₀ hv₁ hva₀ w₀ hw₀ hwa₀).symm
      · exact h.opened_active w₀ hw₁ hwa₀ v₀ hv₀ hva₀
    exact h.versions_keyed.inj hvm hwm (hvid ▸ hwid ▸ heq ▸ rfl)
  · intro v hvm hc
    obtain ⟨v₀, hv₀, -, hvact, hvcl⟩ := hv v hvm
    rw [← hvact]
    rw [← hvcl] at hc
    rcases List.mem_append.mp hv₀ with hv₁ | hv₁
    · exact hi.closed_activated v₀ hv₁ hc
    · simp [h.opened_open v₀ hv₁] at hc
  · intro s hsm hso v hvm hid
    obtain ⟨v₀, hv₀, hvid, hvact, hvcl⟩ := hv v hvm
    rw [← hvact, ← hvcl]
    rcases hs.mp hsm with hsm | hsm
    · exact hi.open_date s hsm hso v₀ (hold s hsm v₀ hv₀ (hvid.trans hid)) (hvid.trans hid)
    · obtain ⟨w, hwm, hwo, r, -, -, hfresh⟩ := h.fresh s hsm
      obtain rfl := hkeyed.inj hwm hv₀ (hfresh.version.symm.trans (hid.symm.trans hvid.symm))
      exact ⟨hfresh.date, hwo⟩
  · intro s hsm v hvm hid hd
    obtain ⟨v₀, hv₀, hvid, hvact, hvcl⟩ := hv v hvm
    rcases hs.mp hsm with hsm | hsm
    · exact hi.draft_open s hsm v₀ (hold s hsm v₀ hv₀ (hvid.trans hid)) (hvid.trans hid)
        (by simpa only [isVersionDraft, hvact, hvcl] using hd)
    · obtain ⟨w, -, -, r, -, -, hfresh⟩ := h.fresh s hsm
      exact hfresh.opened
  · intro v hvm hd r hrm hlive hne
    obtain ⟨v₀, hv₀, hvid, hvact, hvcl⟩ := hv v hvm
    have hd₀ : isVersionDraft v₀ := by simpa only [isVersionDraft, hvact, hvcl] using hd
    rw [← hvid]
    by_cases hnew : v₀ ∈ opened ∨ r ∈ created
    · obtain ⟨s, hsm, he⟩ := h.covers v₀ hv₀ hd₀ r hrm hlive hnew
      exact ⟨s, hs.mpr (.inr hsm), he⟩
    · rw [not_or] at hnew
      obtain ⟨s, hsm, he⟩ := hi.draft_covers v₀ ((List.mem_append.mp hv₀).resolve_right hnew.1) hd₀
        r ((hr.mp hrm).resolve_right hnew.2) hlive hne
      exact ⟨s, hs.mpr (.inl hsm), he⟩
  · intro s hsm v hvm hid hd r hrm hrid
    obtain ⟨v₀, hv₀, hvid, hvact, hvcl⟩ := hv v hvm
    rcases hs.mp hsm with hsm | hsm
    · obtain ⟨q, hqm, hqid⟩ := hi.row_of_snapshot s hsm
      obtain rfl := h.rows_keyed.inj (hr.mpr (.inl hqm)) hrm (hqid.trans hrid.symm)
      exact hi.draft_live s hsm v₀ (hold s hsm v₀ hv₀ (hvid.trans hid)) (hvid.trans hid)
        (by simpa only [isVersionDraft, hvact, hvcl] using hd) q hqm hrid
    · obtain ⟨w, -, -, q, hqm, hqlive, hfresh⟩ := h.fresh s hsm
      rw [← h.rows_keyed.inj hqm hrm (hfresh.row.symm.trans hrid.symm)]
      exact hqlive
  · intro s hsm
    rcases hs.mp hsm with hsm | hsm
    · exact hi.checks s hsm
    · obtain ⟨w, -, -, r, -, -, hfresh⟩ := h.fresh s hsm
      exact hfresh.checks

end Changes

section Steps

/-- A snapshot without its requested quantities; whether the Scanner's one is set stays. -/
def ItemSnapshot.withoutRequested (s : ItemSnapshot) : ItemSnapshot :=
  { s with
    quantityRequestedScanner := s.quantityRequestedScanner.map fun _ => 0
    quantityRequestedManual := none }

def ItemSnapshot.withoutTyped (s : ItemSnapshot) : ItemSnapshot :=
  { s with quantityRequestedManual := none, quantityMissing := none }

/-- The requested quantities of some snapshots are written anew. -/
structure Retyped (p : ItemSnapshot → Bool) (f : ItemSnapshot → ItemSnapshot) (db db' : Db) :
    Prop where
  rows : db'.rows = db.rows
  versions : db'.versions = db.versions
  snapshots : db'.snapshots = db.snapshots.map f
  rest : ∀ s ∈ db.snapshots, p s = false → f s = s
  requested : ∀ s ∈ db.snapshots, (f s).withoutRequested = s.withoutRequested

structure Typed (db : Db) (s s' : ItemSnapshot) : Prop where
  rest : s'.withoutTyped = s.withoutTyped
  missing_set : s.activeAt.isSome → s'.quantityMissing.isSome
  active : isSnapshotActive s → s'.quantityRequestedManual = s.quantityRequestedManual ∧
    ∀ q ∈ s'.quantityMissing, 0 ≤ q ∧
      ∀ r ∈ db.rows, r.clientId = s.stockReportItemId → q ≤ missingCeiling s r

def openSnapshotsIn (db : Db) (versionId : ClientId) : List ItemSnapshot :=
  sortBy ItemSnapshot.clientId <| db.snapshots.filter fun s =>
    s.versionId == versionId && isSnapshotOpen s

/-- One elementary step of a command on versions, places and typed quantities. -/
inductive VersionStep : Db → Db → Prop
  | aside {db db' : Db} (hrows : db'.rows = db.rows)
      (hversions : db'.versions.map SnapshotVersion.life = db.versions.map SnapshotVersion.life)
      (hsnapshots : db'.snapshots = db.snapshots) : VersionStep db db'
  | enter {db db' : Db} {created : List StockReportItem} {opened : List SnapshotVersion}
      {new : List ItemSnapshot} (henter : Enter created opened new db db') : VersionStep db db'
  | close {db : Db} (now : Timestamp) : VersionStep db (closeActiveVersion db now).1
  | goLive {db : Db} {v : SnapshotVersion} (hv : v ∈ db.versions) (hdraft : isVersionDraft v)
      (hnone : ∀ w ∈ db.versions, ¬ isVersionActive w) (previousId : Option ClientId)
      (keep : Bool) (now : Timestamp) :
      VersionStep db (clampVersionMissingQuantities
        (markActive (activateSnapshots db v.clientId previousId keep now) v.clientId now)
        v.clientId)
  | retype {db mid mid' : Db} {f : ItemSnapshot → ItemSnapshot} {p : ItemSnapshot → Bool}
      (hp : ∀ s t : ItemSnapshot, s.pair = t.pair → p s = p t) (hretyped : Retyped p f db mid)
      (henter : mid' = mid ∨ ∃ new, Enter [] [] new mid mid') :
      VersionStep db (clampMissing mid' p)
  | typed {db : Db} {snapshotId : ClientId} {f : ItemSnapshot → ItemSnapshot}
      (htyped : ∀ s ∈ db.snapshots, s.clientId = snapshotId → Typed db s (f s)) :
      VersionStep db { db with
        snapshots := updateWhere (fun s => s.clientId == snapshotId) f db.snapshots }
  | setPriority {db : Db} {s : ItemSnapshot} {p : Option StockReportPriority}
      (hs : s ∈ db.snapshots) (hopen : isSnapshotOpen s) (hne : s.priority ≠ p) :
      VersionStep db (setPlace (leaveGroup db s) s.clientId p
        (p.map fun q => appendToPriorityGroup (leaveGroup db s) s.versionId q))
  | setOrder {db : Db} {s : ItemSnapshot} {p : StockReportPriority} {position target : ℤ}
      (hs : s ∈ db.snapshots) (hopen : isSnapshotOpen s) (hp : s.priority = some p)
      (hposition : s.priorityOrder = some position) (hne : target ≠ position)
      (hlow : 1 ≤ target) (hhigh : target ≤ db.snapshots.countP (inGroup s.versionId p)) :
      VersionStep db (setPlace (shiftWithinGroup db s.versionId p position target) s.clientId
        (some p) (some target))
  | merge {db : Db} (versionId : ClientId) (source : List ItemSnapshot) :
      VersionStep db (writePlaces db versionId
        (mergePriorityOrders (openSnapshotsIn db versionId) source))
  | discard {db : Db} {v : SnapshotVersion} (hv : v ∈ db.versions) (hdraft : isVersionDraft v) :
      VersionStep db { db with
        snapshots := deleteWhere (fun s => s.versionId == v.clientId) db.snapshots
        versions := deleteWhere (fun w => w.clientId == v.clientId) db.versions }
  | demand {db : Db} (changes : List (StockReportItem × ℤ)) :
    VersionStep db (writeDemand db changes)

end Steps

section Preservation

variable {leaving : Option ClientId} {db db' : Db}

theorem isVersionActive_iff {v : SnapshotVersion} :
    isVersionActive v ↔ v.activeAt.isSome ∧ v.closedAt = none := by
  simp [isVersionActive]

theorem isVersionDraft_iff {v : SnapshotVersion} :
    isVersionDraft v ↔ v.activeAt = none ∧ v.closedAt = none := by
  simp [isVersionDraft]

theorem isSnapshotActive_iff {s : ItemSnapshot} :
    isSnapshotActive s ↔ s.activeAt.isSome ∧ s.closedAt = none := by
  simp [isSnapshotActive]

theorem isSnapshotOpen_iff {s : ItemSnapshot} : isSnapshotOpen s ↔ s.closedAt = none := by
  simp [isSnapshotOpen]

theorem VersionInv.row? (hi : VersionInv leaving db) {s : ItemSnapshot} (hs : s ∈ db.snapshots) :
    ∃ r ∈ db.rows, r.clientId = s.stockReportItemId ∧ db.row? s.stockReportItemId = some r := by
  obtain ⟨r, hr, hid⟩ := hi.row_of_snapshot s hs
  exact ⟨r, hr, hid, hid ▸ hi.rows_keyed.find?_eq hr⟩

/-- A snapshot that closes keeps the counters of its row. -/
def frozen (db : Db) (now : Timestamp) (s : ItemSnapshot) : ItemSnapshot :=
  if isSnapshotActive s then
    { s with
      closedAt := some now
      counters := ((db.row? s.stockReportItemId).map StockReportItem.counters).getD s.counters }
  else s

theorem freezeActiveSnapshots_eq (hi : VersionInv leaving db) (now : Timestamp) :
    (freezeActiveSnapshots db now).snapshots = db.snapshots.map (frozen db now) := by
  refine List.map_congr_left fun s hs => ?_
  obtain ⟨r, -, -, hr⟩ := hi.row? hs
  simp only [hr, frozen]
  rfl

theorem closeActiveVersion_cases (hi : VersionInv leaving db) (now : Timestamp) :
    (closeActiveVersion db now = (db, none) ∧ ∀ v ∈ db.versions, ¬ isVersionActive v) ∨
      ∃ v ∈ db.versions, isVersionActive v ∧
        (closeActiveVersion db now).2 = some v ∧
        (closeActiveVersion db now).1.rows = db.rows ∧
        (closeActiveVersion db now).1.versions = updateWhere (fun w => w.clientId == v.clientId)
          (fun w => { w with closedAt := some now }) db.versions ∧
        (closeActiveVersion db now).1.snapshots = db.snapshots.map (frozen db now) := by
  unfold closeActiveVersion
  cases h : db.versions.find? isVersionActive with
  | none => exact .inl ⟨rfl, fun v hv => by simpa using List.find?_eq_none.mp h v hv⟩
  | some v =>
    refine .inr ⟨v, List.mem_of_find?_eq_some h, by
      simpa using List.find?_some h, rfl, rfl, rfl, ?_⟩
    exact freezeActiveSnapshots_eq hi now

theorem frozen_closed {now : Timestamp} {s : ItemSnapshot} (h : (frozen db now s).closedAt = none) :
    frozen db now s = s ∧ ¬ isSnapshotActive s := by
  unfold frozen at h ⊢
  split_ifs at h ⊢ with hs
  exact ⟨rfl, hs⟩

theorem frozen_checks {now : Timestamp} {s : ItemSnapshot} (h : s.Checks) :
    (frozen db now s).Checks := by
  unfold frozen
  split_ifs with hs
  · exact ⟨h.scanner_iff, h.missing_set, fun _ => (isSnapshotActive_iff.mp hs).1⟩
  · exact h

theorem closeActiveVersion_none (hi : VersionInv leaving db) (now : Timestamp) :
    ∀ v ∈ (closeActiveVersion db now).1.versions, ¬ isVersionActive v := by
  rcases closeActiveVersion_cases hi now with ⟨heq, hnone⟩ | ⟨v, hv, hact, -, -, hversions, -⟩
  · rwa [heq]
  · intro w hw hwact
    obtain ⟨x, hx, rfl⟩ := mem_updateWhere.mp (hversions ▸ hw)
    split_ifs at hwact with hxv
    · simp [isVersionActive] at hwact
    · exact hxv (by simpa using congrArg _ (hi.one_active x hx v hv hwact hact))

theorem VersionInv.close (hi : VersionInv leaving db) (now : Timestamp) :
    VersionInv leaving (closeActiveVersion db now).1 := by
  rcases closeActiveVersion_cases hi now with ⟨heq, -⟩ | ⟨v, hv, hact, -, hrows, hversions, hsnaps⟩
  · rwa [heq]
  · have hg : ∀ w ∈ db.versions, w.clientId == v.clientId ↔ w = v := fun w hw => by
      rw [beq_iff_eq]
      exact ⟨hi.versions_keyed.inj hw hv, congrArg _⟩
    have hopen : ∀ s ∈ db.snapshots, ∀ w ∈ db.versions, w.clientId = s.versionId →
        w = v → s.closedAt = none → isSnapshotActive s := by
      rintro s hs w hw hid rfl hopen
      rw [isSnapshotActive_iff, (hi.open_date s hs hopen w hw hid).1]
      exact ⟨(isVersionActive_iff.mp hact).1, hopen⟩
    refine hi.rewrite hrows hversions hsnaps (fun w _ => by split <;> rfl) (fun s _ => ?_)
      (fun w hw hd => ?_) (fun w hw x hx hwact hxact => ?_) (fun w hw hc => ?_)
      (fun s hs w hw hid hfs => ?_) (fun s hs w hw hid hd => ?_) (fun w hw => ?_)
      (fun s hs => frozen_checks (hi.checks s hs))
    · unfold frozen
      split <;> exact ⟨rfl, rfl⟩
    · split_ifs at hd
      · simp [isVersionDraft] at hd
      · exact hd
    · split_ifs at hwact with hwv
      · simp [isVersionActive] at hwact
      · exact absurd ((hg w hw).mpr (hi.one_active w hw v hv hwact hact)) hwv
    · split_ifs at hc ⊢ with hwv
      · rw [(hg w hw).mp hwv]
        exact (isVersionActive_iff.mp hact).1
      · exact hi.closed_activated w hw hc
    · obtain ⟨heq, hna⟩ := frozen_closed hfs
      rw [heq] at hfs ⊢
      obtain ⟨hdate, hwo⟩ := hi.open_date s hs hfs w hw hid
      have hwv : ¬ (w.clientId == v.clientId) = true := fun hwv =>
        hna (hopen s hs w hw hid ((hg w hw).mp hwv) hfs)
      rw [if_neg hwv]
      exact ⟨hdate, hwo⟩
    · split_ifs at hd
      · simp [isVersionDraft] at hd
      · have hso := hi.draft_open s hs w hw hid hd
        have hna : ¬ isSnapshotActive s := by
          rw [isSnapshotActive_iff, (hi.open_date s hs hso w hw hid).1,
            (isVersionDraft_iff.mp hd).1]
          simp
        rw [frozen, if_neg hna]
        exact hso
    · split_ifs <;> exact hi.count_eq w hw

def activated (db : Db) (versionId : ClientId) (previousId : Option ClientId) (keep : Bool)
    (now : Timestamp) (s : ItemSnapshot) : ItemSnapshot :=
  if s.versionId = versionId then
    { s with
      quantityRequestedScanner := (db.row? s.stockReportItemId).map
        StockReportItem.quantityRequested
      quantityMissing := some (activatedMissing db previousId keep s)
      activeAt := some now
      counters := ((db.row? s.stockReportItemId).map StockReportItem.counters).getD s.counters }
  else s

theorem activateSnapshots_eq (hi : VersionInv leaving db) (versionId : ClientId)
    (previousId : Option ClientId) (keep : Bool) (now : Timestamp) :
    (activateSnapshots db versionId previousId keep now).snapshots =
      db.snapshots.map (activated db versionId previousId keep now) := by
  refine List.map_congr_left fun s hs => ?_
  obtain ⟨r, -, -, hr⟩ := hi.row? hs
  simp only [hr, activated]
  rfl

theorem VersionInv.goLive (hi : VersionInv leaving db) {v : SnapshotVersion}
    (hv : v ∈ db.versions) (hdraft : isVersionDraft v)
    (hnone : ∀ w ∈ db.versions, ¬ isVersionActive w) (previousId : Option ClientId)
    (keep : Bool) (now : Timestamp) : VersionInv leaving
      (markActive (activateSnapshots db v.clientId previousId keep now) v.clientId now) := by
  have hg : ∀ w ∈ db.versions, w.clientId == v.clientId ↔ w = v := fun w hw => by
    rw [beq_iff_eq]
    exact ⟨hi.versions_keyed.inj hw hv, congrArg _⟩
  have hsnaps := activateSnapshots_eq hi v.clientId previousId keep now
  have hpair : ∀ s, (activated db v.clientId previousId keep now s).versionId = s.versionId :=
    fun s => by unfold activated; split <;> rfl
  have hcount : ∀ versionId, countSnapshots (activateSnapshots db v.clientId previousId keep now)
      versionId = countSnapshots db versionId :=
    countSnapshots_map (fun s _ => hpair s) hsnaps
  refine hi.rewrite rfl rfl hsnaps (fun w _ => by split <;> rfl) (fun s _ => ?_)
    (fun w hw hd => ?_) (fun w hw x hx hwact hxact => ?_) (fun w hw hc => ?_)
    (fun s hs w hw hid hso => ?_) (fun s hs w hw hid hd => ?_) (fun w hw => ?_) (fun s hs => ?_)
  · unfold activated
    split <;> exact ⟨rfl, rfl⟩
  · split_ifs at hd
    · simp [isVersionDraft] at hd
    · exact hd
  · split_ifs at hwact hxact with hwv hxv hxv
    · rw [(hg w hw).mp hwv, (hg x hx).mp hxv]
    · exact absurd hxact (hnone x hx)
    · exact absurd hwact (hnone w hw)
    · exact absurd hwact (hnone w hw)
  · split_ifs at hc ⊢
    · rfl
    · exact hi.closed_activated w hw hc
  · have hwv : w.clientId == v.clientId ↔ s.versionId = v.clientId := by rw [hid, beq_iff_eq]
    unfold activated at hso ⊢
    split_ifs at hso ⊢ with hsv hw' hw'
    · obtain rfl := (hg w hw).mp hw'
      exact ⟨rfl, (isVersionDraft_iff.mp hdraft).2⟩
    · exact absurd (hwv.mpr hsv) hw'
    · exact absurd (hwv.mp hw') hsv
    · exact hi.open_date s hs hso w hw hid
  · split_ifs at hd with hwv
    · simp [isVersionDraft] at hd
    · rw [activated, if_neg fun hsv => hwv (by rw [beq_iff_eq, hid, hsv])]
      exact hi.draft_open s hs w hw hid hd
  · split_ifs with hwv
    · rw [(hg w hw).mp hwv]
      exact hcount v.clientId
    · exact hi.count_eq w hw
  · obtain ⟨r, -, -, hr⟩ := hi.row? hs
    unfold activated
    split_ifs with hsv
    · exact ⟨by simp [hr], fun _ => rfl, fun _ => rfl⟩
    · exact hi.checks s hs

theorem ItemSnapshot.withoutRequested_standing {s t : ItemSnapshot}
    (h : s.withoutRequested = t.withoutRequested) : s.standing = t.standing := by
  simp only [ItemSnapshot.withoutRequested, ItemSnapshot.mk.injEq] at h
  obtain ⟨h1, h2, h3, h4, -, -, h5, -, -, -, h6, h7⟩ := h
  have hsome := congrArg Option.isSome h4
  simp only [Option.isSome_map] at hsome
  simp only [ItemSnapshot.standing, h1, h2, h3, hsome, h5, h6, h7]

theorem Retyped.standing {p : ItemSnapshot → Bool} {f : ItemSnapshot → ItemSnapshot}
    (h : Retyped p f db db') : StandingFrame db db' := by
  refine ⟨by rw [h.rows], by rw [h.versions], ?_⟩
  rw [h.snapshots, List.map_map]
  exact List.map_congr_left fun s hs => ItemSnapshot.withoutRequested_standing (h.requested s hs)

theorem VersionInv.typed (hi : VersionInv leaving db) {snapshotId : ClientId}
    {f : ItemSnapshot → ItemSnapshot}
    (htyped : ∀ s ∈ db.snapshots, s.clientId = snapshotId → Typed db s (f s)) :
    VersionInv leaving { db with
      snapshots := updateWhere (fun s => s.clientId == snapshotId) f db.snapshots } := by
  have hf : ∀ s ∈ db.snapshots, ∀ s', s' = (if s.clientId == snapshotId then f s else s) →
      s'.withoutTyped = s.withoutTyped ∧ s'.Checks := by
    rintro s hs s' rfl
    have hchecks := hi.checks s hs
    split_ifs with hid
    · have ht := htyped s hs (by simpa using hid)
      have hrest := ht.rest
      simp only [ItemSnapshot.withoutTyped, ItemSnapshot.mk.injEq] at hrest
      obtain ⟨-, -, -, hscanner, -, -, -, -, -, -, hdate, hclosed⟩ := hrest
      exact ⟨ht.rest, by rw [hscanner, hdate]; exact hchecks.scanner_iff,
        by rw [hdate]; exact ht.missing_set, by rw [hclosed, hdate]; exact hchecks.closed_activated⟩
    · exact ⟨rfl, hchecks⟩
  refine hi.rewrite rfl (List.map_id _).symm rfl (fun _ _ => rfl) (fun s hs => ?_)
    (fun _ _ hd => hd) hi.one_active hi.closed_activated (fun s hs v hv hid hso => ?_)
    (fun s hs v hv hid hd => ?_) hi.count_eq (fun s hs => (hf s hs _ rfl).2)
  all_goals
    have hrest := (hf s hs _ rfl).1
    simp only [ItemSnapshot.withoutTyped, ItemSnapshot.mk.injEq] at hrest
    obtain ⟨h1, h2, h3, -, -, -, -, -, -, -, hdate, hclosed⟩ := hrest
  · exact ⟨h1, by rw [ItemSnapshot.pair, ItemSnapshot.pair, h2, h3]⟩
  · rw [hclosed] at hso
    rw [hdate]
    exact hi.open_date s hs hso v hv hid
  · rw [hclosed]
    exact hi.draft_open s hs v hv hid hd

theorem VersionInv.discard (hi : VersionInv leaving db) {v : SnapshotVersion} :
    VersionInv leaving { db with
      snapshots := deleteWhere (fun s => s.versionId == v.clientId) db.snapshots
      versions := deleteWhere (fun w => w.clientId == v.clientId) db.versions } := by
  have hs : ∀ {s}, s ∈ deleteWhere (fun s => s.versionId == v.clientId) db.snapshots ↔
      s ∈ db.snapshots ∧ s.versionId ≠ v.clientId := by simp [mem_deleteWhere]
  have hv : ∀ {w}, w ∈ deleteWhere (fun w => w.clientId == v.clientId) db.versions ↔
      w ∈ db.versions ∧ w.clientId ≠ v.clientId := by simp [mem_deleteWhere]
  refine ⟨hi.rows_keyed, keyed_delete hi.versions_keyed _, keyed_delete hi.snapshots_keyed _,
    keyed_delete hi.pairs_keyed _, fun s hsm => ?_, fun s hsm => hi.row_of_snapshot s (hs.mp hsm).1,
    fun w hw x hx => hi.one_active w (hv.mp hw).1 x (hv.mp hx).1,
    fun w hw => hi.closed_activated w (hv.mp hw).1,
    fun s hsm hso w hw => hi.open_date s (hs.mp hsm).1 hso w (hv.mp hw).1,
    fun s hsm w hw => hi.draft_open s (hs.mp hsm).1 w (hv.mp hw).1,
    fun w hw hd r hr hlive hne => ?_,
    fun s hsm w hw => hi.draft_live s (hs.mp hsm).1 w (hv.mp hw).1,
    fun w hw => ?_, fun s hsm => hi.checks s (hs.mp hsm).1⟩
  · obtain ⟨w, hw, hid⟩ := hi.version_of_snapshot s (hs.mp hsm).1
    exact ⟨w, hv.mpr ⟨hw, hid ▸ (hs.mp hsm).2⟩, hid⟩
  · obtain ⟨s, hsm, hsv, hsr⟩ := hi.draft_covers w (hv.mp hw).1 hd r hr hlive hne
    exact ⟨s, hs.mpr ⟨hsm, hsv ▸ (hv.mp hw).2⟩, hsv, hsr⟩
  · rw [hi.count_eq w (hv.mp hw).1]
    simp only [countSnapshots, deleteWhere, List.countP_filter]
    congr 1
    refine List.countP_congr fun s _ => ?_
    simp only [beq_iff_eq, Bool.and_eq_true, Bool.not_eq_true', beq_eq_false_iff_ne, ne_eq]
    exact ⟨fun h => ⟨h, h ▸ (hv.mp hw).2⟩, fun h => h.1⟩

theorem writeDemand_standing (changes : List (StockReportItem × ℤ)) :
    StandingFrame db (writeDemand db changes) := by
  refine ⟨?_, rfl, rfl⟩
  rw [writeDemand, List.map_map]
  refine List.map_congr_left fun r _ => ?_
  simp only [Function.comp_apply]
  split <;> rfl

/-- Every step keeps versions and snapshots in agreement. -/
theorem VersionInv.step (hi : VersionInv leaving db) (h : VersionStep db db') :
    VersionInv leaving db' := by
  cases h with
  | aside hrows hversions hsnapshots =>
    exact hi.congr ⟨by rw [hrows], hversions, by rw [hsnapshots]⟩
  | enter henter => exact hi.enter henter
  | close now => exact hi.close now
  | goLive hv hdraft hnone previousId keep now =>
    exact (hi.goLive hv hdraft hnone previousId keep now).congr (clampMissing_standing _)
  | retype hp hretyped henter =>
    have hmid := hi.congr hretyped.standing
    rcases henter with rfl | ⟨new, henter⟩
    · exact hmid.congr (clampMissing_standing _)
    · exact (hmid.enter henter).congr (clampMissing_standing _)
  | typed htyped => exact hi.typed htyped
  | setPriority hs hopen hne =>
    exact hi.congr ((leaveGroup_standing _).trans (setPlace_standing _ _ _))
  | setOrder hs hopen hp hposition hne hlow hhigh =>
    exact hi.congr ((shiftWithinGroup_standing _ _ _ _).trans (setPlace_standing _ _ _))
  | merge versionId source => exact hi.congr (writePlaces_standing _ _)
  | discard hv hdraft => exact hi.discard
  | demand changes => exact hi.congr (writeDemand_standing changes)

end Preservation

end BeyoManager.StockReport
