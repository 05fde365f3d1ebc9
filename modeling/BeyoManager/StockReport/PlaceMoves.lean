import BeyoManager.StockReport.GroupOrder

/-! # Moving a snapshot among its priorities

Setting an order moves one element of a sequence to the position that was asked for; setting a
priority takes it out of its sequence and appends it to the other. Nothing else moves.
-/

namespace BeyoManager.StockReport

open DenseOrder Relational Sorting Transition

/-- The row, the version and the locked snapshot that a command on places works on. -/
def placeTarget (db : Db) (rowId : ClientId) (versionId : Option ClientId)
    (groups : ItemSnapshot → List (Option StockReportPriority)) :
    Except CommandError (StockReportItem × SnapshotVersion × ItemSnapshot) := do
  let row ← findRow db rowId
  let target ← discoverTargetSnapshot db row.clientId versionId
  let locked := lockSnapshotAndGroups db target.versionId target.snapshot.clientId
    (groups target.snapshot)
  let (version, snapshot) ← checkLockedTarget db target
    (locked.find? fun s => s.clientId == target.snapshot.clientId)
  pure (row, version, snapshot)

section Target

variable {db db' : Db} {newId : ℕ → ClientId} {rowId : ClientId}
  {versionId : Option ClientId} {groups : ItemSnapshot → List (Option StockReportPriority)}
  {row : StockReportItem} {version : SnapshotVersion} {s u : ItemSnapshot}
  {p : StockReportPriority} {position target : ℤ} {destination : Option StockReportPriority}

theorem placeTarget_spec (hk : Keyed ItemSnapshot.clientId db.snapshots)
    (h : placeTarget db rowId versionId groups = .ok (row, version, s)) :
    s ∈ db.snapshots ∧ isSnapshotOpen s := by
  simp only [placeTarget, bind_eq_ok, pure, Except.pure, Except.ok.injEq, Prod.mk.injEq,
    Prod.exists] at h
  obtain ⟨_, -, target, hdiscover, _, _, hcheck, rfl, rfl, rfl⟩ := h
  obtain ⟨-, hs, hopen, -⟩ := placeTarget_eq_ok hk hdiscover hcheck
  exact ⟨hs, hopen⟩

theorem insertHistories_fresh {written : Db} (hh : Keyed HistoryRecord.clientId db.histories)
    {h : HistoryRecord} (hfresh : ∀ x ∈ db.histories, x.clientId ≠ h.clientId)
    (hframe : SnapshotFrame db written) :
    ∃ db', insertHistories written [h] = .ok db' ∧ db'.snapshots = written.snapshots := by
  refine ⟨_, insertHistories_eq_ok.mpr ⟨?_, rfl⟩, rfl⟩
  rw [hframe.histories, keyed_append]
  refine ⟨hh, List.nodup_singleton _, fun x hx y hy => ?_⟩
  rw [List.mem_singleton.mp hy]
  exact hfresh x hx

/-- Setting an order on an accepted target: the shift, the place and at most a history record. -/
theorem setPriorityOrder_accepted (now : Timestamp) (hk : Keyed ItemSnapshot.clientId db.snapshots)
    (hh : Keyed HistoryRecord.clientId db.histories)
    (hfresh : ∀ x ∈ db.histories, x.clientId ≠ newId 0)
    (h : placeTarget db rowId versionId (fun s => [s.priority]) = .ok (row, version, s))
    (hp : s.priority = some p) (hposition : s.priorityOrder = some position) (hlow : 1 ≤ target)
    (hhigh : target ≤ (members db s.versionId p).length) :
    ∃ db', setStockReportItemPriorityOrder db now newId rowId versionId target = .ok db' ∧
      (target = position → db' = db) ∧
      (target ≠ position → db'.snapshots = db.snapshots.map (movedWithin s p position target)) := by
  simp only [placeTarget, bind_eq_ok, pure, Except.pure, Except.ok.injEq, Prod.mk.injEq,
    Prod.exists] at h
  obtain ⟨r, hrow, found, hdiscover, v, t, hcheck, rfl, rfl, rfl⟩ := h
  obtain ⟨hst, -, -, -, -, hversion⟩ := placeTarget_eq_ok hk hdiscover hcheck
  have hcount : (((lockSnapshotAndGroups db found.versionId found.snapshot.clientId
      [found.snapshot.priority]).countP fun u => u.priority == some p : ℕ) : ℤ) =
        (members db t.versionId p).length := by
    rw [← hst, hversion, hp, countP_lockSnapshotAndGroups, List.countP_eq_length_filter, members]
  have hrange : ¬ ¬ (1 ≤ target ∧ target ≤ ((members db t.versionId p).length : ℤ)) :=
    not_not.mpr ⟨hlow, hhigh⟩
  simp only [setStockReportItemPriorityOrder, hrow, hdiscover, hcheck, hp, hposition, hcount, getOr,
    throwIf, bind, Except.bind, pure, Except.pure, if_neg hrange]
  by_cases heq : target = position
  · exact ⟨db, if_pos heq, fun _ => rfl, fun hne => absurd heq hne⟩
  · simp only [if_neg heq]
    split
    · obtain ⟨db', hdb', hsnapshots⟩ := insertHistories_fresh hh (h := snapshotHistory (newId 0)
        .priorityOrderChange t r (some p) (some target) now) hfresh
          ((shiftWithinGroup_frame t.versionId p position target).trans (setPlace_frame _ _ _))
      exact ⟨db', hdb', fun he => absurd he heq, fun _ => hsnapshots.trans (setOrder_snapshots heq)⟩
    · exact ⟨_, rfl, fun he => absurd he heq, fun _ => setOrder_snapshots heq⟩

/-- Setting a priority on an accepted target. -/
theorem setPriority_accepted (now : Timestamp) (hh : Keyed HistoryRecord.clientId db.histories)
    (hfresh : ∀ x ∈ db.histories, x.clientId ≠ newId 0)
    (h : placeTarget db rowId versionId (fun s => [s.priority, destination]) =
      .ok (row, version, s)) :
    ∃ db', setStockReportItemPriority db now newId rowId versionId destination = .ok db' ∧
      (s.priority = destination → db' = db) ∧
      (s.priority ≠ destination → db'.snapshots = db.snapshots.map (movedAcross s destination
        (destination.map fun p => appendToPriorityGroup (leaveGroup db s) s.versionId p))) := by
  simp only [placeTarget, bind_eq_ok, pure, Except.pure, Except.ok.injEq, Prod.mk.injEq,
    Prod.exists] at h
  obtain ⟨r, hrow, found, hdiscover, v, t, hcheck, rfl, rfl, rfl⟩ := h
  simp only [setStockReportItemPriority, hrow, hdiscover, hcheck, bind, Except.bind, pure,
    Except.pure]
  by_cases heq : t.priority = destination
  · exact ⟨db, if_pos heq, fun _ => rfl, fun hne => absurd heq hne⟩
  · simp only [if_neg heq]
    split
    · obtain ⟨db', hdb', hsnapshots⟩ := insertHistories_fresh hh (h := snapshotHistory (newId 0)
        .priorityChange t r destination (destination.map fun p =>
          appendToPriorityGroup (leaveGroup db t) t.versionId p) now) hfresh
            ((leaveGroup_frame t).trans (setPlace_frame _ _ _))
      exact ⟨db', hdb', fun he => absurd he heq, fun _ => hsnapshots.trans setPriority_snapshots⟩
    · exact ⟨_, rfl, fun he => absurd he heq, fun _ => setPriority_snapshots⟩

/-- Within a dense group a position is taken out and put back where it was asked for, and a snapshot
goes from the sequence of its priority to the end of the other; every other snapshot stays as it
is. -/
theorem places_move_in_sequences (now : Timestamp) (hk : Keyed ItemSnapshot.clientId db.snapshots)
    (hh : Keyed HistoryRecord.clientId db.histories)
    (hfresh : ∀ x ∈ db.histories, x.clientId ≠ newId 0) :
    (∀ row version s p (position target : ℤ),
      placeTarget db rowId versionId (fun s => [s.priority]) = .ok (row, version, s) →
      s.priority = some p → DenseGroup db s.versionId p → s.priorityOrder = some position →
      1 ≤ target → target ≤ (members db s.versionId p).length →
        ∃ db', setStockReportItemPriorityOrder db now newId rowId versionId target = .ok db' ∧
          groupSequence db' s.versionId p =
            ((groupSequence db s.versionId p).eraseIdx (position - 1).toNat).insertIdx
              (target - 1).toNat s.clientId ∧
          ∀ u ∈ db.snapshots, inGroup s.versionId p u = false → u ∈ db'.snapshots) ∧
    ∀ row version s destination,
      placeTarget db rowId versionId (fun s => [s.priority, destination]) = .ok (row, version, s) →
      (∀ p, s.priority = some p ∨ destination = some p → DenseGroup db s.versionId p) →
        ∃ db', setStockReportItemPriority db now newId rowId versionId destination = .ok db' ∧
          (s.priority = destination → db' = db) ∧
          (s.priority ≠ destination →
            (∀ p, s.priority = some p →
              groupSequence db' s.versionId p = (groupSequence db s.versionId p).erase s.clientId) ∧
            (∀ p, destination = some p →
              groupSequence db' s.versionId p = groupSequence db s.versionId p ++ [s.clientId]) ∧
            ∃ w ∈ db'.snapshots, w.clientId = s.clientId ∧ w.priority = destination ∧
              (destination = none → w.priorityOrder = none)) ∧
          ∀ u ∈ db.snapshots, u.clientId ≠ s.clientId →
            (∀ p, s.priority = some p → inGroup s.versionId p u = false) → u ∈ db'.snapshots := by
  constructor
  · intro row version s p position target h hp hd hposition hlow hhigh
    obtain ⟨hs, hopen⟩ := placeTarget_spec hk h
    obtain ⟨db', hdb', hsame, hmoved⟩ :=
      setPriorityOrder_accepted now hk hh hfresh h hp hposition hlow hhigh
    have hgroup : inGroup s.versionId p s := by
      simp [inGroup, hp, hopen]
    have hmem : s ∈ members db s.versionId p := mem_members.mpr ⟨hs, hgroup⟩
    refine ⟨db', hdb', ?_⟩
    by_cases heq : target = position
    · -- taking the element out and putting it back
      obtain ⟨a, ha, hget, hplace⟩ := hd.place hmem hposition
      obtain rfl := hsame heq
      obtain ⟨hna, hnb⟩ : (position - 1).toNat = a ∧ (target - 1).toNat = a := by omega
      refine ⟨?_, fun u hu _ => hu⟩
      have hback := List.insertIdx_eraseIdx_getElem ha
      rw [hget] at hback
      rw [hna, hnb, groupSequence, List.eraseIdx_map, ← List.map_insertIdx, hback]
    · have hdb := hmoved heq
      refine ⟨groupSequence_setOrder hk hd hmem hposition hlow hhigh hdb, fun u hu hout => ?_⟩
      rw [hdb]
      exact List.mem_map.mpr ⟨u, hu, movedWithin_of_not hgroup (hk.inj hu hs) hout⟩
  · intro row version s destination h hd
    obtain ⟨hs, hopen⟩ := placeTarget_spec hk h
    obtain ⟨db', hdb', hsame, hmoved⟩ := setPriority_accepted now hh hfresh h
    refine ⟨db', hdb', hsame, fun hne => ?_, fun u hu hid hout => ?_⟩
    · have hdb := hmoved hne
      refine ⟨fun p hp => ?_, fun p hp => ?_, ?_⟩
      · have hmem : s ∈ members db s.versionId p :=
          mem_members.mpr ⟨hs, by simp [inGroup, hp, hopen]⟩
        exact groupSequence_source hk hopen hp (hd p (.inl hp)) hmem (hp ▸ Ne.symm hne) hdb
      · obtain rfl := hp
        exact groupSequence_destination hk hs hopen hne (hd p (.inr rfl)) hdb
      · refine ⟨movedAcross s destination _ s, hdb ▸ List.mem_map_of_mem hs,
          movedAcross_clientId, ?_, ?_⟩
        · rw [movedAcross_self]
        · rintro rfl
          rw [movedAcross_self]
          rfl
    · by_cases heq : s.priority = destination
      · rw [hsame heq]
        exact hu
      · rw [hmoved heq]
        exact List.mem_map.mpr ⟨u, hu, (movedAcross_of_ne hid).trans (leftBy_of_not hout)⟩

/-- A board whose three rows have high priority, and one row without a priority. -/
def smallBoard : Db where
  items := []
  tasks := []
  taskItems := []
  rows := ["bed", "sofa", "desk", "lamp"].map fun id => ⟨id, "c", "{}", id, 5, 0, false⟩
  versions := [⟨"v", none, some 0, none, none, false, 4, 0⟩]
  snapshots := [("s1", "bed", some .high, some 2), ("s2", "sofa", some .high, some 3),
    ("s3", "desk", some .high, some 1), ("s4", "lamp", none, none)].map
      fun (id, rowId, priority, order) =>
        ⟨id, "v", rowId, some 5, none, 0, some 0, 0, priority, order, some 0, none⟩
  assignments := []
  histories := []
  repairs := []
  schedulers := []

example : groupSequence smallBoard "v" .high = ["s3", "s1", "s2"] := by decide

theorem sofa_moves_first :
    ∃ db', setStockReportItemPriorityOrder smallBoard 1 (fun _ => "h") "sofa" none 1 = .ok db' ∧
      groupSequence db' "v" .high = ((groupSequence smallBoard "v" .high).eraseIdx 2).insertIdx 0
        "s2" ∧
      ∀ u ∈ smallBoard.snapshots, inGroup "v" .high u = false → u ∈ db'.snapshots :=
  (@places_move_in_sequences smallBoard (fun _ => "h") "sofa" none 1 (by decide)
    (by decide) (by decide)).1
      ⟨"sofa", "c", "{}", "sofa", 5, 0, false⟩ ⟨"v", none, some 0, none, none, false, 4, 0⟩
      ⟨"s2", "v", "sofa", some 5, none, 0, some 0, 0, some .high, some 3, some 0, none⟩ .high 3 1
      (by decide) rfl ⟨by decide, by decide⟩ rfl (by decide) (by decide)

end Target

end BeyoManager.StockReport
