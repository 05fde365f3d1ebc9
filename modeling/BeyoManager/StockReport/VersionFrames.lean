import BeyoManager.StockReport.Frames
import BeyoManager.StockReport.Run

/-! # What a command on versions leaves alone

The commands on versions, places and typed quantities touch no row, no assignment and
no repair record. They append history records, none of which is a goal record.
-/

namespace BeyoManager.StockReport

open Relational Transition Sorting

/-- A command that moves no assignment and writes no row. -/
structure Quiet (db db' : Db) : Prop where
  rows : db'.rows = db.rows
  assignments : db'.assignments = db.assignments
  repairs : db'.repairs = db.repairs
  histories : ∃ new, db'.histories = db.histories ++ new ∧
    ∀ h ∈ new, h.type ≠ .quantityRequestedChange
  keyed : Keyed HistoryRecord.clientId db.histories → Keyed HistoryRecord.clientId db'.histories

section Frames

variable {db db' db'' : Db}

theorem SnapshotFrame.quiet (h : SnapshotFrame db db') : Quiet db db' where
  rows := h.rows
  assignments := h.assignments
  repairs := h.repairs
  histories := ⟨[], by simp [h.histories], by simp⟩
  keyed hk := h.histories ▸ hk

theorem Quiet.trans (h : Quiet db db') (h' : Quiet db' db'') : Quiet db db'' where
  rows := h'.rows.trans h.rows
  assignments := h'.assignments.trans h.assignments
  repairs := h'.repairs.trans h.repairs
  histories := by
    obtain ⟨new, hnew, htype⟩ := h.histories
    obtain ⟨new', hnew', htype'⟩ := h'.histories
    refine ⟨new ++ new', by rw [hnew', hnew, List.append_assoc], fun x hx => ?_⟩
    rcases List.mem_append.mp hx with hx | hx
    · exact htype x hx
    · exact htype' x hx
  keyed hk := h'.keyed (h.keyed hk)

theorem insertHistories_eq_ok {new : List HistoryRecord} : insertHistories db new = .ok db' ↔
    Keyed HistoryRecord.clientId (db.histories ++ new) ∧
      db' = { db with histories := db.histories ++ new } := by
  simp only [insertHistories, bind_eq_ok, insertRecords_eq_ok, pure, Except.pure,
    Except.ok.injEq]
  constructor
  · rintro ⟨_, ⟨hk, rfl⟩, rfl⟩
    exact ⟨hk, rfl⟩
  · rintro ⟨hk, rfl⟩
    exact ⟨_, ⟨hk, rfl⟩, rfl⟩

theorem insertHistories_quiet {new : List HistoryRecord} (h : insertHistories db new = .ok db')
    (htype : ∀ x ∈ new, x.type ≠ .quantityRequestedChange) : Quiet db db' := by
  obtain ⟨hk, rfl⟩ := insertHistories_eq_ok.mp h
  exact ⟨rfl, rfl, rfl, ⟨new, rfl, htype⟩, fun _ => hk⟩

theorem insertSnapshots_eq_ok {new : List ItemSnapshot} : insertSnapshots db new = .ok db' ↔
    Keyed ItemSnapshot.clientId (db.snapshots ++ new) ∧
      db' = { db with snapshots := db.snapshots ++ new } := by
  simp only [insertSnapshots, bind_eq_ok, insertRecords_eq_ok, pure, Except.pure,
    Except.ok.injEq]
  constructor
  · rintro ⟨_, ⟨hk, rfl⟩, rfl⟩
    exact ⟨hk, rfl⟩
  · rintro ⟨hk, rfl⟩
    exact ⟨_, ⟨hk, rfl⟩, rfl⟩

theorem insertVersion_eq_ok {version : SnapshotVersion} : insertVersion db version = .ok db' ↔
    Keyed SnapshotVersion.clientId (db.versions ++ [version]) ∧
      db' = { db with versions := db.versions ++ [version] } := by
  simp only [insertVersion, bind_eq_ok, insertRecords_eq_ok, pure, Except.pure,
    Except.ok.injEq]
  constructor
  · rintro ⟨_, ⟨hk, rfl⟩, rfl⟩
    exact ⟨hk, rfl⟩
  · rintro ⟨hk, rfl⟩
    exact ⟨_, ⟨hk, rfl⟩, rfl⟩

theorem createActivationScheduler_eq_ok {versionId newSchedulerId : ClientId}
    {scheduledFor : Timestamp}
    (h : createActivationScheduler db versionId scheduledFor newSchedulerId = .ok db') :
    ∃ schedulers, db' = { db with schedulers := schedulers } := by
  simp only [createActivationScheduler, bind_eq_ok, pure, Except.pure, Except.ok.injEq] at h
  obtain ⟨schedulers, -, rfl⟩ := h
  exact ⟨schedulers, rfl⟩

theorem closeActiveVersion_frame (now : Timestamp) :
    SnapshotFrame db (closeActiveVersion db now).1 := by
  unfold closeActiveVersion
  split
  · exact SnapshotFrame.refl db
  · exact ⟨rfl, rfl, rfl, rfl⟩

end Frames

section Commands

variable {db db' : Db}

theorem createVersion_frame {request : CreateVersionRequest} {now : Timestamp}
    {newVersionId newSchedulerId : ClientId} {newId : ℕ → ClientId}
    (h : createStockReportSnapshotVersion db request now newVersionId newSchedulerId newId =
      .ok db') : SnapshotFrame db db' := by
  simp only [createStockReportSnapshotVersion, bind_eq_ok] at h
  obtain ⟨-, -, -, -, h⟩ := h
  split at h
  · simp only [bind_eq_ok, insertVersion_eq_ok, insertSnapshots_eq_ok] at h
    obtain ⟨_, ⟨-, rfl⟩, _, ⟨-, rfl⟩, h⟩ := h
    split at h
    · obtain ⟨schedulers, rfl⟩ := createActivationScheduler_eq_ok h
      exact SnapshotFrame.withSnapshots _ _ _
    · obtain rfl := by simpa [pure, Except.pure] using h
      exact SnapshotFrame.withSnapshots _ _ _
  · simp only [bind_eq_ok, insertVersion_eq_ok, insertSnapshots_eq_ok] at h
    obtain ⟨_, ⟨-, rfl⟩, -, rfl⟩ := h
    exact (closeActiveVersion_frame now).trans (SnapshotFrame.withSnapshots _ _ _)

theorem skipActivation_frame (versionId : ClientId) :
    SnapshotFrame db (skipActivation db versionId) := ⟨rfl, rfl, rfl, rfl⟩

theorem reconcileMembership_eq_ok {versionId : ClientId} {held : List ClientId}
    {newId : ℕ → ClientId} (h : reconcileMembership db versionId held newId = .ok db') :
    ∃ new, Keyed ItemSnapshot.clientId (db.snapshots ++ new) ∧
      db' = { db with snapshots := db.snapshots ++ new } :=
  ⟨_, insertSnapshots_eq_ok.mp h⟩

theorem writeActivationHistory_quiet {versionId : ClientId} {now : Timestamp}
    {newId : ℕ → ClientId} (h : writeActivationHistory db versionId now newId = .ok db') :
    Quiet db db' := by
  simp only [writeActivationHistory, bind_eq_ok] at h
  obtain ⟨histories, hmap, h⟩ := h
  refine insertHistories_quiet h fun x hx => ?_
  obtain ⟨indexed, -, hx⟩ := mapM_mem hmap x hx
  simp only [bind_eq_ok, pure, Except.pure, Except.ok.injEq] at hx
  obtain ⟨row, -, rfl⟩ := hx
  simp [snapshotHistory]

theorem goLive_quiet {request : ActivateRequest} {version : SnapshotVersion} {now : Timestamp}
    {newId newHistoryId : ℕ → ClientId}
    (h : goLive db request version now newId newHistoryId = .ok db') : Quiet db db' := by
  simp only [goLive, bind_eq_ok] at h
  obtain ⟨reconciled, hreconcile, h⟩ := h
  obtain ⟨new, -, rfl⟩ := reconcileMembership_eq_ok hreconcile
  refine ((closeActiveVersion_frame now).trans ?_).quiet.trans (writeActivationHistory_quiet h)
  exact ⟨rfl, rfl, rfl, rfl⟩

theorem activateVersion_quiet {request : ActivateRequest} {now : Timestamp}
    {newId newHistoryId : ℕ → ClientId}
    (h : activateStockReportSnapshotVersion db request now newId newHistoryId = .ok db') :
    Quiet db db' := by
  simp only [activateStockReportSnapshotVersion, bind_eq_ok] at h
  obtain ⟨version, -, -, -, h⟩ := h
  split at h
  · obtain rfl := by simpa [pure, Except.pure] using h
    exact (SnapshotFrame.refl _).quiet
  · obtain rfl := by simpa [pure, Except.pure] using h
    exact (skipActivation_frame _).quiet
  · obtain rfl := by simpa [pure, Except.pure] using h
    exact (skipActivation_frame _).quiet
  · exact goLive_quiet h

theorem clearManual_quiet {versionId : ClientId} {now : Timestamp} {newId : ℕ → ClientId}
    (h : clearManual db versionId now newId = .ok db') : Quiet db db' := by
  unfold clearManual at h
  refine Quiet.trans ?_ (insertHistories_quiet h fun x hx => ?_)
  · exact SnapshotFrame.quiet ⟨rfl, rfl, rfl, rfl⟩
  · obtain ⟨indexed, -, rfl⟩ := List.mem_map.mp hx
    simp [clearedHistory]

theorem clampMissing_snapshotFrame (p : ItemSnapshot → Bool) :
    SnapshotFrame db (clampMissing db p) := ⟨rfl, rfl, rfl, rfl⟩

theorem addMissingRows_frame {version : SnapshotVersion} {newId : ℕ → ClientId}
    (h : addMissingRows db version newId = .ok db') : SnapshotFrame db db' := by
  unfold addMissingRows at h
  simp only at h
  split at h
  · obtain rfl := by simpa [pure, Except.pure] using h
    exact SnapshotFrame.refl _
  · simp only [bind_eq_ok, insertSnapshots_eq_ok, pure, Except.pure, Except.ok.injEq] at h
    obtain ⟨_, ⟨-, rfl⟩, rfl⟩ := h
    exact ⟨rfl, rfl, rfl, rfl⟩

theorem refreshVersion_quiet {versionId : ClientId} {keep : Bool} {now : Timestamp}
    {newId newHistoryId : ℕ → ClientId}
    (h : refreshStockReportSnapshotVersionRequested db versionId keep now newId newHistoryId =
      .ok db') : Quiet db db' := by
  simp only [refreshStockReportSnapshotVersionRequested, bind_eq_ok, pure, Except.pure,
    Except.ok.injEq] at h
  obtain ⟨version, -, -, -, cleared, hclear, added, hadd, rfl⟩ := h
  have hrefreeze : SnapshotFrame db (refreezeScanner db version.clientId) := ⟨rfl, rfl, rfl, rfl⟩
  have hcleared : Quiet (refreezeScanner db version.clientId) cleared := by
    unfold refreshManual at hclear
    split at hclear
    · obtain rfl := by simpa using hclear
      exact (SnapshotFrame.refl _).quiet
    · exact clearManual_quiet hclear
  refine (hrefreeze.quiet.trans hcleared).trans ?_
  exact ((addMissingRows_frame hadd).trans (clampMissing_snapshotFrame _)).quiet

theorem deleteVersion_frame {versionId : ClientId}
    (h : deleteStockReportSnapshotVersion db versionId = .ok db') : SnapshotFrame db db' := by
  simp only [deleteStockReportSnapshotVersion, bind_eq_ok, pure, Except.pure, Except.ok.injEq] at h
  obtain ⟨version, -, -, -, rfl⟩ := h
  exact ⟨rfl, rfl, rfl, rfl⟩

theorem updateVersion_frame {request : UpdateVersionRequest} {now : Timestamp}
    {newSchedulerId : ClientId}
    (h : updateStockReportSnapshotVersion db request now newSchedulerId = .ok db') :
    SnapshotFrame db db' := by
  simp only [updateStockReportSnapshotVersion, bind_eq_ok] at h
  obtain ⟨version, -, -, -, -, -, h⟩ := h
  split at h
  · obtain rfl := by simpa [pure, Except.pure] using h
    exact ⟨rfl, rfl, rfl, rfl⟩
  · split at h
    · obtain ⟨schedulers, rfl⟩ := createActivationScheduler_eq_ok h
      exact ⟨rfl, rfl, rfl, rfl⟩
    · obtain rfl := by simpa [pure, Except.pure] using h
      exact ⟨rfl, rfl, rfl, rfl⟩

theorem writePlaces_frame (versionId : ClientId)
    (changed : List (ClientId × Option StockReportPriority × Option ℤ)) :
    SnapshotFrame db (writePlaces db versionId changed) := ⟨rfl, rfl, rfl, rfl⟩

theorem applyPriorities_quiet {sourceVersionId : ClientId} {targetVersionId : Option ClientId}
    {now : Timestamp} {newId : ℕ → ClientId}
    (h : applyStockReportSnapshotVersionPriorities db now newId sourceVersionId targetVersionId =
      .ok db') : Quiet db db' := by
  simp only [applyStockReportSnapshotVersionPriorities, bind_eq_ok] at h
  obtain ⟨source, -, target, -, h⟩ := h
  split at h
  · obtain rfl := by simpa [pure, Except.pure] using h
    exact (SnapshotFrame.refl _).quiet
  · split at h
    · obtain ⟨histories, hmap, h⟩ := bind_eq_ok.mp h
      refine (writePlaces_frame _ _).quiet.trans (insertHistories_quiet h fun x hx => ?_)
      obtain ⟨indexed, -, hx⟩ := mapM_mem hmap x hx
      simp only [placeHistory, bind_eq_ok, pure, Except.pure, Except.ok.injEq] at hx
      obtain ⟨row, -, written, -, rfl⟩ := hx
      simp only [snapshotHistory]
      split <;> simp
    · obtain rfl := by simpa [pure, Except.pure] using h
      exact (writePlaces_frame _ _).quiet

theorem shift_frame (versionId : ClientId) (priority : StockReportPriority) (low : ℤ)
    (high : Option ℤ) (delta : ℤ) :
    SnapshotFrame db (shift db versionId priority low high delta) := by
  unfold shift
  split
  · exact SnapshotFrame.refl db
  · exact ⟨rfl, rfl, rfl, rfl⟩

theorem leaveGroup_frame (s : ItemSnapshot) : SnapshotFrame db (leaveGroup db s) := by
  unfold leaveGroup closePriorityGap
  split
  · split
    · exact SnapshotFrame.refl db
    · exact shift_frame _ _ _ _ _
  · exact SnapshotFrame.refl db

theorem shiftWithinGroup_frame (versionId : ClientId) (priority : StockReportPriority)
    (fromOrder toOrder : ℤ) :
    SnapshotFrame db (shiftWithinGroup db versionId priority fromOrder toOrder) := by
  unfold shiftWithinGroup
  split_ifs
  · exact SnapshotFrame.refl db
  · exact shift_frame _ _ _ _ _
  · exact shift_frame _ _ _ _ _

theorem setPlace_frame (snapshotId : ClientId) (priority : Option StockReportPriority)
    (priorityOrder : Option ℤ) : SnapshotFrame db (setPlace db snapshotId priority priorityOrder) :=
  ⟨rfl, rfl, rfl, rfl⟩

theorem setPriority_quiet {rowId : ClientId} {versionId : Option ClientId}
    {priority : Option StockReportPriority} {now : Timestamp} {newId : ℕ → ClientId}
    (h : setStockReportItemPriority db now newId rowId versionId priority = .ok db') :
    Quiet db db' := by
  simp only [setStockReportItemPriority, bind_eq_ok] at h
  obtain ⟨row, -, target, -, ⟨version, snapshot⟩, -, h⟩ := h
  split at h
  · obtain rfl := by simpa [pure, Except.pure] using h
    exact (SnapshotFrame.refl _).quiet
  · have hwritten : ∀ order, Quiet db
        (setPlace (leaveGroup db snapshot) snapshot.clientId priority order) := fun order =>
      ((leaveGroup_frame snapshot).trans (setPlace_frame _ _ _)).quiet
    split at h
    · exact (hwritten _).trans (insertHistories_quiet h (by simp [snapshotHistory]))
    · obtain rfl := by simpa [pure, Except.pure] using h
      exact hwritten _

theorem setPriorityOrder_quiet {rowId : ClientId} {versionId : Option ClientId} {targetOrder : ℤ}
    {now : Timestamp} {newId : ℕ → ClientId}
    (h : setStockReportItemPriorityOrder db now newId rowId versionId targetOrder = .ok db') :
    Quiet db db' := by
  simp only [setStockReportItemPriorityOrder, bind_eq_ok] at h
  obtain ⟨row, -, target, -, ⟨version, snapshot⟩, -, priority, -, -, -, position, -, h⟩ := h
  split at h
  · obtain rfl := by simpa [pure, Except.pure] using h
    exact (SnapshotFrame.refl _).quiet
  · have hwritten : Quiet db
        (setPlace (shiftWithinGroup db snapshot.versionId priority position targetOrder)
          snapshot.clientId (some priority) (some targetOrder)) :=
      ((shiftWithinGroup_frame _ _ _ _).trans (setPlace_frame _ _ _)).quiet
    split at h
    · exact hwritten.trans (insertHistories_quiet h (by simp [snapshotHistory]))
    · obtain rfl := by simpa [pure, Except.pure] using h
      exact hwritten

theorem setMissingQuantity_frame {rowId : ClientId} {versionId : Option ClientId}
    {quantity : Option ℤ}
    (h : setStockReportItemSnapshotMissingQuantity db rowId versionId quantity = .ok db') :
    SnapshotFrame db db' := by
  simp only [setStockReportItemSnapshotMissingQuantity, bind_eq_ok] at h
  obtain ⟨⟨row, version, snapshot⟩, -, -, -, h⟩ := h
  split at h
  · obtain rfl := by simpa [pure, Except.pure] using h
    exact SnapshotFrame.refl _
  · obtain rfl := by simpa [pure, Except.pure] using h
    exact ⟨rfl, rfl, rfl, rfl⟩

theorem setRequestedQuantity_quiet {rowId : ClientId} {versionId : Option ClientId}
    {quantity : Option ℤ} {now : Timestamp} {newHistoryId : ClientId}
    (h : setStockReportItemSnapshotRequestedQuantity db rowId versionId quantity now newHistoryId =
      .ok db') : Quiet db db' := by
  simp only [setStockReportItemSnapshotRequestedQuantity, bind_eq_ok] at h
  obtain ⟨⟨row, version, snapshot⟩, -, h⟩ := h
  split at h
  · obtain rfl := by simpa [pure, Except.pure] using h
    exact (SnapshotFrame.refl _).quiet
  · split at h
    · obtain ⟨after, -, h⟩ := bind_eq_ok.mp h
      refine Quiet.trans ?_ (insertHistories_quiet h (by simp [snapshotHistory]))
      exact SnapshotFrame.quiet ⟨rfl, rfl, rfl, rfl⟩
    · obtain rfl := by simpa [pure, Except.pure] using h
      exact SnapshotFrame.quiet ⟨rfl, rfl, rfl, rfl⟩

end Commands

section Demand

variable {db db' : Db}

theorem absentRows_counters {byIdentity : List (Identity × DemandEntry)} {newId : ℕ → ClientId} :
    ∀ r ∈ absentRows db byIdentity newId, r.counters = 0 ∧ r.isDeleted = false := by
  intro r hr
  obtain ⟨⟨e, index⟩, -, rfl⟩ := List.mem_map.mp hr
  exact ⟨rfl, rfl⟩

theorem applyStockDemand_eq_ok {categoryByKey : String → Option ClientId}
    {entries : List DemandEntry} {now : Timestamp} {late : Bool}
    {newRowId newSnapshotId newHistoryId : ℕ → ClientId}
    (h : applyStockDemand db categoryByKey entries now late newRowId newSnapshotId newHistoryId =
      .ok db') :
    let created := absentRows db (entriesByIdentity categoryByKey entries) newRowId
    Keyed StockReportItem.clientId (db.rows ++ created) ∧ ∃ drafted changes,
      addRowsToEveryDraft { db with rows := db.rows ++ created } created newSnapshotId =
        .ok drafted ∧
      demandChanges drafted (entriesByIdentity categoryByKey entries) = .ok changes ∧
      insertHistories (writeDemand drafted changes)
        (((changes.filter fun c => decide (c.1.quantityRequested < c.2)).zipIdx).map
          (goalRecord (writeDemand drafted changes) now newHistoryId)) = .ok db' := by
  simp only [applyStockDemand, bind_eq_ok, insertRows, insertRecords_eq_ok, pure,
    Except.pure, Except.ok.injEq] at h
  obtain ⟨_, ⟨_, ⟨hk, rfl⟩, rfl⟩, drafted, hdraft, changes, hchanges, d, hinsert, -, -, rfl⟩ := h
  exact ⟨hk, drafted, changes, hdraft, hchanges, hinsert⟩

theorem addRowsToEveryDraft_frame {rows : List StockReportItem} {newId : ℕ → ClientId}
    (h : addRowsToEveryDraft db rows newId = .ok db') : SnapshotFrame db db' := by
  simp only [addRowsToEveryDraft, bind_eq_ok, insertSnapshots_eq_ok, pure, Except.pure,
    Except.ok.injEq] at h
  obtain ⟨_, ⟨-, rfl⟩, rfl⟩ := h
  exact ⟨rfl, rfl, rfl, rfl⟩

end Demand

def Op.IsVersionCommand : Op → Prop
  | .createVersion _ _ _ _ _ | .activateVersion _ _ _ _ | .refreshVersion _ _ _ _ _
  | .updateVersion _ _ _ | .deleteVersion _ | .applyPriorities _ _ _ _ | .setPriority _ _ _ _ _
  | .setPriorityOrder _ _ _ _ _ | .setMissingQuantity _ _ _ | .setRequestedQuantity _ _ _ _ _ =>
    True
  | _ => False

theorem step_quiet {db db' : Db} {op : Op} (hop : op.IsVersionCommand) (h : step db op = .ok db') :
    Quiet db db' := by
  cases op with
  | createVersion => exact (createVersion_frame h).quiet
  | activateVersion => exact activateVersion_quiet h
  | refreshVersion => exact refreshVersion_quiet h
  | updateVersion => exact (updateVersion_frame h).quiet
  | deleteVersion => exact (deleteVersion_frame h).quiet
  | applyPriorities => exact applyPriorities_quiet h
  | setPriority => exact setPriority_quiet h
  | setPriorityOrder => exact setPriorityOrder_quiet h
  | setMissingQuantity => exact (setMissingQuantity_frame h).quiet
  | setRequestedQuantity => exact setRequestedQuantity_quiet h
  | _ => exact hop.elim

end BeyoManager.StockReport
