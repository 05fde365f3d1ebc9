import BeyoManager.StockReport.Assignments

/-! # What a move writes

A move writes the moved assignment, the counters of its row, the awaiting quantity of
a goal record, and the missing and resolved quantities of a snapshot. Everything else
in the tables is the same afterwards.
-/

namespace BeyoManager.StockReport

open Relational Transition Sorting

def StockReportItem.withoutCounters (r : StockReportItem) : StockReportItem :=
  { r with counters := 0 }

def ItemSnapshot.withoutAmounts (s : ItemSnapshot) : ItemSnapshot :=
  { s with quantityMissing := s.quantityMissing.map fun _ => 0, quantityResolved := 0 }

def HistoryRecord.withoutAwaiting (h : HistoryRecord) : HistoryRecord :=
  { h with quantityAwaiting := 0 }

structure Frame (db db' : Db) : Prop where
  items : db'.items = db.items
  tasks : db'.tasks = db.tasks
  taskItems : db'.taskItems = db.taskItems
  versions : db'.versions = db.versions
  schedulers : db'.schedulers = db.schedulers
  rows : db'.rows.map StockReportItem.withoutCounters =
    db.rows.map StockReportItem.withoutCounters
  snapshots : db'.snapshots.map ItemSnapshot.withoutAmounts =
    db.snapshots.map ItemSnapshot.withoutAmounts
  histories : db'.histories.map HistoryRecord.withoutAwaiting =
    db.histories.map HistoryRecord.withoutAwaiting

namespace Frame

variable {db db' db'' : Db}

theorem refl (db : Db) : Frame db db := ⟨rfl, rfl, rfl, rfl, rfl, rfl, rfl, rfl⟩

theorem trans (h : Frame db db') (h' : Frame db' db'') : Frame db db'' where
  items := h'.items.trans h.items
  tasks := h'.tasks.trans h.tasks
  taskItems := h'.taskItems.trans h.taskItems
  versions := h'.versions.trans h.versions
  schedulers := h'.schedulers.trans h.schedulers
  rows := h'.rows.trans h.rows
  snapshots := h'.snapshots.trans h.snapshots
  histories := h'.histories.trans h.histories

theorem withAssignments (assignments : List StockTaskAssignment) (repairs : List RepairRecord) :
    Frame db { db with assignments := assignments, repairs := repairs } :=
  ⟨rfl, rfl, rfl, rfl, rfl, rfl, rfl, rfl⟩

end Frame

/-- What a command on versions and snapshots leaves alone. -/
structure SnapshotFrame (db db' : Db) : Prop where
  rows : db'.rows = db.rows
  assignments : db'.assignments = db.assignments
  histories : db'.histories = db.histories
  repairs : db'.repairs = db.repairs

namespace SnapshotFrame

variable {db db' db'' : Db}

theorem refl (db : Db) : SnapshotFrame db db := ⟨rfl, rfl, rfl, rfl⟩

theorem trans (h : SnapshotFrame db db') (h' : SnapshotFrame db' db'') :
    SnapshotFrame db db'' where
  rows := h'.rows.trans h.rows
  assignments := h'.assignments.trans h.assignments
  histories := h'.histories.trans h.histories
  repairs := h'.repairs.trans h.repairs

theorem withSnapshots (snapshots : List ItemSnapshot) (versions : List SnapshotVersion)
    (schedulers : List DelayedScheduler) : SnapshotFrame db
      { db with snapshots := snapshots, versions := versions, schedulers := schedulers } :=
  ⟨rfl, rfl, rfl, rfl⟩

end SnapshotFrame

section Counters

variable {db db' : Db} {rowId : ClientId} {deltas : Counters} {trigger : String}

theorem setRowCounters_frame (counters : Counters) : Frame db (setRowCounters db rowId counters) :=
  { Frame.refl db with rows := map_updateWhere_of_fixed fun _ _ _ => rfl }

theorem applyCounterDelta_cases (h : applyCounterDelta db rowId deltas trigger = .ok db') :
    ∃ row, db.row? rowId = some row ∧
      ((row.counters + deltas).Nonneg ∧ db' = setRowCounters db rowId (row.counters + deltas) ∨
        ¬ (row.counters + deltas).Nonneg ∧
          db' = { setRowCounters db rowId (recomputeRowCounters db rowId) with
            repairs := db.repairs ++ counterRepairs rowId row.counters deltas
              (recomputeRowCounters db rowId) trigger }) := by
  unfold applyCounterDelta at h
  cases hr : db.row? rowId with
  | none => simp [hr] at h
  | some row =>
    refine ⟨row, rfl, ?_⟩
    simp only [hr] at h
    split at h
    · rename_i hn
      exact .inl ⟨hn, by simpa using h.symm⟩
    · rename_i hn
      exact .inr ⟨hn, by simpa using h.symm⟩

theorem applyCounterDelta_frame (h : applyCounterDelta db rowId deltas trigger = .ok db') :
    Frame db db' := by
  obtain ⟨row, -, ⟨-, rfl⟩ | ⟨-, rfl⟩⟩ := applyCounterDelta_cases h
  · exact setRowCounters_frame _
  · exact (setRowCounters_frame _).trans (Frame.withAssignments _ _)

theorem applyCounterDelta_assignments (h : applyCounterDelta db rowId deltas trigger = .ok db') :
    db'.assignments = db.assignments := by
  obtain ⟨row, -, ⟨-, rfl⟩ | ⟨-, rfl⟩⟩ := applyCounterDelta_cases h <;> rfl

theorem applyCounterDelta_histories (h : applyCounterDelta db rowId deltas trigger = .ok db') :
    db'.histories = db.histories := by
  obtain ⟨row, -, ⟨-, rfl⟩ | ⟨-, rfl⟩⟩ := applyCounterDelta_cases h <;> rfl

end Counters

section Goals

variable {db db' : Db} {a : StockTaskAssignment} {fromState : Option StockTaskAssignmentState}
  {toState : MoveTarget} {trigger : String}

def creditAfter (goal : Option ClientId) (fromState : Option StockTaskAssignmentState)
    (toState : MoveTarget) (credit : Option ClientId) : Option ClientId :=
  if toState = .state .awaiting ∨ toState = .state .resolvedEarly then
    if fromState ≠ some .awaiting then goal.or credit else credit
  else if fromState = some .awaiting then
    if toState = .state .resolved then credit else none
  else credit

def credited (goal : Option ClientId) (fromState : Option StockTaskAssignmentState)
    (toState : MoveTarget) (a : StockTaskAssignment) : StockTaskAssignment :=
  { a with
    creditedHistoryRecordId := creditAfter goal fromState toState a.creditedHistoryRecordId }

/-- The goal effect leaves the rows and the snapshots, and repairs only history records. -/
structure GoalFrame (db db' : Db) : Prop extends Frame db db' where
  rows_eq : db'.rows = db.rows
  snapshots_eq : db'.snapshots = db.snapshots
  repairs_eq : db'.repairs.filter (fun r => r.targetKind == .stockReportItem) =
    db.repairs.filter (fun r => r.targetKind == .stockReportItem)

theorem addToGoal_frame (historyId : ClientId) (quantity : ℤ) :
    GoalFrame db (addToGoal db historyId quantity) :=
  { Frame.refl db with
    histories := map_updateWhere_of_fixed fun _ _ _ => rfl
    rows_eq := rfl
    snapshots_eq := rfl
    repairs_eq := rfl }

theorem setCredit_frame (assignmentId : ClientId) (credit : Option ClientId) :
    GoalFrame db (setCredit db assignmentId credit) :=
  { Frame.refl db with rows_eq := rfl, snapshots_eq := rfl, repairs_eq := rfl }

theorem GoalFrame.trans {db'' : Db} (h : GoalFrame db db') (h' : GoalFrame db' db'') :
    GoalFrame db db'' :=
  { h.toFrame.trans h'.toFrame with
    rows_eq := h'.rows_eq.trans h.rows_eq
    snapshots_eq := h'.snapshots_eq.trans h.snapshots_eq
    repairs_eq := h'.repairs_eq.trans h.repairs_eq }

theorem GoalFrame.refl (db : Db) : GoalFrame db db :=
  { Frame.refl db with rows_eq := rfl, snapshots_eq := rfl, repairs_eq := rfl }

theorem creditCurrentGoal_frame : GoalFrame db (creditCurrentGoal db a) := by
  unfold creditCurrentGoal
  split
  · exact GoalFrame.refl db
  · exact (addToGoal_frame _ _).trans (setCredit_frame _ _)

theorem uncredit_frame (h : uncredit db a trigger = .ok db') : GoalFrame db db' := by
  unfold uncredit at h
  split at h
  · obtain rfl : db = db' := by simpa using h
    exact GoalFrame.refl db
  · rename_i recordId _
    simp only at h
    split at h
    · simp at h
    · split at h
      · obtain rfl := by simpa using h
        exact (setCredit_frame _ _).trans (addToGoal_frame _ _)
      · obtain rfl := by simpa using h
        exact (setCredit_frame a.clientId none).trans { Frame.refl _ with
          histories := map_updateWhere_of_fixed fun _ _ _ => rfl
          rows_eq := rfl
          snapshots_eq := rfl
          repairs_eq := by simp [repairRecord, List.filter_append] }

theorem applyGoalEffect_frame (h : applyGoalEffect db a fromState toState trigger = .ok db') :
    GoalFrame db db' := by
  unfold applyGoalEffect at h
  split_ifs at h
  · obtain rfl := by simpa using h
    exact creditCurrentGoal_frame
  · obtain rfl := by simpa using h
    exact GoalFrame.refl _
  · obtain rfl := by simpa using h
    exact GoalFrame.refl _
  · exact uncredit_frame h
  · obtain rfl := by simpa using h
    exact GoalFrame.refl _

/-- The goal effect writes the credit of the moved assignment. -/
theorem applyGoalEffect_assignments (h : applyGoalEffect db a fromState toState trigger = .ok db')
    (hc : ∀ b ∈ db.assignments, b.clientId = a.clientId →
      b.creditedHistoryRecordId = a.creditedHistoryRecordId) :
    db'.assignments = updateWhere (fun b => b.clientId == a.clientId)
      (credited (currentGoalRecordId db a.stockReportItemId) fromState toState)
      db.assignments := by
  have hid : ∀ f : StockTaskAssignment → StockTaskAssignment,
      (∀ b ∈ db.assignments, b.clientId = a.clientId → f b = b) →
      db.assignments = updateWhere (fun b => b.clientId == a.clientId) f db.assignments := by
    intro f hf
    rw [updateWhere]
    conv_lhs => rw [← List.map_id db.assignments]
    refine List.map_congr_left fun b hb => ?_
    by_cases hb' : b.clientId = a.clientId
    · simp [hb', hf b hb hb']
    · simp [hb']
  change db'.assignments = updateWhere _ (fun b => credited _ _ _ b) _
  unfold applyGoalEffect at h
  simp only [credited, creditAfter]
  split_ifs at h ⊢
  · obtain rfl := by simpa using h
    unfold creditCurrentGoal
    cases hg : currentGoalRecordId db a.stockReportItemId with
    | none => simpa using hid _ fun b _ _ => rfl
    | some goalId => simp [setCredit, addToGoal]
  · obtain rfl := by simpa using h
    exact hid _ fun b _ _ => rfl
  · obtain rfl := by simpa using h
    exact hid _ fun b _ _ => rfl
  · unfold uncredit at h
    cases hcredit : a.creditedHistoryRecordId with
    | none =>
      obtain rfl : db = db' := by simpa [hcredit] using h
      refine hid _ fun b hb hb' => ?_
      have hnone := (hc b hb hb').trans hcredit
      cases b
      simp only at hnone
      subst hnone
      rfl
    | some recordId =>
      simp only [hcredit] at h
      split at h
      · simp at h
      · split at h
        · obtain rfl := by simpa using h
          rfl
        · obtain rfl := by simpa using h
          rfl
  · obtain rfl := by simpa using h
    exact hid _ fun b _ _ => rfl

end Goals

section Snapshots

variable {db : Db} {a : StockTaskAssignment} {target : MoveTarget} {isCreation : Bool}

theorem clampMissing_frame (p : ItemSnapshot → Bool) : Frame db (clampMissing db p) := by
  refine { Frame.refl db with snapshots := ?_ }
  rw [clampMissing, List.map_map]
  refine List.map_congr_left fun s _ => ?_
  simp only [Function.comp_apply]
  split
  · rfl
  · split
    · rfl
    · rename_i missing hm
      split
      · simp [ItemSnapshot.withoutAmounts, hm]
      · rfl

theorem creditSnapshotResolved_frame (rowId : ClientId) (quantity : ℤ) :
    Frame db (creditSnapshotResolved db rowId quantity) := by
  unfold creditSnapshotResolved
  split
  · exact Frame.refl db
  · exact { Frame.refl db with snapshots := map_updateWhere_of_fixed fun _ _ _ => rfl }

theorem creditSnapshotResolved_writes (rowId : ClientId) (quantity : ℤ) :
    creditSnapshotResolved db rowId quantity =
      { db with snapshots := (creditSnapshotResolved db rowId quantity).snapshots } := by
  unfold creditSnapshotResolved
  split <;> rfl

theorem snapshotEffect_frame : Frame db (snapshotEffect db a target isCreation) := by
  unfold snapshotEffect
  split_ifs
  · exact clampMissing_frame _
  · exact creditSnapshotResolved_frame _ _
  · exact Frame.refl db

theorem snapshotEffect_writes : snapshotEffect db a target isCreation =
    { db with snapshots := (snapshotEffect db a target isCreation).snapshots } := by
  unfold snapshotEffect
  split_ifs
  · rfl
  · exact creditSnapshotResolved_writes _ _
  · rfl

end Snapshots

section Moves

variable {db db' : Db} {a : StockTaskAssignment} {target : MoveTarget} {trigger : String}
  {isCreation : Bool}

@[simp] theorem moved_clientId : (moved a target).clientId = a.clientId := by
  cases target <;> rfl

@[simp] theorem moved_stockReportItemId :
    (moved a target).stockReportItemId = a.stockReportItemId := by
  cases target <;> rfl

@[simp] theorem moved_quantity : (moved a target).quantity = a.quantity := by
  cases target <;> rfl

@[simp] theorem moved_credit :
    (moved a target).creditedHistoryRecordId = a.creditedHistoryRecordId := by
  cases target <;> rfl

/-- A move that is not the identity goes through the four writes. -/
theorem moveAssignment_eq_ok (hne : isCreation = true ∨ target ≠ .state a.state) :
    moveAssignment db a target trigger isCreation = .ok db' ↔
      assertAllowedMove (fromStateOf a isCreation) target = .ok () ∧
      ∃ counted afterGoal,
        applyCounterDelta (writeMoved db a target) a.stockReportItemId
          (deltaVector (fromStateOf a isCreation) target a.quantity) trigger = .ok counted ∧
        applyGoalEffect counted a (fromStateOf a isCreation) target trigger = .ok afterGoal ∧
        db' = snapshotEffect afterGoal a target isCreation := by
  have hif : ¬ (isCreation = false ∧ target = .state a.state) := by
    rintro ⟨hc, ht⟩
    rcases hne with hne | hne
    · simp [hc] at hne
    · exact hne ht
  rw [moveAssignment, if_neg hif]
  simp only [bind_eq_ok, pure, Except.pure, Except.ok.injEq]
  constructor
  · rintro ⟨_, ha, counted, hcount, afterGoal, hcredit, rfl⟩
    exact ⟨ha, counted, afterGoal, hcount, hcredit, rfl⟩
  · rintro ⟨ha, counted, afterGoal, hcount, hcredit, rfl⟩
    exact ⟨(), ha, counted, hcount, afterGoal, hcredit, rfl⟩

theorem moveAssignment_noop (hc : isCreation = false) (ht : target = .state a.state) :
    moveAssignment db a target trigger isCreation = .ok db := if_pos ⟨hc, ht⟩

theorem moveAssignment_frame (h : moveAssignment db a target trigger isCreation = .ok db') :
    Frame db db' := by
  by_cases hne : isCreation = false ∧ target = .state a.state
  · rw [moveAssignment_noop hne.1 hne.2] at h
    obtain rfl := by simpa using h
    exact Frame.refl db
  · have hne : isCreation = true ∨ target ≠ .state a.state := by
      rcases Bool.eq_false_or_eq_true isCreation with hc | hc
      · exact .inl hc
      · exact .inr fun ht => hne ⟨hc, ht⟩
    obtain ⟨-, counted, afterGoal, hcount, hcredit, rfl⟩ := (moveAssignment_eq_ok hne).mp h
    exact (((Frame.withAssignments _ _).trans (applyCounterDelta_frame hcount)).trans
      (applyGoalEffect_frame hcredit).toFrame).trans snapshotEffect_frame

theorem writeMoved_credit (hk : Keyed StockTaskAssignment.clientId db.assignments)
    (ha : a ∈ db.assignments) : ∀ b ∈ (writeMoved db a target).assignments,
      b.clientId = a.clientId → b.creditedHistoryRecordId = a.creditedHistoryRecordId := by
  intro b hb hid
  obtain ⟨x, hx, rfl⟩ := mem_updateWhere.mp hb
  have hxa : x.clientId = a.clientId := by
    by_cases hxa : x.clientId = a.clientId
    · exact hxa
    · simp [hxa] at hid
  obtain rfl := hk.inj hx ha hxa
  simp

theorem moveAssignment_assignments (hne : isCreation = true ∨ target ≠ .state a.state)
    (hk : Keyed StockTaskAssignment.clientId db.assignments) (ha : a ∈ db.assignments)
    (h : moveAssignment db a target trigger isCreation = .ok db') :
    db'.assignments = updateWhere (fun b => b.clientId == a.clientId)
      (fun b => credited (currentGoalRecordId db a.stockReportItemId) (fromStateOf a isCreation)
        target (moved b target)) db.assignments := by
  obtain ⟨-, counted, afterGoal, hcount, hcredit, rfl⟩ := (moveAssignment_eq_ok hne).mp h
  have hcounted : counted.assignments = (writeMoved db a target).assignments :=
    applyCounterDelta_assignments hcount
  have hgoal : currentGoalRecordId counted a.stockReportItemId =
      currentGoalRecordId db a.stockReportItemId := by
    rw [currentGoalRecordId, goalRecords, applyCounterDelta_histories hcount]
    rfl
  rw [snapshotEffect_writes]
  change afterGoal.assignments = _
  rw [applyGoalEffect_assignments hcredit (hcounted ▸ writeMoved_credit hk ha), hcounted, hgoal,
    writeMoved, updateWhere_updateWhere (by simp)]

end Moves

section ProcessedGroup

variable {db db' : Db} {rowId : ClientId} {trigger : String}

theorem processedTarget_ne (state : StockTaskAssignmentState) (h : state.isActive) :
    state ≠ processedTarget state := by
  cases state <;> simp [processedTarget, StockTaskAssignmentState.isActive] at h ⊢

theorem movedGroup_of_active {group : List StockTaskAssignment}
    (h : ∀ a ∈ group, a.state.isActive) : movedGroup group = group :=
  List.filter_eq_self.mpr fun a ha => by simpa using processedTarget_ne a.state (h a ha)

def writeProcessed (db : Db) (a : StockTaskAssignment) : Db :=
  writeMoved db a (.state (processedTarget a.state))

theorem resolveProcessedGroup_eq_ok {group : List StockTaskAssignment} (hne : group ≠ [])
    (hactive : ∀ a ∈ group, a.state.isActive)
    (h : resolveProcessedGroup db group rowId trigger = .ok db') :
    ∃ counted afterGoals,
      applyCounterDelta (group.foldl writeProcessed db) rowId (groupDelta group) trigger =
        .ok counted ∧
      group.foldlM (fun db a => applyGoalEffect db a (some a.state)
        (.state (processedTarget a.state)) trigger) counted = .ok afterGoals ∧
      db' = creditSnapshotResolved afterGoals rowId
        (total StockTaskAssignment.quantity group) := by
  rw [resolveProcessedGroup, movedGroup_of_active hactive] at h
  simp only [if_neg hne, bind_eq_ok, pure, Except.pure, Except.ok.injEq] at h
  obtain ⟨_, -, counted, hcount, afterGoals, hgoals, rfl⟩ := h
  exact ⟨counted, afterGoals, hcount, hgoals, rfl⟩

theorem foldl_writeProcessed {group : List StockTaskAssignment}
    (hg : Keyed StockTaskAssignment.clientId group) :
    group.foldl writeProcessed db = { db with
      assignments := updateFrom StockTaskAssignment.clientId StockTaskAssignment.clientId group
        (fun a b => moved b (.state (processedTarget a.state))) db.assignments } := by
  rw [← foldl_updateWhere hg (by simp)]
  clear hg
  induction group generalizing db with
  | nil => rfl
  | cons a group ih => rw [List.foldl_cons, ih]; rfl

theorem foldl_writeProcessed_credit {group : List StockTaskAssignment}
    (hk : Keyed StockTaskAssignment.clientId db.assignments)
    (hg : Keyed StockTaskAssignment.clientId group) (hmem : ∀ a ∈ group, a ∈ db.assignments) :
    ∀ a ∈ group, ∀ b ∈ (group.foldl writeProcessed db).assignments, b.clientId = a.clientId →
      b.creditedHistoryRecordId = a.creditedHistoryRecordId := by
  rw [foldl_writeProcessed hg, updateFrom_self hk hmem]
  intro a ha b hb hid
  obtain ⟨x, hx, rfl⟩ := mem_updateWhere.mp hb
  have hxa : x.clientId = a.clientId := by
    rw [← hid]
    split <;> simp
  obtain rfl := hk.inj hx (hmem a ha) hxa
  simp [ha]

theorem currentGoalRecordId_congr {rowId : ClientId}
    (h : db'.histories.map HistoryRecord.withoutAwaiting =
      db.histories.map HistoryRecord.withoutAwaiting) :
    currentGoalRecordId db' rowId = currentGoalRecordId db rowId := by
  have key : ∀ d : Db, (goalRecords d rowId).map HistoryRecord.withoutAwaiting =
      sortByDescending (fun h => toLex (h.createdAt, h.clientId))
        ((d.histories.map HistoryRecord.withoutAwaiting).filter fun h =>
          h.stockReportItemId == rowId && h.type == .quantityRequestedChange && !h.isDeleted) := by
    intro d
    rw [List.filter_map]
    exact map_sortByDescending HistoryRecord.withoutAwaiting _ fun _ => rfl
  have head : ∀ d : Db, currentGoalRecordId d rowId =
      ((goalRecords d rowId).map HistoryRecord.withoutAwaiting).head?.map
        HistoryRecord.clientId := by
    intro d
    rw [List.head?_map, Option.map_map]
    rfl
  rw [head, head, key, key, h]

/-- The goal effects of a group write the credits of its records. -/
theorem foldlM_goalEffect_assignments {goals : List StockTaskAssignment}
    (hg : Keyed StockTaskAssignment.clientId goals)
    (hrow : ∀ a ∈ goals, a.stockReportItemId = rowId)
    (hc : ∀ a ∈ goals, ∀ b ∈ db.assignments, b.clientId = a.clientId →
      b.creditedHistoryRecordId = a.creditedHistoryRecordId)
    (h : goals.foldlM (fun db a => applyGoalEffect db a (some a.state)
        (.state (processedTarget a.state)) trigger) db = .ok db') :
    GoalFrame db db' ∧ db'.assignments =
      updateFrom StockTaskAssignment.clientId StockTaskAssignment.clientId goals
        (fun a => credited (currentGoalRecordId db rowId) (some a.state)
          (.state (processedTarget a.state))) db.assignments := by
  rw [← foldl_updateWhere hg (by intro _ _; rfl)]
  induction goals generalizing db with
  | nil =>
    obtain rfl : db = db' := by simpa [pure, Except.pure] using h
    exact ⟨GoalFrame.refl db, rfl⟩
  | cons a goals ih =>
    obtain ⟨db₁, ha, h⟩ := foldlM_cons_eq_ok.mp h
    obtain ⟨hnotin, hg⟩ := List.nodup_cons.mp
      (show (a.clientId :: goals.map StockTaskAssignment.clientId).Nodup from hg)
    have hframe := applyGoalEffect_frame ha
    have hassign := applyGoalEffect_assignments ha (hc a List.mem_cons_self)
    have hc' : ∀ b ∈ goals, ∀ x ∈ db₁.assignments, x.clientId = b.clientId →
        x.creditedHistoryRecordId = b.creditedHistoryRecordId := by
      intro b hb x hx hid
      obtain ⟨y, hy, rfl⟩ := mem_updateWhere.mp (hassign ▸ hx)
      have hya : y.clientId ≠ a.clientId := by
        intro hya
        have : b.clientId = a.clientId := by rw [← hid, ← hya]; split <;> rfl
        exact hnotin (this ▸ List.mem_map_of_mem hb)
      simp only [hya, beq_iff_eq, if_false] at hid ⊢
      exact hc b (List.mem_cons_of_mem a hb) y hy hid
    obtain ⟨hframe', hassign'⟩ := ih hg (fun b hb => hrow b (List.mem_cons_of_mem a hb)) hc' h
    refine ⟨hframe.trans hframe', ?_⟩
    rw [hassign', hassign, currentGoalRecordId_congr hframe.histories, List.foldl_cons,
      hrow a List.mem_cons_self]

/-- The records of the assignments after a group is resolved. -/
theorem resolveProcessedGroup_assignments {group : List StockTaskAssignment} (hne : group ≠ [])
    (hactive : ∀ a ∈ group, a.state.isActive)
    (hk : Keyed StockTaskAssignment.clientId db.assignments)
    (hg : Keyed StockTaskAssignment.clientId group) (hmem : ∀ a ∈ group, a ∈ db.assignments)
    (hrow : ∀ a ∈ group, a.stockReportItemId = rowId)
    (h : resolveProcessedGroup db group rowId trigger = .ok db') :
    Frame db db' ∧ db'.assignments = updateWhere (fun b => decide (b ∈ group))
      (fun b => credited (currentGoalRecordId db rowId) (some b.state)
        (.state (processedTarget b.state)) (moved b (.state (processedTarget b.state))))
      db.assignments := by
  obtain ⟨counted, afterGoals, hcount, hgoals, rfl⟩ := resolveProcessedGroup_eq_ok hne hactive h
  have hcredit := applyCounterDelta_assignments hcount ▸ foldl_writeProcessed_credit hk hg hmem
  rw [foldl_writeProcessed hg] at hcount
  have hframe : Frame db counted :=
    (Frame.withAssignments _ db.repairs).trans (applyCounterDelta_frame hcount)
  obtain ⟨hgoalFrame, hassign⟩ := foldlM_goalEffect_assignments hg hrow hcredit hgoals
  refine ⟨(hframe.trans hgoalFrame.toFrame).trans (creditSnapshotResolved_frame _ _), ?_⟩
  rw [creditSnapshotResolved_writes]
  change afterGoals.assignments = _
  rw [hassign, applyCounterDelta_assignments hcount,
    updateFrom_updateFrom fun _ _ => moved_clientId,
    updateFrom_self hk hmem, currentGoalRecordId_congr hframe.histories]

end ProcessedGroup

end BeyoManager.StockReport
