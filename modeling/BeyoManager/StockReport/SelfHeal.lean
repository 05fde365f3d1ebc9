import BeyoManager.StockReport.Counters

/-! # The self-heal of a counter update

Outside the commands of the report the counters of a row can drift. A move pays its delta
while no counter gets negative; otherwise it writes the sums over the assignments, in which
the move already counts, with a repair record for each counter that had drifted.
-/

namespace BeyoManager.StockReport

open Relational Transition

/-- What moves through the counters of one row: an assignment, or a group that was processed. -/
inductive Move
  | assignment (assignment : StockTaskAssignment) (target : MoveTarget) (isCreation : Bool)
  | processed (assignments : List StockTaskAssignment) (rowId : ClientId)

namespace Move

/-- The row whose counters move. -/
def rowId : Move → ClientId
  | assignment a _ _ => a.stockReportItemId
  | processed _ rowId => rowId

/-- The move is none that is left out, and no error stops it. -/
def Allowed : Move → Prop
  | assignment a target isCreation =>
    ¬ (isCreation = false ∧ target = .state a.state) ∧
      assertAllowedMove (fromStateOf a isCreation) target = .ok ()
  | processed assignments _ =>
    movedGroup assignments ≠ [] ∧ ∀ a ∈ movedGroup assignments,
      assertAllowedMove (some a.state) (.state (processedTarget a.state)) = .ok ()

/-- The records when the counters are updated: the own columns of the assignments are written. -/
def written (db : Db) : Move → Db
  | assignment a target _ => writeMoved db a target
  | processed assignments _ => (movedGroup assignments).foldl writeProcessed db

def delta : Move → Counters
  | assignment a target isCreation => deltaVector (fromStateOf a isCreation) target a.quantity
  | processed assignments _ => groupDelta (movedGroup assignments)

/-- The counter update of the move. -/
def updateCounters (db : Db) (m : Move) (trigger : String) : Except CommandError Db :=
  applyCounterDelta (m.written db) m.rowId m.delta trigger

def Stored (db : Db) : Move → Prop
  | assignment a _ isCreation => isCreation = false ∧ a ∈ db.assignments ∧ a.isDeleted = false
  | processed assignments rowId => Keyed StockTaskAssignment.clientId (movedGroup assignments) ∧
      ∀ a ∈ movedGroup assignments,
        a ∈ db.assignments ∧ a.isDeleted = false ∧ a.stockReportItemId = rowId

/-- The move with all its steps. -/
def execute (db : Db) (m : Move) (trigger : String) : Except CommandError Db :=
  match m with
  | assignment a target isCreation => moveAssignment db a target trigger isCreation
  | processed assignments rowId => resolveProcessedGroup db assignments rowId trigger

end Move

section Columns

def counterColumns : List (String × (Counters → ℤ)) :=
  [("quantity_in_queue", Counters.quantityInQueue),
   ("quantity_in_progress", Counters.quantityInProgress),
   ("quantity_awaiting", Counters.quantityAwaiting)]

def unitSums (db : Db) (rowId : ClientId) : Counters :=
  ⟨unitsIn db rowId .inQueue, unitsIn db rowId .inProgress, unitsIn db rowId .awaiting⟩

/-- One repair record for each column whose stored value with the delta is not the recomputed one,
and no other record. -/
structure Repairs (rowId : ClientId) (trigger : String) (stored delta recomputed : Counters)
    (records : List RepairRecord) : Prop where
  drifted : ∀ column ∈ counterColumns, (∃ r ∈ records, r.field = column.1) ↔
    column.2 stored + column.2 delta ≠ column.2 recomputed
  once : (records.map RepairRecord.field).Nodup
  names : ∀ r ∈ records, ∃ column ∈ counterColumns,
    r = repairRecord .stockReportItem rowId column.1 (column.2 stored) (column.2 recomputed)
      s!"inline:{trigger}"

/-- What a counter update does to a row whose stored counters may have drifted: it adds the delta,
or it writes the sums and the repair records. -/
def Updates (db : Db) (m : Move) (trigger : String) (row : StockReportItem) (updated : Db) :
    Prop :=
  ∃ counters : Counters, updated.rows = (setRowCounters db m.rowId counters).rows ∧
    updated.assignments = (m.written db).assignments ∧ counters.Nonneg ∧
    (counters = row.counters + m.delta ∧ updated.repairs = db.repairs ∨
      counters = unitSums updated m.rowId ∧ ∃ records,
        updated.repairs = db.repairs ++ records ∧
        Repairs m.rowId trigger row.counters m.delta counters records)

end Columns

section Sums

variable {db : Db} {rowId : ClientId}

theorem recomputeRowCounters_eq : recomputeRowCounters db rowId = unitSums db rowId := by
  rw [unitSums, ← total_contribution, recomputeRowCounters, total_filter]
  apply total_congr
  intro a _
  by_cases hrow : a.stockReportItemId = rowId ∧ a.isDeleted = false
  · cases hs : a.state <;>
      simp [contribution, hrow, hs, stateCounters, StockTaskAssignmentState.isActive]
  · have : (a.stockReportItemId == rowId && !a.isDeleted && a.state.isActive) = false := by
      by_contra h
      simp only [Bool.not_eq_false, Bool.and_eq_true, beq_iff_eq, Bool.not_eq_true'] at h
      exact hrow h.1
    simp [contribution, hrow, this]

theorem unitSums_nonneg (h : ∀ a ∈ db.assignments, 0 ≤ a.quantity) :
    (unitSums db rowId).Nonneg := by
  rw [unitSums, ← total_contribution]
  exact total_contribution_nonneg h

theorem writeMoved_quantity_nonneg {a : StockTaskAssignment} {target : MoveTarget}
    (h : ∀ b ∈ db.assignments, 0 ≤ b.quantity) :
    ∀ b ∈ (writeMoved db a target).assignments, 0 ≤ b.quantity := by
  intro b hb
  obtain ⟨x, hx, rfl⟩ := mem_updateWhere.mp hb
  split
  · rw [moved_quantity]
    exact h x hx
  · exact h x hx

theorem written_quantity_nonneg (m : Move) (h : ∀ a ∈ db.assignments, 0 ≤ a.quantity) :
    ∀ a ∈ (m.written db).assignments, 0 ≤ a.quantity := by
  cases m with
  | assignment a target isCreation => exact writeMoved_quantity_nonneg h
  | processed assignments rowId =>
    rw [Move.written]
    induction movedGroup assignments generalizing db with
    | nil => exact h
    | cons a group ih => exact ih (writeMoved_quantity_nonneg h)

theorem written_rows (m : Move) : (m.written db).rows = db.rows ∧
    (m.written db).repairs = db.repairs := by
  cases m with
  | assignment a target isCreation => exact ⟨rfl, rfl⟩
  | processed assignments rowId =>
    rw [Move.written]
    induction movedGroup assignments generalizing db with
    | nil => exact ⟨rfl, rfl⟩
    | cons a group ih => exact @ih (writeProcessed db a)

end Sums

section Repairs

variable {rowId : ClientId} {trigger : String} {stored delta recomputed : Counters}

def columnRepair (rowId : ClientId) (stored recomputed : Counters) (trigger : String)
    (column : String × (Counters → ℤ)) : RepairRecord :=
  repairRecord .stockReportItem rowId column.1 (column.2 stored) (column.2 recomputed)
    s!"inline:{trigger}"

theorem counterRepairs_eq : counterRepairs rowId stored delta recomputed trigger =
    (counterColumns.filter fun c => c.2 stored + c.2 delta ≠ c.2 recomputed).map
      (columnRepair rowId stored recomputed trigger) := by
  simp only [counterRepairs, counterColumns, List.filterMap_cons, List.filter_cons,
    List.filterMap_nil, List.filter_nil, decide_eq_true_eq]
  split_ifs <;> rfl

/-- The self-heal reports what it repairs. -/
theorem counterRepairs_repairs : Repairs rowId trigger stored delta recomputed
    (counterRepairs rowId stored delta recomputed trigger) where
  drifted := by
    intro column hcolumn
    rw [counterRepairs_eq]
    constructor
    · rintro ⟨r, hr, hfield⟩
      obtain ⟨c, hc, rfl⟩ := List.mem_map.mp hr
      obtain ⟨hc, hdrift⟩ := List.mem_filter.mp hc
      have hkeyed : Keyed Prod.fst counterColumns := by decide
      obtain rfl := hkeyed.inj hc hcolumn hfield
      exact of_decide_eq_true hdrift
    · intro hdrift
      exact ⟨_, List.mem_map_of_mem (List.mem_filter.mpr ⟨hcolumn, decide_eq_true hdrift⟩), rfl⟩
  once := by
    rw [counterRepairs_eq, List.map_map]
    exact (List.filter_sublist.map _).nodup
      (by decide : (counterColumns.map Prod.fst).Nodup)
  names := by
    intro r hr
    rw [counterRepairs_eq] at hr
    obtain ⟨c, hc, rfl⟩ := List.mem_map.mp hr
    exact ⟨c, List.mem_of_mem_filter hc, rfl⟩

end Repairs

section Updates

variable {db db' : Db} {m : Move} {trigger : String} {row : StockReportItem}

theorem updateCounters_updates (hquantity : ∀ a ∈ db.assignments, 0 ≤ a.quantity)
    (hrow : db.row? m.rowId = some row) :
    ∃ updated, m.updateCounters db trigger = .ok updated ∧
      Updates db m trigger row updated := by
  have hwritten : (m.written db).rows = db.rows ∧ _ := written_rows m
  obtain ⟨hrows, hrepairs⟩ := hwritten
  have hrow' : (m.written db).row? m.rowId = some row := by rw [Db.row?, hrows]; exact hrow
  rw [Move.updateCounters, applyCounterDelta, hrow']
  by_cases hn : (row.counters + m.delta).Nonneg
  · refine ⟨_, if_pos hn, row.counters + m.delta, ?_, rfl, hn, .inl ⟨rfl, hrepairs⟩⟩
    simp only [setRowCounters, hrows]
  · refine ⟨_, if_neg hn, recomputeRowCounters (m.written db) m.rowId, ?_, rfl, ?_, .inr ⟨?_, ?_⟩⟩
    · simp only [setRowCounters, hrows]
    · rw [recomputeRowCounters_eq]
      exact unitSums_nonneg (written_quantity_nonneg m hquantity)
    · exact recomputeRowCounters_eq
    · refine ⟨_, ?_, counterRepairs_repairs⟩
      rw [hrepairs]

theorem foldlM_goalEffect_frame {group : List StockTaskAssignment}
    (h : group.foldlM (fun db a => applyGoalEffect db a (some a.state)
      (.state (processedTarget a.state)) trigger) db = .ok db') : GoalFrame db db' := by
  induction group generalizing db with
  | nil =>
    cases h
    exact GoalFrame.refl _
  | cons a group ih =>
    rw [List.foldlM_cons] at h
    obtain ⟨afterGoal, hgoal, h⟩ := bind_eq_ok.mp h
    exact (applyGoalEffect_frame hgoal).trans (ih h)

/-- The steps of a move after its counter update leave the rows and their repair records. -/
theorem execute_rows (hallowed : m.Allowed) (h : m.execute db trigger = .ok db') :
    ∃ updated, m.updateCounters db trigger = .ok updated ∧ db'.rows = updated.rows ∧
      rowRepairs db' = rowRepairs updated := by
  cases m with
  | assignment a target isCreation =>
    have hne : isCreation = true ∨ target ≠ .state a.state := by
      cases isCreation with
      | true => exact .inl rfl
      | false => exact .inr fun ht => hallowed.1 ⟨rfl, ht⟩
    obtain ⟨-, counted, afterGoal, hcount, hgoal, rfl⟩ := (moveAssignment_eq_ok hne).mp h
    have hframe := applyGoalEffect_frame hgoal
    refine ⟨counted, hcount, ?_, ?_⟩
    · rw [snapshotEffect_writes]
      exact hframe.rows_eq
    · rw [snapshotEffect_writes]
      exact hframe.repairs_eq
  | processed assignments rowId =>
    rw [Move.execute, resolveProcessedGroup] at h
    simp only [if_neg hallowed.1, bind_eq_ok, pure, Except.pure, Except.ok.injEq] at h
    obtain ⟨_, -, counted, hcount, afterGoals, hgoals, rfl⟩ := h
    have hframe := foldlM_goalEffect_frame hgoals
    refine ⟨counted, hcount, ?_, ?_⟩
    · rw [creditSnapshotResolved_writes]
      exact hframe.rows_eq
    · rw [creditSnapshotResolved_writes]
      exact hframe.repairs_eq

/-- The counter update of every allowed move leaves counters that are not negative: it pays the
delta, or it heals the row with a repair record for exactly the columns that had drifted. The
rest of the move leaves the rows and these records alone. -/
theorem counter_update_heals (db : Db) (m : Move) (trigger : String) (hallowed : m.Allowed)
    (hquantity : ∀ a ∈ db.assignments, 0 ≤ a.quantity) (row : StockReportItem)
    (hrow : db.row? m.rowId = some row) :
    ∃ updated, m.updateCounters db trigger = .ok updated ∧ Updates db m trigger row updated ∧
      ∀ db', m.execute db trigger = .ok db' →
        db'.rows = updated.rows ∧ rowRepairs db' = rowRepairs updated := by
  have hupdated : ∃ updated, m.updateCounters db trigger = .ok updated ∧
      Updates db m trigger row updated := updateCounters_updates hquantity hrow
  obtain ⟨updated, hupdate, hupdates⟩ := hupdated
  refine ⟨updated, hupdate, hupdates, fun db' h => ?_⟩
  obtain ⟨counted, hcount, hsame⟩ := execute_rows hallowed h
  rw [hupdate] at hcount
  cases hcount
  exact hsame

/-- Two units in progress that no assignment stands for, and one in the queue that is missing. -/
def driftedShelf : Db :=
  { shelfWorkspace with
    rows := [⟨"sri_1", "cat_1", "{}", "sig", 5, ⟨0, 2, 0⟩, false⟩]
    assignments := [⟨"sta_1", "sri_1", "tsk_1", "itm_1", none, 1, false, .inQueue, false⟩] }

def shelfMove : Move :=
  .assignment ⟨"sta_1", "sri_1", "tsk_1", "itm_1", none, 1, false, .inQueue, false⟩
    (.state .inProgress) false

theorem counter_update_heals_shelf :
    ∃ updated, shelfMove.updateCounters driftedShelf "sync" = .ok updated ∧
      Updates driftedShelf shelfMove "sync"
        ⟨"sri_1", "cat_1", "{}", "sig", 5, ⟨0, 2, 0⟩, false⟩ updated ∧
      ∀ db', shelfMove.execute driftedShelf "sync" = .ok db' →
        db'.rows = updated.rows ∧ rowRepairs db' = rowRepairs updated :=
  counter_update_heals driftedShelf shelfMove "sync" ⟨by decide, rfl⟩ (by decide) _ rfl

example : (shelfMove.updateCounters driftedShelf "sync").map (fun db =>
    (db.rows.map StockReportItem.counters, db.repairs.map RepairRecord.field)) =
      .ok ([⟨0, 1, 0⟩], ["quantity_in_queue", "quantity_in_progress"]) := by decide +kernel

end Updates

section Drift

variable {db : Db} {m : Move} {row : StockReportItem}

/-- What the rows of any records are owed: the sums, less what they store. -/
def driftOf (db : Db) (rowId : ClientId) : Counters :=
  match db.row? rowId with
  | some row => total (contribution rowId) db.assignments - row.counters
  | none => 0

theorem counterInv_driftOf (hrows : Keyed StockReportItem.clientId db.rows)
    (hassignments : Keyed StockTaskAssignment.clientId db.assignments)
    (hrow : ∀ a ∈ db.assignments, ∃ r ∈ db.rows, r.clientId = a.stockReportItemId)
    (hquantity : ∀ a ∈ db.assignments, 0 ≤ a.quantity) :
    CounterInv (rowRepairs db) (driftOf db) db where
  rows_keyed := hrows
  assignments_keyed := hassignments
  row_of_assignment := hrow
  quantity_nonneg := hquantity
  counters_eq r hr := by
    have hfind : db.row? r.clientId = some r := hrows.find?_eq hr
    simp only [driftOf, hfind, add_sub_cancel]
  repairs_eq := rfl

/-- The sums see the move once: what the assignments contribute changes by the delta. -/
theorem unitSums_written (hrows : Keyed StockReportItem.clientId db.rows)
    (hassignments : Keyed StockTaskAssignment.clientId db.assignments)
    (hfk : ∀ a ∈ db.assignments, ∃ r ∈ db.rows, r.clientId = a.stockReportItemId)
    (hquantity : ∀ a ∈ db.assignments, 0 ≤ a.quantity) (hstored : m.Stored db)
    (hrow : db.row? m.rowId = some row) :
    unitSums (m.written db) m.rowId = unitSums db m.rowId + m.delta := by
  have hinv := counterInv_driftOf hrows hassignments hfk hquantity
  have hwritten : CounterInv (rowRepairs db) (driftOf db + owedTo m.rowId m.delta)
      (m.written db) := by
    cases m with
    | assignment a target isCreation =>
      obtain ⟨rfl, hmem, hlive⟩ := hstored
      exact hinv.writeMoved hmem hlive target
    | processed assignments rowId =>
      obtain ⟨hkeyed, hgroup⟩ := hstored
      exact hinv.foldl_writeProcessed hkeyed (fun a ha => (hgroup a ha).1)
        (fun a ha => (hgroup a ha).2.1) (fun a ha => (hgroup a ha).2.2)
  obtain ⟨hmem, hid⟩ := mem_of_find?_key hrow
  have hbefore := hinv.counters_eq row hmem
  have hafter := hwritten.counters_eq row (by rwa [(written_rows m).1])
  rw [Pi.add_apply, ← add_assoc, hbefore, hid, owedTo, if_pos rfl] at hafter
  rw [unitSums, unitSums, ← total_contribution, ← total_contribution, hafter]

theorem repaired_iff_drifted (hrows : Keyed StockReportItem.clientId db.rows)
    (hassignments : Keyed StockTaskAssignment.clientId db.assignments)
    (hfk : ∀ a ∈ db.assignments, ∃ r ∈ db.rows, r.clientId = a.stockReportItemId)
    (hquantity : ∀ a ∈ db.assignments, 0 ≤ a.quantity) (hstored : m.Stored db)
    (hrow : db.row? m.rowId = some row) {column : String × (Counters → ℤ)}
    (hcolumn : column ∈ counterColumns) :
    column.2 row.counters + column.2 m.delta ≠ column.2 (unitSums (m.written db) m.rowId) ↔
      column.2 row.counters ≠ column.2 (unitSums db m.rowId) := by
  rw [unitSums_written hrows hassignments hfk hquantity hstored hrow]
  simp only [counterColumns, List.mem_cons, List.not_mem_nil, or_false] at hcolumn
  rcases hcolumn with rfl | rfl | rfl
  all_goals exact not_congr (add_left_inj _)

end Drift

end BeyoManager.StockReport
