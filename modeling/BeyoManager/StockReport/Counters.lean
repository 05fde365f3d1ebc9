import BeyoManager.StockReport.CommandSteps

/-! # The counters of the rows

The three counters of a row are a cache of sums over its assignments. In the middle
of a move a row is owed a delta; every step pays what it owes, so after every command
the cache is exact and the self-heal of the counter update never runs.
-/

namespace BeyoManager.StockReport

open Relational Transition Sorting

def contribution (rowId : ClientId) (a : StockTaskAssignment) : Counters :=
  if a.stockReportItemId = rowId ∧ a.isDeleted = false then stateCounters a.state a.quantity else 0

/-- The repair records about counters of rows. -/
def rowRepairs (db : Db) : List RepairRecord :=
  db.repairs.filter fun r => r.targetKind == .stockReportItem

def owedTo (rowId : ClientId) (delta : Counters) (k : ClientId) : Counters :=
  if k = rowId then delta else 0

/-- With what the rows are owed, their counters are the sums of the contributions. -/
structure CounterInv (repairs : List RepairRecord) (owed : ClientId → Counters) (db : Db) :
    Prop where
  rows_keyed : Keyed StockReportItem.clientId db.rows
  assignments_keyed : Keyed StockTaskAssignment.clientId db.assignments
  row_of_assignment : ∀ a ∈ db.assignments, ∃ r ∈ db.rows, r.clientId = a.stockReportItemId
  quantity_nonneg : ∀ a ∈ db.assignments, 0 ≤ a.quantity
  counters_eq : ∀ r ∈ db.rows,
    r.counters + owed r.clientId = total (contribution r.clientId) db.assignments
  repairs_eq : rowRepairs db = repairs

section Contributions

variable {a : StockTaskAssignment} {rowId : ClientId}

theorem stateCounters_nonneg {state : StockTaskAssignmentState} {quantity : ℤ}
    (h : 0 ≤ quantity) : (stateCounters state quantity).Nonneg := by
  cases state <;> simp [stateCounters, Counters.Nonneg, h]

theorem contribution_nonneg (h : 0 ≤ a.quantity) : (contribution rowId a).Nonneg := by
  unfold contribution
  split
  · exact stateCounters_nonneg h
  · exact Counters.nonneg_zero

theorem total_contribution_nonneg {t : List StockTaskAssignment}
    (h : ∀ a ∈ t, 0 ≤ a.quantity) : (total (contribution rowId) t).Nonneg := by
  induction t with
  | nil => exact Counters.nonneg_zero
  | cons a t ih =>
    rw [total_cons]
    exact (contribution_nonneg (h a List.mem_cons_self)).add
      (ih fun b hb => h b (List.mem_cons_of_mem a hb))

theorem contribution_moved (hlive : a.isDeleted = false) (target : MoveTarget) :
    contribution rowId (moved a target) - contribution rowId a =
      owedTo a.stockReportItemId (deltaVector (some a.state) target a.quantity) rowId := by
  by_cases hrow : a.stockReportItemId = rowId
  · cases target <;> simp [contribution, moved, hrow, hlive, owedTo, deltaVector]
  · cases target <;> simp [contribution, moved, hrow, owedTo, Ne.symm hrow]

theorem deltaVector_processed {state : StockTaskAssignmentState} {quantity : ℤ} :
    deltaVector (some state) (.state (processedTarget state)) quantity =
      -stateCounters state quantity := by
  cases state <;> simp [deltaVector, processedTarget, stateCounters]

theorem owedTo_add {delta delta' : Counters} :
    owedTo rowId delta + owedTo rowId delta' = owedTo rowId (delta + delta') := by
  funext k
  by_cases h : k = rowId <;> simp [owedTo, h]

end Contributions

section Writes

variable {repairs : List RepairRecord} {owed : ClientId → Counters} {db db' : Db}
  {a : StockTaskAssignment} {rowId : ClientId} {delta : Counters} {trigger : String}

/-- The counters do not see the credits of the assignments. -/
theorem CounterInv.congr {g : StockTaskAssignment → StockTaskAssignment}
    (hi : CounterInv repairs owed db) (hrows : db'.rows = db.rows)
    (hassign : db'.assignments = db.assignments.map g)
    (hg : ∀ b, (g b).clientId = b.clientId ∧ (g b).stockReportItemId = b.stockReportItemId ∧
      (g b).quantity = b.quantity ∧ ∀ k, contribution k (g b) = contribution k b)
    (hrepairs : rowRepairs db' = rowRepairs db) : CounterInv repairs owed db' where
  rows_keyed := hrows ▸ hi.rows_keyed
  assignments_keyed := hi.assignments_keyed.of_map_eq <| by
    rw [hassign, List.map_map]
    exact List.map_congr_left fun b _ => (hg b).1
  row_of_assignment b hb := by
    obtain ⟨x, hx, rfl⟩ := List.mem_map.mp (hassign ▸ hb)
    rw [hrows, (hg x).2.1]
    exact hi.row_of_assignment x hx
  quantity_nonneg b hb := by
    obtain ⟨x, hx, rfl⟩ := List.mem_map.mp (hassign ▸ hb)
    rw [(hg x).2.2.1]
    exact hi.quantity_nonneg x hx
  counters_eq r hr := by
    have : total (contribution r.clientId) db'.assignments =
        total (contribution r.clientId) db.assignments := by
      rw [total, hassign, List.map_map]
      exact congrArg List.sum (List.map_congr_left fun b _ => (hg b).2.2.2 r.clientId)
    rw [this]
    exact hi.counters_eq r (hrows ▸ hr)
  repairs_eq := hrepairs.trans hi.repairs_eq

theorem CounterInv.of_eq (hi : CounterInv repairs owed db) (hrows : db'.rows = db.rows)
    (hassign : db'.assignments = db.assignments) (hrepairs : db'.repairs = db.repairs) :
    CounterInv repairs owed db' where
  rows_keyed := hrows ▸ hi.rows_keyed
  assignments_keyed := hassign ▸ hi.assignments_keyed
  row_of_assignment := hassign ▸ hrows ▸ hi.row_of_assignment
  quantity_nonneg := hassign ▸ hi.quantity_nonneg
  counters_eq := hassign ▸ hrows ▸ hi.counters_eq
  repairs_eq := by rw [rowRepairs, hrepairs]; exact hi.repairs_eq

/-- Writing a live assignment leaves its row owed the delta of the move. -/
theorem CounterInv.writeMoved (hi : CounterInv repairs owed db) (hmem : a ∈ db.assignments)
    (hlive : a.isDeleted = false) (target : MoveTarget) :
    CounterInv repairs
      (owed + owedTo a.stockReportItemId (deltaVector (some a.state) target a.quantity))
      (writeMoved db a target) where
  rows_keyed := hi.rows_keyed
  assignments_keyed := keyed_update hi.assignments_keyed fun _ _ _ => moved_clientId
  row_of_assignment b hb := by
    obtain ⟨x, hx, rfl⟩ := mem_updateWhere.mp hb
    split
    · rw [moved_stockReportItemId]
      exact hi.row_of_assignment x hx
    · exact hi.row_of_assignment x hx
  quantity_nonneg b hb := by
    obtain ⟨x, hx, rfl⟩ := mem_updateWhere.mp hb
    split
    · rw [moved_quantity]
      exact hi.quantity_nonneg x hx
    · exact hi.quantity_nonneg x hx
  counters_eq r hr := by
    have htotal := hi.assignments_keyed.total_update hmem (fun b => moved b target)
      (w := contribution r.clientId)
    rw [contribution_moved hlive] at htotal
    rw [StockReport.writeMoved, htotal, ← hi.counters_eq r hr, Pi.add_apply, add_assoc]
  repairs_eq := hi.repairs_eq

/-- Under the invariant a counter update never heals: it pays what is owed. -/
theorem CounterInv.pay (hi : CounterInv repairs (owedTo rowId delta) db)
    (h : applyCounterDelta db rowId delta trigger = .ok db') :
    CounterInv repairs 0 db' ∧
      ∃ row, db.row? rowId = some row ∧ db' = setRowCounters db rowId (row.counters + delta) := by
  obtain ⟨row, hrow, hcases⟩ := applyCounterDelta_cases h
  obtain ⟨hmem, rfl⟩ := mem_of_find?_key hrow
  have hsum := hi.counters_eq row hmem
  simp only [owedTo, if_true] at hsum
  have hnonneg : (row.counters + delta).Nonneg :=
    hsum ▸ total_contribution_nonneg hi.quantity_nonneg
  obtain ⟨-, rfl⟩ | ⟨hneg, -⟩ := hcases
  · refine ⟨⟨keyed_update hi.rows_keyed fun _ _ _ => rfl, hi.assignments_keyed, fun a ha => ?_,
      hi.quantity_nonneg, fun r hr => ?_, hi.repairs_eq⟩, row, hrow, rfl⟩
    · obtain ⟨r, hr, hid⟩ := hi.row_of_assignment a ha
      refine ⟨_, mem_updateWhere_of_mem hr, ?_⟩
      split <;> exact hid
    · obtain ⟨x, hx, rfl⟩ := mem_updateWhere.mp hr
      have := hi.counters_eq x hx
      by_cases hxr : x.clientId = row.clientId
      · obtain rfl := hi.rows_keyed.inj hx hmem hxr
        simpa [setRowCounters] using hsum
      · simpa [hxr, owedTo, setRowCounters] using this
  · exact absurd hnonneg hneg

theorem CounterInv.goalEffect {fromState : Option StockTaskAssignmentState}
    {toState : MoveTarget} (hi : CounterInv repairs owed db)
    (hc : ∀ b ∈ db.assignments, b.clientId = a.clientId →
      b.creditedHistoryRecordId = a.creditedHistoryRecordId)
    (h : applyGoalEffect db a fromState toState trigger = .ok db') :
    CounterInv repairs owed db' := by
  have hframe := applyGoalEffect_frame h
  refine hi.congr hframe.rows_eq (applyGoalEffect_assignments h hc) (fun b => ?_) hframe.repairs_eq
  split <;> exact ⟨rfl, rfl, rfl, fun _ => rfl⟩

theorem CounterInv.snapshotEffect (hi : CounterInv repairs owed db) (target : MoveTarget)
    (isCreation : Bool) : CounterInv repairs owed (snapshotEffect db a target isCreation) := by
  rw [snapshotEffect_writes]
  exact hi.of_eq rfl rfl rfl

theorem CounterInv.creditSnapshotResolved (hi : CounterInv repairs owed db) (quantity : ℤ) :
    CounterInv repairs owed (creditSnapshotResolved db rowId quantity) := by
  rw [creditSnapshotResolved_writes]
  exact hi.of_eq rfl rfl rfl

/-- A new live assignment leaves its row owed its contribution. -/
theorem CounterInv.insert {inserted : Db} (hi : CounterInv repairs 0 db)
    (hquantity : 0 ≤ a.quantity) (hlive : a.isDeleted = false)
    (hrow : ∃ r ∈ db.rows, r.clientId = a.stockReportItemId)
    (hinsert : insertAssignment db a = .ok inserted) :
    CounterInv repairs (owedTo a.stockReportItemId (stateCounters a.state a.quantity))
      inserted := by
  obtain ⟨hk, rfl⟩ := insertAssignment_eq_ok hinsert
  have hmem : ∀ {b}, b ∈ db.assignments ++ [a] ↔ b ∈ db.assignments ∨ b = a := by simp
  refine ⟨hi.rows_keyed, hk, fun b hb => ?_, fun b hb => ?_, fun r hr => ?_, hi.repairs_eq⟩
  · rcases hmem.mp hb with hb | rfl
    · exact hi.row_of_assignment b hb
    · exact hrow
  · rcases hmem.mp hb with hb | rfl
    · exact hi.quantity_nonneg b hb
    · exact hquantity
  · have := hi.counters_eq r hr
    rw [Pi.zero_apply, add_zero] at this
    rw [total_append, ← this, total_cons, total_nil, add_zero]
    by_cases hra : r.clientId = a.stockReportItemId
    · simp [owedTo, contribution, hra, hlive]
    · simp [owedTo, contribution, hra, Ne.symm hra]

/-- The writes of a group leave its row owed the delta of the group. -/
theorem CounterInv.foldl_writeProcessed {group : List StockTaskAssignment}
    (hi : CounterInv repairs owed db) (hkeyed : Keyed StockTaskAssignment.clientId group)
    (hmem : ∀ a ∈ group, a ∈ db.assignments) (hlive : ∀ a ∈ group, a.isDeleted = false)
    (hrow : ∀ a ∈ group, a.stockReportItemId = rowId) :
    CounterInv repairs (owed + owedTo rowId (groupDelta group))
      (group.foldl writeProcessed db) := by
  induction group generalizing owed db with
  | nil =>
    have : owedTo rowId (groupDelta []) = 0 := by
      funext k
      simp [owedTo, groupDelta]
    simpa [this] using hi
  | cons a group ih =>
    obtain ⟨hnotin, hkeyed⟩ := List.nodup_cons.mp
      (show (a.clientId :: group.map StockTaskAssignment.clientId).Nodup from hkeyed)
    have hfirst := hi.writeMoved (hmem a List.mem_cons_self) (hlive a List.mem_cons_self)
      (.state (processedTarget a.state))
    rw [hrow a List.mem_cons_self, deltaVector_processed] at hfirst
    have hrest := ih hfirst hkeyed (fun b hb => ?_)
      (fun b hb => hlive b (List.mem_cons_of_mem a hb))
      (fun b hb => hrow b (List.mem_cons_of_mem a hb))
    · have hdelta : groupDelta (a :: group) = -stateCounters a.state a.quantity +
          groupDelta group := total_cons a
      rwa [add_assoc, owedTo_add, ← hdelta] at hrest
    · refine mem_updateWhere.mpr ⟨b, hmem b (List.mem_cons_of_mem a hb), if_neg ?_⟩
      have : b.clientId ≠ a.clientId := fun he => hnotin (he ▸ List.mem_map_of_mem hb)
      simpa using this

end Writes

section Steps

variable {repairs : List RepairRecord} {ids : List ClientId} {db db' : Db}

theorem CounterInv.move {a : StockTaskAssignment} {target : MoveTarget} {trigger : String}
    {isCreation : Bool} (hi : CounterInv repairs (owedTo a.stockReportItemId
      (deltaVector (fromStateOf a isCreation) target a.quantity))
      (StockReport.writeMoved db a target))
    (hk : Keyed StockTaskAssignment.clientId db.assignments) (hmem : a ∈ db.assignments)
    (hne : isCreation = true ∨ target ≠ .state a.state)
    (h : moveAssignment db a target trigger isCreation = .ok db') : CounterInv repairs 0 db' := by
  obtain ⟨-, counted, afterGoal, hcount, hgoal, rfl⟩ := (moveAssignment_eq_ok hne).mp h
  have hcredit := applyCounterDelta_assignments hcount ▸ writeMoved_credit hk hmem
  exact ((hi.pay hcount).1.goalEffect hcredit hgoal).snapshotEffect target isCreation

theorem zeroLeftover_eq (hi : CounterInv repairs 0 db) {rowId : ClientId} {trigger : String}
    (hgone : ∀ a ∈ db.assignments, a.stockReportItemId = rowId → a.isDeleted)
    (h : zeroLeftover db rowId trigger = .ok db') : db' = db := by
  simp only [zeroLeftover, bind_eq_ok, getOr_eq_ok, pure, Except.pure, Except.ok.injEq] at h
  obtain ⟨row, hrow, rfl⟩ := h
  obtain ⟨hmem, rfl⟩ := mem_of_find?_key hrow
  have hzero : row.counters = 0 := by
    have := hi.counters_eq row hmem
    rw [Pi.zero_apply, add_zero] at this
    rw [this]
    refine total_eq_zero fun a ha => if_neg fun hrow => ?_
    simp [hgone a ha hrow.1] at hrow
  have hrows : updateWhere (fun r => r.clientId == row.clientId)
      (fun r => { r with counters := 0 }) db.rows = db.rows := by
    rw [updateWhere]
    conv_rhs => rw [← List.map_id db.rows]
    refine List.map_congr_left fun r hr => ?_
    by_cases hid : r.clientId = row.clientId
    · obtain rfl := hi.rows_keyed.inj hr hmem hid
      cases r
      simp_all
    · simp [hid]
  simp [setRowCounters, hrows, leftoverRepairs, hzero]

/-- Every step keeps the counters exact, and heals nothing. -/
theorem Step.counterInv (hi : CounterInv repairs 0 db) (h : Step ids db db') :
    CounterInv repairs 0 db' := by
  cases h with
  | create hquantity hcredit hlive hrow hinsert hmove =>
    rename_i inserted a trigger
    have hinserted := hi.insert hquantity hlive (hrow.imp fun r hr => ⟨hr.1, hr.2.1⟩) hinsert
    obtain ⟨hk, rfl⟩ := insertAssignment_eq_ok hinsert
    have hmem : a ∈ db.assignments ++ [a] := by simp
    refine CounterInv.move ?_ hk hmem (.inl rfl) hmove
    have := hinserted.writeMoved hmem hlive (.state a.state)
    rw [owedTo_add] at this
    simpa [deltaVector, fromStateOf] using this
  | move hmem hlive hne hmove =>
    refine CounterInv.move ?_ hi.assignments_keyed hmem (.inr hne) hmove
    simpa [fromStateOf] using hi.writeMoved hmem hlive _
  | resolve hne hkeyed hmem hlive hrow hresolve =>
    rename_i group rowId trigger
    have hactive : ∀ a ∈ group, a.isDeleted = false ∧ a.state.isActive := fun a ha => by
      simpa [isLiveActive] using hlive a ha
    obtain ⟨counted, afterGoals, hcount, hgoals, rfl⟩ :=
      resolveProcessedGroup_eq_ok hne (fun a ha => (hactive a ha).2) hresolve
    have hwritten := hi.foldl_writeProcessed hkeyed hmem (fun a ha => (hactive a ha).1) hrow
    rw [zero_add] at hwritten
    have hpaid := (hwritten.pay hcount).1
    have hcredit : ∀ a ∈ group, ∀ b ∈ counted.assignments, b.clientId = a.clientId →
        b.creditedHistoryRecordId = a.creditedHistoryRecordId := by
      rw [applyCounterDelta_assignments hcount]
      exact foldl_writeProcessed_credit hi.assignments_keyed hkeyed hmem
    obtain ⟨hframe, hassign⟩ := foldlM_goalEffect_assignments hkeyed hrow hcredit hgoals
    refine CounterInv.creditSnapshotResolved ?_ _
    refine hpaid.congr hframe.rows_eq hassign (fun b => ?_) hframe.repairs_eq
    split <;> exact ⟨rfl, rfl, rfl, fun _ => rfl⟩
  | outside => exact hi.of_eq rfl rfl rfl
  | zero hgone hzero => exact zeroLeftover_eq hi hgone hzero ▸ hi
  | drop now hgone =>
    rename_i rowId
    have hframe := @foldl_removeSnapshot_frame db now (openSnapshotsOf db rowId)
    have hi := hi.of_eq hframe.rows hframe.assignments hframe.repairs
    refine ⟨keyed_update hi.rows_keyed fun _ _ _ => rfl, hi.assignments_keyed, fun a ha => ?_,
      hi.quantity_nonneg, fun r hr => ?_, hi.repairs_eq⟩
    · obtain ⟨r, hr, hid⟩ := hi.row_of_assignment a ha
      refine ⟨_, mem_updateWhere_of_mem hr, ?_⟩
      split <;> exact hid
    · obtain ⟨x, hx, rfl⟩ := mem_updateWhere.mp hr
      split <;> exact hi.counters_eq x hx

theorem CounterInv.of_quiet (hi : CounterInv repairs 0 db) (h : Quiet db db') :
    CounterInv repairs 0 db' := hi.of_eq h.rows h.assignments h.repairs

end Steps

section Demand

variable {repairs : List RepairRecord} {db db' : Db}

/-- New rows have no assignments and zero counters. -/
theorem CounterInv.insertRows {new : List StockReportItem} (hi : CounterInv repairs 0 db)
    (hkeyed : Keyed StockReportItem.clientId (db.rows ++ new))
    (hzero : ∀ r ∈ new, r.counters = 0) (hrows : db'.rows = db.rows ++ new)
    (hassign : db'.assignments = db.assignments) (hrepairs : db'.repairs = db.repairs) :
    CounterInv repairs 0 db' where
  rows_keyed := hrows ▸ hkeyed
  assignments_keyed := hassign ▸ hi.assignments_keyed
  row_of_assignment a ha := by
    obtain ⟨r, hr, hid⟩ := hi.row_of_assignment a (hassign ▸ ha)
    exact ⟨r, hrows ▸ List.mem_append_left _ hr, hid⟩
  quantity_nonneg := hassign ▸ hi.quantity_nonneg
  counters_eq r hr := by
    rw [hassign]
    rcases List.mem_append.mp (hrows ▸ hr) with hr | hr
    · exact hi.counters_eq r hr
    · rw [hzero r hr, Pi.zero_apply, add_zero, eq_comm]
      refine total_eq_zero fun a ha => if_neg fun hrow => ?_
      obtain ⟨x, hx, hid⟩ := hi.row_of_assignment a ha
      exact (keyed_append.mp hkeyed).2.2 x hx r hr (hid.trans hrow.1)
  repairs_eq := by rw [rowRepairs, hrepairs]; exact hi.repairs_eq

theorem CounterInv.mapRows {f : StockReportItem → StockReportItem} (hi : CounterInv repairs 0 db)
    (hf : ∀ r, (f r).clientId = r.clientId ∧ (f r).counters = r.counters)
    (hrows : db'.rows = db.rows.map f) (hassign : db'.assignments = db.assignments)
    (hrepairs : db'.repairs = db.repairs) : CounterInv repairs 0 db' where
  rows_keyed := hi.rows_keyed.of_map_eq <| by
    rw [hrows, List.map_map]
    exact List.map_congr_left fun r _ => (hf r).1
  assignments_keyed := hassign ▸ hi.assignments_keyed
  row_of_assignment a ha := by
    obtain ⟨r, hr, hid⟩ := hi.row_of_assignment a (hassign ▸ ha)
    exact ⟨f r, hrows ▸ List.mem_map_of_mem hr, (hf r).1.trans hid⟩
  quantity_nonneg := hassign ▸ hi.quantity_nonneg
  counters_eq r hr := by
    obtain ⟨x, hx, rfl⟩ := List.mem_map.mp (hrows ▸ hr)
    rw [(hf x).1, (hf x).2, hassign]
    exact hi.counters_eq x hx
  repairs_eq := by rw [rowRepairs, hrepairs]; exact hi.repairs_eq

theorem CounterInv.applyStockDemand {categoryByKey : String → Option ClientId}
    {entries : List DemandEntry} {now : Timestamp} {late : Bool}
    {newRowId newSnapshotId newHistoryId : ℕ → ClientId} (hi : CounterInv repairs 0 db)
    (h : applyStockDemand db categoryByKey entries now late newRowId newSnapshotId newHistoryId =
      .ok db') : CounterInv repairs 0 db' := by
  obtain ⟨hk, drafted, changes, hdraft, -, hinsert⟩ := applyStockDemand_eq_ok h
  obtain ⟨-, rfl⟩ := insertHistories_eq_ok.mp hinsert
  have hframe := addRowsToEveryDraft_frame hdraft
  have hdrafted : CounterInv repairs 0 drafted := hi.insertRows hk
    (fun r hr => (absentRows_counters r hr).1) hframe.rows hframe.assignments hframe.repairs
  refine hdrafted.mapRows (fun r => ?_) rfl rfl rfl
  split <;> exact ⟨rfl, rfl⟩

end Demand

section Runs

variable {repairs : List RepairRecord} {db db' : Db}

theorem CounterInv.step {op : Op} (hi : CounterInv repairs 0 db) (h : step db op = .ok db') :
    CounterInv repairs 0 db' := by
  by_cases hassign : op.IsAssignmentCommand
  · obtain ⟨ids, ht⟩ := step_trace hassign hi.assignments_keyed h
    exact ht.invariant (fun _ _ _ hi hs => hs.counterInv hi) hi
  · by_cases hversion : op.IsVersionCommand
    · exact hi.of_quiet (step_quiet hversion h)
    · cases op with
      | stockDemand => exact hi.applyStockDemand h
      | _ => simp [Op.IsAssignmentCommand, Op.IsVersionCommand] at hassign hversion

theorem CounterInv.run (hi : CounterInv repairs 0 db) (ops : List Op) :
    CounterInv repairs 0 (run db ops) :=
  run_invariant (CounterInv repairs 0) (fun _ _ _ hi h => hi.step h) hi ops

/-- The units of a row's live assignments in one state. -/
def unitsIn (db : Db) (rowId : ClientId) (state : StockTaskAssignmentState) : ℤ :=
  total StockTaskAssignment.quantity <| db.assignments.filter fun a =>
    a.stockReportItemId == rowId && !a.isDeleted && a.state == state

theorem total_contribution (rowId : ClientId) :
    total (contribution rowId) db.assignments =
      ⟨unitsIn db rowId .inQueue, unitsIn db rowId .inProgress, unitsIn db rowId .awaiting⟩ := by
  unfold unitsIn
  induction db.assignments with
  | nil => rfl
  | cons a t ih =>
    rw [total_cons, ih]
    by_cases hrow : a.stockReportItemId = rowId ∧ a.isDeleted = false
    · cases hs : a.state <;> ext <;> simp [contribution, hrow, hs, stateCounters]
    · have : ∀ state, (a.stockReportItemId == rowId && !a.isDeleted && a.state == state) =
        false := by
        intro state
        by_contra hne
        simp only [Bool.not_eq_false, Bool.and_eq_true, beq_iff_eq, Bool.not_eq_true'] at hne
        exact hrow ⟨hne.1.1, hne.1.2⟩
      simp [contribution, hrow, this]

/-- After every run the counters of the rows are the units of their assignments. -/
theorem counters_exact (db : Db) (hkeyed : Keyed StockReportItem.clientId db.rows)
    (hnone : db.assignments = []) (hzero : ∀ r ∈ db.rows, r.counters = 0) (ops : List Op) :
    (∀ r ∈ (run db ops).rows, r.isDeleted = false →
      r.counters.quantityInQueue = unitsIn (run db ops) r.clientId .inQueue ∧
      r.counters.quantityInProgress = unitsIn (run db ops) r.clientId .inProgress ∧
      r.counters.quantityAwaiting = unitsIn (run db ops) r.clientId .awaiting ∧
      r.counters.Nonneg) ∧
    rowRepairs (run db ops) = rowRepairs db := by
  have hstart : CounterInv (rowRepairs db) 0 db :=
    ⟨hkeyed, by simp [hnone], by simp [hnone], by simp [hnone],
      fun r hr => by simp [hnone, hzero r hr], rfl⟩
  have hi := hstart.run ops
  refine ⟨fun r hr _ => ?_, hi.repairs_eq⟩
  have hsum := hi.counters_eq r hr
  rw [Pi.zero_apply, add_zero] at hsum
  refine ⟨?_, ?_, ?_, hsum ▸ total_contribution_nonneg hi.quantity_nonneg⟩
  all_goals rw [hsum, total_contribution]

def shelfWorkspace : Db where
  items := [⟨"itm_1", some "A-1", some "cat_1", "{}", 1, false⟩]
  tasks := [⟨"tsk_1", .pending, false, false⟩]
  taskItems := [⟨"tsk_1", "itm_1", .primary, false⟩]
  rows := [⟨"sri_1", "cat_1", "{}", "sig", 5, 0, false⟩]
  versions := []
  snapshots := []
  assignments := []
  histories := []
  repairs := []
  schedulers := []

/-- The item is assigned, its task gets ready, and the Scanner processes it twice. -/
def shelfOps : List Op :=
  [.createAssignments (fun _ _ => false) (fun _ => "sta_1") [⟨"sri_1", "tsk_1", "itm_1", false⟩],
   .changeTaskStates [("tsk_1", .ready)],
   .itemsProcessed ["A-1", " A-1"]]

example : (run shelfWorkspace (shelfOps.take 2)).rows.map StockReportItem.counters =
    [⟨0, 0, 1⟩] := by decide +kernel

theorem counters_exact_shelf :
    (∀ r ∈ (run shelfWorkspace shelfOps).rows, r.isDeleted = false →
      r.counters.quantityInQueue = unitsIn (run shelfWorkspace shelfOps) r.clientId .inQueue ∧
      r.counters.quantityInProgress =
        unitsIn (run shelfWorkspace shelfOps) r.clientId .inProgress ∧
      r.counters.quantityAwaiting = unitsIn (run shelfWorkspace shelfOps) r.clientId .awaiting ∧
      r.counters.Nonneg) ∧
    rowRepairs (run shelfWorkspace shelfOps) = rowRepairs shelfWorkspace :=
  counters_exact shelfWorkspace (by decide) rfl (by decide) shelfOps

end Runs

end BeyoManager.StockReport
