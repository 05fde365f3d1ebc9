import BeyoManager.StockReport.Counters
import Mathlib.Algebra.Order.BigOperators.Group.List

/-! # The goal records and their credits

The awaiting quantity of a goal record is a cache of the quantities credited to it.
An assignment remembers the record that it was credited to, so that the same record
is debited when the assignment leaves awaiting; a terminal credit stays for good.
-/

namespace BeyoManager.StockReport

open Relational Transition Sorting

def creditTo (historyId : ClientId) (a : StockTaskAssignment) : ℤ :=
  if a.creditedHistoryRecordId = some historyId then a.quantity else 0

structure GoalSums (db : Db) : Prop where
  histories_keyed : Keyed HistoryRecord.clientId db.histories
  assignments_keyed : Keyed StockTaskAssignment.clientId db.assignments
  quantity_nonneg : ∀ a ∈ db.assignments, 0 ≤ a.quantity
  credit_target : ∀ a ∈ db.assignments, ∀ i, a.creditedHistoryRecordId = some i →
    ∃ h ∈ db.histories, h.clientId = i ∧ h.type = .quantityRequestedChange
  awaiting_eq : ∀ h ∈ db.histories, h.type = .quantityRequestedChange →
    h.quantityAwaiting = total (creditTo h.clientId) db.assignments

/-- Only work that reached awaiting carries a credit, and a deleted awaiting one does not. -/
structure CreditStates (t : List StockTaskAssignment) : Prop where
  creditable : ∀ a ∈ t, a.creditedHistoryRecordId ≠ none →
    a.state = .awaiting ∨ a.state = .resolved ∨ a.state = .resolvedEarly
  awaiting_live : ∀ a ∈ t, a.state = .awaiting → a.creditedHistoryRecordId ≠ none →
    a.isDeleted = false

section States

variable {ids : List ClientId} {t t' : List StockTaskAssignment} {b b' : StockTaskAssignment}

theorem RecordMove.cases (h : RecordMove b b') : b.isDeleted = false ∧ ∃ goal,
    (b' = credited goal (some b.state) .delete { b with isDeleted := true } ∨
      b.state.isActive ∧ ∃ state, state ≠ b.state ∧
        assertAllowedMove (some b.state) (.state state) = .ok () ∧
        b' = credited goal (some b.state) (.state state) { b with state := state }) := by
  obtain ⟨hlive, goal, target, hne, hallowed, rfl⟩ := h
  refine ⟨hlive, goal, ?_⟩
  cases target with
  | delete => exact .inl rfl
  | state state =>
    have hne : state ≠ b.state := by simpa using hne
    refine .inr ⟨?_, state, hne, hallowed, rfl⟩
    by_contra hactive
    have hterminal : b.state.isTerminal := by
      rw [StockTaskAssignmentState.isTerminal_eq_not_isActive]
      simpa using hactive
    simp [assertAllowedMove, assertAllowedStateMove, Ne.symm hne, hterminal] at hallowed

theorem CreditStates.of_recordsStep (hc : CreditStates t) (h : RecordsStep ids t t') :
    CreditStates t' := by
  have hboth : ∀ b' ∈ t', (b'.creditedHistoryRecordId ≠ none →
      b'.state = .awaiting ∨ b'.state = .resolved ∨ b'.state = .resolvedEarly) ∧
      (b'.state = .awaiting → b'.creditedHistoryRecordId ≠ none → b'.isDeleted = false) := by
    intro b' hb'
    rcases h.backward b' hb' with ⟨b, hb, ⟨-, rfl⟩ | ⟨-, hmove⟩⟩ | ⟨-, -, hnew⟩
    · exact ⟨hc.creditable b' hb, hc.awaiting_live b' hb⟩
    · have hcreditable := hc.creditable b hb
      obtain ⟨hlive, goal, rfl | ⟨hactive, state, hne, hallowed, rfl⟩⟩ := hmove.cases
      · by_cases hs : b.state = .awaiting
        · simp [credited, creditAfter, hs]
        · simpa [credited, creditAfter, hs] using hcreditable
      · refine ⟨?_, fun _ _ => hlive⟩
        revert hactive hne hallowed hcreditable
        cases b.state <;> cases state <;>
          simp [credited, creditAfter, assertAllowedMove, assertAllowedStateMove,
            StockTaskAssignmentState.isActive, StockTaskAssignmentState.isTerminal]
    · obtain ⟨goal, a, hnone, hlive, hactive, rfl⟩ := hnew
      refine ⟨?_, fun _ _ => hlive⟩
      revert hactive
      simp only [credited]
      cases a.state <;> simp [creditAfter, hnone, StockTaskAssignmentState.isActive]
  exact ⟨fun b' hb' => (hboth b' hb').1, fun b' hb' => (hboth b' hb').2⟩

end States

section Writes

variable {db db' : Db} {a : StockTaskAssignment} {trigger : String}

theorem total_creditTo_nonneg {t : List StockTaskAssignment} (h : ∀ a ∈ t, 0 ≤ a.quantity)
    (i : ClientId) : 0 ≤ total (creditTo i) t := by
  refine List.sum_nonneg fun x hx => ?_
  obtain ⟨a, ha, rfl⟩ := List.mem_map.mp hx
  unfold creditTo
  split
  · exact h a ha
  · exact le_rfl

/-- The sums see neither the states of the assignments nor the deletions of the records. -/
theorem GoalSums.congr {g : StockTaskAssignment → StockTaskAssignment}
    {f : HistoryRecord → HistoryRecord} (hi : GoalSums db)
    (hassign : db'.assignments = db.assignments.map g)
    (hhist : db'.histories = db.histories.map f)
    (hg : ∀ b, (g b).clientId = b.clientId ∧
      (g b).creditedHistoryRecordId = b.creditedHistoryRecordId ∧ (g b).quantity = b.quantity)
    (hf : ∀ h, (f h).clientId = h.clientId ∧ (f h).type = h.type ∧
      (f h).quantityAwaiting = h.quantityAwaiting) : GoalSums db' where
  histories_keyed := hi.histories_keyed.of_map_eq <| by
    rw [hhist, List.map_map]
    exact List.map_congr_left fun h _ => (hf h).1
  assignments_keyed := hi.assignments_keyed.of_map_eq <| by
    rw [hassign, List.map_map]
    exact List.map_congr_left fun b _ => (hg b).1
  quantity_nonneg b hb := by
    obtain ⟨x, hx, rfl⟩ := List.mem_map.mp (hassign ▸ hb)
    rw [(hg x).2.2]
    exact hi.quantity_nonneg x hx
  credit_target b hb i hcredit := by
    obtain ⟨x, hx, rfl⟩ := List.mem_map.mp (hassign ▸ hb)
    rw [(hg x).2.1] at hcredit
    obtain ⟨h, hh, hid, htype⟩ := hi.credit_target x hx i hcredit
    exact ⟨f h, hhist ▸ List.mem_map_of_mem hh, (hf h).1.trans hid, (hf h).2.1.trans htype⟩
  awaiting_eq h hh htype := by
    obtain ⟨x, hx, rfl⟩ := List.mem_map.mp (hhist ▸ hh)
    rw [(hf x).1, (hf x).2.2, hi.awaiting_eq x hx ((hf x).2.1 ▸ htype), total, total, hassign,
      List.map_map]
    refine congrArg List.sum (List.map_congr_left fun b _ => ?_)
    simp only [creditTo, Function.comp_apply, (hg b).2.1, (hg b).2.2]

theorem GoalSums.of_eq (hi : GoalSums db) (hassign : db'.assignments = db.assignments)
    (hhist : db'.histories = db.histories) : GoalSums db' where
  histories_keyed := hhist ▸ hi.histories_keyed
  assignments_keyed := hassign ▸ hi.assignments_keyed
  quantity_nonneg := hassign ▸ hi.quantity_nonneg
  credit_target := hassign ▸ hhist ▸ hi.credit_target
  awaiting_eq := hassign ▸ hhist ▸ hi.awaiting_eq

/-- Moving the credit of one assignment along with the awaiting quantity of a record. -/
theorem GoalSums.transfer (hi : GoalSums db) {b : StockTaskAssignment} (hb : b ∈ db.assignments)
    {i : ClientId} {quantity : ℤ} {credit : Option ClientId}
    (htarget : ∀ j, credit = some j →
      ∃ h ∈ db.histories, h.clientId = j ∧ h.type = .quantityRequestedChange)
    (hdelta : ∀ k, creditTo k { b with creditedHistoryRecordId := credit } - creditTo k b =
      if k = i then quantity else 0) :
    GoalSums (setCredit (addToGoal db i quantity) b.clientId credit) where
  histories_keyed := keyed_update hi.histories_keyed fun _ _ _ => rfl
  assignments_keyed := keyed_update hi.assignments_keyed fun _ _ _ => rfl
  quantity_nonneg c hc := by
    obtain ⟨x, hx, rfl⟩ := mem_updateWhere.mp hc
    split <;> exact hi.quantity_nonneg x hx
  credit_target c hc j hj := by
    obtain ⟨x, hx, rfl⟩ := mem_updateWhere.mp hc
    have hx' : ∃ h ∈ db.histories, h.clientId = j ∧ h.type = .quantityRequestedChange := by
      split at hj
      · exact htarget j hj
      · exact hi.credit_target x hx j hj
    obtain ⟨h, hh, hid, htype⟩ := hx'
    refine ⟨_, mem_updateWhere_of_mem hh, ?_, ?_⟩ <;> split <;> assumption
  awaiting_eq h hh htype := by
    obtain ⟨x, hx, rfl⟩ := mem_updateWhere.mp hh
    have htotal := hi.assignments_keyed.total_update hb
      (fun c => { c with creditedHistoryRecordId := credit }) (w := creditTo x.clientId)
    have hsum := hi.awaiting_eq x hx (by split at htype <;> exact htype)
    rw [hdelta] at htotal
    by_cases hxi : x.clientId = i
    · simp only [hxi, beq_self_eq_true, if_true] at htotal hsum ⊢
      exact (htotal.trans (hsum ▸ rfl)).symm
    · simp only [hxi, beq_iff_eq, if_false, add_zero] at htotal hsum ⊢
      exact hsum.trans htotal.symm

theorem currentGoalRecordId_mem {rowId i : ClientId} (h : currentGoalRecordId db rowId = some i) :
    ∃ r ∈ db.histories, r.clientId = i ∧ r.type = .quantityRequestedChange := by
  obtain ⟨r, hr, rfl⟩ := Option.map_eq_some_iff.mp h
  have hmem := (sortByDescending_perm _ _).mem_iff.mp (List.mem_of_head? hr)
  simp only [List.mem_filter, Bool.and_eq_true, beq_iff_eq] at hmem
  exact ⟨r, hmem.1, rfl, hmem.2.1.2⟩

/-- A stored record that agrees with an assignment in what the goal effect reads. -/
def Agrees (db : Db) (a : StockTaskAssignment) : Prop :=
  ∃ b ∈ db.assignments, b.clientId = a.clientId ∧
    b.creditedHistoryRecordId = a.creditedHistoryRecordId ∧ b.quantity = a.quantity

theorem GoalSums.creditCurrentGoal (hi : GoalSums db) (ha : Agrees db a)
    (hnone : a.creditedHistoryRecordId = none) : GoalSums (creditCurrentGoal db a) := by
  unfold StockReport.creditCurrentGoal
  obtain ⟨b, hb, hid, hcredit, hquantity⟩ := ha
  split
  · exact hi
  · rename_i i hgoal
    rw [← hid]
    refine hi.transfer hb (fun j hj => ?_) fun k => ?_
    · obtain rfl := Option.some.inj hj
      exact currentGoalRecordId_mem hgoal
    · simp [creditTo, hcredit, hnone, hquantity, eq_comm]

/-- Taking a credit back never heals: the record carries at least this credit. -/
theorem GoalSums.uncredit (hi : GoalSums db) (ha : Agrees db a)
    (h : uncredit db a trigger = .ok db') : GoalSums db' := by
  unfold StockReport.uncredit at h
  obtain ⟨b, hb, hid, hcredit, hquantity⟩ := ha
  split at h
  · obtain rfl := by simpa using h
    exact hi
  · rename_i i hai
    obtain ⟨r, hr, rfl, htype⟩ := hi.credit_target b hb i (hcredit.trans hai)
    have hfind : (setCredit db a.clientId none).history? r.clientId = some r :=
      hi.histories_keyed.find?_eq hr
    have hdelta : ∀ k, creditTo k { b with creditedHistoryRecordId := none } - creditTo k b =
        if k = r.clientId then -a.quantity else 0 := by
      intro k
      by_cases hk : r.clientId = k
      · simp [creditTo, hcredit, hai, hquantity, hk]
      · simp [creditTo, hcredit, hai, hk, Ne.symm hk]
    have hrest := hi.assignments_keyed.total_update hb
      (fun c => { c with creditedHistoryRecordId := none }) (w := creditTo r.clientId)
    rw [hdelta, if_pos rfl, ← hi.awaiting_eq r hr htype] at hrest
    have hnonneg : 0 ≤ r.quantityAwaiting - a.quantity := by
      rw [sub_eq_add_neg, ← hrest]
      refine total_creditTo_nonneg (fun c hc => ?_) _
      obtain ⟨x, hx, rfl⟩ := mem_updateWhere.mp hc
      split <;> exact hi.quantity_nonneg x hx
    simp only [hfind, if_pos hnonneg] at h
    obtain rfl := by simpa using h
    rw [← hid]
    exact hi.transfer hb (fun j hj => by simp at hj) hdelta

theorem GoalSums.goalEffect {fromState : Option StockTaskAssignmentState} {toState : MoveTarget}
    (hi : GoalSums db) (ha : Agrees db a)
    (hnone : fromState ≠ some .awaiting → toState = .state .awaiting ∨
      toState = .state .resolvedEarly → a.creditedHistoryRecordId = none)
    (h : applyGoalEffect db a fromState toState trigger = .ok db') : GoalSums db' := by
  unfold applyGoalEffect at h
  split_ifs at h with hto hfrom
  · obtain rfl := by simpa using h
    exact hi.creditCurrentGoal ha (hnone hfrom hto)
  · obtain rfl := by simpa using h
    exact hi
  · obtain rfl := by simpa using h
    exact hi
  · exact hi.uncredit ha h
  · obtain rfl := by simpa using h
    exact hi

end Writes

section Steps

variable {ids : List ClientId} {db db' : Db}

theorem writeMoved_agrees {a : StockTaskAssignment} {target : MoveTarget}
    (hmem : a ∈ db.assignments) : Agrees (writeMoved db a target) a :=
  ⟨moved a target, mem_updateWhere.mpr ⟨a, hmem, by simp⟩, by simp, by simp, by simp⟩

theorem GoalSums.writeMoved {a : StockTaskAssignment} (hi : GoalSums db) (target : MoveTarget) :
    GoalSums (writeMoved db a target) := by
  refine hi.congr rfl (List.map_id _).symm (fun b => ?_) fun _ => ⟨rfl, rfl, rfl⟩
  split <;> simp

theorem GoalSums.move {a : StockTaskAssignment} {target : MoveTarget} {trigger : String}
    {isCreation : Bool} (hi : GoalSums db) (hmem : a ∈ db.assignments)
    (hne : isCreation = true ∨ target ≠ .state a.state)
    (hnone : assertAllowedMove (fromStateOf a isCreation) target = .ok () →
      fromStateOf a isCreation ≠ some .awaiting → target = .state .awaiting ∨
      target = .state .resolvedEarly → a.creditedHistoryRecordId = none)
    (h : moveAssignment db a target trigger isCreation = .ok db') : GoalSums db' := by
  obtain ⟨hallowed, counted, afterGoal, hcount, hgoal, rfl⟩ := (moveAssignment_eq_ok hne).mp h
  have hcounted : GoalSums counted := (hi.writeMoved target).of_eq
    (applyCounterDelta_assignments hcount) (applyCounterDelta_histories hcount)
  have hagrees : Agrees counted a := by
    rw [Agrees, applyCounterDelta_assignments hcount]
    exact writeMoved_agrees hmem
  rw [snapshotEffect_writes]
  exact (hcounted.goalEffect hagrees (hnone hallowed) hgoal).of_eq rfl rfl

theorem CreditStates.none_of_entering {t : List StockTaskAssignment} {a : StockTaskAssignment}
    {target : MoveTarget} (hc : CreditStates t) (hmem : a ∈ t) (hne : target ≠ .state a.state)
    (hallowed : assertAllowedMove (some a.state) target = .ok ()) (hfrom : a.state ≠ .awaiting)
    (hto : target = .state .awaiting ∨ target = .state .resolvedEarly) :
    a.creditedHistoryRecordId = none := by
  by_contra hcredit
  have hstates := hc.creditable a hmem hcredit
  revert hne hallowed hfrom hstates
  rcases hto with rfl | rfl <;> cases a.state <;>
    simp [assertAllowedMove, assertAllowedStateMove, StockTaskAssignmentState.isTerminal]

theorem GoalSums.insert {a : StockTaskAssignment} {inserted : Db} (hi : GoalSums db)
    (hquantity : 0 ≤ a.quantity) (hcredit : a.creditedHistoryRecordId = none)
    (hinsert : insertAssignment db a = .ok inserted) : GoalSums inserted := by
  obtain ⟨hk, rfl⟩ := insertAssignment_eq_ok hinsert
  have hmem : ∀ {b}, b ∈ db.assignments ++ [a] ↔ b ∈ db.assignments ∨ b = a := by simp
  refine ⟨hi.histories_keyed, hk, fun b hb => ?_, fun b hb i hbi => ?_, fun h hh htype => ?_⟩
  · rcases hmem.mp hb with hb | rfl
    · exact hi.quantity_nonneg b hb
    · exact hquantity
  · rcases hmem.mp hb with hb | rfl
    · exact hi.credit_target b hb i hbi
    · simp [hcredit] at hbi
  · rw [hi.awaiting_eq h hh htype, total_append, total_cons, total_nil]
    simp [creditTo, hcredit]

/-- The goal effects of a group, each on the record that it finds. -/
theorem GoalSums.foldlM_goalEffect {group : List StockTaskAssignment} {trigger : String}
    (hi : GoalSums db) (hkeyed : Keyed StockTaskAssignment.clientId group)
    (hagrees : ∀ a ∈ group, Agrees db a)
    (hnone : ∀ a ∈ group, a.state ≠ .awaiting → a.creditedHistoryRecordId = none)
    (h : group.foldlM (fun db a => applyGoalEffect db a (some a.state)
      (.state (processedTarget a.state)) trigger) db = .ok db') : GoalSums db' := by
  induction group generalizing db with
  | nil =>
    obtain rfl : db = db' := by simpa [pure, Except.pure] using h
    exact hi
  | cons a group ih =>
    obtain ⟨d, ha, h⟩ := foldlM_cons_eq_ok.mp h
    obtain ⟨hnotin, hkeyed⟩ := List.nodup_cons.mp
      (show (a.clientId :: group.map StockTaskAssignment.clientId).Nodup from hkeyed)
    have hagreesa := hagrees a List.mem_cons_self
    have hd := hi.goalEffect hagreesa
      (fun hfrom _ => hnone a List.mem_cons_self (by simpa using hfrom)) ha
    have hc : ∀ b ∈ db.assignments, b.clientId = a.clientId →
        b.creditedHistoryRecordId = a.creditedHistoryRecordId := by
      obtain ⟨c, hc, hid, hcredit, -⟩ := hagreesa
      intro b hb hba
      rw [hi.assignments_keyed.inj hb hc (hba.trans hid.symm), hcredit]
    refine ih hd hkeyed (fun b hb => ?_) (fun b hb => hnone b (List.mem_cons_of_mem a hb)) h
    obtain ⟨c, hcmem, hid, hrest⟩ := hagrees b (List.mem_cons_of_mem a hb)
    have hba : c.clientId ≠ a.clientId := by
      rw [hid]
      exact fun he => hnotin (he ▸ List.mem_map_of_mem hb)
    refine ⟨c, ?_, hid, hrest⟩
    rw [applyGoalEffect_assignments ha hc]
    exact mem_updateWhere.mpr ⟨c, hcmem, by simp [hba]⟩

/-- Every step keeps the sums of the credits. -/
theorem Step.goalSums (hi : GoalSums db) (hc : CreditStates db.assignments)
    (h : Step ids db db') : GoalSums db' := by
  cases h with
  | create hquantity hcredit hlive hrow hinsert hmove =>
    have hinserted := hi.insert hquantity hcredit hinsert
    obtain ⟨-, rfl⟩ := insertAssignment_eq_ok hinsert
    exact hinserted.move (by simp) (.inl rfl) (fun _ _ _ => hcredit) hmove
  | move hmem hlive hne hmove =>
    refine hi.move hmem (.inr hne) (fun hallowed hfrom hto => ?_) hmove
    exact hc.none_of_entering hmem hne hallowed (by simpa [fromStateOf] using hfrom) hto
  | resolve hne hkeyed hmem hlive hrow hresolve =>
    rename_i group rowId trigger
    have hactive : ∀ a ∈ group, a.isDeleted = false ∧ a.state.isActive := fun a ha => by
      simpa [isLiveActive] using hlive a ha
    obtain ⟨counted, afterGoals, hcount, hgoals, rfl⟩ :=
      resolveProcessedGroup_eq_ok hne (fun a ha => (hactive a ha).2) hresolve
    have hwritten : GoalSums (group.foldl writeProcessed db) := by
      rw [foldl_writeProcessed hkeyed]
      refine hi.congr rfl (List.map_id _).symm (fun b => ?_) fun _ => ⟨rfl, rfl, rfl⟩
      split <;> simp
    have hcounted := hwritten.of_eq (applyCounterDelta_assignments hcount)
      (applyCounterDelta_histories hcount)
    rw [creditSnapshotResolved_writes]
    refine (hcounted.foldlM_goalEffect hkeyed (fun a ha => ?_) (fun a ha hs => ?_) hgoals).of_eq
      rfl rfl
    · rw [Agrees, applyCounterDelta_assignments hcount, foldl_writeProcessed hkeyed,
        updateFrom_self hi.assignments_keyed hmem]
      exact ⟨moved a (.state (processedTarget a.state)),
        mem_updateWhere.mpr ⟨a, hmem a ha, by simp [ha]⟩, by simp, by simp, by simp⟩
    · by_contra hcredit
      have hstates := hc.creditable a (hmem a ha) hcredit
      have := (hactive a ha).2
      rcases hstates with h | h | h
      · exact hs h
      · simp [h, StockTaskAssignmentState.isActive] at this
      · simp [h, StockTaskAssignmentState.isActive] at this
  | outside => exact hi.of_eq rfl rfl
  | zero hgone hzero =>
    refine hi.of_eq (zeroLeftover_assignments hzero) ?_
    simp only [zeroLeftover, bind_eq_ok, pure, Except.pure, Except.ok.injEq] at hzero
    obtain ⟨row, -, rfl⟩ := hzero
    rfl
  | drop now hgone =>
    rename_i rowId
    have hframe := @foldl_removeSnapshot_frame db now (openSnapshotsOf db rowId)
    have hi := hi.of_eq hframe.assignments hframe.histories
    refine hi.congr (List.map_id _).symm rfl (fun _ => ⟨rfl, rfl, rfl⟩) fun h => ?_
    split <;> exact ⟨rfl, rfl, rfl⟩

end Steps

section Commands

variable {db db' : Db}

structure GoalInv (db : Db) : Prop where
  sums : GoalSums db
  states : CreditStates db.assignments

theorem Trace.goalInv {ids : List ClientId} (hi : GoalInv db) (ht : Trace ids db db') :
    GoalInv db' :=
  ht.invariant (fun _ _ _ hi hs => ⟨hs.goalSums hi.sums hi.states,
    hi.states.of_recordsStep (hs.records hi.sums.assignments_keyed)⟩) hi

theorem GoalSums.append {new : List HistoryRecord} (hi : GoalSums db)
    (hkeyed : Keyed HistoryRecord.clientId (db.histories ++ new))
    (hzero : ∀ h ∈ new, h.type = .quantityRequestedChange → h.quantityAwaiting = 0)
    (hassign : db'.assignments = db.assignments) (hhist : db'.histories = db.histories ++ new) :
    GoalSums db' where
  histories_keyed := hhist ▸ hkeyed
  assignments_keyed := hassign ▸ hi.assignments_keyed
  quantity_nonneg := hassign ▸ hi.quantity_nonneg
  credit_target a ha i hcredit := by
    obtain ⟨h, hh, hrest⟩ := hi.credit_target a (hassign ▸ ha) i hcredit
    exact ⟨h, hhist ▸ List.mem_append_left _ hh, hrest⟩
  awaiting_eq h hh htype := by
    rw [hassign]
    rcases List.mem_append.mp (hhist ▸ hh) with hh | hh
    · exact hi.awaiting_eq h hh htype
    · rw [hzero h hh htype, eq_comm]
      refine total_eq_zero fun a ha => if_neg fun hcredit => ?_
      obtain ⟨x, hx, hid, -⟩ := hi.credit_target a ha _ hcredit
      exact (keyed_append.mp hkeyed).2.2 x hx h hh hid

theorem GoalInv.of_quiet (hi : GoalInv db) (h : Quiet db db') : GoalInv db' := by
  obtain ⟨new, hnew, htype⟩ := h.histories
  refine ⟨hi.sums.append (hnew ▸ h.keyed hi.sums.histories_keyed)
    (fun x hx hgoal => absurd hgoal (htype x hx)) h.assignments hnew, ?_⟩
  rw [h.assignments]
  exact hi.states

theorem GoalInv.applyStockDemand {categoryByKey : String → Option ClientId}
    {entries : List DemandEntry} {now : Timestamp} {late : Bool}
    {newRowId newSnapshotId newHistoryId : ℕ → ClientId} (hi : GoalInv db)
    (h : applyStockDemand db categoryByKey entries now late newRowId newSnapshotId newHistoryId =
      .ok db') : GoalInv db' := by
  obtain ⟨-, drafted, changes, hdraft, -, hinsert⟩ := applyStockDemand_eq_ok h
  obtain ⟨hkeyed, rfl⟩ := insertHistories_eq_ok.mp hinsert
  have hframe := addRowsToEveryDraft_frame hdraft
  have hdrafted : GoalInv drafted :=
    ⟨hi.sums.of_eq hframe.assignments hframe.histories, hframe.assignments ▸ hi.states⟩
  refine ⟨hdrafted.sums.append hkeyed (fun x hx _ => ?_) rfl rfl, hdrafted.states⟩
  obtain ⟨indexed, -, rfl⟩ := List.mem_map.mp hx
  rfl

theorem GoalInv.step {op : Op} (hi : GoalInv db) (h : step db op = .ok db') : GoalInv db' := by
  by_cases hassign : op.IsAssignmentCommand
  · obtain ⟨ids, ht⟩ := step_trace hassign hi.sums.assignments_keyed h
    exact ht.goalInv hi
  · by_cases hversion : op.IsVersionCommand
    · exact hi.of_quiet (step_quiet hversion h)
    · cases op with
      | stockDemand => exact hi.applyStockDemand h
      | _ => simp [Op.IsAssignmentCommand, Op.IsVersionCommand] at hassign hversion

theorem GoalInv.run (hi : GoalInv db) (ops : List Op) : GoalInv (run db ops) :=
  run_invariant GoalInv (fun _ _ _ hi h => hi.step h) hi ops

end Commands

section Credits

variable {db db' : Db} {a a' : StockTaskAssignment}

def LeavesAwaiting (a a' : StockTaskAssignment) : Prop :=
  a'.state ≠ .awaiting ∧ a'.state ≠ .resolved ∨ a.isDeleted = false ∧ a'.isDeleted = true

/-- What one command does to the credit of an assignment. -/
structure CreditStep (a a' : StockTaskAssignment) : Prop where
  removed : a.state = .awaiting → a.creditedHistoryRecordId ≠ none → LeavesAwaiting a a' →
    a'.creditedHistoryRecordId = none
  kept : a.state = .awaiting → a.creditedHistoryRecordId ≠ none → ¬ LeavesAwaiting a a' →
    a'.creditedHistoryRecordId = a.creditedHistoryRecordId
  terminal : a.state = .resolved ∨ a.state = .resolvedEarly →
    a'.state = a.state ∧ a'.creditedHistoryRecordId = a.creditedHistoryRecordId

theorem CreditStep.refl : CreditStep a a where
  removed hs _ hleaves := by simp [LeavesAwaiting, hs] at hleaves
  kept _ _ _ := rfl
  terminal _ := ⟨rfl, rfl⟩

theorem RecordMove.creditStep (h : RecordMove a a') : CreditStep a a' := by
  obtain ⟨hlive, goal, rfl | ⟨hactive, state, hne, hallowed, rfl⟩⟩ := h.cases
  · refine ⟨fun hs _ _ => ?_, fun hs _ hstays => ?_, fun hs => ⟨rfl, ?_⟩⟩
    · simp [credited, creditAfter, hs]
    · exact absurd (.inr ⟨hlive, rfl⟩) hstays
    · rcases hs with hs | hs <;> simp [credited, creditAfter, hs]
  · refine ⟨fun hs _ hleaves => ?_, fun hs _ hstays => ?_, fun hs => ?_⟩
    · have : state ≠ .awaiting ∧ state ≠ .resolved := by
        rcases hleaves with hleaves | hleaves
        · exact hleaves
        · simp [credited, hlive] at hleaves
      rw [hs] at hallowed
      revert this hallowed
      cases state <;> simp [credited, creditAfter, hs, assertAllowedMove, assertAllowedStateMove,
        StockTaskAssignmentState.isTerminal, StockTaskAssignmentState.isActive]
    · obtain rfl : state = .resolved := by
        by_contra hr
        exact hstays (.inl ⟨hs ▸ hne, hr⟩)
      simp [credited, creditAfter, hs]
    · rcases hs with hs | hs <;> simp [hs, StockTaskAssignmentState.isActive] at hactive

theorem GoalInv.step_records {op : Op} (hi : GoalInv db) (h : StockReport.step db op = .ok db') :
    ∃ ids, RecordsStep ids db.assignments db'.assignments := by
  have hk := hi.sums.assignments_keyed
  by_cases hassign : op.IsAssignmentCommand
  · obtain ⟨ids, ht⟩ := step_trace hassign hk h
    exact ⟨ids, ht.records hk⟩
  · refine ⟨[], ?_⟩
    by_cases hversion : op.IsVersionCommand
    · rw [(step_quiet hversion h).assignments]
      exact RecordsStep.refl hk
    · cases op with
      | stockDemand =>
        obtain ⟨-, drafted, changes, hdraft, -, hinsert⟩ := applyStockDemand_eq_ok h
        obtain ⟨-, rfl⟩ := insertHistories_eq_ok.mp hinsert
        change RecordsStep [] _ drafted.assignments
        rw [(addRowsToEveryDraft_frame hdraft).assignments]
        exact RecordsStep.refl hk
      | _ => simp [Op.IsAssignmentCommand, Op.IsVersionCommand] at hassign hversion

theorem GoalInv.creditStep {op : Op} (hi : GoalInv db) (h : StockReport.step db op = .ok db')
    (ha : a ∈ db.assignments) : ∃ a' ∈ db'.assignments, a'.clientId = a.clientId ∧
      CreditStep a a' := by
  obtain ⟨ids, hrecords⟩ := hi.step_records h
  obtain ⟨a', ha', hstep⟩ := hrecords.forward a ha
  refine ⟨a', ha', hstep.clientId_eq, ?_⟩
  rcases hstep with ⟨-, rfl⟩ | ⟨-, hmove⟩
  · exact CreditStep.refl
  · exact hmove.creditStep

theorem GoalInv.terminal_kept (hi : GoalInv db) (later : List Op) (ha : a ∈ db.assignments)
    (hs : a.state = .resolved ∨ a.state = .resolvedEarly) :
    ∃ a' ∈ (StockReport.run db later).assignments, a'.clientId = a.clientId ∧
      a'.creditedHistoryRecordId = a.creditedHistoryRecordId := by
  induction later generalizing db a with
  | nil => exact ⟨a, ha, rfl, rfl⟩
  | cons op later ih =>
    have hi' : GoalInv (commit StockReport.step db op) :=
      commit_invariant GoalInv (fun _ _ _ hi h => hi.step h) hi op
    obtain ⟨b, hb, hid, hstep⟩ : ∃ b ∈ (commit StockReport.step db op).assignments,
        b.clientId = a.clientId ∧ CreditStep a b := by
      rcases @commit_cases _ _ _ StockReport.step db op with h | h
      · exact hi.creditStep h ha
      · exact ⟨a, h.symm ▸ ha, rfl, CreditStep.refl⟩
    obtain ⟨hstate, hcredit⟩ := hstep.terminal hs
    obtain ⟨c, hc, hcid, hccredit⟩ := ih hi' hb (hstate ▸ hs)
    exact ⟨c, hc, hcid.trans hid, hccredit.trans hcredit⟩

theorem recomputeGoalTotal_eq (i : ClientId) :
    recomputeGoalTotal db i = total (creditTo i) db.assignments := by
  rw [recomputeGoalTotal, total_filter]
  exact total_congr fun a _ => by simp [creditTo]

/-- After every run the goal records carry their credits, and credits go as they came. -/
theorem goal_credits (db : Db) (hkeyed : Keyed HistoryRecord.clientId db.histories)
    (hnone : db.assignments = [])
    (hzero : ∀ h ∈ db.histories, h.type = .quantityRequestedChange → h.quantityAwaiting = 0)
    (ops : List Op) :
    (∀ h ∈ (run db ops).histories, h.type = .quantityRequestedChange →
      h.quantityAwaiting = recomputeGoalTotal (run db ops) h.clientId ∧
        0 ≤ h.quantityAwaiting) ∧
    (∀ a ∈ (run db ops).assignments, a.creditedHistoryRecordId ≠ none →
      a.state = .awaiting ∨ a.state = .resolved ∨ a.state = .resolvedEarly) ∧
    (∀ op db', step (run db ops) op = .ok db' → ∀ a ∈ (run db ops).assignments,
      ∃ a' ∈ db'.assignments, a'.clientId = a.clientId ∧ CreditStep a a') ∧
    ∀ later, ∀ a ∈ (run db ops).assignments, a.state = .resolved ∨ a.state = .resolvedEarly →
      ∃ a' ∈ (run db (ops ++ later)).assignments, a'.clientId = a.clientId ∧
        a'.creditedHistoryRecordId = a.creditedHistoryRecordId := by
  have hstart : GoalInv db :=
    ⟨⟨hkeyed, by simp [hnone], by simp [hnone], by simp [hnone],
      fun h hh htype => by simp [hnone, hzero h hh htype]⟩, by
        constructor <;> simp [hnone]⟩
  have hi := hstart.run ops
  refine ⟨fun h hh htype => ?_, hi.states.creditable,
    fun op db' h a ha => hi.creditStep h ha, fun later a ha hs => ?_⟩
  · rw [recomputeGoalTotal_eq, hi.sums.awaiting_eq h hh htype]
    exact ⟨rfl, total_creditTo_nonneg hi.sums.quantity_nonneg _⟩
  · rw [run, run_append]
    exact hi.terminal_kept later ha hs

/-- The Scanner asks for seven units before the item is assigned. -/
def shelfDemand : Op :=
  .stockDemand (fun _ => some "cat_1") [⟨"shelf", "{}", "sig", 7⟩] 10 false (fun _ => "sri_2")
    (fun _ => "sis_1") (fun _ => "srh_1")

example : (run shelfWorkspace (shelfDemand :: shelfOps)).histories.map
    HistoryRecord.quantityAwaiting = [1] := by decide +kernel

theorem goal_credits_shelf :
    (∀ h ∈ (run shelfWorkspace (shelfDemand :: shelfOps)).histories,
      h.type = .quantityRequestedChange →
      h.quantityAwaiting =
          recomputeGoalTotal (run shelfWorkspace (shelfDemand :: shelfOps)) h.clientId ∧
        0 ≤ h.quantityAwaiting) ∧
    (∀ a ∈ (run shelfWorkspace (shelfDemand :: shelfOps)).assignments,
      a.creditedHistoryRecordId ≠ none →
      a.state = .awaiting ∨ a.state = .resolved ∨ a.state = .resolvedEarly) ∧
    (∀ op db', step (run shelfWorkspace (shelfDemand :: shelfOps)) op = .ok db' →
      ∀ a ∈ (run shelfWorkspace (shelfDemand :: shelfOps)).assignments,
      ∃ a' ∈ db'.assignments, a'.clientId = a.clientId ∧ CreditStep a a') ∧
    ∀ later, ∀ a ∈ (run shelfWorkspace (shelfDemand :: shelfOps)).assignments,
      a.state = .resolved ∨ a.state = .resolvedEarly →
      ∃ a' ∈ (run shelfWorkspace (shelfDemand :: shelfOps ++ later)).assignments,
        a'.clientId = a.clientId ∧ a'.creditedHistoryRecordId = a.creditedHistoryRecordId :=
  goal_credits shelfWorkspace (by decide) rfl (by decide) (shelfDemand :: shelfOps)

end Credits

end BeyoManager.StockReport
