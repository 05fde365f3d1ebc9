import BeyoManager.StockReport.VersionFrames

/-! # The steps of a command

A command on assignments is a sequence of elementary steps: a creation, a move, the
resolution of a group, writes outside the stock report, and the end of a row. Within
one command every assignment moves at most once.
-/

namespace BeyoManager.StockReport

open Relational Transition Sorting

/-- One elementary step, with the ids of the assignments that it creates or moves. -/
inductive Step : List ClientId → Db → Db → Prop
  | create {db inserted db' : Db} {a : StockTaskAssignment} {trigger : String}
      (hquantity : 0 ≤ a.quantity) (hcredit : a.creditedHistoryRecordId = none)
      (hlive : a.isDeleted = false)
      (hrow : ∃ r ∈ db.rows, r.clientId = a.stockReportItemId ∧ r.isDeleted = false)
      (hinsert : insertAssignment db a = .ok inserted)
      (hmove : moveAssignment inserted a (.state a.state) trigger true = .ok db') :
      Step [a.clientId] db db'
  | move {db db' : Db} {a : StockTaskAssignment} {target : MoveTarget} {trigger : String}
      (hmem : a ∈ db.assignments) (hlive : a.isDeleted = false) (hne : target ≠ .state a.state)
      (hmove : moveAssignment db a target trigger false = .ok db') : Step [a.clientId] db db'
  | resolve {db db' : Db} {group : List StockTaskAssignment} {rowId : ClientId}
      {trigger : String} (hne : group ≠ []) (hkeyed : Keyed StockTaskAssignment.clientId group)
      (hmem : ∀ a ∈ group, a ∈ db.assignments) (hlive : ∀ a ∈ group, isLiveActive a)
      (hrow : ∀ a ∈ group, a.stockReportItemId = rowId)
      (hresolve : resolveProcessedGroup db group rowId trigger = .ok db') :
      Step (group.map StockTaskAssignment.clientId) db db'
  | outside {db : Db} (items : List Item) (tasks : List Task) (taskItems : List TaskItem) :
      Step [] db { db with items := items, tasks := tasks, taskItems := taskItems }
  | zero {db db' : Db} {rowId : ClientId} {trigger : String}
      (hgone : ∀ a ∈ db.assignments, a.stockReportItemId = rowId → a.isDeleted)
      (hzero : zeroLeftover db rowId trigger = .ok db') : Step [] db db'
  | drop {db : Db} {rowId : ClientId} (now : Timestamp)
      (hgone : ∀ a ∈ db.assignments, a.stockReportItemId = rowId → a.isDeleted) :
      Step [] db (markRowDeleted ((openSnapshotsOf db rowId).foldl (removeSnapshot now) db) rowId)

/-- A sequence of steps in which no assignment moves twice. -/
inductive Trace : List ClientId → Db → Db → Prop
  | refl (db : Db) : Trace [] db db
  | tail {ids moved : List ClientId} {db db' db'' : Db} (htrace : Trace ids db db')
      (hstep : Step moved db' db'') (hnew : ∀ i ∈ moved, i ∉ ids) : Trace (ids ++ moved) db db''

theorem Trace.invariant {I : Db → Prop} (h : ∀ ids db db', I db → Step ids db db' → I db')
    {ids : List ClientId} {db db' : Db} (hi : I db) (ht : Trace ids db db') : I db' := by
  induction ht with
  | refl => exact hi
  | tail _ hstep _ ih => exact h _ _ _ (ih hi) hstep

section Records

variable {ids : List ClientId} {db db' : Db} {b b' : StockTaskAssignment}

def RecordMove (b b' : StockTaskAssignment) : Prop :=
  b.isDeleted = false ∧ ∃ goal target, target ≠ .state b.state ∧
    assertAllowedMove (some b.state) target = .ok () ∧
    b' = credited goal (some b.state) target (moved b target)

def RecordNew (b' : StockTaskAssignment) : Prop :=
  ∃ goal a, a.creditedHistoryRecordId = none ∧ a.isDeleted = false ∧ a.state.isActive ∧
    b' = credited goal none (.state a.state) a

def RecordStep (ids : List ClientId) (b b' : StockTaskAssignment) : Prop :=
  b.clientId ∉ ids ∧ b' = b ∨ b.clientId ∈ ids ∧ RecordMove b b'

theorem RecordMove.clientId_eq (h : RecordMove b b') : b'.clientId = b.clientId := by
  obtain ⟨-, goal, target, -, -, rfl⟩ := h
  exact moved_clientId

theorem RecordMove.stockReportItemId_eq (h : RecordMove b b') :
    b'.stockReportItemId = b.stockReportItemId := by
  obtain ⟨-, goal, target, -, -, rfl⟩ := h
  exact moved_stockReportItemId

theorem RecordStep.clientId_eq (h : RecordStep ids b b') : b'.clientId = b.clientId := by
  rcases h with ⟨-, rfl⟩ | ⟨-, h⟩
  · rfl
  · exact h.clientId_eq

structure RecordsStep (ids : List ClientId) (t t' : List StockTaskAssignment) : Prop where
  keyed : Keyed StockTaskAssignment.clientId t'
  forward : ∀ b ∈ t, ∃ b' ∈ t', RecordStep ids b b'
  backward : ∀ b' ∈ t', (∃ b ∈ t, RecordStep ids b b') ∨
    b'.clientId ∈ ids ∧ b'.clientId ∉ t.map StockTaskAssignment.clientId ∧ RecordNew b'
  touched : ∀ i ∈ ids, i ∈ t'.map StockTaskAssignment.clientId

theorem RecordsStep.refl {t : List StockTaskAssignment}
    (hk : Keyed StockTaskAssignment.clientId t) : RecordsStep [] t t where
  keyed := hk
  forward b hb := ⟨b, hb, .inl ⟨List.not_mem_nil, rfl⟩⟩
  backward b hb := .inl ⟨b, hb, .inl ⟨List.not_mem_nil, rfl⟩⟩
  touched _ hi := absurd hi List.not_mem_nil

/-- Rewriting the records of some ids by moves. -/
theorem RecordsStep.update {t : List StockTaskAssignment}
    {p : StockTaskAssignment → Bool} {f : StockTaskAssignment → StockTaskAssignment}
    (hk : Keyed StockTaskAssignment.clientId t)
    (hp : ∀ b ∈ t, p b = true ↔ b.clientId ∈ ids) (hf : ∀ b ∈ t, p b → RecordMove b (f b))
    (htouched : ∀ i ∈ ids, i ∈ t.map StockTaskAssignment.clientId) :
    RecordsStep ids t (updateWhere p f t) := by
  have hrecord : ∀ b ∈ t, RecordStep ids b (if p b then f b else b) := by
    intro b hb
    by_cases hpb : p b
    · rw [if_pos hpb]
      exact .inr ⟨(hp b hb).mp hpb, hf b hb hpb⟩
    · rw [if_neg hpb]
      exact .inl ⟨fun hi => hpb ((hp b hb).mpr hi), rfl⟩
  have hids : (updateWhere p f t).map StockTaskAssignment.clientId =
      t.map StockTaskAssignment.clientId :=
    map_updateWhere_of_fixed fun b hb hpb => (hf b hb hpb).clientId_eq
  refine ⟨?_, fun b hb => ⟨_, mem_updateWhere_of_mem hb, hrecord b hb⟩, ?_, ?_⟩
  · rwa [Keyed, hids]
  · intro b' hb'
    obtain ⟨b, hb, rfl⟩ := mem_updateWhere.mp hb'
    exact .inl ⟨b, hb, hrecord b hb⟩
  · rwa [hids]

theorem insertAssignment_eq_ok {a : StockTaskAssignment} (h : insertAssignment db a = .ok db') :
    Keyed StockTaskAssignment.clientId (db.assignments ++ [a]) ∧
      db' = { db with assignments := db.assignments ++ [a] } := by
  unfold insertAssignment at h
  split at h
  · simp at h
  · simp only [bind_eq_ok, pure, Except.pure, Except.ok.injEq] at h
    obtain ⟨t, ht, rfl⟩ := h
    obtain ⟨hk, rfl⟩ := insertRecords_eq_ok.mp ht
    exact ⟨hk, rfl⟩

theorem assertAllowedMove_none {target : MoveTarget}
    (h : assertAllowedMove none target = .ok ()) : target.isActive := by
  by_cases ha : target.isActive
  · exact ha
  · simp [assertAllowedMove, ha] at h

theorem assertAllowedMove_processed {state : StockTaskAssignmentState} (h : state.isActive) :
    assertAllowedMove (some state) (.state (processedTarget state)) = .ok () := by
  cases state <;> first | rfl | simp [StockTaskAssignmentState.isActive] at h

theorem zeroLeftover_assignments {rowId : ClientId} {trigger : String}
    (h : zeroLeftover db rowId trigger = .ok db') : db'.assignments = db.assignments := by
  simp only [zeroLeftover, bind_eq_ok, pure, Except.pure, Except.ok.injEq] at h
  obtain ⟨row, -, rfl⟩ := h
  rfl

theorem removeSnapshot_frame (now : Timestamp) (s : ItemSnapshot) :
    SnapshotFrame db (removeSnapshot now db s) := by
  unfold removeSnapshot
  refine (leaveGroup_frame s).trans ?_
  split
  · exact SnapshotFrame.withSnapshots _ _ _
  · exact SnapshotFrame.withSnapshots _ _ _

theorem foldl_removeSnapshot_frame (now : Timestamp) (l : List ItemSnapshot) :
    SnapshotFrame db (l.foldl (removeSnapshot now) db) := by
  induction l generalizing db with
  | nil => exact SnapshotFrame.refl db
  | cons s l ih => exact (removeSnapshot_frame now s).trans ih

theorem Step.records (hk : Keyed StockTaskAssignment.clientId db.assignments)
    (h : Step ids db db') : RecordsStep ids db.assignments db'.assignments := by
  cases h with
  | create hquantity hcredit hlive hrow hinsert hmove =>
    rename_i inserted a trigger
    obtain ⟨hk', rfl⟩ := insertAssignment_eq_ok hinsert
    have hactive := assertAllowedMove_none ((moveAssignment_eq_ok (.inl rfl)).mp hmove).1
    have hnew : ∀ b ∈ db.assignments, b.clientId ≠ a.clientId := fun b hb =>
      (keyed_append.mp hk').2.2 b hb a (List.mem_singleton.mpr rfl)
    have hassign := moveAssignment_assignments (.inl rfl) hk' (by simp) hmove
    simp only [hassign]
    refine ⟨keyed_update hk' fun _ _ _ => moved_clientId, fun b hb => ?_, fun b' hb' => ?_, ?_⟩
    · refine ⟨b, mem_updateWhere.mpr ⟨b, List.mem_append_left _ hb, ?_⟩, .inl ⟨?_, rfl⟩⟩
      · simp [hnew b hb]
      · simpa using hnew b hb
    · obtain ⟨x, hx, rfl⟩ := mem_updateWhere.mp hb'
      rcases List.mem_append.mp hx with hx | hx
      · refine .inl ⟨x, hx, .inl ⟨by simpa using hnew x hx, ?_⟩⟩
        simp [hnew x hx]
      · obtain rfl := List.mem_singleton.mp hx
        refine .inr ⟨by simp [credited], by simpa [credited] using hnew, ?_⟩
        exact ⟨_, x, hcredit, hlive, hactive, by simp only [beq_self_eq_true, if_true]; rfl⟩
    · simp [updateWhere, credited]
  | move hmem hlive hne hmove =>
    rename_i a target trigger
    rw [moveAssignment_assignments (.inr hne) hk hmem hmove]
    have hallowed := ((moveAssignment_eq_ok (.inr hne)).mp hmove).1
    refine RecordsStep.update hk (by simp) (fun b hb hba => ?_)
      (by simpa using ⟨a, hmem, rfl⟩)
    obtain rfl := hk.inj hb hmem (by simpa using hba)
    exact ⟨hlive, _, target, hne, hallowed, rfl⟩
  | resolve hne hkeyed hmem hlive hrow hresolve =>
    rename_i group rowId trigger
    have hactive : ∀ a ∈ group, a.state.isActive := fun a ha => by
      have := hlive a ha
      simp only [isLiveActive, Bool.and_eq_true] at this
      exact this.2
    rw [(resolveProcessedGroup_assignments hne hactive hk hkeyed hmem hrow hresolve).2]
    refine RecordsStep.update hk (fun b hb => ?_) (fun b hb hbg => ?_) fun i hi => ?_
    · simp only [decide_eq_true_eq, List.mem_map]
      constructor
      · exact fun hbg => ⟨b, hbg, rfl⟩
      · rintro ⟨a, ha, hid⟩
        exact hk.inj (hmem a ha) hb hid ▸ ha
    · have hbg : b ∈ group := by simpa using hbg
      have hb' := hlive b hbg
      simp only [isLiveActive, Bool.and_eq_true, Bool.not_eq_true'] at hb'
      refine ⟨hb'.1, _, .state (processedTarget b.state), ?_,
        assertAllowedMove_processed hb'.2, rfl⟩
      intro he
      exact processedTarget_ne b.state hb'.2 (by simpa using he.symm)
    · obtain ⟨a, ha, rfl⟩ := List.mem_map.mp hi
      exact List.mem_map_of_mem (hmem a ha)
  | outside => exact RecordsStep.refl hk
  | zero hgone hzero =>
    rw [zeroLeftover_assignments hzero]
    exact RecordsStep.refl hk
  | drop now hgone =>
    change RecordsStep [] _ (List.foldl (removeSnapshot now) db _).assignments
    rw [(foldl_removeSnapshot_frame now _).assignments]
    exact RecordsStep.refl hk

/-- Two groups of moves of different assignments, one after the other. -/
theorem RecordsStep.trans {ids' : List ClientId} {t t' t'' : List StockTaskAssignment}
    (h : RecordsStep ids t t') (h' : RecordsStep ids' t' t'') (hnew : ∀ i ∈ ids', i ∉ ids) :
    RecordsStep (ids ++ ids') t t'' := by
  have hcompose : ∀ b c d, RecordStep ids b c → RecordStep ids' c d →
      RecordStep (ids ++ ids') b d := by
    rintro b c d hbc hcd
    have hid := hbc.clientId_eq
    rcases hbc with ⟨hb, rfl⟩ | ⟨hb, hbc⟩
    · rcases hcd with ⟨hc, rfl⟩ | ⟨hc, hcd⟩
      · exact .inl ⟨by simp [hb, hc], rfl⟩
      · exact .inr ⟨by simp [hc], hcd⟩
    · rcases hcd with ⟨hc, rfl⟩ | ⟨hc, hcd⟩
      · exact .inr ⟨by simp [hb], hbc⟩
      · exact absurd hb (hnew _ (hid ▸ hc))
  refine ⟨h'.keyed, fun b hb => ?_, fun d hd => ?_, fun i hi => ?_⟩
  · obtain ⟨c, hc, hbc⟩ := h.forward b hb
    obtain ⟨d, hd, hcd⟩ := h'.forward c hc
    exact ⟨d, hd, hcompose b c d hbc hcd⟩
  · rcases h'.backward d hd with ⟨c, hc, hcd⟩ | ⟨hdi, hd, hdnew⟩
    · rcases h.backward c hc with ⟨b, hb, hbc⟩ | ⟨hci, hc, hcnew⟩
      · exact .inl ⟨b, hb, hcompose b c d hbc hcd⟩
      · rcases hcd with ⟨-, rfl⟩ | ⟨hcd, -⟩
        · exact .inr ⟨List.mem_append_left _ hci, hc, hcnew⟩
        · exact absurd hci (hnew _ hcd)
    · refine .inr ⟨List.mem_append_right _ hdi, fun hdt => hd ?_, hdnew⟩
      obtain ⟨b, hb, hid⟩ := List.mem_map.mp hdt
      obtain ⟨c, hc, hbc⟩ := h.forward b hb
      exact List.mem_map.mpr ⟨c, hc, hbc.clientId_eq.trans hid⟩
  · rcases List.mem_append.mp hi with hi | hi
    · obtain ⟨c, hc, rfl⟩ := List.mem_map.mp (h.touched i hi)
      obtain ⟨d, hd, hcd⟩ := h'.forward c hc
      exact List.mem_map.mpr ⟨d, hd, hcd.clientId_eq⟩
    · exact h'.touched i hi

theorem Trace.records (hk : Keyed StockTaskAssignment.clientId db.assignments)
    (h : Trace ids db db') : RecordsStep ids db.assignments db'.assignments := by
  induction h with
  | refl => exact RecordsStep.refl hk
  | tail _ hstep hnew ih => exact (ih hk).trans (hstep.records (ih hk).keyed) hnew

end Records

end BeyoManager.StockReport
