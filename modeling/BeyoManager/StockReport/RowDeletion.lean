import BeyoManager.StockReport.VersionSteps

/-! # Deletion of a row

A deleted row loses its places one after the other: a draft's place is removed, the
active one is closed. Each time the gap in the group is closed, from an order that was
read before the first removal; the places are in different versions, so it still holds.
-/

namespace BeyoManager.StockReport

open Relational Transition Sorting

section Tables

variable {ids : List ClientId} {db db' : Db}

/-- What the moves of assignments leave of the tables of the report. -/
structure TableFrame (db db' : Db) : Prop where
  rows : db'.rows.map StockReportItem.withoutCounters = db.rows.map StockReportItem.withoutCounters
  versions : db'.versions = db.versions
  snapshots : db'.snapshots.map ItemSnapshot.withoutAmounts =
    db.snapshots.map ItemSnapshot.withoutAmounts

theorem Frame.table (h : Frame db db') : TableFrame db db' := ⟨h.rows, h.versions, h.snapshots⟩

theorem TableFrame.standing (h : TableFrame db db') : StandingFrame db db' where
  rows := by
    have hmap : ∀ l : List StockReportItem, l.map StockReportItem.life =
        (l.map StockReportItem.withoutCounters).map StockReportItem.life := fun l => by
      rw [List.map_map]
      rfl
    rw [hmap db'.rows, h.rows, ← hmap]
  versions := by rw [h.versions]
  snapshots := by
    have hmap : ∀ l : List ItemSnapshot, l.map ItemSnapshot.standing =
        (l.map ItemSnapshot.withoutAmounts).map ItemSnapshot.standing := fun l => by
      rw [List.map_map]
      exact List.map_congr_left fun s _ => by
        simp [ItemSnapshot.standing, ItemSnapshot.withoutAmounts]
    rw [hmap db'.snapshots, h.snapshots, ← hmap]

theorem zeroLeftover_frame {rowId : ClientId} {trigger : String}
    (h : zeroLeftover db rowId trigger = .ok db') : Frame db db' := by
  simp only [zeroLeftover, bind_eq_ok, pure, Except.pure, Except.ok.injEq] at h
  obtain ⟨row, -, rfl⟩ := h
  exact (setRowCounters_frame _).trans (Frame.withAssignments _ _)

theorem Step.table (hk : Keyed StockTaskAssignment.clientId db.assignments) (h : Step ids db db') :
    TableFrame db db' ∨ ∃ rowId now, db' =
      markRowDeleted ((openSnapshotsOf db rowId).foldl (removeSnapshot now) db) rowId := by
  cases h with
  | create hquantity hcredit hlive hrow hinsert hmove =>
    obtain ⟨-, rfl⟩ := insertAssignment_eq_ok hinsert
    exact .inl ((Frame.withAssignments _ db.repairs).trans (moveAssignment_frame hmove)).table
  | move hmem hlive hne hmove => exact .inl (moveAssignment_frame hmove).table
  | resolve hne hkeyed hmem hlive hrow hresolve =>
    rename_i group rowId trigger
    have hactive : ∀ a ∈ group, a.state.isActive := fun a ha =>
      ((Bool.and_eq_true _ _).mp (hlive a ha)).2
    exact .inl
      (resolveProcessedGroup_assignments hne hactive hk hkeyed hmem hrow hresolve).1.table
  | outside => exact .inl ⟨rfl, rfl, rfl⟩
  | zero hgone hzero => exact .inl (zeroLeftover_frame hzero).table
  | drop now hgone => exact .inr ⟨_, now, rfl⟩

end Tables

section Leaving

variable {leaving : Option ClientId} {db : Db} {s x : ItemSnapshot} {now : Timestamp}

/-- The place of a snapshot after another one has left its group. -/
def afterLeaving (s x : ItemSnapshot) : ItemSnapshot :=
  if s.priority.any (fun p => s.priorityOrder.any fun order =>
      inGroup s.versionId p x && inBand (order + 1) none x) then
    { x with priorityOrder := x.priorityOrder.map (· + -1) }
  else x

theorem leaveGroup_eq (s : ItemSnapshot) :
    leaveGroup db s = { db with snapshots := db.snapshots.map (afterLeaving s) } := by
  have hid : ∀ (f : ItemSnapshot → ItemSnapshot), (∀ x, f x = x) →
      db = { db with snapshots := db.snapshots.map f } := fun f hf => by
    rw [show f = id from funext hf, List.map_id]
  unfold leaveGroup closePriorityGap shift
  cases hp : s.priority with
  | none => exact hid _ fun x => by simp [afterLeaving, hp]
  | some p =>
    cases ho : s.priorityOrder with
    | none => exact hid _ fun x => by simp [afterLeaving, hp, ho]
    | some order =>
      simp only [Option.any_none, Bool.false_eq_true, if_false]
      congr 1
      refine List.map_congr_left fun x _ => ?_
      simp [afterLeaving, hp, ho]

theorem afterLeaving_of_ne (h : x.versionId ≠ s.versionId) : afterLeaving s x = x := by
  rw [afterLeaving, if_neg]
  simp [Option.any_eq_true, inGroup, h]

theorem afterLeaving_order : ∃ order, afterLeaving s x = { x with priorityOrder := order } := by
  unfold afterLeaving
  split
  · exact ⟨_, rfl⟩
  · exact ⟨_, rfl⟩

@[simp] theorem afterLeaving_clientId : (afterLeaving s x).clientId = x.clientId := by
  obtain ⟨order, h⟩ := @afterLeaving_order s x
  rw [h]

@[simp] theorem afterLeaving_pair : (afterLeaving s x).pair = x.pair := by
  obtain ⟨order, h⟩ := @afterLeaving_order s x
  rw [h]
  rfl

@[simp] theorem afterLeaving_versionId : (afterLeaving s x).versionId = x.versionId :=
  congrArg Prod.fst afterLeaving_pair

@[simp] theorem afterLeaving_row : (afterLeaving s x).stockReportItemId = x.stockReportItemId :=
  congrArg Prod.snd afterLeaving_pair

@[simp] theorem afterLeaving_priority : (afterLeaving s x).priority = x.priority := by
  obtain ⟨order, h⟩ := @afterLeaving_order s x
  rw [h]

/-- A snapshot whose version or row goes away. -/
def closedOff (now : Timestamp) (s : ItemSnapshot) : ItemSnapshot :=
  { s with closedAt := some now, counters := 0 }

theorem removeSnapshot_draft (h : s.activeAt = none) :
    (removeSnapshot now db s).rows = db.rows ∧
    (removeSnapshot now db s).versions = updateWhere (fun v => v.clientId == s.versionId)
      (fun v => { v with snapshotCount := v.snapshotCount - 1 }) db.versions ∧
    (removeSnapshot now db s).snapshots =
      deleteWhere (fun x => x.clientId == s.clientId) (db.snapshots.map (afterLeaving s)) := by
  unfold removeSnapshot
  simp only [h, leaveGroup_eq]
  exact ⟨rfl, rfl, rfl⟩

theorem removeSnapshot_active (h : s.activeAt.isSome) :
    (removeSnapshot now db s).rows = db.rows ∧
    (removeSnapshot now db s).versions = db.versions ∧
    (removeSnapshot now db s).snapshots =
      updateWhere (fun x => x.clientId == s.clientId) (closedOff now)
        (db.snapshots.map (afterLeaving s)) := by
  obtain ⟨date, hdate⟩ := Option.isSome_iff_exists.mp h
  have heq : removeSnapshot now db s = { db with
      snapshots := updateWhere (fun x => x.clientId == s.clientId) (closedOff now)
        (db.snapshots.map (afterLeaving s)) } := by
    unfold removeSnapshot
    simp only [hdate, leaveGroup_eq]
    rfl
  rw [heq]
  exact ⟨rfl, rfl, rfl⟩

theorem mem_removeSnapshot {y : ItemSnapshot} (h : y ∈ (removeSnapshot now db s).snapshots) :
    ∃ x ∈ db.snapshots, x.clientId ≠ s.clientId ∧ y = afterLeaving s x ∨
      x.clientId = s.clientId ∧ y = closedOff now (afterLeaving s x) := by
  cases hdate : s.activeAt with
  | none =>
    rw [(removeSnapshot_draft hdate).2.2, mem_deleteWhere] at h
    obtain ⟨x, hx, rfl⟩ := List.mem_map.mp h.1
    exact ⟨x, hx, .inl ⟨by simpa using h.2, rfl⟩⟩
  | some date =>
    rw [(removeSnapshot_active (by simp [hdate])).2.2, mem_updateWhere] at h
    obtain ⟨y, hy, rfl⟩ := h
    obtain ⟨x, hx, rfl⟩ := List.mem_map.mp hy
    refine ⟨x, hx, ?_⟩
    split_ifs with hid
    · exact .inr ⟨by simpa using hid, rfl⟩
    · exact .inl ⟨by simpa using hid, rfl⟩

theorem mem_removeSnapshot_of_ne (hx : x ∈ db.snapshots) (hne : x.clientId ≠ s.clientId) :
    afterLeaving s x ∈ (removeSnapshot now db s).snapshots := by
  cases hdate : s.activeAt with
  | none =>
    rw [(removeSnapshot_draft hdate).2.2, mem_deleteWhere]
    exact ⟨List.mem_map_of_mem hx, by simpa using hne⟩
  | some date =>
    rw [(removeSnapshot_active (by simp [hdate])).2.2, mem_updateWhere]
    exact ⟨_, List.mem_map_of_mem hx, if_neg (by simpa using hne)⟩

/-- Taking out one open snapshot of the row that leaves. -/
theorem VersionInv.removeSnapshot (hi : VersionInv (some s.stockReportItemId) db)
    (hs : s ∈ db.snapshots) :
    VersionInv (some s.stockReportItemId) (removeSnapshot now db s) := by
  have hleft : VersionInv (some s.stockReportItemId)
      { db with snapshots := db.snapshots.map (afterLeaving s) } := by
    rw [← leaveGroup_eq]
    exact hi.congr (leaveGroup_standing s)
  cases hdate : s.activeAt with
  | none =>
    obtain ⟨hrows, hversions, hsnapshots⟩ := @removeSnapshot_draft db s now hdate
    have hmem : ∀ {y}, y ∈ (StockReport.removeSnapshot now db s).snapshots ↔
        y ∈ db.snapshots.map (afterLeaving s) ∧ y.clientId ≠ s.clientId := by
      simp [hsnapshots, mem_deleteWhere]
    have hv : ∀ v ∈ (StockReport.removeSnapshot now db s).versions, ∃ w ∈ db.versions,
        v = if w.clientId == s.versionId then { w with snapshotCount := w.snapshotCount - 1 }
          else w := fun v hv => by
      obtain ⟨w, hw, rfl⟩ := mem_updateWhere.mp (hversions ▸ hv)
      exact ⟨w, hw, rfl⟩
    have hdates : ∀ v ∈ (StockReport.removeSnapshot now db s).versions, ∃ w ∈ db.versions,
        w.clientId = v.clientId ∧ w.activeAt = v.activeAt ∧ w.closedAt = v.closedAt :=
      fun v hvm => by
        obtain ⟨w, hw, rfl⟩ := hv v hvm
        exact ⟨w, hw, by split <;> exact ⟨rfl, rfl, rfl⟩⟩
    refine ⟨hrows ▸ hleft.rows_keyed, ?_, ?_, ?_, ?_, ?_, ?_, ?_, ?_, ?_, ?_, ?_, ?_, ?_⟩
    · exact hversions ▸ keyed_update hleft.versions_keyed fun _ _ _ => rfl
    · exact hsnapshots ▸ keyed_delete hleft.snapshots_keyed _
    · exact hsnapshots ▸ keyed_delete hleft.pairs_keyed _
    · intro y hy
      obtain ⟨w, hw, hid⟩ := hleft.version_of_snapshot y (hmem.mp hy).1
      exact ⟨_, hversions ▸ mem_updateWhere_of_mem hw, by split <;> exact hid⟩
    · exact fun y hy => hrows ▸ hleft.row_of_snapshot y (hmem.mp hy).1
    · intro v hvm w hwm hva hwa
      obtain ⟨v₀, hv₀, hvid, hvact, hvcl⟩ := hdates v hvm
      obtain ⟨w₀, hw₀, hwid, hwact, hwcl⟩ := hdates w hwm
      have heq := hleft.one_active v₀ hv₀ w₀ hw₀ (by simpa only [isVersionActive, hvact, hvcl])
        (by simpa only [isVersionActive, hwact, hwcl])
      refine (keyed_update (f := fun v : SnapshotVersion =>
        { v with snapshotCount := v.snapshotCount - 1 }) hleft.versions_keyed fun _ _ _ => rfl).inj
        (hversions ▸ hvm) (hversions ▸ hwm) (hvid ▸ hwid ▸ heq ▸ rfl)
    · intro v hvm hc
      obtain ⟨w, hw, -, hact, hcl⟩ := hdates v hvm
      exact hact ▸ hleft.closed_activated w hw (hcl ▸ hc)
    · intro y hy hyo v hvm hid
      obtain ⟨w, hw, hwid, hact, hcl⟩ := hdates v hvm
      exact hact ▸ hcl ▸ hleft.open_date y (hmem.mp hy).1 hyo w hw (hwid.trans hid)
    · intro y hy v hvm hid hd
      obtain ⟨w, hw, hwid, hact, hcl⟩ := hdates v hvm
      exact hleft.draft_open y (hmem.mp hy).1 w hw (hwid.trans hid)
        (by simpa only [isVersionDraft, hact, hcl])
    · intro v hvm hd r hr hlive hne
      obtain ⟨w, hw, hwid, hact, hcl⟩ := hdates v hvm
      obtain ⟨y, hy, hyv, hyr⟩ :=
        hleft.draft_covers w hw (by simpa only [isVersionDraft, hact, hcl])
        r (hrows ▸ hr) hlive hne
      refine ⟨y, hmem.mpr ⟨hy, fun hid => hne ?_⟩, hyv.trans hwid, hyr⟩
      obtain ⟨x, hx, rfl⟩ := List.mem_map.mp hy
      rw [afterLeaving_clientId] at hid
      rw [← hyr, hi.snapshots_keyed.inj hx hs hid, afterLeaving_row]
    · intro y hy v hvm hid hd
      obtain ⟨w, hw, hwid, hact, hcl⟩ := hdates v hvm
      rw [hrows]
      exact hleft.draft_live y (hmem.mp hy).1 w hw (hwid.trans hid)
        (by simpa only [isVersionDraft, hact, hcl])
    · intro v hvm
      obtain ⟨w, hw, rfl⟩ := hv v hvm
      have hcount : ∀ i, countSnapshots (StockReport.removeSnapshot now db s) i =
          countSnapshots db i - if s.versionId = i then 1 else 0 := fun i => by
        have hperm := (hi.snapshots_keyed.perm_cons hs).countP_eq fun x => x.versionId == i
        have hmap : (db.snapshots.map (afterLeaving s)).filter
          (fun x => !x.clientId == s.clientId) =
            (db.snapshots.filter fun x => decide (x.clientId ≠ s.clientId)).map
              (afterLeaving s) := by
          rw [List.filter_map]
          congr 1
          exact List.filter_congr fun x _ => by simp [Bool.beq_eq_decide_eq]
        rw [countSnapshots, countSnapshots, hsnapshots, deleteWhere, hmap, List.countP_map, hperm,
          List.countP_cons]
        have hcongr : ((fun x : ItemSnapshot => x.versionId == i) ∘ afterLeaving s) =
            fun x => x.versionId == i := by
          funext x
          simp
        rw [hcongr]
        simp only [beq_iff_eq]
        split <;> simp
      by_cases hid : w.clientId = s.versionId
      · rw [if_pos (by simpa using hid)]
        change w.snapshotCount - 1 = countSnapshots _ w.clientId
        rw [hcount, if_pos hid.symm, hi.count_eq w hw]
      · rw [if_neg (by simpa using hid), hcount, if_neg (Ne.symm hid), sub_zero]
        exact hi.count_eq w hw
    · exact fun y hy => hleft.checks y (hmem.mp hy).1
  | some date =>
    obtain ⟨hrows, hversions, hsnapshots⟩ :=
      @removeSnapshot_active db s now (by simp [hdate])
    have hf : ∀ x ∈ db.snapshots.map (afterLeaving s), x.clientId == s.clientId →
        x.activeAt = some date := fun x hx hid => by
      obtain ⟨y, hy, rfl⟩ := List.mem_map.mp hx
      have hys : y = s := hi.snapshots_keyed.inj hy hs (by simpa using hid)
      obtain ⟨order, ho⟩ := @afterLeaving_order s y
      rw [ho, hys, hdate]
    refine hleft.rewrite (g := id) hrows (hversions.trans (List.map_id _).symm) hsnapshots
      (fun _ _ => rfl) (fun x _ => ?_) (fun _ _ hd => hd) hleft.one_active hleft.closed_activated
      (fun x hx v hv hid hxo => ?_) (fun x hx v hv hid hd => ?_) hleft.count_eq (fun x hx => ?_)
    · split <;> exact ⟨rfl, rfl⟩
    · split_ifs at hxo ⊢
      · simp [closedOff] at hxo
      · exact hleft.open_date x hx hxo v hv hid
    · split_ifs with hxs
      · have hxo := hleft.draft_open x hx v hv hid hd
        have hvnone : v.activeAt = none := (isVersionDraft_iff.mp hd).1
        have hsame := (hleft.open_date x hx hxo v hv hid).1
        rw [hf x hx hxs, hvnone] at hsame
        simp at hsame
      · exact hleft.draft_open x hx v hv hid hd
    · split_ifs with hxs
      · have hc := hleft.checks x hx
        exact ⟨hc.scanner_iff, hc.missing_set, fun _ => by simp [closedOff, hf x hx hxs]⟩
      · exact hleft.checks x hx

end Leaving

section Loop

variable {db : Db} {rowId : ClientId} {now : Timestamp}

/-- The open snapshots of the row that are still to be taken out. -/
structure Removing (rowId : ClientId) (rest : List ItemSnapshot) (db : Db) : Prop where
  inv : VersionInv (some rowId) db
  nodup : rest.Nodup
  mem : ∀ s ∈ rest, s ∈ db.snapshots ∧ s.stockReportItemId = rowId ∧ isSnapshotOpen s
  all : ∀ s ∈ db.snapshots, s.stockReportItemId = rowId → isSnapshotOpen s → s ∈ rest

theorem Removing.tail {s : ItemSnapshot} {rest : List ItemSnapshot}
    (h : Removing rowId (s :: rest) db) : Removing rowId rest (removeSnapshot now db s) := by
  obtain ⟨hs, hrow, hopen⟩ := h.mem s List.mem_cons_self
  obtain ⟨hnot, hnodup⟩ := List.nodup_cons.mp h.nodup
  have hi := h.inv
  subst hrow
  -- the other places of the row are in other versions
  have hother : ∀ x ∈ db.snapshots, x.stockReportItemId = s.stockReportItemId →
      x.clientId ≠ s.clientId → afterLeaving s x = x := fun x hx hxr hne => by
    refine afterLeaving_of_ne fun hv => hne ?_
    rw [hi.pairs_keyed.inj hx hs (Prod.ext hv hxr)]
  refine ⟨hi.removeSnapshot hs, hnodup, fun x hx => ?_, fun y hy hyr hyo => ?_⟩
  · obtain ⟨hxm, hxr, hxo⟩ := h.mem x (List.mem_cons_of_mem _ hx)
    have hne : x.clientId ≠ s.clientId := fun hid =>
      hnot (hi.snapshots_keyed.inj hxm hs hid ▸ hx)
    exact ⟨hother x hxm hxr hne ▸ mem_removeSnapshot_of_ne hxm hne, hxr, hxo⟩
  · obtain ⟨x, hx, ⟨hne, rfl⟩ | ⟨-, rfl⟩⟩ := mem_removeSnapshot hy
    · rw [afterLeaving_row] at hyr
      rw [hother x hx hyr hne] at hyo ⊢
      rcases List.mem_cons.mp (h.all x hx hyr hyo) with rfl | hxrest
      · exact absurd rfl hne
      · exact hxrest
    · simp [closedOff, isSnapshotOpen] at hyo

/-- Loop rule: what the removal of each open snapshot keeps, the deletion of a row keeps. -/
theorem openSnapshotsOf_foldl {I : Db → Prop} (hi : VersionInv none db) (hI : I db)
    (h : ∀ db s, VersionInv (some rowId) db → I db → s ∈ db.snapshots →
      s.stockReportItemId = rowId → isSnapshotOpen s → I (removeSnapshot now db s)) :
    Removing rowId [] ((openSnapshotsOf db rowId).foldl (removeSnapshot now) db) ∧
      I ((openSnapshotsOf db rowId).foldl (removeSnapshot now) db) := by
  have hloop : ∀ (rest : List ItemSnapshot) (db : Db), Removing rowId rest db → I db →
      Removing rowId [] (rest.foldl (removeSnapshot now) db) ∧
        I (rest.foldl (removeSnapshot now) db) := by
    intro rest
    induction rest with
    | nil => exact fun db hr hI => ⟨hr, hI⟩
    | cons s rest ih =>
      intro db hr hI
      obtain ⟨hs, hrow, hopen⟩ := hr.mem s List.mem_cons_self
      exact ih _ hr.tail (h db s hr.inv hI hs hrow hopen)
  refine hloop _ db ⟨?_, ?_, fun s hs => ?_, fun s hs hrow hopen => ?_⟩ hI
  · exact { hi with draft_covers := fun v hv hd r hr hlive _ =>
      hi.draft_covers v hv hd r hr hlive (by simp) }
  · exact (nodup_sortBy.mpr (hi.snapshots_keyed.nodup.filter _))
  · rw [openSnapshotsOf, (sortBy_perm _ _).mem_iff, List.mem_filter] at hs
    simpa using hs
  · rw [openSnapshotsOf, (sortBy_perm _ _).mem_iff, List.mem_filter]
    exact ⟨hs, by simp [hrow, hopen]⟩

/-- Once the row has no open place, it can be marked. -/
theorem Removing.markRowDeleted (h : Removing rowId [] db) :
    VersionInv none (markRowDeleted db rowId) := by
  have hi := h.inv
  have hclosed : ∀ s ∈ db.snapshots, s.stockReportItemId = rowId → s.closedAt ≠ none :=
    fun s hs hrow hopen => by
      simpa using h.all s hs hrow (isSnapshotOpen_iff.mpr hopen)
  have hr : ∀ r ∈ (StockReport.markRowDeleted db rowId).rows, ∃ r' ∈ db.rows,
      r' = r ∧ r.clientId ≠ rowId ∨ r'.clientId = r.clientId ∧ r.clientId = rowId ∧ r.isDeleted :=
    fun r hr => by
      obtain ⟨r', hr', rfl⟩ := mem_updateWhere.mp hr
      refine ⟨r', hr', ?_⟩
      split_ifs with hid
      · exact .inr ⟨rfl, by simpa using hid, rfl⟩
      · exact .inl ⟨rfl, by simpa using hid⟩
  refine { hi with
    rows_keyed := keyed_update hi.rows_keyed fun _ _ _ => rfl
    row_of_snapshot := fun s hs => ?_
    draft_covers := fun v hv hd r hrm hlive _ => ?_
    draft_live := fun s hs v hv hid hd r hrm hrid => ?_ }
  · obtain ⟨r, hrm, hid⟩ := hi.row_of_snapshot s hs
    exact ⟨_, mem_updateWhere_of_mem hrm, by split <;> exact hid⟩
  · obtain ⟨r', hr', ⟨rfl, hne⟩ | ⟨-, -, hdel⟩⟩ := hr r hrm
    · exact hi.draft_covers v hv hd r' hr' hlive (by simpa using hne)
    · simp [hlive] at hdel
  · obtain ⟨r', hr', ⟨rfl, -⟩ | ⟨-, hrow, -⟩⟩ := hr r hrm
    · exact hi.draft_live s hs v hv hid hd r' hr' hrid
    · exact absurd (hi.draft_open s hs v hv hid hd) (hclosed s hs (hrid.symm.trans hrow))

theorem Step.versionInv {ids : List ClientId} {db' : Db}
    (hk : Keyed StockTaskAssignment.clientId db.assignments) (hi : VersionInv none db)
    (h : Step ids db db') : VersionInv none db' := by
  rcases h.table hk with htable | ⟨rowId, now, rfl⟩
  · exact hi.congr htable.standing
  · exact (openSnapshotsOf_foldl (I := fun _ => True) hi trivial
      fun _ _ _ _ _ _ _ => trivial).1.markRowDeleted

end Loop

end BeyoManager.StockReport
