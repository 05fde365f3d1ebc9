import BeyoManager.StockReport.Steps
import Mathlib.Data.List.Dedup

/-! # Commands as steps

Every command on assignments, every deletion of rows included, is a sequence of steps
in which no assignment moves twice.
-/

namespace BeyoManager.StockReport

open Relational Transition Sorting

section Commands

variable {ids : List ClientId} {db db' db'' : Db}

theorem Trace.outside (h : Trace ids db db') (items : List Item) (tasks : List Task)
    (taskItems : List TaskItem) :
    Trace ids db { db' with items := items, tasks := tasks, taskItems := taskItems } := by
  have := h.tail (Step.outside items tasks taskItems) (by simp)
  rwa [List.append_nil] at this

theorem Trace.setTaskStockFlag {taskId : ClientId} {value : Bool} (h : Trace ids db db')
    (hf : setTaskStockFlag db' taskId value = .ok db'') : Trace ids db db'' := by
  unfold StockReport.setTaskStockFlag at hf
  split at hf
  · obtain rfl := by simpa using hf
    exact h.outside _ _ _
  · simp at hf

theorem refuseOnIntegrityError_eq_ok {index : ℕ} {x : Except CommandError Db} :
    refuseOnIntegrityError index x = .ok db ↔ x = .ok db := by
  unfold refuseOnIntegrityError
  split <;> simp

theorem setTaskStockFlag_rows {taskId : ClientId} {value : Bool}
    (h : setTaskStockFlag db taskId value = .ok db') : db'.rows = db.rows := by
  unfold setTaskStockFlag at h
  split at h
  · obtain rfl := by simpa using h
    rfl
  · simp at h

theorem createEntry_trace {criteriaFail : Item → JsonText → Bool} {newId : ℕ → ClientId}
    {indexed : CreateEntry × ℕ} (hk : Keyed StockTaskAssignment.clientId db.assignments)
    (ht : Trace ids db db')
    (hlive : ∃ r ∈ db'.rows, r.clientId = indexed.1.stockReportItemId ∧ r.isDeleted = false)
    (h : createEntry criteriaFail newId db' indexed = .ok db'') :
    (∃ ids', Trace ids' db db'') ∧ db''.rows.map StockReportItem.withoutCounters =
      db'.rows.map StockReportItem.withoutCounters := by
  simp only [createEntry, bind_eq_ok, getOr_eq_ok, refuseOnIntegrityError_eq_ok] at h
  obtain ⟨row, hrow, item, -, task, -, inserted, hinsert, created, hmove, hflag⟩ := h
  obtain ⟨hr, hid⟩ := mem_of_find?_key hrow
  have hstep := Step.create (by simp) rfl rfl (hid ▸ hlive) hinsert hmove
  obtain ⟨hk', hinserted⟩ := insertAssignment_eq_ok hinsert
  constructor
  · refine ⟨_, (ht.tail hstep ?_).setTaskStockFlag hflag⟩
    -- the new id is the key of no stored record, and every touched id is one
    intro i hi hti
    obtain ⟨b, hb, rfl⟩ := List.mem_map.mp ((ht.records hk).touched i hti)
    exact (keyed_append.mp hk').2.2 b hb _ (List.mem_singleton.mpr rfl) (by simpa using hi)
  · rw [setTaskStockFlag_rows hflag, (moveAssignment_frame hmove).rows, hinserted]

theorem row_of_not_refused {entries : List CreateEntry} {entry : CreateEntry}
    (h : refusalReason db entries entry = none) :
    ∃ r ∈ db.rows, r.clientId = entry.stockReportItemId ∧ r.isDeleted = false := by
  have hrow : (db.row? entry.stockReportItemId).all StockReportItem.isDeleted = false := by
    by_contra hall
    rw [Bool.not_eq_false] at hall
    unfold refusalReason firstFailedCheck at h
    split at h
    · cases h
    · split at h
      · cases h
      · cases h
  cases hfind : db.row? entry.stockReportItemId with
  | none => simp [hfind] at hrow
  | some r =>
    obtain ⟨hmem, hid⟩ := mem_of_find?_key hfind
    exact ⟨r, hmem, hid, by simpa [hfind] using hrow⟩

theorem createStockTaskAssignments_trace {criteriaFail : Item → JsonText → Bool}
    {newId : ℕ → ClientId} {entries : List CreateEntry}
    (hk : Keyed StockTaskAssignment.clientId db.assignments)
    (h : createStockTaskAssignments db criteriaFail newId entries = .ok db') :
    ∃ ids, Trace ids db db' := by
  simp only [createStockTaskAssignments, throwIf_bind_eq_ok, ne_eq, not_not] at h
  obtain ⟨hreasons, -, h⟩ := h
  have hlive : ∀ indexed ∈ entries.zipIdx, ∃ r ∈ db.rows,
      r.clientId = indexed.1.stockReportItemId ∧ r.isDeleted = false := by
    intro indexed hmem
    have hnone := List.filterMap_eq_nil_iff.mp hreasons indexed hmem
    exact row_of_not_refused (Option.map_eq_none_iff.mp hnone)
  refine (foldlM_invariant (fun d => (∃ ids, Trace ids db d) ∧
    d.rows.map StockReportItem.withoutCounters = db.rows.map StockReportItem.withoutCounters)
    ?_ ⟨⟨[], Trace.refl db⟩, rfl⟩ h).1
  rintro d indexed hmem d' ⟨⟨ids, ht⟩, hrows⟩ hd
  obtain ⟨r, hr, hid, hnot⟩ := hlive indexed (mem_sortBy.mp hmem)
  obtain ⟨r', hr', heq⟩ := List.mem_map.mp (hrows ▸ List.mem_map_of_mem hr)
  simp only [StockReportItem.withoutCounters, StockReportItem.mk.injEq] at heq
  obtain ⟨hid', -, -, -, -, -, hnot'⟩ := heq
  obtain ⟨htrace, hsame⟩ := createEntry_trace hk ht
    ⟨r', hr', hid'.trans hid, hnot'.trans hnot⟩ hd
  exact ⟨htrace, hsame.trans hrows⟩

/-- The assignments that wait to be removed are stored, live and different. -/
structure Pending (db : Db) (rest : List StockTaskAssignment) : Prop where
  stored : ∀ a ∈ rest, a ∈ db.assignments
  live : ∀ a ∈ rest, a.isDeleted = false
  keyed : Keyed StockTaskAssignment.clientId rest

theorem Trace.removeAssignment {a : StockTaskAssignment} {trigger : String}
    (ht : Trace ids db db') (hmem : a ∈ db'.assignments) (hlive : a.isDeleted = false)
    (hnew : a.clientId ∉ ids) (h : removeAssignment db' a trigger = .ok db'') :
    Trace (ids ++ [a.clientId]) db db'' := by
  simp only [StockReport.removeAssignment, bind_eq_ok] at h
  obtain ⟨d, hmove, hflag⟩ := h
  have hstep := Step.move hmem hlive (by simp) hmove
  exact (ht.tail hstep (by simpa using hnew)).setTaskStockFlag hflag

theorem removeAssignment_live {a : StockTaskAssignment} {trigger : String}
    (hk : Keyed StockTaskAssignment.clientId db.assignments) (hmem : a ∈ db.assignments)
    (h : removeAssignment db a trigger = .ok db') :
    ∀ b ∈ db'.assignments, b.isDeleted = false → b ∈ db.assignments ∧ b.clientId ≠ a.clientId := by
  simp only [removeAssignment, bind_eq_ok] at h
  obtain ⟨d, hmove, hflag⟩ := h
  have hd : db'.assignments = d.assignments := by
    unfold recomputeTaskStockFlag setTaskStockFlag at hflag
    split at hflag
    · obtain rfl := by simpa using hflag
      rfl
    · simp at hflag
  rw [hd, moveAssignment_assignments (.inr (by simp)) hk hmem hmove]
  intro b hb hlive
  obtain ⟨x, hx, rfl⟩ := mem_updateWhere.mp hb
  by_cases hxa : x.clientId = a.clientId
  · simp [hxa, credited, moved] at hlive
  · simpa [hxa] using hx

theorem removeAssignments_trace {rest : List StockTaskAssignment} {trigger : String}
    (hk : Keyed StockTaskAssignment.clientId db.assignments) (ht : Trace ids db db')
    (hp : Pending db' rest) (hnew : ∀ a ∈ rest, a.clientId ∉ ids)
    (h : removeAssignments db' rest trigger = .ok db'') :
    Trace (ids ++ rest.map StockTaskAssignment.clientId) db db'' ∧
      ∀ b ∈ db''.assignments, b.isDeleted = false →
        b ∈ db'.assignments ∧ b.clientId ∉ rest.map StockTaskAssignment.clientId := by
  induction rest generalizing ids db' with
  | nil =>
    obtain rfl : db' = db'' := by simpa [removeAssignments, pure, Except.pure] using h
    exact ⟨by simpa using ht, fun b hb _ => ⟨hb, by simp⟩⟩
  | cons a rest ih =>
    obtain ⟨d, ha, h⟩ := foldlM_cons_eq_ok.mp h
    have hk' := (ht.records hk).keyed
    have hmem := hp.stored a List.mem_cons_self
    have hlive := hp.live a List.mem_cons_self
    obtain ⟨hnotin, hkeyed⟩ := List.nodup_cons.mp
      (show (a.clientId :: rest.map StockTaskAssignment.clientId).Nodup from hp.keyed)
    have ht' := ht.removeAssignment hmem hlive (hnew a List.mem_cons_self) ha
    have hrecords := ((Trace.refl db').removeAssignment hmem hlive (by simp) ha).records hk'
    have hne : ∀ b ∈ rest, b.clientId ≠ a.clientId := fun b hb he =>
      hnotin (he ▸ List.mem_map_of_mem hb)
    have hp' : Pending d rest := by
      refine ⟨fun b hb => ?_, fun b hb => hp.live b (List.mem_cons_of_mem a hb), hkeyed⟩
      obtain ⟨b', hb', ⟨-, rfl⟩ | ⟨hid, -⟩⟩ :=
        hrecords.forward b (hp.stored b (List.mem_cons_of_mem a hb))
      · exact hb'
      · exact absurd (by simpa using hid) (hne b hb)
    obtain ⟨htrace, hrest⟩ := ih ht' hp' (fun b hb => by
      simpa using ⟨hnew b (List.mem_cons_of_mem a hb), hne b hb⟩) h
    refine ⟨by simpa using htrace, fun b hb hbl => ?_⟩
    obtain ⟨hbd, hbr⟩ := hrest b hb hbl
    obtain ⟨hbd', hba⟩ := removeAssignment_live hk' hmem ha b hbd hbl
    exact ⟨hbd', by simpa using ⟨hba, by simpa using hbr⟩⟩

section Locks

variable {α : Type} {key : α → ClientId} {table : List α} {clientIds : List ClientId}

theorem mem_lock {x : α} : x ∈ lock key table clientIds ↔ x ∈ table ∧ key x ∈ clientIds := by
  simp [lock]

theorem keyed_lock (hk : Keyed key table) : Keyed key (lock key table clientIds) :=
  (keyed_filter hk _).perm (sortBy_perm _ _)

theorem mapM_getLocked {locked l : List α} (h : clientIds.mapM (getLocked key locked) = .ok l) :
    l.map key = clientIds ∧ ∀ x ∈ l, x ∈ locked := by
  have hall := mapM_forall₂ h
  clear h
  induction hall with
  | nil => simp
  | cons hxy _ ih =>
    obtain ⟨hy, hkey⟩ := mem_of_find?_key (getOr_eq_ok.mp hxy)
    refine ⟨by rw [List.map_cons, ih.1, hkey], fun z hz => ?_⟩
    rcases List.mem_cons.mp hz with rfl | hz
    · exact hy
    · exact ih.2 z hz

end Locks

theorem deleteStockTaskAssignments_trace {clientIds : List ClientId}
    (hk : Keyed StockTaskAssignment.clientId db.assignments)
    (h : deleteStockTaskAssignments db clientIds = .ok db') : ∃ ids, Trace ids db db' := by
  simp only [deleteStockTaskAssignments, deleteDiscovered, bind_eq_ok, throwIf_eq_ok,
    not_not] at h
  obtain ⟨_, hmissing, assignments, hlocked, h⟩ := h
  obtain ⟨hids, hmem⟩ := mapM_getLocked hlocked
  refine ⟨_, (removeAssignments_trace hk (Trace.refl db) ⟨fun a ha => ?_, fun a ha => ?_, ?_⟩
    (by simp) h).1⟩
  · exact (mem_lock.mp (hmem a ha)).1
  · -- a locked record that is deleted would be missing
    by_contra hd
    have : a.clientId ∈ ([] : List ClientId) := by
      rw [← hmissing, mem_sortBy, List.mem_dedup]
      refine List.mem_append_right _ (List.mem_map_of_mem (List.mem_filter.mpr ⟨hmem a ha, ?_⟩))
      simpa using hd
    simp at this
  · rw [Keyed, hids, requestedIds, nodup_sortBy]
    exact List.nodup_dedup _

theorem removeDiscovered_trace {remover : Remover} {discovered : List ClientId}
    (hk : Keyed StockTaskAssignment.clientId db.assignments)
    (h : removeDiscovered db remover discovered = .ok db') : ∃ ids, Trace ids db db' := by
  simp only [removeDiscovered, bind_eq_ok, pure, Except.pure, Except.ok.injEq] at h
  obtain ⟨d, h, rfl⟩ := h
  have ht := (removeAssignments_trace hk (Trace.refl db) ⟨fun a ha => ?_, fun a ha => ?_, ?_⟩
    (by simp) h).1
  · cases remover
    · exact ⟨_, ht.outside _ _ _⟩
    · exact ⟨_, ht.outside _ _ _⟩
    · exact ⟨_, ht.outside _ _ _⟩
  · exact (mem_lock.mp (List.mem_filter.mp ha).1).1
  · simpa using (List.mem_filter.mp ha).2
  · exact keyed_filter (keyed_lock hk) _

section Sync

theorem foldl_setTaskState (changes : List (ClientId × TaskState)) :
    ∃ tasks, changes.foldl setTaskState db = { db with tasks := tasks } := by
  induction changes generalizing db with
  | nil => exact ⟨db.tasks, rfl⟩
  | cons change changes ih =>
    obtain ⟨tasks, h⟩ := @ih (setTaskState db change)
    exact ⟨tasks, h⟩

/-- The assignments that a sync has moved have the state that their task asks for. -/
def Synced (ids : List ClientId) (db : Db) : Prop :=
  ∀ b ∈ db.assignments, b.clientId ∈ ids → isLiveActive b →
    ∀ task, db.task? b.taskId = some task → b.state = assignmentStateByTaskState task.state

theorem syncTask_trace {taskId : ClientId}
    (hk : Keyed StockTaskAssignment.clientId db.assignments) (ht : Trace ids db db')
    (hs : Synced ids db') (h : syncTask db' taskId = .ok db'') :
    ∃ ids', Trace ids' db db'' ∧ Synced ids' db'' := by
  unfold syncTask at h
  split at h
  · simp at h
  · rename_i task htask
    split at h
    · obtain rfl : db' = db'' := by simpa using h
      exact ⟨ids, ht, hs⟩
    · rename_i a hfilter
      simp only at h
      have ha : a ∈ db'.assignments.filter fun a => a.taskId == taskId && isLiveActive a := by
        simp [hfilter]
      simp only [List.mem_filter, Bool.and_eq_true, beq_iff_eq] at ha
      obtain ⟨hmem, rfl, hactive⟩ := ha
      split at h
      · obtain rfl : db' = db'' := by simpa using h
        exact ⟨ids, ht, hs⟩
      · rename_i hne
        have hk' := (ht.records hk).keyed
        have hlive : a.isDeleted = false := by
          simp only [isLiveActive, Bool.and_eq_true, Bool.not_eq_true'] at hactive
          exact hactive.1
        have hne' : MoveTarget.state (assignmentStateByTaskState task.state) ≠ .state a.state := by
          simpa using Ne.symm hne
        have hnew : a.clientId ∉ ids := fun hid => hne (hs a hmem hid hactive task htask)
        refine ⟨_, ht.tail (Step.move hmem hlive hne' h) (by simpa using hnew), ?_⟩
        have htasks : ∀ t, db''.task? t = db'.task? t := fun t => by
          rw [Db.task?, Db.task?, (moveAssignment_frame h).tasks]
        rw [Synced, moveAssignment_assignments (.inr hne') hk' hmem h]
        intro b hb hid hbl t hbt
        obtain ⟨x, hx, rfl⟩ := mem_updateWhere.mp hb
        rw [htasks] at hbt
        by_cases hxa : x.clientId = a.clientId
        · obtain rfl := hk'.inj hx hmem hxa
          simp only [beq_self_eq_true, if_true, credited, moved] at hbt ⊢
          rw [htask] at hbt
          rw [Option.some.inj hbt]
        · simp only [hxa, beq_iff_eq, if_false, List.mem_append, List.mem_singleton, or_false]
            at hid hbl hbt ⊢
          exact hs x hx hid hbl t hbt
    · simp at h

theorem changeTaskStates_trace {changes : List (ClientId × TaskState)}
    (hk : Keyed StockTaskAssignment.clientId db.assignments)
    (h : changeTaskStates db changes = .ok db') : ∃ ids, Trace ids db db' := by
  unfold changeTaskStates syncTaskStockAssignments at h
  obtain ⟨tasks, hchanged⟩ := @foldl_setTaskState db changes
  rw [hchanged] at h
  have ht := (Trace.refl db).outside db.items tasks db.taskItems
  obtain ⟨ids, ht, -⟩ := foldlM_invariant (fun d => ∃ ids, Trace ids db d ∧ Synced ids d)
    (fun d taskId _ d' ⟨_, ht, hs⟩ hd => syncTask_trace hk ht hs hd)
    ⟨[], ht, fun _ _ hid => absurd hid List.not_mem_nil⟩ h
  exact ⟨ids, ht⟩

end Sync

section ItemsProcessed

theorem mem_of_lastOf {α : Type} {entries : List (ClientId × α)} {key : ClientId} {v : α}
    (h : lastOf entries key = some v) : (key, v) ∈ entries := by
  unfold lastOf at h
  obtain ⟨e, he, rfl⟩ := Option.map_eq_some_iff.mp h
  obtain ⟨hmem, rfl⟩ := mem_of_find?_key he
  exact List.mem_reverse.mp hmem

/-- Only assignments that were discovered, and that are active under their lock, move. -/
structure Decided (found : ProcessedDiscovery) (locked : List StockTaskAssignment)
    (d : ProcessedDecision) : Prop where
  nodup : d.movedAssignmentIds.Nodup
  discovered : ∀ i ∈ d.movedAssignmentIds, ∃ e ∈ found.assignments, e.2.1 = i
  active : ∀ i ∈ d.movedAssignmentIds, ∃ a ∈ locked, a.clientId = i ∧ a.state.isActive
  working : ∀ i state, i ∉ d.movedAssignmentIds →
    Dict.getItem CommandError.keyError d.workingState i = .ok state →
      ∃ a ∈ locked, a.clientId = i ∧ a.state = state

variable {found : ProcessedDiscovery} {locked : List StockTaskAssignment}

theorem Decided.decideNumber {d d' : ProcessedDecision} (hd : Decided found locked d)
    {raw : String} (h : decideNumber found d raw = .ok d') : Decided found locked d' := by
  unfold StockReport.decideNumber at h
  simp only at h
  split at h
  · obtain rfl := by simpa using h
    exact ⟨hd.nodup, hd.discovered, hd.active, hd.working⟩
  · split at h
    · obtain rfl := by simpa using h
      exact ⟨hd.nodup, hd.discovered, hd.active, hd.working⟩
    · rename_i itemId _ _ i rowId hlast
      obtain ⟨state, hstate, h⟩ := bind_eq_ok.mp h
      split at h
      · rename_i hactive
        obtain rfl := by simpa [pure, Except.pure] using h
        have hfound := mem_of_lastOf hlast
        by_cases hi : i ∈ d.movedAssignmentIds
        · simp only [if_pos hi]
          refine ⟨hd.nodup, hd.discovered, hd.active, fun j s hj hs => hd.working j s hj ?_⟩
          rwa [Dict.getItem_set_of_ne (by rintro rfl; exact hj hi)] at hs
        · simp only [if_neg hi]
          refine ⟨?_, ?_, ?_, fun j s hj hs => ?_⟩
          · exact hd.nodup.append (List.nodup_singleton i) (by simpa using hi)
          · intro j hj
            rcases List.mem_append.mp hj with hj | hj
            · exact hd.discovered j hj
            · obtain rfl := List.mem_singleton.mp hj
              exact ⟨_, hfound, rfl⟩
          · intro j hj
            rcases List.mem_append.mp hj with hj | hj
            · exact hd.active j hj
            · obtain rfl := List.mem_singleton.mp hj
              obtain ⟨a, ha, hid, rfl⟩ := hd.working _ state hi hstate
              exact ⟨a, ha, hid, hactive⟩
          · simp only [List.mem_append, List.mem_singleton, not_or] at hj
            rw [Dict.getItem_set_of_ne hj.2] at hs
            exact hd.working j s hj.1 hs
      · obtain rfl := by simpa [pure, Except.pure] using h
        exact ⟨hd.nodup, hd.discovered, hd.active, hd.working⟩

theorem decideNumbers_decided {numbers : List String} {d : ProcessedDecision}
    (h : decideNumbers found locked numbers = .ok d) : Decided found locked d := by
  refine foldlM_invariant (fun d => Decided found locked d)
    (fun d raw _ d' hd hraw => hd.decideNumber hraw) ⟨by simp, by simp, by simp, ?_⟩ h
  intro i state _ hstate
  exact Dict.getItem_map_eq_ok hstate

/-- The groups of the moved assignments are resolved row by row. -/
theorem resolveMoved_trace {lockedRows : List StockReportItem}
    {assignments : List StockTaskAssignment}
    (hk : Keyed StockTaskAssignment.clientId db.assignments)
    (hkeyed : Keyed StockTaskAssignment.clientId assignments)
    (hmem : ∀ a ∈ assignments, a ∈ db.assignments) (hlive : ∀ a ∈ assignments, isLiveActive a)
    (h : resolveMoved db lockedRows assignments = .ok db') : ∃ ids, Trace ids db db' := by
  let group := Grouping.group StockTaskAssignment.stockReportItemId assignments
  have hgroup : ∀ {k a}, a ∈ group k ↔ a ∈ assignments ∧ a.stockReportItemId = k :=
    Grouping.mem_group
  let I : List ClientId → Db → Prop := fun rest d => rest.Nodup ∧
    rest ⊆ Grouping.keys StockTaskAssignment.stockReportItemId assignments ∧
    ∃ ids, Trace ids db d ∧ ∀ k ∈ rest, ∀ a ∈ group k, a.clientId ∉ ids
  have hstart : I (sortBy id (Grouping.keys StockTaskAssignment.stockReportItemId assignments))
    db :=
    ⟨nodup_sortBy.mpr Grouping.keys_nodup, fun k hk => mem_sortBy.mp hk, [], Trace.refl db, by simp⟩
  refine (foldlM_loop I ?_ hstart h).2.2.imp fun ids h => h.1
  rintro k rest d d' ⟨hn, hsub, ids, ht, hnew⟩ hd
  obtain ⟨hk', hn⟩ := List.nodup_cons.mp hn
  obtain ⟨row, hrow, hd⟩ := bind_eq_ok.mp hd
  have hrow : row.clientId = k := (mem_of_find?_key (getOr_eq_ok.mp hrow)).2
  have hne : group k ≠ [] := fun he => Grouping.group_eq_nil.mp he (hsub List.mem_cons_self)
  have hstep : Step ((group k).map StockTaskAssignment.clientId) d d' := by
    refine Step.resolve hne (keyed_filter hkeyed _) (fun a ha => ?_)
      (fun a ha => hlive a (hgroup.mp ha).1) (fun a ha => ?_) hd
    · obtain ⟨a', ha', ⟨-, rfl⟩ | ⟨hid, -⟩⟩ :=
        (ht.records hk).forward a (hmem a (hgroup.mp ha).1)
      · exact ha'
      · exact absurd hid (hnew k List.mem_cons_self a ha)
    · rw [hrow]
      exact (hgroup.mp ha).2
  refine ⟨hn, fun j hj => hsub (List.mem_cons_of_mem k hj), _, ht.tail hstep ?_, ?_⟩
  · intro i hi
    obtain ⟨a, ha, rfl⟩ := List.mem_map.mp hi
    exact hnew k List.mem_cons_self a ha
  · intro j hj a ha hai
    rcases List.mem_append.mp hai with hai | hai
    · exact hnew j (List.mem_cons_of_mem k hj) a ha hai
    · obtain ⟨b, hb, hid⟩ := List.mem_map.mp hai
      have hba := hkeyed.inj (hgroup.mp hb).1 (hgroup.mp ha).1 hid
      have hjk : j = k := by rw [← (hgroup.mp ha).2, ← (hgroup.mp hb).2, hba]
      exact hk' (hjk ▸ hj)

theorem processDiscovered_trace {numbers : List String} {results : List ProcessedResult}
    (hk : Keyed StockTaskAssignment.clientId db.assignments)
    (hfound : ∀ e ∈ found.assignments, ∀ a ∈ db.assignments, a.clientId = e.2.1 →
      a.isDeleted = false)
    (h : processDiscovered db found numbers = .ok (db', results)) : ∃ ids, Trace ids db db' := by
  simp only [processDiscovered, bind_eq_ok, pure, Except.pure, Except.ok.injEq, Prod.mk.injEq]
    at h
  obtain ⟨d, hd, assignments, hassign, _, hresolve, rfl, -⟩ := h
  have hdecided := decideNumbers_decided hd
  obtain ⟨hids, hlocked⟩ := mapM_getLocked hassign
  have hmem : ∀ a ∈ assignments, a ∈ db.assignments := fun a ha =>
    (mem_lock.mp (hlocked a ha)).1
  refine resolveMoved_trace hk (by rw [Keyed, hids]; exact hdecided.nodup) hmem (fun a ha => ?_)
    hresolve
  have hai : a.clientId ∈ d.movedAssignmentIds := hids ▸ List.mem_map_of_mem ha
  obtain ⟨e, he, hei⟩ := hdecided.discovered _ hai
  obtain ⟨b, hb, hbi, hactive⟩ := hdecided.active _ hai
  obtain rfl := hk.inj (mem_lock.mp hb).1 (hmem a ha) hbi
  simp [isLiveActive, hfound e he b (hmem b ha) hei.symm, hactive]

theorem discoverProcessed_live {numbers : List String}
    (hk : Keyed StockTaskAssignment.clientId db.assignments) :
    ∀ e ∈ (discoverProcessed db numbers).assignments, ∀ a ∈ db.assignments,
      a.clientId = e.2.1 → a.isDeleted = false := by
  intro e he a ha hid
  obtain ⟨b, hb, rfl⟩ := List.mem_map.mp he
  obtain ⟨hb, hlive⟩ := List.mem_filter.mp hb
  obtain rfl := hk.inj ha hb hid
  simp only [isLiveActive, Bool.and_eq_true, Bool.not_eq_true'] at hlive
  exact hlive.2.1

end ItemsProcessed

section Cascade

variable {now : Timestamp} {trigger : String} {rowId : ClientId}

theorem mem_liveAssignmentsOf {a : StockTaskAssignment} : a ∈ liveAssignmentsOf db rowId ↔
    a ∈ db.assignments ∧ a.stockReportItemId = rowId ∧ a.isDeleted = false := by
  simp [liveAssignmentsOf]

/-- The deletion of a row moves only what is live, and leaves it deleted. -/
theorem cascade_trace (hk : Keyed StockTaskAssignment.clientId db.assignments)
    (ht : Trace ids db db') (hdeleted : ∀ b ∈ db'.assignments, b.clientId ∈ ids → b.isDeleted)
    (h : cascadeDeleteStockReportItem now trigger db' rowId = .ok db'') :
    ∃ ids', Trace ids' db db'' ∧ ∀ b ∈ db''.assignments, b.clientId ∈ ids' → b.isDeleted := by
  simp only [cascadeDeleteStockReportItem, bind_eq_ok, pure, Except.pure, Except.ok.injEq] at h
  obtain ⟨removed, hremove, zeroed, hzero, rfl⟩ := h
  have hk' := (ht.records hk).keyed
  have hp : Pending db' (liveAssignmentsOf db' rowId) :=
    ⟨fun a ha => (mem_liveAssignmentsOf.mp ha).1, fun a ha => (mem_liveAssignmentsOf.mp ha).2.2,
      (keyed_filter hk' _).perm (sortBy_perm _ _)⟩
  have hnew : ∀ a ∈ liveAssignmentsOf db' rowId, a.clientId ∉ ids := by
    intro a ha hid
    obtain ⟨hmem, -, hlive⟩ := mem_liveAssignmentsOf.mp ha
    simp [hdeleted a hmem hid] at hlive
  obtain ⟨ht, hlive⟩ := removeAssignments_trace hk ht hp hnew hremove
  have hgone : ∀ a ∈ removed.assignments, a.stockReportItemId = rowId → a.isDeleted := by
    intro a ha hrow
    by_contra hd
    obtain ⟨hmem, hnot⟩ := hlive a ha (by simpa using hd)
    exact hnot (List.mem_map_of_mem (mem_liveAssignmentsOf.mpr ⟨hmem, hrow, by simpa using hd⟩))
  have hassign := zeroLeftover_assignments hzero
  have ht := (ht.tail (Step.zero hgone hzero) (by simp)).tail
    (Step.drop now (hassign ▸ hgone)) (by simp)
  refine ⟨_, ht, fun b hb hid => ?_⟩
  change b ∈ ((openSnapshotsOf zeroed rowId).foldl (removeSnapshot now) zeroed).assignments at hb
  rw [(foldl_removeSnapshot_frame now _).assignments, hassign] at hb
  by_contra hd
  obtain ⟨hmem, hnot⟩ := hlive b hb (by simpa using hd)
  simp only [List.append_nil, List.mem_append] at hid
  rcases hid with hid | hid
  · exact hd (hdeleted b hmem hid)
  · exact hnot hid

theorem deleteStockReportItem_trace (hk : Keyed StockTaskAssignment.clientId db.assignments)
    (h : deleteStockReportItem db rowId now = .ok db') : ∃ ids, Trace ids db db' := by
  simp only [deleteStockReportItem, bind_eq_ok] at h
  obtain ⟨row, -, h⟩ := h
  obtain ⟨ids, ht, -⟩ := cascade_trace hk (Trace.refl db) (by simp) h
  exact ⟨ids, ht⟩

theorem processStockDemandDeleted_trace {categoryByKey : String → Option ClientId}
    {entries : List DemandEntry} {late : Bool}
    (hk : Keyed StockTaskAssignment.clientId db.assignments)
    (h : processStockDemandDeleted db categoryByKey entries now late = .ok db') :
    ∃ ids, Trace ids db db' := by
  simp only [processStockDemandDeleted, bind_eq_ok, throwIf_eq_ok, pure, Except.pure,
    Except.ok.injEq] at h
  obtain ⟨_, h, _, -, rfl⟩ := h
  obtain ⟨ids, ht, -⟩ := foldlM_invariant
    (fun d => ∃ ids, Trace ids db d ∧ ∀ b ∈ d.assignments, b.clientId ∈ ids → b.isDeleted)
    (by
      rintro d rowId - d' ⟨_, ht, hd⟩ h
      exact cascade_trace hk ht hd h)
    ⟨[], Trace.refl db, by simp⟩ h
  exact ⟨ids, ht⟩

end Cascade

end Commands

def Op.IsAssignmentCommand : Op → Prop
  | .createAssignments _ _ _ | .changeTaskStates _ | .itemsProcessed _ | .deleteAssignments _
  | .removeAssignments _ | .deleteRow _ _ | .stockDemandDeleted _ _ _ _ => True
  | _ => False

theorem step_trace {db db' : Db} {op : Op} (hop : op.IsAssignmentCommand)
    (hk : Keyed StockTaskAssignment.clientId db.assignments) (h : step db op = .ok db') :
    ∃ ids, Trace ids db db' := by
  cases op with
  | createAssignments => exact createStockTaskAssignments_trace hk h
  | changeTaskStates => exact changeTaskStates_trace hk h
  | itemsProcessed numbers =>
    obtain ⟨⟨d, results⟩, hprocess, hd⟩ := bind_eq_ok.mp h
    obtain rfl : d = db' := by simpa [pure, Except.pure] using hd
    exact processDiscovered_trace hk (discoverProcessed_live hk) hprocess
  | deleteAssignments => exact deleteStockTaskAssignments_trace hk h
  | removeAssignments => exact removeDiscovered_trace hk h
  | deleteRow => exact deleteStockReportItem_trace hk h
  | stockDemandDeleted => exact processStockDemandDeleted_trace hk h
  | _ => exact hop.elim

end BeyoManager.StockReport
