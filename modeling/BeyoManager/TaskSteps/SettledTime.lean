import BeyoManager.Analytics.Locality
import BeyoManager.TaskSteps.Settlement

/-! # The settled time of a step

The window that a settlement loads holds all that the step's closed records depend on,
so the totals are those of the worker's whole time; and once the records are closed by
now, settling again sets the same totals.
-/

namespace BeyoManager.TaskSteps

open Analytics Grouping Relational Tally Transition

/-- The records are keyed, end no earlier than they begin, and name their users. -/
structure Db.RecordsOk (db : Db) : Prop where
  keyedRecords : Keyed StepStateRecord.clientId db.stepStateRecords
  keyedSteps : Keyed TaskStep.clientId db.taskSteps
  ordered : ∀ r ∈ db.stepStateRecords, ∀ x, r.exitedAt = some x → r.enteredAt ≤ x
  credited : ∀ r ∈ db.stepStateRecords, r.creditedUserId ≠ some ""

def Db.workerIntervals (db : Db) (userId : ClientId) : List TimeInterval :=
  (db.workerRows userId).map Row.interval

def Db.settleUsers (db : Db) (stepId : ClientId) : List ClientId :=
  (keys StepStateRecord.creditedOrCreator (db.timeRecords stepId)).filterMap id

/-- The counted contributions of one user, from all of the user's records. -/
def closedContributions (db : Db) (stepId : ClientId) (now : Instant) (userId : ClientId) :
    List RecordContribution :=
  ((db.workerRows userId).map fun row =>
    row.contribution (averagedSecondsByRecord (db.workerIntervals userId) now)
      (wastedSecondsByRecord (db.workerIntervals userId) now)).filter
        (RecordContribution.counts stepId)

variable {db : Db} {stepId userId : ClientId} {now now' : Instant}

section Rows

variable {row : Row}

theorem mem_workerRows : row ∈ db.workerRows userId ↔
    row.1 ∈ db.stepStateRecords ∧ row.1.worker = some userId ∧ row.1.isDeleted = false ∧
      row.1.state.isTimeBearing ∧
        db.taskSteps.find? (fun s => s.clientId == row.1.stepId) = some row.2 := by
  simp only [Db.workerRows, List.mem_filterMap, List.mem_filter, Bool.and_eq_true, beq_iff_eq,
    Bool.not_eq_true', Option.map_eq_some_iff]
  constructor
  · rintro ⟨r, ⟨hr, ⟨hw, hd⟩, ht⟩, s, hs, rfl⟩
    exact ⟨hr, hw, hd, ht, hs⟩
  · rintro ⟨hr, hw, hd, ht, hs⟩
    exact ⟨row.1, ⟨hr, ⟨hw, hd⟩, ht⟩, row.2, hs, rfl⟩

theorem workerRows_sublist (db : Db) (userId : ClientId) :
    ((db.workerRows userId).map Prod.fst).Sublist db.stepStateRecords := by
  have h : ∀ l : List StepStateRecord, ((l.filterMap fun r =>
      (db.taskSteps.find? fun s => s.clientId == r.stepId).map fun s => (r, s)).map
        Prod.fst).Sublist l := by
    intro l
    induction l with
    | nil => exact .slnil
    | cons r l ih =>
      rw [List.filterMap_cons]
      cases db.taskSteps.find? fun s => s.clientId == r.stepId with
      | none => exact ih.cons r
      | some s => exact ih.cons_cons r
  exact (h _).trans List.filter_sublist

theorem keyed_workerRows (hk : Keyed StepStateRecord.clientId db.stepStateRecords)
    (userId : ClientId) : Keyed (fun row : Row => row.1.clientId) (db.workerRows userId) := by
  have h := (workerRows_sublist db userId).map StepStateRecord.clientId
  rw [List.map_map] at h
  exact h.nodup hk

theorem keyed_workerIntervals (hk : Keyed StepStateRecord.clientId db.stepStateRecords)
    (userId : ClientId) : Keyed TimeInterval.recordId (db.workerIntervals userId) := by
  rw [Keyed, Db.workerIntervals, List.map_map]
  exact keyed_workerRows hk userId

theorem creditedOrCreator_eq {r : StepStateRecord} (h : r.creditedUserId ≠ some "") :
    r.creditedOrCreator = r.worker := by
  rw [StepStateRecord.creditedOrCreator, StepStateRecord.worker]
  cases hc : r.creditedUserId with
  | none => rfl
  | some u =>
    have hu : u ≠ "" := fun he => h (by rw [hc, he])
    simp [hu]

end Rows

section Windows

variable {records : List StepStateRecord}

def widened (now : Instant) (span : Option (Instant × Instant)) (r : StepStateRecord) :
    Option (Instant × Instant) :=
  match span with
  | none => some (r.enteredAt, r.exitedAt.getD now)
  | some (s, e) => some (min s r.enteredAt, max e (r.exitedAt.getD now))

/-- The span of some records holds each of them. -/
theorem span_spec {a b : Instant} (h : span records now = some (a, b)) :
    ∀ r ∈ records, a ≤ r.enteredAt ∧ r.exitedAt.getD now ≤ b := by
  have hfold : ∀ (l : List StepStateRecord) (init : Option (Instant × Instant)),
      l.foldl (widened now) init = some (a, b) →
      (∀ p, init = some p → a ≤ p.1 ∧ p.2 ≤ b) ∧
        ∀ r ∈ l, a ≤ r.enteredAt ∧ r.exitedAt.getD now ≤ b := by
    intro l
    induction l with
    | nil =>
      rintro init h
      obtain rfl : init = some (a, b) := h
      exact ⟨fun p hp => by cases hp; exact ⟨le_rfl, le_rfl⟩, by simp⟩
    | cons r l ih =>
      intro init h
      obtain ⟨hinit, hl⟩ := ih _ h
      cases init with
      | none =>
        obtain ⟨h1, h2⟩ := hinit _ rfl
        exact ⟨by simp, List.forall_mem_cons.mpr ⟨⟨h1, h2⟩, hl⟩⟩
      | some p =>
        obtain ⟨h1, h2⟩ := hinit _ rfl
        obtain ⟨h1, h1'⟩ := le_min_iff.mp h1
        obtain ⟨h2, h2'⟩ := max_le_iff.mp h2
        refine ⟨fun q hq => ?_, List.forall_mem_cons.mpr ⟨⟨h1', h2'⟩, hl⟩⟩
        cases hq
        exact ⟨h1, h2⟩
  exact (hfold records none h).2

theorem span_ne_none (now : Instant) (h : records ≠ []) : ∃ p, span records now = some p := by
  obtain ⟨r, l, rfl⟩ := List.exists_cons_of_ne_nil h
  have hsome : ∀ (l : List StepStateRecord) (p : Instant × Instant), ∃ q,
      l.foldl (widened now) (some p) = some q := by
    intro l
    induction l with
    | nil => exact fun p => ⟨p, rfl⟩
    | cons r l ih => exact fun p => ih _
  exact hsome l _

theorem settleWindows_map_fst (records : List StepStateRecord) (now : Instant) :
    (settleWindows records now).map Prod.fst =
      (keys StepStateRecord.creditedOrCreator records).filterMap id := by
  have h : ∀ l : List ClientId, (∀ uid ∈ l, some uid ∈
      keys StepStateRecord.creditedOrCreator records) →
      (l.filterMap fun uid => (span (group StepStateRecord.creditedOrCreator records (some uid))
        now).map (uid, ·)).map Prod.fst = l := by
    intro l hl
    induction l with
    | nil => rfl
    | cons uid l ih =>
      have hne : group StepStateRecord.creditedOrCreator records (some uid) ≠ [] :=
        fun he => group_eq_nil.mp he (hl uid List.mem_cons_self)
      obtain ⟨p, hp⟩ := span_ne_none now hne
      rw [List.filterMap_cons, hp, Option.map_some, List.map_cons,
        ih fun u hu => hl u (List.mem_cons_of_mem uid hu)]
  exact h _ fun uid hu => by simpa using hu

theorem mem_settleWindows {uid : ClientId} {a b : Instant}
    (h : (uid, a, b) ∈ settleWindows records now) :
    ∀ r ∈ records, r.creditedOrCreator = some uid →
      a ≤ r.enteredAt ∧ r.exitedAt.getD now ≤ b := by
  obtain ⟨u, _, hu⟩ := List.mem_filterMap.mp h
  obtain ⟨p, hp, he⟩ := Option.map_eq_some_iff.mp hu
  obtain ⟨rfl, rfl⟩ := Prod.mk.inj he
  exact fun r hr hru => span_spec hp r (mem_group.mpr ⟨hr, hru⟩)

end Windows

section Contributions

def Row.counts (stepId : ClientId) (row : Row) : Bool :=
  row.1.stepId == stepId && !row.1.exitedAt.isNone && timeBuckets.contains (bucketState row.1)

theorem filter_counts (rows : List Row) (stepId : ClientId) (seconds wasted : Seconds) :
    (rows.map fun row => row.contribution seconds wasted).filter
        (RecordContribution.counts stepId) =
      (rows.filter (Row.counts stepId)).map fun row => row.contribution seconds wasted := by
  rw [List.filter_map]
  exact congrArg _ (List.filter_congr fun _ _ => rfl)

theorem Row.counts_iff {row : Row} : row.counts stepId = true ↔
    row.1.stepId = stepId ∧ (∃ x, row.1.exitedAt = some x) ∧
      timeBuckets.contains (bucketState row.1) := by
  simp only [Row.counts, Bool.and_eq_true, beq_iff_eq, Bool.not_eq_true', and_assoc]
  refine and_congr_right fun _ => and_congr_left fun _ => ?_
  cases row.1.exitedAt <;> simp

theorem inWindow_map_interval (rows : List Row) (a b : Instant) :
    (rows.filter (Row.inWindow a b)).map Row.interval =
      overlapping a b (rows.map Row.interval) := by
  rw [overlapping, List.filter_map]
  rfl

theorem amount_window (now : Instant) (ok : db.RecordsOk) {row : Row}
    (hrow : row ∈ db.workerRows userId)
    {x : Instant} (hx : row.1.exitedAt = some x) {a b : Instant} (ha : a ≤ row.1.enteredAt)
    (hb : x ≤ b) :
    amount (averagedSecondsByRecord (overlapping a b (db.workerIntervals userId)) now)
        row.1.clientId =
      amount (averagedSecondsByRecord (db.workerIntervals userId) now) row.1.clientId ∧
    amount (wastedSecondsByRecord (overlapping a b (db.workerIntervals userId)) now)
        row.1.clientId =
      amount (wastedSecondsByRecord (db.workerIntervals userId) now) row.1.clientId := by
  have hk := keyed_workerIntervals ok.keyedRecords userId
  have hi : row.interval ∈ db.workerIntervals userId := List.mem_map_of_mem hrow
  refine ⟨amount_overlapping hk hi hx ha hb, ?_⟩
  have hflip : (overlapping a b (db.workerIntervals userId)).map TimeInterval.flip =
      overlapping a b ((db.workerIntervals userId).map TimeInterval.flip) := by
    rw [overlapping, overlapping, List.filter_map]
    rfl
  rw [wastedSecondsByRecord_eq, wastedSecondsByRecord_eq, hflip]
  exact amount_overlapping (keyed_map_flip hk) (List.mem_map_of_mem hi) hx ha hb

/-- The window of a user holds all that the step's closed records depend on. -/
theorem computeRecordContributions_counted (ok : db.RecordsOk) {a b : Instant}
    (h : (userId, a, b) ∈ settleWindows (db.timeRecords stepId) now) :
    (computeRecordContributions db userId (a - settleBuffer) (b + settleBuffer) now).filter
        (RecordContribution.counts stepId) = closedContributions db stepId now userId := by
  have hinside : ∀ row ∈ db.workerRows userId, row.1.stepId = stepId →
      ∀ x, row.1.exitedAt = some x → a ≤ row.1.enteredAt ∧ x ≤ b := by
    intro row hrow hstep x hx
    obtain ⟨hr, hw, hd, ht, _⟩ := mem_workerRows.mp hrow
    have hrec : row.1 ∈ db.timeRecords stepId :=
      List.mem_filter.mpr ⟨hr, by simp [hstep, hd, ht]⟩
    have hspan := mem_settleWindows h row.1 hrec
      ((creditedOrCreator_eq (ok.credited _ hr)).trans hw)
    rwa [hx, Option.getD_some] at hspan
  have hbuffer : (0 : Instant) < settleBuffer := by norm_num [settleBuffer]
  have hrows : ((db.workerRows userId).filter
      (Row.inWindow (a - settleBuffer) (b + settleBuffer))).filter (Row.counts stepId) =
        (db.workerRows userId).filter (Row.counts stepId) := by
    rw [List.filter_filter]
    refine List.filter_congr fun row hrow => ?_
    rw [Bool.eq_iff_iff, Bool.and_eq_true]
    refine and_iff_left_of_imp fun hc => ?_
    obtain ⟨hstep, ⟨x, hx⟩, _⟩ := Row.counts_iff.mp hc
    obtain ⟨ha, hb⟩ := hinside row hrow hstep x hx
    have hle := ok.ordered _ (mem_workerRows.mp hrow).1 x hx
    simp only [Row.inWindow, hx, Option.all_some, Bool.and_eq_true, decide_eq_true_eq]
    constructor <;> linarith
  rw [computeRecordContributions, filter_counts, hrows, closedContributions, filter_counts,
    inWindow_map_interval]
  refine List.map_congr_left fun row hrow => ?_
  obtain ⟨hrow, hcount⟩ := List.mem_filter.mp hrow
  obtain ⟨hstep, ⟨x, hx⟩, _⟩ := Row.counts_iff.mp hcount
  obtain ⟨ha, hb⟩ := hinside row hrow hstep x hx
  obtain ⟨h1, h2⟩ := amount_window now ok hrow hx
    (show a - settleBuffer ≤ row.1.enteredAt by linarith)
    (show x ≤ b + settleBuffer by linarith)
  simp only [Row.contribution, RecordContribution.mk.injEq, true_and, and_true]
  exact ⟨h1, h2⟩

theorem settleContributions_eq (ok : db.RecordsOk) (stepId : ClientId) (now : Instant) :
    settleContributions db stepId now =
      (db.settleUsers stepId).map fun uid => (uid, closedContributions db stepId now uid) := by
  rw [Db.settleUsers, ← settleWindows_map_fst _ now, List.map_map, settleContributions]
  refine List.map_congr_left fun w hw => ?_
  obtain ⟨uid, a, b⟩ := w
  simp only [Function.comp_apply, Prod.mk.injEq, true_and]
  exact computeRecordContributions_counted ok hw

theorem closedContributions_of_le (ok : db.RecordsOk) (hle : now ≤ now')
    (hclosed : ∀ r ∈ db.stepStateRecords, r.stepId = stepId → ∀ x, r.exitedAt = some x → x ≤ now)
    (userId : ClientId) :
    closedContributions db stepId now' userId = closedContributions db stepId now userId := by
  have hk := keyed_workerIntervals ok.keyedRecords userId
  rw [closedContributions, closedContributions, filter_counts, filter_counts]
  refine List.map_congr_left fun row hrow => ?_
  obtain ⟨hrow, hc⟩ := List.mem_filter.mp hrow
  obtain ⟨hstep, ⟨x, hx⟩, _⟩ := Row.counts_iff.mp hc
  have hxn := hclosed _ (mem_workerRows.mp hrow).1 hstep x hx
  have hi : row.interval ∈ db.workerIntervals userId := List.mem_map_of_mem hrow
  simp only [Row.contribution, RecordContribution.mk.injEq, true_and, and_true]
  refine ⟨amount_of_le hk hi hx hxn hle, ?_⟩
  rw [wastedSecondsByRecord_eq, wastedSecondsByRecord_eq]
  exact amount_of_le (keyed_map_flip hk) (List.mem_map_of_mem hi) hx hxn hle

end Contributions

end BeyoManager.TaskSteps
