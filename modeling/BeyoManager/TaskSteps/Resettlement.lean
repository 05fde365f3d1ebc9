import BeyoManager.TaskSteps.SettledTime

/-! # Settling again

Averaged seconds are local in time, so a step's settled totals are the same at any later
time and however often they are recomputed and set.
-/

namespace BeyoManager.TaskSteps

open Analytics Grouping Relational Tally Transition

/-- An update that writes nothing a contribution reads. -/
structure KeepsTime (f : TaskStep → TaskStep) : Prop where
  clientId : ∀ s, (f s).clientId = s.clientId
  workingSectionId : ∀ s, (f s).workingSectionId = s.workingSectionId
  state : ∀ s, (f s).state = s.state
  recordedTimeMarkedWrong : ∀ s, (f s).recordedTimeMarkedWrong = s.recordedTimeMarkedWrong
  allowsBatchWorking : ∀ s, (f s).allowsBatchWorking = s.allowsBatchWorking
  isDeleted : ∀ s, (f s).isDeleted = s.isDeleted

theorem keepsTime_withTotals (db : Db) (byUser : List (ClientId × List RecordContribution)) :
    KeepsTime fun s => s.withTotals db byUser :=
  ⟨fun _ => rfl, fun _ => rfl, fun _ => rfl, fun _ => rfl, fun _ => rfl, fun _ => rfl⟩

variable {db : Db} {stepId : ClientId} {now now' : Instant} {f : TaskStep → TaskStep}

section Update

theorem find?_updateStep (hf : ∀ s, (f s).clientId = s.clientId) (db : Db)
    (stepId id : ClientId) :
    (db.updateStep stepId f).taskSteps.find? (fun s => s.clientId == id) =
      (db.taskSteps.find? fun s => s.clientId == id).map fun s =>
        if s.clientId == stepId then f s else s := by
  rw [Db.updateStep, updateWhere, List.find?_map]
  congr 1
  refine congrArg (fun p => db.taskSteps.find? p) ?_
  funext s
  simp only [Function.comp_apply]
  split
  · rw [hf]
  · rfl

theorem workerRows_updateStep (hf : ∀ s, (f s).clientId = s.clientId) (db : Db)
    (stepId userId : ClientId) :
    (db.updateStep stepId f).workerRows userId = (db.workerRows userId).map fun row =>
      (row.1, if row.2.clientId == stepId then f row.2 else row.2) := by
  rw [Db.workerRows, Db.workerRows, List.map_filterMap]
  congr 1
  funext r
  rw [find?_updateStep hf, Option.map_map, Option.map_map]
  rfl

theorem contribution_updateStep (hf : KeepsTime f) (row : Row) (seconds wasted : Seconds) :
    Row.contribution (row.1, if row.2.clientId == stepId then f row.2 else row.2) seconds wasted =
      row.contribution seconds wasted := by
  split
  · simp only [Row.contribution, hf.workingSectionId, hf.isDeleted, hf.state,
      hf.recordedTimeMarkedWrong, hf.allowsBatchWorking]
  · rfl

theorem workerIntervals_updateStep (hf : KeepsTime f) (db : Db) (stepId userId : ClientId) :
    (db.updateStep stepId f).workerIntervals userId = db.workerIntervals userId := by
  rw [Db.workerIntervals, Db.workerIntervals, workerRows_updateStep hf.clientId, List.map_map]
  refine List.map_congr_left fun row _ => ?_
  simp only [Function.comp_apply]
  split
  · simp only [Row.interval, hf.recordedTimeMarkedWrong, hf.allowsBatchWorking]
  · rfl

theorem closedContributions_updateStep (hf : KeepsTime f) (db : Db)
    (stepId id userId : ClientId) (now : Instant) :
    closedContributions (db.updateStep stepId f) id now userId =
      closedContributions db id now userId := by
  rw [closedContributions, closedContributions, workerIntervals_updateStep hf,
    workerRows_updateStep hf.clientId, List.map_map]
  refine congrArg _ (List.map_congr_left fun row _ => ?_)
  exact contribution_updateStep hf row _ _

theorem RecordsOk.updateStep (ok : db.RecordsOk) (hf : ∀ s, (f s).clientId = s.clientId)
    (stepId : ClientId) : (db.updateStep stepId f).RecordsOk :=
  ⟨ok.keyedRecords, keyed_update ok.keyedSteps fun s _ _ => hf s, ok.ordered, ok.credited⟩

theorem fetchTaskStep_updateStep (hf : KeepsTime f) (db : Db) (stepId id : ClientId) :
    (db.updateStep stepId f).fetchTaskStep id =
      (db.fetchTaskStep id).map fun s => if s.clientId == stepId then f s else s := by
  rw [Db.fetchTaskStep, Db.fetchTaskStep, Db.updateStep, updateWhere, List.find?_map]
  congr 1
  refine congrArg (fun p => db.taskSteps.find? p) ?_
  funext s
  simp only [Function.comp_apply]
  split
  · rw [hf.clientId, hf.isDeleted]
  · rfl

theorem updateStep_updateStep (hf : ∀ s, (f s).clientId = s.clientId) (db : Db)
    (stepId : ClientId) (g : TaskStep → TaskStep) :
    (db.updateStep stepId f).updateStep stepId g = db.updateStep stepId fun s => g (f s) := by
  rw [Db.updateStep, Db.updateStep, Db.updateStep]
  congr 1
  exact updateWhere_updateWhere fun s _ hs => by rwa [hf]

end Update

theorem settleStepTimeTotals_eq (ok : db.RecordsOk) (stepId : ClientId) (now : Instant) :
    settleStepTimeTotals db stepId now =
      if (db.fetchTaskStep stepId).isSome then
        db.updateStep stepId fun s => s.withTotals db
          ((db.settleUsers stepId).map fun uid => (uid, closedContributions db stepId now uid))
      else db := by
  rw [settleStepTimeTotals, settleContributions_eq ok]
  cases db.fetchTaskStep stepId <;> rfl

/-- A second settlement sets the totals of the first. -/
theorem settleStepTimeTotals_twice (ok : db.RecordsOk) (hle : now ≤ now')
    (hclosed : ∀ r ∈ db.stepStateRecords, r.stepId = stepId → ∀ x, r.exitedAt = some x → x ≤ now) :
    settleStepTimeTotals (settleStepTimeTotals db stepId now) stepId now' =
      settleStepTimeTotals db stepId now := by
  cases hs : db.fetchTaskStep stepId with
  | none =>
    have hnone : ∀ t, settleStepTimeTotals db stepId t = db := fun t => by
      rw [settleStepTimeTotals, hs]
    rw [hnone, hnone]
  | some s =>
    have hkeep := keepsTime_withTotals db ((db.settleUsers stepId).map fun uid =>
      (uid, closedContributions db stepId now uid))
    have hfetch := fetchTaskStep_updateStep hkeep db stepId stepId
    rw [settleStepTimeTotals_eq ok, hs, Option.isSome_some, if_pos rfl,
      settleStepTimeTotals_eq (RecordsOk.updateStep ok hkeep.clientId stepId), hfetch, hs,
      Option.map_some, Option.isSome_some, if_pos rfl, updateStep_updateStep hkeep.clientId]
    have husers : (db.updateStep stepId fun s => s.withTotals db ((db.settleUsers stepId).map
        fun uid => (uid, closedContributions db stepId now uid))).settleUsers stepId =
          db.settleUsers stepId := rfl
    rw [husers]
    simp only [closedContributions_updateStep hkeep, closedContributions_of_le ok hle hclosed]
    rfl

theorem settleStepTimeTotals_repeated (ok : db.RecordsOk)
    (hclosed : ∀ r ∈ db.stepStateRecords, r.stepId = stepId → ∀ x, r.exitedAt = some x → x ≤ now)
    {later : List Instant} (hlater : ∀ t ∈ later, now ≤ t) :
    later.foldl (fun db t => settleStepTimeTotals db stepId t)
        (settleStepTimeTotals db stepId now) = settleStepTimeTotals db stepId now := by
  induction later with
  | nil => rfl
  | cons t later ih =>
    rw [List.foldl_cons, settleStepTimeTotals_twice ok (hlater t List.mem_cons_self) hclosed]
    exact ih fun u hu => hlater u (List.mem_cons_of_mem t hu)

/-- Averaged seconds are local in time: what a record closed by now has earned does not
change when time passes, when another record closes or new ones enter at or after its exit,
or when records outside a window around it are left out. So a step is settled once for all. -/
theorem averagedSeconds_local :
    (∀ (intervals : List TimeInterval), Keyed TimeInterval.recordId intervals →
      ∀ i ∈ intervals, ∀ exit, i.exitedAt = some exit → ∀ now,
        (exit ≤ now → ∀ now', now ≤ now' →
          amount (averagedSecondsByRecord intervals now') i.recordId =
            amount (averagedSecondsByRecord intervals now) i.recordId) ∧
        (exit ≤ now → ∀ other, other ≠ i.recordId →
          (∀ j ∈ intervals, j.recordId = other → j.exitedAt = none) → ∀ closedAt, exit ≤ closedAt →
            amount (averagedSecondsByRecord (closeRecord intervals other closedAt) now) i.recordId =
              amount (averagedSecondsByRecord intervals now) i.recordId) ∧
        (∀ added, Keyed TimeInterval.recordId (intervals ++ added) →
          (∀ j ∈ added, exit ≤ j.enteredAt) →
            amount (averagedSecondsByRecord (intervals ++ added) now) i.recordId =
              amount (averagedSecondsByRecord intervals now) i.recordId) ∧
        (∀ windowStart windowEnd, windowStart ≤ i.enteredAt → exit ≤ windowEnd →
          amount (averagedSecondsByRecord (overlapping windowStart windowEnd intervals) now)
            i.recordId = amount (averagedSecondsByRecord intervals now) i.recordId)) ∧
    (∀ (db : Db), db.RecordsOk → ∀ stepId now,
      (∀ r ∈ db.stepStateRecords, r.stepId = stepId → ∀ exit, r.exitedAt = some exit →
        exit ≤ now) → ∀ later : List Instant, (∀ t ∈ later, now ≤ t) →
          later.foldl (fun db t => settleStepTimeTotals db stepId t)
            (settleStepTimeTotals db stepId now) = settleStepTimeTotals db stepId now) := by
  refine ⟨fun intervals hk i hi exit he now => ⟨fun hnow now' hle => ?_, ?_, ?_, ?_⟩, ?_⟩
  · exact amount_of_le hk hi he hnow hle
  · intro hnow other hother hopen closedAt hclosed
    exact amount_closeRecord hk hi he hnow hother hopen hclosed
  · exact fun added hk' hadd => amount_append hk' hi he hadd
  · exact fun _ _ hs hw => amount_overlapping hk hi he hs hw
  · exact fun db ok stepId now hclosed later hlater =>
      settleStepTimeTotals_repeated ok hclosed hlater

/-- A closed batch record beside an open one, and its step settled three times. -/
theorem averagedSeconds_local_shift :
    let shift : List TimeInterval :=
      [⟨"a", "s1", "working", 0, some 60, false, true⟩,
       ⟨"b", "s2", "working", 20, none, false, true⟩]
    let db : Db := ⟨[], [⟨"s1", "t", .completed, .ready, "w", 0, 0, false, false, true, some 60,
        some "c", ⟨0, 0, 0⟩, ⟨0, 0, 0⟩, ⟨0, 0, 0⟩, none, false⟩],
      [⟨"a", "s1", .working, none, none, none, false, false, 0, some 60, some "u", some "u", false⟩,
       ⟨"c", "s1", .completed, none, none, none, false, false, 60, none,
         some "u", some "u", false⟩],
      [], [], [], [], [], [], []⟩
    amount (averagedSecondsByRecord shift 500) "a" =
      amount (averagedSecondsByRecord shift 100) "a" ∧
    amount (averagedSecondsByRecord (closeRecord shift "b" 90) 100) "a" =
      amount (averagedSecondsByRecord shift 100) "a" ∧
    amount (averagedSecondsByRecord (shift ++ [⟨"d", "s3", "working", 60, none, false, true⟩]) 100)
      "a" = amount (averagedSecondsByRecord shift 100) "a" ∧
    amount (averagedSecondsByRecord (overlapping 0 60 shift) 100) "a" =
      amount (averagedSecondsByRecord shift 100) "a" ∧
    [100, 500].foldl (fun db t => settleStepTimeTotals db "s1" t)
      (settleStepTimeTotals db "s1" 60) = settleStepTimeTotals db "s1" 60 := by
  intro shift db
  have ok : db.RecordsOk := by
    refine ⟨by decide, by decide, ?_, by decide⟩
    intro r hr x hx
    rcases List.mem_cons.mp hr with rfl | hr
    · obtain rfl := Option.some.inj hx
      norm_num
    · rw [List.mem_singleton.mp hr] at hx
      cases hx
  have h := averagedSeconds_local
  obtain ⟨h1, h2, h3, h4⟩ := h.1 shift (by decide)
    ⟨"a", "s1", "working", 0, some 60, false, true⟩ List.mem_cons_self 60 rfl 100
  refine ⟨h1 (by norm_num) 500 (by norm_num), h2 (by norm_num) "b" (by decide) (by decide) 90
    (by norm_num), h3 _ (by decide) (by simp), h4 0 60 le_rfl le_rfl,
    h.2 db ok "s1" 60 ?_ [100, 500] (by norm_num)⟩
  intro r hr _ x hx
  rcases List.mem_cons.mp hr with rfl | hr
  · exact (Option.some.inj hx).ge
  · rw [List.mem_singleton.mp hr] at hx
    cases hx

end BeyoManager.TaskSteps
