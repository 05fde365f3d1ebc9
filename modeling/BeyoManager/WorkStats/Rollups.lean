import BeyoManager.TaskSteps.SettledTime
import BeyoManager.WorkStats.PassRows

/-! # The totals are the sums of the days

Whatever the handler reads from run to run, the row of a user adds up the user's days and the row
of a section and day adds up its users. A handler that reads the same again changes no figure, as
long as no closed record ends after its first run.
-/

namespace BeyoManager.WorkStats

open Analytics Relational Rollup Tally TaskSteps

section Sums

variable {columns : Column → Bool} {fig : DayFigures} {userId : ClientId} {workDate : Date}
  {stats : Stats} {t : Table (ClientId × ClientId × Date) StatsRow}
  {t' : Table (ClientId × Date) StatsRow} {owed : ClientId × Date → Totals}

def owedTo (workDate : Date) (deltas : List (ClientId × Totals)) : ClientId × Date → Totals :=
  (deltas.map fun d => Pi.single (d.1, workDate) d.2).sum

/-- The totals of the users owe nothing, and neither do those of the sections. -/
structure InSums (stats : Stats) : Prop where
  userLifetime : Owes figures figures Prod.fst stats.userDaily stats.userLifetime 0
  sectionDaily : Owes figures figures Prod.snd stats.userSectionDaily stats.sectionDaily 0

theorem owes_setSection (ids : List ClientId) (deltas : List (ClientId × Totals))
    (h : Owes figures figures Prod.snd t t' (owed + owedTo workDate deltas)) :
    Owes figures figures Prod.snd
      (ids.foldl (setSection columns fig userId workDate) (t, deltas)).1 t'
      (owed + owedTo workDate
        (ids.foldl (setSection columns fig userId workDate) (t, deltas)).2) := by
  induction ids generalizing t deltas with
  | nil => exact h
  | cons id ids ih =>
    refine ih _ ?_
    have hset := h.set (userId, id, workDate)
      (applySet columns (fig.ofSection id) (getOrCreate t (userId, id, workDate)))
    rw [figures_applySet, valueAt_figures, add_sub_cancel_left] at hset
    simpa [setSection, owedTo, add_assoc] using hset

theorem owes_applySectionDelta (deltas : List (ClientId × Totals))
    (hdeltas : ∀ d ∈ deltas, ∀ c, columns c = false → d.2 c = 0)
    (h : Owes figures figures Prod.snd t t' (owed + owedTo workDate deltas)) :
    Owes figures figures Prod.snd t
      (deltas.foldl (applySectionDelta columns workDate) t') owed := by
  induction deltas generalizing t' with
  | nil => simpa [owedTo] using h
  | cons d deltas ih =>
    refine ih (fun d' hd' => hdeltas d' (List.mem_cons_of_mem d hd')) ?_
    have hrow : figures (applyDelta columns d.2 (getOrCreate t' (d.1, workDate))) =
        valueAt figures t' (d.1, workDate) + d.2 := by
      rw [figures_applyDelta (hdeltas d List.mem_cons_self), valueAt_figures]
    have happly := h.apply hrow
    have howed : owed + owedTo workDate (d :: deltas) - Pi.single (d.1, workDate) d.2 =
        owed + owedTo workDate deltas := by
      rw [owedTo, owedTo, List.map_cons, List.sum_cons]
      abel
    rwa [howed] at happly

/-- A pass adds to the totals what it changes in the rows of the day. -/
theorem InSums.pass (h : InSums stats) : InSums (pass columns fig userId workDate stats) := by
  constructor
  · let row := getOrCreate stats.userDaily (userId, workDate)
    have hset := h.userLifetime.set (userId, workDate) (applySet columns fig.day row)
    rw [figures_applySet, valueAt_figures, add_sub_cancel_left, zero_add] at hset
    have hrow : figures (applyDelta columns (asDelta columns fig.day row)
        (getOrCreate stats.userLifetime userId)) =
          valueAt figures stats.userLifetime userId + asDelta columns fig.day row := by
      rw [figures_applyDelta fun c hc => asDelta_of_not hc, valueAt_figures]
    have happly := hset.apply hrow
    rwa [sub_self] at happly
  · let ids := allSectionIds fig userId workDate stats.userSectionDaily
    have hempty : Owes figures figures Prod.snd stats.userSectionDaily stats.sectionDaily
        (0 + owedTo workDate []) := by
      simpa [owedTo] using h.sectionDaily
    refine owes_applySectionDelta _ ?_ (owes_setSection ids [] hempty)
    intro d hd c hc
    rw [(foldl_setSection allSectionIds_nodup []).2, List.nil_append, List.mem_map] at hd
    obtain ⟨id, -, rfl⟩ := hd
    exact asDelta_of_not hc

theorem InSums.reconcileTime (h : InSums stats) (records : Records) (now : Instant)
    (payload : StepTransitionPayload) : InSums (reconcileTime records now stats payload) := by
  rw [WorkStats.reconcileTime]
  split
  · exact h.pass
  · exact h

theorem InSums.reconcileCompletions (h : InSums stats) (records : Records)
    (payload : StepTransitionPayload) : InSums (reconcileCompletions records stats payload) := by
  rw [WorkStats.reconcileCompletions]
  split
  · exact h.pass
  · exact h

theorem InSums.handle (h : InSums stats) (run : HandlerRun) :
    InSums (handleProcessStepTransition stats run) := by
  rw [handleProcessStepTransition]
  split
  · exact (h.reconcileTime _ _ _).reconcileCompletions _ _
  · exact h

theorem inSums_runHandlers (runs : List HandlerRun) : InSums (runHandlers Stats.empty runs) := by
  rw [runHandlers]
  induction runs using List.reverseRecOn with
  | nil => exact ⟨owes_empty, owes_empty⟩
  | append_singleton runs run ih =>
    rw [List.foldl_append]
    exact ih.handle run

end Sums

section Again

variable {records : Records} {userId : ClientId} {workDate : Date} {now now' : Instant}
  {stats stats' stats'' : Stats}

def EndedBy (db : Db) (now : Instant) : Prop :=
  ∀ r ∈ db.stepStateRecords, ∀ x, r.exitedAt = some x → x ≤ now

instance (db : Db) (now : Instant) : Decidable (EndedBy db now) :=
  decidable_of_iff (∀ r ∈ db.stepStateRecords, r.exitedAt.all fun x => decide (x ≤ now)) <| by
    refine forall₂_congr fun r _ => ?_
    cases r.exitedAt <;> simp

def settledOn (workDate : Date) (row : Row) : Bool :=
  !row.1.exitedAt.isNone && dateOf row.1.enteredAt == workDate

theorem filter_settled (rows : List Row) (seconds wasted : Seconds) :
    (rows.map fun row => row.contribution seconds wasted).filter
        (fun c => !c.isOpen && dateOf c.enteredAt == workDate) =
      (rows.filter (settledOn workDate)).map fun row => row.contribution seconds wasted := by
  rw [List.filter_map]
  exact congrArg _ (List.filter_congr fun _ _ => rfl)

theorem settledContributions_of_le (hk : Keyed StepStateRecord.clientId records.db.stepStateRecords)
    (hended : EndedBy records.db now) (hle : now ≤ now') :
    settledContributions records.db userId workDate now' =
      settledContributions records.db userId workDate now := by
  rw [settledContributions, settledContributions, computeRecordContributions,
    computeRecordContributions, filter_settled, filter_settled]
  refine List.map_congr_left fun row hrow => ?_
  obtain ⟨hrow, hsettled⟩ := List.mem_filter.mp hrow
  simp only [settledOn, Bool.and_eq_true, Bool.not_eq_true', Option.isNone_eq_false_iff,
    Option.isSome_iff_exists] at hsettled
  obtain ⟨⟨x, hx⟩, -⟩ := hsettled
  have hxn := hended _ (mem_workerRows.mp (List.mem_filter.mp hrow).1).1 x hx
  have hkeyed : Keyed TimeInterval.recordId
      (((records.db.workerRows userId).filter (Row.inWindow (dayStart workDate - daySeconds)
        (dayStart (workDate + 1) + daySeconds))).map Row.interval) := by
    rw [Keyed, List.map_map]
    exact keyed_filter (keyed_workerRows hk userId) _
  have hi := List.mem_map_of_mem (f := Row.interval) hrow
  simp only [Row.contribution, RecordContribution.mk.injEq, true_and, and_true]
  constructor
  · exact amount_of_le hkeyed hi hx hxn hle
  · rw [wastedSecondsByRecord_eq, wastedSecondsByRecord_eq]
    exact amount_of_le (keyed_map_flip hkeyed) (List.mem_map_of_mem hi) hx hxn hle

theorem timeFigures_of_ended (hk : Keyed StepStateRecord.clientId records.db.stepStateRecords)
    (hended : EndedBy records.db now) (hended' : EndedBy records.db now') :
    timeFigures records userId workDate now' = timeFigures records userId workDate now := by
  have hsettled : settledContributions records.db userId workDate now' =
      settledContributions records.db userId workDate now := by
    rcases le_total now now' with hle | hle
    · exact settledContributions_of_le hk hended hle
    · exact (settledContributions_of_le hk hended' hle).symm
  rw [timeFigures, timeFigures, hsettled]

theorem Stats.Same.refl (stats : Stats) : stats.Same stats :=
  ⟨fun _ => rfl, fun _ => rfl, fun _ => rfl, fun _ => rfl⟩

theorem Stats.Same.trans (h : stats.Same stats') (h' : stats'.Same stats'') :
    stats.Same stats'' where
  userDaily k := (h.userDaily k).trans (h'.userDaily k)
  userSectionDaily k := (h.userSectionDaily k).trans (h'.userSectionDaily k)
  sectionDaily k := (h.sectionDaily k).trans (h'.sectionDaily k)
  userLifetime k := (h.userLifetime k).trans (h'.userLifetime k)

/-- The run reads these records, before and after, when all that have an end have ended. -/
structure HandlerRun.Reads (run : HandlerRun) (records : Records) : Prop where
  before : run.before = records
  after : run.after = records
  ended : EndedBy records.db run.now

instance (run : HandlerRun) (records : Records) : Decidable (run.Reads records) :=
  decidable_of_iff (run.before = records ∧ run.after = records ∧ EndedBy records.db run.now)
    ⟨fun ⟨h1, h2, h3⟩ => ⟨h1, h2, h3⟩, fun h => ⟨h.before, h.after, h.ended⟩⟩

theorem isCompletion_of_isTime (c : Column) (h : c.isTime = true) : c.isCompletion = false := by
  simpa [Column.isTime] using h

theorem isTime_of_isCompletion (c : Column) (h : c.isCompletion = true) : c.isTime = false := by
  simp [Column.isTime, h]

/-- Handlers that read the same records leave a day's time settled. -/
theorem Settled.handle_time (hk : Keyed StepStateRecord.clientId records.db.stepStateRecords)
    (hended : EndedBy records.db now) {run : HandlerRun} (hrun : run.Reads records)
    (h : Settled Column.isTime (timeFigures records userId workDate now) userId workDate stats) :
    Settled Column.isTime (timeFigures records userId workDate now) userId workDate
      (handleProcessStepTransition stats run) := by
  have htime : Settled Column.isTime (timeFigures records userId workDate now) userId workDate
      (reconcileTime run.before run.now stats run.payload) := by
    rw [reconcileTime]
    split
    · by_cases hkey : (run.payload.creditedUserId, dateOf run.payload.enteredAt) =
          (userId, workDate)
      · obtain ⟨rfl, rfl⟩ := Prod.mk.inj hkey
        rw [← timeFigures_of_ended hk hended hrun.ended, ← hrun.before]
        exact settled_pass
      · exact h.pass_other (.inl hkey)
    · exact h
  rw [handleProcessStepTransition]
  split
  · rw [reconcileCompletions]
    split
    · exact htime.pass_other (.inr isCompletion_of_isTime)
    · exact htime
  · exact h

/-- Handlers that read the same records leave a day's completions settled. -/
theorem Settled.handle_completions {run : HandlerRun} (hrun : run.Reads records)
    (h : Settled Column.isCompletion (completionFigures records userId workDate) userId workDate
      stats) :
    Settled Column.isCompletion (completionFigures records userId workDate) userId workDate
      (handleProcessStepTransition stats run) := by
  have htime : Settled Column.isCompletion (completionFigures records userId workDate) userId
      workDate (reconcileTime run.before run.now stats run.payload) := by
    rw [reconcileTime]
    split
    · exact h.pass_other (.inr isTime_of_isCompletion)
    · exact h
  rw [handleProcessStepTransition]
  split
  · rw [reconcileCompletions]
    split
    · by_cases hkey : (run.payload.creditedUserId, dateOf run.payload.exitedAt) =
          (userId, workDate)
      · obtain ⟨rfl, rfl⟩ := Prod.mk.inj hkey
        rw [← hrun.after]
        exact settled_pass
      · exact htime.pass_other (.inl hkey)
    · exact htime
  · exact h

/-- The days that a payload is about hold what is recomputed from the records. -/
structure SettledFor (records : Records) (now : Instant) (payload : StepTransitionPayload)
    (stats : Stats) : Prop where
  time : payload.creditedUserId ≠ "" ∧ payload.closingState.isTimeBearing →
    Settled Column.isTime
      (timeFigures records payload.creditedUserId (dateOf payload.enteredAt) now)
      payload.creditedUserId (dateOf payload.enteredAt) stats
  completions : payload.newState = .completed ∧ payload.creditedUserId ≠ "" →
    Settled Column.isCompletion
      (completionFigures records payload.creditedUserId (dateOf payload.exitedAt))
      payload.creditedUserId (dateOf payload.exitedAt) stats

section SettledFor

variable {run : HandlerRun} {payload : StepTransitionPayload}

theorem settledFor_handle (hrun : run.Reads records)
    (hfound : records.db.stepStateRecords.any fun r =>
      r.clientId == run.payload.closingRecordId) :
    SettledFor records run.now run.payload (handleProcessStepTransition stats run) := by
  rw [handleProcessStepTransition, if_pos (by rw [hrun.before]; exact hfound)]
  constructor
  · intro htime
    have hsettled : Settled Column.isTime
        (timeFigures records run.payload.creditedUserId (dateOf run.payload.enteredAt) run.now)
        run.payload.creditedUserId (dateOf run.payload.enteredAt)
        (reconcileTime run.before run.now stats run.payload) := by
      rw [reconcileTime, if_pos htime, ← hrun.before]
      exact settled_pass
    rw [reconcileCompletions]
    split
    · exact hsettled.pass_other (.inr isCompletion_of_isTime)
    · exact hsettled
  · intro hcompleted
    rw [reconcileCompletions, if_pos hcompleted, ← hrun.after]
    exact settled_pass

theorem SettledFor.handle (hk : Keyed StepStateRecord.clientId records.db.stepStateRecords)
    (hended : EndedBy records.db now) (hrun : run.Reads records)
    (h : SettledFor records now payload stats) :
    SettledFor records now payload (handleProcessStepTransition stats run) where
  time htime := (h.time htime).handle_time hk hended hrun
  completions hcompleted := (h.completions hcompleted).handle_completions hrun

/-- A handler that reads what the days already hold changes no figure. -/
theorem SettledFor.same (hk : Keyed StepStateRecord.clientId records.db.stepStateRecords)
    (hended : EndedBy records.db now) (hrun : run.Reads records)
    (h : SettledFor records now run.payload stats) :
    stats.Same (handleProcessStepTransition stats run) := by
  have htimeSame : stats.Same (reconcileTime run.before run.now stats run.payload) := by
    rw [reconcileTime]
    split
    · rename_i htime
      have hsettled := h.time htime
      rw [← timeFigures_of_ended hk hended hrun.ended, ← hrun.before] at hsettled
      exact hsettled.pass_same
    · exact .refl _
  rw [handleProcessStepTransition]
  split
  · rw [reconcileCompletions]
    split
    · rename_i hcompleted
      have hsettled : Settled Column.isCompletion
          (completionFigures records run.payload.creditedUserId (dateOf run.payload.exitedAt))
          run.payload.creditedUserId (dateOf run.payload.exitedAt)
          (reconcileTime run.before run.now stats run.payload) := by
        rw [reconcileTime]
        split
        · exact (h.completions hcompleted).pass_other (.inr isTime_of_isCompletion)
        · exact h.completions hcompleted
      rw [← hrun.after] at hsettled
      exact htimeSame.trans hsettled.pass_same
    · exact htimeSame
  · exact .refl _

theorem SettledFor.runHandlers (hk : Keyed StepStateRecord.clientId records.db.stepStateRecords)
    (hended : EndedBy records.db now) {runs : List HandlerRun} (hruns : ∀ r ∈ runs, r.Reads records)
    (h : SettledFor records now payload stats) :
    SettledFor records now payload (runHandlers stats runs) := by
  induction runs generalizing stats with
  | nil => exact h
  | cons run runs ih =>
    have hrun := hruns run List.mem_cons_self
    exact ih (fun r hr => hruns r (List.mem_cons_of_mem run hr)) (h.handle hk hended hrun)

end SettledFor

/-- The totals are the sums of the days after any runs, and a run that reads what an earlier run
read changes no figure when the runs between them read the same too. -/
theorem work_stats_add_up :
    (∀ runs : List HandlerRun,
      let stats := runHandlers Stats.empty runs
      (∀ userId, valueAt figures stats.userLifetime userId =
        groupTotal figures Prod.fst stats.userDaily userId) ∧
      ∀ section_ : ClientId × Date, valueAt figures stats.sectionDaily section_ =
        groupTotal figures Prod.snd stats.userSectionDaily section_) ∧
    ∀ (earlier between : List HandlerRun) (run again : HandlerRun) (records : Records),
      Keyed StepStateRecord.clientId records.db.stepStateRecords →
      (∀ r ∈ run :: between ++ [again], r.Reads records) → again.payload = run.payload →
        (runHandlers Stats.empty (earlier ++ run :: between)).Same
          (runHandlers Stats.empty (earlier ++ run :: between ++ [again])) := by
  constructor
  · intro runs
    have h := inSums_runHandlers runs
    exact ⟨h.userLifetime.valueAt_eq, h.sectionDaily.valueAt_eq⟩
  · intro earlier between run again records hk hreads hpayload
    have hrun := hreads run (by simp)
    have hagain := hreads again (by simp)
    have hbetween : ∀ r ∈ between, r.Reads records := fun r hr => hreads r (by simp [hr])
    let first := handleProcessStepTransition (runHandlers Stats.empty earlier) run
    have hstates : runHandlers Stats.empty (earlier ++ run :: between) =
        runHandlers first between := by
      rw [runHandlers, List.foldl_append, List.foldl_cons]
      rfl
    have hlast : runHandlers Stats.empty (earlier ++ run :: between ++ [again]) =
        handleProcessStepTransition (runHandlers first between) again := by
      rw [← hstates, runHandlers, List.foldl_append]
      rfl
    rw [hlast, hstates]
    by_cases hfound : records.db.stepStateRecords.any fun r =>
        r.clientId == run.payload.closingRecordId
    · have hfirst : SettledFor records run.now run.payload first := settledFor_handle hrun hfound
      have hsettled := hfirst.runHandlers hk hrun.ended hbetween
      rw [← hpayload] at hsettled
      exact hsettled.same hk hrun.ended hagain
    · rw [handleProcessStepTransition, if_neg (by rw [hagain.before, hpayload]; exact hfound)]
      exact .refl _

section Bench

/-- A workspace whose worker closed a record of a batch step and has another one open. -/
def benchRecords (salary exitedAt : ℚ) : Records where
  db := {
    tasks := [⟨"task", .working, none, false⟩]
    taskSteps := ["wash", "dry"].map fun stepId => {
      clientId := stepId
      taskId := "task"
      state := .working
      readinessStatus := .ready
      workingSectionId := "washing"
      totalDependencies := 0
      completedDependencies := 0
      recordedTimeMarkedWrong := false
      takenFromAverage := false
      allowsBatchWorking := true
      closedAt := none
      latestStateRecordId := none
      totalWorking := ⟨0, 0, 0⟩
      totalPause := ⟨0, 0, 0⟩
      totalEndedShift := ⟨0, 0, 0⟩
      totalCostMinor := none
      isDeleted := false }
    stepStateRecords := [("washed", "wash", 0, some exitedAt), ("drying", "dry", 1800, none)].map
      fun (recordId, stepId, enteredAt, exitedAt) => {
        clientId := recordId
        stepId := stepId
        state := .working
        pauseReasonId := none
        transitionReason := none
        description := none
        takenFromAverage := false
        recordedTimeMarkedWrong := false
        enteredAt := enteredAt
        exitedAt := exitedAt
        createdById := some "worker"
        creditedUserId := some "worker"
        isDeleted := false }
    taskStepDependencies := []
    workingSections := [⟨"washing", true, false⟩]
    workingSectionDependencies := []
    pauseReasons := []
    items := []
    taskItems := []
    userWorkProfiles := [⟨"worker", some salary⟩] }
  itemIssues := []

def benchRun (records : Records) (now : Instant) : HandlerRun :=
  ⟨⟨"washed", .working, .paused, "worker", 0, 3600⟩, records, records, now⟩

theorem Stats.Same.lifetime (h : stats.Same stats') (userId : ClientId) :
    valueAt figures stats.userLifetime userId = valueAt figures stats'.userLifetime userId := by
  rw [valueAt, valueAt, h.userLifetime]

/-- The same step records give other figures when the worker's pay was raised between the runs, or
when a record ends after the first of them. -/
theorem work_stats_change_again :
    (∃ records records' : Records,
      records.db.stepStateRecords = records'.db.stepStateRecords ∧
        records.db.taskSteps = records'.db.taskSteps ∧
          ¬ (runHandlers Stats.empty [benchRun records 3600]).Same
            (runHandlers Stats.empty [benchRun records 3600, benchRun records' 3600])) ∧
    ∃ records : Records,
      ¬ (runHandlers Stats.empty [benchRun records 1800]).Same
        (runHandlers Stats.empty [benchRun records 1800, benchRun records 3600]) := by
  constructor
  · refine ⟨benchRecords 100 3600, benchRecords 200 3600, rfl, rfl, fun h => ?_⟩
    have hcost := congrFun (h.lifetime "worker") .totalCostMinor
    revert hcost
    decide +kernel
  · refine ⟨benchRecords 100 3600, fun h => ?_⟩
    have hseconds := congrFun (h.lifetime "worker") .totalWorkingSeconds
    revert hseconds
    decide +kernel

theorem work_stats_add_up_twice :
    (runHandlers Stats.empty ([] ++ benchRun (benchRecords 100 3600) 3600 :: [])).Same
      (runHandlers Stats.empty ([] ++ benchRun (benchRecords 100 3600) 3600 :: [] ++
        [benchRun (benchRecords 100 3600) 7200])) :=
  work_stats_add_up.2 [] [] (benchRun (benchRecords 100 3600) 3600)
    (benchRun (benchRecords 100 3600) 7200) (benchRecords 100 3600)
    (by decide +kernel) (by decide +kernel) rfl

end Bench

end Again

end BeyoManager.WorkStats
