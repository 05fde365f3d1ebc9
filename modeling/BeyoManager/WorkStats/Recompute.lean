import BeyoManager.WorkStats.Tables

/-! # Figures of a day, recomputed from the records

The time of a user's day is what the settled records that were entered on that day earn in the
sweep, and its completions are the steps that were completed on it. Both are split by section.
-/

namespace BeyoManager.WorkStats

open Grouping Tally TaskSteps

/-- A row of `item_issues`. -/
structure ItemIssue where
  stepId : Option ClientId
  isDeleted : Bool
  deriving DecidableEq, Repr

/-- What the recomputations read: the task steps with their records and the work profiles, and the
issues of the items. -/
structure Records where
  db : Db
  itemIssues : List ItemIssue
  deriving DecidableEq, Repr

def daySeconds : Instant := 86400

def dayStart (workDate : Date) : Instant := workDate * daySeconds

def dateOf (t : Instant) : Date := ⌊t / daySeconds⌋

/-- `_STATE_TO_FIELDS`. -/
def stateToFields : String → Option (Column × Column)
  | "working" => some (.totalWorkingSeconds, .totalWorkingCount)
  | "paused" => some (.totalPauseSeconds, .totalPauseCount)
  | "ended_shift" => some (.totalEndedShiftSeconds, .totalEndedShiftCount)
  | _ => none

/-- `_STATE_TO_INACCURATE_FIELDS`. -/
def stateToInaccurateFields : String → Option Column
  | "working" => some .inaccurateWorkingSeconds
  | "paused" => some .inaccuratePauseSeconds
  | "ended_shift" => some .inaccurateEndedShiftSeconds
  | _ => none

/-- What `_accumulate` and `_accumulate_inaccurate` add to the totals for one contribution. -/
def accumulated (c : RecordContribution) : Totals :=
  if c.markedWrong then
    match stateToInaccurateFields c.state with
    | some field => Pi.single field (Decimal.roundHalfEven c.wastedSeconds)
    | none => 0
  else
    match stateToFields c.state with
    | some (secField, cntField) =>
      Pi.single secField (Decimal.roundHalfEven c.seconds) + Pi.single cntField 1
    | none => 0

/-- `_cost_minor`. -/
def costMinor (rate : Option ℚ) (totals : Totals) : ℤ :=
  (rate.map (costOf ((totals .totalWorkingSeconds + totals .totalPauseSeconds : ℤ) : ℚ))).getD 0

def flaggedSteps (settled : List RecordContribution) : ℤ :=
  ((settled.filter fun c => c.markedWrong).map fun c => c.stepId).eraseDups.length

/-- The totals of settled contributions: what they accumulate, the flagged steps and the cost. -/
def timeTotals (rate : Option ℚ) (settled : List RecordContribution) : Totals :=
  let totals := (settled.map accumulated).sum
  totals + Pi.single .inaccurateStepCount (flaggedSteps settled) +
    Pi.single .totalCostMinor (costMinor rate totals)

structure DayFigures where
  day : Totals
  perSection : List (ClientId × Totals)
  deriving DecidableEq

/-- What the figures of a day say about a section; a section that they do not name has nothing. -/
def DayFigures.ofSection (figures : DayFigures) (sectionId : ClientId) : Totals :=
  ((figures.perSection.find? fun s => s.1 == sectionId).map Prod.snd).getD 0

/-- The settled contributions of the records of a user that were entered on a day. -/
def settledContributions (db : Db) (userId : ClientId) (workDate : Date) (now : Instant) :
    List RecordContribution :=
  (computeRecordContributions db userId (dayStart workDate - daySeconds)
    (dayStart (workDate + 1) + daySeconds) now).filter fun c =>
      !c.isOpen && dateOf c.enteredAt == workDate

/-- The figures that `reconcile_user_day_time` sets. -/
def timeFigures (records : Records) (userId : ClientId) (workDate : Date) (now : Instant) :
    DayFigures :=
  let settled := settledContributions records.db userId workDate now
  let rate := records.db.rate userId
  { day := timeTotals rate settled
    perSection := (keys RecordContribution.workingSectionId settled).map fun sectionId =>
      (sectionId, timeTotals rate (group RecordContribution.workingSectionId settled sectionId)) }

/-- `_completed_steps_for_user_day`: the steps that a user completed on a day, each once. -/
def completedSteps (db : Db) (userId : ClientId) (workDate : Date) : List TaskStep :=
  ((db.stepStateRecords.filter fun r =>
    r.state == .completed && r.worker == some userId && decide (dayStart workDate ≤ r.enteredAt) &&
      decide (r.enteredAt < dayStart (workDate + 1)) && !r.isDeleted).filterMap fun r =>
        db.taskSteps.find? fun s => s.clientId == r.stepId).eraseDups

/-- `_issue_counts_by_step`. -/
def issueCount (records : Records) (stepId : ClientId) : ℤ :=
  (records.itemIssues.countP fun i => i.stepId == some stepId && !i.isDeleted : ℕ)

/-- The totals of some completed steps; completing a step resolves its issues. -/
def completionTotals (records : Records) (steps : List TaskStep) : Totals :=
  (steps.map fun s => Pi.single .totalCompletedCount 1 +
    Pi.single .totalIssuesCount (issueCount records s.clientId) +
      Pi.single .totalIssuesResolvedCount (issueCount records s.clientId)).sum

/-- The figures that `reconcile_user_day_completions` sets. -/
def completionFigures (records : Records) (userId : ClientId) (workDate : Date) : DayFigures :=
  let steps := completedSteps records.db userId workDate
  { day := completionTotals records steps
    perSection := (keys TaskStep.workingSectionId steps).map fun sectionId =>
      (sectionId, completionTotals records (group TaskStep.workingSectionId steps sectionId)) }

end BeyoManager.WorkStats
