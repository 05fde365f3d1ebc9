import BeyoManager.ItemEconomics.AllowanceInvariance
import BeyoManager.ItemEconomics.Calculator

/-! # The budget signal

What the sections still ask for, set against what the task has left. The sections' own
balances account for every second of the budget but those worked on excluded steps of a
section that goes on: these are charged to the task and to the section.
-/

namespace BeyoManager.ItemEconomics

open TaskSteps Transition Grouping

/-- `BUDGET_STATES`. -/
inductive BudgetState
  | noBudget | over | projectedOver | withinBudget
  deriving DecidableEq, Repr

/-- `PROJECTED_OVER_FLOOR_SECONDS`. -/
def PROJECTED_OVER_FLOOR_SECONDS : ℤ := 60

/-- `contributes`. -/
def contributes (section_ : SectionRow) : Bool :=
  section_.leftSeconds.isSome && !section_.group.state.isTerminal

/-- `remaining_commitment`. -/
def remainingCommitment (sections : List SectionRow) : ℤ :=
  ((sections.filter contributes).map fun row => max 0 (row.leftSeconds.getD 0)).sum

/-- `has_work_ahead`. -/
def hasWorkAhead (sections : List SectionRow) : Bool := sections.any contributes

/-- `BudgetSignal`. -/
structure BudgetSignal where
  budgetState : BudgetState
  overSeconds : ℤ
  overCostMinor : ℤ
  projectedOverSeconds : ℤ
  projectedOverCostMinor : ℤ
  allowedSeconds : ℤ
  actualWorkedSeconds : ℤ
  costPerWorkerMinuteTenThousandths : ℤ
  deriving DecidableEq, Repr

/-- `NO_BUDGET_SIGNAL`. -/
def NO_BUDGET_SIGNAL : BudgetSignal := ⟨.noBudget, 0, 0, 0, 0, 0, 0, 0⟩

/-- `calculate_consumed_cost_minor`. -/
def calculateConsumedCostMinor (actualWorkerSeconds : ℤ)
    (costPerWorkerMinuteMinorSnapshot : Option ℚ) : Except CalculatorError ℤ := do
  let rate ← requireRate costPerWorkerMinuteMinorSnapshot "cost_per_worker_minute_minor_snapshot"
  let minutes ← arithmetic (Decimal.div contextPrec actualWorkerSeconds 60)
  let rawCost := Decimal.mul contextPrec minutes rate
  let quantizedCost ← arithmetic (Decimal.quantize contextPrec rawCost 0)
  pure (toInt quantizedCost)

/-- `compute_budget_signal`. -/
def computeBudgetSignal (sections : List SectionRow)
    (allowedSecondsRaw actualWorkedSeconds : ℤ) (costPerWorkerMinuteMinorSnapshot : ℚ) :
    Except CalculatorError BudgetSignal := do
  let commitment := remainingCommitment sections
  let remainingPotSeconds := allowedSecondsRaw - actualWorkedSeconds
  let projectedOverSeconds := max 0 (commitment - remainingPotSeconds)
  let overSeconds := max 0 (actualWorkedSeconds - max 0 allowedSecondsRaw)
  let budgetState : BudgetState :=
    if 0 < overSeconds then .over
    else if PROJECTED_OVER_FLOOR_SECONDS ≤ projectedOverSeconds ∧ hasWorkAhead sections then
      .projectedOver
    else .withinBudget
  let overCostMinor ← calculateConsumedCostMinor overSeconds (some costPerWorkerMinuteMinorSnapshot)
  let projectedOverCostMinor ← calculateConsumedCostMinor projectedOverSeconds
    (some costPerWorkerMinuteMinorSnapshot)
  pure {
    budgetState
    overSeconds
    overCostMinor
    projectedOverSeconds
    projectedOverCostMinor
    allowedSeconds := max 0 allowedSecondsRaw
    actualWorkedSeconds
    costPerWorkerMinuteTenThousandths :=
      toInt (Decimal.round 28 (costPerWorkerMinuteMinorSnapshot * 10000)) }

section Balances

/-- The seconds by which open sections have passed their allowances. -/
def openOverrun (sections : List SectionRow) : ℤ :=
  ((sections.filter contributes).map fun row => max 0 (-row.leftSeconds.getD 0)).sum

/-- What the participating sections that are done have left, or lack. -/
def settledLeft (sections : List SectionRow) : ℤ :=
  ((sections.filter fun row => row.leftSeconds.isSome && row.group.state.isTerminal).map
    fun row => row.leftSeconds.getD 0).sum

def totalLeft (sections : List SectionRow) : ℤ :=
  ((sections.filter fun row => row.leftSeconds.isSome).map fun row => row.leftSeconds.getD 0).sum

theorem remainingCommitment_eq (sections : List SectionRow) :
    remainingCommitment sections =
      openOverrun sections + totalLeft sections - settledLeft sections := by
  induction sections with
  | nil => rfl
  | cons row rows ih =>
    obtain ⟨group, allowance, left, shareState⟩ := row
    simp only [remainingCommitment, openOverrun, totalLeft, settledLeft, contributes,
      List.filter_cons] at ih ⊢
    cases left with
    | none => simpa using ih
    | some left =>
      by_cases hstate : group.state.isTerminal
      · simp only [hstate, Option.isSome_some, Bool.not_true, Bool.and_true, Bool.and_false,
          ↓reduceIte, List.map_cons, List.sum_cons, Option.getD_some, Bool.false_eq_true]
        omega
      · simp only [hstate, Option.isSome_some, Bool.not_false, Bool.and_true, Bool.and_false,
          ↓reduceIte, List.map_cons, List.sum_cons, Option.getD_some, Bool.false_eq_true]
        omega

end Balances

section Identity

variable {steps : List DivisionStep} {minutes : ℚ} {typicals : String → Option SelectedTypical}
  {sectionAttributes : Option (String → Option SectionAttributes)} {d : Division}

/-- The seconds worked on all live steps. -/
def totalWorked (steps : List DivisionStep) : ℤ :=
  ((liveSteps steps).map DivisionStep.totalWorkingSeconds).sum

/-- The seconds worked on excluded steps of sections that take part. -/
def excludedWithin (steps : List DivisionStep) : ℤ :=
  (((liveSteps steps).filter fun step => isExcluded step.state &&
    decide (step.workingSectionId ∈ participatingSections steps)).map
      DivisionStep.totalWorkingSeconds).sum

def participatingWorked (steps : List DivisionStep) : ℤ :=
  (((liveSteps steps).filter fun step =>
    decide (step.workingSectionId ∈ participatingSections steps)).map
      DivisionStep.totalWorkingSeconds).sum

/-- Every second worked is either charged beforehand or worked in a section that takes part;
those of the excluded steps there are both. -/
theorem totalWorked_eq (steps : List DivisionStep) :
    totalWorked steps + excludedWithin steps =
      excludedCharge steps + participatingWorked steps := by
  have hpart : ∀ step ∈ liveSteps steps, ¬ isExcluded step.state →
      step.workingSectionId ∈ participatingSections steps := by
    intro step hstep hstate
    obtain ⟨hmem, hlive⟩ := List.mem_filter.mp hstep
    exact List.mem_map_of_mem (List.mem_filter.mpr ⟨hmem, by simpa [hlive] using hstate⟩)
  unfold totalWorked excludedWithin excludedCharge participatingWorked
  generalize liveSteps steps = live at hpart
  induction live with
  | nil => rfl
  | cons step live ih =>
    have ih := ih fun other hother => hpart other (List.mem_cons_of_mem step hother)
    have hstep := hpart step List.mem_cons_self
    simp only [List.filter_cons, List.map_cons, List.sum_cons]
    cases hexcluded : isExcluded step.state with
    | false =>
      have hin := hstep (by simp [hexcluded])
      simp only [hin, decide_true, Bool.false_and, Bool.false_eq_true, ↓reduceIte, List.map_cons,
        List.sum_cons]
      omega
    | true =>
      by_cases hin : step.workingSectionId ∈ participatingSections steps
      · simp only [hin, decide_true, Bool.true_and, ↓reduceIte, List.map_cons, List.sum_cons]
        omega
      · simp only [hin, decide_false, Bool.and_false, Bool.false_eq_true, ↓reduceIte, List.map_cons,
          List.sum_cons]
        omega

theorem leftSeconds_isSome_iff (hc : Conserves steps minutes typicals d) {row : SectionRow}
    (hrow : row ∈ d.sections) : row.leftSeconds.isSome = true ↔
      row.group.workingSectionId ∈ participatingSections steps := by
  rw [hc.section_left row hrow, Option.isSome_map]
  constructor
  · intro hsome
    by_contra hout
    rw [hc.section_excluded row hrow hout] at hsome
    exact absurd hsome (by simp)
  · intro hin
    obtain ⟨fallback, -, hshare⟩ := hc.section_share
    obtain ⟨a, ha, -⟩ := hshare row hrow hin
    simp [ha]

/-- The seconds worked in the sections that take part, section by section. -/
theorem sum_worked_participating (hc : Conserves steps minutes typicals d) :
    ((d.sections.filter fun row => row.group.workingSectionId ∈ participatingSections steps).map
      fun row => row.group.workedSeconds).sum = participatingWorked steps := by
  set live := (liveSteps steps).filter fun step =>
    decide (step.workingSectionId ∈ participatingSections steps)
  let worked : String → ℤ := fun id =>
    ((group DivisionStep.workingSectionId live id).map DivisionStep.totalWorkingSeconds).sum
  have hrow : ∀ row ∈ d.sections.filter fun row =>
      row.group.workingSectionId ∈ participatingSections steps,
      row.group.workedSeconds = worked row.group.workingSectionId := by
    intro row hrow
    obtain ⟨hmem, hin⟩ := List.mem_filter.mp hrow
    have hgroup := hc.section_groups row hmem
    rw [hgroup.worked_eq, hgroup.steps_eq]
    simp only [worked, live, group, List.filter_filter]
    congr 2
    refine List.filter_congr fun step _ => ?_
    by_cases hid : step.workingSectionId = row.group.workingSectionId
    · simpa [hid] using hin
    · simp [hid]
  have hids : ((d.sections.filter fun row =>
      row.group.workingSectionId ∈ participatingSections steps).map
        fun row => row.group.workingSectionId).Perm (participatingIds steps) := by
    rw [participatingIds]
    refine List.Perm.trans ?_ (hc.section_rows.filter _)
    rw [List.filter_map]
    exact List.Perm.refl _
  rw [List.map_congr_left hrow, participatingWorked]
  calc ((d.sections.filter fun row => row.group.workingSectionId ∈
          participatingSections steps).map fun row => worked row.group.workingSectionId).sum
      = ((participatingIds steps).map worked).sum := by
        rw [← (hids.map worked).sum_eq, List.map_map]
        rfl
    _ = (live.map DivisionStep.totalWorkingSeconds).sum := by
        refine sum_group _ participatingIds_nodup fun step hstep => ?_
        obtain ⟨hlive, hin⟩ := List.mem_filter.mp hstep
        exact List.mem_filter.mpr ⟨mem_keys.mpr ⟨step, hlive, rfl⟩, hin⟩

/-- The balances of the sections add up to what is distributed, less what is worked there. -/
theorem totalLeft_eq (hc : Conserves steps minutes typicals d)
    (hpart : participatingSections steps ≠ []) :
    totalLeft d.sections = distributable steps minutes - participatingWorked steps := by
  have hfilter : d.sections.filter (fun row => row.leftSeconds.isSome) =
      d.sections.filter fun row => row.group.workingSectionId ∈ participatingSections steps :=
    List.filter_congr fun row hrow => by
      rw [Bool.eq_iff_iff, leftSeconds_isSome_iff hc hrow, decide_eq_true_eq]
  have hleft : ∀ row ∈ d.sections.filter fun row =>
      row.group.workingSectionId ∈ participatingSections steps,
      row.leftSeconds.getD 0 = row.allowanceSeconds.getD 0 - row.group.workedSeconds := by
    intro row hrow
    obtain ⟨hmem, hin⟩ := List.mem_filter.mp hrow
    obtain ⟨fallback, -, hshare⟩ := hc.section_share
    obtain ⟨a, ha, -⟩ := hshare row hmem (by simpa using hin)
    rw [hc.section_left row hmem, ha]
    rfl
  rw [totalLeft, hfilter, List.map_congr_left hleft, ← hc.sections_sum hpart,
    ← sum_worked_participating hc]
  generalize d.sections.filter _ = rows
  induction rows with
  | nil => rfl
  | cons row rows ih =>
    simp only [List.map_cons, List.sum_cons, ih]
    ring

theorem budgetSeconds_of_divide (h : divideProductionBudget (some minutes) steps typicals
    sectionAttributes = .ok d) : d.budgetSeconds = some (budgetSeconds minutes) := by
  simp only [divideProductionBudget, bind_eq_ok, pure, Except.pure, Except.ok.injEq] at h
  obtain ⟨groups, -, shares, -, allowances, -, rows, -, rfl⟩ := h
  rfl

theorem balances_of_nothing_participating (hc : Conserves steps minutes typicals d)
    (hpart : participatingSections steps = []) :
    openOverrun d.sections = 0 ∧ totalLeft d.sections = 0 ∧ settledLeft d.sections = 0 := by
  have hnone : ∀ row ∈ d.sections, row.leftSeconds.isSome = false := by
    intro row hrow
    rw [Bool.eq_false_iff, ne_eq, leftSeconds_isSome_iff hc hrow, hpart]
    exact List.not_mem_nil
  have hnil : ∀ p : SectionRow → Bool,
      d.sections.filter (fun row => row.leftSeconds.isSome && p row) = [] := fun p =>
    List.filter_eq_nil_iff.mpr fun row hrow => by simp [hnone row hrow]
  refine ⟨?_, ?_, ?_⟩
  · exact congrArg (fun rows => (rows.map fun row : SectionRow =>
      max 0 (-row.leftSeconds.getD 0)).sum) (hnil fun row => !row.group.state.isTerminal)
  · have hall := hnil fun _ => true
    simp only [Bool.and_true] at hall
    rw [totalLeft, hall]
    rfl
  · rw [settledLeft, hnil]
    rfl

theorem commitment_sub_pot (hc : Conserves steps minutes typicals d)
    (hallowed : excludedCharge steps ≤ budgetSeconds minutes) :
    max 0 (remainingCommitment d.sections - (budgetSeconds minutes - totalWorked steps)) =
      max 0 (openOverrun d.sections - settledLeft d.sections - excludedWithin steps) := by
  have hworked := totalWorked_eq steps
  have hcommitment := remainingCommitment_eq d.sections
  by_cases hpart : participatingSections steps = []
  · obtain ⟨hopen, htotal, hsettled⟩ := balances_of_nothing_participating hc hpart
    have hwithin : excludedWithin steps = 0 ∧ participatingWorked steps = 0 := by
      simp [excludedWithin, participatingWorked, hpart]
    omega
  · have htotal := totalLeft_eq hc hpart
    have hdistributable : distributable steps minutes =
        budgetSeconds minutes - excludedCharge steps := max_eq_right (sub_nonneg.mpr hallowed)
    congr 1
    omega

/-- The projected overrun is what the open sections have passed their allowances by, less
what the settled ones left and what was worked on excluded steps among them; the overrun is
positive once more was worked than allowed. -/
theorem budget_signal_balances (minutes : ℚ) (steps : List DivisionStep)
    (hids : (steps.map DivisionStep.clientId).Nodup)
    (hallowed : excludedCharge steps ≤ budgetSeconds minutes)
    (typicals : String → Option SelectedTypical)
    (sectionAttributes : Option (String → Option SectionAttributes)) (rate : ℚ) :
    ∃ d allowed, divideProductionBudget (some minutes) steps typicals sectionAttributes = .ok d ∧
      d.budgetSeconds = some allowed ∧
      ∀ signal, computeBudgetSignal d.sections allowed (totalWorked steps) rate = .ok signal →
        signal.projectedOverSeconds =
          max 0 (openOverrun d.sections - settledLeft d.sections - excludedWithin steps) ∧
        (0 < signal.overSeconds ↔ max 0 allowed < totalWorked steps) := by
  obtain ⟨d, hd, hconserves⟩ := exists_division (some minutes) steps hids typicals sectionAttributes
  refine ⟨d, budgetSeconds minutes, hd, budgetSeconds_of_divide hd, fun signal hsignal => ?_⟩
  simp only [computeBudgetSignal, bind_eq_ok, pure, Except.pure, Except.ok.injEq] at hsignal
  obtain ⟨overCost, -, projectedCost, -, rfl⟩ := hsignal
  constructor
  · exact commitment_sub_pot (hconserves minutes rfl) hallowed
  · simp only [lt_max_iff, lt_irrefl, false_or, sub_pos]

/-- A completed step over its section's allowance beside a skipped one. -/
theorem budget_signal_balances_three_steps :
    let steps : List DivisionStep :=
      [⟨"a1", .completed, "A", 1000, some 1, none, false, none, none⟩,
       ⟨"a2", .skipped, "A", 300, some 2, none, false, none, none⟩,
       ⟨"b", .working, "B", 500, some 3, none, false, none, none⟩]
    ∃ d allowed, divideProductionBudget (some 60) steps (fun _ => none) none = .ok d ∧
      d.budgetSeconds = some allowed ∧
      ∀ signal, computeBudgetSignal d.sections allowed (totalWorked steps) (15 / 4) = .ok signal →
        signal.projectedOverSeconds =
          max 0 (openOverrun d.sections - settledLeft d.sections - excludedWithin steps) ∧
        (0 < signal.overSeconds ↔ max 0 allowed < totalWorked steps) := by
  intro steps
  exact budget_signal_balances 60 steps (by decide) (by decide +kernel)
    (fun _ => none) none (15 / 4)

/-- The seconds of the skipped step are no part of the projected overrun. -/
theorem projection_counts_task_pot :
    let steps : List DivisionStep :=
      [⟨"a1", .completed, "A", 1000, some 1, none, false, none, none⟩,
       ⟨"a2", .skipped, "A", 300, some 2, none, false, none, none⟩,
       ⟨"b", .working, "B", 500, some 3, none, false, none, none⟩]
    let typicals : String → Option SelectedTypical := fun id =>
      if id = "A" then some ⟨some 1000, "section_wide", 5⟩ else some ⟨some 2000, "section_wide", 5⟩
    (divideProductionBudget (some 60) steps typicals none).toOption.any fun d =>
      decide (d.budgetSeconds = some 3600 ∧ excludedCharge steps ≤ 3600 ∧
        (steps.map DivisionStep.totalWorkingSeconds).sum = 1800 ∧
        max 0 (openOverrun d.sections - settledLeft d.sections) = 200) &&
      (computeBudgetSignal d.sections 3600 1800 (15 / 4)).toOption.any fun signal =>
        decide (signal.projectedOverSeconds = 0) := by
  decide +kernel

end Identity

end BeyoManager.ItemEconomics
