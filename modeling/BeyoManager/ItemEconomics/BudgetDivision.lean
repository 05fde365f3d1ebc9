import BeyoManager.Library.Decimal
import BeyoManager.Library.Dict
import BeyoManager.Library.Grouping
import BeyoManager.Library.LargestRemainder
import BeyoManager.Library.Sorting
import BeyoManager.Library.Transition
import BeyoManager.TaskSteps.Enums
import Mathlib.Algebra.Field.Rat
import Mathlib.Algebra.Order.Ring.Rat
import Mathlib.Data.Prod.Lex
import Mathlib.Data.Rat.Floor
import Mathlib.Data.String.Basic
import Mathlib.Order.BoundedOrder.Lattice

/-! # Division of a production budget

A task's allowed minutes become one allowance per working section, in proportion to
the sections' typical times, and each section's allowance is split over its steps.
Every lookup of the source can fail here; fractions are exact.
-/

namespace BeyoManager.ItemEconomics

open TaskSteps Sorting

/-- The lookups of the module that Python would answer with an exception. -/
inductive LookupError
  | keyError (key : String)
  | indexError
  | stopIteration
  | zeroDivisionError
  | typeError
  deriving DecidableEq, Repr

/-- `EXCLUDED_STEP_STATES`. -/
def isExcluded : TaskStepState → Bool
  | .skipped | .cancelled | .failed => true
  | .pending | .working | .paused | .blocked | .completed => false

/-- A step as the division reads it; instants are their ISO texts. -/
structure DivisionStep where
  clientId : String
  state : TaskStepState
  workingSectionId : String
  totalWorkingSeconds : ℤ
  sequenceOrder : Option ℤ
  workingSectionNameSnapshot : Option String
  isDeleted : Bool
  createdAt : Option String
  /-- `entered_at` of the latest state record. -/
  latestStateEnteredAt : Option String
  deriving DecidableEq, Repr

/-- The typical time selected for one working section. -/
structure SelectedTypical where
  typicalWorkerSeconds : Option ℤ
  typicalBasis : String
  sampleCount : ℤ
  deriving DecidableEq, Repr

/-- What is known of a working section besides its steps. -/
structure SectionAttributes where
  name : Option String
  orderList : Option ℤ
  deriving DecidableEq, Repr

section Rounding

def roundHalfEven (q : ℚ) : ℤ := Decimal.roundHalfEven q

/-- `_budget_seconds`; the product is exact for the minutes that the column holds. -/
def budgetSeconds (allowedWorkerMinutes : ℚ) : ℤ := roundHalfEven (allowedWorkerMinutes * 60)

end Rounding

section Sorting

/-- `l[:n]`. -/
def slice {α : Type} (l : List α) (n : ℤ) : List α :=
  if 0 ≤ n then l.take n.toNat else l.take (l.length - (-n).toNat)

/-- `_sort_key`: steps without an order come last. -/
def sortKey (step : DivisionStep) : Bool ×ₗ ℤ ×ₗ String :=
  toLex (step.sequenceOrder.isNone, toLex (step.sequenceOrder.getD 0, step.clientId))

def timeKey (value : Option String) : Bool ×ₗ String :=
  toLex (value.isSome, value.getD "")

end Sorting

/-- The step that speaks for its section: the one entered last, among open steps if any. -/
def governingStep (steps : List DivisionStep) : Except LookupError DivisionStep :=
  let liveSteps := steps.filter fun step => !step.state.isTerminal
  let candidates := if liveSteps = [] then steps else liveSteps
  let candidates := sortBy DivisionStep.clientId candidates
  let candidates := sortByDescending (fun step => timeKey step.createdAt) candidates
  let candidates := sortByDescending (fun step => timeKey step.latestStateEnteredAt) candidates
  match candidates with
  | [] => .error .indexError
  | step :: _ => .ok step

structure SectionGroup where
  workingSectionId : String
  steps : List DivisionStep
  stepIds : List String
  stepCount : ℕ
  workedSeconds : ℤ
  sectionName : Option String
  orderList : Option ℤ
  state : TaskStepState
  stateEnteredAt : Option String
  sectionNameSnapshot : Option String
  deriving DecidableEq, Repr, Inhabited

/-- The name and the order of a section, from its attributes or its first step. -/
def sectionHeading (sectionAttributes : Option (String → Option SectionAttributes))
    (sectionId : String) (steps : List DivisionStep) :
    Except LookupError (Option String × Option ℤ) :=
  match sectionAttributes with
  | some attributes =>
    match attributes sectionId with
    | some a => .ok (a.name, a.orderList)
    | none => .ok (none, none)
  | none =>
    match steps with
    | [] => .error .indexError
    | first :: _ => .ok (first.workingSectionNameSnapshot, none)

/-- One entry of `group_steps_by_section`. -/
def sectionGroup (sectionAttributes : Option (String → Option SectionAttributes))
    (sectionId : String) (steps : List DivisionStep) : Except LookupError SectionGroup := do
  let heading ← sectionHeading sectionAttributes sectionId steps
  let governing ← governingStep steps
  pure {
    workingSectionId := sectionId
    steps := steps
    stepIds := steps.map DivisionStep.clientId
    stepCount := steps.length
    workedSeconds := (steps.map DivisionStep.totalWorkingSeconds).sum
    sectionName := heading.1
    orderList := heading.2
    state := governing.state
    stateEnteredAt := governing.latestStateEnteredAt
    sectionNameSnapshot := match governing.workingSectionNameSnapshot with
      | some name => some name
      | none => steps.findSome? DivisionStep.workingSectionNameSnapshot }

/-- `group_steps_by_section`. -/
def groupStepsBySection (steps : List DivisionStep)
    (sectionAttributes : Option (String → Option SectionAttributes)) :
    Except LookupError (List SectionGroup) :=
  let live := steps.filter fun step => !step.isDeleted
  (Grouping.keys DivisionStep.workingSectionId live).mapM fun sectionId =>
    sectionGroup sectionAttributes sectionId
      (Grouping.group DivisionStep.workingSectionId live sectionId)

/-- `_largest_remainder`. -/
def largestRemainder {τ : Type} [LinearOrder τ] (rawShares : List (String × ℚ))
    (tieKey : String → Except LookupError τ) (total : ℤ) :
    Except LookupError (List (String × ℤ)) := do
  let floors := rawShares.map fun share => (share.1, ⌊share.2⌋)
  let remainderUnits := total - (floors.map Prod.snd).sum
  let keyed ← rawShares.mapM fun share => do
    let tie ← tieKey share.1
    pure (toLex ((⌊share.2⌋ : ℚ) - share.2, tie), share.1)
  let ranked := (sortBy Prod.fst keyed).map Prod.snd
  (slice ranked remainderUnits).foldlM (fun allowances key => do
    let allowance ← Dict.getItem LookupError.keyError allowances key
    pure (Dict.set allowances key (allowance + 1))) floors

/-- `participating_sections`. -/
def participatingSections (steps : List DivisionStep) : List String :=
  (steps.filter fun step => !step.isDeleted && !isExcluded step.state).map
    DivisionStep.workingSectionId

/-- `median`; an index outside the list is an error. -/
def median (values : List ℚ) : Except LookupError ℚ :=
  let ordered := sortBy id values
  let middle := ordered.length / 2
  match ordered[middle]? with
  | none => .error .indexError
  | some upper =>
    if ordered.length % 2 = 1 then .ok upper
    else match ordered[middle - 1]? with
      | none => .error .indexError
      | some lower => .ok ((lower + upper) / 2)

def usableValue (value : Option ℤ) : Option ℚ :=
  (value.filter fun v => 0 < v).map Int.cast

def usableValues (selectedValues : List (Option ℤ)) : List ℚ :=
  selectedValues.filterMap usableValue

/-- `apply_business_fallback`. -/
def applyBusinessFallback (selectedValues : List (Option ℤ)) (terminal : ℚ) :
    Except LookupError (List ℚ) := do
  let fallback ← if usableValues selectedValues = [] then pure terminal
    else median (usableValues selectedValues)
  pure (selectedValues.map fun value => (usableValue value).getD fallback)

/-- The steps of a group that take part in the split. -/
def allocatable (group : SectionGroup) : List DivisionStep :=
  group.steps.filter fun step => !isExcluded step.state

def openStepKey (openSteps : List DivisionStep) (clientId : String) :
    Except LookupError (Bool ×ₗ ℤ ×ₗ String) :=
  match openSteps.find? fun step => step.clientId = clientId with
  | some step => .ok (sortKey step)
  | none => .error .stopIteration

/-- Completed steps keep what they worked; the open ones, else the governing one, take the rest. -/
def splitAllowance (completed openSteps : List DivisionStep) (sectionAllowance : ℤ) :
    Except LookupError (List (String × ℤ)) := do
  let allowances := Dict.ofList (completed.map fun step =>
    (step.clientId, step.totalWorkingSeconds))
  let residual := sectionAllowance - (allowances.map Prod.snd).sum
  if openSteps ≠ [] then
    let raw := Dict.ofList (openSteps.map fun step =>
      (step.clientId, (residual : ℚ) / openSteps.length))
    let shares ← largestRemainder raw (openStepKey openSteps) residual
    pure (Dict.update allowances shares)
  else
    let governing ← governingStep completed
    let allowance ← Dict.getItem LookupError.keyError allowances governing.clientId
    pure (Dict.set allowances governing.clientId (allowance + residual))

/-- `_section_step_allowances`. -/
def sectionStepAllowances (group : SectionGroup) (sectionAllowance : ℤ) :
    Except LookupError (List (String × ℤ)) :=
  splitAllowance ((allocatable group).filter fun step => step.state = .completed)
    ((allocatable group).filter fun step => !step.state.isTerminal) sectionAllowance

/-- The `share_state` of a row. -/
inductive ShareState
  | noBudget | excluded | overShare | onTrack
  deriving DecidableEq, Repr, Inhabited

structure StepRow where
  stepId : String
  state : TaskStepState
  workingSectionId : String
  sectionNameSnapshot : Option String
  typicalWorkerSeconds : Option ℤ
  typicalBasis : String
  sampleCount : ℤ
  allowanceSeconds : Option ℤ
  workedSeconds : ℤ
  leftSeconds : Option ℤ
  shareState : ShareState
  deriving DecidableEq, Repr

/-- `_step_result`, without the step that the rows are sorted by. -/
def stepResult (step : DivisionStep) (allowance left : Option ℤ) (shareState : ShareState)
    (typicals : String → Option SelectedTypical) : StepRow :=
  let selected := typicals step.workingSectionId
  { stepId := step.clientId
    state := step.state
    workingSectionId := step.workingSectionId
    sectionNameSnapshot := step.workingSectionNameSnapshot
    typicalWorkerSeconds := selected.bind SelectedTypical.typicalWorkerSeconds
    typicalBasis := (selected.map SelectedTypical.typicalBasis).getD "insufficient_sample"
    sampleCount := (selected.map SelectedTypical.sampleCount).getD 0
    allowanceSeconds := allowance
    workedSeconds := step.totalWorkingSeconds
    leftSeconds := left
    shareState := shareState }

/-- One row of the division per section. -/
structure SectionRow where
  group : SectionGroup
  allowanceSeconds : Option ℤ
  leftSeconds : Option ℤ
  shareState : ShareState
  deriving DecidableEq, Repr, Inhabited

/-- `_section_sort_key`: sections without an order come last. -/
def sectionSortKey (section_ : SectionGroup) : Bool ×ₗ ℤ ×ₗ String ×ₗ String :=
  toLex (section_.orderList.isNone, toLex (section_.orderList.getD 0,
    toLex (section_.sectionName.getD "", section_.workingSectionId)))

/-- The result of the division. -/
structure Division where
  budgetSeconds : Option ℤ
  chargedSeconds : Option ℤ
  distributableSeconds : Option ℤ
  sections : List SectionRow
  steps : List StepRow
  deriving DecidableEq, Repr

def sortedStepRows (rows : List (DivisionStep × StepRow)) : List StepRow :=
  (sortBy (fun row => sortKey row.1) rows).map Prod.snd

def sortedSectionRows (rows : List SectionRow) : List SectionRow :=
  sortBy (fun row => sectionSortKey row.group) rows

def noBudgetDivision (liveSteps : List DivisionStep) (groups : List SectionGroup)
    (typicals : String → Option SelectedTypical) : Division where
  budgetSeconds := none
  chargedSeconds := none
  distributableSeconds := none
  sections := sortedSectionRows (groups.map fun group => ⟨group, none, none, .noBudget⟩)
  steps := sortedStepRows (liveSteps.map fun step =>
    (step, stepResult step none none .noBudget typicals))

def resolvedWeights (allocatedGroups : List SectionGroup)
    (typicals : String → Option SelectedTypical) : Except LookupError (List (String × ℚ)) := do
  let selectedValues := allocatedGroups.map fun group =>
    (typicals group.workingSectionId).bind SelectedTypical.typicalWorkerSeconds
  let resolvedValues ← applyBusinessFallback selectedValues 1
  pure (Dict.ofList ((allocatedGroups.zip resolvedValues).map fun entry =>
    (entry.1.workingSectionId, entry.2)))

def rawShare (weights : List (String × ℚ)) (distributableSeconds : ℤ) (group : SectionGroup) :
    Except LookupError (String × ℚ) := do
  let weight ← Dict.getItem LookupError.keyError weights group.workingSectionId
  if (weights.map Prod.snd).sum = 0 then .error .zeroDivisionError
  else pure (group.workingSectionId,
    (distributableSeconds : ℚ) * weight / (weights.map Prod.snd).sum)

def rawSectionShares (allocatedGroups : List SectionGroup) (distributableSeconds : ℤ)
    (typicals : String → Option SelectedTypical) : Except LookupError (List (String × ℚ)) := do
  let weights ← resolvedWeights allocatedGroups typicals
  let shares ← allocatedGroups.mapM (rawShare weights distributableSeconds)
  pure (Dict.ofList shares)

def divideStep (split : List (String × ℤ)) (sectionState : ShareState)
    (typicals : String → Option SelectedTypical) (step : DivisionStep) :
    Except LookupError (DivisionStep × StepRow) :=
  if isExcluded step.state then .ok (step, stepResult step none none .excluded typicals)
  else do
    let stepAllowance ← Dict.getItem LookupError.keyError split step.clientId
    pure (step, stepResult step (some stepAllowance)
      (some (stepAllowance - step.totalWorkingSeconds)) sectionState typicals)

def divideSection (allocatedGroups : List SectionGroup) (sectionAllowances : List (String × ℤ))
    (typicals : String → Option SelectedTypical) (group : SectionGroup) :
    Except LookupError (SectionRow × List (DivisionStep × StepRow)) :=
  if group ∉ allocatedGroups then
    .ok (⟨group, none, none, .excluded⟩,
      group.steps.map fun step => (step, stepResult step none none .excluded typicals))
  else do
    let allowance ← Dict.getItem LookupError.keyError sectionAllowances group.workingSectionId
    let sectionState : ShareState :=
      if allowance < group.workedSeconds then .overShare else .onTrack
    let split ← sectionStepAllowances group allowance
    let rows ← group.steps.mapM (divideStep split sectionState typicals)
    pure (⟨group, some allowance, some (allowance - group.workedSeconds), sectionState⟩, rows)

/-- `divide_production_budget`. -/
def divideProductionBudget (allowedWorkerMinutes : Option ℚ) (steps : List DivisionStep)
    (typicals : String → Option SelectedTypical)
    (sectionAttributes : Option (String → Option SectionAttributes)) :
    Except LookupError Division := do
  let liveSteps := steps.filter fun step => !step.isDeleted
  let groups ← groupStepsBySection liveSteps sectionAttributes
  match allowedWorkerMinutes with
  | none => pure (noBudgetDivision liveSteps groups typicals)
  | some minutes =>
    let excluded := liveSteps.filter fun step => isExcluded step.state
    let participating := participatingSections liveSteps
    let allocatedGroups := groups.filter fun group => group.workingSectionId ∈ participating
    let chargedSeconds := (excluded.map DivisionStep.totalWorkingSeconds).sum
    let distributableSeconds := max 0 (budgetSeconds minutes - chargedSeconds)
    let rawShares ← rawSectionShares allocatedGroups distributableSeconds typicals
    let sectionAllowances ← largestRemainder rawShares (fun sectionId => .ok sectionId)
      distributableSeconds
    let rows ← groups.mapM (divideSection allocatedGroups sectionAllowances typicals)
    pure {
      budgetSeconds := some (budgetSeconds minutes)
      chargedSeconds := some chargedSeconds
      distributableSeconds := some distributableSeconds
      sections := sortedSectionRows (rows.map Prod.fst)
      steps := sortedStepRows (rows.flatMap Prod.snd) }

end BeyoManager.ItemEconomics
