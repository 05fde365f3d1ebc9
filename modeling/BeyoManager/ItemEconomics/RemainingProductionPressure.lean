import BeyoManager.ItemEconomics.BudgetDivision

/-! # Remaining production pressure

What is left of the distributable seconds, once settled and overrun steps are charged,
is distributed over the open steps in proportion to their allowances.
-/

namespace BeyoManager.ItemEconomics

open TaskSteps Transition

/-- `_is_excluded`. -/
def StepRow.isExcluded (step : StepRow) : Bool := step.shareState == .excluded

/-- `_is_open`. -/
def StepRow.isOpen (step : StepRow) : Bool := !step.state.isTerminal

/-- `_is_consuming`. -/
def StepRow.isConsuming (step : StepRow) : Bool :=
  step.isOpen && step.leftSeconds.any fun left => decide (left < 0)

/-- `PressureResult`. -/
structure PressureResult where
  pressureRatio : Option ℚ
  pressureShareSecondsByStepId : List (String × Option ℤ)
  deriving DecidableEq, Repr

section Rows

variable (steps : List StepRow)

def participatingRows : List StepRow := steps.filter fun step => !step.isExcluded

def consumingRows : List StepRow :=
  ((participatingRows steps).filter StepRow.isOpen).filter StepRow.isConsuming

/-- The open steps that have an allowance left. -/
def allocatableRows : List StepRow :=
  ((participatingRows steps).filter StepRow.isOpen).filter fun step => !step.isConsuming

def chargedRows : List StepRow :=
  (participatingRows steps).filter (fun step => !step.isOpen) ++ consumingRows steps

end Rows

/-- The allowance of a row, which `int` needs to be there. -/
def StepRow.allowance (step : StepRow) : Except LookupError ℤ :=
  getOr .typeError step.allowanceSeconds

def zeroShares (shares : List (String × Option ℤ)) (steps : List StepRow) :
    List (String × Option ℤ) :=
  steps.foldl (fun shares step => Dict.set shares step.stepId (some 0)) shares

def rawPressureShare (ratio : ℚ) (step : StepRow) : Except LookupError (String × ℚ) := do
  let allowance : ℤ ← step.allowance
  pure (step.stepId, (allowance : ℚ) * ratio)

def pressureShares (steps : List StepRow) (shares : List (String × Option ℤ)) (ratio : ℚ)
    (remainingDistributable : ℤ) : Except LookupError (List (String × Option ℤ)) := do
  let rawShares ← (allocatableRows steps).mapM (rawPressureShare ratio)
  let allocationOrder := Dict.ofList (steps.zipIdx.map fun (step, index) => (step.stepId, index))
  let allocated ← largestRemainder (Dict.ofList rawShares)
    (Dict.getItem LookupError.keyError allocationOrder) remainingDistributable
  pure (Dict.update shares (allocated.map fun e => (e.1, some e.2)))

/-- `compute_remaining_pressure`. -/
def computeRemainingPressure (division : Division) : Except LookupError PressureResult :=
  let steps := division.steps
  let noPressure : List (String × Option ℤ) :=
    Dict.ofList (steps.map fun step => (step.stepId, none))
  match division.distributableSeconds with
  | none => .ok ⟨none, noPressure⟩
  | some distributableSeconds =>
    let shares := zeroShares noPressure (consumingRows steps)
    if allocatableRows steps = [] then .ok ⟨none, shares⟩
    else do
      let remainingDistributable :=
        distributableSeconds - ((chargedRows steps).map StepRow.workedSeconds).sum
      let allowances ← (allocatableRows steps).mapM StepRow.allowance
      let totalOpenAllowance := (allowances.map fun allowance => max 0 allowance).sum
      if totalOpenAllowance = 0 then pure ⟨none, zeroShares shares (allocatableRows steps)⟩
      else
        let ratio : ℚ := remainingDistributable / totalOpenAllowance
        if remainingDistributable ≤ 0 then
          pure ⟨some ratio, zeroShares shares (allocatableRows steps)⟩
        else do
          let shares ← pressureShares steps shares ratio remainingDistributable
          pure ⟨some ratio, shares⟩

end BeyoManager.ItemEconomics
