import BeyoManager.Library.Decimal
import BeyoManager.Library.Transition

/-! # The calculator of item economics

The forward functions of an evaluation and `rederive`, which computes a stored evaluation
again and reports what differs. Decimals are rounded to fifty digits; a column that is null
is `none`, and the texts of the errors are those of the source.
-/

namespace BeyoManager.ItemEconomics

open Transition

/-- `CostModelTermCalculationTypeEnum`. -/
inductive CostModelTermCalculationType
  | percentageOfExpectedSalePrice | fixedAmount | itemPurchaseCost
  deriving DecidableEq, Repr

/-- The value of the enumeration. -/
def CostModelTermCalculationType.value : CostModelTermCalculationType → String
  | percentageOfExpectedSalePrice => "percentage_of_expected_sale_price"
  | fixedAmount => "fixed_amount"
  | itemPurchaseCost => "item_purchase_cost"

inductive CalculatorError
  | typeError (message : String)
  | validationError (message : String)
  | arithmeticError (signal : Decimal.Signal)
  | assertionError
  deriving DecidableEq, Repr

/-- `CALCULATION_VERSION`. -/
def CALCULATION_VERSION : ℤ := 2

/-- `PRODUCTION_BUDGET_CAP_PERCENT`. -/
def PRODUCTION_BUDGET_CAP_PERCENT : ℚ := 25

def contextPrec : ℕ := 50

def arithmetic {α : Type} : Except Decimal.Signal α → Except CalculatorError α
  | .ok a => .ok a
  | .error signal => .error (.arithmeticError signal)

/-- `int()` of a decimal. -/
def toInt (q : ℚ) : ℤ := q.num.tdiv q.den

section Guards

/-- `_type_error` for a missing value. -/
def noneTypeError (field expected : String) : CalculatorError :=
  .typeError (field ++ " must be " ++ expected ++ "; received NoneType")

/-- `_require_money`. -/
def requireMoney (value : Option ℤ) (field : String) (requiredIdentity : Option String) :
    Except CalculatorError ℤ :=
  match value with
  | some money => .ok money
  | none =>
    match requiredIdentity with
    | some identity => .error (.validationError (identity ++ ": " ++ field ++ " is required"))
    | none => .error (noneTypeError field "an int in minor units")

/-- `_require_rate`, where the rate is required. -/
def requireRate (value : Option ℚ) (field : String) : Except CalculatorError ℚ :=
  getOr (noneTypeError field "a Decimal") value

def requirePrice (expectedSalePriceMinor : Option ℤ) : Except CalculatorError ℤ :=
  requireMoney expectedSalePriceMinor "expected_sale_price_minor"
    (some "ITEM_COST_EXPECTED_PRICE_REQUIRED")

/-- `_shape_error`. -/
def shapeError (calculationType : CostModelTermCalculationType) (field : String) :
    CalculatorError :=
  .validationError ("ITEM_COST_TERM_SHAPE_INVALID: " ++ calculationType.value ++
    " has an invalid " ++ field ++ " shape")

/-- Which of its two amounts a term of each type carries. -/
def presenceValid (calculationType : CostModelTermCalculationType) (percentValue : Option ℚ)
    (fixedAmountMinor : Option ℤ) : Bool :=
  match calculationType with
  | .percentageOfExpectedSalePrice => percentValue.isSome && fixedAmountMinor.isNone
  | .fixedAmount => percentValue.isNone && fixedAmountMinor.isSome
  | .itemPurchaseCost => percentValue.isNone && fixedAmountMinor.isNone

/-- `_term_shape`. -/
def termShape (calculationType : CostModelTermCalculationType) (percentValue : Option ℚ)
    (fixedAmountMinor : Option ℤ) : Except CalculatorError Unit := do
  throwIf (¬ presenceValid calculationType percentValue fixedAmountMinor)
    (shapeError calculationType "percent_value/fixed_amount_minor")
  throwIf (percentValue.any fun percent => percent < 0) (shapeError calculationType "percent_value")
  throwIf (fixedAmountMinor.any fun amount => amount < 0)
    (shapeError calculationType "fixed_amount_minor")

end Guards

section Formulas

/-- `calculate_percentage_term_amount`. -/
def calculatePercentageTermAmount (expectedSalePriceMinor : Option ℤ) (percentValue : Option ℚ) :
    Except CalculatorError ℤ := do
  let price ← requirePrice expectedSalePriceMinor
  let percent ← requireRate percentValue "percent_value"
  let rawAmount ← arithmetic (Decimal.div contextPrec (Decimal.mul contextPrec price percent) 100)
  let quantizedAmount ← arithmetic (Decimal.quantize contextPrec rawAmount 0)
  pure (toInt quantizedAmount)

/-- `calculate_term_amount`. -/
def calculateTermAmount (calculationType : CostModelTermCalculationType)
    (expectedSalePriceMinor : Option ℤ) (percentValue : Option ℚ) (fixedAmountMinor : Option ℤ)
    (purchaseCostMinor : Option ℤ) : Except CalculatorError ℤ := do
  let price ← requirePrice expectedSalePriceMinor
  termShape calculationType percentValue fixedAmountMinor
  match calculationType with
  | .percentageOfExpectedSalePrice =>
    throwIf (percentValue = none) .assertionError
    calculatePercentageTermAmount (some price) percentValue
  | .fixedAmount => getOr .assertionError fixedAmountMinor
  | .itemPurchaseCost =>
    requireMoney purchaseCostMinor "purchase_cost_minor" (some "ITEM_COST_PURCHASE_COST_REQUIRED")

/-- A term of a cost model: what the formulas read of `TermSnapshot`. -/
structure CostModelTerm where
  name : String
  calculationType : CostModelTermCalculationType
  percentValue : Option ℚ
  fixedAmountMinor : Option ℤ
  deriving DecidableEq, Repr

/-- `calculate_term_amounts`. -/
def calculateTermAmounts (termRows : List CostModelTerm) (expectedSalePriceMinor : Option ℤ)
    (purchaseCostMinor : Option ℤ) : Except CalculatorError (List ℤ) := do
  let amounts ← termRows.mapM fun termRow => calculateTermAmount termRow.calculationType
    expectedSalePriceMinor termRow.percentValue termRow.fixedAmountMinor purchaseCostMinor
  let purchaseTermCount :=
    termRows.countP fun termRow => termRow.calculationType = .itemPurchaseCost
  throwIf (purchaseTermCount > 1)
    (.validationError "ITEM_COST_TERM_SHAPE_INVALID: duplicate item_purchase_cost terms")
  pure amounts

/-- `calculate_production_budget`. -/
def calculateProductionBudget (expectedSalePriceMinor : Option ℤ) (termAmounts : List ℤ) :
    Except CalculatorError ℤ := do
  let price ← requirePrice expectedSalePriceMinor
  let residual := price - termAmounts.sum
  let rawCap ← arithmetic
    (Decimal.div contextPrec (Decimal.mul contextPrec price PRODUCTION_BUDGET_CAP_PERCENT) 100)
  let capMinor ← arithmetic (Decimal.quantize contextPrec rawCap 0)
  pure (min residual (toInt capMinor))

/-- `calculate_cost_per_worker_minute`. -/
def calculateCostPerWorkerMinute (fixedMonthlyCostMinor : Option ℤ) (monthlyPaidHours : Option ℚ)
    (planningUtilizationPercent : Option ℚ) : Except CalculatorError ℚ := do
  let fixedCost ← requireMoney fixedMonthlyCostMinor "fixed_monthly_cost_minor" none
  let hours ← requireRate monthlyPaidHours "monthly_paid_hours"
  let utilization ← requireRate planningUtilizationPercent "planning_utilization_percent"
  let share ← arithmetic
    (Decimal.div contextPrec (Decimal.mul contextPrec hours utilization) 100)
  let denominator := Decimal.mul contextPrec share 60
  let rawRate ← arithmetic (Decimal.div contextPrec fixedCost denominator)
  let quantizedRate ← arithmetic (Decimal.quantize contextPrec rawRate 4)
  throwIf (quantizedRate = 0) (.validationError
    "ITEM_COST_RATE_UNDERFLOW: quantized cost per worker-minute is zero")
  pure quantizedRate

/-- `calculate_allowed_worker_minutes`. -/
def calculateAllowedWorkerMinutes (productionBudgetMinor : Option ℤ)
    (costPerWorkerMinuteMinor : Option ℚ) : Except CalculatorError ℚ := do
  let budget ← requireMoney productionBudgetMinor "production_budget_minor" none
  let rate ← requireRate costPerWorkerMinuteMinor "cost_per_worker_minute_minor"
  throwIf (rate = 0) (.validationError
    "ITEM_COST_RATE_UNDERFLOW: cannot calculate allowance with zero rate")
  let rawAllowance ← arithmetic (Decimal.div contextPrec budget rate)
  arithmetic (Decimal.quantize contextPrec rawAllowance 2)

end Formulas

section Snapshots

/-- `EvaluationSnapshot`. -/
structure EvaluationSnapshot where
  expectedSalePriceMinor : Option ℤ
  purchaseCostMinor : Option ℤ
  monthlyPaidHoursSnapshot : Option ℚ
  planningUtilizationPercentSnapshot : Option ℚ
  fixedMonthlyCostMinorSnapshot : Option ℤ
  costPerWorkerMinuteMinorSnapshot : Option ℚ
  productionBudgetMinor : Option ℤ
  allowedWorkerMinutes : Option ℚ
  calculationVersion : Option ℤ
  deriving DecidableEq, Repr

/-- `TermSnapshot`. -/
structure TermSnapshot extends CostModelTerm where
  amountMinor : Option ℤ
  deriving DecidableEq, Repr

structure EvaluationInputs where
  expectedPrice : ℤ
  purchaseCost : Option ℤ
  fixedMonthlyCostMinor : ℤ
  monthlyPaidHours : ℚ
  planningUtilizationPercent : ℚ
  terms : List CostModelTerm
  deriving DecidableEq, Repr

/-- The evaluation and the term rows that a commit stores. -/
def evaluate (inputs : EvaluationInputs) :
    Except CalculatorError (EvaluationSnapshot × List TermSnapshot) := do
  let termAmounts ← calculateTermAmounts inputs.terms (some inputs.expectedPrice)
    inputs.purchaseCost
  let rate ← calculateCostPerWorkerMinute (some inputs.fixedMonthlyCostMinor)
    (some inputs.monthlyPaidHours) (some inputs.planningUtilizationPercent)
  let budget ← calculateProductionBudget (some inputs.expectedPrice) termAmounts
  let allowed ← calculateAllowedWorkerMinutes (some budget) (some rate)
  pure ({
    expectedSalePriceMinor := some inputs.expectedPrice
    purchaseCostMinor := inputs.purchaseCost
    monthlyPaidHoursSnapshot := some inputs.monthlyPaidHours
    planningUtilizationPercentSnapshot := some inputs.planningUtilizationPercent
    fixedMonthlyCostMinorSnapshot := some inputs.fixedMonthlyCostMinor
    costPerWorkerMinuteMinorSnapshot := some rate
    productionBudgetMinor := some budget
    allowedWorkerMinutes := some allowed
    calculationVersion := some CALCULATION_VERSION },
    (inputs.terms.zip termAmounts).map fun entry => ⟨entry.1, some entry.2⟩)

end Snapshots

section Rederive

/-- A value in a report: a decimal or an integer. -/
inductive Figure
  | decimal (value : ℚ)
  | integer (value : ℤ)
  deriving DecidableEq, Repr

structure Mismatch where
  field : String
  rederivedValue : Option Figure
  storedValue : Option Figure
  error : Option CalculatorError
  deriving DecidableEq, Repr

/-- What `rederive` returns: the skip marker, a report or the values. -/
inductive Rederivation
  | skipped
  | mismatch (mismatches : List Mismatch)
  | values (rate : ℚ) (budget : ℤ) (allowed : ℚ)
  deriving DecidableEq, Repr

/-- The classes that the `except` clauses of `rederive` name. -/
def CalculatorError.isCaught : CalculatorError → Bool
  | .assertionError => false
  | _ => true

/-- A `try` block whose `except` clause returns a report. -/
def attempt {α : Type} (block : Except CalculatorError α) (report : CalculatorError → Rederivation)
    (rest : α → Except CalculatorError Rederivation) : Except CalculatorError Rederivation :=
  match block with
  | .ok a => rest a
  | .error e => if e.isCaught then .ok (report e) else .error e

/-- `marker`. -/
def marker (mismatches : List Mismatch) (field : String) (storedValue : Option Figure)
    (error : CalculatorError) : Rederivation :=
  .mismatch (mismatches ++ [⟨field, none, storedValue, some error⟩])

def reportIf (differs : Prop) [Decidable differs] (mismatches : List Mismatch) (field : String)
    (rederived stored : Figure) : List Mismatch :=
  if differs then mismatches ++ [⟨field, some rederived, some stored, none⟩] else mismatches

/-- The field of a term's amount. -/
def termField (row : TermSnapshot) : String := "term[" ++ row.name ++ "].amount_minor"

def compareTermAmounts (rest : List Mismatch → Except CalculatorError Rederivation) :
    List (TermSnapshot × ℤ) → List Mismatch → Except CalculatorError Rederivation
  | [], mismatches => rest mismatches
  | (row, amount) :: rows, mismatches =>
    attempt (requireMoney row.amountMinor "amount_minor" none)
      (marker mismatches "term_snapshot" none) fun storedAmount =>
        compareTermAmounts rest rows (reportIf (amount ≠ storedAmount) mismatches (termField row)
          (.integer amount) (.integer storedAmount))

def compareAllowed (evaluation : EvaluationSnapshot) (rate storedRate : ℚ) (budget : ℤ)
    (mismatches : List Mismatch) : Except CalculatorError Rederivation :=
  attempt (requireRate evaluation.allowedWorkerMinutes "allowed_worker_minutes")
    (fun error =>
      if rate ≠ storedRate then
        marker mismatches "allowed_worker_minutes"
          (evaluation.allowedWorkerMinutes.map .decimal) error
      else marker mismatches "evaluation_snapshot" none error)
    fun storedAllowed =>
      attempt (calculateAllowedWorkerMinutes (some budget) (some storedRate))
        (marker mismatches "allowed_worker_minutes" (some (.decimal storedAllowed)))
        fun allowed =>
          let mismatches := reportIf (allowed ≠ storedAllowed ∨ rate ≠ storedRate) mismatches
            "allowed_worker_minutes" (.decimal allowed) (.decimal storedAllowed)
          .ok (if mismatches ≠ [] then .mismatch mismatches else .values rate budget allowed)

def compareBudget (evaluation : EvaluationSnapshot) (rate storedRate : ℚ) (expectedPrice : ℤ)
    (amounts : List ℤ) (mismatches : List Mismatch) : Except CalculatorError Rederivation :=
  attempt (do
      let budget ← calculateProductionBudget (some expectedPrice) amounts
      let storedBudget ← requireMoney evaluation.productionBudgetMinor "production_budget_minor"
        none
      pure (budget, storedBudget))
    (marker mismatches "evaluation_snapshot" none) fun (budget, storedBudget) =>
      compareAllowed evaluation rate storedRate budget
        (reportIf (budget ≠ storedBudget) mismatches "production_budget_minor" (.integer budget)
          (.integer storedBudget))

/-- `rederive`. -/
def rederive (evaluation : EvaluationSnapshot) (termRows : List TermSnapshot) :
    Except CalculatorError Rederivation :=
  attempt (getOr (noneTypeError "calculation_version" "an int") evaluation.calculationVersion)
    (marker [] "evaluation_snapshot" none) fun version =>
  if version ≠ CALCULATION_VERSION then .ok .skipped
  else attempt (do
      let rate ← calculateCostPerWorkerMinute evaluation.fixedMonthlyCostMinorSnapshot
        evaluation.monthlyPaidHoursSnapshot evaluation.planningUtilizationPercentSnapshot
      let storedRate ← requireRate evaluation.costPerWorkerMinuteMinorSnapshot
        "cost_per_worker_minute_minor_snapshot"
      pure (rate, storedRate))
    (marker [] "evaluation_snapshot" none) fun (rate, storedRate) =>
  let mismatches := reportIf (rate ≠ storedRate) [] "cost_per_worker_minute_minor_snapshot"
    (.decimal rate) (.decimal storedRate)
  attempt (requirePrice evaluation.expectedSalePriceMinor)
    (marker mismatches "evaluation_snapshot" none) fun expectedPrice =>
  attempt (calculateTermAmounts (termRows.map TermSnapshot.toCostModelTerm) (some expectedPrice)
      evaluation.purchaseCostMinor)
    (marker mismatches "term_snapshot" none) fun amounts =>
  compareTermAmounts (compareBudget evaluation rate storedRate expectedPrice amounts)
    (termRows.zip amounts) mismatches

end Rederive

end BeyoManager.ItemEconomics
