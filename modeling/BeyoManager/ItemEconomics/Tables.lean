import BeyoManager.ItemEconomics.Calculator
import BeyoManager.Library.Relational
import BeyoManager.Library.Spans
import BeyoManager.StockReport.Enums

/-! # Tables of item economics

The configuration of a workspace in effective-dated versions, the valuations of items and the cost
evaluations of tasks. A day is its ordinal.
-/

namespace BeyoManager.ItemEconomics

open StockReport (TaskState TaskItemRole)

abbrev Day := ℤ

/-- `ItemCurrencyEnum`. -/
inductive ItemCurrency
  | swedishKrona | danishKrona | euro
  deriving DecidableEq, Repr

/-- `ItemMajorCategoryEnum`. -/
inductive ItemMajorCategory
  | wood | seat
  deriving DecidableEq, Repr

/-- The value of the enumeration. -/
def ItemMajorCategory.value : ItemMajorCategory → String
  | wood => "wood"
  | seat => "seat"

/-- `ItemCostEvaluationKindEnum`. -/
inductive ItemCostEvaluationKind
  | committed | projection
  deriving DecidableEq, Repr

inductive CommandError
  | validationError (message : String)
  | notFound (message : String)
  | integrityError (constraint : String)
  | calculatorError (error : CalculatorError)
  deriving DecidableEq, Repr

/-- An effective-dated version: `κ` is what its chain belongs to, `α` what it says. -/
structure Version (κ α : Type) where
  clientId : String
  chain : κ
  effectiveFrom : Option Day
  effectiveTo : Option Day
  isDeleted : Bool
  content : α
  deriving DecidableEq, Repr

def Version.span {κ α : Type} (v : Version κ α) : Span Day := ⟨v.effectiveFrom, v.effectiveTo⟩

/-- `cost_model_versions`: one chain for each workspace. -/
abbrev CostModelVersion := Version String ItemCurrency

structure ProductionCostBasis where
  fixedMonthlyCostMinor : ℤ
  currency : ItemCurrency
  monthlyPaidHours : ℚ
  planningUtilizationPercent : ℚ
  costPerWorkerMinuteMinor : ℚ
  deriving DecidableEq, Repr

/-- `production_cost_basis_versions`: one chain for each workspace and cost group. -/
abbrev ProductionCostBasisVersion := Version (String × String) ProductionCostBasis

/-- `production_cost_groups`. -/
structure ProductionCostGroup where
  clientId : String
  workspaceId : String
  majorCategory : ItemMajorCategory
  isDeleted : Bool
  deriving DecidableEq, Repr

/-- `cost_model_terms`, in the order of their creation. -/
structure CostModelTermRow extends CostModelTerm where
  workspaceId : String
  costModelVersionId : String
  isDeleted : Bool
  deriving DecidableEq, Repr

/-- `items`. -/
structure Item where
  clientId : String
  workspaceId : String
  itemMajorCategorySnapshot : Option String
  isDeleted : Bool
  deriving DecidableEq, Repr

/-- `tasks`. -/
structure Task where
  clientId : String
  workspaceId : String
  state : TaskState
  isDeleted : Bool
  deriving DecidableEq, Repr

/-- `task_items`. -/
structure TaskItem where
  workspaceId : String
  taskId : String
  itemId : String
  role : TaskItemRole
  removed : Bool
  deriving DecidableEq, Repr

/-- `item_valuations`. -/
structure ItemValuation where
  clientId : String
  workspaceId : String
  itemId : String
  expectedSalePriceMinor : Option ℤ
  purchaseCostMinor : Option ℤ
  currency : ItemCurrency
  superseded : Bool
  supersededById : Option String
  isDeleted : Bool
  deriving DecidableEq, Repr

/-- `item_cost_evaluations`. -/
structure ItemCostEvaluation where
  clientId : String
  workspaceId : String
  taskId : String
  itemId : String
  kind : ItemCostEvaluationKind
  label : Option String
  expectedSalePriceMinor : Option ℤ
  purchaseCostMinor : Option ℤ
  currency : ItemCurrency
  costModelVersionId : String
  productionCostGroupId : String
  productionCostBasisVersionId : String
  monthlyPaidHoursSnapshot : ℚ
  planningUtilizationPercentSnapshot : ℚ
  fixedMonthlyCostMinorSnapshot : ℤ
  costPerWorkerMinuteMinorSnapshot : ℚ
  productionBudgetMinor : ℤ
  allowedWorkerMinutes : ℚ
  calculationVersion : ℤ
  superseded : Bool
  supersededById : Option String
  promotedFromId : Option String
  isDeleted : Bool
  deriving DecidableEq, Repr

/-- `item_cost_evaluation_terms`, in the order of their creation. -/
structure ItemCostEvaluationTerm extends CostModelTerm where
  workspaceId : String
  evaluationId : String
  amountMinor : ℤ
  deriving DecidableEq, Repr

/-- The tables. -/
structure Db where
  groups : List ProductionCostGroup
  basisVersions : List ProductionCostBasisVersion
  modelVersions : List CostModelVersion
  modelTerms : List CostModelTermRow
  items : List Item
  tasks : List Task
  taskItems : List TaskItem
  valuations : List ItemValuation
  evaluations : List ItemCostEvaluation
  evaluationTerms : List ItemCostEvaluationTerm
  deriving DecidableEq, Repr

def ItemValuation.isCurrent (v : ItemValuation) : Bool := !v.superseded && !v.isDeleted

def ItemCostEvaluation.isCurrent (e : ItemCostEvaluation) : Bool :=
  e.kind == .committed && !e.superseded && !e.isDeleted

end BeyoManager.ItemEconomics
