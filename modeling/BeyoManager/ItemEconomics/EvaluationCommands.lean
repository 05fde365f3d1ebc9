import BeyoManager.ItemEconomics.VersionCommands

/-! # Commands on valuations and evaluations

A commit computes an evaluation from the live configuration or from a stored projection, ends the
current evaluation of its task and mirrors its amounts into the valuation of the item.
-/

namespace BeyoManager.ItemEconomics

open Relational Transition
open StockReport (TaskState)

/-- A price or a cost of a request: absent, or a number or null. -/
abbrev Override := Option (Option ℤ)

def Override.apply (override : Override) (amount : Option ℤ) : Option ℤ := override.getD amount

section Valuations

def currentValuation (workspaceId itemId : String) (valuations : List ItemValuation) :
    Option ItemValuation :=
  valuations.find? fun v => v.workspaceId == workspaceId && v.itemId == itemId && v.isCurrent

def NonNegative (amount : Option ℤ) : Prop := ∀ a ∈ amount, 0 ≤ a

instance (amount : Option ℤ) : Decidable (NonNegative amount) :=
  inferInstanceAs (Decidable (∀ _ ∈ _, _))

/-- `write_item_valuation_chain_in_session`. -/
def writeItemValuationChainInSession (workspaceId itemId newId : String)
    (expectedSalePriceMinor purchaseCostMinor : Option ℤ) (currency : ItemCurrency)
    (valuations : List ItemValuation) : Except CommandError (List ItemValuation) := do
  let isOpen := fun v : ItemValuation =>
    v.workspaceId == workspaceId && v.itemId == itemId && v.isCurrent
  let old := currentValuation workspaceId itemId valuations
  let rowcount := valuations.countP isOpen
  let closed := updateWhere isOpen (fun v => { v with superseded := true }) valuations
  throwIf (¬ (NonNegative expectedSalePriceMinor ∧ NonNegative purchaseCostMinor ∧
    (expectedSalePriceMinor ≠ none ∨ purchaseCostMinor ≠ none)))
    (.integrityError "ck_item_valuations")
  let valuation : ItemValuation :=
    { clientId := newId, workspaceId := workspaceId, itemId := itemId
      expectedSalePriceMinor := expectedSalePriceMinor, purchaseCostMinor := purchaseCostMinor
      currency := currency, superseded := false, supersededById := none, isDeleted := false }
  let inserted ← insertRecords ItemValuation.clientId (.integrityError "pkey") [valuation] closed
  match old with
  | none => pure inserted
  | some old =>
    if rowcount = 1 then
      pure (updateWhere (fun v => v.clientId == old.clientId)
        (fun v => { v with supersededById := some newId }) inserted)
    else pure inserted

end Valuations

section Inputs

def taskStateValue : TaskState → String
  | .pending => "pending"
  | .assigned => "assigned"
  | .working => "working"
  | .stalled => "stalled"
  | .ready => "ready"
  | .resolved => "resolved"
  | .failed => "failed"
  | .cancelled => "cancelled"

/-- `_ADMITTED_STATES`. -/
def admittedStates : List TaskState := [.pending, .assigned, .working, .stalled, .ready]

/-- `_load_task_and_primary`. -/
def loadTaskAndPrimary (db : Db) (workspaceId taskId : String) :
    Except CommandError (Task × Item) := do
  let task ← getOr (.notFound "Task not found.")
    (db.tasks.find? fun t => t.workspaceId == workspaceId && t.clientId == taskId)
  throwIf (task.isDeleted = true) (.notFound "Task not found.")
  throwIf (task.state ∉ admittedStates)
    (.validationError ("ITEM_COST_TASK_TERMINAL: task is " ++ taskStateValue task.state))
  let primary ← getOr (.validationError
    "ITEM_COST_NO_PRIMARY_ITEM: task has no active PRIMARY item")
    (db.taskItems.find? fun i => i.workspaceId == workspaceId && i.taskId == task.clientId &&
      i.role == .primary && !i.removed)
  let item ← getOr (.notFound "Item not found.") (db.items.find? fun i =>
    i.workspaceId == workspaceId && i.clientId == primary.itemId && !i.isDeleted)
  pure (task, item)

def modelTerms (db : Db) (workspaceId costModelVersionId : String) : List CostModelTerm :=
  (db.modelTerms.filter fun t => t.workspaceId == workspaceId &&
    t.costModelVersionId == costModelVersionId && !t.isDeleted).map CostModelTermRow.toCostModelTerm

/-- `_load_preview_inputs`, and the selection and the terms of `_load_live_inputs`. -/
def loadLiveInputs (db : Db) (today : Day) (workspaceId : String) (item : Item) :
    EconomicsSelection × List CostModelTerm :=
  let selection := resolveEconomicsSelection (resolveMajorCategory item.itemMajorCategorySnapshot)
    (db.groups.filter fun g => g.workspaceId == workspaceId && !g.isDeleted)
    (db.basisVersions.filter fun v => v.chain.1 == workspaceId && !v.isDeleted)
    (db.modelVersions.filter fun v => v.chain == workspaceId && !v.isDeleted) today
  match selection.costModelVersion with
  | none => (selection, [])
  | some version => (selection, modelTerms db workspaceId version.clientId)

/-- The groups of a message, as Python prints a list of texts. -/
def reprGroups (groups : List ProductionCostGroup) : String :=
  "[" ++ ", ".intercalate (groups.map fun g => "'" ++ g.clientId ++ "'") ++ "]"

/-- `_status_error`. -/
def statusError (status : EconomicsStatus) (item : Item) (groups : List ProductionCostGroup) :
    CommandError :=
  .validationError <|
    match status with
    | .itemMissingMajorCategory => "ITEM_COST_ITEM_MISSING_MAJOR_CATEGORY: item " ++
        item.clientId ++ " has no known major category"
    | .notConfiguredNoCostGroup => "ITEM_COST_NO_COST_GROUP: not configured no cost group"
    | .notConfiguredAmbiguousCostGroup =>
      let category := resolveMajorCategory item.itemMajorCategorySnapshot
      let matching := groups.filter fun g => some g.majorCategory == category
      "ITEM_COST_AMBIGUOUS_COST_GROUP: " ++ toString matching.length ++
        " active cost groups for " ++
        (category.elim "unknown" ItemMajorCategory.value) ++ ": " ++ reprGroups matching
    | .notConfiguredNoBasisVersion =>
      "ITEM_COST_NO_BASIS_VERSION: not configured no basis version"
    | .notConfiguredNoCostModelVersion =>
      "ITEM_COST_NO_COST_MODEL_VERSION: not configured no cost model version"
    | .itemUnvalued => "ITEM_COST_ITEM_UNVALUED: item unvalued"
    | .itemMissingExpectedPrice => "ITEM_COST_EXPECTED_PRICE_REQUIRED: item missing expected price"
    | .itemMissingPurchaseCost => "ITEM_COST_PURCHASE_COST_REQUIRED: item missing purchase cost"
    | .currencyMismatch => "ITEM_COST_CURRENCY_MISMATCH: currency mismatch"
    -- no refusal: the callers do not come here with these
    | .notEvaluated | .ok => ""

/-- What an evaluation is computed from, and the valuation that it is mirrored into. -/
structure CommitInputs where
  valuation : ItemValuation
  terms : List CostModelTerm
  expectedPrice : Option ℤ
  purchaseCost : Option ℤ
  currency : ItemCurrency
  costModelVersionId : String
  productionCostGroupId : String
  productionCostBasisVersionId : String
  fixedMonthlyCostMinor : ℤ
  monthlyPaidHours : ℚ
  planningUtilizationPercent : ℚ

def liveCommitInputs (db : Db) (today : Day) (workspaceId : String) (item : Item)
    (price cost : Override) : Except CommandError CommitInputs := do
  let (selection, terms) := loadLiveInputs db today workspaceId item
  let valuation := currentValuation workspaceId item.clientId db.valuations
  let effective := valuation.map fun v =>
    { v with
      expectedSalePriceMinor := price.apply v.expectedSalePriceMinor
      purchaseCostMinor := cost.apply v.purchaseCostMinor }
  let status := resolveItemEconomicsStatus effective selection terms
  throwIf (status ≠ .notEvaluated) (statusError status item
    (db.groups.filter fun g => g.workspaceId == workspaceId && !g.isDeleted))
  match valuation, effective, selection.selectedGroup, selection.basisVersion,
    selection.costModelVersion with
  | some valuation, some effective, some group, some basis, some model =>
    pure
      { valuation := valuation
        terms := terms
        expectedPrice := effective.expectedSalePriceMinor
        purchaseCost := effective.purchaseCostMinor
        currency := valuation.currency
        costModelVersionId := model.clientId
        productionCostGroupId := group.clientId
        productionCostBasisVersionId := basis.clientId
        fixedMonthlyCostMinor := basis.content.fixedMonthlyCostMinor
        monthlyPaidHours := basis.content.monthlyPaidHours
        planningUtilizationPercent := basis.content.planningUtilizationPercent }
  | _, _, _, _, _ => .error (.calculatorError .assertionError)

def sourceCommitInputs (db : Db) (workspaceId : String) (item : Item) (source : ItemCostEvaluation)
    (sourceTerms : List CostModelTerm) (price cost : Override) :
    Except CommandError CommitInputs := do
  let valuation ← getOr (.validationError "ITEM_COST_ITEM_UNVALUED: item has no current valuation")
    (currentValuation workspaceId item.clientId db.valuations)
  pure
    { valuation := valuation
      terms := sourceTerms
      expectedPrice := price.apply source.expectedSalePriceMinor
      purchaseCost := cost.apply source.purchaseCostMinor
      currency := source.currency
      costModelVersionId := source.costModelVersionId
      productionCostGroupId := source.productionCostGroupId
      productionCostBasisVersionId := source.productionCostBasisVersionId
      fixedMonthlyCostMinor := source.fixedMonthlyCostMinorSnapshot
      monthlyPaidHours := source.monthlyPaidHoursSnapshot
      planningUtilizationPercent := source.planningUtilizationPercentSnapshot }

end Inputs

section Commit

/-- What the callers of a commit pass to it, with the ids of the rows that it may create. -/
structure CommitArguments where
  workspaceId : String
  taskId : String
  newId : String
  newValuationId : String
  price : Override := none
  cost : Override := none
  label : Option String := none
  promotedFromId : Option String := none
  source : Option (ItemCostEvaluation × List CostModelTerm) := none
  kind : ItemCostEvaluationKind := .committed

def currentEvaluation (workspaceId taskId : String) (evaluations : List ItemCostEvaluation) :
    Option ItemCostEvaluation :=
  evaluations.find? fun e => e.workspaceId == workspaceId && e.taskId == taskId && e.isCurrent

/-- End the current evaluation of a task and add a new one, which the ended one points to. A
projection ends nothing. -/
def insertEvaluation (evaluation : ItemCostEvaluation) (evaluations : List ItemCostEvaluation) :
    Except CommandError (List ItemCostEvaluation) := do
  let isOpen := fun e : ItemCostEvaluation =>
    e.workspaceId == evaluation.workspaceId && e.taskId == evaluation.taskId && e.isCurrent
  let previous :=
    if evaluation.kind = .committed then
      currentEvaluation evaluation.workspaceId evaluation.taskId evaluations
    else none
  let closed :=
    if evaluation.kind = .committed then
      updateWhere isOpen (fun e => { e with superseded := true }) evaluations
    else evaluations
  throwIf (¬ (evaluation.expectedSalePriceMinor ≠ none ∧
    NonNegative evaluation.expectedSalePriceMinor ∧ NonNegative evaluation.purchaseCostMinor))
    (.integrityError "ck_ice")
  let inserted ← insertRecords ItemCostEvaluation.clientId
    (.integrityError "pkey") [evaluation] closed
  match previous with
  | none => pure inserted
  | some previous =>
    pure (updateWhere (fun e => e.clientId == previous.clientId)
      (fun e => { e with supersededById := some evaluation.clientId }) inserted)

def commitInputs (today : Day) (a : CommitArguments) (db : Db) (item : Item) :
    Except CommandError CommitInputs :=
  match a.source with
  | none => liveCommitInputs db today a.workspaceId item a.price a.cost
  | some (source, terms) => sourceCommitInputs db a.workspaceId item source terms a.price a.cost

def evaluationRow (a : CommitArguments) (task : Task) (item : Item)
    (inputs : CommitInputs) (rate : ℚ)
    (budget : ℤ) (allowed : ℚ) : ItemCostEvaluation where
  clientId := a.newId
  workspaceId := a.workspaceId
  taskId := task.clientId
  itemId := item.clientId
  kind := a.kind
  label := a.label
  expectedSalePriceMinor := inputs.expectedPrice
  purchaseCostMinor := inputs.purchaseCost
  currency := inputs.currency
  costModelVersionId := inputs.costModelVersionId
  productionCostGroupId := inputs.productionCostGroupId
  productionCostBasisVersionId := inputs.productionCostBasisVersionId
  monthlyPaidHoursSnapshot := inputs.monthlyPaidHours
  planningUtilizationPercentSnapshot := inputs.planningUtilizationPercent
  fixedMonthlyCostMinorSnapshot := inputs.fixedMonthlyCostMinor
  costPerWorkerMinuteMinorSnapshot := rate
  productionBudgetMinor := budget
  allowedWorkerMinutes := allowed
  calculationVersion := CALCULATION_VERSION
  superseded := false
  supersededById := none
  promotedFromId := a.promotedFromId
  isDeleted := false

def mirrorValuation (a : CommitArguments) (item : Item) (inputs : CommitInputs)
    (valuations : List ItemValuation) : Except CommandError (List ItemValuation) :=
  if a.kind = .committed ∧ (inputs.expectedPrice, inputs.purchaseCost) ≠
      (inputs.valuation.expectedSalePriceMinor, inputs.valuation.purchaseCostMinor) then
    writeItemValuationChainInSession a.workspaceId item.clientId a.newValuationId
      inputs.expectedPrice inputs.purchaseCost inputs.valuation.currency valuations
  else pure valuations

/-- `_commit_item_cost_evaluation_in_session`. -/
def commitItemCostEvaluationInSession (today : Day) (a : CommitArguments) (db : Db) :
    Except CommandError Db := do
  let (task, item) ← loadTaskAndPrimary db a.workspaceId a.taskId
  let inputs ← commitInputs today a db item
  let termAmounts ← calculated
    (calculateTermAmounts inputs.terms inputs.expectedPrice inputs.purchaseCost)
  let rate ← calculated (calculateCostPerWorkerMinute (some inputs.fixedMonthlyCostMinor)
    (some inputs.monthlyPaidHours) (some inputs.planningUtilizationPercent))
  let budget ← calculated (calculateProductionBudget inputs.expectedPrice termAmounts)
  let allowed ← calculated (calculateAllowedWorkerMinutes (some budget) (some rate))
  let evaluations ← insertEvaluation (evaluationRow a task item inputs rate budget allowed)
    db.evaluations
  let valuations ← mirrorValuation a item inputs db.valuations
  pure { db with
    evaluations := evaluations
    evaluationTerms := db.evaluationTerms ++
      (inputs.terms.zip termAmounts).map fun (term, amount) =>
      { toCostModelTerm := term, workspaceId := a.workspaceId, evaluationId := a.newId
        amountMinor := amount }
    valuations := valuations }

def evaluationTerms (db : Db) (evaluationId : String) : List CostModelTerm :=
  (db.evaluationTerms.filter fun t => t.evaluationId == evaluationId).map
    ItemCostEvaluationTerm.toCostModelTerm

def findProjection (db : Db) (workspaceId clientId : String) :
    Except CommandError ItemCostEvaluation :=
  getOr (.notFound "Item cost projection not found.") (db.evaluations.find? fun e =>
    e.workspaceId == workspaceId && e.clientId == clientId && e.kind == .projection && !e.isDeleted)

/-- `promote_item_cost_projection`. -/
def promoteItemCostProjection (today : Day) (workspaceId clientId newId newValuationId : String)
    (db : Db) : Except CommandError Db := do
  let projection ← findProjection db workspaceId clientId
  commitItemCostEvaluationInSession today
    { workspaceId := workspaceId, taskId := projection.taskId, newId := newId
      newValuationId := newValuationId, label := projection.label
      promotedFromId := some projection.clientId
      source := some (projection, evaluationTerms db projection.clientId) } db

inductive ProjectionSource
  | scratch
  | committed
  | projection (clientId : String)

def projectionSource (db : Db) (workspaceId taskId : String) :
    ProjectionSource → Except CommandError (Option ItemCostEvaluation)
  | .scratch => pure none
  | .committed => do
    let source ← getOr (.notFound "Current committed evaluation not found.")
      (currentEvaluation workspaceId taskId db.evaluations)
    pure (some source)
  | .projection clientId => do
    let source ← getOr (.notFound "Item cost projection not found.") (db.evaluations.find? fun e =>
      e.workspaceId == workspaceId && e.taskId == taskId && e.clientId == clientId &&
        e.kind == .projection && !e.isDeleted)
    pure (some source)

/-- `create_item_cost_projection`. -/
def createItemCostProjection (today : Day) (workspaceId taskId newId : String)
    (source : ProjectionSource) (price cost : Override) (label : Option String) (db : Db) :
    Except CommandError Db := do
  let source ← projectionSource db workspaceId taskId source
  commitItemCostEvaluationInSession today
    { workspaceId := workspaceId, taskId := taskId, newId := newId, newValuationId := newId
      price := price, cost := cost, label := label
      source := source.map fun source => (source, evaluationTerms db source.clientId)
      kind := .projection } db

/-- `delete_item_cost_projection`. -/
def deleteItemCostProjection (workspaceId clientId : String) (db : Db) :
    Except CommandError Db := do
  let projection ← findProjection db workspaceId clientId
  pure { db with
    evaluations := updateWhere (fun e => e.clientId == projection.clientId)
      (fun e => { e with isDeleted := true }) db.evaluations }

/-- `auto_commit_item_cost_evaluation_in_session`: nothing when the item is not ready. -/
def autoCommitItemCostEvaluationInSession (today : Day)
    (workspaceId taskId itemId newId newValuationId : String) (db : Db) :
      Except CommandError Db := do
  let item ← getOr (.notFound "Item not found.") (db.items.find? fun i => i.clientId == itemId)
  let (selection, terms) := loadLiveInputs db today workspaceId item
  let status := resolveItemEconomicsStatus
    (currentValuation workspaceId item.clientId db.valuations)
    selection terms
  if status = .notEvaluated then
    commitItemCostEvaluationInSession today
      { workspaceId := workspaceId, taskId := taskId, newId := newId
        newValuationId := newValuationId } db
  else pure db

end Commit

section SetValuation

/-- `_preview`, of which only the exceptions matter here. -/
def previewValuation (valuation : ItemValuation) (selection : EconomicsSelection)
    (terms : List CostModelTerm) : Except CommandError Unit :=
  if resolveItemEconomicsStatus (some valuation) selection terms ≠ .notEvaluated then pure ()
  else do
    let amounts ← calculated (calculateTermAmounts terms valuation.expectedSalePriceMinor
      valuation.purchaseCostMinor)
    let budget ← calculated (calculateProductionBudget valuation.expectedSalePriceMinor amounts)
    let _ ← calculated (calculateAllowedWorkerMinutes (some budget)
      (selection.basisVersion.map fun basis => basis.content.costPerWorkerMinuteMinor))
    pure ()

/-- `set_item_valuation`. -/
def setItemValuation (today : Day) (workspaceId itemId newId : String)
    (expectedSalePriceMinor purchaseCostMinor : Option ℤ) (currency : ItemCurrency) (db : Db) :
    Except CommandError Db := do
  throwIf (expectedSalePriceMinor = none ∧ purchaseCostMinor = none) (.validationError
    ("ITEM_COST_VALUATION_AMOUNT_REQUIRED: expected_sale_price_minor or purchase_cost_minor is " ++
      "required"))
  let item ← getOr (.notFound "Item not found.") (db.items.find? fun i =>
    i.workspaceId == workspaceId && i.clientId == itemId && !i.isDeleted)
  let valuations ← writeItemValuationChainInSession workspaceId item.clientId newId
    expectedSalePriceMinor purchaseCostMinor currency db.valuations
  let (selection, terms) := loadLiveInputs db today workspaceId item
  previewValuation
    { clientId := newId, workspaceId := workspaceId, itemId := item.clientId
      expectedSalePriceMinor := expectedSalePriceMinor, purchaseCostMinor := purchaseCostMinor
      currency := currency, superseded := false, supersededById := none, isDeleted := false }
    selection terms
  pure { db with valuations := valuations }

/-- `delete_item_valuation`, by the id of the valuation or that of its item. -/
def deleteItemValuation (workspaceId : String) (valuationId : Option String) (itemId : String)
    (db : Db) : Except CommandError Db := do
  let valuation ← getOr (.notFound "Item valuation not found.") <|
    match valuationId with
    | some id => db.valuations.find? fun v => v.workspaceId == workspaceId && v.clientId == id
    | none => currentValuation workspaceId itemId db.valuations
  throwIf (valuation.isDeleted = true) (.notFound "Item valuation not found.")
  throwIf (valuation.superseded = true) (.validationError
    "ITEM_COST_VALUATION_SUPERSEDED_IMMUTABLE: superseded valuations cannot be deleted")
  pure { db with
    valuations := updateWhere (fun v => v.clientId == valuation.clientId)
      (fun v => { v with isDeleted := true }) db.valuations }

/-- The valuation that `create_task` writes for its item. -/
def writeItemValuation (workspaceId itemId newId : String)
    (expectedSalePriceMinor purchaseCostMinor : Option ℤ) (currency : ItemCurrency) (db : Db) :
    Except CommandError Db := do
  let valuations ← writeItemValuationChainInSession workspaceId itemId newId expectedSalePriceMinor
    purchaseCostMinor currency db.valuations
  pure { db with valuations := valuations }

end SetValuation

end BeyoManager.ItemEconomics
