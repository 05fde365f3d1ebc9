import BeyoManager.ItemEconomics.EvaluationCommands

/-! # Runs of the commands of item economics

The commands are executed one after the other, each on the day of the one before it or later.
Items, tasks and cost groups are written by other parts of the system, in any way.
-/

namespace BeyoManager.ItemEconomics

open Relational Transition

/-- The day and the tables. -/
structure State where
  today : Day
  db : Db

/-- The commands on versions, valuations and evaluations, with the ids of the rows that they may
create, and what other parts of the system write. -/
inductive Command
  | createCostModelVersion (workspaceId newId : String) (request : CostModelVersionCreateRequest)
  | deleteCostModelVersion (workspaceId clientId : String)
  | createProductionCostBasisVersion (workspaceId newId : String)
      (request : ProductionCostBasisVersionCreateRequest)
  | deleteProductionCostBasisVersion (workspaceId clientId : String)
  | setItemValuation (workspaceId itemId newId : String) (price cost : Option ℤ)
      (currency : ItemCurrency)
  | writeItemValuation (workspaceId itemId newId : String) (price cost : Option ℤ)
      (currency : ItemCurrency)
  | deleteItemValuation (workspaceId : String) (valuationId : Option String) (itemId : String)
  | commitItemCostEvaluation (workspaceId taskId newId newValuationId : String)
      (price cost : Override) (label : Option String)
  | createItemCostProjection (workspaceId taskId newId : String) (source : ProjectionSource)
      (price cost : Override) (label : Option String)
  | deleteItemCostProjection (workspaceId clientId : String)
  | promoteItemCostProjection (workspaceId clientId newId newValuationId : String)
  | autoCommitItemCostEvaluation (workspaceId taskId itemId newId newValuationId : String)
  | writeElsewhere (groups : List ProductionCostGroup) (items : List Item) (tasks : List Task)
      (taskItems : List TaskItem)

/-- Execute a command on a day. -/
def execute (today : Day) (db : Db) : Command → Except CommandError Db
  | .createCostModelVersion workspaceId newId request =>
    createCostModelVersion today workspaceId newId request db
  | .deleteCostModelVersion workspaceId clientId => deleteCostModelVersion workspaceId clientId db
  | .createProductionCostBasisVersion workspaceId newId request =>
    createProductionCostBasisVersion today workspaceId newId request db
  | .deleteProductionCostBasisVersion workspaceId clientId =>
    deleteProductionCostBasisVersion workspaceId clientId db
  | .setItemValuation workspaceId itemId newId price cost currency =>
    setItemValuation today workspaceId itemId newId price cost currency db
  | .writeItemValuation workspaceId itemId newId price cost currency =>
    writeItemValuation workspaceId itemId newId price cost currency db
  | .deleteItemValuation workspaceId valuationId itemId =>
    deleteItemValuation workspaceId valuationId itemId db
  | .commitItemCostEvaluation workspaceId taskId newId newValuationId price cost label =>
    commitItemCostEvaluationInSession today
      { workspaceId := workspaceId, taskId := taskId, newId := newId
        newValuationId := newValuationId, price := price, cost := cost, label := label } db
  | .createItemCostProjection workspaceId taskId newId source price cost label =>
    createItemCostProjection today workspaceId taskId newId source price cost label db
  | .deleteItemCostProjection workspaceId clientId =>
    deleteItemCostProjection workspaceId clientId db
  | .promoteItemCostProjection workspaceId clientId newId newValuationId =>
    promoteItemCostProjection today workspaceId clientId newId newValuationId db
  | .autoCommitItemCostEvaluation workspaceId taskId itemId newId newValuationId =>
    autoCommitItemCostEvaluationInSession today workspaceId taskId itemId newId newValuationId db
  | .writeElsewhere groups items tasks taskItems =>
    pure { db with groups := groups, items := items, tasks := tasks, taskItems := taskItems }

/-- A command, some days after the one before it. -/
structure Call where
  elapsed : ℕ
  command : Command

def step (s : State) (call : Call) : Except CommandError State := do
  let db ← execute (s.today + call.elapsed) s.db call.command
  pure ⟨s.today + call.elapsed, db⟩

theorem step_eq_ok {s s' : State} {call : Call} (h : step s call = .ok s') :
    execute (s.today + call.elapsed) s.db call.command = .ok s'.db := by
  obtain ⟨db, hdb, h⟩ := bind_eq_ok.mp h
  cases h
  exact hdb

section Commit

variable {today : Day} {a : CommitArguments} {db db' : Db}

/-- What a successful commit has loaded and written. -/
theorem commitItemCostEvaluationInSession_eq_ok
    (h : commitItemCostEvaluationInSession today a db = .ok db') :
    ∃ task item inputs rate budget allowed evaluations terms valuations,
      loadTaskAndPrimary db a.workspaceId a.taskId = .ok (task, item) ∧
      commitInputs today a db item = .ok inputs ∧
      insertEvaluation (evaluationRow a task item inputs rate budget allowed) db.evaluations =
        .ok evaluations ∧
      mirrorValuation a item inputs db.valuations = .ok valuations ∧
      db' = { db with evaluations := evaluations, evaluationTerms := terms,
                      valuations := valuations } := by
  obtain ⟨⟨task, item⟩, hload, h⟩ := bind_eq_ok.mp h
  obtain ⟨inputs, hinputs, h⟩ := bind_eq_ok.mp h
  obtain ⟨amounts, -, h⟩ := bind_eq_ok.mp h
  obtain ⟨rate, -, h⟩ := bind_eq_ok.mp h
  obtain ⟨budget, -, h⟩ := bind_eq_ok.mp h
  obtain ⟨allowed, -, h⟩ := bind_eq_ok.mp h
  obtain ⟨evaluations, hevaluations, h⟩ := bind_eq_ok.mp h
  obtain ⟨valuations, hvaluations, h⟩ := bind_eq_ok.mp h
  cases h
  exact ⟨task, item, inputs, rate, budget, allowed, evaluations, _, valuations, hload, hinputs,
    hevaluations, hvaluations, rfl⟩

theorem commit_versions (h : commitItemCostEvaluationInSession today a db = .ok db') :
    db'.basisVersions = db.basisVersions ∧ db'.modelVersions = db.modelVersions := by
  obtain ⟨_, _, _, _, _, _, _, _, _, -, -, -, -, rfl⟩ := commitItemCostEvaluationInSession_eq_ok h
  exact ⟨rfl, rfl⟩

end Commit

end BeyoManager.ItemEconomics
