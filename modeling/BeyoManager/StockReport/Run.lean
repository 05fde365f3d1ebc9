import BeyoManager.StockReport.Demand
import BeyoManager.StockReport.Quantities

/-! # Runs of the stock report

The commands that write the tables of the stock report, each executed atomically:
a command that fails is rolled back. Generated ids, clocks and the answers of the
other domains are parameters of a command.
-/

namespace BeyoManager.StockReport

/-- A command, with everything that it reads from outside the tables. -/
inductive Op
  | createAssignments (criteriaFail : Item → JsonText → Bool) (newId : ℕ → ClientId)
      (entries : List CreateEntry)
  | changeTaskStates (changes : List (ClientId × TaskState))
  | itemsProcessed (articleNumbers : List String)
  | deleteAssignments (clientIds : List ClientId)
  | removeAssignments (remover : Remover)
  | deleteRow (rowId : ClientId) (now : Timestamp)
  | stockDemand (categoryByKey : String → Option ClientId) (entries : List DemandEntry)
      (now : Timestamp) (late : Bool) (newRowId newSnapshotId newHistoryId : ℕ → ClientId)
  | stockDemandDeleted (categoryByKey : String → Option ClientId) (entries : List DemandEntry)
      (now : Timestamp) (late : Bool)
  | createVersion (request : CreateVersionRequest) (now : Timestamp)
      (newVersionId newSchedulerId : ClientId) (newId : ℕ → ClientId)
  | activateVersion (request : ActivateRequest) (now : Timestamp)
      (newId newHistoryId : ℕ → ClientId)
  | refreshVersion (versionId : ClientId) (keepManualRequested : Bool) (now : Timestamp)
      (newId newHistoryId : ℕ → ClientId)
  | updateVersion (request : UpdateVersionRequest) (now : Timestamp) (newSchedulerId : ClientId)
  | deleteVersion (versionId : ClientId)
  | applyPriorities (sourceVersionId : ClientId) (targetVersionId : Option ClientId)
      (now : Timestamp) (newId : ℕ → ClientId)
  | setPriority (rowId : ClientId) (versionId : Option ClientId)
      (priority : Option StockReportPriority) (now : Timestamp) (newId : ℕ → ClientId)
  | setPriorityOrder (rowId : ClientId) (versionId : Option ClientId) (targetOrder : ℤ)
      (now : Timestamp) (newId : ℕ → ClientId)
  | setMissingQuantity (rowId : ClientId) (versionId : Option ClientId) (quantity : Option ℤ)
  | setRequestedQuantity (rowId : ClientId) (versionId : Option ClientId) (quantity : Option ℤ)
      (now : Timestamp) (newHistoryId : ClientId)

def step (db : Db) : Op → Except CommandError Db
  | .createAssignments criteriaFail newId entries =>
    createStockTaskAssignments db criteriaFail newId entries
  | .changeTaskStates changes => changeTaskStates db changes
  | .itemsProcessed articleNumbers => do
    let (db, _) ← processItemsProcessed db articleNumbers
    pure db
  | .deleteAssignments clientIds => deleteStockTaskAssignments db clientIds
  | .removeAssignments remover => runRemover db remover
  | .deleteRow rowId now => deleteStockReportItem db rowId now
  | .stockDemand categoryByKey entries now late newRowId newSnapshotId newHistoryId =>
    applyStockDemand db categoryByKey entries now late newRowId newSnapshotId newHistoryId
  | .stockDemandDeleted categoryByKey entries now late =>
    processStockDemandDeleted db categoryByKey entries now late
  | .createVersion request now newVersionId newSchedulerId newId =>
    createStockReportSnapshotVersion db request now newVersionId newSchedulerId newId
  | .activateVersion request now newId newHistoryId =>
    activateStockReportSnapshotVersion db request now newId newHistoryId
  | .refreshVersion versionId keepManualRequested now newId newHistoryId =>
    refreshStockReportSnapshotVersionRequested db versionId keepManualRequested now newId
      newHistoryId
  | .updateVersion request now newSchedulerId =>
    updateStockReportSnapshotVersion db request now newSchedulerId
  | .deleteVersion versionId => deleteStockReportSnapshotVersion db versionId
  | .applyPriorities sourceVersionId targetVersionId now newId =>
    applyStockReportSnapshotVersionPriorities db now newId sourceVersionId targetVersionId
  | .setPriority rowId versionId priority now newId =>
    setStockReportItemPriority db now newId rowId versionId priority
  | .setPriorityOrder rowId versionId targetOrder now newId =>
    setStockReportItemPriorityOrder db now newId rowId versionId targetOrder
  | .setMissingQuantity rowId versionId quantity =>
    setStockReportItemSnapshotMissingQuantity db rowId versionId quantity
  | .setRequestedQuantity rowId versionId quantity now newHistoryId =>
    setStockReportItemSnapshotRequestedQuantity db rowId versionId quantity now newHistoryId

abbrev run (db : Db) (ops : List Op) : Db := Transition.run step db ops

end BeyoManager.StockReport
