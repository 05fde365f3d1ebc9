import BeyoManager.Analytics.Concurrency
import BeyoManager.Library.Relational
import BeyoManager.Library.Sweep
import BeyoManager.Library.Tally
import BeyoManager.Library.Transition
import BeyoManager.StockReport.Enums
import BeyoManager.StockReport.Tables
import BeyoManager.Library.Dict
import BeyoManager.Library.LargestRemainder
import BeyoManager.Library.Grouping
import BeyoManager.Library.Sorting
import BeyoManager.Library.PyText
import BeyoManager.TaskSteps.TaskLifeRuns
import BeyoManager.TaskSteps.Enums
import BeyoManager.Analytics.Shares
import BeyoManager.ItemEconomics.BudgetDivision
import BeyoManager.ItemEconomics.Apportionment
import BeyoManager.ItemEconomics.Conservation
import BeyoManager.StockReport.SnapshotRules
import BeyoManager.StockReport.MoveAssignment
import BeyoManager.StockReport.Assignments
import BeyoManager.StockReport.Ordering
import BeyoManager.StockReport.Versions
import BeyoManager.StockReport.Quantities
import BeyoManager.StockReport.Demand
import BeyoManager.StockReport.Run
import BeyoManager.StockReport.CommandSteps
import BeyoManager.StockReport.Counters
import BeyoManager.StockReport.Goals
import BeyoManager.StockReport.VersionStates
import BeyoManager.StockReport.VersionSteps
import BeyoManager.StockReport.VersionEntries
import BeyoManager.StockReport.VersionCommands
import BeyoManager.StockReport.RowDeletion
import BeyoManager.StockReport.VersionRuns
import BeyoManager.ItemEconomics.PressureConservation
import BeyoManager.ItemEconomics.AllowanceInvariance
import BeyoManager.ItemEconomics.Rederivation
import BeyoManager.ItemEconomics.PriceScenario
import BeyoManager.TaskSteps.Resettlement
import BeyoManager.Analytics.LinearSegments
import BeyoManager.TaskSteps.OneActiveRuns
import BeyoManager.TaskSteps.DependencyRuns
import BeyoManager.Library.FixedScale
import BeyoManager.Upholstery.Run
import BeyoManager.Upholstery.Ledger
import BeyoManager.Upholstery.ConditionRuns
import BeyoManager.Upholstery.Interleavings
import BeyoManager.Upholstery.StoredVerdict
import BeyoManager.Schedulers.RecurringRuns
import BeyoManager.Schedulers.DelayedRuns
import BeyoManager.ItemEconomics.EvaluationRuns
import BeyoManager.Workers.Recovery
import BeyoManager.WorkStats.Rollups
import BeyoManager.StockReport.DemandSettled
import BeyoManager.StockReport.PriorityMerge
import BeyoManager.StockReport.PlaceMoves
import BeyoManager.StockReport.Activation
import BeyoManager.TaskSteps.DependencyGraph
import BeyoManager.Shopify.WebhookSettled
import BeyoManager.ItemEconomics.SliderDomain
import BeyoManager.ItemEconomics.CollapsedTerms
import BeyoManager.ItemEconomics.PressureInvariance
import BeyoManager.ItemEconomics.BudgetSignal
import BeyoManager.Analytics.WindowStarts
import BeyoManager.ItemEconomics.TypicalRungs
import BeyoManager.StockReport.EventReplay
import BeyoManager.StockReport.CriteriaVerdict
import BeyoManager.StockReport.BodyVerdicts
import BeyoManager.StockReport.DemandBodies
import BeyoManager.Analytics.AccrualRates
import BeyoManager.StockReport.SelfHeal
import BeyoManager.StockReport.CriteriaSignature
import BeyoManager.TaskSteps.SectionCommands
import BeyoManager.Emails.FilingRuns
import BeyoManager.Shifts.WorkingLabels
import BeyoManager.Completion.DeferredCompletion
import BeyoManager.Shopify.ProductSyncRuns
import BeyoManager.TaskSteps.BatchOneByOne
import BeyoManager.Emails.InboxSync
