import BeyoManager.Library.Relational

/-! # Tables of the schedulers

The recurring and the delayed schedulers, and the execution tasks that they create. Instants and
durations are counted in microseconds, instants from the start of 1970.
-/

namespace BeyoManager.Schedulers

open Relational

/-- A `client_id`. -/
abbrev ClientId := String

/-- An aware datetime, in microseconds. -/
abbrev Instant := ℤ

/-- `SchedulerStateEnum`. -/
inductive SchedulerState
  | active | fired | paused | canceled | error
  deriving DecidableEq, Repr

/-- `RecurringSchedulerTypeEnum`. -/
inductive RecurringSchedulerType
  | sendReport | reminder | pinTask | autoClockOutOpenShifts
  deriving DecidableEq, Repr

/-- `DelayedSchedulerTypeEnum`. -/
inductive DelayedSchedulerType
  | notifyToCustomer | sendReport | reminder | batchNotification | pendingStepCompletion
  | stockReportVersionActivation
  deriving DecidableEq, Repr

/-- `RecurringSchedulerIntervalValueEnum`. -/
inductive IntervalValue
  | seconds | minutes | days | months
  deriving DecidableEq, Repr

/-- The values of `TaskType` that a scheduler creates. -/
inductive TaskType
  | delayedNotifyToCustomer | delayedSendReport | delayedReminder | delayedBatchNotification
  | delayedStepCompletion | stockReportVersionActivation
  | recurringSendReport | recurringReminder | recurringPinTask | autoClockOutOpenShifts
  deriving DecidableEq, Repr

/-- `EventTaskOriginSourceEnum`, as far as schedulers are the origin. -/
inductive OriginSource
  | delayedScheduler | recurringScheduler
  deriving DecidableEq, Repr

/-- `recurring_schedulers`; the payload is kept as its JSON text. -/
structure RecurringScheduler where
  clientId : ClientId
  type : RecurringSchedulerType
  state : SchedulerState
  eventClientId : Option ClientId
  createdAt : Instant
  interval : ℤ
  intervalValue : IntervalValue
  lastInterval : Option Instant
  payloadSnapshot : String
  lastError : Option String
  deriving DecidableEq, Repr

/-- `delayed_schedulers`. -/
structure DelayedScheduler where
  clientId : ClientId
  type : DelayedSchedulerType
  state : SchedulerState
  eventClientId : Option ClientId
  scheduledFor : Instant
  payloadSnapshot : String
  lastError : Option String
  updatedAt : Option Instant
  firedAt : Option Instant
  deriving DecidableEq, Repr

/-- A row of `execution_tasks` with its payload. -/
structure ExecutionTask where
  taskType : TaskType
  scheduledAt : Option Instant
  originSource : OriginSource
  originId : ClientId
  eventClientId : Option ClientId
  payload : String
  deriving DecidableEq, Repr

/-- The tables of the schedulers. -/
structure Db where
  recurringSchedulers : List RecurringScheduler
  delayedSchedulers : List DelayedScheduler
  executionTasks : List ExecutionTask
  deriving DecidableEq, Repr

/-- What becomes of a fire. A flush that fails leaves the session unusable, so that the handler of
the exception, which reads the row again, raises itself. `ActivityTracker.touch` comes after all
writes; its message is cut to the length of the column. -/
inductive Creation
  | created
  | flushFailed
  | touchFailed (message : String)
  deriving DecidableEq, Repr

namespace Db

variable (db : Db)

def updateRecurring (id : ClientId) (f : RecurringScheduler → RecurringScheduler) : Db :=
  { db with recurringSchedulers :=
    updateWhere (fun s => s.clientId == id) f db.recurringSchedulers }

def updateDelayed (id : ClientId) (f : DelayedScheduler → DelayedScheduler) : Db :=
  { db with delayedSchedulers := updateWhere (fun s => s.clientId == id) f db.delayedSchedulers }

/-- `create_execution_task`. -/
def createExecutionTask (task : ExecutionTask) : Db :=
  { db with executionTasks := db.executionTasks ++ [task] }

/-- The execution tasks that a scheduler has created. -/
def tasksOf (source : OriginSource) (id : ClientId) : List ExecutionTask :=
  db.executionTasks.filter fun t => t.originSource == source && t.originId == id

end Db

/-- The tables and the clock. -/
structure System where
  clock : Instant
  db : Db

end BeyoManager.Schedulers
