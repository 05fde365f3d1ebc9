import Mathlib.Data.PNat.Defs
import Mathlib.Algebra.Order.Group.Int

/-! # Execution tasks

The rows of `execution_tasks`, the handlers that run for them and the sessions that have read rows
and not committed yet. Instants and durations are counted in microseconds.
-/

namespace BeyoManager.Workers

/-- A `client_id`. -/
abbrev ClientId := String

/-- An aware datetime, in microseconds. -/
abbrev Instant := ℤ

/-- `ExecutionTaskStateEnum`. -/
inductive TaskState
  | «open» | pending | inProgress | retrying | retryScheduled | completed | fail | cancel
  deriving DecidableEq, Repr

/-- The states that a task ends in. -/
def TaskState.terminal : TaskState → Bool
  | .completed | .fail | .cancel => true
  | _ => false

/-- `TaskType`. -/
inductive TaskType
  | notification | uploadImage | deliverWebhook
  | createNotifications | sendPushNotification
  | delayedNotifyToCustomer | delayedSendReport | delayedReminder | delayedBatchNotification
  | delayedStepCompletion | stockReportVersionActivation
  | recurringSendReport | recurringReminder | recurringPinTask | autoClockOutOpenShifts
  | recordViewStart | recordViewEnd
  | processStepTransition | processItemCostResult
  | emailInboxSync | emailSyncTargeted | sendCoordinationEmailBatch | sendEmailMessages
  | locationTrackerPushLocations
  | shopifyProcessWebhook | shopifySyncWebhooksForShop | shopifyRemoveWebhooksForShop
  | shopifyReconcileShop | shopifyProcessProducts | connecteamProcessTimeActivity
  deriving DecidableEq, Repr

/-- `OUTBOUND_TASK_TYPES`. -/
def outboundTaskTypes : List TaskType :=
  [.sendPushNotification, .sendEmailMessages, .sendCoordinationEmailBatch, .emailInboxSync,
    .emailSyncTargeted, .locationTrackerPushLocations, .shopifyProcessWebhook,
    .shopifySyncWebhooksForShop, .shopifyRemoveWebhooksForShop, .shopifyReconcileShop,
    .shopifyProcessProducts, .deliverWebhook, .delayedNotifyToCustomer, .delayedSendReport,
    .recurringSendReport]

/-- `outbound_blocked`. -/
def outboundBlocked (outboundIntegrationsEnabled : Bool) (taskType : TaskType) : Bool :=
  decide (taskType ∈ outboundTaskTypes) && !outboundIntegrationsEnabled

structure Claim where
  number : ℕ
  claimedAt : Instant
  deriving DecidableEq, Repr

/-- A row of `execution_tasks` under its `client_id`, and the last claim of the task. -/
structure ExecutionTask where
  taskType : TaskType
  state : TaskState
  tryCount : ℕ
  maxTry : ℕ
  lastError : Option String
  workerId : Option String
  startedAt : Option Instant
  completedAt : Option Instant
  lockedAt : Option Instant
  nextRetryAt : Option Instant
  claim : Option Claim
  deriving DecidableEq, Repr

/-- `BACKOFF_SECONDS`. -/
def backoffSeconds : List ℤ := [30, 120, 300]

/-- A duration of seconds. -/
def seconds (n : ℤ) : ℤ := n * 1000000

/-- A duration of minutes. -/
def minutes (n : ℤ) : ℤ := seconds (60 * n)

/-- `STALE_IN_PROGRESS_MINUTES`. -/
def staleInProgress : ℤ := minutes 90

/-- `STUCK_PENDING_MINUTES`. -/
def stuckPending : ℤ := minutes 5

/-- `BATCH_SIZE`. -/
def batchSize : ℕ := 50

/-- `OUTBOUND_DISABLED_REASON`. -/
def outboundDisabledReason : String :=
  "Cancelled: outbound integrations are disabled in this environment " ++
    "(OUTBOUND_INTEGRATIONS_ENABLED=false)."

inductive Pass
  | routeOpenTasks (outboundIntegrationsEnabled : Bool)
  | requeueRetryScheduledTasks
  | cleanupStaleTasks
  | recoverStuckPendingTasks
  deriving DecidableEq, Repr

/-- The ways in which a worker leaves a task; the delay of a retry varies by some jitter. -/
inductive Exit
  | finalizeTask
  | failTask (message : String) (jitter : ℤ)
  | markNoHandler
  | markOutboundDisabled
  | rescueInFlightTask
  deriving DecidableEq, Repr

/-- A session of the router that has not committed yet: the ids that it has read, and the table as
it was then. -/
structure RouterSession where
  pass : Pass
  now : Instant
  taskIds : List ClientId
  rows : ClientId → Option ExecutionTask

/-- A session of a worker that has not committed yet, with the row as it read it. -/
structure ExitSession where
  taskId : ClientId
  exit : Exit
  now : Instant
  read : ExecutionTask
  deriving DecidableEq, Repr

/-- A handler that runs, or whose worker is about to leave its task. -/
structure Execution where
  taskId : ClientId
  claim : Claim
  exiting : Option ExitSession
  recovered : Bool
  rescued : Bool
  deriving DecidableEq, Repr

/-- The table, the executions, and the sessions under way: one of the router, and any number of
rescues by workers that did not come to claim the task. -/
structure System where
  clock : Instant
  tasks : ClientId → Option ExecutionTask
  executions : List Execution
  router : Option RouterSession
  unclaimedRescues : List ExitSession
  nextClaim : ℕ

namespace ExecutionTask

variable (task : ExecutionTask) (now : Instant)

/-- `cancel_outbound_task`. -/
def cancelOutbound : ExecutionTask :=
  { task with
    state := .cancel
    lastError := some outboundDisabledReason
    completedAt := some now
    workerId := none
    lockedAt := none }

/-- The row after `_claim_task`. -/
def claimedBy (workerId : String) (claim : Claim) : ExecutionTask :=
  { task with
    state := .inProgress
    workerId := some workerId
    lockedAt := some claim.claimedAt
    startedAt := some claim.claimedAt
    claim := some claim }

/-- The delay before the next attempt, `BACKOFF_SECONDS` being read at the attempt that failed. -/
def retryDelay (jitter : ℤ) : ℤ :=
  max (seconds (backoffSeconds.getD (min task.tryCount (backoffSeconds.length - 1)) 0) + jitter)
    (seconds 1)

/-- `_schedule_retry_or_fail`. -/
def scheduleRetryOrFail (message : String) (jitter : ℤ) : ExecutionTask :=
  if task.tryCount + 1 < task.maxTry then
    { task with
      tryCount := task.tryCount + 1
      lastError := some message
      state := .retryScheduled
      nextRetryAt := some (now + task.retryDelay jitter) }
  else
    { task with
      tryCount := task.tryCount + 1
      lastError := some message
      state := .fail }

end ExecutionTask

def Pass.selects (now : Instant) (task : ExecutionTask) : Pass → Bool
  | .routeOpenTasks _ => task.state == .open
  | .requeueRetryScheduledTasks =>
    task.state == .retryScheduled && task.nextRetryAt.any fun t => decide (t ≤ now)
  | .cleanupStaleTasks =>
    task.state == .inProgress && task.lockedAt.any fun t => decide (t < now - staleInProgress)
  | .recoverStuckPendingTasks =>
    task.state == .pending && task.lockedAt.any fun t => decide (t < now - stuckPending)

/-- What a pass makes of a row that it has read. Every task type has a queue, so that no open task
is passed over. -/
def Pass.rewrite (now : Instant) (task : ExecutionTask) : Pass → ExecutionTask
  | .routeOpenTasks outboundIntegrationsEnabled =>
    if outboundBlocked outboundIntegrationsEnabled task.taskType then task.cancelOutbound now
    else { task with state := .pending, lockedAt := some now }
  | .requeueRetryScheduledTasks => { task with state := .open, nextRetryAt := none }
  | .cleanupStaleTasks => { task with state := .open, workerId := none, lockedAt := none }
  | .recoverStuckPendingTasks => { task with state := .open }

def Exit.rewrite (now : Instant) (task : ExecutionTask) : Exit → ExecutionTask
  | .finalizeTask => { task with state := .completed, completedAt := some now }
  | .failTask message jitter => task.scheduleRetryOrFail now message jitter
  | .markNoHandler =>
    { task with state := .fail, lastError := some "No handler registered for task_type." }
  | .markOutboundDisabled => task.cancelOutbound now
  | .rescueInFlightTask =>
    if task.state = .inProgress then
      { task with state := .retryScheduled, nextRetryAt := some (now + seconds 30) }
    else task

/-- A column that a session has changed gets the new value, another one keeps what it has. -/
def writeColumn {α : Type} [DecidableEq α] (read new current : α) : α :=
  if new = read then current else new

/-- The statement of a commit: it writes the columns that differ from what the session has read. -/
def writeBack (read new current : ExecutionTask) : ExecutionTask :=
  { current with
    state := writeColumn read.state new.state current.state
    tryCount := writeColumn read.tryCount new.tryCount current.tryCount
    lastError := writeColumn read.lastError new.lastError current.lastError
    workerId := writeColumn read.workerId new.workerId current.workerId
    startedAt := writeColumn read.startedAt new.startedAt current.startedAt
    completedAt := writeColumn read.completedAt new.completedAt current.completedAt
    lockedAt := writeColumn read.lockedAt new.lockedAt current.lockedAt
    nextRetryAt := writeColumn read.nextRetryAt new.nextRetryAt current.nextRetryAt }

end BeyoManager.Workers
