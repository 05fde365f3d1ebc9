import BeyoManager.Library.Relational
import BeyoManager.Library.Transition
import BeyoManager.Workers.Tables

/-! # Sessions of the router and of the workers

A pass of the router and a worker that leaves a task read rows in one event and commit in another.
A claim takes a lock and checks the state, so that it is one event. Any of these events of any
number of workers may come between two others, and a queue may deliver an id at any time.
-/

namespace BeyoManager.Workers

open Relational Transition

/-- What happens to the table, and to those who read and write it. -/
inductive Event
  | advance (elapsed : ℕ)
  | createExecutionTask (taskId : ClientId) (taskType : TaskType) (maxTry : ℕ+)
  | readPass (pass : Pass) (taskIds : List ClientId)
  | commitPass
  | abortPass
  | claimTask (taskId : ClientId) (workerId : String)
  | readExit (number : ℕ) (exit : Exit)
  | commitExit (number : ℕ)
  | abortExit (number : ℕ)
  | stopWorker (number : ℕ)
  | readUnclaimedRescue (taskId : ClientId)
  | commitUnclaimedRescue (session : ExitSession)
  deriving DecidableEq, Repr

inductive Refusal
  | taskExists | noTask | tooManyRows | notSelected | routerBusy | noSession | notPending
  | noExecution | leaving | notOutbound
  deriving DecidableEq, Repr

def RouterSession.read? (session : RouterSession) (taskId : ClientId) : Option ExecutionTask :=
  if taskId ∈ session.taskIds then session.rows taskId else none

def RouterSession.commitRow (session : RouterSession) (taskId : ClientId) (task : ExecutionTask) :
    ExecutionTask :=
  match session.read? taskId with
  | some read => writeBack read (session.pass.rewrite session.now read) task
  | none => task

def ExitSession.commitRow (session : ExitSession) (task : ExecutionTask) : ExecutionTask :=
  writeBack session.read (session.exit.rewrite session.now session.read) task

namespace System

variable (s : System)

/-- An execution holds its task: the task is in progress under the claim of the execution. -/
def Holds (e : Execution) : Prop :=
  ∃ task ∈ s.tasks e.taskId, task.state = .inProgress ∧ task.claim = some e.claim

instance (e : Execution) : Decidable (s.Holds e) :=
  inferInstanceAs (Decidable (∃ task ∈ s.tasks e.taskId, _))

/-- A pass recovers the task of an execution that still holds it. -/
def Recovers (session : RouterSession) (e : Execution) : Prop :=
  session.pass = .cleanupStaleTasks ∧ (session.read? e.taskId).isSome ∧ s.Holds e

instance (session : RouterSession) (e : Execution) : Decidable (s.Recovers session e) :=
  inferInstanceAs (Decidable (_ ∧ _))

def execution? (number : ℕ) : Option Execution :=
  s.executions.find? fun e => e.claim.number == number

def updateExecution (number : ℕ) (f : Execution → Execution) : List Execution :=
  updateWhere (fun e => e.claim.number == number) f s.executions

def removeExecution (number : ℕ) : List Execution :=
  deleteWhere (fun e => e.claim.number == number) s.executions

/-- The executions after a worker has left its task: a rescued one is marked, another is over. -/
def executionsAfter (number : ℕ) : Exit → List Execution
  | .rescueInFlightTask =>
    s.updateExecution number fun e => { e with exiting := none, rescued := true }
  | _ => s.removeExecution number

def writeTask (taskId : ClientId) (f : ExecutionTask → ExecutionTask) :
    ClientId → Option ExecutionTask :=
  Function.update s.tasks taskId ((s.tasks taskId).map f)

/-- No tasks and no executions. -/
def start (clock : Instant) : System := ⟨clock, fun _ => none, [], none, [], 0⟩

end System

/-- The row of `create_execution_task`. -/
def newTask (taskType : TaskType) (maxTry : ℕ+) : ExecutionTask where
  taskType := taskType
  state := .open
  tryCount := 0
  maxTry := maxTry
  lastError := none
  workerId := none
  startedAt := none
  completedAt := none
  lockedAt := none
  nextRetryAt := none
  claim := none

/-- One event. A pass reads at most fifty of the rows that meet its condition, whichever. -/
def step (s : System) : Event → Except Refusal System
  | .advance elapsed => pure { s with clock := s.clock + elapsed }
  | .createExecutionTask taskId taskType maxTry => do
    throwIf (s.tasks taskId).isSome .taskExists
    pure { s with tasks := Function.update s.tasks taskId (some (newTask taskType maxTry)) }
  | .readPass pass taskIds => do
    throwIf s.router.isSome .routerBusy
    throwIf (batchSize < taskIds.length) .tooManyRows
    throwIf (¬ ∀ id ∈ taskIds, (s.tasks id).any fun task => pass.selects s.clock task) .notSelected
    pure { s with
      router := some ⟨pass, s.clock, taskIds, s.tasks⟩ }
  | .commitPass => do
    let session ← getOr .noSession s.router
    pure { s with
      tasks := fun id => (s.tasks id).map (session.commitRow id)
      executions :=
        updateWhere (fun e => s.Recovers session e) (fun e => { e with recovered := true })
          s.executions
      router := none }
  | .abortPass => pure { s with router := none }
  | .claimTask taskId workerId => do
    let task ← getOr .noTask (s.tasks taskId)
    throwIf (task.state ≠ .pending) .notPending
    pure { s with
      tasks := s.writeTask taskId (·.claimedBy workerId ⟨s.nextClaim, s.clock⟩)
      executions := s.executions ++ [⟨taskId, ⟨s.nextClaim, s.clock⟩, none, false, false⟩]
      nextClaim := s.nextClaim + 1 }
  | .readExit number exit => do
    let e ← getOr .noExecution (s.execution? number)
    throwIf (e.exiting.isSome ∨ e.rescued = true) .leaving
    let task ← getOr .noTask (s.tasks e.taskId)
    throwIf (exit = .markOutboundDisabled ∧ task.taskType ∉ outboundTaskTypes) .notOutbound
    pure { s with
      executions := s.updateExecution number fun e =>
        { e with exiting := some ⟨e.taskId, exit, s.clock, task⟩ } }
  | .commitExit number => do
    let e ← getOr .noExecution (s.execution? number)
    let session ← getOr .noSession e.exiting
    pure { s with
      tasks := s.writeTask e.taskId session.commitRow
      executions := s.executionsAfter number session.exit }
  | .abortExit number =>
    pure { s with executions := s.updateExecution number fun e => { e with exiting := none } }
  | .stopWorker number => pure { s with executions := s.removeExecution number }
  | .readUnclaimedRescue taskId => do
    let task ← getOr .noTask (s.tasks taskId)
    pure { s with
      unclaimedRescues := s.unclaimedRescues ++ [⟨taskId, .rescueInFlightTask, s.clock, task⟩] }
  | .commitUnclaimedRescue session => do
    throwIf (session ∉ s.unclaimedRescues) .noSession
    pure { s with
      tasks := s.writeTask session.taskId session.commitRow
      unclaimedRescues := s.unclaimedRescues.erase session }

section Steps

variable {s s' : System}

theorem step_createExecutionTask {taskId : ClientId} {taskType : TaskType} {maxTry : ℕ+}
    (h : step s (.createExecutionTask taskId taskType maxTry) = .ok s') :
    s.tasks taskId = none ∧
      s' = { s with tasks := Function.update s.tasks taskId (some (newTask taskType maxTry)) } := by
  obtain ⟨hnone, h⟩ := throwIf_bind_eq_ok.mp h
  cases h
  exact ⟨by simpa using hnone, rfl⟩

theorem step_readPass {pass : Pass} {taskIds : List ClientId}
    (h : step s (.readPass pass taskIds) = .ok s') :
    s.router = none ∧
      (∀ id ∈ taskIds, (s.tasks id).any fun task => pass.selects s.clock task) ∧
        s' = { s with router := some ⟨pass, s.clock, taskIds, s.tasks⟩ } := by
  obtain ⟨hbusy, h⟩ := throwIf_bind_eq_ok.mp h
  obtain ⟨-, h⟩ := throwIf_bind_eq_ok.mp h
  obtain ⟨hselected, h⟩ := throwIf_bind_eq_ok.mp h
  cases h
  exact ⟨by simpa using hbusy, not_not.mp hselected, rfl⟩

theorem step_commitPass (h : step s .commitPass = .ok s') :
    ∃ session, s.router = some session ∧
      s' = { s with
        tasks := fun id => (s.tasks id).map (session.commitRow id)
        executions :=
          updateWhere (fun e => s.Recovers session e) (fun e => { e with recovered := true })
            s.executions
        router := none } := by
  obtain ⟨session, hsession, h⟩ := bind_eq_ok.mp h
  cases h
  exact ⟨session, getOr_eq_ok.mp hsession, rfl⟩

theorem step_claimTask {taskId : ClientId} {workerId : String}
    (h : step s (.claimTask taskId workerId) = .ok s') :
    ∃ task, s.tasks taskId = some task ∧ task.state = .pending ∧
      s' = { s with
        tasks := s.writeTask taskId (·.claimedBy workerId ⟨s.nextClaim, s.clock⟩)
        executions := s.executions ++ [⟨taskId, ⟨s.nextClaim, s.clock⟩, none, false, false⟩]
        nextClaim := s.nextClaim + 1 } := by
  obtain ⟨task, htask, h⟩ := bind_eq_ok.mp h
  obtain ⟨hpending, h⟩ := throwIf_bind_eq_ok.mp h
  cases h
  exact ⟨task, getOr_eq_ok.mp htask, not_not.mp hpending, rfl⟩

theorem step_readExit {number : ℕ} {exit : Exit} (h : step s (.readExit number exit) = .ok s') :
    ∃ e ∈ s.executions, e.claim.number = number ∧ e.exiting = none ∧ e.rescued = false ∧
      ∃ task, s.tasks e.taskId = some task ∧
        s' = { s with
          executions := s.updateExecution number fun e =>
            { e with exiting := some ⟨e.taskId, exit, s.clock, task⟩ } } := by
  obtain ⟨e, he, h⟩ := bind_eq_ok.mp h
  obtain ⟨hfree, h⟩ := throwIf_bind_eq_ok.mp h
  obtain ⟨task, htask, h⟩ := bind_eq_ok.mp h
  obtain ⟨-, h⟩ := throwIf_bind_eq_ok.mp h
  cases h
  obtain ⟨hmem, hnumber⟩ := mem_of_find?_key
    (getOr_eq_ok.mp he)
  obtain ⟨hexiting, hrescued⟩ := not_or.mp hfree
  exact ⟨e, hmem, hnumber, by simpa using hexiting, by simpa using hrescued, task,
    getOr_eq_ok.mp htask, rfl⟩

theorem step_commitExit {number : ℕ} (h : step s (.commitExit number) = .ok s') :
    ∃ e ∈ s.executions, e.claim.number = number ∧ ∃ session, e.exiting = some session ∧
      s' = { s with
        tasks := s.writeTask e.taskId session.commitRow
        executions := s.executionsAfter number session.exit } := by
  obtain ⟨e, he, h⟩ := bind_eq_ok.mp h
  obtain ⟨session, hsession, h⟩ := bind_eq_ok.mp h
  cases h
  obtain ⟨hmem, hnumber⟩ := mem_of_find?_key
    (getOr_eq_ok.mp he)
  exact ⟨e, hmem, hnumber, session, getOr_eq_ok.mp hsession, rfl⟩

theorem step_readUnclaimedRescue {taskId : ClientId}
    (h : step s (.readUnclaimedRescue taskId) = .ok s') :
    ∃ task, s.tasks taskId = some task ∧
      s' = { s with
        unclaimedRescues :=
          s.unclaimedRescues ++ [⟨taskId, .rescueInFlightTask, s.clock, task⟩] } := by
  obtain ⟨task, htask, h⟩ := bind_eq_ok.mp h
  cases h
  exact ⟨task, getOr_eq_ok.mp htask, rfl⟩

theorem step_commitUnclaimedRescue {session : ExitSession}
    (h : step s (.commitUnclaimedRescue session) = .ok s') :
    session ∈ s.unclaimedRescues ∧
      s' = { s with
        tasks := s.writeTask session.taskId session.commitRow
        unclaimedRescues := s.unclaimedRescues.erase session } := by
  obtain ⟨hmem, h⟩ := throwIf_bind_eq_ok.mp h
  cases h
  exact ⟨not_not.mp hmem, rfl⟩

end Steps

end BeyoManager.Workers
