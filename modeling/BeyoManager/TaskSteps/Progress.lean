import BeyoManager.TaskSteps.StepRuns
import BeyoManager.TaskSteps.TaskCommands

/-! # The progress of a task

What the state of a task is derived from: the states of its steps and whether each has been
started. A consistent task agrees with its progress, and each way in which progress is made
keeps it consistent.
-/

namespace BeyoManager.TaskSteps

open Relational
open StockReport (TaskState)

/-- A step of a task: its state, and whether it was ever worked on. -/
structure StepProgress where
  stepId : ClientId
  state : TaskStepState
  started : Bool
  deriving DecidableEq, Repr

def StepProgress.move (newState : TaskStepState) (e : StepProgress) : StepProgress :=
  { e with state := newState, started := e.started || newState == .working }

def isBeforeWork : TaskState → Bool
  | .pending | .assigned => true
  | .working | .stalled | .ready | .resolved | .failed | .cancelled => false

/-- The state of a task agrees with the progress of its steps, but new steps may have come to a
task that was ready. -/
structure Loose (t : Task) (progress : List StepProgress) : Prop where
  done : isTerminalTaskState t.state = false → progress ≠ [] →
    (∀ e ∈ progress, e.state.isTerminal = true) → t.state = .ready
  completed : isTerminalTaskState t.state = false → (t.completedAt.isSome ↔ t.state = .ready)
  started : ∀ e ∈ progress, e.started = true → isBeforeWork t.state = false

/-- The state of a task agrees with the progress of its steps. -/
structure Consistent (t : Task) (progress : List StepProgress) : Prop
    extends Loose t progress where
  ready : t.state = .ready → ∀ e ∈ progress, e.state.isTerminal = true

/-- `maybe_advance_task_to_working` on a row. -/
def Task.advance (t : Task) : Task :=
  if t.state = .assigned then { t with state := .working } else t

/-- `maybe_evaluate_task_ready` on a row. -/
def Task.evaluate (progress : List StepProgress) (now : Instant) (t : Task) : Task :=
  if isTerminalTaskState t.state ∨ t.state = .ready then t
  else if progress = [] ∨ ¬ progress.all (·.state.isTerminal) then t
  else { t with state := .ready, completedAt := some now }

def Task.afterMove (newState : TaskStepState) (progress : List StepProgress) (now : Instant)
    (t : Task) : Task :=
  if newState = .working then t.advance
  else if newState.isTerminal then t.evaluate progress now
  else t

section Rows

variable {t : Task} {progress : List StepProgress} {newState : TaskStepState} {now : Instant}

theorem Task.advance_of_isTerminal (h : isTerminalTaskState t.state = true) : t.advance = t := by
  rw [advance, if_neg]
  rintro ha
  rw [ha] at h
  cases h

theorem Task.evaluate_of_isTerminal (h : isTerminalTaskState t.state = true) :
    t.evaluate progress now = t := by
  rw [evaluate, if_pos (.inl h)]

theorem Task.afterMove_of_isTerminal (h : isTerminalTaskState t.state = true) :
    t.afterMove newState progress now = t := by
  rw [afterMove, advance_of_isTerminal h, evaluate_of_isTerminal h]
  simp

@[simp] theorem Task.advance_clientId : t.advance.clientId = t.clientId := by
  rw [advance]
  split <;> rfl

@[simp] theorem Task.evaluate_clientId : (t.evaluate progress now).clientId = t.clientId := by
  rw [evaluate]
  split
  · rfl
  · split <;> rfl

@[simp] theorem Task.afterMove_clientId :
    (t.afterMove newState progress now).clientId = t.clientId := by
  rw [afterMove]
  split
  · exact advance_clientId
  · split
    · exact evaluate_clientId
    · rfl

theorem Task.isBeforeWork_advance (h : t.state ≠ .pending) :
    isBeforeWork t.advance.state = false := by
  rw [advance]
  split
  · rfl
  · cases hs : t.state <;> simp_all [isBeforeWork]

theorem Loose.evaluate (h : Loose t progress) {rest : List StepProgress}
    (hready : t.state = .ready → ∀ e ∈ rest, e.state.isTerminal = true)
    (hstarted : ∀ e ∈ rest, e.started = true → isBeforeWork t.state = false) :
    Consistent (t.evaluate rest now) rest := by
  rw [Task.evaluate]
  split
  · rename_i hend
    refine ⟨⟨fun hterm hne hall => ?_, h.completed, hstarted⟩, hready⟩
    exact hend.resolve_left (by simp [hterm])
  · split
    · rename_i hopen
      refine ⟨⟨fun _ hne hall => ?_, h.completed, hstarted⟩, hready⟩
      exact absurd (List.all_eq_true.mpr hall) (hopen.resolve_left hne)
    · rename_i hall
      rw [not_or, not_not] at hall
      exact ⟨⟨fun _ _ _ => rfl, fun _ => by simp, fun _ _ _ => rfl⟩,
        fun _ => List.all_eq_true.mp hall.2⟩

theorem Consistent.evaluate_filter (h : Consistent t progress) (p : StepProgress → Bool) :
    Consistent (t.evaluate (progress.filter p) now) (progress.filter p) :=
  h.toLoose.evaluate (fun hr e he => h.ready hr e (List.mem_of_mem_filter he))
    fun e he => h.started e (List.mem_of_mem_filter he)

theorem Consistent.stepless (hnone : t.completedAt = none) (hready : t.state ≠ .ready) :
    Consistent t [] := by
  refine ⟨⟨fun _ hne => absurd rfl hne, fun _ => ?_, by simp⟩, by simp⟩
  rw [hnone]
  constructor
  · rintro ⟨⟩
  · exact fun hr => absurd hr hready

theorem Consistent.emptied (h : Consistent t progress) (hterm : isTerminalTaskState t.state = false)
    (hready : t.state ≠ .ready) : Consistent { t with state := .pending } [] := by
  have hnone : ¬ t.completedAt.isSome := fun hc => hready ((h.completed hterm).mp hc)
  refine .stepless (Option.not_isSome_iff_eq_none.mp hnone) ?_
  rintro ⟨⟩

/-- A step that was open has moved; a pending task has none that starts. -/
theorem Consistent.move (h : Consistent t progress) {stepId : ClientId}
    (hopen : ∃ e ∈ progress, e.stepId = stepId ∧ e.state.isTerminal = false)
    (hstart : newState = .working → t.state ≠ .pending) :
    Consistent
      (t.afterMove newState
        (updateWhere (fun e => e.stepId == stepId) (·.move newState) progress) now)
      (updateWhere (fun e => e.stepId == stepId) (·.move newState) progress) := by
  obtain ⟨e₀, he₀, hid₀, hopen₀⟩ := hopen
  have hready : t.state ≠ .ready := by
    rintro hr
    rw [h.ready hr e₀ he₀] at hopen₀
    cases hopen₀
  have hmoved : (e₀.move newState) ∈
      updateWhere (fun e => e.stepId == stepId) (·.move newState) progress := by
    have := mem_updateWhere_of_mem (p := fun e => e.stepId == stepId)
      (f := (·.move newState)) he₀
    rwa [if_pos (by simpa using hid₀)] at this
  have hstarted : newState ≠ .working →
      ∀ e ∈ updateWhere (fun e => e.stepId == stepId) (·.move newState) progress,
        e.started = true → isBeforeWork t.state = false := by
    intro hw e he hs
    obtain ⟨e₁, he₁, rfl⟩ := mem_updateWhere.mp he
    refine h.started e₁ he₁ ?_
    revert hs
    split
    · simp [StepProgress.move, hw]
    · exact id
  -- a step that has moved to an open state is still open
  have hdone : newState.isTerminal = false →
      (∀ e ∈ updateWhere (fun e => e.stepId == stepId) (·.move newState) progress,
        e.state.isTerminal = true) → False := by
    intro hn hall
    have := hall _ hmoved
    rw [StepProgress.move, hn] at this
    cases this
  rw [Task.afterMove]
  split
  · rename_i hw
    subst hw
    have hbefore := Task.isBeforeWork_advance (hstart rfl)
    have hnot : t.advance.state ≠ .ready := by
      rw [Task.advance]
      split
      · simp
      · exact hready
    refine ⟨⟨fun _ _ hall => (hdone rfl hall).elim, fun hterm => ?_, fun _ _ _ => hbefore⟩,
      fun hr => absurd hr hnot⟩
    have hcompleted : t.advance.completedAt = t.completedAt := by
      rw [Task.advance]
      split <;> rfl
    have hterm₀ : isTerminalTaskState t.state = false := by
      by_contra hc
      rw [Task.advance_of_isTerminal (by simpa using hc)] at hterm
      exact hc (by simpa using hterm)
    rw [hcompleted, h.completed hterm₀]
    exact ⟨fun hr => absurd hr hready, fun hr => absurd hr hnot⟩
  · rename_i hw
    split
    · exact h.toLoose.evaluate (fun hr => absurd hr hready) (hstarted hw)
    · rename_i hn
      exact ⟨⟨fun _ _ hall => (hdone (by simpa using hn) hall).elim, h.completed, hstarted hw⟩,
        fun hr => absurd hr hready⟩

/-- A new step makes a pending task assigned. -/
theorem Loose.assign (h : Loose t progress) (stepId : ClientId) :
    Loose (if t.state = .pending then { t with state := .assigned } else t)
      (progress ++ [⟨stepId, .pending, false⟩]) := by
  have hopen : (∀ e ∈ progress ++ [⟨stepId, .pending, false⟩], e.state.isTerminal = true) →
      False := by
    intro hall
    have := hall ⟨stepId, .pending, false⟩ (by simp)
    cases this
  have hstarted : ∀ e ∈ progress ++ [⟨stepId, .pending, false⟩], e.started = true →
      isBeforeWork t.state = false := by
    intro e he hs
    rcases List.mem_append.mp he with he | he
    · exact h.started e he hs
    · obtain rfl := List.mem_singleton.mp he
      cases hs
  split
  · rename_i hp
    refine ⟨fun _ _ hall => (hopen hall).elim, fun _ => ?_, fun e he hs => ?_⟩
    · have hc := h.completed (by rw [hp]; rfl)
      rw [hp] at hc
      simpa using hc
    · have := hstarted e he hs
      rw [hp] at this
      cases this
  · exact ⟨fun _ _ hall => (hopen hall).elim, h.completed, hstarted⟩

theorem Consistent.append_pending (h : Consistent t progress) (stepId : ClientId)
    (hready : t.state ≠ .ready) : Consistent t (progress ++ [⟨stepId, .pending, false⟩]) := by
  refine ⟨⟨fun _ _ hall => ?_, h.completed, fun e he hs => ?_⟩, fun hr => absurd hr hready⟩
  · have := hall ⟨stepId, .pending, false⟩ (by simp)
    cases this
  · rcases List.mem_append.mp he with he | he
    · exact h.started e he hs
    · obtain rfl := List.mem_singleton.mp he
      cases hs

theorem Loose.reopen (h : Loose t progress) (hopen : ∃ e ∈ progress, e.state.isTerminal = false) :
    Consistent (if t.state = .ready then { t with state := .working, completedAt := none } else t)
      progress := by
  obtain ⟨e₀, he₀, hopen⟩ := hopen
  have hdone : ¬ ∀ e ∈ progress, e.state.isTerminal = true := by
    intro hall
    rw [hall e₀ he₀] at hopen
    cases hopen
  split
  · exact ⟨⟨fun _ _ hall => absurd hall hdone, fun _ => by simp, fun _ _ _ => rfl⟩, by simp⟩
  · rename_i hr
    exact ⟨h, fun hr' => absurd hr' hr⟩

end Rows

end BeyoManager.TaskSteps
