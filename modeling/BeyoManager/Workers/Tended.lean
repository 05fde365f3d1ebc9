import BeyoManager.Workers.Ownership

/-! # Tended tasks

An unfinished task has an attempt left and the columns that the next pass of the router looks for.
The rewrites of a pass and of a worker keep it so, and a commit on a row that is still as it was
read leaves exactly the new row.
-/

namespace BeyoManager.Workers

/-- A task with an attempt left, unless it is finished, and with the columns that the next pass of
the router looks for. -/
structure Tended (task : ExecutionTask) : Prop where
  attempts : task.tryCount ≤ task.maxTry
  remaining : task.state.terminal = false → task.tryCount < task.maxTry
  pending : task.state = .pending → task.lockedAt ≠ none
  claimed : task.state = .inProgress →
    ∃ c, task.claim = some c ∧ task.lockedAt = some c.claimedAt
  retry : task.state = .retryScheduled → task.nextRetryAt ≠ none
  known : task.state ≠ .retrying

/-- What may have become of a row since a pass has read it. -/
def Behind (read task : ExecutionTask) : Prop :=
  task = read ∨ read.state = .pending ∧ task.state = .inProgress ∨
    (read.state = .pending ∨ read.state = .inProgress) ∧
      (task.state = .retryScheduled ∨ task.state.terminal = true)

section Rewrites

variable {read new task : ExecutionTask} {pass : Pass} {exit : Exit} {now : Instant}

@[simp] theorem writeColumn_read {α : Type} [DecidableEq α] (read new : α) :
    writeColumn read new read = new := by
  unfold writeColumn
  split
  · rename_i h
    exact h.symm
  · rfl

@[simp] theorem writeColumn_same {α : Type} [DecidableEq α] (read current : α) :
    writeColumn read read current = current := if_pos rfl

theorem writeBack_read (htype : new.taskType = read.taskType) (hmax : new.maxTry = read.maxTry)
    (hclaim : new.claim = read.claim) : writeBack read new read = new := by
  simp only [writeBack, writeColumn_read, ← htype, ← hmax, ← hclaim]

theorem writeBack_same : writeBack read read task = task := by
  simp [writeBack]

theorem Pass.rewrite_fixed (pass : Pass) (now : Instant) (task : ExecutionTask) :
    (pass.rewrite now task).taskType = task.taskType ∧
      (pass.rewrite now task).maxTry = task.maxTry ∧
        (pass.rewrite now task).claim = task.claim ∧
          (pass.rewrite now task).tryCount = task.tryCount := by
  cases pass with
  | routeOpenTasks enabled =>
    simp only [Pass.rewrite]
    split <;> exact ⟨rfl, rfl, rfl, rfl⟩
  | requeueRetryScheduledTasks => exact ⟨rfl, rfl, rfl, rfl⟩
  | cleanupStaleTasks => exact ⟨rfl, rfl, rfl, rfl⟩
  | recoverStuckPendingTasks => exact ⟨rfl, rfl, rfl, rfl⟩

theorem Exit.rewrite_fixed (exit : Exit) (now : Instant) (task : ExecutionTask) :
    (exit.rewrite now task).taskType = task.taskType ∧
      (exit.rewrite now task).maxTry = task.maxTry ∧
        (exit.rewrite now task).claim = task.claim := by
  cases exit with
  | finalizeTask => exact ⟨rfl, rfl, rfl⟩
  | failTask message jitter =>
    simp only [Exit.rewrite, ExecutionTask.scheduleRetryOrFail]
    split <;> exact ⟨rfl, rfl, rfl⟩
  | markNoHandler => exact ⟨rfl, rfl, rfl⟩
  | markOutboundDisabled => exact ⟨rfl, rfl, rfl⟩
  | rescueInFlightTask =>
    simp only [Exit.rewrite]
    split <;> exact ⟨rfl, rfl, rfl⟩

theorem Exit.rewrite_state (htask : task.state = .inProgress) :
    (exit.rewrite now task).state = .retryScheduled ∨
      (exit.rewrite now task).state.terminal = true := by
  cases exit with
  | finalizeTask => exact .inr rfl
  | failTask message jitter =>
    simp only [Exit.rewrite, ExecutionTask.scheduleRetryOrFail]
    split
    · exact .inl rfl
    · exact .inr rfl
  | markNoHandler => exact .inr rfl
  | markOutboundDisabled => exact .inr rfl
  | rescueInFlightTask =>
    left
    rw [Exit.rewrite, if_pos htask]

theorem Behind.cases_of_not_overtaken (h : Behind read task) (hnot : ¬ Overtaken read task) :
    task = read ∨ (read.state = .pending ∨ read.state = .inProgress) ∧
      task.state = .retryScheduled := by
  obtain ⟨hterminal, hclaimed⟩ := not_or.mp hnot
  rcases h with h | ⟨hread, htask⟩ | ⟨hread, htask | htask⟩
  · exact .inl h
  · exact absurd ⟨htask, by rw [hread]; decide⟩ hclaimed
  · exact .inr ⟨hread, htask⟩
  · exact absurd htask hterminal

theorem tended_newTask (taskType : TaskType) (maxTry : ℕ+) : Tended (newTask taskType maxTry) where
  attempts := Nat.zero_le _
  remaining _ := maxTry.pos
  pending h := by cases h
  claimed h := by cases h
  retry h := by cases h
  known h := by cases h

theorem Tended.claimedBy (h : Tended task) (hpending : task.state = .pending) (workerId : String)
    (claim : Claim) : Tended (task.claimedBy workerId claim) where
  attempts := h.attempts
  remaining _ := h.remaining (by rw [hpending]; rfl)
  pending h := by cases h
  claimed _ := ⟨claim, rfl, rfl⟩
  retry h := by cases h
  known h := by cases h

theorem tended_of_terminal (hattempts : task.tryCount ≤ task.maxTry)
    (hterminal : task.state.terminal = true) : Tended task where
  attempts := hattempts
  remaining h := by cases hterminal.symm.trans h
  pending h := by rw [h] at hterminal; cases hterminal
  claimed h := by rw [h] at hterminal; cases hterminal
  retry h := by rw [h] at hterminal; cases hterminal
  known h := by rw [h] at hterminal; cases hterminal

theorem tended_of_open (hattempts : task.tryCount < task.maxTry) (hstate : task.state = .open) :
    Tended task where
  attempts := hattempts.le
  remaining _ := hattempts
  pending h := by cases hstate.symm.trans h
  claimed h := by cases hstate.symm.trans h
  retry h := by cases hstate.symm.trans h
  known h := by cases hstate.symm.trans h

theorem tended_of_retryScheduled (hattempts : task.tryCount < task.maxTry)
    (hstate : task.state = .retryScheduled) (hretry : task.nextRetryAt ≠ none) : Tended task where
  attempts := hattempts.le
  remaining _ := hattempts
  pending h := by cases hstate.symm.trans h
  claimed h := by cases hstate.symm.trans h
  retry _ := hretry
  known h := by cases hstate.symm.trans h

theorem Tended.exitRewrite (h : Tended task) (hstate : task.state = .inProgress) (exit : Exit)
    (now : Instant) : Tended (exit.rewrite now task) := by
  have hremaining := h.remaining (by rw [hstate]; rfl)
  cases exit with
  | finalizeTask => exact tended_of_terminal h.attempts rfl
  | failTask message jitter =>
    simp only [Exit.rewrite, ExecutionTask.scheduleRetryOrFail]
    split
    · rename_i hless
      exact tended_of_retryScheduled hless rfl (Option.some_ne_none _)
    · exact tended_of_terminal hremaining rfl
  | markNoHandler => exact tended_of_terminal h.attempts rfl
  | markOutboundDisabled => exact tended_of_terminal h.attempts rfl
  | rescueInFlightTask =>
    rw [Exit.rewrite, if_pos hstate]
    exact tended_of_retryScheduled hremaining rfl (Option.some_ne_none _)

theorem selects_not_terminal (h : pass.selects now read = true) : read.state.terminal = false := by
  cases pass <;> simp [Pass.selects] at h <;> simp [h, TaskState.terminal]

theorem Tended.passRewrite (h : Tended read) (hselects : pass.selects now read = true) :
    Tended (pass.rewrite now read) ∧ (pass.rewrite now read).state ≠ .inProgress := by
  have hremaining := h.remaining (selects_not_terminal hselects)
  cases pass with
  | routeOpenTasks enabled =>
    simp only [Pass.rewrite]
    split
    · exact ⟨tended_of_terminal h.attempts rfl, by simp [ExecutionTask.cancelOutbound]⟩
    · refine ⟨⟨h.attempts, fun _ => hremaining, fun _ => Option.some_ne_none _, ?_, ?_, ?_⟩, ?_⟩
      all_goals simp
  | requeueRetryScheduledTasks => exact ⟨tended_of_open hremaining rfl, by simp [Pass.rewrite]⟩
  | cleanupStaleTasks => exact ⟨tended_of_open hremaining rfl, by simp [Pass.rewrite]⟩
  | recoverStuckPendingTasks => exact ⟨tended_of_open hremaining rfl, by simp [Pass.rewrite]⟩

theorem rewrite_state_of_read (h : pass.selects now read = true)
    (hread : read.state = .pending ∨ read.state = .inProgress) :
    (pass.rewrite now read).state = .open ∧ read.state ≠ .open := by
  rcases hread with hread | hread <;> cases pass <;>
    simp [Pass.selects, Pass.rewrite, hread] at h ⊢

theorem Tended.writeBack (hread : Tended read) (htask : Tended task)
    (hselects : pass.selects now read = true) (hbehind : Behind read task)
    (hnot : ¬ Overtaken read task) :
    Tended (writeBack read (pass.rewrite now read) task) ∧
      (Workers.writeBack read (pass.rewrite now read) task).state ≠ .inProgress := by
  obtain ⟨htype, hmax, hclaim, htry⟩ := pass.rewrite_fixed now read
  rcases hbehind.cases_of_not_overtaken hnot with rfl | ⟨hstate, hretry⟩
  · rw [writeBack_read htype hmax hclaim]
    exact hread.passRewrite hselects
  · obtain ⟨hopen, hne⟩ := rewrite_state_of_read hselects hstate
    have hstate' : (Workers.writeBack read (pass.rewrite now read) task).state = .open := by
      simp only [Workers.writeBack, writeColumn, hopen, if_neg hne.symm]
    refine ⟨tended_of_open ?_ hstate', by rw [hstate']; decide⟩
    have hremaining := htask.remaining (by rw [hretry]; rfl)
    simpa only [Workers.writeBack, htry, writeColumn_same] using hremaining

end Rewrites

end BeyoManager.Workers
