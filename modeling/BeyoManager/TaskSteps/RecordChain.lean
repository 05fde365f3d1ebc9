import BeyoManager.Library.OpenChain
import BeyoManager.TaskSteps.RecordWrites

/-! # The chain of a step's records

The records of a step that is not deleted form a chain with one open record at its end,
and this record has the state of the step. Replacing the open record keeps the chain.
-/

namespace BeyoManager.TaskSteps

open OpenChain Relational Transition

/-- The records of a step, in the order of their insertion. -/
def Db.recordsOf (db : Db) (stepId : ClientId) : List StepStateRecord :=
  db.stepStateRecords.filter fun r => r.stepId == stepId

/-- The records of a step are closed ones and then the open one that the step points to. -/
structure StepLog (db : Db) (s : TaskStep) (closed : List StepStateRecord)
    (last : StepStateRecord) : Prop where
  records : db.recordsOf s.clientId = closed ++ [last]
  chain : IsOpenChain StepStateRecord.enteredAt StepStateRecord.exitedAt closed last
  latest : s.latestStateRecordId = some last.clientId
  state : last.state = s.state

/-- The records are keyed, belong to steps, and every step that is not deleted has its log. -/
structure ChainInv (db : Db) : Prop where
  keyedSteps : Keyed TaskStep.clientId db.taskSteps
  keyedRecords : Keyed StepStateRecord.clientId db.stepStateRecords
  owned : ∀ r ∈ db.stepStateRecords, ∃ s ∈ db.taskSteps, s.clientId = r.stepId
  log : ∀ s ∈ db.taskSteps, s.isDeleted = false → ∃ closed last, StepLog db s closed last

variable {db db' : Db} {now : Instant} {s : TaskStep} {r : StepStateRecord}

theorem mem_recordsOf {stepId : ClientId} :
    r ∈ db.recordsOf stepId ↔ r ∈ db.stepStateRecords ∧ r.stepId = stepId := by
  simp [Db.recordsOf]

theorem filter_stepId_update {p : StepStateRecord → Bool} {f : StepStateRecord → StepStateRecord}
    (hf : ∀ r, (f r).stepId = r.stepId) (t : List StepStateRecord) (stepId : ClientId) :
    (updateWhere p f t).filter (fun r => r.stepId == stepId) =
      updateWhere p f (t.filter fun r => r.stepId == stepId) :=
  filter_updateWhere fun r _ _ => by rw [hf]

section StepLog

variable {closed : List StepStateRecord} {last : StepStateRecord}

theorem StepLog.eq_last (h : StepLog db s closed last) (hr : r ∈ db.stepStateRecords)
    (hs : r.stepId = s.clientId) (ho : r.exitedAt = none) : r = last := by
  have hmem := mem_recordsOf.mpr ⟨hr, hs⟩
  rw [h.records, List.mem_append, List.mem_singleton] at hmem
  rcases hmem with hc | hl
  · have := h.chain.isClosed r hc
    rw [ho] at this
    cases this
  · exact hl

end StepLog

namespace ChainInv

theorem log_of_open (inv : ChainInv db) (hs : s ∈ db.taskSteps) (hd : s.isDeleted = false)
    (hr : r ∈ db.stepStateRecords) (hrs : r.stepId = s.clientId) (ho : r.exitedAt = none) :
    ∃ closed, StepLog db s closed r := by
  obtain ⟨closed, last, h⟩ := inv.log s hs hd
  obtain rfl := h.eq_last hr hrs ho
  exact ⟨closed, h⟩

/-- Writes that keep the records and what a transition reads of the steps keep the chains. -/
theorem congr (inv : ChainInv db) (hrec : db'.stepStateRecords = db.stepStateRecords)
    (hsteps : db'.taskSteps.map TaskStep.core = db.taskSteps.map TaskStep.core) : ChainInv db' := by
  have hback : ∀ s ∈ db'.taskSteps, ∃ s₀ ∈ db.taskSteps, s₀.core = s.core := by
    intro s hs
    have hmem : s.core ∈ db'.taskSteps.map TaskStep.core := List.mem_map_of_mem hs
    rw [hsteps] at hmem
    exact List.mem_map.mp hmem
  have hforth : ∀ s ∈ db.taskSteps, ∃ s₁ ∈ db'.taskSteps, s₁.core = s.core := by
    intro s hs
    have hmem : s.core ∈ db.taskSteps.map TaskStep.core := List.mem_map_of_mem hs
    rw [← hsteps] at hmem
    exact List.mem_map.mp hmem
  have hids := congrArg (List.map TaskStep.clientId) hsteps
  rw [List.map_map, List.map_map] at hids
  refine ⟨inv.keyedSteps.of_map_eq hids, by rw [hrec]; exact inv.keyedRecords, ?_, ?_⟩
  · intro r hr
    rw [hrec] at hr
    obtain ⟨s, hs, hid⟩ := inv.owned r hr
    obtain ⟨s₁, hs₁, hcore⟩ := hforth s hs
    exact ⟨s₁, hs₁, (TaskStep.core_eq hcore).1.trans hid⟩
  · intro s hs hd
    obtain ⟨s₀, hs₀, hcore⟩ := hback s hs
    obtain ⟨hid, -, hstate, -, -, -, hlatest, hdeleted⟩ := TaskStep.core_eq hcore
    obtain ⟨closed, last, h⟩ := inv.log s₀ hs₀ (hdeleted.trans hd)
    refine ⟨closed, last, ?_, h.chain, hlatest.symm.trans h.latest, h.state.trans hstate⟩
    rw [Db.recordsOf, hrec, ← hid]
    exact h.records

theorem frame (inv : ChainInv db) (h : StepFrame TaskStep.core db db') : ChainInv db' :=
  inv.congr h.stepStateRecords h.steps

/-- Replacing the open record of a step extends its chain and leaves the others. -/
theorem replaced (inv : ChainInv db) {closing : StepStateRecord} (record : StepStateRecord)
    (fc fn : Bool) (hs : s ∈ db.taskSteps) (hd : s.isDeleted = false)
    (hc : closing ∈ db.stepStateRecords)
    (hcs : closing.stepId = s.clientId) (ho : closing.exitedAt = none)
    (hle : closing.enteredAt ≤ now)
    (hfresh : ∀ r ∈ db.stepStateRecords, r.clientId ≠ record.clientId)
    (hrs : record.stepId = s.clientId) (hentered : record.enteredAt = now)
    (hopen : record.exitedAt = none) :
    ChainInv (db.replaced closing.clientId record now fc fn) := by
  have hsid : ∀ s' ∈ (db.replaced closing.clientId record now fc fn).taskSteps,
      ∃ s₀ ∈ db.taskSteps, s₀.clientId = s'.clientId ∧ s₀.isDeleted = s'.isDeleted ∧
        if s₀.clientId = record.stepId then
          s'.state = record.state ∧ s'.latestStateRecordId = some record.clientId
        else s' = s₀ := by
    intro s' hs'
    obtain ⟨s₀, hs₀, rfl⟩ := mem_updateWhere.mp hs'
    refine ⟨s₀, hs₀, ?_⟩
    by_cases h : s₀.clientId = record.stepId
    · simp [h, TaskStep.flagged]
    · simp [h]
  have hrecordsOf : ∀ id, (db.replaced closing.clientId record now fc fn).recordsOf id =
      updateWhere (fun r => r.clientId == closing.clientId)
        (fun r => { r with exitedAt := some now }.flagged fc) (db.recordsOf id) ++
          if record.stepId = id then [record.flagged fn] else [] := by
    intro id
    rw [Db.recordsOf, Db.replaced, List.filter_append, filter_stepId_update]
    · congr 1
      by_cases h : record.stepId = id <;> simp [StepStateRecord.flagged, h]
    · exact fun r => rfl
  refine ⟨keyed_update inv.keyedSteps fun _ _ _ => rfl, ?_, ?_, ?_⟩
  · refine keyed_append.mpr ⟨keyed_update inv.keyedRecords fun _ _ _ => rfl,
      List.nodup_singleton _, ?_⟩
    intro r hr r' hr'
    obtain rfl := List.mem_singleton.mp hr'
    obtain ⟨r₀, hr₀, rfl⟩ := mem_updateWhere.mp hr
    split
    · exact hfresh r₀ hr₀
    · exact hfresh r₀ hr₀
  · intro r hr
    have howner : ∃ s₀ ∈ db.taskSteps, s₀.clientId = r.stepId := by
      rcases List.mem_append.mp hr with hr | hr
      · obtain ⟨r₀, hr₀, rfl⟩ := mem_updateWhere.mp hr
        split
        · exact inv.owned r₀ hr₀
        · exact inv.owned r₀ hr₀
      · obtain rfl := List.mem_singleton.mp hr
        exact ⟨s, hs, hrs.symm⟩
    obtain ⟨s₀, hs₀, hid⟩ := howner
    refine ⟨_, mem_updateWhere_of_mem hs₀, ?_⟩
    split
    · exact hid
    · exact hid
  · intro s' hs' hd'
    obtain ⟨s₀, hs₀, hid, hdel, hrest⟩ := hsid s' hs'
    by_cases h : s₀.clientId = record.stepId
    · -- the step itself: its last record is closed and the new one follows
      rw [if_pos h] at hrest
      obtain rfl := inv.keyedSteps.inj hs hs₀ (hrs.symm.trans h.symm)
      obtain ⟨closed, hlog⟩ := inv.log_of_open hs hd hc hcs ho
      have hkeyed : Keyed StepStateRecord.clientId (closed ++ [closing]) := by
        rw [← hlog.records]
        exact keyed_filter inv.keyedRecords _
      have hclosed : updateWhere (fun r => r.clientId == closing.clientId)
          (fun r => { r with exitedAt := some now }.flagged fc) closed = closed := by
        refine updateWhere_of_forall_not fun r hr => ?_
        simpa using (keyed_append.mp hkeyed).2.2 r hr closing (List.mem_singleton_self _)
      refine ⟨closed ++ [{ closing with exitedAt := some now }.flagged fc], record.flagged fn,
        ?_, ?_, hrest.2, hrest.1.symm⟩
      · rw [hrecordsOf, ← hid, if_pos h.symm, hlog.records, updateWhere, List.map_append,
          ← updateWhere, hclosed]
        simp
      · exact hlog.chain.advance rfl (congrArg some hentered.symm) (hentered ▸ hle) hopen
    · rw [if_neg h] at hrest
      subst hrest
      obtain ⟨closed, last, hlog⟩ := inv.log s' hs₀ hd'
      have hother : updateWhere (fun r => r.clientId == closing.clientId)
          (fun r => { r with exitedAt := some now }.flagged fc) (db.recordsOf s'.clientId) =
            db.recordsOf s'.clientId := by
        refine updateWhere_of_forall_not fun r hr => ?_
        obtain ⟨hr, hrs'⟩ := mem_recordsOf.mp hr
        have hne : r.clientId ≠ closing.clientId := by
          intro he
          obtain rfl := inv.keyedRecords.inj hr hc he
          exact h (hrs'.symm.trans (hcs.trans hrs.symm))
        simpa using hne
      refine ⟨closed, last, ?_, hlog.chain, hlog.latest, hlog.state⟩
      rw [hrecordsOf, hother, if_neg (Ne.symm h), List.append_nil, hlog.records]

/-- Flags on the time of a record do not touch the chain. -/
theorem flag (inv : ChainInv db) (recordId stepId : ClientId) :
    ChainInv (applyInaccurateTimeFlag db recordId stepId) := by
  rw [applyInaccurateTimeFlag_eq]
  have hstep : ∀ s : TaskStep, (if s.clientId == stepId then s.flagged true else s).clientId =
      s.clientId := by
    intro s
    split <;> rfl
  refine ⟨keyed_update inv.keyedSteps fun _ _ _ => rfl,
    keyed_update inv.keyedRecords fun _ _ _ => rfl, ?_, ?_⟩
  · intro r hr
    obtain ⟨r₀, hr₀, rfl⟩ := mem_updateWhere.mp hr
    have hsid : (if r₀.clientId == recordId then r₀.flagged true else r₀).stepId = r₀.stepId := by
      split <;> rfl
    obtain ⟨s, hs, hid⟩ := inv.owned r₀ hr₀
    exact ⟨_, mem_updateWhere_of_mem hs, (hstep s).trans (hid.trans hsid.symm)⟩
  · intro s hs hd
    obtain ⟨s₀, hs₀, rfl⟩ := mem_updateWhere.mp hs
    have hlog : ∃ closed last, StepLog db s₀ closed last := by
      refine inv.log s₀ hs₀ ?_
      revert hd
      split <;> exact id
    obtain ⟨closed, last, hlog⟩ := hlog
    refine ⟨updateWhere (fun r => r.clientId == recordId) (·.flagged true) closed,
      if last.clientId == recordId then last.flagged true else last, ?_, ?_, ?_, ?_⟩
    · rw [hstep, Db.recordsOf, filter_stepId_update, ← Db.recordsOf, hlog.records]
      · simp [updateWhere]
      · exact fun r => rfl
    · refine hlog.chain.map (f := fun r => if r.clientId == recordId then r.flagged true else r)
        (fun r => ?_) (fun r => ?_)
      · split <;> rfl
      · split <;> rfl
    · have h₁ : (if s₀.clientId == stepId then s₀.flagged true else s₀).latestStateRecordId =
          s₀.latestStateRecordId := by split <;> rfl
      have h₂ : (if last.clientId == recordId then last.flagged true else last).clientId =
          last.clientId := by split <;> rfl
      rw [h₁, h₂, hlog.latest]
    · have h₁ : (if s₀.clientId == stepId then s₀.flagged true else s₀).state = s₀.state := by
        split <;> rfl
      have h₂ : (if last.clientId == recordId then last.flagged true else last).state =
          last.state := by split <;> rfl
      rw [h₁, h₂, hlog.state]

end ChainInv

end BeyoManager.TaskSteps
