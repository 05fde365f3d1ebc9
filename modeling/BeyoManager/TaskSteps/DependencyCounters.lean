import BeyoManager.TaskSteps.CommandWrites

/-! # The dependency counters of a step

The counters of a step that is not deleted should count its active edges and those whose
prerequisite is completed. Each kind of write keeps this: edges that appear are counted, a
completion is passed on along the edges, edges that disappear are taken off.
-/

namespace BeyoManager.TaskSteps

open Relational Transition

variable {db db' : Db} {now : Instant} {s : TaskStep} {stepId : ClientId}

def Db.edgesInto (db : Db) (stepId : ClientId) : List TaskStepDependency :=
  db.taskStepDependencies.filter fun e => e.isActive && e.dependentStepId == stepId

def Db.isCompleted (db : Db) (stepId : ClientId) : Bool :=
  db.taskSteps.any fun s => s.clientId == stepId && s.state == .completed

def Db.comesFromCompleted (db : Db) (e : TaskStepDependency) : Bool :=
  db.isCompleted e.prerequisiteStepId

/-- The counters of the steps that are not deleted are right, and ready means that they are
equal. -/
def Db.CountersRight (db : Db) : Prop :=
  ∀ s ∈ db.taskSteps, s.isDeleted = false →
    s.totalDependencies = (db.edgesInto s.clientId).length ∧
    s.completedDependencies = (db.edgesInto s.clientId).countP db.comesFromCompleted ∧
    (s.readinessStatus = .ready ↔ s.totalDependencies = s.completedDependencies)

instance (db : Db) : Decidable db.CountersRight :=
  inferInstanceAs (Decidable (∀ s ∈ db.taskSteps, s.isDeleted = false → _))

structure Counted (db : Db) (s : TaskStep) : Prop where
  total : s.totalDependencies = (db.edgesInto s.clientId).length
  completed : s.completedDependencies = (db.edgesInto s.clientId).countP db.comesFromCompleted
  readiness : recalculateReadiness s = s

def Db.IsLive (db : Db) (stepId : ClientId) : Prop :=
  ∃ s ∈ db.taskSteps, s.clientId = stepId ∧ s.isDeleted = false

/-- Active edges join steps that are not deleted, and these steps are counted. -/
structure DependencyInv (db : Db) : Prop where
  keyedSteps : Keyed TaskStep.clientId db.taskSteps
  keyedEdges : Keyed TaskStepDependency.clientId db.taskStepDependencies
  ends : ∀ e ∈ db.taskStepDependencies, e.isActive = true →
    db.IsLive e.dependentStepId ∧ db.IsLive e.prerequisiteStepId
  counted : ∀ s ∈ db.taskSteps, s.isDeleted = false → Counted db s

theorem mem_edgesInto {e : TaskStepDependency} : e ∈ db.edgesInto stepId ↔
    e ∈ db.taskStepDependencies ∧ e.isActive = true ∧ e.dependentStepId = stepId := by
  simp [Db.edgesInto]

theorem isCompleted_iff : db.isCompleted stepId = true ↔
    ∃ s ∈ db.taskSteps, s.clientId = stepId ∧ s.state = .completed := by
  simp [Db.isCompleted]

theorem isCompleted_of_mem (hk : Keyed TaskStep.clientId db.taskSteps) (hs : s ∈ db.taskSteps) :
    db.isCompleted s.clientId = (s.state == .completed) := by
  rw [Bool.eq_iff_iff, isCompleted_iff, beq_iff_eq]
  constructor
  · rintro ⟨s', hs', hid, hstate⟩
    exact hk.inj hs' hs hid ▸ hstate
  · exact fun hstate => ⟨s, hs, rfl, hstate⟩

theorem readinessOf_eq_ready {total completed : ℕ} (h : completed ≤ total) :
    readinessOf total completed = .ready ↔ total = completed := by
  rw [readinessOf]
  split_ifs with h₁ h₂ h₃
  · simp only [true_iff]; omega
  · simp only [true_iff]; omega
  · simp only [false_iff]; omega
  · simp only [false_iff]; omega

theorem Counted.completed_le (h : Counted db s) :
    s.completedDependencies ≤ s.totalDependencies := by
  rw [h.total, h.completed]
  exact List.countP_le_length

theorem DependencyInv.countersRight (inv : DependencyInv db) : db.CountersRight := by
  intro s hs hd
  have h := inv.counted s hs hd
  refine ⟨h.total, h.completed, ?_⟩
  rw [← readinessOf_eq_ready h.completed_le]
  exact Iff.of_eq (congrArg (· = _) (congrArg TaskStep.readinessStatus h.readiness).symm)

section Iterates

theorem completeDependency_iterate (h : recalculateReadiness s = s) (n : ℕ) :
    TaskStep.completeDependency^[n] s = recalculateReadiness { s with
      completedDependencies := s.completedDependencies + n } := by
  induction n with
  | zero => exact h.symm
  | succ n ih =>
    rw [Function.iterate_succ_apply', ih]
    rfl

theorem dropDependency_iterate (h : recalculateReadiness s = s)
    (hle : s.completedDependencies ≤ s.totalDependencies) (n : ℕ) :
    TaskStep.dropDependency^[n] s = recalculateReadiness { s with
      totalDependencies := s.totalDependencies - n
      completedDependencies := min s.completedDependencies (s.totalDependencies - n) } := by
  induction n with
  | zero =>
    rw [Nat.sub_zero, Nat.min_eq_left hle]
    exact h.symm
  | succ n ih =>
    rw [Function.iterate_succ_apply', ih]
    have hmin : min (min s.completedDependencies (s.totalDependencies - n))
        (s.totalDependencies - (n + 1)) =
          min s.completedDependencies (s.totalDependencies - (n + 1)) := by omega
    simp only [TaskStep.dropDependency, recalculateReadiness, Nat.sub_sub, hmin]

end Iterates

section Frame

/-- What the counters depend on in a step. -/
def TaskStep.counters (s : TaskStep) : TaskStep :=
  { s with
    taskId := ""
    state := if s.state = .completed then .completed else .pending
    workingSectionId := ""
    recordedTimeMarkedWrong := false
    takenFromAverage := false
    allowsBatchWorking := false
    closedAt := none
    latestStateRecordId := none
    totalWorking := ⟨0, 0, 0⟩
    totalPause := ⟨0, 0, 0⟩
    totalEndedShift := ⟨0, 0, 0⟩
    totalCostMinor := none }

theorem TaskStep.counters_eq {s s' : TaskStep} (h : s.counters = s'.counters) :
    s.clientId = s'.clientId ∧ (s.state = .completed ↔ s'.state = .completed) ∧
      s.readinessStatus = s'.readinessStatus ∧ s.totalDependencies = s'.totalDependencies ∧
      s.completedDependencies = s'.completedDependencies ∧ s.isDeleted = s'.isDeleted := by
  simp only [counters, TaskStep.mk.injEq, true_and] at h
  obtain ⟨hid, hstate, hready, htotal, hcompleted, hdeleted⟩ := h
  refine ⟨hid, ?_, hready, htotal, hcompleted, hdeleted⟩
  by_cases h₁ : s.state = .completed <;> by_cases h₂ : s'.state = .completed <;> simp_all

/-- Writes that keep the edges and what the counters depend on keep the counters. -/
theorem DependencyInv.congr (inv : DependencyInv db)
    (hedges : db'.taskStepDependencies = db.taskStepDependencies)
    (hsteps : db'.taskSteps.map TaskStep.counters = db.taskSteps.map TaskStep.counters) :
    DependencyInv db' := by
  have hback : ∀ s ∈ db'.taskSteps, ∃ s₀ ∈ db.taskSteps, s₀.counters = s.counters := by
    intro s hs
    have hmem : s.counters ∈ db'.taskSteps.map TaskStep.counters := List.mem_map_of_mem hs
    rw [hsteps] at hmem
    exact List.mem_map.mp hmem
  have hforth : ∀ s ∈ db.taskSteps, ∃ s₁ ∈ db'.taskSteps, s₁.counters = s.counters := by
    intro s hs
    have hmem : s.counters ∈ db.taskSteps.map TaskStep.counters := List.mem_map_of_mem hs
    rw [← hsteps] at hmem
    exact List.mem_map.mp hmem
  have hlive : ∀ id, db.IsLive id → db'.IsLive id := by
    rintro id ⟨s, hs, hid, hd⟩
    obtain ⟨s₁, hs₁, hc⟩ := hforth s hs
    obtain ⟨hid₁, -, -, -, -, hdeleted⟩ := TaskStep.counters_eq hc
    exact ⟨s₁, hs₁, hid₁.trans hid, hdeleted.trans hd⟩
  have hcompleted : db'.comesFromCompleted = db.comesFromCompleted := by
    funext e
    rw [Db.comesFromCompleted, Db.comesFromCompleted, Bool.eq_iff_iff, isCompleted_iff,
      isCompleted_iff]
    constructor
    · rintro ⟨s, hs, hid, hstate⟩
      obtain ⟨s₀, hs₀, hc⟩ := hback s hs
      obtain ⟨hid₀, hiff, -⟩ := TaskStep.counters_eq hc
      exact ⟨s₀, hs₀, hid₀.trans hid, hiff.mpr hstate⟩
    · rintro ⟨s, hs, hid, hstate⟩
      obtain ⟨s₁, hs₁, hc⟩ := hforth s hs
      obtain ⟨hid₁, hiff, -⟩ := TaskStep.counters_eq hc
      exact ⟨s₁, hs₁, hid₁.trans hid, hiff.mpr hstate⟩
  have hids := congrArg (List.map TaskStep.clientId) hsteps
  rw [List.map_map, List.map_map] at hids
  refine ⟨inv.keyedSteps.of_map_eq hids, by rw [hedges]; exact inv.keyedEdges, ?_, ?_⟩
  · intro e he ha
    rw [hedges] at he
    exact (inv.ends e he ha).imp (hlive _) (hlive _)
  · intro s hs hd
    obtain ⟨s₀, hs₀, hc⟩ := hback s hs
    obtain ⟨hid, -, hready, htotal, hcount, hdeleted⟩ := TaskStep.counters_eq hc
    have h := inv.counted s₀ hs₀ (hdeleted.trans hd)
    have hinto : db'.edgesInto s.clientId = db.edgesInto s₀.clientId := by
      rw [Db.edgesInto, hedges, ← hid, Db.edgesInto]
    refine ⟨?_, ?_, ?_⟩
    · rw [hinto, ← htotal, h.total]
    · rw [hinto, hcompleted, ← hcount, h.completed]
    · have hr := congrArg TaskStep.readinessStatus h.readiness
      simp only [recalculateReadiness, htotal, hcount, hready] at hr
      rw [recalculateReadiness, hr]

theorem DependencyInv.frame (inv : DependencyInv db) (h : StepFrame TaskStep.counters db db') :
    DependencyInv db' :=
  inv.congr h.taskStepDependencies h.steps

theorem StepFrame.counters_of_untimed (h : StepFrame TaskStep.untimed db db') :
    StepFrame TaskStep.counters db db' :=
  h.comp TaskStep.counters

theorem StepFrame.counters_of_unclosed (h : StepFrame TaskStep.unclosed db db') :
    StepFrame TaskStep.counters db db' :=
  h.comp TaskStep.counters

end Frame

section Recount

variable {f : TaskStep → TaskStep}

theorem comesFromCompleted_map (hid : ∀ x, (f x).clientId = x.clientId)
    (hstate : ∀ x, (f x).state = x.state) (hsteps : db'.taskSteps = db.taskSteps.map f) :
    db'.comesFromCompleted = db.comesFromCompleted := by
  funext e
  rw [Db.comesFromCompleted, Db.comesFromCompleted, Db.isCompleted, Db.isCompleted, hsteps,
    List.any_map]
  refine congrArg (fun p => db.taskSteps.any p) (funext fun x => ?_)
  rw [Function.comp_apply, hid, hstate]

theorem isLive_map (hid : ∀ x, (f x).clientId = x.clientId)
    (hdeleted : ∀ x, (f x).isDeleted = x.isDeleted) (hsteps : db'.taskSteps = db.taskSteps.map f)
    {id : ClientId} (h : db.IsLive id) : db'.IsLive id := by
  obtain ⟨s, hs, rfl, hd⟩ := h
  exact ⟨f s, by rw [hsteps]; exact List.mem_map_of_mem hs, hid s, (hdeleted s).trans hd⟩

theorem DependencyInv.recount (inv : DependencyInv db) (hid : ∀ x, (f x).clientId = x.clientId)
    (hdeleted : ∀ x, (f x).isDeleted = x.isDeleted) (hsteps : db'.taskSteps = db.taskSteps.map f)
    (hkeyed : Keyed TaskStepDependency.clientId db'.taskStepDependencies)
    (hends : ∀ e ∈ db'.taskStepDependencies, e.isActive = true →
      db.IsLive e.dependentStepId ∧ db.IsLive e.prerequisiteStepId)
    (hcounted : ∀ x ∈ db.taskSteps, x.isDeleted = false →
      (f x).totalDependencies = (db'.edgesInto x.clientId).length ∧
      (f x).completedDependencies = (db'.edgesInto x.clientId).countP db'.comesFromCompleted ∧
      recalculateReadiness (f x) = f x) : DependencyInv db' := by
  refine ⟨inv.keyedSteps.of_map_eq ?_, hkeyed, fun e he ha => ?_, fun s hs hd => ?_⟩
  · rw [hsteps, List.map_map]
    exact List.map_congr_left fun x _ => hid x
  · exact (hends e he ha).imp (isLive_map hid hdeleted hsteps) (isLive_map hid hdeleted hsteps)
  · rw [hsteps] at hs
    obtain ⟨x, hx, rfl⟩ := List.mem_map.mp hs
    obtain ⟨htotal, hcompleted, hready⟩ := hcounted x hx ((hdeleted x).symm.trans hd)
    exact ⟨by rw [hid, htotal], by rw [hid, hcompleted], hready⟩

end Recount

section Insert

/-- New edges into one step, counted in it. -/
theorem DependencyInv.insert (inv : DependencyInv db) {new : List TaskStepDependency}
    {g : TaskStep → TaskStep} (hs : s ∈ db.taskSteps) (hd : s.isDeleted = false)
    (hnew : ∀ e ∈ new, e.isActive = true ∧ e.dependentStepId = s.clientId ∧
      db.IsLive e.prerequisiteStepId)
    (hg : ∀ x, g x = recalculateReadiness { x with
      totalDependencies := x.totalDependencies + new.length
      completedDependencies := x.completedDependencies + new.countP db.comesFromCompleted })
    (hsteps : db'.taskSteps = updateWhere (fun x => x.clientId == s.clientId) g db.taskSteps)
    (hedges : db'.taskStepDependencies = db.taskStepDependencies ++ new)
    (hkeyed : Keyed TaskStepDependency.clientId (db.taskStepDependencies ++ new)) :
    DependencyInv db' := by
  have hsame : ∀ x, (if x.clientId == s.clientId then g x else x).clientId = x.clientId ∧
      (if x.clientId == s.clientId then g x else x).state = x.state ∧
      (if x.clientId == s.clientId then g x else x).isDeleted = x.isDeleted := by
    intro x
    split
    · rw [hg]
      exact ⟨rfl, rfl, rfl⟩
    · exact ⟨rfl, rfl, rfl⟩
  have hcompleted := comesFromCompleted_map (fun x => (hsame x).1) (fun x => (hsame x).2.1) hsteps
  refine inv.recount (fun x => (hsame x).1) (fun x => (hsame x).2.2) hsteps (hedges ▸ hkeyed) ?_ ?_
  · intro e he ha
    rw [hedges] at he
    rcases List.mem_append.mp he with he | he
    · exact inv.ends e he ha
    · obtain ⟨-, hdep, hpre⟩ := hnew e he
      exact ⟨⟨s, hs, hdep.symm, hd⟩, hpre⟩
  · intro x hx hlive
    have h := inv.counted x hx hlive
    have hinto : db'.edgesInto x.clientId = db.edgesInto x.clientId ++
        new.filter fun e => e.isActive && e.dependentStepId == x.clientId := by
      rw [Db.edgesInto, hedges, List.filter_append, Db.edgesInto]
    rw [hinto, hcompleted, List.length_append, List.countP_append, ← h.total, ← h.completed]
    by_cases hid : x.clientId = s.clientId
    · have hall : (new.filter fun e => e.isActive && e.dependentStepId == x.clientId) = new :=
        List.filter_eq_self.mpr fun e he => by simp [(hnew e he).1, (hnew e he).2.1, hid]
      rw [hall, if_pos (by simpa using hid), hg]
      exact ⟨rfl, rfl, rfl⟩
    · have hnone : (new.filter fun e => e.isActive && e.dependentStepId == x.clientId) = [] :=
        List.filter_eq_nil_iff.mpr fun e he => by simp [(hnew e he).2.1, Ne.symm hid]
      rw [hnone, if_neg (by simpa using hid)]
      exact ⟨rfl, rfl, h.readiness⟩

end Insert

section Complete

theorem countP_edgesFrom (db : Db) (stepId dependentId : ClientId) :
    ((db.edgesFrom stepId).countP fun e => e.dependentStepId == dependentId) =
      (db.edgesInto dependentId).countP fun e => e.prerequisiteStepId == stepId := by
  rw [Db.edgesFrom, Db.edgesInto, List.countP_filter, List.countP_filter]
  refine List.countP_congr fun e _ => ?_
  simp only [Bool.and_eq_true]
  tauto

/-- The rows once a step is completed and counted along the edges from it. -/
def Db.completeStep (db : Db) (stepId : ClientId) : Db :=
  { db with
    taskSteps := db.taskSteps.map fun x =>
      TaskStep.completeDependency^[(db.edgesFrom stepId).countP fun e =>
        e.dependentStepId == x.clientId]
          (if x.clientId == stepId then { x with state := .completed } else x) }

theorem completeDependency_iterate_same (n : ℕ) (x : TaskStep) :
    (TaskStep.completeDependency^[n] x).clientId = x.clientId ∧
      (TaskStep.completeDependency^[n] x).state = x.state ∧
      (TaskStep.completeDependency^[n] x).isDeleted = x.isDeleted :=
  ⟨apply_iterate_of_fixed (f := TaskStep.completeDependency)
    (g := TaskStep.clientId) (fun _ => rfl) n x,
    apply_iterate_of_fixed (f := TaskStep.completeDependency)
      (g := TaskStep.state) (fun _ => rfl) n x,
    apply_iterate_of_fixed (f := TaskStep.completeDependency)
      (g := TaskStep.isDeleted) (fun _ => rfl) n x⟩

theorem DependencyInv.completeStep (inv : DependencyInv db) (hs : s ∈ db.taskSteps)
    (hnot : s.state ≠ .completed) : DependencyInv (db.completeStep s.clientId) := by
  have hid : ∀ x : TaskStep, (TaskStep.completeDependency^[(db.edgesFrom s.clientId).countP fun e =>
      e.dependentStepId == x.clientId] (if x.clientId == s.clientId then
        { x with state := .completed }
        else x)).clientId = x.clientId := by
    intro x
    rw [(completeDependency_iterate_same _ _).1]
    split <;> rfl
  have hdeleted : ∀ x : TaskStep, (TaskStep.completeDependency^[(db.edgesFrom s.clientId).countP
      fun e => e.dependentStepId == x.clientId] (if x.clientId == s.clientId then
        { x with state := .completed } else x)).isDeleted = x.isDeleted := by
    intro x
    rw [(completeDependency_iterate_same _ _).2.2]
    split <;> rfl
  have hcompleted : (db.completeStep s.clientId).comesFromCompleted =
      fun e => db.comesFromCompleted e || e.prerequisiteStepId == s.clientId := by
    funext e
    rw [Db.comesFromCompleted, Bool.eq_iff_iff, isCompleted_iff, Bool.or_eq_true, beq_iff_eq,
      Db.comesFromCompleted, isCompleted_iff]
    constructor
    · rintro ⟨x', hx', hid', hstate⟩
      obtain ⟨x, hx, rfl⟩ := List.mem_map.mp hx'
      rw [hid] at hid'
      by_cases he : x.clientId = s.clientId
      · exact .inr (hid'.symm.trans he)
      · rw [(completeDependency_iterate_same _ _).2.1, if_neg (by simpa using he)] at hstate
        exact .inl ⟨x, hx, hid', hstate⟩
    · rintro (⟨x, hx, hid', hstate⟩ | he)
      · refine ⟨_, List.mem_map_of_mem hx, (hid x).trans hid', ?_⟩
        rw [(completeDependency_iterate_same _ _).2.1]
        split
        · rfl
        · exact hstate
      · refine ⟨_, List.mem_map_of_mem hs, (hid s).trans he.symm, ?_⟩
        rw [(completeDependency_iterate_same _ _).2.1, if_pos (beq_self_eq_true _)]
  refine inv.recount hid hdeleted rfl inv.keyedEdges inv.ends fun x hx hlive => ?_
  have h := inv.counted x hx hlive
  have hx' : recalculateReadiness (if x.clientId == s.clientId then { x with state := .completed }
      else x) = (if x.clientId == s.clientId then { x with state := .completed } else x) := by
    have hr := congrArg TaskStep.readinessStatus h.readiness
    split
    · rw [recalculateReadiness]
      congr 1
    · exact h.readiness
  have hsplit : (db.edgesInto x.clientId).countP (fun e => db.comesFromCompleted e ||
      e.prerequisiteStepId == s.clientId) = (db.edgesInto x.clientId).countP db.comesFromCompleted +
        (db.edgesInto x.clientId).countP fun e => e.prerequisiteStepId == s.clientId := by
    refine countP_or_of_disjoint fun e _ hc => ?_
    rw [beq_eq_false_iff_ne]
    intro he
    rw [Db.comesFromCompleted, he, isCompleted_of_mem inv.keyedSteps hs, beq_iff_eq] at hc
    exact hnot hc
  have hinto : (db.completeStep s.clientId).edgesInto x.clientId = db.edgesInto x.clientId := rfl
  rw [hinto, hcompleted, hsplit, completeDependency_iterate hx', countP_edgesFrom, ← h.total,
    ← h.completed]
  split <;> exact ⟨rfl, rfl, rfl⟩

theorem counters_completeDependency (n : ℕ) (x : TaskStep) :
    (TaskStep.completeDependency^[n] x).counters = TaskStep.completeDependency^[n] x.counters := by
  induction n with
  | zero => rfl
  | succ n ih => rw [Function.iterate_succ_apply', Function.iterate_succ_apply', ← ih]; rfl

/-- The cascade counts the completion in each dependent step, as often as an edge leads there. -/
theorem foldl_cascadeEdge (es : List TaskStepDependency)
    (h : ∀ e ∈ es, db.IsLive e.dependentStepId) :
    es.foldl cascadeEdge db = { db with
      taskSteps := db.taskSteps.map fun x =>
        TaskStep.completeDependency^[es.countP fun e => e.dependentStepId == x.clientId] x } := by
  have hid : ∀ x : TaskStep, x.completeDependency.clientId = x.clientId := fun _ => rfl
  rw [← foldl_updateWhere_iterate TaskStepDependency.dependentStepId hid es db.taskSteps]
  induction es generalizing db with
  | nil => rfl
  | cons e es ih =>
    have hedge : cascadeEdge db e =
        db.updateStep e.dependentStepId TaskStep.completeDependency := by
      obtain ⟨s, hs, hid, hd⟩ := h e List.mem_cons_self
      rw [cascadeEdge]
      split
      · rename_i hnone
        have := List.find?_eq_none.mp hnone s hs
        simp [hid, hd] at this
      · rfl
    rw [List.foldl_cons, hedge, ih]
    · rfl
    · intro e' he'
      obtain ⟨s, hs, hid, hd⟩ := h e' (List.mem_cons_of_mem e he')
      refine ⟨_, mem_updateWhere_of_mem hs, ?_⟩
      split <;> exact ⟨hid, hd⟩

/-- A step that has been moved to completed, and the cascade. -/
theorem DependencyInv.cascade (inv : DependencyInv db) (hs : s ∈ db.taskSteps)
    (hnot : s.state ≠ .completed) {db₁ db₂ : Db}
    (hedges : db₁.taskStepDependencies = db.taskStepDependencies)
    (hsteps : db₁.taskSteps.map TaskStep.counters = db.taskSteps.map fun x =>
      (if x.clientId == s.clientId then { x with state := .completed } else x).counters)
    (h : cascadeStepCompletion db₁ s.clientId = .ok db₂) : DependencyInv db₂ := by
  have hfrom : db₁.edgesFrom s.clientId = db.edgesFrom s.clientId := by
    rw [Db.edgesFrom, hedges, Db.edgesFrom]
  have hlive : ∀ e ∈ db₁.edgesFrom s.clientId, db₁.IsLive e.dependentStepId := by
    intro e he
    rw [hfrom] at he
    obtain ⟨hmem, hp⟩ := List.mem_filter.mp he
    obtain ⟨x, hx, hid, hd⟩ := (inv.ends e hmem (by simp_all)).1
    have hx' : (if x.clientId == s.clientId then { x with state := .completed } else x).counters ∈
        db₁.taskSteps.map TaskStep.counters := by
      rw [hsteps]
      exact List.mem_map.mpr ⟨x, hx, rfl⟩
    obtain ⟨x₁, hx₁, hc⟩ := List.mem_map.mp hx'
    obtain ⟨hid₁, -, -, -, -, hdeleted⟩ := TaskStep.counters_eq hc
    refine ⟨x₁, hx₁, hid₁.trans ?_, hdeleted.trans ?_⟩
    · rw [← hid]; split <;> rfl
    · rw [← hd]; split <;> rfl
  obtain ⟨rfl, -⟩ := cascadeStepCompletion_frame h
  rw [foldl_cascadeEdge _ hlive]
  refine (inv.completeStep hs hnot).congr hedges ?_
  have hmap : ∀ l : List TaskStep, (l.map fun x => TaskStep.completeDependency^[
      (db.edgesFrom s.clientId).countP fun e => e.dependentStepId == x.clientId] x).map
        TaskStep.counters = (l.map TaskStep.counters).map fun x => TaskStep.completeDependency^[
          (db.edgesFrom s.clientId).countP fun e => e.dependentStepId == x.clientId] x := by
    intro l
    rw [List.map_map, List.map_map]
    exact List.map_congr_left fun x _ => counters_completeDependency _ x
  rw [hfrom, hmap, hsteps, Db.completeStep, List.map_map, List.map_map]
  refine List.map_congr_left fun x _ => ?_
  simp only [Function.comp_apply, counters_completeDependency]
  split <;> rfl

end Complete

end BeyoManager.TaskSteps
