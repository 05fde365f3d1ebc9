import BeyoManager.TaskSteps.DependencyEdges

/-! # Cycles of dependencies

Only an edit of the prerequisite sections is checked for cycles, and only among the sections. While
no command closes a cycle of open steps, a task with open steps has one that waits for none.
-/

namespace BeyoManager.TaskSteps

open Cycles Relation Relational Transition

variable {db db' : Db} {now : Instant} {ctx : ServiceContext}

/-- No open steps wait for each other in a cycle, and every task with an open step has one that
waits for no other open step. -/
def Db.NeverStuck (db : Db) : Prop :=
  Acyclic db.Waits ∧ ∀ s ∈ db.taskSteps, s.isOpenStep →
    ∃ p ∈ db.taskSteps, p.taskId = s.taskId ∧ p.isOpenStep ∧ ∀ y, ¬ db.Waits p.clientId y

/-- The rules and the open steps are without cycles, and edges stay inside a task. -/
structure GraphInv (db : Db) : Prop where
  sections : Acyclic db.SectionRow
  within : ∀ x y, db.ActiveEdge x y → ∃ taskId, db.InTask x taskId ∧ db.InTask y taskId
  waits : Acyclic db.Waits

theorem inTask_unique (hk : Keyed TaskStep.clientId db.taskSteps) {x taskId taskId' : ClientId}
    (h : db.InTask x taskId) (h' : db.InTask x taskId') : taskId = taskId' := by
  obtain ⟨s, hs, hid, rfl⟩ := h
  obtain ⟨s', hs', hid', rfl⟩ := h'
  rw [hk.inj hs hs' (hid.trans hid'.symm)]

theorem GraphInv.neverStuck (inv : GraphInv db) (hk : Keyed TaskStep.clientId db.taskSteps) :
    db.NeverStuck := by
  refine ⟨inv.waits, fun s hs hopen => ?_⟩
  let openSteps := (db.taskSteps.filter fun p => p.taskId = s.taskId ∧ p.isOpenStep).map
    TaskStep.clientId
  have hmem : s.clientId ∈ openSteps :=
    List.mem_map_of_mem (List.mem_filter.mpr ⟨hs, by simpa using hopen⟩)
  obtain ⟨x, hx, hsink⟩ := inv.waits.exists_sink (List.ne_nil_of_mem hmem)
  obtain ⟨p, hp, rfl⟩ := List.mem_map.mp hx
  obtain ⟨hp, hpp⟩ := List.mem_filter.mp hp
  have hpp : p.taskId = s.taskId ∧ p.isOpenStep := by simpa using hpp
  refine ⟨p, hp, hpp.1, hpp.2, fun y hy => hsink y ?_ hy⟩
  -- what the step waits for is an open step of the same task
  obtain ⟨-, ⟨q, hq, rfl, hqo⟩, hedge⟩ := id hy
  obtain ⟨taskId, hpt, hqt⟩ := inv.within _ _ hedge
  have htask : q.taskId = s.taskId := by
    rw [inTask_unique hk ⟨q, hq, rfl, rfl⟩ hqt, ← inTask_unique hk ⟨p, hp, rfl, rfl⟩ hpt, hpp.1]
  exact List.mem_map_of_mem (List.mem_filter.mpr ⟨hq, by simpa using ⟨htask, hqo⟩⟩)

section Rewire

variable {new : ClientId → ClientId → Prop}

theorem Rewires.waits (h : Rewires new db db') (hk : Keyed TaskStep.clientId db'.taskSteps)
    (hkept : Kept db db') {x y : ClientId} (hxy : db'.Waits x y) :
    db.Waits x y ∨ new x y ∧ db.IsOpenStep x ∧ db.IsOpenStep y := by
  obtain ⟨hx, hy, hedge⟩ := hxy
  have hx := h.isOpenStep hk hkept hx
  have hy := h.isOpenStep hk hkept hy
  rcases h.edges x y hedge with hedge | hnew
  · exact .inl ⟨hx, hy, hedge⟩
  · exact .inr ⟨hnew, hx, hy⟩

theorem GraphInv.within_of_rewires (inv : GraphInv db) (h : Rewires new db db')
    (hnew : ∀ x y, new x y → ∃ taskId, db.InTask x taskId ∧ db.InTask y taskId) (x y : ClientId)
    (hxy : db'.ActiveEdge x y) : ∃ taskId, db'.InTask x taskId ∧ db'.InTask y taskId := by
  have hold : ∃ taskId, db.InTask x taskId ∧ db.InTask y taskId :=
    (h.edges x y hxy).elim (inv.within x y) (hnew x y)
  obtain ⟨taskId, hx, hy⟩ := hold
  exact ⟨taskId, h.inTask hx, h.inTask hy⟩

theorem GraphInv.rewires (inv : GraphInv db) (h : Rewires new db db')
    (hk : Keyed TaskStep.clientId db'.taskSteps) (hkept : Kept db db')
    (hnew : ∀ x y, new x y → ∃ taskId, db.InTask x taskId ∧ db.InTask y taskId)
    (hback : ∀ x y, new x y → db.IsOpenStep x → db.IsOpenStep y →
      ∀ x' y', new x' y' → db.IsOpenStep x' → ¬ ReflTransGen db.Waits y x') :
    GraphInv db' := by
  refine ⟨inv.sections.mono fun _ _ => h.sectionRow.mp, inv.within_of_rewires h hnew, ?_⟩
  refine Acyclic.mono (inv.waits.add ?_) fun x y hxy => h.waits hk hkept hxy
  rintro x y ⟨hxy, hx, hy⟩ x' y' ⟨hxy', hx', -⟩
  exact hback x y hxy hx hy x' y' hxy' hx'

theorem GraphInv.unwired (inv : GraphInv db) (h : Rewires (fun _ _ => False) db db')
    (hk : Keyed TaskStep.clientId db'.taskSteps) (hkept : Kept db db') : GraphInv db' :=
  inv.rewires h hk hkept (fun _ _ => False.elim) fun _ _ => False.elim

end Rewire

section Create

/-- The rules of the sections of new steps lead from one open step of the task to another. -/
def Db.LinkedThrough (db : Db) (taskId : ClientId) (newSections : List ClientId)
    (x y : ClientId) : Prop :=
  ∃ s ∈ db.taskSteps, ∃ p ∈ db.taskSteps, (s.clientId = x ∧ s.taskId = taskId ∧ s.isOpenStep) ∧
    (p.clientId = y ∧ p.taskId = taskId ∧ p.isOpenStep) ∧
    ∃ a ∈ newSections, ∃ b ∈ newSections, db.SectionRow s.workingSectionId a ∧
      ReflTransGen (fun c d => db.SectionRow c d ∧ d ∈ newSections) a b ∧
      db.SectionRow b p.workingSectionId

variable {taskId : ClientId} {inputs : List StepInput} {newEdgeId : ClientId → ClientId → ClientId}

theorem GraphInv.within_of_wired (inv : GraphInv db) {steps : List TaskStep}
    (hw : Wired db db' taskId inputs steps) (x y : ClientId) (hxy : db'.ActiveEdge x y) :
    ∃ taskId, db'.InTask x taskId ∧ db'.InTask y taskId := by
  have hin : ∀ s ∈ steps, db'.InTask s.clientId s.taskId := by
    intro s hs
    have hmem : s.uncounted ∈ steps.map TaskStep.uncounted := List.mem_map_of_mem hs
    rw [← hw.rest] at hmem
    obtain ⟨s', hs', heq⟩ := List.mem_map.mp hmem
    obtain ⟨hid, htask, -⟩ := TaskStep.core_eq (congrArg TaskStep.untimed heq)
    exact ⟨s', hs', hid, htask⟩
  rcases hw.edges x y hxy with hxy | ⟨s, hs, p, hp, rfl, rfl, -, hst, hpt, -⟩
  · obtain ⟨t, ⟨s, hs, rfl, hst⟩, p, hp, rfl, hpt⟩ := inv.within x y hxy
    exact ⟨t, hst ▸ hin s (hw.old s hs).1, hpt ▸ hin p (hw.old p hp).1⟩
  · exact ⟨taskId, hst ▸ hin s hs, hpt ▸ hin p hp⟩

/-- An edge by a rule between a new step and another open step of the task. -/
def RuleEdge (db : Db) (steps : List TaskStep) (taskId x y : ClientId) : Prop :=
  ∃ s ∈ steps, ∃ p ∈ steps, s.clientId = x ∧ p.clientId = y ∧
    (s ∉ db.taskSteps ∨ p ∉ db.taskSteps) ∧ (s.taskId = taskId ∧ s.isOpenStep) ∧
    (p.taskId = taskId ∧ p.isOpenStep) ∧ db.SectionRow s.workingSectionId p.workingSectionId

theorem GraphInv.waits_or_ruleEdge (inv : GraphInv db) {steps : List TaskStep}
    (hw : Wired db db' taskId inputs steps) {x y : ClientId} (hxy : db'.Waits x y) :
    db.Waits x y ∨ RuleEdge db steps taskId x y := by
  have hopen : ∀ {x}, db'.IsOpenStep x → ∃ s ∈ steps, s.clientId = x ∧ s.isOpenStep := by
    rintro x ⟨s', hs', rfl, hopen⟩
    have hmem : s'.uncounted ∈ db'.taskSteps.map TaskStep.uncounted := List.mem_map_of_mem hs'
    rw [hw.rest] at hmem
    obtain ⟨s, hs, heq⟩ := List.mem_map.mp hmem
    obtain ⟨hid, -, hstate, -, -, -, -, hdel⟩ := TaskStep.core_eq (congrArg TaskStep.untimed heq)
    exact ⟨s, hs, hid, hdel.trans hopen.1, (congrArg _ hstate).trans hopen.2⟩
  obtain ⟨hx, hy, hedge⟩ := hxy
  obtain ⟨s, hs, rfl, hso⟩ := hopen hx
  obtain ⟨p, hp, rfl, hpo⟩ := hopen hy
  rcases hw.edges _ _ hedge with hedge | ⟨s', hs', p', hp', hsid, hpid, hnew, hst, hpt, hrow⟩
  · obtain ⟨t, ⟨s', hs', hsid, -⟩, p', hp', hpid, -⟩ := inv.within _ _ hedge
    obtain rfl := hw.keyed.inj (hw.old s' hs').1 hs hsid
    obtain rfl := hw.keyed.inj (hw.old p' hp').1 hp hpid
    exact .inl ⟨⟨s', hs', rfl, hso⟩, ⟨p', hp', rfl, hpo⟩, hedge⟩
  · obtain rfl := hw.keyed.inj hs' hs hsid
    obtain rfl := hw.keyed.inj hp' hp hpid
    exact .inr ⟨s', hs', p', hp', rfl, rfl, hnew, ⟨hst, hso⟩, ⟨hpt, hpo⟩, hrow⟩

theorem GraphInv.waits_of_wired (inv : GraphInv db) {steps : List TaskStep}
    (hw : Wired db db' taskId inputs steps)
    (hcond : Acyclic fun x y => db.Waits x y ∨
      db.LinkedThrough taskId (inputs.map StepInput.workingSectionId) x y) :
    Acyclic db'.Waits := by
  let isNew (x : ClientId) : Prop := x ∈ inputs.map StepInput.stepId
  let sectionOf (x : ClientId) : ClientId :=
    ((steps.find? fun s => s.clientId == x).map TaskStep.workingSectionId).getD ""
  have hsection : ∀ s ∈ steps, sectionOf s.clientId = s.workingSectionId := fun s hs => by
    simp only [sectionOf, hw.keyed.find?_eq hs, Option.map_some, Option.getD_some]
  have hnew : ∀ s ∈ steps, isNew s.clientId ↔ s ∉ db.taskSteps := fun s hs =>
    ⟨fun hid hold => (hw.old s hold).2 hid, fun hno => (hw.created s hs hno).1⟩
  have hrow : ∀ {x y}, RuleEdge db steps taskId x y →
    db.SectionRow (sectionOf x) (sectionOf y) := by
    rintro x y ⟨s, hs, p, hp, rfl, rfl, -, -, -, hrow⟩
    rwa [hsection s hs, hsection p hp]
  have hinto : ∀ {x y}, RuleEdge db steps taskId x y → isNew y →
      sectionOf y ∈ inputs.map StepInput.workingSectionId := by
    rintro x y ⟨s, hs, p, hp, rfl, rfl, -⟩ hy
    rw [hsection p hp]
    exact (hw.created p hp ((hnew p hp).mp hy)).2.2
  refine Acyclic.mono (Acyclic.extend isNew (r := db.Waits)
    ?_ ?_ ?_ ?_) fun x y hxy => inv.waits_or_ruleEdge hw hxy
  · rintro x y ⟨⟨s, hs, rfl, -⟩, ⟨p, hp, rfl, -⟩, -⟩
    exact ⟨(hw.old s hs).2, (hw.old p hp).2⟩
  · rintro x y ⟨s, hs, p, hp, rfl, rfl, hends, -⟩
    exact hends.imp (hnew s hs).mpr (hnew p hp).mpr
  · exact inv.sections.comap sectionOf fun x y hxy => hrow hxy.1
  · refine hcond.mono ?_
    rintro x y (hxy | ⟨hx, hy, c, d, hc, hd, hxc, hcd, hdy⟩)
    · exact .inl hxy
    · refine .inr ?_
      have hac := hrow hxc
      have hdb := hrow hdy
      have hcsection := hinto hxc hc
      have hpath := hcd.lift (p := fun a b => db.SectionRow a b ∧
        b ∈ inputs.map StepInput.workingSectionId) sectionOf fun u v huv =>
          ⟨hrow huv.1, hinto huv.1 huv.2⟩
      have hdsection : sectionOf d ∈ inputs.map StepInput.workingSectionId := by
        obtain ⟨s, hs, -, -, rfl, -⟩ := hdy
        rw [hsection s hs]
        exact (hw.created s hs ((hnew s hs).mp hd)).2.2
      obtain ⟨s, hs, -, -, rfl, -, -, hst, -⟩ := hxc
      obtain ⟨-, -, p, hp, -, rfl, -, -, hpt, -⟩ := hdy
      rw [hsection s hs] at hac
      rw [hsection p hp] at hdb
      have hsold : s ∈ db.taskSteps := not_not.mp fun hno => hx ((hnew s hs).mpr hno)
      have hpold : p ∈ db.taskSteps := not_not.mp fun hno => hy ((hnew p hp).mpr hno)
      exact ⟨s, hsold, p, hpold, ⟨rfl, hst⟩, ⟨rfl, hpt⟩, _, hcsection, _,
        hdsection, hac, hpath, hdb⟩

theorem addTaskSteps_graph (chain : ChainInv db) (inv : GraphInv db)
    (hcond : Acyclic fun x y => db.Waits x y ∨
      db.LinkedThrough taskId (inputs.map StepInput.workingSectionId) x y)
    (h : addTaskSteps db ctx taskId inputs now newEdgeId = .ok db') : GraphInv db' := by
  obtain ⟨steps, hw⟩ := addTaskSteps_wired chain h
  have hrow : ∀ a b, db'.SectionRow a b → db.SectionRow a b := by
    intro a b
    rw [Db.SectionRow, hw.rows]
    exact id
  exact ⟨inv.sections.mono hrow, inv.within_of_wired hw, inv.waits_of_wired hw hcond⟩

end Create

/-- A command that closes no cycle of open steps. The prerequisite of a single dependency does not
wait for its step; no open step of a new prerequisite section waits for an open step of the edited
section; the rules of new steps link the open steps of the task without a cycle. -/
def Op.ClosesNoCycle (db : Db) : Op → Prop
  | .addDependency _ stepId prerequisiteStepId _ =>
    ¬ ReflTransGen db.Waits prerequisiteStepId stepId
  | .editSectionDependencies sectionId depIds _ =>
    ∀ p ∈ db.taskSteps, p.isOpenStep → p.workingSectionId ∈ depIds →
      p.workingSectionId ∉ db.prerequisiteSections sectionId →
      ∀ s ∈ db.taskSteps, s.isOpenStep → s.workingSectionId = sectionId →
        ¬ ReflTransGen db.Waits p.clientId s.clientId
  | .addSteps _ taskId inputs _ => Acyclic fun x y => db.Waits x y ∨
      db.LinkedThrough taskId (inputs.map StepInput.workingSectionId) x y
  | _ => True

section Edit

variable {sectionId : ClientId} {depIds : List ClientId}

theorem addStepDependency_graph (chain : ChainInv db) (inv : GraphInv db)
    {taskId stepId prerequisiteStepId newEdgeId : ClientId}
    (hcond : ¬ ReflTransGen db.Waits prerequisiteStepId stepId)
    (h : addStepDependency db taskId stepId prerequisiteStepId newEdgeId = .ok db') :
    GraphInv db' := by
  obtain ⟨hrewires, hs, hp⟩ := addStepDependency_rewires h
  have hframe := addStepDependency_frame h
  refine inv.rewires hrewires (chain.congr hframe.records hframe.core).keyedSteps
    (.of_core hframe.core) ?_ ?_
  · rintro x y ⟨rfl, rfl⟩
    exact ⟨taskId, hs, hp⟩
  · rintro x y ⟨rfl, rfl⟩ - - x' y' ⟨rfl, rfl⟩ -
    exact hcond

theorem editWorkingSectionDependencies_checked {newEdgeId : ClientId → ClientId → ClientId}
    (h : editWorkingSectionDependencies db sectionId depIds now newEdgeId = .ok db') :
    ∃ u, checkForDependencyCycle db sectionId depIds = .ok u := by
  obtain ⟨section_, -, h⟩ := bind_eq_ok.mp h
  obtain ⟨-, h⟩ := throwIf_bind_eq_ok.mp h
  split at h
  · cases h
  · obtain ⟨u, hu, -⟩ := bind_eq_ok.mp h
    exact ⟨u, hu⟩

theorem editWorkingSectionDependencies_graph (chain : ChainInv db) (inv : GraphInv db)
    {newEdgeId : ClientId → ClientId → ClientId}
    (hcond : ∀ p ∈ db.taskSteps, p.isOpenStep → p.workingSectionId ∈ depIds →
      p.workingSectionId ∉ db.prerequisiteSections sectionId →
      ∀ s ∈ db.taskSteps, s.isOpenStep → s.workingSectionId = sectionId →
        ¬ ReflTransGen db.Waits p.clientId s.clientId)
    (h : editWorkingSectionDependencies db sectionId depIds now newEdgeId = .ok db') :
    GraphInv db' := by
  obtain ⟨u, hu⟩ := editWorkingSectionDependencies_checked h
  have hframe := editWorkingSectionDependencies_frame h
  have hedited : GraphInv (db.withPrerequisiteSections sectionId depIds) :=
    ⟨acyclic_withPrerequisiteSections inv.sections (checkForDependencyCycle_eq_ok hu), inv.within,
      inv.waits⟩
  refine hedited.rewires (editWorkingSectionDependencies_rewires h)
    (chain.congr hframe.records hframe.core).keyedSteps (.of_core hframe.core) ?_ ?_
  · rintro x y ⟨s, hs, p, hp, rfl, rfl, -, -, htask, -⟩
    exact ⟨s.taskId, ⟨s, hs, rfl, rfl⟩, ⟨p, hp, rfl, htask⟩⟩
  · rintro x y ⟨s, hs, p, hp, rfl, rfl, -, -, -, hadded⟩ - ⟨q, hq, hqid, hqo⟩ x' y'
      ⟨s', hs', -, -, rfl, -, hsection, hopen, -⟩ -
    obtain rfl := chain.keyedSteps.inj hq hp hqid
    obtain ⟨hmem, hnot⟩ := List.mem_filter.mp hadded
    exact hcond q hq hqo hmem (by simpa using hnot) s' hs' hopen hsection

end Edit

theorem execute_graph (chain : ChainInv db) (inv : GraphInv db) {op : Op}
    (hcond : op.ClosesNoCycle db) (h : op.execute db now = .ok db') : GraphInv db' := by
  obtain ⟨chain', hkept⟩ := execute_keeps chain h
  have hk := chain'.keyedSteps
  cases op with
  | transition => exact inv.unwired (transitionStepState_rewires h) hk hkept
  | transitionBatch => exact inv.unwired (transitionStepStateBatch_rewires h) hk hkept
  | markInaccurate =>
    obtain ⟨record, -, step, -, -, -, rfl⟩ := markStepTimeInaccurate_eq_ok h
    refine inv.unwired ?_ hk hkept
    rw [applyInaccurateTimeFlag_eq]
    exact ⟨map_updateWhere_of_fixed fun _ _ _ => rfl, rfl, fun _ _ h => .inl h⟩
  | addSteps => exact addTaskSteps_graph chain inv hcond h
  | removeStep => exact inv.unwired (removeTaskStepsInSession_rewires h) hk hkept
  | removeSteps =>
    exact inv.unwired (removeTaskStepsInSession_rewires (removeTaskSteps_eq_ok h)) hk hkept
  | addDependency => exact addStepDependency_graph chain inv hcond h
  | removeDependency => exact inv.unwired (removeStepDependency_rewires h) hk hkept
  | editSectionDependencies => exact editWorkingSectionDependencies_graph chain inv hcond h

theorem graphInv_withoutSteps (h : Acyclic db.SectionRow) : GraphInv db.withoutSteps := by
  refine ⟨h, ?_, ?_⟩
  · rintro x y ⟨e, he, -⟩
    cases he
  · refine acyclic_of_forall_not ?_
    rintro x y ⟨⟨s, hs, -⟩, -⟩
    cases hs

/-- While no command closes a cycle of open steps, no task gets stuck: its open steps do not wait
for each other in a cycle, and one of them waits for no open step. -/
theorem neverStuck_of_closesNoCycle (tables : Db) (clock : Instant) (commands : List Command)
    (hrows : Acyclic tables.SectionRow)
    (h : Meets step (fun s c => c.op.ClosesNoCycle s.db) ⟨clock, tables.withoutSteps⟩ commands) :
    (run ⟨clock, tables.withoutSteps⟩ commands).db.NeverStuck := by
  have hinv := h.invariant (fun s => ChainInv s.db ∧ GraphInv s.db) ?_
    ⟨chainInv_withoutSteps tables, graphInv_withoutSteps hrows⟩
  · exact hinv.2.neverStuck hinv.1.keyedSteps
  · rintro s c s' ⟨hchain, hinv⟩ hcond hstep
    have hexec := (step_eq_ok hstep).2
    exact ⟨(execute_keeps hchain hexec).1, execute_graph hchain hinv hcond hexec⟩

theorem not_waits_of_closed (reached : List ClientId) {prerequisiteId stepId : ClientId}
    (hfrom : prerequisiteId ∈ reached) (hnot : stepId ∉ reached)
    (hclosed : ∀ e ∈ db.taskStepDependencies, e.dependentStepId ∈ reached →
      e.prerequisiteStepId ∈ reached) : ¬ ReflTransGen db.Waits prerequisiteId stepId := by
  intro hpath
  refine hnot (mem_of_closed (p := fun x => x ∈ reached) ?_ hpath hfrom)
  rintro x y hx ⟨-, -, e, he, -, rfl, rfl⟩
  exact hclosed e he hx

/-- Washing comes after sewing by the rules, and one washing after the other by an edge. -/
theorem neverStuck_of_closesNoCycle_threeSteps :
    (run ⟨0, workshop.withoutSteps⟩ [
      ⟨0, .editSectionDependencies "washing" ["sewing"] fun x y => x ++ " after " ++ y⟩,
      addsSteps [("a", "sewing"), ("b", "washing"), ("c", "washing")],
      ⟨0, .addDependency "task" "c" "b" "edge"⟩]).db.NeverStuck := by
  refine neverStuck_of_closesNoCycle workshop 0 _ (acyclic_of_forall_not ?_)
    ⟨fun _ => ?_, fun _ => ?_, fun _ => ?_, trivial⟩
  · rintro x y ⟨d, hd, -⟩
    cases hd
  · intro p hp
    cases hp
  · refine acyclic_of_forall_not ?_
    rintro x y (⟨⟨s, hs, -⟩, -⟩ | ⟨s, hs, -⟩)
    · have hnone : (commit step ⟨0, workshop.withoutSteps⟩ ⟨0, .editSectionDependencies "washing"
        ["sewing"] fun x y => x ++ " after " ++ y⟩).db.taskSteps = [] := by decide +kernel
      rw [hnone] at hs
      cases hs
    · have hnone : (commit step ⟨0, workshop.withoutSteps⟩ ⟨0, .editSectionDependencies "washing"
        ["sewing"] fun x y => x ++ " after " ++ y⟩).db.taskSteps = [] := by decide +kernel
      rw [hnone] at hs
      cases hs
  · exact not_waits_of_closed ["b", "a"] (by decide) (by decide) (by decide +kernel)

/-- Two steps that are made to wait for each other stay blocked. -/
theorem stuck_of_crossing : ¬ (run ⟨0, workshop.withoutSteps⟩ [
    addsSteps [("a", "sewing"), ("b", "sewing")], ⟨0, .addDependency "task" "a" "b" "first"⟩,
    ⟨0, .addDependency "task" "b" "a" "second"⟩]).db.NeverStuck := by
  intro h
  refine h.1 "a" (.tail (b := "b") (.single ?_) ?_)
  · decide +kernel
  · decide +kernel

end BeyoManager.TaskSteps
