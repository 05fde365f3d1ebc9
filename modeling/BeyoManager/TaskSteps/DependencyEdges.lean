import BeyoManager.TaskSteps.DependencyWrites
import BeyoManager.TaskSteps.SectionGraph

/-! # The edges that the commands write

Every command but the addition of steps keeps the places of the steps. It is known which edges a
command may add: a single one, those of the rules that an edit adds, or those that wire new steps.
-/

namespace BeyoManager.TaskSteps

open Cycles Relation Relational Transition

variable {db db' : Db} {now : Instant} {ctx : ServiceContext} {limit : LimitOne Row}

section Graph

/-- A step that is neither deleted nor in a terminal state. -/
def TaskStep.isOpenStep (s : TaskStep) : Prop := s.isDeleted = false ∧ s.state.isTerminal = false

instance (s : TaskStep) : Decidable s.isOpenStep := inferInstanceAs (Decidable (_ ∧ _))

def Db.IsOpenStep (db : Db) (stepId : ClientId) : Prop :=
  ∃ s ∈ db.taskSteps, s.clientId = stepId ∧ s.isOpenStep

instance (stepId : ClientId) : Decidable (db.IsOpenStep stepId) :=
  inferInstanceAs (Decidable (∃ s ∈ db.taskSteps, _))

def Db.ActiveEdge (db : Db) (stepId prerequisiteId : ClientId) : Prop :=
  ∃ e ∈ db.taskStepDependencies, e.isActive = true ∧ e.dependentStepId = stepId ∧
    e.prerequisiteStepId = prerequisiteId

instance (x y : ClientId) : Decidable (db.ActiveEdge x y) :=
  inferInstanceAs (Decidable (∃ e ∈ db.taskStepDependencies, _))

def Db.Waits (db : Db) (stepId prerequisiteId : ClientId) : Prop :=
  db.IsOpenStep stepId ∧ db.IsOpenStep prerequisiteId ∧ db.ActiveEdge stepId prerequisiteId

instance (x y : ClientId) : Decidable (db.Waits x y) := inferInstanceAs (Decidable (_ ∧ _ ∧ _))

def Db.InTask (db : Db) (stepId taskId : ClientId) : Prop :=
  ∃ s ∈ db.taskSteps, s.clientId = stepId ∧ s.taskId = taskId

end Graph

def TaskStep.place (s : TaskStep) : ClientId × ClientId × ClientId :=
  (s.clientId, s.taskId, s.workingSectionId)

/-- The steps keep their places, the sections their prerequisites, and the active edges that may
be new are known. -/
structure Rewires (new : ClientId → ClientId → Prop) (db db' : Db) : Prop where
  places : db'.taskSteps.map TaskStep.place = db.taskSteps.map TaskStep.place
  rows : db'.workingSectionDependencies = db.workingSectionDependencies
  edges : ∀ x y, db'.ActiveEdge x y → db.ActiveEdge x y ∨ new x y

theorem places_of_frame (h : CountFrame db db') :
    db'.taskSteps.map TaskStep.place = db.taskSteps.map TaskStep.place := by
  have hmap := congrArg (List.map TaskStep.place) h.steps
  rwa [List.map_map, List.map_map] at hmap

theorem CountFrame.exists_step (h : CountFrame db db') {s : TaskStep} (hs : s ∈ db'.taskSteps) :
    ∃ s₀ ∈ db.taskSteps, s₀.uncounted = s.uncounted := by
  have hmem : s.uncounted ∈ db'.taskSteps.map TaskStep.uncounted := List.mem_map_of_mem hs
  rw [h.steps] at hmem
  exact List.mem_map.mp hmem

namespace Rewires

variable {db'' : Db} {new : ClientId → ClientId → Prop}

theorem refl (db : Db) : Rewires new db db := ⟨rfl, rfl, fun _ _ h => .inl h⟩

theorem trans (h : Rewires new db db') (h' : Rewires new db' db'') : Rewires new db db'' := by
  refine ⟨h'.places.trans h.places, h'.rows.trans h.rows, fun x y hxy => ?_⟩
  rcases h'.edges x y hxy with hxy | hxy
  · exact h.edges x y hxy
  · exact .inr hxy

theorem mono {old : ClientId → ClientId → Prop} (h : Rewires old db db')
    (hle : ∀ x y, old x y → new x y) : Rewires new db db' :=
  ⟨h.places, h.rows, fun x y hxy => (h.edges x y hxy).imp_right (hle x y)⟩

theorem of_edges {view : TaskStep → TaskStep}
    (hsteps : db'.taskSteps.map view = db.taskSteps.map view)
    (hview : ∀ s, (view s).place = s.place)
    (hrows : db'.workingSectionDependencies = db.workingSectionDependencies)
    (hedges : db'.taskStepDependencies = db.taskStepDependencies) : Rewires new db db' := by
  refine ⟨?_, hrows, fun x y hxy => .inl ?_⟩
  · have hmap := congrArg (List.map TaskStep.place) hsteps
    rw [List.map_map, List.map_map] at hmap
    have hcomp : TaskStep.place ∘ view = TaskStep.place := funext hview
    rwa [hcomp] at hmap
  · rwa [Db.ActiveEdge, hedges] at hxy

theorem of_frame {view : TaskStep → TaskStep} (h : StepFrame view db db')
    (hview : ∀ s, (view s).place = s.place) : Rewires new db db' :=
  of_edges h.steps hview (by rw [h.rest]) h.taskStepDependencies

theorem updateStep {f : TaskStep → TaskStep} (hf : ∀ s, (f s).place = s.place) (db : Db)
    (stepId : ClientId) : Rewires new db (db.updateStep stepId f) :=
  ⟨map_updateWhere_of_fixed fun s _ _ => hf s, rfl, fun _ _ h => .inl h⟩

theorem of_removed {p : TaskStepDependency → Bool}
    (hplaces : db'.taskSteps.map TaskStep.place = db.taskSteps.map TaskStep.place)
    (hrows : db'.workingSectionDependencies = db.workingSectionDependencies)
    (hedges : db'.taskStepDependencies =
      updateWhere p (fun e => { e with removedAt := some now }) db.taskStepDependencies) :
    Rewires new db db' := by
  refine ⟨hplaces, hrows, fun x y hxy => .inl ?_⟩
  obtain ⟨e, he, ha, hx, hy⟩ := hxy
  rw [hedges] at he
  obtain ⟨e₀, he₀, rfl⟩ := mem_updateWhere.mp he
  split at ha
  · cases ha
  · rename_i hno
    rw [if_neg hno] at hx hy
    exact ⟨e₀, he₀, ha, hx, hy⟩

theorem insertDependency {e : TaskStepDependency} (h : db.insertDependency e = .ok db')
    (hnew : new e.dependentStepId e.prerequisiteStepId) : Rewires new db db' := by
  obtain ⟨rfl, -⟩ := insertDependency_eq_ok h
  refine ⟨rfl, rfl, ?_⟩
  rintro x y ⟨e', he', ha, rfl, rfl⟩
  rcases List.mem_append.mp he' with he' | he'
  · exact .inl ⟨e', he', ha, rfl, rfl⟩
  · obtain rfl := List.mem_singleton.mp he'
    exact .inr hnew

theorem sectionRow (h : Rewires new db db') {a b : ClientId} :
    db'.SectionRow a b ↔ db.SectionRow a b := by
  rw [Db.SectionRow, Db.SectionRow, h.rows]

theorem exists_step (h : Rewires new db db') {s : TaskStep} (hs : s ∈ db'.taskSteps) :
    ∃ s₀ ∈ db.taskSteps, s₀.place = s.place := by
  have hmem : s.place ∈ db'.taskSteps.map TaskStep.place := List.mem_map_of_mem hs
  rw [h.places] at hmem
  exact List.mem_map.mp hmem

theorem inTask (h : Rewires new db db') {x taskId : ClientId} (hx : db.InTask x taskId) :
    db'.InTask x taskId := by
  obtain ⟨s, hs, rfl, rfl⟩ := hx
  have hmem : s.place ∈ db.taskSteps.map TaskStep.place := List.mem_map_of_mem hs
  rw [← h.places] at hmem
  obtain ⟨s', hs', hplace⟩ := List.mem_map.mp hmem
  obtain ⟨hid, htask⟩ := Prod.mk.inj hplace
  exact ⟨s', hs', hid, (Prod.mk.inj htask).1⟩

theorem isOpenStep (h : Rewires new db db') (hk : Keyed TaskStep.clientId db'.taskSteps)
    (hkept : Kept db db') {x : ClientId} (hx : db'.IsOpenStep x) : db.IsOpenStep x := by
  obtain ⟨s', hs', rfl, hlive, hopen⟩ := hx
  obtain ⟨s, hs, hplace⟩ := h.exists_step hs'
  have hid : s.clientId = s'.clientId := (Prod.mk.inj hplace).1
  obtain ⟨s₁, hs₁, hid₁, hdel, hterm⟩ := hkept s hs
  obtain rfl := hk.inj hs₁ hs' (hid₁.trans hid)
  refine ⟨s, hs, hid, ?_, ?_⟩
  · by_contra hd
    rw [hdel (by simpa using hd)] at hlive
    cases hlive
  · by_contra ht
    rw [Kept.isTerminal (hterm (by simpa using ht)) (by simpa using ht)] at hopen
    cases hopen

end Rewires

section Transition

variable {step : TaskStep} {t : StepTransition} {new : ClientId → ClientId → Prop}

theorem replaced_rewires {closingId : ClientId} {record : StepStateRecord} {fc fn : Bool} :
    Rewires new db (db.replaced closingId record now fc fn) :=
  ⟨map_updateWhere_of_fixed fun _ _ _ => rfl, rfl, fun _ _ h => .inl h⟩

theorem autoPause_rewires (h : autoPause db limit step t now = .ok db') : Rewires new db db' := by
  rcases autoPause_cases h with ⟨rfl, -⟩ | ⟨row, -, -, -, -, -, -, rfl⟩
  · exact .refl _
  · exact replaced_rewires.trans (.of_frame (settleClosedStepTime_frame _ _ _ _ _) fun _ => rfl)

theorem closeAndOpen_rewires {closing : StepStateRecord}
    (h : closeAndOpen db step closing t now = .ok db') : Rewires new db db' := by
  obtain ⟨-, -, h⟩ := closeAndOpen_eq_ok h
  have hsettled : Rewires new db (db.transitioned step closing t now) :=
    replaced_rewires.trans (.of_frame (settleClosedStepTime_frame _ _ _ _ _) fun _ => rfl)
  exact hsettled.trans (.of_frame (transitionSideEffects_frame h) fun _ => rfl)

theorem transitionStepState_rewires {request : TransitionStepStateRequest}
    {newRecordId autoPauseRecordId : ClientId}
    (h : transitionStepState db ctx request limit now newRecordId autoPauseRecordId = .ok db') :
    Rewires new db db' := by
  obtain ⟨step, -, -, db₁, closing, hpause, -, h⟩ := transitionStepState_eq_ok h
  exact (autoPause_rewires hpause).trans (closeAndOpen_rewires h)

theorem transitionStepStateBatch_rewires {request : BatchTransitionStepStateRequest}
    {newRecordId autoPauseRecordId : ClientId → ClientId}
    (h : transitionStepStateBatch db ctx request limit now newRecordId autoPauseRecordId =
      .ok db') : Rewires new db db' := by
  obtain ⟨-, h⟩ := transitionStepStateBatch_eq_ok h
  refine foldlM_invariant (Rewires new db) (fun db₁ x _ db₂ h₁ hx => h₁.trans ?_) (.refl db) h
  obtain ⟨db₃, hpause, hx⟩ := bind_eq_ok.mp hx
  exact (autoPause_rewires hpause).trans (closeAndOpen_rewires hx)

end Transition

section Edges

variable {new : ClientId → ClientId → Prop}

theorem removeStepDependency_rewires {dependencyId : ClientId}
    (h : removeStepDependency db dependencyId now = .ok db') : Rewires new db db' := by
  obtain ⟨edge, -, -, -, rfl⟩ := removeStepDependency_eq_ok h
  have hedge : Rewires new db (db.removeEdge edge.clientId now) := .of_removed rfl rfl rfl
  split
  · exact hedge
  · refine hedge.trans (.updateStep ?_ _ _)
    exact fun _ => rfl

theorem removeTaskStepsInSession_rewires {taskId : ClientId} {stepIds : List ClientId}
    (h : removeTaskStepsInSession db taskId stepIds now = .ok db') : Rewires new db db' := by
  obtain ⟨-, -, hframe⟩ := removeTaskStepsInSession_eq_ok h
  have hremoved : Rewires new db (db.stepsRemoved taskId stepIds now) := by
    refine .of_removed ?_ rfl rfl
    have hcounted := dropRemovedDependencies_frame ((db.closedOff stepIds now).removeEdges
      (db.edgesTouching stepIds) now) (db.edgesTouching stepIds) stepIds
        (completedIds (db.stepsOfTask taskId stepIds))
    exact (places_of_frame hcounted).trans
      (map_updateWhere_of_fixed (g := TaskStep.place) fun _ _ _ => rfl)
  exact hremoved.trans (.of_frame hframe fun _ => rfl)

theorem addStepDependency_rewires {taskId stepId prerequisiteStepId newEdgeId : ClientId}
    (h : addStepDependency db taskId stepId prerequisiteStepId newEdgeId = .ok db') :
    Rewires (fun x y => x = stepId ∧ y = prerequisiteStepId) db db' ∧
      db.InTask stepId taskId ∧ db.InTask prerequisiteStepId taskId := by
  obtain ⟨s, p, db₁, hs, hp, h₁, rfl⟩ := addStepDependency_eq_ok h
  obtain ⟨hs, hsid, hst, -⟩ := fetchStepOfTask_eq_some hs
  obtain ⟨hp, hpid, hpt, -⟩ := fetchStepOfTask_eq_some hp
  refine ⟨.trans (.insertDependency h₁ ⟨hsid, hpid⟩) (.updateStep ?_ _ _), ⟨s, hs, hsid, hst⟩,
    ⟨p, hp, hpid, hpt⟩⟩
  exact fun _ => rfl

/-- The pairs that the rules of a section connect: its open steps, each with the steps of its task
in the prerequisite sections. -/
def Db.RulePair (db : Db) (sectionId : ClientId) (prerequisiteIds : List ClientId)
    (x y : ClientId) : Prop :=
  ∃ s ∈ db.taskSteps, ∃ p ∈ db.taskSteps, s.clientId = x ∧ p.clientId = y ∧
    s.workingSectionId = sectionId ∧ s.isOpenStep ∧ p.taskId = s.taskId ∧
    p.workingSectionId ∈ prerequisiteIds

theorem addEdgesForSections_rewires {sectionId : ClientId} {addedSectionIds : List ClientId}
    {newEdgeId : ClientId → ClientId → ClientId}
    (h : addEdgesForSections db sectionId addedSectionIds newEdgeId = .ok db') :
    Rewires (db.RulePair sectionId addedSectionIds) db db' := by
  refine foldlM_invariant (Rewires (db.RulePair sectionId addedSectionIds) db) ?_ (.refl db) h
  rintro t ⟨s, p⟩ hpair t' hrewires ht
  obtain ⟨s', hs, hp⟩ := List.mem_flatMap.mp hpair
  obtain ⟨p', hp, heq⟩ := List.mem_map.mp hp
  cases heq
  obtain ⟨hs, hsp⟩ := List.mem_filter.mp hs
  obtain ⟨hp, hpp⟩ := List.mem_filter.mp hp
  simp only [Bool.and_eq_true, beq_iff_eq, Bool.not_eq_true', List.contains_iff_mem] at hsp hpp
  dsimp only at ht
  split at ht
  · cases ht
    exact hrewires
  · obtain ⟨t₁, ht₁, ht⟩ := bind_eq_ok.mp ht
    cases ht
    refine hrewires.trans (.trans (.insertDependency ht₁ ?_) (.updateStep ?_ _ _))
    · exact ⟨s, hs, p, hp, rfl, rfl, hsp.1.1, ⟨hsp.1.2, hsp.2⟩, hpp.1.1, hpp.1.2⟩
    · exact fun _ => rfl

theorem removeEdgesForSections_frame (db : Db) (sectionId : ClientId) (removedIds : List ClientId)
    (now : Instant) : CountFrame db (removeEdgesForSections db sectionId removedIds now) :=
  .foldl (fun db _ => dropEdge_frame db _ _ now) _ _

theorem removeEdgesForSections_rewires (db : Db) (sectionId : ClientId)
    (removedIds : List ClientId) (now : Instant) :
    Rewires new db (removeEdgesForSections db sectionId removedIds now) := by
  rw [removeEdgesForSections]
  generalize db.edgesForSections sectionId removedIds = edges
  induction edges generalizing db with
  | nil => exact .refl db
  | cons edge edges ih =>
    have hedge : Rewires new db (db.removeEdge edge.clientId now) := .of_removed rfl rfl rfl
    refine .trans (hedge.trans (.updateStep ?_ _ edge.dependentStepId)) (ih _)
    exact fun _ => rfl

theorem editWorkingSectionDependencies_rewires {sectionId : ClientId} {depIds : List ClientId}
    {newEdgeId : ClientId → ClientId → ClientId}
    (h : editWorkingSectionDependencies db sectionId depIds now newEdgeId = .ok db') :
    Rewires (db.RulePair sectionId (depIds.filter fun id => id ∉ db.prerequisiteSections sectionId))
      (db.withPrerequisiteSections sectionId depIds) db' := by
  have hadd := addEdgesForSections_rewires (editWorkingSectionDependencies_eq_ok h)
  refine (removeEdgesForSections_rewires _ _ _ _).trans (hadd.mono fun x y hxy => ?_)
  obtain ⟨s, hs, p, hp, rfl, rfl, hsection, hopen, htask, hprerequisite⟩ := hxy
  have hframe := removeEdgesForSections_frame
    (db.withPrerequisiteSections sectionId depIds) sectionId
    ((db.prerequisiteSections sectionId).filter fun id => id ∉ depIds) now
  obtain ⟨s₀, hs₀, hs⟩ := hframe.exists_step hs
  obtain ⟨p₀, hp₀, hp⟩ := hframe.exists_step hp
  obtain ⟨hsid, hst, hss, hsw, -, -, -, hsd⟩ := TaskStep.core_eq (congrArg TaskStep.untimed hs)
  obtain ⟨hpid, hpt, -, hpw, -⟩ := TaskStep.core_eq (congrArg TaskStep.untimed hp)
  exact ⟨s₀, hs₀, p₀, hp₀, hsid, hpid, hsw.trans hsection,
    ⟨hsd.trans hopen.1, (congrArg _ hss).trans hopen.2⟩, hpt.trans (htask.trans hst.symm),
    hpw ▸ hprerequisite⟩

end Edges

section Create

variable {taskId : ClientId} {inputs : List StepInput} {newEdgeId : ClientId → ClientId → ClientId}

theorem createStep_rows {input : StepInput} (h : createStep db ctx taskId input now = .ok db') :
    db'.workingSectionDependencies = db.workingSectionDependencies := by
  obtain ⟨db₁, h₁, h⟩ := bind_eq_ok.mp h
  obtain ⟨-, h₁⟩ := throwIf_bind_eq_ok.mp h₁
  cases h₁
  obtain ⟨db₂, h₂, h⟩ := bind_eq_ok.mp h
  obtain ⟨rfl, -⟩ := insertRecord_eq_ok h₂
  cases h
  rfl

/-- The created steps lie in the task and in the sections of the inputs; no rule and no edge is
written. -/
theorem foldlM_createStep_places
    (h : inputs.foldlM (fun db input => createStep db ctx taskId input now) db = .ok db') :
    (∀ s ∈ db'.taskSteps, s ∈ db.taskSteps ∨ s.clientId ∈ inputs.map StepInput.stepId ∧
      s.taskId = taskId ∧ s.workingSectionId ∈ inputs.map StepInput.workingSectionId) ∧
      db'.workingSectionDependencies = db.workingSectionDependencies ∧
      db'.taskStepDependencies = db.taskStepDependencies := by
  induction inputs generalizing db with
  | nil =>
    cases h
    exact ⟨fun s hs => .inl hs, rfl, rfl⟩
  | cons input inputs ih =>
    obtain ⟨db₁, h₁, h⟩ := foldlM_cons_eq_ok.mp h
    obtain ⟨-, -, hsteps, -, hedges⟩ := createStep_eq_ok h₁
    obtain ⟨hfrom, hrows, hrest⟩ := ih h
    refine ⟨fun s hs => ?_, hrows.trans (createStep_rows h₁), hrest.trans hedges⟩
    rcases hfrom s hs with hs | ⟨hid, htask, hsection⟩
    · rw [hsteps, List.mem_append, List.mem_singleton] at hs
      rcases hs with hs | rfl
      · exact .inl hs
      · exact .inr ⟨List.mem_cons_self, rfl, List.mem_cons_self⟩
    · exact .inr ⟨List.mem_cons_of_mem _ hid, htask, List.mem_cons_of_mem _ hsection⟩

theorem wireBatchSteps_rewires {newSteps : List TaskStep}
    (h : wireBatchSteps db newSteps taskId newEdgeId = .ok db') :
    Rewires (fun x y => ∃ wired ∈ computeDependencyEdges newSteps
      (db.existingSteps taskId newSteps (db.dependencyRows newSteps)) (db.dependencyRows newSteps),
        wired.1.clientId = x ∧ ∃ p ∈ wired.2, p.clientId = y) db db' := by
  refine foldlM_invariant (Rewires _ db) (fun t wired hw t' ht hw' => ht.trans ?_) (.refl db) h
  refine .trans (.updateStep ?_ t wired.1.clientId) (foldlM_invariant (Rewires _ _)
    (fun u p hp u' hu hp' => hu.trans ?_) (.refl _) hw')
  · exact fun _ => rfl
  · exact .insertDependency hp' ⟨wired, hw, rfl, p, hp, rfl⟩

theorem rule_of_mem_prerequisiteSteps {rows : List WorkingSectionDependency}
    {steps : List TaskStep} {s p : TaskStep} (h : p ∈ prerequisiteSteps rows steps s) :
    ∃ d ∈ rows, d.dependentSectionId = s.workingSectionId ∧
      d.prerequisiteSectionId = p.workingSectionId := by
  obtain ⟨sectionId, hsection, hp⟩ := List.mem_flatMap.mp h
  obtain ⟨d, hd, rfl⟩ := Grouping.mem_keys.mp hsection
  obtain ⟨hd, hdep⟩ := List.mem_filter.mp hd
  have hp := (List.mem_filter.mp hp).2
  exact ⟨d, hd, by simpa using hdep, by simpa using (beq_iff_eq.mp hp).symm⟩

/-- Each new edge follows a rule between steps of the task, and one of its ends is new. -/
theorem wired_edge {newSteps : List TaskStep} {wired : TaskStep × List TaskStep} {p : TaskStep}
    (hw : wired ∈ computeDependencyEdges newSteps
      (db.existingSteps taskId newSteps (db.dependencyRows newSteps)) (db.dependencyRows newSteps))
    (hp : p ∈ wired.2) (hnew : ∀ s ∈ newSteps, s ∈ db.taskSteps ∧ s.taskId = taskId) :
    (wired.1 ∈ newSteps ∨ p ∈ newSteps) ∧
      (wired.1 ∈ db.taskSteps ∧ wired.1.taskId = taskId) ∧
      (p ∈ db.taskSteps ∧ p.taskId = taskId) ∧
      db.SectionRow wired.1.workingSectionId p.workingSectionId := by
  have hexisting : ∀ s ∈ db.existingSteps taskId newSteps (db.dependencyRows newSteps),
      s ∈ db.taskSteps ∧ s.taskId = taskId := by
    intro s hs
    obtain ⟨hs, hp⟩ := List.mem_filter.mp hs
    simp only [Bool.and_eq_true, beq_iff_eq] at hp
    exact ⟨hs, hp.1.1.1⟩
  have hrow : ∀ {s p : TaskStep} {steps : List TaskStep},
      p ∈ prerequisiteSteps (db.dependencyRows newSteps) steps s →
        db.SectionRow s.workingSectionId p.workingSectionId := by
    intro s p steps hp
    obtain ⟨d, hd, hrow⟩ := rule_of_mem_prerequisiteSteps hp
    exact ⟨d, (List.mem_filter.mp hd).1, hrow⟩
  rcases List.mem_append.mp hw with hw | hw
  · obtain ⟨s, hs, rfl⟩ := List.mem_map.mp hw
    have hall := List.mem_append.mp (mem_prerequisiteSteps hp)
    exact ⟨.inl hs, hnew s hs, hall.elim (hexisting p) (hnew p), hrow hp⟩
  · obtain ⟨s, hs, rfl⟩ := List.mem_map.mp hw
    have hnewp := mem_prerequisiteSteps hp
    exact ⟨.inr hnewp, hexisting s (List.mem_filter.mp hs).1, hnew p hnewp, hrow hp⟩

/-- What the addition of steps leaves: the steps before and the new ones, and edges by the rules
between a new step and another step of the task. -/
structure Wired (db db' : Db) (taskId : ClientId) (inputs : List StepInput)
    (steps : List TaskStep) : Prop where
  keyed : Keyed TaskStep.clientId steps
  old : ∀ s ∈ db.taskSteps, s ∈ steps ∧ s.clientId ∉ inputs.map StepInput.stepId
  created : ∀ s ∈ steps, s ∉ db.taskSteps → s.clientId ∈ inputs.map StepInput.stepId ∧
    s.taskId = taskId ∧ s.workingSectionId ∈ inputs.map StepInput.workingSectionId
  rest : db'.taskSteps.map TaskStep.uncounted = steps.map TaskStep.uncounted
  rows : db'.workingSectionDependencies = db.workingSectionDependencies
  edges : ∀ x y, db'.ActiveEdge x y → db.ActiveEdge x y ∨ ∃ s ∈ steps, ∃ p ∈ steps,
    s.clientId = x ∧ p.clientId = y ∧ (s ∉ db.taskSteps ∨ p ∉ db.taskSteps) ∧
      s.taskId = taskId ∧ p.taskId = taskId ∧
      db.SectionRow s.workingSectionId p.workingSectionId

theorem addTaskSteps_wired (chain : ChainInv db)
    (h : addTaskSteps db ctx taskId inputs now newEdgeId = .ok db') :
    ∃ steps, Wired db db' taskId inputs steps := by
  have hk := (addTaskSteps_keeps chain h).1.keyedSteps
  obtain ⟨db₁, h₁, db₂, hframe, h⟩ := addTaskSteps_eq_ok h
  obtain ⟨hfrom, hrows, hedges⟩ := foldlM_createStep_places h₁
  obtain ⟨hold, -, hfresh⟩ := foldlM_createStep_eq_ok h₁
  have hfresh : ∀ s ∈ db.taskSteps, s.clientId ∉ inputs.map StepInput.stepId := by
    intro s hs hmem
    obtain ⟨input, hinput, hid⟩ := List.mem_map.mp hmem
    exact hfresh input hinput s hs hid.symm
  have hsteps : db₂.taskSteps = db₁.taskSteps := by simpa using hframe.steps
  have hrows₂ : db₂.workingSectionDependencies = db.workingSectionDependencies := by
    rw [hframe.rest, hrows]
  have hcount := wireBatchSteps_frame h
  have hrewires := wireBatchSteps_rewires h
  have hcreated : ∀ s ∈ db₂.taskSteps, s ∉ db.taskSteps →
      s.clientId ∈ inputs.map StepInput.stepId ∧ s.taskId = taskId ∧
        s.workingSectionId ∈ inputs.map StepInput.workingSectionId :=
    fun s hs hno => (hfrom s (hsteps ▸ hs)).resolve_left hno
  have hnew : ∀ s ∈ db₂.taskSteps.filter fun s =>
      (inputs.map StepInput.stepId).contains s.clientId, s ∉ db.taskSteps := by
    intro s hs hmem
    exact hfresh s hmem (List.contains_iff_mem.mp (List.mem_filter.mp hs).2)
  refine ⟨db₂.taskSteps, ?_, fun s hs => ⟨hsteps ▸ hold s hs, hfresh s hs⟩, hcreated, hcount.steps,
    hrewires.rows.trans hrows₂, fun x y hxy => ?_⟩
  · refine hk.of_map_eq ?_
    have hids := congrArg (List.map TaskStep.clientId) hcount.steps
    rw [List.map_map, List.map_map] at hids
    exact hids.symm
  · rcases hrewires.edges x y hxy with hxy | ⟨wired, hw, rfl, p, hp, rfl⟩
    · rw [Db.ActiveEdge, hframe.taskStepDependencies, hedges] at hxy
      exact .inl hxy
    · obtain ⟨hends, hs, hp, hrow⟩ := wired_edge hw hp fun s hs =>
        ⟨(List.mem_filter.mp hs).1,
          (hcreated s (List.mem_filter.mp hs).1 (hnew s hs)).2.1⟩
      rw [Db.SectionRow, hrows₂] at hrow
      exact .inr ⟨wired.1, hs.1, p, hp.1, rfl, rfl, hends.imp (hnew _) (hnew _), hs.2, hp.2, hrow⟩

end Create

end BeyoManager.TaskSteps
