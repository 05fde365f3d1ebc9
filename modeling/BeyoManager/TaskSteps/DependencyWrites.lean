import BeyoManager.TaskSteps.DependencyCounters
import BeyoManager.TaskSteps.StepRuns

/-! # What the step commands do to the counters

New edges are counted with the state that their prerequisite has, except by
`add_step_dependency`. Removed edges are taken off the total; what they had added to the
completed ones stays, as far as the new total allows it.
-/

namespace BeyoManager.TaskSteps

open Relational Transition

variable {db db' : Db} {now : Instant} {ctx : ServiceContext}

section Drop

variable {es : List TaskStepDependency}

/-- Remove some edges, each taken off the counters of its dependent step. -/
def Db.dropEdges (db : Db) (es : List TaskStepDependency) (now : Instant) : Db :=
  es.foldl (fun db e =>
    (db.removeEdge e.clientId now).updateStep e.dependentStepId TaskStep.dropDependency) db

theorem dropEdges_eq (db : Db) (es : List TaskStepDependency) (now : Instant) :
    (db.dropEdges es now).taskSteps = (db.taskSteps.map fun x =>
        TaskStep.dropDependency^[es.countP fun e => e.dependentStepId == x.clientId] x) ∧
      (db.dropEdges es now).taskStepDependencies = updateWhere
        (fun x => es.any fun e => e.clientId == x.clientId)
        (fun x => { x with removedAt := some now }) db.taskStepDependencies := by
  have hstep : ∀ x : TaskStep, x.dropDependency.clientId = x.clientId := fun _ => rfl
  have hedge : ∀ x : TaskStepDependency, { x with removedAt := some now }.clientId = x.clientId :=
    fun _ => rfl
  rw [← foldl_updateWhere_iterate TaskStepDependency.dependentStepId hstep es db.taskSteps,
    ← foldl_updateWhere_of_idempotent TaskStepDependency.clientId hedge (fun _ => rfl) es
      db.taskStepDependencies]
  induction es generalizing db with
  | nil => exact ⟨rfl, rfl⟩
  | cons e es ih => exact ih ((db.removeEdge e.clientId now).updateStep e.dependentStepId _)

/-- The removal of some edges leaves the counters right: no removed edge into a step comes from
a completed prerequisite, or all edges that remain do. -/
def Db.DropsRight (db : Db) (es : List TaskStepDependency) : Prop :=
  ∀ s ∈ db.taskSteps, s.isDeleted = false →
    (∀ e ∈ es, e.dependentStepId = s.clientId → db.comesFromCompleted e = false) ∨
    ∀ e ∈ db.edgesInto s.clientId, e ∉ es → db.comesFromCompleted e = true

instance (db : Db) (es : List TaskStepDependency) : Decidable (db.DropsRight es) :=
  inferInstanceAs (Decidable (∀ s ∈ db.taskSteps, s.isDeleted = false → _))

theorem countP_edgesInto_split (hk : Keyed TaskStepDependency.clientId db.taskStepDependencies)
    (hes : ∀ e ∈ es, e ∈ db.taskStepDependencies ∧ e.isActive = true) (hnodup : es.Nodup)
    (p : TaskStepDependency → Bool) (stepId : ClientId) :
    (db.edgesInto stepId).countP p =
      (es.filter fun e => e.dependentStepId == stepId).countP p +
        ((db.edgesInto stepId).filter fun e => !es.contains e).countP p := by
  have hperm : ((db.edgesInto stepId).filter fun e => es.contains e).Perm
      (es.filter fun e => e.dependentStepId == stepId) := by
    refine (List.perm_ext_iff_of_nodup ((hk.nodup.filter _).filter _) (hnodup.filter _)).mpr ?_
    intro e
    simp only [List.mem_filter, Bool.and_eq_true, List.contains_iff_mem, beq_iff_eq]
    exact ⟨fun h => ⟨h.2, h.1.2.2⟩, fun h => ⟨⟨(hes e h.1).1, (hes e h.1).2, h.2⟩, h.1⟩⟩
  rw [← hperm.countP_eq, List.countP_eq_countP_filter_add _ p fun e => es.contains e]

theorem DependencyInv.dropEdges (inv : DependencyInv db)
    (hes : ∀ e ∈ es, e ∈ db.taskStepDependencies ∧ e.isActive = true) (hnodup : es.Nodup)
    (hright : db.DropsRight es) : DependencyInv (db.dropEdges es now) := by
  obtain ⟨hsteps, hedges⟩ := dropEdges_eq db es now
  have hid : ∀ x : TaskStep, (TaskStep.dropDependency^[es.countP fun e =>
      e.dependentStepId == x.clientId] x).clientId = x.clientId :=
    fun x => apply_iterate_of_fixed (f := TaskStep.dropDependency) (g := TaskStep.clientId)
      (fun _ => rfl) _ x
  have hstate : ∀ x : TaskStep, (TaskStep.dropDependency^[es.countP fun e =>
      e.dependentStepId == x.clientId] x).state = x.state :=
    fun x => apply_iterate_of_fixed (f := TaskStep.dropDependency) (g := TaskStep.state)
      (fun _ => rfl) _ x
  have hdeleted : ∀ x : TaskStep, (TaskStep.dropDependency^[es.countP fun e =>
      e.dependentStepId == x.clientId] x).isDeleted = x.isDeleted :=
    fun x => apply_iterate_of_fixed (f := TaskStep.dropDependency) (g := TaskStep.isDeleted)
      (fun _ => rfl) _ x
  have hmem : ∀ x ∈ db.taskStepDependencies,
      (es.any fun e => e.clientId == x.clientId) = es.contains x := by
    intro x hx
    rw [Bool.eq_iff_iff, List.any_eq_true, List.contains_iff_mem]
    constructor
    · rintro ⟨e, he, heq⟩
      exact inv.keyedEdges.inj (hes e he).1 hx (by simpa using heq) ▸ he
    · exact fun h => ⟨x, h, beq_self_eq_true _⟩
  have hinto : ∀ stepId, (db.dropEdges es now).edgesInto stepId =
      (db.edgesInto stepId).filter fun e => !es.contains e := by
    intro stepId
    rw [Db.edgesInto, hedges, filter_updateWhere_of_not (fun _ _ _ => rfl), Db.edgesInto]
    refine List.filter_congr fun x hx => ?_
    rw [hmem x (List.mem_filter.mp hx).1]
  refine inv.recount hid hdeleted hsteps ?_ (fun e he ha => ?_) fun x hx hlive => ?_
  · rw [hedges]
    exact keyed_update inv.keyedEdges fun _ _ _ => rfl
  · rw [hedges] at he
    obtain ⟨e₀, he₀, rfl⟩ := mem_updateWhere.mp he
    split at ha
    · cases ha
    · rename_i hno
      rw [if_neg hno]
      exact inv.ends e₀ he₀ ha
  · have h := inv.counted x hx hlive
    have htotal := countP_edgesInto_split inv.keyedEdges hes hnodup (fun _ => true) x.clientId
    have hcompleted :=
      countP_edgesInto_split inv.keyedEdges hes hnodup db.comesFromCompleted x.clientId
    simp only [List.countP_true] at htotal
    rw [hinto, comesFromCompleted_map hid hstate hsteps,
      dropDependency_iterate h.readiness h.completed_le, List.countP_eq_length_filter]
    set dropped := es.filter fun e => e.dependentStepId == x.clientId with hdropped
    set kept := (db.edgesInto x.clientId).filter fun e => !es.contains e with hkept
    refine ⟨?_, ?_, rfl⟩
    · change x.totalDependencies - dropped.length = kept.length
      rw [h.total, htotal]
      omega
    · change min x.completedDependencies (x.totalDependencies - dropped.length) =
        kept.countP db.comesFromCompleted
      rw [h.total, h.completed, hcompleted, htotal]
      rcases hright x hx hlive with hnone | hall
      · have hzero : dropped.countP db.comesFromCompleted = 0 := by
          refine List.countP_eq_zero.mpr fun e he => ?_
          obtain ⟨he, hdep⟩ := List.mem_filter.mp he
          simp [hnone e he (by simpa using hdep)]
        have hle : kept.countP db.comesFromCompleted ≤ kept.length := List.countP_le_length
        omega
      · have hlength : kept.countP db.comesFromCompleted = kept.length := by
          refine List.countP_eq_length.mpr fun e he => ?_
          obtain ⟨he, hno⟩ := List.mem_filter.mp he
          exact hall e he (by simpa using hno)
        omega

theorem removeStepDependency_counters (inv : DependencyInv db) {dependencyId : ClientId}
    (hright : ∀ e ∈ db.taskStepDependencies, e.clientId = dependencyId → e.isActive = true →
      db.DropsRight [e])
    (h : removeStepDependency db dependencyId now = .ok db') : DependencyInv db' := by
  obtain ⟨edge, hedge, hid, ha, rfl⟩ := removeStepDependency_eq_ok h
  have hdrop : DependencyInv (db.dropEdges [edge] now) :=
    inv.dropEdges (fun e he => List.mem_singleton.mp he ▸ ⟨hedge, ha⟩) (List.nodup_singleton edge)
      (hright edge hedge hid ha)
  split
  · -- the dependent step of an active edge is there
    rename_i hnone
    obtain ⟨s, hs, hsid, hd⟩ := (inv.ends edge hedge ha).1
    have := List.find?_eq_none.mp hnone s hs
    simp [hsid, hd] at this
  · rename_i step hstep
    rw [(fetchTaskStep_eq_some hstep).2.1]
    exact hdrop

end Drop

section Frame

theorem CountFrame.isCompleted (h : CountFrame db db') (stepId : ClientId) :
    db'.isCompleted stepId = db.isCompleted stepId := by
  have hany : ∀ l : List TaskStep, (l.any fun s => s.clientId == stepId && s.state == .completed) =
      (l.map TaskStep.uncounted).any fun s => s.clientId == stepId && s.state == .completed := by
    intro l
    rw [List.any_map]
    rfl
  rw [Db.isCompleted, hany, h.steps, ← hany, Db.isCompleted]

theorem CountFrame.isLive (h : CountFrame db db') {stepId : ClientId} (hl : db.IsLive stepId) :
    db'.IsLive stepId := by
  obtain ⟨s, hs, hid, hd⟩ := hl
  have hmem : s.uncounted ∈ db.taskSteps.map TaskStep.uncounted := List.mem_map_of_mem hs
  rw [← h.steps] at hmem
  obtain ⟨s₁, hs₁, heq⟩ := List.mem_map.mp hmem
  exact ⟨s₁, hs₁, (congrArg TaskStep.clientId heq).trans hid,
    (congrArg TaskStep.isDeleted heq).trans hd⟩

end Frame

section Insert

theorem foldlM_insertDependency_eq_ok {δ : Type} {mk : δ → TaskStepDependency} {l : List δ}
    (hk : Keyed TaskStepDependency.clientId db.taskStepDependencies)
    (h : l.foldlM (fun db d => db.insertDependency (mk d)) db = .ok db') :
    db' = { db with taskStepDependencies := db.taskStepDependencies ++ l.map mk } ∧
      Keyed TaskStepDependency.clientId (db.taskStepDependencies ++ l.map mk) := by
  induction l generalizing db with
  | nil =>
    cases h
    simpa using hk
  | cons d l ih =>
    obtain ⟨db₁, h₁, h⟩ := foldlM_cons_eq_ok.mp h
    obtain ⟨rfl, hfresh, -⟩ := insertDependency_eq_ok h₁
    have hk₁ : Keyed TaskStepDependency.clientId (db.taskStepDependencies ++ [mk d]) := by
      refine keyed_append.mpr ⟨hk, List.nodup_singleton _, fun x hx y hy => ?_⟩
      obtain rfl := List.mem_singleton.mp hy
      exact hfresh x hx
    have := ih hk₁ h
    simpa [List.append_assoc] using this

/-- New edges into one step, counted in it with the states of their prerequisites. -/
theorem DependencyInv.wire (inv : DependencyInv db) (s : TaskStep) (prereqs : List TaskStep)
    (newEdgeId : ClientId → ClientId) {g : TaskStep → TaskStep} (hlive : db.IsLive s.clientId)
    (hprereqs : ∀ p ∈ prereqs, db.IsLive p.clientId ∧
      db.isCompleted p.clientId = (p.state == .completed))
    (hg : ∀ x, g x = recalculateReadiness { x with
      totalDependencies := x.totalDependencies + prereqs.length
      completedDependencies :=
        x.completedDependencies + prereqs.countP fun p => p.state == .completed })
    (hsteps : db'.taskSteps = updateWhere (fun x => x.clientId == s.clientId) g db.taskSteps)
    (hedges : db'.taskStepDependencies = db.taskStepDependencies ++ prereqs.map fun p =>
      ⟨newEdgeId p.clientId, s.clientId, p.clientId, none⟩)
    (hkeyed : Keyed TaskStepDependency.clientId db'.taskStepDependencies) :
    DependencyInv db' := by
  obtain ⟨s₀, hs₀, hid, hd⟩ := hlive
  have hcount : (prereqs.map fun p => (⟨newEdgeId p.clientId, s.clientId, p.clientId, none⟩ :
      TaskStepDependency)).countP db.comesFromCompleted =
        prereqs.countP fun p => p.state == .completed := by
    rw [List.countP_map]
    exact List.countP_congr fun p hp => by rw [← (hprereqs p hp).2]; rfl
  refine inv.insert hs₀ hd ?_ (fun x => ?_) (hid ▸ hsteps) hedges (hedges ▸ hkeyed)
  · intro e he
    obtain ⟨p, hp, rfl⟩ := List.mem_map.mp he
    exact ⟨rfl, hid.symm, (hprereqs p hp).1⟩
  · rw [hg, hcount, List.length_map]

/-- `add_step_dependency` counts the edge as one that waits for its prerequisite. -/
theorem addStepDependency_counters (inv : DependencyInv db)
    {taskId stepId prerequisiteStepId newEdgeId : ClientId}
    (hopen : ∀ p ∈ db.fetchStepOfTask taskId prerequisiteStepId, p.state ≠ .completed)
    (h : addStepDependency db taskId stepId prerequisiteStepId newEdgeId = .ok db') :
    DependencyInv db' := by
  obtain ⟨s, p, db₁, hs, hp, h₁, rfl⟩ := addStepDependency_eq_ok h
  obtain ⟨rfl, hfresh, -⟩ := insertDependency_eq_ok h₁
  obtain ⟨hsmem, -, -, hsd⟩ := fetchStepOfTask_eq_some hs
  obtain ⟨hpmem, -, -, hpd⟩ := fetchStepOfTask_eq_some hp
  have hstate : (p.state == .completed) = false := beq_eq_false_iff_ne.mpr (hopen p hp)
  refine inv.wire s [p] (fun _ => newEdgeId) ⟨s, hsmem, rfl, hsd⟩ ?_ (fun x => ?_) rfl rfl ?_
  · intro q hq
    obtain rfl := List.mem_singleton.mp hq
    exact ⟨⟨q, hpmem, rfl, hpd⟩, isCompleted_of_mem inv.keyedSteps hpmem⟩
  · simp [hstate]
  · refine keyed_append.mpr ⟨inv.keyedEdges, List.nodup_singleton _, fun x hx y hy => ?_⟩
    obtain rfl := List.mem_singleton.mp hy
    exact hfresh x hx

/-- The edges of a section count their prerequisites as they are. -/
theorem addEdgesForSections_counters (inv : DependencyInv db) {sectionId : ClientId}
    {addedSectionIds : List ClientId} {newEdgeId : ClientId → ClientId → ClientId}
    (h : addEdgesForSections db sectionId addedSectionIds newEdgeId = .ok db') :
    DependencyInv db' := by
  have hpairs : ∀ pair ∈ db.pairsForSections sectionId addedSectionIds,
      db.IsLive pair.1.clientId ∧ db.IsLive pair.2.clientId ∧
        db.isCompleted pair.2.clientId = (pair.2.state == .completed) := by
    rintro ⟨s, p⟩ hpair
    obtain ⟨s', hs, hp⟩ := List.mem_flatMap.mp hpair
    obtain ⟨p', hp, heq⟩ := List.mem_map.mp hp
    cases heq
    obtain ⟨hs, hsd⟩ := List.mem_filter.mp hs
    obtain ⟨hp, hpd⟩ := List.mem_filter.mp hp
    simp only [Bool.and_eq_true, Bool.not_eq_true'] at hsd hpd
    exact ⟨⟨s, hs, rfl, hsd.1.2⟩, ⟨p, hp, rfl, hpd.2⟩, isCompleted_of_mem inv.keyedSteps hp⟩
  refine (foldlM_invariant (fun t => DependencyInv t ∧ CountFrame db t) ?_ ⟨inv, .refl db⟩ h).1
  rintro t ⟨s, p⟩ hpair t' ⟨hinv, hframe⟩ ht
  obtain ⟨hs, hp, hstate⟩ := hpairs (s, p) hpair
  dsimp only at ht
  split at ht
  · cases ht
    exact ⟨hinv, hframe⟩
  · obtain ⟨t₁, ht₁, ht⟩ := bind_eq_ok.mp ht
    cases ht
    have hcount : CountFrame t (t₁.updateStep s.clientId (·.addDependency p.state)) := by
      refine (insertDependency_frame ht₁).trans (.updateStep ?_ t₁ _)
      exact fun x => rfl
    obtain ⟨rfl, hfresh, -⟩ := insertDependency_eq_ok ht₁
    refine ⟨hinv.wire s [p] (newEdgeId s.clientId) (hframe.isLive hs) ?_ (fun x => ?_) rfl rfl ?_,
      hframe.trans hcount⟩
    · intro q hq
      obtain rfl := List.mem_singleton.mp hq
      exact ⟨hframe.isLive hp, (hframe.isCompleted _).trans hstate⟩
    · simp [TaskStep.addDependency, List.countP_singleton]
    · refine keyed_append.mpr ⟨hinv.keyedEdges, List.nodup_singleton _, fun x hx y hy => ?_⟩
      obtain rfl := List.mem_singleton.mp hy
      exact hfresh x hx

theorem editWorkingSectionDependencies_counters (inv : DependencyInv db) {sectionId : ClientId}
    {depIds : List ClientId} {newEdgeId : ClientId → ClientId → ClientId}
    (hright : db.DropsRight (db.edgesForSections sectionId
      ((db.prerequisiteSections sectionId).filter fun id => id ∉ depIds)))
    (h : editWorkingSectionDependencies db sectionId depIds now newEdgeId = .ok db') :
    DependencyInv db' := by
  have hsections : DependencyInv (db.withPrerequisiteSections sectionId depIds) :=
    inv.congr rfl rfl
  refine addEdgesForSections_counters (hsections.dropEdges (fun e he => ?_) ?_ hright)
    (editWorkingSectionDependencies_eq_ok h)
  · obtain ⟨he, hp⟩ := List.mem_filter.mp he
    simp only [Bool.and_eq_true] at hp
    exact ⟨he, hp.1.1⟩
  · exact inv.keyedEdges.nodup.filter _

theorem wireStep_counters (inv : DependencyInv db) {newEdgeId : ClientId → ClientId → ClientId}
    {wired : TaskStep × List TaskStep} (hlive : db.IsLive wired.1.clientId)
    (hprereqs : ∀ p ∈ wired.2, db.IsLive p.clientId ∧
      db.isCompleted p.clientId = (p.state == .completed))
    (h : wireStep newEdgeId db wired = .ok db') : DependencyInv db' := by
  rw [wireStep] at h
  obtain ⟨rfl, hkeyed⟩ := foldlM_insertDependency_eq_ok (by exact inv.keyedEdges) h
  exact inv.wire wired.1 wired.2 (newEdgeId wired.1.clientId) hlive hprereqs (fun _ => rfl) rfl rfl
    hkeyed

theorem mem_prerequisiteSteps {rows : List WorkingSectionDependency} {steps : List TaskStep}
    {s p : TaskStep} (h : p ∈ prerequisiteSteps rows steps s) : p ∈ steps := by
  obtain ⟨sectionId, -, hp⟩ := List.mem_flatMap.mp h
  exact (List.mem_filter.mp hp).1

/-- Wiring steps that are not deleted counts their edges and those of the other steps. -/
theorem wireBatchSteps_counters (inv : DependencyInv db) {newSteps : List TaskStep}
    {taskId : ClientId} {newEdgeId : ClientId → ClientId → ClientId}
    (hnew : ∀ s ∈ newSteps, s ∈ db.taskSteps ∧ s.isDeleted = false)
    (h : wireBatchSteps db newSteps taskId newEdgeId = .ok db') : DependencyInv db' := by
  set existing := db.existingSteps taskId newSteps (db.dependencyRows newSteps) with hexisting
  have hold : ∀ s ∈ existing, s ∈ db.taskSteps ∧ s.isDeleted = false := by
    intro s hs
    obtain ⟨hs, hp⟩ := List.mem_filter.mp hs
    simp only [Bool.and_eq_true, Bool.not_eq_true'] at hp
    exact ⟨hs, hp.1.1.2⟩
  have hall : ∀ s ∈ existing ++ newSteps, s ∈ db.taskSteps ∧ s.isDeleted = false := fun s hs =>
    (List.mem_append.mp hs).elim (hold s) (hnew s)
  have hwired : ∀ wired ∈ computeDependencyEdges newSteps existing (db.dependencyRows newSteps),
      wired.1 ∈ existing ++ newSteps ∧ ∀ p ∈ wired.2, p ∈ existing ++ newSteps := by
    intro wired hw
    rcases List.mem_append.mp hw with hw | hw
    · obtain ⟨s, hs, rfl⟩ := List.mem_map.mp hw
      exact ⟨List.mem_append_right _ hs, fun p hp => mem_prerequisiteSteps hp⟩
    · obtain ⟨s, hs, rfl⟩ := List.mem_map.mp hw
      exact ⟨List.mem_append_left _ (List.mem_filter.mp hs).1,
        fun p hp => List.mem_append_right _ (mem_prerequisiteSteps hp)⟩
  refine (foldlM_invariant (fun t => DependencyInv t ∧ CountFrame db t) ?_ ⟨inv, .refl db⟩ h).1
  rintro t wired hw t' ⟨hinv, hframe⟩ ht
  obtain ⟨hs, hprereqs⟩ := hwired wired hw
  have hlive : ∀ s ∈ existing ++ newSteps, t.IsLive s.clientId := fun s hs =>
    hframe.isLive ⟨s, (hall s hs).1, rfl, (hall s hs).2⟩
  refine ⟨wireStep_counters hinv (hlive _ hs) (fun p hp => ⟨hlive p (hprereqs p hp), ?_⟩) ht,
    hframe.trans (wireStep_frame ht)⟩
  rw [hframe.isCompleted, isCompleted_of_mem inv.keyedSteps (hall p (hprereqs p hp)).1]

end Insert

section Create

/-- A created step starts without edges. -/
theorem createStep_counters (inv : DependencyInv db) {taskId : ClientId} {input : StepInput}
    (h : createStep db ctx taskId input now = .ok db') : DependencyInv db' := by
  obtain ⟨hnew, -, hsteps, -, hedges⟩ := createStep_eq_ok h
  have hlive : ∀ {stepId}, db.IsLive stepId → db'.IsLive stepId := by
    rintro stepId ⟨s, hs, hid, hd⟩
    exact ⟨s, by rw [hsteps]; exact List.mem_append_left _ hs, hid, hd⟩
  have hcompleted : db'.comesFromCompleted = db.comesFromCompleted := by
    funext e
    have hpending : ((input.storedStep db taskId).state == TaskStepState.completed) = false := rfl
    rw [Db.comesFromCompleted, Db.comesFromCompleted, Db.isCompleted, hsteps, List.any_append,
      List.any_cons, hpending, Bool.and_false, List.any_nil, Bool.or_false, Bool.or_false,
      Db.isCompleted]
  have hinto : ∀ stepId, db'.edgesInto stepId = db.edgesInto stepId := fun stepId => by
    rw [Db.edgesInto, hedges, Db.edgesInto]
  refine ⟨?_, hedges ▸ inv.keyedEdges, fun e he ha => ?_, fun s hs hd => ?_⟩
  · rw [hsteps]
    refine keyed_append.mpr ⟨inv.keyedSteps, List.nodup_singleton _, fun s hs s' hs' => ?_⟩
    obtain rfl := List.mem_singleton.mp hs'
    exact hnew s hs
  · rw [hedges] at he
    exact (inv.ends e he ha).imp hlive hlive
  · rw [hsteps, List.mem_append, List.mem_singleton] at hs
    rcases hs with hs | rfl
    · have h := inv.counted s hs hd
      exact ⟨by rw [hinto, h.total], by rw [hinto, hcompleted, h.completed], h.readiness⟩
    · -- an active edge would lead to a step that was there
      have hnone : db.edgesInto input.stepId = [] := by
        refine List.filter_eq_nil_iff.mpr fun e he hp => ?_
        simp only [Bool.and_eq_true, beq_iff_eq] at hp
        obtain ⟨s, hs, hid, -⟩ := (inv.ends e he hp.1).1
        exact hnew s hs (hid.trans hp.2)
      have hid : (input.storedStep db taskId).clientId = input.stepId := rfl
      refine ⟨?_, ?_, rfl⟩
      · rw [hid, hinto, hnone]
        rfl
      · rw [hid, hinto, hnone]
        rfl

/-- The created steps are new and not deleted. -/
theorem foldlM_createStep_eq_ok {taskId : ClientId} {inputs : List StepInput}
    (h : inputs.foldlM (fun db input => createStep db ctx taskId input now) db = .ok db') :
    (∀ s ∈ db.taskSteps, s ∈ db'.taskSteps) ∧
      (∀ s ∈ db'.taskSteps, s ∈ db.taskSteps ∨ s.isDeleted = false) ∧
      ∀ input ∈ inputs, ∀ s ∈ db.taskSteps, s.clientId ≠ input.stepId := by
  induction inputs generalizing db with
  | nil =>
    cases h
    exact ⟨fun s hs => hs, fun s hs => .inl hs, by simp⟩
  | cons input inputs ih =>
    obtain ⟨db₁, h₁, h⟩ := foldlM_cons_eq_ok.mp h
    obtain ⟨hnew, -, hsteps, -⟩ := createStep_eq_ok h₁
    obtain ⟨hold, hfrom, hfresh⟩ := ih h
    have hold₁ : ∀ s ∈ db.taskSteps, s ∈ db₁.taskSteps := fun s hs => by
      rw [hsteps]
      exact List.mem_append_left _ hs
    refine ⟨fun s hs => hold s (hold₁ s hs), fun s hs => ?_, fun i hi s hs => ?_⟩
    · rcases hfrom s hs with hs | hd
      · rw [hsteps, List.mem_append, List.mem_singleton] at hs
        exact hs.imp_right fun he => by rw [he]; rfl
      · exact .inr hd
    · rcases List.mem_cons.mp hi with rfl | hi
      · exact hnew s hs
      · exact hfresh i hi s (hold₁ s hs)

theorem addTaskSteps_counters (inv : DependencyInv db) {taskId : ClientId}
    {inputs : List StepInput} {newEdgeId : ClientId → ClientId → ClientId}
    (h : addTaskSteps db ctx taskId inputs now newEdgeId = .ok db') : DependencyInv db' := by
  obtain ⟨db₁, h₁, db₂, hframe, h⟩ := addTaskSteps_eq_ok h
  have inv₁ : DependencyInv db₁ :=
    foldlM_invariant DependencyInv (fun _ _ _ _ hinv ht => createStep_counters hinv ht) inv h₁
  have inv₂ : DependencyInv db₂ := inv₁.frame (hframe.comp TaskStep.counters)
  refine wireBatchSteps_counters inv₂ (fun s hs => ?_) h
  obtain ⟨hs, hp⟩ := List.mem_filter.mp hs
  refine ⟨hs, ?_⟩
  have hsame : db₂.taskSteps = db₁.taskSteps := by simpa using hframe.steps
  rw [hsame] at hs
  obtain ⟨-, hfrom, hfresh⟩ := foldlM_createStep_eq_ok h₁
  rcases hfrom s hs with hs | hd
  · obtain ⟨input, hinput, hid⟩ := List.mem_map.mp (List.contains_iff_mem.mp hp)
    exact absurd hid.symm (hfresh input hinput s hs)
  · exact hd

end Create

section Remove

variable {taskId : ClientId} {stepIds : List ClientId}

theorem mem_edgesTouching {e : TaskStepDependency} : e ∈ db.edgesTouching stepIds ↔
    e ∈ db.taskStepDependencies ∧ e.isActive = true ∧
      (e.dependentStepId ∈ stepIds ∨ e.prerequisiteStepId ∈ stepIds) := by
  simp [Db.edgesTouching]

theorem countedEdges_edgesTouching {stepId : ClientId} (hstay : stepId ∉ stepIds) :
    countedEdges (db.edgesTouching stepIds) stepIds stepId =
      (db.edgesInto stepId).filter fun e => stepIds.contains e.prerequisiteStepId := by
  rw [countedEdges, Db.edgesTouching, Db.edgesInto, List.filter_filter, List.filter_filter]
  refine List.filter_congr fun e _ => ?_
  by_cases hdep : e.dependentStepId = stepId
  · subst hdep
    cases e.isActive <;> simp [hstay]
  · have hno : (e.dependentStepId == stepId) = false := beq_eq_false_iff_ne.mpr hdep
    simp [hno]

theorem contains_completedIds (hk : Keyed TaskStep.clientId db.taskSteps)
    (hfound : ∀ stepId ∈ stepIds, ∃ s ∈ db.taskSteps, s.clientId = stepId ∧ s.taskId = taskId ∧
      s.isDeleted = false) {stepId : ClientId} (hid : stepId ∈ stepIds) :
    (completedIds (db.stepsOfTask taskId stepIds)).contains stepId = db.isCompleted stepId := by
  obtain ⟨s, hs, rfl, htask, -⟩ := hfound stepId hid
  rw [isCompleted_of_mem hk hs, Bool.eq_iff_iff, List.contains_iff_mem, completedIds,
    List.mem_map]
  constructor
  · rintro ⟨s', hs', hid'⟩
    obtain ⟨hs', hstate⟩ := List.mem_filter.mp hs'
    obtain rfl := hk.inj (List.mem_filter.mp hs').1 hs hid'
    exact hstate
  · intro hstate
    refine ⟨s, List.mem_filter.mpr ⟨List.mem_filter.mpr ⟨hs, ?_⟩, hstate⟩, rfl⟩
    simp [htask, hid]

theorem isCompleted_stepsRemoved {stepId : ClientId} (hstay : stepId ∉ stepIds) :
    (db.stepsRemoved taskId stepIds now).isCompleted stepId = db.isCompleted stepId := by
  rw [(stepsRemoved_frame db taskId stepIds now).isCompleted, Db.isCompleted, Db.isCompleted,
    Db.closedOff, Db.markStepsRemoved, updateWhere, List.any_map]
  refine congrArg (fun p => db.taskSteps.any p) (funext fun s => ?_)
  by_cases hid : s.clientId = stepId
  · simp [hid, hstay]
  · have hno : (s.clientId == stepId) = false := beq_eq_false_iff_ne.mpr hid
    rw [hno, Function.comp_apply, Bool.false_and, Bool.and_eq_false_imp]
    intro h
    split at h <;> simp [hid] at h

theorem isLive_stepsRemoved {stepId : ClientId} (hstay : stepId ∉ stepIds)
    (h : db.IsLive stepId) : (db.stepsRemoved taskId stepIds now).IsLive stepId := by
  obtain ⟨s, hs, rfl, hd⟩ := h
  refine (stepsRemoved_frame db taskId stepIds now).isLive ⟨_, mem_updateWhere_of_mem hs, ?_⟩
  rw [if_neg (by simpa using hstay)]
  exact ⟨rfl, hd⟩

/-- The row of a step that is not removed. -/
theorem mem_stepsRemoved {s' : TaskStep}
    (h : s' ∈ (db.stepsRemoved taskId stepIds now).taskSteps) (hd : s'.isDeleted = false) :
    ∃ s ∈ db.taskSteps, s.isDeleted = false ∧ s.clientId ∉ stepIds ∧
      s' = if countedEdges (db.edgesTouching stepIds) stepIds s.clientId = [] then s else
        s.applyRemovedDependencyCounts
          (countedEdges (db.edgesTouching stepIds) stepIds s.clientId).length
          ((countedEdges (db.edgesTouching stepIds) stepIds s.clientId).countP fun e =>
            (completedIds (db.stepsOfTask taskId stepIds)).contains e.prerequisiteStepId) := by
  obtain ⟨s₁, hs₁, rfl⟩ := mem_updateWhere.mp h
  obtain ⟨s, hs, hid, hrest⟩ :=
    mem_closedOff (show s₁ ∈ (db.closedOff stepIds now).taskSteps from hs₁)
  by_cases hmem : s.clientId ∈ stepIds
  · rw [if_pos hmem] at hrest
    split at hd
    · rw [TaskStep.applyRemovedDependencyCounts, recalculateReadiness] at hd
      cases hrest.1.symm.trans hd
    · cases hrest.1.symm.trans hd
  · rw [if_neg hmem] at hrest
    subst hrest
    have hlive : s₁.isDeleted = false := by
      split at hd
      · exact hd
      · exact hd
    refine ⟨s₁, hs, hlive, hmem, ?_⟩
    by_cases hnil : countedEdges (db.edgesTouching stepIds) stepIds s₁.clientId = []
    · rw [if_pos hnil, if_neg (by simp [hnil])]
    · rw [if_neg hnil, if_pos (by simp [hnil, hlive])]

/-- Removing steps takes the edges from them off the counters as they were counted. -/
theorem stepsRemoved_counters (inv : DependencyInv db)
    (hfound : ∀ stepId ∈ stepIds, ∃ s ∈ db.taskSteps, s.clientId = stepId ∧ s.taskId = taskId ∧
      s.isDeleted = false) : DependencyInv (db.stepsRemoved taskId stepIds now) := by
  have hedge : ∀ e ∈ db.taskStepDependencies, e.isActive = true →
      ((db.edgesTouching stepIds).contains e = true ↔
        e.dependentStepId ∈ stepIds ∨ e.prerequisiteStepId ∈ stepIds) := by
    intro e he ha
    rw [List.contains_iff_mem, mem_edgesTouching]
    exact ⟨fun h => h.2.2, fun h => ⟨he, ha, h⟩⟩
  have hinto : ∀ stepId, stepId ∉ stepIds →
      (db.stepsRemoved taskId stepIds now).edgesInto stepId =
        (db.edgesInto stepId).filter fun e => !stepIds.contains e.prerequisiteStepId := by
    intro stepId hstay
    have hnot : (db.stepsRemoved taskId stepIds now).edgesInto stepId =
        (db.edgesInto stepId).filter fun e => !(db.edgesTouching stepIds).contains e := by
      rw [Db.edgesInto, Db.edgesInto]
      exact filter_updateWhere_of_not fun _ _ _ => rfl
    rw [hnot]
    refine List.filter_congr fun e he => ?_
    obtain ⟨he, ha, hdep⟩ := mem_edgesInto.mp he
    have := hedge e he ha
    rw [hdep] at this
    rw [Bool.not_inj_iff, Bool.eq_iff_iff, this, List.contains_iff_mem]
    exact or_iff_right hstay
  refine ⟨keyed_update (keyed_update inv.keyedSteps fun _ _ _ => rfl) fun _ _ _ => rfl,
    keyed_update inv.keyedEdges fun _ _ _ => rfl, fun e he ha => ?_, fun s' hs' hd' => ?_⟩
  · obtain ⟨e₀, he₀, rfl⟩ := mem_updateWhere.mp he
    split at ha
    · cases ha
    · rename_i hno
      rw [if_neg hno]
      rw [hedge e₀ he₀ ha, not_or] at hno
      exact (inv.ends e₀ he₀ ha).imp (isLive_stepsRemoved hno.1) (isLive_stepsRemoved hno.2)
  · obtain ⟨s, hs, hd, hstay, hrow⟩ := mem_stepsRemoved hs' hd'
    have h := inv.counted s hs hd
    have hid : s'.clientId = s.clientId := by
      rw [hrow]
      split <;> rfl
    rw [countedEdges_edgesTouching hstay] at hrow
    set gone := (db.edgesInto s.clientId).filter fun e => stepIds.contains e.prerequisiteStepId
      with hgone
    set kept := (db.edgesInto s.clientId).filter fun e => !stepIds.contains e.prerequisiteStepId
      with hkept
    have hlength : gone.length + kept.length = s.totalDependencies := by
      have hsplit := List.countP_eq_countP_filter_add (db.edgesInto s.clientId) (fun _ => true)
        fun e => stepIds.contains e.prerequisiteStepId
      simp only [List.countP_true] at hsplit
      rw [h.total, hsplit]
    have hcompleted : gone.countP db.comesFromCompleted + kept.countP db.comesFromCompleted =
        s.completedDependencies := by
      rw [h.completed]
      exact (List.countP_eq_countP_filter_add _ _ _).symm
    have hcounted : (gone.countP fun e =>
        (completedIds (db.stepsOfTask taskId stepIds)).contains e.prerequisiteStepId) =
          gone.countP db.comesFromCompleted :=
      List.countP_congr fun e he => by
        rw [contains_completedIds inv.keyedSteps hfound (by simpa using (List.mem_filter.mp he).2)]
        rfl
    have hafter : kept.countP (db.stepsRemoved taskId stepIds now).comesFromCompleted =
        kept.countP db.comesFromCompleted :=
      List.countP_congr fun e he => by
        have hno : e.prerequisiteStepId ∉ stepIds := by simpa using (List.mem_filter.mp he).2
        rw [Db.comesFromCompleted, isCompleted_stepsRemoved hno, Db.comesFromCompleted]
    have hle : kept.countP db.comesFromCompleted ≤ kept.length := List.countP_le_length
    rw [hcounted] at hrow
    by_cases hnil : gone = []
    · rw [if_pos hnil] at hrow
      subst hrow
      rw [hnil, List.length_nil] at hlength
      rw [hnil, List.countP_nil] at hcompleted
      refine ⟨?_, ?_, h.readiness⟩
      · rw [hinto _ hstay, ← hkept]
        omega
      · rw [hinto _ hstay, ← hkept, hafter]
        omega
    · rw [if_neg hnil] at hrow
      refine ⟨?_, ?_, by rw [hrow]; rfl⟩
      · rw [hid, hinto _ hstay, ← hkept, hrow]
        change s.totalDependencies - gone.length = kept.length
        omega
      · rw [hid, hinto _ hstay, ← hkept, hafter, hrow]
        change min (s.completedDependencies - gone.countP db.comesFromCompleted)
          (s.totalDependencies - gone.length) = kept.countP db.comesFromCompleted
        omega

theorem removeTaskStepsInSession_counters (inv : DependencyInv db)
    (h : removeTaskStepsInSession db taskId stepIds now = .ok db') : DependencyInv db' := by
  obtain ⟨hfound, -, hframe⟩ := removeTaskStepsInSession_eq_ok h
  exact (stepsRemoved_counters inv hfound).frame (hframe.comp TaskStep.counters)

end Remove

end BeyoManager.TaskSteps
