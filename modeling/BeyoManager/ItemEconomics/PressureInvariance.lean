import BeyoManager.ItemEconomics.Conservation
import BeyoManager.ItemEconomics.RemainingProductionPressure

/-! # Progress within an allowance

The worked seconds of an open step reach the division only through its own row, and the
pressure reads them there only once they pass the step's allowance. Until then nobody's
share moves.
-/

namespace BeyoManager.ItemEconomics

open TaskSteps Transition Grouping Sorting

section View

structure PressureView where
  stepId : String
  excluded : Bool
  opened : Bool
  consuming : Bool
  allowance : Option ℤ
  /-- The seconds that are charged: those of a settled or of a consuming step. -/
  charged : ℤ

def pressureView (r : StepRow) : PressureView where
  stepId := r.stepId
  excluded := r.isExcluded
  opened := r.isOpen
  consuming := r.isConsuming
  allowance := r.allowanceSeconds
  charged := if r.isOpen && !r.isConsuming then 0 else r.workedSeconds

variable {steps steps' : List StepRow}
  (hview : steps.map pressureView = steps'.map pressureView)

include hview

theorem view_participating :
    (participatingRows steps).map pressureView = (participatingRows steps').map pressureView := by
  have hfilter : ∀ rows : List StepRow, (participatingRows rows).map pressureView =
      (rows.map pressureView).filter fun v => !v.excluded := by
    intro rows
    rw [List.filter_map]
    rfl
  rw [hfilter, hfilter, hview]

theorem view_consuming :
    (consumingRows steps).map pressureView = (consumingRows steps').map pressureView := by
  have hfilter : ∀ rows : List StepRow, (consumingRows rows).map pressureView =
      (((participatingRows rows).map pressureView).filter PressureView.opened).filter
        PressureView.consuming := by
    intro rows
    rw [List.filter_map, List.filter_map]
    rfl
  rw [hfilter, hfilter, view_participating hview]

theorem view_allocatable :
    (allocatableRows steps).map pressureView = (allocatableRows steps').map pressureView := by
  have hfilter : ∀ rows : List StepRow, (allocatableRows rows).map pressureView =
      (((participatingRows rows).map pressureView).filter PressureView.opened).filter
        fun v => !v.consuming := by
    intro rows
    rw [List.filter_map, List.filter_map]
    rfl
  rw [hfilter, hfilter, view_participating hview]

theorem view_charged :
    (chargedRows steps).map pressureView = (chargedRows steps').map pressureView := by
  have hfilter : ∀ rows : List StepRow, (chargedRows rows).map pressureView =
      ((participatingRows rows).map pressureView).filter (fun v => !v.opened) ++
        (consumingRows rows).map pressureView := by
    intro rows
    rw [List.filter_map, chargedRows, List.map_append]
    rfl
  rw [hfilter, hfilter, view_participating hview, view_consuming hview]

theorem sum_charged :
    ((chargedRows steps).map StepRow.workedSeconds).sum =
      ((chargedRows steps').map StepRow.workedSeconds).sum := by
  have hcharged : ∀ rows : List StepRow, (chargedRows rows).map StepRow.workedSeconds =
      ((chargedRows rows).map pressureView).map PressureView.charged := by
    intro rows
    rw [List.map_map]
    refine List.map_congr_left fun r hr => ?_
    have hsettled : r.isOpen = false ∨ r.isConsuming = true := by
      simp only [chargedRows, consumingRows, List.mem_append, List.mem_filter,
        Bool.not_eq_true'] at hr
      exact hr.imp And.right And.right
    rcases hsettled with h | h <;> simp [pressureView, h]
  rw [hcharged, hcharged, view_charged hview]

omit hview in
theorem zeroShares_congr {rows rows' : List StepRow}
    (h : rows.map pressureView = rows'.map pressureView) (shares : List (String × Option ℤ)) :
    zeroShares shares rows = zeroShares shares rows' := by
  have hids : ∀ rows : List StepRow, zeroShares shares rows =
      (rows.map pressureView).foldl (fun shares v => Dict.set shares v.stepId (some 0)) shares := by
    intro rows
    rw [List.foldl_map]
    rfl
  rw [hids, hids, h]

theorem mapM_allowance_congr :
    (allocatableRows steps).mapM StepRow.allowance =
      (allocatableRows steps').mapM StepRow.allowance := by
  have hallowance : ∀ rows : List StepRow, rows.mapM StepRow.allowance =
      (rows.map pressureView).mapM fun v => getOr LookupError.typeError v.allowance := by
    intro rows
    rw [List.mapM_map]
    rfl
  rw [hallowance, hallowance, view_allocatable hview]

theorem pressureShares_congr (shares : List (String × Option ℤ)) (ratio : ℚ) (remaining : ℤ) :
    pressureShares steps shares ratio remaining = pressureShares steps' shares ratio remaining := by
  have hraw : ∀ rows : List StepRow, rows.mapM (rawPressureShare ratio) =
      (rows.map pressureView).mapM fun v =>
        (getOr LookupError.typeError v.allowance).bind fun allowance : ℤ =>
          .ok (v.stepId, (allowance : ℚ) * ratio) := by
    intro rows
    rw [List.mapM_map]
    rfl
  have hshares : ∀ rows : List StepRow, pressureShares rows shares ratio remaining = (do
      let rawShares ← (allocatableRows rows).mapM (rawPressureShare ratio)
      let allocated ← largestRemainder (Dict.ofList rawShares)
        (Dict.getItem LookupError.keyError
          (Dict.ofList ((rows.map pressureView).zipIdx.map fun e => (e.1.stepId, e.2)))) remaining
      pure (Dict.update shares (allocated.map fun e => (e.1, some e.2)))) := by
    intro rows
    rw [List.zipIdx_map, List.map_map]
    rfl
  rw [hshares, hshares, hraw, hraw, view_allocatable hview, hview]

end View

theorem computeRemainingPressure_congr {d d' : Division}
    (hdistributable : d.distributableSeconds = d'.distributableSeconds)
    (hview : d.steps.map pressureView = d'.steps.map pressureView) :
    computeRemainingPressure d = computeRemainingPressure d' := by
  have hnone : ∀ rows : List StepRow, (rows.map fun step => (step.stepId, (none : Option ℤ))) =
      (rows.map pressureView).map fun v => (v.stepId, none) := by
    intro rows
    rw [List.map_map]
    rfl
  have hnil : allocatableRows d.steps = [] ↔ allocatableRows d'.steps = [] := by
    rw [← List.map_eq_nil_iff (f := pressureView), view_allocatable hview, List.map_eq_nil_iff]
  unfold computeRemainingPressure
  simp only [hdistributable, hnone, hview, zeroShares_congr (view_consuming hview),
    zeroShares_congr (view_allocatable hview), hnil, sum_charged hview,
    mapM_allowance_congr hview, pressureShares_congr hview]

section Progress

/-- A change of the worked seconds of open steps, and of nothing else. -/
structure OpenProgress (f : DivisionStep → DivisionStep) : Prop where
  worked_only : ∀ step, f step = { step with totalWorkingSeconds := (f step).totalWorkingSeconds }
  settled : ∀ step, step.state.isTerminal → f step = step

variable {f : DivisionStep → DivisionStep} (hf : OpenProgress f)

def progressGroup (f : DivisionStep → DivisionStep) (g : SectionGroup) : SectionGroup :=
  { g with
    steps := g.steps.map f
    workedSeconds := ((g.steps.map f).map DivisionStep.totalWorkingSeconds).sum }

include hf

theorem OpenProgress.clientId (step : DivisionStep) : (f step).clientId = step.clientId := by
  rw [hf.worked_only]

theorem OpenProgress.state (step : DivisionStep) : (f step).state = step.state := by
  rw [hf.worked_only]

theorem OpenProgress.isDeleted (step : DivisionStep) : (f step).isDeleted = step.isDeleted := by
  rw [hf.worked_only]

theorem OpenProgress.workingSectionId (step : DivisionStep) :
    (f step).workingSectionId = step.workingSectionId := by
  rw [hf.worked_only]

theorem OpenProgress.nameSnapshot (step : DivisionStep) :
    (f step).workingSectionNameSnapshot = step.workingSectionNameSnapshot := by
  rw [hf.worked_only]

theorem OpenProgress.createdAt (step : DivisionStep) : (f step).createdAt = step.createdAt := by
  rw [hf.worked_only]

theorem OpenProgress.latestStateEnteredAt (step : DivisionStep) :
    (f step).latestStateEnteredAt = step.latestStateEnteredAt := by
  rw [hf.worked_only]

theorem OpenProgress.sortKey (step : DivisionStep) : sortKey (f step) = sortKey step := by
  rw [hf.worked_only]
  rfl

theorem OpenProgress.filter_state (p : TaskStepState → Bool) (steps : List DivisionStep) :
    (steps.map f).filter (fun step => p step.state) =
      (steps.filter fun step => p step.state).map f := by
  rw [List.filter_map]
  simp only [Function.comp_def, hf.state]

theorem OpenProgress.map_settled {steps : List DivisionStep}
    (h : ∀ step ∈ steps, step.state.isTerminal) : steps.map f = steps := by
  calc steps.map f = steps.map id := List.map_congr_left fun step hstep =>
        hf.settled step (h step hstep)
    _ = steps := List.map_id _

/-- The governing step is chosen by instants and ids. -/
theorem OpenProgress.governingStep (steps : List DivisionStep) :
    governingStep (steps.map f) = (governingStep steps).map f := by
  have hids : ∀ l : List DivisionStep,
      sortBy DivisionStep.clientId (l.map f) = (sortBy DivisionStep.clientId l).map f := fun l =>
    (map_sortBy f DivisionStep.clientId fun a _ b _ => by rw [hf.clientId, hf.clientId]).symm
  have hcreated : ∀ l : List DivisionStep,
      sortByDescending (fun step => timeKey step.createdAt) (l.map f) =
        (sortByDescending (fun step => timeKey step.createdAt) l).map f := fun l =>
    (map_sortByDescending f _ fun a => by rw [hf.createdAt]).symm
  have hentered : ∀ l : List DivisionStep,
      sortByDescending (fun step => timeKey step.latestStateEnteredAt) (l.map f) =
        (sortByDescending (fun step => timeKey step.latestStateEnteredAt) l).map f := fun l =>
    (map_sortByDescending f _ fun a => by rw [hf.latestStateEnteredAt]).symm
  have hcandidates : (if (steps.map f).filter (fun step => !step.state.isTerminal) = [] then
      steps.map f else (steps.map f).filter fun step => !step.state.isTerminal) =
      (if steps.filter (fun step => !step.state.isTerminal) = [] then steps
        else steps.filter fun step => !step.state.isTerminal).map f := by
    simp only [hf.filter_state fun state => !state.isTerminal, List.map_eq_nil_iff]
    split <;> rfl
  unfold ItemEconomics.governingStep
  simp only [hcandidates, hids, hcreated, hentered]
  split <;> rename_i h
  · rw [List.map_eq_nil_iff] at h
    rw [h]
    rfl
  · obtain ⟨step, rest, hcons, rfl, -⟩ := List.map_eq_cons_iff.mp h
    rw [hcons]
    rfl

theorem OpenProgress.sectionGroup
    (sectionAttributes : Option (String → Option SectionAttributes)) (id : String)
    (steps : List DivisionStep) :
    sectionGroup sectionAttributes id (steps.map f) =
      (sectionGroup sectionAttributes id steps).map (progressGroup f) := by
  have hheading : sectionHeading sectionAttributes id (steps.map f) =
      sectionHeading sectionAttributes id steps := by
    unfold sectionHeading
    cases steps with
    | nil => rfl
    | cons step steps => simp only [List.map_cons, hf.nameSnapshot]
  have hids : (steps.map f).map DivisionStep.clientId = steps.map DivisionStep.clientId := by
    rw [List.map_map]
    exact List.map_congr_left fun step _ => hf.clientId step
  have hname : (steps.map f).findSome? DivisionStep.workingSectionNameSnapshot =
      steps.findSome? DivisionStep.workingSectionNameSnapshot := by
    rw [List.findSome?_map]
    exact congrArg (fun g => steps.findSome? g) (funext hf.nameSnapshot)
  unfold ItemEconomics.sectionGroup
  rw [hheading, hf.governingStep]
  cases sectionHeading sectionAttributes id steps with
  | error e => rfl
  | ok heading =>
    cases ItemEconomics.governingStep steps with
    | error e => rfl
    | ok governing =>
      simp only [bind, Except.bind, Except.map, pure, Except.pure, progressGroup, hids, hname,
        hf.state, hf.latestStateEnteredAt, hf.nameSnapshot, List.length_map]

theorem OpenProgress.groupStepsBySection
    (sectionAttributes : Option (String → Option SectionAttributes)) (steps : List DivisionStep) :
    groupStepsBySection (steps.map f) sectionAttributes =
      (groupStepsBySection steps sectionAttributes).map (List.map (progressGroup f)) := by
  have hlive : (steps.map f).filter (fun step => !step.isDeleted) =
      (steps.filter fun step => !step.isDeleted).map f := by
    rw [List.filter_map]
    simp only [Function.comp_def, hf.isDeleted]
  have hkeys : ∀ l : List DivisionStep, keys DivisionStep.workingSectionId (l.map f) =
      keys DivisionStep.workingSectionId l := by
    intro l
    rw [keys, keys, List.map_map]
    exact congrArg _ (List.map_congr_left fun step _ => hf.workingSectionId step)
  have hgroup : ∀ (l : List DivisionStep) (id : String),
      group DivisionStep.workingSectionId (l.map f) id =
        (group DivisionStep.workingSectionId l id).map f := by
    intro l id
    rw [group, List.filter_map]
    simp only [Function.comp_def, hf.workingSectionId]
    rfl
  unfold ItemEconomics.groupStepsBySection
  simp only [hlive, hkeys, hgroup, hf.sectionGroup]
  exact mapM_map_ok

/-- The allowances of a section's steps do not depend on what its open steps worked. -/
theorem OpenProgress.sectionStepAllowances (g : SectionGroup) (allowance : ℤ) :
    sectionStepAllowances (progressGroup f g) allowance = sectionStepAllowances g allowance := by
  have hallocatable : allocatable (progressGroup f g) = (allocatable g).map f :=
    hf.filter_state (fun state => !isExcluded state) g.steps
  have hcompleted : (allocatable (progressGroup f g)).filter (fun step => step.state = .completed) =
      (allocatable g).filter fun step => step.state = .completed := by
    rw [hallocatable, hf.filter_state fun state => state = .completed]
    apply hf.map_settled
    intro step hstep
    have hstate : step.state = .completed := by simpa using (List.mem_filter.mp hstep).2
    rw [hstate]
    rfl
  have hopen : (allocatable (progressGroup f g)).filter (fun step => !step.state.isTerminal) =
      ((allocatable g).filter fun step => !step.state.isTerminal).map f := by
    rw [hallocatable, hf.filter_state fun state => !state.isTerminal]
  have hkey : ∀ l : List DivisionStep, openStepKey (l.map f) = openStepKey l := by
    intro l
    funext id
    have hfind : (l.map f).find? (fun step => step.clientId = id) =
        (l.find? fun step => step.clientId = id).map f := by
      rw [List.find?_map]
      simp only [Function.comp_def, hf.clientId]
    unfold openStepKey
    rw [hfind]
    cases l.find? fun step => step.clientId = id with
    | none => rfl
    | some step => exact congrArg Except.ok (hf.sortKey step)
  unfold ItemEconomics.sectionStepAllowances
  rw [hcompleted, hopen]
  unfold splitAllowance
  simp only [List.map_map, Function.comp_def, hf.clientId, List.length_map, hkey, ne_eq,
    List.map_eq_nil_iff]

theorem OpenProgress.charged (steps : List DivisionStep) :
    (((steps.map f).filter fun step => isExcluded step.state).map
        DivisionStep.totalWorkingSeconds).sum =
      ((steps.filter fun step => isExcluded step.state).map
        DivisionStep.totalWorkingSeconds).sum := by
  rw [hf.filter_state, hf.map_settled]
  intro step hstep
  have hexcluded : isExcluded step.state := by simpa using (List.mem_filter.mp hstep).2
  revert hexcluded
  cases step.state <;> decide

theorem OpenProgress.participatingSections (steps : List DivisionStep) :
    participatingSections (steps.map f) = participatingSections steps := by
  unfold ItemEconomics.participatingSections
  rw [List.filter_map, List.map_map]
  simp only [Function.comp_def, hf.isDeleted, hf.state, hf.workingSectionId]

omit hf in
theorem rawSectionShares_progress (groups : List SectionGroup) (distributable : ℤ)
    (typicals : String → Option SelectedTypical) :
    rawSectionShares (groups.map (progressGroup f)) distributable typicals =
      rawSectionShares groups distributable typicals := by
  have hweights : resolvedWeights (groups.map (progressGroup f)) typicals =
      resolvedWeights groups typicals := by
    unfold resolvedWeights
    simp only [List.map_map, List.zip_map_left, Function.comp_def]
    rfl
  unfold rawSectionShares
  rw [hweights]
  simp only [List.mapM_map]
  rfl

end Progress

section Rows

variable {f : DivisionStep → DivisionStep} (hf : OpenProgress f)
  {typicals : String → Option SelectedTypical}

/-- What a row shows of its step: its place and what the pressure reads. -/
def placedView (p : DivisionStep × StepRow) : (Bool ×ₗ ℤ ×ₗ String) × PressureView :=
  (sortKey p.1, pressureView p.2)

def KeepsWithin (f : DivisionStep → DivisionStep) (p : DivisionStep × StepRow) : Prop :=
  f p.1 = p.1 ∨ (¬ p.2.isConsuming ∧ ∀ a ∈ p.2.allowanceSeconds, (f p.1).totalWorkingSeconds ≤ a)

include hf

theorem divideStep_progress {split : List (String × ℤ)} {sectionState sectionState' : ShareState}
    (hstate : sectionState ≠ .excluded) (hstate' : sectionState' ≠ .excluded)
    {step : DivisionStep} {p : DivisionStep × StepRow}
    (h : divideStep split sectionState typicals step = .ok p) (hwithin : KeepsWithin f p) :
    ∃ p', divideStep split sectionState' typicals (f step) = .ok p' ∧
      placedView p' = placedView p := by
  unfold divideStep at h ⊢
  rw [hf.state, hf.clientId]
  split_ifs at h ⊢ with hexcluded
  · obtain rfl := Except.ok.inj h
    have hsettled : f step = step := hf.settled step (by
      revert hexcluded
      cases step.state <;> decide)
    exact ⟨_, rfl, by rw [hsettled]⟩
  · simp only [bind_eq_ok, pure, Except.pure, Except.ok.injEq] at h
    obtain ⟨a, hget, rfl⟩ := h
    refine ⟨_, bind_eq_ok.mpr ⟨a, hget, rfl⟩, ?_⟩
    have hexcl : (sectionState' == ShareState.excluded) =
      (sectionState == ShareState.excluded) := by
      simp [hstate, hstate']
    rcases hwithin with hsame | ⟨hconsuming, hle⟩
    · simp only at hsame
      simp [placedView, pressureView, stepResult, StepRow.isExcluded, StepRow.isOpen,
        StepRow.isConsuming, hsame, hexcl]
    · by_cases hopen : step.state.isTerminal
      · simp [placedView, pressureView, stepResult, StepRow.isExcluded, StepRow.isOpen,
          StepRow.isConsuming, hf.settled step hopen, hexcl]
      · have hworked := hle a rfl
        simp only at hworked
        have hnot : ¬ a < step.totalWorkingSeconds := by
          simpa [StepRow.isConsuming, StepRow.isOpen, stepResult, hopen] using hconsuming
        simp [placedView, pressureView, stepResult, StepRow.isExcluded, StepRow.isOpen,
          StepRow.isConsuming, hf.sortKey, hf.clientId, hf.state, hopen, hexcl]
        omega

theorem placedView_unallocated (step : DivisionStep) (shareState : ShareState) :
    placedView (f step, stepResult (f step) none none shareState typicals) =
      placedView (step, stepResult step none none shareState typicals) := by
  by_cases hopen : step.state.isTerminal
  · rw [hf.settled step hopen]
  · simp [placedView, pressureView, stepResult, StepRow.isExcluded, StepRow.isOpen,
      StepRow.isConsuming, hf.sortKey, hf.clientId, hf.state, hopen]

theorem divideSection_progress {allocated allocated' : List SectionGroup}
    {allowances : List (String × ℤ)} {g : SectionGroup}
    {x : SectionRow × List (DivisionStep × StepRow)}
    (hmem : progressGroup f g ∈ allocated' ↔ g ∈ allocated)
    (h : divideSection allocated allowances typicals g = .ok x)
    (hwithin : ∀ p ∈ x.2, KeepsWithin f p) :
    ∃ x', divideSection allocated' allowances typicals (progressGroup f g) = .ok x' ∧
      x'.2.map placedView = x.2.map placedView := by
  unfold divideSection at h ⊢
  by_cases hout : g ∉ allocated
  · rw [if_pos hout] at h
    rw [if_pos (hmem.not.mpr hout)]
    obtain rfl := Except.ok.inj h
    refine ⟨_, rfl, ?_⟩
    simp only [progressGroup, List.map_map]
    exact List.map_congr_left fun step _ => placedView_unallocated hf step .excluded
  · rw [if_neg hout] at h
    rw [if_neg (hmem.not.not.mpr hout)]
    simp only [bind_eq_ok, pure, Except.pure, Except.ok.injEq] at h
    obtain ⟨allowance, hget, split, hsplit, rows, hrows, rfl⟩ := h
    obtain ⟨rows', hrows', hviews⟩ := mapM_simulate placedView
      (fun step => divideStep split
        (if allowance < (progressGroup f g).workedSeconds then .overShare else .onTrack) typicals
        (f step)) hrows
      (fun step _ p hp hstep => divideStep_progress hf (by split <;> simp) (by split <;> simp)
        hstep (hwithin p hp))
    refine ⟨_, bind_eq_ok.mpr ⟨allowance, hget, bind_eq_ok.mpr ⟨split, ?_, bind_eq_ok.mpr
      ⟨rows', ?_, rfl⟩⟩⟩, hviews⟩
    · rw [hf.sectionStepAllowances]
      exact hsplit
    · change (g.steps.map f).mapM _ = _
      rw [List.mapM_map]
      exact hrows'

omit hf in
theorem stepId_of_divideStep {split : List (String × ℤ)} {sectionState : ShareState}
    {step : DivisionStep} {p : DivisionStep × StepRow}
    (h : divideStep split sectionState typicals step = .ok p) : p.2.stepId = p.1.clientId := by
  unfold divideStep at h
  split_ifs at h
  · obtain rfl := Except.ok.inj h
    rfl
  · simp only [bind_eq_ok, pure, Except.pure, Except.ok.injEq] at h
    obtain ⟨a, -, rfl⟩ := h
    rfl

omit hf in
theorem stepId_of_divideSection {allocated : List SectionGroup} {allowances : List (String × ℤ)}
    {g : SectionGroup} {x : SectionRow × List (DivisionStep × StepRow)}
    (h : divideSection allocated allowances typicals g = .ok x) :
    ∀ p ∈ x.2, p.2.stepId = p.1.clientId := by
  intro p hp
  unfold divideSection at h
  split at h
  · obtain rfl := Except.ok.inj h
    obtain ⟨step, -, rfl⟩ := List.mem_map.mp hp
    rfl
  · simp only [bind_eq_ok, pure, Except.pure, Except.ok.injEq] at h
    obtain ⟨allowance, -, split, -, rows, hrows, rfl⟩ := h
    obtain ⟨step, -, hstep⟩ := mapM_mem hrows p hp
    exact stepId_of_divideStep hstep

omit hf in
theorem sortedStepRows_congr {rows rows' : List (DivisionStep × StepRow)}
    (h : rows'.map placedView = rows.map placedView) :
    (sortedStepRows rows').map pressureView = (sortedStepRows rows).map pressureView := by
  have hviews : ∀ rows : List (DivisionStep × StepRow), (sortedStepRows rows).map pressureView =
      (sortBy Prod.fst (rows.map placedView)).map Prod.snd := by
    intro rows
    have hsort : (sortBy (fun row => sortKey row.1) rows).map placedView =
        sortBy Prod.fst (rows.map placedView) :=
          map_sortBy placedView Prod.fst fun _ _ _ _ => Iff.rfl
    rw [← hsort, sortedStepRows, List.map_map, List.map_map]
    rfl
  rw [hviews, hviews, h]

end Rows

section TwoRuns

variable {f : DivisionStep → DivisionStep} {allowedWorkerMinutes : Option ℚ}
  {steps : List DivisionStep} {typicals : String → Option SelectedTypical}
  {sectionAttributes : Option (String → Option SectionAttributes)} {d : Division}

/-- While every changed step keeps within its allowance, the rows look the same. -/
theorem divideProductionBudget_progress (hf : OpenProgress f)
    (h : divideProductionBudget allowedWorkerMinutes steps typicals sectionAttributes = .ok d)
    (hwithin : ∀ step, f step ≠ step → ∀ r ∈ d.steps, r.stepId = step.clientId →
      ¬ r.isConsuming ∧ ∀ a ∈ r.allowanceSeconds, (f step).totalWorkingSeconds ≤ a) :
    ∃ d', divideProductionBudget allowedWorkerMinutes (steps.map f) typicals sectionAttributes =
        .ok d' ∧
      d'.distributableSeconds = d.distributableSeconds ∧
      d'.steps.map pressureView = d.steps.map pressureView := by
  have hlive : (steps.map f).filter (fun step => !step.isDeleted) =
      (steps.filter fun step => !step.isDeleted).map f := by
    rw [List.filter_map]
    simp only [Function.comp_def, hf.isDeleted]
  unfold divideProductionBudget at h ⊢
  simp only [hlive, hf.groupStepsBySection, bind_eq_ok] at h ⊢
  obtain ⟨groups, hgroups, h⟩ := h
  rw [hgroups]
  cases allowedWorkerMinutes with
  | none =>
    obtain rfl := Except.ok.inj h
    refine ⟨_, ⟨_, rfl, rfl⟩, rfl, ?_⟩
    refine sortedStepRows_congr ?_
    rw [List.map_map, List.map_map, List.map_map]
    exact List.map_congr_left fun step _ => placedView_unallocated hf step .noBudget
  | some minutes =>
    simp only [bind_eq_ok, pure, Except.pure, Except.ok.injEq] at h
    obtain ⟨shares, hshares, allowances, hallowances, rows, hrows, rfl⟩ := h
    set live := steps.filter fun step => !step.isDeleted
    set allocated := groups.filter fun g => g.workingSectionId ∈ participatingSections live
      with hallocatedDef
    have hallocated : (groups.map (progressGroup f)).filter
        (fun g => g.workingSectionId ∈ participatingSections live) =
          allocated.map (progressGroup f) := List.filter_map
    have hmem : ∀ g ∈ groups, progressGroup f g ∈ allocated.map (progressGroup f) ↔
        g ∈ allocated := by
      intro g hg
      rw [← hallocated, hallocatedDef, List.mem_filter, List.mem_filter]
      exact and_congr_left fun _ => iff_of_true (List.mem_map_of_mem hg) hg
    have hkeeps : ∀ x ∈ rows, ∀ g, divideSection allocated allowances typicals g = .ok x →
        ∀ p ∈ x.2, KeepsWithin f p := by
      intro x hx g hdivide p hp
      by_cases hsame : f p.1 = p.1
      · exact Or.inl hsame
      · right
        apply hwithin p.1 hsame p.2
        · exact List.mem_map_of_mem (mem_sortBy.mpr (List.mem_flatMap.mpr ⟨x, hx, hp⟩))
        · exact stepId_of_divideSection hdivide p hp
    obtain ⟨rows', hrows', hviews⟩ := mapM_simulate
      (fun x : SectionRow × List (DivisionStep × StepRow) => x.2.map placedView)
      (fun g => divideSection (allocated.map (progressGroup f)) allowances typicals
        (progressGroup f g)) hrows
      fun g hg x hx hdivide => divideSection_progress hf (hmem g hg) hdivide (hkeeps x hx g hdivide)
    have hflat : (rows'.flatMap Prod.snd).map placedView =
        (rows.flatMap Prod.snd).map placedView := by
      rw [List.map_flatMap, List.map_flatMap, List.flatMap_def, List.flatMap_def, hviews]
    refine ⟨_, ⟨_, rfl, bind_eq_ok.mpr ⟨shares, ?_, bind_eq_ok.mpr ⟨allowances, ?_,
      bind_eq_ok.mpr ⟨rows', ?_, rfl⟩⟩⟩⟩, ?_, sortedStepRows_congr hflat⟩
    · rw [hf.participatingSections, hallocated, rawSectionShares_progress, hf.charged]
      exact hshares
    · rw [hf.charged]
      exact hallowances
    · rw [hf.participatingSections, hallocated, List.mapM_map]
      exact hrows'
    · simp only [hf.charged]

/-- Another number of worked seconds for the open step with an id. -/
def workedOn (stepId : String) (worked : ℤ) (step : DivisionStep) : DivisionStep :=
  if step.clientId = stepId ∧ step.state.isTerminal = false then
    { step with totalWorkingSeconds := worked }
  else step

theorem openProgress_workedOn (stepId : String) (worked : ℤ) :
    OpenProgress (workedOn stepId worked) := by
  constructor
  · intro step
    unfold workedOn
    split <;> rfl
  · intro step hsettled
    simp [workedOn, hsettled]

/-- What an allocatable step works within its allowance moves nobody's share of the pressure. -/
theorem pressure_unmoved_within_allowance (allowedWorkerMinutes : Option ℚ)
    (steps : List DivisionStep) (typicals : String → Option SelectedTypical)
    (sectionAttributes : Option (String → Option SectionAttributes)) (d : Division)
    (hdivide : divideProductionBudget allowedWorkerMinutes steps typicals sectionAttributes =
      .ok d)
    (stepId : String) (worked : ℤ)
    (hallocatable : ∀ r ∈ d.steps, r.stepId = stepId →
      r ∈ allocatableRows d.steps ∧ ∀ allowance ∈ r.allowanceSeconds, worked ≤ allowance) :
    ∃ d', divideProductionBudget allowedWorkerMinutes (steps.map (workedOn stepId worked)) typicals
        sectionAttributes = .ok d' ∧
      computeRemainingPressure d' = computeRemainingPressure d := by
  have hwithin : ∀ step, workedOn stepId worked step ≠ step → ∀ r ∈ d.steps,
      r.stepId = step.clientId → ¬ r.isConsuming ∧
        ∀ a ∈ r.allowanceSeconds, (workedOn stepId worked step).totalWorkingSeconds ≤ a := by
    intro step hchanged r hr hid
    unfold workedOn at hchanged ⊢
    split_ifs at hchanged ⊢ with hstep
    · obtain ⟨hmem, hle⟩ := hallocatable r hr (hid.trans hstep.1)
      simp only [allocatableRows, List.mem_filter, Bool.not_eq_true'] at hmem
      exact ⟨by simp [hmem.2], hle⟩
    · exact absurd rfl hchanged
  obtain ⟨d', hd', hdistributable, hview⟩ :=
    divideProductionBudget_progress (openProgress_workedOn stepId worked) hdivide hwithin
  exact ⟨d', hd', computeRemainingPressure_congr hdistributable hview⟩

/-- A step that works five more minutes of its eight. -/
theorem pressure_unmoved_within_allowance_two_steps :
    let steps : List DivisionStep :=
      [⟨"a", .working, "x", 100, some 1, none, false, none, none⟩,
       ⟨"b", .pending, "y", 0, some 2, none, false, none, none⟩,
       ⟨"c", .completed, "y", 700, some 3, none, false, none, none⟩]
    ∃ d d', divideProductionBudget (some 16) steps (fun _ => none) none = .ok d ∧
      divideProductionBudget (some 16) (steps.map (workedOn "a" 400)) (fun _ => none) none =
        .ok d' ∧
      computeRemainingPressure d' = computeRemainingPressure d := by
  intro steps
  have hrun : (divideProductionBudget (some 16) steps (fun _ => none) none).toOption.any
      (fun d => decide (∀ r ∈ d.steps, r.stepId = "a" →
        r ∈ allocatableRows d.steps ∧ ∀ allowance ∈ r.allowanceSeconds, 400 ≤ allowance)) := by
    decide +kernel
  cases hd : divideProductionBudget (some 16) steps (fun _ => none) none with
  | error e => simp [hd, Except.toOption] at hrun
  | ok d =>
    obtain ⟨d', hd', hpressure⟩ := pressure_unmoved_within_allowance (some 16) steps
      (fun _ => none) none d hd "a" 400 (by simpa [hd, Except.toOption] using hrun)
    exact ⟨d, d', rfl, hd', hpressure⟩

end TwoRuns

end BeyoManager.ItemEconomics
