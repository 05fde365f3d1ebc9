import BeyoManager.ItemEconomics.Apportionment

/-! # Conservation of the production budget

A division hands out exactly the distributable seconds: over the participating
sections, each within a second of its exact share, and again over the steps of each
section. No lookup or index fails on the way.
-/

namespace BeyoManager.ItemEconomics

open TaskSteps Transition Grouping Sorting

section Groups

variable {steps : List DivisionStep}
  {sectionAttributes : Option (String → Option SectionAttributes)}

structure IsGroupOf (steps : List DivisionStep) (g : SectionGroup) : Prop where
  mem_keys : g.workingSectionId ∈ keys DivisionStep.workingSectionId steps
  steps_eq : g.steps = group DivisionStep.workingSectionId steps g.workingSectionId
  worked_eq : g.workedSeconds = (g.steps.map DivisionStep.totalWorkingSeconds).sum

variable (sectionAttributes) in
theorem sectionGroup_spec {sectionId : String}
    (h : sectionId ∈ keys DivisionStep.workingSectionId steps) :
    ∃ g, sectionGroup sectionAttributes sectionId
        (group DivisionStep.workingSectionId steps sectionId) = .ok g ∧
      g.workingSectionId = sectionId ∧ IsGroupOf steps g := by
  have hne : group DivisionStep.workingSectionId steps sectionId ≠ [] :=
    fun he => group_eq_nil.mp he h
  obtain ⟨governing, _, hgov⟩ := governingStep_mem hne
  obtain ⟨heading, hheading⟩ : ∃ heading, sectionHeading sectionAttributes sectionId
      (group DivisionStep.workingSectionId steps sectionId) = .ok heading := by
    unfold sectionHeading
    split
    · split <;> exact ⟨_, rfl⟩
    · split
      · rename_i hnil
        exact absurd hnil hne
      · exact ⟨_, rfl⟩
  simp only [sectionGroup, hheading, hgov, bind, Except.bind, pure, Except.pure]
  exact ⟨_, rfl, rfl, h, rfl, rfl⟩

variable (sectionAttributes) in
theorem groupStepsBySection_spec (hlive : ∀ step ∈ steps, step.isDeleted = false) :
    ∃ gs, groupStepsBySection steps sectionAttributes = .ok gs ∧
      gs.map SectionGroup.workingSectionId = keys DivisionStep.workingSectionId steps ∧
      ∀ g ∈ gs, IsGroupOf steps g := by
  have hfilter : steps.filter (fun step => !step.isDeleted) = steps :=
    List.filter_eq_self.mpr fun step hstep => by simp [hlive step hstep]
  obtain ⟨g, hg, hall⟩ := mapM_exists (P := fun id g => SectionGroup.workingSectionId g = id ∧
    IsGroupOf steps g) fun id hid => sectionGroup_spec sectionAttributes hid
  refine ⟨_, by rw [groupStepsBySection, hfilter]; exact hg, ?_, fun x hx => ?_⟩
  · rw [List.map_map]
    exact (List.map_congr_left fun id hid => (hall id hid).1).trans (List.map_id _)
  · obtain ⟨id, hid, rfl⟩ := List.mem_map.mp hx
    exact (hall id hid).2

end Groups

section Weights

/-- A section's weight: its typical time when that is positive, else the fallback. -/
def sectionWeight (typicals : String → Option SelectedTypical) (fallback : ℚ)
    (sectionId : String) : ℚ :=
  (usableValue ((typicals sectionId).bind SelectedTypical.typicalWorkerSeconds)).getD fallback

/-- The fallback: the median of the positive typical times, one second when there is none. -/
def IsFallback (typicals : String → Option SelectedTypical) (sectionIds : List String)
    (fallback : ℚ) : Prop :=
  let usable := usableValues (sectionIds.map fun id =>
    (typicals id).bind SelectedTypical.typicalWorkerSeconds)
  if usable = [] then fallback = 1 else median usable = .ok fallback

theorem usableValue_pos {value : Option ℤ} {v : ℚ} (h : usableValue value = some v) : 0 < v := by
  obtain ⟨n, hn, rfl⟩ := Option.map_eq_some_iff.mp h
  have : 0 < n := by simpa using (Option.filter_eq_some_iff.mp hn).2
  exact_mod_cast this

theorem median_pos {values : List ℚ} (hne : values ≠ []) (hpos : ∀ v ∈ values, 0 < v) :
    ∃ m, median values = .ok m ∧ 0 < m := by
  have hlen : (sortBy id values).length = values.length := (sortBy_perm _ _).length_eq
  have hpos' : ∀ v ∈ sortBy id values, 0 < v := fun v hv => hpos v (mem_sortBy.mp hv)
  have h0 : 0 < (sortBy id values).length := hlen ▸ List.length_pos_iff.mpr hne
  have hupper : (sortBy id values).length / 2 < (sortBy id values).length := by omega
  have hlower : (sortBy id values).length / 2 - 1 < (sortBy id values).length := by omega
  simp only [median, List.getElem?_eq_getElem hupper, List.getElem?_eq_getElem hlower]
  split
  · exact ⟨_, rfl, hpos' _ (List.getElem_mem hupper)⟩
  · have h1 := hpos' _ (List.getElem_mem hlower)
    have h2 := hpos' _ (List.getElem_mem hupper)
    exact ⟨_, rfl, by linarith⟩

theorem exists_fallback (typicals : String → Option SelectedTypical) (sectionIds : List String) :
    ∃ fallback, IsFallback typicals sectionIds fallback ∧ 0 < fallback := by
  unfold IsFallback
  by_cases h : usableValues (sectionIds.map fun id =>
      (typicals id).bind SelectedTypical.typicalWorkerSeconds) = []
  · exact ⟨1, by simp [h], one_pos⟩
  · obtain ⟨m, hm, hpos⟩ := median_pos h fun v hv => by
      obtain ⟨value, _, hv⟩ := List.mem_filterMap.mp hv
      exact usableValue_pos hv
    exact ⟨m, by simpa [h] using hm, hpos⟩

theorem sectionWeight_pos {typicals : String → Option SelectedTypical} {fallback : ℚ}
    (h : 0 < fallback) (sectionId : String) : 0 < sectionWeight typicals fallback sectionId := by
  rw [sectionWeight]
  cases hv : usableValue ((typicals sectionId).bind SelectedTypical.typicalWorkerSeconds) with
  | none => exact h
  | some v => exact usableValue_pos hv

theorem applyBusinessFallback_eq {typicals : String → Option SelectedTypical}
    {sectionIds : List String} {fallback : ℚ} (h : IsFallback typicals sectionIds fallback) :
    applyBusinessFallback (sectionIds.map fun id =>
        (typicals id).bind SelectedTypical.typicalWorkerSeconds) 1 =
      .ok (sectionIds.map (sectionWeight typicals fallback)) := by
  unfold IsFallback at h
  have hmap : ∀ fallback, (sectionIds.map fun id =>
      (typicals id).bind SelectedTypical.typicalWorkerSeconds).map (fun value =>
        (usableValue value).getD fallback) =
          sectionIds.map (sectionWeight typicals fallback) := fun fallback => List.map_map
  rw [applyBusinessFallback]
  simp only at h
  split at h
  · rename_i hu
    rw [if_pos hu, h]
    exact congrArg Except.ok (hmap 1)
  · rename_i hu
    rw [if_neg hu, h]
    exact congrArg Except.ok (hmap fallback)

variable {allocated : List SectionGroup} {typicals : String → Option SelectedTypical}
  {fallback : ℚ} (hn : (allocated.map SectionGroup.workingSectionId).Nodup)
  (hfallback : IsFallback typicals (allocated.map SectionGroup.workingSectionId) fallback)

include hn hfallback

theorem resolvedWeights_eq : resolvedWeights allocated typicals =
    .ok (allocated.map fun g => (g.workingSectionId,
      sectionWeight typicals fallback g.workingSectionId)) := by
  have hresolved := applyBusinessFallback_eq hfallback
  rw [List.map_map, List.map_map] at hresolved
  have hzip : ((allocated.zip (allocated.map (sectionWeight typicals fallback ∘
      SectionGroup.workingSectionId))).map fun entry => (entry.1.workingSectionId, entry.2)) =
        allocated.map fun g => (g.workingSectionId,
          sectionWeight typicals fallback g.workingSectionId) := by
    rw [List.zip_map_right, List.zip_eq_zipWith, List.zipWith_self, List.map_map, List.map_map]
    rfl
  rw [resolvedWeights]
  change applyBusinessFallback (allocated.map ((fun id =>
    (typicals id).bind SelectedTypical.typicalWorkerSeconds) ∘
      SectionGroup.workingSectionId)) 1 >>= _ = _
  rw [hresolved]
  change Except.ok (Dict.ofList _) = _
  rw [hzip, Dict.ofList_eq_self (by rwa [List.map_map])]

/-- The exact shares are proportional to the weights. -/
theorem rawSectionShares_eq (hpos : 0 < fallback) (distributable : ℤ) :
    rawSectionShares allocated distributable typicals =
      .ok (allocated.map fun g => (g.workingSectionId,
        (distributable : ℚ) * sectionWeight typicals fallback g.workingSectionId /
          (allocated.map fun g => sectionWeight typicals fallback g.workingSectionId).sum)) := by
  have htotal : ((allocated.map fun g => (g.workingSectionId,
      sectionWeight typicals fallback g.workingSectionId)).map Prod.snd).sum =
        (allocated.map fun g => sectionWeight typicals fallback g.workingSectionId).sum := by
    rw [List.map_map]
    rfl
  have hshares : allocated.mapM (rawShare (allocated.map fun g => (g.workingSectionId,
      sectionWeight typicals fallback g.workingSectionId)) distributable) =
      .ok (allocated.map fun g => (g.workingSectionId,
        (distributable : ℚ) * sectionWeight typicals fallback g.workingSectionId /
          (allocated.map fun g => sectionWeight typicals fallback g.workingSectionId).sum)) := by
    refine mapM_eq_ok fun g hg => ?_
    have hne : (allocated.map fun g =>
        sectionWeight typicals fallback g.workingSectionId).sum ≠ 0 := by
      refine (List.sum_pos _ (fun x hx => ?_) ?_).ne'
      · obtain ⟨g, _, rfl⟩ := List.mem_map.mp hx
        exact sectionWeight_pos hpos _
      · simpa using List.ne_nil_of_mem hg
    simp only [rawShare, htotal, Dict.getItem_map _ _ hn hg, bind, Except.bind, if_neg hne]
    rfl
  simp only [rawSectionShares, resolvedWeights_eq hn hfallback, bind, Except.bind, hshares]
  exact congrArg Except.ok (Dict.ofList_eq_self (by rwa [List.map_map]))

end Weights

section Rows

variable (steps : List DivisionStep)

/-- The steps that are not deleted. -/
def liveSteps : List DivisionStep := steps.filter fun step => !step.isDeleted

/-- The sections of the live steps that have a step to pay for. -/
def participatingIds : List String :=
  (keys DivisionStep.workingSectionId (liveSteps steps)).filter fun id =>
    id ∈ participatingSections steps

/-- What is left of the budget once the excluded steps are paid. -/
def distributable (minutes : ℚ) : ℤ :=
  max 0 (budgetSeconds minutes - (((liveSteps steps).filter fun step => isExcluded step.state).map
    DivisionStep.totalWorkingSeconds).sum)

def exactShare (minutes : ℚ) (typicals : String → Option SelectedTypical) (fallback : ℚ)
    (sectionId : String) : ℚ :=
  (distributable steps minutes : ℚ) * sectionWeight typicals fallback sectionId /
    ((participatingIds steps).map (sectionWeight typicals fallback)).sum

def splitRows (d : Division) (row : SectionRow) : List StepRow :=
  d.steps.filter fun r =>
    r.workingSectionId = row.group.workingSectionId && !isExcluded r.state

/-- What the division of a budget promises. -/
structure Conserves (minutes : ℚ) (typicals : String → Option SelectedTypical) (d : Division) :
    Prop where
  /-- There is one row for each live step. -/
  step_rows : (d.steps.map fun r => (r.stepId, r.state, r.workingSectionId, r.workedSeconds)).Perm
    ((liveSteps steps).map fun step =>
      (step.clientId, step.state, step.workingSectionId, step.totalWorkingSeconds))
  /-- There is one row for each section of the live steps. -/
  section_rows : (d.sections.map fun row => row.group.workingSectionId).Perm
    (keys DivisionStep.workingSectionId (liveSteps steps))
  section_groups : ∀ row ∈ d.sections, IsGroupOf (liveSteps steps) row.group
  distributable_eq : d.distributableSeconds = some (distributable steps minutes)
  /-- Every participating section gets its exact share, to within a second. -/
  section_share : ∃ fallback, IsFallback typicals (participatingIds steps) fallback ∧
    ∀ row ∈ d.sections, row.group.workingSectionId ∈ participatingSections steps →
      ∃ a : ℤ, row.allowanceSeconds = some a ∧ 0 ≤ a ∧
        |(a : ℚ) - exactShare steps minutes typicals fallback row.group.workingSectionId| < 1
  /-- The participating sections together get the distributable seconds. -/
  sections_sum : participatingSections steps ≠ [] →
    ((d.sections.filter fun row => row.group.workingSectionId ∈ participatingSections steps).map
      fun row => row.allowanceSeconds.getD 0).sum = distributable steps minutes
  /-- The split steps of a participating section together get its allowance. -/
  split_sum : ∀ row ∈ d.sections, row.group.workingSectionId ∈ participatingSections steps →
    (∀ r ∈ splitRows d row, ∃ a : ℤ, r.allowanceSeconds = some a) ∧
      row.allowanceSeconds =
        some ((splitRows d row).map fun r => r.allowanceSeconds.getD 0).sum
  section_excluded : ∀ row ∈ d.sections,
    row.group.workingSectionId ∉ participatingSections steps → row.allowanceSeconds = none
  step_excluded : ∀ r ∈ d.steps, isExcluded r.state → r.allowanceSeconds = none
  section_left : ∀ row ∈ d.sections,
    row.leftSeconds = row.allowanceSeconds.map fun a => a - row.group.workedSeconds
  step_left : ∀ r ∈ d.steps, r.leftSeconds = r.allowanceSeconds.map fun a => a - r.workedSeconds

variable {steps}

structure SectionDivided (allowance : Option ℤ) (g : SectionGroup)
    (result : SectionRow × List (DivisionStep × StepRow)) : Prop where
  group_eq : result.1.group = g
  allowance_eq : result.1.allowanceSeconds = allowance
  section_left : result.1.leftSeconds = allowance.map fun a => a - g.workedSeconds
  steps_eq : result.2.map Prod.fst = g.steps
  row_eq : ∀ r ∈ result.2, r.2.stepId = r.1.clientId ∧ r.2.state = r.1.state ∧
    r.2.workingSectionId = r.1.workingSectionId ∧ r.2.workedSeconds = r.1.totalWorkingSeconds
  step_left : ∀ r ∈ result.2,
    r.2.leftSeconds = r.2.allowanceSeconds.map fun a => a - r.2.workedSeconds
  step_excluded : ∀ r ∈ result.2, isExcluded r.2.state → r.2.allowanceSeconds = none
  split_sum : allowance.isSome →
    (∀ r ∈ (result.2.map Prod.snd).filter (fun r => !isExcluded r.state),
      ∃ a : ℤ, r.allowanceSeconds = some a) ∧
    allowance = some (((result.2.map Prod.snd).filter fun r => !isExcluded r.state).map
      fun r => r.allowanceSeconds.getD 0).sum

theorem divideSection_excluded {allocated : List SectionGroup} {allowances : List (String × ℤ)}
    {typicals : String → Option SelectedTypical} {g : SectionGroup} (h : g ∉ allocated) :
    ∃ result, divideSection allocated allowances typicals g = .ok result ∧
      SectionDivided none g result := by
  refine ⟨_, if_pos h, ?_⟩
  refine ⟨rfl, rfl, rfl, ?_, ?_, ?_, ?_, fun hs => Bool.noConfusion hs⟩
  · rw [List.map_map]
    exact List.map_id _
  all_goals
    intro r hr
    obtain ⟨step, _, rfl⟩ := List.mem_map.mp hr
  · exact ⟨rfl, rfl, rfl, rfl⟩
  · rfl
  · exact fun _ => rfl

theorem divideSection_allocated {allocated : List SectionGroup} {allowances : List (String × ℤ)}
    {typicals : String → Option SelectedTypical} {g : SectionGroup} (h : g ∈ allocated)
    {allowance : ℤ}
    (hget : Dict.getItem LookupError.keyError allowances g.workingSectionId = .ok allowance)
    (hn : (g.steps.map DivisionStep.clientId).Nodup) (hne : allocatable g ≠ []) :
    ∃ result, divideSection allocated allowances typicals g = .ok result ∧
      SectionDivided (some allowance) g result := by
  obtain ⟨split, part, hsplit, hpart, hsum⟩ := sectionStepAllowances_spec hn hne allowance
  let share : DivisionStep → Option ℤ := fun step =>
    if isExcluded step.state then none else some (part step)
  let state : ShareState := if allowance < g.workedSeconds then .overShare else .onTrack
  let rowOf : DivisionStep → DivisionStep × StepRow := fun step =>
    (step, stepResult step (share step) ((share step).map fun a => a - step.totalWorkingSeconds)
      (if isExcluded step.state then .excluded else state) typicals)
  have hrows : g.steps.mapM (divideStep split state typicals) = .ok (g.steps.map rowOf) := by
    refine mapM_eq_ok fun step hstep => ?_
    by_cases he : isExcluded step.state
    · simp [divideStep, he, rowOf, share]
    · have hmem : step ∈ allocatable g := List.mem_filter.mpr ⟨hstep, by simpa using he⟩
      simp only [divideStep, he, hpart step hmem, bind, Except.bind, rowOf, share]
      rfl
  refine ⟨(⟨g, some allowance, some (allowance - g.workedSeconds), state⟩, g.steps.map rowOf),
    ?_, rfl, rfl, rfl, ?_, ?_, ?_, ?_, fun _ => ?_⟩
  · simp only [divideSection, if_neg (not_not_intro h), hget, bind, Except.bind, hsplit]
    rw [hrows]
    rfl
  · rw [List.map_map]
    exact List.map_id _
  · intro r hr
    obtain ⟨step, _, rfl⟩ := List.mem_map.mp hr
    exact ⟨rfl, rfl, rfl, rfl⟩
  · intro r hr
    obtain ⟨step, _, rfl⟩ := List.mem_map.mp hr
    rfl
  · intro r hr
    obtain ⟨step, _, rfl⟩ := List.mem_map.mp hr
    exact fun he => if_pos he
  · have hfilter : ((g.steps.map rowOf).map Prod.snd).filter (fun r => !isExcluded r.state) =
        (allocatable g).map fun step => (rowOf step).2 := by
      rw [List.map_map, List.filter_map]
      rfl
    have hshare : ∀ step ∈ allocatable g, (rowOf step).2.allowanceSeconds = some (part step) := by
      intro step hstep
      have he : ¬ isExcluded step.state := by simpa using (List.mem_filter.mp hstep).2
      exact if_neg he
    rw [hfilter]
    refine ⟨fun r hr => ?_, ?_⟩
    · obtain ⟨step, hstep, rfl⟩ := List.mem_map.mp hr
      exact ⟨_, hshare step hstep⟩
    · rw [List.map_map, ← hsum]
      refine congrArg (fun l => some (List.sum l)) (List.map_congr_left fun step hstep => ?_)
      change _ = ((rowOf step).2.allowanceSeconds).getD 0
      rw [hshare step hstep]
      rfl

end Rows

section Assembly

variable {steps : List DivisionStep} {gs : List SectionGroup}

theorem participatingSections_liveSteps :
    participatingSections (liveSteps steps) = participatingSections steps := by
  rw [participatingSections, participatingSections, liveSteps, List.filter_filter]
  congr 1
  exact List.filter_congr fun step _ => by cases step.isDeleted <;> simp

theorem allocatable_ne_nil {g : SectionGroup} (hg : IsGroupOf (liveSteps steps) g)
    (h : g.workingSectionId ∈ participatingSections steps) : allocatable g ≠ [] := by
  obtain ⟨step, hstep, hid⟩ := List.mem_map.mp h
  obtain ⟨hmem, hstate⟩ := List.mem_filter.mp hstep
  obtain ⟨hd, he⟩ := Bool.and_eq_true_iff.mp hstate
  refine List.ne_nil_of_mem (a := step) (List.mem_filter.mpr ⟨?_, he⟩)
  rw [hg.steps_eq]
  exact mem_group.mpr ⟨List.mem_filter.mpr ⟨hmem, hd⟩, hid⟩

theorem sectionAllowances_spec (shares : List (String × ℚ)) (total : ℤ)
    (hn : (shares.map Prod.fst).Nodup)
    (hsum : shares ≠ [] → (shares.map Prod.snd).sum = total) :
    ∃ share : String → ℤ,
      largestRemainder shares (fun sectionId => .ok sectionId) total =
        .ok (shares.map fun e => (e.1, share e.1)) ∧
      (shares ≠ [] → (shares.map fun e => share e.1).sum = total) ∧
      ∀ e ∈ shares, |(share e.1 : ℚ) - e.2| < 1 ∧ (0 ≤ e.2 → 0 ≤ share e.1) := by
  by_cases h : shares = []
  · subst h
    refine ⟨fun _ => 0, ?_, fun h => absurd rfl h, by simp⟩
    have hslice : ∀ n, slice ([] : List String) n = [] := fun n => by simp [slice]
    simp [largestRemainder, sortBy, hslice, bind, Except.bind, pure, Except.pure]
  · obtain ⟨share, hshare, htotal, hall⟩ := largestRemainder_spec (fun sectionId => .ok sectionId)
      id hn (fun _ _ => rfl) (hsum h)
    exact ⟨share, hshare, fun _ => htotal, hall⟩

theorem exactShare_nonneg {minutes : ℚ} {typicals : String → Option SelectedTypical}
    {fallback : ℚ} (hpos : 0 < fallback) (id : String) :
    0 ≤ exactShare steps minutes typicals fallback id := by
  have hd : (0 : ℚ) ≤ distributable steps minutes := by
    exact_mod_cast le_max_left _ _
  have hsum : 0 ≤ ((participatingIds steps).map (sectionWeight typicals fallback)).sum := by
    refine List.sum_nonneg fun x hx => ?_
    obtain ⟨id, _, rfl⟩ := List.mem_map.mp hx
    exact (sectionWeight_pos hpos id).le
  exact div_nonneg (mul_nonneg hd (sectionWeight_pos hpos id).le) hsum

theorem sum_exactShare {minutes : ℚ} {typicals : String → Option SelectedTypical}
    {fallback : ℚ} (hpos : 0 < fallback) (hne : participatingIds steps ≠ []) :
    ((participatingIds steps).map (exactShare steps minutes typicals fallback)).sum =
      distributable steps minutes := by
  have htotal : ((participatingIds steps).map (sectionWeight typicals fallback)).sum ≠ 0 := by
    refine (List.sum_pos _ (fun x hx => ?_) (by simpa using hne)).ne'
    obtain ⟨id, _, rfl⟩ := List.mem_map.mp hx
    exact sectionWeight_pos hpos id
  have hfun : exactShare steps minutes typicals fallback = fun id =>
      (distributable steps minutes : ℚ) /
        ((participatingIds steps).map (sectionWeight typicals fallback)).sum *
          sectionWeight typicals fallback id := by
    funext id
    rw [exactShare]
    ring
  rw [hfun, List.sum_map_mul_left, div_mul_cancel₀ _ htotal]

theorem flatMap_steps_perm (hids : gs.map SectionGroup.workingSectionId =
    keys DivisionStep.workingSectionId (liveSteps steps))
    (hgs : ∀ g ∈ gs, IsGroupOf (liveSteps steps) g) :
    (gs.flatMap SectionGroup.steps).Perm (liveSteps steps) := by
  have hsteps : gs.flatMap SectionGroup.steps =
      (gs.map SectionGroup.workingSectionId).flatMap
        (group DivisionStep.workingSectionId (liveSteps steps)) := by
    rw [List.flatMap_map, List.flatMap, List.flatMap]
    exact congrArg List.flatten (List.map_congr_left fun g hg => (hgs g hg).steps_eq)
  rw [hsteps, hids]
  exact flatMap_group_perm keys_nodup fun step hstep => mem_keys.mpr ⟨step, hstep, rfl⟩

variable {minutes : ℚ} {typicals : String → Option SelectedTypical} {d : Division}
  {share : String → ℤ} {result : SectionGroup → SectionRow × List (DivisionStep × StepRow)}

/-- The rows of the sections, put together. -/
theorem conserves_of_sections
    (hids : gs.map SectionGroup.workingSectionId =
      keys DivisionStep.workingSectionId (liveSteps steps))
    (hgs : ∀ g ∈ gs, IsGroupOf (liveSteps steps) g)
    (hresult : ∀ g ∈ gs, SectionDivided
      (if g.workingSectionId ∈ participatingSections steps then some (share g.workingSectionId)
        else none) g (result g))
    (hd : d.distributableSeconds = some (distributable steps minutes))
    (hsections : d.sections.Perm (gs.map fun g => (result g).1))
    (hsteps : d.steps.Perm (gs.flatMap fun g => (result g).2.map Prod.snd))
    (hshare : ∃ fallback, IsFallback typicals (participatingIds steps) fallback ∧
      ∀ id ∈ participatingIds steps, 0 ≤ share id ∧
        |(share id : ℚ) - exactShare steps minutes typicals fallback id| < 1)
    (hsum : participatingIds steps ≠ [] →
      ((participatingIds steps).map share).sum = distributable steps minutes) :
    Conserves steps minutes typicals d := by
  have hnodup : (gs.map SectionGroup.workingSectionId).Nodup := hids ▸ keys_nodup
  have hrow : ∀ row ∈ d.sections, ∃ g ∈ gs, (result g).1 = row := fun row hrow =>
    List.mem_map.mp (hsections.mem_iff.mp hrow)
  have hstep : ∀ r ∈ d.steps, ∃ g ∈ gs, ∃ step, (step, r) ∈ (result g).2 := by
    intro r hr
    obtain ⟨g, hg, hr⟩ := List.mem_flatMap.mp (hsteps.mem_iff.mp hr)
    obtain ⟨⟨step, _⟩, hpair, rfl⟩ := List.mem_map.mp hr
    exact ⟨g, hg, step, hpair⟩
  have hmemIds : ∀ g ∈ gs, g.workingSectionId ∈ participatingSections steps →
      g.workingSectionId ∈ participatingIds steps := by
    intro g hg hp
    refine List.mem_filter.mpr ⟨hids ▸ List.mem_map_of_mem hg, by simpa using hp⟩
  have hlisted : (gs.map fun g => (result g).1.group.workingSectionId) =
      gs.map SectionGroup.workingSectionId :=
    List.map_congr_left fun g hg => by rw [(hresult g hg).group_eq]
  refine
    { step_rows := ?_
      section_rows := ?_
      section_groups := ?_
      distributable_eq := hd
      section_share := ?_
      sections_sum := ?_
      split_sum := ?_
      section_excluded := ?_
      step_excluded := ?_
      section_left := ?_
      step_left := ?_ }
  · have htuple : (gs.flatMap fun g => (result g).2.map Prod.snd).map (fun r =>
        (r.stepId, r.state, r.workingSectionId, r.workedSeconds)) =
          (gs.flatMap SectionGroup.steps).map fun step =>
            (step.clientId, step.state, step.workingSectionId, step.totalWorkingSeconds) := by
      rw [List.map_flatMap, List.map_flatMap, List.flatMap, List.flatMap]
      refine congrArg List.flatten (List.map_congr_left fun g hg => ?_)
      rw [← (hresult g hg).steps_eq, List.map_map, List.map_map]
      refine List.map_congr_left fun r hr => ?_
      obtain ⟨h1, h2, h3, h4⟩ := (hresult g hg).row_eq r hr
      simp [h1, h2, h3, h4]
    exact (hsteps.map _).trans (htuple ▸ (flatMap_steps_perm hids hgs).map _)
  · refine (hsections.map _).trans ?_
    rw [List.map_map, ← hids]
    exact hlisted ▸ List.Perm.refl _
  · intro row hr
    obtain ⟨g, hg, rfl⟩ := hrow row hr
    rw [(hresult g hg).group_eq]
    exact hgs g hg
  · obtain ⟨fallback, hf, hall⟩ := hshare
    refine ⟨fallback, hf, fun row hr hp => ?_⟩
    obtain ⟨g, hg, rfl⟩ := hrow row hr
    rw [(hresult g hg).group_eq] at hp ⊢
    obtain ⟨h0, h1⟩ := hall _ (hmemIds g hg hp)
    exact ⟨_, (hresult g hg).allowance_eq.trans (if_pos hp), h0, h1⟩
  · intro hne
    have hallowance : ∀ g ∈ gs.filter (fun g => g.workingSectionId ∈ participatingSections steps),
        (result g).1.allowanceSeconds.getD 0 = share g.workingSectionId := by
      intro g hg
      obtain ⟨hg, hp⟩ := List.mem_filter.mp hg
      rw [(hresult g hg).allowance_eq, if_pos (by simpa using hp)]
      rfl
    have hfilter : (gs.map fun g => (result g).1).filter (fun row =>
        row.group.workingSectionId ∈ participatingSections steps) =
          (gs.filter fun g => g.workingSectionId ∈ participatingSections steps).map fun g =>
            (result g).1 := by
      rw [List.filter_map]
      congr 1
      exact List.filter_congr fun g hg => by simp [(hresult g hg).group_eq]
    have hpids : (gs.filter fun g => g.workingSectionId ∈ participatingSections steps).map
        SectionGroup.workingSectionId = participatingIds steps := by
      rw [participatingIds, ← hids, List.filter_map]
      rfl
    have hidsne : participatingIds steps ≠ [] := by
      obtain ⟨id, hid⟩ := List.exists_mem_of_ne_nil _ hne
      refine List.ne_nil_of_mem (a := id) (List.mem_filter.mpr ⟨?_, by simpa using hid⟩)
      obtain ⟨step, hs, rfl⟩ := List.mem_map.mp hid
      obtain ⟨hs, hlive⟩ := List.mem_filter.mp hs
      exact mem_keys.mpr ⟨step, List.mem_filter.mpr
        ⟨hs, (Bool.and_eq_true_iff.mp hlive).1⟩, rfl⟩
    rw [((hsections.filter _).map _).sum_eq, hfilter, List.map_map]
    rw [← hsum hidsne, ← hpids, List.map_map]
    exact congrArg List.sum (List.map_congr_left hallowance)
  · intro row hr hp
    obtain ⟨g, hg, rfl⟩ := hrow row hr
    have hgroup := (hresult g hg).group_eq
    rw [hgroup] at hp
    have hsome := hresult g hg
    rw [if_pos hp] at hsome
    have hown : ∀ g' ∈ gs, ∀ r ∈ (result g').2.map Prod.snd,
        r.workingSectionId = g'.workingSectionId := by
      intro g' hg' r hr
      obtain ⟨⟨step, r⟩, hpair, rfl⟩ := List.mem_map.mp hr
      rw [((hresult g' hg').row_eq _ hpair).2.2.1]
      have hs : step ∈ g'.steps := (hresult g' hg').steps_eq ▸ List.mem_map_of_mem hpair
      rw [(hgs g' hg').steps_eq] at hs
      exact (mem_group.mp hs).2
    have hsplit : (splitRows d (result g).1).Perm
        (((result g).2.map Prod.snd).filter fun r => !isExcluded r.state) := by
      refine (hsteps.filter _).trans ?_
      rw [List.filter_flatMap, flatMap_eq_of_unique (hnodup.of_map _) hg]
      · rw [hgroup]
        refine (List.filter_congr fun r hr => ?_) ▸ List.Perm.refl _
        simp [hown g hg r hr]
      · intro g' hg' hne
        refine List.filter_eq_nil_iff.mpr fun r hr => ?_
        have hid : g'.workingSectionId ≠ g.workingSectionId := fun he =>
          hne (List.inj_on_of_nodup_map hnodup hg' hg he)
        simp [hown g' hg' r hr, hgroup, hid]
    obtain ⟨hall, htotal⟩ := hsome.split_sum rfl
    refine ⟨fun r hr => hall r (hsplit.mem_iff.mp hr), ?_⟩
    rw [hsome.allowance_eq, (hsplit.map _).sum_eq]
    exact htotal
  · intro row hr hp
    obtain ⟨g, hg, rfl⟩ := hrow row hr
    rw [(hresult g hg).group_eq] at hp
    exact (hresult g hg).allowance_eq.trans (if_neg hp)
  · intro r hr he
    obtain ⟨g, hg, step, hr⟩ := hstep r hr
    exact (hresult g hg).step_excluded _ hr he
  · intro row hr
    obtain ⟨g, hg, rfl⟩ := hrow row hr
    rw [(hresult g hg).section_left, (hresult g hg).allowance_eq, (hresult g hg).group_eq]
  · intro r hr
    obtain ⟨g, hg, step, hr⟩ := hstep r hr
    exact (hresult g hg).step_left _ hr

end Assembly

/-- Every lookup of the division finds its key. -/
theorem exists_division (allowedWorkerMinutes : Option ℚ)
    (steps : List DivisionStep) (hids : (steps.map DivisionStep.clientId).Nodup)
    (typicals : String → Option SelectedTypical)
    (sectionAttributes : Option (String → Option SectionAttributes)) :
    ∃ d, divideProductionBudget allowedWorkerMinutes steps typicals sectionAttributes = .ok d ∧
      ∀ minutes, allowedWorkerMinutes = some minutes → Conserves steps minutes typicals d := by
  have hlive : ∀ step ∈ liveSteps steps, step.isDeleted = false := fun step hstep => by
    simpa using (List.mem_filter.mp hstep).2
  obtain ⟨gs, hgroups, hgids, hgs⟩ := groupStepsBySection_spec sectionAttributes hlive
  cases allowedWorkerMinutes with
  | none =>
    refine ⟨noBudgetDivision (liveSteps steps) gs typicals, ?_, fun _ h => by cases h⟩
    rw [divideProductionBudget, ← liveSteps, hgroups]
    rfl
  | some minutes =>
    have hnodup : (gs.map SectionGroup.workingSectionId).Nodup := hgids ▸ keys_nodup
    generalize hallocated : gs.filter (fun g =>
      g.workingSectionId ∈ participatingSections (liveSteps steps)) = allocated
    have hmem : ∀ g ∈ gs, g ∈ allocated ↔ g.workingSectionId ∈ participatingSections steps := by
      intro g hg
      rw [← hallocated, List.mem_filter, participatingSections_liveSteps]
      simp [hg]
    have haids : allocated.map SectionGroup.workingSectionId = participatingIds steps := by
      rw [← hallocated, participatingIds, ← hgids, List.filter_map,
        participatingSections_liveSteps]
      rfl
    have hpnodup : (participatingIds steps).Nodup := keys_nodup.filter _
    obtain ⟨fallback, hfallback, hpos⟩ := exists_fallback typicals (participatingIds steps)
    have hraw := rawSectionShares_eq (haids ▸ hpnodup) (haids ▸ hfallback) hpos
      (distributable steps minutes)
    have hshares : (allocated.map fun g => (g.workingSectionId,
        (distributable steps minutes : ℚ) * sectionWeight typicals fallback g.workingSectionId /
          (allocated.map fun g => sectionWeight typicals fallback g.workingSectionId).sum)) =
        (participatingIds steps).map fun id =>
          (id, exactShare steps minutes typicals fallback id) := by
      have hsum : (allocated.map fun g =>
          sectionWeight typicals fallback g.workingSectionId) =
            (participatingIds steps).map (sectionWeight typicals fallback) := by
        rw [← haids, List.map_map]
        rfl
      rw [hsum]
      conv_rhs => rw [← haids, List.map_map]
      rfl
    rw [hshares] at hraw
    obtain ⟨share, hallowances, htotal, hall⟩ := sectionAllowances_spec
      ((participatingIds steps).map fun id =>
        (id, exactShare steps minutes typicals fallback id))
      (distributable steps minutes) (by rw [List.map_map]; exact (List.map_id _).symm ▸ hpnodup)
      (fun hne => by
        rw [List.map_map]
        exact sum_exactShare hpos (by simpa using hne))
    rw [List.map_map] at hallowances htotal
    obtain ⟨result, hrows, hresult⟩ := mapM_exists
      (f := divideSection allocated ((participatingIds steps).map
        fun id => (id, share id)) typicals)
      (P := fun g r => SectionDivided (if g.workingSectionId ∈ participatingSections steps
        then some (share g.workingSectionId) else none) g r) (l := gs) (by
        intro g hg
        by_cases hp : g.workingSectionId ∈ participatingSections steps
        · rw [if_pos hp]
          have hgm : g ∈ allocated := (hmem g hg).mpr hp
          refine divideSection_allocated hgm ?_ ?_ (allocatable_ne_nil (hgs g hg) hp)
          · exact Dict.getItem_map _ share
              (show ((participatingIds steps).map id).Nodup by simpa using hpnodup)
              (haids ▸ List.mem_map_of_mem hgm)
          · rw [(hgs g hg).steps_eq]
            exact hids.sublist ((List.filter_sublist.trans List.filter_sublist).map _)
        · rw [if_neg hp]
          exact divideSection_excluded fun hgm => hp ((hmem g hg).mp hgm))
    refine ⟨{
      budgetSeconds := some (budgetSeconds minutes)
      chargedSeconds := some (((liveSteps steps).filter fun step => isExcluded step.state).map
        DivisionStep.totalWorkingSeconds).sum
      distributableSeconds := some (distributable steps minutes)
      sections := sortedSectionRows ((gs.map result).map Prod.fst)
      steps := sortedStepRows ((gs.map result).flatMap Prod.snd) }, ?_, ?_⟩
    · rw [divideProductionBudget, ← liveSteps, hgroups]
      simp only [bind, Except.bind, hallocated]
      rw [← distributable, hraw]
      simp only [hallowances, Function.comp_def]
      rw [hrows]
      rfl
    · rintro _ ⟨⟩
      refine conserves_of_sections hgids hgs hresult rfl ?_ ?_ ?_ ?_
      · refine (sortBy_perm _ _).trans ?_
        rw [List.map_map]
        exact List.Perm.refl _
      · refine ((sortBy_perm _ _).map _).trans ?_
        rw [List.flatMap_map, List.map_flatMap]
      · refine ⟨fallback, hfallback, fun id hid => ?_⟩
        obtain ⟨habs, hnonneg⟩ := hall _ (List.mem_map_of_mem hid)
        exact ⟨hnonneg (exactShare_nonneg hpos id), habs⟩
      · exact fun hne => htotal (by simpa using hne)

/-- The division of a budget never fails and hands out exactly what there is. -/
theorem divideProductionBudget_conserves (allowedWorkerMinutes : Option ℚ)
    (steps : List DivisionStep) (hids : (steps.map DivisionStep.clientId).Nodup)
    (typicals : String → Option SelectedTypical)
    (sectionAttributes : Option (String → Option SectionAttributes)) :
    ∃ d, divideProductionBudget allowedWorkerMinutes steps typicals sectionAttributes = .ok d ∧
      ∀ minutes, allowedWorkerMinutes = some minutes → Conserves steps minutes typicals d := by
  exact exists_division allowedWorkerMinutes steps hids typicals sectionAttributes

/-- One open and one completed step of two sections, and a skipped step. -/
theorem divideProductionBudget_conserves_two_sections :
    let steps : List DivisionStep :=
      [⟨"a", .working, "x", 100, some 1, none, false, none, none⟩,
       ⟨"b", .completed, "y", 700, some 2, none, false, none, none⟩,
       ⟨"c", .skipped, "y", 11, none, none, false, none, none⟩]
    ∃ d, divideProductionBudget (some 10) steps (fun _ => none) none = .ok d ∧
      Conserves steps 10 (fun _ => none) d := by
  intro steps
  obtain ⟨d, hd, hc⟩ := divideProductionBudget_conserves (some 10) steps (by decide)
    (fun _ => none) none
  exact ⟨d, hd, hc 10 rfl⟩

end BeyoManager.ItemEconomics
