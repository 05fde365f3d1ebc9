import BeyoManager.ItemEconomics.Conservation

/-! # What a section's allowance depends on

Of the steps, a section's allowance reads their sections, which of them take part, and
the time worked on those that do not. The order of the list, the time worked on
participating steps and their states do not reach it.
-/

namespace BeyoManager.ItemEconomics

open TaskSteps Transition Grouping Sorting LargestRemainder

section Rounding

variable {rawShares rawShares' : List (String × ℚ)}

theorem shareOf_perm (hn : (rawShares.map Prod.fst).Nodup) (h : rawShares.Perm rawShares') :
    shareOf rawShares = shareOf rawShares' := by
  have hn' : (rawShares'.map Prod.fst).Nodup := (h.map Prod.fst).nodup_iff.mp hn
  funext key
  by_cases hk : key ∈ rawShares.map Prod.fst
  · obtain ⟨e, he, rfl⟩ := List.mem_map.mp hk
    rw [shareOf_of_mem hn he, shareOf_of_mem hn' (h.subset he)]
  · have hnone : ∀ l : List (String × ℚ), l ⊆ rawShares → l.find? (fun e => e.1 = key) = none :=
      fun l hl => List.find?_eq_none.mpr fun e he hek =>
        hk (List.mem_map.mpr ⟨e, hl he, by simpa using hek⟩)
    rw [shareOf, shareOf, hnone _ (List.Subset.refl _), hnone _ h.symm.subset]

theorem rankedKeys_eq_of_perm (h : rawShares.Perm rawShares') :
    rankedKeys rawShares id = rankedKeys rawShares' id := by
  rw [rankedKeys, rankedKeys, sortBy_eq_of_perm (h.map _)]
  intro a ha b hb hab
  obtain ⟨e, -, rfl⟩ := List.mem_map.mp ha
  obtain ⟨f, -, rfl⟩ := List.mem_map.mp hb
  refine Prod.ext hab ?_
  exact congrArg (fun k => (ofLex k).2) hab

theorem median_perm {values values' : List ℚ} (h : values.Perm values') :
    median values = median values' := by
  have hsort : sortBy id values = sortBy id values' := sortBy_eq_of_perm h fun _ _ _ _ hab => hab
  rw [median, median, hsort]

end Rounding

section Division

variable {steps steps' : List DivisionStep} {minutes : ℚ}
  {typicals : String → Option SelectedTypical}
  {sectionAttributes : Option (String → Option SectionAttributes)} {d : Division}

def exactShares (steps : List DivisionStep) (minutes : ℚ)
    (typicals : String → Option SelectedTypical) (fallback : ℚ) : List (String × ℚ) :=
  (participatingIds steps).map fun id => (id, exactShare steps minutes typicals fallback id)

def sectionAllowance (steps : List DivisionStep) (minutes : ℚ)
    (typicals : String → Option SelectedTypical) (fallback : ℚ) : String → ℤ :=
  apportion (shareOf (exactShares steps minutes typicals fallback))
    (rankedKeys (exactShares steps minutes typicals fallback) id) (distributable steps minutes)

theorem exactShares_keys {fallback : ℚ} :
    (exactShares steps minutes typicals fallback).map Prod.fst = participatingIds steps := by
  rw [exactShares, List.map_map]
  exact List.map_id _

theorem participatingIds_nodup : (participatingIds steps).Nodup := keys_nodup.filter _

theorem largestRemainder_exactShares {fallback : ℚ} (hpos : 0 < fallback) :
    largestRemainder (exactShares steps minutes typicals fallback) (fun sectionId => .ok sectionId)
        (distributable steps minutes) =
      .ok ((participatingIds steps).map fun id =>
        (id, sectionAllowance steps minutes typicals fallback id)) := by
  by_cases hnil : participatingIds steps = []
  · have hslice : ∀ n, slice ([] : List String) n = [] := fun n => by simp [slice]
    simp [exactShares, hnil, largestRemainder, sortBy, hslice, bind, Except.bind, pure, Except.pure]
  · rw [largestRemainder_eq id (exactShares_keys ▸ participatingIds_nodup) (fun _ _ => rfl)]
    · rw [exactShares, List.map_map]
      rfl
    · rw [exactShares, List.map_map]
      exact sum_exactShare hpos hnil

section Rows

variable {groups allocated : List SectionGroup} {fallback : ℚ}
  (haids : allocated.map SectionGroup.workingSectionId = participatingIds steps)

include haids

theorem rawSectionShares_exactShares (hpos : 0 < fallback)
    (hfallback : IsFallback typicals (participatingIds steps) fallback) :
    rawSectionShares allocated (distributable steps minutes) typicals =
      .ok (exactShares steps minutes typicals fallback) := by
  have hsum : (allocated.map fun g => sectionWeight typicals fallback g.workingSectionId) =
      (participatingIds steps).map (sectionWeight typicals fallback) := by
    rw [← haids, List.map_map]
    rfl
  rw [rawSectionShares_eq (haids ▸ participatingIds_nodup) (haids ▸ hfallback) hpos
    (distributable steps minutes), hsum, exactShares]
  conv_rhs => rw [← haids, List.map_map]
  rfl

/-- What the row of one section repeats. -/
theorem divideSection_allowance {g : SectionGroup} {x : SectionRow × List (DivisionStep × StepRow)}
    (hmem : g ∈ allocated ↔ g.workingSectionId ∈ participatingSections steps)
    (h : divideSection allocated ((participatingIds steps).map fun id =>
      (id, sectionAllowance steps minutes typicals fallback id)) typicals g = .ok x) :
    (x.1.group.workingSectionId, x.1.allowanceSeconds) = (g.workingSectionId,
      if g.workingSectionId ∈ participatingSections steps then
        some (sectionAllowance steps minutes typicals fallback g.workingSectionId)
      else none) := by
  unfold divideSection at h
  split at h
  · rename_i hout
    obtain rfl := by simpa using h
    rw [if_neg (hmem.not.mp hout)]
  · rename_i hin
    rw [not_not] at hin
    simp only [bind_eq_ok, pure, Except.pure, Except.ok.injEq] at h
    obtain ⟨allowance, hget, split, -, stepRows, -, rfl⟩ := h
    have hn : ((participatingIds steps).map id).Nodup := by
      rw [List.map_id]
      exact participatingIds_nodup
    have hid := Dict.getItem_map LookupError.keyError
      (sectionAllowance steps minutes typicals fallback) hn
      (haids ▸ List.mem_map_of_mem hin : g.workingSectionId ∈ participatingIds steps)
    rw [if_pos (hmem.mp hin), Except.ok.inj (hget.symm.trans hid)]

end Rows

/-- What a section receives, nothing when it has no step to pay for. -/
def allowanceOf (steps : List DivisionStep) (minutes : ℚ)
    (typicals : String → Option SelectedTypical) (fallback : ℚ) (id : String) : Option ℤ :=
  if id ∈ participatingSections steps then
    some (sectionAllowance steps minutes typicals fallback id)
  else none

theorem sectionRows_of_noBudget
    (h : divideProductionBudget none steps typicals sectionAttributes = .ok d) :
    (d.sections.map fun row => (row.group.workingSectionId, row.allowanceSeconds)).Perm
      ((keys DivisionStep.workingSectionId (liveSteps steps)).map fun id =>
        (id, (none : Option ℤ))) := by
  obtain ⟨gs, hgroups, hgids, -⟩ := groupStepsBySection_spec sectionAttributes
    fun step (hstep : step ∈ liveSteps steps) => by simpa using (List.mem_filter.mp hstep).2
  obtain rfl : noBudgetDivision (liveSteps steps) gs typicals = d := by
    rw [divideProductionBudget, ← liveSteps, hgroups] at h
    simpa [bind, Except.bind, pure, Except.pure] using h
  refine ((sortBy_perm _ _).map _).trans ?_
  rw [← hgids, List.map_map, List.map_map]
  exact List.Perm.refl _

/-- The allowance of every row of a division's sections. -/
theorem sectionRows_of_divide (h : divideProductionBudget (some minutes) steps typicals
    sectionAttributes = .ok d) {fallback : ℚ} (hpos : 0 < fallback)
    (hfallback : IsFallback typicals (participatingIds steps) fallback) :
    (d.sections.map fun row => (row.group.workingSectionId, row.allowanceSeconds)).Perm
      ((keys DivisionStep.workingSectionId (liveSteps steps)).map fun id =>
        (id, allowanceOf steps minutes typicals fallback id)) := by
  obtain ⟨gs, hgroups, hgids, -⟩ := groupStepsBySection_spec sectionAttributes
    fun step (hstep : step ∈ liveSteps steps) => by simpa using (List.mem_filter.mp hstep).2
  simp only [divideProductionBudget, bind_eq_ok, pure, Except.pure, Except.ok.injEq] at h
  obtain ⟨groups, hg, shares, hshares, allowances, hallowances, rows, hrows, rfl⟩ := h
  obtain rfl : gs = groups := Except.ok.inj (hgroups.symm.trans hg)
  let allocated := gs.filter fun g =>
    decide (g.workingSectionId ∈ participatingSections (liveSteps steps))
  have haids : allocated.map SectionGroup.workingSectionId = participatingIds steps := by
    rw [participatingIds, ← hgids, List.filter_map]
    simp only [allocated, participatingSections_liveSteps]
    rfl
  obtain rfl : exactShares steps minutes typicals fallback = shares :=
    Except.ok.inj ((rawSectionShares_exactShares haids hpos hfallback).symm.trans hshares)
  obtain rfl : (participatingIds steps).map (fun id =>
      (id, sectionAllowance steps minutes typicals fallback id)) = allowances :=
    Except.ok.inj ((largestRemainder_exactShares hpos).symm.trans hallowances)
  have hmap := map_of_mapM_eq_ok hrows fun g hg x hx =>
    divideSection_allowance haids (by
      rw [List.mem_filter, participatingSections_liveSteps]
      simp [hg]) hx
  refine ((sortBy_perm _ _).map _).trans ?_
  rw [List.map_map]
  change (rows.map fun x => (x.1.group.workingSectionId, x.1.allowanceSeconds)).Perm _
  rw [hmap, ← hgids, List.map_map]
  exact List.Perm.refl _

/-- What the division of a budget reads of a step, the worked seconds apart. -/
def budgetShape (step : DivisionStep) : String × String × Bool × Bool :=
  (step.clientId, step.workingSectionId, step.isDeleted, isExcluded step.state)

/-- The seconds worked on live steps that are paid before the division. -/
def excludedCharge (steps : List DivisionStep) : ℤ :=
  (((liveSteps steps).filter fun step => isExcluded step.state).map
    DivisionStep.totalWorkingSeconds).sum

theorem mem_sectionKeys {id : String} :
    id ∈ keys DivisionStep.workingSectionId (liveSteps steps) ↔
      ∃ t ∈ steps.map budgetShape, t.2.2.1 = false ∧ t.2.1 = id := by
  simp only [mem_keys, liveSteps, List.mem_filter, List.mem_map, Bool.not_eq_true']
  constructor
  · rintro ⟨step, ⟨hstep, hlive⟩, rfl⟩
    exact ⟨_, ⟨step, hstep, rfl⟩, hlive, rfl⟩
  · rintro ⟨_, ⟨step, hstep, rfl⟩, hlive, rfl⟩
    exact ⟨step, ⟨hstep, hlive⟩, rfl⟩

theorem mem_participatingSections {id : String} : id ∈ participatingSections steps ↔
    ∃ t ∈ steps.map budgetShape, (t.2.2.1 = false ∧ t.2.2.2 = false) ∧ t.2.1 = id := by
  simp only [participatingSections, List.mem_map, List.mem_filter, Bool.and_eq_true,
    Bool.not_eq_true']
  constructor
  · rintro ⟨step, ⟨hstep, hlive⟩, rfl⟩
    exact ⟨_, ⟨step, hstep, rfl⟩, hlive, rfl⟩
  · rintro ⟨_, ⟨step, hstep, rfl⟩, hlive, rfl⟩
    exact ⟨step, ⟨hstep, hlive⟩, rfl⟩

section TwoRuns

variable (hshape : (steps.map budgetShape).Perm (steps'.map budgetShape))

include hshape

theorem sectionKeys_perm : (keys DivisionStep.workingSectionId (liveSteps steps)).Perm
    (keys DivisionStep.workingSectionId (liveSteps steps')) := by
  refine (List.perm_ext_iff_of_nodup keys_nodup keys_nodup).mpr fun id => ?_
  simp only [mem_sectionKeys, hshape.mem_iff]

theorem participatingSections_iff (id : String) :
    id ∈ participatingSections steps ↔ id ∈ participatingSections steps' := by
  simp only [mem_participatingSections, hshape.mem_iff]

theorem participatingIds_perm : (participatingIds steps).Perm (participatingIds steps') := by
  rw [participatingIds, participatingIds]
  simp only [participatingSections_iff hshape]
  exact (sectionKeys_perm hshape).filter _

theorem isFallback_transfer {fallback : ℚ}
    (h : IsFallback typicals (participatingIds steps) fallback) :
    IsFallback typicals (participatingIds steps') fallback := by
  have husable : (usableValues ((participatingIds steps).map fun id =>
      (typicals id).bind SelectedTypical.typicalWorkerSeconds)).Perm
      (usableValues ((participatingIds steps').map fun id =>
        (typicals id).bind SelectedTypical.typicalWorkerSeconds)) :=
    ((participatingIds_perm hshape).map _).filterMap _
  unfold IsFallback at h ⊢
  dsimp only at h ⊢
  split_ifs at h ⊢ with hnil' hnil hnil
  · exact h
  · exact absurd (husable.trans (.of_eq hnil')).eq_nil hnil
  · exact absurd (husable.symm.trans (.of_eq hnil)).eq_nil hnil'
  · exact median_perm husable ▸ h

variable (hcharge : excludedCharge steps = excludedCharge steps')

include hcharge

omit hshape in
theorem distributable_eq : distributable steps minutes = distributable steps' minutes := by
  rw [distributable, distributable, ← excludedCharge, ← excludedCharge, hcharge]

theorem exactShares_perm (fallback : ℚ) : (exactShares steps minutes typicals fallback).Perm
    (exactShares steps' minutes typicals fallback) := by
  have hids := participatingIds_perm hshape
  have hshare : exactShare steps minutes typicals fallback =
      exactShare steps' minutes typicals fallback := by
    funext id
    rw [exactShare, exactShare, distributable_eq hcharge,
      (hids.map (sectionWeight typicals fallback)).sum_eq]
  rw [exactShares, exactShares, hshare]
  exact hids.map _

theorem allowanceOf_eq (fallback : ℚ) (id : String) :
    allowanceOf steps minutes typicals fallback id =
      allowanceOf steps' minutes typicals fallback id := by
  have hperm : (exactShares steps minutes typicals fallback).Perm
      (exactShares steps' minutes typicals fallback) := exactShares_perm hshape hcharge fallback
  simp only [allowanceOf, sectionAllowance, distributable_eq hcharge, rankedKeys_eq_of_perm hperm,
    shareOf_perm (exactShares_keys ▸ participatingIds_nodup) hperm,
    participatingSections_iff hshape]

end TwoRuns

/-- Two lists of steps that differ in their order, in the seconds worked on participating
steps or in the states of these give every section the same allowance. -/
theorem allowance_invariant (allowedWorkerMinutes : Option ℚ) (steps steps' : List DivisionStep)
    (hids : (steps.map DivisionStep.clientId).Nodup)
    (hshape : (steps.map budgetShape).Perm (steps'.map budgetShape))
    (hcharge : excludedCharge steps = excludedCharge steps')
    (typicals : String → Option SelectedTypical)
    (sectionAttributes : Option (String → Option SectionAttributes)) :
    ∃ d d',
      divideProductionBudget allowedWorkerMinutes steps typicals sectionAttributes = .ok d ∧
      divideProductionBudget allowedWorkerMinutes steps' typicals sectionAttributes = .ok d' ∧
      (d.sections.map fun row => (row.group.workingSectionId, row.allowanceSeconds)).Perm
        (d'.sections.map fun row => (row.group.workingSectionId, row.allowanceSeconds)) := by
  have hids' : (steps'.map DivisionStep.clientId).Nodup := by
    have hclient := hshape.map Prod.fst
    rw [List.map_map, List.map_map] at hclient
    exact hclient.nodup_iff.mp hids
  obtain ⟨d, hd, -⟩ := exists_division allowedWorkerMinutes steps hids
    typicals sectionAttributes
  obtain ⟨d', hd', -⟩ := exists_division allowedWorkerMinutes steps' hids'
    typicals sectionAttributes
  refine ⟨d, d', hd, hd', ?_⟩
  cases allowedWorkerMinutes with
  | none =>
    refine (sectionRows_of_noBudget hd).trans (.trans ?_ (sectionRows_of_noBudget hd').symm)
    exact (sectionKeys_perm hshape).map _
  | some minutes =>
    obtain ⟨fallback, hfallback, hpos⟩ := exists_fallback typicals (participatingIds steps)
    refine (sectionRows_of_divide hd hpos hfallback).trans (.trans ?_
      (sectionRows_of_divide hd' hpos (isFallback_transfer hshape hfallback)).symm)
    simp only [allowanceOf_eq hshape hcharge]
    exact (sectionKeys_perm hshape).map _

/-- Three steps, listed backwards after the open one was worked on and paused. -/
theorem allowance_invariant_three_steps :
    let steps : List DivisionStep :=
      [⟨"a", .working, "x", 100, some 1, none, false, none, none⟩,
       ⟨"b", .completed, "y", 700, some 2, none, false, none, none⟩,
       ⟨"c", .skipped, "y", 11, none, none, false, none, none⟩]
    let steps' : List DivisionStep :=
      [⟨"c", .skipped, "y", 11, none, none, false, none, none⟩,
       ⟨"b", .completed, "y", 650, some 2, none, false, none, none⟩,
       ⟨"a", .paused, "x", 340, some 1, none, false, none, none⟩]
    ∃ d d', divideProductionBudget (some 20) steps (fun _ => none) none = .ok d ∧
      divideProductionBudget (some 20) steps' (fun _ => none) none = .ok d' ∧
      (d.sections.map fun row => (row.group.workingSectionId, row.allowanceSeconds)).Perm
        (d'.sections.map fun row => (row.group.workingSectionId, row.allowanceSeconds)) := by
  intro steps steps'
  exact allowance_invariant (some 20) steps steps' (by decide) (by decide) (by decide)
    (fun _ => none) none

end Division

end BeyoManager.ItemEconomics
