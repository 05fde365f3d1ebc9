import BeyoManager.ItemEconomics.BudgetDivision
import Mathlib.Tactic.FieldSimp
import Mathlib.Tactic.Linarith
import Mathlib.Tactic.Positivity

/-! # Apportionment of seconds

The two roundings of the division spend exactly what they are given: the one over the
sections and the one over the open steps of a section. No lookup on the way fails.
-/

namespace BeyoManager.ItemEconomics

open TaskSteps Transition LargestRemainder Sorting

theorem governingStep_mem {steps : List DivisionStep} (h : steps ≠ []) :
    ∃ g ∈ steps, governingStep steps = .ok g := by
  obtain ⟨candidates, hc, hne, hsub⟩ : ∃ candidates : List DivisionStep,
      (if steps.filter (fun step => !step.state.isTerminal) = [] then steps
        else steps.filter fun step => !step.state.isTerminal) = candidates ∧
      candidates ≠ [] ∧ candidates ⊆ steps := by
    by_cases hlive : steps.filter (fun step => !step.state.isTerminal) = []
    · exact ⟨steps, if_pos hlive, h, List.Subset.refl _⟩
    · exact ⟨_, if_neg hlive, hlive, List.filter_subset_self _⟩
  have hperm := (sortByDescending_perm (fun step : DivisionStep =>
    timeKey step.latestStateEnteredAt) _).trans
      ((sortByDescending_perm (fun step : DivisionStep => timeKey step.createdAt) _).trans
        (sortBy_perm DivisionStep.clientId candidates))
  simp only [governingStep, hc]
  split
  · rename_i heq
    exact absurd (heq ▸ hperm).symm.eq_nil hne
  · rename_i g rest heq
    exact ⟨g, hsub ((heq ▸ hperm).subset List.mem_cons_self), rfl⟩

section LargestRemainder

variable {rawShares : List (String × ℚ)}

def shareOf (rawShares : List (String × ℚ)) (key : String) : ℚ :=
  ((rawShares.find? fun e => e.1 = key).map Prod.snd).getD 0

theorem shareOf_of_mem (hn : (rawShares.map Prod.fst).Nodup) {e : String × ℚ}
    (he : e ∈ rawShares) : shareOf rawShares e.1 = e.2 := by
  rw [shareOf]
  cases hf : rawShares.find? fun x => x.1 = e.1 with
  | none => simpa using List.find?_eq_none.mp hf e he
  | some x =>
    have hx : x.1 = e.1 := by simpa using List.find?_some hf
    rw [List.inj_on_of_nodup_map hn (List.mem_of_find?_eq_some hf) he hx]
    rfl

/-- One unit more for each key of a list. -/
theorem bump_eq_ok (hn : (rawShares.map Prod.fst).Nodup) {ks : List String} (hks : ks.Nodup)
    (hsub : ks ⊆ rawShares.map Prod.fst) (v : String → ℤ) :
    ks.foldlM (fun allowances key => do
      let allowance ← Dict.getItem LookupError.keyError allowances key
      pure (Dict.set allowances key (allowance + 1))) (rawShares.map fun e => (e.1, v e.1)) =
    .ok (rawShares.map fun e => (e.1, v e.1 + if e.1 ∈ ks then 1 else 0)) := by
  induction ks generalizing v with
  | nil => simp [pure, Except.pure]
  | cons k ks ih =>
    obtain ⟨hk, hnd⟩ := List.nodup_cons.mp hks
    obtain ⟨e, he, rfl⟩ := List.mem_map.mp (hsub List.mem_cons_self)
    have hget := Dict.getItem_map LookupError.keyError (fun e => v e.1) hn he
    have hset := Dict.set_map Prod.fst (fun e : String × ℚ => v e.1) he (v e.1 + 1)
    have hstep : (rawShares.map fun x => (x.1, if x.1 = e.1 then v e.1 + 1 else v x.1)) =
        rawShares.map fun x => (x.1, (fun k => if k = e.1 then v e.1 + 1 else v k) x.1) := rfl
    refine foldlM_cons_eq_ok.mpr ⟨_, by rw [hget]; exact congrArg Except.ok hset, ?_⟩
    rw [hstep]
    refine (ih hnd (fun x hx => hsub (List.mem_cons_of_mem _ hx))
      fun k => if k = e.1 then v e.1 + 1 else v k).trans ?_
    refine congrArg Except.ok (List.map_congr_left fun x _ => ?_)
    by_cases hx : x.1 = e.1
    · simp [hx, hk]
    · simp [hx]

def rankedKeys {τ : Type} [LinearOrder τ] (rawShares : List (String × ℚ)) (tie : String → τ) :
    List String :=
  (sortBy Prod.fst (rawShares.map fun e =>
    (toLex ((⌊e.2⌋ : ℚ) - e.2, tie e.1), e.1))).map Prod.snd

section Ranked

variable {τ : Type} [LinearOrder τ] (tie : String → τ)

theorem rankedKeys_perm : (rankedKeys rawShares tie).Perm (rawShares.map Prod.fst) := by
  have := (sortBy_perm Prod.fst (rawShares.map fun e =>
    (toLex ((⌊e.2⌋ : ℚ) - e.2, tie e.1), e.1))).map Prod.snd
  rwa [List.map_map] at this

theorem rankedKeys_sorted (hn : (rawShares.map Prod.fst).Nodup) :
    (rankedKeys rawShares tie).Pairwise fun j k =>
      Int.fract (shareOf rawShares k) ≤ Int.fract (shareOf rawShares j) := by
  refine List.pairwise_map.mpr (pairwise_sortBy.imp_of_mem fun {a b} ha hb hab => ?_)
  obtain ⟨ea, hea, rfl⟩ := List.mem_map.mp (mem_sortBy.mp ha)
  obtain ⟨eb, heb, rfl⟩ := List.mem_map.mp (mem_sortBy.mp hb)
  have hle : (⌊ea.2⌋ : ℚ) - ea.2 ≤ ⌊eb.2⌋ - eb.2 := Prod.Lex.monotone_fst _ _ hab
  change Int.fract (shareOf rawShares eb.1) ≤ Int.fract (shareOf rawShares ea.1)
  rw [shareOf_of_mem hn hea, shareOf_of_mem hn heb, Int.fract, Int.fract]
  linarith

theorem sum_shareOf (hn : (rawShares.map Prod.fst).Nodup) {total : ℤ}
    (hsum : (rawShares.map Prod.snd).sum = total) :
    ((rankedKeys rawShares tie).map (shareOf rawShares)).sum = total := by
  rw [((rankedKeys_perm tie).map _).sum_eq, List.map_map, ← hsum]
  exact congrArg List.sum (List.map_congr_left fun e he => shareOf_of_mem hn he)

/-- What the rounding gives to each key. -/
theorem largestRemainder_eq {tieKey : String → Except LookupError τ} {total : ℤ}
    (hn : (rawShares.map Prod.fst).Nodup) (htie : ∀ e ∈ rawShares, tieKey e.1 = .ok (tie e.1))
    (hsum : (rawShares.map Prod.snd).sum = total) :
    largestRemainder rawShares tieKey total = .ok (rawShares.map fun e =>
      (e.1, apportion (shareOf rawShares) (rankedKeys rawShares tie) total e.1)) := by
  have hkeyed : (rawShares.mapM fun share => do
      let tie ← tieKey share.1
      pure (toLex ((⌊share.2⌋ : ℚ) - share.2, tie), share.1)) =
      .ok (rawShares.map fun e => (toLex ((⌊e.2⌋ : ℚ) - e.2, tie e.1), e.1)) :=
    mapM_eq_ok fun e he => by rw [htie e he]; rfl
  have hperm : (rankedKeys rawShares tie).Perm (rawShares.map Prod.fst) := rankedKeys_perm tie
  have hunits : total - ((rawShares.map fun e => (e.1, ⌊e.2⌋)).map Prod.snd).sum =
      units (shareOf rawShares) (rankedKeys rawShares tie) total := by
    rw [units, (hperm.map fun k => ⌊shareOf rawShares k⌋).sum_eq, List.map_map, List.map_map]
    congr 2
    exact List.map_congr_left fun e he => congrArg Int.floor (shareOf_of_mem hn he).symm
  have hslice : slice (rankedKeys rawShares tie)
      (units (shareOf rawShares) (rankedKeys rawShares tie) total) =
      (rankedKeys rawShares tie).take
        (units (shareOf rawShares) (rankedKeys rawShares tie) total).toNat :=
    if_pos (units_nonneg (sum_shareOf tie hn hsum))
  have hfloors : (rawShares.map fun e => (e.1, ⌊e.2⌋)) =
      rawShares.map fun e => (e.1, ⌊shareOf rawShares e.1⌋) :=
    List.map_congr_left fun e he => by rw [shareOf_of_mem hn he]
  have hbump := bump_eq_ok hn ((hperm.nodup_iff.mpr hn).sublist (List.take_sublist
    (units (shareOf rawShares) (rankedKeys rawShares tie) total).toNat _))
      (fun k hk => hperm.subset (List.mem_of_mem_take hk)) fun k => ⌊shareOf rawShares k⌋
  rw [largestRemainder, hkeyed]
  simp only [bind, Except.bind, hunits]
  change List.foldlM _ _ (slice (rankedKeys rawShares tie) _) = _
  rw [hslice, hfloors]
  exact hbump

end Ranked

theorem largestRemainder_spec {τ : Type} [LinearOrder τ] (tieKey : String → Except LookupError τ)
    (tie : String → τ) {total : ℤ} (hn : (rawShares.map Prod.fst).Nodup)
    (htie : ∀ e ∈ rawShares, tieKey e.1 = .ok (tie e.1))
    (hsum : (rawShares.map Prod.snd).sum = total) :
    ∃ share : String → ℤ,
      largestRemainder rawShares tieKey total = .ok (rawShares.map fun e => (e.1, share e.1)) ∧
      (rawShares.map fun e => share e.1).sum = total ∧
      ∀ e ∈ rawShares, |(share e.1 : ℚ) - e.2| < 1 ∧ (0 ≤ e.2 → 0 ≤ share e.1) := by
  have hrawsum := sum_shareOf tie hn hsum
  refine ⟨_, largestRemainder_eq tie hn htie hsum, ?_, fun e he => ?_⟩
  · have := sum_apportion ((rankedKeys_perm tie).nodup_iff.mpr hn) hrawsum
    rw [((rankedKeys_perm tie).map _).sum_eq, List.map_map] at this
    exact this
  · have habs := abs_apportion_sub_lt_one hrawsum (rankedKeys_sorted tie hn) e.1
    rw [shareOf_of_mem hn he] at habs
    exact ⟨habs, fun h0 => apportion_nonneg (by rwa [shareOf_of_mem hn he])⟩

end LargestRemainder

section SectionSplit

theorem not_isTerminal_iff {state : TaskStepState} (h : isExcluded state = false) :
    (!state.isTerminal) = !decide (state = .completed) := by
  cases state <;> first | rfl | exact Bool.noConfusion h

theorem allocatable_perm (group : SectionGroup) :
    ((allocatable group).filter (fun step => step.state = .completed) ++
      (allocatable group).filter fun step => !step.state.isTerminal).Perm (allocatable group) := by
  have hopen : (allocatable group).filter (fun step => !step.state.isTerminal) =
      (allocatable group).filter fun step => !decide (step.state = .completed) := by
    refine List.filter_congr fun step hstep => not_isTerminal_iff ?_
    simpa using (List.mem_filter.mp hstep).2
  rw [hopen]
  exact List.filter_append_perm _ _

section Split

variable {completed openSteps : List DivisionStep}
  (hn : ((completed ++ openSteps).map DivisionStep.clientId).Nodup) (sectionAllowance : ℤ)

include hn

/-- With nothing open, the governing step takes what the completed steps leave. -/
theorem splitAllowance_governing (hne : completed ≠ []) :
    ∃ part : DivisionStep → ℤ,
      splitAllowance completed [] sectionAllowance =
        .ok (completed.map fun step => (step.clientId, part step)) ∧
      (completed.map part).sum = sectionAllowance := by
  have hnC : (completed.map DivisionStep.clientId).Nodup :=
    hn.sublist ((List.sublist_append_left _ _).map _)
  obtain ⟨g, hg, hgov⟩ := governingStep_mem hne
  generalize hresidual : sectionAllowance - (completed.map
    DivisionStep.totalWorkingSeconds).sum = residual
  have hworked : Dict.ofList (completed.map fun step =>
      (step.clientId, step.totalWorkingSeconds)) = completed.map fun step =>
        (step.clientId, step.totalWorkingSeconds) :=
    Dict.ofList_eq_self (by rwa [List.map_map])
  have hsum : ((completed.map fun step => (step.clientId, step.totalWorkingSeconds)).map
      Prod.snd).sum = (completed.map DivisionStep.totalWorkingSeconds).sum := by
    rw [List.map_map]; rfl
  have hget := Dict.getItem_map LookupError.keyError
    DivisionStep.totalWorkingSeconds hnC hg
  have hset := Dict.set_map DivisionStep.clientId
    DivisionStep.totalWorkingSeconds hg (g.totalWorkingSeconds + residual)
  refine ⟨fun step => if step.clientId = g.clientId then g.totalWorkingSeconds + residual
    else step.totalWorkingSeconds, ?_, ?_⟩
  · simp only [splitAllowance, hworked, hsum, hresidual, ne_eq, not_true_eq_false, if_false, hgov,
      bind, Except.bind, hget, hset]
    rfl
  · have hpart : ∀ step ∈ completed, (if step.clientId = g.clientId
        then g.totalWorkingSeconds + residual else step.totalWorkingSeconds) =
          step.totalWorkingSeconds + if step = g then residual else 0 := by
      intro step hstep
      by_cases he : step = g
      · simp [he]
      · have : step.clientId ≠ g.clientId := fun h =>
          he (List.inj_on_of_nodup_map hnC hstep hg h)
        simp [he, this]
    rw [List.map_congr_left hpart, List.sum_map_add,
      List.sum_map_eq_nsmul_single g _ fun j hj _ => if_neg hj,
      List.count_eq_one_of_mem (List.Nodup.of_map _ hnC) hg, one_nsmul, if_pos rfl]
    omega

/-- Open steps share what the completed ones leave, in equal parts. -/
theorem splitAllowance_open (hne : openSteps ≠ []) :
    ∃ share : String → ℤ,
      splitAllowance completed openSteps sectionAllowance =
        .ok ((completed.map fun step => (step.clientId, step.totalWorkingSeconds)) ++
          openSteps.map fun step => (step.clientId, share step.clientId)) ∧
      (completed.map DivisionStep.totalWorkingSeconds).sum +
        (openSteps.map fun step => share step.clientId).sum = sectionAllowance := by
  obtain ⟨hnC, hnO, hdisj⟩ := List.nodup_append.mp (List.map_append ▸ hn)
  generalize hresidual : sectionAllowance - (completed.map
    DivisionStep.totalWorkingSeconds).sum = residual
  have hworked : Dict.ofList (completed.map fun step =>
      (step.clientId, step.totalWorkingSeconds)) = completed.map fun step =>
        (step.clientId, step.totalWorkingSeconds) :=
    Dict.ofList_eq_self (by rwa [List.map_map])
  have hsum : ((completed.map fun step => (step.clientId, step.totalWorkingSeconds)).map
      Prod.snd).sum = (completed.map DivisionStep.totalWorkingSeconds).sum := by
    rw [List.map_map]; rfl
  let raw := openSteps.map fun step => (step.clientId, (residual : ℚ) / openSteps.length)
  have hrawkeys : raw.map Prod.fst = openSteps.map DivisionStep.clientId := by
    rw [List.map_map]; rfl
  have hrawsum : (raw.map Prod.snd).sum = residual := by
    have hlen : (openSteps.length : ℚ) ≠ 0 := by
      exact_mod_cast (List.length_pos_iff.mpr hne).ne'
    have hconst : raw.map Prod.snd = openSteps.map fun _ =>
        (residual : ℚ) / openSteps.length := by
      rw [List.map_map]; rfl
    rw [hconst, List.map_const', List.sum_replicate, nsmul_eq_mul, mul_div_cancel₀ _ hlen]
  let tie : String → Bool ×ₗ ℤ ×ₗ String := fun clientId =>
    ((openSteps.find? fun step => step.clientId = clientId).map sortKey).getD
      (toLex (false, toLex (0, "")))
  obtain ⟨share, hshare, hsharesum, _⟩ := largestRemainder_spec (openStepKey openSteps) tie
    (show (raw.map Prod.fst).Nodup by rwa [hrawkeys]) (by
      intro e he
      obtain ⟨step, hstep, rfl⟩ := List.mem_map.mp he
      cases hf : openSteps.find? fun s => s.clientId = step.clientId with
      | none => simpa using List.find?_eq_none.mp hf step hstep
      | some s => simp [tie, openStepKey, hf]) hrawsum
  have hofList : Dict.ofList raw = raw := Dict.ofList_eq_self (by rwa [hrawkeys])
  have hshares : (raw.map fun e => (e.1, share e.1)) = openSteps.map fun step =>
      (step.clientId, share step.clientId) := by
    rw [List.map_map]; rfl
  have hupdate : Dict.update (completed.map fun step =>
      (step.clientId, step.totalWorkingSeconds)) (openSteps.map fun step =>
        (step.clientId, share step.clientId)) =
      (completed.map fun step => (step.clientId, step.totalWorkingSeconds)) ++
        openSteps.map fun step => (step.clientId, share step.clientId) := by
    refine Dict.update_of_disjoint (by rwa [List.map_map]) fun k hk hk' => ?_
    rw [List.map_map] at hk hk'
    exact hdisj k hk' k hk rfl
  refine ⟨share, ?_, ?_⟩
  · simp only [splitAllowance, hworked, hsum, hresidual, ne_eq, hne, not_false_eq_true, if_true]
    change (largestRemainder (Dict.ofList raw) _ residual >>= _) = _
    rw [hofList, hshare, hshares]
    exact congrArg Except.ok hupdate
  · have : (openSteps.map fun step => share step.clientId).sum = residual := by
      rw [← hsharesum, List.map_map]; rfl
    omega

end Split

/-- A section's allowance is spent on its steps, and each of them finds its part. -/
theorem sectionStepAllowances_spec {group : SectionGroup}
    (hn : (group.steps.map DivisionStep.clientId).Nodup) (hne : allocatable group ≠ [])
    (sectionAllowance : ℤ) :
    ∃ (split : List (String × ℤ)) (part : DivisionStep → ℤ),
      sectionStepAllowances group sectionAllowance = .ok split ∧
      (∀ step ∈ allocatable group,
        Dict.getItem LookupError.keyError split step.clientId = .ok (part step)) ∧
      ((allocatable group).map part).sum = sectionAllowance := by
  have hperm := allocatable_perm group
  rw [sectionStepAllowances]
  generalize hcompleted : (allocatable group).filter (fun step => step.state = .completed) =
    completed at hperm ⊢
  generalize hopen : (allocatable group).filter (fun step => !step.state.isTerminal) =
    openSteps at hperm ⊢
  have hnCO : ((completed ++ openSteps).map DivisionStep.clientId).Nodup :=
    ((hperm.map _).nodup_iff).mpr (hn.sublist (List.filter_sublist.map _))
  by_cases ho : openSteps = []
  · subst ho
    rw [List.append_nil] at hperm
    have hCne : completed ≠ [] := fun h => hne (h ▸ hperm).symm.eq_nil
    obtain ⟨part, hsplit, hsum⟩ := splitAllowance_governing hnCO sectionAllowance hCne
    rw [List.append_nil] at hnCO
    exact ⟨_, part, hsplit, fun step hstep => Dict.getItem_map _ _ hnCO (hperm.mem_iff.mpr hstep),
      (hperm.map part).sum_eq ▸ hsum⟩
  · obtain ⟨share, hsplit, hsum⟩ := splitAllowance_open hnCO sectionAllowance ho
    have hstate : ∀ step ∈ openSteps, step.state ≠ .completed := by
      intro step hstep he
      rw [← hopen] at hstep
      simpa [he, TaskStepState.isTerminal] using (List.mem_filter.mp hstep).2
    have hcompletedState : ∀ step ∈ completed, step.state = .completed := by
      intro step hstep
      rw [← hcompleted] at hstep
      simpa using (List.mem_filter.mp hstep).2
    let part : DivisionStep → ℤ := fun step =>
      if step.state = .completed then step.totalWorkingSeconds else share step.clientId
    have hC : ∀ step ∈ completed, part step = step.totalWorkingSeconds :=
      fun step hstep => if_pos (hcompletedState step hstep)
    have hO : ∀ step ∈ openSteps, part step = share step.clientId :=
      fun step hstep => if_neg (hstate step hstep)
    have hentries : (completed.map fun step => (step.clientId, step.totalWorkingSeconds)) ++
        (openSteps.map fun step => (step.clientId, share step.clientId)) =
          (completed ++ openSteps).map fun step => (step.clientId, part step) := by
      rw [List.map_append]
      congr 1
      · exact List.map_congr_left fun step hstep => by rw [hC step hstep]
      · exact List.map_congr_left fun step hstep => by rw [hO step hstep]
    refine ⟨_, part, hsplit, fun step hstep => ?_, ?_⟩
    · rw [hentries]
      exact Dict.getItem_map _ _ hnCO (hperm.mem_iff.mpr hstep)
    · rw [← (hperm.map part).sum_eq, List.map_append, List.sum_append, List.map_congr_left hC,
        List.map_congr_left hO]
      exact hsum

end SectionSplit

end BeyoManager.ItemEconomics
