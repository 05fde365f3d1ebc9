import BeyoManager.ItemEconomics.Conservation
import BeyoManager.ItemEconomics.RemainingProductionPressure

/-! # Conservation of production pressure

The pressure is computed from the rows of a division. Both sides classify a step in the
same way, so the shares of the allocatable steps spend exactly what the charged steps
leave of the distributable seconds.
-/

namespace BeyoManager.ItemEconomics

open TaskSteps Transition Grouping Sorting

section Rows

variable {steps : List DivisionStep} {minutes : ℚ} {typicals : String → Option SelectedTypical}
  {sectionAttributes : Option (String → Option SectionAttributes)} {d : Division}

/-- How a row of a budget's division shows that its step takes part. -/
structure RowClassified (r : StepRow) : Prop where
  excluded_iff : r.isExcluded ↔ isExcluded r.state
  allowance_set : ¬ isExcluded r.state → ∃ a, r.allowanceSeconds = some a
  left_eq : r.leftSeconds = r.allowanceSeconds.map fun a => a - r.workedSeconds

theorem divideStep_classified {split : List (String × ℤ)} {sectionState : ShareState}
    {step : DivisionStep} {p : DivisionStep × StepRow} (hstate : sectionState ≠ .excluded)
    (h : divideStep split sectionState typicals step = .ok p) : RowClassified p.2 := by
  unfold divideStep at h
  split at h
  · rename_i he
    obtain rfl := by simpa using h
    exact ⟨by simp [StepRow.isExcluded, stepResult, he], fun hne => absurd he hne, rfl⟩
  · rename_i he
    simp only [bind_eq_ok, pure, Except.pure, Except.ok.injEq] at h
    obtain ⟨a, -, rfl⟩ := h
    exact ⟨by simp [StepRow.isExcluded, stepResult, he, hstate], fun _ => ⟨a, rfl⟩, rfl⟩

theorem divideSection_classified {allocated : List SectionGroup} {allowances : List (String × ℤ)}
    {g : SectionGroup} {x : SectionRow × List (DivisionStep × StepRow)}
    (hout : g ∉ allocated → ∀ step ∈ g.steps, isExcluded step.state)
    (h : divideSection allocated allowances typicals g = .ok x) :
    ∀ p ∈ x.2, RowClassified p.2 := by
  intro p hp
  unfold divideSection at h
  split at h
  · rename_i hg
    obtain rfl := by simpa using h
    obtain ⟨step, hstep, rfl⟩ := List.mem_map.mp hp
    have he := hout hg step hstep
    exact ⟨by simp [StepRow.isExcluded, stepResult, he], fun hne => absurd he hne, rfl⟩
  · simp only [bind_eq_ok, pure, Except.pure, Except.ok.injEq] at h
    obtain ⟨allowance, -, split, -, rows, hrows, rfl⟩ := h
    obtain ⟨step, -, hstep⟩ := mapM_mem hrows p hp
    exact divideStep_classified (by split <;> simp) hstep

/-- A row is excluded when its step is, and only then; every other row has an allowance. -/
theorem rowClassified_of_divide (h : divideProductionBudget (some minutes) steps typicals
    sectionAttributes = .ok d) : ∀ r ∈ d.steps, RowClassified r := by
  intro r hr
  have hlive : ∀ step ∈ liveSteps steps, step.isDeleted = false := fun step hstep => by
    simpa using (List.mem_filter.mp hstep).2
  obtain ⟨gs, hgroups, -, hgs⟩ := groupStepsBySection_spec sectionAttributes hlive
  simp only [divideProductionBudget, bind_eq_ok, pure, Except.pure, Except.ok.injEq] at h
  obtain ⟨groups, hg, shares, -, allowances, -, rows, hrows, rfl⟩ := h
  obtain rfl : gs = groups := by
    rw [← liveSteps, hgroups] at hg
    simpa using hg
  rw [sortedStepRows] at hr
  obtain ⟨p, hp, rfl⟩ := List.mem_map.mp hr
  obtain ⟨x, hx, hpx⟩ := List.mem_flatMap.mp (mem_sortBy.mp hp)
  obtain ⟨g, hgm, hdivide⟩ := mapM_mem hrows x hx
  refine divideSection_classified (fun hout step hstep => ?_) hdivide p hpx
  by_contra he
  refine hout (List.mem_filter.mpr ⟨hgm, ?_⟩)
  rw [(hgs g hgm).steps_eq] at hstep
  obtain ⟨hsm, hsid⟩ := mem_group.mp hstep
  rw [decide_eq_true_eq, ← hsid]
  exact List.mem_map_of_mem (List.mem_filter.mpr ⟨hsm, by simp [hlive step hsm, he]⟩)

end Rows

/-- A terminal step that takes part, or an open one past its allowance. -/
def isCharged (r : StepRow) : Bool :=
  !isExcluded r.state && (r.state.isTerminal || r.isConsuming)

def isAllocatable (r : StepRow) : Bool := !r.state.isTerminal && !r.isConsuming

def remainingSeconds (d : Division) (distributable : ℤ) : ℤ :=
  distributable - ((d.steps.filter isCharged).map StepRow.workedSeconds).sum

def openAllowance (d : Division) : ℤ :=
  ((d.steps.filter isAllocatable).map fun r => r.allowanceSeconds.getD 0).sum

/-- What the distribution of the pressure promises. -/
structure ConservesPressure (d : Division) (share : StepRow → Option ℤ) : Prop where
  nonneg : ∀ r ∈ d.steps, ∀ q ∈ share r, 0 ≤ q
  consuming : ∀ r ∈ d.steps, r.isConsuming → share r = some 0
  settled : ∀ r ∈ d.steps, r.state.isTerminal → share r = none
  /-- A positive remainder is spent on the allocatable steps to the second. -/
  conserved : ∀ distributable ∈ d.distributableSeconds,
    0 < remainingSeconds d distributable → 0 < openAllowance d →
      (∀ r ∈ d.steps, isAllocatable r → ∃ q, share r = some q) ∧
      ((d.steps.filter isAllocatable).map fun r => (share r).getD 0).sum =
        remainingSeconds d distributable
  /-- Without one, or with no allowance to share it by, nothing is handed out. -/
  otherwise : (∀ distributable ∈ d.distributableSeconds,
      remainingSeconds d distributable ≤ 0 ∨ openAllowance d ≤ 0) →
    ∀ r ∈ d.steps, share r = none ∨ share r = some 0

section Pressure

theorem isExcluded_isTerminal {state : TaskStepState} (h : isExcluded state) :
    state.isTerminal := by
  cases state <;> first | rfl | exact Bool.noConfusion h

variable {d : Division} (hrows : ∀ r ∈ d.steps, RowClassified r)
  (hn : (d.steps.map StepRow.stepId).Nodup) (hworked : ∀ r ∈ d.steps, 0 ≤ r.workedSeconds)

theorem isConsuming_open {r : StepRow} (h : r.isConsuming) : r.state.isTerminal = false := by
  simpa [StepRow.isOpen] using ((Bool.and_eq_true _ _).mp h).1

include hrows in
theorem consumingRows_eq : consumingRows d.steps = d.steps.filter StepRow.isConsuming := by
  rw [consumingRows, participatingRows, List.filter_filter, List.filter_filter]
  refine List.filter_congr fun r hr => ?_
  by_cases hc : r.isConsuming
  · have hopen := isConsuming_open hc
    have hne : ¬ isExcluded r.state := fun he => by
      rw [isExcluded_isTerminal he] at hopen
      simp at hopen
    have hin : ¬ r.isExcluded := fun he => hne ((hrows r hr).excluded_iff.mp he)
    simp [hc, StepRow.isOpen, hopen, hin]
  · simp [hc]

include hrows in
theorem allocatableRows_eq : allocatableRows d.steps = d.steps.filter isAllocatable := by
  rw [allocatableRows, participatingRows, List.filter_filter, List.filter_filter]
  refine List.filter_congr fun r hr => ?_
  by_cases hopen : r.state.isTerminal
  · simp [isAllocatable, StepRow.isOpen, hopen]
  · have hin : ¬ r.isExcluded := fun he =>
      hopen (isExcluded_isTerminal ((hrows r hr).excluded_iff.mp he))
    simp [isAllocatable, StepRow.isOpen, hopen, hin]

include hrows in
theorem chargedRows_perm : (chargedRows d.steps).Perm (d.steps.filter isCharged) := by
  rw [chargedRows, consumingRows_eq hrows]
  have hcharged : (d.steps.filter isCharged).filter (fun r => !r.isOpen) =
      (participatingRows d.steps).filter fun r => !r.isOpen := by
    rw [participatingRows, List.filter_filter, List.filter_filter]
    refine List.filter_congr fun r hr => ?_
    have hiff := (hrows r hr).excluded_iff
    cases ht : r.state.isTerminal <;> cases he : isExcluded r.state <;>
      simp_all [isCharged, StepRow.isOpen]
  have hconsuming : (d.steps.filter isCharged).filter (fun r => !!r.isOpen) =
      d.steps.filter StepRow.isConsuming := by
    rw [List.filter_filter]
    refine List.filter_congr fun r hr => ?_
    by_cases hc : r.isConsuming
    · have hopen := isConsuming_open hc
      have hne : ¬ isExcluded r.state := fun he => by
        rw [isExcluded_isTerminal he] at hopen
        simp at hopen
      simp [isCharged, hc, StepRow.isOpen, hopen, hne]
    · cases ht : r.state.isTerminal <;> simp [isCharged, hc, StepRow.isOpen, ht]
  rw [← hcharged, ← hconsuming]
  exact List.filter_append_perm _ _

include hrows hworked in
theorem allocatable_allowance {r : StepRow} (hr : r ∈ d.steps) (h : isAllocatable r) :
    ∃ a, r.allowanceSeconds = some a ∧ 0 ≤ a := by
  simp only [isAllocatable, Bool.and_eq_true, Bool.not_eq_true'] at h
  have hne : ¬ isExcluded r.state := fun he => by
    rw [isExcluded_isTerminal he] at h
    simp at h
  obtain ⟨a, ha⟩ := (hrows r hr).allowance_set hne
  have hleft := (hrows r hr).left_eq
  have hnot := h.2
  rw [ha] at hleft
  simp only [StepRow.isConsuming, StepRow.isOpen, h.1, hleft, Option.map_some, Option.any_some,
    Bool.not_false, Bool.true_and, decide_eq_false_iff_not, not_lt] at hnot
  have := hworked r hr
  exact ⟨a, ha, by omega⟩

include hn in
/-- Writing the shares of the rows that satisfy a condition. -/
theorem update_filter (share share' : StepRow → Option ℤ) (p : StepRow → Bool) :
    Dict.update (d.steps.map fun r => (r.stepId, share r))
      ((d.steps.filter p).map fun r => (r.stepId, share' r)) =
      d.steps.map fun r => (r.stepId, if p r then share' r else share r) := by
  have hkeys : (((d.steps.filter p).map fun r => (r.stepId, share' r)).map Prod.fst) =
      (d.steps.filter p).map StepRow.stepId := by
    rw [List.map_map]
    rfl
  rw [Dict.update_map StepRow.stepId share
    (by rw [hkeys]; exact hn.sublist (List.filter_sublist.map _))
    (by rw [hkeys]; exact List.map_subset _ (List.filter_subset_self _))]
  refine List.map_congr_left fun r hr => ?_
  by_cases hp : p r
  · have hget := Dict.getItem_map (fun _ : String => ()) share'
      (hn.sublist (List.filter_sublist.map _)) (List.mem_filter.mpr ⟨hr, hp⟩)
    rw [Dict.getItem] at hget
    rw [if_pos hp]
    split at hget
    · rename_i e he
      rw [he]
      simpa using hget
    · simp at hget
  · have hnone : ((d.steps.filter p).map fun r => (r.stepId, share' r)).find?
        (fun e => e.1 = r.stepId) = none := by
      refine List.find?_eq_none.mpr fun e he hid => ?_
      obtain ⟨q, hq, rfl⟩ := List.mem_map.mp he
      obtain ⟨hqm, hpq⟩ := List.mem_filter.mp hq
      exact hp (List.inj_on_of_nodup_map hn hqm hr (by simpa using hid) ▸ hpq)
    rw [hnone, if_neg hp]
    rfl

include hn in
theorem zeroShares_map (share : StepRow → Option ℤ) (p : StepRow → Bool) :
    zeroShares (d.steps.map fun r => (r.stepId, share r)) (d.steps.filter p) =
      d.steps.map fun r => (r.stepId, if p r then some 0 else share r) := by
  have hupdate := update_filter hn share (fun _ => some 0) p
  rw [Dict.update, List.foldl_map] at hupdate
  exact hupdate

include hrows hworked in
theorem mapM_allowance : (d.steps.filter isAllocatable).mapM StepRow.allowance =
    .ok ((d.steps.filter isAllocatable).map fun r => r.allowanceSeconds.getD 0) := by
  refine mapM_eq_ok fun r hr => ?_
  obtain ⟨hrm, hra⟩ := List.mem_filter.mp hr
  obtain ⟨a, ha, -⟩ := allocatable_allowance hrows hworked hrm hra
  rw [StepRow.allowance, ha]
  rfl

include hrows hworked in
theorem sum_clamped : (((d.steps.filter isAllocatable).map fun r => r.allowanceSeconds.getD 0).map
    fun allowance => max 0 allowance).sum = openAllowance d := by
  rw [openAllowance, List.map_map]
  refine congrArg List.sum (List.map_congr_left fun r hr => ?_)
  obtain ⟨hrm, hra⟩ := List.mem_filter.mp hr
  obtain ⟨a, ha, h0⟩ := allocatable_allowance hrows hworked hrm hra
  simpa [ha] using h0

include hrows hn hworked in
/-- The third rounding spends the remainder on the allocatable steps. -/
theorem pressureShares_spec (share : StepRow → Option ℤ) {remaining : ℤ} (hpos : 0 < remaining)
    (hopen : openAllowance d ≠ 0) :
    ∃ units : StepRow → ℤ,
      pressureShares d.steps (d.steps.map fun r => (r.stepId, share r))
        ((remaining : ℚ) / openAllowance d) remaining =
        .ok (d.steps.map fun r => (r.stepId, if isAllocatable r then some (units r) else share r)) ∧
      (∀ r ∈ d.steps, isAllocatable r → 0 ≤ units r) ∧
      ((d.steps.filter isAllocatable).map units).sum = remaining := by
  set rows := d.steps.filter isAllocatable with hrowsDef
  set ratio : ℚ := (remaining : ℚ) / openAllowance d with hratio
  have hnRows : (rows.map StepRow.stepId).Nodup := hn.sublist (List.filter_sublist.map _)
  have hallowance : ∀ r ∈ rows, ∃ a, r.allowanceSeconds = some a ∧ 0 ≤ a := fun r hr =>
    allocatable_allowance hrows hworked (List.mem_filter.mp hr).1 (List.mem_filter.mp hr).2
  have hopen0 : (0 : ℚ) ≤ openAllowance d := by
    have : 0 ≤ openAllowance d := List.sum_nonneg fun x hx => by
      obtain ⟨r, hr, rfl⟩ := List.mem_map.mp hx
      obtain ⟨a, ha, h0⟩ := hallowance r hr
      simpa [ha] using h0
    exact_mod_cast this
  have hratio0 : 0 ≤ ratio := div_nonneg (by exact_mod_cast hpos.le) hopen0
  let raw := rows.map fun r => (r.stepId, ((r.allowanceSeconds.getD 0 : ℤ) : ℚ) * ratio)
  have hraw : (allocatableRows d.steps).mapM (rawPressureShare ratio) = .ok raw := by
    rw [allocatableRows_eq hrows]
    refine mapM_eq_ok fun r hr => ?_
    obtain ⟨a, ha, -⟩ := hallowance r hr
    rw [rawPressureShare, StepRow.allowance, ha]
    rfl
  have hkeys : raw.map Prod.fst = rows.map StepRow.stepId := by
    rw [List.map_map]
    rfl
  have hrawSum : (raw.map Prod.snd).sum = remaining := by
    have hsum : raw.map Prod.snd = rows.map fun r =>
        ((r.allowanceSeconds.getD 0 : ℤ) : ℚ) * ratio := by
      rw [List.map_map]
      rfl
    have hcast : (rows.map fun r => ((r.allowanceSeconds.getD 0 : ℤ) : ℚ)).sum =
        openAllowance d := by
      rw [openAllowance, Int.cast_list_sum, List.map_map]
      rfl
    rw [hsum, List.sum_map_mul_right, hcast, hratio]
    have : (openAllowance d : ℚ) ≠ 0 := by exact_mod_cast hopen
    field_simp
  -- the order of the rows breaks the ties
  let order := d.steps.zipIdx.map fun e => (e.1.stepId, e.2)
  have horder : (order.map Prod.fst).Nodup := by
    have : order.map Prod.fst = d.steps.map StepRow.stepId := by
      rw [List.map_map]
      conv_rhs => rw [← List.zipIdx_map_fst 0 d.steps, List.map_map]
      rfl
    rwa [this]
  have htie : ∀ e ∈ raw, ∃ i, Dict.getItem LookupError.keyError (Dict.ofList order) e.1 =
      .ok i := by
    intro e he
    obtain ⟨r, hr, rfl⟩ := List.mem_map.mp he
    obtain ⟨i, hi, hri⟩ := List.mem_iff_getElem.mp (List.mem_filter.mp hr).1
    refine ⟨i, ?_⟩
    rw [Dict.ofList_eq_self horder]
    refine Dict.getItem_of_mem horder (List.mem_map.mpr ⟨(r, i), ?_, rfl⟩)
    exact List.mem_zipIdx_iff_getElem?.mpr (by rw [List.getElem?_eq_getElem hi, hri])
  choose! tie htie using fun (k : String) (h : ∃ e ∈ raw, e.1 = k) =>
    htie h.choose h.choose_spec.1
  obtain ⟨units, hunits, htotal, hall⟩ := largestRemainder_spec
    (Dict.getItem LookupError.keyError (Dict.ofList order)) tie
    (show (raw.map Prod.fst).Nodup by rwa [hkeys])
    (fun e he => by
      have := htie e.1 ⟨e, he, rfl⟩
      rwa [(⟨e, he, rfl⟩ : ∃ x ∈ raw, x.1 = e.1).choose_spec.2] at this) hrawSum
  have hentries : (raw.map fun e => (e.1, units e.1)).map (fun e => (e.1, some e.2)) =
      rows.map fun r => (r.stepId, some (units r.stepId)) := by
    rw [List.map_map, List.map_map]
    rfl
  refine ⟨fun r => units r.stepId, ?_, fun r hr hra => ?_, ?_⟩
  · have hofList : Dict.ofList raw = raw := Dict.ofList_eq_self (by rwa [hkeys])
    refine bind_eq_ok.mpr ⟨raw, hraw, bind_eq_ok.mpr ⟨_, by rw [hofList]; exact hunits, ?_⟩⟩
    rw [hentries]
    exact congrArg Except.ok (update_filter hn share _ _)
  · have hmem := List.mem_map_of_mem (f := fun r : StepRow =>
      (r.stepId, ((r.allowanceSeconds.getD 0 : ℤ) : ℚ) * ratio)) (List.mem_filter.mpr ⟨hr, hra⟩)
    obtain ⟨a, ha, h0⟩ := allocatable_allowance hrows hworked hr hra
    refine (hall _ hmem).2 (mul_nonneg ?_ hratio0)
    rw [ha]
    exact_mod_cast h0
  · rw [← htotal, List.map_map]
    rfl

def consumingShare (r : StepRow) : Option ℤ := if r.isConsuming then some 0 else none

theorem consumingShare_cases (r : StepRow) :
    consumingShare r = none ∨ consumingShare r = some 0 := by
  unfold consumingShare
  split <;> simp

/-- Shares that give something to the allocatable steps alone. -/
theorem ConservesPressure.of_units {units : StepRow → ℤ}
    (h0 : ∀ r ∈ d.steps, isAllocatable r → 0 ≤ units r)
    (hsum : ∀ distributable ∈ d.distributableSeconds, 0 < remainingSeconds d distributable →
      0 < openAllowance d →
        ((d.steps.filter isAllocatable).map units).sum = remainingSeconds d distributable)
    (hzero : (∀ distributable ∈ d.distributableSeconds,
      remainingSeconds d distributable ≤ 0 ∨ openAllowance d ≤ 0) →
        ∀ r ∈ d.steps, isAllocatable r → units r = 0) :
    ConservesPressure d fun r => if isAllocatable r then some (units r) else consumingShare r where
  nonneg r hr q hq := by
    by_cases ha : isAllocatable r
    · rw [if_pos ha] at hq
      obtain rfl : units r = q := by simpa using hq
      exact h0 r hr ha
    · rw [if_neg ha] at hq
      rcases consumingShare_cases r with hc | hc <;> rw [hc] at hq <;> simp_all
  consuming r _ hc := by simp [isAllocatable, consumingShare, hc]
  settled r _ ht := by
    have hc : r.isConsuming = false := by
      by_contra hne
      have := isConsuming_open (by simpa using hne)
      simp [ht] at this
    simp [isAllocatable, consumingShare, ht, hc]
  conserved distributable hd hpos hopen := by
    refine ⟨fun r _ ha => ⟨units r, if_pos ha⟩, ?_⟩
    rw [← hsum distributable hd hpos hopen]
    refine congrArg List.sum (List.map_congr_left fun r hr => ?_)
    rw [if_pos (List.mem_filter.mp hr).2]
    rfl
  otherwise h r hr := by
    by_cases ha : isAllocatable r
    · rw [if_pos ha, hzero h r hr ha]
      exact .inr rfl
    · rw [if_neg ha]
      exact consumingShare_cases r

include hrows hn hworked in
/-- The pressure never fails on the rows of a budget's division, and conserves it. -/
theorem computeRemainingPressure_spec {distributable : ℤ}
    (hd : d.distributableSeconds = some distributable) :
    ∃ p share, computeRemainingPressure d = .ok p ∧
      p.pressureShareSecondsByStepId = d.steps.map (fun r => (r.stepId, share r)) ∧
      ConservesPressure d share := by
  have hkeys : ((d.steps.map fun r => (r.stepId, (none : Option ℤ))).map Prod.fst).Nodup := by
    rw [List.map_map]
    exact hn
  have hshares : zeroShares (Dict.ofList (d.steps.map fun r => (r.stepId, none)))
      (consumingRows d.steps) = d.steps.map fun r => (r.stepId, consumingShare r) := by
    rw [Dict.ofList_eq_self hkeys, consumingRows_eq hrows]
    exact zeroShares_map hn (fun _ => none) StepRow.isConsuming
  have hremaining : distributable - ((chargedRows d.steps).map StepRow.workedSeconds).sum =
      remainingSeconds d distributable := by
    rw [remainingSeconds, ((chargedRows_perm hrows).map _).sum_eq]
  have hzeroed : zeroShares (d.steps.map fun r => (r.stepId, consumingShare r))
      (d.steps.filter isAllocatable) = d.steps.map fun r =>
        (r.stepId, if isAllocatable r then some 0 else consumingShare r) :=
    zeroShares_map hn consumingShare isAllocatable
  have hzero : ¬ (0 < remainingSeconds d distributable ∧ 0 < openAllowance d) →
      ConservesPressure d fun r => if isAllocatable r then some 0 else consumingShare r :=
    fun hnot => @ConservesPressure.of_units d (fun _ => 0) (fun _ _ _ => le_rfl)
      (fun e he hpos hopen => by
        obtain rfl : distributable = e := by simpa [hd] using he
        exact absurd ⟨hpos, hopen⟩ hnot)
      (fun _ _ _ _ => rfl)
  simp only [computeRemainingPressure, hd, hshares, allocatableRows_eq hrows,
    mapM_allowance hrows hworked, bind, Except.bind, sum_clamped hrows hworked, hremaining, hzeroed]
  split
  · rename_i hnil
    refine ⟨_, consumingShare, rfl, rfl, ?_⟩
    have hall : ∀ r ∈ d.steps, ¬ isAllocatable r := fun r hr => List.filter_eq_nil_iff.mp hnil r hr
    have hc := hzero fun h => by simp [openAllowance, hnil] at h
    exact {
      nonneg := fun r hr q hq => hc.nonneg r hr q (by rwa [if_neg (hall r hr)])
      consuming := fun r _ h => by simp [consumingShare, h]
      settled := fun r hr h => by simpa [hall r hr] using hc.settled r hr h
      conserved := fun _ _ _ hopen => by simp [openAllowance, hnil] at hopen
      otherwise := fun _ r _ => consumingShare_cases r }
  · split
    · rename_i hopen
      exact ⟨_, _, rfl, rfl, hzero fun h => by omega⟩
    · rename_i hopen
      split
      · rename_i hle
        exact ⟨_, _, rfl, rfl, hzero fun h => by omega⟩
      · rename_i hpos
        obtain ⟨units, hunits, h0, hsum⟩ := pressureShares_spec hrows hn hworked consumingShare
          (not_le.mp hpos) hopen
        have hopen0 : 0 ≤ openAllowance d := by
          rw [← sum_clamped hrows hworked]
          exact List.sum_nonneg fun x hx => by
            obtain ⟨y, -, rfl⟩ := List.mem_map.mp hx
            exact le_max_left _ _
        rw [hunits]
        refine ⟨_, _, rfl, rfl, ConservesPressure.of_units h0 (fun e he _ _ => ?_) fun h => ?_⟩
        · obtain rfl : distributable = e := by simpa [hd] using he
          exact hsum
        · have := h distributable hd
          omega

end Pressure

section Claim

theorem noBudgetDivision_steps {live : List DivisionStep} {groups : List SectionGroup}
    {typicals : String → Option SelectedTypical} :
      ∀ r ∈ (noBudgetDivision live groups typicals).steps,
      r.leftSeconds = none := by
  intro r hr
  rw [noBudgetDivision, sortedStepRows] at hr
  obtain ⟨p, hp, rfl⟩ := List.mem_map.mp hr
  obtain ⟨step, -, rfl⟩ := List.mem_map.mp (mem_sortBy.mp hp)
  rfl

/-- Production pressure hands out, to the second, what a division leaves to its open steps. -/
theorem production_pressure_conserves (allowedWorkerMinutes : Option ℚ) (steps : List DivisionStep)
    (hids : (steps.map DivisionStep.clientId).Nodup)
    (hworked : ∀ step ∈ steps, 0 ≤ step.totalWorkingSeconds)
    (typicals : String → Option SelectedTypical)
    (sectionAttributes : Option (String → Option SectionAttributes)) :
    ∃ d p share,
      divideProductionBudget allowedWorkerMinutes steps typicals sectionAttributes = .ok d ∧
      computeRemainingPressure d = .ok p ∧
      p.pressureShareSecondsByStepId = d.steps.map (fun r => (r.stepId, share r)) ∧
      ConservesPressure d share := by
  obtain ⟨d, hd, hconserves⟩ := exists_division allowedWorkerMinutes steps hids
    typicals sectionAttributes
  cases allowedWorkerMinutes with
  | none =>
    obtain ⟨gs, hgroups, -⟩ := groupStepsBySection_spec sectionAttributes
      fun step (hstep : step ∈ liveSteps steps) => by simpa using (List.mem_filter.mp hstep).2
    obtain rfl : noBudgetDivision (liveSteps steps) gs typicals = d := by
      rw [divideProductionBudget, ← liveSteps, hgroups] at hd
      simpa [bind, Except.bind, pure, Except.pure] using hd
    have hnone : ∀ r ∈ (noBudgetDivision (liveSteps steps) gs typicals).steps,
        r.leftSeconds = none := noBudgetDivision_steps
    have hids' : ((noBudgetDivision (liveSteps steps) gs typicals).steps.map
        StepRow.stepId).Nodup := by
      have hperm : ((noBudgetDivision (liveSteps steps) gs typicals).steps.map
          StepRow.stepId).Perm ((liveSteps steps).map DivisionStep.clientId) := by
        rw [noBudgetDivision, sortedStepRows]
        refine (((sortBy_perm _ _).map _).map _).trans ?_
        rw [List.map_map, List.map_map]
        exact List.Perm.refl _
      exact hperm.nodup_iff.mpr (hids.sublist (List.filter_sublist.map _))
    refine ⟨_, _, fun _ => none, hd, rfl, ?_, ?_⟩
    · exact Dict.ofList_eq_self (by rwa [List.map_map])
    · exact {
        nonneg := fun _ _ _ h => by simp at h
        consuming := fun r hr h => by simp [StepRow.isConsuming, hnone r hr] at h
        settled := fun _ _ _ => rfl
        conserved := fun _ h => by simp [noBudgetDivision] at h
        otherwise := fun _ _ _ => .inl rfl }
  | some minutes =>
    have hc := hconserves minutes rfl
    have hmem : ∀ r ∈ d.steps, ∃ step ∈ liveSteps steps,
        step.clientId = r.stepId ∧ step.totalWorkingSeconds = r.workedSeconds := fun r hr => by
      obtain ⟨step, hstep, he⟩ := List.mem_map.mp (hc.step_rows.subset (List.mem_map_of_mem hr))
      simp only [Prod.mk.injEq] at he
      exact ⟨step, hstep, he.1, he.2.2.2⟩
    have hn : (d.steps.map StepRow.stepId).Nodup := by
      have hperm := hc.step_rows.map Prod.fst
      rw [List.map_map, List.map_map] at hperm
      exact hperm.nodup_iff.mpr (hids.sublist (List.filter_sublist.map _))
    have hrowsWorked : ∀ r ∈ d.steps, 0 ≤ r.workedSeconds := fun r hr => by
      obtain ⟨step, hstep, -, he⟩ := hmem r hr
      exact he ▸ hworked step (List.mem_filter.mp hstep).1
    obtain ⟨p, share, hp, hshares, hpressure⟩ := computeRemainingPressure_spec
      (rowClassified_of_divide hd) hn hrowsWorked hc.distributable_eq
    exact ⟨d, p, share, hd, hp, hshares, hpressure⟩

/-- An overrun step, a settled one and two open ones. -/
theorem production_pressure_conserves_four_steps :
    let steps : List DivisionStep :=
      [⟨"a", .working, "x", 500, some 1, none, false, none, none⟩,
       ⟨"b", .completed, "y", 70, some 2, none, false, none, none⟩,
       ⟨"c", .pending, "y", 0, some 3, none, false, none, none⟩,
       ⟨"d", .paused, "z", 11, none, none, false, none, none⟩]
    ∃ d p share, divideProductionBudget (some 20) steps (fun _ => none) none = .ok d ∧
      computeRemainingPressure d = .ok p ∧
      p.pressureShareSecondsByStepId = d.steps.map (fun r => (r.stepId, share r)) ∧
      ConservesPressure d share := by
  intro steps
  exact production_pressure_conserves (some 20) steps (by decide) (by decide) (fun _ => none) none

/-- A pending step with less than no worked time takes a negative share. -/
theorem production_pressure_of_negative_worked :
    let steps : List DivisionStep :=
      [⟨"a", .completed, "x", 900, some 1, none, false, none, none⟩,
       ⟨"b", .pending, "x", -400, some 2, none, false, none, none⟩,
       ⟨"c", .pending, "y", 0, some 3, none, false, none, none⟩]
    ¬ ∃ d p share, divideProductionBudget (some 20) steps (fun _ => none) none = .ok d ∧
      computeRemainingPressure d = .ok p ∧
      p.pressureShareSecondsByStepId = d.steps.map (fun r => (r.stepId, share r)) ∧
      ConservesPressure d share := by
  rintro steps ⟨d, p, share, hd, hp, hshares, hconserves⟩
  have hpressure : ((divideProductionBudget (some 20) steps (fun _ => none) none >>=
      computeRemainingPressure).map fun p => p.pressureShareSecondsByStepId) =
        .ok [("a", none), ("b", some (-149)), ("c", some 301)] := by decide +kernel
  have hp' : (divideProductionBudget (some 20) steps (fun _ => none) none >>=
      computeRemainingPressure) = .ok p := bind_eq_ok.mpr ⟨d, hd, hp⟩
  rw [hp'] at hpressure
  have hlist := hshares.symm.trans (Except.ok.inj hpressure)
  have hmem : ("b", some (-149 : ℤ)) ∈ d.steps.map fun r => (r.stepId, share r) := by
    rw [hlist]
    simp
  obtain ⟨r, hr, hshare⟩ := List.mem_map.mp hmem
  have hnonneg := hconserves.nonneg r hr (-149) (Prod.mk.inj hshare).2
  omega

end Claim

end BeyoManager.ItemEconomics
