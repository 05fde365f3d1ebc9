import BeyoManager.Analytics.Locality
import BeyoManager.Library.Dict

/-! # Forward rates of averaged time

The clients extrapolate a record's averaged seconds with the rate at which it accrues. While
no record enters or closes, and no closed batch record still runs, the rate predicts the
seconds of the sweep.
-/

namespace BeyoManager.Analytics

open Grouping Relational Sweep Tally Set

section Rates

abbrev Rates := List (String × ℚ × ℕ)

def eligible (intervals : List TimeInterval) (now : ℚ) : List TimeInterval :=
  intervals.filter fun i => (i.exitedAt.isNone && !i.markedWrong) && decide (i.enteredAt ≤ now)

def intervalRate (stateIntervals : List TimeInterval) (i : TimeInterval) : ℚ × ℕ :=
  let divisor := stateIntervals.countP TimeInterval.isBatchable
  if i.isBatchable then (1 / divisor, divisor) else (1, 1)

def stateRates (rates : Rates) (stateIntervals : List TimeInterval) : Rates :=
  stateIntervals.foldl (fun rates i =>
    Dict.set rates i.recordId (intervalRate stateIntervals i)) rates

/-- `accrual_rate_by_record`. -/
def accrualRateByRecord (intervals : List TimeInterval) (now : ℚ) : Rates :=
  (byState (eligible intervals now)).foldl stateRates []

def Rates.get (rates : Rates) (recordId : String) : Option (ℚ × ℕ) :=
  (rates.find? fun e => e.1 = recordId).map Prod.snd

end Rates

section Span

variable (intervals : List TimeInterval) (now now' : ℚ)

/-- No record enters or closes in the span. -/
def Quiet : Prop :=
  ∀ j ∈ intervals, ¬ (now < j.enteredAt ∧ j.enteredAt ≤ now') ∧
    ∀ e, j.exitedAt = some e → ¬ (now < e ∧ e ≤ now')

/-- No trusted batch record that is closed runs through the span, with its exit after it. -/
def NoneClosing : Prop :=
  ∀ j ∈ intervals, j.markedWrong = false → j.isBatchable = true → ∀ e, j.exitedAt = some e →
    ¬ (j.enteredAt ≤ now ∧ now' < e)

/-- What the rates predict: the seconds of the records that accrue grow at their rates, and those
of the others stay. -/
def Predicts : Prop :=
  ∀ i ∈ intervals,
    (∀ r k, (accrualRateByRecord intervals now).get i.recordId = some (r, k) →
      amount (averagedSecondsByRecord intervals now') i.recordId =
        amount (averagedSecondsByRecord intervals now) i.recordId + r * (now' - now)) ∧
    ((accrualRateByRecord intervals now).get i.recordId = none →
      amount (averagedSecondsByRecord intervals now') i.recordId =
        amount (averagedSecondsByRecord intervals now) i.recordId)

end Span

section Reported

variable {intervals : List TimeInterval} {now : ℚ} {i : TimeInterval}

theorem mem_eligible : i ∈ eligible intervals now ↔
    i ∈ intervals ∧ i.exitedAt = none ∧ i.markedWrong = false ∧ i.enteredAt ≤ now := by
  simp [eligible, and_assoc]

def reported (g : List TimeInterval) : Rates := g.map fun i => (i.recordId, intervalRate g i)

theorem foldl_stateRates (groups : List (List TimeInterval)) (rates : Rates) :
    groups.foldl stateRates rates = Dict.update rates (groups.flatMap reported) := by
  induction groups generalizing rates with
  | nil => rfl
  | cons g groups ih =>
    rw [List.foldl_cons, ih, List.flatMap_cons, Dict.update, Dict.update, List.foldl_append,
      reported, List.foldl_map]
    rfl

theorem map_fst_flatMap_reported (groups : List (List TimeInterval)) :
    (groups.flatMap reported).map Prod.fst = groups.flatten.map TimeInterval.recordId := by
  induction groups with
  | nil => rfl
  | cons g groups ih =>
    rw [List.flatMap_cons, List.map_append, ih, List.flatten_cons, List.map_append, reported,
      List.map_map]
    rfl

theorem byState_perm (l : List TimeInterval) : (byState l).flatten.Perm l := by
  have hperm : ((keys TimeInterval.state l).flatMap (group TimeInterval.state l)).Perm l :=
    flatMap_group_perm keys_nodup fun x hx => mem_keys.mpr ⟨x, hx, rfl⟩
  rwa [List.flatMap_def] at hperm

theorem accrualRateByRecord_eq (hk : Keyed TimeInterval.recordId intervals) :
    accrualRateByRecord intervals now = (byState (eligible intervals now)).flatMap reported := by
  rw [accrualRateByRecord, foldl_stateRates]
  apply Dict.ofList_eq_self
  rw [map_fst_flatMap_reported]
  exact ((byState_perm _).map _).nodup_iff.mpr (keyed_filter hk _)

theorem mem_accrualRateByRecord (hk : Keyed TimeInterval.recordId intervals)
    {e : String × ℚ × ℕ} : e ∈ accrualRateByRecord intervals now ↔
      ∃ j ∈ eligible intervals now,
        e = (j.recordId, intervalRate
          (group TimeInterval.state (eligible intervals now) j.state) j) := by
  rw [accrualRateByRecord_eq hk, byState, List.mem_flatMap]
  constructor
  · rintro ⟨g, hg, he⟩
    obtain ⟨state, -, rfl⟩ := List.mem_map.mp hg
    obtain ⟨j, hj, rfl⟩ := List.mem_map.mp he
    obtain ⟨hmem, rfl⟩ := mem_group.mp hj
    exact ⟨j, hmem, rfl⟩
  · rintro ⟨j, hj, rfl⟩
    exact ⟨_, List.mem_map_of_mem (mem_keys.mpr ⟨j, hj, rfl⟩),
      List.mem_map.mpr ⟨j, mem_group.mpr ⟨hj, rfl⟩, rfl⟩⟩

theorem get_accrualRateByRecord (hk : Keyed TimeInterval.recordId intervals)
    (hi : i ∈ eligible intervals now) : (accrualRateByRecord intervals now).get i.recordId =
      some (intervalRate (group TimeInterval.state (eligible intervals now) i.state) i) := by
  rw [Rates.get]
  cases hfind : (accrualRateByRecord intervals now).find? fun e => e.1 = i.recordId with
  | none =>
    have hmem := (mem_accrualRateByRecord hk).mpr ⟨i, hi, rfl⟩
    simpa using List.find?_eq_none.mp hfind _ hmem
  | some e =>
    obtain ⟨j, hj, rfl⟩ := (mem_accrualRateByRecord hk).mp (List.mem_of_find?_eq_some hfind)
    have hid : j.recordId = i.recordId := by simpa using List.find?_some hfind
    obtain rfl := hk.inj (mem_eligible.mp hj).1 (mem_eligible.mp hi).1 hid
    rfl

theorem get_accrualRateByRecord_eq_none (hk : Keyed TimeInterval.recordId intervals)
    (hi : i ∈ intervals) (hnot : i ∉ eligible intervals now) :
    (accrualRateByRecord intervals now).get i.recordId = none := by
  rw [Rates.get, Option.map_eq_none_iff, List.find?_eq_none]
  rintro e he hid
  obtain ⟨j, hj, rfl⟩ := (mem_accrualRateByRecord hk).mp he
  have hid : j.recordId = i.recordId := by simpa using hid
  exact hnot (hk.inj (mem_eligible.mp hj).1 hi hid ▸ hj)

end Reported

section Prediction

variable {intervals : List TimeInterval} {now now' : ℚ} {i j : TimeInterval} {x : ℚ}

theorem lt_endAt_iff (hle : now ≤ now') (hx : x < now ∨ now' ≤ x) :
    x < j.endAt now' ↔ x < j.endAt now := by
  unfold TimeInterval.endAt
  cases j.exitedAt with
  | some e => rfl
  | none =>
    simp only [Option.getD_none]
    constructor
    · intro h
      exact hx.resolve_right h.not_ge
    · intro h
      exact h.trans_le hle

theorem concurrency_eq (hle : now ≤ now') (hx : x < now ∨ now' ≤ x) (state : String) :
    concurrency intervals now' state x = concurrency intervals now state x := by
  unfold concurrency
  apply List.countP_congr
  intro j _
  simp only [lt_endAt_iff hle hx]

/-- Within the span, the eligible batch records of the state run. -/
theorem concurrency_within (hquiet : Quiet intervals now now')
    (hclosing : NoneClosing intervals now now') (hx : now ≤ x) (hx' : x < now') (state : String) :
    concurrency intervals now' state x =
      (group TimeInterval.state (eligible intervals now) state).countP
        TimeInterval.isBatchable := by
  unfold concurrency group eligible
  rw [List.filter_filter, List.countP_filter]
  refine List.countP_congr fun j hj => ?_
  obtain ⟨hentering, hexit⟩ := hquiet j hj
  simp only [Bool.and_eq_true, Bool.not_eq_true', decide_eq_true_eq, Option.isNone_iff_eq_none]
  constructor
  · rintro ⟨⟨hw, hb⟩, hstate, hentered, hend⟩
    have hnow : j.enteredAt ≤ now := by
      by_contra h
      exact hentering ⟨not_le.mp h, hentered.trans hx'.le⟩
    have hopen : j.exitedAt = none := by
      cases he : j.exitedAt with
      | none => rfl
      | some e =>
        rw [endAt_of_closed he] at hend
        have hlate : now' < e := not_le.mp fun h => hexit e he ⟨hx.trans_lt hend, h⟩
        exact absurd ⟨hnow, hlate⟩ (hclosing j hj hw hb e he)
    exact ⟨hb, hstate, ⟨hopen, hw⟩, hnow⟩
  · rintro ⟨hb, hstate, ⟨hopen, hw⟩, hnow⟩
    refine ⟨⟨hw, hb⟩, hstate, hnow.trans hx, ?_⟩
    rw [TimeInterval.endAt, hopen]
    exact hx'

theorem rate_eq_add (hle : now ≤ now') (hquiet : Quiet intervals now now')
    (hclosing : NoneClosing intervals now now') (hi : i ∈ eligible intervals now) (x : ℚ) :
    rate intervals now' i x = rate intervals now i x +
      if now ≤ x ∧ x < now' then 1 / ((group TimeInterval.state (eligible intervals now)
        i.state).countP TimeInterval.isBatchable : ℚ) else 0 := by
  obtain ⟨-, hopen, -, hentered⟩ := mem_eligible.mp hi
  have hend : i.endAt now = now ∧ i.endAt now' = now' := by simp [TimeInterval.endAt, hopen]
  rw [rate, rate, hend.1, hend.2]
  rcases lt_or_ge x now with hx | hx
  · simp only [concurrency_eq hle (.inl hx), hx, hx.trans_le hle, hx.not_ge, false_and, if_false,
      add_zero]
  · rcases lt_or_ge x now' with hx' | hx'
    · have hrun : i.enteredAt ≤ x ∧ x < now' := ⟨hentered.trans hx, hx'⟩
      have hin : now ≤ x ∧ x < now' := ⟨hx, hx'⟩
      rw [if_pos hrun, if_pos hin, concurrency_within hquiet hclosing hx hx']
      simp only [hx.not_gt, and_false, if_false, zero_add]
    · simp only [hx.not_gt, hx'.not_gt, and_false, if_false, add_zero]

theorem amount_of_eligible_batchable (hk : Keyed TimeInterval.recordId intervals) (hlt : now < now')
    (hquiet : Quiet intervals now now') (hclosing : NoneClosing intervals now now')
    (hi : i ∈ eligible intervals now) (hb : i.isBatchable = true) :
    amount (averagedSecondsByRecord intervals now') i.recordId =
      amount (averagedSecondsByRecord intervals now) i.recordId +
        1 / ((group TimeInterval.state (eligible intervals now) i.state).countP
          TimeInterval.isBatchable : ℚ) * (now' - now) := by
  obtain ⟨hmem, -, hw, -⟩ := mem_eligible.mp hi
  rw [amount_eq_stepSum hk hmem hw hb, amount_eq_stepSum hk hmem hw hb,
    (stepOn_rate hmem hw hb).stepSum_eq_add (stepOn_rate hmem hw hb) (stepOn_indicator hlt _)
      (rate_eq_add hlt.le hquiet hclosing hi), stepSum_cons_cons, stepSum_singleton, add_zero,
    if_pos ⟨le_rfl, hlt⟩, mul_comm]

theorem amount_of_eligible_undivided (hk : Keyed TimeInterval.recordId intervals) (hle : now ≤ now')
    (hi : i ∈ eligible intervals now) (hb : i.isBatchable = false) :
    amount (averagedSecondsByRecord intervals now') i.recordId =
      amount (averagedSecondsByRecord intervals now) i.recordId + (now' - now) := by
  obtain ⟨hmem, hopen, hw, hentered⟩ := mem_eligible.mp hi
  rw [amount_of_undivided hk hmem hw hb, amount_of_undivided hk hmem hw hb, TimeInterval.duration,
    TimeInterval.duration, TimeInterval.endAt, TimeInterval.endAt, hopen, Option.getD_none,
    Option.getD_none, max_eq_right (sub_nonneg.mpr hentered),
    max_eq_right (sub_nonneg.mpr (hentered.trans hle))]
  ring

theorem amount_of_not_entered (hk : Keyed TimeInterval.recordId intervals) (hi : i ∈ intervals)
    (hopen : i.exitedAt = none) (hlate : now ≤ i.enteredAt) :
    amount (averagedSecondsByRecord intervals now) i.recordId = 0 := by
  have hicc : 0 ≤ amount (averagedSecondsByRecord intervals now) i.recordId ∧ _ :=
    amount_mem_Icc hk hi
  have hzero : i.duration now = 0 := by
    rw [TimeInterval.duration, TimeInterval.endAt, hopen]
    exact max_eq_left (sub_nonpos.mpr hlate)
  rw [hzero] at hicc
  exact le_antisymm hicc.2 hicc.1

/-- A closed record stays as it is. -/
theorem amount_of_closed (hk : Keyed TimeInterval.recordId intervals) (hle : now ≤ now')
    (hquiet : Quiet intervals now now') (hclosing : NoneClosing intervals now now')
    (hi : i ∈ intervals) {e : ℚ} (he : i.exitedAt = some e) :
    amount (averagedSecondsByRecord intervals now') i.recordId =
      amount (averagedSecondsByRecord intervals now) i.recordId := by
  have hend : i.endAt now' = i.endAt now := by rw [endAt_of_closed he, endAt_of_closed he]
  cases hw : i.markedWrong with
  | true => rw [amount_of_markedWrong hk hi hw, amount_of_markedWrong hk hi hw]
  | false =>
    cases hb : i.isBatchable with
    | false =>
      rw [amount_of_undivided hk hi hw hb, amount_of_undivided hk hi hw hb, TimeInterval.duration,
        TimeInterval.duration, hend]
    | true =>
      refine amount_congr hk hk hi hi hend fun x hxi hx => concurrency_eq hle ?_ _
      rw [endAt_of_closed he] at hx
      by_contra hin
      rw [not_or, not_lt, not_le] at hin
      obtain ⟨hentering, hexit⟩ := hquiet i hi
      have hlate : now' < e := not_le.mp fun h => hexit e he ⟨hin.1.trans_lt hx, h⟩
      have hnow : i.enteredAt ≤ now :=
        not_lt.mp fun h => hentering ⟨h, hxi.trans hin.2.le⟩
      exact hclosing i hi hw hb e he ⟨hnow, hlate⟩

/-- The rate predicts the seconds while no record enters or closes and no closed batch record
still runs. -/
theorem rates_predict_seconds (intervals : List TimeInterval)
    (hk : Keyed TimeInterval.recordId intervals) {now now' : ℚ} (hle : now ≤ now')
    (hquiet : Quiet intervals now now') (hclosing : NoneClosing intervals now now') :
    Predicts intervals now now' := by
  intro i hi
  by_cases hel : i ∈ eligible intervals now
  · rw [get_accrualRateByRecord hk hel]
    refine ⟨fun r k hrate => ?_, by simp⟩
    have hrate := congrArg Prod.fst (Option.some.inj hrate)
    cases hb : i.isBatchable with
    | true =>
      obtain rfl : _ = r := by simpa [intervalRate, hb] using hrate
      rcases hle.eq_or_lt with rfl | hlt
      · rw [sub_self, mul_zero, add_zero]
      · simpa using amount_of_eligible_batchable hk hlt hquiet hclosing hel hb
    | false =>
      obtain rfl : 1 = r := by simpa [intervalRate, hb] using hrate
      rw [one_mul]
      exact amount_of_eligible_undivided hk hle hel hb
  · rw [get_accrualRateByRecord_eq_none hk hi hel]
    refine ⟨by simp, fun _ => ?_⟩
    cases he : i.exitedAt with
    | some e => exact amount_of_closed hk hle hquiet hclosing hi he
    | none =>
      cases hw : i.markedWrong with
      | true => rw [amount_of_markedWrong hk hi hw, amount_of_markedWrong hk hi hw]
      | false =>
        have hlate : now < i.enteredAt := not_le.mp fun h => hel (mem_eligible.mpr ⟨hi, he, hw, h⟩)
        have hlate' : now' < i.enteredAt := not_le.mp fun h => (hquiet i hi).1 ⟨hlate, h⟩
        rw [amount_of_not_entered hk hi he hlate'.le, amount_of_not_entered hk hi he hlate.le]

/-- Two batch steps, a step outside the batch and a flagged one. -/
theorem rates_predict_seconds_shift :
    let shift : List TimeInterval :=
      [⟨"a", "s1", "working", 0, none, false, true⟩, ⟨"b", "s2", "working", 20, none, false, true⟩,
       ⟨"c", "s3", "working", 10, none, false, false⟩, ⟨"d", "s4", "working", 0, none, true, true⟩,
       ⟨"e", "s5", "working", 5, some 30, false, true⟩]
    Predicts shift 40 100 := by
  intro shift
  refine rates_predict_seconds shift (by decide) (by norm_num) ?_ ?_
  · simp only [Quiet, shift, List.forall_mem_cons]
    norm_num
    rintro _ ⟨⟩
  · simp only [NoneClosing, shift, List.forall_mem_cons]
    norm_num
    rintro _ ⟨⟩

/-- A closed batch record whose exit is still ahead takes its part of the span, and the rate of
the open one does not know of it. -/
theorem rate_misses_exit_ahead :
    let records : List TimeInterval :=
      [⟨"a", "s1", "working", 0, none, false, true⟩,
       ⟨"b", "s2", "working", 0, some 100, false, true⟩]
    Keyed TimeInterval.recordId records ∧ Quiet records 10 20 ∧ ¬ Predicts records 10 20 := by
  intro records
  refine ⟨by decide, ?_, fun h => ?_⟩
  · simp only [Quiet, records, List.forall_mem_cons]
    norm_num
    rintro _ ⟨⟩
  · have hopen := (h ⟨"a", "s1", "working", 0, none, false, true⟩ (by decide)).1 1 1
      (by decide +kernel)
    have hamounts : amount (averagedSecondsByRecord records 20) "a" = 10 ∧
        amount (averagedSecondsByRecord records 10) "a" = 5 := by decide +kernel
    rw [hamounts.1, hamounts.2] at hopen
    norm_num at hopen

end Prediction

end BeyoManager.Analytics
