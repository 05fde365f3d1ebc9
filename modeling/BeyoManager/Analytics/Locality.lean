import BeyoManager.Analytics.Shares
import BeyoManager.Library.StepSum

/-! # Locality of averaged time

A trusted batchable record earns, at each instant it runs, one part in as many as run
then. So the seconds of a closed record depend on nothing that enters or closes after
its exit, and on no record outside a window that contains it.
-/

namespace BeyoManager.Analytics

open Grouping Relational Sweep Tally Set

/-- The number of trusted batchable intervals of a state that run at an instant. -/
def concurrency (intervals : List TimeInterval) (now : ℚ) (state : String) (x : ℚ) : ℕ :=
  intervals.countP fun j => (!j.markedWrong && j.isBatchable) &&
    decide (j.state = state ∧ j.enteredAt ≤ x ∧ x < j.endAt now)

/-- What an interval earns at an instant. -/
def rate (intervals : List TimeInterval) (now : ℚ) (i : TimeInterval) (x : ℚ) : ℚ :=
  if i.enteredAt ≤ x ∧ x < i.endAt now then 1 / concurrency intervals now i.state x else 0

variable {intervals intervals' : List TimeInterval} {now now' : ℚ} {i : TimeInterval}

section Rate

variable {state : String} {s : ℚ × ℚ} {x : ℚ}

theorem covers_iff_running (hs : s ∈ segments (points (batchable (population intervals state) now)))
    (hx : x ∈ Ico s.1 s.2) (hi : i ∈ population intervals state) (hb : i.isBatchable) :
    Covers (i.bounds now) s ↔ i.enteredAt ≤ x ∧ x < i.endAt now := by
  constructor
  · intro hc
    exact ⟨hc.1.trans hx.1, hx.2.trans_le hc.2⟩
  · intro hr
    have ha : i.accrues now = true := accrues_iff.mpr (hr.1.trans_lt hr.2)
    have hp := mem_points (mem_batchable.mpr ⟨i, hi, ha, hb, rfl⟩)
    exact covers_of_mem (points_sorted _) hs hp hx hr

theorem length_covering
    (hs : s ∈ segments (points (batchable (population intervals state) now)))
    (hx : x ∈ Ico s.1 s.2) :
    ((fed now (population intervals state)).filter fun b => Covers b s).length =
      concurrency intervals now state x := by
  rw [fed, batchable, List.map_map, List.filter_map, List.length_map, List.filter_filter,
    population, group, List.filter_filter, List.filter_filter, concurrency,
    List.countP_eq_length_filter]
  congr 1
  refine List.filter_congr fun j hj => ?_
  rw [Bool.eq_iff_iff]
  simp only [Function.comp_apply, Bool.and_eq_true, decide_eq_true_eq, Bool.not_eq_true']
  constructor
  · rintro ⟨⟨⟨hc, _, hb⟩, hst⟩, hw⟩
    exact ⟨⟨hw, hb⟩, hst, (covers_iff_running hs hx (mem_population.mpr ⟨hj, hw, hst⟩) hb).mp hc⟩
  · rintro ⟨⟨hw, hb⟩, hst, hr⟩
    have hc := (covers_iff_running hs hx (mem_population.mpr ⟨hj, hw, hst⟩) hb).mpr hr
    exact ⟨⟨⟨hc, accrues_iff.mpr (hr.1.trans_lt hr.2), hb⟩, hst⟩, hw⟩

theorem stepOn_rate (hi : i ∈ intervals) (hw : i.markedWrong = false) (hb : i.isBatchable) :
    StepOn (rate intervals now i) (points (batchable (population intervals i.state) now)) := by
  have hmem : i ∈ population intervals i.state := mem_population.mpr ⟨hi, hw, rfl⟩
  refine ⟨points_sorted _, fun s hs x hx => ?_, fun x hx => ?_⟩
  · have hleft : s.1 ∈ Ico s.1 s.2 := ⟨le_rfl, segments_lt (points_sorted _) hs⟩
    have hiff := (covers_iff_running hs hx hmem hb).symm.trans
      (covers_iff_running hs hleft hmem hb)
    rw [rate, rate, ← length_covering hs hx, ← length_covering hs hleft]
    exact if_congr hiff rfl rfl
  · refine if_neg fun hr => ?_
    have ha : i.accrues now = true := accrues_iff.mpr (hr.1.trans_lt hr.2)
    have hp := mem_points (mem_batchable.mpr ⟨i, hmem, ha, hb, rfl⟩)
    rcases hx with hx | hx
    · exact (hx _ hp.1).not_ge hr.1
    · exact (hx _ hp.2).not_gt hr.2

/-- A trusted batchable record gets the sum of what it earns. -/
theorem amount_eq_stepSum (hk : Keyed TimeInterval.recordId intervals) (hi : i ∈ intervals)
    (hw : i.markedWrong = false) (hb : i.isBatchable) :
    amount (averagedSecondsByRecord intervals now) i.recordId =
      stepSum (rate intervals now i) (points (batchable (population intervals i.state) now)) := by
  have hmem : i ∈ population intervals i.state := mem_population.mpr ⟨hi, hw, rfl⟩
  have hsum : ∀ l ⊆ segments (points (batchable (population intervals i.state) now)),
      ((l.filter fun s => Covers (i.bounds now) s).map
        (share (fed now (population intervals i.state)))).sum =
          (l.map fun s => (s.2 - s.1) * rate intervals now i s.1).sum := by
    intro l hl
    induction l with
    | nil => rfl
    | cons s l ih =>
      have hs := hl List.mem_cons_self
      have hleft : s.1 ∈ Ico s.1 s.2 := ⟨le_rfl, segments_lt (points_sorted _) hs⟩
      have hrest := ih fun t ht => hl (List.mem_cons_of_mem s ht)
      have hiff := covers_iff_running hs hleft hmem hb
      rw [List.map_cons, List.sum_cons, ← hrest, List.filter_cons, rate]
      by_cases hc : Covers (i.bounds now) s
      · rw [if_pos (by simpa using hc), if_pos (hiff.mp hc), List.map_cons, List.sum_cons, share,
          length_covering hs hleft, mul_one_div]
      · rw [if_neg (by simpa using hc), if_neg fun h => hc (hiff.mpr h), mul_zero, zero_add]
  rw [amount_of_batchable hk hi hw hb, stepSum, hsum _ (List.Subset.refl _)]

end Rate

/-- Two populations in which as many intervals run at each instant of a closed record
give it the same seconds. -/
theorem amount_congr (hk : Keyed TimeInterval.recordId intervals)
    (hk' : Keyed TimeInterval.recordId intervals') (hi : i ∈ intervals) (hi' : i ∈ intervals')
    (hend : i.endAt now = i.endAt now')
    (h : ∀ x, i.enteredAt ≤ x → x < i.endAt now →
      concurrency intervals now i.state x = concurrency intervals' now' i.state x) :
    amount (averagedSecondsByRecord intervals now) i.recordId =
      amount (averagedSecondsByRecord intervals' now') i.recordId := by
  cases hw : i.markedWrong with
  | true => rw [amount_of_markedWrong hk hi hw, amount_of_markedWrong hk' hi' hw]
  | false =>
    cases hb : i.isBatchable with
    | false =>
      rw [amount_of_undivided hk hi hw hb, amount_of_undivided hk' hi' hw hb,
        TimeInterval.duration, TimeInterval.duration, hend]
    | true =>
      have hrate : rate intervals now i = rate intervals' now' i := by
        funext x
        rw [rate, rate, ← hend]
        split
        · rename_i hx
          rw [h x hx.1 hx.2]
        · rfl
      rw [amount_eq_stepSum hk hi hw hb, amount_eq_stepSum hk' hi' hw hb, hrate]
      exact (hrate ▸ stepOn_rate hi hw hb).stepSum_eq (stepOn_rate hi' hw hb)

section Flagged

def TimeInterval.flip (i : TimeInterval) : TimeInterval := { i with markedWrong := !i.markedWrong }

theorem sweepState_map_flip (result : Seconds) (g : List TimeInterval) :
    sweepState now result (g.map TimeInterval.flip) = sweepState now result g := by
  have hb : batchable (g.map TimeInterval.flip) now = batchable g now := by
    rw [batchable, List.filter_map, List.map_map]
    rfl
  have hu : addUndivided (g.map TimeInterval.flip) now result = addUndivided g now result := by
    rw [addUndivided, List.foldl_map]
    rfl
  rw [sweepState, sweepState, hb, hu]

theorem sweep_map_flip (intervals : List TimeInterval) :
    sweep (intervals.map TimeInterval.flip) now = sweep intervals now := by
  have hkeys : keys TimeInterval.state (intervals.map TimeInterval.flip) =
      keys TimeInterval.state intervals := by
    rw [keys, List.map_map]
    rfl
  have hgroups : byState (intervals.map TimeInterval.flip) =
      (byState intervals).map (List.map TimeInterval.flip) := by
    rw [byState, byState, hkeys, List.map_map]
    refine List.map_congr_left fun k _ => ?_
    rw [Function.comp_apply, group, List.filter_map]
    rfl
  rw [sweep, hgroups, List.foldl_map]
  simp only [sweepState_map_flip]
  rfl

theorem wastedSecondsByRecord_eq (intervals : List TimeInterval) (now : ℚ) :
    wastedSecondsByRecord intervals now =
      averagedSecondsByRecord (intervals.map TimeInterval.flip) now := by
  have hfilter : (intervals.map TimeInterval.flip).filter (fun i => !i.markedWrong) =
      (intervals.filter TimeInterval.markedWrong).map TimeInterval.flip := by
    rw [List.filter_map]
    congr 1
    exact List.filter_congr fun i _ => by simp [TimeInterval.flip]
  rw [averagedSecondsByRecord, hfilter, sweep_map_flip, wastedSecondsByRecord]

theorem keyed_map_flip (hk : Keyed TimeInterval.recordId intervals) :
    Keyed TimeInterval.recordId (intervals.map TimeInterval.flip) := by
  rw [Keyed, List.map_map]
  exact hk

end Flagged

section Local

variable {e : ℚ}

theorem endAt_of_closed (he : i.exitedAt = some e) (now : ℚ) : i.endAt now = e := by
  rw [TimeInterval.endAt, he]
  rfl

theorem amount_of_le (hk : Keyed TimeInterval.recordId intervals) (hi : i ∈ intervals)
    (he : i.exitedAt = some e) (hnow : e ≤ now) (hle : now ≤ now') :
    amount (averagedSecondsByRecord intervals now') i.recordId =
      amount (averagedSecondsByRecord intervals now) i.recordId := by
  refine amount_congr hk hk hi hi (by rw [endAt_of_closed he, endAt_of_closed he]) ?_
  intro x _ hx
  rw [endAt_of_closed he] at hx
  refine List.countP_congr fun j _ => ?_
  cases hj : j.exitedAt with
  | some ej => rw [endAt_of_closed hj, endAt_of_closed hj]
  | none =>
    have h1 : x < j.endAt now' := by
      rw [TimeInterval.endAt, hj]
      exact hx.trans_le (hnow.trans hle)
    have h2 : x < j.endAt now := by
      rw [TimeInterval.endAt, hj]
      exact hx.trans_le hnow
    simp [h1, h2]

/-- The list after one record has closed. -/
def closeRecord (intervals : List TimeInterval) (r : String) (at_ : ℚ) : List TimeInterval :=
  intervals.map fun j => if j.recordId = r then { j with exitedAt := some at_ } else j

theorem keyed_closeRecord (hk : Keyed TimeInterval.recordId intervals) (r : String) (at_ : ℚ) :
    Keyed TimeInterval.recordId (closeRecord intervals r at_) := by
  have hid : TimeInterval.recordId ∘ (fun j => if j.recordId = r
      then { j with exitedAt := some at_ } else j) = TimeInterval.recordId := by
    funext j
    simp only [Function.comp_apply]
    split <;> rfl
  rw [Keyed, closeRecord, List.map_map, hid]
  exact hk

/-- Another record that closes at or after the exit does not touch the record's seconds. -/
theorem amount_closeRecord (hk : Keyed TimeInterval.recordId intervals) (hi : i ∈ intervals)
    (he : i.exitedAt = some e) (hnow : e ≤ now) {r : String} (hr : r ≠ i.recordId)
    (hopen : ∀ j ∈ intervals, j.recordId = r → j.exitedAt = none) {at_ : ℚ} (hat : e ≤ at_) :
    amount (averagedSecondsByRecord (closeRecord intervals r at_) now) i.recordId =
      amount (averagedSecondsByRecord intervals now) i.recordId := by
  have hi' : i ∈ closeRecord intervals r at_ :=
    List.mem_map.mpr ⟨i, hi, if_neg fun h => hr h.symm⟩
  refine amount_congr (keyed_closeRecord hk r at_) hk hi' hi rfl fun x _ hx => ?_
  rw [endAt_of_closed he] at hx
  rw [concurrency, closeRecord, List.countP_map]
  refine List.countP_congr fun j hj => ?_
  simp only [Function.comp_apply]
  split
  · rename_i hjr
    have h1 : x < j.endAt now := by
      rw [TimeInterval.endAt, hopen j hj hjr]
      exact hx.trans_le hnow
    have h2 : x < TimeInterval.endAt now { j with exitedAt := some at_ } := hx.trans_le hat
    simp [h1, h2]
  · rfl

theorem amount_append {added : List TimeInterval}
    (hk : Keyed TimeInterval.recordId (intervals ++ added)) (hi : i ∈ intervals)
    (he : i.exitedAt = some e) (hadd : ∀ j ∈ added, e ≤ j.enteredAt) :
    amount (averagedSecondsByRecord (intervals ++ added) now) i.recordId =
      amount (averagedSecondsByRecord intervals now) i.recordId := by
  have hk' : Keyed TimeInterval.recordId intervals :=
    hk.sublist ((List.sublist_append_left intervals added).map _)
  refine amount_congr hk hk' (List.mem_append_left _ hi) hi rfl fun x _ hx => ?_
  rw [endAt_of_closed he] at hx
  have hnone : added.countP (fun j => (!j.markedWrong && j.isBatchable) &&
      decide (j.state = i.state ∧ j.enteredAt ≤ x ∧ x < j.endAt now)) = 0 := by
    refine List.countP_eq_zero.mpr fun j hj => ?_
    have hlt : ¬ j.enteredAt ≤ x := not_le.mpr (hx.trans_le (hadd j hj))
    simp [hlt]
  rw [concurrency, List.countP_append, hnone, add_zero, concurrency]

/-- The records that overlap a window: still open, or exited after it starts. -/
def overlapping (windowStart windowEnd : ℚ) (intervals : List TimeInterval) : List TimeInterval :=
  intervals.filter fun j => decide (j.enteredAt < windowEnd) &&
    j.exitedAt.all fun x => decide (windowStart < x)

/-- A window that contains a record holds all that its seconds depend on. -/
theorem amount_overlapping (hk : Keyed TimeInterval.recordId intervals) (hi : i ∈ intervals)
    (he : i.exitedAt = some e) {windowStart windowEnd : ℚ} (hs : windowStart ≤ i.enteredAt)
    (hw : e ≤ windowEnd) :
    amount (averagedSecondsByRecord (overlapping windowStart windowEnd intervals) now)
        i.recordId = amount (averagedSecondsByRecord intervals now) i.recordId := by
  have hk' : Keyed TimeInterval.recordId (overlapping windowStart windowEnd intervals) :=
    keyed_filter hk _
  by_cases hlt : i.enteredAt < e
  · have hi' : i ∈ overlapping windowStart windowEnd intervals := by
      refine List.mem_filter.mpr ⟨hi, ?_⟩
      simp [he, hlt.trans_le hw, hs.trans_lt hlt]
    refine amount_congr hk' hk hi' hi rfl fun x hxi hx => ?_
    rw [endAt_of_closed he] at hx
    rw [concurrency, overlapping, List.countP_filter]
    refine List.countP_congr fun j _ => ?_
    simp only [Bool.and_eq_true, decide_eq_true_eq]
    refine and_iff_left_of_imp ?_
    rintro ⟨_, _, hje, hjx⟩
    refine ⟨hje.trans_lt (hx.trans_le hw), ?_⟩
    cases hj : j.exitedAt with
    | none => rfl
    | some ej =>
      rw [endAt_of_closed hj] at hjx
      simpa using hs.trans_lt (hxi.trans_lt hjx)
  · -- a record of no length earns nothing, inside the window or not
    have hzero : ∀ l : List TimeInterval, Keyed TimeInterval.recordId l → l ⊆ intervals →
        amount (averagedSecondsByRecord l now) i.recordId = 0 := by
      intro l hl hsub
      by_cases hil : i ∈ l
      · have hicc : 0 ≤ amount (averagedSecondsByRecord l now) i.recordId ∧
            amount (averagedSecondsByRecord l now) i.recordId ≤ i.duration now :=
          amount_mem_Icc hl hil
        have hd : i.duration now = 0 := by
          rw [TimeInterval.duration, endAt_of_closed he]
          exact max_eq_left (sub_nonpos.mpr (not_lt.mp hlt))
        rw [hd] at hicc
        exact le_antisymm hicc.2 hicc.1
      · rw [amount_averagedSecondsByRecord, creditsOf_credits_eq_nil, List.sum_nil]
        intro j hj _ hid
        exact hil (hk.inj (hsub hj) hi hid ▸ hj)
    rw [hzero _ hk' (List.filter_subset_self _), hzero _ hk (List.Subset.refl _)]

end Local

end BeyoManager.Analytics
