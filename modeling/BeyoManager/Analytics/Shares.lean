import BeyoManager.Analytics.Concurrency
import BeyoManager.Library.Relational
import BeyoManager.Library.Sweep

/-! # Shares of real time

The records of one state and one worker divide the union of their batchable
intervals. A record's seconds depend on its own interval and on the trusted
batchable intervals of its state, in no order.
-/

namespace BeyoManager.Analytics

open Grouping Relational Sweep Tally MeasureTheory

variable (intervals : List TimeInterval) (now : ℚ)

def population (state : String) : List TimeInterval :=
  group TimeInterval.state (intervals.filter fun i => !i.markedWrong) state

/-- The trusted batchable intervals of one state. -/
def batchOf (state : String) : List TimeInterval :=
  (population intervals state).filter TimeInterval.isBatchable

/-- The ends of the intervals that feed the sweep of one state. -/
def fed (stateIntervals : List TimeInterval) : List (ℚ × ℚ) :=
  (batchable stateIntervals now).map Prod.snd

def credits : List (String × ℚ) :=
  (byState (intervals.filter fun i => !i.markedWrong)).flatMap (stateCredits now)

variable {intervals now}

theorem mem_population {i : TimeInterval} {state : String} :
    i ∈ population intervals state ↔
      i ∈ intervals ∧ i.markedWrong = false ∧ i.state = state := by
  simp [population, mem_group, and_assoc]

theorem keyed_population (hk : Keyed TimeInterval.recordId intervals) (state : String) :
    Keyed TimeInterval.recordId (population intervals state) :=
  keyed_filter (keyed_filter hk _) _

theorem lookup_averagedSecondsByRecord (r : String) :
    (averagedSecondsByRecord intervals now).lookup r =
      if creditsOf r (credits intervals now) = [] then none
      else some (creditsOf r (credits intervals now)).sum := by
  rw [averagedSecondsByRecord, sweep_eq, lookup_addAll_empty]
  rfl

theorem amount_averagedSecondsByRecord (r : String) :
    amount (averagedSecondsByRecord intervals now) r =
      (creditsOf r (credits intervals now)).sum := by
  rw [averagedSecondsByRecord, sweep_eq, amount_addAll_empty]
  rfl

theorem accrues_iff {i : TimeInterval} : i.accrues now = true ↔ i.enteredAt < i.endAt now := by
  rw [TimeInterval.accrues, decide_eq_true_eq, sub_pos]

section Names

variable {g : List TimeInterval}

theorem mem_batchable {b : String × ℚ × ℚ} : b ∈ batchable g now ↔
    ∃ i ∈ g, i.accrues now ∧ i.isBatchable ∧ (i.recordId, i.bounds now) = b := by
  simp [batchable, and_assoc]

theorem mem_openIds {s : ℚ × ℚ} {r : String} : r ∈ openIds (batchable g now) s ↔
    ∃ i ∈ g, i.accrues now ∧ i.isBatchable ∧ Covers (i.bounds now) s ∧ i.recordId = r := by
  simp only [openIds, List.mem_map, List.mem_filter, mem_batchable, decide_eq_true_eq]
  constructor
  · rintro ⟨_, ⟨⟨i, hi, ha, hb, rfl⟩, hc⟩, rfl⟩
    exact ⟨i, hi, ha, hb, hc, rfl⟩
  · rintro ⟨i, hi, ha, hb, hc, rfl⟩
    exact ⟨_, ⟨⟨i, hi, ha, hb, rfl⟩, hc⟩, rfl⟩

theorem exists_of_mem_stateCredits {c : String × ℚ} (h : c ∈ stateCredits now g) :
    ∃ i ∈ g, i.recordId = c.1 := by
  rcases List.mem_append.mp h with h | h
  · obtain ⟨i, hi, rfl⟩ := List.mem_map.mp h
    exact ⟨i, (List.mem_filter.mp hi).1, rfl⟩
  · obtain ⟨s, _, hs⟩ := List.mem_flatMap.mp h
    obtain ⟨r, hr, rfl⟩ := List.mem_map.mp hs
    obtain ⟨i, hi, _, _, _, rfl⟩ := mem_openIds.mp hr
    exact ⟨i, hi, rfl⟩

end Names

theorem creditsOf_credits (hk : Keyed TimeInterval.recordId intervals) {i : TimeInterval}
    (hi : i ∈ intervals) (hw : i.markedWrong = false) :
    creditsOf i.recordId (credits intervals now) =
      creditsOf i.recordId (stateCredits now (population intervals i.state)) := by
  rw [credits, creditsOf_flatMap, byState, List.flatMap_map]
  refine flatMap_eq_of_unique (k := i.state) keys_nodup (mem_keys.mpr ⟨i, ?_, rfl⟩) fun j _ hj => ?_
  · exact List.mem_filter.mpr ⟨hi, by simp [hw]⟩
  · refine creditsOf_eq_nil.mpr fun c hc he => hj ?_
    obtain ⟨x, hx, hxc⟩ := exists_of_mem_stateCredits hc
    obtain ⟨hxi, _, rfl⟩ := mem_population.mp hx
    rw [hk.inj hxi hi (hxc.trans he)]

theorem creditsOf_credits_eq_nil {r : String}
    (h : ∀ i ∈ intervals, i.markedWrong = false → i.recordId ≠ r) :
    creditsOf r (credits intervals now) = [] := by
  refine creditsOf_eq_nil.mpr fun c hc he => ?_
  obtain ⟨g, hg, hc⟩ := List.mem_flatMap.mp hc
  obtain ⟨x, hx, hxc⟩ := exists_of_mem_stateCredits hc
  obtain ⟨k, _, rfl⟩ := List.mem_map.mp hg
  obtain ⟨hxi, hxw, _⟩ := mem_population.mp hx
  exact h x hxi hxw (hxc.trans he)

section OwnCredits

variable {g : List TimeInterval} {i : TimeInterval}

theorem not_covers_of_not_accrues {s : ℚ × ℚ} (hs : s.1 < s.2) (ha : i.accrues now = false) :
    ¬ Covers (i.bounds now) s := by
  intro hc
  have hlt : i.enteredAt < i.endAt now := (hc.1.trans_lt hs).trans_le hc.2
  rw [← accrues_iff, ha] at hlt
  exact Bool.noConfusion hlt

theorem openIds_nodup (hk : Keyed TimeInterval.recordId g) (s : ℚ × ℚ) :
    (openIds (batchable g now) s).Nodup := by
  have hb : (batchable g now).map Prod.fst =
      (g.filter fun i => i.accrues now && i.isBatchable).map TimeInterval.recordId := by
    rw [batchable, List.map_map]
    rfl
  refine List.Nodup.sublist (List.filter_sublist.map _) ?_
  rw [hb]
  exact keyed_filter hk _

theorem length_openIds (s : ℚ × ℚ) :
    (openIds (batchable g now) s).length = ((fed now g).filter fun b => Covers b s).length := by
  rw [openIds, List.length_map, fed, List.filter_map, List.length_map]
  rfl

/-- What one segment credits to a batchable record. -/
theorem creditsOf_segmentCredits (hk : Keyed TimeInterval.recordId g) (hi : i ∈ g)
    (hb : i.isBatchable) {s : ℚ × ℚ} (hs : s.1 < s.2) :
    creditsOf i.recordId (segmentCredits (batchable g now) s) =
      if Covers (i.bounds now) s then [share (fed now g) s] else [] := by
  have hmem : i.recordId ∈ openIds (batchable g now) s ↔ Covers (i.bounds now) s := by
    refine mem_openIds.trans ⟨?_, fun hc => ⟨i, hi, ?_, hb, hc, rfl⟩⟩
    · rintro ⟨x, hx, _, _, hc, he⟩
      rwa [← hk.inj hx hi he]
    · by_contra ha
      exact not_covers_of_not_accrues hs (by simpa using ha) hc
  have hfilter : creditsOf i.recordId (segmentCredits (batchable g now) s) =
      ((openIds (batchable g now) s).filter fun r => r = i.recordId).map fun _ =>
        share (fed now g) s := by
    rw [creditsOf, segmentCredits, List.filter_map, List.map_map, length_openIds]
    rfl
  rw [hfilter, List.filter_eq, List.map_replicate]
  split
  · rename_i hc
    rw [List.count_eq_one_of_mem (openIds_nodup hk s) (hmem.mpr hc)]
    rfl
  · rename_i hc
    rw [List.count_eq_zero.mpr fun h => hc (hmem.mp h)]
    rfl

theorem creditsOf_batchable (hk : Keyed TimeInterval.recordId g) (hi : i ∈ g)
    (hb : i.isBatchable) :
    creditsOf i.recordId (stateCredits now g) =
      ((segments (points (batchable g now))).filter fun s => Covers (i.bounds now) s).map
        (share (fed now g)) := by
  have hundivided : creditsOf i.recordId
      ((g.filter fun i => i.accrues now && !i.isBatchable).map fun i =>
        (i.recordId, i.endAt now - i.enteredAt)) = [] := by
    refine creditsOf_eq_nil.mpr fun c hc he => ?_
    obtain ⟨x, hx, rfl⟩ := List.mem_map.mp hc
    obtain ⟨hxg, hx⟩ := List.mem_filter.mp hx
    rw [hk.inj hxg hi he] at hx
    simp [hb] at hx
  have hsegments : ∀ l ⊆ segments (points (batchable g now)),
      (l.flatMap fun s => creditsOf i.recordId (segmentCredits (batchable g now) s)) =
        (l.filter fun s => Covers (i.bounds now) s).map (share (fed now g)) := by
    intro l hl
    induction l with
    | nil => rfl
    | cons s l ih =>
      have hs := segments_lt (points_sorted _) (hl List.mem_cons_self)
      rw [List.flatMap_cons, ih fun t ht => hl (List.mem_cons_of_mem s ht),
        creditsOf_segmentCredits hk hi hb hs, List.filter_cons]
      by_cases hc : Covers (i.bounds now) s <;> simp [hc]
  rw [stateCredits, creditsOf_append, hundivided, List.nil_append, creditsOf_flatMap]
  exact hsegments _ (List.Subset.refl _)

theorem creditsOf_undivided (hk : Keyed TimeInterval.recordId g) (hi : i ∈ g)
    (hb : i.isBatchable = false) :
    creditsOf i.recordId (stateCredits now g) =
      if i.accrues now then [i.endAt now - i.enteredAt] else [] := by
  have hsegments : creditsOf i.recordId ((segments (points (batchable g now))).flatMap
      (segmentCredits (batchable g now))) = [] := by
    refine creditsOf_eq_nil.mpr fun c hc he => ?_
    obtain ⟨s, _, hc⟩ := List.mem_flatMap.mp hc
    obtain ⟨r, hr, rfl⟩ := List.mem_map.mp hc
    obtain ⟨x, hx, _, hxb, _, hxr⟩ := mem_openIds.mp hr
    rw [hk.inj hx hi (hxr.trans he), hb] at hxb
    exact Bool.noConfusion hxb
  rw [stateCredits, creditsOf_append, hsegments, List.append_nil, creditsOf, List.filter_map,
    List.map_map, List.filter_filter]
  have hone : (g.filter fun x => decide (x.recordId = i.recordId) && (x.accrues now &&
      !x.isBatchable)) = if i.accrues now then [i] else [] := by
    have hp := hk.perm_cons hi
    have hperm := hp.filter fun x => decide (x.recordId = i.recordId) && (x.accrues now &&
      !x.isBatchable)
    rw [List.filter_cons, List.filter_filter] at hperm
    have hnil : (g.filter fun x => (decide (x.recordId = i.recordId) && (x.accrues now &&
        !x.isBatchable)) && decide (x.recordId ≠ i.recordId)) = [] :=
      List.filter_eq_nil_iff.mpr fun x _ => by simp; tauto
    rw [hnil] at hperm
    by_cases ha : i.accrues now
    · simpa [ha, hb] using hperm
    · simpa [ha] using hperm
  have hcomp : (fun x : TimeInterval => decide (x.recordId = i.recordId) && (x.accrues now &&
      !x.isBatchable)) = fun x => ((fun c : String × ℚ => decide (c.1 = i.recordId)) ∘ fun x =>
        (x.recordId, x.endAt now - x.enteredAt)) x && (x.accrues now && !x.isBatchable) := rfl
  rw [← hcomp, hone]
  split <;> rfl

end OwnCredits

section Amounts

variable {i : TimeInterval}

theorem amount_of_batchable (hk : Keyed TimeInterval.recordId intervals) (hi : i ∈ intervals)
    (hw : i.markedWrong = false) (hb : i.isBatchable) :
    amount (averagedSecondsByRecord intervals now) i.recordId =
      (((segments (points (batchable (population intervals i.state) now))).filter fun s =>
        Covers (i.bounds now) s).map (share (fed now (population intervals i.state)))).sum := by
  have hmem : i ∈ population intervals i.state := mem_population.mpr ⟨hi, hw, rfl⟩
  rw [amount_averagedSecondsByRecord, creditsOf_credits hk hi hw,
    creditsOf_batchable (keyed_population hk _) hmem hb]

theorem amount_of_undivided (hk : Keyed TimeInterval.recordId intervals) (hi : i ∈ intervals)
    (hw : i.markedWrong = false) (hb : i.isBatchable = false) :
    amount (averagedSecondsByRecord intervals now) i.recordId = i.duration now := by
  have hmem : i ∈ population intervals i.state := mem_population.mpr ⟨hi, hw, rfl⟩
  rw [amount_averagedSecondsByRecord, creditsOf_credits hk hi hw,
    creditsOf_undivided (keyed_population hk _) hmem hb, TimeInterval.duration]
  split
  · rename_i ha
    rw [List.sum_singleton, max_eq_right (sub_nonneg.mpr (accrues_iff.mp ha).le)]
  · rename_i ha
    rw [accrues_iff, not_lt] at ha
    rw [List.sum_nil, max_eq_left (sub_nonpos.mpr ha)]

theorem amount_of_markedWrong (hk : Keyed TimeInterval.recordId intervals) (hi : i ∈ intervals)
    (hw : i.markedWrong = true) :
    amount (averagedSecondsByRecord intervals now) i.recordId = 0 := by
  rw [amount_averagedSecondsByRecord, creditsOf_credits_eq_nil, List.sum_nil]
  intro x hx hxw he
  rw [hk.inj hx hi he, hw] at hxw
  exact Bool.noConfusion hxw

/-- A trusted batchable record gets at most its duration. -/
theorem amount_mem_Icc_of_batchable (hk : Keyed TimeInterval.recordId intervals)
    (hi : i ∈ intervals)
    (hw : i.markedWrong = false) (hb : i.isBatchable) :
    0 ≤ amount (averagedSecondsByRecord intervals now) i.recordId ∧
      amount (averagedSecondsByRecord intervals now) i.recordId ≤ i.duration now := by
  have hsorted := points_sorted (batchable (population intervals i.state) now)
  rw [amount_of_batchable hk hi hw hb]
  refine ⟨List.sum_nonneg ?_, ?_⟩
  · intro x hx
    obtain ⟨s, hs, rfl⟩ := List.mem_map.mp hx
    exact share_nonneg hsorted _ (List.mem_filter.mp hs).1
  · by_cases ha : i.accrues now
    · have hle := (accrues_iff.mp ha).le
      have hmem : i ∈ population intervals i.state := mem_population.mpr ⟨hi, hw, rfl⟩
      have hbatch := mem_batchable.mpr ⟨i, hmem, ha, hb, rfl⟩
      have hpts := mem_points hbatch
      have hsum : (((segments (points (batchable (population intervals i.state) now))).filter
          fun s => Covers (i.bounds now) s).map fun s => s.2 - s.1).sum =
            i.endAt now - i.enteredAt := sum_length_covered hsorted hpts.1 hpts.2 hle
      rw [TimeInterval.duration, max_eq_right (sub_nonneg.mpr hle), ← hsum]
      refine List.sum_le_sum fun s hs => ?_
      obtain ⟨hs, hc⟩ := List.mem_filter.mp hs
      exact share_le hsorted hs (List.mem_map.mpr ⟨_, hbatch, rfl⟩) (by simpa using hc)
    · have hnil : (segments (points (batchable (population intervals i.state) now))).filter
          (fun s => Covers (i.bounds now) s) = [] := by
        refine List.filter_eq_nil_iff.mpr fun s hs => ?_
        rw [decide_eq_true_eq]
        exact not_covers_of_not_accrues (segments_lt hsorted hs) (by simpa using ha)
      rw [hnil, List.map_nil, List.sum_nil]
      exact le_max_left _ _

theorem amount_mem_Icc (hk : Keyed TimeInterval.recordId intervals) (hi : i ∈ intervals) :
    0 ≤ amount (averagedSecondsByRecord intervals now) i.recordId ∧
      amount (averagedSecondsByRecord intervals now) i.recordId ≤ i.duration now := by
  have hd : 0 ≤ i.duration now := le_max_left _ _
  cases hw : i.markedWrong with
  | true => rw [amount_of_markedWrong hk hi hw]; exact ⟨le_rfl, hd⟩
  | false =>
    cases hb : i.isBatchable with
    | true => exact amount_mem_Icc_of_batchable hk hi hw hb
    | false => rw [amount_of_undivided hk hi hw hb]; exact ⟨hd, le_rfl⟩

end Amounts

section Conservation

/-- Adding up what each record gets adds up what each segment gives. -/
theorem sum_amount_batchOf (hk : Keyed TimeInterval.recordId intervals) (state : String) :
    ((batchOf intervals state).map fun i =>
        amount (averagedSecondsByRecord intervals now) i.recordId).sum =
      ((segments (points (batchable (population intervals state) now))).map fun s =>
        if ∃ b ∈ fed now (population intervals state), Covers b s then s.2 - s.1 else 0).sum := by
  have hsorted := points_sorted (batchable (population intervals state) now)
  have hfed : fed now (population intervals state) =
      ((batchOf intervals state).filter fun i => i.accrues now).map fun i => i.bounds now := by
    rw [fed, batchable, List.map_map, batchOf, List.filter_filter]
    rfl
  generalize hS : segments (points (batchable (population intervals state) now)) = S
  have hlt : ∀ s ∈ S, s.1 < s.2 := fun s hs => segments_lt hsorted (hS ▸ hs)
  have hown : ∀ i ∈ batchOf intervals state,
      amount (averagedSecondsByRecord intervals now) i.recordId =
        (S.map fun s => if Covers (i.bounds now) s
          then share (fed now (population intervals state)) s else 0).sum := by
    intro i hi
    obtain ⟨hip, hb⟩ := List.mem_filter.mp hi
    obtain ⟨hii, hw, rfl⟩ := mem_population.mp hip
    rw [amount_of_batchable hk hii hw hb, hS]
    simp [List.sum_map_ite]
  have hseg : ∀ s ∈ S, ((batchOf intervals state).map fun i => if Covers (i.bounds now) s
      then share (fed now (population intervals state)) s else 0).sum =
        if ∃ b ∈ fed now (population intervals state), Covers b s then s.2 - s.1 else 0 := by
    intro s hs
    rw [← sum_share, List.sum_map_ite]
    simp only [List.map_const', List.sum_replicate, smul_zero, add_zero]
    congr 1
    rw [hfed, List.filter_map, List.length_map, List.filter_filter]
    congr 1
    refine List.filter_congr fun i _ => ?_
    by_cases ha : i.accrues now
    · simp [ha]
    · have := not_covers_of_not_accrues (hlt s hs) (by simpa using ha)
      simp [ha, this]
  rw [List.map_congr_left hown]
  have hswap := Multiset.sum_map_sum_map (batchOf intervals state : Multiset TimeInterval)
    (S : Multiset (ℚ × ℚ)) (f := fun i s => if Covers (i.bounds now) s
      then share (fed now (population intervals state)) s else 0)
  simp only [Multiset.map_coe, Multiset.sum_coe] at hswap
  rw [hswap, List.map_congr_left hseg]

theorem volume_batchOf (hk : Keyed TimeInterval.recordId intervals) (state : String) :
    volume (⋃ i ∈ batchOf intervals state, Set.Ico (i.enteredAt : ℝ) (i.endAt now)) =
      ENNReal.ofReal ((batchOf intervals state).map fun i =>
        amount (averagedSecondsByRecord intervals now) i.recordId).sum := by
  rw [sum_amount_batchOf hk, ← volume_iUnion_Ico (points_sorted _)]
  · congr 1
    ext x
    simp only [Set.mem_iUnion, exists_prop, fed, List.mem_map, mem_batchable, batchOf,
      List.mem_filter]
    constructor
    · rintro ⟨i, ⟨hi, hb⟩, hx⟩
      have hlt : i.enteredAt < i.endAt now := by exact_mod_cast hx.1.trans_lt hx.2
      exact ⟨_, ⟨_, ⟨i, hi, accrues_iff.mpr hlt, hb, rfl⟩, rfl⟩, hx⟩
    · rintro ⟨_, ⟨_, ⟨i, hi, _, hb, rfl⟩, rfl⟩, hx⟩
      exact ⟨i, ⟨hi, hb⟩, hx⟩
  · intro b hb
    obtain ⟨c, hc, rfl⟩ := List.mem_map.mp hb
    exact mem_points hc

end Conservation

section Independence

theorem stateCredits_perm {g g' : List TimeInterval} (h : g.Perm g') :
    (stateCredits now g).Perm (stateCredits now g') := by
  have hb : (batchable g now).Perm (batchable g' now) := (h.filter _).map _
  have hpts : points (batchable g now) = points (batchable g' now) := by
    have hperm : (points (batchable g now)).Perm (points (batchable g' now)) :=
      (List.perm_insertionSort _ _).trans <|
        (hb.flatMap_right _).dedup.trans (List.perm_insertionSort _ _).symm
    exact hperm.eq_of_pairwise (fun _ _ _ _ h h' => absurd h' h.not_gt)
      (points_sorted _) (points_sorted _)
  have hseg : ∀ s, (segmentCredits (batchable g now) s).Perm
      (segmentCredits (batchable g' now) s) := by
    intro s
    have ho : (openIds (batchable g now) s).Perm (openIds (batchable g' now) s) :=
      (hb.filter _).map _
    rw [segmentCredits, segmentCredits, ho.length_eq]
    exact ho.map _
  refine ((h.filter _).map _).append ?_
  rw [hpts]
  exact List.Perm.flatMap_left _ fun s _ => hseg s

theorem lookup_perm (hk : Keyed TimeInterval.recordId intervals) {intervals' : List TimeInterval}
    (h : intervals.Perm intervals') (r : String) :
    (averagedSecondsByRecord intervals now).lookup r =
      (averagedSecondsByRecord intervals' now).lookup r := by
  have hk' : Keyed TimeInterval.recordId intervals' := ((h.map _).nodup_iff).mp hk
  rw [averagedSecondsByRecord, averagedSecondsByRecord, sweep_eq, sweep_eq]
  refine lookup_addAll_perm ?_
  change (creditsOf r (credits intervals now)).Perm (creditsOf r (credits intervals' now))
  by_cases hr : ∃ i ∈ intervals, i.markedWrong = false ∧ i.recordId = r
  · obtain ⟨i, hi, hw, rfl⟩ := hr
    rw [creditsOf_credits hk hi hw, creditsOf_credits hk' (h.mem_iff.mp hi) hw]
    exact creditsOf_perm (stateCredits_perm ((h.filter _).filter _))
  · have hnot : ∀ i ∈ intervals, i.markedWrong = false → i.recordId ≠ r :=
      fun i hi hw he => hr ⟨i, hi, hw, he⟩
    rw [creditsOf_credits_eq_nil hnot,
      creditsOf_credits_eq_nil fun i hi => hnot i (h.mem_iff.mpr hi)]

/-- An interval that takes no part in the batch of a state. -/
def Apart (state : String) (x : TimeInterval) : Prop :=
  x.markedWrong = true ∨ x.isBatchable = false ∨ x.state ≠ state

instance (state : String) (x : TimeInterval) : Decidable (Apart state x) :=
  inferInstanceAs (Decidable (_ ∨ _ ∨ _))

theorem batchable_of_apart {before removed after : List TimeInterval} {state : String}
    (h : ∀ x ∈ removed, Apart state x) :
    batchable (population (before ++ removed ++ after) state) now =
      batchable (population (before ++ after) state) now := by
  have hnil : ((removed.filter fun x => !x.markedWrong).filter fun x => x.state = state).filter
      (fun x => x.accrues now && x.isBatchable) = [] := by
    rw [List.filter_filter, List.filter_filter]
    refine List.filter_eq_nil_iff.mpr fun x hx => ?_
    rcases h x hx with hw | hb | hs
    · simp [hw]
    · simp [hb]
    · simp [hs]
  simp only [batchable, population, group, List.filter_append] at hnil ⊢
  rw [hnil, List.append_nil]

/-- Intervals apart from the batch of a record's state do not touch the record's value. -/
theorem lookup_of_apart {before removed after : List TimeInterval} {i : TimeInterval}
    (hk : Keyed TimeInterval.recordId (before ++ removed ++ after)) (hi : i ∈ before ++ after)
    (h : ∀ x ∈ removed, Apart i.state x) :
    (averagedSecondsByRecord (before ++ removed ++ after) now).lookup i.recordId =
      (averagedSecondsByRecord (before ++ after) now).lookup i.recordId := by
  have hsub : (before ++ after).Sublist (before ++ removed ++ after) :=
    (List.sublist_append_left before removed).append_right after
  have hk' : Keyed TimeInterval.recordId (before ++ after) := hk.sublist (hsub.map _)
  have hi' := hsub.subset hi
  have hcredits : creditsOf i.recordId (credits (before ++ removed ++ after) now) =
      creditsOf i.recordId (credits (before ++ after) now) := by
    by_cases hw : i.markedWrong
    · rw [creditsOf_credits_eq_nil, creditsOf_credits_eq_nil]
      · intro x hx hxw he
        rw [hk'.inj hx hi he, hw] at hxw
        exact Bool.noConfusion hxw
      · intro x hx hxw he
        rw [hk.inj hx hi' he, hw] at hxw
        exact Bool.noConfusion hxw
    · have hw : i.markedWrong = false := by simpa using hw
      rw [creditsOf_credits hk hi' hw, creditsOf_credits hk' hi hw]
      by_cases hb : i.isBatchable
      · rw [creditsOf_batchable (keyed_population hk _) (mem_population.mpr ⟨hi', hw, rfl⟩) hb,
          creditsOf_batchable (keyed_population hk' _) (mem_population.mpr ⟨hi, hw, rfl⟩) hb,
          fed, fed, batchable_of_apart h]
      · have hb : i.isBatchable = false := by simpa using hb
        rw [creditsOf_undivided (keyed_population hk _) (mem_population.mpr ⟨hi', hw, rfl⟩) hb,
          creditsOf_undivided (keyed_population hk' _) (mem_population.mpr ⟨hi, hw, rfl⟩) hb]
  rw [lookup_averagedSecondsByRecord, lookup_averagedSecondsByRecord, hcredits]

end Independence

/-- Batch working divides real time: the trusted batchable records of a state share the
length of the union of their intervals, every other record gets its duration, and nothing
outside the batch of its state, nor the order of the list, touches a record's value. -/
theorem averagedSecondsByRecord_divides (intervals : List TimeInterval)
    (hk : Keyed TimeInterval.recordId intervals) (now : ℚ) :
    (∀ state, volume (⋃ i ∈ batchOf intervals state, Set.Ico (i.enteredAt : ℝ) (i.endAt now)) =
      ENNReal.ofReal ((batchOf intervals state).map fun i =>
        amount (averagedSecondsByRecord intervals now) i.recordId).sum) ∧
    (∀ i ∈ intervals, 0 ≤ amount (averagedSecondsByRecord intervals now) i.recordId ∧
        amount (averagedSecondsByRecord intervals now) i.recordId ≤ i.duration now) ∧
    (∀ i ∈ intervals, i.markedWrong = false → i.isBatchable = false →
      amount (averagedSecondsByRecord intervals now) i.recordId = i.duration now) ∧
    (∀ intervals', intervals.Perm intervals' → ∀ r,
      (averagedSecondsByRecord intervals now).lookup r =
        (averagedSecondsByRecord intervals' now).lookup r) ∧
    (∀ before removed added after, intervals = before ++ removed ++ after →
      Keyed TimeInterval.recordId (before ++ added ++ after) → ∀ i ∈ before ++ after,
        (∀ x ∈ removed ++ added, Apart i.state x) →
          (averagedSecondsByRecord intervals now).lookup i.recordId =
            (averagedSecondsByRecord (before ++ added ++ after) now).lookup i.recordId) := by
  refine ⟨fun state => volume_batchOf hk state, fun i hi => amount_mem_Icc hk hi,
    fun i hi hw hb => amount_of_undivided hk hi hw hb, fun _ h r => lookup_perm hk h r, ?_⟩
  rintro before removed added after rfl hk' i hi h
  rw [lookup_of_apart hk hi fun x hx => h x (List.mem_append_left _ hx),
    lookup_of_apart hk' hi fun x hx => h x (List.mem_append_right _ hx)]

/-- Two overlapping batch steps, a step outside the batch and a flagged one. -/
theorem averagedSecondsByRecord_divides_shift :
    let shift : List TimeInterval :=
      [⟨"a", "s1", "working", 0, some 60, false, true⟩,
       ⟨"b", "s2", "working", 20, some 40, false, true⟩,
       ⟨"c", "s3", "working", 10, none, false, false⟩,
       ⟨"d", "s4", "working", 0, some 90, true, true⟩]
    (∀ state, volume (⋃ i ∈ batchOf shift state, Set.Ico (i.enteredAt : ℝ) (i.endAt 100)) =
      ENNReal.ofReal ((batchOf shift state).map fun i =>
        amount (averagedSecondsByRecord shift 100) i.recordId).sum) ∧
    amount (averagedSecondsByRecord shift 100) "c" = 90 := by
  intro shift
  have h := averagedSecondsByRecord_divides shift (by decide) 100
  refine ⟨h.1, ?_⟩
  rw [h.2.2.1 ⟨"c", "s3", "working", 10, none, false, false⟩ (by decide) rfl rfl]
  norm_num [TimeInterval.duration, TimeInterval.endAt]

end BeyoManager.Analytics
