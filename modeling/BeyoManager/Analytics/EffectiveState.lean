import BeyoManager.Analytics.LinearTimeline
import BeyoManager.Library.Tiling

/-! # The effective state of a worker at an instant

What the intervals of a worker say of one instant, and that the choice of the sweep for
the gap around the instant says the same.
-/

namespace BeyoManager.Analytics.LinearTimeline

open Sorting Sweep Set

section Specification

variable (intervals : List LinearInterval) (windowStart windowEnd now : ℚ)

def CoversAt (i : LinearInterval) (t : ℚ) : Prop :=
  ∃ s, clamp windowStart windowEnd now i = some s ∧ s.1 ≤ t ∧ t < s.2

/-- A pause covers an instant that is not past the first working start after its own. -/
def ActiveAt (i : LinearInterval) (t : ℚ) : Prop :=
  ∃ s, clamp windowStart windowEnd now i = some s ∧ s.1 ≤ t ∧ t < s.2 ∧
    ∀ w ∈ intervals, w.state = .working → ∀ r, clamp windowStart windowEnd now w = some r →
      s.1 < r.1 → t < r.1

/-- A pause owns an overlap before another: by priority, then entry, then record id. -/
def Precedes (i j : LinearInterval) : Prop :=
  j.priority < i.priority ∨ i.priority = j.priority ∧
    (i.enteredAt < j.enteredAt ∨ i.enteredAt = j.enteredAt ∧ i.recordId ≤ j.recordId)

/-- The effective state of an instant, with the reason and the transition of its owner. -/
inductive EffectiveAt (t : ℚ) : SegmentState → Option String → Option String → Prop
  | working {i} : i ∈ intervals → i.state = .working →
      CoversAt windowStart windowEnd now i t → EffectiveAt t .working none none
  | paused {owner} :
      (∀ i ∈ intervals, i.state = .working → ¬ CoversAt windowStart windowEnd now i t) →
      owner ∈ intervals → owner.state = .paused →
      ActiveAt intervals windowStart windowEnd now owner t →
      (∀ j ∈ intervals, j.state = .paused → ActiveAt intervals windowStart windowEnd now j t →
        Precedes owner j) →
      EffectiveAt t .paused (pauseReason owner) owner.transitionReason
  | endedShift {i} :
      (∀ i ∈ intervals, i.state = .working → ¬ CoversAt windowStart windowEnd now i t) →
      (∀ i ∈ intervals, i.state = .paused →
        ¬ ActiveAt intervals windowStart windowEnd now i t) →
      i ∈ intervals → i.state = .endedShift → CoversAt windowStart windowEnd now i t →
      EffectiveAt t .endedShift none none
  | idle :
      (∀ i ∈ intervals, i.state = .working → ¬ CoversAt windowStart windowEnd now i t) →
      (∀ i ∈ intervals, i.state = .paused →
        ¬ ActiveAt intervals windowStart windowEnd now i t) →
      (∀ i ∈ intervals, i.state = .endedShift → ¬ CoversAt windowStart windowEnd now i t) →
      EffectiveAt t .idle none none

end Specification

def choiceAt (es : List Entry) (t : ℚ) : Choice :=
  choose
    (es.filter fun e => e.interval.state = .working ∧ e.start ≤ t ∧ t < e.stop)
    (es.filter fun e => e.interval.state = .paused ∧ e.start ≤ t ∧ t < e.activeEnd)
    (es.filter fun e => e.interval.state = .endedShift ∧ e.start ≤ t ∧ t < e.stop)

variable {intervals : List LinearInterval} {windowStart windowEnd now t : ℚ}

section Entries

variable {spans : List (ℚ × ℚ × LinearInterval)}

theorem mem_clamped {c : ℚ × ℚ × LinearInterval} :
    c ∈ clamped windowStart windowEnd now intervals ↔
      c.2.2 ∈ intervals ∧ clamp windowStart windowEnd now c.2.2 = some (c.1, c.2.1) := by
  simp only [clamped, List.mem_filterMap, Option.map_eq_some_iff]
  constructor
  · rintro ⟨i, hi, s, hs, rfl⟩
    exact ⟨hi, hs⟩
  · rintro ⟨hi, hs⟩
    exact ⟨c.2.2, hi, _, hs, rfl⟩

theorem mem_entries {e : Entry} :
    e ∈ entries spans ↔ ∃ c ∈ spans, entryOf (workingStarts spans) c = e :=
  List.mem_map

theorem mem_workingStarts {p : ℚ} :
    p ∈ workingStarts spans ↔ ∃ c ∈ spans, c.2.2.state = .working ∧ c.1 = p := by
  rw [workingStarts, List.mem_insertionSort, List.mem_map]
  simp only [List.mem_filter, decide_eq_true_eq, and_assoc]

theorem firstAfter_spec {points : List ℚ} (hs : points.Pairwise (· ≤ ·)) (moment : ℚ) :
    (∀ p, firstAfter points moment = some p →
      p ∈ points ∧ moment < p ∧ ∀ r ∈ points, moment < r → p ≤ r) ∧
    (firstAfter points moment = none → ∀ r ∈ points, ¬ moment < r) := by
  constructor
  · intro p hp
    obtain ⟨hlt, before, after, rfl, hbefore⟩ := List.find?_eq_some_iff_append.mp hp
    refine ⟨by simp, by simpa using hlt, fun r hr hmr => ?_⟩
    rcases List.mem_append.mp hr with hr | hr
    · exact absurd hmr (by simpa using hbefore r hr)
    · rcases List.mem_cons.mp hr with rfl | hr
      · exact le_rfl
      · exact List.rel_of_pairwise_cons (List.pairwise_append.mp hs).2.1 hr
  · intro hnone r hr
    simpa using List.find?_eq_none.mp hnone r hr

/-- A pause is active until its end or the next working start, whichever comes first. -/
theorem lt_activeEnd (spans : List (ℚ × ℚ × LinearInterval)) {c : ℚ × ℚ × LinearInterval}
    (hc : c.2.2.state = .paused) :
    t < (entryOf (workingStarts spans) c).activeEnd ↔
      t < c.2.1 ∧ ∀ w ∈ spans, w.2.2.state = .working → c.1 < w.1 → t < w.1 := by
  have hsorted : (workingStarts spans).Pairwise (· ≤ ·) := List.pairwise_insertionSort _ _
  obtain ⟨hsome, hnone⟩ := firstAfter_spec hsorted c.1
  have hstarts : ∀ q : ℚ → Prop, (∀ p ∈ workingStarts spans, c.1 < p → q p) ↔
      ∀ w ∈ spans, w.2.2.state = .working → c.1 < w.1 → q w.1 := by
    intro q
    constructor
    · exact fun h w hw hws => h w.1 (mem_workingStarts.mpr ⟨w, hw, hws, rfl⟩)
    · rintro h p hp
      obtain ⟨w, hw, hws, rfl⟩ := mem_workingStarts.mp hp
      exact h w hw hws
  rw [← hstarts (fun p => t < p)]
  simp only [entryOf, hc, if_true]
  cases hf : firstAfter (workingStarts spans) c.1 with
  | none => exact ⟨fun h => ⟨h, fun p hp hlt => absurd hlt (hnone hf p hp)⟩, fun h => h.1⟩
  | some resume =>
    obtain ⟨hmem, hlt, hleast⟩ := hsome resume hf
    simp only [lt_min_iff]
    exact ⟨fun h => ⟨h.1, fun p hp hcp => h.2.trans_le (hleast p hp hcp)⟩,
      fun h => ⟨h.1, h.2 resume hmem hlt⟩⟩

theorem activeEnd_of_not_paused {c : ℚ × ℚ × LinearInterval} (starts : List ℚ)
    (hc : c.2.2.state ≠ .paused) : (entryOf starts c).activeEnd = c.2.1 := if_neg hc

theorem activeEnd_cases (spans : List (ℚ × ℚ × LinearInterval)) (c : ℚ × ℚ × LinearInterval) :
    (entryOf (workingStarts spans) c).activeEnd = c.2.1 ∨
      ∃ w ∈ spans, (entryOf (workingStarts spans) c).activeEnd = w.1 := by
  by_cases hc : c.2.2.state = .paused
  · simp only [entryOf, hc, if_true]
    cases hf : firstAfter (workingStarts spans) c.1 with
    | none => exact .inl rfl
    | some resume =>
      obtain ⟨w, hw, _, rfl⟩ := mem_workingStarts.mp
        ((firstAfter_spec (List.pairwise_insertionSort _ _) c.1).1 resume hf).1
      rcases min_choice c.2.1 w.1 with h | h
      · exact .inl h
      · exact .inr ⟨w, hw, h⟩
  · exact .inl (activeEnd_of_not_paused _ hc)

end Entries

section Choice

abbrev entriesOf (intervals : List LinearInterval) (windowStart windowEnd now : ℚ) : List Entry :=
  entries (clamped windowStart windowEnd now intervals)

theorem exists_covering {state : IntervalState} :
    (∃ e ∈ entriesOf intervals windowStart windowEnd now,
      e.interval.state = state ∧ e.start ≤ t ∧ t < e.stop) ↔
      ∃ i ∈ intervals, i.state = state ∧ CoversAt windowStart windowEnd now i t := by
  constructor
  · rintro ⟨e, he, hst, h1, h2⟩
    obtain ⟨c, hc, rfl⟩ := mem_entries.mp he
    obtain ⟨hi, hs⟩ := mem_clamped.mp hc
    exact ⟨c.2.2, hi, hst, _, hs, h1, h2⟩
  · rintro ⟨i, hi, hst, s, hs, h1, h2⟩
    have hc : (s.1, s.2, i) ∈ clamped windowStart windowEnd now intervals :=
      mem_clamped.mpr ⟨hi, hs⟩
    exact ⟨_, mem_entries.mpr ⟨_, hc, rfl⟩, hst, h1, h2⟩

theorem activeAt_of_entry {e : Entry} (he : e ∈ entriesOf intervals windowStart windowEnd now)
    (hst : e.interval.state = .paused) (h1 : e.start ≤ t) (h2 : t < e.activeEnd) :
    e.interval ∈ intervals ∧ ActiveAt intervals windowStart windowEnd now e.interval t := by
  obtain ⟨c, hc, rfl⟩ := mem_entries.mp he
  obtain ⟨hi, hs⟩ := mem_clamped.mp hc
  obtain ⟨hlt, hresume⟩ := (lt_activeEnd (clamped windowStart windowEnd now intervals) hst).mp h2
  refine ⟨hi, _, hs, h1, hlt, fun w hw hws r hr hlt' => ?_⟩
  exact hresume (r.1, r.2, w) (mem_clamped.mpr ⟨hw, hr⟩) hws hlt'

theorem exists_entry_of_activeAt {i : LinearInterval} (hi : i ∈ intervals)
    (hst : i.state = .paused) (h : ActiveAt intervals windowStart windowEnd now i t) :
    ∃ e ∈ entriesOf intervals windowStart windowEnd now,
      e.interval = i ∧ e.start ≤ t ∧ t < e.activeEnd := by
  obtain ⟨s, hs, h1, h2, hresume⟩ := h
  have hc : (s.1, s.2, i) ∈ clamped windowStart windowEnd now intervals :=
    mem_clamped.mpr ⟨hi, hs⟩
  refine ⟨_, mem_entries.mpr ⟨_, hc, rfl⟩, rfl, h1, ?_⟩
  refine (lt_activeEnd _ (c := (s.1, s.2, i)) hst).mpr ⟨h2, fun w hw hws hlt => ?_⟩
  obtain ⟨hwi, hwr⟩ := mem_clamped.mp hw
  exact hresume w.2.2 hwi hws _ hwr hlt

theorem precedes_of_pauseKey_le {a b : Entry} (h : pauseKey a ≤ pauseKey b) :
    Precedes a.interval b.interval := by
  rcases Prod.Lex.toLex_le_toLex.mp h with h | ⟨h, h'⟩
  · exact .inl (neg_lt_neg_iff.mp h)
  · refine .inr ⟨neg_inj.mp h, ?_⟩
    exact Prod.Lex.toLex_le_toLex.mp h'

/-- The choice at an instant is its effective state. -/
theorem effectiveAt_choiceAt (intervals : List LinearInterval) (windowStart windowEnd now t : ℚ) :
    EffectiveAt intervals windowStart windowEnd now t
      (choiceAt (entriesOf intervals windowStart windowEnd now) t).state
      (choiceAt (entriesOf intervals windowStart windowEnd now) t).reason
      (choiceAt (entriesOf intervals windowStart windowEnd now) t).transitionReason := by
  have hnone : ∀ {state : IntervalState},
      (entriesOf intervals windowStart windowEnd now).filter
        (fun e => e.interval.state = state ∧ e.start ≤ t ∧ t < e.stop) = [] →
      ∀ i ∈ intervals, i.state = state → ¬ CoversAt windowStart windowEnd now i t := by
    intro state h i hi hst hc
    obtain ⟨e, he, hcov⟩ := exists_covering.mpr ⟨i, hi, hst, hc⟩
    simpa [hcov] using List.filter_eq_nil_iff.mp h e he
  have hsome : ∀ {state : IntervalState},
      (entriesOf intervals windowStart windowEnd now).filter
        (fun e => e.interval.state = state ∧ e.start ≤ t ∧ t < e.stop) ≠ [] →
      ∃ i ∈ intervals, i.state = state ∧ CoversAt windowStart windowEnd now i t := by
    intro state h
    obtain ⟨e, he⟩ := List.exists_mem_of_ne_nil _ h
    obtain ⟨he, hcov⟩ := List.mem_filter.mp he
    exact exists_covering.mp ⟨e, he, by simpa using hcov⟩
  unfold choiceAt choose
  split
  · rename_i hw
    obtain ⟨i, hi, hst, hc⟩ := hsome hw
    exact .working hi hst hc
  · rename_i hw
    have hw := hnone (not_not.mp hw)
    split
    · rename_i owner howner
      obtain ⟨hmem, hleast⟩ := minBy_spec howner
      obtain ⟨hmem, hcov⟩ := List.mem_filter.mp hmem
      obtain ⟨hst, h1, h2⟩ := of_decide_eq_true hcov
      obtain ⟨hi, hactive⟩ := activeAt_of_entry hmem hst h1 h2
      refine .paused hw hi hst hactive fun j hj hjst hjactive => ?_
      obtain ⟨e, he, rfl, h1, h2⟩ := exists_entry_of_activeAt hj hjst hjactive
      exact precedes_of_pauseKey_le (hleast e (List.mem_filter.mpr ⟨he, by simp [hjst, h1, h2]⟩))
    · rename_i hp
      have hp : ∀ i ∈ intervals, i.state = .paused →
          ¬ ActiveAt intervals windowStart windowEnd now i t := by
        intro i hi hst hactive
        obtain ⟨e, he, rfl, h1, h2⟩ := exists_entry_of_activeAt hi hst hactive
        have := List.filter_eq_nil_iff.mp (minBy_eq_none.mp hp) e he
        simp [hst, h1, h2] at this
      split
      · rename_i he
        obtain ⟨i, hi, hst, hc⟩ := hsome he
        exact .endedShift hw hp hi hst hc
      · rename_i he
        exact .idle hw hp (hnone (not_not.mp he))

end Choice

section Gaps

variable {extraPoints : List ℚ} {gap : ℚ × ℚ}

theorem boundaries_sorted (windowStart windowEnd : ℚ) (es : List Entry) (extraPoints : List ℚ) :
    (boundaries windowStart windowEnd es extraPoints).Pairwise (· < ·) := by
  have hle : (boundaries windowStart windowEnd es extraPoints).Pairwise (· ≤ ·) :=
    List.pairwise_insertionSort _ _
  have hne : (boundaries windowStart windowEnd es extraPoints).Nodup :=
    (List.perm_insertionSort _ _).nodup_iff.mpr (List.nodup_dedup _)
  exact (hle.and hne).imp fun h => lt_of_le_of_ne h.1 h.2

theorem mem_boundaries {es : List Entry} {p : ℚ} :
    p ∈ boundaries windowStart windowEnd es extraPoints ↔
      (∃ e ∈ es, p = e.start ∨ p = e.stop) ∨
        p ∈ extraPoints ∧ windowStart ≤ p ∧ p ≤ windowEnd := by
  simp [boundaries, List.mem_insertionSort]

/-- The choice for a gap is the choice at each of its instants. -/
theorem choiceOn_eq (hgap : gap ∈ segments (boundaries windowStart windowEnd
      (entriesOf intervals windowStart windowEnd now) extraPoints)) (ht : t ∈ Ico gap.1 gap.2) :
    choiceOn (entriesOf intervals windowStart windowEnd now) gap =
      choiceAt (entriesOf intervals windowStart windowEnd now) t := by
  have hsorted := boundaries_sorted windowStart windowEnd
    (entriesOf intervals windowStart windowEnd now) extraPoints
  have hcover : ∀ {a b : ℚ},
      a ∈ boundaries windowStart windowEnd (entriesOf intervals windowStart windowEnd now)
        extraPoints →
      b ∈ boundaries windowStart windowEnd (entriesOf intervals windowStart windowEnd now)
        extraPoints → ((a ≤ gap.1 ∧ gap.2 ≤ b) ↔ (a ≤ t ∧ t < b)) := by
    intro a b ha hb
    exact ⟨fun h => ⟨h.1.trans ht.1, ht.2.trans_le h.2⟩,
      fun h => covers_of_mem hsorted hgap (i := (a, b)) ⟨ha, hb⟩ ht h⟩
  have hpoints : ∀ e ∈ entriesOf intervals windowStart windowEnd now,
      ∀ p, p = e.start ∨ p = e.stop ∨ p = e.activeEnd → p ∈ boundaries windowStart windowEnd
        (entriesOf intervals windowStart windowEnd now) extraPoints := by
    rintro e he p (rfl | rfl | rfl)
    · exact mem_boundaries.mpr (.inl ⟨e, he, .inl rfl⟩)
    · exact mem_boundaries.mpr (.inl ⟨e, he, .inr rfl⟩)
    · obtain ⟨c, hc, rfl⟩ := mem_entries.mp he
      rcases activeEnd_cases (clamped windowStart windowEnd now intervals) c with
        h | ⟨w, hw, h⟩
      · exact mem_boundaries.mpr (.inl ⟨_, he, .inr h⟩)
      · exact mem_boundaries.mpr (.inl ⟨_, mem_entries.mpr ⟨w, hw, rfl⟩, .inl h⟩)
  have hfilter : ∀ (state : IntervalState) (stop : Entry → ℚ),
      (∀ e, stop e = e.stop ∨ stop e = e.activeEnd) →
      (entriesOf intervals windowStart windowEnd now).filter
        (fun e => e.interval.state = state ∧ e.start ≤ gap.1 ∧ gap.2 ≤ stop e) =
      (entriesOf intervals windowStart windowEnd now).filter
        (fun e => e.interval.state = state ∧ e.start ≤ t ∧ t < stop e) := by
    intro state stop hstop
    refine List.filter_congr fun e he => decide_eq_decide.mpr (and_congr_right fun _ => ?_)
    refine hcover (hpoints e he _ (.inl rfl)) ?_
    rcases hstop e with h | h
    · exact hpoints e he _ (.inr (.inl h))
    · exact hpoints e he _ (.inr (.inr h))
  rw [choiceOn, choiceAt, hfilter _ _ fun _ => .inl rfl, hfilter _ _ fun _ => .inr rfl,
    hfilter _ _ fun _ => .inl rfl]

end Gaps

end BeyoManager.Analytics.LinearTimeline
