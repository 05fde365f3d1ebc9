import BeyoManager.Analytics.LinearPartition

/-! # The segments and the totals of one timeline

The drawable segments partition the worker's span by effective state, hard breaks only
split them, and they add up to the totals of the aggregate view, as long as no hard break
of the window lies outside the span. A break outside it adds an idle stretch.
-/

namespace BeyoManager.Analytics.LinearTimeline

open Sorting Sweep Set

variable {intervals : List LinearInterval} {windowStart windowEnd now : ℚ} {breaks : List ℚ}

section Span

theorem clamped_ne_nil_of_starts {a : ℚ} (ha : a ∈ starts intervals windowStart windowEnd now) :
    clamped windowStart windowEnd now intervals ≠ [] := by
  obtain ⟨i, hi, s, hs, rfl⟩ := ha
  exact List.ne_nil_of_mem (mem_clamped (c := (s.1, s.2, i)).mpr ⟨hi, hs⟩)

theorem boundary_in_span (hb : BreaksInSpan intervals windowStart windowEnd now breaks) {a b p : ℚ}
    (ha : IsLeast (starts intervals windowStart windowEnd now) a)
    (hz : IsGreatest (stops intervals windowStart windowEnd now) b)
    (hp : p ∈ pointsOf intervals windowStart windowEnd now breaks) : a ≤ p ∧ p ≤ b := by
  rcases mem_boundaries.mp hp with ⟨e, he, rfl | rfl⟩ | ⟨hpb, h1, h2⟩
  · have hlt := (entry_bounds he).2.1
    exact ⟨ha.2 (mem_starts.mpr ⟨e, he, rfl⟩), hlt.le.trans (hz.2 (mem_stops.mpr ⟨e, he, rfl⟩))⟩
  · have hlt := (entry_bounds he).2.1
    exact ⟨(ha.2 (mem_starts.mpr ⟨e, he, rfl⟩)).trans hlt.le, hz.2 (mem_stops.mpr ⟨e, he, rfl⟩)⟩
  · obtain ⟨h3, h4⟩ := hb p hpb h1 h2
    exact ⟨h3 a ha, h4 b hz⟩

theorem tiles_span (hb : BreaksInSpan intervals windowStart windowEnd now breaks) {a b : ℚ}
    (ha : IsLeast (starts intervals windowStart windowEnd now) a)
    (hz : IsGreatest (stops intervals windowStart windowEnd now) b) :
    Tiles ((sweep intervals windowStart windowEnd now breaks).map RawSegment.span) a b := by
  obtain ⟨p, q, hp, hq, htiles⟩ := exists_tiles_sweep (clamped_ne_nil_of_starts ha.1) breaks
  obtain ⟨e, he, hea⟩ := mem_starts.mp ha.1
  obtain ⟨f, hf, hfb⟩ := mem_stops.mp hz.1
  have hpa : p = a := le_antisymm
    (hp.2 (mem_boundaries.mpr (.inl ⟨e, he, .inl hea.symm⟩))) (boundary_in_span hb ha hz hp.1).1
  have hqb : q = b := le_antisymm (boundary_in_span hb ha hz hq.1).2
    (hq.2 (mem_boundaries.mpr (.inl ⟨f, hf, .inr hfb.symm⟩)))
  rwa [hpa, hqb] at htiles

theorem breaksInSpan_nil : BreaksInSpan intervals windowStart windowEnd now [] := by
  intro b hb
  simp at hb

def stateAt (intervals : List LinearInterval) (windowStart windowEnd now a b : ℚ)
    (state : SegmentState) (t : ℚ) : ℚ :=
  if (labelAt intervals windowStart windowEnd now t).1 = state ∧ a ≤ t ∧ t < b then 1 else 0

/-- The seconds of a state add up its step function over the gaps. -/
theorem secondsOf_sweep (hb : BreaksInSpan intervals windowStart windowEnd now breaks) {a b : ℚ}
    (ha : IsLeast (starts intervals windowStart windowEnd now) a)
    (hz : IsGreatest (stops intervals windowStart windowEnd now) b) (state : SegmentState) :
    StepOn (stateAt intervals windowStart windowEnd now a b state)
        (pointsOf intervals windowStart windowEnd now breaks) ∧
      secondsOf (sweep intervals windowStart windowEnd now breaks) state =
        stepSum (stateAt intervals windowStart windowEnd now a b state)
          (pointsOf intervals windowStart windowEnd now breaks) := by
  have hsorted : (pointsOf intervals windowStart windowEnd now breaks).Pairwise (· < ·) :=
    boundaries_sorted _ _ _ _
  have hinside : ∀ gap ∈ segments (pointsOf intervals windowStart windowEnd now breaks),
      ∀ t ∈ Ico gap.1 gap.2, a ≤ t ∧ t < b := by
    intro gap hgap t ht
    obtain ⟨h1, h2⟩ := mem_of_mem_segments hgap
    exact ⟨(boundary_in_span hb ha hz h1).1.trans ht.1,
      ht.2.trans_le (boundary_in_span hb ha hz h2).2⟩
  have hvalue : ∀ gap ∈ segments (pointsOf intervals windowStart windowEnd now breaks),
      ∀ t ∈ Ico gap.1 gap.2, stateAt intervals windowStart windowEnd now a b state t =
        if (choiceOn (entriesOf intervals windowStart windowEnd now) gap).state = state
          then 1 else 0 := by
    intro gap hgap t ht
    rw [stateAt, labelAt, ← choiceOn_eq hgap ht]
    exact if_congr (and_iff_left (hinside gap hgap t ht)) rfl rfl
  have hleft : ∀ gap ∈ segments (pointsOf intervals windowStart windowEnd now breaks),
      gap.1 ∈ Ico gap.1 gap.2 := fun gap hgap => ⟨le_rfl, segments_lt hsorted hgap⟩
  refine ⟨⟨hsorted, fun gap hgap t ht => ?_, fun t ht => ?_⟩, ?_⟩
  · rw [hvalue gap hgap t ht, hvalue gap hgap _ (hleft gap hgap)]
  · obtain ⟨e, he, hea⟩ := mem_starts.mp ha.1
    obtain ⟨f, hf, hfb⟩ := mem_stops.mp hz.1
    refine if_neg fun h => ?_
    rcases ht with ht | ht
    · exact (ht a (mem_boundaries.mpr (.inl ⟨e, he, .inl hea.symm⟩))).not_ge h.2.1
    · exact (ht b (mem_boundaries.mpr (.inl ⟨f, hf, .inr hfb.symm⟩))).not_gt h.2.2
  · obtain ⟨openIds, hsweep⟩ := sweep_eq (clamped_ne_nil_of_starts ha.1) breaks
    rw [hsweep, stepSum]
    have hsum : ∀ l ⊆ segments (pointsOf intervals windowStart windowEnd now breaks),
        secondsOf (l.map (rawSegment now openIds (entriesOf intervals windowStart windowEnd now)))
            state = (l.map fun s => (s.2 - s.1) *
              stateAt intervals windowStart windowEnd now a b state s.1).sum := by
      intro l hl
      induction l with
      | nil => rfl
      | cons gap l ih =>
        have hgap := hl List.mem_cons_self
        rw [List.map_cons, secondsOf_cons, ih fun s hs => hl (List.mem_cons_of_mem gap hs),
          List.map_cons, List.sum_cons, hvalue gap hgap _ (hleft gap hgap), mul_ite, mul_one,
          mul_zero]
        rfl
    exact hsum _ (List.Subset.refl _)

theorem secondsOf_breaks (hb : BreaksInSpan intervals windowStart windowEnd now breaks) {a b : ℚ}
    (ha : IsLeast (starts intervals windowStart windowEnd now) a)
    (hz : IsGreatest (stops intervals windowStart windowEnd now) b) (state : SegmentState) :
    secondsOf (sweep intervals windowStart windowEnd now breaks) state =
      secondsOf (sweep intervals windowStart windowEnd now []) state := by
  obtain ⟨hstep, heq⟩ := secondsOf_sweep hb ha hz state
  obtain ⟨hstep', heq'⟩ := secondsOf_sweep breaksInSpan_nil ha hz state
  rw [heq, heq', hstep.stepSum_eq hstep']

end Span

section Totals

theorem sum_pauseSeconds (raw : List RawSegment) :
    ((pauseSeconds raw).map Prod.snd).sum = secondsOf raw .paused := by
  have hfold : ∀ (l : List RawSegment) (d : List (String × ℚ)), (d.map Prod.fst).Nodup →
      ((l.foldl (fun d seg => Dict.set d (pauseBucket seg)
        (((d.find? fun x => x.1 = pauseBucket seg).map Prod.snd).getD 0 +
          (seg.stop - seg.start))) d).map Prod.snd).sum =
        (d.map Prod.snd).sum + (l.map fun seg => seg.stop - seg.start).sum := by
    intro l
    induction l with
    | nil => simp
    | cons seg l ih =>
      intro d hn
      rw [List.foldl_cons, ih _ (Dict.nodup_keys_set hn _), Dict.sum_set hn, List.map_cons,
        List.sum_cons]
      ring
  have h := hfold (raw.filter fun seg => seg.state = .paused) [] List.nodup_nil
  rw [List.map_nil, List.sum_nil, zero_add] at h
  exact h

end Totals

/-- The segments partition the span of the intervals by effective state and add up to the
totals of the aggregate view. -/
structure Partitions (intervals : List LinearInterval) (windowStart windowEnd now : ℚ)
    (breaks : List ℚ) : Prop where
  /-- Ordered, contiguous and disjoint, they cover exactly the span of the intervals. -/
  tiles : ∀ a b, IsLeast (starts intervals windowStart windowEnd now) a →
    IsGreatest (stops intervals windowStart windowEnd now) b →
      Tiles ((computeLinearSegments intervals windowStart windowEnd now breaks).map
        fun seg => (seg.start, seg.stop)) a b
  empty : starts intervals windowStart windowEnd now = ∅ →
    computeLinearSegments intervals windowStart windowEnd now breaks = []
  effective : ∀ seg ∈ computeLinearSegments intervals windowStart windowEnd now breaks,
    ∀ t ∈ Ico seg.start seg.stop,
      EffectiveAt intervals windowStart windowEnd now t seg.state seg.reason seg.transitionReason
  /-- No break is straddled. -/
  whole : ∀ seg ∈ computeLinearSegments intervals windowStart windowEnd now breaks,
    ∀ b ∈ breaks, ¬ (seg.start < b ∧ b < seg.stop)
  /-- Breaks only split: the segments begin where they would without breaks, or at a break. -/
  splits : (∀ seg ∈ computeLinearSegments intervals windowStart windowEnd now [],
      ∃ r ∈ computeLinearSegments intervals windowStart windowEnd now breaks,
        r.start = seg.start) ∧
    ∀ seg ∈ computeLinearSegments intervals windowStart windowEnd now breaks,
      seg.start ∈ breaks ∨ ∃ r ∈ computeLinearSegments intervals windowStart windowEnd now [],
        r.start = seg.start
  /-- The lengths per state are the totals before rounding. -/
  totals : ∀ state, (((computeLinearSegments intervals windowStart windowEnd now breaks).filter
      fun seg => seg.state = state).map fun seg => seg.stop - seg.start).sum =
    secondsOf (sweep intervals windowStart windowEnd now []) state
  /-- The paused total is that of the pause reasons. -/
  pauses : (((computeLinearSegments intervals windowStart windowEnd now breaks).filter
      fun seg => seg.state = .paused).map fun seg => seg.stop - seg.start).sum =
    ((pauseSeconds (sweep intervals windowStart windowEnd now [])).map Prod.snd).sum

section Views

theorem mem_computeLinearSegments {seg : LinearSegment} :
    seg ∈ computeLinearSegments intervals windowStart windowEnd now breaks ↔
      ∃ run ∈ runsOf intervals windowStart windowEnd now breaks,
        segmentOf intervals run = seg := by
  simp [computeLinearSegments]

theorem map_span_computeLinearSegments (intervals : List LinearInterval)
    (windowStart windowEnd now : ℚ) (breaks : List ℚ) :
    (computeLinearSegments intervals windowStart windowEnd now breaks).map
        (fun seg => (seg.start, seg.stop)) =
      (runsOf intervals windowStart windowEnd now breaks).map Run.span := by
  rw [computeLinearSegments, List.map_map]
  rfl

theorem sum_computeLinearSegments (state : SegmentState) :
    (((computeLinearSegments intervals windowStart windowEnd now breaks).filter
      fun seg => seg.state = state).map fun seg => seg.stop - seg.start).sum =
      runSeconds (runsOf intervals windowStart windowEnd now breaks) state := by
  rw [computeLinearSegments, List.filter_map, List.map_map]
  rfl

theorem sweep_of_clamped_nil (h : clamped windowStart windowEnd now intervals = [])
    (breaks : List ℚ) : sweep intervals windowStart windowEnd now breaks = [] := by
  simp [sweep, h]

theorem clamped_eq_nil_iff :
    clamped windowStart windowEnd now intervals = [] ↔
      starts intervals windowStart windowEnd now = ∅ := by
  rw [← not_iff_not, ← Set.not_nonempty_iff_eq_empty, not_not]
  constructor
  · intro h
    obtain ⟨c, hc⟩ := List.exists_mem_of_ne_nil _ h
    obtain ⟨hi, hs⟩ := mem_clamped.mp hc
    exact ⟨c.1, c.2.2, hi, _, hs, rfl⟩
  · exact fun ⟨a, ha⟩ => clamped_ne_nil_of_starts ha

theorem exists_span (h : clamped windowStart windowEnd now intervals ≠ []) :
    (∃ a, IsLeast (starts intervals windowStart windowEnd now) a) ∧
      ∃ b, IsGreatest (stops intervals windowStart windowEnd now) b := by
  obtain ⟨c, hc⟩ := List.exists_mem_of_ne_nil _ h
  have he := mem_entries.mpr ⟨c, hc, rfl⟩
  have hstarts : starts intervals windowStart windowEnd now =
      ((entriesOf intervals windowStart windowEnd now).map Entry.start).toFinset := by
    ext x
    simp [mem_starts]
  have hstops : stops intervals windowStart windowEnd now =
      ((entriesOf intervals windowStart windowEnd now).map Entry.stop).toFinset := by
    ext x
    simp [mem_stops]
  rw [hstarts, hstops]
  exact ⟨⟨_, Finset.isLeast_min' _ ⟨_, List.mem_toFinset.mpr (List.mem_map_of_mem he)⟩⟩,
    ⟨_, Finset.isGreatest_max' _ ⟨_, List.mem_toFinset.mpr (List.mem_map_of_mem he)⟩⟩⟩

end Views

/-- Breaks in the span leave the partition and the totals as they should be. -/
theorem partitions_of_breaksInSpan
    (hb : BreaksInSpan intervals windowStart windowEnd now breaks) :
    Partitions intervals windowStart windowEnd now breaks := by
  by_cases hc : clamped windowStart windowEnd now intervals = []
  · have hnil : ∀ breaks, computeLinearSegments intervals windowStart windowEnd now breaks = [] :=
      fun breaks => by rw [computeLinearSegments, runsOf, sweep_of_clamped_nil hc]; rfl
    refine ⟨fun a b ha _ => ?_, fun _ => hnil _, ?_, ?_, ?_, ?_, ?_⟩
    · exact absurd hc (clamped_ne_nil_of_starts ha.1)
    · simp [hnil]
    · simp [hnil]
    · simp [hnil]
    · simp [hnil, sweep_of_clamped_nil hc, secondsOf]
    · simp [hnil, sweep_of_clamped_nil hc, pauseSeconds]
  obtain ⟨⟨a, ha⟩, b, hz⟩ := exists_span hc
  obtain ⟨hm, hsum⟩ := merged_runsOf hc (tiles_span hb ha hz)
  obtain ⟨hm', -⟩ := merged_runsOf hc (tiles_span breaksInSpan_nil ha hz)
  have hab : a < b := by
    obtain ⟨e, he, hea⟩ := mem_starts.mp ha.1
    exact hea ▸ (entry_bounds he).2.1.trans_le (hz.2 (mem_stops.mpr ⟨e, he, rfl⟩))
  have htotals : ∀ state, runSeconds (runsOf intervals windowStart windowEnd now breaks) state =
      secondsOf (sweep intervals windowStart windowEnd now []) state :=
    fun state => (hsum state).trans (secondsOf_breaks hb ha hz state)
  refine ⟨fun a' b' ha' hz' => ?_, fun h => absurd (clamped_eq_nil_iff.mpr h) hc, ?_, ?_,
    ⟨?_, ?_⟩, fun state => ?_, ?_⟩
  · rw [map_span_computeLinearSegments, ha'.unique ha, hz'.unique hz]
    exact hm.tiles
  · intro seg hseg t ht
    obtain ⟨run, hrun, rfl⟩ := mem_computeLinearSegments.mp hseg
    have hlabel := hm.label run hrun t ht
    have heff := effectiveAt_choiceAt intervals windowStart windowEnd now t
    simp only [labelAt, Choice.key, Run.key, Prod.mk.injEq] at hlabel
    rwa [hlabel.1, hlabel.2.1, hlabel.2.2.1] at heff
  · intro seg hseg
    obtain ⟨run, hrun, rfl⟩ := mem_computeLinearSegments.mp hseg
    exact hm.whole run hrun
  · intro seg hseg
    obtain ⟨run, hrun, rfl⟩ := mem_computeLinearSegments.mp hseg
    obtain ⟨r, hr, hstart⟩ : ∃ r ∈ runsOf intervals windowStart windowEnd now breaks,
        r.start = run.start := by
      by_cases hfirst : run.start = a
      · rw [hfirst]
        exact hm.exists_first hab
      · exact hm'.exists_start hm hrun hfirst List.not_mem_nil
    exact ⟨_, mem_computeLinearSegments.mpr ⟨r, hr, rfl⟩, hstart⟩
  · intro seg hseg
    obtain ⟨run, hrun, rfl⟩ := mem_computeLinearSegments.mp hseg
    refine or_iff_not_imp_left.mpr fun hbreak => ?_
    obtain ⟨r, hr, hstart⟩ : ∃ r ∈ runsOf intervals windowStart windowEnd now [],
        r.start = run.start := by
      by_cases hfirst : run.start = a
      · rw [hfirst]
        exact hm'.exists_first hab
      · exact hm.exists_start hm' hrun hfirst hbreak
    exact ⟨_, mem_computeLinearSegments.mpr ⟨r, hr, rfl⟩, hstart⟩
  · rw [sum_computeLinearSegments, htotals]
  · rw [sum_computeLinearSegments, htotals, sum_pauseSeconds]

/-- A partition of the span leaves no break of the window outside it. -/
theorem breaksInSpan_of_partitions
    (h : Partitions intervals windowStart windowEnd now breaks) :
    BreaksInSpan intervals windowStart windowEnd now breaks := by
  intro x hx hxs hxe
  by_cases hc : clamped windowStart windowEnd now intervals = []
  · constructor
    · exact fun a ha => absurd hc (clamped_ne_nil_of_starts ha.1)
    · rintro b ⟨⟨i, hi, s, hs, _⟩, _⟩
      exact absurd hc (clamped_ne_nil_of_starts ⟨i, hi, s, hs, rfl⟩)
  obtain ⟨⟨a, ha⟩, b, hz⟩ := exists_span hc
  obtain ⟨p, q, hp, hq, htiles⟩ := exists_tiles_sweep hc breaks
  have hmem : x ∈ pointsOf intervals windowStart windowEnd now breaks :=
    mem_boundaries.mpr (.inr ⟨hx, hxs, hxe⟩)
  obtain ⟨hm, -⟩ := merged_runsOf hc htiles
  have hspan := h.tiles a b ha hz
  rw [map_span_computeLinearSegments] at hspan
  have hlt : a < b := by
    obtain ⟨e, he, hea⟩ := mem_starts.mp ha.1
    exact hea ▸ (entry_bounds he).2.1.trans_le (hz.2 (mem_stops.mpr ⟨e, he, rfl⟩))
  have hne : (runsOf intervals windowStart windowEnd now breaks).map Run.span ≠ [] := by
    intro hnil
    rw [hnil] at hspan
    exact hlt.ne hspan
  obtain ⟨hpa, hqb⟩ := hm.tiles.ends hspan hne
  refine ⟨fun a' ha' => ?_, fun b' hb' => ?_⟩
  · rw [ha'.unique ha, ← hpa]
    exact hp.2 hmem
  · rw [hb'.unique hz, ← hqb]
    exact hq.2 hmem

/-- The segments partition the worker's span by effective state and add up to the totals
exactly when no hard break of the window lies outside the span. -/
theorem computeLinearSegments_partitions_iff (intervals : List LinearInterval)
    (windowStart windowEnd now : ℚ) (breaks : List ℚ) :
    Partitions intervals windowStart windowEnd now breaks ↔
      BreaksInSpan intervals windowStart windowEnd now breaks :=
  ⟨breaksInSpan_of_partitions, partitions_of_breaksInSpan⟩

/-- A midnight before the first interval of the day is turned into an idle stretch. -/
theorem computeLinearSegments_midnight :
    ¬ Partitions [⟨"w", .working, none, 32400, some 36000, "s", 0, none⟩] 0 86400 86400 [0] := by
  intro h
  have htotal := h.totals .idle
  have hsegments : (((computeLinearSegments
      [⟨"w", .working, none, 32400, some 36000, "s", 0, none⟩] 0 86400 86400 [0]).filter
        fun seg => seg.state = .idle).map fun seg => seg.stop - seg.start).sum = 32400 := by
    decide +kernel
  have hzero : secondsOf (sweep [⟨"w", .working, none, 32400, some 36000, "s", 0, none⟩]
      0 86400 86400 []) .idle = 0 := by decide +kernel
  rw [hsegments, hzero] at htotal
  norm_num at htotal

end BeyoManager.Analytics.LinearTimeline
