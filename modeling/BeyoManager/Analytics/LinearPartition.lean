import BeyoManager.Analytics.EffectiveState

/-! # The partition of a worker's time

The merged segments tile the span of the clamped intervals, each carries the effective
state of its instants, and their lengths add up to the totals, exactly when no hard break
of the window lies outside that span.
-/

namespace BeyoManager.Analytics.LinearTimeline

open Sorting Sweep Set

abbrev Key := SegmentState × Option String × Option String × ℤ

/-- The key of a choice. -/
def Choice.key (c : Choice) : Key := (c.state, c.reason, c.transitionReason, c.ownerPriority)

/-- The key of a raw segment. -/
def RawSegment.key (seg : RawSegment) : Key :=
  (seg.state, seg.reason, seg.transitionReason, seg.ownerPriority)

/-- The key of a run. -/
def Run.key (run : Run) : Key := (run.state, run.reason, run.transitionReason, run.ownerPriority)

def Run.span (run : Run) : ℚ × ℚ := (run.start, run.stop)

def RawSegment.span (seg : RawSegment) : ℚ × ℚ := (seg.start, seg.stop)

section Merge

variable (label : ℚ → Key) (breaks : List ℚ)

/-- A raw segment whose instants have one label and that no break cuts. -/
structure RawSegment.Uniform (seg : RawSegment) : Prop where
  label : ∀ t ∈ Ico seg.start seg.stop, label t = seg.key
  whole : ∀ b ∈ breaks, ¬ (seg.start < b ∧ b < seg.stop)

/-- The runs that the raw segments from `a` to `x` are merged into. -/
structure Merged (runs : List Run) (a x : ℚ) : Prop where
  tiles : Tiles (runs.map Run.span) a x
  label : ∀ run ∈ runs, ∀ t ∈ Ico run.start run.stop, label t = run.key
  whole : ∀ run ∈ runs, ∀ b ∈ breaks, ¬ (run.start < b ∧ b < run.stop)
  apart : runs.IsChain fun p q => q.start ∈ breaks ∨ p.key ≠ q.key

variable {label breaks} {runs : List Run} {seg : RawSegment} {a x : ℚ}

theorem continues_iff {prev : Run} :
    prev.continues breaks seg ↔ prev.key = seg.key ∧ seg.start ∉ breaks := by
  simp only [Run.continues, Run.key, RawSegment.key, Prod.mk.injEq]
  tauto

/-- Merging one more raw segment. -/
theorem Merged.mergeRun (h : Merged label breaks runs a x) (hu : seg.Uniform label breaks)
    (hstart : seg.start = x) (hlt : seg.start < seg.stop) :
    Merged label breaks (mergeRun breaks runs seg) a seg.stop := by
  rw [LinearTimeline.mergeRun]
  cases hlast : runs.getLast? with
  | none =>
    obtain rfl := List.getLast?_eq_none_iff.mp hlast
    obtain rfl : a = x := h.tiles
    refine ⟨⟨hstart, hlt, rfl⟩, ?_, ?_, .singleton _⟩
    · intro run hrun
      rw [List.mem_singleton.mp hrun]
      exact hu.label
    · intro run hrun
      rw [List.mem_singleton.mp hrun]
      exact hu.whole
  | some prev =>
    obtain ⟨init, rfl⟩ := List.getLast?_eq_some_iff.mp hlast
    have hprev : prev ∈ init ++ [prev] := by simp
    obtain ⟨hinit, hprevlt, hstop⟩ := tiles_concat.mp (by simpa using h.tiles)
    obtain hstop : prev.stop = seg.start := hstop.trans hstart.symm
    simp only
    split
    · rename_i hcont
      obtain ⟨hkey, hbreak⟩ := continues_iff.mp hcont
      rw [List.dropLast_concat]
      refine ⟨?_, ?_, ?_, ?_⟩
      · rw [List.map_append, List.map_singleton, tiles_concat]
        exact ⟨hinit, (hprevlt.trans_eq hstop).trans hlt, rfl⟩
      · intro run hrun t ht
        rcases List.mem_append.mp hrun with hrun | hrun
        · exact h.label run (List.mem_append_left _ hrun) t ht
        · rw [List.mem_singleton.mp hrun] at ht ⊢
          by_cases hts : t < prev.stop
          · exact h.label prev hprev t ⟨ht.1, hts⟩
          · exact (hu.label t ⟨hstop ▸ not_lt.mp hts, ht.2⟩).trans hkey.symm
      · intro run hrun b hb hcut
        rcases List.mem_append.mp hrun with hrun | hrun
        · exact h.whole run (List.mem_append_left _ hrun) b hb hcut
        · rw [List.mem_singleton.mp hrun] at hcut
          rcases lt_trichotomy b prev.stop with hbs | hbs | hbs
          · exact h.whole prev hprev b hb ⟨hcut.1, hbs⟩
          · exact hbreak (hstop ▸ hbs ▸ hb)
          · exact hu.whole b hb ⟨hstop ▸ hbs, hcut.2⟩
      · obtain ⟨h1, _, h3⟩ := List.isChain_append.mp h.apart
        refine List.isChain_append.mpr ⟨h1, .singleton _, fun p hp q hq => ?_⟩
        obtain rfl : prev.extend seg = q := by simpa using hq
        exact h3 p hp prev (by simp)
    · rename_i hcont
      rw [continues_iff, not_and_or, not_not] at hcont
      refine ⟨?_, ?_, ?_, ?_⟩
      · rw [List.map_append, List.map_singleton, tiles_concat]
        exact ⟨show Tiles _ a seg.start from hstart.symm ▸ h.tiles, hlt, rfl⟩
      · intro run hrun t ht
        rcases List.mem_append.mp hrun with hrun | hrun
        · exact h.label run hrun t ht
        · rw [List.mem_singleton.mp hrun] at ht ⊢
          exact hu.label t ht
      · intro run hrun b hb hcut
        rcases List.mem_append.mp hrun with hrun | hrun
        · exact h.whole run hrun b hb hcut
        · rw [List.mem_singleton.mp hrun] at hcut
          exact hu.whole b hb hcut
      · refine List.isChain_append.mpr ⟨h.apart, .singleton _, ?_⟩
        simp only [List.getLast?_append, List.getLast?_singleton, Option.some_or,
          List.head?_cons, Option.mem_def, Option.some.injEq]
        rintro p rfl q rfl
        exact hcont.symm

theorem Merged.foldl {raw : List RawSegment} {b : ℚ} (h : Merged label breaks runs a x)
    (ht : Tiles (raw.map RawSegment.span) x b) (hu : ∀ seg ∈ raw, seg.Uniform label breaks) :
    Merged label breaks (raw.foldl (LinearTimeline.mergeRun breaks) runs) a b := by
  induction raw generalizing runs x with
  | nil =>
    obtain rfl : x = b := ht
    exact h
  | cons seg raw ih =>
    obtain ⟨hstart, hlt, ht⟩ := ht
    refine ih (h.mergeRun (hu seg List.mem_cons_self) hstart hlt) ht fun s hs => ?_
    exact hu s (List.mem_cons_of_mem seg hs)

theorem merged_nil (label : ℚ → Key) (breaks : List ℚ) (a : ℚ) : Merged label breaks [] a a :=
  ⟨rfl, by simp, by simp, .nil⟩

/-- Where two runs with different labels meet, every run of the same labels begins. -/
theorem Merged.exists_start {breaks' : List ℚ} {runs' : List Run} {b : ℚ}
    (h : Merged label breaks runs a b) (h' : Merged label breaks' runs' a b) {q : Run}
    (hq : q ∈ runs) (hne : q.start ≠ a) (hbreak : q.start ∉ breaks) :
    ∃ r ∈ runs', r.start = q.start := by
  obtain ⟨l₁, p, l₂, heq, hpq⟩ := h.tiles.exists_before hq hne
  obtain hpq : p.stop = q.start := hpq
  subst heq
  have hp : p ∈ l₁ ++ p :: q :: l₂ := by simp
  have hkey : p.key ≠ q.key := by
    have hchain := (List.isChain_append.mp h.apart).2.1
    exact (List.isChain_cons_cons.mp hchain).1.resolve_left hbreak
  obtain ⟨_, hplt, _⟩ := h.tiles.bounds (List.mem_map_of_mem hp)
  obtain ⟨hqa, hqlt, hqb⟩ := h.tiles.bounds (List.mem_map_of_mem hq)
  obtain ⟨s, hs, hxs⟩ := h'.tiles.exists_mem hqa (hqlt.trans_le hqb)
  obtain ⟨r, hr, rfl⟩ := List.mem_map.mp hs
  refine ⟨r, hr, hxs.1.antisymm (not_lt.mp fun hlt => hkey ?_)⟩
  -- the run holds an instant of `p` just before `q` begins
  have hmid : max p.start r.start ∈ Ico p.start p.stop :=
    ⟨le_max_left _ _, max_lt hplt (hlt.trans_eq hpq.symm)⟩
  have hmid' : max p.start r.start ∈ Ico r.start r.stop :=
    ⟨le_max_right _ _, (hmid.2.trans_eq hpq).trans hxs.2⟩
  rw [← h.label p hp _ hmid, h'.label r hr _ hmid', ← h'.label r hr _ hxs]
  exact h.label q hq _ ⟨le_rfl, hqlt⟩

theorem Merged.exists_first {b : ℚ} (h : Merged label breaks runs a b) (hlt : a < b) :
    ∃ r ∈ runs, r.start = a := by
  cases runs with
  | nil => exact absurd h.tiles hlt.ne
  | cons r rest => exact ⟨r, List.mem_cons_self, h.tiles.1⟩

def runSeconds (runs : List Run) (state : SegmentState) : ℚ :=
  ((runs.filter fun run => run.state = state).map fun run => run.stop - run.start).sum

theorem runSeconds_append (runs runs' : List Run) (state : SegmentState) :
    runSeconds (runs ++ runs') state = runSeconds runs state + runSeconds runs' state := by
  simp [runSeconds]

theorem secondsOf_cons (seg : RawSegment) (raw : List RawSegment) (state : SegmentState) :
    secondsOf (seg :: raw) state =
      (if seg.state = state then seg.stop - seg.start else 0) + secondsOf raw state := by
  by_cases h : seg.state = state <;> simp [secondsOf, h]

/-- A raw segment adds its length to the runs of its state. -/
theorem runSeconds_mergeRun (h : Merged label breaks runs a x) (hstart : seg.start = x)
    (state : SegmentState) :
    runSeconds (LinearTimeline.mergeRun breaks runs seg) state = runSeconds runs state +
      if seg.state = state then seg.stop - seg.start else 0 := by
  have hone : ∀ run : Run, runSeconds [run] state =
      if run.state = state then run.stop - run.start else 0 := by
    intro run
    by_cases h : run.state = state <;> simp [runSeconds, h]
  rw [LinearTimeline.mergeRun]
  cases hlast : runs.getLast? with
  | none =>
    obtain rfl := List.getLast?_eq_none_iff.mp hlast
    simp only [hone, Run.ofRaw]
    simp [runSeconds]
  | some prev =>
    obtain ⟨init, rfl⟩ := List.getLast?_eq_some_iff.mp hlast
    simp only
    split
    · rename_i hcont
      obtain ⟨_, _, hstop⟩ := tiles_concat.mp (by simpa using h.tiles)
      obtain hstop : prev.stop = seg.start := hstop.trans hstart.symm
      rw [List.dropLast_concat, runSeconds_append, runSeconds_append, hone, hone, ← hcont.1,
        add_assoc]
      congr 1
      by_cases hst : prev.state = state
      · simp only [Run.extend, hst, if_true]
        rw [hstop]
        ring
      · simp [Run.extend, hst]
    · rw [runSeconds_append, hone]
      rfl

theorem runSeconds_foldl {raw : List RawSegment} {b : ℚ} (h : Merged label breaks runs a x)
    (ht : Tiles (raw.map RawSegment.span) x b) (hu : ∀ seg ∈ raw, seg.Uniform label breaks)
    (state : SegmentState) :
    runSeconds (raw.foldl (LinearTimeline.mergeRun breaks) runs) state =
      runSeconds runs state + secondsOf raw state := by
  induction raw generalizing runs x with
  | nil => simp [secondsOf]
  | cons seg raw ih =>
    obtain ⟨hstart, hlt, ht⟩ := ht
    have hmerged := h.mergeRun (hu seg List.mem_cons_self) hstart hlt
    rw [List.foldl_cons, ih hmerged ht fun s hs => hu s (List.mem_cons_of_mem seg hs),
      runSeconds_mergeRun h hstart, secondsOf_cons, add_assoc]

end Merge

section Sweep

variable {intervals : List LinearInterval} {windowStart windowEnd now : ℚ} {breaks : List ℚ}

def starts (intervals : List LinearInterval) (windowStart windowEnd now : ℚ) : Set ℚ :=
  {a | ∃ i ∈ intervals, ∃ s, clamp windowStart windowEnd now i = some s ∧ s.1 = a}

def stops (intervals : List LinearInterval) (windowStart windowEnd now : ℚ) : Set ℚ :=
  {b | ∃ i ∈ intervals, ∃ s, clamp windowStart windowEnd now i = some s ∧ s.2 = b}

/-- The hard breaks of the window lie in the span of the intervals. -/
def BreaksInSpan (intervals : List LinearInterval) (windowStart windowEnd now : ℚ)
    (breaks : List ℚ) : Prop :=
  ∀ b ∈ breaks, windowStart ≤ b → b ≤ windowEnd →
    (∀ a, IsLeast (starts intervals windowStart windowEnd now) a → a ≤ b) ∧
    (∀ a, IsGreatest (stops intervals windowStart windowEnd now) a → b ≤ a)

theorem clamp_bounds {i : LinearInterval} {s : ℚ × ℚ}
    (h : clamp windowStart windowEnd now i = some s) :
    windowStart ≤ s.1 ∧ s.1 < s.2 ∧ s.2 ≤ windowEnd := by
  simp only [clamp] at h
  split at h
  · cases h
  · rename_i hlt
    obtain rfl := Option.some.inj h
    exact ⟨le_max_right _ _, not_le.mp hlt, min_le_right _ _⟩

theorem mem_starts {a : ℚ} : a ∈ starts intervals windowStart windowEnd now ↔
    ∃ e ∈ entriesOf intervals windowStart windowEnd now, e.start = a := by
  constructor
  · rintro ⟨i, hi, s, hs, rfl⟩
    exact ⟨_, mem_entries.mpr ⟨(s.1, s.2, i), mem_clamped.mpr ⟨hi, hs⟩, rfl⟩, rfl⟩
  · rintro ⟨e, he, rfl⟩
    obtain ⟨c, hc, rfl⟩ := mem_entries.mp he
    obtain ⟨hi, hs⟩ := mem_clamped.mp hc
    exact ⟨c.2.2, hi, _, hs, rfl⟩

theorem mem_stops {b : ℚ} : b ∈ stops intervals windowStart windowEnd now ↔
    ∃ e ∈ entriesOf intervals windowStart windowEnd now, e.stop = b := by
  constructor
  · rintro ⟨i, hi, s, hs, rfl⟩
    exact ⟨_, mem_entries.mpr ⟨(s.1, s.2, i), mem_clamped.mpr ⟨hi, hs⟩, rfl⟩, rfl⟩
  · rintro ⟨e, he, rfl⟩
    obtain ⟨c, hc, rfl⟩ := mem_entries.mp he
    obtain ⟨hi, hs⟩ := mem_clamped.mp hc
    exact ⟨c.2.2, hi, _, hs, rfl⟩

theorem entry_bounds {e : Entry} (he : e ∈ entriesOf intervals windowStart windowEnd now) :
    windowStart ≤ e.start ∧ e.start < e.stop ∧ e.stop ≤ windowEnd := by
  obtain ⟨c, hc, rfl⟩ := mem_entries.mp he
  exact clamp_bounds (mem_clamped.mp hc).2

abbrev pointsOf (intervals : List LinearInterval) (windowStart windowEnd now : ℚ)
    (breaks : List ℚ) : List ℚ :=
  boundaries windowStart windowEnd (entriesOf intervals windowStart windowEnd now) breaks

def labelAt (intervals : List LinearInterval) (windowStart windowEnd now t : ℚ) : Key :=
  (choiceAt (entriesOf intervals windowStart windowEnd now) t).key

theorem sweep_eq (h : clamped windowStart windowEnd now intervals ≠ []) (breaks : List ℚ) :
    ∃ openIds, sweep intervals windowStart windowEnd now breaks =
      (segments (pointsOf intervals windowStart windowEnd now breaks)).map
        (rawSegment now openIds (entriesOf intervals windowStart windowEnd now)) := by
  refine ⟨((clamped windowStart windowEnd now intervals).filter fun c =>
    c.2.2.exitedAt = none).map fun c => c.2.2.recordId, ?_⟩
  simp only [sweep, if_neg h]
  congr 1
  refine List.filter_eq_self.mpr fun gap hgap => ?_
  simpa using segments_lt (boundaries_sorted _ _ _ _) hgap

theorem boundaries_in_window {p : ℚ}
    (hp : p ∈ pointsOf intervals windowStart windowEnd now breaks) :
    windowStart ≤ p ∧ p ≤ windowEnd := by
  rcases mem_boundaries.mp hp with ⟨e, he, rfl | rfl⟩ | ⟨_, h1, h2⟩
  · obtain ⟨h1, h2, h3⟩ := entry_bounds he
    exact ⟨h1, h2.le.trans h3⟩
  · obtain ⟨h1, h2, h3⟩ := entry_bounds he
    exact ⟨h1.trans h2.le, h3⟩
  · exact ⟨h1, h2⟩

theorem uniform_rawSegment {gap : ℚ × ℚ} (openIds : List String)
    (hgap : gap ∈ segments (pointsOf intervals windowStart windowEnd now breaks)) :
    (rawSegment now openIds (entriesOf intervals windowStart windowEnd now) gap).Uniform
      (labelAt intervals windowStart windowEnd now) breaks := by
  have hsorted := boundaries_sorted windowStart windowEnd
    (entriesOf intervals windowStart windowEnd now) breaks
  refine ⟨fun t ht => ?_, fun b hb hcut => ?_⟩
  · rw [labelAt, ← choiceOn_eq hgap ht]
    rfl
  · obtain ⟨h1, h2⟩ := mem_of_mem_segments hgap
    have hbw : windowStart ≤ b ∧ b ≤ windowEnd :=
      ⟨(boundaries_in_window h1).1.trans hcut.1.le, hcut.2.le.trans (boundaries_in_window h2).2⟩
    have hmem : b ∈ pointsOf intervals windowStart windowEnd now breaks :=
      mem_boundaries.mpr (.inr ⟨hb, hbw⟩)
    rcases le_or_le_of_mem hsorted hgap hmem with h | h
    · exact h.not_gt hcut.1
    · exact h.not_gt hcut.2

/-- The first and the last boundary point. -/
theorem exists_tiles_sweep (h : clamped windowStart windowEnd now intervals ≠ [])
    (breaks : List ℚ) : ∃ a b,
      IsLeast {p | p ∈ pointsOf intervals windowStart windowEnd now breaks} a ∧
      IsGreatest {p | p ∈ pointsOf intervals windowStart windowEnd now breaks} b ∧
      Tiles ((sweep intervals windowStart windowEnd now breaks).map RawSegment.span) a b := by
  have hsorted : (pointsOf intervals windowStart windowEnd now breaks).Pairwise (· < ·) :=
    boundaries_sorted _ _ _ _
  obtain ⟨openIds, hsweep⟩ := sweep_eq h breaks
  have hspans : (sweep intervals windowStart windowEnd now breaks).map RawSegment.span =
      segments (pointsOf intervals windowStart windowEnd now breaks) := by
    rw [hsweep, List.map_map]
    exact List.map_id _
  have hne : pointsOf intervals windowStart windowEnd now breaks ≠ [] := by
    obtain ⟨c, hc⟩ := List.exists_mem_of_ne_nil _ h
    exact List.ne_nil_of_mem (mem_boundaries.mpr (.inl ⟨_, mem_entries.mpr ⟨c, hc, rfl⟩, .inl rfl⟩))
  obtain ⟨p, ps, hps⟩ := List.exists_cons_of_ne_nil hne
  rw [hspans]
  rw [hps] at hsorted ⊢
  refine ⟨p, _, ⟨List.mem_cons_self, fun q hq => ?_⟩, ⟨List.getLast_mem _, fun q hq => ?_⟩,
    tiles_segments hsorted⟩
  · rcases List.mem_cons.mp hq with rfl | hq
    · exact le_rfl
    · exact (List.rel_of_pairwise_cons hsorted hq).le
  · exact le_getLast hsorted hq

theorem merged_runsOf {a b : ℚ}
    (h : clamped windowStart windowEnd now intervals ≠ [])
    (ht : Tiles ((sweep intervals windowStart windowEnd now breaks).map RawSegment.span) a b) :
    Merged (labelAt intervals windowStart windowEnd now) breaks
        (runsOf intervals windowStart windowEnd now breaks) a b ∧
      ∀ state, runSeconds (runsOf intervals windowStart windowEnd now breaks) state =
        secondsOf (sweep intervals windowStart windowEnd now breaks) state := by
  have hu : ∀ seg ∈ sweep intervals windowStart windowEnd now breaks,
      seg.Uniform (labelAt intervals windowStart windowEnd now) breaks := by
    obtain ⟨openIds, hsweep⟩ := sweep_eq h breaks
    rw [hsweep]
    intro seg hseg
    obtain ⟨gap, hgap, rfl⟩ := List.mem_map.mp hseg
    exact uniform_rawSegment openIds hgap
  have hnil := merged_nil (labelAt intervals windowStart windowEnd now) breaks a
  refine ⟨hnil.foldl ht hu, fun state => ?_⟩
  rw [runsOf, runSeconds_foldl hnil ht hu state]
  simp [runSeconds]

end Sweep

end BeyoManager.Analytics.LinearTimeline
