import BeyoManager.Analytics.LinearPartition

/-! # Windows that start late

A pause is capped by the first work that starts after it, but both starts are moved to the
window's start first. Work that the worker resumed at or before the start of the window no
longer caps a pause, so two windows agree on an instant only when that does not matter.
-/

namespace BeyoManager.Analytics.LinearTimeline

open Sorting Sweep Set

/-- The effective state of an instant, with the reason and the transition of a pause. -/
structure Effective where
  state : SegmentState
  reason : Option String
  transitionReason : Option String
  deriving DecidableEq, Repr

def Choice.effective (choice : Choice) : Effective :=
  ⟨choice.state, choice.reason, choice.transitionReason⟩

def RawSegment.effective (seg : RawSegment) : Effective :=
  ⟨seg.state, seg.reason, seg.transitionReason⟩

/-- What the sweep gives an instant; outside of all its segments nothing runs. -/
def segmentAt (intervals : List LinearInterval) (windowStart windowEnd now t : ℚ) : Effective :=
  (((sweep intervals windowStart windowEnd now []).find? fun seg =>
    decide (seg.start ≤ t ∧ t < seg.stop)).map RawSegment.effective).getD ⟨.idle, none, none⟩

/-- The pauses that run at an instant and whose cap in the window, `active_end`, is later. -/
def activePauses (intervals : List LinearInterval) (windowStart windowEnd now t : ℚ) :
    List LinearInterval :=
  ((entriesOf intervals windowStart windowEnd now).filter fun e =>
    e.interval.state = .paused ∧ e.start ≤ t ∧ t < e.activeEnd).map Entry.interval

/-- An interval runs at an instant. -/
def LinearInterval.RunsAt (now t : ℚ) (i : LinearInterval) : Prop :=
  i.enteredAt ≤ t ∧ t < i.exitedAt.getD now

/-- The order among pauses: the greatest priority, then the first entry, then the record id. -/
def ownerKey (i : LinearInterval) : ℤ ×ₗ ℚ ×ₗ String :=
  toLex (-i.priority, toLex (i.enteredAt, i.recordId))

section Instants

variable (intervals : List LinearInterval) (now t : ℚ)

/-- The worker works at an instant. -/
def WorksAt : Prop := ∃ i ∈ intervals, i.state = .working ∧ i.RunsAt now t

/-- Work starts after the start of a pause and after a moment, and by an instant. -/
def ResumedSince (moment : ℚ) (pause : LinearInterval) : Prop :=
  ∃ w ∈ intervals, w.state = .working ∧ w.enteredAt < w.exitedAt.getD now ∧
    max pause.enteredAt moment < w.enteredAt ∧ w.enteredAt ≤ t

instance (i : LinearInterval) : Decidable (i.RunsAt now t) :=
  inferInstanceAs (Decidable (_ ∧ _))

instance (moment : ℚ) (pause : LinearInterval) :
    Decidable (ResumedSince intervals now t moment pause) :=
  inferInstanceAs (Decidable (∃ w ∈ intervals, _))

/-- The pauses that run at an instant and that the worker has not resumed from since a moment. -/
def pausesSince (moment : ℚ) : List LinearInterval :=
  intervals.filter fun i =>
    i.state = .paused ∧ i.RunsAt now t ∧ ¬ ResumedSince intervals now t moment i

/-- The first of these pauses by priority, entry and record id, as the sweep explains it. -/
def explainedSince (moment : ℚ) : Option (Option String × Option String) :=
  (minBy ownerKey (pausesSince intervals now t moment)).map fun owner =>
    (pauseReason owner, owner.transitionReason)

def EndedAt : Prop := ∃ i ∈ intervals, i.state = .endedShift ∧ i.RunsAt now t

end Instants

variable {intervals : List LinearInterval} {windowStart windowEnd now t : ℚ}

theorem map_filter_filterMap {α β : Type*} {f : α → Option β} {g : β → α} {q : β → Bool}
    {l : List α} (hg : ∀ a b, f a = some b → g b = a) :
    ((l.filterMap f).filter q).map g = l.filter fun a => (f a).any q := by
  induction l with
  | nil => rfl
  | cons a l ih =>
    cases hf : f a with
    | none => simp [hf, ih]
    | some b => cases hq : q b <;> simp [hf, hq, ih, hg a b hf]

theorem map_minBy_pauseKey (es : List Entry) :
    (minBy pauseKey es).map Entry.interval = minBy ownerKey (es.map Entry.interval) := by
  have hsort : (sortBy pauseKey es).map Entry.interval =
      sortBy ownerKey (es.map Entry.interval) := map_sortBy _ _ fun _ _ _ _ => Iff.rfl
  rw [minBy, minBy, ← hsort, List.head?_map]

section Window

theorem activeEnd_le_stop (starts : List ℚ) (c : ℚ × ℚ × LinearInterval) :
    (entryOf starts c).activeEnd ≤ (entryOf starts c).stop := by
  unfold entryOf
  dsimp only
  split_ifs
  · cases firstAfter starts c.1 with
    | none => exact le_rfl
    | some resume => exact min_le_left _ _
  · exact le_rfl

theorem segmentAt_eq : segmentAt intervals windowStart windowEnd now t =
    (choiceAt (entriesOf intervals windowStart windowEnd now) t).effective := by
  unfold segmentAt
  cases hfind : (sweep intervals windowStart windowEnd now []).find? fun seg =>
      decide (seg.start ≤ t ∧ t < seg.stop) with
  | some seg =>
    have hin : seg.start ≤ t ∧ t < seg.stop := by simpa using List.find?_some hfind
    have hmem := List.mem_of_find?_eq_some hfind
    have hne : clamped windowStart windowEnd now intervals ≠ [] := by
      intro hnil
      simp [sweep, hnil] at hmem
    obtain ⟨openIds, hsweep⟩ := sweep_eq hne []
    rw [hsweep] at hmem
    obtain ⟨gap, hgap, rfl⟩ := List.mem_map.mp hmem
    exact congrArg Choice.effective (choiceOn_eq hgap hin)
  | none =>
    have hfree : ∀ e ∈ entriesOf intervals windowStart windowEnd now,
        ¬ (e.start ≤ t ∧ t < e.stop) := by
      rintro e he ⟨hstart, hstop⟩
      have hne : clamped windowStart windowEnd now intervals ≠ [] := by
        intro hnil
        simp [entriesOf, entries, hnil] at he
      obtain ⟨openIds, hsweep⟩ := sweep_eq hne []
      obtain ⟨gap, hgap, hlow, hhigh⟩ := exists_segment (boundaries_sorted windowStart windowEnd
        (entriesOf intervals windowStart windowEnd now) [])
        (mem_boundaries.mpr (.inl ⟨e, he, .inl rfl⟩))
        (mem_boundaries.mpr (.inl ⟨e, he, .inr rfl⟩)) hstart hstop
      rw [hsweep] at hfind
      have := List.find?_eq_none.mp hfind _ (List.mem_map_of_mem hgap)
      exact this (by simpa [rawSegment] using ⟨hlow, hhigh⟩)
    have hnil : ∀ (state : IntervalState) (stop : Entry → ℚ),
        (∀ e ∈ entriesOf intervals windowStart windowEnd now, stop e ≤ e.stop) →
        (entriesOf intervals windowStart windowEnd now).filter
          (fun e => e.interval.state = state ∧ e.start ≤ t ∧ t < stop e) = [] := by
      intro state stop hle
      refine List.filter_eq_nil_iff.mpr fun e he => ?_
      simp only [decide_eq_true_eq]
      rintro ⟨-, hstart, hstop⟩
      exact hfree e he ⟨hstart, hstop.trans_le (hle e he)⟩
    have hactive : ∀ e ∈ entriesOf intervals windowStart windowEnd now, e.activeEnd ≤ e.stop := by
      intro e he
      obtain ⟨c, -, rfl⟩ := mem_entries.mp he
      exact activeEnd_le_stop _ c
    rw [choiceAt, hnil _ _ fun _ _ => le_rfl, hnil _ _ hactive, hnil _ _ fun _ _ => le_rfl]
    rfl

theorem clamp_eq_some_iff {i : LinearInterval} {s : ℚ × ℚ} :
    clamp windowStart windowEnd now i = some s ↔
      max i.enteredAt windowStart < min (i.exitedAt.getD now) windowEnd ∧
        (max i.enteredAt windowStart, min (i.exitedAt.getD now) windowEnd) = s := by
  simp only [clamp]
  split_ifs with hempty
  · exact iff_of_false (by simp) fun h => absurd h.1 (not_lt.mpr hempty)
  · simp only [Option.some.injEq, not_le.mp hempty, true_and]

variable (hwindow : windowStart ≤ t ∧ t < windowEnd)

include hwindow

theorem coversAt_iff {i : LinearInterval} :
    CoversAt windowStart windowEnd now i t ↔ i.RunsAt now t := by
  unfold CoversAt LinearInterval.RunsAt
  simp only [clamp_eq_some_iff]
  constructor
  · rintro ⟨s, ⟨-, rfl⟩, h1, h2⟩
    exact ⟨(le_max_left _ _).trans h1, h2.trans_le (min_le_left _ _)⟩
  · rintro ⟨h1, h2⟩
    have hlow : max i.enteredAt windowStart ≤ t := max_le h1 hwindow.1
    have hhigh : t < min (i.exitedAt.getD now) windowEnd := lt_min h2 hwindow.2
    exact ⟨_, ⟨hlow.trans_lt hhigh, rfl⟩, hlow, hhigh⟩

/-- Inside a window a pause is active until work starts after it and after the window. -/
theorem activeAt_iff {i : LinearInterval} :
    ActiveAt intervals windowStart windowEnd now i t ↔
      i.RunsAt now t ∧ ¬ ResumedSince intervals now t windowStart i := by
  constructor
  · rintro ⟨s, hs, h1, h2, hresume⟩
    refine ⟨(coversAt_iff hwindow).mp ⟨s, hs, h1, h2⟩, ?_⟩
    rintro ⟨w, hw, hstate, hpositive, hafter, hbefore⟩
    obtain ⟨-, rfl⟩ := clamp_eq_some_iff.mp hs
    have hstart : max w.enteredAt windowStart = w.enteredAt :=
      max_eq_left ((le_max_right _ _).trans hafter.le)
    have hclamp : clamp windowStart windowEnd now w =
        some (w.enteredAt, min (w.exitedAt.getD now) windowEnd) := by
      rw [clamp_eq_some_iff, hstart]
      exact ⟨lt_min hpositive (hbefore.trans_lt hwindow.2), rfl⟩
    exact absurd (hresume w hw hstate _ hclamp hafter) (not_lt.mpr hbefore)
  · rintro ⟨hruns, hnot⟩
    obtain ⟨s, hs, h1, h2⟩ := (coversAt_iff hwindow).mpr hruns
    refine ⟨s, hs, h1, h2, fun w hw hstate r hr hafter => ?_⟩
    by_contra hbefore
    obtain ⟨-, rfl⟩ := clamp_eq_some_iff.mp hs
    obtain ⟨hpositive, rfl⟩ := clamp_eq_some_iff.mp hr
    dsimp only at hafter hbefore
    have hlater : windowStart < w.enteredAt := by
      by_contra hle
      rw [max_eq_right (not_lt.mp hle)] at hafter
      exact absurd hafter (not_lt.mpr (le_max_right _ _))
    rw [max_eq_left hlater.le] at hafter hbefore hpositive
    exact hnot ⟨w, hw, hstate, hpositive.trans_le (min_le_left _ _), hafter, not_lt.mp hbefore⟩

theorem filter_covering_ne_nil {state : IntervalState} :
    ((entriesOf intervals windowStart windowEnd now).filter fun e =>
      e.interval.state = state ∧ e.start ≤ t ∧ t < e.stop) ≠ [] ↔
      ∃ i ∈ intervals, i.state = state ∧ i.RunsAt now t := by
  have hcovering : _ ↔ ∃ i ∈ intervals, i.state = state ∧
      CoversAt windowStart windowEnd now i t := exists_covering
  simp only [coversAt_iff hwindow] at hcovering
  rw [← hcovering, ne_eq, List.filter_eq_nil_iff]
  simp

theorem activePauses_eq :
    activePauses intervals windowStart windowEnd now t =
      pausesSince intervals now t windowStart := by
  have hmap : activePauses intervals windowStart windowEnd now t =
      ((clamped windowStart windowEnd now intervals).filter fun c =>
        let e := entryOf (workingStarts (clamped windowStart windowEnd now intervals)) c
        decide (e.interval.state = .paused ∧ e.start ≤ t ∧ t < e.activeEnd)).map
          fun c => c.2.2 := by
    rw [activePauses, entriesOf, entries, List.filter_map, List.map_map]
    rfl
  rw [hmap, clamped, map_filter_filterMap]
  · refine List.filter_congr fun i hi => ?_
    rw [Bool.eq_iff_iff, decide_eq_true_iff, ← activeAt_iff hwindow]
    cases hclamp : clamp windowStart windowEnd now i with
    | none =>
      refine iff_of_false (by simp) ?_
      rintro ⟨-, s, hs, -⟩
      rw [hclamp] at hs
      cases hs
    | some s =>
      simp only [Option.map_some, Option.any_some, decide_eq_true_eq]
      constructor
      · rintro ⟨hstate, hstart, hactive⟩
        obtain ⟨hstop, hresume⟩ := (lt_activeEnd _ hstate).mp hactive
        exact ⟨hstate, s, hclamp, hstart, hstop, fun w hw hws r hr hafter =>
          hresume (r.1, r.2, w) (mem_clamped.mpr ⟨hw, hr⟩) hws hafter⟩
      · rintro ⟨hstate, s', hs', hstart, hstop, hresume⟩
        obtain rfl : s = s' := Option.some.inj (hclamp.symm.trans hs')
        refine ⟨hstate, hstart, (lt_activeEnd _ hstate).mpr ⟨hstop, fun w hw hws hafter => ?_⟩⟩
        obtain ⟨hwi, hwr⟩ := mem_clamped.mp hw
        exact hresume w.2.2 hwi hws _ hwr hafter
  · intro i c hc
    obtain ⟨s, -, rfl⟩ := Option.map_eq_some_iff.mp hc
    rfl

open Classical in
/-- The effective state of an instant inside a window. -/
theorem segmentAt_window : segmentAt intervals windowStart windowEnd now t =
    if WorksAt intervals now t then ⟨.working, none, none⟩
    else match explainedSince intervals now t windowStart with
      | some (reason, transition) => ⟨.paused, reason, transition⟩
      | none => if EndedAt intervals now t then ⟨.endedShift, none, none⟩
        else ⟨.idle, none, none⟩ := by
  have howner : (minBy pauseKey ((entriesOf intervals windowStart windowEnd now).filter fun e =>
      e.interval.state = .paused ∧ e.start ≤ t ∧ t < e.activeEnd)).map Entry.interval =
      minBy ownerKey (pausesSince intervals now t windowStart) := by
    rw [map_minBy_pauseKey, ← activePauses_eq hwindow, activePauses]
  have hworks : _ ↔ WorksAt intervals now t := filter_covering_ne_nil hwindow
  have hended : _ ↔ EndedAt intervals now t := filter_covering_ne_nil hwindow
  rw [segmentAt_eq, choiceAt, choose, explainedSince, ← howner]
  by_cases hw : WorksAt intervals now t
  · rw [if_pos (hworks.mpr hw), if_pos hw]
    rfl
  · rw [if_neg (mt hworks.mp hw), if_neg hw]
    cases minBy pauseKey ((entriesOf intervals windowStart windowEnd now).filter fun e =>
      e.interval.state = .paused ∧ e.start ≤ t ∧ t < e.activeEnd) with
    | some owner => rfl
    | none =>
      by_cases he : EndedAt intervals now t
      · exact (congrArg Choice.effective (if_pos (hended.mpr he))).trans (if_pos he).symm
      · exact (congrArg Choice.effective (if_neg (mt hended.mp he))).trans (if_neg he).symm

end Window

section TwoWindows

theorem ResumedSince.anti {moment later : ℚ} {pause : LinearInterval} (hle : moment ≤ later)
    (h : ResumedSince intervals now t later pause) :
    ResumedSince intervals now t moment pause := by
  obtain ⟨w, hw, hworking, hpositive, hafter, hbefore⟩ := h
  exact ⟨w, hw, hworking, hpositive, (max_le_max le_rfl hle).trans_lt hafter, hbefore⟩

theorem pausesSince_eq_iff {moment later : ℚ} (hle : moment ≤ later) :
    pausesSince intervals now t moment = pausesSince intervals now t later ↔
      ∀ i ∈ intervals, i.state = .paused → i.RunsAt now t →
        ResumedSince intervals now t moment i → ResumedSince intervals now t later i := by
  constructor
  · intro heq i hi hstate hruns hresumed
    by_contra hnot
    have hmem : i ∈ pausesSince intervals now t later :=
      List.mem_filter.mpr ⟨hi, by simpa using ⟨hstate, hruns, hnot⟩⟩
    rw [← heq] at hmem
    have hkept := (List.mem_filter.mp hmem).2
    simp only [decide_eq_true_eq] at hkept
    exact hkept.2.2 hresumed
  · intro h
    refine List.filter_congr fun i hi => decide_eq_decide.mpr ?_
    refine and_congr_right fun hstate => and_congr_right fun hruns => not_congr ?_
    exact ⟨h i hi hstate hruns, ResumedSince.anti hle⟩

/-- Off work, two windows give an instant one effective state when one pause explains both. -/
theorem segmentAt_eq_iff_explainedSince {windowStart' windowEnd' : ℚ}
    (hwindow : windowStart ≤ t ∧ t < windowEnd) (hwindow' : windowStart' ≤ t ∧ t < windowEnd') :
    segmentAt intervals windowStart windowEnd now t =
        segmentAt intervals windowStart' windowEnd' now t ↔
      WorksAt intervals now t ∨ explainedSince intervals now t windowStart =
        explainedSince intervals now t windowStart' := by
  rw [segmentAt_window hwindow, segmentAt_window hwindow']
  by_cases hworks : WorksAt intervals now t
  · rw [if_pos hworks, if_pos hworks]
    exact iff_of_true rfl (.inl hworks)
  · rw [if_neg hworks, if_neg hworks, or_iff_right hworks]
    cases explainedSince intervals now t windowStart with
    | none =>
      cases explainedSince intervals now t windowStart' with
      | none => simp
      | some explanation =>
        refine iff_of_false (fun heq => ?_) (by simp)
        have hstate := congrArg Effective.state heq
        split_ifs at hstate
    | some explanation =>
      cases explainedSince intervals now t windowStart' with
      | none =>
        refine iff_of_false (fun heq => ?_) (by simp)
        have hstate := congrArg Effective.state heq
        split_ifs at hstate
      | some explanation' => simp [Prod.ext_iff]

/-- Two windows give an instant one effective state exactly when the worker works there, or the
pauses not resumed from since either start explain it alike. The caps agree with it exactly when
no pause that runs there was resumed from between the two starts only. -/
theorem segmentAt_eq_segmentAt_iff (intervals : List LinearInterval) (now t : ℚ)
    {windowStart windowEnd windowStart' windowEnd' : ℚ}
    (hwindow : windowStart ≤ t ∧ t < windowEnd) (hwindow' : windowStart' ≤ t ∧ t < windowEnd') :
    (segmentAt intervals windowStart windowEnd now t =
        segmentAt intervals windowStart' windowEnd' now t ↔
      WorksAt intervals now t ∨
        explainedSince intervals now t (min windowStart windowStart') =
          explainedSince intervals now t (max windowStart windowStart')) ∧
    (segmentAt intervals windowStart windowEnd now t =
          segmentAt intervals windowStart' windowEnd' now t ∧
        activePauses intervals windowStart windowEnd now t =
          activePauses intervals windowStart' windowEnd' now t ↔
      ∀ i ∈ intervals, i.state = .paused → i.RunsAt now t →
        ResumedSince intervals now t (min windowStart windowStart') i →
          ResumedSince intervals now t (max windowStart windowStart') i) := by
  have hstate := @segmentAt_eq_iff_explainedSince intervals windowStart windowEnd now t
    windowStart' windowEnd' hwindow hwindow'
  have hcaps : activePauses intervals windowStart windowEnd now t =
      activePauses intervals windowStart' windowEnd' now t ↔
      pausesSince intervals now t (min windowStart windowStart') =
        pausesSince intervals now t (max windowStart windowStart') := by
    rw [activePauses_eq hwindow, activePauses_eq hwindow']
    rcases le_total windowStart windowStart' with hle | hle
    · rw [min_eq_left hle, max_eq_right hle]
    · rw [min_eq_right hle, max_eq_left hle, eq_comm]
  constructor
  · rw [hstate]
    rcases le_total windowStart windowStart' with hle | hle
    · rw [min_eq_left hle, max_eq_right hle]
    · rw [min_eq_right hle, max_eq_left hle, eq_comm]
  · rw [← pausesSince_eq_iff min_le_max, ← hcaps, and_iff_right_iff_imp]
    intro hsame
    rw [activePauses_eq hwindow, activePauses_eq hwindow'] at hsame
    exact hstate.mpr (.inr (by rw [explainedSince, explainedSince, hsame]))

/-- An instant of a pause that starts inside both windows. -/
theorem segmentAt_eq_segmentAt_fresh :
    let intervals : List LinearInterval :=
      [⟨"p", .paused, some "lunch", 30, none, "s", 0, none⟩,
       ⟨"w", .working, none, 10, some 20, "s", 0, none⟩]
    segmentAt intervals 0 100 100 50 = segmentAt intervals 15 100 100 50 ∧
      activePauses intervals 0 100 100 50 = activePauses intervals 15 100 100 50 := by
  intro intervals
  refine (segmentAt_eq_segmentAt_iff intervals 100 50 (by norm_num) (by norm_num)).2.mpr ?_
  rintro i hi hpaused - ⟨w, hw, hworking, -, hafter, -⟩
  simp only [intervals, List.mem_cons, List.not_mem_nil, or_false] at hi hw
  rcases hi with rfl | rfl
  · rcases hw with rfl | rfl
    · cases hworking
    · norm_num at hafter
  · cases hpaused

/-- A pause that the worker resumed from before the later window counts again there. -/
theorem stale_pause_counts_again :
    let intervals : List LinearInterval :=
      [⟨"p", .paused, some "lunch", 0, none, "s", 0, none⟩,
       ⟨"w", .working, none, 10, some 20, "s", 0, none⟩]
    segmentAt intervals 0 100 100 50 = ⟨.idle, none, none⟩ ∧
      segmentAt intervals 15 100 100 50 = ⟨.paused, some "lunch", none⟩ := by
  decide +kernel

/-- It also takes the instant over from a pause that is still on. -/
example :
    let intervals : List LinearInterval :=
      [⟨"p", .paused, some "lunch", 0, none, "s", 0, none⟩,
       ⟨"w", .working, none, 10, some 20, "s", 0, none⟩,
       ⟨"q", .paused, some "coffee", 30, none, "s", 0, none⟩]
    segmentAt intervals 0 100 100 50 = ⟨.paused, some "coffee", none⟩ ∧
      segmentAt intervals 15 100 100 50 = ⟨.paused, some "lunch", none⟩ := by
  decide +kernel

end TwoWindows

end BeyoManager.Analytics.LinearTimeline
