import BeyoManager.Library.Grouping
import BeyoManager.Library.Segments
import BeyoManager.Library.Tally
import Mathlib.Algebra.Order.Ring.Unbundled.Rat
import Mathlib.Algebra.Field.Rat
import Mathlib.Data.List.Dedup
import Mathlib.Data.List.Sort
import Mathlib.Tactic.Linarith

/-! # Concurrency-averaged time

A worker's batchable steps that are open in one state share each moment of real
time; steps outside batch working earn their full time. Instants and seconds are
exact rationals.
-/

namespace BeyoManager.Analytics

open Grouping Sweep Tally

/-- One state interval of a worker, as needed by the sweep. -/
structure TimeInterval where
  recordId : String
  stepId : String
  state : String
  enteredAt : ℚ
  /-- `none` while the interval is open. -/
  exitedAt : Option ℚ
  markedWrong : Bool
  isBatchable : Bool
  deriving DecidableEq, Repr

namespace TimeInterval

variable (now : ℚ) (i : TimeInterval)

/-- `interval.exited_at or now`. -/
def endAt : ℚ := i.exitedAt.getD now

def bounds : ℚ × ℚ := (i.enteredAt, i.endAt now)

/-- The length of the interval; it is empty when it ends before it begins. -/
def duration : ℚ := max 0 (i.endAt now - i.enteredAt)

def accrues : Bool := decide (0 < i.endAt now - i.enteredAt)

end TimeInterval

abbrev Seconds := Totals String ℚ

def batchable (stateIntervals : List TimeInterval) (now : ℚ) : List (String × ℚ × ℚ) :=
  (stateIntervals.filter fun i => i.accrues now && i.isBatchable).map fun i =>
    (i.recordId, i.bounds now)

def points (batch : List (String × ℚ × ℚ)) : List ℚ :=
  (batch.flatMap fun b => [b.2.1, b.2.2]).dedup.insertionSort (· ≤ ·)

def openIds (batch : List (String × ℚ × ℚ)) (segment : ℚ × ℚ) : List String :=
  (batch.filter fun b => b.2.1 ≤ segment.1 ∧ segment.2 ≤ b.2.2).map Prod.fst

/-- Divide one segment among the records that are open throughout it. -/
def sweepSegment (batch : List (String × ℚ × ℚ)) (result : Seconds) (segment : ℚ × ℚ) : Seconds :=
  if segment.2 - segment.1 ≤ 0 then result
  else if (openIds batch segment).length = 0 then result
  else (openIds batch segment).foldl (fun result recordId =>
    addTo result recordId ((segment.2 - segment.1) / (openIds batch segment).length)) result

/-- The full time of the intervals of one state that are outside batch working. -/
def addUndivided (stateIntervals : List TimeInterval) (now : ℚ) (result : Seconds) : Seconds :=
  stateIntervals.foldl (fun result i =>
    if ¬ i.accrues now then result
    else if i.isBatchable then result
    else addTo result i.recordId (i.endAt now - i.enteredAt)) result

def sweepState (now : ℚ) (result : Seconds) (stateIntervals : List TimeInterval) : Seconds :=
  let result := addUndivided stateIntervals now result
  let batch := batchable stateIntervals now
  if batch = [] then result
  else (segments (points batch)).foldl (sweepSegment batch) result

def byState (intervals : List TimeInterval) : List (List TimeInterval) :=
  (keys TimeInterval.state intervals).map (group TimeInterval.state intervals)

/-- `_sweep`. -/
def sweep (intervals : List TimeInterval) (now : ℚ) : Seconds :=
  (byState intervals).foldl (sweepState now) ∅

/-- The averaged seconds of each record of one worker; flagged intervals are dropped. -/
def averagedSecondsByRecord (intervals : List TimeInterval) (now : ℚ) : Seconds :=
  sweep (intervals.filter fun i => !i.markedWrong) now

/-- The averaged seconds of the flagged records of one worker, among themselves. -/
def wastedSecondsByRecord (intervals : List TimeInterval) (now : ℚ) : Seconds :=
  sweep (intervals.filter TimeInterval.markedWrong) now

section Credits

variable (intervals : List TimeInterval) (now : ℚ)

def segmentCredits (batch : List (String × ℚ × ℚ)) (segment : ℚ × ℚ) : List (String × ℚ) :=
  (openIds batch segment).map fun recordId =>
    (recordId, (segment.2 - segment.1) / (openIds batch segment).length)

def stateCredits (stateIntervals : List TimeInterval) : List (String × ℚ) :=
  ((stateIntervals.filter fun i => i.accrues now && !i.isBatchable).map fun i =>
    (i.recordId, i.endAt now - i.enteredAt)) ++
  (segments (points (batchable stateIntervals now))).flatMap
    (segmentCredits (batchable stateIntervals now))

theorem points_sorted (batch : List (String × ℚ × ℚ)) :
    (points batch).Pairwise (· < ·) := by
  have hle : (points batch).Pairwise (· ≤ ·) := List.pairwise_insertionSort _ _
  have hne : (points batch).Nodup :=
    (List.perm_insertionSort _ _).nodup_iff.mpr (List.nodup_dedup _)
  exact (hle.and hne).imp fun h => lt_of_le_of_ne h.1 h.2

theorem mem_points {batch : List (String × ℚ × ℚ)} {b : String × ℚ × ℚ} (h : b ∈ batch) :
    b.2.1 ∈ points batch ∧ b.2.2 ∈ points batch := by
  simp only [points, List.mem_insertionSort, List.mem_dedup, List.mem_flatMap]
  exact ⟨⟨b, h, by simp⟩, ⟨b, h, by simp⟩⟩

theorem sweepSegment_eq (batch : List (String × ℚ × ℚ)) (result : Seconds) {segment : ℚ × ℚ}
    (h : segment ∈ segments (points batch)) :
    sweepSegment batch result segment = addAll result (segmentCredits batch segment) := by
  have hpos : ¬ segment.2 - segment.1 ≤ 0 := by
    have := segments_lt (points_sorted batch) h
    linarith
  rw [sweepSegment, if_neg hpos, addAll, segmentCredits, List.foldl_map]
  split
  · rename_i h0
    rw [List.length_eq_zero_iff.mp h0, List.foldl_nil]
  · rfl

theorem addUndivided_eq (stateIntervals : List TimeInterval) (result : Seconds) :
    addUndivided stateIntervals now result =
      addAll result ((stateIntervals.filter fun i => i.accrues now && !i.isBatchable).map fun i =>
        (i.recordId, i.endAt now - i.enteredAt)) := by
  induction stateIntervals generalizing result with
  | nil => rfl
  | cons i rest ih =>
    rw [addUndivided, List.foldl_cons, ← addUndivided, ih, List.filter_cons]
    cases hp : i.accrues now <;> cases hb : i.isBatchable <;> simp [addAll]

theorem sweepState_eq (result : Seconds) (stateIntervals : List TimeInterval) :
    sweepState now result stateIntervals = addAll result (stateCredits now stateIntervals) := by
  have hseg : ∀ (l : List (ℚ × ℚ)) (batch : List (String × ℚ × ℚ)) (d : Seconds),
      l ⊆ segments (points batch) →
        l.foldl (sweepSegment batch) d = addAll d (l.flatMap (segmentCredits batch)) := by
    intro l batch d hl
    induction l generalizing d with
    | nil => rfl
    | cons s l ih =>
      rw [List.foldl_cons, sweepSegment_eq batch d (hl List.mem_cons_self), List.flatMap_cons,
        addAll_append]
      exact ih _ fun t ht => hl (List.mem_cons_of_mem s ht)
  rw [sweepState, stateCredits, addAll_append, addUndivided_eq]
  split
  · rename_i hb
    rw [hb]; rfl
  · exact hseg _ _ _ (List.Subset.refl _)

theorem sweep_eq : sweep intervals now =
    addAll ∅ ((byState intervals).flatMap (stateCredits now)) := by
  have h : ∀ (l : List (List TimeInterval)) (d : Seconds),
      l.foldl (sweepState now) d = addAll d (l.flatMap (stateCredits now)) := by
    intro l d
    induction l generalizing d with
    | nil => rfl
    | cons s l ih => rw [List.foldl_cons, sweepState_eq, ih, List.flatMap_cons, addAll_append]
  exact h _ _

end Credits

end BeyoManager.Analytics
