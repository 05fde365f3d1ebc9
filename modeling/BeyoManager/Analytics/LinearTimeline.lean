import BeyoManager.Library.Decimal
import BeyoManager.Library.Dict
import BeyoManager.Library.Sorting
import BeyoManager.Library.StepSum
import Mathlib.Data.Finset.Sort
import Mathlib.Data.Prod.Lex
import Mathlib.Data.String.Basic

/-! # The linear timeline of a worker

At every instant a worker is collapsed to one effective state: working wins over a pause,
an active pause over an ended shift, and what nothing covers is idle. One sweep serves the
totals and the drawable segments. Instants are exact seconds.
-/

namespace BeyoManager.Analytics.LinearTimeline

open Sorting Sweep

inductive IntervalState
  | working | paused | endedShift
  deriving DecidableEq, Repr

inductive SegmentState
  | working | paused | endedShift | idle
  deriving DecidableEq, Repr

def unspecifiedReason : String := "unspecified"

/-- `LinearInterval`. -/
structure LinearInterval where
  recordId : String
  state : IntervalState
  reason : Option String
  enteredAt : ℚ
  /-- `none` while the interval is open. -/
  exitedAt : Option ℚ
  stepId : String
  priority : ℤ
  transitionReason : Option String
  deriving DecidableEq, Repr

/-- `LinearTimeline`. -/
structure Timeline where
  workingSeconds : ℤ
  pausedSeconds : ℤ
  endedShiftSeconds : ℤ
  idleSeconds : ℤ
  pauseByReason : List (String × ℤ)
  deriving DecidableEq, Repr

/-- `LinearSegmentRecord`. -/
structure LinearSegmentRecord where
  recordId : String
  stepId : String
  state : IntervalState
  reason : Option String
  enteredAt : ℚ
  exitedAt : Option ℚ
  isOpen : Bool
  deriving DecidableEq, Repr

/-- `LinearSegment`. -/
structure LinearSegment where
  start : ℚ
  stop : ℚ
  state : SegmentState
  reason : Option String
  recordIds : List String
  stepIds : List String
  records : List LinearSegmentRecord
  isOpen : Bool
  ownerRecordId : Option String
  transitionReason : Option String
  deriving DecidableEq, Repr

/-- An interval clamped to the window; a pause is active until the worker's next resume. -/
structure Entry where
  start : ℚ
  stop : ℚ
  activeEnd : ℚ
  interval : LinearInterval
  deriving DecidableEq, Repr

/-- What a raw segment takes from the entries that cover it. -/
structure Choice where
  state : SegmentState
  reason : Option String
  transitionReason : Option String
  ownerRecordId : Option String
  ownerPriority : ℤ
  chosen : List Entry
  deriving DecidableEq, Repr

/-- `_RawSegment`. -/
structure RawSegment where
  start : ℚ
  stop : ℚ
  state : SegmentState
  reason : Option String
  recordIds : Finset String
  stepIds : Finset String
  isOpen : Bool
  ownerRecordId : Option String
  ownerPriority : ℤ
  transitionReason : Option String
  deriving DecidableEq

section Clamp

variable (windowStart windowEnd now : ℚ)

/-- `_clamp`: open intervals end at `now`. -/
def clamp (interval : LinearInterval) : Option (ℚ × ℚ) :=
  let start := max interval.enteredAt windowStart
  let stop := min (interval.exitedAt.getD now) windowEnd
  if stop ≤ start then none else some (start, stop)

/-- The intervals that reach into the window, each with its clamped span. -/
def clamped (intervals : List LinearInterval) : List (ℚ × ℚ × LinearInterval) :=
  intervals.filterMap fun i => (clamp windowStart windowEnd now i).map fun s => (s.1, s.2, i)

end Clamp

/-- `_first_after`: the first point after a moment, or none. -/
def firstAfter (sortedPoints : List ℚ) (moment : ℚ) : Option ℚ :=
  sortedPoints.find? fun p => decide (moment < p)

def workingStarts (spans : List (ℚ × ℚ × LinearInterval)) : List ℚ :=
  ((spans.filter fun c => c.2.2.state = .working).map fun c => c.1).insertionSort (· ≤ ·)

def entryOf (starts : List ℚ) (c : ℚ × ℚ × LinearInterval) : Entry where
  start := c.1
  stop := c.2.1
  activeEnd :=
    if c.2.2.state = .paused then
      match firstAfter starts c.1 with
      | some resume => min c.2.1 resume
      | none => c.2.1
    else c.2.1
  interval := c.2.2

/-- The entries of the sweep. -/
def entries (spans : List (ℚ × ℚ × LinearInterval)) : List Entry :=
  spans.map (entryOf (workingStarts spans))

/-- The sorted boundary points: the ends of the entries, and the extra points in the window. -/
def boundaries (windowStart windowEnd : ℚ) (es : List Entry) (extraPoints : List ℚ) : List ℚ :=
  ((es.flatMap fun e => [e.start, e.stop]) ++
    extraPoints.filter fun p => windowStart ≤ p ∧ p ≤ windowEnd).dedup.insertionSort (· ≤ ·)

def pauseKey (e : Entry) : ℤ ×ₗ ℚ ×ₗ String :=
  toLex (-e.interval.priority, toLex (e.interval.enteredAt, e.interval.recordId))

/-- The reason of a pause; one that explains nothing is unspecified. -/
def pauseReason (i : LinearInterval) : Option String :=
  if i.reason = none ∧ i.transitionReason = none then some unspecifiedReason else i.reason

/-- The effective state among the entries that cover a stretch of time. -/
def choose (working activePauses ended : List Entry) : Choice :=
  if working ≠ [] then ⟨.working, none, none, none, 0, working⟩
  else match minBy pauseKey activePauses with
    | some owner =>
      ⟨.paused, pauseReason owner.interval, owner.interval.transitionReason,
        some owner.interval.recordId, owner.interval.priority, activePauses⟩
    | none =>
      if ended ≠ [] then ⟨.endedShift, none, none, none, 0, ended⟩
      else ⟨.idle, none, none, none, 0, []⟩

def choiceOn (es : List Entry) (gap : ℚ × ℚ) : Choice :=
  choose
    (es.filter fun e => e.interval.state = .working ∧ e.start ≤ gap.1 ∧ gap.2 ≤ e.stop)
    (es.filter fun e => e.interval.state = .paused ∧ e.start ≤ gap.1 ∧ gap.2 ≤ e.activeEnd)
    (es.filter fun e => e.interval.state = .endedShift ∧ e.start ≤ gap.1 ∧ gap.2 ≤ e.stop)

def rawSegment (now : ℚ) (openIds : List String) (es : List Entry) (gap : ℚ × ℚ) : RawSegment :=
  let choice := choiceOn es gap
  { start := gap.1
    stop := gap.2
    state := choice.state
    reason := choice.reason
    recordIds := (choice.chosen.map fun e => e.interval.recordId).toFinset
    stepIds := ((choice.chosen.map fun e => e.interval.stepId).filter (· ≠ "")).toFinset
    isOpen := decide (gap.2 = now) && choice.chosen.any fun e => e.interval.recordId ∈ openIds
    ownerRecordId := choice.ownerRecordId
    ownerPriority := choice.ownerPriority
    transitionReason := choice.transitionReason }

/-- `_sweep`. -/
def sweep (intervals : List LinearInterval) (windowStart windowEnd now : ℚ)
    (extraPoints : List ℚ) : List RawSegment :=
  let spans := clamped windowStart windowEnd now intervals
  let openIds := (spans.filter fun c => c.2.2.exitedAt = none).map fun c => c.2.2.recordId
  if spans = [] then []
  else
    let es := entries spans
    ((segments (boundaries windowStart windowEnd es extraPoints)).filter fun gap =>
      0 < gap.2 - gap.1).map (rawSegment now openIds es)

def secondsOf (raw : List RawSegment) (state : SegmentState) : ℚ :=
  ((raw.filter fun seg => seg.state = state).map fun seg => seg.stop - seg.start).sum

/-- `a or b` of two texts: an absent or empty one gives way. -/
def textOr (a b : Option String) : Option String :=
  (a.filter fun s => decide (s ≠ "")).or b

/-- The bucket of a paused segment: the catalog reason first, then the typed transition. -/
def pauseBucket (seg : RawSegment) : String :=
  (textOr (textOr seg.reason seg.transitionReason) (some unspecifiedReason)).getD ""

def pauseSeconds (raw : List RawSegment) : List (String × ℚ) :=
  (raw.filter fun seg => seg.state = .paused).foldl (fun d seg =>
    Dict.set d (pauseBucket seg)
      (((d.find? fun x => x.1 = pauseBucket seg).map Prod.snd).getD 0 +
        (seg.stop - seg.start))) []

/-- `compute_linear_timeline`. -/
def computeLinearTimeline (intervals : List LinearInterval) (windowStart windowEnd now : ℚ) :
    Timeline :=
  let raw := sweep intervals windowStart windowEnd now []
  let reasonSeconds := (sortBy Prod.fst (pauseSeconds raw)).map fun (reason, secs) =>
    (reason, Decimal.roundHalfEven secs)
  { workingSeconds := Decimal.roundHalfEven (secondsOf raw .working)
    pausedSeconds := (reasonSeconds.map Prod.snd).sum
    endedShiftSeconds := Decimal.roundHalfEven (secondsOf raw .endedShift)
    idleSeconds := Decimal.roundHalfEven (secondsOf raw .idle)
    pauseByReason := reasonSeconds }

structure Run where
  start : ℚ
  stop : ℚ
  state : SegmentState
  reason : Option String
  transitionReason : Option String
  recordIds : Finset String
  isOpen : Bool
  ownerRecordId : Option String
  ownerPriority : ℤ
  deriving DecidableEq

def Run.ofRaw (seg : RawSegment) : Run where
  start := seg.start
  stop := seg.stop
  state := seg.state
  reason := seg.reason
  transitionReason := seg.transitionReason
  recordIds := seg.recordIds
  isOpen := seg.isOpen
  ownerRecordId := seg.ownerRecordId
  ownerPriority := seg.ownerPriority

/-- A raw segment continues a run under the same key, except across a hard break. -/
def Run.continues (breaks : List ℚ) (prev : Run) (seg : RawSegment) : Prop :=
  prev.state = seg.state ∧ prev.reason = seg.reason ∧
    prev.transitionReason = seg.transitionReason ∧ prev.ownerPriority = seg.ownerPriority ∧
      seg.start ∉ breaks

instance (breaks : List ℚ) (prev : Run) (seg : RawSegment) :
    Decidable (prev.continues breaks seg) := inferInstanceAs (Decidable (_ ∧ _ ∧ _ ∧ _ ∧ _))

def Run.extend (prev : Run) (seg : RawSegment) : Run :=
  { prev with
    stop := seg.stop
    recordIds := prev.recordIds ∪ seg.recordIds
    isOpen := seg.isOpen }

def mergeRun (breaks : List ℚ) (runs : List Run) (seg : RawSegment) : List Run :=
  match runs.getLast? with
  | some prev =>
    if prev.continues breaks seg then runs.dropLast ++ [prev.extend seg]
    else runs ++ [Run.ofRaw seg]
  | none => [Run.ofRaw seg]

/-- `_segment_records`. -/
def segmentRecords (recordIds : Finset String) (intervals : List LinearInterval) :
    List LinearSegmentRecord :=
  let byId := Dict.ofList (intervals.map fun i => (i.recordId, i))
  let ivs := sortBy (fun i : LinearInterval => toLex (i.enteredAt, i.recordId))
    ((byId.filter fun x => x.1 ∈ recordIds).map Prod.snd)
  ivs.map fun i =>
    ⟨i.recordId, i.stepId, i.state, i.reason, i.enteredAt, i.exitedAt, i.exitedAt.isNone⟩

def segmentOf (intervals : List LinearInterval) (run : Run) : LinearSegment :=
  let records := segmentRecords run.recordIds intervals
  { start := run.start
    stop := run.stop
    state := run.state
    reason := run.reason
    recordIds := run.recordIds.sort (· ≤ ·)
    stepIds := (((records.map LinearSegmentRecord.stepId).filter (· ≠ "")).toFinset).sort (· ≤ ·)
    records := records
    isOpen := run.isOpen
    ownerRecordId := run.ownerRecordId
    transitionReason := run.transitionReason }

def runsOf (intervals : List LinearInterval) (windowStart windowEnd now : ℚ)
    (hardBreaks : List ℚ) : List Run :=
  (sweep intervals windowStart windowEnd now hardBreaks).foldl (mergeRun hardBreaks) []

/-- `compute_linear_segments`. -/
def computeLinearSegments (intervals : List LinearInterval) (windowStart windowEnd now : ℚ)
    (hardBreaks : List ℚ) : List LinearSegment :=
  (runsOf intervals windowStart windowEnd now hardBreaks).map (segmentOf intervals)

end BeyoManager.Analytics.LinearTimeline
