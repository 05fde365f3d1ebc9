import BeyoManager.Library.Transition
import Mathlib.Logic.Function.Basic

/-! # Two transactions over one row

A transaction reads a row, computes new values for some of its columns and writes them when it
commits. Between its read and its commit the other transaction may commit as well, unless the
two share a lock. An interleaving is compared with the two serial orders.
-/

namespace ReadCommitted

open Transition

variable {ι V ε α : Type}

/-- The values that a transaction writes; a column with `none` is left alone. -/
abbrev Writes (ι V : Type) := ι → Option V

/-- Write some columns of a row. -/
def overlay (row : ι → V) (w : Writes ι V) : ι → V := fun c => (w c).getD (row c)

/-- What a transaction writes, as a function of the row that it reads. -/
abbrev Transaction (ι V ε : Type) := (ι → V) → Except ε (Writes ι V)

def runAlone (row : ι → V) (t : Transaction ι V ε) : Except ε (ι → V) := do
  let w ← t row
  pure (overlay row w)

def serially (row : ι → V) (ts : List (Transaction ι V ε)) : Except ε (ι → V) :=
  ts.foldlM runAlone row

/-- The two transactions. -/
inductive Party
  | first | second
  deriving DecidableEq, Repr

/-- The other of the two transactions. -/
def Party.other : Party → Party
  | .first => .second
  | .second => .first

inductive Event
  | read (p : Party)
  | commit (p : Party)
  deriving DecidableEq, Repr

/-- The events of one transaction. -/
def Party.events (p : Party) : List Event := [.read p, .commit p]

/-- A list that is made up of two others, each of them in its order. -/
inductive Interleaves : List α → List α → List α → Prop
  | nil : Interleaves [] [] []
  | left {a : α} {l m n : List α} : Interleaves l m n → Interleaves (a :: l) m (a :: n)
  | right {a : α} {l m n : List α} : Interleaves l m n → Interleaves l (a :: m) (a :: n)

inductive Halt (ε : Type)
  | refused (e : ε)
  | blocked

/-- The row, and what the transactions that have not committed yet are going to write. -/
structure State (ι V : Type) where
  row : ι → V
  pending : Party → Option (Writes ι V)

/-- The row, with no transaction under way. -/
def State.start (row : ι → V) : State ι V := ⟨row, fun _ => none⟩

/-- One event. A transaction waits with its read while the other one holds a shared lock. -/
def step (t : Party → Transaction ι V ε) (shareLock : Prop) [Decidable shareLock]
    (s : State ι V) : Event → Except (Halt ε) (State ι V)
  | .read p => do
    throwIf (shareLock ∧ (s.pending p.other).isSome) .blocked
    let w ← (t p s.row).mapError .refused
    pure { s with pending := Function.update s.pending p (some w) }
  | .commit p => do
    let w ← getOr .blocked (s.pending p)
    pure ⟨overlay s.row w, Function.update s.pending p none⟩

def run (t : Party → Transaction ι V ε) (shareLock : Prop) [Decidable shareLock]
    (s : State ι V) (events : List Event) : Except (Halt ε) (State ι V) :=
  events.foldlM (step t shareLock) s

/-- Both transactions read before either of them commits. -/
def Overlapping (events : List Event) : Prop :=
  ∃ p, events = [.read p, .read p.other, .commit p, .commit p.other] ∨
    events = [.read p, .read p.other, .commit p.other, .commit p]

/-- The row that is left is the one that some serial order leaves. -/
def Serializable (t : Party → Transaction ι V ε) (row row' : ι → V) : Prop :=
  ∃ p, serially row [t p, t p.other] = .ok row'

@[simp] theorem Party.other_other (p : Party) : p.other.other = p := by
  cases p <;> rfl

@[simp] theorem Party.other_ne (p : Party) : p.other ≠ p := by
  cases p <;> decide

@[simp] theorem overlay_none (row : ι → V) : overlay row (fun _ => none) = row := rfl

theorem interleaves_nil_left {m n : List α} (h : Interleaves [] m n) : n = m := by
  generalize hl : ([] : List α) = l at h
  induction h with
  | nil => rfl
  | left => cases hl
  | right _ ih => rw [ih hl]

theorem interleaves_nil_right {l n : List α} (h : Interleaves l [] n) : n = l := by
  generalize hm : ([] : List α) = m at h
  induction h with
  | nil => rfl
  | left _ ih => rw [ih hm]
  | right => cases hm

/-- Either one transaction commits before the other reads, or the two overlap. -/
theorem interleaves_cases {events : List Event}
    (h : Interleaves Party.first.events Party.second.events events) :
    (∃ p : Party, events = p.events ++ p.other.events) ∨ Overlapping events := by
  cases h with
  | left h =>
    cases h with
    | left h =>
      rw [interleaves_nil_left h]
      exact .inl ⟨.first, rfl⟩
    | right h =>
      right
      refine ⟨.first, ?_⟩
      cases h with
      | left h =>
        rw [interleaves_nil_left h]
        exact .inl rfl
      | right h =>
        rw [interleaves_nil_right h]
        exact .inr rfl
  | right h =>
    cases h with
    | left h =>
      right
      refine ⟨.second, ?_⟩
      cases h with
      | left h =>
        rw [interleaves_nil_left h]
        exact .inr rfl
      | right h =>
        rw [interleaves_nil_right h]
        exact .inl rfl
    | right h =>
      rw [interleaves_nil_right h]
      exact .inl ⟨.second, rfl⟩

section Steps

variable {t : Party → Transaction ι V ε} {shareLock : Prop} [Decidable shareLock]
  {s s' : State ι V} {p : Party}

theorem step_read (h : step t shareLock s (.read p) = .ok s') :
    ¬ (shareLock ∧ (s.pending p.other).isSome) ∧
      ∃ w, t p s.row = .ok w ∧ s'.row = s.row ∧
        s'.pending = Function.update s.pending p (some w) := by
  obtain ⟨hlock, h⟩ := throwIf_bind_eq_ok.mp h
  refine ⟨hlock, ?_⟩
  cases hw : t p s.row with
  | error e =>
    rw [hw] at h
    cases h
  | ok w =>
    rw [hw] at h
    cases h
    exact ⟨w, rfl, rfl, rfl⟩

theorem step_commit (h : step t shareLock s (.commit p) = .ok s') :
    ∃ w, s.pending p = some w ∧ s'.row = overlay s.row w ∧
      s'.pending = Function.update s.pending p none := by
  obtain ⟨w, hw, h⟩ := bind_eq_ok.mp h
  cases h
  exact ⟨w, getOr_eq_ok.mp hw, rfl, rfl⟩

theorem run_cons {e : Event} {events : List Event} :
    run t shareLock s (e :: events) = .ok s' ↔
      ∃ u, step t shareLock s e = .ok u ∧ run t shareLock u events = .ok s' :=
  foldlM_cons_eq_ok

theorem run_nil (h : run t shareLock s [] = .ok s') : s' = s := by
  simpa [run, pure, Except.pure, eq_comm] using h

end Steps

section Serial

variable {row row' : ι → V} {t u : Transaction ι V ε}

theorem serially_pair :
    serially row [t, u] = .ok row' ↔ ∃ w, t row = .ok w ∧
      ∃ w', u (overlay row w) = .ok w' ∧ row' = overlay (overlay row w) w' := by
  constructor
  · intro h
    obtain ⟨row₁, h₁, h⟩ := foldlM_cons_eq_ok.mp h
    obtain ⟨row₂, h₂, h⟩ := foldlM_cons_eq_ok.mp h
    obtain ⟨w, hw, h₁⟩ := bind_eq_ok.mp h₁
    obtain ⟨w', hw', h₂⟩ := bind_eq_ok.mp h₂
    cases h₁
    cases h₂
    cases h
    exact ⟨w, hw, w', hw', rfl⟩
  · rintro ⟨w, hw, w', hw', rfl⟩
    simp [serially, runAlone, hw, hw', bind, Except.bind, pure, Except.pure]

end Serial

section Runs

variable {t : Party → Transaction ι V ε} {shareLock : Prop} [Decidable shareLock]
  {row : ι → V} {s : State ι V} {p : Party}

theorem run_serial
    (h : run t shareLock (.start row) (p.events ++ p.other.events) = .ok s) :
    serially row [t p, t p.other] = .ok s.row := by
  obtain ⟨s₁, h₁, h⟩ := run_cons.mp h
  obtain ⟨s₂, h₂, h⟩ := run_cons.mp h
  obtain ⟨s₃, h₃, h⟩ := run_cons.mp h
  obtain ⟨s₄, h₄, h⟩ := run_cons.mp h
  obtain rfl := run_nil h
  obtain ⟨-, w, hw, hrow₁, hp₁⟩ := step_read h₁
  obtain ⟨w₂, hw₂, hrow₂, hp₂⟩ := step_commit h₂
  obtain ⟨-, w', hw', hrow₃, hp₃⟩ := step_read h₃
  obtain ⟨w₄, hw₄, hrow₄, -⟩ := step_commit h₄
  obtain rfl : w = w₂ := by simpa [hp₁] using hw₂
  obtain rfl : w' = w₄ := by simpa [hp₃] using hw₄
  rw [serially_pair]
  rw [hrow₂, hrow₁] at hw'
  refine ⟨w, hw, w', hw', ?_⟩
  rw [hrow₄, hrow₃, hrow₂, hrow₁]
  rfl

/-- Two transactions that overlap share no lock and compute from the same row. -/
theorem run_overlapping {events : List Event} (hover : Overlapping events)
    (h : run t shareLock (.start row) events = .ok s) :
    ¬ shareLock ∧ ∃ p w w', events.getLast? = some (.commit p.other) ∧ t p row = .ok w ∧
      t p.other row = .ok w' ∧ s.row = overlay (overlay row w) w' := by
  obtain ⟨p, rfl | rfl⟩ := hover
  all_goals
    obtain ⟨s₁, h₁, h⟩ := run_cons.mp h
    obtain ⟨s₂, h₂, h⟩ := run_cons.mp h
    obtain ⟨s₃, h₃, h⟩ := run_cons.mp h
    obtain ⟨s₄, h₄, h⟩ := run_cons.mp h
    obtain rfl := run_nil h
    obtain ⟨-, w, hw, hrow₁, hp₁⟩ := step_read h₁
    obtain ⟨hlock, w', hw', hrow₂, hp₂⟩ := step_read h₂
    obtain ⟨w₃, hw₃, hrow₃, hp₃⟩ := step_commit h₃
    obtain ⟨w₄, hw₄, hrow₄, -⟩ := step_commit h₄
    have hfree : ¬ shareLock := fun hs => hlock ⟨hs, by simp [hp₁]⟩
    refine ⟨hfree, ?_⟩
    rw [hrow₁] at hw'
  · obtain rfl : w = w₃ := by
      simpa [hp₂, hp₁, Function.update_of_ne (Party.other_ne p).symm] using hw₃
    obtain rfl : w' = w₄ := by
      simpa [hp₃, hp₂, Function.update_of_ne (Party.other_ne p)] using hw₄
    refine ⟨p, w, w', rfl, hw, hw', ?_⟩
    rw [hrow₄, hrow₃, hrow₂, hrow₁]
    rfl
  · obtain rfl : w' = w₃ := by simpa [hp₂] using hw₃
    obtain rfl : w = w₄ := by
      simpa [hp₃, hp₂, hp₁, Function.update_of_ne (Party.other_ne p).symm] using hw₄
    refine ⟨p.other, w', w, by simp, hw', by rw [Party.other_other]; exact hw, ?_⟩
    rw [hrow₄, hrow₃, hrow₂, hrow₁]
    rfl

end Runs

section Confined

variable {row : ι → V} {t u : Transaction ι V ε} {columns : ι → Prop} {w w' : Writes ι V}

/-- A transaction reads and writes no other columns than these. -/
structure Confined (columns : ι → Prop) (t : Transaction ι V ε) : Prop where
  reads : ∀ row row' : ι → V, (∀ c, columns c → row c = row' c) → t row = t row'
  writes : ∀ row w, t row = .ok w → ∀ c, ¬ columns c → w c = none

theorem Confined.mono {columns' : ι → Prop} (ht : Confined columns t)
    (h : ∀ c, columns c → columns' c) : Confined columns' t :=
  ⟨fun row row' hrow => ht.reads row row' fun c hc => hrow c (h c hc),
    fun row w hw c hc => ht.writes row w hw c fun hc' => hc (h c hc')⟩

theorem overlay_comm (h : ∀ c, w c = none ∨ w' c = none) :
    overlay (overlay row w) w' = overlay (overlay row w') w := by
  funext c
  rcases h c with hc | hc <;> simp [overlay, hc]

/-- A transaction that does not see what another one writes computes the same after it. -/
theorem Confined.after (hu : Confined columns u) (h : ∀ c, columns c → w c = none) :
    u (overlay row w) = u row :=
  hu.reads _ _ fun c hc => by simp [overlay, h c hc]

/-- When one transaction writes nothing that the other one works with, the two may as well have
run in this order. -/
theorem Confined.serially_eq (hu : Confined columns u) (ht : t row = .ok w)
    (hu' : u row = .ok w') (h : ∀ c, columns c → w c = none) :
    serially row [t, u] = .ok (overlay (overlay row w) w') ∧
      overlay (overlay row w') w = overlay (overlay row w) w' := by
  constructor
  · rw [serially_pair]
    exact ⟨w, ht, w', by rw [hu.after h, hu'], rfl⟩
  · apply overlay_comm
    intro c
    by_cases hc : columns c
    · exact .inr (h c hc)
    · exact .inl (hu.writes row w' hu' c hc)

end Confined

section Session

variable {W : Type} [DecidableEq W]

/-- A transaction under way: the values of its copy of the row, and the columns that it has
changed so far. -/
structure Session (ι W : Type) where
  values : ι → W
  dirty : ι → Bool

/-- Assign values in a session; a column is changed when its value differs from the one before. -/
def Session.assign (s : Session ι W) (w : Writes ι W) : Session ι W :=
  ⟨overlay s.values w, fun c => s.dirty c || decide (overlay s.values w c ≠ s.values c)⟩

/-- One call in a session. -/
def Session.call (s : Session ι W) (t : Transaction ι W ε) : Except ε (Session ι W) := do
  let w ← t s.values
  pure (s.assign w)

/-- The copy of a row that a session starts from. -/
def Session.open (load : V → W) (row : ι → V) : Session ι W :=
  ⟨fun c => load (row c), fun _ => false⟩

def Session.writes (store : W → V) (s : Session ι W) : Writes ι V :=
  fun c => if s.dirty c then some (store (s.values c)) else none

/-- The transaction that makes some calls one after the other. Its copy of the row may keep
values that the columns of the row cannot hold. -/
def session (load : V → W) (store : W → V) (calls : List (Transaction ι W ε)) :
    Transaction ι V ε := fun row => do
  let s ← calls.foldlM Session.call (Session.open load row)
  pure (s.writes store)

/-- Two sessions that cannot be told apart by these columns, and have changed no others. -/
structure Session.Agree (columns : ι → Prop) (s s' : Session ι W) : Prop where
  values : ∀ c, columns c → s.values c = s'.values c
  dirty : ∀ c, columns c → s.dirty c = s'.dirty c
  clean : ∀ c, ¬ columns c → s.dirty c = false ∧ s'.dirty c = false

variable {columns : ι → Prop} {row : ι → V} {s s' u : Session ι W} {t : Transaction ι W ε}
  {calls : List (Transaction ι W ε)} {load : V → W} {store : W → V}

/-- A call that is confined to the columns goes the same way in both sessions. -/
theorem Session.Agree.call (h : s.Agree columns s') (ht : Confined columns t) :
    (∃ e, s.call t = .error e ∧ s'.call t = .error e) ∨
      ∃ u u', s.call t = .ok u ∧ s'.call t = .ok u' ∧ u.Agree columns u' := by
  have hread : t s.values = t s'.values := ht.reads _ _ h.values
  cases hw : t s.values with
  | error e =>
    left
    refine ⟨e, ?_⟩
    simp [Session.call, ← hread, hw, bind, Except.bind]
  | ok w =>
    right
    have hover : ∀ c, columns c → overlay s.values w c = overlay s'.values w c := by
      intro c hc
      simp [overlay, h.values c hc]
    refine ⟨_, _, by rw [Session.call, hw]; rfl, by rw [Session.call, ← hread, hw]; rfl,
      hover, ?_, ?_⟩
    · intro c hc
      simp only [Session.assign, hover c hc, h.dirty c hc, h.values c hc]
    · intro c hc
      have hnone := ht.writes _ _ hw c hc
      simp [Session.assign, (h.clean c hc).1, (h.clean c hc).2, overlay, hnone]

theorem Session.Agree.foldlM (hcalls : ∀ t ∈ calls, Confined columns t) (h : s.Agree columns s') :
    (∃ e, calls.foldlM Session.call s = .error e ∧ calls.foldlM Session.call s' = .error e) ∨
      ∃ u u', calls.foldlM Session.call s = .ok u ∧ calls.foldlM Session.call s' = .ok u' ∧
        u.Agree columns u' := by
  induction calls generalizing s s' with
  | nil => exact .inr ⟨s, s', rfl, rfl, h⟩
  | cons t calls ih =>
    rcases h.call (hcalls t List.mem_cons_self) with ⟨e, he, he'⟩ | ⟨u, u', hu, hu', hagree⟩
    · left
      refine ⟨e, ?_⟩
      simp [List.foldlM_cons, he, he', bind, Except.bind]
    · simp only [List.foldlM_cons, hu, hu', bind, Except.bind]
      exact ih (fun t ht => hcalls t (List.mem_cons_of_mem _ ht)) hagree

/-- A session whose calls are confined to some columns is confined to them, too. -/
theorem session_confined (hcalls : ∀ t ∈ calls, Confined columns t) :
    Confined columns (session load store calls) := by
  constructor
  · intro row row' hrow
    have h : (Session.open load row).Agree columns (Session.open load row') :=
      ⟨fun c hc => by simp [Session.open, hrow c hc], fun c hc => rfl, fun c hc => ⟨rfl, rfl⟩⟩
    rcases h.foldlM hcalls with ⟨e, he, he'⟩ | ⟨u, u', hu, hu', hagree⟩
    · simp [session, he, he', bind, Except.bind]
    · simp only [session, hu, hu', bind, Except.bind, pure, Except.pure, Except.ok.injEq]
      funext c
      by_cases hc : columns c
      · simp [Session.writes, hagree.values c hc, hagree.dirty c hc]
      · simp [Session.writes, (hagree.clean c hc).1, (hagree.clean c hc).2]
  · intro row w hw c hc
    obtain ⟨s, hs, hw⟩ := bind_eq_ok.mp hw
    cases hw
    have h : (Session.open load row).Agree columns (Session.open load row) :=
      ⟨fun c hc => rfl, fun c hc => rfl, fun c hc => ⟨rfl, rfl⟩⟩
    rcases h.foldlM hcalls with ⟨e, he, -⟩ | ⟨u, u', hu, -, hagree⟩
    · rw [he] at hs
      cases hs
    · obtain rfl : u = s := Except.ok.inj (hu.symm.trans hs)
      simp [Session.writes, (hagree.clean c hc).1]

theorem Session.values_eq_of_clean (hs : ∀ c, s.dirty c = false → s.values c = load (row c))
    (hu : calls.foldlM Session.call s = .ok u) (c : ι) (hc : u.dirty c = false) :
    u.values c = load (row c) := by
  refine foldlM_invariant (fun s => ∀ c, s.dirty c = false → s.values c =
    load (row c)) ?_ hs hu c hc
  intro s t _ s' hs ht c hc
  obtain ⟨w, -, ht⟩ := bind_eq_ok.mp ht
  cases ht
  rw [Session.assign, Bool.or_eq_false_iff, decide_eq_false_iff_not, not_not] at hc
  exact hc.2.trans (hs c hc.1)

/-- A session of one call writes what the call assigns, as far as a column can hold it. -/
theorem runAlone_session_single (hstore : ∀ v, store (load v) = v) {w : Writes ι W}
    (ht : t (fun c => load (row c)) = .ok w) :
    runAlone row (session load store [t]) =
      .ok fun c => store (overlay (fun c => load (row c)) w c) := by
  simp only [runAlone, session, List.foldlM_cons, List.foldlM_nil, Session.call, Session.assign,
    Session.open, ht,
    bind, Except.bind, pure, Except.pure, Except.ok.injEq]
  funext c
  by_cases hc : overlay (fun c => load (row c)) w c = load (row c)
  · simp [overlay, Session.writes] at hc ⊢
    simp [hc, hstore]
  · rw [overlay, Session.writes]
    simp [hc]

end Session

end ReadCommitted
