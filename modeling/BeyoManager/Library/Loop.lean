import BeyoManager.Library.Transition
import Mathlib.Logic.Relation
import Mathlib.Order.Basic

/-! # Loops

A loop repeats a step until the step says that it is done, or fails. It is run with a bound on
the number of steps; a measure that every repetition lowers is such a bound. A loop over distinct
keys, each pass of which writes at its own key only, leaves at each key what the pass of that key
makes of the view at the start, and what was there at a key without a pass.
-/

namespace Loop

variable {σ β ε : Type*}

/-- Run a step until it is done; `none` when the bound is reached first. -/
def run (step : σ → Except ε (σ ⊕ β)) : ℕ → σ → Except ε (Option β)
  | 0, _ => .ok none
  | fuel + 1, s =>
    match step s with
    | .error e => .error e
    | .ok (.inr b) => .ok (some b)
    | .ok (.inl s') => run step fuel s'

/-- The step repeats from one state into another. -/
def Repeats (step : σ → Except ε (σ ⊕ β)) (s s' : σ) : Prop := step s = .ok (.inl s')

variable {step : σ → Except ε (σ ⊕ β)} {s s' : σ} {b : β}

theorem run_eq_some {fuel : ℕ} (h : run step fuel s = .ok (some b)) :
    ∃ s', Relation.ReflTransGen (Repeats step) s s' ∧ step s' = .ok (.inr b) := by
  induction fuel generalizing s with
  | zero => cases h
  | succ fuel ih =>
    rw [run] at h
    split at h
    · cases h
    · next b' hstep =>
      cases h
      exact ⟨s, .refl, hstep⟩
    · next s₁ hstep =>
      obtain ⟨s', hrun, hdone⟩ := ih h
      exact ⟨s', .head hstep hrun, hdone⟩

theorem invariant {P : σ → Prop} (hstep : ∀ s s', P s → Repeats step s s' → P s')
    (h : Relation.ReflTransGen (Repeats step) s s') (hs : P s) : P s' := by
  induction h with
  | refl => exact hs
  | tail _ hr ih => exact hstep _ _ ih hr

theorem run_ne_none {P : σ → Prop} {μ : σ → ℕ}
    (hstep : ∀ s s', P s → Repeats step s s' → P s' ∧ μ s' < μ s) {fuel : ℕ} (hs : P s)
    (h : μ s < fuel) : run step fuel s ≠ .ok none := by
  induction fuel generalizing s with
  | zero => exact absurd h (Nat.not_lt_zero _)
  | succ fuel ih =>
    rw [run]
    split
    · simp
    · simp
    · next s₁ hrun =>
      obtain ⟨hs₁, hlt⟩ := hstep _ _ hs hrun
      exact ih hs₁ (by omega)

end Loop

namespace KeyedLoop

open Transition

variable {σ κ V : Type*} {β : Type*} {key : β → κ} {view : κ → σ → V} {I : σ → Prop} {l : List β}
  {s s' : σ}

section Fold

variable {f : σ → β → σ}

theorem foldl_frame (hI : ∀ s, ∀ b ∈ l, I s → I (f s b))
    (hframe : ∀ s, ∀ b ∈ l, I s → ∀ k ≠ key b, view k (f s b) = view k s) (hs : I s) :
    I (l.foldl f s) ∧ ∀ k ∉ l.map key, view k (l.foldl f s) = view k s := by
  induction l generalizing s with
  | nil => exact ⟨hs, fun _ _ => rfl⟩
  | cons b l ih =>
    obtain ⟨hI', hrest⟩ := ih (fun s c hc => hI s c (List.mem_cons_of_mem b hc))
      (fun s c hc => hframe s c (List.mem_cons_of_mem b hc)) (hI s b List.mem_cons_self hs)
    refine ⟨hI', fun k hk => ?_⟩
    rw [List.map_cons, List.mem_cons, not_or] at hk
    exact (hrest k hk.2).trans (hframe s b List.mem_cons_self hs k hk.1)

theorem foldl_view (hI : ∀ s, ∀ b ∈ l, I s → I (f s b))
    (hframe : ∀ s, ∀ b ∈ l, I s → ∀ k ≠ key b, view k (f s b) = view k s) (hs : I s)
    (hn : (l.map key).Nodup) {b : β} (hb : b ∈ l) :
    ∃ t, I t ∧ view (key b) t = view (key b) s ∧
      view (key b) (l.foldl f s) = view (key b) (f t b) := by
  induction l generalizing s with
  | nil => cases hb
  | cons c l ih =>
    obtain ⟨hc, hn⟩ := List.nodup_cons.mp hn
    have hIl := fun s d hd => hI s d (List.mem_cons_of_mem c hd)
    have hfl := fun s d hd => hframe s d (List.mem_cons_of_mem c hd)
    have hs' := hI s c List.mem_cons_self hs
    rcases List.mem_cons.mp hb with rfl | hb
    · exact ⟨s, hs, rfl, (foldl_frame hIl hfl hs').2 _ hc⟩
    · obtain ⟨t, ht, hview, hlast⟩ := ih hIl hfl hs' hn hb
      refine ⟨t, ht, hview.trans (hframe s c List.mem_cons_self hs _ ?_), hlast⟩
      intro he
      exact hc (he ▸ List.mem_map_of_mem hb)

end Fold

section FoldM

variable {ε : Type*} {σ : Type*} {view : κ → σ → V} {I : σ → Prop} {s s' : σ}
  {f : σ → β → Except ε σ}

theorem foldlM_frame (hI : ∀ s, ∀ b ∈ l, ∀ s', I s → f s b = .ok s' → I s')
    (hframe : ∀ s, ∀ b ∈ l, ∀ s', I s → f s b = .ok s' → ∀ k ≠ key b, view k s' = view k s)
    (hs : I s) (h : l.foldlM f s = .ok s') : I s' ∧ ∀ k ∉ l.map key, view k s' = view k s := by
  induction l generalizing s with
  | nil =>
    cases h
    exact ⟨hs, fun _ _ => rfl⟩
  | cons b l ih =>
    obtain ⟨t, ht, h⟩ := foldlM_cons_eq_ok.mp h
    obtain ⟨hI', hrest⟩ := ih (fun s c hc => hI s c (List.mem_cons_of_mem b hc))
      (fun s c hc => hframe s c (List.mem_cons_of_mem b hc)) (hI s b List.mem_cons_self t hs ht) h
    refine ⟨hI', fun k hk => ?_⟩
    rw [List.map_cons, List.mem_cons, not_or] at hk
    exact (hrest k hk.2).trans (hframe s b List.mem_cons_self t hs ht k hk.1)

theorem foldlM_view (hI : ∀ s, ∀ b ∈ l, ∀ s', I s → f s b = .ok s' → I s')
    (hframe : ∀ s, ∀ b ∈ l, ∀ s', I s → f s b = .ok s' → ∀ k ≠ key b, view k s' = view k s)
    (hs : I s) (hn : (l.map key).Nodup) (h : l.foldlM f s = .ok s') {b : β} (hb : b ∈ l) :
    ∃ t t', I t ∧ view (key b) t = view (key b) s ∧ f t b = .ok t' ∧
      view (key b) s' = view (key b) t' := by
  induction l generalizing s with
  | nil => cases hb
  | cons c l ih =>
    obtain ⟨hc, hn⟩ := List.nodup_cons.mp hn
    obtain ⟨t, ht, hrest⟩ := foldlM_cons_eq_ok.mp h
    have hIl := fun s d hd => hI s d (List.mem_cons_of_mem c hd)
    have hfl := fun s d hd => hframe s d (List.mem_cons_of_mem c hd)
    have hs' := hI s c List.mem_cons_self t hs ht
    rcases List.mem_cons.mp hb with rfl | hb
    · exact ⟨s, t, hs, rfl, ht, (foldlM_frame hIl hfl hs' hrest).2 _ hc⟩
    · obtain ⟨u, u', hu, hview, hpass, hlast⟩ := ih hIl hfl hs' hn hrest hb
      refine ⟨u, u', hu, hview.trans (hframe s c List.mem_cons_self t hs ht _ ?_), hpass, hlast⟩
      intro he
      exact hc (he ▸ List.mem_map_of_mem hb)

/-- A loop succeeds when each of its passes does, if a pass does so in every state or in none. -/
theorem foldlM_ok_iff {p : β → Prop} (h : ∀ s, ∀ b ∈ l, (∃ s', f s b = .ok s') ↔ p b) :
    (∃ s', l.foldlM f s = .ok s') ↔ ∀ b ∈ l, p b := by
  induction l generalizing s with
  | nil => exact ⟨fun _ b hb => absurd hb List.not_mem_nil, fun _ => ⟨s, rfl⟩⟩
  | cons b l ih =>
    have hl := fun s => @ih s fun s c hc => h s c (List.mem_cons_of_mem b hc)
    rw [List.forall_mem_cons, ← h s b List.mem_cons_self]
    constructor
    · rintro ⟨s', hs'⟩
      obtain ⟨t, ht, hrest⟩ := foldlM_cons_eq_ok.mp hs'
      exact ⟨⟨t, ht⟩, (hl t).mp ⟨s', hrest⟩⟩
    · rintro ⟨⟨t, ht⟩, hrest⟩
      obtain ⟨s', hs'⟩ := (hl t).mpr hrest
      exact ⟨s', foldlM_cons_eq_ok.mpr ⟨t, ht, hs'⟩⟩

end FoldM

end KeyedLoop
