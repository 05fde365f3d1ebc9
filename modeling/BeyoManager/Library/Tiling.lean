import BeyoManager.Library.Segments

/-! # Tilings of an interval

A list of pieces tiles an interval when each begins where the one before ends. The pieces
are then disjoint, stand in order and hold every point of the interval once.
-/

namespace Sweep

open Set

variable {α : Type*} [LinearOrder α]

/-- The pieces lie end to end from `a` to `b`. -/
def Tiles : List (α × α) → α → α → Prop
  | [], a, b => a = b
  | s :: rest, a, b => s.1 = a ∧ s.1 < s.2 ∧ Tiles rest s.2 b

instance decidableTiles : ∀ (l : List (α × α)) (a b : α), Decidable (Tiles l a b)
  | [], _, _ => inferInstanceAs (Decidable (_ = _))
  | s :: rest, _, b =>
    have := decidableTiles rest s.2 b
    inferInstanceAs (Decidable (_ ∧ _ ∧ Tiles rest s.2 b))

variable {l l' : List (α × α)} {a b x : α} {s : α × α}

theorem tiles_append : Tiles (l ++ l') a b ↔ ∃ m, Tiles l a m ∧ Tiles l' m b := by
  induction l generalizing a with
  | nil => simp [Tiles]
  | cons s l ih =>
    simp only [List.cons_append, Tiles, ih]
    constructor
    · rintro ⟨h1, h2, m, h3, h4⟩
      exact ⟨m, ⟨h1, h2, h3⟩, h4⟩
    · rintro ⟨m, ⟨h1, h2, h3⟩, h4⟩
      exact ⟨h1, h2, m, h3, h4⟩

theorem tiles_concat : Tiles (l ++ [s]) a b ↔ Tiles l a s.1 ∧ s.1 < s.2 ∧ s.2 = b := by
  rw [tiles_append]
  constructor
  · rintro ⟨m, h, rfl, hlt, rfl⟩
    exact ⟨h, hlt, rfl⟩
  · rintro ⟨h, hlt, rfl⟩
    exact ⟨s.1, h, rfl, hlt, rfl⟩

theorem Tiles.le (h : Tiles l a b) : a ≤ b := by
  induction l generalizing a with
  | nil => exact (show a = b from h).le
  | cons s l ih =>
    obtain ⟨rfl, hlt, h⟩ := h
    exact hlt.le.trans (ih h)

theorem Tiles.bounds (h : Tiles l a b) (hs : s ∈ l) : a ≤ s.1 ∧ s.1 < s.2 ∧ s.2 ≤ b := by
  induction l generalizing a with
  | nil => simp at hs
  | cons r l ih =>
    obtain ⟨rfl, hlt, h⟩ := h
    rcases List.mem_cons.mp hs with rfl | hs
    · exact ⟨le_rfl, hlt, h.le⟩
    · obtain ⟨h1, h2, h3⟩ := ih h hs
      exact ⟨hlt.le.trans h1, h2, h3⟩

theorem Tiles.ends {a' b' : α} (h : Tiles l a b) (h' : Tiles l a' b') (hne : l ≠ []) :
    a = a' ∧ b = b' := by
  obtain ⟨s, rest, rfl⟩ := List.exists_cons_of_ne_nil hne
  obtain ⟨init, last, he⟩ := (List.eq_nil_or_concat (s :: rest)).resolve_left hne
  refine ⟨h.1.symm.trans h'.1, ?_⟩
  rw [List.concat_eq_append] at he
  rw [he, tiles_concat] at h h'
  exact h.2.2.symm.trans h'.2.2

theorem Tiles.exists_mem (h : Tiles l a b) (hax : a ≤ x) (hxb : x < b) :
    ∃ s ∈ l, x ∈ Ico s.1 s.2 := by
  induction l generalizing a with
  | nil => exact absurd hxb (not_lt.mpr ((show a = b from h) ▸ hax))
  | cons r l ih =>
    obtain ⟨rfl, hlt, h⟩ := h
    by_cases hx : x < r.2
    · exact ⟨r, List.mem_cons_self, hax, hx⟩
    · obtain ⟨s, hs, hxs⟩ := ih h (not_lt.mp hx)
      exact ⟨s, List.mem_cons_of_mem r hs, hxs⟩

/-- A piece that does not begin the interval begins where the one before it ends. -/
theorem Tiles.exists_before {β : Type*} {f : β → α × α} {l : List β} {s : β}
    (h : Tiles (l.map f) a b) (hs : s ∈ l) (hne : (f s).1 ≠ a) :
    ∃ l₁ r l₂, l = l₁ ++ r :: s :: l₂ ∧ (f r).2 = (f s).1 := by
  induction l generalizing a with
  | nil => simp at hs
  | cons r l ih =>
    obtain ⟨rfl, _, h⟩ := h
    have hs : s ∈ l := (List.mem_cons.mp hs).resolve_left fun he => hne (by rw [he])
    by_cases hr : (f s).1 = (f r).2
    · cases l with
      | nil => simp at hs
      | cons t l =>
        obtain ⟨ht, htlt, h⟩ := h
        obtain rfl : s = t := by
          rcases List.mem_cons.mp hs with rfl | hs
          · rfl
          · have hts := (h.bounds (List.mem_map_of_mem hs)).1
            exact absurd (hr.trans ht.symm) (htlt.trans_le hts).ne'
        exact ⟨[], r, l, rfl, hr.symm⟩
    · obtain ⟨l₁, q, l₂, rfl, hq⟩ := ih h hs hr
      exact ⟨r :: l₁, q, l₂, rfl, hq⟩

/-- The segments between sorted points tile the stretch from the first to the last. -/
theorem tiles_segments {p : α} {ps : List α} (hp : (p :: ps).Pairwise (· < ·)) :
    Tiles (segments (p :: ps)) p ((p :: ps).getLast (List.cons_ne_nil p ps)) := by
  induction ps generalizing p with
  | nil => exact rfl
  | cons q ps ih =>
    rw [segments_cons_cons, List.getLast_cons (List.cons_ne_nil q ps)]
    exact ⟨rfl, List.rel_of_pairwise_cons hp List.mem_cons_self, ih hp.of_cons⟩

end Sweep
