import Mathlib.Data.List.Pairwise
import Mathlib.Order.Max
import Mathlib.Order.Lattice

/-! # Chains of half-open spans

A span has a first point or none, and an end that it does not contain or none. Spans form a chain
when they are not empty, are disjoint and leave no gap after the first of them. A chain is
extended by ending its open span where a new one starts, and it stays a chain without its earliest
span; without another one it is a chain no more.
-/

variable {δ : Type*} [LinearOrder δ]

/-- A half-open span, which may have no first point and no end. -/
@[ext] structure Span (δ : Type*) where
  first : Option δ
  stop : Option δ
  deriving DecidableEq, Repr

namespace Span

def StartsBy (s : Span δ) (d : δ) : Prop := ∀ f ∈ s.first, f ≤ d

/-- The span contains a point. -/
def Covers (s : Span δ) (d : δ) : Prop := s.StartsBy d ∧ ∀ t ∈ s.stop, d < t

instance (s : Span δ) (d : δ) : Decidable (s.StartsBy d) :=
  inferInstanceAs (Decidable (∀ _ ∈ _, _))

instance (s : Span δ) (d : δ) : Decidable (s.Covers d) := inferInstanceAs (Decidable (_ ∧ _))

variable {s r : Span δ} {d e f : δ}

theorem StartsBy.mono (h : s.StartsBy d) (hde : d ≤ e) : s.StartsBy e := fun f hf =>
  (h f hf).trans hde

theorem covers_of_open (hopen : s.stop = none) : s.Covers d ↔ s.StartsBy d := by
  simp [Covers, hopen]

theorem covers_first (hs : ∃ d, s.Covers d) (hf : f ∈ s.first) : s.Covers f := by
  obtain ⟨d, hd, hstop⟩ := hs
  refine ⟨fun f' hf' => (Option.mem_unique hf' hf).le, fun t ht => ?_⟩
  exact (hd f hf).trans_lt (hstop t ht)

theorem forall_startsBy_iff [NoMinOrder δ] :
    (∀ d, r.StartsBy d → s.StartsBy d) ↔ ∀ f ∈ s.first, ∃ g ∈ r.first, f ≤ g := by
  constructor
  · intro h f hf
    rcases hr : r.first with _ | g
    · obtain ⟨d, hd⟩ := exists_lt f
      have hstart : r.StartsBy d := fun g hg => by cases hr.symm.trans hg
      exact absurd (h d hstart f hf) (not_le.mpr hd)
    · exact ⟨g, rfl, h g (fun g' hg' => (Option.mem_unique hg' hr).le) f hf⟩
  · intro h d hd f hf
    obtain ⟨g, hg, hle⟩ := h f hf
    exact hle.trans (hd g hg)

/-- The spans are not empty and disjoint, and from the start of the first one on every point is in
one of them. -/
structure Chain (l : List (Span δ)) : Prop where
  nonempty : ∀ s ∈ l, ∃ d, s.Covers d
  disjoint : l.Pairwise fun s r => ∀ d, s.Covers d → ¬ r.Covers d
  covered : ∀ s ∈ l, ∀ d, s.StartsBy d → ∃ r ∈ l, r.Covers d

variable {l rest : List (Span δ)}

theorem Chain.perm {l' : List (Span δ)} (h : Chain l) (hp : l.Perm l') : Chain l' where
  nonempty s hs := h.nonempty s (hp.mem_iff.mpr hs)
  disjoint := (hp.pairwise_iff fun hd d hr hs => hd d hs hr).mp h.disjoint
  covered s hs d hd := by
    obtain ⟨r, hr, hrd⟩ := h.covered s (hp.mem_iff.mpr hs) d hd
    exact ⟨r, hp.mem_iff.mp hr, hrd⟩

theorem chain_nil : Chain ([] : List (Span δ)) :=
  ⟨by simp, .nil, by simp⟩

theorem chain_singleton [Nonempty δ] (first : Option δ) : Chain [(⟨first, none⟩ : Span δ)] where
  nonempty s hs := by
    obtain rfl := List.mem_singleton.mp hs
    cases first with
    | none => exact ⟨Classical.arbitrary δ, by simp [Covers, StartsBy]⟩
    | some f => exact ⟨f, by simp [Covers, StartsBy]⟩
  disjoint := List.pairwise_singleton _ _
  covered s hs d hd := by
    obtain rfl := List.mem_singleton.mp hs
    exact ⟨_, List.mem_singleton.mpr rfl, (covers_of_open rfl).mpr hd⟩

theorem Chain.length_filter_le (h : Chain l) (d : δ) :
    (l.filter fun s => decide (s.Covers d)).length ≤ 1 := by
  have hdisjoint := h.disjoint.filter (fun s => decide (s.Covers d))
  match hl : l.filter fun s => decide (s.Covers d) with
  | [] => simp [hl]
  | [s] => simp [hl]
  | s :: r :: rest =>
    rw [hl] at hdisjoint
    have hmem : ∀ x ∈ s :: r :: rest, x.Covers d := fun x hx => by
      rw [← hl] at hx
      simpa using (List.mem_filter.mp hx).2
    have hnot := (List.pairwise_cons.mp hdisjoint).1 r List.mem_cons_self d (hmem s (by simp))
    exact absurd (hmem r (by simp)) hnot

theorem Chain.open_unique (h : Chain l) :
    l.Pairwise fun s r => ¬ (s.stop = none ∧ r.stop = none) := by
  refine h.disjoint.imp_of_mem ?_
  rintro s r hs hr hd ⟨hsopen, hropen⟩
  obtain ⟨ds, hds⟩ := h.nonempty s hs
  obtain ⟨dr, hdr⟩ := h.nonempty r hr
  exact hd (max ds dr) ((covers_of_open hsopen).mpr (hds.1.mono (le_max_left ..)))
    ((covers_of_open hropen).mpr (hdr.1.mono (le_max_right ..)))

theorem exists_stop_le [Nonempty δ] (l : List (Span δ)) : ∃ t, ∀ s ∈ l, ∀ u ∈ s.stop, u ≤ t := by
  induction l with
  | nil => exact ⟨Classical.arbitrary δ, by simp⟩
  | cons s l ih =>
    obtain ⟨t, ht⟩ := ih
    rcases hs : s.stop with _ | v
    · refine ⟨t, fun s' hs' u hu => ?_⟩
      rcases List.mem_cons.mp hs' with rfl | hs'
      · cases hs.symm.trans hu
      · exact ht s' hs' u hu
    · refine ⟨max v t, fun s' hs' u hu => ?_⟩
      rcases List.mem_cons.mp hs' with rfl | hs'
      · exact (Option.mem_unique hu hs).le.trans (le_max_left ..)
      · exact (ht s' hs' u hu).trans (le_max_right ..)

theorem Chain.exists_open (h : Chain l) {s : Span δ} (hs : s ∈ l) : ∃ r ∈ l, r.stop = none := by
  obtain ⟨d, hd⟩ := h.nonempty s hs
  obtain ⟨t, ht⟩ := (have : Nonempty δ := ⟨d⟩; exists_stop_le l)
  -- a span that contains a point after all ends has no end
  obtain ⟨r, hr, hcovers⟩ := h.covered s hs (max d t) (hd.1.mono (le_max_left ..))
  refine ⟨r, hr, Option.eq_none_iff_forall_not_mem.mpr fun u hu => ?_⟩
  exact absurd (hcovers.2 u hu) (not_lt.mpr ((ht r hr u hu).trans (le_max_right ..)))

/-- A chain goes on after its open span, which ends where the new one starts. -/
theorem Chain.extend [NoMinOrder δ] {o : Span δ} (h : Chain (o :: rest)) (hopen : o.stop = none)
    (hafter : ∀ f ∈ o.first, f < e) :
    Chain (⟨some e, none⟩ :: ⟨o.first, some e⟩ :: rest) := by
  obtain ⟨hother, hrest⟩ := List.pairwise_cons.mp h.disjoint
  have hnew : ∀ d, (⟨some e, none⟩ : Span δ).Covers d ↔ e ≤ d := by
    simp [Covers, StartsBy]
  have hold : ∀ d, (⟨o.first, some e⟩ : Span δ).Covers d ↔ o.StartsBy d ∧ d < e := by
    simp [Covers, StartsBy]
  have hstart : o.StartsBy e := fun f hf => (hafter f hf).le
  have hcovers : ∀ d, o.Covers d ↔ o.StartsBy d := fun d => covers_of_open hopen
  constructor
  · intro s hs
    simp only [List.mem_cons] at hs
    rcases hs with rfl | rfl | hs
    · exact ⟨e, (hnew e).mpr le_rfl⟩
    · rcases hfirst : o.first with _ | f
      · obtain ⟨d, hd⟩ := exists_lt e
        exact ⟨d, by simp [Covers, StartsBy, hd]⟩
      · exact ⟨f, by simp [Covers, StartsBy, hafter f hfirst]⟩
    · exact h.nonempty s (List.mem_cons_of_mem o hs)
  · refine List.pairwise_cons.mpr ⟨fun s hs d hd => ?_, List.pairwise_cons.mpr ⟨?_, hrest⟩⟩
    · have hd := (hnew d).mp hd
      rcases List.mem_cons.mp hs with rfl | hs
      · exact fun hc => absurd ((hold d).mp hc).2 (not_lt.mpr hd)
      · exact hother s hs d ((hcovers d).mpr (hstart.mono hd))
    · exact fun s hs d hd => hother s hs d ((hcovers d).mpr ((hold d).mp hd).1)
  · intro s hs d hd
    have hcase : e ≤ d ∨ ∃ r ∈ o :: rest, d < e ∧ r.Covers d := by
      rcases le_or_gt e d with hle | hlt
      · exact .inl hle
      · right
        simp only [List.mem_cons] at hs
        rcases hs with rfl | rfl | hs
        · exact absurd (hd e rfl) (not_le.mpr hlt)
        · exact ⟨o, List.mem_cons_self, hlt, (hcovers d).mpr hd⟩
        · obtain ⟨r, hr, hrd⟩ := h.covered s (List.mem_cons_of_mem o hs) d hd
          exact ⟨r, hr, hlt, hrd⟩
    rcases hcase with hle | ⟨r, hr, hlt, hrd⟩
    · exact ⟨_, List.mem_cons_self, (hnew d).mpr hle⟩
    · rcases List.mem_cons.mp hr with rfl | hr
      · exact ⟨_, List.mem_cons_of_mem _ List.mem_cons_self, (hold d).mpr ⟨hrd.1, hlt⟩⟩
      · exact ⟨r, List.mem_cons_of_mem _ (List.mem_cons_of_mem _ hr), hrd⟩

/-- Without one of its spans a chain is a chain when that span was the earliest, and only then. -/
theorem Chain.erase_iff {v : Span δ} (h : Chain (v :: rest)) :
    Chain rest ↔ ∀ r ∈ rest, ∀ d, r.StartsBy d → v.StartsBy d := by
  obtain ⟨hother, hrest⟩ := List.pairwise_cons.mp h.disjoint
  have hv := h.nonempty v List.mem_cons_self
  constructor
  · intro hchain r hr d hd f hf
    by_contra hlt
    obtain ⟨r', hr', hcovers⟩ := hchain.covered r hr f (hd.mono (not_le.mp hlt).le)
    exact hother r' hr' f (covers_first hv hf) hcovers
  · intro hearliest
    refine ⟨fun s hs => h.nonempty s (List.mem_cons_of_mem v hs), hrest, fun s hs d hd => ?_⟩
    obtain ⟨r, hr, hcovers⟩ := h.covered s (List.mem_cons_of_mem v hs) d hd
    rcases List.mem_cons.mp hr with rfl | hr
    · -- the earliest span would contain the points of one that starts in it
      refine ⟨s, hs, hd, fun t ht => not_le.mp fun hle => ?_⟩
      obtain ⟨ds, hds⟩ := h.nonempty s (List.mem_cons_of_mem _ hs)
      have hbefore : ds < d := (hds.2 t ht).trans_le hle
      refine hother s hs ds ⟨hearliest s hs ds hds.1, fun u hu => ?_⟩ hds
      exact hbefore.trans (hcovers.2 u hu)
    · exact ⟨r, hr, hcovers⟩

end Span
