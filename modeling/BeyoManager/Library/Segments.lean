import Mathlib.Algebra.BigOperators.Group.List.Basic
import Mathlib.Algebra.Order.Field.Basic
import Mathlib.Data.Set.Lattice
import Mathlib.Order.CompletePartialOrder
import Mathlib.Tactic.Abel

/-! # Segments of a line

Sorted boundary points cut a line into segments between consecutive points. When
every interval of a family begins and ends at a boundary point, an interval contains
a segment or misses it, so the union of the intervals is the union of the segments that
some interval contains.
-/

namespace Sweep

open Set

variable {α β : Type*}

/-- The pairs of consecutive points. -/
def segments (pts : List α) : List (α × α) := pts.zip pts.tail

@[simp] theorem segments_nil : segments ([] : List α) = [] := rfl

@[simp] theorem segments_singleton (a : α) : segments [a] = [] := rfl

@[simp] theorem segments_cons_cons (a b : α) (pts : List α) :
    segments (a :: b :: pts) = (a, b) :: segments (b :: pts) := rfl

theorem mem_segments_cons {a b : α} {pts : List α} {s : α × α} :
    s ∈ segments (a :: b :: pts) ↔ s = (a, b) ∨ s ∈ segments (b :: pts) := by
  rw [segments_cons_cons, List.mem_cons]

theorem segments_map (f : α → β) (pts : List α) :
    segments (pts.map f) = (segments pts).map (Prod.map f f) := by
  rw [segments, ← List.map_tail, List.zip_map, segments]

theorem mem_of_mem_segments {pts : List α} {s : α × α} (h : s ∈ segments pts) :
    s.1 ∈ pts ∧ s.2 ∈ pts :=
  ⟨(List.of_mem_zip h).1, List.mem_of_mem_tail (List.of_mem_zip h).2⟩

section Order

variable [LinearOrder α] {pts : List α} {s : α × α}

theorem segments_lt (hp : pts.Pairwise (· < ·)) (h : s ∈ segments pts) : s.1 < s.2 := by
  induction pts with
  | nil => simp at h
  | cons a pts ih =>
    cases pts with
    | nil => simp at h
    | cons b pts =>
      rcases mem_segments_cons.mp h with rfl | h
      · exact List.rel_of_pairwise_cons hp List.mem_cons_self
      · exact ih hp.of_cons h

theorem le_getLast (hp : pts.Pairwise (· < ·)) {x : α} (hx : x ∈ pts) :
    x ≤ pts.getLast (List.ne_nil_of_mem hx) := by
  induction pts with
  | nil => simp at hx
  | cons a pts ih =>
    cases pts with
    | nil => exact (List.mem_singleton.mp hx).le
    | cons b pts =>
      rw [List.getLast_cons (List.cons_ne_nil b pts)]
      rcases List.mem_cons.mp hx with rfl | hx
      · exact (List.rel_of_pairwise_cons hp (List.getLast_mem _)).le
      · exact ih hp.of_cons hx

theorem le_or_le_of_mem (hp : pts.Pairwise (· < ·)) (h : s ∈ segments pts) {x : α}
    (hx : x ∈ pts) : x ≤ s.1 ∨ s.2 ≤ x := by
  induction pts with
  | nil => simp at h
  | cons a pts ih =>
    cases pts with
    | nil => simp at h
    | cons b pts =>
      have hab : ∀ {y}, y ∈ b :: pts → a < y := List.rel_of_pairwise_cons hp
      rcases mem_segments_cons.mp h with rfl | hs
      · rcases List.mem_cons.mp hx with rfl | hx
        · exact .inl le_rfl
        · rcases List.mem_cons.mp hx with rfl | hx
          · exact .inr le_rfl
          · exact .inr (List.rel_of_pairwise_cons hp.of_cons hx).le
      · rcases List.mem_cons.mp hx with rfl | hx
        · exact .inl (hab (mem_of_mem_segments hs).1).le
        · exact ih hp.of_cons hs hx

theorem exists_segment (hp : pts.Pairwise (· < ·)) {a b x : α} (ha : a ∈ pts) (hb : b ∈ pts)
    (hax : a ≤ x) (hxb : x < b) : ∃ s ∈ segments pts, s.1 ≤ x ∧ x < s.2 := by
  induction pts generalizing a with
  | nil => simp at ha
  | cons p pts ih =>
    have hpx : p ≤ x := by
      rcases List.mem_cons.mp ha with rfl | ha
      · exact hax
      · exact (List.rel_of_pairwise_cons hp ha).le.trans hax
    have hb : b ∈ pts := (List.mem_cons.mp hb).resolve_left fun h => (h ▸ hxb).not_ge hpx
    cases pts with
    | nil => simp at hb
    | cons q pts =>
      by_cases hq : x < q
      · exact ⟨(p, q), List.mem_cons_self, hpx, hq⟩
      · obtain ⟨s, hs, hx⟩ := ih hp.of_cons List.mem_cons_self hb (not_lt.mp hq)
        exact ⟨s, List.mem_cons_of_mem _ hs, hx⟩

theorem segments_disjoint (hp : pts.Pairwise (· < ·)) :
    (segments pts).Pairwise fun s t => Disjoint (Ico s.1 s.2) (Ico t.1 t.2) := by
  induction pts with
  | nil => exact .nil
  | cons a pts ih =>
    cases pts with
    | nil => exact .nil
    | cons b pts =>
      refine List.pairwise_cons.mpr ⟨fun t ht => ?_, ih hp.of_cons⟩
      have hbt : b ≤ t.1 := by
        rcases List.mem_cons.mp (mem_of_mem_segments ht).1 with h | h
        · exact h.ge
        · exact (List.rel_of_pairwise_cons hp.of_cons h).le
      exact Set.disjoint_left.mpr fun x hx hx' => (hx.2.trans_le hbt).not_ge hx'.1

/-- The interval contains the segment. -/
def Covers (i s : α × α) : Prop := i.1 ≤ s.1 ∧ s.2 ≤ i.2

instance (i s : α × α) : Decidable (Covers i s) := inferInstanceAs (Decidable (_ ∧ _))

theorem covers_of_mem (hp : pts.Pairwise (· < ·)) (h : s ∈ segments pts) {i : α × α}
    (hi : i.1 ∈ pts ∧ i.2 ∈ pts) {x : α} (hs : x ∈ Ico s.1 s.2) (hx : x ∈ Ico i.1 i.2) :
    Covers i s := by
  refine ⟨?_, ?_⟩
  · exact (le_or_le_of_mem hp h hi.1).resolve_right fun hc => (hx.1.trans_lt hs.2).not_ge hc
  · exact (le_or_le_of_mem hp h hi.2).resolve_left fun hc => (hs.1.trans_lt hx.2).not_ge hc

/-- A union of intervals between boundary points is the union of the covered segments. -/
theorem iUnion_Ico_eq (hp : pts.Pairwise (· < ·)) {l : List (α × α)}
    (hl : ∀ i ∈ l, i.1 ∈ pts ∧ i.2 ∈ pts) :
    ⋃ i ∈ l, Ico i.1 i.2 =
      ⋃ s ∈ (segments pts).filter fun s => ∃ i ∈ l, Covers i s, Ico s.1 s.2 := by
  ext x
  simp only [mem_iUnion, List.mem_filter, decide_eq_true_eq, exists_prop]
  constructor
  · rintro ⟨i, hi, hx⟩
    obtain ⟨s, hs, hxs⟩ := exists_segment hp (hl i hi).1 (hl i hi).2 hx.1 hx.2
    exact ⟨s, ⟨hs, i, hi, covers_of_mem hp hs (hl i hi) hxs hx⟩, hxs⟩
  · rintro ⟨s, ⟨_, i, hi, hc⟩, hx⟩
    exact ⟨i, hi, hc.1.trans hx.1, hx.2.trans_le hc.2⟩

end Order

section Length

variable [AddCommGroup α] [LinearOrder α]

/-- The lengths of the segments inside an interval between boundary points add up to its length. -/
theorem sum_length_covered {pts : List α} (hp : pts.Pairwise (· < ·)) {a b : α} (ha : a ∈ pts)
    (hb : b ∈ pts) (hab : a ≤ b) :
    (((segments pts).filter fun s => Covers (a, b) s).map fun s => s.2 - s.1).sum = b - a := by
  induction pts generalizing a with
  | nil => simp at ha
  | cons p pts ih =>
    have hlt : ∀ {y}, y ∈ pts → p < y := List.rel_of_pairwise_cons hp
    have hpa : p ≤ a := (List.mem_cons.mp ha).elim (fun h => h.ge) fun h => (hlt h).le
    cases pts with
    | nil =>
      obtain rfl : a = p := by simpa using ha
      obtain rfl : b = a := by simpa using hb
      simp
    | cons q pts =>
      have hrest : ∀ s ∈ segments (q :: pts), p < s.1 := fun s hs => hlt (mem_of_mem_segments hs).1
      rw [segments_cons_cons, List.filter_cons]
      rcases hpa.eq_or_lt with rfl | hpa
      · rcases hab.eq_or_lt with rfl | hab
        · have hnone : (segments (q :: pts)).filter (fun s => Covers (p, p) s) = [] := by
            refine List.filter_eq_nil_iff.mpr fun s hs => ?_
            have hlt := (hrest s hs).trans (segments_lt hp.of_cons hs)
            rw [decide_eq_true_eq]
            exact fun hc => hlt.not_ge hc.2
          have hq : ¬ Covers (p, p) (p, q) := fun hc => (hlt List.mem_cons_self).not_ge hc.2
          simp [hq, hnone]
        · have hb : b ∈ q :: pts := (List.mem_cons.mp hb).resolve_left hab.ne'
          have hqb : q ≤ b := (List.mem_cons.mp hb).elim (fun h => h.ge) fun h =>
            (List.rel_of_pairwise_cons hp.of_cons h).le
          have hsame : (segments (q :: pts)).filter (fun s => Covers (p, b) s) =
              (segments (q :: pts)).filter fun s => Covers (q, b) s := by
            refine List.filter_congr fun s hs => ?_
            have hqs : q ≤ s.1 := (List.mem_cons.mp (mem_of_mem_segments hs).1).elim
              (fun h => h.ge) fun h => (List.rel_of_pairwise_cons hp.of_cons h).le
            simp [Covers, (hrest s hs).le, hqs]
          rw [if_pos (by simpa [Covers] using hqb), List.map_cons, List.sum_cons, hsame,
            ih hp.of_cons List.mem_cons_self hb hqb]
          abel
      · have ha : a ∈ q :: pts := (List.mem_cons.mp ha).resolve_left hpa.ne'
        have hb : b ∈ q :: pts := (List.mem_cons.mp hb).resolve_left (hpa.trans_le hab).ne'
        rw [if_neg (by rw [decide_eq_true_eq]; exact fun hc => hpa.not_ge hc.1)]
        exact ih hp.of_cons ha hb hab

end Length

section Share

variable [Field α] [LinearOrder α] [IsStrictOrderedRing α]

/-- A segment's length, divided among the intervals that contain it. -/
def share (l : List (α × α)) (s : α × α) : α :=
  (s.2 - s.1) / (l.filter fun i => Covers i s).length

/-- What the intervals take of a segment is its length, once one of them contains it. -/
theorem sum_share (l : List (α × α)) (s : α × α) :
    ((l.filter fun i => Covers i s).map fun _ => share l s).sum =
      if ∃ i ∈ l, Covers i s then s.2 - s.1 else 0 := by
  by_cases h : ∃ i ∈ l, Covers i s
  · have hne : (l.filter fun i => Covers i s).length ≠ 0 := by
      obtain ⟨i, hi, hc⟩ := h
      exact (List.length_pos_of_mem (List.mem_filter.mpr ⟨hi, by simpa using hc⟩)).ne'
    rw [if_pos h, List.map_const', List.sum_replicate, nsmul_eq_mul, share,
      mul_div_cancel₀ _ (by exact_mod_cast hne)]
  · have hf : (l.filter fun i => Covers i s) = [] :=
      List.filter_eq_nil_iff.mpr fun i hi => by simpa using fun hc => h ⟨i, hi, hc⟩
    rw [if_neg h, hf, List.map_nil, List.sum_nil]

theorem share_nonneg {pts : List α} (hp : pts.Pairwise (· < ·)) (l : List (α × α)) {s : α × α}
    (hs : s ∈ segments pts) : 0 ≤ share l s :=
  div_nonneg (sub_nonneg.mpr (segments_lt hp hs).le) (Nat.cast_nonneg _)

theorem share_le {pts : List α} (hp : pts.Pairwise (· < ·)) {l : List (α × α)} {s i : α × α}
    (hs : s ∈ segments pts) (hi : i ∈ l) (hc : Covers i s) : share l s ≤ s.2 - s.1 := by
  refine div_le_self (sub_nonneg.mpr (segments_lt hp hs).le) ?_
  have : 0 < (l.filter fun i => Covers i s).length :=
    List.length_pos_of_mem (List.mem_filter.mpr ⟨hi, by simpa using hc⟩)
  exact_mod_cast this

end Share

end Sweep
