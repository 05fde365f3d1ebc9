import Mathlib.MeasureTheory.Measure.Lebesgue.Basic
import BeyoManager.Library.Segments

/-! # The measure of a sweep

The measure of a union of intervals between boundary points is the sum over the segments
that some interval contains.
-/

namespace Sweep

open MeasureTheory Set

variable {α β : Type*}

section Measure

variable [MeasurableSpace α] (μ : Measure α)

theorem measure_biUnion_list {l : List β} {f : β → Set α} (hf : ∀ b ∈ l, MeasurableSet (f b))
    (hd : l.Pairwise fun b c => Disjoint (f b) (f c)) :
    μ (⋃ b ∈ l, f b) = (l.map fun b => μ (f b)).sum := by
  induction l with
  | nil => simp
  | cons b l ih =>
    obtain ⟨hb, hd⟩ := List.pairwise_cons.mp hd
    have hf' : ∀ c ∈ l, MeasurableSet (f c) := fun c hc => hf c (List.mem_cons_of_mem b hc)
    have hu : ⋃ c ∈ b :: l, f c = f b ∪ ⋃ c ∈ l, f c := by ext x; simp
    rw [hu, measure_union' ?_ (hf b List.mem_cons_self), ih hf' hd, List.map_cons, List.sum_cons]
    exact Set.disjoint_iUnion₂_right.mpr hb

theorem measure_iUnion_Ico [LinearOrder α] [TopologicalSpace α] [OrderClosedTopology α]
    [OpensMeasurableSpace α] {pts : List α} (hp : pts.Pairwise (· < ·)) {l : List (α × α)}
    (hl : ∀ i ∈ l, i.1 ∈ pts ∧ i.2 ∈ pts) :
    μ (⋃ i ∈ l, Ico i.1 i.2) =
      (((segments pts).filter fun s => ∃ i ∈ l, Covers i s).map fun s => μ (Ico s.1 s.2)).sum := by
  rw [iUnion_Ico_eq hp hl]
  exact measure_biUnion_list μ (fun _ _ => measurableSet_Ico) ((segments_disjoint hp).filter _)

end Measure

/-- The length of a union of rational intervals, as a sum over rational segments. -/
theorem volume_iUnion_Ico {pts : List ℚ} (hp : pts.Pairwise (· < ·)) {l : List (ℚ × ℚ)}
    (hl : ∀ i ∈ l, i.1 ∈ pts ∧ i.2 ∈ pts) :
    volume (⋃ i ∈ l, Ico (i.1 : ℝ) i.2) =
      ENNReal.ofReal ((segments pts).map fun s =>
        if ∃ i ∈ l, Covers i s then s.2 - s.1 else 0).sum := by
  have hp' : (pts.map ((↑) : ℚ → ℝ)).Pairwise (· < ·) :=
    List.pairwise_map.mpr (hp.imp fun h => by exact_mod_cast h)
  have hl' : ∀ i ∈ l.map (Prod.map ((↑) : ℚ → ℝ) (↑)),
      i.1 ∈ pts.map ((↑) : ℚ → ℝ) ∧ i.2 ∈ pts.map ((↑) : ℚ → ℝ) := by
    simp only [List.mem_map, forall_exists_index, and_imp]
    rintro _ i hi rfl
    exact ⟨⟨_, (hl i hi).1, rfl⟩, ⟨_, (hl i hi).2, rfl⟩⟩
  have hu : ⋃ i ∈ l, Ico (i.1 : ℝ) i.2 =
      ⋃ i ∈ l.map (Prod.map ((↑) : ℚ → ℝ) (↑)), Ico i.1 i.2 := by
    ext x; simp
  have hc : ∀ s : ℚ × ℚ, (∃ i ∈ l.map (Prod.map ((↑) : ℚ → ℝ) (↑)),
      Covers i (Prod.map ((↑) : ℚ → ℝ) (↑) s)) ↔ ∃ i ∈ l, Covers i s := by
    intro s
    simp [Covers]
  rw [hu, measure_iUnion_Ico volume hp' hl', segments_map, List.filter_map, List.map_map]
  have hsum : ∀ t : List (ℚ × ℚ), t ⊆ segments pts →
      ((t.filter fun s => ∃ i ∈ l, Covers i s).map fun s : ℚ × ℚ =>
        volume (Ico (s.1 : ℝ) s.2)).sum = ENNReal.ofReal (t.map fun s =>
          if ∃ i ∈ l, Covers i s then s.2 - s.1 else 0).sum := by
    intro t ht
    induction t with
    | nil => simp
    | cons s t ih =>
      have ih := ih fun r hr => ht (List.mem_cons_of_mem s hr)
      have hlen : 0 ≤ s.2 - s.1 := sub_nonneg.mpr (segments_lt hp (ht List.mem_cons_self)).le
      by_cases h : ∃ i ∈ l, Covers i s
      · have hrest : 0 ≤ (t.map fun s => if ∃ i ∈ l, Covers i s then s.2 - s.1 else 0).sum := by
          refine List.sum_nonneg ?_
          simp only [List.mem_map, forall_exists_index, and_imp]
          rintro _ r hr rfl
          split
          · exact sub_nonneg.mpr (segments_lt hp (ht (List.mem_cons_of_mem s hr))).le
          · exact le_rfl
        rw [List.filter_cons_of_pos (by simpa using h), List.map_cons, List.sum_cons, ih,
          List.map_cons, List.sum_cons, if_pos h, Rat.cast_add,
          ENNReal.ofReal_add (by exact_mod_cast hlen) (by exact_mod_cast hrest),
          Real.volume_Ico, Rat.cast_sub]
      · rw [List.filter_cons_of_neg (by simpa using h), ih, List.map_cons, List.sum_cons,
          if_neg h, zero_add]
  rw [← hsum _ (List.Subset.refl _)]
  congr 2
  exact List.filter_congr fun s _ => by simpa using hc s

end Sweep
