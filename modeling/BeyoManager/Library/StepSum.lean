import BeyoManager.Library.Segments
import Mathlib.Data.List.Dedup
import Mathlib.Data.List.Sort
import Mathlib.Tactic.Ring

/-! # Sums of step functions

A function that is constant between consecutive points and vanishes outside them has
one sum over the segments, whichever such points cut the line.
-/

namespace Sweep

open Set

variable {α : Type*} [Field α] {f g : α → α} {pts pts' : List α}

/-- The sum of the segments' lengths, each weighted by the value at its left end. -/
def stepSum (f : α → α) (pts : List α) : α :=
  ((segments pts).map fun s => (s.2 - s.1) * f s.1).sum

@[simp] theorem stepSum_nil : stepSum f [] = 0 := rfl

@[simp] theorem stepSum_singleton (a : α) : stepSum f [a] = 0 := rfl

theorem stepSum_cons_cons (a b : α) (pts : List α) :
    stepSum f (a :: b :: pts) = (b - a) * f a + stepSum f (b :: pts) := by
  simp [stepSum]

theorem stepSum_congr (h : ∀ s ∈ segments pts, f s.1 = g s.1) :
    stepSum f pts = stepSum g pts := by
  rw [stepSum, stepSum]
  exact congrArg List.sum (List.map_congr_left fun s hs => by rw [h s hs])

theorem stepSum_eq_zero (h : ∀ x ∈ pts, f x = 0) : stepSum f pts = 0 := by
  refine List.sum_eq_zero ?_
  simp only [List.mem_map, forall_exists_index, and_imp]
  rintro _ s hs rfl
  rw [h _ (mem_of_mem_segments hs).1, mul_zero]

theorem stepSum_add : stepSum (fun x => f x + g x) pts = stepSum f pts + stepSum g pts := by
  rw [stepSum, stepSum, stepSum, ← List.sum_map_add]
  exact congrArg List.sum (List.map_congr_left fun s _ => mul_add _ _ _)

variable [LinearOrder α]

/-- The points cut the function into constants, and nothing of it lies outside them. -/
structure StepOn (f : α → α) (pts : List α) : Prop where
  sorted : pts.Pairwise (· < ·)
  const : ∀ s ∈ segments pts, ∀ x ∈ Ico s.1 s.2, f x = f s.1
  outside : ∀ x, ((∀ p ∈ pts, x < p) ∨ ∀ p ∈ pts, p ≤ x) → f x = 0

/-- More points cut the same sum finer. -/
theorem stepSum_refine (hq : pts'.Pairwise (· < ·)) (hp : pts.Pairwise (· < ·))
    (hsub : pts ⊆ pts') (hc : ∀ s ∈ segments pts, ∀ x ∈ Ico s.1 s.2, f x = f s.1)
    (ho : ∀ x ∈ pts', ((∀ p ∈ pts, x < p) ∨ ∀ p ∈ pts, p ≤ x) → f x = 0) :
    stepSum f pts' = stepSum f pts := by
  induction pts' generalizing pts with
  | nil =>
    obtain rfl := List.subset_nil.mp hsub
    rfl
  | cons q rest ih =>
    have hlt : ∀ {y}, y ∈ rest → q < y := List.rel_of_pairwise_cons hq
    cases rest with
    | nil =>
      cases pts with
      | nil => rfl
      | cons p ps =>
        cases ps with
        | nil => rfl
        | cons p' ps =>
          have h1 : p = q := by simpa using hsub List.mem_cons_self
          have h2 : p' = q := by simpa using hsub (List.mem_cons_of_mem p List.mem_cons_self)
          have hpp : p < p' := List.rel_of_pairwise_cons hp List.mem_cons_self
          exact absurd hpp (by rw [h1, h2]; exact lt_irrefl q)
    | cons q' rest =>
      rw [stepSum_cons_cons]
      by_cases hmem : q ∈ pts
      · -- the first point of the finer list is the first of the coarser one
        obtain ⟨p, ps, rfl⟩ := List.exists_cons_of_ne_nil (List.ne_nil_of_mem hmem)
        obtain rfl : q = p := by
          rcases List.mem_cons.mp hmem with h | h
          · exact h
          · have hpq : p < q := List.rel_of_pairwise_cons hp h
            rcases List.mem_cons.mp (hsub List.mem_cons_self) with h' | h'
            · exact h'.symm
            · exact absurd (hlt h') hpq.not_gt
        have hps : ∀ y ∈ ps, q < y := fun y => List.rel_of_pairwise_cons hp
        have hsub' : ps ⊆ q' :: rest := fun y hy =>
          (List.mem_cons.mp (hsub (List.mem_cons_of_mem q hy))).resolve_left (hps y hy).ne'
        have hge : ∀ x ∈ q' :: rest, q' ≤ x := fun x hx => (List.mem_cons.mp hx).elim
          (fun h => h.ge) fun h => (List.rel_of_pairwise_cons hq.of_cons h).le
        cases ps with
        | nil =>
          have hz : ∀ x ∈ q :: q' :: rest, f x = 0 := fun x hx => ho x hx <| .inr fun p hp' => by
            rw [List.mem_singleton.mp hp']
            exact (List.mem_cons.mp hx).elim (fun h => h.ge) fun h => (hlt h).le
          rw [hz q List.mem_cons_self, mul_zero, zero_add, stepSum_singleton]
          exact stepSum_eq_zero fun x hx => hz x (List.mem_cons_of_mem q hx)
        | cons p ps =>
          have hqp : q < p := hps p List.mem_cons_self
          have hq'p : q' ≤ p := hge p (hsub' List.mem_cons_self)
          rw [stepSum_cons_cons]
          rcases hq'p.eq_or_lt with rfl | hq'p
          · rw [ih hq.of_cons hp.of_cons hsub' (fun s hs => hc s (List.mem_cons_of_mem _ hs))]
            intro x hx hout
            rcases hout with hout | hout
            · exact absurd (hout q' List.mem_cons_self) (hge x hx).not_gt
            · refine ho x (List.mem_cons_of_mem q hx) (.inr fun y hy => ?_)
              rcases List.mem_cons.mp hy with rfl | hy
              · exact (hlt List.mem_cons_self).le.trans (hge x hx)
              · exact hout y hy
          · have hfq : f q' = f q := hc (q, p) List.mem_cons_self q'
              ⟨(hlt List.mem_cons_self).le, hq'p⟩
            have hp' : (q' :: p :: ps).Pairwise (· < ·) := by
              refine List.pairwise_cons.mpr ⟨fun y hy => ?_, hp.of_cons⟩
              exact (List.mem_cons.mp hy).elim (fun h => h ▸ hq'p) fun h =>
                hq'p.trans (List.rel_of_pairwise_cons hp.of_cons h)
            have hrest := ih hq.of_cons hp' (List.cons_subset.mpr ⟨List.mem_cons_self, hsub'⟩)
              (fun s hs x hx => ?_) fun x hx hout => ?_
            · rw [hrest, stepSum_cons_cons, hfq]
              ring
            · rcases mem_segments_cons.mp hs with rfl | hs
              · rw [hfq]
                exact hc (q, p) List.mem_cons_self x
                  ⟨(hlt List.mem_cons_self).le.trans hx.1, hx.2⟩
              · exact hc s (List.mem_cons_of_mem _ hs) x hx
            · rcases hout with hout | hout
              · exact absurd (hout q' List.mem_cons_self) (hge x hx).not_gt
              · refine ho x (List.mem_cons_of_mem q hx) (.inr fun y hy => ?_)
                rcases List.mem_cons.mp hy with rfl | hy
                · exact (hlt List.mem_cons_self).le.trans (hge x hx)
                · exact hout y (List.mem_cons_of_mem q' hy)
      · have hsub' : pts ⊆ q' :: rest := fun y hy =>
          (List.mem_cons.mp (hsub hy)).resolve_left fun h => hmem (h ▸ hy)
        have hfq : f q = 0 := ho q List.mem_cons_self (.inl fun p hp' => hlt (hsub' hp'))
        rw [hfq, mul_zero, zero_add]
        exact ih hq.of_cons hp hsub' hc fun x hx => ho x (List.mem_cons_of_mem q hx)

/-- All the points of several lists, in order. -/
def merged (l : List α) : List α := l.dedup.insertionSort (· ≤ ·)

omit [Field α] in
theorem merged_sorted (l : List α) : (merged l).Pairwise (· < ·) := by
  have hle := List.pairwise_insertionSort (· ≤ ·) l.dedup
  have hne : (merged l).Nodup := (List.perm_insertionSort _ _).nodup_iff.mpr (List.nodup_dedup _)
  exact (hle.and hne).imp fun h => lt_of_le_of_ne h.1 h.2

omit [Field α] in
theorem mem_merged {l : List α} {x : α} : x ∈ merged l ↔ x ∈ l := by
  rw [merged, List.mem_insertionSort, List.mem_dedup]

theorem StepOn.stepSum_merged (h : StepOn f pts) {l : List α} (hl : pts ⊆ l) :
    stepSum f (merged l) = stepSum f pts :=
  stepSum_refine (merged_sorted l) h.sorted (fun _ hx => mem_merged.mpr (hl hx)) h.const
    fun x _ => h.outside x

theorem StepOn.stepSum_eq (h : StepOn f pts) (h' : StepOn f pts') :
    stepSum f pts = stepSum f pts' := by
  rw [← h.stepSum_merged (List.subset_append_left pts pts'),
    ← h'.stepSum_merged (List.subset_append_right pts pts')]

theorem StepOn.stepSum_eq_add {h : α → α} {pts'' : List α} (hh : StepOn h pts'')
    (hf : StepOn f pts) (hg : StepOn g pts') (hadd : ∀ x, h x = f x + g x) :
    stepSum h pts'' = stepSum f pts + stepSum g pts' := by
  have hsum : stepSum h (merged (pts ++ pts' ++ pts'')) =
      stepSum (fun x => f x + g x) (merged (pts ++ pts' ++ pts'')) :=
    stepSum_congr fun s _ => hadd s.1
  rw [← hh.stepSum_merged (List.subset_append_right (pts ++ pts') pts''), hsum, stepSum_add,
    hf.stepSum_merged, hg.stepSum_merged]
  · exact fun x hx => List.mem_append_left _ (List.mem_append_right _ hx)
  · exact fun x hx => List.mem_append_left _ (List.mem_append_left _ hx)

theorem stepOn_indicator {a b : α} (hab : a < b) (c : α) :
    StepOn (fun x => if a ≤ x ∧ x < b then c else 0) [a, b] := by
  constructor
  · simpa using hab
  · intro s hs x hx
    obtain rfl : s = (a, b) := by simpa using hs
    simp only [if_pos (show a ≤ x ∧ x < b from hx), if_pos (show a ≤ a ∧ a < b from ⟨le_rfl, hab⟩)]
  · rintro x (hx | hx)
    · exact if_neg fun h => (hx a (by simp)).not_ge h.1
    · exact if_neg fun h => (hx b (by simp)).not_gt h.2

end Sweep
