import Mathlib.Algebra.BigOperators.Group.List.Basic
import Mathlib.Data.List.Nodup

/-! # Grouping a list by a key

The groups stand in the order in which their keys first appear, and each group keeps
the order of the list. Sums over the groups are sums over the list.
-/

namespace Grouping

theorem nodup_eraseDups {κ : Type*} [BEq κ] [LawfulBEq κ] : ∀ l : List κ, l.eraseDups.Nodup
  | [] => List.nodup_nil
  | a :: l => by
    rw [List.eraseDups_cons]
    refine List.nodup_cons.mpr ⟨fun ha => ?_, nodup_eraseDups _⟩
    simpa using (List.mem_filter.mp (List.mem_eraseDups.mp ha)).2
termination_by l => l.length
decreasing_by exact Nat.lt_succ_of_le (List.length_filter_le _ l)

variable {α κ M : Type*} [DecidableEq κ]

/-- The members of the list that have one key. -/
def group (key : α → κ) (l : List α) (k : κ) : List α := l.filter fun x => key x = k

/-- The keys of the list, each once, in order of first appearance. -/
def keys (key : α → κ) (l : List α) : List κ := (l.map key).eraseDups

variable {key : α → κ} {l : List α} {k : κ}

theorem mem_keys : k ∈ keys key l ↔ ∃ x ∈ l, key x = k := by
  simp [keys, List.mem_eraseDups]

theorem keys_nodup : (keys key l).Nodup := nodup_eraseDups _

theorem mem_group {x : α} : x ∈ group key l k ↔ x ∈ l ∧ key x = k := by
  simp [group]

theorem group_eq_nil : group key l k = [] ↔ k ∉ keys key l := by
  rw [mem_keys, group, List.filter_eq_nil_iff]
  simp

omit [DecidableEq κ] in
theorem flatMap_eq_of_unique {β : Type*} {ks : List κ} (hn : ks.Nodup) (hk : k ∈ ks)
    {f : κ → List β} (h : ∀ j ∈ ks, j ≠ k → f j = []) : ks.flatMap f = f k := by
  induction ks with
  | nil => simp at hk
  | cons j ks ih =>
    obtain ⟨hj, hn⟩ := List.nodup_cons.mp hn
    rw [List.flatMap_cons]
    rcases List.mem_cons.mp hk with rfl | hk
    · have hr : ks.flatMap f = [] := List.flatMap_eq_nil_iff.mpr fun i hi =>
        h i (List.mem_cons_of_mem k hi) fun he => hj (he ▸ hi)
      rw [hr, List.append_nil]
    · have hjk : j ≠ k := fun he => hj (he ▸ hk)
      rw [h j List.mem_cons_self hjk, List.nil_append]
      exact ih hn hk fun i hi => h i (List.mem_cons_of_mem j hi)

theorem sum_group [AddCommMonoid M] (w : α → M) {ks : List κ} (hn : ks.Nodup)
    (hk : ∀ x ∈ l, key x ∈ ks) :
    (ks.map fun k => ((group key l k).map w).sum).sum = (l.map w).sum := by
  induction l with
  | nil => simp [group]
  | cons x l ih =>
    have hx : ∀ k, ((group key (x :: l) k).map w).sum =
        (if k = key x then w x else 0) + ((group key l k).map w).sum := by
      intro k
      by_cases h : key x = k
      · simp [group, h]
      · simp [group, h, Ne.symm h]
    have hone : (ks.map fun k => if k = key x then w x else 0).sum = w x := by
      have hmem : key x ∈ ks := hk x List.mem_cons_self
      rw [List.sum_map_eq_nsmul_single (key x) _ fun j hj _ => if_neg hj,
        List.count_eq_one_of_mem hn hmem, one_nsmul, if_pos rfl]
    simp only [hx, List.sum_map_add, hone, ih fun y hy => hk y (List.mem_cons_of_mem x hy),
      List.map_cons, List.sum_cons]

theorem flatMap_group_perm [DecidableEq α] {ks : List κ} (hn : ks.Nodup)
    (hk : ∀ x ∈ l, key x ∈ ks) : (ks.flatMap (group key l)).Perm l := by
  refine List.perm_iff_count.mpr fun a => ?_
  have hone : ∀ k, (group key l k).count a = if k = key a then l.count a else 0 := by
    intro k
    by_cases h : k = key a
    · rw [if_pos h, group, List.count_filter (by simp [h])]
    · rw [if_neg h]
      exact List.count_eq_zero.mpr fun hm => h (mem_group.mp hm).2.symm
  rw [List.count_flatMap]
  simp only [Function.comp_def, hone]
  rw [List.sum_map_eq_nsmul_single (key a) _ fun j hj _ => if_neg hj, if_pos rfl]
  by_cases ha : a ∈ l
  · rw [List.count_eq_one_of_mem hn (hk a ha), one_nsmul]
  · rw [List.count_eq_zero.mpr ha, nsmul_zero]

end Grouping
