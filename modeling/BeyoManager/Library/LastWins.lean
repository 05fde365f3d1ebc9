import BeyoManager.Library.Dict
import BeyoManager.Library.Grouping
import BeyoManager.Library.Sorting
import Mathlib.Data.List.Induction

/-! # Last writer wins

A dictionary that is written once for each element of a list keeps, for every key, the
last element with that key, at the place where the key first appeared. A selection of
these elements is a compaction of the list: compacting it again changes nothing.
-/

namespace LastWins

open Grouping

variable {α κ : Type*} [DecidableEq κ] (key : α → κ)

def last? (l : List α) (k : κ) : Option α := (group key l k).getLast?

/-- The dictionary that each element is written to under its key. -/
def lastByKey (l : List α) : List (κ × α) := l.foldl (fun d x => Dict.set d (key x) x) []

/-- The last elements that are kept, in the order in which their keys first appear. -/
def compact (keep : α → Bool) (l : List α) : List α :=
  (keys key l).filterMap fun k => (last? key l k).filter keep

variable {key} {keep : α → Bool} {l : List α} {k : κ} {x : α}

section Last

theorem last?_append_singleton :
    last? key (l ++ [x]) k = if key x = k then some x else last? key l k := by
  unfold last? group
  by_cases h : key x = k <;> simp [List.filter_append, h]

theorem last?_eq_some_iff : last? key l k = some x ↔
    ∃ before after, l = before ++ x :: after ∧ key x = k ∧ ∀ y ∈ after, key y ≠ k := by
  induction l using List.reverseRecOn with
  | nil => simp [last?, group]
  | append_singleton l y ih =>
    rw [last?_append_singleton]
    constructor
    · intro h
      split at h
      · rename_i hy
        obtain rfl := Option.some.inj h
        exact ⟨l, [], rfl, hy, by simp⟩
      · rename_i hy
        obtain ⟨before, after, rfl, hx, hafter⟩ := ih.mp h
        refine ⟨before, after ++ [y], by simp, hx, ?_⟩
        intro z hz
        rcases List.mem_append.mp hz with hz | hz
        · exact hafter z hz
        · exact List.mem_singleton.mp hz ▸ hy
    · rintro ⟨before, after, heq, hx, hafter⟩
      rcases List.eq_nil_or_concat after with rfl | ⟨rest, z, rfl⟩
      · obtain ⟨-, rfl⟩ := List.append_inj' heq rfl |>.imp id List.singleton_inj.mp
        rw [if_pos hx]
      · have heq : l ++ [y] = (before ++ x :: rest) ++ [z] := by simpa using heq
        obtain ⟨rfl, hyz⟩ := List.append_inj' heq rfl
        obtain rfl := List.singleton_inj.mp hyz
        rw [if_neg (hafter y (by simp))]
        exact ih.mpr ⟨before, rest, rfl, hx, fun w hw => hafter w (by simp [hw])⟩

theorem mem_of_last? (h : last? key l k = some x) : x ∈ l := by
  obtain ⟨before, after, rfl, -, -⟩ := last?_eq_some_iff.mp h
  simp

theorem key_of_last? (h : last? key l k = some x) : key x = k :=
  (last?_eq_some_iff.mp h).choose_spec.choose_spec.2.1

theorem last?_eq_none_iff : last? key l k = none ↔ k ∉ keys key l := by
  rw [last?, List.getLast?_eq_none_iff, group_eq_nil]

end Last

section Written

theorem keys_append_of_mem (h : key x ∈ keys key l) : keys key (l ++ [x]) = keys key l := by
  have hmem : key x ∈ l.map key := List.mem_eraseDups.mp h
  have hrest : [key x].removeAll (l.map key) = [] := by
    rw [List.removeAll, List.filter_cons_of_neg (by simpa using hmem), List.filter_nil]
  unfold keys
  rw [List.map_append, List.eraseDups_append, List.map_singleton, hrest, List.eraseDups_nil,
    List.append_nil]

theorem keys_append_of_notMem (h : key x ∉ keys key l) :
    keys key (l ++ [x]) = keys key l ++ [key x] := by
  have hmem : key x ∉ l.map key := fun hx => h (List.mem_eraseDups.mpr hx)
  have hrest : [key x].removeAll (l.map key) = [key x] := by
    rw [List.removeAll, List.filter_cons_of_pos (by simpa using hmem), List.filter_nil]
  unfold keys
  rw [List.map_append, List.eraseDups_append, List.map_singleton, hrest]
  rfl

theorem keys_eq_map (hn : (l.map key).Nodup) : keys key l = l.map key := by
  induction l using List.reverseRecOn with
  | nil => rfl
  | append_singleton l x ih =>
    rw [List.map_append, List.map_singleton] at hn ⊢
    obtain ⟨hl, -, hdisjoint⟩ := List.nodup_append.mp hn
    have hx : key x ∉ keys key l := by
      rw [ih hl]
      exact fun hm => hdisjoint _ hm _ (List.mem_singleton.mpr rfl) rfl
    rw [keys_append_of_notMem hx, ih hl]

def entryOf (key : α → κ) (l : List α) (k : κ) : Option (κ × α) :=
  (last? key l k).map fun x => (k, x)

theorem exists_last?_of_mem (h : k ∈ keys key l) : ∃ x, last? key l k = some x := by
  cases hl : last? key l k with
  | none => exact absurd h (last?_eq_none_iff.mp hl)
  | some x => exact ⟨x, rfl⟩

theorem map_fst_entries : ((keys key l).filterMap (entryOf key l)).map Prod.fst = keys key l := by
  rw [List.map_filterMap]
  conv_rhs => rw [← List.filterMap_some (l := keys key l)]
  apply List.filterMap_congr
  intro k hk
  obtain ⟨x, hx⟩ := exists_last?_of_mem hk
  simp [entryOf, hx]

/-- The dictionary of the loop, read off the list. -/
theorem lastByKey_eq : lastByKey key l = (keys key l).filterMap (entryOf key l) := by
  induction l using List.reverseRecOn with
  | nil => rfl
  | append_singleton l x ih =>
    have hstep : lastByKey key (l ++ [x]) = Dict.set (lastByKey key l) (key x) x := by
      rw [lastByKey, List.foldl_append]
      rfl
    rw [hstep, ih, Dict.set]
    by_cases h : key x ∈ keys key l
    · rw [if_pos (by rwa [map_fst_entries]), keys_append_of_mem h, List.map_filterMap]
      apply List.filterMap_congr
      intro k hk
      obtain ⟨y, hy⟩ := exists_last?_of_mem hk
      unfold entryOf
      rw [last?_append_singleton, hy]
      by_cases hkx : key x = k
      · simp [hkx]
      · simp [hkx, Ne.symm hkx]
    · rw [if_neg (by rwa [map_fst_entries]), keys_append_of_notMem h, List.filterMap_append]
      congr 1
      · apply List.filterMap_congr
        intro k hk
        unfold entryOf
        rw [last?_append_singleton, if_neg fun he : key x = k => h (by rwa [he])]
      · simp [entryOf, last?_append_singleton]

theorem find?_lastByKey : (lastByKey key l).find? (fun e => e.1 = k) = entryOf key l k := by
  have hkey : ∀ e ∈ lastByKey key l, entryOf key l e.1 = some e := by
    intro e he
    rw [lastByKey_eq] at he
    obtain ⟨j, -, hj⟩ := List.mem_filterMap.mp he
    obtain ⟨x, hx, rfl⟩ := Option.map_eq_some_iff.mp hj
    exact hj
  cases hfind : (lastByKey key l).find? fun e => e.1 = k with
  | none =>
    have hnot : k ∉ keys key l := by
      intro hk
      rw [← map_fst_entries, ← lastByKey_eq] at hk
      obtain ⟨e, he, rfl⟩ := List.mem_map.mp hk
      simpa using List.find?_eq_none.mp hfind e he
    rw [entryOf, last?_eq_none_iff.mpr hnot, Option.map_none]
  | some e =>
    obtain rfl : e.1 = k := by simpa using List.find?_some hfind
    exact (hkey e (List.mem_of_find?_eq_some hfind)).symm

end Written

section Order

/-- The keys stand in the order of their first elements. -/
theorem pairwise_idxOf_keys :
    (keys key l).Pairwise fun j k => (l.map key).idxOf j < (l.map key).idxOf k := by
  induction l using List.reverseRecOn with
  | nil => simp [keys]
  | append_singleton l x ih =>
    have hold : ∀ k ∈ keys key l, ((l ++ [x]).map key).idxOf k = (l.map key).idxOf k := by
      intro k hk
      rw [List.map_append, List.idxOf_append_of_mem (List.mem_eraseDups.mp hk)]
    have hpairs : (keys key l).Pairwise fun j k =>
        ((l ++ [x]).map key).idxOf j < ((l ++ [x]).map key).idxOf k := by
      refine ih.imp_of_mem ?_
      intro j k hj hk hlt
      rwa [hold j hj, hold k hk]
    by_cases h : key x ∈ keys key l
    · rwa [keys_append_of_mem h]
    · rw [keys_append_of_notMem h, List.pairwise_append]
      refine ⟨hpairs, List.pairwise_singleton _ _, ?_⟩
      intro j hj k hk
      obtain rfl := List.mem_singleton.mp hk
      rw [hold j hj, List.map_append,
        List.idxOf_append_of_notMem fun hm => h (List.mem_eraseDups.mpr hm)]
      have hlt := List.idxOf_lt_length_iff.mpr (List.mem_eraseDups.mp hj)
      simp only [List.map_cons, List.map_nil, List.idxOf_cons_self, Nat.add_zero]
      omega

end Order

section Compact

theorem mem_compact : x ∈ compact key keep l ↔ last? key l (key x) = some x ∧ keep x := by
  unfold compact
  rw [List.mem_filterMap]
  constructor
  · rintro ⟨k, -, hx⟩
    obtain ⟨hlast, hkeep⟩ := Option.filter_eq_some_iff.mp hx
    obtain rfl := key_of_last? hlast
    exact ⟨hlast, hkeep⟩
  · rintro ⟨hlast, hkeep⟩
    have hmem : key x ∈ keys key l := mem_keys.mpr ⟨x, mem_of_last? hlast, rfl⟩
    exact ⟨key x, hmem, Option.filter_eq_some_iff.mpr ⟨hlast, hkeep⟩⟩

theorem map_key_compact : (compact key keep l).map key =
    (keys key l).filter fun k => (last? key l k).any keep := by
  unfold compact
  rw [List.map_filterMap, ← List.filterMap_eq_filter]
  apply List.filterMap_congr
  intro k _
  cases h : last? key l k with
  | none => simp [Option.guard, h]
  | some x =>
    obtain rfl := key_of_last? h
    cases hkeep : keep x <;> simp [Option.guard, h, hkeep]

theorem nodup_map_key_compact : ((compact key keep l).map key).Nodup := by
  rw [map_key_compact]
  exact keys_nodup.filter _

theorem last?_of_nodup (hn : (l.map key).Nodup) (hx : x ∈ l) : last? key l (key x) = some x := by
  obtain ⟨before, after, rfl⟩ := List.append_of_mem hx
  refine last?_eq_some_iff.mpr ⟨before, after, rfl, rfl, ?_⟩
  intro y hy he
  rw [List.map_append, List.map_cons, List.nodup_append] at hn
  exact (List.nodup_cons.mp hn.2.1).1 (he ▸ List.mem_map_of_mem hy)

theorem last?_compact : last? key (compact key keep l) k = (last? key l k).filter keep := by
  cases h : (last? key l k).filter keep with
  | none =>
    rw [last?_eq_none_iff, mem_keys]
    rintro ⟨x, hx, rfl⟩
    obtain ⟨hlast, hkeep⟩ := mem_compact.mp hx
    simp [hlast, hkeep] at h
  | some x =>
    obtain ⟨hlast, hkeep⟩ := Option.filter_eq_some_iff.mp h
    obtain rfl := key_of_last? hlast
    exact last?_of_nodup nodup_map_key_compact (mem_compact.mpr ⟨hlast, hkeep⟩)

theorem compact_eq_self (hn : (l.map key).Nodup) (hkeep : ∀ x ∈ l, keep x) :
    compact key keep l = l := by
  unfold compact
  rw [keys_eq_map hn, List.filterMap_map]
  conv_rhs => rw [← List.filterMap_some (l := l)]
  apply List.filterMap_congr
  intro x hx
  exact Option.filter_eq_some_iff.mpr ⟨last?_of_nodup hn hx, hkeep x hx⟩

theorem compact_compact {keep' : α → Bool} (h : ∀ x ∈ compact key keep l, keep' x) :
    compact key keep' (compact key keep l) = compact key keep l :=
  compact_eq_self nodup_map_key_compact h

end Compact

section Replay

variable {σ τ : Type*}

/-- When the elements with one key alone write a register of the state, and each writes it anew,
the register holds in the end what the last of them writes. -/
theorem foldl_register (register : σ → τ) (write : α → τ) {step : σ → α → σ}
    (hwrite : ∀ s, ∀ x ∈ l, key x = k → register (step s x) = write x)
    (hkeep : ∀ s, ∀ x ∈ l, key x ≠ k → register (step s x) = register s) (s : σ) :
    register (l.foldl step s) = ((last? key l k).map write).getD (register s) := by
  induction l using List.reverseRecOn with
  | nil => rfl
  | append_singleton l x ih =>
    rw [List.foldl_append, last?_append_singleton, List.foldl_cons, List.foldl_nil]
    by_cases h : key x = k
    · rw [if_pos h, hwrite _ x (by simp) h]
      rfl
    · rw [if_neg h, hkeep _ x (by simp) h]
      exact ih (fun s y hy => hwrite s y (by simp [hy])) fun s y hy => hkeep s y (by simp [hy])

end Replay

end LastWins
