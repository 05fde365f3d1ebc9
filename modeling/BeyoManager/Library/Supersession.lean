import BeyoManager.Library.Relational
import Mathlib.Logic.Relation

/-! # Superseded records

A table holds groups of records, of which one is current, and a record that was superseded points
to the one that came after it. Ending the current record of a group and adding a new one that it
points to keeps the pointers leading to the current record.
-/

namespace Supersession

open Relational Relation

variable {α κ γ : Type*}

/-- How a table of superseded records is read. The members of a group are the records whose
pointers are followed. -/
structure View (α κ γ : Type*) where
  key : α → κ
  group : α → γ
  member : α → Bool
  current : α → Bool
  next : α → Option κ

namespace View

variable {V : View α κ γ} {t : List α} {f : α → α} {n : α}

/-- A record points to another one. -/
def Follows (V : View α κ γ) (t : List α) (k k' : κ) : Prop :=
  ∃ r ∈ t, V.key r = k ∧ V.next r = some k'

/-- Each group has at most one current record, which points to none, and the pointers of its
members lead there. -/
structure Chained (V : View α κ γ) (t : List α) : Prop where
  keyed : Keyed V.key t
  single : ∀ a ∈ t, ∀ b ∈ t, V.current a → V.current b → V.group a = V.group b → a = b
  last : ∀ a ∈ t, V.current a → V.next a = none
  reaches : ∀ a ∈ t, V.member a → ∃ c ∈ t, V.current c ∧ V.group c = V.group a ∧
    ReflTransGen (V.Follows t) (V.key a) (V.key c)

theorem chained_nil : V.Chained [] := ⟨keyed_nil, by simp, by simp, by simp⟩

/-- A new current record is added to its group, and the one that was current points to it. -/
theorem Chained.advance (h : V.Chained t)
    (hkeep : ∀ a ∈ t, V.key (f a) = V.key a ∧ V.group (f a) = V.group a ∧
      V.member (f a) = V.member a)
    (hcurrent : ∀ a ∈ t, V.current (f a) ↔ V.current a ∧ V.group a ≠ V.group n)
    (hended : ∀ a ∈ t, V.current a → V.group a = V.group n → V.next (f a) = some (V.key n))
    (hother : ∀ a ∈ t, ¬ (V.current a ∧ V.group a = V.group n) → V.next (f a) = V.next a)
    (hn : V.current n) (hlast : V.next n = none) (hkeyed : Keyed V.key (t.map f ++ [n])) :
    V.Chained (t.map f ++ [n]) where
  keyed := hkeyed
  single a' ha' b' hb' hca hcb hg := by
    have hcase : ∀ c ∈ t.map f ++ [n], V.current c →
        (∃ a ∈ t, c = f a ∧ V.current a ∧ V.group a ≠ V.group n) ∨ c = n := by
      intro c hc hcur
      rcases List.mem_append.mp hc with hc | hc
      · obtain ⟨a, ha, rfl⟩ := List.mem_map.mp hc
        exact .inl ⟨a, ha, rfl, (hcurrent a ha).mp hcur⟩
      · exact .inr (List.mem_singleton.mp hc)
    rcases hcase a' ha' hca with ⟨a, ha, rfl, hcur, hne⟩ | rfl
    · rcases hcase b' hb' hcb with ⟨b, hb, rfl, hcurb, -⟩ | rfl
      · rw [(hkeep a ha).2.1, (hkeep b hb).2.1] at hg
        rw [h.single a ha b hb hcur hcurb hg]
      · exact absurd ((hkeep a ha).2.1.symm.trans hg) hne
    · rcases hcase b' hb' hcb with ⟨b, hb, rfl, -, hne⟩ | rfl
      · exact absurd ((hkeep b hb).2.1.symm.trans hg.symm) hne
      · rfl
  last a' ha' hcur := by
    rcases List.mem_append.mp ha' with ha' | ha'
    · obtain ⟨a, ha, rfl⟩ := List.mem_map.mp ha'
      obtain ⟨hcur, hne⟩ := (hcurrent a ha).mp hcur
      rw [hother a ha fun hc => hne hc.2]
      exact h.last a ha hcur
    · obtain rfl := List.mem_singleton.mp ha'
      exact hlast
  reaches a' ha' hmember := by
    have hmap : ∀ a ∈ t, f a ∈ t.map f ++ [n] := fun a ha =>
      List.mem_append_left _ (List.mem_map_of_mem ha)
    -- a current record points to none, so no pointer of an old path was rewritten
    have hlift : ∀ k k', V.Follows t k k' → V.Follows (t.map f ++ [n]) k k' := by
      rintro k k' ⟨r, hr, hk, hnext⟩
      refine ⟨f r, hmap r hr, (hkeep r hr).1.trans hk, ?_⟩
      rw [hother r hr fun hc => by cases (h.last r hr hc.1).symm.trans hnext]
      exact hnext
    rcases List.mem_append.mp ha' with ha' | ha'
    · obtain ⟨a, ha, rfl⟩ := List.mem_map.mp ha'
      obtain ⟨hkey, hgroup, hmem⟩ := hkeep a ha
      obtain ⟨c, hc, hcur, hg, hpath⟩ := h.reaches a ha (hmem ▸ hmember)
      have hpath' := ReflTransGen.mono hlift _ _ hpath
      rw [hkey, hgroup]
      by_cases hcn : V.group c = V.group n
      · refine ⟨n, List.mem_append_right _ (List.mem_singleton.mpr rfl), hn, hcn ▸ hg, ?_⟩
        exact hpath'.tail ⟨f c, hmap c hc, (hkeep c hc).1, hended c hc hcur hcn⟩
      · refine ⟨f c, hmap c hc, (hcurrent c hc).mpr ⟨hcur, hcn⟩, ?_, ?_⟩
        · rw [(hkeep c hc).2.1, hg]
        · rw [(hkeep c hc).1]
          exact hpath'
    · obtain rfl := List.mem_singleton.mp ha'
      exact ⟨a', List.mem_append_right _ ha', hn, rfl, .refl⟩

/-- How a record is ended, and how it comes to point to another one. -/
structure Ending (V : View α κ γ) (k : κ) (close link : α → α) : Prop where
  close_keep : ∀ a, V.key (close a) = V.key a ∧ V.group (close a) = V.group a ∧
    V.member (close a) = V.member a ∧ V.next (close a) = V.next a
  close_current : ∀ a, V.current (close a) = false
  link_keep : ∀ a, V.key (link a) = V.key a ∧ V.group (link a) = V.group a ∧
    V.member (link a) = V.member a ∧ V.current (link a) = V.current a
  link_next : ∀ a, V.next (link a) = some k

variable [DecidableEq κ]

/-- The statements that end the current record of a group, add the new one and, when there was a
current one, let it point there. -/
def supersede (V : View α κ γ) (isOpen : α → Bool) (close link : α → α) (n : α) (t : List α) :
    List α :=
  match t.find? isOpen with
  | none => updateWhere isOpen close t ++ [n]
  | some old => updateWhere (fun a => V.key a == V.key old) link (updateWhere isOpen close t ++ [n])

section Supersede

variable {isOpen : α → Bool} {close link : α → α} {old : α}

theorem supersede_of_none (h : t.find? isOpen = none) :
    V.supersede isOpen close link n t = updateWhere isOpen close t ++ [n] := by
  rw [View.supersede, h]

theorem supersede_of_some (h : t.find? isOpen = some old) : V.supersede isOpen close link n t =
    updateWhere (fun a => V.key a == V.key old) link (updateWhere isOpen close t ++ [n]) := by
  rw [View.supersede, h]

omit [DecidableEq κ] in
theorem key_ne_of_keyed (hclose : ∀ a, V.key (close a) = V.key a)
    (hkeyed : Keyed V.key (updateWhere isOpen close t ++ [n])) {a : α} (ha : a ∈ t) :
    V.key a ≠ V.key n := by
  obtain ⟨-, -, hdisjoint⟩ := keyed_append.mp hkeyed
  have hne := hdisjoint _ (mem_updateWhere_of_mem ha) n (List.mem_singleton.mpr rfl)
  split at hne
  · rwa [hclose] at hne
  · exact hne

theorem mem_supersede (hclose : ∀ a, V.key (close a) = V.key a)
    (hkeyed : Keyed V.key (updateWhere isOpen close t ++ [n])) :
    n ∈ V.supersede isOpen close link n t := by
  have hmem : n ∈ updateWhere isOpen close t ++ [n] :=
    List.mem_append_right _ (List.mem_singleton.mpr rfl)
  rcases hfind : t.find? isOpen with _ | old
  · rw [supersede_of_none hfind]
    exact hmem
  · rw [supersede_of_some hfind]
    refine mem_updateWhere.mpr ⟨n, hmem, if_neg ?_⟩
    simpa using (key_ne_of_keyed hclose hkeyed (List.mem_of_find?_eq_some hfind)).symm

theorem keys_supersede (hclose : ∀ a, V.key (close a) = V.key a)
    (hlink : ∀ a, V.key (link a) = V.key a) :
    (V.supersede isOpen close link n t).map V.key = t.map V.key ++ [V.key n] := by
  have hclosed : (updateWhere isOpen close t ++ [n]).map V.key = t.map V.key ++ [V.key n] := by
    rw [List.map_append, map_updateWhere_of_fixed fun a _ _ => hclose a, List.map_singleton]
  rcases hfind : t.find? isOpen with _ | old
  · rw [supersede_of_none hfind, hclosed]
  · rw [supersede_of_some hfind, map_updateWhere_of_fixed fun a _ _ => hlink a, hclosed]

end Supersede

theorem Chained.supersede (h : V.Chained t) {isOpen : α → Bool} {close link : α → α}
    (hend : V.Ending (V.key n) close link)
    (hopen : ∀ a ∈ t, isOpen a ↔ V.current a ∧ V.group a = V.group n) (hn : V.current n)
    (hlast : V.next n = none) (hkeyed : Keyed V.key (updateWhere isOpen close t ++ [n])) :
    V.Chained (V.supersede isOpen close link n t) := by
  have hclose : ∀ a ∈ t, ¬ (V.current a ∧ V.group a = V.group n) →
      (if isOpen a then close a else a) = a := fun a ha hnot => if_neg (mt (hopen a ha).mp hnot)
  rcases hfind : t.find? isOpen with _ | old
  · have hnone : ∀ a ∈ t, ¬ (V.current a ∧ V.group a = V.group n) := fun a ha hc =>
      List.find?_eq_none.mp hfind a ha ((hopen a ha).mpr hc)
    rw [supersede_of_none hfind]
    refine h.advance ?_ ?_ ?_ ?_ hn hlast hkeyed
    · intro a ha
      rw [hclose a ha (hnone a ha)]
      exact ⟨rfl, rfl, rfl⟩
    · intro a ha
      rw [hclose a ha (hnone a ha)]
      exact ⟨fun hc => ⟨hc, fun hg => hnone a ha ⟨hc, hg⟩⟩, fun hc => hc.1⟩
    · exact fun a ha hc hg => absurd ⟨hc, hg⟩ (hnone a ha)
    · intro a ha _
      rw [hclose a ha (hnone a ha)]
  · have hold := List.mem_of_find?_eq_some hfind
    have hcold := (hopen old hold).mp (List.find?_some hfind)
    have hself : ∀ a ∈ t, V.current a → V.group a = V.group n → a = old := fun a ha hc hg =>
      h.single a ha old hold hc hcold.1 (hg.trans hcold.2.symm)
    have hkey : ∀ a, V.key (if isOpen a then close a else a) = V.key a := by
      intro a
      split
      · exact (hend.close_keep a).1
      · rfl
    have hne : V.key n ≠ V.key old :=
      (key_ne_of_keyed (fun a => (hend.close_keep a).1) hkeyed hold).symm
    have hlist : updateWhere (fun a => V.key a == V.key old) link
        (updateWhere isOpen close t ++ [n]) = t.map (fun a =>
          if V.key a == V.key old then link (if isOpen a then close a else a)
          else if isOpen a then close a else a) ++ [n] := by
      rw [updateWhere, List.map_append, updateWhere, List.map_map]
      refine congrArg₂ (· ++ ·) (List.map_congr_left fun a _ => ?_) ?_
      · rw [Function.comp_apply, hkey]
      · rw [List.map_singleton, if_neg (by simpa using hne)]
    -- the old record is closed and linked, another one is left as it is
    have hother : ∀ a ∈ t, a ≠ old → (if V.key a == V.key old then
        link (if isOpen a then close a else a) else if isOpen a then close a else a) = a := by
      intro a ha hane
      rw [if_neg (by simpa using fun he => hane (h.keyed.inj ha hold he)), hclose a ha]
      exact fun hc => hane (hself a ha hc.1 hc.2)
    have hended : (if V.key old == V.key old then link (if isOpen old then close old else old) else
        if isOpen old then close old else old) = link (close old) := by
      rw [if_pos (beq_self_eq_true _), if_pos ((hopen old hold).mpr hcold)]
    rw [supersede_of_some hfind, hlist]
    refine h.advance ?_ ?_ ?_ ?_ hn hlast ?_
    · intro a ha
      by_cases hane : a = old
      · subst hane
        rw [hended]
        obtain ⟨hk, hg, hm, -⟩ := hend.link_keep (close a)
        obtain ⟨hk', hg', hm', -⟩ := hend.close_keep a
        exact ⟨hk.trans hk', hg.trans hg', hm.trans hm'⟩
      · rw [hother a ha hane]
        exact ⟨rfl, rfl, rfl⟩
    · intro a ha
      by_cases hane : a = old
      · subst hane
        rw [hended, (hend.link_keep _).2.2.2, hend.close_current]
        exact ⟨fun hc => by simp at hc, fun hc => absurd hcold.2 hc.2⟩
      · rw [hother a ha hane]
        exact ⟨fun hc => ⟨hc, fun hg => hane (hself a ha hc hg)⟩, fun hc => hc.1⟩
    · intro a ha hc hg
      obtain rfl := hself a ha hc hg
      rw [hended, hend.link_next]
    · intro a ha hnot
      by_cases hane : a = old
      · subst hane
        exact absurd hcold hnot
      · rw [hother a ha hane]
    · rw [← hlist]
      refine keyed_update hkeyed fun a _ _ => (hend.link_keep a).1

omit [DecidableEq κ] in
theorem Chained.countP_open (h : V.Chained t) {isOpen : α → Bool} {g : γ} {old : α}
    (hopen : ∀ a ∈ t, isOpen a → V.current a ∧ V.group a = g) (hold : t.find? isOpen = some old) :
    t.countP isOpen = 1 := by
  have hmem := List.mem_of_find?_eq_some hold
  have hopenOld := List.find?_some hold
  have hcold := hopen old hmem hopenOld
  have hsame : ∀ a ∈ t.filter isOpen, a = old := by
    intro a ha
    obtain ⟨ha, hao⟩ := List.mem_filter.mp ha
    obtain ⟨hc, hg⟩ := hopen a ha hao
    exact h.single a ha old hmem hc hcold.1 (hg.trans hcold.2.symm)
  have hnodup := h.keyed.nodup.filter isOpen
  rw [List.eq_replicate_of_mem hsame, List.nodup_replicate] at hnodup
  rw [List.countP_eq_length_filter]
  exact le_antisymm hnodup (List.length_pos_of_mem (List.mem_filter.mpr ⟨hmem, hopenOld⟩))

omit [DecidableEq κ] in
/-- A record that is neither a member nor current is added. -/
theorem Chained.append_other (h : V.Chained t) (hmember : V.member n = false)
    (hn : V.current n = false) (hkeyed : Keyed V.key (t ++ [n])) : V.Chained (t ++ [n]) where
  keyed := hkeyed
  single a ha b hb hca hcb hg := by
    have hcase : ∀ c ∈ t ++ [n], V.current c → c ∈ t := by
      intro c hc hcur
      rcases List.mem_append.mp hc with hc | hc
      · exact hc
      · obtain rfl := List.mem_singleton.mp hc
        exact absurd hcur (by simp [hn])
    exact h.single a (hcase a ha hca) b (hcase b hb hcb) hca hcb hg
  last a ha hcur := by
    rcases List.mem_append.mp ha with ha | ha
    · exact h.last a ha hcur
    · obtain rfl := List.mem_singleton.mp ha
      exact absurd hcur (by simp [hn])
  reaches a ha hmem := by
    rcases List.mem_append.mp ha with ha | ha
    · obtain ⟨c, hc, hcur, hg, hpath⟩ := h.reaches a ha hmem
      refine ⟨c, List.mem_append_left _ hc, hcur, hg, ReflTransGen.mono ?_ _ _ hpath⟩
      rintro k k' ⟨r, hr, hk, hnext⟩
      exact ⟨r, List.mem_append_left _ hr, hk, hnext⟩
    · obtain rfl := List.mem_singleton.mp ha
      exact absurd hmem (by simp [hmember])

omit [DecidableEq κ] in
/-- Records are rewritten, of which members stay what they are and others are not made current. -/
theorem Chained.map (h : V.Chained t)
    (hkeep : ∀ a ∈ t, V.key (f a) = V.key a ∧ V.group (f a) = V.group a ∧ V.next (f a) = V.next a)
    (hcurrent : ∀ a ∈ t, V.current (f a) → V.current a)
    (hmember : ∀ a ∈ t, V.member (f a) → V.member a ∧
      ∀ c ∈ t, V.group c = V.group a → V.current c → V.current (f c)) :
    V.Chained (t.map f) where
  keyed := h.keyed.of_map_eq (by
    rw [List.map_map]
    exact List.map_congr_left fun a ha => (hkeep a ha).1)
  single a' ha' b' hb' hca hcb hg := by
    obtain ⟨a, ha, rfl⟩ := List.mem_map.mp ha'
    obtain ⟨b, hb, rfl⟩ := List.mem_map.mp hb'
    rw [(hkeep a ha).2.1, (hkeep b hb).2.1] at hg
    rw [h.single a ha b hb (hcurrent a ha hca) (hcurrent b hb hcb) hg]
  last a' ha' hcur := by
    obtain ⟨a, ha, rfl⟩ := List.mem_map.mp ha'
    rw [(hkeep a ha).2.2]
    exact h.last a ha (hcurrent a ha hcur)
  reaches a' ha' hmem := by
    obtain ⟨a, ha, rfl⟩ := List.mem_map.mp ha'
    obtain ⟨hmem, hcur⟩ := hmember a ha hmem
    obtain ⟨c, hc, hcc, hg, hpath⟩ := h.reaches a ha hmem
    refine ⟨f c, List.mem_map_of_mem hc, hcur c hc hg hcc, ?_, ?_⟩
    · rw [(hkeep c hc).2.1, (hkeep a ha).2.1, hg]
    · rw [(hkeep a ha).1, (hkeep c hc).1]
      refine ReflTransGen.mono ?_ _ _ hpath
      rintro k k' ⟨r, hr, hk, hnext⟩
      exact ⟨f r, List.mem_map_of_mem hr, (hkeep r hr).1.trans hk, (hkeep r hr).2.2.trans hnext⟩

end View

end Supersession
