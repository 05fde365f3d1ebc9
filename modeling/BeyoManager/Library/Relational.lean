import Mathlib.Algebra.BigOperators.Group.List.Basic
import Mathlib.Data.List.Nodup
import Mathlib.Data.List.Perm.Subperm
import Mathlib.Tactic.Abel

/-! # Relational tables

A table is a list of records. The statements of a relational store are maps and
filters of that list; a keyed table has no two records with one key. Totals of a
weight over a keyed table change by a difference when one record is rewritten. A query
with a limit and no order returns some of its rows, each once.
-/

namespace Relational

variable {α β κ ε M : Type*}

/-- `UPDATE … SET f WHERE p`. -/
def updateWhere (p : α → Bool) (f : α → α) (t : List α) : List α :=
  t.map fun x => if p x then f x else x

/-- `DELETE … WHERE p`. -/
def deleteWhere (p : α → Bool) (t : List α) : List α :=
  t.filter fun x => !p x

/-- No two records of the table have one key. -/
def Keyed (key : α → κ) (t : List α) : Prop :=
  (t.map key).Nodup

instance [DecidableEq κ] (key : α → κ) (t : List α) : Decidable (Keyed key t) :=
  inferInstanceAs (Decidable (t.map key).Nodup)

/-- `INSERT` of several records; the statement fails when a key is taken. -/
def insertRecords [DecidableEq κ] (key : α → κ) (e : ε) (new t : List α) : Except ε (List α) :=
  if Keyed key (t ++ new) then .ok (t ++ new) else .error e

/-- The sum of a weight over the records of a table. -/
def total [AddCommMonoid M] (w : α → M) (t : List α) : M :=
  (t.map w).sum

section Update

variable {p : α → Bool} {f : α → α} {t : List α}

theorem mem_updateWhere {y : α} :
    y ∈ updateWhere p f t ↔ ∃ x ∈ t, (if p x then f x else x) = y := by
  simp [updateWhere]

theorem mem_updateWhere_of_mem {x : α} (hx : x ∈ t) :
    (if p x then f x else x) ∈ updateWhere p f t :=
  mem_updateWhere.mpr ⟨x, hx, rfl⟩

@[simp] theorem updateWhere_nil : updateWhere p f ([] : List α) = [] := rfl

@[simp] theorem updateWhere_id : updateWhere p id t = t := by
  simp [updateWhere]

@[simp] theorem length_updateWhere : (updateWhere p f t).length = t.length := by
  simp [updateWhere]

theorem map_updateWhere_of_fixed {g : α → β} (h : ∀ x ∈ t, p x → g (f x) = g x) :
    (updateWhere p f t).map g = t.map g := by
  rw [updateWhere, List.map_map]
  refine List.map_congr_left fun x hx => ?_
  by_cases hp : p x
  · simp [hp, h x hx hp]
  · simp [hp]

theorem updateWhere_of_forall_not (h : ∀ x ∈ t, p x = false) : updateWhere p f t = t := by
  rw [updateWhere]
  conv_rhs => rw [← List.map_id t]
  exact List.map_congr_left fun x hx => by simp [h x hx]

theorem updateWhere_updateWhere {g : α → α} (h : ∀ x ∈ t, p x → p (f x)) :
    updateWhere p g (updateWhere p f t) = updateWhere p (fun x => g (f x)) t := by
  rw [updateWhere, updateWhere, List.map_map]
  refine List.map_congr_left fun x hx => ?_
  by_cases hp : p x
  · simp [hp, h x hx hp]
  · simp [hp]

theorem updateWhere_congr {g : α → α} (h : ∀ x ∈ t, p x → f x = g x) :
    updateWhere p f t = updateWhere p g t :=
  List.map_congr_left fun x hx => by
    by_cases hp : p x
    · simp [hp, h x hx hp]
    · simp [hp]

theorem filter_updateWhere {q : α → Bool} (h : ∀ x ∈ t, p x → q (f x) = q x) :
    (updateWhere p f t).filter q = updateWhere p f (t.filter q) := by
  induction t with
  | nil => rfl
  | cons x t ih =>
    have ih := ih fun y hy => h y (List.mem_cons_of_mem x hy)
    have hx := h x List.mem_cons_self
    have hq : q (if p x then f x else x) = q x := by
      by_cases hp : p x
      · simp [hp, hx hp]
      · simp [hp]
    simp only [updateWhere, List.map_cons, List.filter_cons, hq] at ih ⊢
    split
    · simp [ih]
    · exact ih

theorem filter_updateWhere_of_not {q : α → Bool} (h : ∀ x ∈ t, p x → q (f x) = false) :
    (updateWhere p f t).filter q = (t.filter q).filter fun x => !p x := by
  induction t with
  | nil => rfl
  | cons x t ih =>
    have ih := ih fun y hy => h y (List.mem_cons_of_mem x hy)
    have hx := h x List.mem_cons_self
    rw [updateWhere, List.map_cons, List.filter_cons, ← updateWhere, ih, List.filter_cons]
    cases hp : p x with
    | true => cases hq : q x <;> simp [hp, hx hp]
    | false => cases hq : q x <;> simp [hp, hq]

theorem keyed_update {key : α → κ} (hk : Keyed key t) (h : ∀ x ∈ t, p x → key (f x) = key x) :
    Keyed key (updateWhere p f t) := by
  rw [Keyed, map_updateWhere_of_fixed h]
  exact hk

theorem countP_or_of_disjoint {q : α → Bool} (h : ∀ x ∈ t, p x → q x = false) :
    t.countP (fun x => p x || q x) = t.countP p + t.countP q := by
  induction t with
  | nil => rfl
  | cons x t ih =>
    rw [List.countP_cons, List.countP_cons, List.countP_cons,
      ih fun y hy => h y (List.mem_cons_of_mem x hy)]
    cases hp : p x with
    | true =>
      rw [h x List.mem_cons_self hp]
      simp only [Bool.or_false, if_true, Bool.false_eq_true, if_false]
      omega
    | false =>
      rw [Bool.false_or]
      simp only [Bool.false_eq_true, if_false]
      omega

end Update

section Keyed

variable {key : α → κ} {t : List α}

theorem Keyed.inj (hk : Keyed key t) {x y : α} (hx : x ∈ t) (hy : y ∈ t)
    (h : key x = key y) : x = y :=
  List.inj_on_of_nodup_map hk hx hy h

theorem Keyed.nodup (hk : Keyed key t) : t.Nodup := List.Nodup.of_map key hk

theorem keyed_filter (hk : Keyed key t) (q : α → Bool) : Keyed key (t.filter q) :=
  hk.sublist (List.filter_sublist.map key)

theorem Keyed.of_map_eq (hk : Keyed key t) {s : List α} (h : s.map key = t.map key) :
    Keyed key s := by
  rw [Keyed, h]
  exact hk

theorem Keyed.perm (hk : Keyed key t) {s : List α} (h : s.Perm t) : Keyed key s :=
  (h.map key).nodup_iff.mpr hk

theorem keyed_delete (hk : Keyed key t) (q : α → Bool) : Keyed key (deleteWhere q t) :=
  keyed_filter hk _

@[simp] theorem keyed_nil : Keyed key ([] : List α) := List.nodup_nil

theorem keyed_append {s : List α} :
    Keyed key (t ++ s) ↔ Keyed key t ∧ Keyed key s ∧ ∀ x ∈ t, ∀ y ∈ s, key x ≠ key y := by
  rw [Keyed, List.map_append, List.nodup_append]
  simp only [List.mem_map, Keyed, ne_eq]
  constructor
  · rintro ⟨ht, hs, hd⟩
    exact ⟨ht, hs, fun x hx y hy => hd _ ⟨x, hx, rfl⟩ _ ⟨y, hy, rfl⟩⟩
  · rintro ⟨ht, hs, hd⟩
    refine ⟨ht, hs, ?_⟩
    rintro _ ⟨x, hx, rfl⟩ _ ⟨y, hy, rfl⟩
    exact hd x hx y hy

theorem mem_deleteWhere {q : α → Bool} {x : α} : x ∈ deleteWhere q t ↔ x ∈ t ∧ q x = false := by
  simp [deleteWhere]

theorem insertRecords_eq_ok [DecidableEq κ] {e : ε} {new t' : List α} :
    insertRecords key e new t = .ok t' ↔ Keyed key (t ++ new) ∧ t' = t ++ new := by
  unfold insertRecords
  split
  · rename_i h; simp [h, eq_comm]
  · rename_i h; simp [h]

theorem Keyed.find?_eq [BEq κ] [LawfulBEq κ] (hk : Keyed key t) {x : α} (hx : x ∈ t) :
    t.find? (fun y => key y == key x) = some x := by
  cases hf : t.find? (fun y => key y == key x) with
  | none => simpa using List.find?_eq_none.mp hf x hx
  | some y =>
    have hy : key y = key x := by simpa using List.find?_some hf
    rw [hk.inj (List.mem_of_find?_eq_some hf) hx hy]

theorem mem_of_find?_key [BEq κ] [LawfulBEq κ] {k : κ} {x : α}
    (h : t.find? (fun y => key y == k) = some x) : x ∈ t ∧ key x = k :=
  ⟨List.mem_of_find?_eq_some h, by simpa using List.find?_some h⟩

theorem Keyed.filter_eq_toList_find? [BEq κ] [LawfulBEq κ] (hk : Keyed key t) (k : κ) :
    t.filter (fun x => key x == k) = (t.find? fun x => key x == k).toList := by
  induction t with
  | nil => rfl
  | cons x t ih =>
    obtain ⟨hx, ht⟩ := List.nodup_cons.mp (show (key x :: t.map key).Nodup from hk)
    by_cases hxk : key x = k
    · have hnone : t.filter (fun y => key y == k) = [] := by
        refine List.filter_eq_nil_iff.mpr fun y hy hyk => hx ?_
        rw [hxk, ← beq_iff_eq.mp hyk]
        exact List.mem_map_of_mem hy
      simp [hxk, hnone]
    · simpa [hxk] using ih ht

/-- After a statement on the record under one key, a record is the rewritten one or another. -/
theorem Keyed.mem_update [DecidableEq κ] (hk : Keyed key t) {x y : α} (hx : x ∈ t) {f : α → α}
    (hy : y ∈ updateWhere (fun z => key z == key x) f t) : y = f x ∨ y ∈ t ∧ key y ≠ key x := by
  obtain ⟨z, hz, rfl⟩ := mem_updateWhere.mp hy
  by_cases hzx : key z = key x
  · obtain rfl := hk.inj hz hx hzx
    exact .inl (if_pos (by simp))
  · rw [if_neg (by simpa using hzx)]
    exact .inr ⟨hz, hzx⟩

theorem Keyed.perm_cons [DecidableEq κ] (hk : Keyed key t) {x : α} (hx : x ∈ t) :
    t.Perm (x :: t.filter (fun y => key y ≠ key x)) := by
  induction t with
  | nil => simp at hx
  | cons a t ih =>
    have hnd := List.nodup_cons.mp (show ((a :: t).map key).Nodup from hk)
    rcases List.mem_cons.mp hx with rfl | hxt
    · have hf : t.filter (fun y => key y ≠ key x) = t := by
        refine List.filter_eq_self.mpr fun y hy => ?_
        have : key y ≠ key x := fun he => hnd.1 (he ▸ List.mem_map_of_mem hy)
        simpa using this
      rw [List.filter_cons_of_neg (by simp), hf]
    · have hne : key a ≠ key x := fun he => hnd.1 (he ▸ List.mem_map_of_mem hxt)
      have hp := ih hnd.2 hxt
      rw [List.filter_cons_of_pos (by simpa using hne)]
      exact (hp.cons a).trans (List.Perm.swap x a _)

/-- One statement on a record for each of several references to it is one statement that is
iterated as often as the record is referred to. -/
theorem foldl_updateWhere_iterate {β : Type*} [DecidableEq κ] {f : α → α} (keyOf : β → κ)
    (hf : ∀ x, key (f x) = key x) (l : List β) (t : List α) :
    l.foldl (fun t b => updateWhere (fun x => key x == keyOf b) f t) t =
      t.map fun x => f^[l.countP fun b => keyOf b == key x] x := by
  induction l generalizing t with
  | nil => simp
  | cons b l ih =>
    rw [List.foldl_cons, ih, updateWhere, List.map_map]
    refine List.map_congr_left fun x _ => ?_
    rw [Function.comp_apply, List.countP_cons]
    by_cases hx : key x = keyOf b
    · simp [hx, hf, Function.iterate_succ_apply]
    · simp [hx, Ne.symm hx]

theorem apply_iterate_of_fixed {f : α → α} {g : α → β} (h : ∀ x, g (f x) = g x) (n : ℕ) (x : α) :
    g (f^[n] x) = g x := by
  induction n with
  | zero => rfl
  | succ n ih => rw [Function.iterate_succ_apply', h, ih]

/-- One statement for each of several references is one statement on the records that are
referred to, when it may be repeated. -/
theorem foldl_updateWhere_of_idempotent {β : Type*} [DecidableEq κ] {f : α → α} (keyOf : β → κ)
    (hf : ∀ x, key (f x) = key x) (hidem : ∀ x, f (f x) = f x) (l : List β) (t : List α) :
    l.foldl (fun t b => updateWhere (fun x => key x == keyOf b) f t) t =
      updateWhere (fun x => l.any fun b => keyOf b == key x) f t := by
  have hiter : ∀ (n : ℕ) (x : α), f^[n + 1] x = f x := by
    intro n x
    rw [Function.iterate_succ_apply]
    induction n with
    | zero => rfl
    | succ n ih => rw [Function.iterate_succ_apply', ih, hidem]
  rw [foldl_updateWhere_iterate keyOf hf]
  refine List.map_congr_left fun x _ => ?_
  cases hn : l.countP fun b => keyOf b == key x with
  | zero =>
    have hnone : ¬ (l.any fun b => keyOf b == key x) = true := by
      simpa using hn
    exact (if_neg hnone).symm
  | succ n =>
    have hsome : (l.any fun b => keyOf b == key x) = true := by
      rw [List.any_eq_true]
      exact List.countP_pos_iff.mp (by omega)
    rw [if_pos hsome, hiter]

end Keyed

section UpdateFrom

variable {β γ : Type*} [DecidableEq κ]

/-- `UPDATE … FROM source`: each record that a source record has the key of is rewritten. -/
def updateFrom (keyOf : β → κ) (key : α → κ) (source : List β) (f : β → α → α) (t : List α) :
    List α :=
  t.map fun x =>
    match source.find? fun b => keyOf b == key x with
    | some b => f b x
    | none => x

variable {keyOf : β → κ} {key : α → κ} {source : List β} {f g : β → α → α} {t : List α}

theorem foldl_updateWhere (hs : Keyed keyOf source) (hf : ∀ b x, key (f b x) = key x) :
    source.foldl (fun t b => updateWhere (fun x => key x == keyOf b) (f b) t) t =
      updateFrom keyOf key source f t := by
  induction source generalizing t with
  | nil => simp [updateFrom]
  | cons b source ih =>
    obtain ⟨hb, hs⟩ := List.nodup_cons.mp (show (keyOf b :: source.map keyOf).Nodup from hs)
    rw [List.foldl_cons, ih hs, updateFrom, updateFrom, updateWhere, List.map_map]
    refine List.map_congr_left fun x _ => ?_
    by_cases hx : key x = keyOf b
    · have hnone : source.find? (fun c => keyOf c == keyOf b) = none := by
        refine List.find?_eq_none.mpr fun c hc => ?_
        have : keyOf c ≠ keyOf b := fun he => hb (he ▸ List.mem_map_of_mem hc)
        simpa using this
      simp [hx, hf, hnone]
    · simp [hx, Ne.symm hx]

theorem updateFrom_updateFrom (hf : ∀ b x, key (f b x) = key x) :
    updateFrom keyOf key source g (updateFrom keyOf key source f t) =
      updateFrom keyOf key source (fun b x => g b (f b x)) t := by
  rw [updateFrom, updateFrom, updateFrom, List.map_map]
  refine List.map_congr_left fun x _ => ?_
  cases h : source.find? fun b => keyOf b == key x with
  | none => simp [h]
  | some b => simp [h, hf]

/-- A statement from records of the keyed table itself rewrites exactly these records. -/
theorem updateFrom_self [DecidableEq α] {source : List α} {f : α → α → α} (hk : Keyed key t)
    (hmem : ∀ b ∈ source, b ∈ t) :
    updateFrom key key source f t =
      updateWhere (fun x => decide (x ∈ source)) (fun x => f x x) t := by
  rw [updateFrom, updateWhere]
  refine List.map_congr_left fun x hx => ?_
  cases h : source.find? fun b => key b == key x with
  | none =>
    have : x ∉ source := fun hxs => by simpa using List.find?_eq_none.mp h x hxs
    simp [this]
  | some b =>
    obtain ⟨hb, hkey⟩ := mem_of_find?_key h
    obtain rfl := hk.inj (hmem b hb) hx hkey
    simp [hb]

end UpdateFrom

section Total

variable [AddCommMonoid M] {w : α → M} {t : List α}

@[simp] theorem total_nil : total w ([] : List α) = 0 := rfl

@[simp] theorem total_cons (x : α) : total w (x :: t) = w x + total w t := by
  simp [total]

@[simp] theorem total_append (s : List α) : total w (t ++ s) = total w t + total w s := by
  simp [total]

theorem total_congr {w' : α → M} (h : ∀ x ∈ t, w x = w' x) : total w t = total w' t := by
  rw [total, total, List.map_congr_left h]

theorem total_eq_zero (h : ∀ x ∈ t, w x = 0) : total w t = 0 := by
  induction t with
  | nil => rfl
  | cons x t ih =>
    rw [total_cons, h x List.mem_cons_self, zero_add]
    exact ih fun y hy => h y (List.mem_cons_of_mem x hy)

theorem total_perm {s : List α} (h : t.Perm s) : total w t = total w s :=
  (h.map w).sum_eq

theorem total_filter (q : α → Bool) :
    total w (t.filter q) = total (fun x => if q x then w x else 0) t := by
  induction t with
  | nil => rfl
  | cons x t ih =>
    rw [List.filter_cons]
    split <;> simp_all

end Total

theorem total_neg [AddCommGroup M] {w : α → M} {t : List α} :
    total (fun x => -w x) t = -total w t := by
  induction t with
  | nil => simp
  | cons x t ih => rw [total_cons, total_cons, ih, neg_add]

/-- Rewriting the record under one key changes a total by that record's difference. -/
theorem Keyed.total_update [AddCommGroup M] [DecidableEq κ] {key : α → κ} {t : List α}
    {w : α → M} (hk : Keyed key t) {x : α} (hx : x ∈ t) (f : α → α) :
    total w (updateWhere (fun y => key y == key x) f t) = total w t + (w (f x) - w x) := by
  have hperm := hk.perm_cons hx
  have hmap := hperm.map fun y => if key y == key x then f y else y
  rw [updateWhere, total_perm hmap, total_perm hperm, List.map_cons, total_cons, total_cons]
  have hrest : (t.filter (fun y => key y ≠ key x)).map
      (fun y => if key y == key x then f y else y) = t.filter (fun y => key y ≠ key x) := by
    conv_rhs => rw [← List.map_id (t.filter _)]
    refine List.map_congr_left fun y hy => ?_
    have hy : key y ≠ key x := by simpa using (List.mem_filter.mp hy).2
    simp [hy]
  rw [hrest]
  simp only [beq_self_eq_true, if_true]
  abel

/-- A statement changes a total by the differences of the records that it writes. -/
theorem total_updateWhere [AddCommGroup M] {w : α → M} {p : α → Bool} {f : α → α} {t : List α} :
    total w (updateWhere p f t) =
      total w t + total (fun x => if p x then w (f x) - w x else 0) t := by
  induction t with
  | nil => simp
  | cons x t ih =>
    rw [updateWhere, List.map_cons, ← updateWhere, total_cons, total_cons, total_cons, ih]
    split <;> abel

/-- Rewriting several records of a keyed table changes a total by their differences. -/
theorem Keyed.total_updateAll [AddCommGroup M] [DecidableEq κ] {key : α → κ} {t : List α}
    {w : α → M} (hk : Keyed key t) {l : List α} (hl : Keyed key l) (hmem : ∀ x ∈ l, x ∈ t)
    (f : α → α) :
    total w (updateWhere (fun x => l.any fun y => key y == key x) f t) =
      total w t + total (fun x => w (f x) - w x) l := by
  have hany : ∀ x ∈ t, (l.any fun y => key y == key x) = true ↔ x ∈ l := by
    intro x hx
    rw [List.any_eq_true]
    constructor
    · rintro ⟨y, hy, hyx⟩
      rwa [← hk.inj (hmem y hy) hx (by simpa using hyx)]
    · exact fun hx => ⟨x, hx, by simp⟩
  have hperm : (t.filter fun x => l.any fun y => key y == key x).Perm l :=
    (List.perm_ext_iff_of_nodup (hk.nodup.filter _) hl.nodup).mpr fun x => by
      rw [List.mem_filter]
      exact ⟨fun hx => (hany x hx.1).mp hx.2, fun hx => ⟨hmem x hx, (hany x (hmem x hx)).mpr hx⟩⟩
  rw [total_updateWhere, ← total_perm hperm, total_filter]

end Relational

/-- The rows that `LIMIT n` leaves of a result; the statement does not order its rows. -/
structure Limit (n : ℕ) (α : Type) where
  rows : List α → List α
  subperm : ∀ l, (rows l).Subperm l
  length_le : ∀ l, (rows l).length ≤ n
  perm : ∀ l, l.length ≤ n → (rows l).Perm l

namespace Limit

variable {n : ℕ} {α β : Type} {l : List α} {a : α}

/-- The rows that come first. -/
def take (n : ℕ) (α : Type) : Limit n α where
  rows := List.take n
  subperm l := (List.take_sublist n l).subperm
  length_le l := List.length_take_le n l
  perm l h := by rw [List.take_of_length_le h]

theorem mem_of_mem_rows (limit : Limit n α) (h : a ∈ limit.rows l) : a ∈ l :=
  (limit.subperm l).subset h

theorem nodup_map (limit : Limit n α) {key : α → β} (h : (l.map key).Nodup) :
    ((limit.rows l).map key).Nodup := by
  obtain ⟨l', hperm, hsub⟩ := limit.subperm l
  exact ((hperm.map key).nodup_iff).mp ((hsub.map key).nodup h)

end Limit
