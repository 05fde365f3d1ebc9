import Mathlib.Logic.Relation
import Mathlib.Order.WellFounded
import Mathlib.Data.Fintype.Card
import Mathlib.Data.Set.Finite.Basic

/-! # Relations without cycles

A relation without cycles stays so when edges are added that lead back to no added edge. New points
are judged by the paths that they open between the old ones. On a list some point has no successor.
-/

open Relation

namespace Cycles

variable {α β : Type*} {r s new : α → α → Prop} {a b : α}

/-- No point comes back to itself. -/
def Acyclic (r : α → α → Prop) : Prop := ∀ a, ¬ TransGen r a a

theorem Acyclic.mono (h : Acyclic s) (hle : ∀ a b, r a b → s a b) : Acyclic r :=
  fun a ha => h a (ha.lift id hle)

theorem acyclic_of_forall_not (h : ∀ a b, ¬ r a b) : Acyclic r := by
  intro a ha
  obtain ⟨b, hab, -⟩ := TransGen.head'_iff.mp ha
  exact h a b hab

theorem mem_of_closed {p : α → Prop} (h : ∀ a b, p a → r a b → p b) (hab : ReflTransGen r a b)
    (ha : p a) : p b := by
  induction hab with
  | refl => exact ha
  | tail _ hbc ih => exact h _ _ ih hbc

theorem Acyclic.comap {t : β → β → Prop} (f : α → β) (h : Acyclic t)
    (hf : ∀ a b, r a b → t (f a) (f b)) : Acyclic r :=
  fun a ha => h (f a) (ha.lift f hf)

section Add

/-- A path over old and new edges is an old path, or it has a first and a last new edge. -/
theorem transGen_or (hback : ∀ a b, new a b → ∀ a' b', new a' b' → ¬ ReflTransGen r b a')
    (h : TransGen (fun a b => r a b ∨ new a b) a b) :
    TransGen r a b ∨ ∃ c d, new c d ∧ ReflTransGen r a c ∧ ReflTransGen r d b := by
  induction h with
  | single hab =>
    rcases hab with hab | hab
    · exact .inl (.single hab)
    · exact .inr ⟨_, _, hab, .refl, .refl⟩
  | tail _ hbc ih =>
    rcases ih with hab | ⟨c, d, hcd, hac, hdb⟩
    · rcases hbc with hbc | hbc
      · exact .inl (hab.tail hbc)
      · exact .inr ⟨_, _, hbc, hab.to_reflTransGen, .refl⟩
    · rcases hbc with hbc | hbc
      · exact .inr ⟨c, d, hcd, hac, hdb.tail hbc⟩
      · exact absurd hdb (hback c d hcd _ _ hbc)

theorem Acyclic.add (h : Acyclic r)
    (hback : ∀ a b, new a b → ∀ a' b', new a' b' → ¬ ReflTransGen r b a') :
    Acyclic fun a b => r a b ∨ new a b := by
  intro a ha
  rcases transGen_or hback ha with hr | ⟨c, d, hcd, hac, hda⟩
  · exact h a hr
  · exact hback c d hcd c d hcd (hda.trans hac)

end Add

section Contract

variable {isNew : α → Prop}

/-- A path from an old point to an old one through new points alone. -/
def Through (isNew : α → Prop) (new : α → α → Prop) (a b : α) : Prop :=
  ∃ c d, isNew c ∧ isNew d ∧ new a c ∧ ReflTransGen (fun x y => new x y ∧ isNew y) c d ∧ new d b

/-- A path from an old point ends at an old point that the paths through new points reach, or it
is on its way through new points. -/
theorem transGen_through (hr : ∀ a b, r a b → ¬ isNew a ∧ ¬ isNew b)
    (hnew : ∀ a b, new a b → isNew a ∨ isNew b) (ha : ¬ isNew a)
    (h : TransGen (fun a b => r a b ∨ new a b) a b) :
    (¬ isNew b ∧ TransGen (fun a b => r a b ∨ ¬ isNew a ∧ ¬ isNew b ∧ Through isNew new a b) a b) ∨
      isNew b ∧ ∃ c d, ¬ isNew c ∧
        ReflTransGen (fun a b => r a b ∨ ¬ isNew a ∧ ¬ isNew b ∧ Through isNew new a b) a c ∧
        isNew d ∧ new c d ∧ ReflTransGen (fun x y => new x y ∧ isNew y) d b := by
  induction h with
  | single hab =>
    rcases hab with hab | hab
    · exact .inl ⟨(hr _ _ hab).2, .single (.inl hab)⟩
    · have hb := (hnew _ _ hab).resolve_left ha
      exact .inr ⟨hb, a, _, ha, .refl, hb, hab, .refl⟩
  | @tail b c _ hbc ih =>
    rcases ih with ⟨hb, hab⟩ | ⟨hb, x, y, hx, hax, hy, hxy, hyb⟩
    · rcases hbc with hbc | hbc
      · exact .inl ⟨(hr _ _ hbc).2, hab.tail (.inl hbc)⟩
      · have hc := (hnew _ _ hbc).resolve_left hb
        exact .inr ⟨hc, b, c, hb, hab.to_reflTransGen, hc, hbc, .refl⟩
    · rcases hbc with hbc | hbc
      · exact absurd hb (hr _ _ hbc).1
      · by_cases hc : isNew c
        · exact .inr ⟨hc, x, y, hx, hax, hy, hxy, hyb.tail ⟨hbc, hc⟩⟩
        · exact .inl ⟨hc, TransGen.tail' hax (.inr ⟨hx, hc, y, b, hy, hb, hxy, hyb, hbc⟩)⟩

/-- A path from a new point stays among new points, or it passes an old one. -/
theorem transGen_among (hr : ∀ a b, r a b → ¬ isNew a ∧ ¬ isNew b) (ha : isNew a)
    (h : TransGen (fun a b => r a b ∨ new a b) a b) :
    (isNew b ∧ TransGen (fun x y => new x y ∧ isNew x ∧ isNew y) a b) ∨
      ∃ c, ¬ isNew c ∧ TransGen (fun a b => r a b ∨ new a b) a c ∧
        ReflTransGen (fun a b => r a b ∨ new a b) c b := by
  induction h with
  | @single b hab =>
    by_cases hb : isNew b
    · rcases hab with hab | hab
      · exact absurd ha (hr _ _ hab).1
      · exact .inl ⟨hb, .single ⟨hab, ha, hb⟩⟩
    · exact .inr ⟨b, hb, .single hab, .refl⟩
  | @tail b c hab hbc ih =>
    rcases ih with ⟨hb, hpath⟩ | ⟨d, hd, had, hdb⟩
    · by_cases hc : isNew c
      · rcases hbc with hbc | hbc
        · exact absurd hb (hr _ _ hbc).1
        · exact .inl ⟨hc, hpath.tail ⟨hbc, hb, hc⟩⟩
      · exact .inr ⟨c, hc, hab.tail hbc, .refl⟩
    · exact .inr ⟨d, hd, had, hdb.tail hbc⟩

/-- New points close no cycle when they do not among themselves, and the paths that they open
between old points do not. -/
theorem Acyclic.extend (isNew : α → Prop) (hr : ∀ a b, r a b → ¬ isNew a ∧ ¬ isNew b)
    (hnew : ∀ a b, new a b → isNew a ∨ isNew b)
    (hamong : Acyclic fun x y => new x y ∧ isNew x ∧ isNew y)
    (hthrough : Acyclic fun a b => r a b ∨ ¬ isNew a ∧ ¬ isNew b ∧ Through isNew new a b) :
    Acyclic fun a b => r a b ∨ new a b := by
  have hold : ∀ a, ¬ isNew a → ¬ TransGen (fun a b => r a b ∨ new a b) a a := by
    intro a ha hcycle
    rcases transGen_through hr hnew ha hcycle with ⟨-, h⟩ | ⟨h, -⟩
    · exact hthrough a h
    · exact ha h
  intro a hcycle
  by_cases ha : isNew a
  · rcases transGen_among hr ha hcycle with ⟨-, h⟩ | ⟨c, hc, hac, hca⟩
    · exact hamong a h
    · exact hold c hc (TransGen.trans_right hca hac)
  · exact hold a ha hcycle

end Contract

theorem Acyclic.exists_sink (h : Acyclic r) {l : List α} (hl : l ≠ []) :
    ∃ a ∈ l, ∀ b ∈ l, ¬ r a b := by
  let above (x y : {a // a ∈ l}) : Prop := TransGen r y.1 x.1
  have hfinite : Finite {a // a ∈ l} := (List.finite_toSet l).to_subtype
  have htrans : IsTrans _ above := ⟨fun x y z hxy hyz => hyz.trans hxy⟩
  have hirrefl : Std.Irrefl above := ⟨fun x hx => h x.1 hx⟩
  have hwf : WellFounded above := Finite.wellFounded_of_trans_of_irrefl above
  obtain ⟨a, ha⟩ := List.exists_mem_of_ne_nil l hl
  obtain ⟨m, -, hm⟩ := hwf.has_min Set.univ ⟨⟨a, ha⟩, trivial⟩
  exact ⟨m.1, m.2, fun b hb hmb => hm ⟨b, hb⟩ trivial (.single hmb)⟩

end Cycles
