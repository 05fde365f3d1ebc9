import Mathlib.Order.Lattice

/-! # Serving each slot once

A slot rule sends every instant to the start of its slot. A server that remembers the start of
the last slot it has served, and is due when the current slot starts later, serves each slot at
the first instant at which it is called there, and no slot twice.
-/

namespace Slots

variable {τ : Type*} [LinearOrder τ] {slot : τ → τ} {start t : τ} {last : Option τ}

/-- A slot begins no later than its instants, later instants are in no earlier slot, and a slot
begins in itself. -/
structure IsSlot (slot : τ → τ) : Prop where
  le : ∀ t, slot t ≤ t
  mono : Monotone slot
  idem : ∀ t, slot (slot t) = slot t

/-- The server is due: its first slot has begun, and it has not served the current one. -/
def Due (slot : τ → τ) (start : τ) (last : Option τ) (t : τ) : Prop :=
  start ≤ t ∧ ∀ l ∈ last, l < slot t

instance (slot : τ → τ) (start : τ) (last : Option τ) (t : τ) : Decidable (Due slot start last t) :=
  inferInstanceAs (Decidable (_ ∧ _))

def serve (slot : τ → τ) (start : τ) (last : Option τ) (t : τ) : Option τ :=
  if Due slot start last t then some (slot t) else last

/-- What the server remembers after several calls. -/
def serveAll (slot : τ → τ) (start : τ) (last : Option τ) (calls : List τ) : Option τ :=
  calls.foldl (serve slot start) last

@[simp] theorem serveAll_nil : serveAll slot start last [] = last := rfl

@[simp] theorem serveAll_append (calls later : List τ) : serveAll slot start last (calls ++ later) =
    serveAll slot start (serveAll slot start last calls) later := by
  simp [serveAll]

theorem serve_of_due (h : Due slot start last t) : serve slot start last t = some (slot t) :=
  if_pos h

theorem serve_of_not_due (h : ¬ Due slot start last t) : serve slot start last t = last :=
  if_neg h

theorem le_serve {l : τ} (h : l ∈ last) : ∃ l' ∈ serve slot start last t, l ≤ l' := by
  by_cases hd : Due slot start last t
  · exact ⟨slot t, serve_of_due hd, (hd.2 l h).le⟩
  · exact ⟨l, (serve_of_not_due hd).symm ▸ h, le_rfl⟩

theorem le_serveAll {l : τ} (h : l ∈ last) (calls : List τ) :
    ∃ l' ∈ serveAll slot start last calls, l ≤ l' := by
  induction calls generalizing last l with
  | nil => exact ⟨l, h, le_rfl⟩
  | cons c calls ih =>
    obtain ⟨l₁, h₁, hle₁⟩ := le_serve (t := c) h
    obtain ⟨l₂, h₂, hle₂⟩ := ih h₁
    exact ⟨l₂, h₂, hle₁.trans hle₂⟩

theorem slot_le_serve (h : start ≤ t) : ∃ l ∈ serve slot start last t, slot t ≤ l := by
  by_cases hd : Due slot start last t
  · exact ⟨slot t, serve_of_due hd, le_rfl⟩
  · obtain ⟨l, hl, hle⟩ : ∃ l ∈ last, slot t ≤ l := by
      by_contra hc
      push Not at hc
      exact hd ⟨h, hc⟩
    exact ⟨l, (serve_of_not_due hd).symm ▸ hl, hle⟩

theorem mem_serveAll {l : τ} {calls : List τ} (h : l ∈ serveAll slot start last calls) :
    l ∈ last ∨ ∃ c ∈ calls, start ≤ c ∧ l = slot c := by
  induction calls generalizing last with
  | nil => exact .inl h
  | cons c calls ih =>
    rcases ih h with h | ⟨c', hc', hs, rfl⟩
    · by_cases hd : Due slot start last c
      · rw [serve_of_due hd] at h
        exact .inr ⟨c, List.mem_cons_self, hd.1, (Option.mem_some_iff.mp h).symm⟩
      · rw [serve_of_not_due hd] at h
        exact .inl h
    · exact .inr ⟨c', List.mem_cons_of_mem c hc', hs, rfl⟩

theorem slot_le_serveAll {c : τ} {calls : List τ} (hc : c ∈ calls) (h : start ≤ c) :
    ∃ l ∈ serveAll slot start last calls, slot c ≤ l := by
  induction calls generalizing last with
  | nil => cases hc
  | cons c' calls ih =>
    rcases List.mem_cons.mp hc with rfl | hc
    · obtain ⟨l, hl, hle⟩ := slot_le_serve h
      obtain ⟨l', hl', hle'⟩ := le_serveAll hl calls
      exact ⟨l', hl', hle.trans hle'⟩
    · exact ih hc

/-- The server is due exactly at the first call of a slot that it had not served at the start. -/
theorem due_serveAll_iff (hslot : IsSlot slot) {calls : List τ} (hcalls : ∀ c ∈ calls, c ≤ t) :
    Due slot start (serveAll slot start last calls) t ↔
      start ≤ t ∧ (∀ l ∈ last, l < slot t) ∧ ∀ c ∈ calls, start ≤ c → slot c ≠ slot t := by
  constructor
  · rintro ⟨hstart, hlast⟩
    refine ⟨hstart, fun l hl => ?_, fun c hc hs => ?_⟩
    · obtain ⟨l', hl', hle⟩ := le_serveAll hl calls
      exact hle.trans_lt (hlast l' hl')
    · obtain ⟨l, hl, hle⟩ := slot_le_serveAll hc hs
      exact (hle.trans_lt (hlast l hl)).ne
  · rintro ⟨hstart, hlast, hother⟩
    refine ⟨hstart, fun l hl => ?_⟩
    rcases mem_serveAll hl with hl | ⟨c, hc, hs, rfl⟩
    · exact hlast l hl
    · exact lt_of_le_of_ne (hslot.mono (hcalls c hc)) (hother c hc hs)

theorem serveAll_le (hslot : IsSlot slot) {calls : List τ} (hcalls : ∀ c ∈ calls, c ≤ t)
    (hlast : ∀ l ∈ last, l ≤ t) : ∀ l ∈ serveAll slot start last calls, l ≤ t := by
  intro l hl
  rcases mem_serveAll hl with hl | ⟨c, hc, -, rfl⟩
  · exact hlast l hl
  · exact (hslot.le c).trans (hcalls c hc)

end Slots
