import BeyoManager.Upholstery.RowSessions

/-! # Interleaved commands over one inventory row

No command locks the inventory row. Two commands that share no other lock may both read the row
before either commits: the one that commits last then writes amounts that do not know of the
other. Nothing is lost when one of them changes no amount that the other works with.
-/

namespace BeyoManager.Upholstery

open ReadCommitted Relational Transition

/-- What a command locks before it reads the inventory row; `createTask` is the advisory lock
of a workspace. -/
inductive RowLock
  | createTask
  | item (id : ClientId)
  | itemUpholstery (id : ClientId)
  | taskItem (id : ClientId)
  | task (id : ClientId)
  | requirement (id : ClientId)
  deriving DecidableEq, Repr

/-- A command as the inventory row sees it: the locks that it holds, and the calls that it
makes with the amounts of its request and of its items. -/
structure RowCommand where
  locks : List RowLock
  calls : List InventoryMutation

namespace RowCommand

variable (command : RowCommand)

/-- The command as a transaction over the row. -/
def transaction : Transaction AmountColumn MetersColumn CommandError :=
  rowTransaction command.calls

def WorksWith (c : AmountColumn) : Prop := ∃ m ∈ command.calls, c ∈ m.columns

/-- Alone on this row, the command would change the amount. -/
def Changes (row : AmountColumn → MetersColumn) (c : AmountColumn) : Prop :=
  ∃ w, command.transaction row = .ok w ∧ w c ≠ none

end RowCommand

variable (commands : Party → RowCommand)

def ShareLock : Prop := ∃ l ∈ (commands .first).locks, l ∈ (commands .second).locks

instance : Decidable (ShareLock commands) :=
  inferInstanceAs (Decidable (∃ l ∈ (commands .first).locks, l ∈ (commands .second).locks))

/-- One of the commands changes nothing that the other one works with. -/
def Independent (row : AmountColumn → MetersColumn) : Prop :=
  ∃ p, ∀ c, (commands (Party.other p)).WorksWith c → ¬ (commands p).Changes row c

/-- The command that commits last sets the stored amount, whatever it was. -/
def SetsLast (events : List Event) : Prop :=
  ∃ p amount, events.getLast? = some (.commit p) ∧
    (commands p).calls = [.setCurrentStored amount]

/-- Run the two commands in an interleaving. -/
def runInterleaved (row : AmountColumn → MetersColumn) (events : List Event) :
    Except (Halt CommandError) (State AmountColumn MetersColumn) :=
  run (fun p => (commands p).transaction) (ShareLock commands) (.start row) events

section Covered

def InventoryMutation.delta : InventoryMutation → AmountColumn → Meters
  | .checkAndInjectNeed quantity, .inNeed => quantity
  | .consumeToInUse quantity, .stored => -quantity
  | .consumeToInUse quantity, .inUse => quantity
  | .consumeToInUse quantity, .inNeed => -quantity
  | .finishInUse quantity _, .inUse => -quantity
  | .addOrdered quantity, .ordered => quantity
  | .confirmOrderedToStock quantity, .ordered => -quantity
  | .confirmOrderedToStock quantity, .stored => quantity
  | .addStoredSurplus quantity, .stored => quantity
  | .adjustNeed delta, .inNeed => delta
  | .completeAvailableDirect quantity _, .stored => -quantity
  | .completeAvailableDirect quantity _, .inNeed => -quantity
  | .rollbackInUseToStored quantity, .inUse => -quantity
  | .rollbackInUseToStored quantity, .stored => quantity
  | _, _ => 0

/-- The call computes from the amounts that it has read. -/
def InventoryMutation.IsRelative : InventoryMutation → Prop
  | .setCurrentStored _ => False
  | _ => True

/-- What calls add to an amount, all in all. -/
def net (calls : List InventoryMutation) (c : AmountColumn) : Meters :=
  (calls.map (·.delta c)).sum

/-- What calls take from an amount, all in all. -/
def taken (calls : List InventoryMutation) (c : AmountColumn) : Meters :=
  (calls.map fun m => max 0 (-m.delta c)).sum

variable {a : AmountColumn → Meters} {m : InventoryMutation} {calls : List InventoryMutation}
  {row : AmountColumn → MetersColumn}

theorem taken_nonneg (c : AmountColumn) : 0 ≤ taken calls c := by
  refine List.sum_nonneg ?_
  simp only [List.mem_map, forall_exists_index, and_imp]
  rintro x m - rfl
  exact le_max_left _ _

theorem neg_taken_le_net (c : AmountColumn) : -taken calls c ≤ net calls c := by
  induction calls with
  | nil => simp [taken, net]
  | cons m calls ih =>
    have := le_max_right 0 (-m.delta c)
    simp only [taken, net, List.map_cons, List.sum_cons] at ih ⊢
    linarith

/-- A call that is covered is not refused, and clamps nothing. -/
theorem assign_of_covered (hm : m.IsRelative) (h : ∀ c, max 0 (-m.delta c) ≤ a c) :
    ∃ w, m.assign a = .ok w ∧ ∀ c, overlay a w c = a c + m.delta c := by
  have hstored := le_trans (le_max_right _ _) (h .stored)
  have hneed := le_trans (le_max_right _ _) (h .inNeed)
  have huse := le_trans (le_max_right _ _) (h .inUse)
  have hordered := le_trans (le_max_right _ _) (h .ordered)
  cases m with
  | setCurrentStored => exact hm.elim
  | checkAndInjectNeed | addOrdered | addStoredSurplus =>
    refine ⟨_, rfl, ?_⟩
    rintro (_ | _ | _ | _) <;> simp [overlay, InventoryMutation.delta]
  | adjustNeed delta =>
    refine ⟨_, rfl, ?_⟩
    rintro (_ | _ | _ | _) <;> simp only [InventoryMutation.delta] at hneed <;>
      simp [overlay, InventoryMutation.delta]
    linarith
  | consumeToInUse quantity | completeAvailableDirect quantity =>
    simp only [InventoryMutation.delta] at hstored hneed
    refine ⟨_, throwIf_bind_eq_ok.mpr ⟨by linarith, rfl⟩, ?_⟩
    rintro (_ | _ | _ | _) <;> simp [overlay, InventoryMutation.delta, sub_eq_add_neg]
    linarith
  | finishInUse quantity | rollbackInUseToStored quantity =>
    simp only [InventoryMutation.delta] at huse
    refine ⟨_, throwIf_bind_eq_ok.mpr ⟨by linarith, rfl⟩, ?_⟩
    rintro (_ | _ | _ | _) <;> simp [overlay, InventoryMutation.delta, sub_eq_add_neg]
  | confirmOrderedToStock quantity =>
    simp only [InventoryMutation.delta] at hordered
    refine ⟨_, throwIf_bind_eq_ok.mpr ⟨by linarith, rfl⟩, ?_⟩
    rintro (_ | _ | _ | _) <;> simp [overlay, InventoryMutation.delta, sub_eq_add_neg]

/-- Calls that are covered together move each amount by what they add to it. -/
theorem foldlM_of_covered (hrel : ∀ m ∈ calls, m.IsRelative) {s : Session AmountColumn Meters}
    (h : ∀ c, taken calls c ≤ s.values c) :
    ∃ u, (calls.map fun m a => m.assign a).foldlM Session.call s = .ok u ∧
      ∀ c, u.values c = s.values c + net calls c := by
  induction calls generalizing s with
  | nil => exact ⟨s, rfl, by simp [net]⟩
  | cons m calls ih =>
    have htaken : ∀ c, taken (m :: calls) c = max 0 (-m.delta c) + taken calls c := by
      simp [taken]
    have hcall : ∀ c, max 0 (-m.delta c) ≤ s.values c := by
      intro c
      have := htaken c
      have := h c
      have := @taken_nonneg calls c
      linarith
    obtain ⟨w, hw, hvalues⟩ := assign_of_covered (hrel m List.mem_cons_self) hcall
    have hrest : ∀ c, taken calls c ≤ (s.assign w).values c := by
      intro c
      have := htaken c
      have := h c
      have := le_max_right 0 (-m.delta c)
      have : (s.assign w).values c = s.values c + m.delta c := hvalues c
      linarith
    obtain ⟨u, hu, hnet⟩ := ih (fun m hm => hrel m (List.mem_cons_of_mem _ hm)) hrest
    refine ⟨u, ?_, ?_⟩
    · rw [List.map_cons, foldlM_cons_eq_ok]
      exact ⟨s.assign w, by rw [Session.call, hw]; rfl, hu⟩
    · intro c
      have : (s.assign w).values c = s.values c + m.delta c := hvalues c
      rw [hnet, this]
      simp [net, add_assoc]

/-- Alone on a row that covers it, a command moves each amount by what its calls add to it, and
writes the amounts that it moves. -/
theorem rowTransaction_of_covered (hrel : ∀ m ∈ calls, m.IsRelative)
    (hwhole : ∀ c, FixedScale.Exact 1000 (net calls c))
    (h : ∀ c, taken calls c ≤ (row c).value) :
    ∃ w, rowTransaction calls row = .ok w ∧ ∀ c,
      overlay row w c = row c + (net calls c).toColumn ∧
      (net calls c ≠ 0 → w c = some (row c + (net calls c).toColumn)) := by
  obtain ⟨u, hu, hnet⟩ := foldlM_of_covered hrel (s := .open MetersColumn.value row) h
  have hstored : ∀ c, (u.values c).toColumn = row c + (net calls c).toColumn := by
    intro c
    obtain ⟨n, hn⟩ := hwhole c
    rw [hnet]
    simp only [Session.open, ← hn]
    simp
  have hclean : ∀ c, u.dirty c = false → u.values c = (row c).value :=
    Session.values_eq_of_clean (fun _ _ => rfl) hu
  refine ⟨u.writes Meters.toColumn, by rw [rowTransaction, session, hu]; rfl, fun c => ?_⟩
  cases hc : u.dirty c with
  | false =>
    have hzero : net calls c = 0 := by
      have := hclean c hc
      rw [hnet] at this
      simpa [Session.open] using this
    have hcolumn : Meters.toColumn 0 = 0 := by simpa using @FixedScale.store_value 1000 0 _
    simp [overlay, Session.writes, hc, hzero, hcolumn]
  | true => simp [overlay, Session.writes, hc, hstored]

end Covered

section SetStored

variable {row : AmountColumn → MetersColumn} {amount : Meters}
  {w : Writes AmountColumn MetersColumn}

theorem setTransaction_eq (hamount : 0 ≤ amount.toColumn) :
    rowTransaction [.setCurrentStored amount] row = .ok fun c =>
      if c = .stored ∧ amount.toColumn ≠ row .stored then some amount.toColumn else none := by
  have hassign : InventoryMutation.assign (fun c => (row c).value) (.setCurrentStored amount) =
    _ := throwIf_bind_eq_ok.mpr ⟨not_lt.mpr hamount, rfl⟩
  simp only [rowTransaction, session, List.map_cons, List.map_nil, List.foldlM_cons,
    List.foldlM_nil, Session.call, Session.open, hassign, bind, Except.bind, pure, Except.pure,
    Except.ok.injEq]
  funext c
  cases c <;> simp [Session.writes, Session.assign, overlay]

theorem setTransaction_nonneg (h : rowTransaction [.setCurrentStored amount] row = .ok w) :
    0 ≤ amount.toColumn := by
  by_contra hneg
  have hassign : InventoryMutation.assign (fun c => (row c).value) (.setCurrentStored amount) =
    _ := throwIf_bind_eq_error.mpr (.inl ⟨not_le.mp hneg, rfl⟩)
  simp [rowTransaction, session, Session.call, Session.open, hassign, bind, Except.bind] at h

end SetStored

section Interleaved

variable {commands : Party → RowCommand} {row : AmountColumn → MetersColumn}
  {events : List Event} {s : State AmountColumn MetersColumn}

theorem RowCommand.transaction_confined (command : RowCommand) :
    Confined command.WorksWith command.transaction := by
  refine session_confined ?_
  simp only [List.mem_map, forall_exists_index, and_imp]
  rintro t m hm rfl
  exact m.assign_confined.mono fun c hc => ⟨m, hm, hc⟩

theorem serializable_of_independent (h : Independent commands row)
    (hover : Overlapping events) (hrun : runInterleaved commands row events = .ok s) :
    Serializable (fun p => (commands p).transaction) row s.row := by
  obtain ⟨-, p, w, w', -, hw, hw', hrow⟩ := run_overlapping hover hrun
  obtain ⟨q, hq⟩ := h
  have hnone : ∀ w, (commands q).transaction row = .ok w →
      ∀ c, (commands q.other).WorksWith c → w c = none := by
    intro w hw c hc
    by_contra hne
    exact hq c hc ⟨w, hw, hne⟩
  have hconfined := (commands q.other).transaction_confined
  refine ⟨q, ?_⟩
  obtain rfl | rfl : q = p ∨ q = p.other := by cases p <;> cases q <;> simp [Party.other]
  · rw [hrow]
    exact (hconfined.serially_eq hw hw' (hnone w hw)).1
  · rw [Party.other_other] at hnone hconfined ⊢
    have hserial := hconfined.serially_eq hw' hw (hnone w' hw')
    rw [hrow, hserial.2]
    exact hserial.1

/-- A command that sets the stored amount may commit last. -/
theorem serializable_of_setsLast (h : SetsLast commands events)
    (hover : Overlapping events) (hrun : runInterleaved commands row events = .ok s) :
    Serializable (fun p => (commands p).transaction) row s.row := by
  obtain ⟨-, p, w, w', hlast, hw, hw', hrow⟩ := run_overlapping hover hrun
  obtain ⟨q, amount, hlast', hq⟩ := h
  obtain rfl : q = p.other := by
    rw [hlast'] at hlast
    simpa using hlast
  have htransaction : (commands p.other).transaction =
    rowTransaction [.setCurrentStored amount] := by
    rw [RowCommand.transaction, hq]
  rw [htransaction] at hw'
  have hamount := setTransaction_nonneg hw'
  obtain rfl := Except.ok.inj ((setTransaction_eq hamount).symm.trans hw')
  by_cases heq : amount.toColumn = row .stored
  · -- the amount is set to what it is, and the command writes nothing: it may have come first
    refine ⟨p.other, serially_pair.mpr
      ⟨_, htransaction.symm ▸ setTransaction_eq hamount, w, ?_, ?_⟩⟩
    · rw [Party.other_other]
      simpa [overlay_none, heq] using hw
    · rw [hrow]
      funext c
      simp [overlay, heq]
  · refine ⟨p, serially_pair.mpr
      ⟨w, hw, _, htransaction.symm ▸ setTransaction_eq hamount, ?_⟩⟩
    rw [hrow]
    generalize overlay row w = current
    funext c
    by_cases hc : c = .stored
    · subst hc
      by_cases hsame : amount.toColumn = current .stored
      · simp [overlay, heq, ← hsame]
      · simp [overlay, heq, hsame]
    · simp [overlay, hc]

/-- Two covered commands that overlap and both move an amount: one of them is lost. -/
theorem not_serializable_of_covered (hover : Overlapping events)
    (hrun : runInterleaved commands row events = .ok s)
    (hrel : ∀ p, ∀ m ∈ (commands p).calls, m.IsRelative)
    (hwhole : ∀ p c, FixedScale.Exact 1000 (net (commands p).calls c))
    (hcov : ∀ c, taken (commands .first).calls c + taken (commands .second).calls c ≤
      (row c).value)
    {c : AmountColumn} (hboth : ∀ p, net (commands p).calls c ≠ 0) :
    ¬ Serializable (fun p => (commands p).transaction) row s.row := by
  have htaken : ∀ p c, taken (commands p).calls c + taken (commands p.other).calls c ≤
      (row c).value := by
    rintro (_ | _) c
    · exact hcov c
    · have := hcov c
      simp only [Party.other]
      linarith
  have halone : ∀ p, ∃ w, (commands p).transaction row = .ok w ∧ ∀ c,
      overlay row w c = row c + (net (commands p).calls c).toColumn ∧
      (net (commands p).calls c ≠ 0 → w c =
        some (row c + (net (commands p).calls c).toColumn)) := by
    intro p
    refine rowTransaction_of_covered (hrel p) (hwhole p) fun c => ?_
    have := htaken p c
    have := @taken_nonneg (commands p.other).calls c
    linarith
  have hne : ∀ p, (net (commands p).calls c).toColumn ≠ 0 := by
    intro p hzero
    refine hboth p ?_
    rw [← (hwhole p c).value_store, show FixedScale.store 1000 _ = 0 from hzero,
      FixedScale.value_zero]
  obtain ⟨-, p, w, w', -, hw, hw', hrow⟩ := run_overlapping hover hrun
  -- the one that commits last writes the amount that it has computed from the old one
  have hlast : s.row c = row c + (net (commands p.other).calls c).toColumn := by
    obtain ⟨u, hu, hmoved⟩ := halone p.other
    obtain rfl : u = w' := Except.ok.inj (hu.symm.trans hw')
    rw [hrow]
    simp [overlay, (hmoved c).2 (hboth p.other)]
  rintro ⟨q, hq⟩
  obtain ⟨v, hv, v', hv', hserial⟩ := serially_pair.mp hq
  have hfirst : ∀ c, overlay row v c = row c + (net (commands q).calls c).toColumn := by
    obtain ⟨u, hu, hmoved⟩ := halone q
    obtain rfl : u = v := Except.ok.inj (hu.symm.trans hv)
    exact fun c => (hmoved c).1
  -- what the first one takes leaves enough for the second one
  have hsecond : overlay (overlay row v) v' c =
      overlay row v c + (net (commands q.other).calls c).toColumn := by
    have hleft : ∀ c, taken (commands q.other).calls c ≤ (overlay row v c).value := by
      intro c
      have := htaken q c
      have := @neg_taken_le_net (commands q).calls c
      rw [hfirst, MetersColumn.value, FixedScale.value_add, (hwhole q c).value_store]
      linarith
    obtain ⟨u, hu, hmoved⟩ := rowTransaction_of_covered (hrel q.other) (hwhole q.other) hleft
    obtain rfl : u = v' := Except.ok.inj (hu.symm.trans hv')
    exact (hmoved c).1
  rw [hserial, hsecond, hfirst] at hlast
  have hsum : ∀ x y z : ℤ, y ≠ 0 → z ≠ 0 → x + y + z ≠ x + z ∧ x + y + z ≠ x + y := by omega
  have hlost := hsum (row c) _ _ (hne q) (hne q.other)
  obtain rfl | rfl : q = p ∨ q = p.other := by cases p <;> cases q <;> simp [Party.other]
  · exact hlost.1 hlast
  · exact hlost.2 hlast

/-- Two interleaved commands leave what a serial order leaves, unless they overlap and each of
them changes an amount that the other works with, the last one not by setting it. Covered
commands that overlap and both move an amount always lose one of the moves. -/
theorem runInterleaved_serializable
    (hevents : Interleaves Party.first.events Party.second.events events)
    (hrun : runInterleaved commands row events = .ok s) :
    (¬ Overlapping events ∨ Independent commands row ∨ SetsLast commands events →
      Serializable (fun p => (commands p).transaction) row s.row) ∧
    (Overlapping events → (∀ p, ∀ m ∈ (commands p).calls, m.IsRelative) →
      (∀ p c, FixedScale.Exact 1000 (net (commands p).calls c)) →
      (∀ c, taken (commands .first).calls c + taken (commands .second).calls c ≤ (row c).value) →
      (∃ c, ∀ p, net (commands p).calls c ≠ 0) →
      ¬ Serializable (fun p => (commands p).transaction) row s.row) := by
  constructor
  · intro h
    rcases interleaves_cases hevents with ⟨p, rfl⟩ | hover
    · exact ⟨p, run_serial hrun⟩
    rcases h with h | h | h
    · exact absurd hover h
    · exact serializable_of_independent h hover hrun
    · exact serializable_of_setsLast h hover hrun
  · rintro hover hrel hwhole hcov ⟨c, hboth⟩
    exact not_serializable_of_covered hover hrun hrel hwhole hcov hboth

end Interleaved

section Cut

/-- A row with ten metres in stock and ten metres on order. -/
def tenMeters : AmountColumn → MetersColumn
  | .stored | .ordered => 10000
  | .inNeed | .inUse => 0

/-- Fabric is asked for a chair, while the receipt of an order is recorded. -/
def needAndReceipt : Party → RowCommand
  | .first => ⟨[.item "chair"], [.checkAndInjectNeed 3]⟩
  | .second => ⟨[], [.confirmOrderedToStock 10]⟩

def bothReadFirst : List Event := [.read .first, .read .second, .commit .first, .commit .second]

theorem needAndReceipt_serializable :
    ∃ s, runInterleaved needAndReceipt tenMeters bothReadFirst = .ok s ∧
      Serializable (fun p => (needAndReceipt p).transaction) tenMeters s.row := by
  obtain ⟨s, hs⟩ : ∃ s, runInterleaved needAndReceipt tenMeters bothReadFirst = .ok s := by
    have hok : (runInterleaved needAndReceipt tenMeters bothReadFirst).isOk := by decide +kernel
    cases h : runInterleaved needAndReceipt tenMeters bothReadFirst with
    | ok s => exact ⟨s, rfl⟩
    | error e =>
      rw [h] at hok
      cases hok
  have hevents : Interleaves Party.first.events Party.second.events bothReadFirst :=
    .left (.right (.left (.right .nil)))
  refine ⟨s, hs, (runInterleaved_serializable hevents hs).1 (.inr (.inl ⟨.first, ?_⟩))⟩
  rintro c ⟨m, hm, hc⟩ ⟨w, hw, hne⟩
  refine hne ((needAndReceipt .first).transaction_confined.writes _ w hw c ?_)
  rintro ⟨m', hm', hc'⟩
  obtain rfl := List.mem_singleton.mp hm
  obtain rfl := List.mem_singleton.mp hm'
  cases c <;> simp [InventoryMutation.columns] at hc hc'

def twoNeeds : Party → RowCommand
  | .first => ⟨[.item "chair"], [.checkAndInjectNeed 3]⟩
  | .second => ⟨[.item "sofa"], [.checkAndInjectNeed 2]⟩

/-- Three metres and two metres are asked for, and two metres are in need. -/
theorem need_lost :
    Interleaves Party.first.events Party.second.events bothReadFirst ∧
    (runInterleaved twoNeeds tenMeters bothReadFirst).toOption.map (fun s => s.row .inNeed) =
      some 2000 ∧
    ∀ p : Party, (serially tenMeters [(twoNeeds p).transaction, (twoNeeds p.other).transaction]
      ).toOption.map (fun row => row .inNeed) = some 5000 := by
  refine ⟨.left (.right (.left (.right .nil))), by decide +kernel, ?_⟩
  rintro (_ | _) <;> decide +kernel

end Cut

end BeyoManager.Upholstery
