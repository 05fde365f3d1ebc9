import BeyoManager.Library.DenseOrder
import BeyoManager.StockReport.VersionCommands

/-! # Priority groups as sequences

The open snapshots of one version and priority, sorted by their orders, are a sequence. Setting an
order moves one element of it, and setting a priority takes an element out of one sequence and
appends it to another.
-/

namespace BeyoManager.StockReport

open DenseOrder Relational Sorting Transition

section Groups

variable (db : Db) (versionId : ClientId) (p : StockReportPriority)

/-- The open snapshots of a priority group. -/
def members : List ItemSnapshot := db.snapshots.filter (inGroup versionId p)

def orderOf (s : ItemSnapshot) : ℤ := s.priorityOrder.getD 0

/-- The snapshots of a group in the order that a board shows. -/
def groupSequence : List ClientId :=
  (sortBy orderOf (members db versionId p)).map ItemSnapshot.clientId

/-- Every member has an order, and the orders are 1, 2, … without a gap. -/
structure DenseGroup : Prop where
  ordered : ∀ s ∈ members db versionId p, s.priorityOrder.isSome
  dense : Dense orderOf (members db versionId p)

end Groups

section Shifted

variable {db : Db} {versionId : ClientId} {p : StockReportPriority} {s u : ItemSnapshot}

def shifted (versionId : ClientId) (p : StockReportPriority) (low : ℤ) (high : Option ℤ)
    (delta : ℤ) (s : ItemSnapshot) : ItemSnapshot :=
  if inGroup versionId p s && inBand low high s then
    { s with priorityOrder := s.priorityOrder.map (· + delta) }
  else s

theorem shift_snapshots (low : ℤ) (high : Option ℤ) (delta : ℤ) :
    (shift db versionId p low high delta).snapshots =
      db.snapshots.map (shifted versionId p low high delta) := by
  rw [shift]
  split
  · rename_i hempty
    obtain ⟨h, rfl, hlt⟩ := (Option.any_eq_true _ _).mp hempty
    -- no order lies in an empty band
    conv_lhs => rw [← List.map_id db.snapshots]
    refine List.map_congr_left fun u _ => (if_neg ?_).symm
    simp only [inBand, Option.all_some, Bool.and_eq_true, Option.any_eq_true, decide_eq_true_eq,
      not_and, not_exists] at hlt ⊢
    intro _ o ho
    omega
  · rfl

theorem shifted_of_not (low : ℤ) (high : Option ℤ) (delta : ℤ) (h : inGroup versionId p s = false) :
    shifted versionId p low high delta s = s := by
  rw [shifted, h, Bool.false_and]
  exact if_neg Bool.false_ne_true

theorem shifted_eq (low : ℤ) (high : Option ℤ) (delta : ℤ) (s : ItemSnapshot) :
    shifted versionId p low high delta s =
      { s with priorityOrder := (shifted versionId p low high delta s).priorityOrder } := by
  rw [shifted]
  split <;> rfl

theorem orderOf_shifted {o : ℤ} (ho : s.priorityOrder = some o) (hs : inGroup versionId p s)
    (low : ℤ) (high : Option ℤ) (delta : ℤ) :
    orderOf (shifted versionId p low high delta s) =
      if low ≤ o ∧ (∀ h ∈ high, o ≤ h) then o + delta else o := by
  have hband : inBand low high s = true ↔ low ≤ o ∧ ∀ h ∈ high, o ≤ h := by
    simp [inBand, ho, Option.all_eq_true]
  rw [shifted, hs, Bool.true_and]
  simp only [hband]
  split
  · simp [orderOf, ho]
  · simp [orderOf, ho]

theorem inGroup_shifted (q : StockReportPriority) (w : ClientId) (low : ℤ) (high : Option ℤ)
    (delta : ℤ) : inGroup w q (shifted versionId p low high delta s) = inGroup w q s := by
  rw [shifted]
  split <;> rfl

end Shifted

section Sequence

variable {db db' : Db} {versionId : ClientId} {p : StockReportPriority} {s u : ItemSnapshot}

theorem mem_members : u ∈ members db versionId p ↔
    u ∈ db.snapshots ∧ inGroup versionId p u := List.mem_filter

theorem groupSequence_eq {L : List ItemSnapshot} (hL : InPlace orderOf L)
    (hp : (members db versionId p).Perm L) :
    groupSequence db versionId p = L.map ItemSnapshot.clientId := by
  rw [groupSequence, hL.sortBy_eq hp]

theorem DenseGroup.place (h : DenseGroup db versionId p) (hs : s ∈ members db versionId p)
    {position : ℤ} (hposition : s.priorityOrder = some position) :
    ∃ (a : ℕ) (ha : a < (sortBy orderOf (members db versionId p)).length),
      (sortBy orderOf (members db versionId p))[a] = s ∧ position = a + 1 := by
  obtain ⟨a, ha, hget⟩ := List.getElem_of_mem (mem_sortBy.mpr hs : s ∈ sortBy orderOf _)
  refine ⟨a, ha, hget, ?_⟩
  have horder := inPlace_sortBy h.dense a ha
  rw [hget, orderOf, hposition, Option.getD_some] at horder
  exact horder

end Sequence

section SetOrder

variable {db : Db} {p : StockReportPriority} {position target : ℤ} {s u : ItemSnapshot}

/-- A snapshot after `s` moved inside its group. -/
def movedWithin (s : ItemSnapshot) (p : StockReportPriority) (position target : ℤ)
    (u : ItemSnapshot) : ItemSnapshot :=
  let v := if target < position then shifted s.versionId p target (some (position - 1)) 1 u
    else shifted s.versionId p (position + 1) (some target) (-1) u
  if v.clientId == s.clientId then { v with priority := some p, priorityOrder := some target }
  else v

theorem setOrder_snapshots (hne : target ≠ position) :
    (setPlace (shiftWithinGroup db s.versionId p position target) s.clientId (some p)
      (some target)).snapshots = db.snapshots.map (movedWithin s p position target) := by
  have hshift : (shiftWithinGroup db s.versionId p position target).snapshots =
      db.snapshots.map fun u =>
        if target < position then shifted s.versionId p target (some (position - 1)) 1 u
        else shifted s.versionId p (position + 1) (some target) (-1) u := by
    rw [shiftWithinGroup, if_neg hne]
    split <;> exact shift_snapshots _ _ _
  rw [setPlace, hshift, updateWhere, List.map_map]
  rfl

theorem movedWithin_self : movedWithin s p position target s =
    { s with priority := some p, priorityOrder := some target } := by
  have hid : ∀ low high delta, (shifted s.versionId p low high delta s).clientId = s.clientId := by
    intro low high delta
    rw [shifted_eq]
  simp only [movedWithin]
  split
  · rw [if_pos (by simpa using hid _ _ _), shifted_eq]
  · rw [if_pos (by simpa using hid _ _ _), shifted_eq]

theorem movedWithin_of_ne (h : u.clientId ≠ s.clientId) : movedWithin s p position target u =
    if target < position then shifted s.versionId p target (some (position - 1)) 1 u
    else shifted s.versionId p (position + 1) (some target) (-1) u := by
  simp only [movedWithin]
  split <;> (rw [if_neg]; rw [shifted_eq]; simpa using h)

theorem movedWithin_clientId : (movedWithin s p position target u).clientId = u.clientId := by
  simp only [movedWithin]
  split_ifs <;> rw [shifted_eq]

theorem movedWithin_of_not (hs : inGroup s.versionId p s)
    (hkey : u.clientId = s.clientId → u = s) (hu : inGroup s.versionId p u = false) :
    movedWithin s p position target u = u := by
  have hne : u.clientId ≠ s.clientId := by
    intro he
    rw [hkey he, hs] at hu
    cases hu
  rw [movedWithin_of_ne hne, shifted_of_not _ _ _ hu, shifted_of_not _ _ _ hu, ite_self]

theorem inGroup_movedWithin (hs : inGroup s.versionId p s) (hkey : u.clientId = s.clientId → u = s)
    (w : ClientId) (q : StockReportPriority) :
    inGroup w q (movedWithin s p position target u) = inGroup w q u := by
  by_cases he : u.clientId = s.clientId
  · have hp : s.priority = some p := by
      simp only [inGroup, Bool.and_eq_true, beq_iff_eq] at hs
      exact hs.1.2
    rw [hkey he, movedWithin_self]
    simp only [inGroup, hp, isSnapshotOpen]
  · rw [movedWithin_of_ne he]
    split <;> exact inGroup_shifted _ _ _ _ _

theorem orderOf_movedWithin (hk : Keyed ItemSnapshot.clientId db.snapshots)
    (hd : DenseGroup db s.versionId p) (hs : s ∈ members db s.versionId p)
    (hposition : s.priorityOrder = some position) (hu : u ∈ members db s.versionId p) :
    orderOf (movedWithin s p position target u) = DenseOrder.moved position target (orderOf u) := by
  by_cases he : u.clientId = s.clientId
  · obtain rfl := hk.inj (mem_members.mp hu).1 (mem_members.mp hs).1 he
    rw [movedWithin_self, DenseOrder.moved, orderOf, orderOf, hposition,
      Option.getD_some, Option.getD_some,
      if_pos rfl]
  · obtain ⟨o, ho⟩ := Option.isSome_iff_exists.mp (hd.ordered u hu)
    have huo : orderOf u = o := by rw [orderOf, ho, Option.getD_some]
    have hne : o ≠ position := by
      rintro rfl
      refine he (congrArg ItemSnapshot.clientId (hd.dense.inj hu hs ?_))
      rw [orderOf, orderOf, ho, hposition]
    rw [movedWithin_of_ne he, DenseOrder.moved, huo, if_neg hne]
    split
    · rw [orderOf_shifted ho (mem_members.mp hu).2]
      simp only [Option.mem_some_iff, forall_eq']
      split_ifs <;> omega
    · rw [orderOf_shifted ho (mem_members.mp hu).2]
      simp only [Option.mem_some_iff, forall_eq']
      split_ifs <;> omega

/-- Setting an order takes the element out of its place and inserts it at the new one. -/
theorem groupSequence_setOrder {db' : Db} (hk : Keyed ItemSnapshot.clientId db.snapshots)
    (hd : DenseGroup db s.versionId p) (hs : s ∈ members db s.versionId p)
    (hposition : s.priorityOrder = some position) (hlow : 1 ≤ target)
    (hhigh : target ≤ (members db s.versionId p).length)
    (hdb : db'.snapshots = db.snapshots.map (movedWithin s p position target)) :
    groupSequence db' s.versionId p =
      ((groupSequence db s.versionId p).eraseIdx (position - 1).toNat).insertIdx
        (target - 1).toNat s.clientId := by
  let L := sortBy orderOf (members db s.versionId p)
  have hperm : L.Perm (members db s.versionId p) := sortBy_perm _ _
  obtain ⟨a, ha, hget, hplace⟩ := hd.place hs hposition
  obtain ⟨b, hb, htarget⟩ : ∃ b : ℕ, b < L.length ∧ target = b + 1 := by
    refine ⟨(target - 1).toNat, ?_, by omega⟩
    rw [hperm.length_eq]
    omega
  have hmembers : members db' s.versionId p =
      (members db s.versionId p).map (movedWithin s p position target) := by
    rw [members, members, hdb, List.filter_map]
    congr 1
    refine List.filter_congr fun u hu => ?_
    exact inGroup_movedWithin (mem_members.mp hs).2 (hk.inj hu (mem_members.mp hs).1) _ _
  have hL : InPlace orderOf
    (((L.eraseIdx a).insertIdx b s).map (movedWithin s p position target)) := by
    rw [inPlace_map, ← hget]
    refine (inPlace_sortBy hd.dense).move ha hb fun u hu => ?_
    rw [← hplace, ← htarget, hget]
    exact orderOf_movedWithin hk hd hs hposition (mem_sortBy.mp hu)
  have hsame : (members db' s.versionId p).Perm
      (((L.eraseIdx a).insertIdx b s).map (movedWithin s p position target)) := by
    have hmove := perm_move ha hb
    rw [hget] at hmove
    rw [hmembers]
    exact (hperm.symm.trans hmove.symm).map _
  have hids : ItemSnapshot.clientId ∘ movedWithin s p position target = ItemSnapshot.clientId := by
    funext u
    exact movedWithin_clientId
  have hna : (position - 1).toNat = a := by omega
  have hnb : (target - 1).toNat = b := by omega
  rw [groupSequence_eq hL hsame, List.map_map, hids, List.map_insertIdx, ← List.eraseIdx_map,
    groupSequence, hna, hnb]

end SetOrder

section SetPriority

variable {db : Db} {destination : Option StockReportPriority} {order : Option ℤ}
  {p : StockReportPriority} {s u : ItemSnapshot}

/-- A snapshot after `s` left its group. -/
def leftBy (s u : ItemSnapshot) : ItemSnapshot :=
  match s.priority, s.priorityOrder with
  | some p, some o => shifted s.versionId p (o + 1) none (-1) u
  | _, _ => u

/-- A snapshot after `s` went to another group. -/
def movedAcross (s : ItemSnapshot) (destination : Option StockReportPriority) (order : Option ℤ)
    (u : ItemSnapshot) : ItemSnapshot :=
  if (leftBy s u).clientId == s.clientId then
    { leftBy s u with priority := destination, priorityOrder := order }
  else leftBy s u

theorem leaveGroup_snapshots : (leaveGroup db s).snapshots = db.snapshots.map (leftBy s) := by
  rcases hp : s.priority with _ | p
  · have hid : leftBy s = id := by
      funext u
      simp only [leftBy, hp, id_eq]
    simp only [leaveGroup, hp, hid, List.map_id]
  · rcases ho : s.priorityOrder with _ | o
    · have hid : leftBy s = id := by
        funext u
        simp only [leftBy, hp, ho, id_eq]
      simp only [leaveGroup, hp, ho, closePriorityGap, hid, List.map_id]
    · have hband : leftBy s = shifted s.versionId p (o + 1) none (-1) := by
        funext u
        simp only [leftBy, hp, ho]
      simp only [leaveGroup, hp, ho, closePriorityGap, hband]
      exact shift_snapshots _ _ _

theorem setPriority_snapshots :
    (setPlace (leaveGroup db s) s.clientId destination order).snapshots =
    db.snapshots.map (movedAcross s destination order) := by
  rw [setPlace, leaveGroup_snapshots, updateWhere, List.map_map]
  rfl

theorem leftBy_clientId : (leftBy s u).clientId = u.clientId := by
  rw [leftBy]
  split
  · rw [shifted_eq]
  · rfl

theorem inGroup_leftBy (w : ClientId) (q : StockReportPriority) :
    inGroup w q (leftBy s u) = inGroup w q u := by
  rw [leftBy]
  split
  · exact inGroup_shifted _ _ _ _ _
  · rfl

theorem leftBy_of_not (h : ∀ p, s.priority = some p → inGroup s.versionId p u = false) :
    leftBy s u = u := by
  rw [leftBy]
  split
  · rename_i p o hp ho
    exact shifted_of_not _ _ _ (h p hp)
  · rfl

theorem movedAcross_self : movedAcross s destination order s =
    { leftBy s s with priority := destination, priorityOrder := order } := by
  rw [movedAcross, if_pos (by simpa using leftBy_clientId)]

theorem movedAcross_of_ne (h : u.clientId ≠ s.clientId) :
    movedAcross s destination order u = leftBy s u := by
  rw [movedAcross, if_neg]
  rw [leftBy_clientId]
  simpa using h

theorem movedAcross_clientId : (movedAcross s destination order u).clientId = u.clientId := by
  rw [movedAcross]
  split <;> exact leftBy_clientId

theorem leftBy_place : (leftBy s u).versionId = u.versionId ∧
    (leftBy s u).closedAt = u.closedAt := by
  rw [leftBy]
  split
  · rw [shifted_eq]
    exact ⟨rfl, rfl⟩
  · exact ⟨rfl, rfl⟩

theorem inGroup_movedAcross_self (hopen : isSnapshotOpen s) (w : ClientId)
    (q : StockReportPriority) :
    inGroup w q (movedAcross s destination order s) =
      (s.versionId == w && destination == some q) := by
  obtain ⟨hversion, hclosed⟩ := leftBy_place (s := s) (u := s)
  rw [movedAcross_self]
  simp only [inGroup, isSnapshotOpen, hversion, hclosed] at hopen ⊢
  rw [hopen, Bool.and_true]

/-- The members of a group that `s` is not in afterwards. -/
theorem members_movedAcross {db' : Db} (hk : Keyed ItemSnapshot.clientId db.snapshots)
    (hs : s ∈ db.snapshots) (hopen : isSnapshotOpen s)
    (hdb : db'.snapshots = db.snapshots.map (movedAcross s destination order))
    {w : ClientId} {q : StockReportPriority} (hq : destination ≠ some q) :
    members db' w q = ((members db w q).filter fun u => u.clientId ≠ s.clientId).map
      (movedAcross s destination order) := by
  rw [members, members, hdb, List.filter_map, List.filter_filter]
  congr 1
  refine List.filter_congr fun u hu => ?_
  rw [Function.comp_apply]
  by_cases he : u.clientId = s.clientId
  · obtain rfl := hk.inj hu hs he
    rw [inGroup_movedAcross_self hopen]
    simp [hq]
  · rw [movedAcross_of_ne he, inGroup_leftBy]
    simp [he]

/-- The element leaves its source sequence. -/
theorem groupSequence_source {db' : Db} (hk : Keyed ItemSnapshot.clientId db.snapshots)
    (hopen : isSnapshotOpen s) (hp : s.priority = some p)
    (hd : DenseGroup db s.versionId p) (hs : s ∈ members db s.versionId p)
    (hne : destination ≠ some p)
    (hdb : db'.snapshots = db.snapshots.map (movedAcross s destination order)) :
    groupSequence db' s.versionId p = (groupSequence db s.versionId p).erase s.clientId := by
  let L := sortBy orderOf (members db s.versionId p)
  have hperm : L.Perm (members db s.versionId p) := sortBy_perm _ _
  obtain ⟨position, hposition⟩ := Option.isSome_iff_exists.mp (hd.ordered s hs)
  obtain ⟨a, ha, hget, hplace⟩ := hd.place hs hposition
  have hkeyed : Keyed ItemSnapshot.clientId (members db s.versionId p) := keyed_filter hk _
  -- the others, in their places
  have hothers : ((members db s.versionId p).filter fun u => u.clientId ≠ s.clientId).Perm
      (L.eraseIdx a) := by
    have hcons := getElem_cons_eraseIdx_perm ha
    rw [hget] at hcons
    exact ((hkeyed.perm_cons hs).symm.trans (hperm.symm.trans hcons.symm)).cons_inv
  have hL : InPlace orderOf ((L.eraseIdx a).map (movedAcross s destination order)) := by
    rw [inPlace_map]
    refine (inPlace_sortBy hd.dense).remove ha fun u hu => ?_
    obtain ⟨hu, hne⟩ := List.mem_filter.mp (hothers.mem_iff.mpr hu)
    obtain ⟨o, ho⟩ := Option.isSome_iff_exists.mp (hd.ordered u hu)
    have huo : orderOf u = o := by rw [orderOf, ho, Option.getD_some]
    rw [movedAcross_of_ne (by simpa using hne), leftBy, hp, hposition, ← hplace, huo, closedUp]
    simp only
    rw [orderOf_shifted ho (mem_members.mp hu).2]
    simp only [Option.mem_def, reduceCtorEq, false_implies, implies_true, and_true]
    split_ifs <;> omega
  have hsame : (members db' s.versionId p).Perm
      ((L.eraseIdx a).map (movedAcross s destination order)) := by
    rw [members_movedAcross hk (mem_members.mp hs).1 hopen hdb hne]
    exact hothers.map _
  have hids : ItemSnapshot.clientId ∘ movedAcross s destination order = ItemSnapshot.clientId := by
    funext u
    exact movedAcross_clientId
  have hnodup : (L.map ItemSnapshot.clientId).Nodup :=
    (hperm.map ItemSnapshot.clientId).nodup_iff.mpr hkeyed
  have herase : (L.map ItemSnapshot.clientId).erase s.clientId =
      (L.map ItemSnapshot.clientId).eraseIdx a := by
    have h := hnodup.erase_getElem a (by simpa using ha)
    rwa [List.getElem_map, hget] at h
  rw [groupSequence_eq hL hsame, List.map_map, hids, ← List.eraseIdx_map, groupSequence, herase]

theorem leftBy_of_mem (hne : s.priority ≠ some p) (hu : u ∈ members db s.versionId p) :
    leftBy s u = u := by
  refine leftBy_of_not fun q hq => ?_
  have hpu : u.priority = some p := by
    have := (mem_members.mp hu).2
    simp only [inGroup, Bool.and_eq_true, beq_iff_eq] at this
    exact this.1.2
  have hqp : q ≠ p := fun he => hne (by rw [hq, he])
  simp [inGroup, hpu, Ne.symm hqp]

theorem DenseGroup.filterMap_eq {v : ClientId} (h : DenseGroup db v p) :
    (members db v p).filterMap ItemSnapshot.priorityOrder = (members db v p).map orderOf := by
  rw [← List.filterMap_eq_map]
  refine List.filterMap_congr fun u hu => ?_
  obtain ⟨o, ho⟩ := Option.isSome_iff_exists.mp (h.ordered u hu)
  rw [Function.comp_apply, orderOf, ho, Option.getD_some]

theorem appendToPriorityGroup_eq (hne : s.priority ≠ some p) (hd : DenseGroup db s.versionId p) :
    appendToPriorityGroup (leaveGroup db s) s.versionId p =
      (members db s.versionId p).length + 1 := by
  have hmembers : (leaveGroup db s).snapshots.filter (inGroup s.versionId p) =
      members db s.versionId p := by
    rw [leaveGroup_snapshots, List.filter_map]
    have hfilter : db.snapshots.filter (inGroup s.versionId p ∘ leftBy s) =
        members db s.versionId p := List.filter_congr fun u _ => inGroup_leftBy _ _
    rw [hfilter]
    conv_rhs => rw [← List.map_id (members db s.versionId p)]
    exact List.map_congr_left fun u hu => leftBy_of_mem hne hu
  rw [appendToPriorityGroup, hmembers, hd.filterMap_eq, hd.dense.max?_getD]

/-- The element comes last in its destination sequence. -/
theorem groupSequence_destination {db' : Db} (hk : Keyed ItemSnapshot.clientId db.snapshots)
    (hs : s ∈ db.snapshots) (hopen : isSnapshotOpen s) (hne : s.priority ≠ some p)
    (hd : DenseGroup db s.versionId p)
    (hdb : db'.snapshots = db.snapshots.map (movedAcross s (some p)
      (some (appendToPriorityGroup (leaveGroup db s) s.versionId p)))) :
    groupSequence db' s.versionId p = groupSequence db s.versionId p ++ [s.clientId] := by
  rw [appendToPriorityGroup_eq hne hd] at hdb
  let L := sortBy orderOf (members db s.versionId p)
  let f := movedAcross s (some p) (some ((members db s.versionId p).length + 1))
  have hperm : L.Perm (members db s.versionId p) := sortBy_perm _ _
  have hout : inGroup s.versionId p s = false := by
    simp [inGroup, hne]
  have hkeep : ∀ u ∈ members db s.versionId p, f u = u := by
    intro u hu
    have hid : u.clientId ≠ s.clientId := by
      intro he
      obtain rfl := hk.inj (mem_members.mp hu).1 hs he
      rw [(mem_members.mp hu).2] at hout
      cases hout
    exact (movedAcross_of_ne hid).trans (leftBy_of_mem hne hu)
  have hgroup : (db.snapshots.filter (inGroup s.versionId p ∘ f)).Perm
      (s :: members db s.versionId p) := by
    refine ((hk.perm_cons hs).filter _).trans ?_
    have hself : (inGroup s.versionId p ∘ f) s = true := by
      change inGroup s.versionId p (movedAcross s _ _ s) = true
      rw [inGroup_movedAcross_self hopen]
      simp
    rw [List.filter_cons_of_pos hself]
    refine List.Perm.cons s ?_
    have hrest : (db.snapshots.filter fun u => u.clientId ≠ s.clientId).filter
        (inGroup s.versionId p ∘ f) = (db.snapshots.filter fun u =>
          u.clientId ≠ s.clientId).filter (inGroup s.versionId p) := by
      refine List.filter_congr fun u hu => ?_
      have hid : u.clientId ≠ s.clientId := by simpa using (List.mem_filter.mp hu).2
      change inGroup s.versionId p (movedAcross s _ _ u) = _
      rw [movedAcross_of_ne hid, inGroup_leftBy]
    have hothers := (hk.perm_cons hs).filter (inGroup s.versionId p)
    rw [List.filter_cons_of_neg (by rw [hout]; exact Bool.false_ne_true)] at hothers
    rw [hrest]
    exact hothers.symm
  have hL : InPlace orderOf ((L ++ [s]).map f) := by
    rw [inPlace_map]
    refine InPlace.append ?_ ?_
    · intro i hi
      have hmem : L[i] ∈ members db s.versionId p := mem_sortBy.mp (List.getElem_mem hi)
      change orderOf (f L[i]) = _
      rw [hkeep _ hmem]
      exact inPlace_sortBy hd.dense i hi
    · change orderOf (movedAcross s _ _ s) = _
      rw [movedAcross_self, hperm.length_eq]
      rfl
  have hsame : (members db' s.versionId p).Perm ((L ++ [s]).map f) := by
    rw [members, hdb, List.filter_map]
    refine (hgroup.trans ?_).map _
    exact (hperm.symm.cons s).trans (List.perm_append_singleton s L).symm
  have hids : ItemSnapshot.clientId ∘ f = ItemSnapshot.clientId := by
    funext u
    exact movedAcross_clientId
  rw [groupSequence_eq hL hsame, List.map_map, hids, List.map_append, groupSequence]
  rfl

end SetPriority

end BeyoManager.StockReport
