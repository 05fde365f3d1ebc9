import BeyoManager.StockReport.Ordering

/-! # The merge of priorities

Applying one version's order onto another renumbers every priority group of the target: first the
snapshots whose rows the source holds, in the source's order, then the others in their own.
Applying the same source again changes nothing.
-/

namespace BeyoManager.StockReport

open Relational Sorting

/-- Write the places of a merge onto the target. -/
def writeMerge (target : List ItemSnapshot)
    (changed : List (ClientId × Option StockReportPriority × Option ℤ)) : List ItemSnapshot :=
  target.map fun s =>
    match changed.find? fun c => c.1 == s.clientId with
    | some c => { s with priority := c.2.1, priorityOrder := c.2.2 }
    | none => s

def placed (target source : List ItemSnapshot) (s : ItemSnapshot) : ItemSnapshot :=
  { s with
    priority := (proposedPriority (sourceByRow source) target s).1
    priorityOrder := (proposedPriority (sourceByRow source) target s).2 }

/-- Both snapshots stand in one group, the first of them earlier. -/
def Before (s t : ItemSnapshot) : Prop :=
  s.priority = t.priority ∧ ∃ i j, s.priorityOrder = some i ∧ t.priorityOrder = some j ∧ i < j

variable {target source : List ItemSnapshot} {s t o : ItemSnapshot} {p : StockReportPriority}

section Placed

abbrev placeKey (source : List ItemSnapshot) (s : ItemSnapshot) : ℕ ×ₗ ℤ ×ₗ String :=
  (proposedPlace (sourceByRow source) s).2

theorem placed_self (h : proposedPriority (sourceByRow source) target s =
    (s.priority, s.priorityOrder)) : placed target source s = s := by
  rw [placed, h]

theorem writeMerge_eq (hk : Keyed ItemSnapshot.clientId target) :
    writeMerge target (mergePriorityOrders target source) = target.map (placed target source) := by
  refine List.map_congr_left fun s hs => ?_
  rw [mergePriorityOrders, List.find?_map]
  cases hfind : (target.filter fun s =>
      proposedPriority (sourceByRow source) target s ≠ (s.priority, s.priorityOrder)).find?
        ((fun c => c.1 == s.clientId) ∘ fun s =>
          (s.clientId, proposedPriority (sourceByRow source) target s)) with
  | some t =>
    obtain ⟨ht, hkey⟩ : t ∈ target ∧ t.clientId = s.clientId :=
      ⟨(List.mem_filter.mp (List.mem_of_find?_eq_some hfind)).1, by
        simpa using List.find?_some hfind⟩
    obtain rfl := hk.inj ht hs hkey
    rfl
  | none =>
    have hsame : proposedPriority (sourceByRow source) target s =
        (s.priority, s.priorityOrder) := by
      by_contra hne
      have := List.find?_eq_none.mp hfind s (List.mem_filter.mpr ⟨hs, by simpa using hne⟩)
      simp at this
    exact (placed_self hsame).symm

theorem sourceByRow_eq (hsource : Keyed ItemSnapshot.stockReportItemId source) (ho : o ∈ source)
    (hrow : o.stockReportItemId = s.stockReportItemId) :
    sourceByRow source s.stockReportItemId = some o := by
  have hreverse : Keyed ItemSnapshot.stockReportItemId source.reverse :=
    hsource.perm (List.reverse_perm source)
  have hfind := hreverse.find?_eq (List.mem_reverse.mpr ho)
  rw [hrow] at hfind
  simpa [sourceByRow, beq_eq_decide] using hfind

theorem sourceByRow_none (h : ∀ o ∈ source, o.stockReportItemId ≠ s.stockReportItemId) :
    sourceByRow source s.stockReportItemId = none := by
  rw [sourceByRow, List.find?_eq_none]
  intro o ho
  simpa using h o (List.mem_reverse.mp ho)

theorem proposedPriority_fst : (proposedPriority (sourceByRow source) target s).1 =
    (proposedPlace (sourceByRow source) s).1 := by
  rw [proposedPriority]
  split
  · rename_i h
    exact h.symm
  · rename_i h
    exact h.symm

theorem proposedPlace_placed : (proposedPlace (sourceByRow source) (placed target source s)).1 =
    (proposedPlace (sourceByRow source) s).1 := by
  have hrow : (placed target source s).stockReportItemId = s.stockReportItemId := rfl
  rw [proposedPlace, hrow]
  cases ho : sourceByRow source s.stockReportItemId with
  | some o => rw [proposedPlace, ho]
  | none => exact proposedPriority_fst

theorem placeKey_inj (h : placeKey source s = placeKey source t) : s.clientId = t.clientId := by
  rw [placeKey, placeKey, proposedPlace, proposedPlace] at h
  cases hs : sourceByRow source s.stockReportItemId <;>
    cases ht : sourceByRow source t.stockReportItemId <;> rw [hs, ht] at h <;>
    simp_all [Prod.ext_iff]

theorem mem_proposedGroup : s ∈ proposedGroup (sourceByRow source) target p ↔
    s ∈ target ∧ (proposedPlace (sourceByRow source) s).1 = some p := by
  rw [proposedGroup, mem_sortBy, List.mem_filter, decide_eq_true_eq]

theorem proposedPriority_of_mem (h : s ∈ proposedGroup (sourceByRow source) target p) :
    proposedPriority (sourceByRow source) target s =
      (some p, some (((proposedGroup (sourceByRow source) target p).idxOf s : ℕ) + 1 : ℤ)) := by
  unfold proposedPriority
  rw [(mem_proposedGroup.mp h).2]

theorem idxOf_proposedGroup_lt_iff (hk : Keyed ItemSnapshot.clientId target)
    (hs : s ∈ proposedGroup (sourceByRow source) target p)
    (ht : t ∈ proposedGroup (sourceByRow source) target p) :
    (proposedGroup (sourceByRow source) target p).idxOf s <
        (proposedGroup (sourceByRow source) target p).idxOf t ↔
      placeKey source s < placeKey source t := by
  refine idxOf_sortBy_lt_iff ?_ (mem_sortBy.mp hs) (mem_sortBy.mp ht)
  intro a ha b hb hab
  exact hk.inj (List.mem_filter.mp ha).1 (List.mem_filter.mp hb).1 (placeKey_inj hab)

theorem before_iff (hk : Keyed ItemSnapshot.clientId target)
    (hs : s ∈ proposedGroup (sourceByRow source) target p)
    (ht : t ∈ proposedGroup (sourceByRow source) target p) :
    Before (placed target source s) (placed target source t) ↔
      placeKey source s < placeKey source t := by
  rw [← idxOf_proposedGroup_lt_iff hk hs ht, Before, placed, placed,
    proposedPriority_of_mem hs, proposedPriority_of_mem ht]
  simp

theorem placeKey_of_source (h : sourceByRow source s.stockReportItemId = some o) :
    placeKey source s = toLex (0, toLex (o.priorityOrder.getD 0, s.clientId)) := by
  rw [placeKey, proposedPlace, h]

theorem placeKey_of_kept (h : sourceByRow source s.stockReportItemId = none) :
    placeKey source s = toLex (1, toLex (s.priorityOrder.getD 0, s.clientId)) := by
  rw [placeKey, proposedPlace, h]

/-- The keys of the placed snapshots of a group stand as the keys before. -/
theorem placeKey_placed_lt_iff (hk : Keyed ItemSnapshot.clientId target)
    (hs : s ∈ proposedGroup (sourceByRow source) target p)
    (ht : t ∈ proposedGroup (sourceByRow source) target p) :
    placeKey source (placed target source s) < placeKey source (placed target source t) ↔
      placeKey source s < placeKey source t := by
  have hidx := idxOf_proposedGroup_lt_iff hk hs ht
  cases ho : sourceByRow source s.stockReportItemId with
  | some o =>
    have hplaced : sourceByRow source (placed target source s).stockReportItemId = some o := ho
    have hsame : placeKey source (placed target source s) = placeKey source s :=
      (placeKey_of_source hplaced).trans (placeKey_of_source ho).symm
    rw [hsame]
    cases hq : sourceByRow source t.stockReportItemId with
    | some q =>
      have hplaced' : sourceByRow source (placed target source t).stockReportItemId = some q := hq
      rw [placeKey_of_source hplaced', placeKey_of_source hq]
      rfl
    | none =>
      have hplaced' : sourceByRow source (placed target source t).stockReportItemId = none := hq
      rw [placeKey_of_source ho, placeKey_of_kept hplaced', placeKey_of_kept hq]
      simp [Prod.Lex.toLex_lt_toLex]
  | none =>
    have hplaced : sourceByRow source (placed target source s).stockReportItemId = none := ho
    cases hq : sourceByRow source t.stockReportItemId with
    | some q =>
      have hplaced' : sourceByRow source (placed target source t).stockReportItemId = some q := hq
      rw [placeKey_of_kept hplaced, placeKey_of_source hplaced', placeKey_of_kept ho,
        placeKey_of_source hq]
      simp [Prod.Lex.toLex_lt_toLex]
    | none =>
      -- both are kept: their new orders are their positions
      have hplaced' : sourceByRow source (placed target source t).stockReportItemId = none := hq
      rw [← hidx, placeKey_of_kept hplaced, placeKey_of_kept hplaced', placed, placed,
        proposedPriority_of_mem hs, proposedPriority_of_mem ht]
      simp only [Option.getD_some, Prod.Lex.toLex_lt_toLex, lt_self_iff_false, true_and, false_or,
        add_lt_add_iff_right, add_left_inj, Nat.cast_lt, Nat.cast_inj]
      refine or_iff_left ?_
      rintro ⟨heq, hlt⟩
      rw [(List.idxOf_inj hs).mp heq] at hlt
      exact lt_irrefl _ hlt

theorem proposedGroup_placed (hk : Keyed ItemSnapshot.clientId target) :
    proposedGroup (sourceByRow source) (target.map (placed target source)) p =
      (proposedGroup (sourceByRow source) target p).map (placed target source) := by
  have hmembers : (target.map (placed target source)).filter
      (fun s => (proposedPlace (sourceByRow source) s).1 = some p) =
        (target.filter fun s => (proposedPlace (sourceByRow source) s).1 = some p).map
          (placed target source) := by
    rw [List.filter_map]
    congr 1
    refine List.filter_congr fun s _ => ?_
    rw [Function.comp_apply, proposedPlace_placed]
  rw [proposedGroup, hmembers]
  refine (map_sortBy _ _ fun a ha b hb => ?_).symm
  have ha : a ∈ proposedGroup (sourceByRow source) target p := mem_sortBy.mpr ha
  have hb : b ∈ proposedGroup (sourceByRow source) target p := mem_sortBy.mpr hb
  rw [← not_lt, ← not_lt]
  exact not_congr (placeKey_placed_lt_iff hk hb ha).symm

/-- For a placed snapshot the merge proposes the place that it has. -/
theorem proposedPriority_placed (hk : Keyed ItemSnapshot.clientId target) (hs : s ∈ target) :
    proposedPriority (sourceByRow source) (target.map (placed target source))
        (placed target source s) =
      ((placed target source s).priority, (placed target source s).priorityOrder) := by
  have hplace := @proposedPlace_placed target source s
  cases hp : (proposedPlace (sourceByRow source) s).1 with
  | none =>
    rw [hp] at hplace
    have hnone : proposedPriority (sourceByRow source) target s = (none, none) := by
      unfold proposedPriority
      rw [hp]
    rw [placed, hnone]
    unfold proposedPriority
    rw [placed, hnone] at hplace
    rw [hplace]
  | some p =>
    rw [hp] at hplace
    have hmem : s ∈ proposedGroup (sourceByRow source) target p :=
      mem_proposedGroup.mpr ⟨hs, hp⟩
    have hmem' : placed target source s ∈
        proposedGroup (sourceByRow source) (target.map (placed target source)) p :=
      mem_proposedGroup.mpr ⟨List.mem_map_of_mem hs, hplace⟩
    have hidx : ((proposedGroup (sourceByRow source) target p).map (placed target source)).idxOf
        (placed target source s) = (proposedGroup (sourceByRow source) target p).idxOf s := by
      refine idxOf_map_of_injOn hmem fun t ht he => ?_
      have hid : (placed target source t).clientId = (placed target source s).clientId := by
        rw [he]
      exact hk.inj (mem_proposedGroup.mp ht).1 hs hid
    rw [proposedPriority_of_mem hmem', proposedGroup_placed hk, hidx, placed,
      proposedPriority_of_mem hmem]

end Placed

section Result

/-- What writing a merge onto the target comes to. -/
structure Merged (target source : List ItemSnapshot)
    (changed : List (ClientId × Option StockReportPriority × Option ℤ))
    (written : List ItemSnapshot) : Prop where
  /-- Only the places are written. -/
  others : written.map (fun s => { s with priority := none, priorityOrder := none }) =
    target.map fun s => { s with priority := none, priorityOrder := none }
  numbered : ∀ p, ((written.filter fun s => s.priority = some p).map
    ItemSnapshot.priorityOrder).Perm
      ((List.range (written.countP fun s => s.priority = some p)).map fun i : ℕ =>
        some ((i : ℤ) + 1))
  unplaced : ∀ w ∈ written, w.priority = none → w.priorityOrder = none
  taken : ∀ s ∈ target, ∀ w ∈ written, w.clientId = s.clientId →
    ∀ o ∈ source, o.stockReportItemId = s.stockReportItemId → w.priority = o.priority
  kept : ∀ s ∈ target, ∀ w ∈ written, w.clientId = s.clientId →
    (∀ o ∈ source, o.stockReportItemId ≠ s.stockReportItemId) → w.priority = s.priority
  takenFirst : ∀ w ∈ written, ∀ w' ∈ written, w.priority = w'.priority → w.priority.isSome →
    (∃ o ∈ source, o.stockReportItemId = w.stockReportItemId) →
      (∀ o ∈ source, o.stockReportItemId ≠ w'.stockReportItemId) → Before w w'
  takenOrder : ∀ w ∈ written, ∀ w' ∈ written, w.priority = w'.priority → w.priority.isSome →
    ∀ o ∈ source, ∀ o' ∈ source, o.stockReportItemId = w.stockReportItemId →
      o'.stockReportItemId = w'.stockReportItemId →
        o.priorityOrder.getD 0 < o'.priorityOrder.getD 0 → Before w w'
  keptOrder : ∀ s ∈ target, ∀ s' ∈ target, ∀ w ∈ written, ∀ w' ∈ written,
    w.clientId = s.clientId → w'.clientId = s'.clientId → w.priority = w'.priority →
      w.priority.isSome → (∀ o ∈ source, o.stockReportItemId ≠ s.stockReportItemId) →
        (∀ o ∈ source, o.stockReportItemId ≠ s'.stockReportItemId) →
          s.priorityOrder.getD 0 < s'.priorityOrder.getD 0 → Before w w'
  changed_iff : ∀ c, c ∈ changed ↔ ∃ s ∈ target, ∃ w ∈ written, w.clientId = s.clientId ∧
    (w.priority, w.priorityOrder) ≠ (s.priority, s.priorityOrder) ∧
      c = (w.clientId, w.priority, w.priorityOrder)
  again : mergePriorityOrders written source = []

theorem before_of_placeKey_lt (hk : Keyed ItemSnapshot.clientId target) (hs : s ∈ target)
    (ht : t ∈ target)
    (hp : (placed target source s).priority = (placed target source t).priority)
    (hsome : (placed target source s).priority.isSome)
    (hlt : placeKey source s < placeKey source t) :
    Before (placed target source s) (placed target source t) := by
  obtain ⟨p, hsp⟩ := Option.isSome_iff_exists.mp hsome
  rw [hsp] at hp
  have hms : s ∈ proposedGroup (sourceByRow source) target p :=
    mem_proposedGroup.mpr ⟨hs, proposedPriority_fst.symm.trans hsp⟩
  have hmt : t ∈ proposedGroup (sourceByRow source) target p :=
    mem_proposedGroup.mpr ⟨ht, proposedPriority_fst.symm.trans hp.symm⟩
  exact (before_iff hk hms hmt).mpr hlt

theorem orders_placed (hk : Keyed ItemSnapshot.clientId target) (p : StockReportPriority) :
    (((target.map (placed target source)).filter fun s => s.priority = some p).map
      ItemSnapshot.priorityOrder).Perm
        ((List.range ((target.map (placed target source)).countP fun s =>
          s.priority = some p)).map fun i : ℕ => some ((i : ℤ) + 1)) := by
  have hmembers : (target.map (placed target source)).filter (fun s => s.priority = some p) =
      (target.filter fun s => (proposedPlace (sourceByRow source) s).1 = some p).map
        (placed target source) := by
    rw [List.filter_map]
    congr 1
    refine List.filter_congr fun s _ => ?_
    rw [Function.comp_apply, placed, proposedPriority_fst]
  let group := proposedGroup (sourceByRow source) target p
  have hperm : group.Perm
      (target.filter fun s => (proposedPlace (sourceByRow source) s).1 = some p) :=
    sortBy_perm _ _
  have hnodup : group.Nodup := nodup_sortBy.mpr ((hk.nodup).filter _)
  have horders : (group.map (placed target source)).map ItemSnapshot.priorityOrder =
      (List.range group.length).map fun i : ℕ => some ((i : ℤ) + 1) := by
    rw [← map_idxOf_self hnodup, List.map_map, List.map_map]
    refine List.map_congr_left fun s hs => ?_
    rw [Function.comp_apply, placed, proposedPriority_of_mem hs]
    rfl
  rw [List.countP_eq_length_filter, hmembers, List.length_map, ← hperm.length_eq, ← horders]
  exact ((hperm.map _).map _).symm

theorem mem_mergePriorityOrders {c : ClientId × Option StockReportPriority × Option ℤ} :
    c ∈ mergePriorityOrders target source ↔ ∃ s ∈ target,
      proposedPriority (sourceByRow source) target s ≠ (s.priority, s.priorityOrder) ∧
        c = (s.clientId, proposedPriority (sourceByRow source) target s) := by
  simp only [mergePriorityOrders, List.mem_map, List.mem_filter, decide_eq_true_eq, and_assoc,
    eq_comm (a := c)]

theorem merge_priorities_keeps_order (hids : Keyed ItemSnapshot.clientId target)
    (hsource : Keyed ItemSnapshot.stockReportItemId source) :
    Merged target source (mergePriorityOrders target source)
      (writeMerge target (mergePriorityOrders target source)) := by
  rw [writeMerge_eq hids]
  -- a written snapshot is the placed one with its id
  have hplaced : ∀ s ∈ target, ∀ w ∈ target.map (placed target source),
      w.clientId = s.clientId → w = placed target source s := by
    intro s hs w hw hid
    obtain ⟨t, ht, rfl⟩ := List.mem_map.mp hw
    rw [hids.inj ht hs hid]
  constructor
  · rw [List.map_map]
    exact List.map_congr_left fun s _ => rfl
  · exact orders_placed hids
  · intro w hw hnone
    obtain ⟨s, hs, rfl⟩ := List.mem_map.mp hw
    have hplace : (proposedPlace (sourceByRow source) s).1 = none :=
      proposedPriority_fst.symm.trans hnone
    rw [placed]
    unfold proposedPriority
    rw [hplace]
  · intro s hs w hw hid o ho hrow
    rw [hplaced s hs w hw hid, placed, proposedPriority_fst, proposedPlace,
      sourceByRow_eq hsource ho hrow]
  · intro s hs w hw hid hnone
    rw [hplaced s hs w hw hid, placed, proposedPriority_fst, proposedPlace,
      sourceByRow_none hnone]
  · intro w hw w' hw' hp hsome ⟨o, ho, hrow⟩ hnone
    obtain ⟨s, hs, rfl⟩ := List.mem_map.mp hw
    obtain ⟨t, ht, rfl⟩ := List.mem_map.mp hw'
    refine before_of_placeKey_lt hids hs ht hp hsome ?_
    have hfrom : sourceByRow source s.stockReportItemId = some o := sourceByRow_eq hsource ho hrow
    have hkept : sourceByRow source t.stockReportItemId = none := sourceByRow_none hnone
    rw [placeKey_of_source hfrom, placeKey_of_kept hkept]
    simp [Prod.Lex.toLex_lt_toLex]
  · intro w hw w' hw' hp hsome o ho o' ho' hrow hrow' hlt
    obtain ⟨s, hs, rfl⟩ := List.mem_map.mp hw
    obtain ⟨t, ht, rfl⟩ := List.mem_map.mp hw'
    refine before_of_placeKey_lt hids hs ht hp hsome ?_
    have hfrom : sourceByRow source s.stockReportItemId = some o := sourceByRow_eq hsource ho hrow
    have hfrom' : sourceByRow source t.stockReportItemId = some o' :=
      sourceByRow_eq hsource ho' hrow'
    rw [placeKey_of_source hfrom, placeKey_of_source hfrom']
    simp [Prod.Lex.toLex_lt_toLex, hlt]
  · intro s hs t ht w hw w' hw' hid hid' hp hsome hnone hnone' hlt
    obtain rfl := hplaced s hs w hw hid
    obtain rfl := hplaced t ht w' hw' hid'
    refine before_of_placeKey_lt hids hs ht hp hsome ?_
    rw [placeKey_of_kept (sourceByRow_none hnone), placeKey_of_kept (sourceByRow_none hnone')]
    simp [Prod.Lex.toLex_lt_toLex, hlt]
  · intro c
    rw [mem_mergePriorityOrders]
    constructor
    · rintro ⟨s, hs, hne, rfl⟩
      exact ⟨s, hs, placed target source s, List.mem_map_of_mem hs, rfl, hne, rfl⟩
    · rintro ⟨s, hs, w, hw, hid, hne, rfl⟩
      obtain rfl := hplaced s hs w hw hid
      exact ⟨s, hs, hne, rfl⟩
  · rw [List.eq_nil_iff_forall_not_mem]
    intro c hc
    obtain ⟨w, hw, hne, -⟩ := mem_mergePriorityOrders.mp hc
    obtain ⟨s, hs, rfl⟩ := List.mem_map.mp hw
    exact hne (proposedPriority_placed hids hs)

def placeOnly (clientId versionId rowId : ClientId) (priority : Option StockReportPriority)
    (order : Option ℤ) : ItemSnapshot :=
  ⟨clientId, versionId, rowId, none, none, 0, none, 0, priority, order, none, none⟩

theorem merge_priorities_keeps_order_ties :
    let target := [placeOnly "t1" "board" "bed" (some .high) (some 1),
      placeOnly "t2" "board" "sofa" (some .high) (some 2),
      placeOnly "t3" "board" "desk" none none, placeOnly "t4" "board" "lamp" (some .low) (some 7)]
    let source := [placeOnly "s1" "past" "desk" (some .high) (some 4),
      placeOnly "s2" "past" "lamp" (some .high) (some 4), placeOnly "s3" "past" "rug" none none]
    Merged target source (mergePriorityOrders target source)
      (writeMerge target (mergePriorityOrders target source)) :=
  merge_priorities_keeps_order (by decide) (by decide)

example : (mergePriorityOrders
    [placeOnly "t1" "board" "bed" (some .high) (some 1), placeOnly "t2" "board" "desk" none none]
    [placeOnly "s1" "past" "desk" (some .high) (some 4)]).map Prod.snd =
      [(some .high, some 2), (some .high, some 1)] := by
  decide

end Result

end BeyoManager.StockReport
