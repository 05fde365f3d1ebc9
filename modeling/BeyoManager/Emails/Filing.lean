import BeyoManager.Emails.Inbound

/-! # What one delivered message does

A message whose place is stored changes nothing. Any other message is filed when its columns take
it and the first id by which it is looked up with success names one stored message; it then has
the thread of that message, or a new one.
-/

namespace BeyoManager.Emails

open Relational Transition

/-! ### Subjects fit their column -/

variable {sync : Sync} {db db' : Db} {inbound : InboundMessage} {result result' : ProcessResult}

theorem duplicates_eq : duplicates sync db inbound =
    db.messages.filter fun message => message.place = some (place sync inbound) := by
  rw [duplicates]
  congr 1
  funext message
  rw [decide_eq_decide, EmailMessage.place, place]
  cases message.providerFolder <;> cases message.providerUid <;> simp

theorem length_duplicates :
    (duplicates sync db inbound).length = db.places.count (place sync inbound) := by
  rw [duplicates_eq, Db.places, List.count_filterMap, List.countP_eq_length_filter]
  congr 2
  funext message
  exact (beq_eq_decide _ _).symm

theorem length_named (rfcMessageId : String) :
    (named sync db rfcMessageId).length = (db.rfcIds sync.workspaceId).count rfcMessageId := by
  rw [Db.rfcIds, List.count_filterMap, List.countP_filter, named, ← List.countP_eq_length_filter]
  congr 1
  funext message
  rw [Bool.decide_and, beq_eq_decide]

theorem scalarOneOrNone_duplicates (hdb : db.Consistent) :
    scalarOneOrNone (duplicates sync db inbound) = .ok (duplicates sync db inbound).head? := by
  apply scalarOneOrNone_of_length_le
  rw [length_duplicates]
  exact List.nodup_iff_count_le_one.mp hdb.places _

theorem head?_duplicates_eq_none :
    (duplicates sync db inbound).head? = none ↔ place sync inbound ∉ db.places := by
  rw [List.head?_eq_none_iff, ← List.length_eq_zero_iff, length_duplicates, List.count_eq_zero]

theorem threadOf_eq_ok (hdb : db.Consistent) {matched : EmailMessage} (hm : matched ∈ db.messages)
    (hw : matched.workspaceId = sync.workspaceId) :
    ∃ thread ∈ db.threads, thread.clientId = matched.threadId ∧
      scalarOneOrNone (db.threads.filter fun thread =>
        thread.clientId = matched.threadId ∧ thread.workspaceId = sync.workspaceId) =
        .ok (some thread) := by
  obtain ⟨thread, hthread, hid, hworkspace⟩ := hdb.threads matched hm
  refine ⟨thread, hthread, hid, ?_⟩
  rw [scalarOneOrNone_eq_ok]
  have hkey := hdb.threadIds.filter_eq_toList_find? matched.threadId
  rw [← hid, hdb.threadIds.find?_eq hthread, hid] at hkey
  rw [← hkey]
  apply List.filter_congr
  intro other hother
  by_cases h : other.clientId = matched.threadId
  · obtain rfl := hdb.threadIds.inj hother hthread (h.trans hid.symm)
    simp [hid, hworkspace, hw]
  · simp [h]

def firstKnown (known : List String) (inbound : InboundMessage) : Option String :=
  (lookupIds inbound).find? (· ∈ known)

inductive LeadsTo (sync : Sync) (db : Db) : Option String → Option EmailThread → Prop
  | nowhere : LeadsTo sync db none none
  | reply {rfcMessageId : String} {matched : EmailMessage} {thread : EmailThread}
      (hm : matched ∈ db.messages) (hid : matched.rfcMessageId = some rfcMessageId)
      (hw : matched.workspaceId = sync.workspaceId) (hthread : thread ∈ db.threads)
      (h : thread.clientId = matched.threadId) :
      LeadsTo sync db (some rfcMessageId) (some thread)

theorem findThread_eq_ok (hdb : db.Consistent) {ids : List String} {thread : Option EmailThread}
    (h : findThread sync db ids = .ok thread) :
    LeadsTo sync db (ids.find? (· ∈ db.rfcIds sync.workspaceId)) thread ∧
      ∀ id ∈ ids.find? (· ∈ db.rfcIds sync.workspaceId),
        (db.rfcIds sync.workspaceId).count id = 1 := by
  induction ids with
  | nil =>
    obtain rfl := Except.ok.inj h
    exact ⟨.nowhere, by simp⟩
  | cons id ids ih =>
    rw [findThread, throwIf_bind_eq_ok, bind_eq_ok] at h
    obtain ⟨-, matched, hmatched, h⟩ := h
    rw [scalarOneOrNone_eq_ok] at hmatched
    have hcount : (named sync db id).length = _ := length_named id
    rw [hmatched] at hcount
    cases matched with
    | none =>
      have hid : id ∉ db.rfcIds sync.workspaceId := List.count_eq_zero.mp hcount.symm
      rw [List.find?_cons_of_neg (by simpa using hid)]
      exact ih h
    | some matched =>
      have hid : id ∈ db.rfcIds sync.workspaceId := by
        rw [← List.count_pos_iff, ← hcount]
        exact Nat.one_pos
      rw [List.find?_cons_of_pos (by simpa using hid)]
      have hmem : matched ∈ named sync db id := by rw [hmatched]; simp
      simp only [named, List.mem_filter, decide_eq_true_eq] at hmem
      obtain ⟨hm, hrfc, hw⟩ := hmem
      obtain ⟨found, hfound, hthread, hscalar⟩ := threadOf_eq_ok hdb hm hw
      simp only [hscalar, bind, Except.bind] at h
      obtain rfl := Except.ok.inj h
      constructor
      · exact .reply hm hrfc hw hfound hthread
      · intro id' hid'
        obtain rfl := Option.some.inj hid'
        exact hcount.symm

def Db.threadKeys (db : Db) : List (ClientId × ClientId) :=
  db.threads.map fun thread => (thread.clientId, thread.workspaceId)

theorem Db.threadIds_eq : db.threadIds = db.threadKeys.map Prod.fst := by
  rw [threadIds, threadKeys, List.map_map]
  rfl

theorem Db.consistent_iff {db : Db} : db.Consistent ↔
    db.places.Nodup ∧ (db.threadKeys.map Prod.fst).Nodup ∧
      ∀ message ∈ db.messages, (message.threadId, message.workspaceId) ∈ db.threadKeys := by
  have hthread : ∀ message : EmailMessage,
      (message.threadId, message.workspaceId) ∈ db.threadKeys ↔ ∃ thread ∈ db.threads,
        thread.clientId = message.threadId ∧ thread.workspaceId = message.workspaceId := by
    intro message
    simp [threadKeys]
  simp only [hthread, ← Db.threadIds_eq]
  constructor
  · rintro ⟨hplaces, hids, hthreads⟩
    exact ⟨hplaces, hids, hthreads⟩
  · rintro ⟨hplaces, hids, hthreads⟩
    exact ⟨hplaces, hids, hthreads⟩

/-- A delivered message is stored, in the thread of a stored message named by the first of its ids
that names any, or in a new thread. -/
structure Filed (sync : Sync) (db : Db) (inbound : InboundMessage) (message : EmailMessage)
    (db' : Db) : Prop where
  messages : db'.messages = db.messages ++ [message]
  row : message = inbound.row sync.workspaceId sync.connectionId message.threadId
  reply : ∀ id ∈ firstKnown (db.rfcIds sync.workspaceId) inbound,
    db'.threadKeys = db.threadKeys ∧ ∃ matched ∈ db.messages,
      matched.workspaceId = sync.workspaceId ∧ matched.rfcMessageId = some id ∧
        matched.threadId = message.threadId
  opens : firstKnown (db.rfcIds sync.workspaceId) inbound = none →
    db'.threadKeys = db.threadKeys ++ [(message.threadId, sync.workspaceId)] ∧
      message.threadId ∉ db.threadIds

/-- The columns take a message, and the first id that names a stored message names one. -/
def Fileable (known : List String) (inbound : InboundMessage) : Prop :=
  inbound.Storable ∧ ∀ id ∈ firstKnown known inbound, known.count id = 1

instance (known : List String) (inbound : InboundMessage) : Decidable (Fileable known inbound) :=
  inferInstanceAs (Decidable (_ ∧ _))

theorem saveMessage_eq_ok {thread : EmailThread}
    (h : saveMessage sync db result thread inbound = .ok (db', result')) :
    inbound.Storable ∧
      db'.messages = db.messages ++
        [inbound.row sync.workspaceId sync.connectionId thread.clientId] ∧
      db'.threadKeys = db.threadKeys ∧
      result'.createdMessages = result.createdMessages ++
        [inbound.row sync.workspaceId sync.connectionId thread.clientId] := by
  rw [saveMessage, throwIf_bind_eq_ok] at h
  obtain ⟨hstorable, h⟩ := h
  obtain ⟨rfl, rfl⟩ := Prod.ext_iff.mp (Except.ok.inj h)
  refine ⟨not_not.mp hstorable, rfl, ?_, rfl⟩
  exact map_updateWhere_of_fixed fun _ _ _ => rfl

theorem findOrCreateThread_eq_ok (hdb : db.Consistent) {thread : EmailThread}
    (h : findOrCreateThread sync db inbound = .ok (db', thread)) :
    db'.messages = db.messages ∧
      (∀ id ∈ firstKnown (db.rfcIds sync.workspaceId) inbound,
        (db.rfcIds sync.workspaceId).count id = 1 ∧ db'.threadKeys = db.threadKeys ∧
          ∃ matched ∈ db.messages, matched.workspaceId = sync.workspaceId ∧
            matched.rfcMessageId = some id ∧ matched.threadId = thread.clientId) ∧
      (firstKnown (db.rfcIds sync.workspaceId) inbound = none →
        db'.threadKeys = db.threadKeys ++ [(thread.clientId, sync.workspaceId)] ∧
          thread.clientId ∉ db.threadIds) := by
  rw [findOrCreateThread, bind_eq_ok] at h
  obtain ⟨found, hfound, h⟩ := h
  obtain ⟨hleads, hone⟩ := findThread_eq_ok hdb hfound
  generalize hknown : (lookupIds inbound).find? (· ∈ db.rfcIds sync.workspaceId) =
    known at hleads hone
  rw [firstKnown, hknown]
  cases hleads with
  | nowhere =>
    rw [createThread, throwIf_bind_eq_ok] at h
    obtain ⟨rfl, rfl⟩ := Prod.ext_iff.mp (Except.ok.inj h.2)
    refine ⟨rfl, by simp, fun _ => ⟨?_, sync.ids.fresh _⟩⟩
    simp [Db.threadKeys]
  | reply hm hid hw _ hthread =>
    obtain ⟨rfl, rfl⟩ := Prod.ext_iff.mp (Except.ok.inj h)
    refine ⟨rfl, fun id hmem => ?_, by simp⟩
    obtain rfl := Option.some.inj hmem
    exact ⟨hone _ rfl, rfl, _, hm, hw, hid, hthread.symm⟩

theorem processMessage_of_mem (hdb : db.Consistent) (h : place sync inbound ∈ db.places) :
    processMessage sync (db, result) inbound =
      .ok (db, { result with skippedCount := result.skippedCount + 1 }) := by
  have hsome : (duplicates sync db inbound).head? ≠ none := by
    rw [Ne, head?_duplicates_eq_none, not_not]
    exact h
  obtain ⟨duplicate, hduplicate⟩ := Option.ne_none_iff_exists'.mp hsome
  simp only [processMessage, scalarOneOrNone_duplicates hdb, hduplicate, bind, Except.bind]

theorem processMessage_of_notMem (hdb : db.Consistent) (h : place sync inbound ∉ db.places) :
    processMessage sync (db, result) inbound =
      findOrCreateThread sync db inbound >>= fun opened =>
        saveMessage sync opened.1 result opened.2 inbound := by
  simp only [processMessage, scalarOneOrNone_duplicates hdb, head?_duplicates_eq_none.mpr h]
  rfl

theorem processMessage_eq_ok (hdb : db.Consistent) (hplace : place sync inbound ∉ db.places)
    (h : processMessage sync (db, result) inbound = .ok (db', result')) :
    Fileable (db.rfcIds sync.workspaceId) inbound ∧ ∃ message,
      Filed sync db inbound message db' ∧
        result'.createdMessages = result.createdMessages ++ [message] := by
  rw [processMessage_of_notMem hdb hplace, bind_eq_ok] at h
  obtain ⟨⟨opened, thread⟩, hopened, hsaved⟩ := h
  obtain ⟨hmessages, hreply, hopens⟩ := findOrCreateThread_eq_ok hdb hopened
  obtain ⟨hstorable, hrow, hkeys, hcreated⟩ := saveMessage_eq_ok hsaved
  refine ⟨⟨hstorable, fun id hid => (hreply id hid).1⟩, _, ⟨?_, rfl, ?_, ?_⟩, hcreated⟩
  · rw [hrow, hmessages]
  · intro id hid
    rw [hkeys]
    exact (hreply id hid).2
  · intro hnone
    rw [hkeys]
    exact hopens hnone

theorem row_place (threadId : ClientId) :
    (inbound.row sync.workspaceId sync.connectionId threadId).place = some (place sync inbound) :=
  rfl

namespace Filed

variable {message : EmailMessage}

theorem places (h : Filed sync db inbound message db') :
    db'.places = db.places ++ [place sync inbound] := by
  have hplace : message.place = some (place sync inbound) := by
    rw [h.row]
    exact row_place _
  rw [Db.places, h.messages, List.filterMap_append, Db.places]
  simp [hplace]

theorem rfcIds (h : Filed sync db inbound message db') :
    db'.rfcIds sync.workspaceId =
      db.rfcIds sync.workspaceId ++ (inbound.rfcMessageId.map (varchar 512)).toList := by
  have hworkspace : message.workspaceId = sync.workspaceId := by
    rw [h.row]
    rfl
  have hrfc : message.rfcMessageId = inbound.rfcMessageId.map (varchar 512) := by
    rw [h.row]
    rfl
  rw [Db.rfcIds, h.messages, List.filter_append, List.filterMap_append, Db.rfcIds]
  cases hid : inbound.rfcMessageId <;> simp [hworkspace, hrfc, hid]

theorem threadId_mem (h : Filed sync db inbound message db') (hdb : db.Consistent) :
    (message.threadId, sync.workspaceId) ∈ db'.threadKeys := by
  cases hknown : firstKnown (db.rfcIds sync.workspaceId) inbound with
  | none =>
    rw [(h.opens hknown).1]
    simp
  | some id =>
    obtain ⟨hkeys, matched, hm, hw, -, hthread⟩ := h.reply id hknown
    rw [hkeys, ← hw, ← hthread]
    exact (Db.consistent_iff.mp hdb).2.2 matched hm

theorem threadKeys_subset (h : Filed sync db inbound message db') :
    db.threadKeys ⊆ db'.threadKeys := by
  cases hknown : firstKnown (db.rfcIds sync.workspaceId) inbound with
  | none =>
    rw [(h.opens hknown).1]
    exact List.subset_append_left _ _
  | some id =>
    rw [(h.reply id hknown).1]
    exact List.Subset.refl _

/-- Filing a message keeps the constraints. -/
theorem consistent (hdb : db.Consistent) (hplace : place sync inbound ∉ db.places)
    (h : Filed sync db inbound message db') : db'.Consistent := by
  obtain ⟨hplaces, hids, hthreads⟩ := Db.consistent_iff.mp hdb
  rw [Db.consistent_iff]
  refine ⟨?_, ?_, ?_⟩
  · rw [h.places, List.nodup_append]
    refine ⟨hplaces, List.nodup_singleton _, ?_⟩
    rintro p hp q hq rfl
    rw [List.mem_singleton.mp hq] at hp
    exact hplace hp
  · cases hknown : firstKnown (db.rfcIds sync.workspaceId) inbound with
    | none =>
      obtain ⟨hkeys, hnew⟩ := h.opens hknown
      rw [hkeys, List.map_append, List.nodup_append]
      refine ⟨hids, List.nodup_singleton _, ?_⟩
      rintro id hid id' hid' rfl
      rw [Db.threadIds_eq] at hnew
      rw [List.mem_singleton.mp hid'] at hid
      exact hnew hid
    | some id =>
      rw [(h.reply id hknown).1]
      exact hids
  · intro m hm
    rw [h.messages, List.mem_append] at hm
    rcases hm with hm | hm
    · exact h.threadKeys_subset (hthreads m hm)
    · obtain rfl := List.mem_singleton.mp hm
      have hworkspace : m.workspaceId = sync.workspaceId := by
        rw [h.row]
        rfl
      rw [hworkspace]
      exact h.threadId_mem hdb

end Filed

end BeyoManager.Emails
