import BeyoManager.Emails.Filing
import Mathlib.Algebra.Order.BigOperators.Group.List

/-! # Syncs of a mailbox

Nothing makes an RFC message id unique: the same mail arrives in two mailboxes of a workspace, or
twice in one. A reply to such a mail stops the sync that delivers it, and with it every later
sync of the mailbox. A sync that meets no such reply files every message that is not stored.
-/

namespace BeyoManager.Emails

open Relational Transition

variable (sync : Sync)

/-- The delivered messages that are not stored yet, each place once. -/
def unseen (places : List (ClientId × String × String)) : List InboundMessage → List InboundMessage
  | [] => []
  | inbound :: rest =>
    if place sync inbound ∈ places then unseen places rest
    else inbound :: unseen (places ++ [place sync inbound]) rest

/-- Each message can be filed when the ones before it are, given the ids that name stored
messages. -/
def AllFileable (known : List String) : List InboundMessage → Prop
  | [] => True
  | inbound :: rest =>
    Fileable known inbound ∧
      AllFileable (known ++ (inbound.rfcMessageId.map (varchar 512)).toList) rest

instance : (known : List String) → (messages : List InboundMessage) →
    Decidable (AllFileable known messages)
  | _, [] => isTrue trivial
  | known, inbound :: rest =>
    haveI := instDecidableAllFileable
      (known ++ (inbound.rfcMessageId.map (varchar 512)).toList) rest
    inferInstanceAs (Decidable (_ ∧ _))

inductive FiledAll : Db → List InboundMessage → List EmailMessage → Db → Prop
  | nil {db : Db} : FiledAll db [] [] db
  | cons {db db' db'' : Db} {inbound : InboundMessage} {rest : List InboundMessage}
      {message : EmailMessage} {created : List EmailMessage}
      (h : Filed sync db inbound message db') (hrest : FiledAll db' rest created db'') :
      FiledAll db (inbound :: rest) (message :: created) db''

variable {sync} {db db' : Db} {result result' : ProcessResult} {messages : List InboundMessage}

/-- The passes of a sync that succeeds file the messages that are not stored. -/
theorem foldlM_processMessage_eq_ok (hdb : db.Consistent)
    (h : messages.foldlM (processMessage sync) (db, result) = .ok (db', result')) :
    AllFileable (db.rfcIds sync.workspaceId) (unseen sync db.places messages) ∧
      db'.Consistent ∧ db.places ⊆ db'.places ∧
      (∀ inbound ∈ messages, place sync inbound ∈ db'.places) ∧
      ∃ created, result'.createdMessages = result.createdMessages ++ created ∧
        FiledAll sync db (unseen sync db.places messages) created db' := by
  induction messages generalizing db result with
  | nil =>
    obtain ⟨rfl, rfl⟩ := Prod.ext_iff.mp (Except.ok.inj h)
    exact ⟨trivial, hdb, List.Subset.refl _, by simp, [], by simp, .nil⟩
  | cons inbound rest ih =>
    rw [List.foldlM_cons] at h
    by_cases hplace : place sync inbound ∈ db.places
    · rw [processMessage_of_mem hdb hplace] at h
      obtain ⟨hall, hdb', hsub, hstored, hfiled⟩ := ih hdb h
      rw [unseen, if_pos hplace]
      refine ⟨hall, hdb', hsub, ?_, hfiled⟩
      rintro other (_ | ⟨_, hother⟩)
      · exact hsub hplace
      · exact hstored other hother
    · rw [bind_eq_ok] at h
      obtain ⟨⟨between, result₁⟩, hpass, h⟩ := h
      obtain ⟨hfileable, message, hfiled, hcreated⟩ := processMessage_eq_ok hdb hplace hpass
      obtain ⟨hall, hdb', hsub, hstored, created, hresult, hrest⟩ :=
        ih (hfiled.consistent hdb hplace) h
      rw [hfiled.places] at hall hsub hrest
      rw [hfiled.rfcIds] at hall
      rw [unseen, if_neg hplace]
      refine ⟨⟨hfileable, hall⟩, hdb', List.Subset.trans (List.subset_append_left _ _) hsub, ?_,
        message :: created, ?_, .cons hfiled hrest⟩
      · rintro other (_ | ⟨_, hother⟩)
        · exact hsub (by simp)
        · exact hstored other hother
      · rw [hresult, hcreated, List.append_assoc]
        rfl

/-- The constraints hold of all tables that are reached. -/
theorem Db.Reached.consistent (h : db.Reached) : db.Consistent := by
  induction h with
  | empty => exact ⟨List.nodup_nil, keyed_nil, by simp⟩
  | synced sync messages _ hok ih => exact (foldlM_processMessage_eq_ok ih hok).2.1
  | opened thread _ hnew ih =>
    rw [consistent_iff] at ih ⊢
    obtain ⟨hplaces, hids, hthreads⟩ := ih
    refine ⟨hplaces, ?_, fun message hm => ?_⟩
    · rw [← threadIds_eq, threadIds, List.map_append, List.nodup_append]
      rw [← threadIds_eq] at hids
      refine ⟨hids, List.nodup_singleton _, ?_⟩
      rintro id hid _ hid' rfl
      rw [List.mem_singleton.mp hid'] at hid
      exact hnew hid
    · rw [threadKeys, List.map_append]
      exact List.mem_append_left _ (hthreads message hm)
  | sent message _ hfolder hthread ih =>
    refine ⟨?_, ih.threadIds, ?_⟩
    · have hplace : message.place = none := by
        rw [EmailMessage.place, hfolder]
      rw [places, List.filterMap_append]
      simpa [hplace, places] using ih.places
    · intro m hm
      rcases List.mem_append.mp hm with hm | hm
      · exact ih.threads m hm
      · obtain rfl := List.mem_singleton.mp hm
        exact hthread

def countedIds : IdSource where
  next used := String.ofList (List.replicate ((used.map (·.toList.length)).sum + 1) 'x')
  fresh used h := by
    have hle : _ ≤ (used.map (·.toList.length)).sum :=
      List.single_le_sum (fun _ _ => Nat.zero_le _) _ (List.mem_map_of_mem h)
    rw [String.toList_ofList, List.length_replicate] at hle
    exact Nat.not_succ_le_self _ hle

def inboxFolder : FolderName := ⟨"INBOX", by decide, by decide⟩

/-- A delivered mail with a message id and the id it replies to. -/
def mail (uid : ℤ) (rfcMessageId inReplyTo : Option String) : InboundMessage where
  providerUid := uid
  providerFolder := inboxFolder
  fromAddress := "ada@x"
  fromName := none
  toAddresses := ["sales@y", "service@y"]
  ccAddresses := []
  subject := some "Sofa"
  textBody := none
  textBodyClean := none
  htmlBody := none
  bodyPreview := none
  rfcMessageId := rfcMessageId
  inReplyTo := inReplyTo
  references := []
  rawHeaders := []
  receivedAt := none

end BeyoManager.Emails
