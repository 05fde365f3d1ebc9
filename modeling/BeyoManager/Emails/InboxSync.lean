import BeyoManager.Emails.FilingRuns

/-! # Visits to an inbox

A visit asks the server for the mail above the uid that was seen last, reads the hundred newest
of it, files what it could read and moves the uid on, all in one transaction. Whatever the server
does, a mail at or below the uid is stored, or a visit has passed it over: it was gone, it could
not be read, or it was not among the newest.
-/

namespace BeyoManager.Emails

open Relational Transition

abbrev Uid := ℕ

/-- `MAX_MESSAGES_PER_SYNC`. -/
def maxMessagesPerSync : ℕ := 100

/-- `EmailConnectionStatusEnum`. -/
inductive EmailConnectionStatus
  | active | disabled | authFailed | error
  deriving DecidableEq, Repr

/-- `email_connections`. -/
structure EmailConnection where
  clientId : ClientId
  workspaceId : ClientId
  status : EmailConnectionStatus
  deletedAt : Option Instant
  deriving DecidableEq, Repr

/-- `email_sync_states`. -/
structure EmailSyncState where
  connectionId : ClientId
  folder : FolderName
  uidvalidity : Option ℕ
  lastSeenUid : Uid
  lastError : Option String
  lastSyncAt : Option Instant
  lastSuccessfulSyncAt : Option Instant
  deriving DecidableEq

/-- The connections, their sync states and the stored mail. -/
structure InboxDb where
  connections : List EmailConnection
  syncStates : List EmailSyncState
  mail : Db
  deriving DecidableEq

/-! ### The server -/

/-- What the server answers during a visit. Every request may raise, with a text; `none` is an
answer that is not `OK`, or a fetched part without a body. -/
structure ImapSession where
  login : Except String Unit
  /-- The UIDVALIDITY that is read in the answer, where there is one. -/
  select : Except String (Option (Option ℕ))
  /-- The uids found from the given one on. -/
  search : Uid → Except String (Option (List Uid))
  fetch : Uid → Except String (Option InboundMessage)

/-- `SyncResult` of a visit that succeeds. -/
structure SyncResult where
  newMessages : List InboundMessage
  newLastSeenUid : Uid
  newUidvalidity : Option ℕ
  deriving DecidableEq

namespace ImapSession

variable (session : ImapSession)

def fetchMessage (folder : FolderName) (state : List InboundMessage × Uid) (uid : Uid) :
    Except String (List InboundMessage × Uid) := do
  match ← session.fetch uid with
  | none => .ok state
  | some parsed =>
    .ok (state.1 ++ [{ parsed with providerUid := uid, providerFolder := folder }],
      max state.2 uid)

/-- The uids that are fetched of those found, the last ones. -/
def newest (allUids : List Uid) : List Uid := allUids.drop (allUids.length - maxMessagesPerSync)

/-- The uid above which mail is new: a changed UIDVALIDITY begins again. -/
def effectiveLastSeenUid (uidvalidity currentUidvalidity : Option ℕ) (lastSeenUid : Uid) : Uid :=
  if uidvalidity ≠ none ∧ currentUidvalidity ≠ none ∧ currentUidvalidity ≠ uidvalidity then 0
  else lastSeenUid

/-- `ImapReader.sync`; the text is that of a result without success. -/
def sync (folder : FolderName) (uidvalidity : Option ℕ) (lastSeenUid : Uid) :
    Except String SyncResult := do
  session.login
  match ← session.select with
  | none => .error ("Failed to select folder '" ++ folder.name ++ "'.")
  | some currentUidvalidity =>
    let effective := effectiveLastSeenUid uidvalidity currentUidvalidity lastSeenUid
    match ← session.search (effective + 1) with
    | none => .error "Failed to search IMAP mailbox."
    | some allUids =>
      let (messages, maxUid) ← (newest allUids).foldlM (session.fetchMessage folder) ([], effective)
      return ⟨messages, maxUid, currentUidvalidity⟩

end ImapSession

/-! ### A visit -/

/-- A delivery of the job, with its payload, what it meets, and the notifications of the filed
mail, which are other code and may raise. -/
structure Visit where
  connectionId : ClientId
  workspaceId : ClientId
  session : ImapSession
  now : Instant
  filedAt : Instant
  ids : IdSource
  enqueueArrivalNotifications : ProcessResult → Except EmailError Unit

/-- `'auth' in error.lower()`. -/
def isAuthError (error : String) : Prop := "auth".toList <:+: error.toList.map Char.toLower

instance (error : String) : Decidable (isAuthError error) := inferInstanceAs (Decidable (_ <:+: _))

/-- An `INTEGER` column takes the number. -/
def fitsInteger (n : ℕ) : Prop := n < 2 ^ 31

instance (n : ℕ) : Decidable (fitsInteger n) := inferInstanceAs (Decidable (_ < _))

def EmailSyncState.fail (error : String) (now : Instant) (state : EmailSyncState) :
    EmailSyncState :=
  { state with lastError := some (varchar 512 error), lastSyncAt := some now }

def EmailSyncState.succeed (result : SyncResult) (now : Instant) (state : EmailSyncState) :
    EmailSyncState :=
  { state with
    lastSeenUid := result.newLastSeenUid
    uidvalidity := result.newUidvalidity
    lastSyncAt := some now
    lastSuccessfulSyncAt := some now
    lastError := none }

def InboxDb.connectionOf (db : InboxDb) (visit : Visit) : List EmailConnection :=
  db.connections.filter fun connection =>
    connection.clientId = visit.connectionId ∧ connection.workspaceId = visit.workspaceId ∧
      connection.deletedAt = none

def InboxDb.syncStateOf (db : InboxDb) (connectionId : ClientId) : List EmailSyncState :=
  db.syncStates.filter (·.connectionId = connectionId)

def failSync (db : InboxDb) (visit : Visit) (error : String) : Except EmailError InboxDb := do
  throwIf (¬ fits 512 error) .dataError
  return { db with
    syncStates := updateWhere (·.connectionId = visit.connectionId)
      (EmailSyncState.fail error visit.now) db.syncStates
    connections :=
      if isAuthError error then
        updateWhere (·.clientId = visit.connectionId)
          (fun connection => { connection with status := .authFailed }) db.connections
      else db.connections }

def fileSync (db : InboxDb) (visit : Visit) (result : SyncResult) : Except EmailError InboxDb := do
  let (mail, processed) ← processInboundMessages
    ⟨visit.workspaceId, visit.connectionId, visit.filedAt, visit.ids⟩ db.mail result.newMessages
  visit.enqueueArrivalNotifications processed
  throwIf (¬ (fitsInteger result.newLastSeenUid ∧ ∀ v ∈ result.newUidvalidity, fitsInteger v))
    .dataError
  return { db with
    mail := mail
    syncStates := updateWhere (·.connectionId = visit.connectionId)
      (EmailSyncState.succeed result visit.now) db.syncStates }

/-- `handle_email_inbox_sync`, up to the commit. -/
def handleEmailInboxSync (db : InboxDb) (visit : Visit) : Except EmailError InboxDb := do
  match ← scalarOneOrNone (db.connectionOf visit) with
  | none => return db
  | some _ =>
    match ← scalarOneOrNone (db.syncStateOf visit.connectionId) with
    | none => return db
    | some state =>
      match visit.session.sync state.folder state.uidvalidity state.lastSeenUid with
      | .error error => failSync db visit error
      | .ok result => fileSync db visit result

/-! ### What a visit passes over -/

def ImapSession.oldest (allUids : List Uid) : List Uid :=
  allUids.take (allUids.length - maxMessagesPerSync)

/-- Why a visit that looks from a uid on does not file a mail: it is gone, it cannot be read, or
it is not among the newest. -/
inductive Visit.PassesOver (visit : Visit) (present : List Uid) (lastSeenUid uid : Uid) : Prop
  | gone (h : uid ∉ present)
  | unread (h : visit.session.fetch uid = .ok none)
  | old {allUids : List Uid} (h : visit.session.search (lastSeenUid + 1) = .ok (some allUids))
      (hold : uid ∈ ImapSession.oldest allUids)

/-- What the server documents of a folder that holds mail: it keeps the UIDVALIDITY, and a search
finds all mail from a uid on, and nothing that is not there. -/
structure ImapSession.Serves (session : ImapSession) (validity : ℕ) (present : List Uid) :
    Prop where
  validity : ∀ {read v}, session.select = .ok (some read) → v ∈ read → v = validity
  found : ∀ {uid allUids}, session.search uid = .ok (some allUids) →
    (∀ other ∈ present, uid ≤ other → other ∈ allUids) ∧ allUids ⊆ present

/-- The place of the mail of a uid. -/
def placeOf (connectionId : ClientId) (folder : FolderName) (uid : Uid) :
    ClientId × String × String :=
  (connectionId, folder.name, toString (uid : ℤ))

/-- What can come to be of an inbox, beside the uids the server has given in its folder and those
that visits have passed over. Mail arrives and goes, visits succeed or are rolled back, and other
work leaves the stored mail and the sync state of the connection. -/
inductive Inbox (connectionId : ClientId) (folder : FolderName) (validity : ℕ) :
    InboxDb → List Uid → Set Uid → Prop
  | created {db : InboxDb} {state : EmailSyncState} (hmail : db.mail.Reached)
      (hstate : db.syncStateOf connectionId = [state]) (hfolder : state.folder = folder)
      (hvalidity : state.uidvalidity = none) (hseen : state.lastSeenUid = 0) :
      Inbox connectionId folder validity db [] ∅
  | arrived {db : InboxDb} {given : List Uid} {passed : Set Uid} (uid : Uid)
      (h : Inbox connectionId folder validity db given passed)
      (hpos : 0 < uid) (hnew : ∀ other ∈ given, other < uid) :
      Inbox connectionId folder validity db (given ++ [uid]) passed
  | visited {db db' : InboxDb} {given present : List Uid} {passed : Set Uid}
      {before after : EmailSyncState} (visit : Visit)
      (h : Inbox connectionId folder validity db given passed)
      (hpresent : present ⊆ given) (hserves : visit.session.Serves validity present)
      (hvisit : visit.connectionId = connectionId)
      (hok : handleEmailInboxSync db visit = .ok db')
      (hbefore : db.syncStateOf connectionId = [before])
      (hafter : db'.syncStateOf connectionId = [after]) :
      Inbox connectionId folder validity db' given
        (passed ∪ {uid | before.lastSeenUid < uid ∧ uid ≤ after.lastSeenUid ∧
          visit.PassesOver present before.lastSeenUid uid})
  | otherwise {db db' : InboxDb} {given : List Uid} {passed : Set Uid}
      (h : Inbox connectionId folder validity db given passed) (hmail : db'.mail.Reached)
      (hplaces : db.mail.places ⊆ db'.mail.places)
      (hstate : db'.syncStateOf connectionId = db.syncStateOf connectionId) :
      Inbox connectionId folder validity db' given passed

/-! ### One visit -/

variable {session : ImapSession} {folder : FolderName}

theorem ImapSession.mem_oldest_or_newest {allUids : List Uid} {uid : Uid} (h : uid ∈ allUids) :
    uid ∈ oldest allUids ∨ uid ∈ newest allUids := by
  rw [oldest, newest, ← List.mem_append, List.take_append_drop]
  exact h

/-- The fetched uids are read or without a body, and the greatest that is read is kept. -/
theorem ImapSession.foldlM_fetchMessage_eq_ok {uids : List Uid}
    {messages result : List InboundMessage} {seen maxUid : Uid}
    (h : uids.foldlM (session.fetchMessage folder) (messages, seen) = .ok (result, maxUid)) :
    messages ⊆ result ∧ seen ≤ maxUid ∧ (maxUid = seen ∨ maxUid ∈ uids) ∧
      ∀ uid ∈ uids, session.fetch uid = .ok none ∨
        ∃ message ∈ result, message.providerUid = uid ∧ message.providerFolder = folder := by
  induction uids generalizing messages seen with
  | nil =>
    obtain ⟨rfl, rfl⟩ := Prod.ext_iff.mp (Except.ok.inj h)
    exact ⟨List.Subset.refl _, le_refl _, .inl rfl, by simp⟩
  | cons uid uids ih =>
    rw [List.foldlM_cons, bind_eq_ok] at h
    obtain ⟨⟨messages₁, seen₁⟩, hpass, h⟩ := h
    obtain ⟨hsub, hle, hmax, hread⟩ := ih h
    rw [fetchMessage, bind_eq_ok] at hpass
    obtain ⟨parsed, hfetch, hpass⟩ := hpass
    cases parsed with
    | none =>
      obtain ⟨rfl, rfl⟩ := Prod.ext_iff.mp (Except.ok.inj hpass)
      refine ⟨hsub, hle, hmax.imp_right (List.mem_cons_of_mem _), ?_⟩
      rintro other (_ | ⟨_, hother⟩)
      · exact .inl hfetch
      · exact hread other hother
    | some parsed =>
      obtain ⟨rfl, rfl⟩ := Prod.ext_iff.mp (Except.ok.inj hpass)
      refine ⟨List.Subset.trans (List.subset_append_left _ _) hsub, (le_max_left _ _).trans hle, ?_,
        ?_⟩
      · rcases hmax with hmax | hmax
        · rcases max_choice seen uid with hchoice | hchoice
          · exact .inl (hmax.trans hchoice)
          · right
            rw [hmax, hchoice]
            exact List.mem_cons_self
        · exact .inr (List.mem_cons_of_mem _ hmax)
      · rintro other (_ | ⟨_, hother⟩)
        · exact .inr ⟨_, hsub (List.mem_append_right _ List.mem_cons_self), rfl, rfl⟩
        · exact hread other hother

/-- What a sync that succeeds has asked and got. -/
theorem ImapSession.sync_eq_ok {uidvalidity : Option ℕ} {lastSeenUid : Uid} {result : SyncResult}
    (h : session.sync folder uidvalidity lastSeenUid = .ok result) :
    session.select = .ok (some result.newUidvalidity) ∧ ∃ allUids,
      session.search (effectiveLastSeenUid uidvalidity result.newUidvalidity lastSeenUid + 1) =
        .ok (some allUids) ∧
      (newest allUids).foldlM (session.fetchMessage folder)
        ([], effectiveLastSeenUid uidvalidity result.newUidvalidity lastSeenUid) =
        .ok (result.newMessages, result.newLastSeenUid) := by
  rw [sync, bind_eq_ok] at h
  obtain ⟨u, -, h⟩ := h
  rw [bind_eq_ok] at h
  obtain ⟨selected, hselect, h⟩ := h
  cases selected with
  | none => cases h
  | some currentUidvalidity =>
    dsimp only at h
    rw [bind_eq_ok] at h
    obtain ⟨found, hsearch, h⟩ := h
    cases found with
    | none => cases h
    | some allUids =>
      dsimp only at h
      rw [bind_eq_ok] at h
      obtain ⟨⟨messages, maxUid⟩, hfold, h⟩ := h
      obtain rfl := Except.ok.inj h
      exact ⟨hselect, allUids, hsearch, hfold⟩

theorem effectiveLastSeenUid_of_same {validity : ℕ} {uidvalidity currentUidvalidity : Option ℕ}
    {lastSeenUid : Uid} (h : ∀ v ∈ uidvalidity, v = validity)
    (hcurrent : ∀ v ∈ currentUidvalidity, v = validity) :
    ImapSession.effectiveLastSeenUid uidvalidity currentUidvalidity lastSeenUid = lastSeenUid := by
  rw [ImapSession.effectiveLastSeenUid, if_neg]
  rintro ⟨hsome, hsome', hchanged⟩
  obtain ⟨v, rfl⟩ := Option.ne_none_iff_exists'.mp hsome
  obtain ⟨w, rfl⟩ := Option.ne_none_iff_exists'.mp hsome'
  rw [h v rfl, hcurrent w rfl] at hchanged
  exact hchanged rfl

variable {db db' : InboxDb} {visit : Visit} {before : EmailSyncState}

theorem syncStateOf_updateWhere {states : List EmailSyncState} {connectionId : ClientId}
    {f : EmailSyncState → EmailSyncState}
    (hf : ∀ state, (f state).connectionId = state.connectionId)
    (h : states.filter (·.connectionId = connectionId) = [before]) :
    (updateWhere (·.connectionId = connectionId) f states).filter
      (·.connectionId = connectionId) = [f before] := by
  have hmem : before ∈ states.filter (·.connectionId = connectionId) := by
    rw [h]
    exact List.mem_cons_self
  rw [filter_updateWhere fun state _ _ => by rw [hf], h]
  simpa [updateWhere] using fun hne => absurd (by simpa using (List.mem_filter.mp hmem).2) hne

/-- A visit finds no connection, or records a failure, or files what a sync has got. -/
theorem handleEmailInboxSync_eq_ok (hbefore : db.syncStateOf visit.connectionId = [before])
    (h : handleEmailInboxSync db visit = .ok db') :
    db' = db ∨ (∃ error, failSync db visit error = .ok db') ∨ ∃ result,
      visit.session.sync before.folder before.uidvalidity before.lastSeenUid = .ok result ∧
        fileSync db visit result = .ok db' := by
  rw [handleEmailInboxSync, bind_eq_ok] at h
  obtain ⟨connection, -, h⟩ := h
  cases connection with
  | none => exact .inl (Except.ok.inj h).symm
  | some connection =>
    right
    dsimp only at h
    rw [hbefore] at h
    change (match visit.session.sync before.folder before.uidvalidity before.lastSeenUid with
      | .error error => failSync db visit error
      | .ok result => fileSync db visit result) = .ok db' at h
    cases hsync : visit.session.sync before.folder before.uidvalidity before.lastSeenUid with
    | error error =>
      rw [hsync] at h
      exact .inl ⟨error, h⟩
    | ok result =>
      rw [hsync] at h
      exact .inr ⟨result, rfl, h⟩

theorem failSync_eq_ok {error : String} (hbefore : db.syncStateOf visit.connectionId = [before])
    (h : failSync db visit error = .ok db') :
    db'.mail = db.mail ∧ db'.syncStateOf visit.connectionId = [before.fail error visit.now] := by
  rw [failSync, throwIf_bind_eq_ok] at h
  obtain rfl := Except.ok.inj h.2
  exact ⟨rfl, syncStateOf_updateWhere (fun _ => rfl) hbefore⟩

theorem fileSync_eq_ok {result : SyncResult}
    (hbefore : db.syncStateOf visit.connectionId = [before])
    (h : fileSync db visit result = .ok db') :
    (∃ processed, processInboundMessages ⟨visit.workspaceId, visit.connectionId, visit.filedAt,
      visit.ids⟩ db.mail result.newMessages = .ok (db'.mail, processed)) ∧
      db'.syncStateOf visit.connectionId = [before.succeed result visit.now] := by
  rw [fileSync, bind_eq_ok] at h
  obtain ⟨⟨mail, processed⟩, hfiled, h⟩ := h
  dsimp only at h
  rw [bind_eq_ok] at h
  obtain ⟨u, -, h⟩ := h
  rw [throwIf_bind_eq_ok] at h
  obtain rfl := Except.ok.inj h.2
  exact ⟨⟨processed, hfiled⟩, syncStateOf_updateWhere (fun _ => rfl) hbefore⟩

/-- A visit that files stores all mail above the uid, but for what it passes over. -/
theorem fileSync_stores {validity : ℕ} {present : List Uid} {result : SyncResult}
    (hdb : db.mail.Reached) (hbefore : db.syncStateOf visit.connectionId = [before])
    (hvalidity : ∀ v ∈ before.uidvalidity, v = validity)
    (hserves : visit.session.Serves validity present)
    (hsync : visit.session.sync before.folder before.uidvalidity before.lastSeenUid = .ok result)
    (h : fileSync db visit result = .ok db') :
    db'.mail.Reached ∧ db.mail.places ⊆ db'.mail.places ∧
      (∀ v ∈ result.newUidvalidity, v = validity) ∧
      before.lastSeenUid ≤ result.newLastSeenUid ∧
      (result.newLastSeenUid = before.lastSeenUid ∨ result.newLastSeenUid ∈ present) ∧
      ∀ uid, before.lastSeenUid < uid →
        placeOf visit.connectionId before.folder uid ∈ db'.mail.places ∨
          visit.PassesOver present before.lastSeenUid uid := by
  obtain ⟨⟨processed, hfiled⟩, -⟩ := fileSync_eq_ok hbefore h
  obtain ⟨hselect, allUids, hsearch, hfold⟩ := ImapSession.sync_eq_ok hsync
  have hcurrent : ∀ v ∈ result.newUidvalidity, v = validity := fun v hv =>
    hserves.validity hselect hv
  rw [effectiveLastSeenUid_of_same hvalidity hcurrent] at hsearch hfold
  obtain ⟨hfound, hsub⟩ := hserves.found hsearch
  obtain ⟨-, hle, hmax, hread⟩ := ImapSession.foldlM_fetchMessage_eq_ok hfold
  obtain ⟨-, -, hplaces, hstored, -⟩ := foldlM_processMessage_eq_ok hdb.consistent hfiled
  refine ⟨.synced _ _ hdb hfiled, hplaces, hcurrent, hle, ?_, fun uid huid => ?_⟩
  · exact hmax.imp_right fun hmem => hsub (List.mem_of_mem_drop hmem)
  · by_cases hpresent : uid ∈ present
    · rcases ImapSession.mem_oldest_or_newest (hfound uid hpresent huid) with hold | hnew
      · exact .inr (.old hsearch hold)
      · rcases hread uid hnew with hunread | ⟨message, hmessage, hid, hfolder⟩
        · exact .inr (.unread hunread)
        · left
          have hplace := hstored message hmessage
          rw [place, hid, hfolder] at hplace
          exact hplace
    · exact .inr (.gone hpresent)

/-! ### Every history -/

/-- What holds of an inbox: the uid is none or one that was given, the mail up to it is stored or
was passed over, and no mail above it was. -/
structure Inbox.Kept (connectionId : ClientId) (folder : FolderName) (validity : ℕ) (db : InboxDb)
    (given : List Uid) (passed : Set Uid) (state : EmailSyncState) : Prop where
  reached : db.mail.Reached
  current : db.syncStateOf connectionId = [state]
  inFolder : state.folder = folder
  validity : ∀ v ∈ state.uidvalidity, v = validity
  seen : state.lastSeenUid = 0 ∨ state.lastSeenUid ∈ given
  stored : ∀ uid ∈ given, uid ≤ state.lastSeenUid →
    placeOf connectionId folder uid ∈ db.mail.places ∨ uid ∈ passed
  below : ∀ uid ∈ passed, uid ≤ state.lastSeenUid

/-- A visit keeps it. -/
theorem Inbox.Kept.visited {connectionId : ClientId} {validity : ℕ} {given present : List Uid}
    {passed : Set Uid} {after : EmailSyncState}
    (hkept : Kept connectionId folder validity db given passed before)
    (hpresent : present ⊆ given) (hserves : visit.session.Serves validity present)
    (hvisit : visit.connectionId = connectionId) (hok : handleEmailInboxSync db visit = .ok db')
    (hafter : db'.syncStateOf connectionId = [after]) :
    Kept connectionId folder validity db' given
      (passed ∪ {uid | before.lastSeenUid < uid ∧ uid ≤ after.lastSeenUid ∧
        visit.PassesOver present before.lastSeenUid uid}) after := by
  obtain ⟨hreached, hbefore, hfolder, hvalidity, hseen, hstored, hbelow⟩ := hkept
  subst hvisit
  -- the uid never goes back, so what was passed over stays below it
  have hpassed : before.lastSeenUid ≤ after.lastSeenUid → ∀ uid ∈ passed ∪ {uid |
      before.lastSeenUid < uid ∧ uid ≤ after.lastSeenUid ∧
        visit.PassesOver present before.lastSeenUid uid}, uid ≤ after.lastSeenUid := by
    rintro hforth uid (hmem | ⟨-, hle, -⟩)
    · exact (hbelow uid hmem).trans hforth
    · exact hle
  rcases handleEmailInboxSync_eq_ok hbefore hok with rfl | ⟨error, hfail⟩ | ⟨result, hsync, hfile⟩
  · obtain rfl : before = after := List.singleton_injective (hbefore.symm.trans hafter)
    exact ⟨hreached, hbefore, hfolder, hvalidity, hseen, fun uid hgiven hle =>
      (hstored uid hgiven hle).imp_right .inl, hpassed (le_refl _)⟩
  · obtain ⟨hmail, hstate⟩ := failSync_eq_ok hbefore hfail
    obtain rfl : before.fail error visit.now = after :=
      List.singleton_injective (hstate.symm.trans hafter)
    refine ⟨hmail ▸ hreached, hafter, hfolder, hvalidity, hseen, fun uid hgiven hle => ?_,
      hpassed (le_refl _)⟩
    rw [hmail]
    exact (hstored uid hgiven hle).imp_right .inl
  · obtain ⟨-, hstate⟩ := fileSync_eq_ok hbefore hfile
    obtain rfl : before.succeed result visit.now = after :=
      List.singleton_injective (hstate.symm.trans hafter)
    obtain ⟨hreached', hplaces, hcurrent, hforth, hmax, hnew⟩ :=
      fileSync_stores hreached hbefore hvalidity hserves hsync hfile
    refine ⟨hreached', hafter, hfolder, hcurrent, ?_, fun uid hgiven hle => ?_, hpassed hforth⟩
    · rcases hmax with hmax | hmax
      · have hsame : (before.succeed result visit.now).lastSeenUid = before.lastSeenUid := hmax
        rw [hsame]
        exact hseen
      · exact .inr (hpresent hmax)
    · -- the mail below is as it was, the mail above is what this visit was for
      rcases le_or_gt uid before.lastSeenUid with hold | habove
      · exact (hstored uid hgiven hold).imp (fun h => hplaces h) .inl
      · rw [← hfolder]
        exact (hnew uid habove).imp_right fun hpass => .inr ⟨habove, hle, hpass⟩

/-- It holds in every history. -/
theorem Inbox.kept {connectionId : ClientId} {validity : ℕ} {given : List Uid} {passed : Set Uid}
    (h : Inbox connectionId folder validity db given passed) :
    ∃ state, Kept connectionId folder validity db given passed state := by
  induction h with
  | created hmail hstate hfolder hvalidity hseen =>
    exact ⟨_, hmail, hstate, hfolder, by simp [hvalidity], .inl hseen, by simp, by simp⟩
  | arrived uid _ hpos hnew ih =>
    obtain ⟨state, hreached, hcurrent, hfolder, hvalidity, hseen, hstored, hbelow⟩ := ih
    refine ⟨state, hreached, hcurrent, hfolder, hvalidity,
      hseen.imp_right (List.mem_append_left [uid]), fun other hother hle => ?_, hbelow⟩
    rcases List.mem_append.mp hother with hother | hother
    · exact hstored other hother hle
    · obtain rfl := List.mem_singleton.mp hother
      rcases hseen with hseen | hseen
      · rw [hseen] at hle
        exact absurd hpos hle.not_gt
      · exact absurd (hnew _ hseen) hle.not_gt
  | visited visit _ hpresent hserves hvisit hok hbefore hafter ih =>
    obtain ⟨state, hkept⟩ := ih
    obtain rfl := List.singleton_injective (hkept.current.symm.trans hbefore)
    exact ⟨_, hkept.visited hpresent hserves hvisit hok hafter⟩
  | otherwise _ hmail hplaces hstate ih =>
    obtain ⟨state, -, hcurrent, hfolder, hvalidity, hseen, hstored, hbelow⟩ := ih
    exact ⟨state, hmail, hstate.trans hcurrent, hfolder, hvalidity, hseen, fun uid hgiven hle =>
      (hstored uid hgiven hle).imp_left fun h => hplaces h, hbelow⟩

/-- In every history of an inbox, the uid that was seen last is one the server gave, and each mail
up to it is stored once, or a visit that moved the uid past it found it gone, could not read it,
or found it older than the newest hundred. No mail above it has been passed over. -/
theorem inbox_stored_or_passed {connectionId : ClientId} {validity : ℕ} {given : List Uid}
    {passed : Set Uid} (h : Inbox connectionId folder validity db given passed) :
    ∃ state, db.syncStateOf connectionId = [state] ∧
      (state.lastSeenUid = 0 ∨ state.lastSeenUid ∈ given) ∧
      (∀ uid ∈ given, uid ≤ state.lastSeenUid →
        db.mail.places.count (placeOf connectionId folder uid) = 1 ∨ uid ∈ passed) ∧
      ∀ uid ∈ passed, uid ≤ state.lastSeenUid := by
  obtain ⟨state, hkept⟩ := h.kept
  refine ⟨state, hkept.current, hkept.seen, fun uid hgiven hle => ?_, hkept.below⟩
  exact (hkept.stored uid hgiven hle).imp_left
    (List.count_eq_one_of_mem hkept.reached.consistent.places)

/-! ### An inbox with two mails, one of which cannot be read -/

def salesConnection : EmailConnection := ⟨"sales", "ws", .active, none⟩

def newInbox : InboxDb where
  connections := [salesConnection]
  syncStates := [⟨"sales", inboxFolder, none, 0, none, none, none⟩]
  mail := ⟨[], []⟩

def firstVisit : Visit where
  connectionId := "sales"
  workspaceId := "ws"
  session :=
    { login := .ok ()
      select := .ok (some (some 7))
      search := fun _ => .ok (some [1, 2])
      fetch := fun uid => if uid = 1 then .ok none else .ok (some (mail 0 (some "<a@x>") none)) }
  now := 5
  filedAt := 6
  ids := countedIds
  enqueueArrivalNotifications := fun _ => .ok ()

def visitedInbox : InboxDb where
  connections := [salesConnection]
  syncStates := [⟨"sales", inboxFolder, some 7, 2, none, some 5, some 5⟩]
  mail :=
    { messages := [(mail 2 (some "<a@x>") none).row "ws" "sales" "x"]
      threads := [⟨"x", "ws", "sales", some "Sofa", some 6, some 6⟩] }

theorem firstVisit_serves : firstVisit.session.Serves 7 [1, 2] := by
  constructor
  · intro read v hselect hv
    obtain rfl := Option.some.inj (Except.ok.inj hselect)
    exact (Option.some.inj hv).symm
  · intro uid allUids hsearch
    obtain rfl := Option.some.inj (Except.ok.inj hsearch)
    exact ⟨fun other hother _ => hother, List.Subset.refl _⟩

theorem inbox_stored_or_passed_sample :
    ∃ passed, Inbox "sales" inboxFolder 7 visitedInbox [1, 2] passed ∧
      ∃ state, visitedInbox.syncStateOf "sales" = [state] ∧
        (state.lastSeenUid = 0 ∨ state.lastSeenUid ∈ [1, 2]) ∧
        (∀ uid ∈ [1, 2], uid ≤ state.lastSeenUid →
          visitedInbox.mail.places.count (placeOf "sales" inboxFolder uid) = 1 ∨ uid ∈ passed) ∧
        ∀ uid ∈ passed, uid ≤ state.lastSeenUid := by
  have hcreated : Inbox "sales" inboxFolder 7 newInbox [] ∅ :=
    .created .empty rfl rfl rfl rfl
  have hgiven : Inbox "sales" inboxFolder 7 newInbox [1, 2] ∅ :=
    .arrived 2 (.arrived 1 hcreated (by decide) (by simp)) (by decide) (by simp)
  have hvisited := Inbox.visited firstVisit hgiven (List.Subset.refl _) firstVisit_serves rfl
    (show handleEmailInboxSync newInbox firstVisit = .ok visitedInbox by decide +kernel) rfl rfl
  exact ⟨_, hvisited, inbox_stored_or_passed hvisited⟩

end BeyoManager.Emails
