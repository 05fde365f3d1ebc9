import BeyoManager.Emails.Tables
import BeyoManager.Library.Transition

/-! # Filing delivered messages

A sync stores the messages that a mailbox has delivered. A message whose place is stored is
skipped. A reply goes to the thread of the message it names, any other message opens a thread.
All of it happens in one transaction.
-/

namespace BeyoManager.Emails

open Relational Transition

/-! ### Subjects -/

def dropReplyMarker (subject : List Char) : Option (List Char) :=
  ["re:", "fwd:", "fw:"].findSome? fun marker =>
    if (subject.take marker.toList.length).map Char.toLower = marker.toList then
      some ((subject.drop marker.toList.length).dropWhile PyString.isSpace)
    else none

theorem length_dropReplyMarker_lt {subject rest : List Char}
    (h : dropReplyMarker subject = some rest) : rest.length < subject.length := by
  obtain ⟨marker, hmarker, h⟩ := List.exists_of_findSome?_eq_some h
  split at h
  · rename_i htake
    obtain rfl := Option.some.inj h
    have hpos : 0 < marker.toList.length := by
      simp only [List.mem_cons, List.not_mem_nil, or_false] at hmarker
      rcases hmarker with rfl | rfl | rfl <;> decide
    have hle : marker.toList.length ≤ subject.length := by
      have := congrArg List.length htake
      rw [List.length_map, List.length_take] at this
      omega
    calc _ ≤ (subject.drop marker.toList.length).length := (List.dropWhile_sublist _).length_le
      _ < subject.length := by rw [List.length_drop]; omega
  · simp at h

def dropReplyMarkers (subject : List Char) : List Char :=
  match _h : dropReplyMarker subject with
  | some rest => dropReplyMarkers rest
  | none => subject
termination_by subject.length
decreasing_by exact length_dropReplyMarker_lt _h

/-- `normalize_subject`. -/
def normalizeSubject : Option String → Option String
  | none => none
  | some subject =>
    if subject = "" then none
    else
      let normalized := PyString.strip (String.ofList (dropReplyMarkers subject.toList))
      if normalized = "" then some (PyString.strip subject) else some normalized

example : normalizeSubject (some "Re: FW:re: Sofa ") = some "Sofa" := by decide +kernel

/-! ### Threads -/

structure IdSource where
  next : List ClientId → ClientId
  fresh : ∀ used, next used ∉ used

/-- What a sync knows: the workspace, the connection, the time, and where new ids come from. -/
structure Sync where
  workspaceId : ClientId
  connectionId : ClientId
  now : Instant
  ids : IdSource

variable (sync : Sync)

def lookupIds (inbound : InboundMessage) : List String :=
  inbound.inReplyTo.toList.filter (· ≠ "") ++ inbound.references

def named (db : Db) (rfcMessageId : String) : List EmailMessage :=
  db.messages.filter fun message =>
    message.rfcMessageId = some rfcMessageId ∧ message.workspaceId = sync.workspaceId

def findThread (db : Db) : List String → Except EmailError (Option EmailThread)
  | [] => .ok none
  | rfcMessageId :: lookupIds => do
    throwIf (¬ isText rfcMessageId) .dataError
    match ← scalarOneOrNone (named sync db rfcMessageId) with
    | some matched =>
      match ← scalarOneOrNone (db.threads.filter fun thread =>
          thread.clientId = matched.threadId ∧ thread.workspaceId = sync.workspaceId) with
      | some thread => .ok (some thread)
      | none => findThread db lookupIds
    | none => findThread db lookupIds

def createThread (db : Db) (inbound : InboundMessage) : Except EmailError (Db × EmailThread) := do
  let thread : EmailThread :=
    { clientId := sync.ids.next db.threadIds
      workspaceId := sync.workspaceId
      connectionId := sync.connectionId
      subjectNormalized := (normalizeSubject inbound.subject).map (varchar 512)
      lastMessageAt := none
      lastInboundMessageAt := none }
  throwIf (¬ ∀ s ∈ normalizeSubject inbound.subject, fits 512 s) .dataError
  return ({ db with threads := db.threads ++ [thread] }, thread)

/-- `find_or_create_thread`. -/
def findOrCreateThread (db : Db) (inbound : InboundMessage) :
    Except EmailError (Db × EmailThread) := do
  match ← findThread sync db (lookupIds inbound) with
  | some thread => .ok (db, thread)
  | none => createThread sync db inbound

/-! ### Messages -/

/-- `ProcessResult`. -/
structure ProcessResult where
  savedCount : ℕ
  skippedCount : ℕ
  newThreadIds : List ClientId
  createdMessages : List EmailMessage
  deriving DecidableEq, Repr

def place (inbound : InboundMessage) : ClientId × String × String :=
  (sync.connectionId, inbound.providerFolder.name, toString inbound.providerUid)

def duplicates (db : Db) (inbound : InboundMessage) : List EmailMessage :=
  db.messages.filter fun message =>
    message.connectionId = sync.connectionId ∧
      message.providerFolder = some inbound.providerFolder.name ∧
      message.providerUid = some (toString inbound.providerUid)

def EmailThread.receive (receivedAt : Instant) (thread : EmailThread) : EmailThread :=
  { thread with lastMessageAt := some receivedAt, lastInboundMessageAt := some receivedAt }

def saveMessage (db : Db) (result : ProcessResult) (thread : EmailThread)
    (inbound : InboundMessage) : Except EmailError (Db × ProcessResult) := do
  throwIf (¬ inbound.Storable) .dataError
  let message := inbound.row sync.workspaceId sync.connectionId thread.clientId
  return (
    { messages := db.messages ++ [message]
      threads := updateWhere (·.clientId = thread.clientId)
        (EmailThread.receive (inbound.receivedAt.getD sync.now)) db.threads },
    { result with
      savedCount := result.savedCount + 1
      newThreadIds := result.newThreadIds.insert thread.clientId
      createdMessages := result.createdMessages ++ [message] })

def processMessage (state : Db × ProcessResult) (inbound : InboundMessage) :
    Except EmailError (Db × ProcessResult) := do
  let (db, result) := state
  match ← scalarOneOrNone (duplicates sync db inbound) with
  | some _ => .ok (db, { result with skippedCount := result.skippedCount + 1 })
  | none =>
    let (db, thread) ← findOrCreateThread sync db inbound
    saveMessage sync db result thread inbound

/-- `process_inbound_messages`. -/
def processInboundMessages (db : Db) (inboundMessages : List InboundMessage) :
    Except EmailError (Db × ProcessResult) :=
  inboundMessages.foldlM (processMessage sync) (db, ⟨0, 0, [], []⟩)

/-- The tables that earlier work can leave: syncs of any connection of any workspace, and sends,
which open threads and put outgoing messages, that have no place, into threads. -/
inductive Db.Reached : Db → Prop
  | empty : Reached ⟨[], []⟩
  | synced {db db' : Db} {result : ProcessResult} (sync : Sync) (inbound : List InboundMessage)
      (h : Reached db) (hok : processInboundMessages sync db inbound = .ok (db', result)) :
      Reached db'
  | opened {db : Db} (thread : EmailThread) (h : Reached db)
      (hnew : thread.clientId ∉ db.threadIds) :
      Reached { db with threads := db.threads ++ [thread] }
  | sent {db : Db} (message : EmailMessage) (h : Reached db)
      (hfolder : message.providerFolder = none)
      (hthread : ∃ thread ∈ db.threads,
        thread.clientId = message.threadId ∧ thread.workspaceId = message.workspaceId) :
      Reached { db with messages := db.messages ++ [message] }

end BeyoManager.Emails
