import KnowledgeMarketplace.Core.Text
import KnowledgeMarketplace.Database.Statements

/-!
# Messaging services

Threads belong to a request, to an order, or to the dispute about it.  Who takes
part follows the rows of the context; the relation of participants is a
snapshot that only the inbox reads.
-/

namespace KnowledgeMarketplace

open Transaction

namespace Messaging

def maxChars : Nat := 5000

/-- `UNREAD_EPOCH`. -/
def unreadEpoch : Time := 0

inductive AttachmentPurpose where
  | credential
  | avatar
  | requestBrief
  | delivery
  | orderAttachment
  | message
  | disputeEvidence
  deriving DecidableEq

/-- An upload. -/
structure Attachment where
  uploader : UserId
  purpose : AttachmentPurpose
  deriving DecidableEq

/-! ## Contexts -/

/-- A thread with the rows of its context, as a view has loaded them. -/
structure LoadedThread where
  id : ThreadId
  thread : Thread
  order : Option Order := none
  request : Option (RequestId × ServiceRequest) := none

/-- The thread and its context as they are stored. -/
def load (id : ThreadId) (db : Db) : Option LoadedThread :=
  (db.conversations.threads.row id).map fun thread =>
    { id, thread
      order := thread.order.bind db.orders.row
      request := thread.request.bind fun request =>
        (db.requests.row request).map (request, ·) }

/-- The experts with an offer on a request. -/
def offerExperts (request : RequestId) (db : Db) : List UserId :=
  db.offers.collect fun offer =>
    if offer.request = request then some offer.expert else none

/-- The relation of participants. -/
def snapshot (id : ThreadId) (db : Db) : List UserId :=
  (db.conversations.threads.row id).elim [] Thread.participants

/-- Who takes part, by the rows of the context. -/
def contextParticipants (thread : LoadedThread) (db : Db) : List UserId :=
  match thread.thread.contextType, thread.order, thread.request with
  | .order, some order, _ | .dispute, some order, _ =>
      [order.student, order.expert]
  | .request, _, some (id, request) => request.student :: offerExperts id db
  | _, _, _ => snapshot thread.id db

def notParticipant : Error :=
  .permissionDenied "You are not a participant of this conversation."

/-- Ended contexts are read-only; `thread` is the caller's copy. -/
def assertContextOpen (thread : LoadedThread) : Except Error Unit :=
  if thread.thread.contextType = .order ∧
      thread.order.any (·.status = .cancelled) then
    .error (.domainError
      "This order is cancelled — the conversation is read-only."
      "thread_read_only")
  else if thread.thread.contextType = .request ∧
      thread.request.any fun (_, request) =>
        request.status = .cancelled || request.status = .expired then
    .error (.domainError
      "This request has ended — the conversation is read-only."
      "thread_read_only")
  else
    .ok ()

def isReadOnly (thread : LoadedThread) : Bool :=
  !(assertContextOpen thread).isOk

/-! ## Threads -/

/-- The row that a thread is opened about. -/
inductive Context where
  | order (id : OrderId) (order : Order)
  | request (id : RequestId) (request : ServiceRequest)
  | dispute (id : OrderId) (order : Order)

namespace Context

def contextType : Context → ThreadContext
  | .order _ _ => .order
  | .request _ _ => .request
  | .dispute _ _ => .dispute

/-- The new thread of a context. -/
def thread (context : Context) (now : Time) (participants : List UserId) :
    Thread :=
  { contextType := context.contextType
    request := match context with
      | .request id _ => some id
      | .order _ _ | .dispute _ _ => none
    order := match context with
      | .order id _ | .dispute id _ => some id
      | .request _ _ => none
    participants
    createdAt := now
    lastMessageAt := some now }

/-- A thread is of the context: it has its type and its row. -/
def Has (context : Context) (thread : Thread) : Prop :=
  match context with
  | .order id _ => thread.contextType = .order ∧ thread.order = some id
  | .request id _ => thread.contextType = .request ∧ thread.request = some id
  | .dispute id _ => thread.contextType = .dispute ∧ thread.order = some id

instance (context : Context) (thread : Thread) :
    Decidable (context.Has thread) := by
  cases context <;> exact inferInstanceAs (Decidable (_ ∧ _))

/-- The threads of a context. -/
def threads (context : Context) (db : Db) : List ThreadId :=
  db.conversations.threads.select fun _ thread => decide (context.Has thread)

/-- The participants of a new thread. -/
def participants (context : Context) (db : Db) : List UserId :=
  match context with
  | .order _ row | .dispute _ row => [row.student, row.expert]
  | .request id row => row.student :: offerExperts id db

/-- The refusal of someone who does not take part. -/
def refusal : Context → Error
  | .order _ _ =>
      .permissionDenied "You are not a participant of this order."
  | .request _ _ =>
      .permissionDenied
        "Only the request owner or an expert with an offer can open this chat."
  | .dispute _ _ =>
      .permissionDenied "You are not a participant of this dispute."

/-- The new thread with the rows of its context. -/
def loaded (context : Context) (id : ThreadId) (thread : Thread) :
    LoadedThread :=
  { id, thread
    order := match context with
      | .order _ row | .dispute _ row => some row
      | .request _ _ => none
    request := match context with
      | .request key row => some (key, row)
      | .order _ _ | .dispute _ _ => none }

end Context

/-- Insert a thread; no constraint but the primary key can refuse it. -/
def createThread
    (env : Env) (context : Context) (participants : List UserId) :
    Tx LoadedThread := do
  let thread := context.thread env.now participants
  Tx.create (.conversation (.thread env.key))
    (fun db => (db.conversations.threads.row env.key).isSome)
    (.converse (.insertThread env.key thread)) "Thread"
  return context.loaded env.key thread

/-- The one thread of a context, created lazily by somebody who takes part. -/
def getOrCreateThread (env : Env) (context : Context) (actor : UserId) :
    Tx LoadedThread := do
  Tx.require (actor ∈ (← Tx.read context.participants)) context.refusal
  let participants ← Tx.read context.participants
  let found ← Tx.read context.threads
  Tx.require (found.length ≤ 1) (.multipleObjects "Thread")
  let stored ← Tx.read fun db => found.head?.bind fun id => load id db
  let thread ← Tx.orElse stored (createThread env context participants)
  Tx.require (actor ∈ (← Tx.read (contextParticipants thread))) notParticipant
  return thread

/-- The thread, if the user takes part in it. -/
def threadForUser (id : ThreadId) (user : UserId) : Call LoadedThread := do
  let found ← Call.load (load id)
  let thread ← Call.orFail found (.notFound "Conversation not found.")
  let participants ← Call.load (contextParticipants thread)
  Call.require (user ∈ participants) notParticipant
  return thread

/-! ## Messages -/

/-- What a caller passes as the attachment: nothing, an id, or a row. -/
inductive AttachmentArgument where
  | absent
  | reference (id : String)
  | loaded (id : AttachmentId) (row : Attachment)
  deriving DecidableEq

namespace AttachmentArgument

/-- `attachment.purpose`, which the text of an id does not have. -/
def purpose : AttachmentArgument → Except Error (Option AttachmentPurpose)
  | .absent => .ok none
  | .reference _ => .error .attributeError
  | .loaded _ row => .ok (some row.purpose)

/-- The look-up of an id among the sender's uploads; a row is taken as it is. -/
def resolve
    (files : String → Option (AttachmentId × Attachment)) (sender : UserId) :
    AttachmentArgument → Except Error (Option AttachmentId)
  | .absent => .ok none
  | .reference id =>
      match files id with
      | some (key, row) =>
          if row.purpose = .message ∧ row.uploader = sender then .ok (some key)
          else
            .error (.domainError "Attachment not available." "validation_error")
      | none =>
          .error (.domainError "Attachment not available." "validation_error")
  | .loaded key _ => .ok (some key)

end AttachmentArgument

/-- Insert the message and move the thread; no transaction joins the two. -/
def storeMessage
    (env : Env) (thread : LoadedThread) (sender : UserId) (body : String)
    (attachment : Option AttachmentId) : Call (MessageId × Message) := do
  let message : Message :=
    { thread := thread.id
      sender
      body := strip body
      attachment
      createdAt := env.now }
  Call.atomic <| Tx.create (.conversation (.message env.key))
    (fun db => (db.conversations.messages.row env.key).isSome)
    (.converse (.insertMessage env.key message)) "Message"
  Call.exec <| .converse <| .saveThread thread.id fun stored =>
    { stored with lastMessageAt := some env.now }
  return (env.key, message)

/-- The attachment of a message, as far as it is tested. -/
def attach
    (files : String → Option (AttachmentId × Attachment)) (sender : UserId)
    (attachment : AttachmentArgument) : Except Error (Option AttachmentId) := do
  let purpose ← attachment.purpose
  if purpose.all (· = .message) then
    attachment.resolve files sender
  else
    .error (.domainError "Only message-purpose files can be attached."
      "validation_error")

/--
Send a message; `thread` is the caller's copy and `files` are the uploads by the
text of their ids.
-/
def sendMessage
    (env : Env) (files : String → Option (AttachmentId × Attachment))
    (thread : LoadedThread) (sender : UserId) (body : String)
    (attachment : AttachmentArgument) : Call (MessageId × Message) := do
  let participants ← Call.load (contextParticipants thread)
  Call.require (sender ∈ participants) notParticipant
  Call.ofExcept (assertContextOpen thread)
  Call.require (¬(stripped body = [] ∧ attachment = .absent))
    (.domainError "Message cannot be empty." "validation_error")
  Call.require ((stripped body).length ≤ maxChars)
    (.domainError "Message exceeds 5000 characters." "validation_error")
  let stored ← Call.ofExcept (attach files sender attachment)
  storeMessage env thread sender body stored

/-- The messages of a thread that are not hidden, the oldest first. -/
def visibleMessages (id : ThreadId) (db : Db) : List (MessageId × Message) :=
  let messages := db.conversations.messages.keys.filterMap fun key =>
    (db.conversations.messages.row key).map (key, ·)
  (messages.filter fun (_, message) =>
    message.thread = id && !message.isHidden).mergeSort
      fun first second => first.2.createdAt ≤ second.2.createdAt

/-- Move the user's read cursor to now. -/
def markRead (env : Env) (thread : LoadedThread) (user : UserId) : Tx Unit := do
  Tx.require (user ∈ (← Tx.read (contextParticipants thread))) notParticipant
  Tx.lockRow (.conversation (.receipt (thread.id, user)))
  if ← Tx.read fun db =>
      (db.conversations.receipts.row (thread.id, user)).isSome then
    Tx.exec (.converse (.saveReceipt (thread.id, user) env.now))
  else
    Tx.exec (.converse (.insertReceipt (thread.id, user) env.now))

/-! ## Inbox -/

/-- Up to when the user has read the thread. -/
def lastReadAt (id : ThreadId) (user : UserId) (db : Db) : Time :=
  (db.conversations.receipts.row (id, user)).getD unreadEpoch

/-- The messages that the inbox counts as unread. -/
def unreadMessages (id : ThreadId) (user : UserId) (db : Db) :
    List MessageId :=
  db.conversations.messages.select fun _ message =>
    message.thread = id && !message.isHidden && message.sender ≠ user &&
      lastReadAt id user db < message.createdAt

/-- A thread of the inbox. -/
structure Card where
  id : ThreadId
  lastMessage : String
  lastMessageAt : Time
  unread : Nat
  readOnly : Bool
  deriving DecidableEq

def card (user : UserId) (db : Db) (thread : LoadedThread) : Card :=
  let last := (visibleMessages thread.id db).getLast?
  { id := thread.id
    lastMessage := last.elim "" fun (_, message) => clip 120 message.body
    lastMessageAt := last.elim thread.thread.createdAt (·.2.createdAt)
    unread := (unreadMessages thread.id user db).length
    readOnly := isReadOnly thread }

/-- The user's threads, the latest first; it reads the snapshots. -/
def inbox (user : UserId) (db : Db) : List Card :=
  let threads := db.conversations.threads.select fun _ thread =>
    decide (user ∈ thread.participants)
  (threads.filterMap fun id => (load id db).map (card user db)).mergeSort
    fun first second => second.lastMessageAt ≤ first.lastMessageAt

/-! ## Views -/

/-- The row that a client names by the type of the context and its id. -/
def findContext (contextType : ThreadContext) (id : Nat) (db : Db) :
    Option Context :=
  match contextType with
  | .order => (db.orders.row id).map (.order id)
  | .dispute => (db.orders.row id).map (.dispute id)
  | .request => (db.requests.row id).map (.request id)

/-- Open the thread of a context; a dispute is named by its order. -/
def openContext
    (env : Env) (contextType : ThreadContext) (id : Nat) (actor : UserId) :
    Call LoadedThread := do
  let found ← Call.load (findContext contextType id)
  let context ← Call.orFail found (.notFound "Context not found.")
  Call.atomic (getOrCreateThread env context actor)

/-- A view does not tell why there is no thread. -/
def findThread (id : ThreadId) (user : UserId) : Call LoadedThread :=
  Call.tryCatch (threadForUser id user) fun _ =>
    Call.throw (.notFound "Conversation not found.")

/-- The response with a thread. -/
structure ThreadResponse where
  readOnly : Bool
  messages : List (MessageId × Message)

/-- The page of a thread: its read cursor moves before its messages are read. -/
def getThread (env : Env) (id : ThreadId) (user : UserId) :
    Call ThreadResponse := do
  let thread ← findThread id user
  Call.atomic (markRead env thread user)
  let messages ← Call.load (visibleMessages id)
  return { readOnly := isReadOnly thread, messages }

def postMessage
    (env : Env) (files : String → Option (AttachmentId × Attachment))
    (id : ThreadId) (user : UserId) (body : String)
    (attachment : AttachmentArgument) : Call (MessageId × Message) := do
  let thread ← findThread id user
  sendMessage env files thread user body attachment

def postRead (env : Env) (id : ThreadId) (user : UserId) : Call Unit := do
  let thread ← findThread id user
  Call.atomic (markRead env thread user)

end Messaging

end KnowledgeMarketplace
