import KnowledgeMarketplace.Core.Errors
import KnowledgeMarketplace.Core.Signing
import KnowledgeMarketplace.Core.Text
import KnowledgeMarketplace.Database.Rows
import KnowledgeMarketplace.Transaction.Request
import KnowledgeMarketplace.Transaction.Table

/-!
# Notifications

A notification is one row; a task delivers it, over the live connection of its
recipient and by mail.  Mail of a category may be switched off, by its recipient
or by whoever holds a link for it.
-/

namespace KnowledgeMarketplace

open Transaction

abbrev NotificationId := Nat

namespace Notifications

/-! ## Rows -/

/-- `NotificationPreference.Category`. -/
inductive Category where
  | account
  | marketplace
  | assignments
  | orders
  | messages
  | payments
  deriving DecidableEq

namespace Category

def all : List Category :=
  [.account, .marketplace, .assignments, .orders, .messages, .payments]

def value : Category → String
  | .account => "account"
  | .marketplace => "marketplace"
  | .assignments => "assignments"
  | .orders => "orders"
  | .messages => "messages"
  | .payments => "payments"

def label : Category → String
  | .account => "Account & security"
  | .marketplace => "Offers & requests"
  | .assignments => "Invitations & assignments"
  | .orders => "Orders & deliveries"
  | .messages => "Messages"
  | .payments => "Payments & payouts"

/-- The category with this value. -/
def ofValue (value : String) : Option Category :=
  all.find? (·.value = value)

end Category

/-- `CATEGORY_FOR_TYPE`. -/
def categoryForType : List (String × Category) :=
  [("request_new_offer", .marketplace),
    ("request_new_matching", .marketplace),
    ("offer_accepted", .marketplace),
    ("invitation_new", .assignments),
    ("assignment_new", .assignments),
    ("order_paid_activated", .orders),
    ("order_delivered", .orders),
    ("order_revision_requested", .orders),
    ("order_approved_completed", .orders),
    ("order_cancelled", .orders),
    ("order_deadline_warning", .orders),
    ("order_auto_approve_warning", .orders),
    ("message_new", .messages),
    ("payment_failed", .payments),
    ("payout_scheduled", .payments),
    ("payout_paid", .payments),
    ("dispute_opened", .orders),
    ("dispute_resolved", .orders),
    ("review_new", .orders),
    ("review_reply", .orders),
    ("order_overdue_flagged", .orders),
    ("order_deadline_proposed", .orders),
    ("order_deadline_extended", .orders),
    ("payout_failed", .payments)]

/-- The category of a notification; orders when its type is unknown. -/
def categoryOf (ntype : String) : Category :=
  (categoryForType.lookup ntype).getD .orders

structure Notification where
  recipient : UserId
  type : String
  title : String
  body : String
  url : String
  createdAt : Time
  readAt : Option Time := none
  emailedAt : Option Time := none
  pushedAt : Option Time := none
  deriving DecidableEq

/-- A message to the channel group of a user. -/
structure Push where
  group : UserId
  id : NotificationId
  ntype : String
  title : String
  body : String
  url : String
  createdAt : Time
  deriving DecidableEq

structure Mail where
  subject : String
  message : String
  recipient : String
  deriving DecidableEq

namespace Notification

def push (id : NotificationId) (row : Notification) : Push where
  group := row.recipient
  id
  ntype := row.type
  title := row.title
  body := row.body
  url := row.url
  createdAt := row.createdAt

def mail (address : String) (row : Notification) : Mail where
  subject := row.title ++ " — Hybrid Expert Marketplace"
  message := "\n".intercalate <|
    (if row.body = "" then [] else [row.body]) ++
      if row.url = "" then [] else ["Open: " ++ row.url]
  recipient := address

/-- What never changes in a row. -/
def content (row : Notification) :
    UserId × String × String × String × String × Time :=
  (row.recipient, row.type, row.title, row.body, row.url, row.createdAt)

end Notification

/-! ## The database, and what has left it -/

/--
The rows, the addresses of the users, every task that was enqueued, and what was
handed over to the channel layer and to the mail server.  The key of a row that
was pruned is never used again.
-/
structure Inbox where
  emails : UserId → Option String
  notifications : Table NotificationId Notification := .empty
  pruned : List NotificationId := []
  preferences : Table (UserId × Category) Bool := .empty
  tasks : List NotificationId := []
  pushes : List (NotificationId × Push) := []
  mails : List (NotificationId × Mail) := []

/-- The row that a query finds. -/
def Inbox.row (inbox : Inbox) (id : NotificationId) : Option Notification :=
  if id ∈ inbox.pruned then none else inbox.notifications.row id

inductive InboxRow where
  | notification (id : NotificationId)
  | preference (user : UserId) (category : Category)
  deriving DecidableEq

inductive InboxStmt where
  | create (id : NotificationId) (row : Notification)
  | enqueue (id : NotificationId)
  | read (id : NotificationId) (now : Time)
  | push (id : NotificationId) (push : Push)
  | pushed (id : NotificationId) (now : Time)
  | send (id : NotificationId) (mail : Mail)
  | emailed (id : NotificationId) (now : Time)
  | prefer (user : UserId) (category : Category) (emailEnabled : Bool)
  | delete (id : NotificationId)
  deriving DecidableEq

namespace InboxStmt

def apply (inbox : Inbox) : InboxStmt → Inbox
  | .create id row =>
      { inbox with notifications := inbox.notifications.insert id row }
  | .enqueue id => { inbox with tasks := inbox.tasks ++ [id] }
  | .read id now =>
      { inbox with notifications := inbox.notifications.modify id fun row =>
          { row with readAt := some now } }
  | .push id payload =>
      { inbox with pushes := inbox.pushes ++ [(id, payload)] }
  | .pushed id now =>
      { inbox with notifications := inbox.notifications.modify id fun row =>
          { row with pushedAt := some now } }
  | .send id mail => { inbox with mails := inbox.mails ++ [(id, mail)] }
  | .emailed id now =>
      { inbox with notifications := inbox.notifications.modify id fun row =>
          { row with emailedAt := some now } }
  | .prefer user category emailEnabled =>
      { inbox with preferences :=
          inbox.preferences.store (user, category) emailEnabled }
  | .delete id => { inbox with pruned := inbox.pruned ++ [id] }

def rows : InboxStmt → List InboxRow
  | .create id _ | .read id _ | .pushed id _ | .emailed id _ | .delete id =>
      [.notification id]
  | .prefer user category _ => [.preference user category]
  | .enqueue _ | .push _ _ | .send _ _ => []

end InboxStmt

instance : Store Inbox InboxRow InboxStmt where
  apply stmt inbox := stmt.apply inbox
  rows := InboxStmt.rows

@[simp] theorem inboxStore_apply (stmt : InboxStmt) (inbox : Inbox) :
    Store.apply stmt inbox = stmt.apply inbox :=
  rfl

/-- A service raises, a column is too short, or a connection fails. -/
inductive InboxError where
  | service (error : Error)
  | dataError
  | connection
  deriving DecidableEq

abbrev InboxTx (α : Type) := Prog Inbox InboxRow InboxStmt InboxError α

abbrev InboxCall (α : Type) := Request Inbox InboxRow InboxStmt InboxError α

/-- A statement in a transaction of its own. -/
def perform (stmt : InboxStmt) : InboxCall Unit :=
  Request.atomic (Prog.exec stmt)

/-! ## Services -/

/-- Mail is on unless it was switched off; security mail is always on. -/
def emailEnabled (recipient : UserId) (ntype : String) (inbox : Inbox) :
    Bool :=
  let category := categoryOf ntype
  if category = .account then
    true
  else
    (inbox.preferences.row (recipient, category)).getD true

/-- Create the row and enqueue its delivery. -/
def notify (env : Env) (recipient : Option UserId)
    (ntype title body url : String) : InboxTx NotificationId := do
  let recipientId ← Prog.orFail recipient
    (.service (.valueError "notify() requires a recipient (user or user id)."))
  Prog.require (ntype.length ≤ 40) .dataError
  Prog.exec <| .create env.key
    { recipient := recipientId
      type := ntype
      title := clip 200 title
      body := clip 500 body
      url := clip 300 url
      createdAt := env.now }
  Prog.exec (.enqueue env.key)
  return env.key

/-- Each recipient is notified in a transaction of its own. -/
def notifyMany (recipients : List (Env × Option UserId))
    (ntype title body url : String) : InboxCall Unit :=
  Request.forEach (recipients.filter (·.2.isSome)) fun target => do
    let _ ← Request.atomic (notify target.1 target.2 ntype title body url)
    return ()

def unreadCount (user : UserId) (inbox : Inbox) : Nat :=
  (inbox.notifications.keys.filter fun id =>
    (inbox.row id).any fun row =>
      row.recipient = user && row.readAt.isNone).length

/-- The categories that may be switched off, with their labels. -/
def preferencesFor (user : UserId) (inbox : Inbox) :
    List (Category × String × Bool) :=
  (Category.all.filter (· ≠ .account)).map fun category =>
    (category, category.label,
      (inbox.preferences.row (user, category)).getD true)

def validationError (message : String) : InboxError :=
  .service (Error.domainError message "validation_error")

/-- `update_or_create` of a preference. -/
def storePreference (user : UserId) (category : Category) (enabled : Bool) :
    InboxTx Unit := do
  Prog.lockRow (.preference user category)
  Prog.exec (.prefer user category enabled)

def setPreference (user : UserId) (category : String) (enabled : Bool) :
    InboxTx Unit := do
  Prog.require (category ≠ Category.account.value)
    (validationError "Security email cannot be disabled.")
  let valid ← Prog.orFail (Category.ofValue category)
    (validationError "Unknown notification category.")
  storePreference user valid enabled

/-! ## Delivery -/

/-- A server is not there, fails, fails after the handover, or works. -/
inductive Server where
  | absent
  | fails
  | breaks
  | works
  deriving DecidableEq

/-- The servers, and the clock when each has answered. -/
structure Delivery where
  channel : Server
  pushedAt : Time
  mailer : Server
  emailedAt : Time

/-- Best effort: nothing is raised. -/
def pushRealtime (env : Delivery) (id : NotificationId) (row : Notification) :
    InboxCall Unit :=
  match env.channel with
  | .absent | .fails => return ()
  | .breaks => perform (.push id (row.push id))
  | .works => do
      perform (.push id (row.push id))
      perform (.pushed id env.pushedAt)

def sendMail (env : Delivery) (id : NotificationId) (mail : Mail) :
    InboxCall Unit :=
  match env.mailer with
  | .absent | .fails => Request.throw .connection
  | .breaks => do
      perform (.send id mail)
      Request.throw .connection
  | .works => perform (.send id mail)

/-- The row with the address of its recipient. -/
def Inbox.addressed (inbox : Inbox) (id : NotificationId) :
    Option (Notification × String) :=
  (inbox.row id).bind fun row =>
    (inbox.emails row.recipient).map fun address => (row, address)

theorem addressed_eq_some
    {inbox : Inbox} {id : NotificationId} {row : Notification}
    {address : String} :
    inbox.addressed id = some (row, address) ↔
      inbox.row id = some row ∧ inbox.emails row.recipient = some address := by
  simp only [Inbox.addressed, Option.bind_eq_some_iff, Option.map_eq_some_iff,
    Prod.mk.injEq]
  constructor
  · intro found
    obtain ⟨stored, there, other, known, same, equal⟩ := found
    exact ⟨same ▸ there, same ▸ equal ▸ known⟩
  · intro found
    exact ⟨row, found.1, address, found.2, rfl, rfl⟩

def missing : InboxError :=
  .service (.doesNotExist "Notification")

/-- The second half of the task: mail, unless the copy says it was sent. -/
def mailUnsent (env : Delivery) (id : NotificationId) (copy : Notification)
    (address : String) : InboxCall Unit := do
  if copy.emailedAt = none then
    let enabled ← Request.load (emailEnabled copy.recipient copy.type)
    if enabled = true then
      sendMail env id (copy.mail address)
      perform (.emailed id env.emailedAt)

/-- The task: push and mail, unless the row says that this was done. -/
def deliverNotification (env : Delivery) (id : NotificationId) :
    InboxCall Unit := do
  let copy ← Request.orFail (← Request.load (·.addressed id)) missing
  if copy.1.pushedAt = none then
    pushRealtime env id copy.1
    let _ ← Request.orFail (← Request.load (·.row id)) missing
  mailUnsent env id copy.1 copy.2

/-! ## Requests -/

/-- The row of a recipient is marked, and the unread rows are counted. -/
def markRead (now : Time) (user : UserId) (id : NotificationId) :
    InboxCall Nat := do
  let found ← Request.load fun inbox =>
    (inbox.row id).filter (·.recipient = user)
  let copy ← Request.orFail found
    (.service (Error.notFound "Notification not found."))
  if copy.readAt = none then
    perform (.read id now)
  Request.load (unreadCount user)

/-- The unread rows of a user. -/
def unread (user : UserId) (id : NotificationId) (inbox : Inbox) : Bool :=
  (inbox.row id).any fun row => row.recipient = user && row.readAt.isNone

def markAllRead (now : Time) (user : UserId) : InboxCall Nat :=
  Request.atomic <| Prog.updateWhere (·.notifications.keys) (unread user)
    .notification fun id => .read id now

/-- The rows that are older than the cutoff. -/
def outdated (cutoff : Time) (id : NotificationId) (inbox : Inbox) : Bool :=
  (inbox.row id).any fun row => row.createdAt < cutoff

/-- `prune_notifications --days`. -/
def prune (now : Time) (age : Nat) : InboxCall Nat :=
  Request.atomic <| Prog.updateWhere (·.notifications.keys)
    (outdated (now - days age)) .notification .delete

/-! ## Links -/

/-- What a link carries. -/
structure Claim where
  u : UserId
  c : String
  deriving DecidableEq

variable {τ : Type}

def unsubscribeSalt : String := "notifications.unsubscribe"

def unsubscribeMaxAge : Nat := 60 * 60 * 24 * 60

def unsubscribeToken (signer : Signing.Signer String Claim τ) (now : Time)
    (user : UserId) (category : String) : τ :=
  signer.sign unsubscribeSalt now { u := user, c := category }

def resolveUnsubscribeToken (signer : Signing.Signer String Claim τ)
    (now : Time) (token : τ) : Option Claim :=
  (signer.loads unsubscribeSalt now unsubscribeMaxAge token).toOption

/-- The pages that answer a link: with 400, or with 200 for a category. -/
inductive UnsubscribePage where
  | invalid
  | isProtected (label : String)
  | unsubscribed (label : String)
  deriving DecidableEq

/-- The token is the authorization. -/
def unsubscribe (signer : Signing.Signer String Claim τ) (now : Time)
    (token : τ) : InboxCall UnsubscribePage :=
  match resolveUnsubscribeToken signer now token with
  | none => return .invalid
  | some claim =>
      match Category.ofValue claim.c with
      | none => return .invalid
      | some category =>
          if category = .account then
            return .isProtected category.label
          else do
            let known ← Request.load fun inbox => (inbox.emails claim.u).isSome
            if known = true then
              Request.atomic (storePreference claim.u category false)
              return .unsubscribed category.label
            else
              return .invalid

end Notifications

end KnowledgeMarketplace
