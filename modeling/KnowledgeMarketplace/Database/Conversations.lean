import KnowledgeMarketplace.Database.Rows
import KnowledgeMarketplace.Transaction.Table

/-!
# Conversations

The tables of the messaging application and the statements that write them.
The participants of a thread are a many-to-many relation; they are listed with
the thread, because one transaction inserts both.
-/

namespace KnowledgeMarketplace

open Transaction

/-- Keys of threads, messages and files. -/
abbrev ThreadId := Nat
abbrev MessageId := Nat
abbrev AttachmentId := Nat

inductive ThreadContext where
  | request
  | order
  | dispute
  deriving DecidableEq

/-- A thread of a request, or of an order or the dispute about it. -/
structure Thread where
  contextType : ThreadContext
  request : Option RequestId := none
  order : Option OrderId := none
  participants : List UserId := []
  createdAt : Time
  lastMessageAt : Option Time := none
  deriving DecidableEq

structure Message where
  thread : ThreadId
  sender : UserId
  body : String
  attachment : Option AttachmentId := none
  isHidden : Bool := false
  createdAt : Time
  deriving DecidableEq

/-- The rows of threads, messages and read cursors. -/
structure Conversations where
  threads : Table ThreadId Thread := .empty
  messages : Table MessageId Message := .empty
  receipts : Table (ThreadId × UserId) Time := .empty

/-- A row of the messaging tables. -/
inductive ConversationRow where
  | thread (id : ThreadId)
  | message (id : MessageId)
  | receipt (key : ThreadId × UserId)
  deriving DecidableEq

/-- The statements on the messaging tables. -/
inductive ConversationStmt where
  | insertThread (id : ThreadId) (value : Thread)
  | saveThread (id : ThreadId) (set : Thread → Thread)
  | insertMessage (id : MessageId) (value : Message)
  | saveMessage (id : MessageId) (set : Message → Message)
  | insertReceipt (key : ThreadId × UserId) (lastReadAt : Time)
  | saveReceipt (key : ThreadId × UserId) (lastReadAt : Time)

namespace ConversationStmt

/-- The effect of a statement on the messaging tables. -/
def apply (conversations : Conversations) : ConversationStmt → Conversations
  | .insertThread id value =>
      { conversations with threads := conversations.threads.insert id value }
  | .saveThread id set =>
      { conversations with threads := conversations.threads.modify id set }
  | .insertMessage id value =>
      { conversations with messages := conversations.messages.insert id value }
  | .saveMessage id set =>
      { conversations with messages := conversations.messages.modify id set }
  | .insertReceipt key lastReadAt =>
      { conversations with
        receipts := conversations.receipts.insert key lastReadAt }
  | .saveReceipt key lastReadAt =>
      { conversations with
        receipts := conversations.receipts.modify key fun _ => lastReadAt }

/-- The row a statement locks. -/
def row : ConversationStmt → ConversationRow
  | .insertThread id _ | .saveThread id _ => .thread id
  | .insertMessage id _ | .saveMessage id _ => .message id
  | .insertReceipt key _ | .saveReceipt key _ => .receipt key

end ConversationStmt

/-- Two states of the messaging tables agree on a row. -/
def ConversationRow.Same :
    ConversationRow → Conversations → Conversations → Prop
  | .thread id, first, second => first.threads.row id = second.threads.row id
  | .message id, first, second =>
      first.messages.row id = second.messages.row id
  | .receipt key, first, second =>
      first.receipts.row key = second.receipts.row key

namespace ConversationRow

theorem same_refl (row : ConversationRow) (conversations : Conversations) :
    row.Same conversations conversations := by
  cases row <;> rfl

theorem same_trans
    (row : ConversationRow) {first second third : Conversations}
    (early : row.Same first second) (late : row.Same second third) :
    row.Same first third := by
  cases row <;> exact Eq.trans early late

/-- A statement leaves the rows alone that it does not lock. -/
theorem same_apply
    {stmt : ConversationStmt} (conversations : Conversations)
    (row : ConversationRow) (free : row ≠ stmt.row) :
    row.Same conversations (stmt.apply conversations) := by
  cases row <;> cases stmt <;> simp [ConversationStmt.row] at free <;>
    simp [Same, ConversationStmt.apply, free]

end ConversationRow

end KnowledgeMarketplace
