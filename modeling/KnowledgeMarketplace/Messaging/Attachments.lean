import KnowledgeMarketplace.Messaging.Services
import KnowledgeMarketplace.Transaction.Alone

/-!
# Attachments of messages

Both transports pass the id of an upload.  The purpose is tested before the id
is looked up, and the text of an id has none; a row is never tested for its
uploader.
-/

namespace KnowledgeMarketplace

open Transaction

namespace Messaging

/-- The upload that an argument stands for. -/
def AttachmentArgument.upload
    (files : String → Option (AttachmentId × Attachment)) :
    AttachmentArgument → Option (AttachmentId × Attachment)
  | .absent => none
  | .reference id => files id
  | .loaded key row => some (key, row)

/-- It is an upload of the sender for messages. -/
def AttachmentArgument.Owned
    (files : String → Option (AttachmentId × Attachment)) (sender : UserId)
    (attachment : AttachmentArgument) : Prop :=
  ∃ key row, attachment.upload files = some (key, row) ∧
    row.purpose = .message ∧ row.uploader = sender

/-- Everything but the attachment allows the message. -/
structure Sendable
    (thread : LoadedThread) (sender : UserId) (body : String)
    (attachment : AttachmentArgument) (db : Db) : Prop where
  participant : sender ∈ contextParticipants thread db
  contextOpen : assertContextOpen thread = .ok ()
  filled : ¬(stripped body = [] ∧ attachment = .absent)
  short : (stripped body).length ≤ maxChars

/--
The message is stored with the attachment if that is the sender's upload for
messages; another attachment is refused.
-/
structure AttachmentRule
    (env : Env) (files : String → Option (AttachmentId × Attachment))
    (thread : LoadedThread) (sender : UserId) (body : String)
    (attachment : AttachmentArgument) (db : Db)
    (result : Except Error (MessageId × Message)) (next : Db) : Prop where
  stores : Sendable thread sender body attachment db →
    attachment = .absent ∨ attachment.Owned files sender →
      result.isOk = true ∧ next.conversations.messages.row env.key =
        some { thread := thread.id
               sender
               body := strip body
               attachment := (attachment.upload files).map Prod.fst
               createdAt := env.now }
  refuses : attachment ≠ .absent → ¬attachment.Owned files sender →
    (∃ error, result = .error (.domain error)) ∧ next = db

/-- What the code tests of an attachment is enough. -/
def AttachmentArgument.Tested (sender : UserId) : AttachmentArgument → Prop
  | .absent => True
  | .reference _ => False
  | .loaded _ row => row.purpose = .message → row.uploader = sender

variable {env : Env} {files : String → Option (AttachmentId × Attachment)}
  {thread : LoadedThread} {sender : UserId} {body : String}
  {attachment : AttachmentArgument} {db : Db}

/-- The refusal of an ended context is a domain error. -/
theorem domain_of_assertContextOpen {error : Error}
    (refused : assertContextOpen thread = .error error) :
    ∃ domain, error = .domain domain := by
  unfold assertContextOpen at refused
  split_ifs at refused
  · exact ⟨_, (Except.error.inj refused).symm⟩
  · exact ⟨_, (Except.error.inj refused).symm⟩

/-- Without one of the other conditions the message is refused. -/
theorem sendMessage_refused
    (blocked : ¬Sendable thread sender body attachment db) :
    ∃ error, Request.run (sendMessage env files thread sender body attachment)
      db = (.error (.domain error), db) := by
  suffices whole : (sendMessage env files thread sender body attachment).Leaves
      db [] fun result next _ =>
        ∃ error, (result, next) = (.error (.domain error), db) from
    Request.leaves_iff_run.mp whole
  refine Request.leaves_bind.mpr (Request.leaves_load.mpr ?_)
  refine Request.leaves_bind.mpr (Request.leaves_require.mpr
    ⟨fun participant => ?_, fun _ => ⟨_, rfl⟩⟩)
  refine Request.leaves_bind.mpr (Request.leaves_ofExcept.mpr
    ⟨fun _ contextOpen => ?_, fun error refused => ?_⟩)
  · refine Request.leaves_bind.mpr (Request.leaves_require.mpr
      ⟨fun filled => ?_, fun _ => ⟨_, rfl⟩⟩)
    refine Request.leaves_bind.mpr (Request.leaves_require.mpr
      ⟨fun short => ?_, fun _ => ⟨_, rfl⟩⟩)
    exact absurd ⟨by simpa using participant, contextOpen, filled, short⟩
      blocked
  · obtain ⟨domain, rfl⟩ := domain_of_assertContextOpen refused
    exact ⟨domain, rfl⟩

/-- With them the attachment decides. -/
theorem sendMessage_attaches
    (sendable : Sendable thread sender body attachment db)
    (fresh : db.conversations.messages.row env.key = none)
    (goal : Except Error (MessageId × Message) → Db → Prop)
    (refused : ∀ error, attach files sender attachment = .error error →
      goal (.error error) db)
    (stored : ∀ upload next message, attach files sender attachment = .ok upload →
      message =
        ({ thread := thread.id
           sender
           body := strip body
           attachment := upload
           createdAt := env.now } : Message) →
      next.conversations.messages.row env.key = some message →
      goal (.ok (env.key, message)) next) :
    let reached := Request.run
      (sendMessage env files thread sender body attachment) db
    goal reached.1 reached.2 := by
  intro reached
  suffices whole : (sendMessage env files thread sender body attachment).Leaves
      db [] fun result next _ => goal result next from
    Request.leaves_iff_run.mp whole
  refine Request.leaves_bind.mpr (Request.leaves_load.mpr ?_)
  refine Request.leaves_bind.mpr (Request.leaves_require.mpr
    ⟨fun _ => ?_, fun absent => absurd sendable.participant absent⟩)
  rw [sendable.contextOpen]
  refine Request.leaves_bind.mpr (Request.leaves_ofExcept.mpr
    ⟨fun _ _ => ?_, nofun⟩)
  refine Request.leaves_bind.mpr (Request.leaves_require.mpr
    ⟨fun _ => ?_, fun empty => absurd sendable.filled empty⟩)
  refine Request.leaves_bind.mpr (Request.leaves_require.mpr
    ⟨fun _ => ?_, fun long => absurd sendable.short long⟩)
  refine Request.leaves_bind.mpr (Request.leaves_ofExcept.mpr
    ⟨fun upload found => ?_, refused⟩)
  refine Request.leaves_bind.mpr (Request.leaves_atomic.mpr ?_)
  simp only [Tx.create, Prog.post_bind, Prog.post_lockRow, Prog.post_read,
    Prog.post_require, Prog.post_exec, applyAll_nil]
  refine ⟨fun _ => ?_, fun used => absurd fresh (by simpa using used)⟩
  refine Request.leaves_bind.mpr (Request.leaves_atomic.mpr
    (Prog.post_exec.mpr ?_))
  refine Request.leaves_pure.mpr (stored upload _ _ found rfl ?_)
  simp [Stmt.apply, ConversationStmt.apply, Table.row_insert, fresh]

/-- A row is tested for its purpose. -/
theorem attach_loaded (key : AttachmentId) (row : Attachment) :
    attach files sender (.loaded key row) =
      if row.purpose = .message then .ok (some key)
      else .error (.domainError "Only message-purpose files can be attached."
        "validation_error") := by
  by_cases purpose : row.purpose = .message
  · rw [if_pos purpose]
    change (if (some row.purpose).all (· = .message) then _ else _) = _
    simp [purpose, AttachmentArgument.resolve]
  · rw [if_neg purpose]
    change (if (some row.purpose).all (· = .message) then _ else _) = _
    simp [purpose]

/-- What the code makes of an argument that it tests enough. -/
theorem attach_of_tested
    (files : String → Option (AttachmentId × Attachment))
    (tested : attachment.Tested sender) :
    (attachment = .absent ∨ attachment.Owned files sender) ∧
        attach files sender attachment =
          .ok ((attachment.upload files).map Prod.fst) ∨
      (attachment ≠ .absent ∧ ¬attachment.Owned files sender) ∧
        ∃ error, attach files sender attachment = .error (.domain error) := by
  cases attachment with
  | absent => exact .inl ⟨.inl rfl, rfl⟩
  | reference id => exact tested.elim
  | loaded key row =>
      by_cases purpose : row.purpose = .message
      · refine .inl ⟨.inr ⟨key, row, rfl, purpose, tested purpose⟩, ?_⟩
        rw [attach_loaded, if_pos purpose]
        rfl
      · refine .inr ⟨⟨by simp, ?_⟩, ?_⟩
        · rintro ⟨_, _, same, message, _⟩
          obtain ⟨rfl, rfl⟩ := Prod.mk.inj (Option.some.inj same)
          exact purpose message
        · exact ⟨_, by rw [attach_loaded, if_neg purpose]; rfl⟩

/-- The text of an id ends the request, whatever it stands for. -/
theorem not_rule_reference {id : String}
    (sendable : Sendable thread sender body (.reference id) db)
    (fresh : db.conversations.messages.row env.key = none) :
    let reached := Request.run
      (sendMessage env files thread sender body (.reference id)) db
    ¬AttachmentRule env files thread sender body (.reference id) db reached.1
      reached.2 := by
  refine sendMessage_attaches sendable fresh
    (fun result next => ¬AttachmentRule env files thread sender body
      (.reference id) db result next)
    (fun error refused rule => ?_) (fun _ _ _ accepted => nomatch accepted)
  obtain rfl : Error.attributeError = error := Except.error.inj refused
  by_cases owned : (AttachmentArgument.reference id).Owned files sender
  · exact nomatch (rule.stores sendable (.inr owned)).1
  · obtain ⟨⟨_, domain⟩, _⟩ := rule.refuses (by simp) owned
    exact nomatch domain

/-- Somebody else's upload for messages is stored. -/
theorem not_rule_foreign {key : AttachmentId} {row : Attachment}
    (sendable : Sendable thread sender body (.loaded key row) db)
    (fresh : db.conversations.messages.row env.key = none)
    (purpose : row.purpose = .message) (foreign : row.uploader ≠ sender) :
    let reached := Request.run
      (sendMessage env files thread sender body (.loaded key row)) db
    ¬AttachmentRule env files thread sender body (.loaded key row) db reached.1
      reached.2 := by
  have accepted : attach files sender (.loaded key row) = .ok (some key) := by
    rw [attach_loaded, if_pos purpose]
  refine sendMessage_attaches sendable fresh
    (fun result next => ¬AttachmentRule env files thread sender body
      (.loaded key row) db result next)
    (fun error refused => ?_) (fun _ _ _ _ _ _ rule => ?_)
  · exact nomatch accepted.symm.trans refused
  · obtain ⟨⟨_, domain⟩, _⟩ := rule.refuses (by simp) (by
      rintro ⟨_, _, same, _, mine⟩
      obtain ⟨rfl, rfl⟩ := Prod.mk.inj (Option.some.inj same)
      exact foreign mine)
    exact nomatch domain

/-- What is tested enough is stored or refused as it should be. -/
theorem rule_of_tested
    (sendable : Sendable thread sender body attachment db)
    (fresh : db.conversations.messages.row env.key = none)
    (tested : attachment.Tested sender) :
    let reached := Request.run
      (sendMessage env files thread sender body attachment) db
    AttachmentRule env files thread sender body attachment db reached.1
      reached.2 := by
  rcases attach_of_tested files tested with
    ⟨kind, accepted⟩ | ⟨⟨given, foreign⟩, error, refused⟩
  · refine sendMessage_attaches sendable fresh
      (AttachmentRule env files thread sender body attachment db)
      (fun error refused => ?_)
      (fun upload next message found same stored => ?_)
    · exact nomatch accepted.symm.trans refused
    · obtain rfl := Except.ok.inj (accepted.symm.trans found)
      subst same
      exact ⟨fun _ _ => ⟨rfl, stored⟩, fun given foreign =>
        absurd kind (not_or.mpr ⟨given, foreign⟩)⟩
  · refine sendMessage_attaches sendable fresh
      (AttachmentRule env files thread sender body attachment db)
      (fun other found => ?_)
      (fun _ _ _ found => nomatch refused.symm.trans found)
    obtain rfl := Except.error.inj (refused.symm.trans found)
    exact ⟨fun _ kind => absurd kind (not_or.mpr ⟨given, foreign⟩),
      fun _ _ => ⟨⟨error, rfl⟩, rfl⟩⟩

/--
The attachment rule holds exactly when the message is refused for another
reason, when there is no attachment, or when a row is of the sender or has
another purpose.
-/
theorem attachment_rule_iff
    (env : Env) (files : String → Option (AttachmentId × Attachment))
    (thread : LoadedThread) (sender : UserId) (body : String)
    (attachment : AttachmentArgument) (db : Db)
    (fresh : db.conversations.messages.row env.key = none) :
    let reached := Request.run
      (sendMessage env files thread sender body attachment) db
    AttachmentRule env files thread sender body attachment db reached.1
        reached.2 ↔
      ¬Sendable thread sender body attachment db ∨ attachment.Tested sender := by
  intro reached
  by_cases sendable : Sendable thread sender body attachment db
  · constructor
    · intro rule
      refine .inr ?_
      cases attachment with
      | absent => exact trivial
      | reference id => exact not_rule_reference sendable fresh rule
      | loaded key row =>
          intro purpose
          by_contra foreign
          exact not_rule_foreign sendable fresh purpose foreign rule
    · intro tested
      exact rule_of_tested sendable fresh
        (tested.resolve_left (not_not.mpr sendable))
  · obtain ⟨error, refused⟩ : ∃ error, reached = (.error (.domain error), db) :=
      sendMessage_refused sendable
    refine ⟨fun _ => .inl sendable, fun _ => ?_⟩
    rw [refused]
    exact ⟨fun may => absurd may sendable, fun _ _ => ⟨⟨error, rfl⟩, rfl⟩⟩

/-- A thread of an active order between the student 1 and the expert 2. -/
def openThread : LoadedThread where
  id := 60
  thread :=
    { contextType := .order
      order := some 40
      participants := [1, 2]
      createdAt := 3 }
  order := some
    { request := 10
      student := 1
      expert := 2
      source := .openBid
      amount := 5000
      status := .active
      createdAt := 2 }

/-- The student has uploaded a file for messages. -/
def uploads (id : String) : Option (AttachmentId × Attachment) :=
  if id = "7d2c" then some (80, { uploader := 1, purpose := .message }) else none

/-- The rule holds of the row of the upload, and not of its id. -/
theorem attachment_rule_openThread :
    let reached := fun attachment => Request.run
      (sendMessage { now := 5, key := 90 } uploads openThread 1 "See the file."
        attachment) {}
    (AttachmentRule { now := 5, key := 90 } uploads openThread 1 "See the file."
        (.loaded 80 { uploader := 1, purpose := .message }) {}
        (reached (.loaded 80 { uploader := 1, purpose := .message })).1
        (reached (.loaded 80 { uploader := 1, purpose := .message })).2) ∧
      ¬AttachmentRule { now := 5, key := 90 } uploads openThread 1
        "See the file." (.reference "7d2c") {} (reached (.reference "7d2c")).1
        (reached (.reference "7d2c")).2 := by
  have sendable : Sendable openThread 1 "See the file." (.reference "7d2c") {} :=
    ⟨by decide, rfl, by decide, by decide⟩
  refine ⟨(attachment_rule_iff _ _ _ _ _ _ _ rfl).mpr (.inr fun _ => rfl), ?_⟩
  intro rule
  rcases (attachment_rule_iff _ _ _ _ _ _ _ rfl).mp rule with refused | tested
  · exact refused sendable
  · exact tested

/-- The id of the sender's own upload ends in an exception of Python. -/
theorem ownUpload_unsendable :
    let attachment := AttachmentArgument.reference "7d2c"
    let reached := Request.run
      (sendMessage { now := 5, key := 90 } uploads openThread 1 "See the file."
        attachment) {}
    Sendable openThread 1 "See the file." attachment {} ∧
      attachment.Owned uploads 1 ∧ reached.1 = .error .attributeError ∧
      ¬AttachmentRule { now := 5, key := 90 } uploads openThread 1
        "See the file." attachment {} reached.1 reached.2 := by
  intro attachment reached
  have sendable : Sendable openThread 1 "See the file." attachment {} :=
    ⟨by decide, rfl, by decide, by decide⟩
  have owned : attachment.Owned uploads 1 := ⟨80, _, rfl, rfl, rfl⟩
  have failed : reached.1 = .error .attributeError := by decide +kernel
  refine ⟨sendable, owned, failed, fun rule => ?_⟩
  have stored := (rule.stores sendable (.inr owned)).1
  rw [failed] at stored
  exact nomatch stored

end Messaging

end KnowledgeMarketplace
