import KnowledgeMarketplace.Messaging.Senders
import KnowledgeMarketplace.Transaction.Embedding

/-!
# Moderation

Participants report messages; staff dismiss a report, or confirm it and hide the
message.  Every change of visibility and every review is written to the audit
trail, in the transaction of the change.
-/

namespace KnowledgeMarketplace

open Transaction

namespace Moderation

open Messaging (Party contextParticipants notParticipant)

/-! ## Rows -/

abbrev ReportId := Nat

inductive Reason where
  | offPlatform
  | abuse
  | integrity
  | spam
  | other
  deriving DecidableEq

def Reason.value : Reason → String
  | .offPlatform => "off_platform"
  | .abuse => "abuse"
  | .integrity => "integrity"
  | .spam => "spam"
  | .other => "other"

/-- The reason with this value. -/
def Reason.ofValue (value : String) : Option Reason :=
  [Reason.offPlatform, .abuse, .integrity, .spam, .other].find?
    (·.value = value)

inductive ReportStatus where
  | opened
  | reviewed
  | dismissed
  deriving DecidableEq

structure MessageReport where
  message : MessageId
  reportedBy : UserId
  reason : Reason
  details : String := ""
  status : ReportStatus := .opened
  reviewedBy : Option UserId := none
  reviewedAt : Option Time := none
  deriving DecidableEq

inductive ReportAction where
  | dismiss
  | confirmHide
  deriving DecidableEq

def ReportAction.value : ReportAction → String
  | .dismiss => "dismiss"
  | .confirmHide => "confirm_hide"

/-- The action with this value. -/
def ReportAction.ofValue (value : String) : Option ReportAction :=
  [ReportAction.dismiss, .confirmHide].find? (·.value = value)

/-- The status that an action leaves. -/
def ReportAction.closes : ReportAction → ReportStatus
  | .dismiss => .dismissed
  | .confirmHide => .reviewed

/-- What the audit trail tells, with its object and its detail. -/
inductive AuditAction where
  /-- `messaging.message_reported` -/
  | messageReported (message : MessageId) (reason : Reason)
  /-- `messaging.thread_viewed` -/
  | threadViewed (thread : ThreadId)
  /-- `moderation.message_hidden`, `moderation.message_unhidden` -/
  | messageHidden (message : MessageId) (hidden : Bool) (reason : String)
  /-- `moderation.report_dismiss`, `moderation.report_confirm_hide` -/
  | reportReviewed (report : ReportId) (action : ReportAction)
      (message : MessageId) (note : String)
  deriving DecidableEq

structure AuditEvent where
  actor : UserId
  action : AuditAction
  deriving DecidableEq

/-- The marketplace, the reports and the audit trail, the oldest event first. -/
structure Desk where
  db : Db
  reports : Table ReportId MessageReport := .empty
  trail : List AuditEvent := []

/-- The rows of a desk; at most one report of a user on a message is open. -/
inductive DeskRow where
  | market (row : Row)
  | report (id : ReportId)
  | openReport (message : MessageId) (reportedBy : UserId)
  deriving DecidableEq

inductive DeskStmt where
  | market (stmt : Stmt)
  | insertReport (id : ReportId) (value : MessageReport)
  | saveReport (id : ReportId) (set : MessageReport → MessageReport)
  | log (event : AuditEvent)

namespace DeskStmt

def apply (desk : Desk) : DeskStmt → Desk
  | .market stmt => { desk with db := stmt.apply desk.db }
  | .insertReport id value =>
      { desk with reports := desk.reports.insert id value }
  | .saveReport id set => { desk with reports := desk.reports.modify id set }
  | .log event => { desk with trail := desk.trail ++ [event] }

/-- The rows that a statement locks; an event is a row of its own. -/
def rows : DeskStmt → List DeskRow
  | .market stmt => (Store.rows Db stmt).map .market
  | .insertReport id _ | .saveReport id _ => [.report id]
  | .log _ => []

end DeskStmt

instance : Store Desk DeskRow DeskStmt where
  apply stmt desk := stmt.apply desk
  rows stmt := stmt.rows

@[simp] theorem deskStore_apply (stmt : DeskStmt) (desk : Desk) :
    Store.apply stmt desk = stmt.apply desk :=
  rfl

/-- The marketplace is inside the desk. -/
def market : Embedding Db Desk where
  get := Desk.db
  row := .market
  stmt := .market
  get_apply _ _ := rfl
  rows_stmt _ := rfl

abbrev DeskTx (α : Type) := Prog Desk DeskRow DeskStmt Error α

abbrev DeskCall (α : Type) := Request Desk DeskRow DeskStmt Error α

namespace Desk

/-- The stored message. -/
def message (id : MessageId) (desk : Desk) : Option Message :=
  desk.db.conversations.messages.row id

/-- The key and the row of the thread of a message. -/
def threadOf (id : MessageId) (desk : Desk) : Option (ThreadId × Thread) :=
  (desk.message id).bind fun message =>
    (desk.db.conversations.threads.row message.thread).map (message.thread, ·)

/-- A thread with the rows of its context as they are now. -/
def linked (id : ThreadId) (thread : Thread) (desk : Desk) :
    Messaging.LoadedThread :=
  { id, thread
    order := thread.order.bind desk.db.orders.row
    request := thread.request.bind fun request =>
      (desk.db.requests.row request).map (request, ·) }

/-- The user has an open report on the message. -/
def hasOpenReport (id : MessageId) (user : UserId) (desk : Desk) : Bool :=
  desk.reports.any fun _ report =>
    report.message = id && report.reportedBy = user && report.status = .opened

end Desk

/-! ## Services -/

/-- Hide or show a message. -/
def setMessageHidden
    (id : MessageId) (actor : UserId) (hidden : Bool) (reason : String) :
    DeskTx Unit := do
  Prog.lockRow (.market (.conversation (.message id)))
  let message ← Prog.orFail (← Prog.read (Desk.message id))
    (.doesNotExist "Message")
  if message.isHidden = hidden then
    return ()
  else
    Prog.exec <| .market <| .converse <| .saveMessage id fun stored =>
      { stored with isHidden := hidden }
    Prog.exec <| .log
      { actor, action := .messageHidden id hidden (clip 200 reason) }

/--
A participant reports a message.  The view has loaded the row of its thread; the
rows of the context are read here.
-/
def reportMessage
    (env : Env) (id : MessageId) (thread : ThreadId × Thread)
    (actor : UserId) (reason : String) (details : String) :
    DeskTx ReportId := do
  let linked ← Prog.read (Desk.linked thread.1 thread.2)
  Prog.require
    (actor ∈ (← Prog.read fun desk => contextParticipants linked desk.db))
    notParticipant
  let known ← Prog.orFail (Reason.ofValue reason)
    (.domainError "Unknown report reason." "validation_error")
  Prog.require (¬(← Prog.read (Desk.hasOpenReport id actor)))
    (.domainError "You already reported this message." "duplicate_report")
  Prog.lockRow (.openReport id actor)
  Prog.lockRow (.report env.key)
  Prog.require
    (¬(← Prog.read fun desk =>
      desk.hasOpenReport id actor || (desk.reports.row env.key).isSome))
    (.integrity "MessageReport")
  Prog.exec <| .insertReport env.key
    { message := id, reportedBy := actor, reason := known
      details := clip 500 details }
  Prog.exec <| .log { actor, action := .messageReported id known }
  return env.key

/-- Close an open report. -/
def reviewReport
    (env : Env) (id : ReportId) (actor : UserId) (action : String)
    (note : String) : DeskTx Unit := do
  let action ← Prog.orFail (ReportAction.ofValue action)
    (.domainError "Unknown moderation action." "validation_error")
  Prog.lockRow (.report id)
  let report ← Prog.orFail (← Prog.read fun desk => desk.reports.row id)
    (.doesNotExist "MessageReport")
  Prog.require (report.status = .opened)
    (.domainError "This report was already reviewed." "report_not_open")
  if action = .confirmHide then
    setMessageHidden report.message actor true ("report:" ++ toString id)
  Prog.exec <| .saveReport id fun stored =>
    { stored with
      status := action.closes
      reviewedBy := some actor
      reviewedAt := some env.now
      details := clip 500 (if note = "" then report.details else note) }
  Prog.exec <| .log
    { actor
      action := .reportReviewed id action report.message (clip 200 note) }

/-- An open dispute about the order, or an open report in the thread. -/
def threadHasModerationGrounds (thread : Messaging.LoadedThread)
    (desk : Desk) : Bool :=
  thread.order.any Order.hasOpenDispute ||
    desk.reports.any fun _ report =>
      report.status = .opened &&
        (desk.message report.message).any (·.thread = thread.id)

/-- All messages of a thread, for staff; the view itself is told. -/
def adminViewThread (thread : Messaging.LoadedThread) (admin : Actor) :
    DeskCall (List (MessageId × Message)) := do
  Request.require admin.isStaff
    (.permissionDenied "Only staff can inspect conversations.")
  Request.require (← Request.load (threadHasModerationGrounds thread))
    (.domain
      { message :=
          "Thread inspection requires an open dispute or report (BR-35)."
        code := "no_moderation_grounds"
        statusCode := 403 })
  Request.atomic <| Prog.exec <| .log
    { actor := admin.id, action := .threadViewed thread.id }
  Request.load fun desk =>
    let messages := desk.db.conversations.messages
    (messages.keys.filterMap fun key =>
      (messages.row key).map (key, ·)).filter (·.2.thread = thread.id)
        |>.mergeSort fun first second => first.2.createdAt ≤ second.2.createdAt

/-! ## Requests -/

/-- Requests of moderation, and those of the marketplace. -/
inductive DeskRequest where
  | report (env : Env) (id : MessageId) (actor : UserId) (reason : String)
      (details : String)
  | review (env : Env) (id : ReportId) (actor : UserId) (action : String)
      (note : String)
  /-- `hide_messages`, `unhide_messages` of the selected rows. -/
  | toggle (ids : List MessageId) (actor : UserId) (hidden : Bool)
  | inspect (id : ThreadId) (admin : Actor)
  | party (work : Party)

/-- The request of the client. -/
def DeskRequest.call : DeskRequest → DeskCall Unit
  | .report env id actor reason details => do
      let thread ← Request.orFail (← Request.load (Desk.threadOf id))
        (.notFound "Message not found.")
      let _ ← Request.atomic
        (reportMessage env id thread actor reason details)
      return ()
  | .review env id actor action note => do
      let _ ← Request.orFail (← Request.load fun desk => desk.reports.row id)
        (.notFound "Report not found.")
      Request.atomic (reviewReport env id actor action note)
  | .toggle ids actor hidden => do
      let selected ← Request.load fun desk => ids.filter fun id =>
        (desk.message id).any (·.isHidden ≠ hidden)
      Request.forEach selected fun id =>
        Request.atomic (setMessageHidden id actor hidden "admin-action")
  | .inspect id admin => do
      let thread ← Request.orFail
        (← Request.load fun desk => Messaging.load id desk.db)
        (.doesNotExist "Thread")
      let _ ← adminViewThread thread admin
      return ()
  | .party work => work.call.inside market

/-! ## What the trail tells -/

/-- What the event tells about the visibility of a message. -/
def AuditEvent.toggle (id : MessageId) (event : AuditEvent) : Option Bool :=
  match event.action with
  | .messageHidden message hidden _ =>
      if message = id then some hidden else none
  | _ => none

/-- What the event tells about the review of a report. -/
def AuditEvent.closing (id : ReportId) (event : AuditEvent) :
    Option (UserId × ReportAction) :=
  match event.action with
  | .reportReviewed report action _ _ =>
      if report = id then some (event.actor, action) else none
  | _ => none

/-- A message is not hidden at first; each change is one. -/
def replay (changes : List Bool) : Option Bool :=
  changes.foldlM (fun hidden next =>
    if next = hidden then none else some next) false

/-- A report is closed by the one review of it, and not otherwise. -/
def Closed (report : MessageReport) (closings : List (UserId × ReportAction)) :
    Prop :=
  match report.status with
  | .opened =>
      closings = [] ∧ report.reviewedBy = none ∧ report.reviewedAt = none
  | .reviewed | .dismissed =>
      ∃ actor action, closings = [(actor, action)] ∧
        report.status = action.closes ∧ report.reviewedBy = some actor ∧
        report.reviewedAt.isSome = true

namespace Desk

/-- The changes of the visibility of a message. -/
def changes (id : MessageId) (desk : Desk) : List Bool :=
  desk.trail.filterMap (·.toggle id)

/-- The reviews of a report. -/
def closings (id : ReportId) (desk : Desk) : List (UserId × ReportAction) :=
  desk.trail.filterMap (·.closing id)

end Desk

/-- The trail tells what happened to the message or the report of a row. -/
def Told (row : DeskRow) (desk : Desk) : Prop :=
  match row with
  | .market (.conversation (.message id)) =>
      match desk.message id with
      | some message => replay (desk.changes id) = some message.isHidden
      | none => desk.changes id = []
  | .report id =>
      match desk.reports.row id with
      | some report => Closed report (desk.closings id)
      | none => desk.closings id = []
  | _ => True

/-- Two desks agree on a row and on what the trail tells about it. -/
def SameTale : DeskRow → Desk → Desk → Prop
  | .market (.conversation (.message id)), first, second =>
      first.message id = second.message id ∧
        first.changes id = second.changes id
  | .report id, first, second =>
      first.reports.row id = second.reports.row id ∧
        first.closings id = second.closings id
  | _, _, _ => True

theorem sameTale_refl (row : DeskRow) (desk : Desk) : SameTale row desk desk := by
  unfold SameTale
  split <;> simp

theorem sameTale_trans
    (row : DeskRow) (first second third : Desk)
    (early : SameTale row first second) (late : SameTale row second third) :
    SameTale row first third := by
  unfold SameTale at *
  split <;> simp_all

theorem Told.congr
    {row : DeskRow} {first second : Desk} (told : Told row first)
    (same : SameTale row first second) : Told row second := by
  unfold Told at *
  unfold SameTale at same
  split <;> simp_all

/-- What moderation leaves alone. -/
def content (message : Message) :
    ThreadId × UserId × String × Option AttachmentId × Time :=
  (message.thread, message.sender, message.body, message.attachment,
    message.createdAt)

/-- Messages stay as they were sent. -/
def Unedited (origin desk : Desk) : Prop :=
  ∀ id old, origin.message id = some old →
    ∃ message, desk.message id = some message ∧ content message = content old

/-- Effects of the marketplace that hide nothing. -/
def tame : Effect Stmt → Prop
  | .write (.converse (.insertMessage _ message)) => message.isHidden = false
  | .write (.converse (.saveMessage _ _)) => False
  | _ => True

theorem party_tame (party : Party) :
    party.call.Emits tame fun _ => True := by
  have sends : ∀ env files thread sender body attachment,
      (Messaging.sendMessage env files thread sender body attachment).Emits
        tame fun _ => True := by
    intro env files thread sender body attachment
    refine Request.Emits.seq (by simp) fun _ => .seq (by simp) fun _ => ?_
    refine .seq (by simp) fun _ => .seq (by simp) fun _ => ?_
    refine .seq (by simp) fun _ => .seq (by simp) fun _ => ?_
    simp [Messaging.storeMessage, Tx.create, Call.exec, tame]
  cases party with
  | activity work =>
      refine .seq (Request.emits_of_all (fun _ : Unit => Messaging.opening)
        (fun _ => work.emits) fun effect all => ?_) (by simp)
      have opens : Messaging.opening effect := all ()
      unfold tame
      split
      · exact opens.elim
      · exact opens.elim
      · trivial
  | connect id user frames =>
      refine .seq (by simp [Messaging.threadForUser]) fun thread => ?_
      refine Request.emits_forEach (fun frame _ => ?_)
      cases frame with
      | send env files body attachment =>
          exact Request.emits_tryCatch.mpr (Request.emits_bind.mpr
            ((sends env files thread user body attachment).mono
              fun result _ => by cases result <;> trivial))
      | typing => trivial
      | read env => simp [Messaging.Frame.receive, Messaging.markRead, tame]
  | post env files id user body attachment =>
      exact .seq (.seq (by simp [Messaging.findThread, Messaging.threadForUser])
        fun thread => sends env files thread user body attachment) (by simp)
  | receipt env id user =>
      simp [Party.call, Messaging.postRead, Messaging.findThread,
        Messaging.threadForUser, Messaging.markRead, tame]
  | page env id user =>
      simp [Party.call, Messaging.getThread, Messaging.findThread,
        Messaging.threadForUser, Messaging.markRead, tame]

variable {origin desk : Desk}

/-- A tame statement stores new messages only, in sight. -/
theorem message_apply
    {stmt : Stmt} (tamed : tame (.write stmt)) (id : MessageId) :
    ((DeskStmt.market stmt).apply desk).message id = desk.message id ∨
      desk.message id = none ∧ ∃ message,
        ((DeskStmt.market stmt).apply desk).message id = some message ∧
          message.isHidden = false := by
  cases stmt with
  | converse stmt =>
      cases stmt with
      | insertMessage key value =>
          simp only [Desk.message, DeskStmt.apply, Stmt.apply,
            ConversationStmt.apply, Table.row_insert]
          split_ifs with fresh
          · obtain ⟨rfl, unused⟩ := fresh
            exact .inr ⟨unused, value, rfl, tamed⟩
          · exact .inl rfl
      | saveMessage => exact tamed.elim
      | _ => exact .inl rfl
  | _ => exact .inl rfl

/-- The row that an event tells about. -/
def AuditAction.about : AuditAction → Option DeskRow
  | .messageHidden message _ _ =>
      some (.market (.conversation (.message message)))
  | .reportReviewed report _ _ _ => some (.report report)
  | _ => none

def DeskStmt.about : DeskStmt → Option DeskRow
  | .log event => event.action.about
  | _ => none

/-- A statement changes the rows that it locks and those that it tells about. -/
theorem sameTale_apply
    {stmt : DeskStmt} {row : DeskRow} (free : row ∉ stmt.rows)
    (silent : stmt.about ≠ some row) (desk : Desk) :
    SameTale row desk (stmt.apply desk) := by
  cases row with
  | openReport => trivial
  | report id =>
      cases stmt with
      | insertReport key value =>
          have other : id ≠ key := by simpa [DeskStmt.rows] using free
          exact ⟨by simp [DeskStmt.apply, other], rfl⟩
      | saveReport key set =>
          have other : id ≠ key := by simpa [DeskStmt.rows] using free
          exact ⟨by simp [DeskStmt.apply, other], rfl⟩
      | log event =>
          refine ⟨rfl, ?_⟩
          have untold : event.closing id = none := by
            unfold AuditEvent.closing
            split
            · rename_i report action message note told
              refine if_neg fun same => silent ?_
              simp [DeskStmt.about, AuditAction.about, told, same]
            · rfl
          simp [Desk.closings, DeskStmt.apply, untold]
      | market => exact ⟨rfl, rfl⟩
  | market row =>
      cases row with
      | conversation row =>
          cases row with
          | message id =>
              cases stmt with
              | market stmt =>
                  have same : SameRow (.conversation (.message id)) desk.db
                      (stmt.apply desk.db) :=
                    sameRow_apply _ _ fun locked =>
                      free (List.mem_map_of_mem locked)
                  exact ⟨same, rfl⟩
              | log event =>
                  refine ⟨rfl, ?_⟩
                  have untold : event.toggle id = none := by
                    unfold AuditEvent.toggle
                    split
                    · rename_i message hidden reason told
                      refine if_neg fun same => silent ?_
                      simp [DeskStmt.about, AuditAction.about, told, same]
                    · rfl
                  simp [Desk.changes, DeskStmt.apply, untold]
              | _ => exact ⟨rfl, rfl⟩
          | _ => trivial
      | _ => trivial

/-- A tame statement of the marketplace leaves every tale true. -/
theorem Told.market
    {row : DeskRow} (told : Told row desk) {stmt : Stmt}
    (tamed : tame (.write stmt)) :
    Told row ((DeskStmt.market stmt).apply desk) := by
  cases row with
  | openReport => trivial
  | report id => exact told
  | market row =>
      cases row with
      | conversation row =>
          cases row with
          | message id =>
              rcases message_apply tamed id with
                same | ⟨unsent, new, sent, visible⟩
              · exact told.congr ⟨same.symm, rfl⟩
              · simp only [Told, unsent] at told
                simp only [Told, sent]
                have none : ((DeskStmt.market stmt).apply desk).changes id =
                    [] := told
                rw [none, visible]
                rfl
          | _ => trivial
      | _ => trivial

theorem replay_append {changes : List Bool} {hidden next : Bool}
    (before : replay changes = some hidden) (changed : hidden ≠ next) :
    replay (changes ++ [next]) = some next := by
  unfold replay at before ⊢
  rw [List.foldlM_append, before]
  simp [Ne.symm changed]

/-! ## What commits keep -/

/-- The statement leaves the contents of messages alone. -/
def Spares : DeskStmt → Prop
  | .market (.converse (.saveMessage _ set)) =>
      ∀ message, content (set message) = content message
  | _ => True

theorem Unedited.apply
    {stmt : DeskStmt} (spares : Spares stmt) (kept : Unedited origin desk) :
    Unedited origin (stmt.apply desk) := by
  intro id old stored
  obtain ⟨message, found, same⟩ := kept id old stored
  cases stmt with
  | market stmt =>
      cases stmt with
      | converse stmt =>
          cases stmt with
          | insertMessage key value =>
              exact ⟨message, Table.row_insert_of_some key value found, same⟩
          | saveMessage key set =>
              by_cases equal : id = key
              · subst equal
                have stored : desk.db.conversations.messages.row id =
                    some message := found
                exact ⟨set message, by simp [Desk.message, DeskStmt.apply,
                  Stmt.apply, ConversationStmt.apply, stored],
                  (spares message).trans same⟩
              · have stored : desk.db.conversations.messages.row id =
                    some message := found
                exact ⟨message, by simp [Desk.message, DeskStmt.apply,
                  Stmt.apply, ConversationStmt.apply, equal, stored], same⟩
          | _ => exact ⟨message, found, same⟩
      | _ => exact ⟨message, found, same⟩
  | _ => exact ⟨message, found, same⟩

/-- The trail tells the truth, and messages stay as they were sent. -/
structure Truthful (origin desk : Desk) : Prop where
  told : ∀ row, Told row desk
  unedited : Unedited origin desk

/-- A lock protects its row and what the trail tells about it. -/
def moderating (origin : Desk) : Protocol Desk DeskRow DeskStmt where
  Inv := Truthful origin
  Same := SameTale
  Condition _ _ := True
  same_refl := sameTale_refl
  same_trans := sameTale_trans

/-- A message is hidden when a report about it is confirmed. -/
def Confirms (stmts : List DeskStmt) (desk : Desk) : Prop :=
  ∀ actor id message note,
    DeskStmt.log ⟨actor, .reportReviewed id .confirmHide message note⟩ ∈ stmts →
      ∃ hidden, (applyAll stmts desk).message message = some hidden ∧
        hidden.isHidden = true

/-- A transaction may commit if what it touches is told truly. -/
theorem commitOk_of_touched
    {ctx : Ctx Desk DeskRow DeskStmt}
    (silent : ∀ stmt ∈ ctx.writes, ∀ row, stmt.about = some row → ctx.held row)
    (spares : ∀ stmt ∈ ctx.writes, Spares stmt)
    (told : ∀ state, ctx.known state → (∀ row, Told row state) →
      (∀ row, ctx.held row → Told row (applyAll ctx.writes state)) ∧
        Confirms ctx.writes state) :
    ctx.CommitOk (moderating origin) Confirms := by
  intro state truthful known _ rows
  obtain ⟨touched, confirms⟩ := told state known truthful.told
  have frame : ∀ row, ¬ctx.held row →
      SameTale row state (applyAll ctx.writes state) :=
    fun row free => (moderating origin).same_applyAll
      (fun stmt member state unlocked => sameTale_apply unlocked
        (fun about => free (silent stmt member row about)) state)
      (fun locked => free (rows row locked)) state
  refine ⟨⟨fun row => ?_, ?_⟩, confirms, frame⟩
  · by_cases held : ctx.held row
    · exact touched row held
    · exact (truthful.told row).congr (frame row held)
  · exact applyAll_keeps (Unedited origin)
      (fun stmt member _ kept => kept.apply (spares stmt member))
      truthful.unedited

/-- The statements that change the visibility of a message. -/
def toggling (id : MessageId) (actor : UserId) (hidden : Bool)
    (reason : String) : List DeskStmt :=
  [.market (.converse (.saveMessage id fun stored =>
      { stored with isHidden := hidden })),
    .log { actor, action := .messageHidden id hidden (clip 200 reason) }]

/-- The row of a message. -/
abbrev messageRow (id : MessageId) : DeskRow :=
  .market (.conversation (.message id))

/-- After the toggle the message is to be hidden as asked; nobody interferes. -/
structure Toggled
    (id : MessageId) (actor : UserId) (hidden : Bool) (reason : String)
    (ctx later : Ctx Desk DeskRow DeskStmt) : Prop where
  held : ∀ row, later.held row ↔ row = messageRow id ∨ ctx.held row
  known : ∀ state, later.known state → ctx.known state
  writes : later.writes = [] ∧ (∀ state, later.known state →
      ∃ message, state.message id = some message ∧ message.isHidden = hidden) ∨
    later.writes = toggling id actor hidden reason ∧
      ∀ state, later.known state → ∃ message,
        state.message id = some message ∧ message.isHidden ≠ hidden

theorem setMessageHidden_wp
    (id : MessageId) (actor : UserId) (hidden : Bool) (reason : String)
    {ctx : Ctx Desk DeskRow DeskStmt} (writes : ctx.writes = [])
    {goal : Except Error Unit → Ctx Desk DeskRow DeskStmt → Prop}
    (ends : ∀ later, Toggled id actor hidden reason ctx later →
      goal (.ok ()) later)
    (fails : ∀ error later, goal (.error error) later) :
    (setMessageHidden id actor hidden reason).wp (moderating origin) ctx
      goal := by
  simp only [setMessageHidden, Prog.wp_bind, Prog.wp_lockRow, Prog.wp_read,
    Prog.wp_orFail, Prog.wp_ite, Prog.wp_pure, Prog.wp_exec, Ctx.take_writes,
    writes, applyAll_nil]
  intro state _ _
  refine ⟨fun message stored => ⟨fun same => ends _ ?_, fun changes =>
    ends _ ?_⟩, fun _ => fails _ _⟩
  · refine ⟨fun row => Iff.rfl, fun _ known => known.1, .inl ⟨writes, ?_⟩⟩
    rintro later ⟨_, rely⟩
    have kept := rely (messageRow id) (.inl rfl)
    exact ⟨message, kept.1.symm.trans stored, same⟩
  · refine ⟨fun row => ?_, fun _ known => known.1, .inr ⟨?_, ?_⟩⟩
    · have locked : ∀ set, Store.rows Desk (DeskStmt.market (.converse
          (.saveMessage id set))) = [messageRow id] := fun _ => rfl
      have silent : ∀ event, Store.rows Desk (DeskStmt.log event) = [] :=
        fun _ => rfl
      simp [locked, silent]
    · simp [writes, toggling]
    · rintro later ⟨_, rely⟩
      have kept := rely (messageRow id) (.inl rfl)
      exact ⟨message, kept.1.symm.trans stored, changes⟩

/-- A change of the visibility is told. -/
theorem told_toggling
    {id : MessageId} {message : Message} {hidden : Bool}
    (told : Told (messageRow id) desk) (stored : desk.message id = some message)
    (changes : message.isHidden ≠ hidden) (actor : UserId) (reason : String) :
    Told (messageRow id) (applyAll (toggling id actor hidden reason) desk) ∧
      (applyAll (toggling id actor hidden reason) desk).message id =
        some { message with isHidden := hidden } := by
  have found : (applyAll (toggling id actor hidden reason) desk).message id =
      some { message with isHidden := hidden } := by
    have row : desk.db.conversations.messages.row id = some message := stored
    simp [toggling, applyAll, Desk.message, DeskStmt.apply, Stmt.apply,
      ConversationStmt.apply, row]
  have longer : (applyAll (toggling id actor hidden reason) desk).changes id =
      desk.changes id ++ [hidden] := by
    simp [toggling, applyAll, Desk.changes, DeskStmt.apply, AuditEvent.toggle]
  refine ⟨?_, found⟩
  simp only [Told, stored] at told
  simp only [Told, found, longer]
  exact replay_append told changes

/-- What a toggle has changed is told. -/
theorem Toggled.commitOk
    {id : MessageId} {actor : UserId} {hidden : Bool} {reason : String}
    {later : Ctx Desk DeskRow DeskStmt}
    (toggled : Toggled id actor hidden reason .start later) :
    later.CommitOk (moderating origin) Confirms := by
  have held : ∀ row, later.held row ↔ row = messageRow id := by
    simp [toggled.held]
  rcases toggled.writes with ⟨writes, _⟩ | ⟨writes, known⟩
  · refine commitOk_of_touched (by simp [writes]) (by simp [writes])
      fun state _ told => ?_
    rw [writes]
    exact ⟨fun row _ => told row, by simp [Confirms]⟩
  · refine commitOk_of_touched ?_ ?_ fun state now told => ?_
    · simp [writes, toggling, held, DeskStmt.about, AuditAction.about, eq_comm]
    · simp [writes, toggling, Spares, content]
    · obtain ⟨message, stored, changes⟩ := known state now
      rw [writes]
      refine ⟨fun row own => ?_, by simp [Confirms, toggling]⟩
      obtain rfl := (held row).mp own
      exact (told_toggling (told _) stored changes actor reason).1

/-- The statements that close a report. -/
def closing (env : Env) (id : ReportId) (actor : UserId)
    (action : ReportAction) (report : MessageReport) (note : String) :
    List DeskStmt :=
  [.saveReport id fun stored =>
      { stored with
        status := action.closes
        reviewedBy := some actor
        reviewedAt := some env.now
        details := clip 500 (if note = "" then report.details else note) },
    .log
      { actor
        action := .reportReviewed id action report.message (clip 200 note) }]

/-- A review is told. -/
theorem told_closing
    {id : ReportId} {report : MessageReport} (told : Told (.report id) desk)
    (stored : desk.reports.row id = some report)
    (opened : report.status = .opened) (env : Env) (actor : UserId)
    (action : ReportAction) (old : MessageReport) (note : String) :
    Told (.report id) (applyAll (closing env id actor action old note) desk) := by
  have longer : (applyAll (closing env id actor action old note) desk).closings
      id = desk.closings id ++ [(actor, action)] := by
    simp [closing, applyAll, Desk.closings, DeskStmt.apply, AuditEvent.closing]
  simp only [Told, stored, Closed, opened] at told
  have none := told.1
  rw [none, List.nil_append] at longer
  obtain ⟨closed, found, status, reviewer, time⟩ : ∃ closed,
      (applyAll (closing env id actor action old note) desk).reports.row id =
          some closed ∧ closed.status = action.closes ∧
        closed.reviewedBy = some actor ∧ closed.reviewedAt = some env.now :=
    ⟨{ report with
        status := action.closes
        reviewedBy := some actor
        reviewedAt := some env.now
        details := clip 500 (if note = "" then old.details else note) },
      by simp [closing, applyAll, DeskStmt.apply, stored], rfl, rfl, rfl⟩
  simp only [Told, found, longer, Closed, status]
  cases action <;> simp [ReportAction.closes, reviewer, time]

/-- A review writes nothing about messages. -/
theorem message_closing
    (env : Env) (id : ReportId) (actor : UserId) (action : ReportAction)
    (report : MessageReport) (note : String) (message : MessageId)
    (desk : Desk) :
    SameTale (messageRow message) desk
      (applyAll (closing env id actor action report note) desk) :=
  ⟨rfl, by simp [closing, applyAll, Desk.changes, DeskStmt.apply,
    AuditEvent.toggle]⟩

/-- A change of the visibility writes nothing about reports. -/
theorem report_toggling
    (id : MessageId) (actor : UserId) (hidden : Bool) (reason : String)
    (report : ReportId) (desk : Desk) :
    SameTale (.report report) desk
      (applyAll (toggling id actor hidden reason) desk) :=
  ⟨rfl, by simp [toggling, applyAll, Desk.closings, DeskStmt.apply,
    AuditEvent.closing]⟩

/-- The rows that stay as they were read under a lock. -/
theorem report_stays
    {ctx : Ctx Desk DeskRow DeskStmt} {id : ReportId} {seen state : Desk}
    {report : MessageReport}
    (known : ((ctx.take (.report id)).observe (moderating origin) seen).known
      state)
    (stored : seen.reports.row id = some report) :
    state.reports.row id = some report :=
  (known.2 (.report id) (.inl rfl)).1.symm.trans stored

/-- What is pending when a report is about to be closed. -/
structure Closing
    (id : ReportId) (report : MessageReport) (actor : UserId)
    (action : ReportAction) (ctx : Ctx Desk DeskRow DeskStmt) : Prop where
  stored : ∀ state, ctx.known state → state.reports.row id = some report
  own : ctx.held (.report id)
  held : ∀ row, ctx.held row →
    row = .report id ∨ row = messageRow report.message
  writes : ctx.writes = [] ∧ (action = .confirmHide →
      ∀ state, ctx.known state → ∃ message,
        state.message report.message = some message ∧
          message.isHidden = true) ∨
    ctx.held (messageRow report.message) ∧
      ctx.writes = toggling report.message actor true
        ("report:" ++ toString id) ∧
      ∀ state, ctx.known state → ∃ message,
        state.message report.message = some message ∧ message.isHidden ≠ true

theorem Closing.commitOk
    {id : ReportId} {report : MessageReport} {actor : UserId}
    {action : ReportAction} {ctx : Ctx Desk DeskRow DeskStmt}
    (closes : Closing id report actor action ctx)
    (opened : report.status = .opened) (env : Env) (note : String)
    {last : Ctx Desk DeskRow DeskStmt}
    (held : ∀ row, last.held row ↔ ctx.held row)
    (writes : last.writes =
      ctx.writes ++ closing env id actor action report note)
    (known : last.known = ctx.known) :
    last.CommitOk (moderating origin) Confirms := by
  have ends : ∀ desk : Desk, Told (messageRow report.message) desk →
      Told (.report id) desk → desk.reports.row id = some report →
      (action = .confirmHide → ∃ message,
        desk.message report.message = some message ∧
          message.isHidden = true) →
      let later := applyAll (closing env id actor action report note) desk
      (∀ row, ctx.held row → Told row later) ∧
        (action = .confirmHide → ∃ message,
          later.message report.message = some message ∧
            message.isHidden = true) := by
    intro desk message own stored hides later
    have same := message_closing env id actor action report note report.message
      desk
    refine ⟨fun row mine => ?_, fun confirms => ?_⟩
    · rcases closes.held row mine with rfl | rfl
      · exact told_closing own stored opened env actor action report note
      · exact message.congr same
    · obtain ⟨hidden, found, is⟩ := hides confirms
      exact ⟨hidden, same.1.symm.trans found, is⟩
  have tells : ∀ stmts, (∀ event, DeskStmt.log event ∈ stmts → ∀ report action
      message note, event.action ≠ .reportReviewed report action message note) →
      ∀ desk, (action = .confirmHide → ∃ message,
        (applyAll (stmts ++ closing env id actor action report note)
          desk).message report.message = some message ∧
            message.isHidden = true) →
        Confirms (stmts ++ closing env id actor action report note) desk := by
    intro stmts others desk hides user key message text member
    simp only [closing, List.mem_append, List.mem_cons, List.not_mem_nil,
      or_false, DeskStmt.log.injEq, AuditEvent.mk.injEq,
      AuditAction.reportReviewed.injEq, reduceCtorEq, false_or] at member
    rcases member with earlier | ⟨_, _, confirms, about, _⟩
    · exact absurd rfl (others _ earlier key _ message text)
    · obtain ⟨hidden, found, is⟩ := hides confirms.symm
      exact ⟨hidden, about ▸ found, is⟩
  rcases closes.writes with ⟨none, hidden⟩ | ⟨message, some, visible⟩
  · rw [none, List.nil_append] at writes
    refine commitOk_of_touched ?_ ?_ fun state now told => ?_
    · simp [writes, closing, held, DeskStmt.about, AuditAction.about,
        eq_comm, closes.own]
    · simp [writes, closing, Spares]
    · rw [known] at now
      obtain ⟨truly, hides⟩ := ends state (told _) (told _)
        (closes.stored state now) fun confirms => hidden confirms state now
      rw [writes]
      exact ⟨fun row mine => truly row ((held row).mp mine),
        tells [] (by simp) state hides⟩
  · rw [some] at writes
    refine commitOk_of_touched ?_ ?_ fun state now told => ?_
    · simp [writes, closing, toggling, held, DeskStmt.about,
        AuditAction.about, eq_comm, closes.own, message]
    · simp [writes, closing, toggling, Spares, content]
    · rw [known] at now
      obtain ⟨shown, stored, changes⟩ := visible state now
      obtain ⟨first, found⟩ := told_toggling (told _) stored changes actor
        ("report:" ++ toString id)
      have same := report_toggling report.message actor true
        ("report:" ++ toString id) id state
      obtain ⟨truly, hides⟩ := ends _ first ((told _).congr same)
        (same.1.symm.trans (closes.stored state now))
        fun _ => ⟨_, found, rfl⟩
      rw [← applyAll_append] at truly hides
      rw [writes]
      exact ⟨fun row mine => truly row ((held row).mp mine),
        tells _ (by simp [toggling]) state hides⟩

theorem review_safe
    (env : Env) (id : ReportId) (actor : UserId) (action note : String) :
    (DeskRequest.review env id actor action note).call.Safe (moderating origin)
      Confirms := by
  refine Request.wp_bind.mpr (Request.wp_load.mpr fun _ _ _ =>
    Request.wp_bind.mpr (Request.wp_orFail.mpr ⟨fun _ _ => ?_,
      fun _ => trivial⟩))
  rw [Ctx.start_observe]
  refine Request.wp_atomic.mpr ?_
  simp only [reviewReport, Prog.wp_bind, Prog.wp_orFail, Prog.wp_lockRow,
    Prog.wp_read, Prog.wp_require, Prog.wp_ite, Prog.wp_exec, implies_true,
    and_true]
  intro action _ seen _ _ report found opened
  have stored : seen.reports.row id = some report := found
  have silent : ∀ event, Store.rows Desk (DeskStmt.log event) = [] :=
    fun _ => rfl
  have locked : ∀ set, Store.rows Desk (DeskStmt.saveReport id set) =
      [.report id] := fun _ => rfl
  refine ⟨fun confirms => ?_, fun dismisses => ?_⟩
  · refine setMessageHidden_wp _ _ _ _ rfl (fun later toggled => ?_)
      fun _ _ => trivial
    have held : ∀ row, later.held row ↔
        row = messageRow report.message ∨ row = .report id := by
      simp [toggled.held]
    have closes : Closing id report actor action later :=
      { stored := fun state known =>
          report_stays (toggled.known state known) stored
        own := (held _).mpr (.inr rfl)
        held := fun row mine => ((held row).mp mine).symm
        writes := by
          rcases toggled.writes with ⟨none, hidden⟩ | ⟨some, visible⟩
          · exact .inl ⟨none, fun _ => hidden⟩
          · exact .inr ⟨(held _).mpr (.inl rfl), some, visible⟩ }
    refine closes.commitOk opened env note (fun row => ?_) ?_ rfl
    · simp only [Ctx.push_held, silent, locked, List.not_mem_nil, false_or,
        List.mem_singleton]
      exact or_iff_right_of_imp fun same => (held row).mpr (.inr same)
    · simp [closing]
  · have closes : Closing id report actor action
        ((Ctx.start.take (.report id)).observe (moderating origin) seen) :=
      { stored := fun state known => report_stays known stored
        own := .inl rfl
        held := by simp
        writes := .inl ⟨rfl, fun confirms => absurd confirms dismisses⟩ }
    refine closes.commitOk opened env note (fun row => ?_) ?_ rfl
    · simp [silent, locked]
    · simp [closing]

/-- A new report is open, and nothing has been told about it. -/
theorem told_filing
    {key : ReportId} (unused : desk.reports.row key = none)
    (told : Told (.report key) desk) (message : MessageId) (actor : UserId)
    (reason : Reason) (details : String) :
    Told (.report key) (applyAll
      [.insertReport key
        { message, reportedBy := actor, reason, details := clip 500 details },
        .log { actor, action := .messageReported message reason }] desk) := by
  simp only [Told, unused] at told
  have found : (desk.reports.insert key
      { message, reportedBy := actor, reason, details := clip 500 details }).row
        key = some
      { message, reportedBy := actor, reason, details := clip 500 details } := by
    simp [Table.row_insert, unused]
  simp only [Told, applyAll, DeskStmt.apply, deskStore_apply, List.foldl_cons,
    List.foldl_nil, found, Closed, Desk.closings, List.filterMap_append]
  exact ⟨by simpa [AuditEvent.closing, Desk.closings] using told, trivial, trivial⟩

/-- Whoever reports a message tells it. -/
theorem report_safe
    (env : Env) (id : MessageId) (actor : UserId) (reason details : String) :
    (DeskRequest.report env id actor reason details).call.Safe
      (moderating origin) Confirms := by
  refine Request.wp_bind.mpr (Request.wp_load.mpr fun _ _ _ =>
    Request.wp_bind.mpr (Request.wp_orFail.mpr ⟨fun thread _ => ?_,
      fun _ => trivial⟩))
  rw [Ctx.start_observe]
  refine Request.wp_bind.mpr (Request.wp_atomic.mpr ?_)
  simp only [reportMessage, Prog.wp_bind, Prog.wp_orFail, Prog.wp_lockRow,
    Prog.wp_read, Prog.wp_require, Prog.wp_exec, Prog.wp_pure, implies_true,
    and_true]
  intro _ _ _ _ _ _ _ known _ _ _ _ _ seen _ _ fresh
  refine ⟨?_, trivial⟩
  simp only [Ctx.take_writes, Ctx.observe_writes, Ctx.start_writes,
    applyAll_nil, Bool.or_eq_true, not_or, Bool.not_eq_true,
    Option.isSome_eq_false_iff, Option.isNone_iff_eq_none] at fresh
  have silent : ∀ event, Store.rows Desk (DeskStmt.log event) = [] :=
    fun _ => rfl
  have locked : ∀ value, Store.rows Desk (DeskStmt.insertReport env.key value) =
      [.report env.key] := fun _ => rfl
  refine commitOk_of_touched ?_ ?_ fun state now told => ⟨?_, ?_⟩
  · simp [DeskStmt.about, AuditAction.about]
  · simp [Spares]
  · have unused : state.reports.row env.key = none :=
      (now.2 (.report env.key) (.inl rfl)).1.symm.trans fresh.2
    have filed := told_filing unused (told (.report env.key)) id actor known
      details
    intro row held
    simp only [Ctx.push_held, Ctx.observe_held, Ctx.take_held, Ctx.start_held,
      silent, locked, List.not_mem_nil, List.mem_singleton, false_or, or_false]
      at held
    rcases held with rfl | rfl | rfl
    · exact filed
    · exact filed
    · trivial
  · simp [Confirms]

/-- Toggles of selected messages, one transaction each. -/
theorem toggle_safe (ids : List MessageId) (actor : UserId) (hidden : Bool) :
    (DeskRequest.toggle ids actor hidden).call.Safe (moderating origin)
      Confirms := by
  refine Request.wp_bind.mpr (Request.wp_load.mpr fun _ _ _ => ?_)
  rw [Ctx.start_observe]
  refine Request.wp_mono (Request.wp_forEach fun id _ =>
    Request.wp_atomic.mpr ?_) fun _ _ _ => trivial
  exact setMessageHidden_wp id actor hidden "admin-action" rfl
    (fun later toggled => ⟨toggled.commitOk, rfl⟩) fun _ _ => rfl

/-- The view of a thread is told; nothing changes. -/
theorem inspect_safe (id : ThreadId) (admin : Actor) :
    (DeskRequest.inspect id admin).call.Safe (moderating origin)
      Confirms := by
  have plain : (DeskRequest.inspect id admin).call.Emits
      (fun effect => effect = .write (.log
        { actor := admin.id, action := .threadViewed id })) fun _ => True := by
    simp [DeskRequest.call, adminViewThread]
    exact fun state thread found _ _ _ => (Messaging.load_thread found).1
  have about : ∀ stmts : List DeskStmt, (∀ stmt ∈ stmts, Effect.write stmt =
      .write (.log { actor := admin.id, action := .threadViewed id })) →
      ∀ stmt ∈ stmts, stmt =
        .log { actor := admin.id, action := .threadViewed id } :=
    fun stmts all stmt member => by simpa using all stmt member
  have frame : ∀ stmts state row, (∀ stmt ∈ stmts, stmt =
      .log { actor := admin.id, action := .threadViewed id }) →
      SameTale row state (applyAll stmts state) := by
    intro stmts state row all
    refine applyAll_keeps (SameTale row state) (fun stmt member next same => ?_)
      (sameTale_refl row state)
    obtain rfl := all stmt member
    exact sameTale_trans row _ _ _ same
      (sameTale_apply (by simp [DeskStmt.rows])
        (by simp [DeskStmt.about, AuditAction.about]) next)
  refine plain.safe (fun stmts state all truthful _ => ?_)
    fun stmts state row all _ _ _ => frame stmts state row (about stmts all)
  refine ⟨⟨fun row => (truthful.told row).congr
    (frame stmts state row (about stmts all)), ?_⟩, ?_⟩
  · refine applyAll_keeps (Unedited origin) (fun stmt member _ kept => ?_)
      truthful.unedited
    obtain rfl := about stmts all stmt member
    exact kept.apply trivial
  · intro actor key message note member
    simpa using about stmts all _ member

/-- The marketplace hides nothing. -/
theorem party_safe (party : Party) :
    (DeskRequest.party party).call.Safe (moderating origin) Confirms := by
  refine ((party_tame party).inside market).safe ?_ ?_
  · intro stmts state all truthful _
    refine ⟨⟨fun row => ?_, ?_⟩, ?_⟩
    · refine applyAll_keeps (Told row) (fun stmt member _ told => ?_)
        (truthful.told row)
      obtain ⟨own, rfl, tamed⟩ := all stmt member
      exact told.market tamed
    · refine applyAll_keeps (Unedited origin) (fun stmt member _ kept => ?_)
        truthful.unedited
      obtain ⟨own, rfl, tamed⟩ := all stmt member
      refine kept.apply ?_
      cases own with
      | converse own =>
          cases own with
          | saveMessage => exact tamed.elim
          | _ => trivial
      | _ => trivial
    · intro actor id message note member
      obtain ⟨own, same, _⟩ := all _ member
      simp [market] at same
  · intro stmts state row all _ _ free
    refine (moderating origin).same_applyAll (fun stmt member state unlocked =>
      sameTale_apply unlocked ?_ state) free state
    obtain ⟨own, rfl, _⟩ := all stmt member
    simp [market, DeskStmt.about]

theorem DeskRequest.safe (request : DeskRequest) :
    request.call.Safe (moderating origin) Confirms := by
  cases request with
  | report env id actor reason details =>
      exact report_safe env id actor reason details
  | review env id actor action note => exact review_safe env id actor action note
  | toggle ids actor hidden => exact toggle_safe ids actor hidden
  | inspect id admin => exact inspect_safe id admin
  | party work => exact party_safe work

/-- Requests at a desk. -/
abbrev Moderating := System Desk DeskRow DeskStmt (Except Error Unit)

/--
In every run of moderation and of everything else the audit trail tells the
truth: replayed, it gives the visibility of every message, and each report is
closed by exactly one review or is still open; messages stay as they were sent.
A message is hidden as soon as a report about it is confirmed.
-/
theorem trail_truthful
    (start : Desk) (told : ∀ row, Told row start)
    (requests : Nat → DeskRequest) (system : Moderating)
    (reach : System.Reach (fun _ _ => True)
      (System.init start fun client => (requests client).call) system) :
    (∀ row, Told row system.committed) ∧ Unedited start system.committed ∧
      ∀ client stmts, system.committing (.run client) = some stmts →
        Confirms stmts system.committed := by
  have unedited : Unedited start start := fun _ old stored => ⟨old, stored, rfl⟩
  have sound : (System.init start fun client => (requests client).call).Sound
      (moderating start) fun _ => Confirms :=
    System.sound_init ⟨told, unedited⟩ fun client => (requests client).safe
  have reached := System.Reach.sound reach sound
  refine ⟨reached.inv.told, reached.inv.unedited, fun client stmts commits => ?_⟩
  exact reached.guaranteed (fun _ _ => trivial) commits

/-- Before anything is told, everything is in sight and every report is open. -/
theorem told_of_silent
    (silent : desk.trail = [])
    (visible : ∀ id message, desk.message id = some message →
      message.isHidden = false)
    (opened : ∀ id report, desk.reports.row id = some report →
      report.status = .opened ∧ report.reviewedBy = none ∧
        report.reviewedAt = none) (row : DeskRow) : Told row desk := by
  cases row with
  | openReport => trivial
  | report id =>
      cases stored : desk.reports.row id with
      | none => simp [Told, stored, Desk.closings, silent]
      | some report =>
          simp [Told, stored, Desk.closings, silent, Closed,
            opened id report stored]
  | market row =>
      cases row with
      | conversation row =>
          cases row with
          | message id =>
              cases stored : desk.message id with
              | none => simp [Told, stored, Desk.changes, silent]
              | some message =>
                  simp [Told, stored, Desk.changes, silent, replay,
                    visible id message stored]
          | _ => trivial
      | _ => trivial

/-- The expert has reported a message of the student 1. -/
def oneReport : Desk :=
  { db :=
      { Messaging.talkedOver with
        conversations :=
          { threads := .insert .empty 50 Messaging.chat
            messages := .insert .empty 70
              { thread := 50, sender := 1, body := "Pay me directly."
                createdAt := 2 } } }
    reports := .insert .empty 5
      { message := 70, reportedBy := 2, reason := .offPlatform } }

/-- Two of the staff review the report; later one of them shows the message. -/
def twoReviewers : Nat → DeskRequest
  | 0 => .review { now := 8 } 5 100 "confirm_hide" ""
  | 1 => .review { now := 9 } 5 101 "dismiss" "Looks fine."
  | _ => .toggle [70] 101 false

/-- One review closes the report; what happened is told. -/
theorem trail_truthful_twoReviewers :
    let started : Moderating := System.init oneReport fun client =>
      (twoReviewers client).call
    let reached := started.runAll
      (List.replicate 5 (.run 0) ++ List.replicate 5 (.run 1) ++
        List.replicate 20 (.run 0) ++ List.replicate 20 (.run 1) ++
        List.replicate 20 (.run 2))
    (∀ row, Told row reached.committed) ∧
      reached.committed.trail.map AuditEvent.action =
        [.messageHidden 70 true "report:5",
          .reportReviewed 5 .confirmHide 70 "",
          .messageHidden 70 false "admin-action"] ∧
      (reached.committed.message 70).map Message.isHidden = some false ∧
      (reached.committed.reports.row 5).map MessageReport.reviewedBy =
        some (some 100) := by
  intro started reached
  have told : ∀ row, Told row oneReport := by
    have unsent : (Table.empty : Table MessageId Message).All
        (·.isHidden = false) := by simp [Table.All]
    have unfiled : (Table.empty : Table ReportId MessageReport).All
        fun report => report.status = .opened ∧ report.reviewedBy = none ∧
          report.reviewedAt = none := by simp [Table.All]
    exact told_of_silent rfl (unsent.insert 70 rfl)
      (unfiled.insert 5 ⟨rfl, rfl, rfl⟩)
  have truthful := trail_truthful oneReport told twoReviewers reached
    (System.reach_runAll _ _)
  exact ⟨truthful.1, by decide +kernel, by decide +kernel, by decide +kernel⟩

end Moderation

end KnowledgeMarketplace
