import KnowledgeMarketplace.Files.Storage

/-!
# Retention

The cleanup purges the bytes of briefs whose request is dead and of the files
of orders that ended long ago.  It selects a file by any one of the requests,
orders and deliveries that it hangs on, whatever the others are.
-/

namespace KnowledgeMarketplace

open Transaction

namespace Files

open Messaging (AttachmentPurpose)

/-- How many files of each kind a pass has purged. -/
structure Purged where
  briefs : Nat := 0
  orderFiles : Nat := 0
  deriving DecidableEq

/-- The tables, the relations to files, the files and the audit entries. -/
structure Archive where
  db : Db
  links : FileLinks
  attachments : Table AttachmentId Attachment
  audit : List Purged := []

/-! ## The selection -/

/-- The request was cancelled or has expired 30 days ago. -/
def isDead (now : Time) (request : ServiceRequest) : Bool :=
  request.status ∈ [.cancelled, .expired] &&
    request.closedAt.any (· + days 30 ≤ now)

/-- The order was stamped as completed or cancelled 365 days ago. -/
def isStamped (now : Time) (order : Order) : Bool :=
  order.completedAt.any (· + days 365 ≤ now) ||
    order.cancelledAt.any (· + days 365 ≤ now)

namespace Archive

variable (archive : Archive)

/-- The file hangs on a request with a property. -/
def onRequest (holds : RequestId → ServiceRequest → Bool)
    (id : AttachmentId) : Bool :=
  archive.links.briefs.any fun link =>
    link.2 = id && (archive.db.requests.row link.1).any (holds link.1)

/-- The file is in the scope of an order with a property. -/
def inScope (holds : OrderId → Order → Bool) (id : AttachmentId) : Bool :=
  archive.links.scopes.any fun link =>
    link.2 = id && (archive.db.orders.row link.1).any (holds link.1)

/-- The file was delivered for an order with a property. -/
def inDelivery (holds : OrderId → Order → Bool) (id : AttachmentId) : Bool :=
  archive.links.deliveries.any fun link =>
    link.2 = id && (archive.db.deliveries.row link.1).any fun delivery =>
      (archive.db.orders.row delivery.order).any (holds delivery.order)

/-- The file is evidence in the dispute of an order with a property. -/
def inEvidence (holds : OrderId → Order → Bool) (id : AttachmentId) : Bool :=
  archive.links.evidence.any fun link =>
    link.2 = id && (archive.db.orders.row link.1).any (holds link.1)

/-- The file hangs on an order with a property, by any of the relations. -/
def onOrder (holds : OrderId → Order → Bool) (id : AttachmentId) : Bool :=
  archive.inScope holds id || archive.inDelivery holds id ||
    archive.inEvidence holds id

/-- The briefs that a pass selects. -/
def briefIds (now : Time) : List AttachmentId :=
  archive.attachments.select fun id row =>
    row.purpose = .requestBrief && archive.onRequest (fun _ => isDead now) id

/-- The purposes of the files of orders. -/
def orderPurposes : List AttachmentPurpose :=
  [.delivery, .orderAttachment, .disputeEvidence]

/-- The files of orders that a pass selects. -/
def orderFileIds (now : Time) : List AttachmentId :=
  archive.attachments.select fun id row =>
    row.purpose ∈ orderPurposes && !row.legalHold &&
      (archive.inScope (fun _ => isStamped now) id ||
        archive.inDelivery (fun _ => isStamped now) id)

end Archive

/-! ## The purge -/

/-- A row without its file, saved at some time. -/
def Attachment.purged (savedAt : Time) (row : Attachment) : Attachment :=
  { row with file := none, updatedAt := savedAt }

/-- Purge the files of one bucket, and count them. -/
def purgeBucket (clock : AttachmentId → Time) (ids : List AttachmentId)
    (attachments : Table AttachmentId Attachment) :
    Table AttachmentId Attachment × Nat :=
  ids.foldl
    (fun state id =>
      (state.1.modify id (Attachment.purged (clock id)), state.2 + 1))
    (attachments, 0)

/-- `retention_cleanup`; `clock` is when each row is saved. -/
def retentionCleanup
    (now : Time) (clock : AttachmentId → Time) (archive : Archive) :
    Archive × Purged :=
  let briefs := archive.briefIds now
  let orderFiles := archive.orderFileIds now
  let (afterBriefs, briefCount) := purgeBucket clock briefs archive.attachments
  let (attachments, orderFileCount) := purgeBucket clock orderFiles afterBriefs
  let purged : Purged := { briefs := briefCount, orderFiles := orderFileCount }
  ({ archive with
      attachments
      audit :=
        if purged.briefs ≠ 0 ∨ purged.orderFiles ≠ 0 then
          archive.audit ++ [purged]
        else archive.audit },
    purged)

/-! ## What a pass does -/

private theorem purgeBucket_from
    (clock : AttachmentId → Time) (ids : List AttachmentId)
    (attachments : Table AttachmentId Attachment) (count : Nat) :
    let after := ids.foldl
      (fun state id =>
        (state.1.modify id (Attachment.purged (clock id)), state.2 + 1))
      (attachments, count)
    after.2 = count + ids.length ∧
      ∀ id, after.1.row id =
        if id ∈ ids then
          (attachments.row id).map (Attachment.purged (clock id))
        else attachments.row id := by
  induction ids generalizing attachments count with
  | nil => simp
  | cons first rest inductionHypothesis =>
      obtain ⟨counted, rows⟩ := inductionHypothesis
        (attachments.modify first (Attachment.purged (clock first)))
        (count + 1)
      refine ⟨?_, ?_⟩
      · rw [List.foldl_cons, counted, List.length_cons]
        omega
      · intro id
        rw [List.foldl_cons, rows id, Table.row_modify]
        by_cases here : id = first
        · subst here
          cases attachments.row id <;>
            simp [Attachment.purged]
        · simp [here]

/-- A bucket counts its files. -/
theorem count_purgeBucket
    (clock : AttachmentId → Time) (ids : List AttachmentId)
    (attachments : Table AttachmentId Attachment) :
    (purgeBucket clock ids attachments).2 = ids.length := by
  have counted := (purgeBucket_from clock ids attachments 0).1
  simpa [purgeBucket] using counted

/-- A bucket purges its files and no others. -/
theorem row_purgeBucket
    (clock : AttachmentId → Time) (ids : List AttachmentId)
    (attachments : Table AttachmentId Attachment) (id : AttachmentId) :
    (purgeBucket clock ids attachments).1.row id =
      if id ∈ ids then (attachments.row id).map (Attachment.purged (clock id))
      else attachments.row id :=
  (purgeBucket_from clock ids attachments 0).2 id

section Pass

variable (now : Time) (clock : AttachmentId → Time) (archive : Archive)

/-- The pass selects the file. -/
def Selected (id : AttachmentId) : Prop :=
  id ∈ archive.briefIds now ∨ id ∈ archive.orderFileIds now

instance (id : AttachmentId) : Decidable (Selected now archive id) :=
  inferInstanceAs (Decidable (_ ∨ _))

/-- A pass purges the files that it selects and no others. -/
theorem row_retentionCleanup (id : AttachmentId) :
    (retentionCleanup now clock archive).1.attachments.row id =
      if Selected now archive id then
        (archive.attachments.row id).map (Attachment.purged (clock id))
      else archive.attachments.row id := by
  simp only [retentionCleanup, row_purgeBucket, Selected]
  by_cases brief : id ∈ archive.briefIds now <;>
    by_cases orderFile : id ∈ archive.orderFileIds now <;>
    cases archive.attachments.row id <;>
    simp [brief, orderFile, Attachment.purged]

/-- The counts of a pass are those of its two selections. -/
theorem counts_retentionCleanup :
    (retentionCleanup now clock archive).2 =
      { briefs := (archive.briefIds now).length
        orderFiles := (archive.orderFileIds now).length } := by
  simp only [retentionCleanup, count_purgeBucket]

/-- Only a pass that purges something is recorded. -/
theorem audit_retentionCleanup :
    (retentionCleanup now clock archive).1.audit =
      if (retentionCleanup now clock archive).2 = {} then archive.audit
      else archive.audit ++ [(retentionCleanup now clock archive).2] := by
  simp only [retentionCleanup, Purged.mk.injEq, ← not_and_or, ne_eq,
    ite_not]

/-- After a pass a file has its bytes if it had them and was not selected. -/
theorem file_retentionCleanup {id : AttachmentId} {bytes : Bytes} :
    (∃ row, (retentionCleanup now clock archive).1.attachments.row id =
        some row ∧ row.file = some bytes) ↔
      (∃ row, archive.attachments.row id = some row ∧
        row.file = some bytes) ∧ ¬Selected now archive id := by
  rw [row_retentionCleanup]
  by_cases selected : Selected now archive id
  · simp [selected, Attachment.purged]
  · simp [selected]

end Pass

/-! ## What is to be kept and what is to go -/

/-- Some order on the request has been paid. -/
def hasPaidOrder (request : RequestId) (db : Db) : Bool :=
  db.orders.any fun _ order =>
    order.request = request && order.paidAt.isSome

/-- When the order was completed or cancelled and its dispute resolved. -/
def endStamps (db : Db) (id : OrderId) (order : Order) : List Time :=
  [order.completedAt, order.cancelledAt,
    (db.disputes.row id).bind (·.resolvedAt)].reduceOption

/-- The order has ended, by whatever path, and did so 365 days ago. -/
def isEnded (now : Time) (db : Db) (id : OrderId) (order : Order) : Bool :=
  order.status ∈ [.completed, .cancelled] && endStamps db id order ≠ [] &&
    (endStamps db id order).all (· + days 365 ≤ now)

section Pass

variable (now : Time) (clock : AttachmentId → Time) (archive : Archive)

/-- The brief hangs on a request that is not dead or has a paid order. -/
def onLiveRequest (id : AttachmentId) : Bool :=
  archive.onRequest
    (fun request row => !isDead now row || hasPaidOrder request archive.db) id

/-- The file hangs on an order that has not ended 365 days ago. -/
def onLiveOrder (id : AttachmentId) : Bool :=
  archive.onOrder (fun order row => !isEnded now archive.db order row) id

/-- The file hangs on an order that ended 365 days ago. -/
def onEndedOrder (id : AttachmentId) : Bool :=
  archive.onOrder (isEnded now archive.db) id

/-- The file is the scope or a delivery of an order that is stamped as over. -/
def onStampedOrder (id : AttachmentId) : Bool :=
  archive.inScope (fun _ => isStamped now) id ||
    archive.inDelivery (fun _ => isStamped now) id

/-- The file is still needed. -/
def IsNeeded (id : AttachmentId) (row : Attachment) : Prop :=
  (row.purpose = .requestBrief ∧ onLiveRequest now archive id = true) ∨
    (row.purpose ∈ Archive.orderPurposes ∧ onLiveOrder now archive id = true)

/-- A pass removes no bytes that are still needed. -/
def RetentionSafe : Prop :=
  ∀ id row bytes, archive.attachments.row id = some row →
    row.file = some bytes → IsNeeded now archive id row →
      ∃ kept, (retentionCleanup now clock archive).1.attachments.row id =
        some kept ∧ kept.file = some bytes

/-- A pass leaves no bytes of an order that ended long ago. -/
def RetentionComplete : Prop :=
  ∀ id row, (retentionCleanup now clock archive).1.attachments.row id =
      some row →
    row.purpose ∈ Archive.orderPurposes → row.legalHold = false →
    onEndedOrder now archive id = true → row.file = none

/-- A file is selected by its purpose and one of the rows it hangs on. -/
theorem selected_iff {id : AttachmentId} :
    Selected now archive id ↔
      ∃ row, archive.attachments.row id = some row ∧
        ((row.purpose = .requestBrief ∧
            archive.onRequest (fun _ => isDead now) id = true) ∨
          (row.purpose ∈ Archive.orderPurposes ∧ row.legalHold = false ∧
            onStampedOrder now archive id = true)) := by
  simp only [Selected, Archive.briefIds, Archive.orderFileIds, Table.mem_select,
    Bool.and_eq_true, decide_eq_true_eq, Bool.not_eq_true', and_assoc,
    onStampedOrder]
  constructor
  · intro selected
    rcases selected with ⟨row, stored, brief⟩ | ⟨row, stored, orderFile⟩
    · exact ⟨row, stored, .inl brief⟩
    · exact ⟨row, stored, .inr orderFile⟩
  · intro ⟨row, stored, either⟩
    rcases either with brief | orderFile
    · exact .inl ⟨row, stored, brief⟩
    · exact .inr ⟨row, stored, orderFile⟩

/--
A pass is safe exactly when no brief with bytes hangs both on a dead request
and on a live or paid one, and no file of an order, that is not held, both on
an order stamped as over and on one that has not ended.
-/
theorem retentionSafe_iff :
    RetentionSafe now clock archive ↔
      ∀ id row, archive.attachments.row id = some row → row.file ≠ none →
        (row.purpose = .requestBrief →
          archive.onRequest (fun _ => isDead now) id = true →
            onLiveRequest now archive id = false) ∧
        (row.purpose ∈ Archive.orderPurposes → row.legalHold = false →
          onStampedOrder now archive id = true →
            onLiveOrder now archive id = false) := by
  constructor
  · intro safe id row stored filled
    obtain ⟨bytes, held⟩ := Option.ne_none_iff_exists'.mp filled
    have unselected : IsNeeded now archive id row →
        ¬Selected now archive id := fun needed =>
      ((file_retentionCleanup now clock archive).mp
        (safe id row bytes stored held needed)).2
    constructor
    · intro brief dead
      by_contra live
      exact unselected (.inl ⟨brief, Bool.of_not_eq_false live⟩)
        ((selected_iff now archive).mpr ⟨row, stored, .inl ⟨brief, dead⟩⟩)
    · intro purpose unheld ended
      by_contra live
      exact unselected (.inr ⟨purpose, Bool.of_not_eq_false live⟩)
        ((selected_iff now archive).mpr
          ⟨row, stored, .inr ⟨purpose, unheld, ended⟩⟩)
  · intro undivided id row bytes stored held needed
    obtain ⟨briefs, orderFiles⟩ := undivided id row stored (by simp [held])
    apply (file_retentionCleanup now clock archive).mpr
    refine ⟨⟨row, stored, held⟩, ?_⟩
    intro selected
    obtain ⟨again, same, either⟩ := (selected_iff now archive).mp selected
    obtain rfl := Option.some.inj (stored.symm.trans same)
    rcases either with ⟨brief, dead⟩ | ⟨purpose, unheld, ended⟩
    · rcases needed with ⟨_, live⟩ | ⟨other, _⟩
      · simp [briefs brief dead] at live
      · simp [brief, Archive.orderPurposes] at other
    · rcases needed with ⟨brief, _⟩ | ⟨_, live⟩
      · simp [brief, Archive.orderPurposes] at purpose
      · simp [orderFiles purpose unheld ended] at live

/--
A pass is complete exactly when every file with bytes that is not held and
hangs on an order that ended long ago is also in the scope or a delivery of an
order that itself is stamped as completed or cancelled that long ago.
-/
theorem retentionComplete_iff :
    RetentionComplete now clock archive ↔
      ∀ id row, archive.attachments.row id = some row → row.file ≠ none →
        row.purpose ∈ Archive.orderPurposes → row.legalHold = false →
        onEndedOrder now archive id = true →
          onStampedOrder now archive id = true := by
  have after := row_retentionCleanup now clock archive
  constructor
  · intro complete id row stored filled purpose unheld ended
    by_contra unstamped
    have unselected : ¬Selected now archive id := by
      intro selected
      obtain ⟨again, same, either⟩ := (selected_iff now archive).mp selected
      obtain rfl := Option.some.inj (stored.symm.trans same)
      rcases either with ⟨brief, _⟩ | ⟨_, _, ended⟩
      · simp [brief, Archive.orderPurposes] at purpose
      · exact unstamped ended
    have kept := after id
    rw [if_neg unselected, stored] at kept
    exact filled (complete id row kept purpose unheld ended)
  · intro reached id row left purpose unheld ended
    rw [after id] at left
    by_cases selected : Selected now archive id
    · rw [if_pos selected] at left
      obtain ⟨before, _, purged⟩ := Option.map_eq_some_iff.mp left
      rw [← purged]
      rfl
    · rw [if_neg selected] at left
      by_contra filled
      exact selected ((selected_iff now archive).mpr ⟨row, left, .inr
        ⟨purpose, unheld, reached id row left filled purpose unheld ended⟩⟩)

/-! ## Examples of both -/

section Examples

/-- A request of a student that was cancelled at the beginning of time. -/
def longCancelled : ServiceRequest where
  student := 1
  status := .cancelled
  closedAt := some 0

/-- A student posts one brief on a cancelled request and on an open one. -/
def sharedBrief : Archive where
  db :=
    { requests :=
        (Table.empty.insert 1 longCancelled).insert 2
          { student := 1, status := .opened } }
  links := { briefs := [(1, 5), (2, 5)] }
  attachments := Table.empty.insert 5
    { uploader := 1
      purpose := .requestBrief
      originalName := "brief.pdf"
      contentType := "application/pdf"
      size := 4
      sha256 := ""
      file := some [0x25, 0x50, 0x44, 0x46]
      createdAt := 0
      updatedAt := 0 }

/-- The pass removes a brief that the open request still needs. -/
theorem sharedBrief_removed :
    ¬RetentionSafe (days 31) (fun _ => days 31) sharedBrief := by
  intro safe
  obtain ⟨kept, stored, filled⟩ := safe 5 _ _ rfl rfl
    (.inl ⟨rfl, by decide⟩)
  obtain rfl := Option.some.inj stored
  simp [Attachment.purged] at filled

/-- The evidence on an order that a dispute ended with a full refund. -/
def refundedEvidence : Archive where
  db :=
    { orders := Table.empty.insert 1
        { request := 1
          student := 1
          expert := 2
          source := .openBid
          amount := 5000
          status := .cancelled
          createdAt := 0
          paidAt := some 0 }
      disputes := Table.empty.insert 1
        { openedBy := 1
          reason := .qualityBelowExpectations
          description := "Not what we agreed on."
          priorOrderStatus := .delivered
          status := .resolved
          outcome := some .refundStudentFull
          resolvedAt := some 0 } }
  links := { evidence := [(1, 5)] }
  attachments := Table.empty.insert 5
    { uploader := 1
      purpose := .disputeEvidence
      originalName := "chat.png"
      contentType := "image/png"
      size := 8
      sha256 := ""
      file := some [0x89, 0x50, 0x4e, 0x47, 0x0d, 0x0a, 0x1a, 0x0a]
      createdAt := 0
      updatedAt := 0 }

/-- The pass leaves the evidence, 400 days after the order ended. -/
theorem refundedEvidence_left :
    ¬RetentionComplete (days 400) (fun _ => days 400) refundedEvidence := by
  intro complete
  have purged := complete 5 _ rfl (by decide) rfl (by decide)
  simp at purged

end Examples

/-! ## A second pass -/

/-- Purging keeps what the selection reads. -/
theorem selected_retentionCleanup {id : AttachmentId} :
    Selected now (retentionCleanup now clock archive).1 id ↔
      Selected now archive id := by
  rw [selected_iff, selected_iff, row_retentionCleanup]
  by_cases selected : Selected now archive id
  · rw [if_pos selected]
    constructor
    · intro ⟨row, stored, fits⟩
      obtain ⟨before, held, purged⟩ := Option.map_eq_some_iff.mp stored
      rw [← purged] at fits
      exact ⟨before, held, fits⟩
    · intro ⟨row, stored, fits⟩
      exact ⟨_, Option.map_eq_some_iff.mpr ⟨row, stored, rfl⟩, fits⟩
  · rw [if_neg selected]
    exact Iff.rfl

/-- A pass reports nothing exactly when it selects nothing. -/
theorem reports_nothing_iff :
    (retentionCleanup now clock archive).2 = {} ↔
      ∀ id, ¬Selected now archive id := by
  rw [counts_retentionCleanup]
  simp only [Purged.mk.injEq, List.length_eq_zero_iff,
    List.eq_nil_iff_forall_not_mem, Selected, not_or, forall_and]

/-- A second pass at the same time changes, reports and records nothing. -/
def SecondPassIdle (again : AttachmentId → Time) : Prop :=
  let first := (retentionCleanup now clock archive).1
  let second := retentionCleanup now again first
  (∀ id, second.1.attachments.row id = first.attachments.row id) ∧
    second.2 = {} ∧ second.1.audit = first.audit

/-- A second pass is idle exactly when the first selects nothing. -/
theorem secondPassIdle_iff (again : AttachmentId → Time) :
    SecondPassIdle now clock archive again ↔
      ∀ id, ¬Selected now archive id := by
  have reports := reports_nothing_iff now again
    (retentionCleanup now clock archive).1
  simp only [selected_retentionCleanup] at reports
  constructor
  · intro ⟨_, reported, _⟩
    exact reports.mp reported
  · intro unselected
    have reported := reports.mpr unselected
    refine ⟨?_, reported, ?_⟩
    · intro id
      rw [row_retentionCleanup now again, if_neg]
      intro selected
      exact unselected id
        ((selected_retentionCleanup now clock archive).mp selected)
    · rw [audit_retentionCleanup now again, if_pos reported]

end Pass

/-- The brief of a request that is dead, alone. -/
def deadBrief : Archive :=
  { sharedBrief with links := { briefs := [(1, 5)] } }

/-- The second pass reports the brief that the first has purged. -/
theorem deadBrief_again :
    ¬SecondPassIdle (days 31) (fun _ => days 31) deadBrief
      (fun _ => days 31) := by
  intro idle
  have reported := idle.2.1
  revert reported
  decide

end Files

end KnowledgeMarketplace
