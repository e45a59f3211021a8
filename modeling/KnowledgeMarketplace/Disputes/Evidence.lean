import KnowledgeMarketplace.Disputes.Rules
import KnowledgeMarketplace.Files.Access
import KnowledgeMarketplace.Transaction.Alone
import KnowledgeMarketplace.Transaction.Journal
import KnowledgeMarketplace.Transaction.Parts
import KnowledgeMarketplace.Transaction.Sequence

/-!
# Evidence

Files come with a new dispute, in its transaction, or are handed in later, each
in a transaction of its own.  Uploads keep their owner and their purpose, so the
table of files is a parameter.
-/

namespace KnowledgeMarketplace

open Transaction

namespace Disputes

open Files (StoredFile)

/-- The marketplace, and the files that are attached to disputes. -/
structure Casebook where
  db : Db
  evidence : List (OrderId × AttachmentId) := []

/-- Statements on the marketplace and on the evidence. -/
inductive CaseStmt where
  | market (stmt : Stmt)
  /-- `dispute.evidence.add(attachment)`. -/
  | addEvidence (id : OrderId) (file : AttachmentId)
  /-- `dispute.evidence.set(attachments)`. -/
  | setEvidence (id : OrderId) (files : List AttachmentId)

namespace CaseStmt

/-- A file is attached to a dispute once. -/
def apply (book : Casebook) : CaseStmt → Casebook
  | .market stmt => { book with db := stmt.apply book.db }
  | .addEvidence id file =>
      { book with evidence := book.evidence.insert (id, file) }
  | .setEvidence id files =>
      { book with
        evidence := files.map (id, ·) ∪
          book.evidence.filter fun link => link.1 ≠ id || link.2 ∈ files }

/-- What a statement attaches. -/
def links : CaseStmt → List (OrderId × AttachmentId)
  | .market _ => []
  | .addEvidence id file => [(id, file)]
  | .setEvidence id files => files.map (id, ·)

end CaseStmt

instance : Store Casebook Row CaseStmt where
  apply stmt book := stmt.apply book
  rows
    | .market stmt => Store.rows Db stmt
    | _ => []

@[simp] theorem caseStore_apply (stmt : CaseStmt) (book : Casebook) :
    Store.apply stmt book = stmt.apply book :=
  rfl

/-- The marketplace is a part of the case book. -/
def market : Part Db Casebook where
  get := Casebook.db
  stmt := .market
  get_apply _ _ := rfl
  rows_stmt _ := rfl

/-- A block on the case book. -/
abbrev CaseTx (α : Type) := Prog Casebook Row CaseStmt Error α

/-- A request on the case book. -/
abbrev CaseCall (α : Type) := Request Casebook Row CaseStmt Error α

/-! ## The checks of the files -/

section Files

variable (uuid : String → Except Error AttachmentId)
  (files : Table AttachmentId StoredFile)

/--
The file of an id, if the user may attach it.  `uuid` reads an id as the field
does, which may raise.
-/
def evidenceFile (wrongPurpose foreign : Error) (user : UserId)
    (attachmentId : String) : Except Error AttachmentId := do
  let id ← uuid attachmentId
  match (files.row id).filter (·.purpose = .disputeEvidence) with
  | none => .error wrongPurpose
  | some file => if file.uploader = user then .ok id else .error foreign

/-- The check of a file that is handed in later. -/
def lateEvidence (user : UserId) (attachmentId : String) :
    Except Error AttachmentId :=
  evidenceFile uuid files
    (.notFound "Evidence files must use the dispute_evidence purpose.")
    (.notFound "Only your own uploads can be attached.") user attachmentId

/-- The files of a new dispute, all of them. -/
def collectEvidence (user : UserId) (evidenceIds : List String) :
    Except Error (List AttachmentId) :=
  evidenceIds.mapM <| evidenceFile uuid files
    (.domainError "Evidence files must use the dispute_evidence purpose."
      "validation_error")
    (.permissionDenied "Only your own uploads can be attached as evidence.")
    user

/-! ## The two ways to hand in files -/

/-- `get_for_user`: a dispute, for its participants and staff. -/
def getForUser (id : OrderId) (user : Actor) : CaseCall Dispute := do
  let found ← Request.load fun book =>
    (book.db.disputes.row id).bind fun dispute =>
      (book.db.orders.row id).map (dispute, ·)
  let (dispute, order) ← Request.orFail found (.notFound "Dispute not found.")
  Request.require
    (user.id = order.student ∨ user.id = order.expert ∨ user.isStaff)
    (.permissionDenied "You are not a participant of this dispute.")
  return dispute

/-- `DisputeEvidenceView.post`: one file after the other. -/
def submitEvidence (user : Actor) (id : OrderId) (evidenceIds : List String) :
    CaseCall Unit := do
  let dispute ← getForUser id user
  Request.require (dispute.status ∈ openStatuses)
    (.domainError "This dispute is closed to new evidence."
      "invalid_transition")
  Request.forEach evidenceIds fun attachmentId => do
    let file ← Request.ofExcept (lateEvidence uuid files user.id attachmentId)
    Request.atomic (Prog.exec (.addEvidence id file))

/--
`open_dispute` with its files, which are attached in the transaction of the
dispute; nobody else sees in which order it writes.
-/
def openWithEvidence (env : Env) (id : OrderId) (actor : Actor)
    (reason : DisputeReason) (description : String)
    (evidenceIds : List String) : CaseTx Unit := do
  let evidence := collectEvidence uuid files actor.id evidenceIds
  (openDispute env id actor reason description
    (evidence.map fun _ => ())).within market
  let found ← Prog.ofExcept evidence
  if evidenceIds ≠ [] then
    Prog.exec (.setEvidence id found)

/-- `OrderDisputeView.post`. -/
def postDispute (env : Env) (id : OrderId) (actor : Actor)
    (reason : DisputeReason) (description : String)
    (evidenceIds : List String) : CaseCall Unit := do
  let _ ← Request.orFail
    (← Request.load fun book => book.db.orders.row id)
    (.notFound "Order not found.")
  Request.atomic
    (openWithEvidence uuid files env id actor reason description evidenceIds)

end Files

/-! ## How far a list is good -/

variable {uuid : String → Except Error AttachmentId}
  {files : Table AttachmentId StoredFile}

/-- The files that come before the first id that a check refuses. -/
def accepted (check : String → Except Error AttachmentId) :
    List String → List AttachmentId
  | [] => []
  | attachmentId :: rest =>
      match check attachmentId with
      | .ok file => file :: accepted check rest
      | .error _ => []

/-- The error of the first id that a check refuses. -/
def refusal (check : String → Except Error AttachmentId) :
    List String → Option Error
  | [] => none
  | attachmentId :: rest =>
      match check attachmentId with
      | .ok _ => refusal check rest
      | .error error => some error

/-- Checking all ids first gives all the files, or the first error. -/
theorem mapM_check
    (check : String → Except Error AttachmentId) (evidenceIds : List String) :
    evidenceIds.mapM check =
      match refusal check evidenceIds with
      | none => .ok (accepted check evidenceIds)
      | some error => .error error := by
  induction evidenceIds with
  | nil => rfl
  | cons attachmentId rest inductionHypothesis =>
      rw [List.mapM_cons, inductionHypothesis]
      cases found : check attachmentId with
      | error error => simp [refusal, found, bind, Except.bind]
      | ok file =>
          cases refused : refusal check rest <;>
            simp [refusal, accepted, found, refused, bind, Except.bind, pure,
              Except.pure]

/-- A list that is not refused is accepted as a whole. -/
theorem mem_accepted
    {check : String → Except Error AttachmentId} {evidenceIds : List String}
    (fine : refusal check evidenceIds = none) {attachmentId : String}
    (member : attachmentId ∈ evidenceIds) :
    ∃ file, check attachmentId = .ok file ∧
      file ∈ accepted check evidenceIds := by
  induction evidenceIds with
  | nil => simp at member
  | cons first rest inductionHypothesis =>
      cases found : check first with
      | error error => simp [refusal, found] at fine
      | ok file =>
          simp only [refusal, accepted, found] at fine ⊢
          rcases List.mem_cons.mp member with same | later
          · exact ⟨file, same ▸ found, by simp⟩
          · obtain ⟨other, passed, listed⟩ := inductionHypothesis fine later
            exact ⟨other, passed, List.mem_cons_of_mem _ listed⟩

/-- A checked file is the file of its id. -/
theorem uuid_of_evidenceFile
    {wrongPurpose foreign : Error} {user : UserId} {attachmentId : String}
    {file : AttachmentId}
    (passed : evidenceFile uuid files wrongPurpose foreign user attachmentId =
      .ok file) : uuid attachmentId = .ok file := by
  unfold evidenceFile at passed
  cases named : uuid attachmentId with
  | error error => simp [named, bind, Except.bind] at passed
  | ok id =>
      simp only [named, bind, Except.bind] at passed
      split at passed
      · simp at passed
      · split_ifs at passed with own
        exact passed

/-- The same of a file that is handed in later. -/
theorem uuid_of_lateEvidence
    {user : UserId} {attachmentId : String} {file : AttachmentId}
    (passed : lateEvidence uuid files user attachmentId = .ok file) :
    uuid attachmentId = .ok file :=
  uuid_of_evidenceFile passed

/-! ## All or nothing -/

/-- Every listed file is attached. -/
def AllAttached (uuid : String → Except Error AttachmentId) (id : OrderId)
    (evidenceIds : List String) (evidence : List (OrderId × AttachmentId)) :
    Prop :=
  ∀ attachmentId ∈ evidenceIds, ∃ file,
    uuid attachmentId = .ok file ∧ (id, file) ∈ evidence

/-- The request attaches every listed file, or fails and attaches none. -/
def AllOrNothing (uuid : String → Except Error AttachmentId) (id : OrderId)
    (evidenceIds : List String) (before : Casebook)
    (outcome : Except Error Unit × Casebook) : Prop :=
  match outcome.1 with
  | .ok _ => AllAttached uuid id evidenceIds outcome.2.evidence
  | .error _ => outcome.2.evidence = before.evidence

/-- The files that were accepted are the files of their ids. -/
theorem allAttached_of_accepted
    {check : String → Except Error AttachmentId} {id : OrderId}
    {evidenceIds : List String} {evidence : List (OrderId × AttachmentId)}
    (names : ∀ attachmentId file, check attachmentId = .ok file →
      uuid attachmentId = .ok file)
    (fine : refusal check evidenceIds = none)
    (attached : ∀ file ∈ accepted check evidenceIds, (id, file) ∈ evidence) :
    AllAttached uuid id evidenceIds evidence := by
  intro attachmentId member
  obtain ⟨file, passed, listed⟩ := mem_accepted fine member
  exact ⟨file, names attachmentId file passed, attached file listed⟩

/-- The rows that the first query joins. -/
theorem joined_eq_some
    {book : Casebook} {id : OrderId} {dispute : Dispute} {order : Order} :
    ((book.db.disputes.row id).bind fun dispute =>
        (book.db.orders.row id).map (dispute, ·)) = some (dispute, order) ↔
      book.db.disputes.row id = some dispute ∧
        book.db.orders.row id = some order := by
  simp [Option.bind_eq_some_iff]

/-- The user finds the dispute, and it is open to evidence. -/
def Admitted (user : Actor) (id : OrderId) (book : Casebook) : Prop :=
  ∃ dispute order, book.db.disputes.row id = some dispute ∧
    book.db.orders.row id = some order ∧
    (user.id = order.student ∨ user.id = order.expert ∨ user.isStaff) ∧
    dispute.status ∈ openStatuses

/-- Files that are attached already change nothing. -/
theorem union_of_attached
    {links evidence : List (OrderId × AttachmentId)}
    (known : ∀ link ∈ links, link ∈ evidence) :
    links ∪ evidence = evidence := by
  induction links with
  | nil => simp
  | cons link rest inductionHypothesis =>
      have later := inductionHypothesis fun other member =>
        known other (List.mem_cons_of_mem _ member)
      rw [List.cons_union, later, List.insert_of_mem (known link (by simp))]

/-- What the loop over the files leaves when it runs alone. -/
theorem attachEach_leaves
    (check : String → Except Error AttachmentId) (id : OrderId)
    (evidenceIds : List String) (book : Casebook) :
    (Request.forEach evidenceIds fun attachmentId => do
      let file ← Request.ofExcept (check attachmentId)
      Request.atomic (Prog.exec (CaseStmt.addEvidence id file)) :
      CaseCall Unit).Leaves book [] fun result later _ =>
        (match refusal check evidenceIds with
          | none => result = .ok ()
          | some error => result = .error error) ∧
        later.evidence = ((accepted check evidenceIds).map (id, ·)).reverse ∪
          book.evidence := by
  induction evidenceIds generalizing book with
  | nil => exact ⟨rfl, rfl⟩
  | cons attachmentId rest inductionHypothesis =>
      refine Request.leaves_bind.mpr ?_
      cases found : check attachmentId with
      | error error => simp [refusal, accepted, found]
      | ok file =>
          have later := inductionHypothesis
            ((CaseStmt.addEvidence id file).apply book)
          simpa [refusal, accepted, found, CaseStmt.apply, List.union_def]
            using later

/-- A request that is not admitted changes nothing. -/
theorem submitEvidence_leaves
    (user : Actor) (id : OrderId) (evidenceIds : List String)
    (book : Casebook) :
    (submitEvidence uuid files user id evidenceIds).Leaves book []
      fun result later _ =>
        (¬Admitted user id book →
          (∃ error, result = .error error) ∧ later = book) ∧
        (Admitted user id book →
          (match refusal (lateEvidence uuid files user.id) evidenceIds with
            | none => result = .ok ()
            | some error => result = .error error) ∧
          later.evidence = ((accepted (lateEvidence uuid files user.id)
            evidenceIds).map (id, ·)).reverse ∪ book.evidence) := by
  have loop := attachEach_leaves (lateEvidence uuid files user.id) id
    evidenceIds book
  simp only [submitEvidence, getForUser, Request.leaves_bind,
    Request.leaves_load, Request.leaves_orFail, Request.leaves_require,
    Request.leaves_pure, applyAll_nil]
  constructor
  · intro joined found
    obtain ⟨dispute, order⟩ := joined
    obtain ⟨listed, placed⟩ := joined_eq_some.mp found
    have only : Admitted user id book →
        (user.id = order.student ∨ user.id = order.expert ∨ user.isStaff) ∧
          dispute.status ∈ openStatuses := by
      intro admitted
      obtain ⟨other, party, stored, row, concerned, opened⟩ := admitted
      obtain rfl := Option.some.inj (listed.symm.trans stored)
      obtain rfl := Option.some.inj (placed.symm.trans row)
      exact ⟨concerned, opened⟩
    constructor
    · intro concerned
      constructor
      · intro opened
        refine loop.mono fun result later _ left => ⟨fun refused => ?_,
          fun _ => left⟩
        exact absurd ⟨dispute, order, listed, placed, concerned, opened⟩ refused
      · intro closed
        exact ⟨fun _ => ⟨⟨_, rfl⟩, trivial⟩,
          fun admitted => absurd (only admitted).2 closed⟩
    · intro stranger
      exact ⟨fun _ => ⟨⟨_, rfl⟩, trivial⟩,
        fun admitted => absurd (only admitted).1 stranger⟩
  · intro absent
    refine ⟨fun _ => ⟨⟨_, rfl⟩, trivial⟩, fun admitted => ?_⟩
    obtain ⟨dispute, order, listed, placed, -⟩ := admitted
    rw [joined_eq_some.mpr ⟨listed, placed⟩] at absent
    simp at absent

/--
Alone, files that are handed in later are attached all or none, unless a good
one that is new comes before one that is refused.
-/
theorem submitEvidence_allOrNothing_iff
    (user : Actor) (id : OrderId) (evidenceIds : List String)
    (book : Casebook) :
    AllOrNothing uuid id evidenceIds book
        ((submitEvidence uuid files user id evidenceIds).run book) ↔
      (Admitted user id book →
        refusal (lateEvidence uuid files user.id) evidenceIds = none ∨
          ∀ file ∈ accepted (lateEvidence uuid files user.id) evidenceIds,
            (id, file) ∈ book.evidence) := by
  have left : (submitEvidence uuid files user id evidenceIds).Leaves book [] _ :=
    submitEvidence_leaves user id evidenceIds book
  rw [Request.leaves_iff_run] at left
  generalize (submitEvidence uuid files user id evidenceIds).run book =
    outcome at left ⊢
  obtain ⟨result, later⟩ := outcome
  simp only at left
  by_cases admitted : Admitted user id book
  · obtain ⟨ends, evidence⟩ := left.2 admitted
    cases refused : refusal (lateEvidence uuid files user.id) evidenceIds with
    | none =>
        rw [refused] at ends
        subst ends
        refine iff_of_true ?_ fun _ => .inl rfl
        refine allAttached_of_accepted (fun _ _ => uuid_of_lateEvidence)
          refused fun file listed => ?_
        rw [evidence, List.mem_union_iff]
        exact .inl (by simpa using listed)
    | some error =>
        rw [refused] at ends
        subst ends
        simp only [AllOrNothing, evidence, admitted, true_implies, reduceCtorEq,
          false_or]
        constructor
        · intro same file listed
          rw [← same]
          simp [listed]
        · intro known
          refine union_of_attached fun link member => ?_
          simp only [List.mem_reverse, List.mem_map] at member
          obtain ⟨file, listed, rfl⟩ := member
          exact known file listed
  · obtain ⟨⟨error, rfl⟩, rfl⟩ := left.1 admitted
    exact iff_of_true rfl fun found => absurd found admitted

/-! ## Files of a new dispute -/

/-- The statement that attaches the files of a new dispute. -/
def attaching (id : OrderId) (evidenceIds : List String)
    (found : List AttachmentId) : List CaseStmt :=
  if evidenceIds ≠ [] then [.setEvidence id found] else []

/-- A dispute with files ends like the dispute alone, and then attaches them. -/
theorem openWithEvidence_wp
    {env : Env} {id : OrderId} {actor : Actor} {reason : DisputeReason}
    {description : String} {evidenceIds : List String}
    {protocol : Protocol Casebook Row CaseStmt}
    {alone : Protocol Db Row Stmt} {goal : Ctx Db Row Stmt → Prop}
    (inv : ∀ book, protocol.Inv book → alone.Inv book.db)
    (same : ∀ row first second, protocol.Same row first second →
      alone.Same row first.db second.db)
    (opens : ∀ evidence,
      (openDispute env id actor reason description evidence).wp alone .start
        fun result own => result = .ok () → goal own) :
    (openWithEvidence uuid files env id actor reason description
      evidenceIds).wp protocol .start fun result later =>
        result = .ok () → ∃ own found, goal own ∧
          collectEvidence uuid files actor.id evidenceIds = .ok found ∧
          (∀ book, later.known book → own.known book.db) ∧
          later.writes = own.writes.map CaseStmt.market ++
            attaching id evidenceIds found := by
  unfold openWithEvidence
  have block := Prog.wp_within inv same
    (opens ((collectEvidence uuid files actor.id evidenceIds).map fun _ => ()))
    (Ctx.within_start market)
  refine Prog.wp_bind.mpr (Prog.wp_mono block ?_)
  intro result later ⟨own, reached, within⟩
  cases result with
  | error error => exact nofun
  | ok value =>
      simp only [Prog.wp_bind, Prog.wp_ofExcept, Prog.wp_ite, Prog.wp_exec,
        Prog.wp_pure, reduceCtorEq, false_implies, implies_true, and_true,
        true_implies]
      intro found collected
      constructor
      · intro listed
        refine ⟨own, found, reached rfl, collected, within.known, ?_⟩
        rw [attaching, if_pos listed, Ctx.push_writes, within.writes]
        rfl
      · intro empty
        refine ⟨own, found, reached rfl, collected, within.known, ?_⟩
        rw [attaching, if_neg empty, List.append_nil, within.writes]
        rfl

/-- What a dispute with files writes, whatever the others do meanwhile. -/
theorem openWithEvidence_writes
    (env : Env) (id : OrderId) (actor : Actor) (reason : DisputeReason)
    (description : String) (evidenceIds : List String) :
    (openWithEvidence uuid files env id actor reason description
      evidenceIds).wp Protocol.free .start fun result later =>
        result = .ok () → ∃ (own : List Stmt) (found : List AttachmentId),
          collectEvidence uuid files actor.id evidenceIds = .ok found ∧
          later.writes = own.map CaseStmt.market ++
            attaching id evidenceIds found := by
  have opens : ∀ evidence,
      (openDispute env id actor reason description evidence).wp Protocol.free
        .start fun result (_ : Ctx Db Row Stmt) => result = .ok () → True :=
    fun _ => Prog.wp_mono (Prog.wp_trivial _) fun _ _ _ _ => trivial
  refine Prog.wp_mono (openWithEvidence_wp (fun _ _ => trivial)
    (fun _ _ _ _ => trivial) opens) fun result later holds ok => ?_
  obtain ⟨own, found, -, collected, -, writes⟩ := holds ok
  exact ⟨own.writes, found, collected, writes⟩

/-- Collected files are the files of their ids. -/
theorem allAttached_of_collected
    {user : UserId} {id : OrderId} {evidenceIds : List String}
    {found : List AttachmentId} {evidence : List (OrderId × AttachmentId)}
    (collected : collectEvidence uuid files user evidenceIds = .ok found)
    (attached : ∀ file ∈ found, (id, file) ∈ evidence) :
    AllAttached uuid id evidenceIds evidence := by
  rw [collectEvidence, mapM_check] at collected
  split at collected
  · next fine =>
      obtain rfl := Except.ok.inj collected
      exact allAttached_of_accepted (fun _ _ => uuid_of_evidenceFile) fine
        attached
  · simp at collected

/-- What the statements of a dispute with files leave attached. -/
theorem mem_evidence_attaching
    {own : List Stmt} {id : OrderId} {evidenceIds : List String}
    {found : List AttachmentId} {book : Casebook} (listed : evidenceIds ≠ [])
    (file : AttachmentId) (member : file ∈ found) :
    (id, file) ∈ (applyAll (own.map CaseStmt.market ++
      attaching id evidenceIds found) book).evidence := by
  simp [attaching, listed, CaseStmt.apply, member]

/-- Alone, a dispute attaches all its files, or it is not opened. -/
theorem postDispute_allOrNothing
    (env : Env) (id : OrderId) (actor : Actor) (reason : DisputeReason)
    (description : String) (evidenceIds : List String) (book : Casebook) :
    AllOrNothing uuid id evidenceIds book
      ((postDispute uuid files env id actor reason description
        evidenceIds).run book) := by
  change (postDispute uuid files env id actor reason description
    evidenceIds).Leaves book [] fun result later _ =>
      AllOrNothing uuid id evidenceIds book (result, later)
  simp only [postDispute, Request.leaves_bind, Request.leaves_load,
    Request.leaves_orFail, Request.leaves_atomic, applyAll_nil]
  refine ⟨fun order stored => ?_, fun _ => rfl⟩
  refine (Prog.post_of_wp_start (openWithEvidence_writes env id actor reason
    description evidenceIds) trivial).mono ?_
  intro result next reached
  obtain ⟨later, wrote, _, left⟩ := reached
  cases result with
  | error error => rfl
  | ok value =>
      obtain ⟨own, found, collected, writes⟩ := wrote rfl
      by_cases listed : evidenceIds = []
      · exact fun attachmentId member => by simp [listed] at member
      · refine allAttached_of_collected collected fun file member => ?_
        rw [left, writes]
        exact mem_evidence_attaching listed file member

end Disputes

end KnowledgeMarketplace
