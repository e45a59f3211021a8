import KnowledgeMarketplace.Disputes.Evidence
import KnowledgeMarketplace.Disputes.StatusEdges

/-!
# Evidence and resolutions at the same time

A new dispute attaches its files in its own transaction.  Files that are handed
in later are attached one by one, after a look at the dispute that takes no
lock; a resolution can come between.
-/

namespace KnowledgeMarketplace

open Transaction

namespace Disputes

open Files (StoredFile)

/-- A request with evidence, or another operation of the marketplace. -/
inductive CaseRequest where
  | dispute (env : Env) (id : OrderId) (actor : Actor) (reason : DisputeReason)
      (description : String) (evidenceIds : List String)
  | evidence (user : Actor) (id : OrderId) (evidenceIds : List String)
  | operation (operation : Operation)

/-- What a request has seen first, and what it has attached. -/
structure Handed where
  looked : Option Casebook := none
  attached : List (OrderId × AttachmentId) := []

/-- The journal of first looks and of attached files. -/
def handing : Journal Casebook CaseStmt Handed where
  look notes book := { notes with looked := notes.looked.or (some book) }
  commit notes stmts :=
    { notes with attached := notes.attached ++ stmts.flatMap CaseStmt.links }
  close notes := { notes with looked := none }
  abort notes := { notes with looked := none }

@[simp] theorem handing_look (notes : Handed) (book : Casebook) :
    handing.look notes book =
      { notes with looked := notes.looked.or (some book) } :=
  rfl

@[simp] theorem handing_commit (notes : Handed) (stmts : List CaseStmt) :
    handing.commit notes stmts =
      { notes with
        attached := notes.attached ++ stmts.flatMap CaseStmt.links } :=
  rfl

section Files

variable (uuid : String → Except Error AttachmentId)
  (files : Table AttachmentId StoredFile)

namespace CaseRequest

/-- The request of the client. -/
def call : CaseRequest → CaseCall Unit
  | dispute env id actor reason description evidenceIds =>
      postDispute uuid files env id actor reason description evidenceIds
  | evidence user id evidenceIds =>
      submitEvidence uuid files user id evidenceIds
  | operation service => service.call.within market

/-- No good file comes before one that is refused. -/
def Tidy : CaseRequest → Prop
  | evidence user _ evidenceIds =>
      refusal (lateEvidence uuid files user.id) evidenceIds = none ∨
        accepted (lateEvidence uuid files user.id) evidenceIds = []
  | _ => True

/-- What a commit writes, given what the request has seen and attached. -/
def Hands : CaseRequest → Handed → List CaseStmt → Prop
  | dispute _ id actor _ _ evidenceIds, notes, stmts =>
      notes.attached = [] ∧ ∃ (own : List Stmt) (found : List AttachmentId),
        collectEvidence uuid files actor.id evidenceIds = .ok found ∧
        stmts = own.map CaseStmt.market ++ attaching id evidenceIds found
  | evidence _ id _, notes, stmts =>
      ∃ look dispute file, notes.looked = some look ∧
        look.db.disputes.row id = some dispute ∧
        dispute.status ∈ openStatuses ∧ stmts = [.addEvidence id file]
  | operation _, _, stmts => ∃ own : List Stmt, stmts = own.map CaseStmt.market

/-- The request has attached every listed file, or it fails without one. -/
def Ends : CaseRequest → Except Error Unit → Handed → Prop
  | dispute _ id _ _ _ evidenceIds, result, notes
  | evidence _ id evidenceIds, result, notes =>
      match result with
      | .ok _ => AllAttached uuid id evidenceIds notes.attached
      | .error _ => notes.attached = []
  | operation _, _, _ => True

end CaseRequest

end Files

variable {uuid : String → Except Error AttachmentId}
  {files : Table AttachmentId StoredFile}

/-! ## What the requests commit -/

@[simp] theorem links_market (own : List Stmt) :
    (own.map CaseStmt.market).flatMap CaseStmt.links = [] := by
  simp [CaseStmt.links]

@[simp] theorem links_attaching
    (id : OrderId) {evidenceIds : List String} (found : List AttachmentId)
    (listed : evidenceIds ≠ []) :
    (attaching id evidenceIds found).flatMap CaseStmt.links =
      found.map (id, ·) := by
  simp [attaching, listed, CaseStmt.links]

/-- A dispute with files keeps its promise, and ends as it should. -/
theorem dispute_follows
    (env : Env) (id : OrderId) (actor : Actor) (reason : DisputeReason)
    (description : String) (evidenceIds : List String) :
    let request := CaseRequest.dispute env id actor reason description
      evidenceIds
    (request.call uuid files).Follows handing (request.Hands uuid files) {} []
      fun result later _ => request.Ends uuid result later := by
  intro request
  simp only [request, CaseRequest.call, postDispute, Request.follows_bind,
    Request.follows_load, Request.follows_orFail, applyAll_nil]
  refine fun book => ⟨fun order _ => ?_, fun _ => rfl⟩
  refine Request.follows_atomic (fun _ => rfl) ?_
  refine Prog.wp_mono (openWithEvidence_writes env id actor reason description
    evidenceIds) fun result later wrote => ?_
  cases result with
  | error error => rfl
  | ok value =>
      obtain ⟨own, found, collected, writes⟩ := wrote rfl
      refine ⟨⟨rfl, own, found, collected, writes⟩, ?_⟩
      by_cases listed : evidenceIds = []
      · exact fun attachmentId member => by simp [listed] at member
      · refine allAttached_of_collected collected fun file member => ?_
        simp [writes, listed, member]

/-- The loop over the files notes what it has attached. -/
theorem attachEach_follows
    {promise : Handed → List CaseStmt → Prop}
    (check : String → Except Error AttachmentId) (id : OrderId)
    (evidenceIds : List String) (notes : Handed)
    (promised : ∀ attached file, promise { notes with attached }
      [.addEvidence id file]) :
    (Request.forEach evidenceIds fun attachmentId => do
      let file ← Request.ofExcept (check attachmentId)
      Request.atomic (Prog.exec (CaseStmt.addEvidence id file)) :
      CaseCall Unit).Follows handing promise notes [] fun result later _ =>
        (match refusal check evidenceIds with
          | none => result = .ok ()
          | some error => result = .error error) ∧
        later.attached = notes.attached ++
          (accepted check evidenceIds).map (id, ·) := by
  induction evidenceIds generalizing notes with
  | nil => exact ⟨rfl, by simp [accepted]⟩
  | cons attachmentId rest inductionHypothesis =>
      refine Request.follows_bind.mpr ?_
      cases found : check attachmentId with
      | error error => simp [refusal, accepted, found]
      | ok file =>
          have later := inductionHypothesis
            { notes with attached := notes.attached ++ [(id, file)] }
            fun attached file => promised attached file
          simp only [List.append_assoc, List.singleton_append] at later
          simpa [refusal, accepted, found, CaseStmt.links]
            using ⟨promised notes.attached file, later⟩

/-- A user who hands in a tidy list ends with all its files or without any. -/
theorem evidence_follows
    (user : Actor) (id : OrderId) (evidenceIds : List String)
    (tidy : (CaseRequest.evidence user id evidenceIds).Tidy uuid files) :
    let request := CaseRequest.evidence user id evidenceIds
    (request.call uuid files).Follows handing (request.Hands uuid files) {} []
      fun result later _ => request.Ends uuid result later := by
  intro request
  simp only [request, CaseRequest.call, submitEvidence, getForUser,
    Request.follows_bind, Request.follows_load, Request.follows_orFail,
    Request.follows_require, Request.follows_pure, applyAll_nil]
  intro book
  refine ⟨fun joined found => ⟨fun _ => ⟨fun opened => ?_,
    fun _ => rfl⟩, fun _ => rfl⟩, fun _ => rfl⟩
  obtain ⟨dispute, order⟩ := joined
  obtain ⟨listed, -⟩ := joined_eq_some.mp found
  refine (attachEach_follows (lateEvidence uuid files user.id) id evidenceIds _
    fun attached file => ?_).mono ?_
  · exact ⟨book, dispute, file, rfl, listed, opened, rfl⟩
  · intro result later stmts reached
    obtain ⟨ends, attached⟩ := reached
    cases refused : refusal (lateEvidence uuid files user.id) evidenceIds with
    | none =>
        rw [refused] at ends
        subst ends
        refine allAttached_of_accepted (fun _ _ => uuid_of_lateEvidence)
          refused fun file listed => ?_
        simp [attached, listed]
    | some error =>
        rw [refused] at ends
        subst ends
        have none := tidy.resolve_left (by simp [refused])
        simpa [CaseRequest.Ends, none] using attached

/-- Another operation attaches nothing. -/
theorem operation_follows (service : Operation) :
    let request := CaseRequest.operation service
    (request.call uuid files).Follows handing (request.Hands uuid files) {} []
      fun result later _ => request.Ends uuid result later :=
  Request.follows_of_emits (Request.emits_within market service.call)
    fun _ _ all => Part.exists_map_of_writes all

/-- Requests keep their promises, and end as they should. -/
theorem CaseRequest.follows
    (request : CaseRequest) (tidy : request.Tidy uuid files) :
    (request.call uuid files).Follows handing (request.Hands uuid files) {} []
      fun result later _ => request.Ends uuid result later := by
  cases request with
  | dispute env id actor reason description evidenceIds =>
      exact dispute_follows env id actor reason description evidenceIds
  | evidence user id evidenceIds =>
      exact evidence_follows user id evidenceIds tidy
  | operation service => exact operation_follows service

/-! ## A new dispute is new -/

/-- The row locks of the marketplace, which protect no evidence. -/
def caseLocks : Protocol Casebook Row CaseStmt where
  Inv _ := True
  Same row first second := SameRow row first.db second.db
  Condition _ _ := True
  same_refl row book := sameRow_refl row book.db
  same_trans row _ _ _ := sameRow_trans row _ _ _

/-- Statements leave the rows alone that they do not lock. -/
theorem caseLocks_frame
    {stmts : List CaseStmt} (book : Casebook) (row : Row)
    (free : row ∉ rowsOf Casebook stmts) :
    caseLocks.Same row book (applyAll stmts book) := by
  refine caseLocks.same_applyAll (fun stmt _ book free => ?_) free book
  cases stmt with
  | market stmt => exact sameRow_apply book.db row free
  | addEvidence id file => exact sameRow_refl row book.db
  | setEvidence id files => exact sameRow_refl row book.db

/-- Files are set for a dispute that is new, and there afterwards. -/
def SetsNew (stmts : List CaseStmt) (book : Casebook) : Prop :=
  ∀ id files, CaseStmt.setEvidence id files ∈ stmts →
    book.db.disputes.row id = none ∧
      ((applyAll stmts book).db.disputes.row id).isSome

/-- Nothing is asked of requests that set no files. -/
theorem setsNew_of_emits
    {request : CaseCall Unit} {good : Effect CaseStmt → Prop}
    (emits : request.Emits good fun _ => True)
    (none : ∀ id files, ¬good (.write (.setEvidence id files))) :
    request.Safe caseLocks SetsNew :=
  emits.safe (fun _ _ all _ _ => ⟨trivial, fun id files member =>
      absurd (all _ member) (none id files)⟩)
    fun _ book row _ _ _ free => caseLocks_frame book row free

/-- Statements of the marketplace change the marketplace only. -/
theorem applyAll_market (own : List Stmt) (book : Casebook) :
    applyAll (own.map CaseStmt.market) book =
      { book with db := applyAll own book.db } := by
  induction own generalizing book with
  | nil => rfl
  | cons stmt rest inductionHypothesis =>
      exact inductionHypothesis ((CaseStmt.market stmt).apply book)

/-- No dispute is ever deleted. -/
theorem dispute_stays
    {stmts : List Stmt} {db : Db} {id : OrderId}
    (there : (db.disputes.row id).isSome) :
    ((applyAll stmts db).disputes.row id).isSome := by
  refine applyAll_keeps (fun db : Db => (db.disputes.row id).isSome)
    (fun stmt _ db present => ?_) there
  cases stmt with
  | insertDispute key value =>
      obtain ⟨found, row⟩ := Option.isSome_iff_exists.mp present
      exact Option.isSome_iff_exists.mpr
        ⟨found, Table.row_insert_of_some key value row⟩
  | saveDispute key loaded set =>
      simp only [store_apply, Stmt.apply, Table.row_modify]
      split_ifs <;> simpa using present
  | _ => exact present

/-- A dispute is opened only where there is none, and is there afterwards. -/
theorem Opens.setsNew
    {id : OrderId} {order : Order} {own : Ctx Db Row Stmt}
    (opens : Opens id order own) {book : Casebook}
    (known : own.known book.db) (evidenceIds : List String)
    (found : List AttachmentId) :
    SetsNew (own.writes.map CaseStmt.market ++ attaching id evidenceIds found)
      book := by
  intro key files member
  have same : key = id := by
    by_cases listed : evidenceIds = [] <;>
      simp_all [attaching]
  subst same
  have fresh := opens.first book.db known
  refine ⟨fresh, ?_⟩
  obtain ⟨dispute, flags, -, -, -, writes⟩ := opens.writes
  have inserted : (((Stmt.insertDispute key dispute).apply
      book.db).disputes.row key).isSome := by
    simp [Stmt.apply, Table.row_insert_self dispute fresh]
  have opened : ((applyAll own.writes book.db).disputes.row key).isSome := by
    rw [writes, List.append_assoc, applyAll_append]
    exact dispute_stays inserted
  rw [applyAll_append, applyAll_market]
  by_cases listed : evidenceIds = []
  · simpa [attaching, listed] using opened
  · simpa [attaching, listed, CaseStmt.apply] using opened

/-- Requests set files for new disputes only. -/
theorem CaseRequest.safe (request : CaseRequest) :
    (request.call uuid files).Safe caseLocks SetsNew := by
  cases request with
  | dispute env id actor reason description evidenceIds =>
      have opens : ∀ evidence,
          (openDispute env id actor reason description evidence).wp rowLocks
            .start fun result own => result = .ok () →
              ∃ order, Opens id order own := fun evidence =>
        openDispute_opens (fun _ _ => nofun)
          fun order _ opened _ => ⟨order, opened⟩
      simp only [CaseRequest.call, postDispute, Request.Safe, Request.wp_bind,
        Request.wp_load, Request.wp_orFail, Request.wp_atomic,
        Ctx.start_observe, implies_true, and_true]
      intro _ _ _ order _
      refine Prog.wp_mono (openWithEvidence_wp (fun _ _ => trivial)
        (fun _ _ _ same => same) opens) fun result later wrote => ?_
      cases result with
      | error error => trivial
      | ok value =>
          obtain ⟨own, found, ⟨order, opened⟩, -, known, writes⟩ := wrote rfl
          refine fun book _ holds _ rows => ⟨trivial, ?_, fun row free => ?_⟩
          · rw [writes]
            exact opened.setsNew (known book holds) evidenceIds found
          · exact caseLocks_frame book row fun inside => free (rows row inside)
  | evidence user id evidenceIds =>
      have emits : (submitEvidence uuid files user id evidenceIds).Emits
          (fun effect => ∀ id files, effect ≠ .write (.setEvidence id files))
          fun _ => True := by
        simp [submitEvidence, getForUser]
      exact setsNew_of_emits emits fun id files good => good id files rfl
  | operation service =>
      refine setsNew_of_emits (Request.emits_within market service.call) ?_
      intro id files written
      obtain ⟨own, same⟩ := written
      simp [market] at same

/-! ## Runs -/

/-- The dispute is there, and not resolved. -/
def IsOpen (id : OrderId) (book : Casebook) : Prop :=
  (book.db.disputes.row id).any (·.status ∈ openStatuses) = true

theorem isOpen_iff {id : OrderId} {book : Casebook} :
    IsOpen id book ↔ ∃ dispute, book.db.disputes.row id = some dispute ∧
      dispute.status ∈ openStatuses := by
  simp [IsOpen, Option.any_eq_true]

/--
A commit resolves no dispute while a request that has found it open to evidence
is unfinished.
-/
def Undisturbed
    (requests : Nat → CaseRequest) (notes : Nat → Handed) (_ : Nat)
    (stmts : List CaseStmt) (book : Casebook) : Prop :=
  ∀ client user id evidenceIds,
    requests client = .evidence user id evidenceIds →
    ∀ look, (notes client).looked = some look → IsOpen id look →
      IsOpen id book → IsOpen id (applyAll stmts book)

/-- What is attached, and the disputes that unfinished requests have seen. -/
structure Filed
    (requests : Nat → CaseRequest) (notes : Nat → Handed) (book : Casebook) :
    Prop where
  linked : ∀ link ∈ book.evidence, (book.db.disputes.row link.1).isSome
  attached : ∀ client, ∀ link ∈ (notes client).attached, link ∈ book.evidence
  opened : ∀ client user id evidenceIds,
    requests client = .evidence user id evidenceIds →
    ∀ look, (notes client).looked = some look → IsOpen id look →
      IsOpen id book

variable {requests : Nat → CaseRequest} {notes : Nat → Handed}
  {book : Casebook} {client : Nat} {stmts : List CaseStmt}

/-- Files are attached to disputes that are not resolved. -/
theorem Filed.unresolved
    (filed : Filed requests notes book) (new : SetsNew stmts book)
    (hands : (requests client).Hands uuid files (notes client) stmts) :
    ∀ link ∈ stmts.flatMap CaseStmt.links, Unresolved link.1 book.db := by
  intro link member
  cases shape : requests client with
  | dispute env id actor reason description evidenceIds =>
      rw [shape] at hands
      obtain ⟨-, own, found, -, rfl⟩ := hands
      by_cases listed : evidenceIds = []
      · simp [attaching, listed] at member
      · have fresh := (new id found (by simp [attaching, listed])).1
        obtain ⟨file, -, rfl⟩ : ∃ file ∈ found, (id, file) = link := by
          simpa [listed] using member
        exact fun dispute stored => by simp [fresh] at stored
  | evidence user id evidenceIds =>
      rw [shape] at hands
      obtain ⟨look, seen, file, looked, stored, opened, rfl⟩ := hands
      obtain rfl : link = (id, file) := by simpa [CaseStmt.links] using member
      obtain ⟨dispute, row, still⟩ := isOpen_iff.mp
        (filed.opened client user id evidenceIds shape look looked
          (isOpen_iff.mpr ⟨seen, stored, opened⟩))
      intro other found
      obtain rfl := Option.some.inj (row.symm.trans found)
      exact still
  | operation service =>
      rw [shape] at hands
      obtain ⟨own, rfl⟩ := hands
      simp at member

/-- A commit attaches its files and keeps those that were attached. -/
theorem Filed.attaches
    (filed : Filed requests notes book) (new : SetsNew stmts book)
    (hands : (requests client).Hands uuid files (notes client) stmts) :
    (∀ link ∈ book.evidence, link ∈ (applyAll stmts book).evidence) ∧
      (∀ link ∈ stmts.flatMap CaseStmt.links,
        link ∈ (applyAll stmts book).evidence) ∧
      ∀ link ∈ (applyAll stmts book).evidence,
        ((applyAll stmts book).db.disputes.row link.1).isSome := by
  -- the marketplace changes, the evidence does not
  have apart : ∀ own : List Stmt, ∀ link ∈ book.evidence,
      ((applyAll own book.db).disputes.row link.1).isSome :=
    fun own link member => dispute_stays (filed.linked link member)
  cases shape : requests client with
  | dispute env id actor reason description evidenceIds =>
      rw [shape] at hands
      obtain ⟨-, own, found, -, rfl⟩ := hands
      by_cases listed : evidenceIds = []
      · simpa [attaching, listed, applyAll_market] using apart own
      · obtain ⟨fresh, there⟩ := new id found (by simp [attaching, listed])
        rw [applyAll_append, applyAll_market] at there ⊢
        simp only [attaching, listed, ne_eq, not_false_eq_true, if_true,
          applyAll_cons, applyAll_nil, caseStore_apply, CaseStmt.apply] at there
        have other : ∀ link ∈ book.evidence, link.1 ≠ id := by
          intro link member same
          have row := filed.linked link member
          simp [same, fresh] at row
        simp only [attaching, listed, ne_eq, not_false_eq_true, if_true,
          applyAll_cons, applyAll_nil, caseStore_apply, CaseStmt.apply,
          List.flatMap_append, links_market, List.nil_append,
          List.flatMap_singleton, CaseStmt.links, List.mem_union_iff]
        refine ⟨fun link member => .inr ?_, fun link member => .inl member, ?_⟩
        · simp [member, other link member]
        · intro link member
          rcases member with attached | kept
          · obtain ⟨file, -, rfl⟩ := List.mem_map.mp attached
            exact there
          · exact apart own link (List.mem_of_mem_filter kept)
  | evidence user id evidenceIds =>
      rw [shape] at hands
      obtain ⟨look, seen, file, looked, stored, opened, rfl⟩ := hands
      obtain ⟨dispute, row, -⟩ := isOpen_iff.mp
        (filed.opened client user id evidenceIds shape look looked
          (isOpen_iff.mpr ⟨seen, stored, opened⟩))
      simp only [applyAll_cons, applyAll_nil, caseStore_apply, CaseStmt.apply,
        List.flatMap_singleton, CaseStmt.links, List.mem_insert_iff,
        List.mem_singleton]
      refine ⟨fun link => .inr, fun link => .inl, fun link member => ?_⟩
      rcases member with rfl | earlier
      · simp [row]
      · exact filed.linked link earlier
  | operation service =>
      rw [shape] at hands
      obtain ⟨own, rfl⟩ := hands
      simpa [applyAll_market] using apart own

/-- A page on which no more is noted than before, or a look at the book. -/
theorem Filed.note
    {page : Handed} (filed : Filed requests notes book)
    (attached : page.attached = (notes client).attached)
    (looked : ∀ look, page.looked = some look →
      (notes client).looked = some look ∨ look = book) :
    Filed requests (Function.update notes client page) book := by
  refine ⟨filed.linked, fun other => ?_,
    fun other user id evidenceIds shape => ?_⟩
  · by_cases same : other = client
    · subst same
      simpa [attached] using filed.attached other
    · simpa [same] using filed.attached other
  · by_cases same : other = client
    · subst same
      rw [Function.update_self]
      intro look noted opened
      rcases looked look noted with before | rfl
      · exact filed.opened other user id evidenceIds shape look before opened
      · exact opened
    · rw [Function.update_of_ne same]
      exact filed.opened other user id evidenceIds shape

/-- A commit that leaves the unfinished requests undisturbed. -/
theorem Filed.commit
    (filed : Filed requests notes book) (new : SetsNew stmts book)
    (undisturbed : Undisturbed requests notes client stmts book)
    (hands : (requests client).Hands uuid files (notes client) stmts) :
    Filed requests (Function.update notes client
      (handing.commit (notes client) stmts)) (applyAll stmts book) := by
  obtain ⟨kept, attaches, linked⟩ := filed.attaches new hands
  refine ⟨linked, fun other link member => ?_,
    fun other user id evidenceIds shape look looked opened => ?_⟩
  · by_cases same : other = client
    · subst same
      rw [Function.update_self, handing_commit, List.mem_append] at member
      rcases member with earlier | now
      · exact kept link (filed.attached other link earlier)
      · exact attaches link now
    · rw [Function.update_of_ne same] at member
      exact kept link (filed.attached other link member)
  · have before : (notes other).looked = some look := by
      by_cases same : other = client
      · subst same
        simpa using looked
      · simpa [same] using looked
    exact undisturbed other user id evidenceIds shape look before opened
      (filed.opened other user id evidenceIds shape look before opened)

/-- What every run under the condition keeps. -/
theorem filed_of_noted
    {start : Casebook}
    {system : System Casebook Row CaseStmt (Except Error Unit)}
    (noted : System.Noted handing (Undisturbed requests) {} start
      (fun client => (requests client).call uuid files) notes system)
    (linked : ∀ link ∈ start.evidence, (start.db.disputes.row link.1).isSome)
    (tidy : ∀ client, (requests client).Tidy uuid files) :
    system.Following handing (fun client => (requests client).Hands uuid files)
        (fun client => (requests client).Ends uuid) notes ∧
      Filed requests notes system.committed ∧
      ∀ client stmts, system.committing (.run client) = some stmts →
        SetsNew stmts system.committed := by
  have safe : ∀ client,
      ((requests client).call uuid files).Safe caseLocks SetsNew :=
    fun client => (requests client).safe
  obtain ⟨sound, checked⟩ := noted.meets (fun _ _ => trivial) trivial safe
  have blank : Filed requests (fun _ => {}) start :=
    ⟨linked, fun _ => by simp, fun _ _ _ _ _ _ none => nomatch none⟩
  have kept : _ ∧ Filed requests notes system.committed :=
    checked.keeps (fun client => (requests client).follows (tidy client)) blank
      (fun notes client state filed => ?_)
      (fun notes client stmts state allowed hands filed =>
        filed.commit allowed.2 allowed.1 hands)
      (fun notes client _ state _ filed => filed.note rfl nofun)
      fun notes client state filed => filed.note rfl nofun
  · exact ⟨kept.1, kept.2, fun client stmts commits =>
      sound.guaranteed (fun _ _ => trivial) commits⟩
  · refine filed.note rfl fun look looked => ?_
    cases earlier : (notes client).looked with
    | some seen => exact .inl (by simpa [earlier] using looked)
    | none => exact .inr (by simpa [earlier] using looked.symm)

/-- What a request has attached after a turn is in the book then. -/
theorem Filed.noting
    {system : System Casebook Row CaseStmt (Except Error Unit)}
    (filed : Filed requests notes system.committed)
    (following : system.Following handing
      (fun client => (requests client).Hands uuid files)
      (fun client => (requests client).Ends uuid) notes)
    (new : ∀ stmts, system.committing (.run client) = some stmts →
      SetsNew stmts system.committed) :
    ∀ link ∈ (system.noting handing client (notes client)).attached,
      link ∈ (system.turn client).committed.evidence := by
  intro link member
  cases commits : system.committing (.run client) with
  | none =>
      have same : (system.turn client).committed = system.committed :=
        System.step_committed_of_none commits
      rw [same]
      refine filed.attached client link ?_
      unfold System.noting at member
      cases shape : (system.clients client).proc <;>
        simp_all [System.committing]
  | some stmts =>
      have after : (system.turn client).committed =
          applyAll stmts system.committed :=
        System.step_committed_of_some commits
      obtain ⟨kept, attaches, -⟩ := filed.attaches (new stmts commits)
        (following.promised commits)
      unfold System.noting at member
      unfold System.committing at commits
      rw [after]
      cases shape : (system.clients client).proc with
      | commit next =>
          obtain rfl : (system.clients client).writes = stmts := by
            simpa [shape] using commits
          simp only [shape, handing_commit, List.mem_append] at member
          rcases member with earlier | now
          · exact kept link (filed.attached client link earlier)
          · exact attaches link now
      | _ => simp [shape] at commits

/-- The request ends with all its files in the book, or fails without one. -/
def CaseRequest.Whole (uuid : String → Except Error AttachmentId) :
    CaseRequest → Except Error Unit → Handed → Casebook → Prop
  | dispute _ id _ _ _ evidenceIds, result, notes, book
  | evidence _ id evidenceIds, result, notes, book =>
      match result with
      | .ok _ => AllAttached uuid id evidenceIds book.evidence
      | .error _ => notes.attached = []
  | operation _, _, _, _ => True

/-- What a request has attached is in the book. -/
theorem CaseRequest.Ends.whole
    {request : CaseRequest} {result : Except Error Unit} {page : Handed}
    (ends : request.Ends uuid result page)
    (inside : ∀ link ∈ page.attached, link ∈ book.evidence) :
    request.Whole uuid result page book := by
  have widen : ∀ id evidenceIds, AllAttached uuid id evidenceIds page.attached →
      AllAttached uuid id evidenceIds book.evidence := by
    intro id evidenceIds all attachmentId member
    obtain ⟨file, named, attached⟩ := all attachmentId member
    exact ⟨file, named, inside _ attached⟩
  cases request with
  | operation service => trivial
  | dispute env id actor reason description evidenceIds =>
      cases result with
      | ok value => exact widen id evidenceIds ends
      | error error => exact ends
  | evidence user id evidenceIds =>
      cases result with
      | ok value => exact widen id evidenceIds ends
      | error error => exact ends

/--
Alone, a new dispute attaches all its files or fails; files handed in later do
if and only if no good one that is new comes before one that is refused.  In
every run of such requests and other operations in which no dispute is resolved
while a request that has found it open to evidence is unfinished, files are
attached to unresolved disputes only, and a request ends with all its files or
fails without one.
-/
theorem evidence_whole_while_open
    (uuid : String → Except Error AttachmentId)
    (files : Table AttachmentId StoredFile) :
    (∀ user id evidenceIds book,
      AllOrNothing uuid id evidenceIds book
          ((submitEvidence uuid files user id evidenceIds).run book) ↔
        (Admitted user id book →
          refusal (lateEvidence uuid files user.id) evidenceIds = none ∨
            ∀ file ∈ accepted (lateEvidence uuid files user.id) evidenceIds,
              (id, file) ∈ book.evidence)) ∧
    (∀ env id actor reason description evidenceIds book,
      AllOrNothing uuid id evidenceIds book
        ((postDispute uuid files env id actor reason description
          evidenceIds).run book)) ∧
    ∀ (requests : Nat → CaseRequest) (start : Casebook)
      (notes : Nat → Handed)
      (system : System Casebook Row CaseStmt (Except Error Unit)),
      System.Noted handing (Undisturbed requests) {} start
        (fun client => (requests client).call uuid files) notes system →
      (∀ link ∈ start.evidence, (start.db.disputes.row link.1).isSome) →
      (∀ client, (requests client).Tidy uuid files) →
      ∀ client,
        (∀ stmts, system.committing (.run client) = some stmts →
          ∀ link ∈ stmts.flatMap CaseStmt.links,
            Unresolved link.1 system.committed.db) ∧
        ∀ result, system.ending client = true →
          ((system.turn client).clients client).proc = .halt result →
          (requests client).Whole uuid result
            (system.noting handing client (notes client))
            (system.turn client).committed := by
  refine ⟨submitEvidence_allOrNothing_iff, postDispute_allOrNothing, ?_⟩
  intro requests start notes system noted linked tidy client
  obtain ⟨following, filed, new⟩ := filed_of_noted noted linked tidy
  constructor
  · intro stmts commits
    exact filed.unresolved (new client stmts commits)
      (following.promised commits)
  · intro result last halted
    rw [System.ending, Bool.and_eq_true, Bool.not_eq_true'] at last
    have reached := following.turn last.1
    rw [halted] at reached
    exact CaseRequest.Ends.whole reached
      (filed.noting following (new client))

/-- The ids of two files. -/
def fileNames (attachmentId : String) : Except Error AttachmentId :=
  if attachmentId = "5" then .ok 5
  else if attachmentId = "6" then .ok 6
  else .error (.valueError "No valid UUID.")

/-- Evidence of the student, and of somebody else. -/
def exhibits : Table AttachmentId StoredFile :=
  .insert (.insert .empty 5 { uploader := 1, purpose := .disputeEvidence })
    6 { uploader := 3, purpose := .disputeEvidence }

/-- A dispute under review. -/
def caseUnderReview : Casebook :=
  { db :=
      { orders := .insert .empty 40
          { request := 10
            student := 1
            expert := 2
            source := .openBid
            amount := 5000
            commissionAmount := 750
            expertAmount := 4250
            status := .disputed
            hasOpenDispute := true
            paidAt := some 1
            createdAt := 0 }
        disputes := .insert .empty 40
          { openedBy := 1
            reason := .qualityBelowExpectations
            description := "The report misses two chapters."
            priorOrderStatus := .active
            status := .underReview } } }

/-- The student hands in a file, and support resolves the dispute. -/
def lateFile : Nat → CaseRequest
  | 0 => .evidence ⟨1, false⟩ 40 ["5"]
  | _ => .operation (.dispute (.resolve { now := 3, key := 70 } 40
      (some ⟨9, true⟩) .noFaultClose "Both parties agreed to go on." none))

/-- The student and support after a schedule. -/
def lateRun (schedule : List Turn) :
    System Casebook Row CaseStmt (Except Error Unit) :=
  (System.init caseUnderReview fun client =>
    (lateFile client).call fileNames exhibits).runAll schedule

/--
A refused file leaves the one before it attached; and a file is attached to a
dispute that was resolved after the look at it.
-/
theorem evidence_left_behind :
    ¬AllOrNothing fileNames 40 ["5", "6"] caseUnderReview
        ((submitEvidence fileNames exhibits ⟨1, false⟩ 40 ["5", "6"]).run
          caseUnderReview) ∧
      let system := lateRun (turns 0 1 ++ turns 1 12 ++ turns 0 1)
      (system.committing (.run 0)).map (List.flatMap CaseStmt.links) =
          some [(40, 5)] ∧
        ¬Unresolved 40 system.committed.db := by
  have outcome : ((submitEvidence fileNames exhibits ⟨1, false⟩ 40
      ["5", "6"]).run caseUnderReview).1 =
        .error (.notFound "Only your own uploads can be attached.") := by
    decide +kernel
  have attached : ((submitEvidence fileNames exhibits ⟨1, false⟩ 40
      ["5", "6"]).run caseUnderReview).2.evidence = [(40, 5)] := by
    decide +kernel
  refine ⟨fun whole => ?_, by decide +kernel, fun unresolved => ?_⟩
  · rw [AllOrNothing, outcome] at whole
    rw [attached] at whole
    exact absurd whole (by decide)
  · have status : ((lateRun (turns 0 1 ++ turns 1 12 ++
        turns 0 1)).committed.db.disputes.row 40).map Dispute.status =
          some .resolved := by
      decide +kernel
    obtain ⟨dispute, stored, resolved⟩ := Option.map_eq_some_iff.mp status
    have opened := unresolved dispute stored
    rw [resolved] at opened
    exact absurd opened (by decide)

/-- Without a resolution in between, the student's file is attached. -/
theorem evidence_whole_while_open_lateFile :
    let system := lateRun (turns 0 2)
    (system.committing (.run 0)).map (List.flatMap CaseStmt.links) =
        some [(40, 5)] ∧
      Unresolved 40 system.committed.db ∧
      AllAttached fileNames 40 ["5"] (system.turn 0).committed.evidence := by
  intro system
  have begun : System.Noted handing (Undisturbed lateFile) {} caseUnderReview
      (fun client => (lateFile client).call fileNames exhibits) _ _ := .start
  have looking := begun.quietly (turns 0 2) (by decide +kernel)
  have tidy : ∀ client, (lateFile client).Tidy fileNames exhibits := by
    intro client
    cases client with
    | zero => exact .inl (by decide +kernel)
    | succ client => trivial
  obtain ⟨finds, ends⟩ := (evidence_whole_while_open fileNames exhibits).2.2
    lateFile caseUnderReview _ system looking (by simp [caseUnderReview]) tidy 0
  refine ⟨by decide +kernel, ?_, ?_⟩
  · exact finds [.addEvidence 40 5] rfl (40, 5) (by simp [CaseStmt.links])
  · exact ends (.ok ()) (by decide +kernel) rfl

end Disputes

end KnowledgeMarketplace
