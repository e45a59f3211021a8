import KnowledgeMarketplace.Operations
import KnowledgeMarketplace.Transaction.Journal

/-!
# What is published is complete

A student's publication checks the copy that its view has read, stamps the
attestation and moves the status with two separate saves.  An edit of the same
draft saves every column of its own copy.
-/

namespace KnowledgeMarketplace

open Transaction

namespace ServiceRequests

/-- Attested, and with every field that a publication needs. -/
structure Complete (request : ServiceRequest) : Prop where
  fields : missingFields request = []
  attested : request.integrityAttestedAt.isSome = true

/-- Where the request is neither a draft nor cancelled, it is complete. -/
def Published (id : RequestId) (db : Db) : Prop :=
  ∀ request, db.requests.row id = some request →
    request.status ≠ .draft → request.status ≠ .cancelled → Complete request

/-- Edits and publications of one request. -/
def Edits (id : RequestId) : Operation → Prop
  | .request (.updateDraft _ _ key _) | .request (.publish _ _ key _) => key = id
  | _ => False

/-- Where a publication moves the request. -/
def published (request : ServiceRequest) : RequestStatus :=
  if request.mode = .managed then .inReview else .opened

/-- A copy that a publication accepts, and that it can move. -/
def Publishable (request : ServiceRequest) : Prop :=
  missingFields request = [] ∧
    (transitions request.status (published request)).isSome = true

/-- A save that leaves the checked fields alone. -/
structure Stamps (set : ServiceRequest → ServiceRequest) : Prop where
  fields : ∀ stored, missingFields (set stored) = missingFields stored
  status : ∀ stored, (set stored).status = stored.status
  attested : ∀ stored, (set stored).integrityAttestedAt.isSome = true

/-- A save that moves the status and leaves the rest alone. -/
structure Opens (set : ServiceRequest → ServiceRequest) : Prop where
  fields : ∀ stored, missingFields (set stored) = missingFields stored
  attested : ∀ stored,
    (set stored).integrityAttestedAt = stored.integrityAttestedAt

/-- What a publication commits: first the stamp, then the status. -/
def Publishes
    (id : RequestId) (notes : Progress Db) (stmts : List Stmt) : Prop :=
  ∃ look request loaded set, notes.looked = some look ∧
    look.requests.row id = some request ∧ missingFields request = [] ∧
    stmts = [.saveRequest id loaded set] ∧
    (notes.commits = 0 ∧ Stamps set ∨
      0 < notes.commits ∧ Publishable request ∧ Opens set)

/-- What an edit commits: the whole copy, with the payload's fields. -/
def Drafts
    (id : RequestId) (payload : Payload) (notes : Progress Db)
    (stmts : List Stmt) : Prop :=
  ∃ look draft, notes.looked = some look ∧
    look.requests.row id = some draft ∧ draft.status = .draft ∧
    stmts = [.saveRequest id .draft fun _ => payload.assign draft]

/-- What the operations on a request promise of their commits. -/
def promises (id : RequestId) :
    Operation → Progress Db → List Stmt → Prop
  | .request (.updateDraft _ _ _ payload) => Drafts id payload
  | .request (.publish _ _ _ _) => Publishes id
  | _ => fun _ _ => True

theorem stamps_attestation (attested : Option Time) (version : String)
    (there : attested.isSome = true) :
    Stamps fun stored =>
      { stored with
        integrityAttestedAt := attested, integrityPolicyVersion := version } :=
  ⟨fun _ => rfl, fun _ => rfl, fun _ => there⟩

theorem stamps_expiry (attested expires : Option Time) (version : String)
    (there : attested.isSome = true) :
    Stamps fun stored =>
      { stored with
        integrityAttestedAt := attested
        integrityPolicyVersion := version
        expiresAt := expires } :=
  ⟨fun _ => rfl, fun _ => rfl, fun _ => there⟩

/-- An edit saves its first look with the payload. -/
theorem updateDraft_drafts
    (env : Env) (owner : UserId) (id : RequestId) (payload : Payload) :
    (RequestCall.updateDraft env owner id payload).call.Follows
      Journal.progress (Drafts id payload) {} [] fun _ _ _ => True := by
  simp only [RequestCall.call, Call.performOn, Call.get, Request.follows_bind,
    Request.follows_load, Request.follows_orFail, applyAll_nil, implies_true,
    and_true]
  intro look draft found
  refine Request.follows_atomic (fun _ => rfl) ?_
  simp only [updateDraft, Prog.wp_bind, Prog.wp_require, Prog.wp_ofExcept,
    Prog.wp_exec, Prog.wp_pure, Ctx.start_writes, Ctx.push_writes,
    List.nil_append, implies_true, and_true]
  intro _ draftStatus _ _ _ _ _ _ _ _
  rw [draftStatus]
  exact ⟨look, draft, rfl, found, draftStatus, rfl⟩

/-- The second commit of a publication. -/
theorem transition_publishes
    {env : Env} {id : RequestId} {request copy : ServiceRequest}
    {look : Db} {count : Nat}
    (found : look.requests.row id = some request)
    (complete : missingFields request = [])
    (status : copy.status = request.status) (positive : 0 < count) :
    (Call.atomic (transition env id copy (published request) "")).Follows
      Journal.progress (Publishes id) ⟨some look, count⟩ []
      fun _ _ _ => True := by
  refine Request.follows_atomic (fun _ => rfl) ?_
  simp only [transition, Prog.wp_bind, Prog.wp_require, Prog.wp_exec,
    Prog.wp_pure, Ctx.start_writes, Ctx.push_writes, List.nil_append,
    implies_true, and_true]
  intro edge
  rw [status] at edge
  exact ⟨look, request, copy.status, _, rfl, found, complete, rfl,
    .inr ⟨positive, ⟨complete, edge⟩, ⟨fun _ => rfl, fun _ => rfl⟩⟩⟩

/-- A publication stamps its first look, then moves it. -/
theorem publish_publishes
    (env : Env) (owner : UserId) (id : RequestId) (attested : Bool) :
    (RequestCall.publish env owner id attested).call.Follows
      Journal.progress (Publishes id) {} [] fun _ _ _ => True := by
  simp only [RequestCall.call, Call.get, Call.exec, publish,
    Request.follows_bind, Request.follows_load, Request.follows_orFail,
    Request.follows_require, Request.follows_ite, Request.follows_exec,
    Request.follows_pure, applyAll_nil, implies_true, and_true]
  intro look request found _ _ complete
  have second : ∀ copy : ServiceRequest, copy.status = request.status →
      (Call.atomic (transition env id copy (published request) "")).Follows
        Journal.progress (Publishes id) ⟨some look, 1⟩ []
        fun _ _ _ => True :=
    fun copy status => transition_publishes found complete status Nat.one_pos
  refine ⟨fun managed => ⟨?_, ?_⟩, fun managed => ⟨?_, ?_⟩⟩
  · exact ⟨look, request, _, _, rfl, found, complete, rfl,
      .inl ⟨rfl, stamps_attestation _ _ rfl⟩⟩
  · have moves := second { request with
      integrityAttestedAt := some env.now
      integrityPolicyVersion := integrityPolicyVersion } rfl
    rw [published, if_pos managed] at moves
    refine moves.mono ?_
    rintro (error | value) _ _ _ <;> trivial
  · exact ⟨look, request, _, _, rfl, found, complete, rfl,
      .inl ⟨rfl, stamps_expiry _ _ _ rfl⟩⟩
  · have moves := second { request with
      integrityAttestedAt := some env.now
      integrityPolicyVersion := integrityPolicyVersion
      expiresAt := some (env.now + days requestTtlDays) } rfl
    rw [published, if_neg managed] at moves
    refine moves.mono ?_
    rintro (error | value) _ _ _ <;> trivial

/-- Edits and publications keep their promises. -/
theorem edits_follow
    {id : RequestId} {operation : Operation} (edits : Edits id operation) :
    operation.call.Follows Journal.progress (promises id operation) {} []
      fun _ _ _ => True := by
  rcases operation with call | _ | _ | _ | _ | _ <;> try exact edits.elim
  cases call with
  | updateDraft env owner key payload =>
      obtain rfl : key = id := edits
      exact updateDraft_drafts env owner key payload
  | publish env owner key attested =>
      obtain rfl : key = id := edits
      exact publish_publishes env owner key attested
  | _ => exact edits.elim

/-! ## Edits beside a publication -/

/-- A publication that has read a copy which it accepts. -/
def Publishing
    (id : RequestId) (operation : Operation) (notes : Progress Db) : Prop :=
  ∃ env owner attested look request,
    operation = .request (.publish env owner id attested) ∧
      notes.looked = some look ∧ look.requests.row id = some request ∧
      Publishable request

/--
While a publication is under way, nobody saves a draft with a required field
empty, nor, once it has stamped, a copy that was read before the stamp.
-/
def Undisturbed
    (operations : Nat → Operation) (id : RequestId)
    (notes : Nat → Progress Db) (client : Nat) (_ : List Stmt) (_ : Db) :
    Prop :=
  ∀ publisher, Publishing id (operations publisher) (notes publisher) →
    ∀ env owner payload look draft,
      operations client = .request (.updateDraft env owner id payload) →
      (notes client).looked = some look →
      look.requests.row id = some draft →
        missingFields (payload.assign draft) = [] ∧
          (0 < (notes publisher).commits →
            draft.integrityAttestedAt.isSome = true)

/-- What a publication under way relies on, after its commits. -/
structure Relied (id : RequestId) (commits : Nat) (db : Db) : Prop where
  fields : ∀ request, db.requests.row id = some request →
    missingFields request = []
  attested : 0 < commits → ∀ request, db.requests.row id = some request →
    request.integrityAttestedAt.isSome = true

/-- The published request is complete, and whoever publishes can go on. -/
structure Intact
    (operations : Nat → Operation) (id : RequestId)
    (notes : Nat → Progress Db) (db : Db) : Prop where
  published : Published id db
  waits : ∀ client, (notes client).looked = none → (notes client).commits = 0
  relied : ∀ client, Publishing id (operations client) (notes client) →
    Relied id (notes client).commits db

theorem row_saveRequest
    {id : RequestId} {loaded : RequestStatus}
    {set : ServiceRequest → ServiceRequest} {db : Db} {request : ServiceRequest}
    (stored : (applyAll [Stmt.saveRequest id loaded set] db).requests.row id =
      some request) :
    ∃ before, db.requests.row id = some before ∧ request = set before := by
  change (db.requests.modify id set).row id = some request at stored
  rw [Table.row_modify_self] at stored
  obtain ⟨before, present, same⟩ := Option.map_eq_some_iff.mp stored
  exact ⟨before, present, same.symm⟩

section Steps

variable {operations : Nat → Operation} {id : RequestId}
  {notes : Nat → Progress Db} {db : Db} {client : Nat}

/-- A first look finds what a publication relies on. -/
theorem Intact.look (intact : Intact operations id notes db) :
    Intact operations id (Function.update notes client
      { notes client with looked := (notes client).looked.or (some db) })
      db := by
  refine ⟨intact.published, ?_, ?_⟩
  · rw [Function.forall_update_iff notes fun _ (page : Progress Db) =>
      page.looked = none → page.commits = 0]
    exact ⟨by simp, fun other _ => intact.waits other⟩
  · rw [Function.forall_update_iff notes fun other (page : Progress Db) =>
      Publishing id (operations other) page → Relied id page.commits db]
    refine ⟨?_, fun other _ => intact.relied other⟩
    rintro ⟨env, owner, attested, look, request, same, looked, found, fits⟩
    cases earlier : (notes client).looked with
    | some seen =>
        refine intact.relied client
          ⟨env, owner, attested, look, request, same, ?_, found, fits⟩
        simpa [earlier] using looked
    | none =>
        obtain rfl : db = look := by simpa [earlier] using looked
        refine ⟨fun stored present => ?_, fun positive => ?_⟩
        · obtain rfl := Option.some.inj (present.symm.trans found)
          exact fits.1
        · exact absurd (intact.waits client earlier) positive.ne'

/-- A request that has ended relies on nothing. -/
theorem Intact.close (intact : Intact operations id notes db) :
    Intact operations id (Function.update notes client {}) db := by
  refine ⟨intact.published, ?_, ?_⟩
  · rw [Function.forall_update_iff notes fun _ (page : Progress Db) =>
      page.looked = none → page.commits = 0]
    exact ⟨fun _ => rfl, fun other _ => intact.waits other⟩
  · rw [Function.forall_update_iff notes fun other (page : Progress Db) =>
      Publishing id (operations other) page → Relied id page.commits db]
    refine ⟨?_, fun other _ => intact.relied other⟩
    rintro ⟨env, owner, attested, look, request, same, looked, _⟩
    simp at looked

/-- A commit after a look, if the others can go on and the client itself too. -/
theorem Intact.next
    {next : Db} {look : Db} (intact : Intact operations id notes db)
    (looked : (notes client).looked = some look)
    (published : Published id next)
    (others : ∀ other, Publishing id (operations other) (notes other) →
      Relied id (notes other).commits next)
    (own : Publishing id (operations client) (notes client) →
      Relied id ((notes client).commits + 1) next) :
    Intact operations id (Function.update notes client
      { notes client with commits := (notes client).commits + 1 }) next := by
  refine ⟨published, ?_, ?_⟩
  · rw [Function.forall_update_iff notes fun _ (page : Progress Db) =>
      page.looked = none → page.commits = 0]
    exact ⟨by simp [looked], fun other _ => intact.waits other⟩
  · rw [Function.forall_update_iff notes fun other (page : Progress Db) =>
      Publishing id (operations other) page → Relied id page.commits next]
    exact ⟨own, fun other _ => others other⟩

/-- The stamp attests the stored request. -/
theorem Intact.stamp
    {look : Db} {loaded : RequestStatus}
    {set : ServiceRequest → ServiceRequest}
    (intact : Intact operations id notes db)
    (looked : (notes client).looked = some look) (stamps : Stamps set) :
    Intact operations id (Function.update notes client
      { notes client with commits := (notes client).commits + 1 })
      (applyAll [.saveRequest id loaded set] db) := by
  have relied : ∀ other commits,
      Publishing id (operations other) (notes other) →
      Relied id commits (applyAll [.saveRequest id loaded set] db) := by
    intro other commits publishing
    refine ⟨fun request stored => ?_, fun _ request stored => ?_⟩
    · obtain ⟨before, present, rfl⟩ := row_saveRequest stored
      rw [stamps.fields]
      exact (intact.relied other publishing).fields before present
    · obtain ⟨before, _, rfl⟩ := row_saveRequest stored
      exact stamps.attested before
  refine intact.next looked ?_ (fun other => relied other _) (relied client _)
  intro request stored notDraft notCancelled
  obtain ⟨before, present, rfl⟩ := row_saveRequest stored
  rw [stamps.status] at notDraft notCancelled
  have complete := intact.published before present notDraft notCancelled
  exact ⟨(stamps.fields before).trans complete.fields, stamps.attested before⟩

/-- The status moves to where the stored request may be. -/
theorem Intact.opened
    {look : Db} {loaded : RequestStatus}
    {set : ServiceRequest → ServiceRequest}
    (intact : Intact operations id notes db)
    (looked : (notes client).looked = some look)
    (publishing : Publishing id (operations client) (notes client))
    (stamped : 0 < (notes client).commits) (opens : Opens set) :
    Intact operations id (Function.update notes client
      { notes client with commits := (notes client).commits + 1 })
      (applyAll [.saveRequest id loaded set] db) := by
  have relied : ∀ commits, Relied id commits db →
      Relied id commits (applyAll [.saveRequest id loaded set] db) := by
    intro commits before
    refine ⟨fun request stored => ?_, fun positive request stored => ?_⟩
    · obtain ⟨old, present, rfl⟩ := row_saveRequest stored
      exact (opens.fields old).trans (before.fields old present)
    · obtain ⟨old, present, rfl⟩ := row_saveRequest stored
      rw [opens.attested]
      exact before.attested positive old present
  have mine := intact.relied client publishing
  refine intact.next looked ?_
    (fun other running => relied _ (intact.relied other running))
    fun _ => relied _ ⟨mine.fields, fun _ => mine.attested stamped⟩
  intro request stored _ _
  obtain ⟨before, present, rfl⟩ := row_saveRequest stored
  refine ⟨(opens.fields before).trans (mine.fields before present), ?_⟩
  rw [opens.attested]
  exact mine.attested stamped before present

/-- An allowed commit keeps what the publications under way rely on. -/
theorem Intact.commit
    {stmts : List Stmt} (intact : Intact operations id notes db)
    (edits : Edits id (operations client))
    (allowed : Undisturbed operations id notes client stmts db)
    (promised : promises id (operations client) (notes client) stmts) :
    Intact operations id (Function.update notes client
      { notes client with commits := (notes client).commits + 1 })
      (applyAll stmts db) := by
  rcases shape : operations client with call | _ | _ | _ | _ | _ <;>
    rw [shape] at edits promised <;> try exact edits.elim
  cases call with
  | updateDraft env owner key payload =>
      obtain rfl : key = id := edits
      obtain ⟨look, draft, looked, found, status, rfl⟩ := promised
      have relied : ∀ other,
          Publishing key (operations other) (notes other) →
          Relied key (notes other).commits (applyAll [.saveRequest key .draft
            fun _ => payload.assign draft] db) := by
        intro other publishing
        obtain ⟨fields, attested⟩ := allowed other publishing env owner payload
          look draft shape looked found
        refine ⟨fun request stored => ?_, fun positive request stored => ?_⟩
        · obtain ⟨_, _, rfl⟩ := row_saveRequest stored
          exact fields
        · obtain ⟨_, _, rfl⟩ := row_saveRequest stored
          exact attested positive
      refine intact.next looked ?_ relied ?_
      · intro request stored notDraft _
        obtain ⟨_, _, rfl⟩ := row_saveRequest stored
        exact absurd status notDraft
      · rintro ⟨_, _, _, _, _, same, _⟩
        simp [shape] at same
  | publish env owner key attested =>
      obtain rfl : key = id := edits
      obtain ⟨look, request, loaded, set, looked, found, _, rfl, stage⟩ :=
        promised
      rcases stage with ⟨_, stamps⟩ | ⟨stamped, fits, opens⟩
      · exact intact.stamp looked stamps
      · exact intact.opened looked
          ⟨env, owner, attested, look, request, shape, looked, found, fits⟩
          stamped opens
  | _ => exact edits.elim

end Steps

/--
In any interleaving of edits and publications of one request where no edit
disturbs a publication under way, what is neither a draft nor cancelled is
complete in every committed state.
-/
theorem published_complete
    {db : Db} {operations : Nat → Operation} {id : RequestId}
    {notes : Nat → Progress Db} {system : Marketplace}
    (edits : ∀ client, Edits id (operations client))
    (noted : System.Noted Journal.progress (Undisturbed operations id) {} db
      (fun client => (operations client).call) notes system)
    (initial : Published id db) : Published id system.committed := by
  have blank : Intact operations id (fun _ => {}) db := by
    refine ⟨initial, fun _ _ => rfl, ?_⟩
    rintro client ⟨env, owner, attested, look, request, same, looked, _⟩
    simp at looked
  have kept : _ ∧ Intact operations id notes system.committed :=
    noted.keeps (fun client => edits_follow (edits client)) blank
      (fun _ _ _ intact => intact.look)
      (fun _ client _ _ allowed promised intact =>
        intact.commit (edits client) allowed promised)
      (fun _ _ _ _ _ intact => intact.close) fun _ _ _ intact => intact.close
  exact kept.2.published

/-- A draft that can be published. -/
def drafted : Db :=
  { requests := .insert .empty 10
      { student := 1
        title := "Report"
        description := "A report on the survey."
        subject := some 3
        budgetMax := some 5000 } }

/-- The student publishes the draft, and corrects its title meanwhile. -/
def editors : Nat → Operation
  | 0 => .request (.publish { now := hours 1, key := 80 } 1 10 true)
  | _ => .request (.updateDraft { now := hours 1, key := 81 } 1 10
      { title := some "Survey report" })

theorem editors_edit (client : Nat) : Edits 10 (editors client) := by
  rcases client with _ | client <;> exact rfl

theorem drafted_published : Published 10 drafted := by
  intro request stored notDraft _
  obtain rfl : _ = request := Option.some.inj stored
  exact absurd rfl notDraft

/-- The edit reads the draft before the stamp and saves it after the stamp. -/
def staleEdit : List Turn :=
  turns 1 1 ++ turns 0 3 ++ turns 1 2 ++ turns 0 2

/-- The stale edit wipes out the attestation of a request that then opens. -/
theorem publish_opens_unattested :
    (∀ client, Edits 10 (editors client)) ∧ Published 10 drafted ∧
      ¬Published 10
        ((Marketplace.start drafted editors).runAll staleEdit).committed := by
  refine ⟨editors_edit, drafted_published, fun published => ?_⟩
  have opened : ∃ request,
      ((Marketplace.start drafted editors).runAll
        staleEdit).committed.requests.row 10 = some request ∧
      request.status = .opened ∧ request.integrityAttestedAt = none :=
    ⟨_, rfl, rfl, rfl⟩
  obtain ⟨request, stored, status, unattested⟩ := opened
  have complete := published request stored (by simp [status])
    (by simp [status])
  have attested := complete.attested
  simp [unattested] at attested

/-- Undisturbed, the draft opens complete. -/
theorem published_complete_alone :
    ∃ request, ((Marketplace.start drafted editors).runAll
        (turns 0 5)).committed.requests.row 10 = some request ∧
      request.status = .opened ∧ Complete request := by
  have begun : System.Noted Journal.progress (Undisturbed editors 10) {} drafted
      (fun client => (editors client).call) _
      (Marketplace.start drafted editors) := .start
  have always : ∀ notes stmts state,
      Undisturbed editors 10 notes 0 stmts state := by
    rintro _ _ _ _ _ _ _ _ _ _ ⟨⟩
  have noted := begun.runs always 5
  have published := published_complete editors_edit noted drafted_published
  exact ⟨_, rfl, rfl, published _ rfl (by decide) (by decide)⟩

end ServiceRequests

end KnowledgeMarketplace
