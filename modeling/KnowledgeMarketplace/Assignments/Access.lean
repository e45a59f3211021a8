import KnowledgeMarketplace.Assignments.Convergence
import KnowledgeMarketplace.Files.Access

/-!
# Access of the selected expert

An expert with an order has to see its request and the files of the brief.  Both
decisions go by accepted offers, which pool invitations and direct assignments
do without, and one of them also by whether the expert takes new work.
-/

namespace KnowledgeMarketplace

open Transaction Files

namespace ServiceRequests

/-- `user_can_view`. -/
def userCanView
    (now : Time) (viewer : Option Viewer) (id : RequestId)
    (request : ServiceRequest) (db : Db) : Bool :=
  match viewer with
  | none => false
  | some user =>
      if request.student = user.id || user.isStaff then
        true
      else if !expertIsEligible db user.id then
        false
      else if request.student = user.id then
        true
      else if openForOffers now request && request.mode = .openMarket then
        true
      else
        isSelected user.id id db

end ServiceRequests

open ServiceRequests (userCanView converged expertIsEligible openForOffers)

/-- Operations, and what becomes of experts in the meantime. -/
inductive Change where
  | operation (operation : Operation)
  | application (user : UserId) (approved : Bool)
  | availability (user : UserId) (available : Bool)

namespace Change

/-- The state after a change. -/
def after : Change → Db → Db
  | .operation work, db => work.after db
  | .application user approved, db =>
      (Stmt.saveApplication user approved).apply db
  | .availability user available, db =>
      (Stmt.saveProfile user available).apply db

def afterAll (changes : List Change) (db : Db) : Db :=
  changes.foldl (fun current change => change.after current) db

/-- What every change keeps, a run keeps. -/
theorem afterAll_keeps
    (changes : List Change) {db : Db} (invariant : Db → Prop)
    (kept : ∀ change current, invariant current →
      invariant (Change.after change current))
    (start : invariant db) : invariant (afterAll changes db) := by
  induction changes generalizing db with
  | nil => exact start
  | cons change rest inductionHypothesis =>
      exact inductionHypothesis (kept change db start)

end Change

/-- The expert sees the order's request and may fetch the files of the brief. -/
structure Entrusted
    (now : Time) (links : FileLinks) (files : Table AttachmentId StoredFile)
    (expert : Viewer) (order : Order) (db : Db) : Prop where
  views : ∃ request, db.requests.row order.request = some request ∧
    userCanView now (some expert) order.request request db = true
  downloads : ∀ id file, (order.request, id) ∈ links.briefs →
    files.row id = some file →
      grantDownload links (some expert) id file db = true

/-! ## Orders keep their expert -/

/-- Effects that keep the request and the expert of every order. -/
def binding : Effect Stmt → Prop
  | .write (.saveOrder _ set) => ∀ stored,
      (set stored).request = stored.request ∧
        (set stored).expert = stored.expert
  | _ => True

theorem binding_elsewhere {stmt : Stmt} (other : stmt.table ≠ .orders) :
    binding (.write stmt) := by
  cases stmt <;> simp_all [binding, Stmt.table]

theorem binding_catalog : Catalog binding where
  elsewhere stmt other := binding_elsewhere fun same => other (by simp [same])
  created _ _ _ := trivial
  saved _ _ keeps stored := ⟨keeps.request stored, keeps.expert stored⟩
  frozen _ _ := ⟨rfl, rfl⟩

theorem operation_binding (operation : Operation) :
    operation.call.Emits binding fun _ => True := by
  refine Operation.emits_of_accounts binding_catalog.workflow.ordering trivial
    (fun stmt table => binding_elsewhere fun same => by simp [same] at table)
    (fun _ _ => ⟨rfl, rfl⟩) (fun _ => binding_catalog.workflow.completed)
    (fun _ => binding_catalog.workflow.ended) binding_catalog.workflow.apart
    fun triages => ?_
  by_cases converges : operation.Converges
  · exact converges.emits binding_catalog.founding
  · exact triages.emits
      (fun stmt table => binding_elsewhere fun same => by simp [same] at table)
      converges

/-- The order is of this expert on this request. -/
def BoundTo
    (request : RequestId) (expert : UserId) (key : OrderId) (db : Db) : Prop :=
  ∃ order, db.orders.row key = some order ∧ order.request = request ∧
    order.expert = expert

theorem BoundTo.after
    {request : RequestId} {expert : UserId} {key : OrderId} {db : Db}
    (bound : BoundTo request expert key db) (change : Change) :
    BoundTo request expert key (change.after db) := by
  cases change with
  | operation operation =>
      refine (operation_binding operation).keeps
        (BoundTo request expert key) (fun stmt fine current before => ?_) bound
      obtain ⟨order, stored, about, whose⟩ := before
      cases stmt with
      | insertOrder other value =>
          exact ⟨order, Table.row_insert_of_some other value stored, about,
            whose⟩
      | saveOrder other set =>
          by_cases same : key = other
          · subst same
            obtain ⟨sameRequest, sameExpert⟩ := fine order
            exact ⟨set order, by simp [Stmt.apply, stored],
              sameRequest.trans about, sameExpert.trans whose⟩
          · exact ⟨order, by simp [Stmt.apply, same, stored], about, whose⟩
      | _ => exact ⟨order, stored, about, whose⟩
  | application | availability => exact bound

/-! ## Accepted offers stay accepted -/

/-- Effects that save no other offer. -/
def sparesOffer (key : OfferId) : Effect Stmt → Prop
  | .write (.saveOffer id _) => id ≠ key
  | _ => True

/-- The offer is accepted. -/
def OfferAccepted
    (request : RequestId) (expert : UserId) (key : OfferId) (db : Db) : Prop :=
  ∃ offer, db.offers.row key = some offer ∧ offer.request = request ∧
    offer.expert = expert ∧ offer.status = .accepted

theorem OfferAccepted.apply
    {request : RequestId} {expert : UserId} {key : OfferId} {db : Db}
    {stmt : Stmt} (accepted : OfferAccepted request expert key db)
    (spares : sparesOffer key (.write stmt)) :
    OfferAccepted request expert key (stmt.apply db) := by
  obtain ⟨offer, stored, rest⟩ := accepted
  cases stmt with
  | insertOffer other value =>
      exact ⟨offer, Table.row_insert_of_some other value stored, rest⟩
  | saveOffer other set =>
      exact ⟨offer, by simp [Stmt.apply, Ne.symm spares, stored], rest⟩
  | _ => exact ⟨offer, stored, rest⟩

theorem sparesOffer_elsewhere
    {key : OfferId} {stmt : Stmt} (other : stmt.table ≠ .offers) :
    sparesOffer key (.write stmt) := by
  cases stmt <;> simp_all [sparesOffer, Stmt.table]

theorem sparesOffer_ordering (key : OfferId) : Ordering (sparesOffer key) where
  elsewhere stmt other :=
    sparesOffer_elsewhere fun same => other (by simp [same])
  moved _ _ _ _ _ := by simp [ServiceRequests.transition, sparesOffer]
  saved _ _ _ := trivial
  told _ _ := trivial

/-- Only requests on offers save offers. -/
theorem operation_sparesOffer
    (key : OfferId) {operation : Operation}
    (other : ∀ call, operation ≠ .offer call) :
    operation.call.Emits (sparesOffer key) fun _ => True := by
  refine Operation.emits_of_accounts (sparesOffer_ordering key) trivial
    (fun stmt table =>
      sparesOffer_elsewhere fun same => by simp [same] at table)
    (fun _ => trivial) (fun _ _ _ => trivial) (fun _ _ _ _ => trivial)
    (fun apart => ?_) fun triages => ?_
  · rcases apart with delivers | extending | marks
    · exact delivers.emits (fun _ _ => trivial) (fun _ _ => trivial)
        (fun _ => trivial) fun _ _ => trivial
    · exact extending.emits (fun _ _ => trivial) (fun _ _ => trivial)
        (fun _ _ _ => trivial) (fun _ _ => trivial) (fun _ => trivial)
        fun _ _ => trivial
    · exact marks.emits fun _ _ _ => trivial
  cases operation with
  | request call =>
      cases call <;>
        simp [Operation.call, RequestCall.call, Call.performOn, Call.perform,
          Call.get, Call.exec, ServiceRequests.createRequest,
          ServiceRequests.updateDraft, ServiceRequests.publish,
          ServiceRequests.cancel, ServiceRequests.reopen,
          ServiceRequests.expireDue, ServiceRequests.transition, Tx.create,
          sparesOffer]
  | offer call => exact absurd rfl (other call)
  | managed call =>
      cases call <;>
        simp [Operation.call, ManagedCall.call, Call.performOn, Call.perform,
          Call.get, Assignments.approvePool, Assignments.assignDirect,
          Assignments.supersedeDirect, Assignments.setQuote,
          Assignments.rejectManaged, Assignments.declineInvitation,
          Assignments.declineDirect, Assignments.expireDue,
          Assignments.acceptInvitation, Assignments.acceptDirect,
          Assignments.declineOthers, Assignments.getInvitationForUpdate,
          Assignments.getAssignmentForUpdate, Assignments.matchedGuard,
          Assignments.inviteAll, Assignments.expertGuard, Tx.create,
          Bidding.getRequestForUpdate, Tx.getForUpdate, Tx.get,
          ServiceRequests.markMatched, ServiceRequests.transition,
          Orders.createOrderForRequest, Orders.recordEvent, sparesOffer]
  | _ => exact triages.elim

/-- A copy of an accepted offer is not taken for another. -/
theorem OfferAccepted.other
    {request : RequestId} {expert : UserId} {key id : OfferId} {db : Db}
    {offer : Offer} (accepted : OfferAccepted request expert key db)
    (stored : db.offers.row id = some offer)
    (unaccepted : offer.status ≠ .accepted) :
    id ≠ key := by
  rintro rfl
  obtain ⟨own, present, _, _, status⟩ := accepted
  obtain rfl := Option.some.inj (stored.symm.trans present)
  exact unaccepted status

/-- An acceptance leaves what was accepted before. -/
theorem Acceptance.Matches.accepted_kept
    {acceptance : Acceptance} {chosen proposal : Proposal}
    {request : ServiceRequest} {order : Order} {db next : Db}
    {artifact : Artifact}
    (matched : acceptance.Matches chosen request order db next)
    (stored : db.proposal artifact = some proposal)
    (accepted : proposal.stage = .accepted) :
    next.proposal artifact = some proposal := by
  have different : artifact ≠ acceptance.chosen := by
    rintro rfl
    obtain rfl := Option.some.inj (stored.symm.trans matched.chosen)
    exact nomatch accepted.symm.trans matched.pending
  rw [matched.others artifact different, stored]
  simp [Proposal.settle, accepted]

/-- The same of an offer, by its proposal. -/
theorem offerAccepted_iff
    {request : RequestId} {expert : UserId} {key : OfferId} {db : Db} :
    OfferAccepted request expert key db ↔
      ∃ proposal, db.proposal (.offer key) = some proposal ∧
        proposal.request = request ∧ proposal.expert = expert ∧
          proposal.stage = .accepted := by
  simp [OfferAccepted, Db.proposal]

/-- Requests on offers change pending and withdrawn offers only. -/
theorem OfferAccepted.afterOffer
    {request : RequestId} {expert : UserId} {key : OfferId} {db : Db}
    (accepted : OfferAccepted request expert key db) (call : OfferCall) :
    OfferAccepted request expert key ((Operation.offer call).after db) := by
  have kept : ∀ {service : Call Unit},
      service.Emits (sparesOffer key) (fun _ => True) →
        OfferAccepted request expert key (Request.run service db).2 :=
    fun emits => emits.keeps (OfferAccepted request expert key)
      (fun _ fine _ before => before.apply fine) accepted
  cases call with
  | submit env bidder id amount currency =>
      refine kept ?_
      simp [Operation.call, OfferCall.call, Call.get, Bidding.submit,
        Bidding.expertGuard, Bidding.limitGuard, Bidding.saveOfferCount,
        Tx.create, sparesOffer]
  | update env bidder id amount currency =>
      refine Call.onCopy accepted fun copy found => kept ?_
      simp only [Bidding.updateOffer, Request.emits_bind, Request.emits_load,
        Request.emits_require, Request.emits_ofExcept, Request.emits_orFail,
        Call.exec, Request.emits_atomic, Prog.emits_exec, implies_true,
        and_true]
      intro _ owned _ _ _ _ _ _ _
      have pending := Bidding.pending_of_owned owned
      exact accepted.other (OfferCall.find_offer found) (by simp [pending])
  | withdraw env bidder id =>
      refine Call.onCopy accepted fun copy found => kept ?_
      simp only [Bidding.withdraw, Bidding.saveOfferCount, Request.emits_bind,
        Request.emits_ofExcept, Request.emits_atomic, Prog.emits_bind,
        Prog.emits_exec, Prog.emits_require, sparesOffer, implies_true,
        and_true]
      intro _ owned
      have pending := Bidding.pending_of_owned owned
      exact accepted.other (OfferCall.find_offer found) (by simp [pending])
  | resubmit env bidder id =>
      refine Call.onCopy accepted fun copy found => kept ?_
      simp only [Bidding.resubmit, Bidding.expertGuard, Bidding.limitGuard,
        Bidding.saveOfferCount, Request.emits_bind, Request.emits_require,
        Request.emits_load, Call.exec, Request.emits_atomic, Prog.emits_exec,
        sparesOffer, implies_true, and_true]
      intro _ withdrawn _ _ _ _ _ _
      exact accepted.other (OfferCall.find_offer found) (by simp [withdrawn])
  | decline env student id reason =>
      refine Call.onCopy accepted fun copy found => kept ?_
      simp only [Bidding.decline, Request.emits_bind, Request.emits_require,
        Call.exec, Request.emits_atomic, Prog.emits_exec, sparesOffer,
        implies_true, and_true]
      intro _ pending
      exact accepted.other (OfferCall.find_offer found) (by simp [pending])
  | accept env student id =>
      cases (Acceptance.offer env student id).ends db with
      | failed _ same =>
          have unchanged : (Operation.offer (.accept env student id)).after db =
              db := same
          rwa [unchanged]
      | succeeded _ left =>
          obtain ⟨_, _, _, matched⟩ := left
          obtain ⟨proposal, stored, about, whose, status⟩ :=
            offerAccepted_iff.mp accepted
          exact offerAccepted_iff.mpr ⟨proposal,
            matched.accepted_kept stored status, about, whose, status⟩

theorem OfferAccepted.after
    {request : RequestId} {expert : UserId} {key : OfferId} {db : Db}
    (accepted : OfferAccepted request expert key db) (change : Change) :
    OfferAccepted request expert key (change.after db) := by
  cases change with
  | operation work =>
      by_cases offers : ∃ call, work = .offer call
      · obtain ⟨call, rfl⟩ := offers
        exact accepted.afterOffer call
      · have emits := operation_sparesOffer key (not_exists.mp offers)
        have kept := emits.keeps (OfferAccepted request expert key)
          (fun _ fine _ before => before.apply fine) accepted
        exact kept
  | application | availability => exact accepted

/-! ## Orders without an offer -/

/-- The request has converged without accepting an offer. -/
structure Offerless (request : RequestId) (db : Db) : Prop where
  converged : Lifecycle.ConvergedAt request db.lifecycle
  none : ∀ key proposal, db.proposal (.offer key) = some proposal →
    proposal.request = request → proposal.stage ≠ .accepted

/-- A request that an acceptance matches has not converged. -/
theorem Acceptance.Matches.not_converged
    {acceptance : Acceptance} {chosen : Proposal} {request : ServiceRequest}
    {order : Order} {db next : Db}
    (matched : acceptance.Matches chosen request order db next) :
    ¬Lifecycle.ConvergedAt chosen.request db.lifecycle := by
  intro before
  obtain ⟨row, stored, holds⟩ := convergedAt_iff.mp before
  obtain rfl := Option.some.inj (stored.symm.trans matched.requestRow)
  have unmatched := matched.unmatched
  revert unmatched holds
  cases row.status <;> simp [converged, ServiceRequests.transitions]

theorem Lifecycle.ConvergedAt.afterChange
    {request : RequestId} {db : Db}
    (before : Lifecycle.ConvergedAt request db.lifecycle) (change : Change) :
    Lifecycle.ConvergedAt request (change.after db).lifecycle := by
  cases change with
  | operation work => exact work.keeps_converged before
  | application | availability => exact before

theorem Offerless.after
    {request : RequestId} {db : Db} (offerless : Offerless request db)
    (change : Change) : Offerless request (change.after db) := by
  refine ⟨offerless.converged.afterChange change,
    fun key proposal found about accepted => ?_⟩
  cases change with
  | operation work =>
      rcases Operation.accepted_after found accepted with
        earlier | ⟨_, chosen, _, _, matched, same⟩
      · exact offerless.none key proposal earlier about accepted
      · exact matched.not_converged (same ▸ about ▸ offerless.converged)
  | application | availability =>
      exact offerless.none key proposal found about accepted

/-! ## What the decisions grant -/

/-- The request of the order is the expert's own. -/
def ownsRequest (expert : UserId) (request : RequestId) (db : Db) : Bool :=
  (db.requests.row request).any (·.student = expert)

/-- The expert takes new work. -/
def takesWork (expert : UserId) (db : Db) : Bool :=
  (db.experts.row expert).any (·.available)

/-- Both decisions about a converged request, for an approved expert. -/
theorem entrusted_iff_selected
    {now : Time} {links : FileLinks} {files : Table AttachmentId StoredFile}
    {expert : Viewer} {order : Order} {db : Db}
    (cleaned : Cleaned links files db)
    (approved : (db.experts.row expert.id).any (·.approved) = true)
    (matched : Lifecycle.ConvergedAt order.request db.lifecycle) :
    Entrusted now links files expert order db ↔
      expert.isStaff = true ∨ ownsRequest expert.id order.request db = true ∨
        takesWork expert.id db = true ∧
          isSelected expert.id order.request db = true := by
  obtain ⟨request, stored, holds⟩ := convergedAt_iff.mp matched
  obtain ⟨row, present, approved⟩ := (Option.any_eq_true _ _).mp approved
  have closed : openForOffers now request = false := by
    cases status : request.status <;>
      simp_all [openForOffers, converged]
  have eligible : expertIsEligible db expert.id = takesWork expert.id db := by
    simp [expertIsEligible, takesWork, present, approved]
  constructor
  · rintro ⟨⟨found, there, views⟩, _⟩
    obtain rfl := Option.some.inj (stored.symm.trans there)
    by_cases staff : expert.isStaff = true
    · exact .inl staff
    by_cases own : request.student = expert.id
    · exact .inr (.inl (by simp [ownsRequest, stored, own]))
    · refine .inr (.inr ?_)
      simpa [userCanView, staff, own, eligible, closed] using views
  · rintro (staff | own | ⟨available, selected⟩)
    · refine ⟨⟨request, stored, by simp [userCanView, staff]⟩,
        fun id file _ _ => ?_⟩
      simp [grantDownload, staff]
    · have same : request.student = expert.id := by
        simpa [ownsRequest, stored] using own
      refine ⟨⟨request, stored, by simp [userCanView, same]⟩,
        fun id file attached kept => ?_⟩
      obtain ⟨brief, there, uploader, _⟩ :=
        cleaned order.request id request attached stored
      obtain rfl := Option.some.inj (kept.symm.trans there)
      exact grantDownload_own (same.symm.trans uploader.symm)
    · refine ⟨⟨request, stored, ?_⟩, fun id file attached kept => ?_⟩
      · simp [userCanView, eligible, available, selected]
      · obtain ⟨brief, there, _, purpose⟩ :=
          cleaned order.request id request attached stored
        obtain rfl := Option.some.inj (kept.symm.trans there)
        exact grantDownload_selected purpose attached selected

/-! ## Orders of every source -/

theorem AcceptedConverged.afterChange
    {db : Db} (accepted : AcceptedConverged db) (change : Change) :
    AcceptedConverged (change.after db) := by
  cases change with
  | operation work => exact accepted.after work
  | application | availability => exact accepted

/-- The order comes from an open offer. -/
def Acceptance.TakesOffer : Acceptance → Prop
  | .offer _ _ _ => True
  | .invitation _ _ _ _ | .assignment _ _ _ => False

/-- What an acceptance settles about the expert and the request for good. -/
structure Engaged
    (acceptance : Acceptance) (request : RequestId) (expert : UserId)
    (db : Db) : Prop where
  bound : BoundTo request expert acceptance.key db
  converged : Lifecycle.ConvergedAt request db.lifecycle
  offered : acceptance.TakesOffer →
    ∃ key, OfferAccepted request expert key db
  unoffered : ¬acceptance.TakesOffer → Offerless request db

/-- An acceptance that succeeds engages the expert. -/
theorem Acceptance.Matches.engaged
    {acceptance : Acceptance} {chosen : Proposal} {request : ServiceRequest}
    {order : Order} {db : Db} (accepted : AcceptedConverged db)
    (matched : acceptance.Matches chosen request order db
      (acceptance.operation.after db)) :
    Engaged acceptance chosen.request chosen.expert
      (acceptance.operation.after db) where
  bound := ⟨order, matched.orderRow, matched.about, matched.expert⟩
  converged := convergedAt_iff.mpr ⟨_, matched.matched, rfl⟩
  offered takes := by
    cases acceptance with
    | offer env student id =>
        exact ⟨id, offerAccepted_iff.mpr ⟨_, matched.accepted, rfl, rfl, rfl⟩⟩
    | invitation | assignment => exact takes.elim
  unoffered other := by
    refine ⟨convergedAt_iff.mpr ⟨_, matched.matched, rfl⟩,
      fun key proposal found about stage => ?_⟩
    have different : Artifact.offer key ≠ acceptance.chosen := by
      cases acceptance with
      | offer => exact absurd trivial other
      | invitation | assignment => exact nofun
    obtain ⟨earlier, stored, rfl⟩ := Option.map_eq_some_iff.mp
      ((matched.others (.offer key) different).symm.trans found)
    -- it was accepted before, when the request had not converged
    unfold Proposal.settle at stage about
    split_ifs at stage about with closes
    · exact nomatch stage
    · have before := accepted (.offer key) earlier stored stage
      rw [about] at before
      exact matched.not_converged (convergedAt_iff.mpr before)

theorem Engaged.after
    {acceptance : Acceptance} {request : RequestId} {expert : UserId} {db : Db}
    (engaged : Engaged acceptance request expert db) (change : Change) :
    Engaged acceptance request expert (change.after db) where
  bound := engaged.bound.after change
  converged := engaged.converged.afterChange change
  offered takes := by
    obtain ⟨key, accepted⟩ := engaged.offered takes
    exact ⟨key, accepted.after change⟩
  unoffered other := (engaged.unoffered other).after change

/-- An engaged expert is selected if an offer was accepted, and only then. -/
theorem Engaged.isSelected_iff
    {acceptance : Acceptance} {request : RequestId} {expert : UserId} {db : Db}
    (engaged : Engaged acceptance request expert db) :
    isSelected expert request db = true ↔ acceptance.TakesOffer := by
  rw [isSelected_eq_true]
  constructor
  · rintro ⟨key, offer, stored, about, _, accepted⟩
    by_contra other
    exact (engaged.unoffered other).none key offer.proposal
      (by simp [Db.proposal, stored]) about (by simp [accepted])
  · intro takes
    exact engaged.offered takes

/--
However the order came about and whatever happens later, its approved expert
sees the request and may fetch its files if and only if the expert is staff, or
has made the request, or was selected by an open offer and takes new work.
-/
theorem entrusted_iff
    (start : Db) (accepted : AcceptedConverged start) (before : List Change)
    (acceptance : Acceptance)
    (ok : (Request.run acceptance.operation.call
      (Change.afterAll before start)).1 = .ok ())
    (later : List Change) :
    let reached := Change.afterAll later
      (acceptance.operation.after (Change.afterAll before start))
    ∃ order, reached.orders.row acceptance.key = some order ∧
      ∀ now links files isStaff, Cleaned links files reached →
        (reached.experts.row order.expert).any (·.approved) = true →
        (Entrusted now links files ⟨order.expert, isStaff⟩ order reached ↔
          isStaff = true ∨
            ownsRequest order.expert order.request reached = true ∨
            takesWork order.expert reached = true ∧ acceptance.TakesOffer) := by
  intro reached
  have found : AcceptedConverged (Change.afterAll before start) :=
    Change.afterAll_keeps before AcceptedConverged
      (fun change _ holds => holds.afterChange change) accepted
  cases acceptance.ends (Change.afterAll before start) with
  | failed fails _ => exact absurd ok fails
  | succeeded _ left =>
      obtain ⟨chosen, request, created, matched⟩ := left
      have engaged : Engaged acceptance chosen.request chosen.expert reached :=
        Change.afterAll_keeps later _ (fun change _ holds => holds.after change)
          (Acceptance.Matches.engaged found matched)
      obtain ⟨order, stored, about, whose⟩ := engaged.bound
      refine ⟨order, stored, fun now links files isStaff cleaned approved => ?_⟩
      have selected := engaged.isSelected_iff
      rw [← about, ← whose] at selected
      rw [entrusted_iff_selected cleaned approved (about ▸ engaged.converged),
        selected]

/-- An open request with an offer. -/
def soleOffer : Db :=
  { experts := .insert .empty 2 ⟨true, true, [1]⟩
    requests := .insert .empty 10
      { student := 1, status := .opened, offerCount := 1 }
    offers := .insert .empty 20 { request := 10, expert := 2, amount := 5000 } }

/-- The file of the brief. -/
def briefs : FileLinks where
  briefs := [(10, 7)]

def uploads : Table AttachmentId StoredFile :=
  .insert .empty 7 { uploader := 1, purpose := .requestBrief }

/-- The brief is the student's, in both settings. -/
theorem briefs_cleaned {db : Db}
    (student : (db.requests.row 10).map ServiceRequest.student = some 1) :
    Cleaned briefs uploads db := by
  intro about id row attached stored
  simp only [briefs, List.mem_singleton, Prod.mk.injEq] at attached
  obtain ⟨rfl, rfl⟩ := attached
  have same : row.student = 1 := by simpa [stored] using student
  exact ⟨{ uploader := 1, purpose := .requestBrief }, rfl, same.symm, rfl⟩

/-- An expert selected by an open offer pauses and returns. -/
theorem entrusted_returned :
    let reached := Change.afterAll
      [.availability 2 false, .availability 2 true]
      ((Acceptance.offer { now := 1, key := 40 } ⟨1, false⟩ 20).operation.after
        soleOffer)
    ∃ order, reached.orders.row 40 = some order ∧
      Entrusted 2 briefs uploads ⟨order.expert, false⟩ order reached := by
  intro reached
  have accepted : AcceptedConverged soleOffer := by
    intro artifact proposal stored stage
    cases artifact with
    | offer id =>
        by_cases same : id = 20
        · subst same
          obtain rfl := Option.some.inj stored
          exact nomatch stage
        · simp [Db.proposal, soleOffer, same] at stored
    | invitation | assignment => simp [Db.proposal, soleOffer] at stored
  obtain ⟨order, stored, holds⟩ := entrusted_iff soleOffer accepted []
    (.offer { now := 1, key := 40 } ⟨1, false⟩ 20) (by decide +kernel)
    [.availability 2 false, .availability 2 true]
  have whose : (reached.orders.row 40).map Order.expert = some 2 := by
    decide +kernel
  have expert : order.expert = 2 := by
    simpa [show reached.orders.row 40 = some order from stored] using whose
  refine ⟨order, stored, (holds 2 briefs uploads false ?_ ?_).mpr
    (.inr (.inr ⟨?_, trivial⟩))⟩
  · exact briefs_cleaned (by decide +kernel)
  · rw [expert]
    decide +kernel
  · rw [expert]
    decide +kernel

/-- An invited expert who accepts, available all along, is refused both. -/
theorem pooled_refused :
    let reached := (Acceptance.invitation { now := 1, key := 40 } ⟨2, false⟩ 20
      none).operation.after (pooling.after reviewed)
    AcceptedConverged reviewed ∧ Cleaned briefs uploads reached ∧
      (reached.experts.row 2).map (fun row => (row.approved, row.available)) =
        some (true, true) ∧
      (reached.orders.row 40).map (fun order =>
        (order.expert, order.request)) = some (2, 10) ∧
      (reached.requests.row 10).map (fun request =>
        ServiceRequests.userCanView 2 (some ⟨2, false⟩) 10 request reached) =
          some false ∧
      grantDownload briefs (some ⟨2, false⟩) 7
        { uploader := 1, purpose := .requestBrief } reached = false := by
  intro reached
  refine ⟨reviewed_accepted, ?_, by decide +kernel, by decide +kernel,
    by decide +kernel, by decide +kernel⟩
  exact briefs_cleaned (by decide +kernel)

end KnowledgeMarketplace
