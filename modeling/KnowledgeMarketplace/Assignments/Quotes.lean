import KnowledgeMarketplace.Assignments.Artifacts
import KnowledgeMarketplace.Operations.Effects
import KnowledgeMarketplace.Transaction.Alone

/-!
# The price of a managed request

An invitation is booked at the request's quote, a direct assignment at its own
amount.  The two agree as long as no step sets a quote that a pending
assignment of the request does not have.
-/

namespace KnowledgeMarketplace

open Transaction

/-- Pending assignments of the request propose this amount. -/
def AssignedAt (id : RequestId) (amount : Option Int) (db : Db) : Prop :=
  ∀ key assignment, db.assignments.row key = some assignment →
    assignment.request = id → assignment.status = .pending →
    amount = some assignment.amount

/-- Pending assignments propose the quotes of their requests. -/
def QuotesAgree (db : Db) : Prop :=
  ∀ key assignment, db.assignments.row key = some assignment →
    assignment.status = .pending →
    ∃ request, db.requests.row assignment.request = some request ∧
      request.quoteAmount = some assignment.amount

/-! ## Statements that leave quotes and proposals alone -/

/-- Statements that set no quote and propose no assignment. -/
def pricing : Effect Stmt → Prop
  | .write (.saveRequest _ _ set) =>
      ∀ stored, (set stored).quoteAmount = stored.quoteAmount
  | .write (.updateRequest _ set) =>
      ∀ stored, (set stored).quoteAmount = stored.quoteAmount
  | .write (.insertAssignment _ _) => False
  | .write (.saveAssignment _ set) => ∀ stored, (set stored).status ≠ .pending
  | _ => True

/-- Changing a request but not its quote keeps the agreement. -/
theorem QuotesAgree.modify
    {db next : Db} {id : RequestId} {set : ServiceRequest → ServiceRequest}
    (agree : QuotesAgree db) (requests : next.requests = db.requests.modify id set)
    (assignments : next.assignments = db.assignments)
    (quoted : ∀ stored, db.requests.row id = some stored →
      (set stored).quoteAmount = stored.quoteAmount ∨
        AssignedAt id (set stored).quoteAmount db) :
    QuotesAgree next := by
  intro key assignment found pending
  rw [assignments] at found
  obtain ⟨request, stored, quote⟩ := agree key assignment found pending
  by_cases same : assignment.request = id
  · subst same
    refine ⟨set request, by simp [requests, stored], ?_⟩
    rcases quoted request stored with kept | assigned
    · exact kept.trans quote
    · exact assigned key assignment found rfl pending
  · exact ⟨request, by simp [requests, same, stored], quote⟩

theorem QuotesAgree.apply
    {db : Db} {stmt : Stmt} (agree : QuotesAgree db)
    (fine : pricing (.write stmt)) : QuotesAgree (stmt.apply db) := by
  cases stmt with
  | saveRequest id loaded set =>
      exact agree.modify rfl rfl fun stored _ => .inl (fine stored)
  | updateRequest id set =>
      exact agree.modify rfl rfl fun stored _ => .inl (fine stored)
  | insertRequest id value =>
      intro key assignment found pending
      obtain ⟨request, stored, quote⟩ := agree key assignment found pending
      exact ⟨request, Table.row_insert_of_some id value stored, quote⟩
  | insertAssignment key value => exact fine.elim
  | saveAssignment key set =>
      intro other assignment found pending
      rcases Table.row_modify_cases found with
        ⟨_, old⟩ | ⟨rfl, old, _, rfl⟩
      · exact agree other assignment old pending
      · exact absurd pending (fine old)
  | _ => exact agree

theorem pricing_workflow : Workflow pricing where
  elsewhere stmt other := by
    cases stmt <;> first | trivial | simp [Stmt.table] at other
  moved _ _ _ _ _ := by simp [ServiceRequests.transition, pricing]
  saved _ _ _ := trivial
  frozen _ := trivial

/-! ## Operations -/

/-- Every step that sets a quote finds only assignments at that amount. -/
def quotesAssigned (operation : Operation) (db : Db) : Prop :=
  (Request.run operation.call db).1 = .ok () →
  match operation with
  | .managed (.setQuote _ id (some amount) _)
  | .managed (.approvePool _ _ id _ (some amount))
  | .managed (.assignDirect _ _ id _ amount _ _) => AssignedAt id (some amount) db
  | _ => True

/-- The operations whose saves can set a quote. -/
def Operation.Quotes : Operation → Prop
  | .managed (.setQuote _ _ _ _) | .managed (.approvePool _ _ _ _ _)
  | .managed (.assignDirect _ _ _ _ _ _ _)
  | .request (.updateDraft _ _ _ _) => True
  | _ => False

/-- The other operations leave quotes and proposals alone. -/
theorem operation_pricing {operation : Operation} (other : ¬operation.Quotes) :
    operation.call.Emits pricing fun _ => True := by
  refine Operation.emits_of_accounts pricing_workflow.ordering trivial
    (fun stmt table => ?_) (fun _ => trivial)
    (fun _ => pricing_workflow.completed) (fun _ => pricing_workflow.ended)
    pricing_workflow.apart fun triages => ?_
  · cases stmt <;> trivial
  cases operation with
  | request call =>
      cases call with
      | updateDraft env owner id payload => exact absurd trivial other
      | _ =>
        simp [Operation.call, RequestCall.call, Call.performOn, Call.perform,
          Call.get, Call.exec, ServiceRequests.createRequest,
          ServiceRequests.publish, ServiceRequests.cancel,
          ServiceRequests.reopen, ServiceRequests.expireDue,
          ServiceRequests.transition, Tx.create, pricing]
  | offer call =>
      cases call <;>
        simp [Operation.call, OfferCall.call, OfferCall.onOffer, Call.get,
          Call.exec, Call.perform, Bidding.submit, Bidding.updateOffer,
          Bidding.withdraw, Bidding.resubmit, Bidding.decline,
          Bidding.expertGuard, Bidding.limitGuard, Bidding.saveOfferCount,
          Bidding.accept, Bidding.getForUpdate, Bidding.getRequestForUpdate,
          Bidding.declineSiblings, Bidding.createOrderFromOffer,
          ServiceRequests.markMatched, ServiceRequests.transition,
          Orders.createOrderForRequest, Orders.recordEvent, Tx.getForUpdate,
          Tx.get, Tx.create, pricing]
  | managed call =>
      cases call with
      | setQuote _ _ _ _ => exact absurd trivial other
      | approvePool _ _ _ _ _ => exact absurd trivial other
      | assignDirect _ _ _ _ _ _ _ => exact absurd trivial other
      | _ =>
        simp [Operation.call, ManagedCall.call, Call.performOn, Call.perform,
          Call.get, Assignments.supersedeDirect, Assignments.rejectManaged,
          Assignments.acceptInvitation, Assignments.acceptDirect,
          Assignments.declineInvitation, Assignments.declineDirect,
          Assignments.expireDue, Assignments.expertGuard,
          Assignments.matchedGuard, Assignments.declineOthers,
          Assignments.getInvitationForUpdate,
          Assignments.getAssignmentForUpdate, Bidding.getRequestForUpdate,
          ServiceRequests.markMatched, ServiceRequests.transition,
          Orders.createOrderForRequest, Orders.recordEvent, Tx.getForUpdate,
          Tx.get, Tx.create, pricing]
  | _ => exact triages.elim

/-- Setting a quote on an up-to-date copy, or keeping its quote. -/
theorem QuotesAgree.quote
    {db : Db} {id : RequestId} {loaded : RequestStatus} {copy : ServiceRequest}
    {amount : Option Int} {set : ServiceRequest → ServiceRequest}
    (agree : QuotesAgree db) (found : db.requests.row id = some copy)
    (sets : ∀ stored, (set stored).quoteAmount = (amount <|> copy.quoteAmount))
    (assigned : ∀ value, amount = some value → AssignedAt id (some value) db) :
    QuotesAgree ((Stmt.saveRequest id loaded set).apply db) := by
  refine agree.modify rfl rfl fun stored present => ?_
  obtain rfl := Option.some.inj (found.symm.trans present)
  cases amount with
  | none => exact .inl (sets copy)
  | some value => exact .inr (by simpa [sets] using assigned value rfl)

/-- A new assignment at the quote of its request. -/
theorem QuotesAgree.propose
    {db : Db} {key : AssignmentId} {value : DirectAssignment}
    (agree : QuotesAgree db)
    (quoted : ∃ request, db.requests.row value.request = some request ∧
      request.quoteAmount = some value.amount) :
    QuotesAgree ((Stmt.insertAssignment key value).apply db) := by
  intro other assignment found pending
  rcases Table.row_insert_cases found with old | ⟨rfl, rfl, _⟩
  · exact agree other assignment old pending
  · exact quoted

namespace Assignments

theorem setQuote_ends
    {db : Db} (agree : QuotesAgree db)
    (admin : Option Actor) (id : RequestId) (amount : Option Int)
    (reviewNotes : Option String) :
    Call.Ends (Operation.managed (.setQuote admin id amount reviewNotes)).call
      db fun next =>
        (∀ value, amount = some value → AssignedAt id (some value) db) →
          QuotesAgree next := by
  refine Call.performOn_ends fun copy found => ?_
  simp only [setQuote, Prog.post_bind, Prog.post_ofExcept, Prog.post_exec,
    reduceCtorEq, false_implies, implies_true, and_true]
  intro _ _ _ _ _ _ _ _ assigned
  exact agree.quote found (fun _ => rfl) assigned

theorem approvePool_ends
    {db : Db} (agree : QuotesAgree db)
    (env : Env) (admin : Option Actor) (id : RequestId) (expertIds : List UserId)
    (amount : Option Int) :
    Call.Ends
      (Operation.managed (.approvePool env admin id expertIds amount)).call db
      fun next =>
        (∀ value, amount = some value → AssignedAt id (some value) db) →
          QuotesAgree next := by
  refine Call.performOn_ends fun copy found => ?_
  simp only [approvePool, Prog.post_bind, Prog.post_ofExcept, Prog.post_require,
    Prog.post_exec, reduceCtorEq, false_implies, implies_true, and_true]
  intro _ _ _ _ _ _ _ _
  -- later statements keep what the save of the quote has established
  have kept : ∀ stmt, pricing (.write stmt) → ∀ current,
      ((∀ value, amount = some value → AssignedAt id (some value) db) →
        QuotesAgree current) →
      (∀ value, amount = some value → AssignedAt id (some value) db) →
        QuotesAgree (stmt.apply current) :=
    fun stmt fine current agrees assigned => (agrees assigned).apply fine
  have moved : ∀ request, (ServiceRequests.transition env id request .pooled
      "").Emits pricing fun _ => True := by
    simp [ServiceRequests.transition, pricing]
  have invited : ∀ candidates, (inviteAll env id ((admin.map Actor.id).getD 0)
      candidates).Emits pricing fun _ => True := by
    simp [inviteAll, Tx.create, pricing]
  refine ((moved _).keeps _ kept
    (agree.quote found fun _ => rfl)).mono ?_
  rintro (error | pooled) next ⟨-, agrees⟩
  · trivial
  simp only [Prog.post_read]
  intro _
  exact ((invited _).keeps _ kept agrees).mono fun _ _ later _ _ => later.2

theorem assignDirect_ends
    {db : Db} (agree : QuotesAgree db)
    (env : Env) (admin : Option Actor) (id : RequestId) (expert : UserId)
    (amount : Int) (deadline : Option Time) (scopeNote : String) :
    Call.Ends
      (Operation.managed
        (.assignDirect env admin id expert amount deadline scopeNote)).call db
      fun next => AssignedAt id (some amount) db → QuotesAgree next := by
  refine Call.performOn_ends fun copy found => ?_
  simp only [assignDirect, expertGuard, Tx.create, Prog.post_bind,
    Prog.post_ofExcept, Prog.post_require, Prog.post_read, Prog.post_lockRow,
    Prog.post_exec, Prog.post_pure, reduceCtorEq, false_implies, implies_true,
    and_true]
  intro _ _ _ _ _ _ _ _ _ unused _ _ assigned
  refine QuotesAgree.propose ?_ ?_
  · exact agree.modify rfl rfl fun _ _ => .inr assigned
  · have stored : db.requests.row id = some copy := found
    simp [Store.apply, Stmt.apply, stored]

theorem updateDraft_ends
    {db : Db} (agree : QuotesAgree db)
    (env : Env) (owner : UserId) (id : RequestId)
    (payload : ServiceRequests.Payload) :
    Call.Ends (Operation.request (.updateDraft env owner id payload)).call db
      QuotesAgree := by
  refine Call.performOn_ends fun copy found => ?_
  simp only [ServiceRequests.updateDraft, Prog.post_bind, Prog.post_require,
    Prog.post_ofExcept, Prog.post_exec, Prog.post_pure, reduceCtorEq,
    false_implies, implies_true, and_true]
  intro _ _ _ _ _ _ _ _ _ _ _ _
  refine agree.modify rfl rfl fun stored present => .inl ?_
  obtain rfl := Option.some.inj (found.symm.trans present)
  rfl

end Assignments

/-- A step that sets no quote against an assignment keeps the agreement. -/
theorem QuotesAgree.after
    {db : Db} (agree : QuotesAgree db) (operation : Operation)
    (assigned : quotesAssigned operation db) :
    QuotesAgree (operation.after db) := by
  -- a quoting operation agrees when it succeeds, and else changes nothing
  have ended : ∀ {goal : Db → Prop}, Call.Ends operation.call db goal →
      (∀ next, (Request.run operation.call db).1 = .ok () → goal next →
        QuotesAgree next) → QuotesAgree (operation.after db) := by
    intro goal ends agrees
    cases ends with
    | succeeded ok left => exact agrees _ ok left
    | failed _ same =>
        rw [Operation.after, same]
        exact agree
  by_cases quotes : operation.Quotes
  · rcases operation with call | _ | call | _ | _ | _ <;>
      try exact quotes.elim
    · cases call with
      | updateDraft env owner id payload =>
          exact ended (Assignments.updateDraft_ends agree env owner id payload)
            fun _ _ left => left
      | _ => exact quotes.elim
    · cases call with
      | setQuote admin id amount reviewNotes =>
          refine ended (Assignments.setQuote_ends agree admin id amount
            reviewNotes) fun _ ok left => left ?_
          rintro value rfl
          exact assigned ok
      | approvePool env admin id expertIds amount =>
          refine ended (Assignments.approvePool_ends agree env admin id expertIds
            amount) fun _ ok left => left ?_
          rintro value rfl
          exact assigned ok
      | assignDirect env admin id expert amount deadline scopeNote =>
          exact ended (Assignments.assignDirect_ends agree env admin id expert
            amount deadline scopeNote) fun _ ok left => left (assigned ok)
      | _ => exact quotes.elim
  · have emits := operation_pricing quotes
    have kept : QuotesAgree (Request.run operation.call db).2 :=
      emits.keeps QuotesAgree (fun _ fine _ before => before.apply fine) agree
    exact kept

/-! ## The booked price -/

namespace Acceptance

/-- The acceptance of an invitation or an assignment. -/
def IsManaged : Acceptance → Prop
  | .offer _ _ _ => False
  | .invitation _ _ _ _ | .assignment _ _ _ => True

/-- The order was booked at the request's quote. -/
def BooksQuote (acceptance : Acceptance) (next : Db) : Prop :=
  ∃ order request, next.orders.row acceptance.key = some order ∧
    next.requests.row order.request = some request ∧
    request.quoteAmount = some order.amount

/-- An accepted assignment proposes the request's quote. -/
def AtQuote (acceptance : Acceptance) (db : Db) : Prop :=
  ∀ key, acceptance.chosen = .assignment key →
    ∃ assignment request, db.assignments.row key = some assignment ∧
      db.requests.row assignment.request = some request ∧
      request.quoteAmount = some assignment.amount

/-- The booked price is the quote exactly when the artifact has it. -/
theorem Matches.booksQuote_iff
    {acceptance : Acceptance} {proposal : Proposal} {request : ServiceRequest}
    {order : Order} {db next : Db} (managed : acceptance.IsManaged)
    (matched : acceptance.Matches proposal request order db next) :
    acceptance.BooksQuote next ↔ acceptance.AtQuote db := by
  have books : acceptance.BooksQuote next ↔
      request.quoteAmount = some order.amount := by
    simp [BooksQuote, matched.orderRow, matched.about, matched.matched]
  rw [books]
  have chosen := matched.chosen
  have amount := matched.amount
  cases acceptance with
  | offer env student id => exact managed.elim
  | invitation env expert id expectedAmount =>
      obtain ⟨invitation, _, rfl⟩ := Option.map_eq_some_iff.mp chosen
      constructor
      · intro _ key same
        cases same
      · exact fun _ => amount
  | assignment env expert id =>
      obtain ⟨assignment, stored, rfl⟩ := Option.map_eq_some_iff.mp chosen
      have row := matched.requestRow
      have booked : assignment.amount = order.amount := by simpa using amount
      rw [← booked]
      constructor
      · rintro quote key ⟨⟩
        exact ⟨assignment, request, stored, row, quote⟩
      · intro quoted
        obtain ⟨other, found, present, requested, quote⟩ := quoted id rfl
        obtain rfl := Option.some.inj (stored.symm.trans present)
        obtain rfl := Option.some.inj (row.symm.trans requested)
        exact quote

/-- Under the agreement, every acceptance finds the quote. -/
theorem Matches.atQuote
    {acceptance : Acceptance} {proposal : Proposal} {request : ServiceRequest}
    {order : Order} {db next : Db} (agree : QuotesAgree db)
    (matched : acceptance.Matches proposal request order db next) :
    acceptance.AtQuote db := by
  intro key same
  have chosen := matched.chosen
  rw [same] at chosen
  obtain ⟨assignment, stored, rfl⟩ := Option.map_eq_some_iff.mp chosen
  have pending : assignment.status = .pending := by simpa using matched.pending
  obtain ⟨request, row, quote⟩ := agree key assignment stored pending
  exact ⟨assignment, request, stored, row, quote⟩

end Acceptance

/--
After any run, a managed acceptance books the request's quote exactly when an
accepted assignment proposes it; it does after every run that sets no quote
against a pending assignment.
-/
theorem managed_price_iff
    (start : Db) (agree : QuotesAgree start) (operations : List Operation)
    (acceptance : Acceptance) (managed : acceptance.IsManaged)
    (ok : (Request.run acceptance.operation.call
      (Operation.afterAll operations start)).1 = .ok ()) :
    let db := Operation.afterAll operations start
    (acceptance.BooksQuote (acceptance.operation.after db) ↔
        acceptance.AtQuote db) ∧
      (Operation.AllMeet quotesAssigned operations start →
        acceptance.BooksQuote (acceptance.operation.after db)) := by
  intro db
  cases acceptance.ends db with
  | failed fails _ => exact absurd ok fails
  | succeeded _ left =>
      obtain ⟨proposal, request, order, matched⟩ := left
      have books := matched.booksQuote_iff managed
      refine ⟨books, fun met => books.mpr ?_⟩
      have agrees : QuotesAgree db := met.keeps QuotesAgree
        (fun operation _ assigned holds => holds.after operation assigned) agree
      exact matched.atQuote agrees

theorem reviewed_agrees : QuotesAgree reviewed := by
  intro key assignment stored
  simp [reviewed] at stored

/-- Staff propose an expert at a price. -/
def assigning (key : AssignmentId) (expert : UserId) (amount : Int) : Operation :=
  .managed (.assignDirect { now := 0, key } (some ⟨9, true⟩) 10 expert amount
    none "")

/-- A superseded proposal does not count; the next one is booked at its price. -/
theorem managed_price_reassigned :
    let run := [assigning 30 2 6000,
      .managed (.supersedeDirect { now := 1 } (some ⟨9, true⟩) 30),
      assigning 31 3 5000]
    (Acceptance.assignment { now := 2, key := 40 } ⟨3, false⟩ 31).BooksQuote
      (Operation.after
        (.managed (.acceptDirect { now := 2, key := 40 } ⟨3, false⟩ 31))
        (Operation.afterAll run reviewed)) := by
  intro run
  refine (managed_price_iff reviewed reviewed_agrees run
    (.assignment { now := 2, key := 40 } ⟨3, false⟩ 31) trivial
    (by decide +kernel)).2 ⟨fun _ => ?_, fun _ => trivial, fun _ => ?_, trivial⟩
  · intro key assignment stored
    simp [reviewed] at stored
  · intro key assignment stored _ pending
    have member := (Table.mem_keys _ key).mpr (Option.isSome_of_mem stored)
    have keys : (Operation.afterAll (run.take 2) reviewed).assignments.keys =
        [30] := by decide +kernel
    have superseded : ((Operation.afterAll (run.take 2)
        reviewed).assignments.row 30).map DirectAssignment.status =
          some .superseded := by decide +kernel
    obtain rfl : key = 30 := List.mem_singleton.mp (keys ▸ member)
    have status := superseded.symm.trans (congrArg _ stored)
    simp [pending] at status

/-- After a new quote, the pending assignment books its own amount. -/
theorem direct_price_diverges :
    let run := [assigning 30 2 6000,
      .managed (.setQuote (some ⟨9, true⟩) 10 (some 5000) none)]
    let db := Operation.afterAll run reviewed
    let acceptance : Acceptance :=
      .assignment { now := 2, key := 40 } ⟨2, false⟩ 30
    QuotesAgree reviewed ∧
      (Request.run acceptance.operation.call db).1 = .ok () ∧
      ((acceptance.operation.after db).orders.row 40).map Order.amount =
        some 6000 ∧
      ¬acceptance.BooksQuote (acceptance.operation.after db) := by
  intro run db acceptance
  have booked : ((acceptance.operation.after db).orders.row 40).map
      (fun order => (order.request, order.amount)) = some (10, 6000) := by
    decide +kernel
  have quoted : ((acceptance.operation.after db).requests.row 10).map
      ServiceRequest.quoteAmount = some (some 5000) := by decide +kernel
  refine ⟨reviewed_agrees, by decide +kernel, by decide +kernel, ?_⟩
  rintro ⟨order, request, stored, row, quote⟩
  have columns := booked.symm.trans (congrArg (Option.map _) stored)
  obtain ⟨about, amount⟩ := Prod.mk.inj (Option.some.inj columns)
  rw [← about] at row
  have offered := quoted.symm.trans (congrArg (Option.map _) row)
  simp [quote, ← amount] at offered

end KnowledgeMarketplace
