import KnowledgeMarketplace.Assignments.Artifacts
import KnowledgeMarketplace.Operations.Effects
import KnowledgeMarketplace.Transaction.Alone

/-!
# The floor of offers and quotes

Every service that takes an amount compares it with a constant, the default of
the configured floor.  No later step changes the amount before it is booked, so
an amount between the two is booked below the floor in force.
-/

namespace KnowledgeMarketplace

open Transaction

/-- What an order can take its amount from. -/
inductive Price where
  | offer (id : OfferId)
  | quote (id : RequestId)
  | assignment (id : AssignmentId)
  deriving DecidableEq

/-- The stored amount. -/
def Db.price (db : Db) : Price → Option Int
  | .offer id => (db.offers.row id).map Offer.amount
  | .quote id => (db.requests.row id).bind ServiceRequest.quoteAmount
  | .assignment id => (db.assignments.row id).map DirectAssignment.amount

/-- The amount that an operation names for a price. -/
def Operation.names : Operation → Price → Option Int
  | .offer (.submit env _ _ amount _), .offer id =>
      if id = env.key then some amount else none
  | .offer (.update _ _ edited amount _), .offer id =>
      if id = edited then amount.join else none
  | .managed (.setQuote _ quoted amount _), .quote id =>
      if id = quoted then amount else none
  | .managed (.approvePool _ _ quoted _ amount), .quote id =>
      if id = quoted then amount else none
  | .managed (.assignDirect _ _ quoted _ amount _ _), .quote id =>
      if id = quoted then some amount else none
  | .managed (.assignDirect env _ _ _ amount _ _), .assignment id =>
      if id = env.key then some amount else none
  | _, _ => none

/-- The operation succeeds, alone. -/
def Operation.Succeeds (operation : Operation) (db : Db) : Prop :=
  (Request.run operation.call db).1 = .ok ()

instance (operation : Operation) (db : Db) : Decidable (operation.Succeeds db) :=
  inferInstanceAs (Decidable ((Request.run operation.call db).1 = .ok ()))

/-! ## Statements that keep prices -/

/-- Statements that change no stored amount. -/
def keepsPrices : Effect Stmt → Prop
  | .write (.saveRequest _ _ set) | .write (.updateRequest _ set) =>
      ∀ stored, (set stored).quoteAmount = stored.quoteAmount
  | .write (.saveOffer _ set) => ∀ stored, (set stored).amount = stored.amount
  | .write (.saveAssignment _ set) =>
      ∀ stored, (set stored).amount = stored.amount
  | _ => True

theorem keepsPrices_keeps
    {stmt : Stmt} {db : Db} (fine : keepsPrices (.write stmt)) {price : Price}
    {amount : Int} (priced : db.price price = some amount) :
    (stmt.apply db).price price = some amount := by
  cases price with
  | offer id =>
      cases stmt with
      | insertOffer key value =>
          obtain ⟨offer, stored, same⟩ := Option.map_eq_some_iff.mp priced
          have kept := Table.row_insert_of_some key value stored
          simp [Db.price, Stmt.apply, kept, same]
      | saveOffer key set =>
          exact (Table.map_row_modify fine _ key id).trans priced
      | _ => exact priced
  | quote id =>
      have kept : ∀ key (set : ServiceRequest → ServiceRequest),
          (∀ stored, (set stored).quoteAmount = stored.quoteAmount) →
          ((db.requests.modify key set).row id).bind
            ServiceRequest.quoteAmount = some amount := by
        intro key set keeps
        obtain ⟨request, stored, same⟩ := Option.bind_eq_some_iff.mp priced
        by_cases own : id = key
        · subst own
          simp [stored, keeps, same]
        · simp [Table.row_modify_other _ set own, stored, same]
      cases stmt with
      | insertRequest key value =>
          obtain ⟨request, stored, same⟩ := Option.bind_eq_some_iff.mp priced
          have kept := Table.row_insert_of_some key value stored
          simp [Db.price, Stmt.apply, kept, same]
      | saveRequest key loaded set => exact kept key set fine
      | updateRequest key set => exact kept key set fine
      | _ => exact priced
  | assignment id =>
      cases stmt with
      | insertAssignment key value =>
          obtain ⟨assignment, stored, same⟩ := Option.map_eq_some_iff.mp priced
          have kept := Table.row_insert_of_some key value stored
          simp [Db.price, Stmt.apply, kept, same]
      | saveAssignment key set =>
          exact (Table.map_row_modify fine _ key id).trans priced
      | _ => exact priced

theorem keepsPrices_workflow : Workflow keepsPrices where
  elsewhere stmt other := by
    cases stmt <;> first | trivial | simp [Stmt.table] at other
  moved _ _ _ _ _ := by simp [ServiceRequests.transition, keepsPrices]
  saved _ _ _ := trivial
  frozen _ := trivial

/-- The operations that write a quote, an amount or a whole row. -/
def Operation.Reprices : Operation → Prop
  | .managed (.setQuote _ _ _ _) | .managed (.approvePool _ _ _ _ _)
  | .managed (.assignDirect _ _ _ _ _ _ _)
  | .request (.updateDraft _ _ _ _) | .offer (.update _ _ _ _ _) => True
  | _ => False

theorem operation_keepsPrices {operation : Operation}
    (other : ¬operation.Reprices) :
    operation.call.Emits keepsPrices fun _ => True := by
  refine Operation.emits_of_accounts keepsPrices_workflow.ordering trivial
    (fun stmt table => ?_) (fun _ => trivial)
    (fun _ => keepsPrices_workflow.completed)
    (fun _ => keepsPrices_workflow.ended) keepsPrices_workflow.apart
    fun triages => ?_
  · cases stmt <;> trivial
  cases operation with
  | request call =>
      cases call with
      | updateDraft env owner id payload => exact absurd trivial other
      | _ =>
        simp [Operation.call, RequestCall.call, Call.performOn, Call.perform,
          Call.get, Call.exec, ServiceRequests.createRequest,
          ServiceRequests.publish, ServiceRequests.cancel,
          ServiceRequests.reopen, ServiceRequests.expireDue,
          ServiceRequests.transition, Tx.create, keepsPrices]
  | offer call =>
      cases call with
      | update env expert id amount currency => exact absurd trivial other
      | _ =>
        simp [Operation.call, OfferCall.call, OfferCall.onOffer, Call.get,
          Call.exec, Call.perform, Bidding.submit,
          Bidding.withdraw, Bidding.resubmit, Bidding.decline,
          Bidding.expertGuard, Bidding.limitGuard, Bidding.saveOfferCount,
          Bidding.accept, Bidding.getForUpdate, Bidding.getRequestForUpdate,
          Bidding.declineSiblings, Bidding.createOrderFromOffer,
          ServiceRequests.markMatched, ServiceRequests.transition,
          Orders.createOrderForRequest, Orders.recordEvent, Tx.getForUpdate,
          Tx.get, Tx.create, keepsPrices]
  | managed call =>
      cases call with
      | setQuote _ _ _ _ => exact absurd trivial other
      | approvePool _ _ _ _ _ => exact absurd trivial other
      | assignDirect _ _ _ _ _ _ _ => exact absurd trivial other
      | _ =>
        simp [Operation.call, ManagedCall.call, Call.performOn, Call.perform,
          Call.get, Assignments.supersedeDirect, Assignments.rejectManaged,
          Assignments.acceptInvitation, Assignments.acceptDirect,
          Assignments.declineInvitation, Assignments.declineDirect,
          Assignments.expireDue, Assignments.expertGuard,
          Assignments.matchedGuard, Assignments.declineOthers,
          Assignments.getInvitationForUpdate,
          Assignments.getAssignmentForUpdate, Bidding.getRequestForUpdate,
          ServiceRequests.markMatched, ServiceRequests.transition,
          Orders.createOrderForRequest, Orders.recordEvent, Tx.getForUpdate,
          Tx.get, Tx.create, keepsPrices]
  | _ => exact triages.elim

/-! ## Operations that name amounts -/

/-- The named amounts are stored and reach the default floor; others stay. -/
structure Repriced (operation : Operation) (db next : Db) : Prop where
  named : ∀ price amount, operation.names price = some amount →
    next.price price = some amount ∧ Payments.minOfferMinor ≤ amount
  kept : ∀ price amount, operation.names price = none →
    db.price price = some amount → next.price price = some amount

/-- Later statements of the operation keep what is repriced. -/
theorem Repriced.apply
    {operation : Operation} {db next : Db} {stmt : Stmt}
    (fine : keepsPrices (.write stmt)) (repriced : Repriced operation db next) :
    Repriced operation db (stmt.apply next) where
  named price amount named :=
    (repriced.named price amount named).imp_left (keepsPrices_keeps fine)
  kept price amount unnamed priced :=
    keepsPrices_keeps fine (repriced.kept price amount unnamed priced)

/-- A quote that is named, or the one of the copy. -/
theorem Repriced.quote
    {operation : Operation} {db : Db} {id : RequestId} {copy : ServiceRequest}
    {amount : Option Int} {loaded : RequestStatus}
    {set : ServiceRequest → ServiceRequest}
    (found : db.requests.row id = some copy)
    (names : ∀ price, operation.names price =
      if price = .quote id then amount else none)
    (sets : ∀ stored, (set stored).quoteAmount = (amount <|> copy.quoteAmount))
    (guarded : ∀ value, amount = some value → Payments.minOfferMinor ≤ value) :
    Repriced operation db ((Stmt.saveRequest id loaded set).apply db) := by
  have quoted : ((Stmt.saveRequest id loaded set).apply db).price (.quote id) =
      (amount <|> copy.quoteAmount) := by
    simp [Db.price, Stmt.apply, found, sets]
  have others : ∀ price, price ≠ .quote id →
      ((Stmt.saveRequest id loaded set).apply db).price price =
        db.price price := by
    intro price other
    cases price with
    | quote query =>
        have different : query ≠ id := fun same => other (same ▸ rfl)
        simp [Db.price, Stmt.apply, Table.row_modify_other _ set different]
    | _ => rfl
  refine ⟨fun price value named => ?_, fun price value unnamed priced => ?_⟩
  · rw [names] at named
    split_ifs at named with own
    subst own
    exact ⟨by rw [quoted, named]; rfl, guarded value named⟩
  · rw [names] at unnamed
    by_cases own : price = .quote id
    · subst own
      rw [if_pos rfl] at unnamed
      have stored : copy.quoteAmount = some value := by
        simpa [Db.price, found] using priced
      rw [quoted, unnamed, stored]
      rfl
    · exact (others price own).trans priced

namespace Assignments

/-- A quote that passes the guard reaches the default floor. -/
theorem le_of_quoteGuard
    {amount : Option Int} (passes : quoteGuard amount = .ok ()) (value : Int)
    (named : amount = some value) : Payments.minOfferMinor ≤ value := by
  subst named
  by_contra low
  simp [quoteGuard, not_le.mp low] at passes

theorem setQuote_reprices
    (admin : Option Actor) (id : RequestId) (amount : Option Int)
    (reviewNotes : Option String) (db : Db) :
    Call.Ends (Operation.managed (.setQuote admin id amount reviewNotes)).call
      db (Repriced (.managed (.setQuote admin id amount reviewNotes)) db) := by
  refine Call.performOn_ends fun copy found => ?_
  simp only [setQuote, Prog.post_bind, Prog.post_ofExcept, Prog.post_exec,
    reduceCtorEq, false_implies, implies_true, and_true]
  intro _ _ _ _ _ passes _ _
  refine .quote found (fun price => ?_) (fun _ => rfl) (le_of_quoteGuard passes)
  cases price <;> simp [Operation.names]

theorem approvePool_reprices
    (env : Env) (admin : Option Actor) (id : RequestId) (expertIds : List UserId)
    (amount : Option Int) (db : Db) :
    Call.Ends
      (Operation.managed (.approvePool env admin id expertIds amount)).call db
      (Repriced (.managed (.approvePool env admin id expertIds amount)) db) := by
  refine Call.performOn_ends fun copy found => ?_
  simp only [approvePool, Prog.post_bind, Prog.post_ofExcept, Prog.post_require,
    Prog.post_exec, reduceCtorEq, false_implies, implies_true, and_true]
  intro _ _ _ _ _ _ passes _
  -- the later statements change no price any more
  have kept : ∀ stmt, keepsPrices (.write stmt) → ∀ current,
      Repriced (.managed (.approvePool env admin id expertIds amount)) db
        current →
      Repriced (.managed (.approvePool env admin id expertIds amount)) db
        (stmt.apply current) :=
    fun _ fine _ repriced => repriced.apply fine
  have moved : ∀ request, (ServiceRequests.transition env id request .pooled
      "").Emits keepsPrices fun _ => True := by
    simp [ServiceRequests.transition, keepsPrices]
  have invited : ∀ candidates, (inviteAll env id ((admin.map Actor.id).getD 0)
      candidates).Emits keepsPrices fun _ => True := by
    simp [inviteAll, Tx.create, keepsPrices]
  have saved : Repriced (.managed (.approvePool env admin id expertIds amount))
      db ((Stmt.saveRequest id copy.status fun stored =>
        { stored with quoteAmount := amount <|> copy.quoteAmount }).apply db) :=
    .quote found (fun price => by cases price <;> simp [Operation.names])
      (fun _ => rfl) (le_of_quoteGuard passes)
  refine ((moved _).keeps _ kept saved).mono ?_
  rintro (error | pooled) next ⟨-, repriced⟩
  · trivial
  simp only [Prog.post_read]
  intro _
  exact ((invited _).keeps _ kept repriced).mono fun _ _ later _ _ => later.2

theorem assignDirect_reprices
    (env : Env) (admin : Option Actor) (id : RequestId) (expert : UserId)
    (amount : Int) (deadline : Option Time) (scopeNote : String) (db : Db) :
    Call.Ends
      (Operation.managed
        (.assignDirect env admin id expert amount deadline scopeNote)).call db
      (Repriced (.managed
        (.assignDirect env admin id expert amount deadline scopeNote)) db) := by
  refine Call.performOn_ends fun copy found => ?_
  simp only [assignDirect, expertGuard, Tx.create, Prog.post_bind,
    Prog.post_ofExcept, Prog.post_require, Prog.post_read, Prog.post_lockRow,
    Prog.post_exec, Prog.post_pure, reduceCtorEq, false_implies, implies_true,
    and_true]
  intro _ _ _ _ _ _ _ passes _ unused _ _
  have floor := le_of_quoteGuard passes amount rfl
  have stored : db.requests.row id = some copy := found
  have fresh : db.assignments.row env.key = none := by
    simpa [Stmt.apply] using unused
  refine ⟨fun price value named => ?_, fun price value unnamed priced => ?_⟩
  · cases price with
    | offer other => simp [Operation.names] at named
    | quote other =>
        simp only [Operation.names, Option.ite_none_right_eq_some,
          Option.some.injEq] at named
        obtain ⟨rfl, rfl⟩ := named
        exact ⟨by simp [Db.price, Store.apply, Stmt.apply, stored], floor⟩
    | assignment other =>
        simp only [Operation.names, Option.ite_none_right_eq_some,
          Option.some.injEq] at named
        obtain ⟨rfl, rfl⟩ := named
        refine ⟨?_, floor⟩
        have row := Table.row_insert_self
          ({ request := id
             expert
             amount
             currency := copy.currency
             deadline := deadline <|> copy.deadline
             scopeNote := clip 500 scopeNote
             expiresAt := env.now + hours directTtlHours
             decidedByAdmin := (admin.map Actor.id).getD 0 } :
            DirectAssignment) fresh
        exact congrArg (Option.map DirectAssignment.amount) row
  · cases price with
    | offer other => exact priced
    | quote other =>
        have different : other ≠ id := by
          rintro rfl
          simp [Operation.names] at unnamed
        have same : (db.requests.modify id fun stored =>
            { stored with quoteAmount := some amount }).row other =
              db.requests.row other := Table.row_modify_other _ _ different
        simpa [Db.price, Store.apply, Stmt.apply, same] using priced
    | assignment other =>
        obtain ⟨assignment, present, same⟩ := Option.map_eq_some_iff.mp priced
        have kept := Table.row_insert_of_some env.key
          ({ request := id
             expert
             amount
             currency := copy.currency
             deadline := deadline <|> copy.deadline
             scopeNote := clip 500 scopeNote
             expiresAt := env.now + hours directTtlHours
             decidedByAdmin := (admin.map Actor.id).getD 0 } :
            DirectAssignment) present
        exact (congrArg (Option.map DirectAssignment.amount) kept).trans
          (congrArg some same)

theorem updateDraft_reprices
    (env : Env) (owner : UserId) (id : RequestId)
    (payload : ServiceRequests.Payload) (db : Db) :
    Call.Ends (Operation.request (.updateDraft env owner id payload)).call db
      (Repriced (.request (.updateDraft env owner id payload)) db) := by
  refine Call.performOn_ends fun copy found => ?_
  simp only [ServiceRequests.updateDraft, Prog.post_bind, Prog.post_require,
    Prog.post_ofExcept, Prog.post_exec, Prog.post_pure, reduceCtorEq,
    false_implies, implies_true, and_true]
  intro _ _ _ _ _ _ _ _ _ _ _ _
  have names : ∀ price, Operation.names
      (.request (.updateDraft env owner id payload)) price =
        if price = .quote id then (none : Option Int) else none := by
    simp [Operation.names]
  exact .quote found names (fun _ => rfl) (by simp)

end Assignments

namespace Bidding

/-- An amount that passes the guard reaches the default floor. -/
theorem le_of_amountGuard
    {amount : Int} (passes : amountGuard (some amount) = .ok ()) :
    Payments.minOfferMinor ≤ amount := by
  by_contra low
  simp [amountGuard, not_le.mp low] at passes

theorem submit_names
    {env : Env} {expert : UserId} {id : RequestId} {amount : Int}
    {currency : String} {db : Db}
    (succeeds : Operation.Succeeds
      (.offer (.submit env expert id amount currency)) db) :
    (Operation.after (.offer (.submit env expert id amount currency)) db).price
        (.offer env.key) = some amount ∧ Payments.minOfferMinor ≤ amount := by
  suffices whole :
      (Operation.offer (.submit env expert id amount currency)).call.Leaves db
        [] fun result next _ => result = .ok () →
          next.price (.offer env.key) = some amount ∧
            Payments.minOfferMinor ≤ amount from
    Request.leaves_iff_run.mp whole succeeds
  simp only [Operation.call, OfferCall.call, Call.get, submit,
    expertGuard, limitGuard, Tx.create, Request.leaves_bind,
    Request.leaves_load, Request.leaves_orFail, Request.leaves_require,
    Request.leaves_ofExcept, Request.leaves_atomic, Request.leaves_pure,
    Prog.post_bind, Prog.post_lockRow, Prog.post_read, Prog.post_require,
    Prog.post_exec, Prog.post_pure, applyAll_nil, reduceCtorEq, false_implies,
    implies_true, and_true, forall_const]
  intro request _ _ _ _ _ passes _ _ unused
  have fresh : db.offers.row env.key = none := by
    simp only [Bool.or_eq_true, not_or] at unused
    simpa using unused.1
  refine ⟨?_, le_of_amountGuard passes⟩
  have row := Table.row_insert_self
    ({ request := id, expert, amount, currency } : Offer) fresh
  exact congrArg (Option.map Offer.amount) row

theorem update_reprices
    (env : Env) (expert : UserId) (id : OfferId) (amount : Option (Option Int))
    (currency : Option String) (db : Db) :
    Call.Ends (Operation.offer (.update env expert id amount currency)).call db
      (Repriced (.offer (.update env expert id amount currency)) db) := by
  suffices whole :
      (Operation.offer (.update env expert id amount currency)).call.Leaves db
        [] fun result next _ =>
          (result = .ok () ∧
            Repriced (.offer (.update env expert id amount currency)) db next) ∨
          (result ≠ .ok () ∧ next = db) by
    rcases Request.leaves_iff_run.mp whole with ⟨ok, left⟩ | ⟨fails, same⟩
    · exact .succeeded ok left
    · exact .failed fails same
  simp only [Operation.call, OfferCall.call, OfferCall.onOffer, Call.get,
    Call.exec, updateOffer, Request.leaves_bind, Request.leaves_load,
    Request.leaves_orFail, Request.leaves_require, Request.leaves_ofExcept,
    Request.leaves_atomic, Prog.post_exec, applyAll_nil, reduceCtorEq,
    false_and, true_and, false_or, or_false, ne_eq, not_true_eq_false,
    not_false_eq_true, implies_true, and_true]
  intro copy found _ _ _ _ _ passes value written
  have stored : db.offers.row id = some copy.1 := OfferCall.find_offer found
  rw [written] at passes
  have floor := le_of_amountGuard passes
  refine ⟨fun price other named => ?_, fun price other unnamed priced => ?_⟩
  · cases price with
    | offer key =>
        simp only [Operation.names, Option.ite_none_right_eq_some,
          Option.join_eq_some_iff] at named
        obtain ⟨rfl, rfl⟩ := named
        obtain rfl : other = value := by simpa using written
        exact ⟨by simp [Db.price, Store.apply, Stmt.apply, stored], floor⟩
    | _ => simp [Operation.names] at named
  · cases price with
    | offer key =>
        by_cases own : key = id
        · subst own
          have same : copy.1.amount = other := by
            simpa [Db.price, stored] using priced
          have kept : value = copy.1.amount := by
            rcases amount with _ | _ | amount
            · simpa using written.symm
            · simp at written
            · simp [Operation.names] at unnamed
          simp [Db.price, Store.apply, Stmt.apply, stored, kept, same]
        · simpa [Db.price, Store.apply, Stmt.apply,
            Table.row_modify_other _ _ own] using priced
    | _ => exact priced

end Bidding

/-! ## Runs -/

/-- A step that names no amount for a price keeps it, also when it fails. -/
theorem price_after
    {operation : Operation} {db : Db} {price : Price} {amount : Int}
    (unnamed : operation.Succeeds db → operation.names price = none)
    (priced : db.price price = some amount) :
    (operation.after db).price price = some amount := by
  by_cases reprices : operation.Reprices
  · have ended : Call.Ends operation.call db (Repriced operation db) →
        (operation.after db).price price = some amount := by
      intro ends
      cases ends with
      | succeeded ok repriced =>
          exact repriced.kept price amount (unnamed ok) priced
      | failed _ same =>
          rw [Operation.after, same]
          exact priced
    rcases operation with call | call | call | _ | _ | _ <;>
      try exact reprices.elim
    · cases call with
      | updateDraft env owner id payload =>
          exact ended (Assignments.updateDraft_reprices env owner id payload db)
      | _ => exact reprices.elim
    · cases call with
      | update env expert id amount currency =>
          exact ended (Bidding.update_reprices env expert id amount currency db)
      | _ => exact reprices.elim
    · cases call with
      | setQuote admin id amount reviewNotes =>
          exact ended (Assignments.setQuote_reprices admin id amount reviewNotes
            db)
      | approvePool env admin id expertIds amount =>
          exact ended (Assignments.approvePool_reprices env admin id expertIds
            amount db)
      | assignDirect env admin id expert amount deadline scopeNote =>
          exact ended (Assignments.assignDirect_reprices env admin id expert
            amount deadline scopeNote db)
      | _ => exact reprices.elim
  · have emits := operation_keepsPrices reprices
    exact emits.keeps (fun current => current.price price = some amount)
      (fun _ fine _ before => keepsPrices_keeps fine before) priced

/-- A successful step stores the amounts that it names. -/
theorem price_of_names
    {operation : Operation} {db : Db} {price : Price} {amount : Int}
    (succeeds : operation.Succeeds db)
    (named : operation.names price = some amount) :
    (operation.after db).price price = some amount ∧
      Payments.minOfferMinor ≤ amount := by
  have ended : Call.Ends operation.call db (Repriced operation db) →
      (operation.after db).price price = some amount ∧
        Payments.minOfferMinor ≤ amount := by
    intro ends
    cases ends with
    | succeeded _ repriced => exact repriced.named price amount named
    | failed fails _ => exact absurd succeeds fails
  rcases operation with _ | call | call | _ | _ | _ <;>
    try simp [Operation.names] at named
  · cases call with
    | submit env expert id value currency =>
        cases price with
        | offer key =>
            simp only [Option.ite_none_right_eq_some, Option.some.injEq] at named
            obtain ⟨rfl, rfl⟩ := named
            exact Bidding.submit_names succeeds
        | _ => simp at named
    | update env expert id value currency =>
        exact ended (Bidding.update_reprices env expert id value currency db)
    | _ => simp at named
  · cases call with
    | setQuote admin id value reviewNotes =>
        exact ended (Assignments.setQuote_reprices admin id value reviewNotes db)
    | approvePool env admin id expertIds value =>
        exact ended (Assignments.approvePool_reprices env admin id expertIds
          value db)
    | assignDirect env admin id expert value deadline scopeNote =>
        exact ended (Assignments.assignDirect_reprices env admin id expert
          value deadline scopeNote db)
    | _ => simp at named

namespace Acceptance

/-- The price that the order takes. -/
def price (acceptance : Acceptance) (db : Db) : Option Price :=
  match acceptance with
  | .offer _ _ id => some (.offer id)
  | .invitation _ _ id _ =>
      (db.invitations.row id).map fun invitation => .quote invitation.request
  | .assignment _ _ id => some (.assignment id)

theorem Matches.price
    {acceptance : Acceptance} {proposal : Proposal} {request : ServiceRequest}
    {order : Order} {db next : Db} {price : Price}
    (matched : acceptance.Matches proposal request order db next)
    (takes : acceptance.price db = some price) :
    db.price price = some order.amount := by
  have chosen := matched.chosen
  have amount := matched.amount
  cases acceptance with
  | offer env student id =>
      obtain rfl := Option.some.inj takes
      obtain ⟨offer, stored, rfl⟩ := Option.map_eq_some_iff.mp chosen
      simpa [Db.price, stored] using amount
  | invitation env expert id expectedAmount =>
      obtain ⟨invitation, stored, rfl⟩ := Option.map_eq_some_iff.mp chosen
      obtain ⟨other, present, rfl⟩ := Option.map_eq_some_iff.mp takes
      obtain rfl := Option.some.inj (stored.symm.trans present)
      have row := matched.requestRow
      simp only [PoolInvitation.proposal_request] at row
      simpa [Db.price, row] using amount
  | assignment env expert id =>
      obtain rfl := Option.some.inj takes
      obtain ⟨assignment, stored, rfl⟩ := Option.map_eq_some_iff.mp chosen
      simpa [Db.price, stored] using amount

end Acceptance

/--
After any steps, a successful step names an amount, any steps follow that name
none for the same price, and an acceptance takes it.  The order has the amount,
which reaches the floor in force when it was named exactly when it does not lie
between the default floor and that one.
-/
theorem floor_met_iff
    (start : Db) (earlier : List Operation) (setter : Operation) (price : Price)
    (amount : Int) (later : List Operation) (acceptance : Acceptance) :
    let before := Operation.afterAll earlier start
    let db := Operation.afterAll later (setter.after before)
    setter.Succeeds before →
    setter.names price = some amount →
    Operation.AllMeet (fun operation current =>
      operation.Succeeds current → operation.names price = none)
        later (setter.after before) →
    acceptance.price db = some price →
    acceptance.operation.Succeeds db →
    ∃ order, (acceptance.operation.after db).orders.row acceptance.key =
        some order ∧ order.amount = amount ∧
      (before.config.minOfferMinor ≤ order.amount ↔
        ¬(Payments.minOfferMinor ≤ amount ∧
          amount < before.config.minOfferMinor)) := by
  intro before db succeeds named unnamed takes accepted
  have set := price_of_names succeeds named
  have kept : db.price price = some amount :=
    unnamed.keeps (fun current => current.price price = some amount)
      (fun _ _ keeps priced => price_after keeps priced) set.1
  cases acceptance.ends db with
  | failed fails _ => exact absurd accepted fails
  | succeeded _ left =>
      obtain ⟨proposal, request, order, matched⟩ := left
      have same : order.amount = amount :=
        Option.some.inj ((matched.price takes).symm.trans kept)
      refine ⟨order, matched.orderRow, same, ?_⟩
      rw [same]
      have floor := set.2
      omega

/-- An open request, and an expert. -/
def openRequest : Db where
  experts := .insert .empty 2 ⟨true, true, []⟩
  requests := .insert .empty 10 { student := 1, status := .opened }

/-- The expert offers ten dollars. -/
def tenDollars : Operation :=
  .offer (.submit { now := 1, key := 20 } 2 10 1000 "USD")

/-- The student selects the offer. -/
def selection : Acceptance :=
  .offer { now := 2, key := 40 } ⟨1, false⟩ 20

/-- Under the default floor the offer is booked above the floor. -/
theorem floor_met_default :
    ∃ order, (selection.operation.after (Operation.afterAll []
        (tenDollars.after openRequest))).orders.row 40 = some order ∧
      order.amount = 1000 ∧
      (500 ≤ order.amount ↔ ¬(Payments.minOfferMinor ≤ 1000 ∧
        (1000 : Int) < 500)) :=
  floor_met_iff openRequest [] tenDollars (.offer 20) 1000 [] selection
    (by decide +kernel) rfl trivial rfl (by decide +kernel)

/-- After the floor has been raised to twenty dollars, ten are booked. -/
theorem floor_ignored :
    let raised := Operation.after
      (.payment (.configure { minOfferMinor := 2000 })) openRequest
    let db := selection.operation.after (tenDollars.after raised)
    raised.config.minOfferMinor = 2000 ∧
      tenDollars.Succeeds raised ∧
      (db.orders.row 40).map Order.amount = some 1000 := by
  decide +kernel

end KnowledgeMarketplace
