import KnowledgeMarketplace.Operations.Runs
import KnowledgeMarketplace.Payments.Copying

/-!
# The currency of the platform

Drafts and offers name a currency that no service checks.  Everything that is
booked later copies it, and the sums of the ledger do not look at it.
-/

namespace KnowledgeMarketplace

open Transaction

namespace Payments

/-- Every row with an amount is in the currency of the platform. -/
structure SingleCurrency (platform : String) (db : Db) : Prop where
  requests : db.requests.All (·.currency = platform)
  offers : db.offers.All (·.currency = platform)
  assignments : db.assignments.All (·.currency = platform)
  orders : db.orders.All (·.currency = platform)
  payments : db.payments.All (·.currency = platform)
  refunds : db.refunds.All (·.currency = platform)
  payouts : db.payouts.All (·.currency = platform)
  ledger : ∀ entry ∈ db.ledger, entry.currency = platform

/-- Effects in the currency of the platform. -/
def inCurrency (platform : String) : Effect Stmt → Prop
  | .write (.insertRequest _ value) => value.currency = platform
  | .write (.saveRequest _ _ set) | .write (.updateRequest _ set) =>
      ∀ stored, stored.currency = platform → (set stored).currency = platform
  | .write (.insertOffer _ value) => value.currency = platform
  | .write (.saveOffer _ set) =>
      ∀ stored, stored.currency = platform → (set stored).currency = platform
  | .write (.insertAssignment _ value) => value.currency = platform
  | .write (.saveAssignment _ set) =>
      ∀ stored, stored.currency = platform → (set stored).currency = platform
  | .write (.insertOrder _ value) => value.currency = platform
  | .write (.saveOrder _ set) =>
      ∀ stored, stored.currency = platform → (set stored).currency = platform
  | .write (.insertPayment _ value) => value.currency = platform
  | .write (.savePayment _ set) | .write (.updatePayment _ set) =>
      ∀ stored, stored.currency = platform → (set stored).currency = platform
  | .write (.insertRefund _ value) => value.currency = platform
  | .write (.saveRefund _ set) =>
      ∀ stored, stored.currency = platform → (set stored).currency = platform
  | .write (.insertPayout _ value) => value.currency = platform
  | .write (.savePayout _ set) =>
      ∀ stored, stored.currency = platform → (set stored).currency = platform
  | .write (.appendLedger entry) => entry.currency = platform
  | .write _ | .savepoint => True

variable {platform : String}

/-- A statement in the currency of the platform keeps all rows in it. -/
theorem inCurrency_keeps
    (stmt : Stmt) (fine : inCurrency platform (.write stmt)) (db : Db)
    (single : SingleCurrency platform db) :
    SingleCurrency platform (stmt.apply db) := by
  cases stmt with
  | insertRequest id value =>
      exact { single with requests := single.requests.insert id fine }
  | saveRequest id loaded set =>
      exact { single with requests := single.requests.modify id fine }
  | updateRequest id set =>
      exact { single with requests := single.requests.modify id fine }
  | insertOffer id value =>
      exact { single with offers := single.offers.insert id fine }
  | saveOffer id set =>
      exact { single with offers := single.offers.modify id fine }
  | insertAssignment id value =>
      exact { single with assignments := single.assignments.insert id fine }
  | saveAssignment id set =>
      exact { single with assignments := single.assignments.modify id fine }
  | insertOrder id value =>
      exact { single with orders := single.orders.insert id fine }
  | saveOrder id set =>
      exact { single with orders := single.orders.modify id fine }
  | insertPayment id value =>
      exact { single with payments := single.payments.insert id fine }
  | savePayment id set =>
      exact { single with payments := single.payments.modify id fine }
  | updatePayment id set =>
      exact { single with payments := single.payments.modify id fine }
  | insertRefund id value =>
      exact { single with refunds := single.refunds.insert id fine }
  | saveRefund id set =>
      exact { single with refunds := single.refunds.modify id fine }
  | insertPayout id value =>
      exact { single with payouts := single.payouts.insert id fine }
  | savePayout id set =>
      exact { single with payouts := single.payouts.modify id fine }
  | appendLedger entry =>
      refine { single with ledger := fun booked member => ?_ }
      rcases List.mem_append.mp member with old | new
      · exact single.ledger booked old
      · exact List.mem_singleton.mp new ▸ fine
  | _ => exact { single with }

/-- The currency that an operation names, or falls back to, is the platform's. -/
def NamesPlatform (platform : String) : Operation → Prop
  | .request (.create _ _ payload) =>
      payload.currency.getD "USD" = platform
  | .request (.updateDraft _ _ _ payload) =>
      payload.currency.all (· = platform)
  | .offer (.submit _ _ _ _ currency) => currency = platform
  | .offer (.update _ _ _ _ currency) => currency.all (· = platform)
  | _ => True

/-- An edited draft stays in the currency of the platform. -/
theorem assign_currency
    {payload : ServiceRequests.Payload} {request : ServiceRequest}
    (names : payload.currency.all (· = platform))
    (single : request.currency = platform) :
    (payload.assign request).currency = platform := by
  cases named : payload.currency with
  | none => simpa [ServiceRequests.Payload.assign, named] using single
  | some currency =>
      simpa [ServiceRequests.Payload.assign, named] using names

theorem requestCall_derives
    {call : RequestCall} (names : NamesPlatform platform (.request call)) :
    call.call.Derives (SingleCurrency platform) (inCurrency platform)
      fun _ => True := by
  cases call with
  | create env student payload =>
      have named : (payload.assign { student }).currency = platform := names
      simp [RequestCall.call, Call.perform, ServiceRequests.createRequest,
        Tx.create, inCurrency, named]
  | updateDraft env owner id payload =>
      simp only [RequestCall.call, Call.performOn, Call.perform, Call.get,
        ServiceRequests.updateDraft, inCurrency, Request.derives_bind,
        Request.derives_load, Request.derives_orFail, Request.derives_atomic,
        Prog.derives_bind, Prog.derives_require, Prog.derives_ofExcept,
        Prog.derives_exec, Prog.derives_pure, implies_true, and_true]
      intro db single copy found _ _ _ _ _ _ _ _ stored _
      exact assign_currency names (single.requests id copy found)
  | _ =>
      refine Request.Emits.derives ?_
      simp [RequestCall.call, Call.performOn, Call.perform, Call.get,
        Call.exec, ServiceRequests.publish, ServiceRequests.cancel,
        ServiceRequests.reopen, ServiceRequests.expireDue,
        ServiceRequests.transition, inCurrency]

/-- The factory books an order in the currency that it is given. -/
theorem createOrderForRequest_derives
    {currency : String} (single : currency = platform)
    (env : Env) (id : RequestId) (request : ServiceRequest) (expert : UserId)
    (amount : Option Int) (source : OrderSource) (offerId : Option OfferId) :
    (Orders.createOrderForRequest env id request expert amount currency source
      offerId).Derives (SingleCurrency platform) (inCurrency platform)
      fun _ => True := by
  simp [Orders.createOrderForRequest, Orders.recordEvent, Tx.create,
    inCurrency, single]

theorem offerCall_derives
    {call : OfferCall} (names : NamesPlatform platform (.offer call)) :
    call.call.Derives (SingleCurrency platform) (inCurrency platform)
      fun _ => True := by
  cases call with
  | submit env expert id amount currency =>
      have named : currency = platform := names
      refine Request.Emits.derives ?_
      simp [OfferCall.call, Call.get, Bidding.submit, Bidding.expertGuard,
        Bidding.limitGuard, Bidding.saveOfferCount, Tx.create, inCurrency,
        named]
  | update env expert id amount currency =>
      have kept : ∀ offer : Offer, offer.currency = platform →
          currency.getD offer.currency = platform := by
        intro offer single
        cases named : currency with
        | none => exact single
        | some currency => simpa [NamesPlatform, named] using names
      simp only [OfferCall.call, OfferCall.onOffer, Call.get, Call.exec,
        Bidding.updateOffer, inCurrency, Request.derives_bind,
        Request.derives_load, Request.derives_orFail, Request.derives_atomic,
        Request.derives_require, Request.derives_ofExcept, Prog.derives_exec,
        implies_true, and_true]
      intro db single copy found _ _ _ _ _ _ _ _ _ _ _ _
      exact kept copy.1 (single.offers id copy.1 (OfferCall.find_offer found))
  | accept env student id =>
      refine Request.derives_atomic.mpr (.seq ?_ fun _ => trivial)
      refine .bind (getForUpdate_derives fun db single => single.offers id)
        fun offer single => ?_
      refine .seq ?_ fun request => .seq (by simp) fun _ => ?_
      · simp [Bidding.getRequestForUpdate, Tx.getForUpdate, Tx.get]
      refine .seq (by simp) fun _ => ?_
      refine .seq (by simp) fun _ => .seq (by simp) fun _ => ?_
      refine .seq (by simp) fun _ => .seq (by simp) fun _ => ?_
      refine .seq (by simp [inCurrency]) fun _ => .seq ?_ fun _ => .seq ?_ fun _ => ?_
      · exact Prog.Emits.derives (by simp [Bidding.declineSiblings, inCurrency])
      · simp [ServiceRequests.markMatched, ServiceRequests.transition, inCurrency]
      · exact createOrderForRequest_derives single ..
  | _ =>
      refine Request.Emits.derives ?_
      simp [OfferCall.call, OfferCall.onOffer, Call.get, Call.exec,
        Bidding.withdraw, Bidding.resubmit, Bidding.decline,
        Bidding.expertGuard, Bidding.limitGuard, Bidding.saveOfferCount,
        inCurrency]

theorem managedCall_derives (call : ManagedCall) :
    call.call.Derives (SingleCurrency platform) (inCurrency platform)
      fun _ => True := by
  have matched : ∀ env id (request : ServiceRequest),
      request.currency = platform →
        (ServiceRequests.markMatched env id request).Derives
          (SingleCurrency platform) (inCurrency platform) fun outcome =>
            ∀ found, outcome = .ok found → found.currency = platform := by
    intro env id request single
    simp [ServiceRequests.markMatched, ServiceRequests.transition,
      ServiceRequests.moved, inCurrency, single]
  cases call with
  | assignDirect env admin id expert amount deadline scopeNote =>
      simp only [ManagedCall.call, Call.performOn, Call.perform, Call.get,
        Request.derives_bind, Request.derives_load, Request.derives_orFail,
        implies_true, and_true]
      intro db single copy found
      have named : copy.currency = platform := single.requests id copy found
      simp [Assignments.assignDirect, Assignments.expertGuard, Tx.create,
        inCurrency, named]
  | acceptInvitation env expert id expectedAmount =>
      refine .seq (by simp [Call.get]) fun copy =>
        Request.derives_atomic.mpr (.seq ?_ fun _ => trivial)
      refine .seq (by simp [Assignments.expertGuard]) fun _ => ?_
      refine .seq (by simp) fun _ => .seq ?_ fun found => ?_
      · simp [Assignments.getInvitationForUpdate, Tx.getForUpdate, Tx.get]
      refine .bind (getForUpdate_derives fun db single =>
        single.requests found.request) fun request single => ?_
      refine .seq (by simp) fun _ => .seq ?_ fun _ => .seq ?_ fun _ => ?_
      · simp [Assignments.matchedGuard]
      · simp [inCurrency]
      refine .seq ?_ fun _ => .bind (matched _ _ _ single) fun request single => ?_
      · exact Prog.Emits.derives
          (by simp [Assignments.declineOthers, inCurrency])
      exact createOrderForRequest_derives single ..
  | acceptDirect env expert id =>
      refine .seq (by simp [Call.get]) fun copy =>
        Request.derives_atomic.mpr (.seq ?_ fun _ => trivial)
      refine .seq (by simp [Assignments.expertGuard]) fun _ => ?_
      refine .seq (by simp) fun _ => ?_
      refine .bind (getForUpdate_derives fun db single =>
        single.assignments id) fun found single => .seq ?_ fun request => ?_
      · simp [Bidding.getRequestForUpdate, Tx.getForUpdate, Tx.get]
      refine .seq (by simp) fun _ => .seq ?_ fun _ => .seq ?_ fun _ => ?_
      · simp [Assignments.matchedGuard]
      · simp [inCurrency]
      refine .seq ?_ fun _ => createOrderForRequest_derives single ..
      simp [ServiceRequests.markMatched, ServiceRequests.transition, inCurrency]
  | _ =>
      refine Request.Emits.derives ?_
      simp [ManagedCall.call, Call.performOn, Call.perform, Call.get,
        Assignments.approvePool, Assignments.supersedeDirect,
        Assignments.setQuote, Assignments.rejectManaged,
        Assignments.declineInvitation, Assignments.declineDirect,
        Assignments.expireDue, Assignments.inviteAll,
        Assignments.expertGuard, Tx.create, ServiceRequests.transition,
        inCurrency]

/-! ## Work on orders, payments and disputes -/

/-- Work on orders and disputes leaves the currency of an order alone. -/
theorem inCurrency_workflow : Workflow (inCurrency platform) where
  elsewhere stmt other := by
    cases stmt <;> first | exact trivial | simp [Stmt.table] at other
  moved _ _ _ _ _ := by simp [ServiceRequests.transition, inCurrency]
  saved _ _ keeps stored single := (keeps.currency stored).trans single
  frozen _ _ single := single

/-- Everything is booked in the currency of the row that it is booked from. -/
theorem inCurrency_copying :
    Copying (SingleCurrency platform) (inCurrency platform)
      (fun _ order => order.currency = platform) (·.currency = platform)
      (·.currency = platform) where
  workflow := inCurrency_workflow
  savepoint := trivial
  kept := inCurrency_keeps
  orders _ single id := single.orders id
  payments _ single := single.payments
  payouts _ single := single.payouts
  moved _ _ _ single := single
  thawed _ _ single := single
  opened _ _ _ single same := same.trans single
  rearmed _ _ _ single _ _ := single
  paymentSaved _ _ keeps :=
    ⟨fun stored single => (keeps stored).trans single,
      fun stored single => (keeps stored).trans single⟩
  booked _ _ _ _ _ single books := books.currency.trans single
  refunded _ _ _ single same := same.trans single
  refundSaved _ _ keeps stored single := (keeps stored).trans single
  scheduled _ _ _ _ single _ _ same := same.trans single
  payoutSaved _ _ keeps stored single := (keeps.currency stored).trans single
  settled _ _ single settles := settles.currency.trans single

/-- Every operation that names the platform's currency derives rows in it. -/
theorem operation_derives
    {operation : Operation} (names : NamesPlatform platform operation) :
    operation.call.Derives (SingleCurrency platform) (inCurrency platform)
      fun _ => True := by
  cases operation with
  | request call => exact requestCall_derives names
  | offer call => exact offerCall_derives names
  | managed call => exact managedCall_derives call
  | order call => exact inCurrency_copying.orderCall call
  | payment call => exact inCurrency_copying.paymentCall call
  | dispute call => exact inCurrency_copying.disputeCall call

/-! ## Sums -/

/-- Per expert: credited, paid out and outstanding, over all ledger entries. -/
def earningsFor (user : UserId) (db : Db) : Int × Int × Int :=
  let sum := fun entryType => ((db.ledger.filter fun entry =>
    entry.user = some user && entry.entryType = entryType).map
      LedgerEntry.amountMinor).sum
  let credit := sum .expertCredit
  let paidOut := -sum .payout
  (credit, paidOut, credit - paidOut)

/-- The currencies of all rows that the sums add up. -/
def summedCurrencies (db : Db) : List String :=
  db.ledger.map (·.currency) ++ db.payments.collect (some ·.currency) ++
    db.refunds.collect (some ·.currency) ++ db.payouts.collect (some ·.currency)

/-- Under a single currency no sum adds two. -/
theorem SingleCurrency.summed
    {db : Db} (single : SingleCurrency platform db) :
    ∀ currency ∈ summedCurrencies db, currency = platform := by
  have collected : ∀ {κ ρ : Type} (table : Table κ ρ) (currency : ρ → String),
      table.All (currency · = platform) →
        ∀ found ∈ table.collect (some <| currency ·), found = platform := by
    intro κ ρ table currency all found member
    obtain ⟨key, -, picked⟩ := List.mem_filterMap.mp member
    obtain ⟨value, stored, same⟩ := Option.bind_eq_some_iff.mp picked
    obtain rfl := Option.some.inj same
    exact all key value stored
  intro currency member
  simp only [summedCurrencies, List.mem_append, List.mem_map] at member
  rcases member with ((⟨entry, booked, rfl⟩ | paid) | refunded) | settled
  · exact single.ledger entry booked
  · exact collected _ _ single.payments currency paid
  · exact collected _ _ single.refunds currency refunded
  · exact collected _ _ single.payouts currency settled

/-! ## Operations that name another currency -/

/-- A currency that is kept or named has to be named to be another one. -/
theorem all_of_getD
    {currency : Option String} {old : String}
    (single : currency.getD old = platform) :
    currency.all (· = platform) = true := by
  cases currency with
  | none => rfl
  | some named => simpa using single

theorem foreign_strays
    {operation : Operation} {db : Db}
    (foreign : ¬NamesPlatform platform operation)
    (succeeds : (Transaction.Request.run operation.call db).1 = .ok ()) :
    ¬SingleCurrency platform (operation.after db) := by
  suffices whole : operation.call.Leaves db [] fun result next _ =>
      result = .ok () → ¬SingleCurrency platform next from
    Request.leaves_iff_run.mp whole succeeds
  rcases operation with call | call | _ | _ | _ | _ <;>
    try exact absurd trivial foreign
  · cases call with
    | create env student payload =>
        simp only [Operation.call, RequestCall.call, Call.perform,
          ServiceRequests.createRequest, Tx.create, Request.leaves_atomic,
          Prog.post_bind, Prog.post_ofExcept, Prog.post_lockRow,
          Prog.post_read, Prog.post_require, Prog.post_exec, Prog.post_pure,
          applyAll_nil, reduceCtorEq, false_implies, implies_true, and_true,
          forall_const]
        intro _ _ _ _ _ _ unused _ _ single
        have fresh : db.requests.row env.key = none := by simpa using unused
        exact foreign (single.requests env.key _
          (Table.row_insert_self (payload.assign { student }) fresh))
    | updateDraft env owner id payload =>
        simp only [Operation.call, RequestCall.call, Call.performOn,
          Call.perform, Call.get, ServiceRequests.updateDraft,
          Request.leaves_bind, Request.leaves_load, Request.leaves_orFail,
          Request.leaves_atomic, Prog.post_bind, Prog.post_ofExcept,
          Prog.post_require, Prog.post_exec, Prog.post_pure, applyAll_nil,
          reduceCtorEq, false_implies, implies_true, and_true, forall_const]
        intro copy found _ _ _ _ _ _ _ _ _ _ single
        have stored : db.requests.row id = some copy := found
        have edited : (payload.assign copy).currency = platform :=
          single.requests id _ (by simp [Stmt.apply, stored])
        exact foreign (all_of_getD edited)
    | _ => exact absurd trivial foreign
  · cases call with
    | submit env expert id amount currency =>
        simp only [Operation.call, OfferCall.call, Call.get, Bidding.submit,
          Bidding.expertGuard, Bidding.limitGuard, Tx.create,
          Request.leaves_bind, Request.leaves_load, Request.leaves_orFail,
          Request.leaves_require, Request.leaves_ofExcept,
          Request.leaves_atomic, Request.leaves_pure, Prog.post_bind,
          Prog.post_lockRow, Prog.post_read, Prog.post_require,
          Prog.post_exec, Prog.post_pure, applyAll_nil, reduceCtorEq,
          false_implies, implies_true, and_true, forall_const]
        intro request _ _ _ _ _ _ _ _ unused single
        have fresh : db.offers.row env.key = none := by
          simp only [Bool.or_eq_true, not_or] at unused
          simpa using unused.1
        exact foreign (single.offers env.key _
          (Table.row_insert_self _ fresh))
    | update env expert id amount currency =>
        simp only [Operation.call, OfferCall.call, OfferCall.onOffer,
          Call.get, Call.exec, Bidding.updateOffer, Request.leaves_bind,
          Request.leaves_load, Request.leaves_orFail, Request.leaves_require,
          Request.leaves_ofExcept, Request.leaves_atomic, Prog.post_exec,
          applyAll_nil, reduceCtorEq, false_implies, implies_true, and_true,
          forall_const]
        intro copy found _ _ _ _ _ _ _ _ single
        have edited : currency.getD copy.1.currency = platform :=
          single.offers id _ (by simp [Stmt.apply, OfferCall.find_offer found]; rfl)
        exact foreign (all_of_getD edited)
    | _ => exact absurd trivial foreign

/--
In every interleaving of operations that name the platform's currency, if they
name one, every row is in that currency and no sum adds two.  An operation that
succeeds on its own keeps it so exactly when it names that currency.
-/
theorem single_currency_iff
    {db : Db} (start : SingleCurrency platform db) :
    (∀ (operations : Nat → Operation) (system : Marketplace),
      (∀ client, NamesPlatform platform (operations client)) →
      System.Reach (fun _ _ => True) (Marketplace.start db operations) system →
        SingleCurrency platform system.committed ∧
          ∀ currency ∈ summedCurrencies system.committed,
            currency = platform) ∧
      ∀ operation : Operation,
        (Transaction.Request.run operation.call db).1 = .ok () →
          (SingleCurrency platform (operation.after db) ↔
            NamesPlatform platform operation) := by
  refine ⟨fun operations system names reach => ?_, fun operation ok => ?_⟩
  · have single : SingleCurrency platform system.committed :=
      reach.keeps_of_derives inCurrency_keeps
        (fun client => operation_derives (names client)) start
    exact ⟨single, single.summed⟩
  · refine ⟨fun single => by_contra fun foreign =>
      foreign_strays foreign ok single, fun names => ?_⟩
    exact (operation_derives names).keeps inCurrency_keeps start

/-- Two open requests in dollars, and an expert. -/
def twoRequests : Db where
  experts := .insert .empty 2 ⟨true, true, []⟩
  requests := .insert (.insert .empty 10 { student := 1, status := .opened }) 11
    { student := 1, status := .opened }

/-- Both requests go to the expert, one for dollars and one for euros. -/
def twoCurrencies : Nat → Operation
  | 0 => .offer (.submit { now := 1, key := 20 } 2 10 1000 "USD")
  | 1 => .offer (.submit { now := 1, key := 21 } 2 11 2000 "EUR")
  | 2 => .offer (.accept { now := 2, key := 40 } ⟨1, false⟩ 20)
  | 3 => .offer (.accept { now := 2, key := 41 } ⟨1, false⟩ 21)
  | 4 => .payment (.confirmOrderPayment { now := 3, hex := "a" } 40)
  | _ => .payment (.confirmOrderPayment { now := 3, hex := "b" } 41)

/-- One client after the other. -/
def inTurn (count : Nat) : List Turn :=
  (List.range count).flatMap fun client => turns client 40

theorem twoRequests_single : SingleCurrency "USD" twoRequests where
  requests :=
    have unused : (Table.empty : Table RequestId ServiceRequest).All
        (·.currency = "USD") := fun _ _ none => nomatch none
    (unused.insert 10 rfl).insert 11 rfl
  offers _ _ none := nomatch none
  assignments _ _ none := nomatch none
  orders _ _ none := nomatch none
  payments _ _ none := nomatch none
  refunds _ _ none := nomatch none
  payouts _ _ none := nomatch none
  ledger _ none := nomatch none

/-- The earnings of the expert add dollars and euros. -/
theorem earnings_add_currencies :
    let system := (Marketplace.start twoRequests twoCurrencies).runAll (inTurn 6)
    SingleCurrency "USD" twoRequests ∧
      (system.committed.ledger.filter fun entry =>
        entry.entryType = .expertCredit && entry.user = some 2).map
          (fun entry => (entry.amountMinor, entry.currency)) =
            [(850, "USD"), (1700, "EUR")] ∧
      earningsFor 2 system.committed = (2550, 0, 2550) ∧
      ¬SingleCurrency "USD" system.committed := by
  refine ⟨twoRequests_single, by decide +kernel, by decide +kernel,
    fun single => ?_⟩
  have foreign : "EUR" ∈ summedCurrencies
      ((Marketplace.start twoRequests twoCurrencies).runAll
        (inTurn 6)).committed := by decide +kernel
  exact absurd (single.summed "EUR" foreign) (by decide)

/-- The same without the offer in euros. -/
def dollars : Nat → Operation
  | 0 => twoCurrencies 0
  | 1 => twoCurrencies 2
  | _ => twoCurrencies 4

/-- A paid order in dollars; the offer in euros alone is foreign. -/
theorem single_currency_dollars :
    let system := (Marketplace.start twoRequests dollars).runAll (inTurn 3)
    SingleCurrency "USD" system.committed ∧
      ¬SingleCurrency "USD" ((twoCurrencies 1).after twoRequests) := by
  have both := single_currency_iff twoRequests_single
  refine ⟨(both.1 dollars _ (fun client => ?_) (System.reach_runAll _ _)).1,
    fun single => ?_⟩
  · rcases client with _ | _ | _
    · rfl
    · trivial
    · trivial
  · have names : "EUR" = "USD" :=
      (both.2 (twoCurrencies 1) (by decide +kernel)).mp single
    exact absurd names (by decide)

end Payments

end KnowledgeMarketplace
