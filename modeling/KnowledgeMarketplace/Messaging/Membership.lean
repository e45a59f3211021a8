import KnowledgeMarketplace.Files.Access
import KnowledgeMarketplace.Messaging.Attachments
import KnowledgeMarketplace.Messaging.Reading
import KnowledgeMarketplace.Messaging.Threads
import KnowledgeMarketplace.Operations.Runs
import KnowledgeMarketplace.Transaction.Derived

/-!
# Membership of threads

Who may write in a thread follows the rows of its context.  Who finds it in the
inbox, and who may fetch the files posted in it, follows the participants that
were stored when the thread was opened.
-/

namespace KnowledgeMarketplace

open Transaction

namespace Messaging

/-- The request and the expert of an offer. -/
def bid (offer : Offer) : RequestId × UserId :=
  (offer.request, offer.expert)

/-- What a thread is about, and its stored participants. -/
def matter (thread : Thread) :
    ThreadContext × Option RequestId × Option OrderId × List UserId :=
  (thread.contextType, thread.request, thread.order, thread.participants)

/-- The people concerned in `origin` are still the same. -/
structure Kept (origin db : Db) : Prop where
  offers : ∀ id, (db.offers.row id).map bid = (origin.offers.row id).map bid
  requests : ∀ id old, origin.requests.row id = some old →
    ∃ row, db.requests.row id = some row ∧ row.student = old.student
  orders : ∀ id old, origin.orders.row id = some old →
    ∃ row, db.orders.row id = some row ∧ row.student = old.student ∧
      row.expert = old.expert
  threads : ∀ id, (db.conversations.threads.row id).map matter =
    (origin.conversations.threads.row id).map matter

theorem Kept.refl (db : Db) : Kept db db where
  offers _ := rfl
  requests _ old stored := ⟨old, stored, rfl⟩
  orders _ old stored := ⟨old, stored, rfl, rfl⟩
  threads _ := rfl

/-- Effects that keep the people concerned. -/
def keeping (origin : Db) : Effect Stmt → Prop
  | .write (.insertOffer _ _) => False
  | .write (.saveOffer id set) => ∀ stored,
      some (bid stored) = (origin.offers.row id).map bid →
        bid (set stored) = bid stored
  | .write (.saveRequest id _ set) | .write (.updateRequest id set) =>
      ∀ old stored, origin.requests.row id = some old →
        stored.student = old.student → (set stored).student = old.student
  | .write (.saveOrder _ set) => ∀ stored,
      (set stored).student = stored.student ∧
        (set stored).expert = stored.expert
  | .write (.converse (.insertThread _ _)) => False
  | .write (.converse (.saveThread _ set)) =>
      ∀ stored, matter (set stored) = matter stored
  | .write _ | .savepoint => True

variable {origin db : Db}

theorem Kept.apply
    (stmt : Stmt) (keeps : keeping origin (.write stmt)) (db : Db)
    (kept : Kept origin db) : Kept origin (stmt.apply db) := by
  cases stmt with
  | insertOffer => exact keeps.elim
  | saveOffer id set =>
      refine { kept with offers := fun other => ?_ }
      by_cases same : other = id
      · subst same
        have whose := kept.offers other
        simp only [Stmt.apply, Table.row_modify, if_true]
        cases stored : db.offers.row other with
        | none => simpa [stored] using whose
        | some offer =>
            rw [stored] at whose
            simpa [keeps offer whose] using whose
      · simpa [Stmt.apply, same] using kept.offers other
  | insertRequest id value =>
      refine { kept with requests := fun other old stored => ?_ }
      obtain ⟨row, found, student⟩ := kept.requests other old stored
      exact ⟨row, Table.row_insert_of_some id value found, student⟩
  | saveRequest id loaded set | updateRequest id set =>
      refine { kept with requests := fun other old stored => ?_ }
      obtain ⟨row, found, student⟩ := kept.requests other old stored
      by_cases same : other = id
      · subst same
        exact ⟨set row, by simp [Stmt.apply, found],
          keeps old row stored student⟩
      · exact ⟨row, by simp [Stmt.apply, same, found], student⟩
  | insertOrder id value =>
      refine { kept with orders := fun other old stored => ?_ }
      obtain ⟨row, found, parties⟩ := kept.orders other old stored
      exact ⟨row, Table.row_insert_of_some id value found, parties⟩
  | saveOrder id set =>
      refine { kept with orders := fun other old stored => ?_ }
      obtain ⟨row, found, student, expert⟩ := kept.orders other old stored
      by_cases same : other = id
      · subst same
        exact ⟨set row, by simp [Stmt.apply, found],
          (keeps row).1.trans student, (keeps row).2.trans expert⟩
      · exact ⟨row, by simp [Stmt.apply, same, found], student, expert⟩
  | converse stmt =>
      cases stmt with
      | insertThread => exact keeps.elim
      | saveThread id set =>
          refine { kept with threads := fun other => ?_ }
          by_cases same : other = id
          · subst same
            have whole := kept.threads other
            simp only [Stmt.apply, ConversationStmt.apply, Table.row_modify,
              if_true]
            cases stored : db.conversations.threads.row other with
            | none => simpa [stored] using whole
            | some thread =>
                rw [stored] at whole
                simpa [keeps thread] using whole
          · simpa [Stmt.apply, ConversationStmt.apply, same] using
              kept.threads other
      | _ => exact { kept with threads := kept.threads }
  | _ => exact { kept with threads := kept.threads }

/-! ## What goes on -/

theorem keeping_elsewhere
    {stmt : Stmt}
    (other : stmt.table ∉ [.requests, .offers, .orders, .conversations]) :
    keeping origin (.write stmt) := by
  cases stmt <;> simp_all [keeping, Stmt.table]

theorem keeping_ordering : Ordering (keeping origin) where
  elsewhere stmt other := keeping_elsewhere fun table => other (by
    simp only [List.mem_cons, List.not_mem_nil, or_false] at table ⊢
    rcases table with same | same | same | same <;> simp [same])
  moved _ _ _ _ _ := by simp [ServiceRequests.transition, keeping]
  saved _ set save stored := by
    rcases save.keepsTerms with keeps | rfl
    · exact ⟨keeps.student stored, keeps.expert stored⟩
    · exact ⟨rfl, rfl⟩
  told _ _ := trivial

/-- The operation submits an offer. -/
def submits : Operation → Bool
  | .offer (.submit _ _ _ _ _) => true
  | _ => false

theorem createOrderForRequest_keeping
    (env : Env) (id : RequestId) (request : ServiceRequest) (expert : UserId)
    (amount : Option Int) (currency : String) (source : OrderSource)
    (offerId : Option OfferId) :
    (Orders.createOrderForRequest env id request expert amount currency source
      offerId).Emits (keeping origin) fun _ => True := by
  simp [Orders.createOrderForRequest, Orders.recordEvent, Tx.create, keeping]

theorem requestCall_keeping (call : RequestCall) :
    call.call.Derives (Kept origin) (keeping origin) fun _ => True := by
  cases call with
  | updateDraft env owner id payload =>
      simp only [RequestCall.call, Call.performOn, Call.perform, Call.get,
        ServiceRequests.updateDraft, keeping, Request.derives_bind,
        Request.derives_load, Request.derives_orFail, Request.derives_atomic,
        Prog.derives_bind, Prog.derives_require, Prog.derives_ofExcept,
        Prog.derives_exec, Prog.derives_pure, implies_true, and_true]
      intro db kept copy found _ _ _ _ _ _ _ _ old stored before _
      obtain ⟨row, present, student⟩ := kept.requests id old before
      obtain rfl := Option.some.inj (present.symm.trans found)
      exact student
  | _ =>
      refine Request.Emits.derives ?_
      simp [RequestCall.call, Call.performOn, Call.perform, Call.get,
        Call.exec, ServiceRequests.createRequest, ServiceRequests.publish,
        ServiceRequests.cancel, ServiceRequests.reopen,
        ServiceRequests.expireDue, ServiceRequests.transition, Tx.create,
        keeping]

theorem offerCall_keeping
    {call : OfferCall} (other : submits (.offer call) = false) :
    call.call.Derives (Kept origin) (keeping origin) fun _ => True := by
  cases call with
  | submit => exact nomatch other
  | update env expert id amount currency =>
      simp only [OfferCall.call, OfferCall.onOffer, Call.get, Call.exec,
        Bidding.updateOffer, keeping, Request.derives_bind,
        Request.derives_load, Request.derives_orFail, Request.derives_atomic,
        Request.derives_require, Request.derives_ofExcept, Prog.derives_exec,
        implies_true, and_true]
      intro db kept copy found _ _ _ _ _ _ _ _ _ _ stored whose
      have same := kept.offers id
      rw [OfferCall.find_offer found, Option.map_some, ← whose] at same
      exact Option.some.inj same
  | accept env student id =>
      refine Request.Emits.derives
        (Request.emits_atomic.mpr (.seq ?_ (by simp)))
      refine .seq (by simp [Bidding.getForUpdate, Tx.getForUpdate, Tx.get])
        fun found => .seq ?_ fun request => .seq (by simp) fun _ => ?_
      · simp [Bidding.getRequestForUpdate, Tx.getForUpdate, Tx.get]
      refine .seq (by simp) fun _ => .seq (by simp) fun _ => ?_
      refine .seq (by simp) fun _ => .seq (by simp) fun _ => ?_
      refine .seq (by simp) fun _ => .seq ?_ fun _ => .seq ?_ fun _ => ?_
      · simp [keeping, bid]
      · simp [Bidding.declineSiblings, keeping, bid]
      refine .seq ?_ fun _ => createOrderForRequest_keeping ..
      simp [ServiceRequests.markMatched, ServiceRequests.transition, keeping]
  | _ =>
      refine Request.Emits.derives ?_
      simp [OfferCall.call, OfferCall.onOffer, Call.get, Call.exec,
        Bidding.withdraw, Bidding.resubmit, Bidding.decline,
        Bidding.expertGuard, Bidding.limitGuard, Bidding.saveOfferCount,
        keeping, bid]

theorem managedCall_keeping (call : ManagedCall) :
    call.call.Emits (keeping origin) fun _ => True := by
  cases call <;>
    simp [ManagedCall.call, Call.performOn, Call.perform, Call.get,
      Assignments.approvePool, Assignments.assignDirect,
      Assignments.supersedeDirect, Assignments.setQuote,
      Assignments.rejectManaged, Assignments.declineInvitation,
      Assignments.declineDirect, Assignments.expireDue,
      Assignments.acceptInvitation, Assignments.acceptDirect,
      Assignments.declineOthers, Assignments.getInvitationForUpdate,
      Assignments.getAssignmentForUpdate, Assignments.matchedGuard,
      Assignments.inviteAll, Assignments.expertGuard, Tx.create,
      Bidding.getRequestForUpdate, Tx.getForUpdate, Tx.get,
      ServiceRequests.markMatched, ServiceRequests.transition,
      Orders.createOrderForRequest, Orders.recordEvent, keeping]

/-- Nobody new is concerned by work on orders, payments and disputes. -/
theorem operation_keeping_of_order
    {operation : Operation} (other : ¬operation.Triages) :
    operation.call.Emits (keeping origin) fun _ => True := by
  refine Operation.emits_of_accounts keeping_ordering trivial
    (fun stmt table => keeping_elsewhere fun same => ?_)
    (fun _ _ => ⟨rfl, rfl⟩) (fun _ _ _ _ => ⟨rfl, rfl⟩)
    (fun _ _ set save stored => ⟨save.keepsTerms.student stored,
      save.keepsTerms.expert stored⟩)
    (fun apart => ?_) (absurd · other)
  · simp only [List.mem_cons, List.not_mem_nil, or_false] at same table
    rcases table with found | found | found | found <;> simp [found] at same
  · rcases apart with delivers | extending | marks
    · exact delivers.emits (fun _ _ => trivial) (fun _ _ _ => ⟨rfl, rfl⟩)
        (fun _ _ => ⟨rfl, rfl⟩) fun _ _ => trivial
    · exact extending.emits (fun _ _ => trivial) (fun _ _ => trivial)
        (fun _ _ _ _ => ⟨rfl, rfl⟩) (fun _ _ _ => ⟨rfl, rfl⟩)
        (fun _ _ => ⟨rfl, rfl⟩) fun _ _ => trivial
    · exact marks.emits fun _ _ _ => trivial

/-- Only a submission concerns more people than before. -/
theorem operation_keeping
    {operation : Operation} (other : submits operation = false) :
    operation.call.Derives (Kept origin) (keeping origin) fun _ => True := by
  by_cases triages : operation.Triages
  · cases operation with
    | request call => exact requestCall_keeping call
    | offer call => exact offerCall_keeping other
    | managed call => exact (managedCall_keeping call).derives
    | _ => exact triages.elim
  · exact (operation_keeping_of_order triages).derives

/-- Neither do the requests in a conversation. -/
theorem exchange_keeping (exchange : Exchange) :
    exchange.call.Emits (keeping origin) fun _ => True := by
  have sends : ∀ env files thread sender body attachment,
      (sendMessage env files thread sender body attachment).Emits
        (keeping origin) fun _ => True := by
    intro env files thread sender body attachment
    refine Request.Emits.seq (by simp) fun _ => .seq (by simp) fun _ => ?_
    refine .seq (by simp) fun _ => .seq (by simp) fun _ => ?_
    refine .seq (by simp) fun _ => .seq (by simp) fun _ => ?_
    simp [storeMessage, Tx.create, Call.exec, keeping, matter]
  have finds : ∀ id user, (findThread id user).Emits (keeping origin)
      fun _ => True := by
    intro id user
    simp [findThread, threadForUser]
  have reads : ∀ env thread user,
      (Call.atomic (markRead env thread user)).Emits (keeping origin)
        fun _ => True := by
    intro env thread user
    simp [markRead, keeping]
  cases exchange with
  | send env files id user body attachment =>
      exact .seq (.seq (finds id user) fun thread =>
        sends env files thread user body attachment) (by simp)
  | sendLive env files thread user body attachment =>
      exact .seq (sends env files thread user body attachment) (by simp)
  | receipt env id user =>
      exact .seq (.seq (finds id user) fun thread => reads env thread user)
        (by simp)
  | receiptLive env thread user =>
      exact .seq (reads env thread user) (by simp)
  | page env id user =>
      exact .seq (.seq (finds id user) fun thread =>
        .seq (reads env thread user) (by simp)) (by simp)

/-! ## New threads and new bidders -/

/-- The row of the context is stored. -/
def Context.Stored (context : Context) (db : Db) : Prop :=
  match context with
  | .order id row | .dispute id row => db.orders.row id = some row
  | .request id row => db.requests.row id = some row

theorem Context.stored_of_find
    {contextType : ThreadContext} {id : Nat} {context : Context} {db : Db}
    (found : findContext contextType id db = some context) :
    context.Stored db := by
  cases contextType with
  | order | dispute | request =>
      obtain ⟨row, stored, rfl⟩ := Option.map_eq_some_iff.mp found
      exact stored

/-- A thread is opened with the participants that its context has. -/
def Opened (seen next : Db) : Prop :=
  ∃ key now, ∃ context : Context, context.Stored seen ∧
    seen.conversations.threads.row key = none ∧
    next = (Stmt.converse (.insertThread key
      (context.thread now (context.participants seen)))).apply seen

/-- Somebody new offers on a request. -/
structure NewBid (request : RequestId) (expert : UserId) (db next : Db) :
    Prop where
  offers : ∃ key offer, db.offers.row key = none ∧
    bid offer = (request, expert) ∧ next.offers = db.offers.insert key offer
  first : expert ∉ offerExperts request db
  about : ∃ row, db.requests.row request = some row ∧ row.student ≠ expert
  requests : ∀ id old, db.requests.row id = some old →
    ∃ row, next.requests.row id = some row ∧ row.student = old.student
  orders : next.orders = db.orders
  conversations : next.conversations = db.conversations

theorem mem_offerExperts {request : RequestId} {user : UserId} {db : Db} :
    user ∈ offerExperts request db ↔
      ∃ id, (db.offers.row id).map bid = some (request, user) := by
  simp only [offerExperts, Table.collect, List.mem_filterMap,
    Option.bind_eq_some_iff, Option.ite_none_right_eq_some, Option.some.injEq,
    Option.map_eq_some_iff, bid, Prod.mk.injEq, Table.mem_keys]
  constructor
  · rintro ⟨id, _, offer, stored, about, whose⟩
    exact ⟨id, offer, stored, about, whose⟩
  · rintro ⟨id, offer, stored, about, whose⟩
    exact ⟨id, by simp [stored], offer, stored, about, whose⟩

/-- Opening a context finds its thread, or opens one. -/
theorem getOrCreateThread_post
    (env : Env) (context : Context) (actor : UserId) {db : Db}
    (stored : context.Stored db) :
    (getOrCreateThread env context actor).Post db fun _ next =>
      next = db ∨ Opened db next := by
  simp only [getOrCreateThread, createThread, Tx.create, Prog.post_bind,
    Prog.post_read, Prog.post_require, Prog.post_orElse, Prog.post_lockRow,
    Prog.post_exec, Prog.post_pure, true_or, implies_true, and_true]
  refine fun _ _ => ⟨trivial, fun _ fresh => ?_⟩
  have opened : Opened db ((Stmt.converse (.insertThread env.key
      (context.thread env.now (context.participants db)))).apply db) :=
    ⟨env.key, env.now, context, stored, by simpa using fresh, rfl⟩
  exact ⟨fun _ => .inr opened, fun _ => .inr opened⟩

/-- An accepted submission is the first of its expert on the request. -/
theorem submit_bids
    (env : Env) (expert : UserId) (request : RequestId) (amount : Int)
    (currency : String) (db : Db) :
    let reached := Request.run
      (OfferCall.submit env expert request amount currency).call db
    reached.1 = .ok () ∧ NewBid request expert db reached.2 ∨
      reached.1 ≠ .ok () ∧ reached.2 = db := by
  intro reached
  suffices whole : (OfferCall.submit env expert request amount
      currency).call.Leaves db [] fun result next _ =>
        result = .ok () ∧ NewBid request expert db next ∨
          result ≠ .ok () ∧ next = db from
    Request.leaves_iff_run.mp whole
  simp only [OfferCall.call, Call.get, Bidding.submit, Bidding.expertGuard,
    Bidding.limitGuard, Tx.create, Request.leaves_bind, Request.leaves_load,
    Request.leaves_orFail, Request.leaves_require, Request.leaves_ofExcept,
    Request.leaves_atomic, Request.leaves_pure, Prog.post_bind,
    Prog.post_lockRow, Prog.post_read, Prog.post_require, Prog.post_exec,
    Prog.post_pure, applyAll_nil, reduceCtorEq, ne_eq, not_true_eq_false,
    not_false_eq_true, false_and, true_and, or_false, false_or, implies_true,
    and_true]
  intro row found _ _ foreign _ _ first _ unused
  have stored : db.requests.row request = some row := found
  simp only [Bool.or_eq_true, not_or, Option.isSome_iff_ne_none, ne_eq,
    not_not] at unused
  refine ⟨⟨env.key, _, unused.1, rfl, rfl⟩, ?_, ⟨row, stored, foreign⟩, ?_,
    rfl, rfl⟩
  · intro earlier
    obtain ⟨id, mine⟩ := mem_offerExperts.mp earlier
    obtain ⟨offer, there, same⟩ := Option.map_eq_some_iff.mp mine
    obtain ⟨about, whose⟩ := Prod.mk.inj same
    exact first (Table.any_eq_true.mpr
      ⟨id, offer, there, by simp [about, whose]⟩)
  · intro id old before
    by_cases same : id = request
    · subst same
      exact ⟨{ old with offerCount := row.offerCount + 1 },
        by simp [Bidding.saveOfferCount, Stmt.apply, before], rfl⟩
    · exact ⟨old, by simp [Bidding.saveOfferCount, Stmt.apply, same, before],
        rfl⟩

/-- What goes on: requests in conversations, and everything else. -/
inductive Visit where
  | activity (work : Activity)
  | exchange (talk : Exchange)

namespace Visit

/-- What a visit that runs alone leaves. -/
def after : Visit → Db → Db
  | .activity work, db => (Request.run work.call db).2
  | .exchange talk, db => (Request.run talk.call db).2

/-- What visits leave that run one after the other. -/
def afterAll (visits : List Visit) (db : Db) : Db :=
  visits.foldl (fun current visit => visit.after current) db

/-- The request that somebody new offers on. -/
def bidsOn (visit : Visit) (db : Db) : Option RequestId :=
  match visit with
  | .activity (.operation (.offer
      (.submit env expert request amount currency))) =>
      match (Request.run
        (OfferCall.submit env expert request amount currency).call db).1 with
      | .ok _ => some request
      | .error _ => none
  | _ => none

theorem bidsOn_of_other
    {operation : Operation} (other : submits operation = false) (db : Db) :
    bidsOn (.activity (.operation operation)) db = none := by
  unfold bidsOn
  split
  case h_1 same =>
    cases same
    exact nomatch other
  case h_2 => rfl

/-- An activity leaves what its operation leaves. -/
theorem after_operation (operation : Operation) (db : Db) :
    after (.activity (.operation operation)) db = operation.after db := by
  suffices whole : (Activity.operation operation).call.Leaves db []
      fun _ next _ => next = operation.after db from
    Request.leaves_iff_run.mp whole
  refine Request.leaves_bind.mpr ?_
  unfold Request.Leaves Operation.after Request.run
  rcases Proc.solo operation.call db [] with ⟨result, next, later⟩
  cases result <;> rfl

end Visit

/-- What becomes of the people concerned. -/
inductive Outcome (db next : Db) : Option RequestId → Prop where
  | kept : Kept db next → Outcome db next none
  | opened {seen : Db} : Kept db seen → Opened seen next →
      Outcome db next none
  | bid {request : RequestId} {expert : UserId} :
      NewBid request expert db next → Outcome db next (some request)

theorem openDispute_outcome
    (env : Env) (id : OrderId) (actor : Actor) (reason : DisputeReason)
    (description : String) (evidence : Except Error Unit) (db : Db) :
    (openDispute env id actor reason description evidence).Post db
      fun _ next => Outcome db next none := by
  have whole : (Operation.dispute (.openDispute env id actor reason description
      evidence)).call.Emits (keeping db) fun _ => True :=
    operation_keeping_of_order nofun
  have emits : (Disputes.openDispute env id actor reason description
      evidence).Emits (keeping db) fun _ => True :=
    (Prog.emits_bind.mp (Request.emits_atomic.mp whole)).mono
      fun _ _ => trivial
  have keeps := emits.keeps (Kept db)
    (fun stmt keeps => Kept.apply stmt keeps) (.refl db)
  refine Prog.post_bind.mpr (keeps.mono ?_)
  rintro (error | value) seen ⟨_, kept⟩
  · exact .kept kept
  · refine Prog.post_bind.mpr (Prog.post_bind.mpr (Prog.post_read.mpr
      (Prog.post_orFail.mpr ⟨fun order stored => ?_, fun _ => .kept kept⟩)))
    refine (getOrCreateThread_post env (.dispute id order) actor.id
      stored).mono ?_
    rintro result next (same | opened)
    · exact .kept (same ▸ kept)
    · exact .opened kept opened

theorem submit_outcome
    (env : Env) (expert : UserId) (request : RequestId) (amount : Int)
    (currency : String) (db : Db) :
    Outcome db
      (Operation.after (.offer (.submit env expert request amount currency)) db)
      (Visit.bidsOn (.activity (.operation (.offer
        (.submit env expert request amount currency)))) db) := by
  have bids := submit_bids env expert request amount currency db
  simp only [Visit.bidsOn]
  split
  case h_1 _ ok =>
    rcases bids with ⟨_, bid⟩ | ⟨fails, _⟩
    · exact .bid bid
    · exact absurd ok fails
  case h_2 error failed =>
    rcases bids with ⟨ok, _⟩ | ⟨_, same⟩
    · exact nomatch ok.symm.trans failed
    · have unchanged : (Operation.offer (.submit env expert
          request amount currency)).after db = db := same
      exact .kept (unchanged.symm ▸ .refl db)

/-- Every visit has an outcome. -/
theorem Visit.outcome (visit : Visit) (db : Db) :
    Outcome db (visit.after db) (visit.bidsOn db) := by
  cases visit with
  | exchange talk =>
      have kept : Kept db (Request.run talk.call db).2 :=
        (exchange_keeping talk).keeps (Kept db)
          (fun stmt keeps => Kept.apply stmt keeps) (.refl db)
      exact .kept kept
  | activity work =>
      cases work with
      | operation operation =>
          rw [after_operation]
          cases submitted : submits operation with
          | false =>
              rw [bidsOn_of_other submitted]
              exact .kept ((operation_keeping submitted).keeps
                (fun stmt keeps => Kept.apply stmt keeps) (.refl db))
          | true =>
              cases operation with
              | offer call =>
                  cases call with
                  | submit env expert request amount currency =>
                      exact submit_outcome env expert request amount currency db
                  | _ => exact nomatch submitted
              | _ => exact nomatch submitted
      | openContext env contextType id actor =>
          suffices whole : (Activity.openContext env contextType id
              actor).call.Leaves db [] fun _ next _ => Outcome db next none from
            Request.leaves_iff_run.mp whole
          have none : Outcome db db none := .kept (.refl db)
          refine Request.leaves_bind.mpr (Request.leaves_bind.mpr
            (Request.leaves_load.mpr (Request.leaves_bind.mpr
              (Request.leaves_orFail.mpr ⟨fun context found => ?_,
                fun _ => none⟩))))
          refine Request.leaves_atomic.mpr ((getOrCreateThread_post env context
            actor (Context.stored_of_find found)).mono ?_)
          rintro (error | thread) next ended
          · exact none
          · rcases ended with rfl | opened
            · exact none
            · exact .opened (.refl db) opened
      | openDispute env id actor reason description evidence =>
          suffices whole : (Activity.openDispute env id actor reason description
              evidence).call.Leaves db []
                fun _ next _ => Outcome db next none from
            Request.leaves_iff_run.mp whole
          refine Request.leaves_bind.mpr (Request.leaves_atomic.mpr
            ((openDispute_outcome env id actor reason description evidence
              db).mono ?_))
          rintro (error | thread) next outcome
          · exact .kept (.refl db)
          · exact outcome

/-! ## The participants of a thread -/

/-- The row of its context is stored with the thread. -/
def Anchored (thread : LoadedThread) : Prop :=
  match thread.thread.contextType with
  | .request => thread.request.isSome = true
  | .order | .dispute => thread.order.isSome = true

/-- The thread is about this request. -/
def About (request : RequestId) (thread : Thread) : Prop :=
  thread.contextType = .request ∧ thread.request = some request

/-- People stay concerned; `more` offer on requests besides. -/
structure Joined (more : RequestId → UserId → Prop) (origin db : Db) :
    Prop where
  bidders : ∀ request user, user ∈ offerExperts request db ↔
    user ∈ offerExperts request origin ∨ more request user
  requests : ∀ id old, origin.requests.row id = some old →
    ∃ row, db.requests.row id = some row ∧ row.student = old.student
  orders : ∀ id old, origin.orders.row id = some old →
    ∃ row, db.orders.row id = some row ∧ row.student = old.student ∧
      row.expert = old.expert
  threads : ∀ id, (db.conversations.threads.row id).map matter =
    (origin.conversations.threads.row id).map matter

theorem Kept.joined (kept : Kept origin db) :
    Joined (fun _ _ => False) origin db where
  bidders request user := by
    simp only [mem_offerExperts, kept.offers, or_false]
  requests := kept.requests
  orders := kept.orders
  threads := kept.threads

theorem NewBid.joined
    {request : RequestId} {expert : UserId}
    (bids : NewBid request expert origin db) :
    Joined (fun key user => key = request ∧ user = expert) origin db where
  bidders key user := by
    obtain ⟨id, offer, fresh, mine, inserted⟩ := bids.offers
    obtain ⟨about, whose⟩ := Prod.mk.inj mine
    rw [offerExperts, inserted, Table.collect_insert fresh, List.mem_append]
    refine or_congr Iff.rfl ?_
    rw [about, whose]
    by_cases same : request = key
    · simp [same]
    · simp [same, Ne.symm same]
  requests := bids.requests
  orders id old stored := ⟨old, bids.orders ▸ stored, rfl, rfl⟩
  threads _ := by rw [bids.conversations]

theorem load_request {id : ThreadId} {thread : LoadedThread}
    (stored : load id db = some thread) :
    thread.request = thread.thread.request.bind fun request =>
      (db.requests.row request).map (request, ·) := by
  obtain ⟨_, _, rfl⟩ := Option.map_eq_some_iff.mp stored
  rfl

/-- A thread is loaded with the same participants, and those who joined. -/
theorem Joined.finds
    {more : RequestId → UserId → Prop} (joined : Joined more origin db)
    {id : ThreadId} {thread : LoadedThread}
    (stored : load id origin = some thread) (anchored : Anchored thread) :
    ∃ later, load id db = some later ∧ Anchored later ∧
      matter later.thread = matter thread.thread ∧
      ∀ user, user ∈ contextParticipants later db ↔
        user ∈ contextParticipants thread origin ∨
          ∃ request, About request thread.thread ∧ more request user := by
  obtain ⟨row, found, rfl⟩ := Option.map_eq_some_iff.mp stored
  have same := joined.threads id
  rw [found, Option.map_some] at same
  obtain ⟨current, present, matters⟩ := Option.map_eq_some_iff.mp same
  refine ⟨_, by simp only [load, present, Option.map_some]; rfl, ?_⟩
  have parts := matters
  simp only [matter, Prod.mk.injEq] at parts
  obtain ⟨type, request, order, -⟩ := parts
  cases about : row.contextType with
  | request =>
      simp only [Anchored, about, Option.isSome_iff_exists,
        Option.bind_eq_some_iff, Option.map_eq_some_iff] at anchored
      obtain ⟨_, key, names, old, before, rfl⟩ := anchored
      obtain ⟨now, there, student⟩ := joined.requests key old before
      refine ⟨by simp [Anchored, type, about, request, names, there], matters,
        fun user => ?_⟩
      simp [contextParticipants, type, about, request, names, there, before,
        student, joined.bidders, About, or_assoc]
  | order | dispute =>
      simp only [Anchored, about, Option.isSome_iff_exists,
        Option.bind_eq_some_iff] at anchored
      obtain ⟨old, key, names, before⟩ := anchored
      obtain ⟨now, there, student, expert⟩ := joined.orders key old before
      refine ⟨by simp [Anchored, type, about, order, names, there], matters,
        fun user => ?_⟩
      simp [contextParticipants, type, about, order, names, there, before,
        student, expert, About]

/-- The stored participants are those of the context. -/
def Agrees (id : ThreadId) (db : Db) : Prop :=
  ∃ thread, load id db = some thread ∧ Anchored thread ∧
    ∀ user, user ∈ thread.thread.participants ↔
      user ∈ contextParticipants thread db

/-- Somebody takes part who is not stored. -/
def Differs (id : ThreadId) (db : Db) : Prop :=
  ∃ thread, load id db = some thread ∧ Anchored thread ∧
    ∃ user ∈ contextParticipants thread db, user ∉ thread.thread.participants

theorem Differs.not_agrees {id : ThreadId} (differs : Differs id db) :
    ¬Agrees id db := by
  rintro ⟨thread, stored, _, same⟩
  obtain ⟨other, found, _, user, takes, missing⟩ := differs
  obtain rfl := Option.some.inj (stored.symm.trans found)
  exact missing ((same user).mpr takes)

/-- Whoever joins, a difference stays. -/
theorem Differs.joined
    {more : RequestId → UserId → Prop} {id : ThreadId}
    (differs : Differs id origin) (joined : Joined more origin db) :
    Differs id db := by
  obtain ⟨thread, stored, anchored, user, takes, missing⟩ := differs
  obtain ⟨later, found, still, matters, participates⟩ :=
    joined.finds stored anchored
  refine ⟨later, found, still, user, (participates user).mpr (.inl takes), ?_⟩
  simp only [matter, Prod.mk.injEq] at matters
  rwa [matters.2.2.2]

/-- If nobody joins, the agreement stays. -/
theorem Agrees.joined
    {more : RequestId → UserId → Prop} {id : ThreadId}
    (agrees : Agrees id origin) (joined : Joined more origin db)
    (nobody : ∀ thread, load id origin = some thread → ∀ request,
      About request thread.thread → ∀ user, ¬more request user) :
    Agrees id db := by
  obtain ⟨thread, stored, anchored, same⟩ := agrees
  obtain ⟨later, found, still, matters, participates⟩ :=
    joined.finds stored anchored
  refine ⟨later, found, still, fun user => ?_⟩
  simp only [matter, Prod.mk.injEq] at matters
  rw [matters.2.2.2, same, participates]
  refine ⟨.inl, fun either => either.resolve_right ?_⟩
  rintro ⟨request, about, joins⟩
  exact nobody thread stored request about user joins

/-- Somebody new on its request makes a thread differ. -/
theorem Agrees.newBid
    {request : RequestId} {expert : UserId} {id : ThreadId}
    {thread : LoadedThread} (agrees : Agrees id origin)
    (bids : NewBid request expert origin db)
    (stored : load id origin = some thread)
    (about : About request thread.thread) : Differs id db := by
  obtain ⟨same, found, anchored, equal⟩ := agrees
  obtain rfl := Option.some.inj (stored.symm.trans found)
  obtain ⟨later, there, still, matters, participates⟩ :=
    bids.joined.finds stored anchored
  refine ⟨later, there, still, expert,
    (participates expert).mpr (.inr ⟨request, about, rfl, rfl⟩), ?_⟩
  simp only [matter, Prod.mk.injEq] at matters
  rw [matters.2.2.2, equal]
  obtain ⟨row, present, foreign⟩ := bids.about
  obtain ⟨type, names⟩ := about
  have loaded : thread.request = some (request, row) := by
    rw [load_request stored, names]
    simp [present]
  simp [contextParticipants, type, loaded, Ne.symm foreign, bids.first]

/-- A new thread agrees. -/
theorem Opened.agrees
    {next : Db} {id : ThreadId} (opened : Opened db next)
    (missing : load id db = none) (found : (load id next).isSome = true) :
    Agrees id next := by
  obtain ⟨key, now, context, stored, fresh, rfl⟩ := opened
  have absent : db.conversations.threads.row id = none := by
    simpa [load] using missing
  obtain rfl : id = key := by
    by_contra other
    simp [load, Stmt.apply, ConversationStmt.apply, other, absent] at found
  refine ⟨context.loaded id (context.thread now (context.participants db)),
    ?_, ?_, fun user => ?_⟩
  all_goals
    cases context <;> simp only [Context.Stored] at stored
  all_goals
    simp [load, Stmt.apply, ConversationStmt.apply, Context.loaded,
      Context.thread, Context.participants, Context.contextType,
      contextParticipants, Anchored, offerExperts, Table.row_insert, fresh,
      stored]

/-- It leaves the others as they are. -/
theorem Opened.joined
    {next : Db} {id : ThreadId} {thread : LoadedThread}
    (opened : Opened db next) (stored : load id db = some thread) :
    load id next = some thread ∧ ∀ user,
      user ∈ contextParticipants thread next ↔
        user ∈ contextParticipants thread db := by
  obtain ⟨key, now, context, _, fresh, rfl⟩ := opened
  obtain ⟨row, found, rfl⟩ := Option.map_eq_some_iff.mp stored
  have kept : ((Stmt.converse (.insertThread key (context.thread now
      (context.participants db)))).apply db).conversations.threads.row id =
        some row :=
    Table.row_insert_of_some key _ found
  refine ⟨by simp only [load, kept, Option.map_some]; rfl, fun user => ?_⟩
  unfold contextParticipants
  split
  · exact Iff.rfl
  · exact Iff.rfl
  · exact Iff.rfl
  · simp [snapshot, kept, found]

theorem Agrees.opened
    {next : Db} {id : ThreadId} (agrees : Agrees id db)
    (opened : Opened db next) : Agrees id next := by
  obtain ⟨thread, stored, anchored, same⟩ := agrees
  obtain ⟨found, participates⟩ := opened.joined stored
  exact ⟨thread, found, anchored, fun user =>
    (same user).trans (participates user).symm⟩

theorem Differs.opened
    {next : Db} {id : ThreadId} (differs : Differs id db)
    (opened : Opened db next) : Differs id next := by
  obtain ⟨thread, stored, anchored, user, takes, missing⟩ := differs
  obtain ⟨found, participates⟩ := opened.joined stored
  exact ⟨thread, found, anchored, user, (participates user).mpr takes, missing⟩

/-! ## Runs -/

/-- The visit brings somebody new to the thread. -/
def Disturbs (id : ThreadId) (visit : Visit) (db : Db) : Prop :=
  ∃ thread request, load id db = some thread ∧
    About request thread.thread ∧ visit.bidsOn db = some request

/-- Once the thread is there, nobody new comes to it. -/
def Undisturbed (id : ThreadId) : List Visit → Db → Prop
  | [], _ => True
  | visit :: rest, db =>
      ¬Disturbs id visit db ∧ Undisturbed id rest (visit.after db)

/-- Nothing but a new thread gets loaded that was not loaded before. -/
theorem Joined.missing
    {more : RequestId → UserId → Prop} (joined : Joined more origin db)
    {id : ThreadId} (missing : load id origin = none) : load id db = none := by
  have same := joined.threads id
  have absent : origin.conversations.threads.row id = none := by
    simpa [load] using missing
  simpa [absent, load] using same

/-- An agreement ends with the first visit that brings somebody new. -/
theorem Visit.agrees
    (visit : Visit) {id : ThreadId} (agrees : Agrees id db) :
    Agrees id (visit.after db) ∧ ¬Disturbs id visit db ∨
      Differs id (visit.after db) ∧ Disturbs id visit db := by
  have outcome := visit.outcome db
  revert outcome
  unfold Disturbs
  generalize visit.after db = next
  generalize visit.bidsOn db = bids
  rintro (kept | ⟨kept, opened⟩ | @⟨request, expert, bid⟩)
  · exact .inl ⟨agrees.joined kept.joined (by simp), by simp⟩
  · exact .inl ⟨(agrees.joined kept.joined (by simp)).opened opened, by simp⟩
  · by_cases disturbs : ∃ thread, load id db = some thread ∧
        About request thread.thread
    · obtain ⟨thread, stored, about⟩ := disturbs
      exact .inr ⟨agrees.newBid bid stored about,
        thread, request, stored, about, rfl⟩
    · refine .inl ⟨agrees.joined bid.joined ?_, ?_⟩
      · rintro thread stored key about user ⟨rfl, _⟩
        exact disturbs ⟨thread, stored, about⟩
      · rintro ⟨thread, key, stored, about, same⟩
        obtain rfl := Option.some.inj same
        exact disturbs ⟨thread, stored, about⟩

/-- A difference stays. -/
theorem Visit.differs
    (visit : Visit) {id : ThreadId} (differs : Differs id db) :
    Differs id (visit.after db) := by
  have outcome := visit.outcome db
  revert outcome
  generalize visit.after db = next
  generalize visit.bidsOn db = bids
  rintro (kept | ⟨kept, opened⟩ | bid)
  · exact differs.joined kept.joined
  · exact (differs.joined kept.joined).opened opened
  · exact differs.joined bid.joined

/-- A thread that has just been opened agrees. -/
theorem Visit.opens
    (visit : Visit) {id : ThreadId} (missing : load id db = none) :
    load id (visit.after db) = none ∨ Agrees id (visit.after db) := by
  have outcome := visit.outcome db
  revert outcome
  generalize visit.after db = next
  generalize visit.bidsOn db = bids
  rintro (kept | ⟨kept, opened⟩ | bid)
  · exact .inl (kept.joined.missing missing)
  · cases found : load id next with
    | none => exact .inl rfl
    | some thread =>
        exact .inr (opened.agrees (kept.joined.missing missing)
          (by simp [found]))
  · exact .inl (bid.joined.missing missing)

/-- A difference stays over a run. -/
theorem differs_afterAll
    (visits : List Visit) {id : ThreadId} (differs : Differs id db) :
    Differs id (Visit.afterAll visits db) := by
  induction visits generalizing db with
  | nil => exact differs
  | cons visit rest inductionHypothesis =>
      exact inductionHypothesis (visit.differs differs)

/-- An agreement lasts as long as nobody new comes. -/
theorem agrees_afterAll_iff
    (visits : List Visit) {id : ThreadId} (agrees : Agrees id db) :
    Agrees id (Visit.afterAll visits db) ↔ Undisturbed id visits db := by
  induction visits generalizing db with
  | nil => exact iff_of_true agrees trivial
  | cons visit rest inductionHypothesis =>
      rcases visit.agrees agrees with ⟨still, calm⟩ | ⟨differs, disturbs⟩
      · exact (inductionHypothesis still).trans (by simp [Undisturbed, calm])
      · exact iff_of_false (differs_afterAll rest differs).not_agrees
          fun undisturbed => undisturbed.1 disturbs

/-- So it is of a thread that the run opens. -/
theorem agrees_of_missing_iff
    (visits : List Visit) {id : ThreadId} (missing : load id db = none)
    (found : (load id (Visit.afterAll visits db)).isSome = true) :
    Agrees id (Visit.afterAll visits db) ↔ Undisturbed id visits db := by
  induction visits generalizing db with
  | nil => exact absurd found (by simp [Visit.afterAll, missing])
  | cons visit rest inductionHypothesis =>
      have calm : ¬Disturbs id visit db := by
        simp [Disturbs, missing]
      rcases visit.opens missing with still | agrees
      · exact (inductionHypothesis still found).trans
          (by simp [Undisturbed, calm])
      · exact (agrees_afterAll_iff rest agrees).trans
          (by simp [Undisturbed, calm])

/-! ## Members -/

/-- A message of the user is not refused for taking no part. -/
def MaySend (user : UserId) (thread : LoadedThread) (db : Db) : Prop :=
  ∀ env files body attachment,
    (Request.run (sendMessage env files thread user body attachment) db).1 ≠
      .error notParticipant

/-- The file was posted in the thread, and in no other. -/
structure PostedIn (id : ThreadId) (file : AttachmentId) (db : Db) : Prop where
  posted : ∃ key message, db.conversations.messages.row key = some message ∧
    message.attachment = some file
  only : ∀ key message, db.conversations.messages.row key = some message →
    message.attachment = some file → message.thread = id

/--
The stored participants are those of the context; who may write finds the thread
in the inbox and may fetch its files, as everybody may who has uploaded them.
-/
structure Members (thread : LoadedThread) (db : Db) : Prop where
  stored : ∀ user, user ∈ thread.thread.participants ↔
    user ∈ contextParticipants thread db
  listed : ∀ user, (∃ card ∈ inbox user db, card.id = thread.id) ↔
    MaySend user thread db
  fetched : ∀ links file (row : Files.StoredFile) (user : Files.Viewer),
    PostedIn thread.id file db → row.purpose = .message →
      (Files.grantDownload links (some user) file row db = true ↔
        row.isPublic = true ∨ user.id = row.uploader ∨ user.isStaff = true ∨
          MaySend user.id thread db)

/-- The attachment is not what refuses somebody who takes no part. -/
theorem attach_ne_notParticipant
    {files : String → Option (AttachmentId × Attachment)} {sender : UserId}
    {attachment : AttachmentArgument} :
    attach files sender attachment ≠ .error notParticipant := by
  cases attachment with
  | absent | reference => exact nofun
  | loaded key row =>
      rw [attach_loaded]
      split_ifs
      · exact nofun
      · simp [notParticipant, Error.permissionDenied, Error.domainError]

/-- Neither is the end of the context. -/
theorem assertContextOpen_ne_notParticipant {thread : LoadedThread} :
    assertContextOpen thread ≠ .error notParticipant := by
  unfold assertContextOpen
  split_ifs <;>
    simp [notParticipant, Error.permissionDenied, Error.domainError]

theorem maySend_iff {user : UserId} {thread : LoadedThread} {db : Db} :
    MaySend user thread db ↔ user ∈ contextParticipants thread db := by
  constructor
  · intro may
    by_contra absent
    refine may { now := 0, key := 0 } (fun _ => none) "" .absent ?_
    suffices whole : (sendMessage _ _ thread user _ _).Leaves db []
        fun result _ _ => result = .error notParticipant from
      Request.leaves_iff_run.mp whole
    exact Request.leaves_bind.mpr (Request.leaves_load.mpr
      (Request.leaves_bind.mpr (Request.leaves_require.mpr
        ⟨fun takes => absurd takes absent, fun _ => rfl⟩)))
  · intro takes env files body attachment
    suffices whole : (sendMessage env files thread user body attachment).Leaves
        db [] fun result _ _ => result ≠ .error notParticipant from
      Request.leaves_iff_run.mp whole
    refine Request.leaves_bind.mpr (Request.leaves_load.mpr
      (Request.leaves_bind.mpr (Request.leaves_require.mpr
        ⟨fun _ => ?_, fun absent => absurd takes absent⟩)))
    refine Request.leaves_bind.mpr (Request.leaves_ofExcept.mpr
      ⟨fun _ _ => ?_, fun error refused same => ?_⟩)
    · simp only [storeMessage, Tx.create, Call.exec, Request.leaves_bind,
        Request.leaves_require, Request.leaves_ofExcept, Request.leaves_atomic,
        Request.leaves_pure, Prog.post_bind, Prog.post_lockRow, Prog.post_read,
        Prog.post_require, Prog.post_exec, applyAll_nil]
      simp [notParticipant, Error.permissionDenied, Error.domainError]
      intro _ _ error refused same
      exact attach_ne_notParticipant
        (refused.trans (congrArg Except.error same))
    · obtain rfl := Except.error.inj same
      exact assertContextOpen_ne_notParticipant refused

theorem load_thread {id : ThreadId} {thread : LoadedThread}
    (stored : load id db = some thread) :
    thread.id = id ∧
      db.conversations.threads.row id = some thread.thread := by
  obtain ⟨row, found, rfl⟩ := Option.map_eq_some_iff.mp stored
  exact ⟨rfl, found⟩

/-- The inbox goes by the stored participants. -/
theorem listed_iff {id : ThreadId} {user : UserId} {thread : LoadedThread}
    (stored : load id db = some thread) :
    (∃ card ∈ inbox user db, card.id = id) ↔
      user ∈ thread.thread.participants := by
  obtain ⟨_, found⟩ := load_thread stored
  simp only [inbox, List.mem_mergeSort, List.mem_filterMap, Table.mem_select,
    Option.map_eq_some_iff, decide_eq_true_eq]
  constructor
  · rintro ⟨_, ⟨key, ⟨row, there, member⟩, loaded, present, rfl⟩, same⟩
    obtain ⟨names, _⟩ := load_thread present
    obtain rfl : key = id := names.symm.trans same
    obtain rfl := Option.some.inj (there.symm.trans found)
    exact member
  · intro member
    exact ⟨_, ⟨id, ⟨thread.thread, found, member⟩, thread, stored, rfl⟩,
      (load_thread stored).1⟩

/-- So does the access to a file that was posted in one thread only. -/
theorem sharesThread_iff
    {id : ThreadId} {file : AttachmentId} {user : UserId}
    {thread : LoadedThread} (stored : load id db = some thread)
    (posted : PostedIn id file db) :
    Files.sharesThread user file db = true ↔
      user ∈ thread.thread.participants := by
  obtain ⟨_, found⟩ := load_thread stored
  rw [Files.sharesThread, Table.any_eq_true]
  constructor
  · rintro ⟨key, message, there, shares⟩
    simp only [Bool.and_eq_true, decide_eq_true_eq] at shares
    rw [posted.only key message there shares.1, found] at shares
    simpa using shares.2
  · intro member
    obtain ⟨key, message, there, attached⟩ := posted.posted
    refine ⟨key, message, there, ?_⟩
    rw [posted.only key message there attached, found]
    simp [attached, member]

/-- With the stored participants agree the inbox and the access to files. -/
theorem members_iff {id : ThreadId} {thread : LoadedThread}
    (stored : load id db = some thread) :
    Members thread db ↔ ∀ user, user ∈ thread.thread.participants ↔
      user ∈ contextParticipants thread db := by
  refine ⟨Members.stored, fun same => ⟨same, fun user => ?_, ?_⟩⟩
  · rw [maySend_iff, ← same, (load_thread stored).1]
    exact listed_iff stored
  · intro links file row user posted purpose
    rw [(load_thread stored).1] at posted
    rw [maySend_iff, ← same, ← sharesThread_iff stored posted]
    simp only [Files.grantDownload, purpose]
    split_ifs with isPublic allowed
    · simp [isPublic]
    · simp only [Bool.or_eq_true, decide_eq_true_eq] at allowed
      simp [allowed, ← or_assoc]
    · simp only [Bool.or_eq_true, decide_eq_true_eq, not_or] at allowed
      simp [isPublic, allowed]

/-- Every thread agrees or differs. -/
def Decided (db : Db) : Prop :=
  ∀ id, load id db = none ∨ Agrees id db ∨ Differs id db

theorem Decided.after (decided : Decided db) (visit : Visit) :
    Decided (visit.after db) := by
  intro id
  rcases decided id with missing | agrees | differs
  · rcases visit.opens missing with still | agrees
    · exact .inl still
    · exact .inr (.inl agrees)
  · rcases visit.agrees agrees with ⟨still, _⟩ | ⟨differs, _⟩
    · exact .inr (.inl still)
    · exact .inr (.inr differs)
  · exact .inr (.inr (visit.differs differs))

theorem Decided.afterAll (visits : List Visit) (decided : Decided db) :
    Decided (Visit.afterAll visits db) := by
  induction visits generalizing db with
  | nil => exact decided
  | cons visit rest inductionHypothesis =>
      exact inductionHypothesis (decided.after visit)

/--
In every run from a state whose threads agree, each thread that is there at the
end has its members if and only if nobody new has offered on its request since
it was opened.
-/
theorem members_iff_undisturbed
    (start : Db) (agreed : ∀ id, load id start = none ∨ Agrees id start)
    (visits : List Visit) :
    let reached := Visit.afterAll visits start
    ∀ id thread, load id reached = some thread →
      (Members thread reached ↔ Undisturbed id visits start) := by
  intro reached id thread stored
  have decided : Decided reached := Decided.afterAll visits
    fun id => (agreed id).imp_right .inl
  have agrees : Agrees id reached ↔ Undisturbed id visits start := by
    rcases agreed id with missing | agrees
    · exact agrees_of_missing_iff visits missing (by simp [reached, stored])
    · exact agrees_afterAll_iff visits agrees
  rw [members_iff stored, ← agrees]
  constructor
  · intro same
    rcases decided id with missing | agrees | differs
    · exact nomatch missing.symm.trans stored
    · exact agrees
    · obtain ⟨other, found, _, user, takes, absent⟩ := differs
      obtain rfl := Option.some.inj (stored.symm.trans found)
      exact absurd ((same user).mpr takes) absent
  · rintro ⟨other, found, _, same⟩
    obtain rfl := Option.some.inj (stored.symm.trans found)
    exact same

/-- A request of the student 1 with an offer of the expert 2. -/
def bidOn : Db :=
  { experts := .insert (.insert .empty 2 ⟨true, true, [1]⟩) 3 ⟨true, true, [1]⟩
    requests := .insert .empty 10
      { student := 1, status := .opened, offerCount := 1 }
    offers := .insert .empty 20 { request := 10, expert := 2, amount := 5000 } }

/-- The expert 3 offers as well. -/
def secondBid : Visit :=
  .activity (.operation (.offer (.submit { now := 1, key := 21 } 3 10 6000
    "USD")))

/-- Somebody opens the conversation about the request. -/
def opens (env : Env) (user : UserId) : Visit :=
  .activity (.openContext env .request 10 user)

/-- The thread that is opened after both offers has its members. -/
theorem members_openedLate :
    let reached := Visit.afterAll
      [secondBid, opens { now := 2, key := 50 } 1] bidOn
    ∃ thread, load 50 reached = some thread ∧
      thread.thread.participants = [1, 2, 3] ∧ Members thread reached := by
  intro reached
  have participants : (load 50 reached).map (·.thread.participants) =
      some [1, 2, 3] := by decide +kernel
  obtain ⟨thread, stored, same⟩ := Option.map_eq_some_iff.mp participants
  refine ⟨thread, stored, same, (members_iff_undisturbed bidOn
    (fun _ => .inl rfl) _ 50 thread stored).mpr ⟨?_, ?_, trivial⟩⟩
  · rintro ⟨_, _, found, _⟩
    exact nomatch found
  · rintro ⟨_, _, _, _, bids⟩
    exact nomatch bids

/--
An expert who offers after the thread was opened may write in it, and is told
the thread, but neither finds it in the inbox nor may fetch its files.
-/
theorem members_openedEarly :
    let reached := Visit.afterAll
      [opens { now := 1, key := 50 } 1,
        .exchange (.sendLive { now := 1, key := 70 } (fun _ => none)
          ⟨50, { contextType := .request, request := some 10, createdAt := 1 },
            none, some (10, { student := 1, status := .opened })⟩ 1 "The data."
          (.loaded 80 { uploader := 1, purpose := .message })),
        secondBid, opens { now := 2, key := 51 } 3] bidOn
    (Request.run (openContext { now := 2, key := 51 } .request 10 3)
        reached).1.map LoadedThread.id = .ok 50 ∧
      (load 50 reached).map (fun thread =>
        (thread.thread.participants, contextParticipants thread reached)) =
          some ([1, 2], [1, 2, 3]) ∧
      (inbox 3 reached).map Card.id = [] ∧
      (reached.conversations.messages.row 70).map Message.attachment =
        some (some 80) ∧
      Files.grantDownload {} (some ⟨3, false⟩) 80
        { uploader := 1, purpose := .message } reached = false ∧
      ∀ thread, load 50 reached = some thread → ¬Members thread reached := by
  intro reached
  have parts : (load 50 reached).map (fun thread =>
      (thread.thread.participants, contextParticipants thread reached)) =
        some ([1, 2], [1, 2, 3]) := by decide +kernel
  refine ⟨by decide +kernel, parts, by decide +kernel, by decide +kernel,
    by decide +kernel, fun thread stored members => ?_⟩
  simp only [stored, Option.map_some, Option.some.injEq, Prod.mk.injEq] at parts
  have same := members.stored 3
  rw [parts.1, parts.2] at same
  exact absurd (same.mpr (by decide)) (by decide)

end Messaging

end KnowledgeMarketplace
