import KnowledgeMarketplace.Bidding.Tasks
import KnowledgeMarketplace.Operations.Runs
import KnowledgeMarketplace.Transaction.Alone
import KnowledgeMarketplace.Transaction.Sequence

/-!
# Pending offers

A request leaves the open status by a selection, a cancellation or its time to
live.  The selection and the worker's task close the offers; the cancellation
does not.
-/

namespace KnowledgeMarketplace

open Transaction

namespace Bidding

/-- The request is there and open. -/
def opened (id : RequestId) (db : Db) : Bool :=
  (db.requests.row id).any (·.status = .opened)

/-- Some offer on the request is pending. -/
def pendingOn (id : RequestId) (db : Db) : Bool :=
  db.offers.any fun _ offer => offer.request = id && offer.status = .pending

/-- Every pending offer is on an open request. -/
def Live (db : Db) : Prop :=
  db.offers.All fun offer =>
    offer.status = .pending → opened offer.request db = true

theorem opened_eq_true {id : RequestId} {db : Db} :
    opened id db = true ↔
      ∃ request, db.requests.row id = some request ∧
        request.status = .opened := by
  simp [opened, Option.any_eq_true]

theorem pendingOn_eq_true {id : RequestId} {db : Db} :
    pendingOn id db = true ↔
      ∃ key offer, db.offers.row key = some offer ∧ offer.request = id ∧
        offer.status = .pending := by
  simp [pendingOn, Table.any_eq_true]

theorem opened_of_row
    {id : RequestId} {db next : Db}
    (same : next.requests.row id = db.requests.row id) :
    opened id next = opened id db := by
  rw [opened, opened, same]

/-- The requests with pending offers are open. -/
theorem live_iff {db : Db} :
    Live db ↔ ∀ id, pendingOn id db = true → opened id db = true := by
  constructor
  · intro live id pending
    obtain ⟨key, offer, stored, rfl, waiting⟩ := pendingOn_eq_true.mp pending
    exact live key offer stored waiting
  · intro all key offer stored waiting
    exact all offer.request
      (pendingOn_eq_true.mpr ⟨key, offer, stored, rfl, waiting⟩)

/-! ## Statements that close nothing -/

/-- What statements leave that close no request that was open in `db`. -/
structure Stays (db current : Db) : Prop where
  stays : ∀ id, opened id db = true → opened id current = true
  same : ∀ id offer, db.offers.row id = some offer →
    ∃ later, current.offers.row id = some later ∧
      later.request = offer.request
  pending : ∀ id offer, current.offers.row id = some offer →
    offer.status = .pending → opened offer.request db = true

theorem Stays.live
    {db current : Db} (stays : Stays db current) : Live current :=
  fun id offer stored waiting =>
    stays.stays offer.request (stays.pending id offer stored waiting)

theorem Live.stays {db : Db} (live : Live db) : Stays db db where
  stays _ already := already
  same _ offer stored := ⟨offer, stored, rfl⟩
  pending := live

/-- The effects of such statements; offers become pending on open requests. -/
def closesNothing (db : Db) : Effect Stmt → Prop
  | .write (.saveRequest id _ set) | .write (.updateRequest id set) =>
      opened id db = true →
        ∀ stored, stored.status = .opened → (set stored).status = .opened
  | .write (.insertOffer _ offer) => opened offer.request db = true
  | .write (.saveOffer id set) => ∀ stored,
      (∀ offer, db.offers.row id = some offer →
        stored.request = offer.request) →
      (set stored).request = stored.request ∧
        ((set stored).status = .pending → opened stored.request db = true)
  | _ => True

theorem Stays.change
    {db current : Db} (stays : Stays db current) (id : RequestId)
    (set : ServiceRequest → ServiceRequest)
    (fine : opened id db = true → ∀ stored, stored.status = .opened →
      (set stored).status = .opened) (other : RequestId)
    (already : opened other db = true) :
    ((current.requests.modify id set).row other).any
      (·.status = .opened) = true := by
  obtain ⟨request, stored, status⟩ :=
    opened_eq_true.mp (stays.stays other already)
  by_cases own : other = id
  · subst own
    simp [stored, fine already request status]
  · simp [Table.row_modify_other _ set own, stored, status]

theorem closesNothing_keeps
    {db current : Db} {stmt : Stmt} (fine : closesNothing db (.write stmt))
    (stays : Stays db current) : Stays db (stmt.apply current) := by
  cases stmt with
  | saveRequest id loaded set =>
      exact ⟨stays.change id set fine, stays.same, stays.pending⟩
  | updateRequest id set =>
      exact ⟨stays.change id set fine, stays.same, stays.pending⟩
  | insertRequest key value =>
      refine ⟨fun id already => ?_, stays.same, stays.pending⟩
      obtain ⟨request, stored, status⟩ :=
        opened_eq_true.mp (stays.stays id already)
      exact opened_eq_true.mpr
        ⟨request, Table.row_insert_of_some key value stored, status⟩
  | insertOffer key value =>
      refine ⟨stays.stays, fun id offer stored => ?_,
        fun id offer found waiting => ?_⟩
      · obtain ⟨later, present, about⟩ := stays.same id offer stored
        exact ⟨later, Table.row_insert_of_some key value present, about⟩
      · rcases Table.row_insert_cases found with earlier | ⟨rfl, rfl, -⟩
        · exact stays.pending id offer earlier waiting
        · exact fine
  | saveOffer key set =>
      have known : ∀ stored, current.offers.row key = some stored →
          ∀ offer, db.offers.row key = some offer →
            stored.request = offer.request := by
        intro stored found offer before
        obtain ⟨later, present, about⟩ := stays.same key offer before
        exact Option.some.inj (found.symm.trans present) ▸ about
      refine ⟨stays.stays, fun id offer stored => ?_,
        fun id offer found waiting => ?_⟩
      · obtain ⟨later, present, about⟩ := stays.same id offer stored
        by_cases own : id = key
        · subst own
          exact ⟨set later, by simp [Stmt.apply, present],
            (fine later (known later present)).1.trans about⟩
        · exact ⟨later, by
            simp [Stmt.apply, Table.row_modify_other _ set own, present], about⟩
      · rcases Table.row_modify_cases found with
          ⟨-, earlier⟩ | ⟨rfl, stored, earlier, rfl⟩
        · exact stays.pending id offer earlier waiting
        · obtain ⟨about, onlyOpen⟩ := fine stored (known stored earlier)
          exact about ▸ onlyOpen waiting
  | _ => exact ⟨stays.stays, stays.same, stays.pending⟩

/-- A request with such effects keeps every pending offer on an open request. -/
theorem live_of_emits
    {db : Db} {request : Call Unit} (live : Live db)
    (emits : request.Emits (closesNothing db) fun _ => True) :
    Live (Request.run request db).2 :=
  Stays.live <| emits.keeps (Stays db)
    (fun _ fine _ stays => closesNothing_keeps fine stays) live.stays

/-- Only an open request leaves the open status. -/
theorem transition_closesNothing
    {db : Db} {env : Env} {id : RequestId} {stored request : ServiceRequest}
    {toStatus : RequestStatus} {reason : String}
    (found : db.requests.row id = some stored)
    (same : request.status = stored.status)
    (target : toStatus ≠ .matched ∧ toStatus ≠ .cancelled ∧
      toStatus ≠ .expired) :
    (ServiceRequests.transition env id request toStatus reason).Emits
      (closesNothing db) fun _ => True := by
  simp only [ServiceRequests.transition, Prog.emits_bind, Prog.emits_require,
    Prog.emits_exec, Prog.emits_pure, implies_true, and_true]
  intro edge already
  obtain ⟨row, present, status⟩ := opened_eq_true.mp already
  obtain rfl := Option.some.inj (found.symm.trans present)
  rw [same, status] at edge
  revert edge target
  cases toStatus <;> simp [ServiceRequests.transitions]

/-! ## Requests of students -/

theorem create_live
    {db : Db} (live : Live db) (env : Env) (student : UserId)
    (payload : ServiceRequests.Payload) :
    Live (Request.run (RequestCall.create env student payload).call db).2 :=
  live_of_emits live <| by
    simp [RequestCall.call, Call.perform, ServiceRequests.createRequest,
      Tx.create, closesNothing]

theorem updateDraft_live
    {db : Db} (live : Live db) (env : Env) (owner : UserId) (id : RequestId)
    (payload : ServiceRequests.Payload) :
    Live (Request.run (RequestCall.updateDraft env owner id payload).call
      db).2 := by
  refine Call.onCopy live fun copy found => live_of_emits live ?_
  simp only [Call.perform, ServiceRequests.updateDraft, Request.emits_atomic,
    Prog.emits_bind, Prog.emits_require, Prog.emits_ofExcept,
    Prog.emits_exec, Prog.emits_pure, implies_true, and_true]
  intro _ draft _ _ _ _ _ _ already
  obtain ⟨row, present, status⟩ := opened_eq_true.mp already
  obtain rfl := Option.some.inj (present.symm.trans found)
  simp [status] at draft

theorem publish_live
    {db : Db} (live : Live db) (env : Env) (owner : UserId) (id : RequestId)
    (attested : Bool) :
    Live (Request.run (RequestCall.publish env owner id attested).call
      db).2 := by
  refine Call.onCopy live fun copy found => live_of_emits live ?_
  refine .seq ?_ (by simp)
  refine .seq (by simp) fun _ => .seq (by simp) fun _ => ?_
  refine .seq (by simp) fun _ => Request.emits_ite.mpr
    ⟨fun _ => .seq ?_ fun _ => ?_, fun _ => .seq ?_ fun _ => ?_⟩
  · simp [Call.exec, closesNothing]
  · exact Request.emits_atomic.mpr
      (transition_closesNothing found rfl (by simp))
  · simp [Call.exec, closesNothing]
  · exact Request.emits_atomic.mpr
      (transition_closesNothing found rfl (by simp))

theorem reopen_live
    {db : Db} (live : Live db) (env : Env) (owner : UserId) (id : RequestId) :
    Live (Request.run (RequestCall.reopen env owner id).call db).2 := by
  refine Call.onCopy live fun copy found => live_of_emits live ?_
  refine Request.emits_atomic.mpr (.seq ?_ (by simp))
  refine .seq (by simp) fun _ => .seq (by simp) fun _ => ?_
  refine .seq (transition_closesNothing found rfl (by simp)) fun opened => ?_
  simp [closesNothing]

/-! ## Requests on offers -/

theorem opened_of_openForOffers
    {db : Db} {now : Time} {id : RequestId} {request : ServiceRequest}
    (found : db.requests.row id = some request)
    (accepts : ServiceRequests.openForOffers now request = true) :
    opened id db = true := by
  simp only [ServiceRequests.openForOffers, Bool.and_eq_true,
    decide_eq_true_eq] at accepts
  exact opened_eq_true.mpr ⟨request, found, accepts.1.1⟩

theorem submit_live
    {db : Db} (live : Live db) (env : Env) (expert : UserId) (id : RequestId)
    (amount : Int) (currency : String) :
    Live (Request.run (OfferCall.submit env expert id amount currency).call
      db).2 := by
  refine Call.onCopy live fun copy found => live_of_emits live ?_
  simp only [submit, expertGuard, limitGuard, saveOfferCount, Tx.create,
    Request.emits_bind, Request.emits_load, Request.emits_require,
    Request.emits_ofExcept, Request.emits_atomic, Request.emits_pure,
    Prog.emits_bind, Prog.emits_lockRow, Prog.emits_read, Prog.emits_require,
    Prog.emits_exec, Prog.emits_pure, closesNothing, implies_true, and_true]
  intro _ _ accepts _ _ _ _ _ _ _ _ _
  exact ⟨opened_of_openForOffers found accepts, fun _ _ kept => kept⟩

theorem update_live
    {db : Db} (live : Live db) (env : Env) (expert : UserId) (id : OfferId)
    (amount : Option (Option Int)) (currency : Option String) :
    Live (Request.run (OfferCall.update env expert id amount currency).call
      db).2 := by
  refine Call.onCopy live fun copy found => live_of_emits live ?_
  simp only [updateOffer, Request.emits_bind, Request.emits_load,
    Request.emits_require, Request.emits_ofExcept, Request.emits_orFail,
    Call.exec, Request.emits_atomic, Prog.emits_exec, closesNothing,
    implies_true, and_true]
  intro _ owned _ _ _ _ _ value _ stored same
  have row := OfferCall.find_offer found
  have own := same copy.1 row
  exact ⟨own.symm, fun waiting => own ▸ live id copy.1 row waiting⟩

theorem withdraw_live
    {db : Db} (live : Live db) (env : Env) (expert : UserId) (id : OfferId) :
    Live (Request.run (OfferCall.withdraw env expert id).call db).2 := by
  refine Call.onCopy live fun copy found => live_of_emits live ?_
  simp [withdraw, saveOfferCount, closesNothing]

theorem resubmit_live
    {db : Db} (live : Live db) (env : Env) (expert : UserId) (id : OfferId) :
    Live (Request.run (OfferCall.resubmit env expert id).call db).2 := by
  refine Call.onCopy live fun copy found => live_of_emits live ?_
  simp only [resubmit, expertGuard, limitGuard, saveOfferCount, Call.exec,
    Request.emits_bind, Request.emits_load, Request.emits_require,
    Request.emits_atomic, Prog.emits_exec, closesNothing, implies_true,
    and_true]
  intro _ _ _ _ accepts _ _ _
  refine ⟨fun stored same => ?_, fun _ _ kept => kept⟩
  have about := same copy.1 (OfferCall.find_offer found)
  exact ⟨trivial, fun _ => about ▸
    opened_of_openForOffers (OfferCall.find_request found) accepts⟩

theorem decline_live
    {db : Db} (live : Live db) (env : Env) (student : UserId) (id : OfferId)
    (reason : String) :
    Live (Request.run (OfferCall.decline env student id reason).call db).2 := by
  refine Call.onCopy live fun copy found => live_of_emits live ?_
  simp [decline, Call.exec, closesNothing]

/-! ## Bulk updates -/

/-- A bulk update of offers, alone. -/
theorem updateOffers_post
    {due : OfferId → Offer → Bool} {set : OfferId → Offer → Offer}
    (done : ∀ id offer, due id (set id offer) = false) (db : Db) :
    (Tx.updateWhere (fun db => db.offers.keys)
      (fun id db => (db.offers.row id).any (due id)) .offer
      (fun id => .saveOffer id (set id)) : Tx Nat).Post db fun result next =>
        (∃ count, result = .ok count) ∧ next.requests = db.requests ∧
          ∀ id, next.offers.row id = (db.offers.row id).map fun offer =>
            if due id offer then set id offer else offer := by
  have bulk : Bulk (fun id (db : Db) => db.offers.row id) due set
      fun id => Stmt.saveOffer id (set id) :=
    ⟨fun key db => Table.row_modify_self db.offers key (set key),
      fun key _ db different =>
        Table.row_modify_other db.offers (set key) different, done⟩
  exact bulk.post (fun id present => (db.offers.mem_keys id).mpr present)
    (fun next => next.requests = db.requests) (fun _ _ same => same) rfl

/-- A bulk update of requests, alone. -/
theorem updateRequests_post
    {due : ServiceRequest → Bool} {set : ServiceRequest → ServiceRequest}
    (done : ∀ request, due (set request) = false) (db : Db) :
    (Tx.updateWhere (fun db => db.requests.keys)
      (fun id db => (db.requests.row id).any due) .request
      (fun id => .updateRequest id set) : Tx Nat).Post db fun result next =>
        (∃ count, result = .ok count) ∧ next.offers = db.offers ∧
          ∀ id, next.requests.row id = (db.requests.row id).map fun request =>
            if due request then set request else request := by
  have bulk : Bulk (fun id (db : Db) => db.requests.row id) (fun _ => due)
      (fun _ => set) fun id => Stmt.updateRequest id set :=
    ⟨fun key db => Table.row_modify_self db.requests key set,
      fun key _ db different =>
        Table.row_modify_other db.requests set different, fun _ => done⟩
  exact bulk.post (fun id present => (db.requests.mem_keys id).mpr present)
    (fun next => next.offers = db.offers) (fun _ _ same => same) rfl

/-! ## Selection -/

/-- The other offers are on other requests, or closed. -/
theorem accept_live
    {db : Db} (live : Live db) (env : Env) (student : Actor) (id : OfferId) :
    Live (Request.run (OfferCall.accept env student id).call db).2 := by
  refine (Call.perform_ends ?_).lasting live
  simp only [accept, getForUpdate, getRequestForUpdate, Tx.getForUpdate, Tx.get,
    Prog.post_bind, Prog.post_lockRow, Prog.post_read, Prog.post_orFail,
    Prog.post_require, Prog.post_exec, reduceCtorEq, false_implies,
    implies_true, and_true]
  intro offer stored request found _ _ pending _ _
  refine (updateOffers_post (by simp) _).mono ?_
  rintro _ next ⟨⟨count, rfl⟩, requests, offers⟩
  simp only [ServiceRequests.markMatched, ServiceRequests.transition,
    createOrderFromOffer, Orders.createOrderForRequest, Orders.recordEvent,
    Tx.create, Prog.post_bind, Prog.post_require, Prog.post_orFail,
    Prog.post_lockRow, Prog.post_read, Prog.post_exec, Prog.post_pure, reduceCtorEq,
    false_implies, implies_true, and_true]
  intro _ _ _ _ _ _ _ key last present waiting
  obtain ⟨middle, saved, settled⟩ :=
    Option.map_eq_some_iff.mp ((offers key).symm.trans present)
  rcases Table.row_modify_cases saved with
    ⟨different, earlier⟩ | ⟨rfl, old, -, rfl⟩
  · -- a pending sibling has been declined
    split_ifs at settled with sibling
    · exact absurd waiting (by simp [← settled])
    subst settled
    have elsewhere : middle.request ≠ offer.request := by
      intro own
      simp [own, waiting, different] at sibling
    have already := live key middle earlier waiting
    refine (opened_of_row ?_).trans already
    exact (Table.row_modify_other _ _ elsewhere).trans (by rw [requests]; rfl)
  · exact absurd waiting (by simp [← settled])

/-! ## Requests that stop being open -/

/-- Requests that are closed without their offers: exactly those with none. -/
theorem live_closed_iff
    {db next : Db} (closes : RequestId → Bool) (live : Live db)
    (offers : next.offers = db.offers)
    (requests : ∀ id, opened id next = (opened id db && !closes id)) :
    Live next ↔ ∀ id, closes id = true → pendingOn id db = false := by
  have same : ∀ id, pendingOn id next = pendingOn id db := by
    simp [pendingOn, offers]
  rw [live_iff]
  refine forall_congr' fun id => ?_
  rw [same, requests]
  have before := live_iff.mp live id
  cases pending : pendingOn id db <;> simp_all

theorem cancel_live_iff
    {db : Db} (live : Live db) (env : Env) (owner : UserId) (id : RequestId)
    (reason : String) :
    Live (Request.run (RequestCall.cancel env owner id reason).call db).2 ↔
      ((db.requests.row id).any (·.student = owner) = true →
        pendingOn id db = false) := by
  suffices whole : (RequestCall.cancel env owner id reason).call.Leaves db []
      fun _ next _ => Live next ↔
        ((db.requests.row id).any (·.student = owner) = true →
          pendingOn id db = false) from Request.leaves_iff_run.mp whole
  simp only [RequestCall.call, Call.performOn, Call.get, Call.perform,
    ServiceRequests.cancel, ServiceRequests.transition, RequestCall.find,
    Request.leaves_bind, Request.leaves_load, Request.leaves_orFail,
    Request.leaves_atomic, Prog.post_bind, Prog.post_require, Prog.post_exec,
    Prog.post_pure, applyAll_nil]
  refine ⟨fun request found => ⟨fun own => ⟨fun edge => ?_, fun stuck => ?_⟩,
    fun other => ?_⟩, fun missing => ?_⟩
  · refine (live_closed_iff (· == id) live ?_ fun query => ?_).trans ?_
    · rfl
    · by_cases same : query = id
      · subst same
        simp [opened, Store.apply, Stmt.apply, found, ServiceRequests.moved]
      · simp [opened, Store.apply, Stmt.apply, same]
    · simp [found, own]
  · refine iff_of_true live fun _ => ?_
    by_contra pending
    obtain ⟨stored, present, status⟩ := opened_eq_true.mp
      (live_iff.mp live id (by simpa using pending))
    obtain rfl := Option.some.inj (found.symm.trans present)
    simp [status, ServiceRequests.transitions] at stuck
  · exact iff_of_true live (by simp [found, other])
  · exact iff_of_true live (by simp [missing])

/-- Expired requests are the stale ones, and their offers stay. -/
theorem expireDue_post (env : Env) (db : Db) :
    (ServiceRequests.expireDue env).Post db fun result next =>
      (∃ count, result = .ok count) ∧ next.offers = db.offers ∧
        ∀ id, opened id next = (opened id db &&
          !(db.requests.row id).any (ServiceRequests.stale env.now)) := by
  refine (updateRequests_post (by simp [ServiceRequests.stale]) db).mono ?_
  rintro result next ⟨count, offers, rows⟩
  refine ⟨count, offers, fun id => ?_⟩
  rw [opened, rows]
  cases found : db.requests.row id with
  | none => simp [opened, found]
  | some request =>
      by_cases due : ServiceRequests.stale env.now request = true <;>
        simp [opened, found, due]

theorem expireDue_live_iff
    {db : Db} (live : Live db) (env : Env) :
    Live (Request.run (RequestCall.expireDue env).call db).2 ↔
      ∀ id, (db.requests.row id).any (ServiceRequests.stale env.now) = true →
        pendingOn id db = false := by
  have post : (Call.perform (ServiceRequests.expireDue env)).Leaves db []
      fun _ next _ => Live next ↔
        ∀ id, (db.requests.row id).any (ServiceRequests.stale env.now) = true →
          pendingOn id db = false := by
    refine Request.leaves_atomic.mpr
      (Prog.post_bind.mpr ((expireDue_post env db).mono ?_))
    rintro result next ⟨⟨count, rfl⟩, offers, requests⟩
    exact live_closed_iff _ live offers requests
  exact Request.leaves_iff_run.mp post

/-- Closing the offers of some requests leaves the other pending ones. -/
theorem pendingOn_closeOffers
    {dueIds : List RequestId} {set : Offer → Offer} {db next : Db}
    (closed : ∀ offer, (set offer).status ≠ .pending)
    (rows : ∀ id, next.offers.row id = (db.offers.row id).map fun offer =>
      if dueOffer dueIds offer then set offer else offer) (id : RequestId) :
    pendingOn id next = (pendingOn id db && !decide (id ∈ dueIds)) := by
  rw [Bool.eq_iff_iff, Bool.and_eq_true, pendingOn_eq_true, pendingOn_eq_true]
  constructor
  · rintro ⟨key, last, present, rfl, waiting⟩
    obtain ⟨offer, before, settled⟩ :=
      Option.map_eq_some_iff.mp ((rows key).symm.trans present)
    split_ifs at settled with due
    · exact absurd (settled ▸ waiting) (closed offer)
    subst settled
    refine ⟨⟨key, offer, before, rfl, waiting⟩, ?_⟩
    simpa [dueOffer, waiting] using due
  · rintro ⟨⟨key, offer, before, rfl, waiting⟩, kept⟩
    refine ⟨key, offer, ?_, rfl, waiting⟩
    have spared : ¬dueOffer dueIds offer = true := by
      simpa [dueOffer, waiting] using kept
    simp [rows, before, spared]

/-- The task closes the offers of the requests that it has read, only. -/
theorem expireStaleRequests_live_iff
    {db : Db} (live : Live db) (env : Env) (expiring responding : Time) :
    (expireStaleRequests env expiring responding).Leaves db []
      fun _ next _ => Live next ↔
        ∀ id, (db.requests.row id).any (ServiceRequests.stale expiring) = true →
          (db.requests.row id).any (ServiceRequests.stale env.now) = true ∨
            pendingOn id db = false := by
  refine Request.leaves_bind.mpr (Request.leaves_load.mpr ?_)
  have listed : ∀ id, id ∈ (db.requests.select fun _ request =>
      ServiceRequests.stale env.now request) ↔
        (db.requests.row id).any (ServiceRequests.stale env.now) = true := by
    intro id
    rw [Table.mem_select, Option.any_eq_true]
  rw [applyAll_nil]
  generalize (db.requests.select fun _ request =>
    ServiceRequests.stale env.now request) = dueIds at listed
  refine Request.leaves_bind.mpr <| Request.leaves_atomic.mpr <|
    (expireDue_post { env with now := expiring } db).mono ?_
  rintro result middle ⟨⟨count, rfl⟩, offers, requests⟩
  -- the offers that wait afterwards are those that the task has not read
  have left : ∀ next, next.requests = middle.requests →
      (∀ id, pendingOn id next = (pendingOn id db && !decide (id ∈ dueIds))) →
      (Live next ↔ ∀ id,
        (db.requests.row id).any (ServiceRequests.stale expiring) = true →
          (db.requests.row id).any (ServiceRequests.stale env.now) = true ∨
            pendingOn id db = false) := by
    intro next same pending
    rw [live_iff]
    refine forall_congr' fun id => ?_
    have before := live_iff.mp live id
    rw [pending, opened_of_row (congrArg (·.row id) same), requests]
    have read := listed id
    cases waiting : pendingOn id db <;> simp_all
    by_cases due :
        (db.requests.row id).any (ServiceRequests.stale env.now) = true <;>
      simp_all
  refine Request.leaves_ite.mpr ⟨fun none => ?_, fun some => ?_⟩
  · refine Request.leaves_pure.mpr (left middle rfl fun id => ?_)
    simp [pendingOn, offers, none]
  · refine Request.leaves_bind.mpr <| Request.leaves_atomic.mpr <|
      (updateOffers_post (by simp [dueOffer]) middle).mono ?_
    rintro result next ⟨⟨closed, rfl⟩, same, rows⟩
    refine Request.leaves_pure.mpr (left next same fun id => ?_)
    rw [pendingOn_closeOffers (by simp) rows, pendingOn, offers]
    rfl

/-! ## Runs -/

/-- The calls that open and close requests and offers on the open market. -/
inductive MarketCall where
  | request (call : RequestCall)
  | offer (call : OfferCall)
  | expireStaleRequests (env : Env) (expiring responding : Time)

namespace MarketCall

/-- The request of the client or of the worker. -/
def call : MarketCall → Call Unit
  | request call => call.call
  | offer call => call.call
  | expireStaleRequests env expiring responding => do
      let _ ← Bidding.expireStaleRequests env expiring responding
      return ()

/--
Nothing is pending where a request stops being open without a look at its
offers: by the student's cancellation, by the service of the expiry alone, and
by an expiry that falls between the two clock readings of the task.
-/
def Clears (call : MarketCall) (db : Db) : Prop :=
  match call with
  | request (.cancel _ owner id _) =>
      (db.requests.row id).any (·.student = owner) = true →
        pendingOn id db = false
  | request (.expireDue env) => ∀ id,
      (db.requests.row id).any (ServiceRequests.stale env.now) = true →
        pendingOn id db = false
  | expireStaleRequests env expiring _ => ∀ id,
      (db.requests.row id).any (ServiceRequests.stale expiring) = true →
        (db.requests.row id).any (ServiceRequests.stale env.now) = true ∨
          pendingOn id db = false
  | _ => True

/-- A call keeps pending offers on open requests exactly when it clears them. -/
theorem live_after
    {db : Db} (call : MarketCall) (live : Live db) :
    Live (Request.run call.call db).2 ↔ call.Clears db := by
  cases call with
  | request call =>
      cases call with
      | create env student payload =>
          exact iff_of_true (create_live live env student payload) trivial
      | updateDraft env owner id payload =>
          exact iff_of_true (updateDraft_live live env owner id payload) trivial
      | publish env owner id attested =>
          exact iff_of_true (publish_live live env owner id attested) trivial
      | cancel env owner id reason =>
          exact cancel_live_iff live env owner id reason
      | reopen env owner id =>
          exact iff_of_true (reopen_live live env owner id) trivial
      | expireDue env => exact expireDue_live_iff live env
  | offer call =>
      cases call with
      | submit env expert id amount currency =>
          exact iff_of_true (submit_live live env expert id amount currency)
            trivial
      | update env expert id amount currency =>
          exact iff_of_true (update_live live env expert id amount currency)
            trivial
      | withdraw env expert id =>
          exact iff_of_true (withdraw_live live env expert id) trivial
      | resubmit env expert id =>
          exact iff_of_true (resubmit_live live env expert id) trivial
      | decline env student id reason =>
          exact iff_of_true (decline_live live env student id reason) trivial
      | accept env student id =>
          exact iff_of_true (accept_live live env student id) trivial
  | expireStaleRequests env expiring responding =>
      suffices whole : (MarketCall.expireStaleRequests env expiring
          responding).call.Leaves db [] fun _ next _ => Live next ↔
            (MarketCall.expireStaleRequests env expiring responding).Clears
              db from Request.leaves_iff_run.mp whole
      refine Request.leaves_bind.mpr
        ((expireStaleRequests_live_iff live env expiring responding).mono ?_)
      rintro (error | count) next pending kept
      · exact kept
      · exact Request.leaves_pure.mpr kept

end MarketCall

/-- What a run of calls leaves. -/
def afterCalls : List MarketCall → Db → Db :=
  Request.afterAll MarketCall.call

/--
In every state of a run all pending offers are on open requests if and only if
every call that closes requests finds none pending on those it does not look at.
-/
theorem pending_offers_live_iff
    (start : Db) (live : Live start) (calls : List MarketCall) :
    (∀ done, done <+: calls → Live (afterCalls done start)) ↔
      Request.AllMeet MarketCall.call MarketCall.Clears calls start := by
  have kept : Request.AllMeet MarketCall.call MarketCall.Clears calls start ↔
      ∀ done, done <+: calls → Live (afterCalls done start) :=
    Request.allMeet_iff (fun _ => True) Live (fun _ _ _ => trivial)
      (fun call _ _ before => call.live_after before) trivial live
  exact kept.symm

/-- A published request of the first student with an offer of an expert. -/
def offered : List MarketCall :=
  [.request (.create { now := 0, key := 10 } 1
      { title := some "Essay", description := some "Feedback on a draft",
        subject := some (some 1), budgetMax := some (some 5000) }),
    .request (.publish { now := 0 } 1 10 true),
    .offer (.submit { now := 0, key := 20 } 2 10 2000 "usd")]

/-- An approved and available expert. -/
def expertAvailable : Db :=
  { experts := .insert .empty 2 ⟨true, true, [1]⟩ }

theorem live_expertAvailable : Live expertAvailable :=
  fun _ _ none => nomatch none

/-- The student cancels the request, and the offer stays pending. -/
theorem pending_offer_cancelled :
    let db := afterCalls (offered ++ [.request (.cancel { now := 1 } 1 10 "")])
      expertAvailable
    (db.offers.row 20).map (fun offer => (offer.request, offer.status)) =
      some (10, .pending) ∧
    (db.requests.row 10).map ServiceRequest.status = some .cancelled ∧
    ¬Live db := by
  intro db
  have offer : (db.offers.row 20).map (fun offer =>
      (offer.request, offer.status)) = some (10, .pending) := by decide +kernel
  have request : (db.requests.row 10).map ServiceRequest.status =
      some .cancelled := by decide +kernel
  refine ⟨offer, request, fun live => ?_⟩
  obtain ⟨row, stored, same⟩ := Option.map_eq_some_iff.mp offer
  obtain ⟨about, waiting⟩ := Prod.mk.inj same
  have kept := live 20 row stored waiting
  obtain ⟨left, present, status⟩ := opened_eq_true.mp (about ▸ kept)
  rw [present] at request
  simp [status] at request

/-- While the request is open, its offer is where it belongs. -/
theorem pending_offer_open :
    Live (afterCalls offered expertAvailable) :=
  (pending_offers_live_iff expertAvailable live_expertAvailable offered).mpr
    ⟨trivial, trivial, trivial, trivial⟩ offered List.prefix_rfl

end Bidding
end KnowledgeMarketplace
