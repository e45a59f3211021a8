import KnowledgeMarketplace.Operations
import KnowledgeMarketplace.Database.Locks
import KnowledgeMarketplace.Transaction.Journal

/-!
# Counters of offers

Experts submit, withdraw and resubmit at the same time.  The counter of a
request is written as the value of the caller's copy plus or minus one, and the
quota of an expert is read before the write, without a lock.
-/

namespace KnowledgeMarketplace

open Transaction

namespace Bidding

/-- The number of offers on a request that are not withdrawn. -/
def liveOffers (id : RequestId) (db : Db) : Nat :=
  db.offers.count fun offer => offer.request = id && offer.status ≠ .withdrawn

/-- The counters of requests and the quotas of experts are right. -/
structure Counted (db : Db) : Prop where
  counters : ∀ id request, db.requests.row id = some request →
    request.offerCount = liveOffers id db
  quotas : ∀ expert, pendingOffers expert db ≤ maxPendingOffers

/-- Offers are inserted under keys that are unused. -/
def Fresh (stmts : List Stmt) (db : Db) : Prop :=
  ∀ key value, Stmt.insertOffer key value ∈ stmts → db.offers.row key = none

/-- What experts do with their offers. -/
inductive BidCall where
  | submit (env : Env) (expert : UserId) (request : RequestId) (amount : Int)
      (currency : String)
  | withdraw (env : Env) (expert : UserId) (offer : OfferId)
  | resubmit (env : Env) (expert : UserId) (offer : OfferId)

namespace BidCall

/-- The operation of the marketplace. -/
def operation : BidCall → OfferCall
  | submit env expert id amount currency =>
      .submit env expert id amount currency
  | withdraw env expert id => .withdraw env expert id
  | resubmit env expert id => .resubmit env expert id

/-- The request of the expert. -/
def call (call : BidCall) : Call Unit :=
  call.operation.call

/-! ## What the calls commit -/

/-- What a withdrawal saves. -/
def withdrawn (env : Env) (offer : Offer) : Offer :=
  { offer with status := .withdrawn, respondedAt := some env.now }

/-- What a second submission saves. -/
def resubmitted (offer : Offer) : Offer :=
  { offer with status := .pending, respondedAt := none }

/-- Each call commits what follows from the copies of its first look. -/
def Commits (call : BidCall) (notes : Progress Db) (stmts : List Stmt) : Prop :=
  match call with
  | submit env expert id amount currency => ∃ look copy,
      notes.looked = some look ∧ look.requests.row id = some copy ∧
        stmts = [
          .insertOffer env.key { request := id, expert, amount, currency },
          saveOfferCount id (copy.offerCount + 1)]
  | withdraw env _ id => ∃ look copy,
      notes.looked = some look ∧ OfferCall.find id look = some copy ∧
        copy.2.offerCount ≠ 0 ∧
        stmts = [.saveOffer id (withdrawn env),
          saveOfferCount copy.1.request (copy.2.offerCount - 1)]
  | resubmit _ expert id => ∃ look copy,
      notes.looked = some look ∧ OfferCall.find id look = some copy ∧
        copy.1.expert = expert ∧
        (notes.commits = 0 ∧ stmts = [.saveOffer id resubmitted] ∨
          0 < notes.commits ∧
            stmts = [saveOfferCount copy.1.request (copy.2.offerCount + 1)])

theorem submit_commits
    (env : Env) (expert : UserId) (id : RequestId) (amount : Int)
    (currency : String) :
    (submit env expert id amount currency).call.Follows Journal.progress
      (submit env expert id amount currency).Commits {} []
      fun _ _ _ => True := by
  simp only [call, operation, OfferCall.call, Call.get, Bidding.submit,
    expertGuard, limitGuard, Request.follows_bind, Request.follows_load,
    Request.follows_orFail, Request.follows_require, Request.follows_ofExcept,
    Request.follows_pure, applyAll_nil, implies_true, and_true]
  intro look copy found _ _ _ _ _ _ _ _ _ _
  refine Request.follows_atomic (fun _ => rfl) ?_
  simp only [Tx.create, Prog.wp_bind, Prog.wp_lockRow, Prog.wp_read,
    Prog.wp_require, Prog.wp_exec, Prog.wp_pure, Ctx.push_writes,
    implies_true, and_true]
  intro _ _ _ _
  exact ⟨look, copy, rfl, found, rfl⟩

theorem withdraw_commits (env : Env) (expert : UserId) (id : OfferId) :
    (withdraw env expert id).call.Follows Journal.progress
      (withdraw env expert id).Commits {} [] fun _ _ _ => True := by
  simp only [call, operation, OfferCall.call, OfferCall.onOffer, Call.get,
    Bidding.withdraw, Request.follows_bind, Request.follows_load,
    Request.follows_orFail, Request.follows_ofExcept, applyAll_nil,
    implies_true, and_true]
  intro look copy found _ _
  refine Request.follows_atomic (fun _ => rfl) ?_
  simp only [Prog.wp_bind, Prog.wp_require, Prog.wp_exec, Ctx.start_writes,
    Ctx.push_writes, List.nil_append, implies_true, and_true]
  exact fun positive => ⟨look, copy, rfl, found, positive, rfl⟩

theorem resubmit_commits (env : Env) (expert : UserId) (id : OfferId) :
    (resubmit env expert id).call.Follows Journal.progress
      (resubmit env expert id).Commits {} [] fun _ _ _ => True := by
  simp only [call, operation, OfferCall.call, OfferCall.onOffer, Call.get,
    Call.exec, Bidding.resubmit, expertGuard, limitGuard, Request.follows_bind,
    Request.follows_load, Request.follows_orFail, Request.follows_require,
    Request.follows_exec, applyAll_nil, implies_true, and_true]
  intro look copy found own _ _ _ _ _ _ _
  exact ⟨⟨look, copy, rfl, found, own, .inl ⟨rfl, rfl⟩⟩,
    ⟨look, copy, rfl, found, own, .inr ⟨Nat.one_pos, rfl⟩⟩⟩

theorem call_commits (call : BidCall) :
    call.call.Follows Journal.progress call.Commits {} []
      fun _ _ _ => True := by
  cases call with
  | submit env expert id amount currency =>
      exact submit_commits env expert id amount currency
  | withdraw env expert id => exact withdraw_commits env expert id
  | resubmit env expert id => exact resubmit_commits env expert id

/-- Effects that insert no offer. -/
def insertsNone (effect : Effect Stmt) : Prop :=
  ∀ key value, effect ≠ .write (.insertOffer key value)

theorem fresh_of_insertsNone
    {call : Call Unit} (emits : call.Emits insertsNone fun _ => True) :
    call.Safe rowLocks Fresh :=
  rowLocks_safe emits fun _ all _ key value member =>
    absurd rfl (all _ member key value)

/-- The lock on the new key is held until the commit. -/
theorem call_fresh (call : BidCall) : call.call.Safe rowLocks Fresh := by
  cases call with
  | submit env expert id amount currency =>
      simp only [BidCall.call, operation, OfferCall.call, Call.get,
        Bidding.submit, expertGuard, limitGuard, Tx.create, Request.Safe,
        Request.wp_bind, Request.wp_load, Request.wp_orFail,
        Request.wp_require, Request.wp_ofExcept, Request.wp_atomic,
        Request.wp_pure, Prog.wp_bind, Prog.wp_lockRow, Prog.wp_read,
        Prog.wp_require, Prog.wp_exec, Prog.wp_pure, Ctx.start_observe,
        implies_true, and_true]
      intro _ _ _ copy _ _ _ _ _ _ _ _ _ _ _ _ _ _ _ _ _ read _ _ unused
      refine rowLocks_commit fun state known => ?_
      have locked : read.offers.row env.key = state.offers.row env.key :=
        known.2 (.offer env.key) (.inl rfl)
      intro key value member
      obtain ⟨rfl, -⟩ : key = env.key ∧ _ := by
        simpa [saveOfferCount] using member
      rw [← locked]
      simp only [Ctx.take_writes, Ctx.start_writes, applyAll_nil,
        Bool.or_eq_true, not_or] at unused
      simpa using unused.1
  | withdraw env expert id =>
      refine fresh_of_insertsNone ?_
      simp [BidCall.call, operation, OfferCall.call, OfferCall.onOffer,
        Call.get, Bidding.withdraw, saveOfferCount, insertsNone]
  | resubmit env expert id =>
      refine fresh_of_insertsNone ?_
      simp [BidCall.call, operation, OfferCall.call, OfferCall.onOffer,
        Call.get, Call.exec, Bidding.resubmit, expertGuard, limitGuard,
        saveOfferCount, insertsNone]

end BidCall

/-! ## What a commit does to the counters -/

theorem pendingOffers_eq (expert : UserId) (db : Db) :
    pendingOffers expert db = db.offers.count fun offer =>
      offer.expert = expert && offer.status = .pending :=
  rfl

/-- Only the counter of one request, and the offers on it, are in question. -/
theorem counted_iff
    {db next : Db} {id : RequestId} (count : Nat) (counted : Counted db)
    (own : ∀ later, next.requests.row id = some later →
      later.offerCount = count)
    (present : (next.requests.row id).isSome)
    (others : ∀ other, other ≠ id →
      next.requests.row other = db.requests.row other ∧
        liveOffers other next = liveOffers other db) :
    Counted next ↔ count = liveOffers id next ∧
      ∀ expert, pendingOffers expert next ≤ maxPendingOffers := by
  constructor
  · intro after
    obtain ⟨later, found⟩ := Option.isSome_iff_exists.mp present
    exact ⟨(own later found).symm.trans (after.counters id later found),
      after.quotas⟩
  · rintro ⟨right, quotas⟩
    refine ⟨fun other later found => ?_, quotas⟩
    by_cases same : other = id
    · subst same
      exact (own later found).trans right
    · obtain ⟨row, live⟩ := others other same
      rw [live]
      exact counted.counters other later (row ▸ found)

/-- The counter of a request is all that this statement writes. -/
theorem counted_saveOfferCount_iff
    {db : Db} {id : RequestId} {request : ServiceRequest} (count : Nat)
    (next : Db) (counted : Counted db)
    (stored : db.requests.row id = some request)
    (requests : next.requests = db.requests)
    (others : ∀ other, other ≠ id →
      liveOffers other next = liveOffers other db) :
    Counted ((saveOfferCount id count).apply next) ↔
      count = liveOffers id next ∧
        ∀ expert, pendingOffers expert next ≤ maxPendingOffers := by
  have rows : ((saveOfferCount id count).apply next).requests =
      db.requests.modify id fun stored =>
        { stored with offerCount := count } := by
    rw [← requests]
    rfl
  refine counted_iff count counted (fun later found => ?_) ?_
    fun other different => ⟨?_, others other different⟩
  · rw [rows, Table.row_modify_self, stored] at found
    exact Option.some.inj found ▸ rfl
  · simp [rows, stored]
  · rw [rows, Table.row_modify_other _ _ different]

theorem submit_counted_iff
    {db : Db} {key : OfferId} {id : RequestId} {request : ServiceRequest}
    {expert : UserId} {amount : Int} {currency : String} (count : Nat)
    (counted : Counted db) (fresh : db.offers.row key = none)
    (stored : db.requests.row id = some request) :
    Counted (applyAll [
        .insertOffer key { request := id, expert, amount, currency },
        saveOfferCount id (count + 1)] db) ↔
      count = request.offerCount ∧
        pendingOffers expert db < maxPendingOffers := by
  have live : ∀ other, liveOffers other
      ((Stmt.insertOffer key { request := id, expert, amount, currency }).apply
        db) = liveOffers other db + if id = other then 1 else 0 := by
    intro other
    refine (Table.count_insert _ fresh).trans ?_
    simp [liveOffers]
  have pending : ∀ other, pendingOffers other
      ((Stmt.insertOffer key { request := id, expert, amount, currency }).apply
        db) = pendingOffers other db + if expert = other then 1 else 0 := by
    intro other
    refine (Table.count_insert _ fresh).trans ?_
    simp [pendingOffers_eq]
  refine (counted_saveOfferCount_iff (count + 1) ((Stmt.insertOffer key
    { request := id, expert, amount, currency }).apply db) counted stored rfl
      fun other different => ?_).trans ?_
  · simp [live, Ne.symm different]
  · rw [live, ← counted.counters id request stored]
    simp only [pending, if_true, Nat.add_right_cancel_iff]
    refine and_congr_right fun _ => ⟨fun all => ?_, fun room other => ?_⟩
    · have own := all expert
      rwa [if_pos rfl] at own
    · have before := counted.quotas other
      by_cases same : expert = other
      · subst same
        rwa [if_pos rfl]
      · simpa [same] using before

/-- A changed offer on a request, counted as live and as pending. -/
theorem count_saveOffer
    {db : Db} {id : OfferId} {offer : Offer} (set : Offer → Offer)
    (present : db.offers.row id = some offer)
    (about : (set offer).request = offer.request)
    (whose : (set offer).expert = offer.expert) :
    (∀ other, liveOffers other ((Stmt.saveOffer id set).apply db) +
        (if offer.request = other ∧ offer.status ≠ .withdrawn then 1 else 0) =
      liveOffers other db +
        if offer.request = other ∧ (set offer).status ≠ .withdrawn then 1
        else 0) ∧
    ∀ expert, pendingOffers expert ((Stmt.saveOffer id set).apply db) +
        (if offer.expert = expert ∧ offer.status = .pending then 1 else 0) =
      pendingOffers expert db +
        if offer.expert = expert ∧ (set offer).status = .pending then 1
        else 0 := by
  refine ⟨fun other => ?_, fun expert => ?_⟩
  · have counted : (db.offers.modify id set).count (fun offer =>
        offer.request = other && offer.status ≠ .withdrawn) + _ = _ :=
      Table.count_modify _ present
    simpa [liveOffers, Stmt.apply, about] using counted
  · have counted : (db.offers.modify id set).count (fun offer =>
        offer.expert = expert && offer.status = .pending) + _ = _ :=
      Table.count_modify _ present
    simpa [pendingOffers_eq, Stmt.apply, whose] using counted

theorem withdraw_counted_iff
    {db : Db} {env : Env} {id : OfferId} {offer : Offer}
    {request : ServiceRequest} {count : Nat} (counted : Counted db)
    (present : db.offers.row id = some offer)
    (stored : db.requests.row offer.request = some request)
    (positive : count ≠ 0) :
    Counted (applyAll [.saveOffer id (BidCall.withdrawn env),
        saveOfferCount offer.request (count - 1)] db) ↔
      count = if offer.status = .withdrawn then request.offerCount + 1
        else request.offerCount := by
  obtain ⟨live, pending⟩ := count_saveOffer (BidCall.withdrawn env)
    present rfl rfl
  have right := counted.counters offer.request request stored
  refine (counted_saveOfferCount_iff (count - 1)
    ((Stmt.saveOffer id (BidCall.withdrawn env)).apply db) counted stored rfl
      fun other different => ?_).trans ?_
  · simpa [Ne.symm different] using live other
  · have quotas : ∀ expert, pendingOffers expert
        ((Stmt.saveOffer id (BidCall.withdrawn env)).apply db) ≤
          maxPendingOffers := by
      intro expert
      have before := counted.quotas expert
      have after := pending expert
      simp only [BidCall.withdrawn, reduceCtorEq, and_false, if_false] at after
      omega
    have after := live offer.request
    simp only [BidCall.withdrawn, true_and, ne_eq, not_true_eq_false, if_false,
      Nat.add_zero] at after
    rw [and_iff_left quotas]
    split_ifs with gone <;> simp [gone] at after <;> omega

/-- The first commit of a second submission; it leaves the counter alone. -/
theorem resubmit_counted_iff
    {db : Db} {id : OfferId} {offer : Offer} {request : ServiceRequest}
    (counted : Counted db) (present : db.offers.row id = some offer)
    (stored : db.requests.row offer.request = some request) :
    Counted (applyAll [.saveOffer id BidCall.resubmitted] db) ↔
      offer.status ≠ .withdrawn ∧ (offer.status = .pending ∨
        pendingOffers offer.expert db < maxPendingOffers) := by
  obtain ⟨live, pending⟩ := count_saveOffer BidCall.resubmitted present rfl rfl
  have right := counted.counters offer.request request stored
  have only : Counted ((Stmt.saveOffer id BidCall.resubmitted).apply db) ↔ _ :=
    counted_iff request.offerCount counted
      (fun later found => by
        rw [Option.some.inj (stored.symm.trans found)])
      (by simp [Stmt.apply, stored])
      fun other different => ⟨rfl, by
        simpa [Ne.symm different] using live other⟩
  refine only.trans (and_congr ?_ ?_)
  · have after := live offer.request
    simp only [BidCall.resubmitted, true_and, reduceCtorEq, ne_eq,
      not_false_eq_true, if_true] at after
    split_ifs at after with gone
    · exact iff_of_false (by omega) (not_not.mpr gone)
    · exact iff_of_true (by omega) gone
  · constructor
    · intro all
      have own := all offer.expert
      have after := pending offer.expert
      by_cases waiting : offer.status = .pending
      · exact .inl waiting
      · simp only [BidCall.resubmitted, waiting, and_false, if_false, true_and,
          if_true] at after
        exact .inr (by omega)
    · intro room expert
      have before := counted.quotas expert
      have after := pending expert
      by_cases own : offer.expert = expert
      · subst own
        by_cases waiting : offer.status = .pending
        · simp only [BidCall.resubmitted, waiting] at after
          omega
        · have space := room.resolve_left waiting
          simp only [BidCall.resubmitted, waiting, and_false, if_false,
            true_and, if_true] at after
          omega
      · simp only [own, false_and, if_false] at after
        omega

/-- The second commit of a second submission; it leaves the offers alone. -/
theorem recount_counted_iff
    {db : Db} {id : RequestId} {request : ServiceRequest} (count : Nat)
    (counted : Counted db) (stored : db.requests.row id = some request) :
    Counted (applyAll [saveOfferCount id count] db) ↔
      count = request.offerCount := by
  refine (counted_saveOfferCount_iff count db counted stored rfl
    fun _ _ => rfl).trans ?_
  rw [← counted.counters id request stored]
  exact and_iff_left counted.quotas

/-! ## Runs -/

/-- What a client has read is still there, for the same parties. -/
structure Grown (look db : Db) : Prop where
  requests : ∀ id, (look.requests.row id).isSome → (db.requests.row id).isSome
  offers : ∀ id offer, look.offers.row id = some offer →
    ∃ later, db.offers.row id = some later ∧
      later.request = offer.request ∧ later.expert = offer.expert

theorem grown_refl (db : Db) : Grown db db where
  requests _ there := there
  offers _ offer found := ⟨offer, found, rfl, rfl⟩

/-- The statements of these calls. -/
def grows : Stmt → Prop
  | .insertOffer _ _ => True
  | .saveOffer _ set => ∀ stored, (set stored).request = stored.request ∧
      (set stored).expert = stored.expert
  | .updateRequest _ _ => True
  | _ => False

theorem Grown.apply
    {look db : Db} {stmt : Stmt} (fine : grows stmt) (grown : Grown look db) :
    Grown look (stmt.apply db) := by
  cases stmt with
  | insertOffer key value =>
      refine ⟨grown.requests, fun id offer found => ?_⟩
      obtain ⟨later, present, same⟩ := grown.offers id offer found
      exact ⟨later, Table.row_insert_of_some key value present, same⟩
  | saveOffer key set =>
      refine ⟨grown.requests, fun id offer found => ?_⟩
      obtain ⟨later, present, about, whose⟩ := grown.offers id offer found
      by_cases own : id = key
      · subst own
        exact ⟨set later, by simp [Stmt.apply, present],
          (fine later).1.trans about, (fine later).2.trans whose⟩
      · exact ⟨later, by
          simp [Stmt.apply, Table.row_modify_other _ set own, present],
          about, whose⟩
  | updateRequest key set =>
      refine ⟨fun id there => ?_, grown.offers⟩
      have before := grown.requests id there
      by_cases own : id = key
      · subst own
        simpa [Stmt.apply] using before
      · simpa [Stmt.apply, Table.row_modify_other _ set own] using before
  | _ => exact fine.elim

/-- The calls commit only such statements. -/
theorem BidCall.Commits.grows
    {call : BidCall} {notes : Progress Db} {stmts : List Stmt}
    (commits : call.Commits notes stmts) :
    ∀ stmt ∈ stmts, Bidding.grows stmt := by
  cases call with
  | submit env expert id amount currency =>
      obtain ⟨look, copy, -, -, rfl⟩ := commits
      simp [Bidding.grows, saveOfferCount]
  | withdraw env expert id =>
      obtain ⟨look, copy, -, -, -, rfl⟩ := commits
      simp [Bidding.grows, saveOfferCount, withdrawn]
  | resubmit env expert id =>
      obtain ⟨look, copy, -, -, -, ⟨-, rfl⟩ | ⟨-, rfl⟩⟩ := commits
      · simp [Bidding.grows, resubmitted]
      · simp [Bidding.grows, saveOfferCount]

/--
The counter of the caller's copy is the stored one, and the expert has room,
when the commit comes.  The first commit of a second submission changes the
counted offers only where the offer has come back already.
-/
def BidCall.Steady (call : BidCall) (notes : Progress Db) (db : Db) : Prop :=
  ∀ look, notes.looked = some look →
    match call with
    | submit _ expert id _ _ => ∀ copy stored,
        look.requests.row id = some copy → db.requests.row id = some stored →
          copy.offerCount = stored.offerCount ∧
            pendingOffers expert db < maxPendingOffers
    | withdraw _ _ id => ∀ copy offer stored,
        OfferCall.find id look = some copy →
        OfferCall.find id db = some (offer, stored) →
          copy.2.offerCount = if offer.status = .withdrawn
            then stored.offerCount + 1 else stored.offerCount
    | resubmit _ expert id => ∀ copy offer stored,
        OfferCall.find id look = some copy →
        OfferCall.find id db = some (offer, stored) →
          if notes.commits = 0 then
            offer.status ≠ .withdrawn ∧ (offer.status = .pending ∨
              pendingOffers expert db < maxPendingOffers)
          else
            copy.2.offerCount + 1 = stored.offerCount

/-- The offer of a copy and its request are still there. -/
theorem Grown.find
    {look db : Db} {id : OfferId} {copy : Offer × ServiceRequest}
    (grown : Grown look db) (found : OfferCall.find id look = some copy) :
    ∃ offer stored, OfferCall.find id db = some (offer, stored) ∧
      db.offers.row id = some offer ∧
      db.requests.row copy.1.request = some stored ∧
      offer.request = copy.1.request ∧ offer.expert = copy.1.expert := by
  obtain ⟨offer, present, about, whose⟩ :=
    grown.offers id copy.1 (OfferCall.find_offer found)
  have there := grown.requests copy.1.request
    (by simp [OfferCall.find_request found])
  obtain ⟨stored, row⟩ := Option.isSome_iff_exists.mp there
  exact ⟨offer, stored, by simp [OfferCall.find, present, about, row], present,
    row, about, whose⟩

/-- A commit leaves the counters right exactly when it is steady. -/
theorem BidCall.Commits.counted_iff
    {call : BidCall} {notes : Progress Db} {stmts : List Stmt} {db : Db}
    (commits : call.Commits notes stmts) (counted : Counted db)
    (fresh : Fresh stmts db)
    (grown : ∀ look, notes.looked = some look → Grown look db) :
    Counted (applyAll stmts db) ↔ call.Steady notes db := by
  cases call with
  | submit env expert id amount currency =>
      obtain ⟨look, copy, looked, found, rfl⟩ := commits
      have there := (grown look looked).requests id (by simp [found])
      obtain ⟨stored, row⟩ := Option.isSome_iff_exists.mp there
      rw [submit_counted_iff copy.offerCount counted
        (fresh env.key _ List.mem_cons_self) row]
      simp [Steady, looked, found, row]
  | withdraw env expert id =>
      obtain ⟨look, ⟨mine, request⟩, looked, found, positive, rfl⟩ := commits
      obtain ⟨offer, stored, both, present, row, about, -⟩ :=
        (grown look looked).find found
      rw [← about] at row ⊢
      rw [withdraw_counted_iff counted present row positive]
      simp [Steady, looked, found, both]
  | resubmit env expert id =>
      obtain ⟨look, ⟨mine, request⟩, looked, found, own, parts⟩ := commits
      obtain ⟨offer, stored, both, present, row, about, whose⟩ :=
        (grown look looked).find found
      rcases parts with ⟨none, rfl⟩ | ⟨some, rfl⟩
      · rw [resubmit_counted_iff counted present (about ▸ row), whose, own]
        simp [Steady, looked, found, both, none]
      · rw [recount_counted_iff _ counted row]
        simp [Steady, looked, found, both, some.ne']

/-- The counters are right, and what the clients have read is still there. -/
structure Steadfast (notes : Nat → Progress Db) (db : Db) : Prop where
  counted : Counted db
  grown : ∀ client look, (notes client).looked = some look → Grown look db

/-- A page on which nothing new is noted, or what is there now. -/
theorem Steadfast.note
    {notes : Nat → Progress Db} {db : Db} {client : Nat} {page : Progress Db}
    (steadfast : Steadfast notes db)
    (noted : ∀ look, page.looked = some look → Grown look db) :
    Steadfast (Function.update notes client page) db := by
  refine ⟨steadfast.counted, fun other look looked => ?_⟩
  by_cases same : other = client
  · subst same
    rw [Function.update_self] at looked
    exact noted look looked
  · rw [Function.update_of_ne same] at looked
    exact steadfast.grown other look looked

/-- A steady commit. -/
theorem Steadfast.commit
    {calls : Nat → BidCall} {notes : Nat → Progress Db} {db : Db}
    {client : Nat} {stmts : List Stmt} (steadfast : Steadfast notes db)
    (steady : (calls client).Steady (notes client) db)
    (fresh : Fresh stmts db)
    (commits : (calls client).Commits (notes client) stmts) :
    Steadfast notes (applyAll stmts db) := by
  refine ⟨?_, fun other look looked => ?_⟩
  · exact (commits.counted_iff steadfast.counted fresh
      (steadfast.grown client)).mpr steady
  · exact applyAll_keeps (Grown look)
      (fun stmt member _ grown => grown.apply (commits.grows stmt member))
      (steadfast.grown other look looked)

/-- The commits so far are steady. -/
def Steadily
    (calls : Nat → BidCall) (notes : Nat → Progress Db) (client : Nat)
    (_ : List Stmt) (db : Db) : Prop :=
  (calls client).Steady (notes client) db

/--
In any interleaving of submissions, withdrawals and second submissions all of
whose commits are steady, the counters are right in every committed state; and
the next commit leaves them right if and only if it is steady, too.
-/
theorem counters_steady
    {db : Db} {calls : Nat → BidCall} {notes : Nat → Progress Db}
    {system : Marketplace}
    (noted : System.Noted Journal.progress (Steadily calls) {} db
      (fun client => (calls client).call) notes system)
    (initial : Counted db) :
    Counted system.committed ∧ ∀ client stmts,
      system.committing (.run client) = some stmts →
        (Counted (applyAll stmts system.committed) ↔
          Steadily calls notes client stmts system.committed) := by
  have safe : ∀ client, (calls client).call.Safe rowLocks Fresh :=
    fun client => (calls client).call_fresh
  obtain ⟨sound, checked⟩ := noted.meets (fun _ _ => trivial) trivial safe
  have blank : Steadfast (fun _ => {}) db :=
    ⟨initial, fun _ _ none => nomatch none⟩
  have kept : _ ∧ Steadfast notes system.committed :=
    checked.keeps (fun client => (calls client).call_commits) blank
      (fun notes client state steadfast => ?_)
      (fun notes client stmts state allowed commits steadfast => ?_)
      (fun _ _ _ _ _ steadfast => steadfast.note (by simp [Journal.progress]))
      fun _ _ _ steadfast => steadfast.note (by simp [Journal.progress])
  · obtain ⟨following, steadfast⟩ := kept
    refine ⟨steadfast.counted, fun client stmts commits => ?_⟩
    exact (following.promised commits).counted_iff steadfast.counted
      (sound.guaranteed (fun _ _ => trivial) commits) (steadfast.grown client)
  · refine steadfast.note fun look looked => ?_
    cases earlier : (notes client).looked with
    | some seen =>
        refine steadfast.grown client look ?_
        simpa [Journal.progress, earlier] using looked
    | none =>
        obtain rfl : state = look := by
          simpa [Journal.progress, earlier] using looked
        exact grown_refl state
  · have next := steadfast.commit allowed.1 allowed.2 commits
    exact next.note fun look looked => next.grown client look looked

/-- An open request and two experts. -/
def biddable : Db :=
  { experts := .insert (.insert .empty 2 ⟨true, true, [1]⟩) 3 ⟨true, true, [1]⟩
    requests := .insert .empty 10
      { student := 1, status := .opened, expiresAt := some (days 30) } }

/-- Both experts submit an offer. -/
def bidders : Nat → BidCall
  | 0 => .submit { now := 0, key := 20 } 2 10 2000 "usd"
  | _ => .submit { now := 0, key := 21 } 3 10 3000 "usd"

theorem counted_biddable : Counted biddable := by
  have none : (Table.empty : Table RequestId ServiceRequest).All
      fun request => request.offerCount = 0 := fun _ _ absent => nomatch absent
  exact ⟨none.insert 10 rfl, fun _ => Nat.zero_le _⟩

/-- Both have read the request before either has written its counter. -/
def racing : List Turn :=
  turns 0 1 ++ turns 1 1 ++ turns 0 12 ++ turns 1 12

/-- The second submission overwrites the counter of the first. -/
theorem counter_lost :
    let db := ((System.init biddable fun client =>
      (bidders client).call : Marketplace).runAll racing).committed
    Counted biddable ∧
      (db.requests.row 10).map ServiceRequest.offerCount = some 1 ∧
      liveOffers 10 db = 2 ∧ ¬Counted db := by
  intro db
  have count : (db.requests.row 10).map ServiceRequest.offerCount = some 1 := by
    decide +kernel
  have live : liveOffers 10 db = 2 := by decide +kernel
  refine ⟨counted_biddable, count, live, fun counted => ?_⟩
  obtain ⟨request, stored, same⟩ := Option.map_eq_some_iff.mp count
  have right := counted.counters 10 request stored
  rw [live, same] at right
  exact absurd right (by decide)

/-- The commit of one submission alone is steady, and counted. -/
theorem counter_kept :
    let system : Marketplace := (System.init biddable fun client =>
      (bidders client).call : Marketplace).runAll (turns 0 8)
    ∃ stmts, system.committing (.run 0) = some stmts ∧
      liveOffers 10 (applyAll stmts system.committed) = 1 ∧
      Counted (applyAll stmts system.committed) := by
  intro system
  have begun : System.Noted Journal.progress (Steadily bidders) {} biddable
      (fun client => (bidders client).call) _ _ := .start
  have reading := begun.quietly (turns 0 8) (by decide +kernel)
  have kept := (counters_steady reading counted_biddable).2 0
  refine ⟨_, rfl, by decide +kernel, (kept _ rfl).mpr ?_⟩
  intro look looked copy stored found row
  obtain rfl : biddable = look := Option.some.inj looked
  obtain rfl := Option.some.inj (found.symm.trans row)
  exact ⟨rfl, by decide +kernel⟩

end Bidding

end KnowledgeMarketplace
