import KnowledgeMarketplace.Orders.Services

/-!
# Offers

Experts submit and edit offers on copies of the request and the offer.  Only
`accept` locks the offer and the request; it re-validates both and creates the
order.
-/

namespace KnowledgeMarketplace

namespace Bidding

/-- The most offers of one expert that are pending at a time. -/
def maxPendingOffers : Nat := 20

/-- Who may offer on a request; `request` is the caller's copy. -/
def expertGuard (env : Env) (expert : UserId) (request : ServiceRequest) :
    Call Unit := do
  Call.require (← Call.load fun db => ServiceRequests.expertIsEligible db expert)
    (.permissionDenied "Only approved, available experts can offer.")
  Call.require (ServiceRequests.openForOffers env.now request)
    (.domainError "This request is not accepting offers." "request_closed")
  Call.require (request.student ≠ expert)
    (.domainError "You cannot submit an offer on your own request."
      "self_dealing")

/-- Some offer of this expert on this request exists. -/
def offerExists (request : RequestId) (expert : UserId) (db : Db) : Bool :=
  db.offers.any fun _ offer => offer.request = request && offer.expert = expert

/-- The number of pending offers of an expert. -/
def pendingOffers (expert : UserId) (db : Db) : Nat :=
  (db.offers.select fun _ offer =>
    offer.expert = expert && offer.status = .pending).length

/-- The expert has room for one more pending offer. -/
def limitGuard (expert : UserId) : Call Unit := do
  Call.require
    ((← Call.load (pendingOffers expert)) < maxPendingOffers)
    (.domainError "Too many pending offers — withdraw one first."
      "offer_limit")

/-- The platform's floor of offers. -/
def amountGuard (amount : Option Int) : Except Error Unit :=
  if amount.any (· < Payments.minOfferMinor) then
    .error (.domainError
      "Offers below the platform minimum are not allowed (BR-18)."
      "offer_too_low")
  else
    .ok ()

/-- Store the number of offers that the caller's copy implies. -/
def saveOfferCount (request : RequestId) (offerCount : Nat) : Stmt :=
  .updateRequest request fun stored => { stored with offerCount }

/-- An expert offers on an open request; `request` is the caller's copy. -/
def submit
    (env : Env) (expert : UserId) (id : RequestId) (request : ServiceRequest)
    (amount : Int) (currency : String) : Call OfferId := do
  expertGuard env expert request
  Call.ofExcept (amountGuard (some amount))
  Call.require (¬(← Call.load (offerExists id expert)))
    (.domainError "You already have an offer on this request (BR-15)."
      "offer_exists")
  limitGuard expert
  Call.atomic do
    Tx.create (.offer env.key)
      (fun db => (db.offers.row env.key).isSome || offerExists id expert db)
      (.insertOffer env.key { request := id, expert, amount, currency })
      "Offer"
    Tx.exec (saveOfferCount id (request.offerCount + 1))
    return env.key

/-- Only the own, pending offer can be changed. -/
def ownedPending (expert : UserId) (offer : Offer) : Except Error Unit :=
  if offer.expert ≠ expert then
    .error (.permissionDenied "You can only manage your own offers.")
  else if offer.status ≠ .pending then
    .error (.domainError "Only pending offers can be changed." "offer_locked")
  else
    .ok ()

/--
Edit a pending offer: `offer.save()` writes every column of the copy.  An
absent field is not in the payload; a null amount violates the column.
-/
def updateOffer
    (env : Env) (expert : UserId) (id : OfferId) (offer : Offer)
    (request : ServiceRequest) (amount : Option (Option Int))
    (currency : Option String) : Call Unit := do
  Call.ofExcept (ownedPending expert offer)
  Call.require (← Call.load fun db => ServiceRequests.expertIsEligible db expert)
    (.permissionDenied "Only approved, available experts can manage offers.")
  Call.require (ServiceRequests.openForOffers env.now request)
    (.domainError "This request is no longer accepting offers."
      "request_closed")
  Call.ofExcept (amountGuard (amount.getD (some offer.amount)))
  let amount ← Call.orFail (amount.getD (some offer.amount)) (.integrity "Offer")
  let copy := { offer with amount, currency := currency.getD offer.currency }
  Call.exec (.saveOffer id fun _ => copy)

/-- Take a pending offer back; both rows are the caller's copies. -/
def withdraw
    (env : Env) (expert : UserId) (id : OfferId) (offer : Offer)
    (request : ServiceRequest) : Call Unit := do
  Call.ofExcept (ownedPending expert offer)
  Call.atomic do
    Tx.exec <| .saveOffer id fun stored =>
      { stored with status := .withdrawn, respondedAt := some env.now }
    -- the counter is a positive integer column
    Tx.require (request.offerCount ≠ 0) (.integrity "ServiceRequest")
    Tx.exec (saveOfferCount offer.request (request.offerCount - 1))

/-- Put a withdrawn offer back; both rows are the caller's copies. -/
def resubmit
    (env : Env) (expert : UserId) (id : OfferId) (offer : Offer)
    (request : ServiceRequest) : Call Unit := do
  Call.require (offer.expert = expert)
    (.permissionDenied "You can only manage your own offers.")
  Call.require (offer.status = .withdrawn)
    (.domainError "Only withdrawn offers can be re-submitted."
      "invalid_transition")
  expertGuard env expert request
  limitGuard expert
  Call.exec <| .saveOffer id fun stored =>
    { stored with status := .pending, respondedAt := none }
  Call.exec (saveOfferCount offer.request (request.offerCount + 1))

/-- The student turns an offer down; both rows are the caller's copies. -/
def decline
    (env : Env) (student : UserId) (id : OfferId) (offer : Offer)
    (request : ServiceRequest) (reason : String) : Call Unit := do
  Call.require (request.student = student)
    (.permissionDenied "You can only manage offers on your own requests.")
  Call.require (offer.status = .pending)
    (.domainError "Only pending offers can be declined." "offer_locked")
  Call.exec <| .saveOffer id fun stored =>
    { stored with
      status := .declined
      respondedAt := some env.now
      responseReason := clip 200 reason }

/-- The commission and the net amount that an expert sees when bidding. -/
def netPreview (amountMinor : Int) : Int × Int :=
  commissionSplit amountMinor .openDefault

/-! ## Selection -/

/-- Lock and read an offer row. -/
def getForUpdate (id : OfferId) : Tx Offer :=
  Tx.getForUpdate (.offer id) (fun db => db.offers.row id) "Offer"

/-- Lock and read a request row. -/
def getRequestForUpdate (id : RequestId) : Tx ServiceRequest :=
  Tx.getForUpdate (.request id) (fun db => db.requests.row id) "ServiceRequest"

/-- The other pending offers on a request. -/
def sibling (request : RequestId) (chosen : OfferId) (id : OfferId)
    (db : Db) : Bool :=
  (db.offers.row id).any fun offer =>
    offer.request = request && offer.status = .pending && id ≠ chosen

/-- Decline the other pending offers on a request. -/
def declineSiblings (env : Env) (request : RequestId) (chosen : OfferId) :
    Tx Nat :=
  Tx.updateWhere (fun db => db.offers.keys) (sibling request chosen) .offer
    (fun id => .saveOffer id fun stored =>
      { stored with
        status := .declined
        respondedAt := some env.now
        responseReason := "Another expert was selected" })

/-- The order of an accepted offer. -/
def createOrderFromOffer
    (env : Env) (id : OfferId) (offer : Offer) (request : ServiceRequest) :
    Tx OrderId :=
  Orders.createOrderForRequest env offer.request request offer.expert
    (some offer.amount) offer.currency .openBid (some id)

/-- The student selects an offer on an open request. -/
def accept (env : Env) (student : Actor) (id : OfferId) : Tx OrderId := do
  let offer ← getForUpdate id
  let request ← getRequestForUpdate offer.request
  Tx.require (request.student = student.id)
    (.permissionDenied "You can only select an expert on your own requests.")
  Tx.require (offer.expert ≠ student.id)
    (.domainError "You cannot select your own offer." "self_dealing")
  Tx.require (offer.status = .pending)
    (.domainError "This offer can no longer be accepted." "offer_locked")
  Tx.require (request.status = .opened)
    (.domainError "This request is not open for selection." "request_closed")
  Tx.require (← Tx.read fun db =>
      ServiceRequests.expertIsEligible db offer.expert)
    (.domainError "This expert is no longer eligible." "expert_ineligible")
  Tx.exec <| .saveOffer id fun stored =>
    { stored with status := .accepted, respondedAt := some env.now }
  let _ ← declineSiblings env offer.request id
  let matched ← ServiceRequests.markMatched env offer.request request
  createOrderFromOffer env id offer matched

end Bidding

end KnowledgeMarketplace
