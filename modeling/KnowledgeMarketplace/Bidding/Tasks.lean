import KnowledgeMarketplace.Bidding.Services

/-!
# The worker's expiry of requests

The task reads the stale requests, lets the request service expire, and then
closes the pending offers of the requests it has read: three clock readings and
two transactions.
-/

namespace KnowledgeMarketplace

namespace Bidding

/-- A pending offer on one of these requests. -/
def dueOffer (dueIds : List RequestId) (offer : Offer) : Bool :=
  offer.request ∈ dueIds && offer.status = .pending

/-- Close the pending offers of expired requests in bulk. -/
def closeOffers (responding : Time) (dueIds : List RequestId) : Tx Nat :=
  Tx.updateWhere (fun db => db.offers.keys)
    (fun id db => (db.offers.row id).any (dueOffer dueIds))
    .offer
    (fun id => .saveOffer id fun stored =>
      { stored with
        status := .expired
        respondedAt := some responding
        responseReason := "Request expired" })

/--
Expire stale open requests and close their pending offers.  `env.now` is the
time of the first query; the service and the second update read the clock again.
-/
def expireStaleRequests (env : Env) (expiring responding : Time) :
    Call Nat := do
  let dueIds ← Call.load fun db =>
    db.requests.select fun _ request => ServiceRequests.stale env.now request
  let count ← Call.atomic <|
    ServiceRequests.expireDue { env with now := expiring }
  if dueIds = [] then
    return count
  else
    let _ ← Call.atomic (closeOffers responding dueIds)
    return count

end Bidding

end KnowledgeMarketplace
