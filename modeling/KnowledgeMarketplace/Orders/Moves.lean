import KnowledgeMarketplace.Orders.Services
import KnowledgeMarketplace.Transaction.Yields

/-!
# Moves that succeed

The lone run of a move of an order along an edge.
-/

namespace KnowledgeMarketplace

open Transaction

namespace Orders

variable {id : OrderId} {order : Order} {db : Db}

theorem getForUpdate_yields (stored : db.orders.row id = some order) :
    (getForUpdate id).Yields db order db :=
  .bind .lockRow (.bind .read (.orFail stored))

/-- What a move leaves. -/
def moved
    (id : OrderId) (toStatus : OrderStatus) (event : OrderEvent) (db : Db) : Db :=
  applyAll [.saveOrder id fun stored => { stored with status := toStatus },
    .recordEvent event] db

/-- A move along an edge succeeds. -/
theorem transition_yields
    {toStatus : OrderStatus} {eventType : OrderEventType}
    {actor : Option Actor} {data : OrderEventData}
    (stored : db.orders.row id = some order)
    (edge : (transitions order.status toStatus).isSome = true) :
    (transition id toStatus eventType actor data).Yields db
      { order with status := toStatus }
      (moved id toStatus
        { order := id, eventType, actor := actor.map Actor.id, data } db) :=
  .bind (getForUpdate_yields stored) <|
    .bind (.require edge) <| .bind .exec <| .bind .exec .pure

end Orders

end KnowledgeMarketplace
