import KnowledgeMarketplace.Operations.Runs
import KnowledgeMarketplace.Orders.Moves
import Mathlib.Data.List.Count

/-!
# The sweep of unpaid orders

The sweep locks the orders that it cancels.  Inside a transaction it cancels
every order that is due and no other one.  The worker calls it without a
transaction, where the database layer refuses the locking query.
-/

namespace KnowledgeMarketplace

open Transaction

namespace Orders

/-- Evaluating a `select_for_update` query in autocommit mode raises. -/
def selectForUpdateAutocommit : Call (List OrderId) :=
  Call.throw .transactionManagement

/-- The sweep in autocommit mode: each save and each move commits alone. -/
def sweepUnpaidAutocommit (env : Env) : Call Nat := do
  let stale ← selectForUpdateAutocommit
  Call.forEach stale fun id => do
    Call.exec <| .saveOrder id fun stored =>
      { stored with
        cancelledAt := some env.now
        cancellationReason := "Unpaid for 72 hours" }
    Call.perform (transition id .cancelled .cancelled none)
  return stale.length

/-- The worker's job is that sweep, which ends at its first query. -/
theorem awaitingPaymentSweeper_eq (env : Env) :
    awaitingPaymentSweeper = sweepUnpaidAutocommit env :=
  rfl

/-- The timeline event of a swept order. -/
def sweptEvent (id : OrderId) : OrderEvent where
  order := id
  eventType := .cancelled

/-- Every due order is cancelled with its event, and every other order kept. -/
structure UnpaidSwept (now : Time) (before after : Db) : Prop where
  due : ∀ id order, before.orders.row id = some order →
    unpaid now order = true →
      (after.orders.row id).map Order.status = some .cancelled ∧
        after.orderEvents.count (sweptEvent id) =
          before.orderEvents.count (sweptEvent id) + 1
  others : ∀ id, (∀ order, before.orders.row id = some order →
    unpaid now order = false) → after.orders.row id = before.orders.row id

/-! ## Inside a transaction -/

/-- An order waits for its payment. -/
def Waiting (id : OrderId) (db : Db) : Prop :=
  ∃ order, db.orders.row id = some order ∧ order.status = .awaitingPayment

/-- The columns that the sweep stamps. -/
def stamped (env : Env) (id : OrderId) (db : Db) : Db :=
  Stmt.apply db <| .saveOrder id fun stored =>
    { stored with
      cancelledAt := some env.now
      cancellationReason := "Unpaid for 72 hours" }

/-- What cancelling one unpaid order leaves. -/
def withCancelled (env : Env) (id : OrderId) (db : Db) : Db :=
  moved id .cancelled (sweptEvent id) (stamped env id db)

theorem cancelUnpaid_yields
    {env : Env} {id : OrderId} {db : Db} (waiting : Waiting id db) :
    (cancelUnpaid env id).Yields db () (withCancelled env id db) := by
  obtain ⟨order, stored, status⟩ := waiting
  have row : (stamped env id db).orders.row id = some
      { order with
        cancelledAt := some env.now
        cancellationReason := "Unpaid for 72 hours" } := by
    simp [stamped, Stmt.apply, stored]
  have edge : (transitions order.status .cancelled).isSome = true := by
    rw [status]
    rfl
  exact .bind .exec (.bind (transition_yields row edge) .pure)

theorem withCancelled_row
    {env : Env} {id : OrderId} {db : Db} (waiting : Waiting id db) :
    ((withCancelled env id db).orders.row id).map Order.status =
      some .cancelled := by
  obtain ⟨order, stored, status⟩ := waiting
  simp [withCancelled, moved, stamped, Stmt.apply, stored]

@[simp] theorem withCancelled_other
    {env : Env} {id other : OrderId} {db : Db} (different : other ≠ id) :
    (withCancelled env id db).orders.row other = db.orders.row other := by
  simp [withCancelled, moved, stamped, Stmt.apply, different]

@[simp] theorem withCancelled_orderEvents (env : Env) (id : OrderId) (db : Db) :
    (withCancelled env id db).orderEvents =
      db.orderEvents ++ [sweptEvent id] := by
  simp [withCancelled, moved, stamped, Stmt.apply]

/-- The loop cancels the orders of its list, each with one event. -/
theorem cancelAll_yields
    {env : Env} {ids : List OrderId} (nodup : ids.Nodup) {db : Db}
    (waiting : ∀ id ∈ ids, Waiting id db) :
    ∃ next, (Tx.forEach ids (cancelUnpaid env)).Yields db () next ∧
      (∀ id ∈ ids, (next.orders.row id).map Order.status = some .cancelled) ∧
      (∀ id ∉ ids, next.orders.row id = db.orders.row id) ∧
      next.orderEvents = db.orderEvents ++ ids.map sweptEvent := by
  induction ids generalizing db with
  | nil => exact ⟨db, .forEach_nil, by simp, by simp, by simp⟩
  | cons id rest inductionHypothesis =>
      obtain ⟨fresh, nodup⟩ := List.nodup_cons.mp nodup
      have first : (cancelUnpaid env id).Yields db () (withCancelled env id db) :=
        cancelUnpaid_yields (waiting id List.mem_cons_self)
      have others : ∀ other ∈ rest, Waiting other (withCancelled env id db) := by
        intro other member
        have different : other ≠ id := fun same => fresh (same ▸ member)
        obtain ⟨order, stored, status⟩ :=
          waiting other (List.mem_cons_of_mem _ member)
        exact ⟨order, by simp [different, stored], status⟩
      obtain ⟨next, yields, cancelled, kept, events⟩ :=
        inductionHypothesis nodup others
      refine ⟨next, .forEach_cons first yields, ?_, ?_, by simp [events]⟩
      · intro other member
        rcases List.mem_cons.mp member with rfl | later
        · rw [kept other fresh]
          exact withCancelled_row (waiting other List.mem_cons_self)
        · exact cancelled other later
      · intro other absent
        obtain ⟨different, later⟩ := not_or.mp fun either =>
          absent (List.mem_cons.mpr either)
        rw [kept other later, withCancelled_other different]

/-- The orders that the locking query finds. -/
theorem mem_stale {now : Time} {db : Db} {id : OrderId} :
    id ∈ db.orders.keys.filter (fun id => (db.orders.row id).any (unpaid now)) ↔
      ∃ order, db.orders.row id = some order ∧ unpaid now order = true := by
  rw [List.mem_filter, db.orders.mem_keys]
  cases stored : db.orders.row id <;> simp

/-- Inside a transaction the sweep cancels what is due and nothing else. -/
theorem sweepUnpaid_sweeps (env : Env) (db : Db) :
    UnpaidSwept env.now db (Operation.after (.order (.sweepUnpaid env)) db) := by
  let stale := db.orders.keys.filter fun id =>
    (db.orders.row id).any (unpaid env.now)
  have waiting : ∀ id ∈ stale, Waiting id db := by
    intro id member
    obtain ⟨order, stored, due⟩ := mem_stale.mp member
    exact ⟨order, stored, by simpa using (Bool.and_eq_true_iff.mp due).1⟩
  obtain ⟨next, yields, cancelled, kept, events⟩ :=
    cancelAll_yields (db.orders.nodup.filter _) waiting
  have whole : (sweepUnpaid env).Yields db stale.length next :=
    .bind .selectForUpdate (.bind yields .pure)
  have after : Operation.after (.order (.sweepUnpaid env)) db = next :=
    congrArg Prod.snd (Call.run_perform whole)
  rw [after]
  refine ⟨fun id order stored due => ?_, fun id spared => ?_⟩
  · have member : id ∈ stale := mem_stale.mpr ⟨order, stored, due⟩
    refine ⟨cancelled id member, ?_⟩
    have single : (stale.map sweptEvent).count (sweptEvent id) = 1 := by
      rw [List.count_map_of_injective stale sweptEvent fun _ _ same =>
        congrArg OrderEvent.order same]
      exact List.count_eq_one_of_mem (db.orders.nodup.filter _) member
    rw [events, List.count_append, single]
  · refine kept id fun member => ?_
    obtain ⟨order, stored, due⟩ := mem_stale.mp member
    simp [spared order stored] at due

/-! ## As the worker runs it -/

/-- Without a transaction the sweep changes nothing. -/
theorem after_awaitingPaymentSweeper (db : Db) :
    Operation.after (.order .awaitingPaymentSweeper) db = db :=
  rfl

/-- The worker's sweep leaves what it should exactly when nothing is due. -/
theorem sweeper_sweeps_iff (now : Time) (db : Db) :
    UnpaidSwept now db (Operation.after (.order .awaitingPaymentSweeper) db) ↔
      ∀ id order, db.orders.row id = some order → unpaid now order = false := by
  rw [after_awaitingPaymentSweeper]
  constructor
  · intro swept id order stored
    by_contra due
    have events := (swept.due id order stored (by simpa using due)).2
    omega
  · intro spared
    refine ⟨fun id order stored due => ?_, fun _ _ => rfl⟩
    simp [spared id order stored] at due

/-- An order that was created at the epoch and never paid. -/
def forgotten : Db where
  orders := .insert .empty 40
    { request := 10
      student := 1
      expert := 2
      source := .openBid
      amount := 5000
      createdAt := 0 }

/-- Three days later the worker's sweep leaves it waiting. -/
theorem sweeper_leaves_due :
    ¬∀ now db,
      UnpaidSwept now db (Operation.after (.order .awaitingPaymentSweeper) db) := by
  intro sweeps
  have swept := (sweeps (hours 72) forgotten).due 40 _ rfl (by decide)
  exact absurd swept.1 (by decide)

end Orders

end KnowledgeMarketplace
