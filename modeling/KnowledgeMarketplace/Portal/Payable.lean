import KnowledgeMarketplace.Core.Sums
import KnowledgeMarketplace.Payments.Settlements
import KnowledgeMarketplace.Portal.Services

/-!
# What is payable to experts

The payable balance of an order adds its payout entries, which are negative; the
dashboard and the report subtract them.  They agree until something is paid out.
-/

namespace KnowledgeMarketplace

open Transaction Payments

namespace Portal

variable {db : Db}

/-- All orders: the stored ones, and those that entries refer to. -/
def orderIds (db : Db) : Finset OrderId :=
  (db.orders.keys ++ db.ledger.map LedgerEntry.order).toFinset

/-- The sum of `remaining_payable` over all orders. -/
def payableSum (db : Db) : Int :=
  ∑ id ∈ orderIds db, remainingPayable id db

/-- The amounts of all payouts that have been paid. -/
def paidSum (db : Db) : Int :=
  payoutSum (·.status = .paid) db

/-! ## Sums over the ledger -/

/-- The totals of all orders add up to the sum over the ledger. -/
theorem sum_total (entryType : EntryType) (db : Db) :
    ∑ id ∈ orderIds db, total db.ledger id entryType =
      ledgerSum entryType (books db) := by
  have covered : ∀ entry ∈ db.ledger.filter (·.entryType = entryType),
      entry.order ∈ orderIds db := by
    intro entry member
    have booked := (List.mem_filter.mp member).1
    simp only [orderIds, List.mem_toFinset, List.mem_append, List.mem_map]
    exact .inr ⟨entry, booked, rfl⟩
  have whole := Sums.sum_groups LedgerEntry.order LedgerEntry.amountMinor covered
  simpa [total, ledgerSum, books, List.filter_filter] using whole

theorem payableSum_eq (db : Db) :
    payableSum db =
      ledgerSum .expertCredit (books db) + ledgerSum .payout (books db) := by
  rw [← sum_total, ← sum_total, ← Finset.sum_add_distrib]
  rfl

/-- The report has a finding exactly when its balance is negative. -/
theorem payoutCreditParity_iff (books : Books) :
    payoutCreditParity books ≠ [] ↔
      ledgerSum .expertCredit books - ledgerSum .payout books -
        payoutSum unsettled books.db < 0 := by
  simp only [payoutCreditParity]
  split_ifs with negative <;> simp [negative]

/-- The three readers agree if the payout entries add up to nothing. -/
theorem payable_agrees (dateFrom dateTo : Time) (db : Db) :
    ((financialKpis dateFrom dateTo (books db)).expertPayableMinor =
        payableSum db - payoutSum unsettled db ∧
      (payoutCreditParity (books db) ≠ [] ↔
        payableSum db < payoutSum unsettled db)) ↔
      ledgerSum .payout (books db) = 0 := by
  have same : (books db).db = db := rfl
  rw [payoutCreditParity_iff, payableSum_eq, same]
  simp only [financialKpis, same]
  omega

/-! ## Settled payouts -/

/-- The payout entries of the ledger are those of the paid payouts. -/
theorem settlements_perm (booked : PayoutsBooked db) :
    (db.ledger.filter (·.entryType = .payout)).Perm
      (db.payouts.collect fun payout =>
        if payout.status = .paid then some (settlementEntry payout) else none) := by
  refine List.perm_iff_count.mpr fun entry => ?_
  have own := List.perm_iff_count.mp (booked entry.order) entry
  have left : (payoutEntries entry.order db).count entry =
      (db.ledger.filter (·.entryType = .payout)).count entry := by
    have split : payoutEntries entry.order db =
        (db.ledger.filter (·.entryType = .payout)).filter
          (·.order = entry.order) := by
      simp [payoutEntries, List.filter_filter]
    rw [split, List.count_filter (by simp)]
  have right : (db.payouts.collect (paidEntry entry.order)).count entry =
      (db.payouts.collect fun payout =>
        if payout.status = .paid then some (settlementEntry payout)
        else none).count entry := by
    have split : db.payouts.collect (paidEntry entry.order) =
        (db.payouts.collect fun payout =>
          if payout.status = .paid then some (settlementEntry payout)
          else none).filter (·.order = entry.order) := by
      simp only [Table.collect, List.filter_filterMap]
      refine List.filterMap_congr fun key _ => ?_
      cases db.payouts.row key with
      | none => rfl
      | some payout =>
          by_cases paid : payout.status = .paid <;>
            by_cases about : payout.order = entry.order <;>
            simp [paidEntry, paid, about, settlementEntry, Option.filter_some]
    rw [split, List.count_filter (by simp)]
  rw [← left, own, right]

theorem ledgerSum_payout (booked : PayoutsBooked db) :
    ledgerSum .payout (books db) = -paidSum db := by
  have perm := (settlements_perm booked).map LedgerEntry.amountMinor
  have negated : (db.payouts.collect fun payout =>
      if payout.status = .paid then some (settlementEntry payout)
      else none).map LedgerEntry.amountMinor =
      (db.payouts.collect fun payout =>
        if payout.status = .paid then some payout.amountMinor
        else none).map (- ·) := by
    simp only [Table.collect, List.map_filterMap]
    refine List.filterMap_congr fun key _ => ?_
    cases db.payouts.row key with
    | none => rfl
    | some payout =>
        by_cases paid : payout.status = .paid <;> simp [paid, settlementEntry]
  have sum := perm.sum_eq
  rw [negated, ← List.sum_neg] at sum
  simpa [ledgerSum, books, paidSum, payoutSum] using sum

/--
In every reachable state the dashboard and the report agree with the payable
balances of the orders if and only if the paid payouts add up to nothing.
-/
theorem payable_reported_iff
    (start : Db) (booked : PayoutsBooked start) (operations : Nat → Operation)
    (schedule : List Turn) (dateFrom dateTo : Time) :
    let db := ((Marketplace.start start operations).runAll schedule).committed
    ((financialKpis dateFrom dateTo (books db)).expertPayableMinor =
        payableSum db - payoutSum unsettled db ∧
      (payoutCreditParity (books db) ≠ [] ↔
        payableSum db < payoutSum unsettled db)) ↔ paidSum db = 0 := by
  intro db
  have sound : ((Marketplace.start start operations).runAll schedule).Sound
      settling fun _ => KeepsPaid :=
    (System.reach_runAll (Marketplace.start start operations) schedule).sound
      (System.sound_init booked
        fun client => operation_settling (operations client))
  rw [payable_agrees, ledgerSum_payout sound.inv, neg_eq_zero]

/-- A completed order whose payout of forty dollars is scheduled. -/
def scheduledPayout : Db :=
  { requests := .insert .empty 10 { student := 1, status := .completed }
    orders := .insert .empty 40
      { request := 10
        student := 1
        expert := 2
        source := .openBid
        amount := 5000
        commissionAmount := 750
        expertAmount := 4250
        status := .completed
        createdAt := 0 }
    payouts := .insert .empty 60
      { order := 40, expert := 2, amountMinor := 4250 }
    ledger :=
      [{ entryType := .charge, amountMinor := 5000, order := 40, user := some 1 },
        { entryType := .commission, amountMinor := 750, order := 40 },
        { entryType := .expertCredit
          amountMinor := 4250
          order := 40
          user := some 2 }] }

theorem scheduledPayout_booked : PayoutsBooked scheduledPayout := by
  intro order
  simp [payoutEntries, scheduledPayout, Table.collect_insert_of_none, paidEntry]

/-- The payout is settled, and nothing remains payable. -/
def settlement : Nat → Operation :=
  fun _ => .payment (.settlePayout { now := 5 } 60 (some ⟨9, true⟩))

/-- The settled payout is counted as payable again, twice over. -/
theorem settled_payout_payable :
    let db := ((Marketplace.start scheduledPayout settlement).runAll
      (turns 0 20)).committed
    (financialKpis 0 10 (books db)).expertPayableMinor = 8500 ∧
      payableSum db - payoutSum unsettled db = 0 := by
  decide +kernel

/-- Before the settlement all readers agree. -/
theorem payable_reported_scheduled :
    let db := ((Marketplace.start scheduledPayout settlement).runAll
      []).committed
    ((financialKpis 0 10 (books db)).expertPayableMinor =
        payableSum db - payoutSum unsettled db ∧
      (payoutCreditParity (books db) ≠ [] ↔
        payableSum db < payoutSum unsettled db)) ↔ paidSum db = 0 :=
  payable_reported_iff scheduledPayout scheduledPayout_booked settlement [] 0 10

end Portal

end KnowledgeMarketplace
