import KnowledgeMarketplace.Core.Sums
import KnowledgeMarketplace.Payments.Currency
import KnowledgeMarketplace.Transaction.Citations

/-!
# Earnings of experts

Earnings add up the ledger entries of a user, payable balances those of an
order.  They agree because whoever books a credit, its reversal or a payout
names the expert of the order, who never changes.
-/

namespace KnowledgeMarketplace

open Transaction

namespace Payments

/-- The orders with their experts. -/
def experts (db : Db) : Set (OrderId × UserId) :=
  {fact | (db.orders.row fact.1).map Order.expert = some fact.2}

/-- The entries that earnings and payable balances add up. -/
def Earns (entry : LedgerEntry) : Prop :=
  entry.entryType = .expertCredit ∨ entry.entryType = .payout

/-- The entry is for the expert of its order. -/
def NamesExpert
    (known : Set (OrderId × UserId)) (entry : LedgerEntry) : Prop :=
  ∃ user, entry.user = some user ∧ (entry.order, user) ∈ known

/-- Payouts and earnings are those of the experts of their orders. -/
structure Attributed (known : Set (OrderId × UserId)) (db : Db) : Prop where
  payouts : db.payouts.All fun payout => (payout.order, payout.expert) ∈ known
  ledger : ∀ entry ∈ db.ledger, Earns entry →
    NamesExpert known entry

/-- Effects that keep all experts and pay known ones only. -/
def attributes (known : Set (OrderId × UserId)) : Effect Stmt → Prop
  | .write (.insertOrder _ _) => False
  | .write (.saveOrder _ set) => ∀ stored, (set stored).expert = stored.expert
  | .write (.insertPayout _ value) => (value.order, value.expert) ∈ known
  | .write (.savePayout _ set) => ∀ stored,
      (set stored).order = stored.order ∧ (set stored).expert = stored.expert
  | .write (.appendLedger entry) =>
      Earns entry → NamesExpert known entry
  | .write _ | .savepoint => True

/-- Effects that keep all experts and pay nobody. -/
def paysNobody : Effect Stmt → Prop
  | .write (.saveOrder _ set) => ∀ stored, (set stored).expert = stored.expert
  | .write stmt => stmt.table ≠ .payouts ∧ stmt.table ≠ .ledger
  | .savepoint => True

variable {known : Set (OrderId × UserId)}

/-- A saved order has the expert that it had. -/
theorem experts_modify
    {db : Db} {id : OrderId} {set : Order → Order}
    (keeps : ∀ stored, (set stored).expert = stored.expert) :
    experts { db with orders := db.orders.modify id set } = experts db := by
  ext fact
  by_cases own : fact.1 = id
  · simp [experts, own, keeps]
  · simp [experts, Table.row_modify_other _ set own]

theorem attributes_keeps
    {stmt : Stmt} {db : Db} (fine : attributes known (.write stmt))
    (attributed : Attributed known db) :
    experts (stmt.apply db) = experts db ∧
      Attributed known (stmt.apply db) := by
  cases stmt with
  | insertOrder id value => exact fine.elim
  | saveOrder id set => exact ⟨experts_modify fine, { attributed with }⟩
  | insertPayout id value =>
      exact ⟨rfl, { attributed with
        payouts := attributed.payouts.insert id fine }⟩
  | savePayout id set =>
      refine ⟨rfl, { attributed with
        payouts := attributed.payouts.modify id fun stored paid => ?_ }⟩
      rwa [(fine stored).1, (fine stored).2]
  | appendLedger entry =>
      refine ⟨rfl, { attributed with ledger := fun booked member => ?_ }⟩
      rcases List.mem_append.mp member with old | new
      · exact attributed.ledger booked old
      · exact List.mem_singleton.mp new ▸ fine
  | _ => exact ⟨rfl, { attributed with }⟩

theorem paysNobody_keeps
    {stmt : Stmt} {db : Db} (fine : paysNobody (.write stmt))
    (attributed : Attributed known db) :
    experts db ⊆ experts (stmt.apply db) ∧
      Attributed known (stmt.apply db) := by
  cases stmt with
  | insertOrder id value =>
      refine ⟨fun fact stored => ?_, { attributed with }⟩
      obtain ⟨order, found, expert⟩ := Option.map_eq_some_iff.mp stored
      have kept := Table.row_insert_of_some id value found
      simp [experts, Stmt.apply, kept, expert]
  | saveOrder id set =>
      exact ⟨(experts_modify fine).symm.subset, { attributed with }⟩
  | insertPayout | savePayout => exact absurd rfl fine.1
  | appendLedger entry => exact absurd rfl fine.2
  | _ => exact ⟨subset_rfl, { attributed with }⟩

/-- The experts of the orders, and what is paid to them. -/
def attribution : Registry Db Row Stmt (OrderId × UserId) where
  facts := experts
  refers := Attributed
  cites := attributes
  plain := paysNobody
  mono more attributed :=
    { payouts := fun key payout stored =>
        more (attributed.payouts key payout stored)
      ledger := fun entry booked earns => by
        obtain ⟨user, named, fact⟩ := attributed.ledger entry booked earns
        exact ⟨user, named, more fact⟩ }
  cites_keeps := attributes_keeps
  plain_keeps := paysNobody_keeps

/-! ## Who is paid -/

theorem attributes_workflow : Workflow (attributes known) where
  elsewhere stmt other := by
    cases stmt <;> first | exact trivial | simp [Stmt.table] at other
  moved _ _ _ _ _ := by simp [ServiceRequests.transition, attributes]
  saved _ _ keeps := keeps.expert
  frozen _ _ := rfl

/-- What is booked from an order or a payout is for its expert. -/
theorem attributes_copying :
    Copying (attribution.Seen known) (attributes known)
      (fun id order => (id, order.expert) ∈ known) (fun _ => True)
      (fun payout => (payout.order, payout.expert) ∈ known) where
  workflow := attributes_workflow
  savepoint := trivial
  kept := attribution.seen_keeps
  orders _ seen _ _ stored := seen.1 (by simp [attribution, experts, stored])
  payments _ _ _ _ _ := trivial
  payouts _ seen := seen.2.payouts
  moved _ _ _ fine := fine
  thawed _ _ := rfl
  opened _ _ _ _ _ := trivial
  rearmed _ _ _ _ := trivial
  paymentSaved _ _ _ := ⟨trivial, trivial⟩
  booked id order _ entry fine _ books earns := by
    rcases earns with credit | payout
    · exact ⟨order.expert, books.credited credit, books.about ▸ fine⟩
    · exact absurd payout books.unpaid
  refunded _ _ _ _ _ := trivial
  refundSaved _ _ _ := trivial
  scheduled _ _ _ payout fine about expert _ := by
    simpa only [attributes, about, expert] using fine
  payoutSaved _ _ keeps stored := ⟨keeps.order stored, keeps.expert stored⟩
  settled payout _ fine settles _ :=
    ⟨payout.expert, settles.user, settles.about ▸ fine⟩

/-- Before there is an order, nobody is paid. -/
theorem paysNobody_catalog : Catalog paysNobody where
  elsewhere stmt other := by
    cases stmt <;> simp_all [paysNobody, Stmt.table]
  created _ _ _ := by simp [paysNobody, Stmt.table]
  saved _ _ keeps := keeps.expert
  frozen _ _ := rfl

theorem operation_attributes (operation : Operation) :
    attribution.Accepts operation.call := by
  cases operation with
  | request call => exact .inr (paysNobody_catalog.triage trivial)
  | offer call => exact .inr (paysNobody_catalog.triage trivial)
  | managed call => exact .inr (paysNobody_catalog.triage trivial)
  | order call => exact .inl fun _ => attributes_copying.orderCall call
  | payment call => exact .inl fun _ => attributes_copying.paymentCall call
  | dispute call => exact .inl fun _ => attributes_copying.disputeCall call

/-! ## Sums -/

/-- The orders of an expert. -/
def ordersOf (user : UserId) (db : Db) : Finset OrderId :=
  (db.orders.select fun _ order => order.expert = user).toFinset

theorem mem_ordersOf {user : UserId} {db : Db} {id : OrderId} :
    id ∈ ordersOf user db ↔ (id, user) ∈ experts db := by
  simp [ordersOf, experts, Table.mem_select]

/-- What a user earns in one way is what the orders of the user earn. -/
theorem sum_earned
    {db : Db} (attributed : Attributed (experts db) db) (user : UserId)
    {entryType : EntryType}
    (earns : entryType = .expertCredit ∨ entryType = .payout) :
    ((db.ledger.filter fun entry =>
        entry.user = some user && entry.entryType = entryType).map
          LedgerEntry.amountMinor).sum =
      ∑ id ∈ ordersOf user db, total db.ledger id entryType := by
  have named : ∀ entry ∈ db.ledger, entry.entryType = entryType →
      NamesExpert (experts db) entry := by
    rintro entry booked rfl
    exact attributed.ledger entry booked earns
  have covered : ∀ entry ∈ db.ledger.filter (fun entry =>
      entry.user = some user && entry.entryType = entryType),
      entry.order ∈ ordersOf user db := by
    intro entry member
    simp only [List.mem_filter, Bool.and_eq_true, decide_eq_true_eq] at member
    obtain ⟨booked, mine, type⟩ := member
    obtain ⟨expert, same, fact⟩ := named entry booked type
    obtain rfl : user = expert := Option.some.inj (mine.symm.trans same)
    exact mem_ordersOf.mpr fact
  rw [← Sums.sum_groups LedgerEntry.order LedgerEntry.amountMinor covered]
  refine Finset.sum_congr rfl fun id own => ?_
  rw [total, List.filter_filter]
  congr 2
  refine List.filter_congr fun entry booked => ?_
  by_cases about : entry.order = id
  · by_cases type : entry.entryType = entryType
    · obtain ⟨expert, same, fact⟩ := named entry booked type
      have mine : (entry.order, user) ∈ experts db :=
        about ▸ mem_ordersOf.mp own
      have unique : expert = user := by
        simp only [experts, Set.mem_ofPred_eq] at fact mine
        exact Option.some.inj (fact.symm.trans mine)
      simp [about, type, same, unique]
    · simp [type]
  · simp [about]

/--
In every reachable state the outstanding earnings of a user are the payable
balances of the orders whose expert the user is.
-/
theorem outstanding_eq
    (start : Db) (attributed : Attributed (experts start) start)
    (operations : Nat → Operation) (schedule : List Turn) (user : UserId) :
    let db := ((Marketplace.start start operations).runAll schedule).committed
    (earningsFor user db).2.2 =
      ∑ id ∈ ordersOf user db, remainingPayable id db := by
  intro db
  have holds : attribution.Holds
      ((Marketplace.start start operations).runAll schedule) :=
    .reach (System.reach_runAll (Marketplace.start start operations) schedule)
      (Registry.holds_init attributed
        fun client => operation_attributes (operations client))
  have credited := sum_earned holds.refers user (.inl rfl)
  have paidOut := sum_earned holds.refers user (.inr rfl)
  simp only [earningsFor, remainingPayable, expertCreditBalance,
    Finset.sum_add_distrib, sub_neg_eq_add]
  rw [← credited, ← paidOut]

/-- A paid order of an expert, who is the student of another one. -/
def expertAndStudent : Db where
  requests := .insert (.insert .empty 10 { student := 1, status := .completed }) 11
    { student := 2, status := .completed }
  orders := .insert (.insert .empty 40
    { request := 10
      student := 1
      expert := 2
      source := .openBid
      amount := 5000
      commissionAmount := 750
      expertAmount := 4250
      status := .completed
      createdAt := 0 }) 41
    { request := 11
      student := 2
      expert := 3
      source := .openBid
      amount := 2000
      commissionAmount := 300
      expertAmount := 1700
      status := .completed
      createdAt := 0 }
  payouts := .insert .empty 60 { order := 40, expert := 2, amountMinor := 3000 }
  ledger :=
    [{ entryType := .charge, amountMinor := 5000, order := 40, user := some 1 },
      { entryType := .commission, amountMinor := 750, order := 40 },
      { entryType := .expertCredit, amountMinor := 4250, order := 40, user := some 2 },
      { entryType := .charge, amountMinor := 2000, order := 41, user := some 2 },
      { entryType := .commission, amountMinor := 300, order := 41 },
      { entryType := .expertCredit, amountMinor := 1700, order := 41, user := some 3 }]

theorem expertAndStudent_attributed :
    Attributed (experts expertAndStudent) expertAndStudent where
  payouts := by
    have unused : (Table.empty : Table PayoutId Payout).All fun payout =>
        (payout.order, payout.expert) ∈ experts expertAndStudent :=
      fun _ _ none => nomatch none
    exact unused.insert 60 rfl
  ledger := by
    have named : ∀ known : Set (OrderId × UserId), (40, 2) ∈ known →
        (41, 3) ∈ known → ∀ entry ∈ expertAndStudent.ledger, Earns entry →
          NamesExpert known entry := by
      intro known first second
      simp [expertAndStudent, Earns, NamesExpert, first, second]
    exact named _ rfl rfl

/-- A part of the credit is paid out, and the rest is outstanding. -/
theorem outstanding_settled :
    let db := ((Marketplace.start expertAndStudent fun _ =>
      .payment (.settlePayout { now := 5 } 60 (some ⟨9, true⟩))).runAll
        (turns 0 20)).committed
    (earningsFor 2 db).2.2 = 1250 ∧
      (earningsFor 2 db).2.2 =
        ∑ id ∈ ordersOf 2 db, remainingPayable id db :=
  ⟨by decide +kernel,
    outstanding_eq expertAndStudent expertAndStudent_attributed _ _ 2⟩

end Payments

end KnowledgeMarketplace
