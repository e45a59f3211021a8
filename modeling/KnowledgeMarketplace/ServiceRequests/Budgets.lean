import KnowledgeMarketplace.Operations.Runs
import KnowledgeMarketplace.Transaction.Sequence

/-!
# Budgets of drafts

The check of a budget sees the bounds of the payload only.  An edit that sends
one bound can contradict the other one, which an earlier call has stored.
-/

namespace KnowledgeMarketplace

open Transaction

namespace ServiceRequests

/-- Both bounds, where they are set, are positive and in order. -/
def BudgetOk (request : ServiceRequest) : Prop :=
  ∀ low high, request.budgetMin = some low → request.budgetMax = some high →
    0 < low ∧ low ≤ high

/-- Each bound that is set is positive. -/
structure Positive (request : ServiceRequest) : Prop where
  low : ∀ value, request.budgetMin = some value → 0 < value
  high : ∀ value, request.budgetMax = some value → 0 < value

/-- The payload sets one bound and contradicts the other one of the request. -/
def Inverts (payload : Payload) (request : ServiceRequest) : Prop :=
  (payload.budgetMax = none ∧ ∃ low high, payload.budgetMin = some (some low) ∧
      request.budgetMax = some high ∧ high < low) ∨
    (payload.budgetMin = none ∧ ∃ low high,
      payload.budgetMax = some (some high) ∧
        request.budgetMin = some low ∧ high < low)

/-! ## One payload -/

/-- What the check of a payload says about the bounds in it. -/
structure Clean (payload : Payload) : Prop where
  low : ∀ value, payload.budgetMin = some (some value) → 0 < value
  high : ∀ value, payload.budgetMax = some (some value) → 0 < value
  ordered : ∀ low high, payload.budgetMin = some (some low) →
    payload.budgetMax = some (some high) → low ≤ high

theorem clean_of_cleanBudget
    {payload : Payload} (passes : cleanBudget payload = .ok ()) :
    Clean payload := by
  simp only [cleanBudget] at passes
  split_ifs at passes with nonpositive inverted
  rw [not_or] at nonpositive
  refine ⟨fun value sent => ?_, fun value sent => ?_, fun low high first last => ?_⟩
  · simpa [sent] using nonpositive.1
  · simpa [sent] using nonpositive.2
  · simpa [first, last] using inverted

/-- A checked payload leaves each bound positive. -/
theorem Positive.assign
    {payload : Payload} {request : ServiceRequest} (clean : Clean payload)
    (positive : Positive request) : Positive (payload.assign request) := by
  refine ⟨fun value set => ?_, fun value set => ?_⟩
  · cases sent : payload.budgetMin with
    | none => exact positive.low value (by simpa [Payload.assign, sent] using set)
    | some bound =>
        refine clean.low value ?_
        simpa [Payload.assign, sent] using set
  · cases sent : payload.budgetMax with
    | none =>
        exact positive.high value (by simpa [Payload.assign, sent] using set)
    | some bound =>
        refine clean.high value ?_
        simpa [Payload.assign, sent] using set

/-- A checked payload leaves a budget in order unless it inverts a bound. -/
theorem budgetOk_assign_iff
    {payload : Payload} {request : ServiceRequest} (clean : Clean payload)
    (positive : Positive request) (fine : BudgetOk request) :
    BudgetOk (payload.assign request) ↔ ¬Inverts payload request := by
  have kept := positive.assign clean
  constructor
  · rintro ordered (⟨absent, low, high, sent, stored, above⟩ |
      ⟨absent, low, high, sent, stored, below⟩)
    · have bounds := ordered low high (by simp [Payload.assign, sent])
        (by simp [Payload.assign, absent, stored])
      exact absurd bounds.2 (not_le.mpr above)
    · have bounds := ordered low high (by simp [Payload.assign, absent, stored])
        (by simp [Payload.assign, sent])
      exact absurd bounds.2 (not_le.mpr below)
  · intro agrees low high first last
    refine ⟨kept.low low first, ?_⟩
    by_contra above
    rw [not_le] at above
    cases sentLow : payload.budgetMin with
    | none =>
        have storedLow : request.budgetMin = some low := by
          simpa [Payload.assign, sentLow] using first
        cases sentHigh : payload.budgetMax with
        | none =>
            have storedHigh : request.budgetMax = some high := by
              simpa [Payload.assign, sentHigh] using last
            exact absurd (fine low high storedLow storedHigh).2
              (not_le.mpr above)
        | some bound =>
            obtain rfl : bound = some high := by
              simpa [Payload.assign, sentHigh] using last
            exact agrees (.inr ⟨sentLow, low, high, sentHigh, storedLow, above⟩)
    | some bound =>
        obtain rfl : bound = some low := by
          simpa [Payload.assign, sentLow] using first
        cases sentHigh : payload.budgetMax with
        | none =>
            have storedHigh : request.budgetMax = some high := by
              simpa [Payload.assign, sentHigh] using last
            exact agrees (.inl ⟨sentHigh, low, high, sentLow, storedHigh, above⟩)
        | some bound =>
            obtain rfl : bound = some high := by
              simpa [Payload.assign, sentHigh] using last
            exact absurd (clean.ordered low high sentLow sentHigh)
              (not_le.mpr above)

/-! ## Calls -/

/-- The calls that write budgets. -/
inductive DraftCall where
  | createRequest (env : Env) (student : UserId) (payload : Payload)
  | updateDraft (env : Env) (owner : UserId) (id : RequestId) (payload : Payload)

namespace DraftCall

/-- The request of the client. -/
def call : DraftCall → Call Unit
  | createRequest env student payload =>
      RequestCall.call (.create env student payload)
  | updateDraft env owner id payload =>
      RequestCall.call (.updateDraft env owner id payload)

/-- A successful edit does not invert a bound of the stored draft. -/
def Agrees (call : DraftCall) (db : Db) : Prop :=
  match call with
  | createRequest _ _ _ => True
  | updateDraft _ _ id payload => (Request.run call.call db).1 = .ok () →
      ∀ request, db.requests.row id = some request → ¬Inverts payload request

/-- What a successful call writes. -/
structure Writes (call : DraftCall) (db next : Db) : Prop where
  positive : db.requests.All Positive → next.requests.All Positive
  budgets : db.requests.All Positive → db.requests.All BudgetOk →
    (next.requests.All BudgetOk ↔ match call with
      | createRequest _ _ _ => True
      | updateDraft _ _ id payload => ∀ request,
          db.requests.row id = some request → ¬Inverts payload request)

/-- A draft without bounds. -/
theorem positive_new (student : UserId) : Positive { student } where
  low _ none := nomatch none
  high _ none := nomatch none

theorem budgetOk_new (student : UserId) : BudgetOk { student } := by
  intro low high none
  cases none

theorem writes (call : DraftCall) (db : Db) :
    Call.Ends call.call db (call.Writes db) := by
  cases call with
  | createRequest env student payload =>
      refine Call.perform_ends ?_
      simp only [ServiceRequests.createRequest, Tx.create, Prog.post_bind,
        Prog.post_ofExcept, Prog.post_lockRow, Prog.post_read,
        Prog.post_require, Prog.post_exec, Prog.post_pure, reduceCtorEq,
        false_implies, implies_true, and_true]
      intro _ passes _ _ _ _ _ _ _ _ _
      have clean := clean_of_cleanBudget passes
      have fine : BudgetOk (payload.assign { student }) :=
        (budgetOk_assign_iff clean (positive_new student)
          (budgetOk_new student)).mpr (by simp [Inverts])
      exact ⟨fun positive => positive.insert env.key
          ((positive_new student).assign clean),
        fun _ all => iff_true_intro (all.insert env.key fine)⟩
  | updateDraft env owner id payload =>
      refine Call.performOn_ends fun copy found => ?_
      simp only [ServiceRequests.updateDraft, Prog.post_bind,
        Prog.post_require, Prog.post_ofExcept, Prog.post_exec,
        Prog.post_pure, reduceCtorEq, false_implies, implies_true, and_true]
      intro _ _ _ passes _ _ _ _ _ _ _ _
      have clean := clean_of_cleanBudget passes
      have stored : db.requests.row id = some copy := found
      refine ⟨fun positive => ?_, fun positive all => ?_⟩
      · exact positive.modify id fun _ _ => (positive id copy stored).assign clean
      · have edited := budgetOk_assign_iff clean (positive id copy stored)
          (all id copy stored)
        constructor
        · intro fine request present
          obtain rfl := Option.some.inj (stored.symm.trans present)
          exact edited.mp (fine id _ (by simp [Store.apply, Stmt.apply, stored]))
        · intro agrees
          exact all.modify id fun _ _ => edited.mpr (agrees copy stored)

/-- A call keeps all budgets in order exactly when it agrees with the draft. -/
theorem budgets_after
    {db : Db} (call : DraftCall) (positive : db.requests.All Positive)
    (all : db.requests.All BudgetOk) :
    (Request.run call.call db).2.requests.All BudgetOk ↔ call.Agrees db := by
  cases writes call db with
  | succeeded ok left =>
      rw [left.budgets positive all]
      cases call with
      | createRequest => exact Iff.rfl
      | updateDraft => exact ⟨fun agrees _ => agrees, fun agrees => agrees ok⟩
  | failed fails same =>
      rw [same]
      refine iff_of_true all ?_
      cases call with
      | createRequest => trivial
      | updateDraft => exact fun ok => absurd ok fails

theorem positive_after
    {db : Db} (call : DraftCall) (positive : db.requests.All Positive) :
    (Request.run call.call db).2.requests.All Positive := by
  cases writes call db with
  | succeeded _ left => exact left.positive positive
  | failed _ same => rwa [same]

end DraftCall

/-- What a run of calls leaves. -/
def afterDrafts : List DraftCall → Db → Db :=
  Request.afterAll DraftCall.call

/-- A draft whose budget is at most fifty dollars. -/
def atMostFifty : DraftCall :=
  .createRequest { now := 0, key := 10 } 1 { budgetMax := some (some 5000) }

/-- An edit of its lower bound alone. -/
def atLeast (low : Int) : DraftCall :=
  .updateDraft { now := 0 } 1 10 { budgetMin := some (some low) }

end ServiceRequests

end KnowledgeMarketplace
