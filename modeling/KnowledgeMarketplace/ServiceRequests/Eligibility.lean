import KnowledgeMarketplace.Accounts.Sessions
import KnowledgeMarketplace.Experts.Database
import KnowledgeMarketplace.Operations.Runs

/-!
# Eligible experts

The rule of who gets work is written three times: for one user, as a list for
the owner's form, and for the pool of a managed request.  All three read the
application and the profile; none reads the account.
-/

namespace KnowledgeMarketplace

open Transaction

inductive Availability where
  | available
  | paused
  deriving DecidableEq

/-- The columns of a profile that decide about new work. -/
structure Vacancy where
  availability : Availability := .available
  subjects : List Nat := []

/-- The tables of accounts, applications and profiles; a profile has a user. -/
structure Directory where
  accounts : Accounts.Db
  applications : Table UserId Experts.ExpertApplication
  profiles : Table UserId Vacancy
  owned : ∀ user, (profiles.row user).isSome →
    (accounts.users.row user).isSome

namespace Directory

/-- Approved and not suspended. -/
def isExpert (user : UserId) (directory : Directory) : Bool :=
  (directory.applications.row user).any (·.status = .approved)

/-- Accepting new work. -/
def isAvailable (user : UserId) (directory : Directory) : Bool :=
  (directory.profiles.row user).any (·.availability = .available)

/-- The rule for one user. -/
def expertIsEligible (user : UserId) (directory : Directory) : Bool :=
  directory.isExpert user && directory.isAvailable user &&
    (directory.applications.row user).any (·.status = .approved)

/-- The same rule as a list of users. -/
def eligibleExperts (directory : Directory) : List UserId :=
  directory.accounts.users.select fun user _ =>
    (directory.applications.row user).any (·.status = .approved) &&
      (directory.profiles.row user).any (·.availability = .available)

/-- The same rule for the pool of a request. -/
def poolCandidates
    (request : ServiceRequest) (expertIds : List UserId)
    (directory : Directory) : List UserId :=
  let approved := directory.applications.select fun _ application =>
    application.status = .approved
  directory.profiles.select fun user profile =>
    profile.availability = .available && approved.contains user &&
      (if expertIds ≠ [] then expertIds.contains user
      else request.subject.all profile.subjects.contains)

/-- The account is active. -/
def isActive (user : UserId) (directory : Directory) : Bool :=
  (directory.accounts.users.row user).any (·.isActive)

/-- A profile joined with its application. -/
def expert (user : UserId) (directory : Directory) : Option Expert :=
  (directory.profiles.row user).map fun profile =>
    { approved := directory.isExpert user
      available := profile.availability = .available
      subjects := profile.subjects }

/-- The experts of the marketplace are the joined rows. -/
def Reflects (directory : Directory) (db : Db) : Prop :=
  ∀ user, db.experts.row user = directory.expert user

variable {directory : Directory} {db : Db} {user : UserId}

theorem expertIsEligible_eq_true :
    directory.expertIsEligible user = true ↔
      directory.isExpert user = true ∧ directory.isAvailable user = true := by
  simp only [expertIsEligible, isExpert, Bool.and_eq_true]
  tauto

/-- The services of the marketplace ask the rule for one user. -/
theorem expertIsEligible_reflects (reflects : directory.Reflects db) :
    ServiceRequests.expertIsEligible db user =
      directory.expertIsEligible user := by
  rw [Bool.eq_iff_iff, expertIsEligible_eq_true,
    ServiceRequests.expertIsEligible, reflects]
  cases found : directory.profiles.row user <;>
    simp [expert, isAvailable, found]

/-- The pool of the marketplace is the pool of the directory. -/
theorem mem_poolCandidates_reflects
    {request : ServiceRequest} {expertIds : List UserId}
    (reflects : directory.Reflects db) :
    user ∈ Assignments.poolCandidates request expertIds db ↔
      user ∈ directory.poolCandidates request expertIds := by
  simp only [Assignments.poolCandidates, poolCandidates, Table.mem_select,
    reflects user]
  cases found : directory.profiles.row user <;>
    simp [expert, isExpert, found, Table.mem_select, Option.any_eq_true]
  tauto

/-- The list for the form has the users that meet the rule. -/
theorem mem_eligibleExperts :
    user ∈ directory.eligibleExperts ↔
      directory.expertIsEligible user = true := by
  rw [expertIsEligible_eq_true, eligibleExperts, Table.mem_select]
  constructor
  · rintro ⟨account, -, both⟩
    simpa [isExpert, isAvailable] using both
  · intro both
    have there : (directory.profiles.row user).isSome = true := by
      obtain ⟨profile, found, -⟩ := (Option.any_eq_true _ _).mp both.2
      simp [found]
    obtain ⟨account, present⟩ :=
      Option.isSome_iff_exists.mp (directory.owned user there)
    exact ⟨account, present, by simpa [isExpert, isAvailable] using both⟩

/-- So has the pool of a request without a subject and without a selection. -/
theorem mem_poolCandidates {request : ServiceRequest}
    (anySubject : request.subject = none) :
    user ∈ directory.poolCandidates request [] ↔
      directory.expertIsEligible user = true := by
  rw [expertIsEligible_eq_true]
  simp only [poolCandidates, Table.mem_select, isExpert, isAvailable,
    anySubject]
  cases found : directory.profiles.row user <;>
    simp [Table.mem_select, Option.any_eq_true]
  tauto

end Directory

/-! ## Selection -/

/-- The orders that a selection adds are of eligible experts. -/
theorem Bidding.accept_eligible
    (env : Env) (student : Actor) (id : OfferId) (db : Db) :
    (Bidding.accept env student id).Post db fun result next =>
      ∀ value, result = .ok value → ∀ key order,
        next.orders.row key = some order → db.orders.row key = some order ∨
          ServiceRequests.expertIsEligible db order.expert = true := by
  simp only [accept, getForUpdate, getRequestForUpdate, Tx.getForUpdate, Tx.get,
    Prog.post_bind, Prog.post_lockRow, Prog.post_read, Prog.post_orFail,
    Prog.post_require, Prog.post_exec, reduceCtorEq, false_implies,
    implies_true, and_true]
  intro offer _ request _ _ _ _ _ eligible
  have siblings : ∀ start : Db, (declineSiblings env offer.request id).Post
      start fun result next => next.orders = start.orders ∧
        ∃ count, result = .ok count := fun start =>
    Prog.post_updateWhere (fun next : Db => next.orders = start.orders)
      (fun _ _ _ same => same) rfl
  refine (siblings _).mono ?_
  rintro _ next ⟨same, count, rfl⟩
  simp only [ServiceRequests.markMatched, ServiceRequests.transition,
    createOrderFromOffer, Orders.createOrderForRequest, Orders.recordEvent,
    Tx.create, Prog.post_bind, Prog.post_require, Prog.post_orFail,
    Prog.post_lockRow, Prog.post_read, Prog.post_exec, Prog.post_pure,
    reduceCtorEq, false_implies, implies_true, and_true]
  intro _ _ _ _ _ _ _ key order present
  rcases Table.row_insert_cases present with earlier | ⟨-, rfl, -⟩
  · exact .inl ((congrArg (·.row key) same).symm.trans earlier)
  · exact .inr eligible

namespace Directory

/-- What is said about eligible experts, in one state of the database. -/
structure Sound (directory : Directory) (db : Db) : Prop where
  listed : ∀ user, directory.expertIsEligible user = true ↔
    user ∈ directory.eligibleExperts
  candidate : ∀ user request, request.subject = none →
    (directory.expertIsEligible user = true ↔
      user ∈ directory.poolCandidates request [])
  active : ∀ user, directory.expertIsEligible user = true →
    directory.isActive user = true ∧ directory.isExpert user = true
  selected : ∀ env student offer key order, db.orders.row key = none →
    (Operation.after (.offer (.accept env student offer)) db).orders.row key =
      some order →
      directory.isActive order.expert = true ∧
        directory.isExpert order.expert = true ∧
        directory.isAvailable order.expert = true

/--
The three rules always agree.  They are about active accounts, and a selection
creates orders for active accounts, exactly as long as no deactivated account
has an approved application and a profile that accepts new work.
-/
theorem sound_iff (directory : Directory) (db : Db)
    (reflects : directory.Reflects db) :
    directory.Sound db ↔ ∀ user, directory.isActive user = false →
      directory.isExpert user = false ∨ directory.isAvailable user = false := by
  constructor
  · intro sound user inactive
    by_contra both
    have eligible : directory.expertIsEligible user = true := by
      rw [expertIsEligible_eq_true]
      simpa [not_or] using both
    simp [(sound.active user eligible).1] at inactive
  · intro retired
    have active : ∀ user, directory.expertIsEligible user = true →
        directory.isActive user = true := by
      intro user eligible
      obtain ⟨approved, available⟩ := expertIsEligible_eq_true.mp eligible
      by_contra inactive
      rcases retired user (by simpa using inactive) with other | other
      · simp [approved] at other
      · simp [available] at other
    refine ⟨fun user => mem_eligibleExperts.symm,
      fun user request anySubject => (mem_poolCandidates anySubject).symm,
      fun user eligible => ⟨active user eligible,
        (expertIsEligible_eq_true.mp eligible).1⟩, ?_⟩
    intro env student offer key order unused added
    have ends :=
      Call.perform_ends (Bidding.accept_eligible env student offer db)
    have either := ends.lasting (fun key order => .inl) key order added
    rw [unused] at either
    have eligible := either.resolve_left nofun
    rw [expertIsEligible_reflects reflects] at eligible
    exact ⟨active _ eligible, expertIsEligible_eq_true.mp eligible⟩

/-- The account of an expert. -/
def employed : Accounts.Db :=
  { users := .insert .empty 2
      { email := "expert@demo.local", password := "" } }

/-- An approved and available expert, with some state of the accounts. -/
def single (accounts : Accounts.Db)
    (there : (accounts.users.row 2).isSome = true) : Directory where
  accounts
  applications := .insert .empty 2 { content := {}, status := .approved }
  profiles := .insert .empty 2 {}
  owned user present := by
    by_cases same : user = 2
    · exact same ▸ there
    · simp [same] at present

/-- The expert has an offer on an open request. -/
def offering : Db :=
  { experts := .insert .empty 2 ⟨true, true, []⟩
    requests := .insert .empty 10
      { student := 1, status := .opened, expiresAt := some (days 30) }
    offers := .insert .empty 20
      { request := 10, expert := 2, amount := 2000, currency := "usd" } }

theorem single_reflects
    {accounts : Accounts.Db} (there : (accounts.users.row 2).isSome = true) :
    (single accounts there).Reflects offering := by
  intro user
  by_cases same : user = 2
  · subst same
    rfl
  · simp [offering, single, expert, same]

/-- The expert after the deactivation of the own account. -/
def retired : Directory :=
  single (Request.run (Accounts.deactivate 2) employed).2 (by decide +kernel)

/-- The student selects the offer of an expert who has left. -/
theorem deactivated_selected :
    let next := Operation.after
      (.offer (.accept { now := hours 1, key := 30 } ⟨1, false⟩ 20)) offering
    (next.orders.row 30).map Order.expert = some 2 ∧
      retired.isActive 2 = false ∧ ¬retired.Sound offering := by
  intro next
  have created : (next.orders.row 30).map Order.expert = some 2 := by
    decide +kernel
  have inactive : retired.isActive 2 = false := by decide +kernel
  refine ⟨created, inactive, fun sound => ?_⟩
  obtain ⟨order, stored, same⟩ := Option.map_eq_some_iff.mp created
  have selected := sound.selected { now := hours 1, key := 30 } ⟨1, false⟩ 20 30
    order rfl stored
  rw [same, inactive] at selected
  exact Bool.noConfusion selected.1

/-- As long as the account is active, the rules say what they should. -/
theorem active_sound : (single employed rfl).Sound offering := by
  refine (sound_iff (single employed rfl) offering (single_reflects rfl)).mpr
    fun user inactive => ?_
  by_cases same : user = 2
  · subst same
    exact absurd inactive (by decide +kernel)
  · exact .inl (by simp [single, isExpert, same])

end Directory

end KnowledgeMarketplace
