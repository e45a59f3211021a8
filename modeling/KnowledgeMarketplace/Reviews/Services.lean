import KnowledgeMarketplace.Core.Errors
import KnowledgeMarketplace.Core.Text
import KnowledgeMarketplace.Reviews.Ratings
import KnowledgeMarketplace.Transaction.Schedule

/-!
# Review services

A student reviews a completed order and may edit the review until the expert
replies.  No service opens a transaction: every statement commits by itself, and
each writer then recomputes the aggregate of the expert, by a clock of its own.
-/

namespace KnowledgeMarketplace

open Transaction

namespace Reviews

/-- A request to one of the views of reviews. -/
abbrev Handler (α : Type) := Request Db Row Stmt Error α

/-- One statement, committed by itself. -/
def Handler.exec (stmt : Stmt) : Handler Unit :=
  Request.atomic (Prog.exec stmt)

def minBody : Nat := 20
def maxBody : Nat := 5000
def ratingMin : Int := 1
def ratingMax : Int := 5

/-! ## Validation -/

/--
A value of the request body: whether it is there, whether it is true, and what
`int` makes of it.
-/
structure Value where
  present : Bool := true
  truthy : Bool := true
  int : Option Int
  deriving DecidableEq

/-- `None`. -/
def Value.none : Value := { present := false, truthy := false, int := .none }

/-- A number of a JSON body. -/
def Value.number (value : Int) : Value :=
  { truthy := value ≠ 0, int := some value }

def validateRating (value : Value) (field : String) : Except Error Int :=
  match value.int with
  | .none =>
      .error (.domainError (field ++ " must be an integer.") "validation_error")
  | some value =>
      if ratingMin ≤ value ∧ value ≤ ratingMax then .ok value
      else
        .error (.domainError (field ++ " must be between 1 and 5.")
          "validation_error")

def validateBody (body : String) : Except Error String :=
  if (stripped body).length < minBody then
    .error (.domainError "Reviews need at least 20 characters."
      "validation_error")
  else if maxBody < (stripped body).length then
    .error (.domainError "Reviews are limited to 5000 characters."
      "validation_error")
  else
    .ok (strip body)

/-- A score that is left out if it is not true. -/
def scoreIfTrue (value : Value) (field : String) : Except Error (Option Int) :=
  if value.truthy then (validateRating value field).map some else .ok .none

/-- A score that is kept if it is not there. -/
def scoreIfPresent (value : Value) (field : String) (old : Option Int) :
    Except Error (Option Int) :=
  if value.present then (validateRating value field).map some else .ok old

/-- The sub-scores of a request. -/
structure SubScores where
  quality : Value := .none
  communication : Value := .none
  timeliness : Value := .none
  deriving DecidableEq

/-! ## Services -/

/-- Overwrite the aggregate on the profile with that of the published reviews. -/
noncomputable def recomputeExpertAggregate (now : Time) (expert : UserId) :
    Handler Unit := do
  let reviews ← Request.load (publishedReviews expert)
  let rating := weightedAggregate now reviews
  Request.atomic do
    Prog.lockRow (.profile expert)
    let updated ← Prog.read fun db => (db.profiles.row expert).isSome
    Prog.require (updated = true)
      (.notFound "Expert profile not found for aggregate update.")
    Prog.exec (.updateRating expert { now, reviews } rating)

/-- The student of a completed order reviews it; `order` is the caller's copy. -/
noncomputable def submitReview
    (env : Env) (clock : Time) (id : OrderId) (order : Order) (actor : UserId)
    (rating : Value) (body : String) (scores : SubScores) :
    Handler Review := do
  Request.require (order.student = actor)
    (.permissionDenied "Only the order's student can review it.")
  Request.require (order.status = .completed)
    (.domainError "Only completed orders can be reviewed." "validation_error")
  let reviewed ← Request.load fun db => (db.reviews.row id).isSome
  Request.require (reviewed = false)
    (.domainError "This order has already been reviewed." "duplicate_review")
  let rating ← Request.ofExcept (validateRating rating "rating")
  let subQuality ← Request.ofExcept (scoreIfTrue scores.quality "sub_quality")
  let subCommunication ← Request.ofExcept
    (scoreIfTrue scores.communication "sub_communication")
  let subTimeliness ← Request.ofExcept
    (scoreIfTrue scores.timeliness "sub_timeliness")
  let body ← Request.ofExcept (validateBody body)
  let review : Review :=
    { author := actor
      expert := order.expert
      rating, subQuality, subCommunication, subTimeliness, body
      createdAt := env.now }
  Request.atomic do
    Prog.lockRow (.review id)
    Prog.require (¬(← Prog.read fun db => (db.reviews.row id).isSome))
      (.integrity "Review")
    Prog.exec (.insertReview id review)
  recomputeExpertAggregate clock review.expert
  return review

/-- The author edits the review until the expert replies. -/
noncomputable def editReview
    (env : Env) (clock : Time) (id : OrderId) (review : Review)
    (actor : UserId) (rating : Value) (body : Option String)
    (scores : SubScores) : Handler Review := do
  Request.require (review.author = actor)
    (.permissionDenied "Only the review author can edit it.")
  Request.require (review.repliedAt = none)
    (.domainError "Reviews can no longer be edited after the expert reply."
      "review_already_answered")
  let score ← Request.ofExcept
    (scoreIfPresent rating "rating" (some review.rating))
  let text ← Request.ofExcept <| match body with
    | some body => validateBody body
    | none => .ok review.body
  let subQuality ← Request.ofExcept
    (scoreIfPresent scores.quality "sub_quality" review.subQuality)
  let subCommunication ← Request.ofExcept
    (scoreIfPresent scores.communication "sub_communication"
      review.subCommunication)
  let subTimeliness ← Request.ofExcept
    (scoreIfPresent scores.timeliness "sub_timeliness" review.subTimeliness)
  let copy :=
    { review with
      rating := score.getD review.rating
      body := text
      subQuality, subCommunication, subTimeliness
      editedAt := some env.now }
  Handler.exec (.saveEdit id review.repliedAt copy)
  recomputeExpertAggregate clock review.expert
  return copy

/-- The expert replies once. -/
def replyToReview
    (env : Env) (id : OrderId) (review : Review) (actor : UserId)
    (reply : String) (ratingOfStudent : Value) : Handler Review := do
  Request.require (review.expert = actor)
    (.permissionDenied "Only the reviewed expert can reply.")
  Request.require (review.repliedAt = none)
    (.domainError "This review has already been answered." "duplicate_reply")
  let reply ← Request.ofExcept (validateBody reply)
  let expertRatingOfStudent ← Request.ofExcept
    (scoreIfPresent ratingOfStudent "rating_of_student"
      review.expertRatingOfStudent)
  let copy :=
    { review with
      expertReply := reply
      repliedAt := some env.now
      expertRatingOfStudent }
  Handler.exec (.saveReply id review.repliedAt copy)
  return copy

/-- Staff hide or restore a review. -/
noncomputable def setHidden
    (clock : Time) (id : OrderId) (review : Review) (actor : Option Actor)
    (hidden : Bool) : Handler Review := do
  Request.require (actor.any Actor.isStaff)
    (.permissionDenied "Only staff can hide or restore reviews.")
  let status : ReviewStatus := if hidden then .hidden else .published
  let copy := { review with status }
  Handler.exec (.saveStatus id copy)
  recomputeExpertAggregate clock review.expert
  return copy

/-! ## Requests -/

/-- What students, experts and staff ask for; a view has read the order. -/
inductive ReviewCall where
  | submit (env : Env) (clock : Time) (id : OrderId) (order : Order)
      (actor : UserId) (rating : Value) (body : String) (scores : SubScores)
  | edit (env : Env) (clock : Time) (id : OrderId) (actor : UserId)
      (rating : Value) (body : Option String) (scores : SubScores)
  | reply (env : Env) (id : OrderId) (actor : UserId) (text : String)
      (ratingOfStudent : Value)
  | setHidden (clock : Time) (id : OrderId) (actor : Option Actor)
      (hidden : Bool)

/-- The view reads the review before it calls the service. -/
def onReview (id : OrderId) (service : Review → Handler Review) :
    Handler Review := do
  let found ← Request.load fun db => db.reviews.row id
  let review ← Request.orFail found (.notFound "Review not found.")
  service review

/-- The request of the client. -/
noncomputable def ReviewCall.call : ReviewCall → Handler Review
  | submit env clock id order actor rating body scores =>
      submitReview env clock id order actor rating body scores
  | edit env clock id actor rating body scores =>
      onReview id fun review =>
        editReview env clock id review actor rating body scores
  | reply env id actor text ratingOfStudent =>
      onReview id fun review =>
        replyToReview env id review actor text ratingOfStudent
  | setHidden clock id actor hidden =>
      onReview id fun review => Reviews.setHidden clock id review actor hidden

/-- Students, experts and staff, each request as a client. -/
abbrev Reviewing := System Db Row Stmt (Except Error Review)

/-- All requests are about to start; a client without a call does nothing. -/
noncomputable def Reviewing.start
    (db : Db) (calls : Nat → Option ReviewCall) : Reviewing :=
  .init db fun client =>
    (calls client).elim
      (.halt (.error (.notFound "Review not found."))) ReviewCall.call

/-- A client runs this many statements in a row. -/
def Reviewing.turns (client count : Nat) : List (Event (Except Error Review)) :=
  List.replicate count (.run client)

end Reviews

end KnowledgeMarketplace
