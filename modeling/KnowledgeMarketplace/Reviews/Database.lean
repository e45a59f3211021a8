import KnowledgeMarketplace.Database.Rows
import KnowledgeMarketplace.Transaction.Program
import KnowledgeMarketplace.Transaction.Table

/-!
# Reviews and ratings

A review is one-to-one with its order and is keyed by it.  The profile of an
expert carries the aggregate of the published reviews in two columns.
-/

namespace KnowledgeMarketplace

open Transaction

namespace Reviews

inductive ReviewStatus where
  | published
  | hidden
  deriving DecidableEq

/-- The student's review of an order, with the one reply of the expert. -/
structure Review where
  author : UserId
  expert : UserId
  rating : Int
  subQuality : Option Int := none
  subCommunication : Option Int := none
  subTimeliness : Option Int := none
  body : String
  status : ReviewStatus := .published
  expertReply : String := ""
  repliedAt : Option Time := none
  expertRatingOfStudent : Option Int := none
  editedAt : Option Time := none
  createdAt : Time
  deriving DecidableEq

/-- The aggregate on the profile; the average is in hundredths. -/
structure Rating where
  ratingAvg : Option Int := none
  ratingCount : Nat := 0
  deriving DecidableEq

/-- The reviews by order, and the ratings of the experts with a profile. -/
structure Db where
  reviews : Table OrderId Review := .empty
  profiles : Table UserId Rating := .empty

inductive Row where
  | review (order : OrderId)
  | profile (expert : UserId)
  deriving DecidableEq

/-- What a recomputation goes by: the clock, and the reviews that it has read. -/
structure Basis where
  now : Time
  reviews : List Review

/--
An insert, and saves of some columns.  The copy of an edit or a reply was read
with the reply of the time `loaded`.
-/
inductive Stmt where
  | insertReview (order : OrderId) (value : Review)
  | saveEdit (order : OrderId) (loaded : Option Time) (copy : Review)
  | saveReply (order : OrderId) (loaded : Option Time) (copy : Review)
  | saveStatus (order : OrderId) (copy : Review)
  | updateRating (expert : UserId) (basis : Basis) (rating : Rating)

namespace Stmt

def apply (db : Db) : Stmt → Db
  | insertReview order value =>
      { db with reviews := db.reviews.insert order value }
  | saveEdit order _ copy =>
      { db with
        reviews := db.reviews.modify order fun stored =>
          { stored with
            rating := copy.rating
            body := copy.body
            subQuality := copy.subQuality
            subCommunication := copy.subCommunication
            subTimeliness := copy.subTimeliness
            editedAt := copy.editedAt } }
  | saveReply order _ copy =>
      { db with
        reviews := db.reviews.modify order fun stored =>
          { stored with
            expertReply := copy.expertReply
            repliedAt := copy.repliedAt
            expertRatingOfStudent := copy.expertRatingOfStudent } }
  | saveStatus order copy =>
      { db with
        reviews := db.reviews.modify order fun stored =>
          { stored with status := copy.status } }
  | updateRating expert _ rating =>
      { db with profiles := db.profiles.modify expert fun _ => rating }

def rows : Stmt → List Row
  | insertReview order _ | saveEdit order _ _ | saveReply order _ _
  | saveStatus order _ => [.review order]
  | updateRating expert _ _ => [.profile expert]

end Stmt

instance : Store Db Row Stmt where
  apply stmt db := stmt.apply db
  rows := Stmt.rows

@[simp] theorem store_apply (stmt : Stmt) (db : Db) :
    Store.apply stmt db = stmt.apply db :=
  rfl

/-- The published reviews of an expert. -/
def publishedReviews (expert : UserId) (db : Db) : List Review :=
  db.reviews.collect fun review =>
    if review.expert = expert ∧ review.status = .published then some review
    else none

theorem mem_publishedReviews
    {expert : UserId} {db : Db} {review : Review} :
    review ∈ publishedReviews expert db ↔
      ∃ order, db.reviews.row order = some review ∧
        review.expert = expert ∧ review.status = .published := by
  simp only [publishedReviews, Table.collect, List.mem_filterMap,
    Option.bind_eq_some_iff, Option.ite_none_right_eq_some, Option.some.injEq]
  constructor
  · rintro ⟨order, _, found, stored, ⟨about, status⟩, rfl⟩
    exact ⟨order, stored, about, status⟩
  · rintro ⟨order, stored, about, status⟩
    exact ⟨order, (db.reviews.mem_keys order).mpr (by simp [stored]), review,
      stored, ⟨about, status⟩, rfl⟩

end Reviews

end KnowledgeMarketplace
