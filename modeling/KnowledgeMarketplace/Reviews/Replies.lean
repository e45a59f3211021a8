import KnowledgeMarketplace.Reviews.Services
import KnowledgeMarketplace.Transaction.Derived

/-!
# One reply

An edit and a reply decide on a copy that the view has read, and save without a
lock.  A reply is final as long as no save finds another reply than its copy.
-/

namespace KnowledgeMarketplace

open Transaction

namespace Reviews

/-- A save of a copy finds the reply that the copy was read with. -/
def FindsLoaded : Stmt → Db → Prop
  | .saveEdit id loaded _, db | .saveReply id loaded _, db =>
      ∀ review, db.reviews.row id = some review → review.repliedAt = loaded
  | _, _ => True

instance : ∀ stmt db, Decidable (FindsLoaded stmt db)
  | .saveEdit id loaded _, db | .saveReply id loaded _, db =>
      decidable_of_iff
        (∀ review ∈ db.reviews.row id, review.repliedAt = loaded) .rfl
  | .insertReview _ _, _ | .saveStatus _ _, _ | .updateRating _ _ _, _ =>
      .isTrue trivial

/-- A review with a reply only changes its visibility. -/
def RepliesKept (before after : Db) : Prop :=
  ∀ id review, before.reviews.row id = some review →
    review.repliedAt ≠ none →
      ∃ status, after.reviews.row id = some { review with status }

theorem RepliesKept.refl (db : Db) : RepliesKept db db :=
  fun _ review stored _ => ⟨review.status, stored⟩

theorem RepliesKept.trans
    {first second third : Db} (early : RepliesKept first second)
    (late : RepliesKept second third) : RepliesKept first third := by
  intro id review stored replied
  obtain ⟨status, middle⟩ := early id review stored replied
  obtain ⟨last, after⟩ := late id { review with status } middle replied
  exact ⟨last, after⟩

/-! ## What the services write -/

section

variable {good : Effect Stmt → Prop}

theorem recomputeExpertAggregate_emits
    (updated : ∀ expert now reviews, good (.write
      (.updateRating expert ⟨now, reviews⟩ (weightedAggregate now reviews))))
    (now : Time) (expert : UserId) :
    (recomputeExpertAggregate now expert).Emits good fun _ => True := by
  simp [recomputeExpertAggregate, updated]

/-- A writer returns its copy after the recomputation. -/
theorem recomputeExpertAggregate_then
    (updated : ∀ expert now reviews, good (.write
      (.updateRating expert ⟨now, reviews⟩ (weightedAggregate now reviews))))
    (now : Time) (expert : UserId) (copy : Review) :
    (do recomputeExpertAggregate now expert; return copy :
      Handler Review).Emits good fun _ => True :=
  .seq (recomputeExpertAggregate_emits updated now expert) (by simp)

/-- Reviews are inserted of completed orders, and saved without a reply. -/
theorem ReviewCall.emits
    {call : ReviewCall}
    (inserted : ∀ env clock id order actor rating body scores review,
      call = .submit env clock id order actor rating body scores →
      order.status = .completed → good (.write (.insertReview id review)))
    (edited : ∀ id copy, good (.write (.saveEdit id none copy)))
    (replied : ∀ id copy, good (.write (.saveReply id none copy)))
    (marked : ∀ clock id actor hidden copy,
      call = .setHidden clock id actor hidden →
      actor.any Actor.isStaff = true →
      copy.status = (if hidden then .hidden else .published) →
      good (.write (.saveStatus id copy)))
    (updated : ∀ expert now reviews, good (.write
      (.updateRating expert ⟨now, reviews⟩ (weightedAggregate now reviews)))) :
    call.call.Emits good fun _ => True := by
  cases call with
  | submit env clock id order actor rating body scores =>
      simp only [ReviewCall.call, submitReview]
      refine .seq (by simp) fun _ => Request.emits_bind.mpr
        (Request.emits_require.mpr ⟨fun completed => ?_, fun _ => trivial⟩)
      refine .seq (by simp) fun _ => .seq (by simp) fun _ => ?_
      refine .seq (by simp) fun _ => .seq (by simp) fun _ => ?_
      refine .seq (by simp) fun _ => .seq (by simp) fun _ => ?_
      refine .seq (by simp) fun _ => .seq ?_ fun _ => ?_
      · simp [inserted _ _ _ _ _ _ _ _ _ rfl completed]
      · exact recomputeExpertAggregate_then updated _ _ _
  | edit env clock id actor rating body scores =>
      refine .seq (by simp) fun _ => .seq (by simp) fun review => ?_
      refine .seq (by simp) fun _ => Request.emits_bind.mpr
        (Request.emits_require.mpr ⟨fun unreplied => ?_, fun _ => trivial⟩)
      refine .seq (by simp) fun _ => .seq (by simp) fun _ => ?_
      refine .seq (by simp) fun _ => .seq (by simp) fun _ => ?_
      refine .seq (by simp) fun _ => .seq ?_ fun _ => ?_
      · simp [Handler.exec, unreplied, edited]
      · exact recomputeExpertAggregate_then updated _ _ _
  | reply env id actor text ratingOfStudent =>
      simp +contextual [ReviewCall.call, onReview, replyToReview, Handler.exec,
        replied]
  | setHidden clock id actor hidden =>
      refine .seq (by simp) fun _ => .seq (by simp) fun review => ?_
      refine Request.emits_bind.mpr
        (Request.emits_require.mpr ⟨fun staff => ?_, fun _ => trivial⟩)
      refine .seq ?_ fun _ => ?_
      · simp [Handler.exec, marked _ _ _ _ _ rfl staff]
      · exact recomputeExpertAggregate_then updated _ _ _

end

/-- Edits and replies are saved of copies without a reply. -/
def unanswered : Effect Stmt → Prop
  | .write (.saveEdit _ loaded _) | .write (.saveReply _ loaded _) =>
      loaded = none
  | _ => True

/-- A save of such a copy leaves the reviews with a reply alone. -/
theorem repliesKept_of_unanswered
    {stmt : Stmt} (fine : unanswered (.write stmt)) {db : Db}
    (finds : FindsLoaded stmt db) : RepliesKept db (stmt.apply db) := by
  intro id review stored replied
  cases stmt with
  | insertReview key value =>
      exact ⟨review.status, Table.row_insert_of_some key value stored⟩
  | saveEdit key loaded copy | saveReply key loaded copy =>
      have other : id ≠ key := by
        rintro rfl
        exact replied ((finds review stored).trans fine)
      exact ⟨review.status, by simp [Stmt.apply, other, stored]⟩
  | saveStatus key copy =>
      by_cases same : id = key
      · subst same
        exact ⟨copy.status, by simp [Stmt.apply, stored]⟩
      · exact ⟨review.status, by simp [Stmt.apply, same, stored]⟩
  | updateRating expert basis rating => exact ⟨review.status, stored⟩

/-- So does a commit whose saves find what their copies were read with. -/
theorem repliesKept_of_along
    {stmts : List Stmt} (all : ∀ stmt ∈ stmts, unanswered (.write stmt))
    {db : Db} (along : Along FindsLoaded stmts db) :
    RepliesKept db (applyAll stmts db) :=
  along.keeps (RepliesKept db)
    (fun stmt member _ finds kept =>
      kept.trans (repliesKept_of_unanswered (all stmt member) finds))
    (.refl db)

/-- What the requests promise: each commits such statements only. -/
theorem start_sound (db : Db) (calls : Nat → Option ReviewCall) :
    (Reviewing.start db calls).Sound (.keeping fun _ => True)
      fun _ stmts _ => ∀ stmt ∈ stmts, unanswered (.write stmt) := by
  refine System.sound_init trivial fun client => ?_
  cases shape : calls client with
  | none => exact trivial
  | some call =>
      have emits : call.call.Emits unanswered fun _ => True :=
        ReviewCall.emits (fun _ _ _ _ _ _ _ _ _ _ _ => trivial)
          (fun _ _ => rfl) (fun _ _ => rfl) (fun _ _ _ _ _ _ _ _ => trivial)
          fun _ _ _ => trivial
      exact emits.safe (fun _ _ all _ _ => ⟨trivial, all⟩)
        fun _ _ _ _ _ _ _ => trivial

/--
In any interleaving whose saves find the reply that their copies were read
with, a review with a reply keeps it, and is not edited any more.
-/
theorem replies_final
    (db : Db) (calls : Nat → Option ReviewCall) (middle last : Reviewing)
    (reached : System.Reach (Along FindsLoaded)
      (Reviewing.start db calls) middle)
    (later : System.Reach (Along FindsLoaded) middle last) :
    RepliesKept middle.committed last.committed := by
  have sound := (reached.mono fun _ _ _ => trivial).sound (start_sound db calls)
  have lasting := later.lasts sound (fun _ _ _ => trivial)
    (fun _ _ _ along all kept =>
      RepliesKept.trans kept (repliesKept_of_along all along))
    (RepliesKept.refl middle.committed)
  exact lasting.2

/-- A review of the order 40, by the student 1 about the expert 2. -/
def reviewed : Db :=
  { reviews := .insert .empty 40
      { author := 1
        expert := 2
        rating := 5
        body := "Every chapter came back on time."
        createdAt := 3 } }

/-- The expert replies twice. -/
def doubleReply : Nat → Option ReviewCall
  | 0 => some (.reply { now := 10 } 40 2 "Thank you for the kind words." .none)
  | 1 => some (.reply { now := 11 } 40 2 "I would rather not comment." .none)
  | _ => none

/-- Both replies read the review before either is saved. -/
def bothRead : List (Event (Except Error Review)) :=
  Reviewing.turns 0 1 ++ Reviewing.turns 1 1 ++ Reviewing.turns 0 4

/-- One reply after the other: the second is refused. -/
theorem replies_final_in_turn :
    let middle := (Reviewing.start reviewed doubleReply).runAll
      (Reviewing.turns 0 5)
    RepliesKept middle.committed
      (middle.runAll (Reviewing.turns 1 5)).committed :=
  replies_final reviewed doubleReply _ _
    (System.reach_of_admitsAll .refl (by decide +kernel))
    (System.reach_of_admitsAll .refl (by decide +kernel))

/-- The second reply overwrites the first. -/
theorem doubleReply_overwrites :
    let middle := (Reviewing.start reviewed doubleReply).runAll bothRead
    let last := middle.runAll (Reviewing.turns 1 4)
    (middle.committed.reviews.row 40).map Review.repliedAt = some (some 10) ∧
      (last.committed.reviews.row 40).map Review.repliedAt = some (some 11) ∧
      ¬RepliesKept middle.committed last.committed := by
  intro middle last
  have first : (middle.committed.reviews.row 40).map Review.repliedAt =
      some (some 10) := by decide +kernel
  have second : (last.committed.reviews.row 40).map Review.repliedAt =
      some (some 11) := by decide +kernel
  refine ⟨first, second, fun kept => ?_⟩
  obtain ⟨review, stored, replied⟩ := Option.map_eq_some_iff.mp first
  obtain ⟨status, after⟩ := kept 40 review stored (by simp [replied])
  simp [after, replied] at second

end Reviews

end KnowledgeMarketplace
