import KnowledgeMarketplace.Reviews.Services
import KnowledgeMarketplace.Transaction.Debts
import KnowledgeMarketplace.Transaction.Derived

/-!
# Convergence of the rating

Every writer of reviews recomputes the rating of the expert in a later commit.
The last recomputation to be saved decides, so it has to be one that has read
the reviews as they are then.
-/

namespace KnowledgeMarketplace

open Transaction

namespace Reviews

variable {expert : UserId} {db : Db}

/-! ## What the rating depends on -/

/-- What the rating takes from a review. -/
def score (review : Review) : Int × Time :=
  (review.rating, review.createdAt)

/-- The scores of the published reviews of an expert. -/
def scores (expert : UserId) (db : Db) : List (Int × Time) :=
  (publishedReviews expert db).map score

theorem scores_eq_collect (expert : UserId) (db : Db) :
    scores expert db = db.reviews.collect fun review =>
      if review.expert = expert ∧ review.status = .published
      then some (score review) else none := by
  rw [scores, publishedReviews, Table.collect, List.map_filterMap]
  refine List.filterMap_congr fun order _ => ?_
  cases db.reviews.row order with
  | none => rfl
  | some review => simp [apply_ite]

/-- So do sums over what is taken from the scores. -/
theorem map_of_scores
    {reviews others : List Review}
    (same : reviews.map score = others.map score) (value : Int × Time → ℝ) :
    reviews.map (value ∘ score) = others.map (value ∘ score) := by
  rw [← List.map_map, same, List.map_map]

/-- The aggregate depends on the scores only. -/
theorem weightedAggregate_congr
    {reviews others : List Review}
    (same : reviews.map score = others.map score) (now : Time) :
    weightedAggregate now reviews = weightedAggregate now others := by
  let decayed : Int × Time → ℝ := fun (_, createdAt) =>
    (0.5 : ℝ) ^ (ageDays now createdAt / halfLifeDays)
  have length : reviews.length = others.length := by
    simpa using congrArg List.length same
  have weights : WeightedMean.weightSum (weight now) reviews =
      WeightedMean.weightSum (weight now) others :=
    congrArg List.sum (map_of_scores same decayed)
  have totals : WeightedMean.weightedTotal (weight now)
        (fun review => (review.rating : ℝ)) reviews =
      WeightedMean.weightedTotal (weight now)
        (fun review => (review.rating : ℝ)) others :=
    congrArg List.sum
      (map_of_scores same fun scored => scored.1 * decayed scored)
  simp only [weightedAggregate, average, foldl_add, weights, totals, length]

/-- At all times after the reviews it is the same. -/
theorem weightedAggregate_timeless
    {reviews : List Review} {now later : Time}
    (past : ∀ review ∈ reviews, review.createdAt ≤ now)
    (passed : ∀ review ∈ reviews, review.createdAt ≤ later) :
    weightedAggregate now reviews = weightedAggregate later reviews := by
  have same : average now reviews = average later reviews := by
    rcases le_total now later with order | order
    · exact (average_later order past).symm
    · exact average_later order passed
  rw [weightedAggregate, weightedAggregate, same]

/-- The columns of the profile hold the aggregate of the published reviews. -/
def Right (expert : UserId) (db : Db) : Prop :=
  ∀ rating, db.profiles.row expert = some rating →
    ∀ now, (∀ review ∈ publishedReviews expert db, review.createdAt ≤ now) →
      rating = weightedAggregate now (publishedReviews expert db)

/-- Scores and columns decide whether they are right. -/
theorem Right.congr
    {next : Db} (right : Right expert db)
    (columns : next.profiles.row expert = db.profiles.row expert)
    (same : scores expert next = scores expert db) : Right expert next := by
  intro rating stored now past
  have moved : ∀ review ∈ publishedReviews expert db,
      review.createdAt ≤ now := by
    intro review member
    have scored : score review ∈ scores expert next :=
      same ▸ List.mem_map_of_mem member
    obtain ⟨other, present, equal⟩ := List.mem_map.mp scored
    have created : other.createdAt = review.createdAt := congrArg Prod.snd equal
    exact created ▸ past other present
  rw [right rating (columns ▸ stored) now moved]
  exact weightedAggregate_congr same.symm now

/-- A recomputation has read the reviews as they are. -/
def Fresh (expert : UserId) (basis : Basis) (db : Db) : Prop :=
  basis.reviews.map score = scores expert db ∧
    ∀ review ∈ basis.reviews, review.createdAt ≤ basis.now

instance (expert : UserId) (basis : Basis) (db : Db) :
    Decidable (Fresh expert basis db) :=
  inferInstanceAs (Decidable (_ ∧ _))

/-- What a fresh recomputation saves is right. -/
theorem Fresh.right
    {basis : Basis} (fresh : Fresh expert basis db) :
    Right expert ((Stmt.updateRating expert basis
      (weightedAggregate basis.now basis.reviews)).apply db) := by
  intro rating stored now past
  obtain ⟨_, _, rfl⟩ : ∃ old, db.profiles.row expert = some old ∧
      weightedAggregate basis.now basis.reviews = rating := by
    simpa [Stmt.apply] using stored
  change basis.reviews.map score = (publishedReviews expert db).map score ∧ _
    at fresh
  change ∀ review ∈ publishedReviews expert db, review.createdAt ≤ now at past
  have same := weightedAggregate_congr fresh.1
  have passed : ∀ review ∈ basis.reviews, review.createdAt ≤ now := by
    intro review member
    have scored : score review ∈ (publishedReviews expert db).map score :=
      fresh.1 ▸ List.mem_map_of_mem member
    obtain ⟨other, present, equal⟩ := List.mem_map.mp scored
    have created : other.createdAt = review.createdAt := congrArg Prod.snd equal
    exact created ▸ past other present
  exact (weightedAggregate_timeless fresh.2 passed).trans (same now)

/-! ## What the writers owe -/

/-- A statement that may change the scores of an expert. -/
def Concerns (expert : UserId) : Stmt → Prop
  | .insertReview _ review | .saveEdit _ _ review | .saveStatus _ review =>
      review.expert = expert
  | .saveReply _ _ _ | .updateRating _ _ _ => False

/-- A statement that updates the rating of an expert. -/
def Updates (expert : UserId) : Stmt → Prop
  | .updateRating subject _ _ => subject = expert
  | _ => False

def HasProfile (expert : UserId) (db : Db) : Prop :=
  (db.profiles.row expert).isSome = true

/-- A recomputation updates the rating if there is a profile. -/
theorem recomputeExpertAggregate_owes (clock : Time) (expert : UserId) :
    (recomputeExpertAggregate clock expert).Owes (Updates expert)
      (HasProfile expert) := by
  intro state _ seen present
  have found : (seen.profiles.row expert).isSome = true := present
  change Proc.Owes _ _ (Prog.toProc (Prog.bind
    (if (seen.profiles.row expert).isSome = true then .done () else .fail _)
      fun _ => _)) _
  rw [if_pos found]
  exact .inl ⟨_, List.mem_singleton.mpr rfl, rfl⟩

/-- A block that writes about one expert, and the recomputation after it. -/
theorem honours_recomputed
    {subject : UserId} {body : Prog Db Row Stmt Error Unit}
    (about : subject ≠ expert → body.Emits (fun effect => ∀ stmt,
      effect = .write stmt → ¬Concerns expert stmt) fun _ => True)
    (clock : Time) (copy : Review) :
    (do Request.atomic body; recomputeExpertAggregate clock subject; return copy :
      Handler Review).Honours (Concerns expert) (Updates expert)
        (HasProfile expert) := by
  have quiet : ∀ now, (recomputeExpertAggregate now subject).Emits
      (fun effect => ∀ stmt, effect = .write stmt → ¬Concerns expert stmt)
      fun _ => True := by
    intro now
    simp [recomputeExpertAggregate, Concerns]
  by_cases same : subject = expert
  · subst same
    refine .commit (fun _ => .seq (recomputeExpertAggregate_owes _ _) _) ?_
    exact fun _ => .seq (quiet clock) fun _ => Request.honours_of_emits (by simp)
  · exact .seq (Request.emits_atomic.mpr (about same)) fun _ =>
      .seq (quiet clock) fun _ => Request.honours_of_emits (by simp)

/-- Every request recomputes after it has written about an expert. -/
theorem ReviewCall.honours (call : ReviewCall) (expert : UserId) :
    call.call.Honours (Concerns expert) (Updates expert)
      (HasProfile expert) := by
  cases call with
  | submit env clock id order actor rating body scores =>
      simp only [ReviewCall.call, submitReview]
      refine .seq (by simp) fun _ => .seq (by simp) fun _ => ?_
      refine .seq (by simp) fun _ => .seq (by simp) fun _ => ?_
      refine .seq (by simp) fun _ => .seq (by simp) fun _ => ?_
      refine .seq (by simp) fun _ => .seq (by simp) fun _ => ?_
      refine .seq (by simp) fun _ => honours_recomputed ?_ _ _
      exact fun other => by simp [Concerns, other]
  | edit env clock id actor rating body scores =>
      refine .seq (by simp) fun _ => .seq (by simp) fun review => ?_
      refine .seq (by simp) fun _ => .seq (by simp) fun _ => ?_
      refine .seq (by simp) fun _ => .seq (by simp) fun _ => ?_
      refine .seq (by simp) fun _ => .seq (by simp) fun _ => ?_
      refine .seq (by simp) fun _ => honours_recomputed ?_ _ _
      exact fun other => by simp [Concerns, other]
  | reply env id actor text ratingOfStudent =>
      refine Request.honours_of_emits ?_
      simp [ReviewCall.call, onReview, replyToReview, Handler.exec, Concerns]
  | setHidden clock id actor hidden =>
      refine .seq (by simp) fun _ => .seq (by simp) fun review => ?_
      refine .seq (by simp) fun _ => honours_recomputed ?_ _ _
      exact fun other => by simp [Concerns, other]

/-! ## What the writers commit -/

/-- The expert of a review does not change. -/
def expertOf (id : OrderId) (db : Db) : Option UserId :=
  (db.reviews.row id).map Review.expert

/-- A later database has the reviews of an earlier one. -/
def Later (before after : Db) : Prop :=
  ∀ id about, expertOf id before = some about → expertOf id after = some about

/-- Saves are of copies that were read, ratings are aggregates. -/
def Written (seen : Db) : Stmt → Prop
  | .insertReview _ _ | .saveReply _ _ _ => True
  | .saveEdit id _ copy | .saveStatus id copy =>
      expertOf id seen = some copy.expert
  | .updateRating _ basis rating =>
      rating = weightedAggregate basis.now basis.reviews

/-- A commit is one such statement. -/
def OneWritten (seen : Db) (stmts : List Stmt) (_ : Db) : Prop :=
  ∃ stmt, stmts = [stmt] ∧ Written seen stmt

theorem written_updateRating
    (seen : Db) (subject : UserId) (now : Time) (reviews : List Review) :
    Written seen (.updateRating subject ⟨now, reviews⟩
      (weightedAggregate now reviews)) :=
  rfl

theorem recomputeExpertAggregate_safe
    (seen : Db) (clock : Time) (subject : UserId) (copy : Review) :
    (do recomputeExpertAggregate clock subject; return copy :
      Handler Review).Safe (.keeping fun _ => True) (OneWritten seen) := by
  simp [Request.Safe, recomputeExpertAggregate, Ctx.CommitOk,
    Protocol.keeping, OneWritten, written_updateRating]

/-- A save of a copy that was read, and the recomputation after it. -/
theorem saved_safe
    {seen : Db} {stmt : Stmt} (written : Written seen stmt)
    (clock : Time) (subject : UserId) (copy : Review) :
    (do Handler.exec stmt; recomputeExpertAggregate clock subject; return copy :
      Handler Review).Safe (.keeping fun _ => True) (OneWritten seen) := by
  refine Request.wp_bind.mpr (Request.wp_atomic.mpr (Prog.wp_exec.mpr ⟨?_, ?_⟩))
  · simp [Ctx.CommitOk, Protocol.keeping, OneWritten, written]
  · exact recomputeExpertAggregate_safe seen clock subject copy

/-- A student commits the review and the rating. -/
theorem submitReview_safe
    (seen : Db) (env : Env) (clock : Time) (id : OrderId) (order : Order)
    (actor : UserId) (rating : Value) (body : String) (scores : SubScores) :
    (submitReview env clock id order actor rating body scores).Safe
      (.keeping fun _ => True) (OneWritten seen) := by
  refine .require fun _ => .require fun _ => .load fun _ _ => ?_
  refine .require fun _ => .ofExcept fun _ _ => .ofExcept fun _ _ => ?_
  refine .ofExcept fun _ _ => .ofExcept fun _ _ => .ofExcept fun _ _ => ?_
  refine Request.wp_bind.mpr (Request.wp_atomic.mpr ?_)
  simp only [Prog.wp_bind, Prog.wp_lockRow, Prog.wp_read, Prog.wp_require,
    Prog.wp_exec]
  intro state _ _
  refine ⟨fun _ => ⟨?_, recomputeExpertAggregate_safe seen _ _ _⟩,
    fun _ => trivial⟩
  simp [Ctx.CommitOk, Protocol.keeping, OneWritten, Written]

/-- An author saves the copy that was read. -/
theorem editReview_safe
    {seen : Db} {id : OrderId} {review : Review}
    (read : expertOf id seen = some review.expert)
    (env : Env) (clock : Time) (actor : UserId) (rating : Value)
    (body : Option String) (scores : SubScores) :
    (editReview env clock id review actor rating body scores).Safe
      (.keeping fun _ => True) (OneWritten seen) := by
  refine .require fun _ => .require fun _ => .ofExcept fun _ _ => ?_
  refine .ofExcept fun _ _ => .ofExcept fun _ _ => .ofExcept fun _ _ => ?_
  refine .ofExcept fun _ _ => saved_safe ?_ clock _ _
  exact read

theorem replyToReview_safe
    (seen : Db) (env : Env) (id : OrderId) (review : Review) (actor : UserId)
    (reply : String) (ratingOfStudent : Value) :
    (replyToReview env id review actor reply ratingOfStudent).Safe
      (.keeping fun _ => True) (OneWritten seen) := by
  refine .require fun _ => .require fun _ => .ofExcept fun _ _ => ?_
  refine .ofExcept fun _ _ => Request.wp_bind.mpr (Request.wp_atomic.mpr
    (Prog.wp_exec.mpr ⟨?_, trivial⟩))
  simp [Ctx.CommitOk, Protocol.keeping, OneWritten, Written]

theorem setHidden_safe
    {seen : Db} {id : OrderId} {review : Review}
    (read : expertOf id seen = some review.expert)
    (clock : Time) (actor : Option Actor) (hidden : Bool) :
    (setHidden clock id review actor hidden).Safe (.keeping fun _ => True)
      (OneWritten seen) := by
  refine .require fun _ => saved_safe ?_ clock _ _
  exact read

/-- A service on a review that a view has read. -/
theorem onReview_looks
    {id : OrderId} {service : Review → Handler Review}
    (safe : ∀ seen review, expertOf id seen = some review.expert →
      (service review).Safe (.keeping fun _ => True) (OneWritten seen)) :
    Proc.Looks (.keeping fun _ => True) OneWritten (onReview id service) := by
  intro seen
  refine Request.wp_bind.mpr (Request.wp_orFail.mpr
    ⟨fun review found => safe seen review ?_, fun _ => trivial⟩)
  simp [expertOf, show seen.reviews.row id = some review from found]

/-- Whatever it has read, a request commits such statements. -/
theorem ReviewCall.looks (call : ReviewCall) :
    Proc.Looks (.keeping fun _ => True) OneWritten call.call := by
  cases call with
  | submit env clock id order actor rating body scores =>
      exact Proc.looks_of_inv (fun _ => trivial) fun seen =>
        submitReview_safe seen ..
  | edit env clock id actor rating body scores =>
      exact onReview_looks fun _ _ read => editReview_safe read ..
  | reply env id actor text ratingOfStudent =>
      exact onReview_looks fun _ _ _ => replyToReview_safe ..
  | setHidden clock id actor hidden =>
      exact onReview_looks fun _ _ read => setHidden_safe read ..

/-! ## Every run -/

variable {seen : Db} {stmt : Stmt}

/-- A statement leaves the expert of every review. -/
theorem later_apply (stmt : Stmt) (db : Db) : Later db (stmt.apply db) := by
  intro id about stored
  obtain ⟨review, row, rfl⟩ := Option.map_eq_some_iff.mp stored
  cases stmt with
  | insertReview key value =>
      simp [expertOf, Stmt.apply, Table.row_insert_of_some key value row]
  | saveEdit key loaded copy | saveReply key loaded copy | saveStatus key copy =>
      by_cases same : id = key
      · subst same
        simp [expertOf, Stmt.apply, row]
      · simp [expertOf, Stmt.apply, same, row]
  | updateRating subject basis rating => simp [expertOf, Stmt.apply, row]

/-- A statement that concerns another expert leaves the scores alone. -/
theorem scores_apply
    (written : Written seen stmt) (later : Later seen db)
    (other : ¬Concerns expert stmt) :
    scores expert (stmt.apply db) = scores expert db := by
  rw [scores_eq_collect, scores_eq_collect]
  cases stmt with
  | insertReview id review =>
      refine Table.collect_insert_of_none ?_
      simp [show review.expert ≠ expert from other]
  | saveEdit id loaded copy | saveStatus id copy =>
      refine Table.collect_modify fun old stored => ?_
      have about := later id copy.expert written
      have foreign : copy.expert ≠ expert := other
      have same : old.expert = copy.expert := by
        simpa [expertOf, stored] using about
      simp [same, foreign]
  | saveReply id loaded copy =>
      exact Table.collect_modify fun old _ => rfl
  | updateRating subject basis rating => rfl

/-- A statement that updates another profile leaves the columns alone. -/
theorem profile_apply (other : ¬Updates expert stmt) :
    (stmt.apply db).profiles.row expert = db.profiles.row expert := by
  cases stmt with
  | updateRating subject basis rating =>
      have different : expert ≠ subject := fun same => other same.symm
      simp [Stmt.apply, different]
  | _ => rfl

/-- No statement adds or removes a profile. -/
theorem hasProfile_apply :
    HasProfile expert (stmt.apply db) ↔ HasProfile expert db := by
  cases stmt with
  | updateRating subject basis rating =>
      by_cases same : expert = subject
      · subst same
        simp [HasProfile, Stmt.apply]
      · simp [HasProfile, Stmt.apply, same]
  | _ => exact .rfl

/--
A client that saves the rating of the expert has read the reviews as they are,
or another client recomputes it afterwards.
-/
def Repaired
    (expert : UserId) (system : Reviewing) (client : Nat) : Prop :=
  ∀ stmts, system.committing (.run client) = some stmts →
    ∀ basis rating, .updateRating expert basis rating ∈ stmts →
      Fresh expert basis system.committed ∨
        system.Owed (Updates expert) (HasProfile expert) (· ≠ client)

/-- What a request commits: it has read the reviews that it saves. -/
theorem written_of_reach
    (calls : Nat → Option ReviewCall) {system : Reviewing}
    (reached : System.Reach (fun _ _ => True) (Reviewing.start db calls) system)
    {client : Nat} {stmts : List Stmt}
    (commits : system.committing (.run client) = some stmts) :
    ∃ seen stmt, stmts = [stmt] ∧ Later seen system.committed ∧
      Written seen stmt := by
  have looks : ∀ client, Proc.Looks (.keeping fun _ => True) OneWritten
      (((calls client).elim
        (.halt (.error (.notFound "Review not found."))) ReviewCall.call :
          Handler Review)) := by
    intro client
    cases calls client with
    | none => exact fun _ => trivial
    | some call => exact call.looks
  have grows : ∀ look stmts state, OneWritten look stmts state →
      Later state (applyAll stmts state) := by
    rintro look _ state ⟨stmt, rfl, _⟩
    exact later_apply stmt state
  have refl : ∀ state, Later state state := fun _ _ _ same => same
  have trans : ∀ first second third, Later first second →
      Later second third → Later first third :=
    fun _ _ _ early late id about read => late id about (early id about read)
  obtain ⟨⟨_, informed⟩, _⟩ := reached.informed refl trans
    (fun _ _ _ => trivial) trivial looks
    (fun _ look stmts state _ _ written before =>
      have step := grows look stmts state written
      ⟨step, trans _ _ _ before step⟩) (refl db)
  obtain ⟨seen, past, stmt, single, written⟩ :=
    informed.guaranteed (fun _ _ => trivial) commits
  exact ⟨seen, stmt, single, past, written⟩

/-- In such a run the columns are right, or some client recomputes them. -/
theorem solvent_of_turns
    (calls : Nat → Option ReviewCall) (right : Right expert db)
    (has : HasProfile expert db) {last : Reviewing}
    (reached : System.Turns (Repaired expert) (Reviewing.start db calls) last) :
    last.Solvent (Concerns expert) (Updates expert) (HasProfile expert)
      (Right expert) := by
  induction reached with
  | refl =>
      refine ⟨has, fun client => ?_, .inl right⟩
      simp only [Reviewing.start, System.init]
      cases calls client with
      | none => exact trivial
      | some call => exact call.honours expert [] (by simp)
  | @turn system client run allowed inductionHypothesis =>
      refine inductionHypothesis.turn client fun stmts commits => ?_
      obtain ⟨seen, stmt, rfl, past, written⟩ :=
        written_of_reach calls run.reach commits
      refine ⟨hasProfile_apply.mpr inductionHypothesis.assumes, ?_, ?_⟩
      · rintro ⟨other, member, updates⟩
        rw [List.mem_singleton.mp member] at updates
        cases stmt with
        | updateRating subject basis rating =>
            obtain rfl : subject = expert := updates
            have aggregate : rating =
              weightedAggregate basis.now basis.reviews := written
            have repaired := allowed _ commits basis rating (by simp)
            exact aggregate ▸ repaired.imp_left Fresh.right
        | _ => exact updates.elim
      · intro quiet before
        obtain ⟨other, elsewhere⟩ := quiet stmt (by simp)
        exact before.congr (profile_apply elsewhere)
          (scores_apply written past other)

/-- Nobody adds a profile. -/
theorem hasProfile_of_turns
    (calls : Nat → Option ReviewCall) {allowed : Reviewing → Nat → Prop}
    {last : Reviewing}
    (reached : System.Turns allowed (Reviewing.start db calls) last)
    (has : HasProfile expert last.committed) : HasProfile expert db := by
  induction reached with
  | refl => exact has
  | @turn system client run _ inductionHypothesis =>
      refine inductionHypothesis ?_
      change HasProfile expert (system.step (.run client)).committed at has
      rcases commits : system.committing (.run client) with _ | stmts
      · rwa [System.step_committed_of_none commits] at has
      · obtain ⟨_, stmt, rfl, _, _⟩ := written_of_reach calls run.reach commits
        rw [System.step_committed_of_some commits] at has
        exact hasProfile_apply.mp has

/--
In any interleaving in which every recomputation that is saved last has read the
reviews as they are, the columns are right once all requests have ended.
-/
theorem ratings_converge
    (db : Db) (calls : Nat → Option ReviewCall) (expert : UserId)
    (right : Right expert db) (last : Reviewing)
    (reached : System.Turns (Repaired expert) (Reviewing.start db calls) last)
    (finished : ∀ client, ∃ result, (last.clients client).proc = .halt result) :
    Right expert last.committed := by
  intro rating stored
  have has := hasProfile_of_turns calls reached
    (by simp [HasProfile, stored] : HasProfile expert last.committed)
  exact (solvent_of_turns calls right has reached).settled_of_halted finished
    rating stored

/-! ## Two reviews at a time -/

/-- An expert with a profile and without reviews. -/
def unrated : Db :=
  { profiles := .insert .empty 2 {} }

theorem unrated_right : Right 2 unrated := by
  intro rating stored now _
  obtain rfl : ({} : Rating) = rating := Option.some.inj stored
  change ({} : Rating) = weightedAggregate now []
  simp [weightedAggregate, average_nil]

/-- A completed order of the expert. -/
def completedOrder (student : UserId) : Order :=
  { request := 10
    student
    expert := 2
    source := .openBid
    amount := 5000
    status := .completed
    createdAt := 0 }

/-- Two students review their orders. -/
def twoStudents : Nat → Option ReviewCall
  | 0 => some (.submit { now := 10 } 10 40 (completedOrder 1) 1 (.number 5)
      "Every chapter came back on time." {})
  | 1 => some (.submit { now := 11 } 11 41 (completedOrder 3) 3 (.number 2)
      "Half of the chapters are missing." {})
  | _ => none

/-- The first one has read the reviews before the second one saves its own. -/
def lateFirst : List (Event (Except Error Review)) :=
  Reviewing.turns 0 6 ++ Reviewing.turns 1 10 ++ Reviewing.turns 0 4

def inTurn : List (Event (Except Error Review)) :=
  Reviewing.turns 0 10 ++ Reviewing.turns 1 10

/-- The client has ended. -/
def ended (system : Reviewing) (client : Nat) : Bool :=
  (system.clients client).proc matches .halt _

theorem halted_of_ended {system : Reviewing} {client : Nat}
    (done : ended system client = true) :
    ∃ result, (system.clients client).proc = .halt result := by
  rw [ended] at done
  split at done
  · rename_i result shape
    exact ⟨result, shape⟩
  · exact nomatch done

/-- Only the two students have turns. -/
theorem twoStudents_halted
    {schedule : List (Event (Except Error Review))}
    (two : ∀ event ∈ schedule, event = .run 0 ∨ event = .run 1)
    (first : ended ((Reviewing.start unrated twoStudents).runAll schedule) 0)
    (second : ended ((Reviewing.start unrated twoStudents).runAll schedule) 1)
    (client : Nat) :
    ∃ result, (((Reviewing.start unrated twoStudents).runAll schedule).clients
      client).proc = .halt result := by
  match client with
  | 0 => exact halted_of_ended first
  | 1 => exact halted_of_ended second
  | client + 2 =>
      have others : ∀ event ∈ schedule,
          ∃ other, client + 2 ≠ other ∧ event = .run other := by
        intro event member
        rcases two event member with rfl | rfl
        · exact ⟨0, by omega, rfl⟩
        · exact ⟨1, by omega, rfl⟩
      rw [System.runAll_other others]
      exact ⟨_, rfl⟩

/-- What a client is about to save of the expert's rating is fresh. -/
def savesFresh (expert : UserId) (system : Reviewing) (client : Nat) : Bool :=
  (system.committing (.run client)).all fun stmts => stmts.all fun stmt =>
    match stmt with
    | .updateRating subject basis _ =>
        subject ≠ expert ∨ Fresh expert basis system.committed
    | _ => true

theorem repaired_of_savesFresh
    {expert : UserId} (system : Reviewing) (client : Nat)
    (fresh : savesFresh expert system client = true) :
    Repaired expert system client := by
  intro stmts commits basis rating member
  simp only [savesFresh, commits, Option.all_some, List.all_eq_true] at fresh
  have saved := fresh _ member
  exact .inl (by simpa using saved)

/-- One after the other, the two reviews give the right rating. -/
theorem ratings_converge_inTurn :
    Right 2 ((Reviewing.start unrated twoStudents).runAll inTurn).committed :=
  ratings_converge unrated twoStudents 2 unrated_right _
    (System.turns_of_allowsAll repaired_of_savesFresh .refl (by decide +kernel))
    (twoStudents_halted (by simp [inTurn, Reviewing.turns])
      (by decide +kernel) (by decide +kernel))

/-- The rating that is saved last does not count the second review. -/
theorem lateFirst_diverges :
    let last := (Reviewing.start unrated twoStudents).runAll lateFirst
    Right 2 unrated ∧
      (∀ client, ∃ result, (last.clients client).proc = .halt result) ∧
      (publishedReviews 2 last.committed).length = 2 ∧
      (last.committed.profiles.row 2).map Rating.ratingCount = some 1 ∧
      ¬Right 2 last.committed := by
  intro last
  have halted : ∀ client, ∃ result, (last.clients client).proc = .halt result :=
    twoStudents_halted (by simp +contextual [lateFirst, Reviewing.turns, or_imp])
      (by decide +kernel) (by decide +kernel)
  have two : (publishedReviews 2 last.committed).length = 2 := by
    decide +kernel
  obtain ⟨review, stored⟩ : ∃ review, last.committed.profiles.row 2 =
      some (weightedAggregate 10 [review]) := ⟨_, rfl⟩
  have counted : (weightedAggregate 10 [review]).ratingCount = 1 :=
    average_count 10 [review]
  refine ⟨unrated_right, halted, two, by simp [stored, counted], fun right => ?_⟩
  have whole := right _ stored 20 (by decide +kernel)
  have published : (weightedAggregate 20
      (publishedReviews 2 last.committed)).ratingCount = 2 :=
    (average_count _ _).trans two
  rw [← whole, counted] at published
  omega

end Reviews

end KnowledgeMarketplace
