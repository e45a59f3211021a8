import KnowledgeMarketplace.Experts.Services

/-!
# The search for a slug

The loop has no bound of its own.  It ends because its candidates are
pairwise different and the stored slugs are finitely many, and the search that
`uniqueExpertSlug` cuts off after as many rounds as there are slugs finds what
the loop finds.
-/

namespace KnowledgeMarketplace

open Transaction

namespace Experts

/-- The candidate that the loop looks for and the number of the next one. -/
structure SlugSearch where
  candidate : String
  number : Nat

namespace SlugSearch

/-- The next numbered candidate. -/
def next (base : String) (search : SlugSearch) : SlugSearch where
  candidate := base ++ "-" ++ search.number.repr
  number := search.number + 1

/-- `while qs.exists()`, from a search to the slug it returns. -/
inductive Ends (taken : List String) (base : String) :
    SlugSearch → String → Prop where
  | done {search : SlugSearch} (free : search.candidate ∉ taken) :
      Ends taken base search search.candidate
  | round {search : SlugSearch} {slug : String}
      (found : search.candidate ∈ taken)
      (later : Ends taken base (search.next base) slug) :
      Ends taken base search slug

variable {taken : List String} {base : String}

/-- The loop returns a slug that is not taken. -/
theorem Ends.free {search : SlugSearch} {slug : String}
    (ends : Ends taken base search slug) : slug ∉ taken := by
  induction ends with
  | done free => exact free
  | round _ _ inductionHypothesis => exact inductionHypothesis

/-- The loop returns one slug only. -/
theorem Ends.unique {search : SlugSearch} {first second : String}
    (one : Ends taken base search first)
    (other : Ends taken base search second) : first = second := by
  induction one with
  | done free =>
      cases other with
      | done _ => rfl
      | round found _ => exact absurd found free
  | round found _ inductionHypothesis =>
      cases other with
      | done free => exact absurd found free
      | round _ later => exact inductionHypothesis later

/-- Only which slugs are taken matters. -/
theorem Ends.congr {others : List String} {search : SlugSearch} {slug : String}
    (same : ∀ candidate, candidate ∈ taken ↔ candidate ∈ others)
    (ends : Ends taken base search slug) : Ends others base search slug := by
  induction ends with
  | done free => exact .done (mt (same _).mpr free)
  | round found _ inductionHypothesis =>
      exact .round ((same _).mp found) inductionHypothesis

/-- A bounded search that finds a free candidate finds that of the loop. -/
theorem ends_nextFreeSlug {number fuel : Nat}
    (free : nextFreeSlug taken base number fuel ∉ taken) :
    Ends taken base ⟨base ++ "-" ++ number.repr, number + 1⟩
      (nextFreeSlug taken base number fuel) := by
  induction fuel generalizing number with
  | zero => exact .done free
  | succ fuel inductionHypothesis =>
      rw [nextFreeSlug] at free ⊢
      split_ifs at free ⊢ with here
      · exact .round here (inductionHypothesis free)
      · exact .done here

end SlugSearch

/-- `slugify(display_name)[:160] or "expert"`. -/
def slugBase (slugify : String → String) (displayName : String) : String :=
  let clipped := clip 160 (slugify displayName)
  if clipped = "" then "expert" else clipped

/-- The stored slugs that the query sees. -/
def slugsBesides (excludePk : Option UserId) (db : Db) : List String :=
  match excludePk with
  | none => db.profiles.collect fun profile => some profile.slug
  | some user => otherSlugs user db

/-- `_unique_expert_slug` returns a slug. -/
def ReturnsSlug
    (slugify : String → String) (displayName : String)
    (excludePk : Option UserId) (db : Db) (slug : String) : Prop :=
  let base := slugBase slugify displayName
  SlugSearch.Ends (slugsBesides excludePk db) base ⟨base, 2⟩ slug

/-- What the loop returns is what the model of the caller uses. -/
theorem returnsSlug_uniqueExpertSlug
    (slugify : String → String) (displayName : String)
    (excludePk : Option UserId) (db : Db) :
    ReturnsSlug slugify displayName excludePk db
      (uniqueExpertSlug slugify (slugsBesides excludePk db) displayName) := by
  have free := uniqueExpertSlug_fresh slugify (slugsBesides excludePk db)
    displayName
  simp only [ReturnsSlug, uniqueExpertSlug, ← slugBase.eq_def] at free ⊢
  split_ifs at free ⊢ with found
  · exact .round found (SlugSearch.ends_nextFreeSlug free)
  · exact .done found

/-! ## The other profiles -/

theorem mem_otherSlugs {user : UserId} {db : Db} {slug : String} :
    slug ∈ otherSlugs user db ↔
      ∃ other profile, other ≠ user ∧
        db.profiles.row other = some profile ∧ profile.slug = slug := by
  simp only [otherSlugs, List.mem_filterMap, List.mem_filter,
    decide_eq_true_eq, Option.map_eq_some_iff]
  constructor
  · intro ⟨other, ⟨_, different⟩, profile, stored, same⟩
    exact ⟨other, profile, different, stored, same⟩
  · intro ⟨other, profile, different, stored, same⟩
    have known : other ∈ db.profiles.keys :=
      (db.profiles.mem_keys other).mpr (by simp [stored])
    exact ⟨other, ⟨known, different⟩, profile, stored, same⟩

theorem mem_slugsBesides {excludePk : Option UserId} {db : Db} {slug : String} :
    slug ∈ slugsBesides excludePk db ↔
      ∃ other profile, some other ≠ excludePk ∧
        db.profiles.row other = some profile ∧ profile.slug = slug := by
  cases excludePk with
  | none =>
      simp only [slugsBesides, Table.collect, List.mem_filterMap,
        Option.bind_eq_some_iff, Option.some.injEq]
      constructor
      · intro found
        obtain ⟨other, _, profile, stored, same⟩ := found
        exact ⟨other, profile, by simp, stored, same⟩
      · intro found
        obtain ⟨other, profile, _, stored, same⟩ := found
        have known : other ∈ db.profiles.keys :=
          (db.profiles.mem_keys other).mpr (by simp [stored])
        exact ⟨other, known, profile, stored, same⟩
  | some user =>
      simp only [slugsBesides, mem_otherSlugs, ne_eq, Option.some.injEq]

/-- Storing a profile changes no slug of the others. -/
theorem mem_otherSlugs_storeProfile
    (user : UserId) (profile : ExpertProfile) (db : Db) (slug : String) :
    slug ∈ otherSlugs user ((Stmt.storeProfile user profile).apply db) ↔
      slug ∈ otherSlugs user db := by
  simp only [mem_otherSlugs, Stmt.apply]
  constructor
  · intro ⟨other, kept, different, stored, same⟩
    rw [Table.row_store_other db.profiles profile different] at stored
    exact ⟨other, kept, different, stored, same⟩
  · intro ⟨other, kept, different, stored, same⟩
    refine ⟨other, kept, different, ?_, same⟩
    rw [Table.row_store_other db.profiles profile different]
    exact stored

/--
Whatever slugs are stored, the search ends with one slug, that no other
profile has, and once the profile is saved with it the search ends with it
again.
-/
theorem returnsSlug_fresh_and_stable
    (slugify : String → String) (displayName : String) (db : Db) :
    (∀ excludePk, ∃ slug,
      (∀ result, ReturnsSlug slugify displayName excludePk db result ↔
        result = slug) ∧
      ∀ other profile, some other ≠ excludePk →
        db.profiles.row other = some profile → profile.slug ≠ slug) ∧
    ∀ (user : UserId) (profile : ExpertProfile) (slug : String),
      ReturnsSlug slugify displayName (some user) db slug →
        ∀ result,
          ReturnsSlug slugify displayName (some user)
            ((Stmt.storeProfile user { profile with slug }).apply db) result ↔
            result = slug := by
  constructor
  · intro excludePk
    have returned :=
      returnsSlug_uniqueExpertSlug slugify displayName excludePk db
    refine ⟨_, fun result => ⟨fun other => other.unique returned, ?_⟩, ?_⟩
    · intro same
      subst same
      exact returned
    · intro other profile different stored same
      exact returned.free
        (mem_slugsBesides.mpr ⟨other, profile, different, stored, same⟩)
  · intro user profile slug returned result
    have again : ReturnsSlug slugify displayName (some user)
        ((Stmt.storeProfile user { profile with slug }).apply db) slug :=
      SlugSearch.Ends.congr
        (fun candidate =>
          (mem_otherSlugs_storeProfile user _ db candidate).symm)
        returned
    constructor
    · intro other
      exact other.unique again
    · intro same
      subst same
      exact again

end Experts

end KnowledgeMarketplace
