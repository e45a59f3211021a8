import KnowledgeMarketplace.Accounts.Database
import KnowledgeMarketplace.Experts.Database
import KnowledgeMarketplace.Experts.Taxonomy
import Mathlib.Data.List.Dedup
import Mathlib.Data.List.Sort

/-!
# Experts by subject

Three readers tell how many experts teach a subject: its page, the list of all
subjects and the directory.  The page and the directory look the terms of a
profile up by their slug, the list by the subject itself.
-/

namespace KnowledgeMarketplace

open Transaction

namespace Experts

/-- What the directory reads of a profile. -/
structure Listing where
  displayName : String := ""
  headline : String := ""
  bio : String := ""
  expertiseSummary : String := ""
  isPublic : Bool := true
  ratingAvg : Option Int := none

/-- Profiles with their users and applications, and the terms they link to. -/
structure Catalog where
  accounts : Accounts.Db
  applications : Table UserId ExpertApplication
  profiles : Table UserId Listing
  taxonomy : Taxonomy
  subjects : List (UserId × TermId) := []
  skills : List (UserId × TermId) := []

/-- How the database compares texts, and what a text says of a rating. -/
structure Lookups where
  icontains : String → String → Bool
  precedes : String → String → Bool
  atLeast : String → Option (Int → Bool)

namespace Catalog

/-! ## The directory -/

/-- Public profiles of active users whose application is approved. -/
def directoryQueryset (catalog : Catalog) : List UserId :=
  catalog.profiles.select fun user profile =>
    profile.isPublic &&
      (catalog.applications.row user).any (·.status = .approved) &&
      (catalog.accounts.users.row user).any (·.isActive)

/-- The term has this slug. -/
def hasSlug (catalog : Catalog) (slug : String) (term : TermId) : Bool :=
  (catalog.taxonomy.terms.row term).any (·.slug = slug)

/-- The join with the terms of a slug: a row for every link to one of them. -/
def joinedBy
    (catalog : Catalog) (links : List (UserId × TermId)) (slug : String)
    (experts : List UserId) : List UserId :=
  experts.flatMap fun expert =>
    (links.filter fun link =>
      link.1 = expert && catalog.hasSlug slug link.2).map Prod.fst

/-- The parameters of the directory. -/
structure Filters where
  q : Option String := none
  subject : Option String := none
  skill : Option String := none
  ratingMin : Option String := none

/-- A parameter that is given and not empty. -/
def given (parameter : Option String) : Option String :=
  parameter.filter (· ≠ "")

/-- The text search over a profile. -/
def matchesText (lookups : Lookups) (text : String) (profile : Listing) :
    Bool :=
  lookups.icontains profile.displayName text ||
    lookups.icontains profile.headline text ||
    lookups.icontains profile.bio text ||
    lookups.icontains profile.expertiseSummary text

/-- The experts that the directory lists, before they are paginated. -/
def expertDirectory
    (lookups : Lookups) (filters : Filters) (catalog : Catalog) :
    Except DomainError (List UserId) := do
  let mut experts := catalog.directoryQueryset
  if let some text := given filters.q then
    experts := experts.filter fun expert =>
      (catalog.profiles.row expert).any (matchesText lookups text)
  if let some slug := given filters.subject then
    experts := catalog.joinedBy catalog.subjects slug experts
  if let some slug := given filters.skill then
    experts := catalog.joinedBy catalog.skills slug experts
  if let some text := given filters.ratingMin then
    match lookups.atLeast text with
    | none =>
        throw
          { message := "rating_min must be a number."
            code := "validation_error" }
    | some atLeast =>
        experts := experts.filter fun expert =>
          (catalog.profiles.row expert).any fun profile =>
            profile.ratingAvg.any atLeast
  return experts.dedup

/-! ## Subject pages -/

def relatedSubjectLimit : Nat := 8

def subjectExpertCount (slug : String) (catalog : Catalog) : Nat :=
  let experts :=
    catalog.joinedBy catalog.subjects slug catalog.directoryQueryset
  experts.dedup.length

/-- The terms in the order of their names. -/
def orderByName
    (lookups : Lookups) (catalog : Catalog) (terms : List TermId) :
    List TermId :=
  let name := fun term => (catalog.taxonomy.terms.row term).elim "" (·.name)
  terms.insertionSort fun first second =>
    lookups.precedes (name first) (name second) = true

/-- The active subjects. -/
def activeSubjects (catalog : Catalog) : List TermId :=
  catalog.taxonomy.terms.select fun _ term =>
    term.kind = .subject && term.isActive

/-- The page of a subject. -/
structure SubjectPage where
  subject : TermId
  parent : Option TermId
  expertCount : Nat
  related : List TermId
  deriving DecidableEq

def getPublicSubject
    (lookups : Lookups) (slug : String) (catalog : Catalog) :
    Except DomainError SubjectPage := do
  let isActive := fun term =>
    (catalog.taxonomy.terms.row term).any (·.isActive)
  let parentOf := fun term =>
    (catalog.taxonomy.terms.row term).bind (·.parent)
  match catalog.taxonomy.terms.select fun _ term =>
      term.kind = .subject && term.slug = slug && term.isActive with
  | [] =>
      throw
        { message := "Subject not found."
          code := "subject_not_found"
          statusCode := 404 }
  | subject :: _ =>
      let siblings := catalog.activeSubjects.filter (· ≠ subject)
      let nearby :=
        match parentOf subject with
        | some parent => siblings.filter fun term => parentOf term = some parent
        | none => siblings
      let related :=
        (catalog.orderByName lookups nearby).take relatedSubjectLimit
      let related :=
        if related = [] then
          (catalog.orderByName lookups siblings).take relatedSubjectLimit
        else
          related
      return {
        subject
        parent := (parentOf subject).filter isActive
        expertCount := catalog.subjectExpertCount slug
        related }

/-- A subject with the number of its experts. -/
structure SubjectItem where
  term : TermId
  expertCount : Nat
  deriving DecidableEq

/-- The rule of the directory, as the list of subjects repeats it. -/
def approved (catalog : Catalog) (expert : UserId) : Bool :=
  (catalog.profiles.row expert).any (·.isPublic) &&
    (catalog.accounts.users.row expert).any (·.isActive) &&
    (catalog.applications.row expert).any (·.status = .approved)

def listPublicSubjects (lookups : Lookups) (catalog : Catalog) :
    List SubjectItem :=
  (catalog.orderByName lookups catalog.activeSubjects).map fun term =>
    { term
      expertCount :=
        let joined := catalog.subjects.filter fun link =>
          link.2 = term && catalog.approved link.1
        (joined.map Prod.fst).dedup.length }

end Catalog

/-! ## When the readers agree -/

/-- All three say that the subject has this many experts. -/
structure SubjectCount
    (lookups : Lookups) (catalog : Catalog) (subject : TermId) (slug : String)
    (count : Nat) : Prop where
  page : ∃ page, catalog.getPublicSubject lookups slug = .ok page ∧
    page.subject = subject ∧ page.expertCount = count
  item : ∀ other, { term := subject, expertCount := other } ∈
    catalog.listPublicSubjects lookups ↔ other = count
  directory : ∃ experts,
    catalog.expertDirectory lookups { subject := some slug } = .ok experts ∧
      experts.length = count

/-- An expert in the directory with a term of this slug has the subject. -/
def Distinguished (catalog : Catalog) (subject : TermId) (slug : String) :
    Prop :=
  ∀ expert ∈ catalog.directoryQueryset, ∀ term,
    (expert, term) ∈ catalog.subjects → catalog.hasSlug slug term = true →
      (expert, subject) ∈ catalog.subjects

/-! ## Counting experts -/

variable {lookups : Lookups} {catalog : Catalog}

namespace Catalog

/-- The second copy of the visibility rule is the first one. -/
theorem approved_iff {expert : UserId} :
    catalog.approved expert = true ↔ expert ∈ catalog.directoryQueryset := by
  rw [directoryQueryset, Table.mem_select, approved]
  cases stored : catalog.profiles.row expert with
  | none => simp
  | some profile =>
      simp only [Option.any_some, Bool.and_eq_true, Option.some.injEq,
        exists_eq_left']
      tauto

/-- The join has the experts that link to a term of the slug. -/
theorem mem_joinedBy
    {links : List (UserId × TermId)} {slug : String} {experts : List UserId}
    {expert : UserId} :
    expert ∈ catalog.joinedBy links slug experts ↔
      expert ∈ experts ∧
        ∃ term, (expert, term) ∈ links ∧ catalog.hasSlug slug term = true := by
  simp only [joinedBy, List.mem_flatMap, List.mem_map, List.mem_filter,
    Bool.and_eq_true, decide_eq_true_eq]
  constructor
  · rintro ⟨owner, listed, ⟨_, term⟩, ⟨link, rfl, named⟩, rfl⟩
    exact ⟨listed, term, link, named⟩
  · rintro ⟨listed, term, link, named⟩
    exact ⟨expert, listed, (expert, term), ⟨link, rfl, named⟩, rfl⟩

/-- The experts whom the page of a slug counts. -/
def expertsBySlug (catalog : Catalog) (slug : String) : List UserId :=
  (catalog.joinedBy catalog.subjects slug catalog.directoryQueryset).dedup

/-- The experts whom the list counts for a subject. -/
def expertsBySubject (catalog : Catalog) (subject : TermId) : List UserId :=
  ((catalog.subjects.filter fun link =>
    link.2 = subject && catalog.approved link.1).map Prod.fst).dedup

theorem mem_expertsBySlug {slug : String} {expert : UserId} :
    expert ∈ catalog.expertsBySlug slug ↔
      expert ∈ catalog.directoryQueryset ∧
        ∃ term, (expert, term) ∈ catalog.subjects ∧
          catalog.hasSlug slug term = true := by
  rw [expertsBySlug, List.mem_dedup, mem_joinedBy]

theorem mem_expertsBySubject {subject : TermId} {expert : UserId} :
    expert ∈ catalog.expertsBySubject subject ↔
      expert ∈ catalog.directoryQueryset ∧
        (expert, subject) ∈ catalog.subjects := by
  simp only [expertsBySubject, List.mem_dedup, List.mem_map, List.mem_filter,
    Bool.and_eq_true, decide_eq_true_eq, approved_iff]
  constructor
  · rintro ⟨⟨_, _⟩, ⟨link, rfl, listed⟩, rfl⟩
    exact ⟨listed, link⟩
  · rintro ⟨listed, link⟩
    exact ⟨(expert, subject), ⟨link, rfl, listed⟩, rfl⟩

/-- The experts of a subject are among those of its slug. -/
theorem expertsBySubject_subset
    {subject : TermId} {slug : String}
    (named : catalog.hasSlug slug subject = true) :
    catalog.expertsBySubject subject ⊆ catalog.expertsBySlug slug := by
  intro expert member
  obtain ⟨listed, link⟩ := mem_expertsBySubject.mp member
  exact mem_expertsBySlug.mpr ⟨listed, subject, link, named⟩

/-- The counts agree if nobody is listed for the slug of another term only. -/
theorem length_expertsBySubject_iff
    {subject : TermId} {slug : String}
    (named : catalog.hasSlug slug subject = true) :
    (catalog.expertsBySubject subject).length =
        (catalog.expertsBySlug slug).length ↔
      Distinguished catalog subject slug := by
  have within : (catalog.expertsBySubject subject).Subperm
      (catalog.expertsBySlug slug) :=
    List.subperm_of_subset (List.nodup_dedup _)
      (expertsBySubject_subset named)
  constructor
  · intro same expert listed term link slugged
    have whole := within.perm_of_length_le same.ge
    have member := whole.mem_iff.mpr
      (mem_expertsBySlug.mpr ⟨listed, term, link, slugged⟩)
    exact (mem_expertsBySubject.mp member).2
  · intro distinguished
    have back : catalog.expertsBySlug slug ⊆
        catalog.expertsBySubject subject := by
      intro expert member
      obtain ⟨listed, term, link, slugged⟩ := mem_expertsBySlug.mp member
      exact mem_expertsBySubject.mpr
        ⟨listed, distinguished expert listed term link slugged⟩
    exact le_antisymm within.length_le
      (List.subperm_of_subset (List.nodup_dedup _) back).length_le

/-! ## The three readers -/

/-- The directory lists the experts of the slug. -/
theorem expertDirectory_subject {slug : String} (filled : slug ≠ "") :
    catalog.expertDirectory lookups { subject := some slug } =
      .ok (catalog.expertsBySlug slug) := by
  have present : given (some slug) = some slug := by
    simp [given, Option.filter, filled]
  simp only [expertDirectory, present]
  rfl

/-- A slug names one subject. -/
theorem select_subject
    {subject : TermId} {term : TaxonomyTerm}
    (stored : catalog.taxonomy.terms.row subject = some term)
    (kind : term.kind = .subject) (active : term.isActive = true) :
    (catalog.taxonomy.terms.select fun _ other =>
      other.kind = .subject && other.slug = term.slug && other.isActive) =
      [subject] := by
  refine List.perm_singleton.mp ?_
  refine (List.perm_ext_iff_of_nodup
    (catalog.taxonomy.terms.nodup.filter _) (List.nodup_singleton _)).mpr ?_
  intro key
  rw [← Table.select, Table.mem_select, List.mem_singleton]
  constructor
  · rintro ⟨other, found, fits⟩
    simp only [Bool.and_eq_true, decide_eq_true_eq] at fits
    exact catalog.taxonomy.distinct key subject other term found stored
      (fits.1.1.trans kind.symm) fits.1.2
  · rintro rfl
    exact ⟨term, stored, by simp [kind, active]⟩

/-- The page counts the experts of the slug. -/
theorem getPublicSubject_count
    (lookups : Lookups) {subject : TermId} {term : TaxonomyTerm}
    (stored : catalog.taxonomy.terms.row subject = some term)
    (kind : term.kind = .subject) (active : term.isActive = true) :
    ∃ page, catalog.getPublicSubject lookups term.slug = .ok page ∧
      page.subject = subject ∧
        page.expertCount = (catalog.expertsBySlug term.slug).length := by
  simp only [getPublicSubject, select_subject stored kind active]
  exact ⟨_, rfl, rfl, rfl⟩

/-- The list has every active subject with its own experts. -/
theorem mem_listPublicSubjects
    {subject : TermId} {term : TaxonomyTerm}
    (stored : catalog.taxonomy.terms.row subject = some term)
    (kind : term.kind = .subject) (active : term.isActive = true)
    (count : Nat) :
    { term := subject, expertCount := count } ∈
        catalog.listPublicSubjects lookups ↔
      count = (catalog.expertsBySubject subject).length := by
  have listed : subject ∈ catalog.activeSubjects :=
    Table.mem_select.mpr ⟨term, stored, by simp [kind, active]⟩
  simp only [listPublicSubjects, orderByName, List.mem_map,
    List.mem_insertionSort, SubjectItem.mk.injEq]
  constructor
  · rintro ⟨_, _, rfl, rfl⟩
    rfl
  · rintro rfl
    exact ⟨subject, listed, rfl, rfl⟩

end Catalog

/--
The page of an active subject, the list of subjects and the directory count the
same experts if and only if every visible expert with a term of the subject's
slug has the subject itself.
-/
theorem subjectCount_iff
    (lookups : Lookups) (catalog : Catalog) (subject : TermId)
    (term : TaxonomyTerm)
    (stored : catalog.taxonomy.terms.row subject = some term)
    (kind : term.kind = .subject) (active : term.isActive = true) :
    (∃ count, SubjectCount lookups catalog subject term.slug count) ↔
      Distinguished catalog subject term.slug := by
  have named : catalog.hasSlug term.slug subject = true := by
    simp [Catalog.hasSlug, stored]
  have filled := catalog.taxonomy.named subject term stored
  obtain ⟨page, opened, isSubject, counted⟩ :=
    Catalog.getPublicSubject_count lookups stored kind active
  rw [← Catalog.length_expertsBySubject_iff named]
  constructor
  · rintro ⟨count, agreed⟩
    obtain ⟨_, found, _, pageCount⟩ := agreed.page
    obtain rfl := Except.ok.inj (opened.symm.trans found)
    have itemCount := (Catalog.mem_listPublicSubjects stored kind active
      count).mp ((agreed.item count).mpr rfl)
    rw [← itemCount, ← counted, pageCount]
  · intro same
    refine ⟨(catalog.expertsBySlug term.slug).length,
      ⟨page, opened, isSubject, counted⟩, fun other => ?_, _,
      Catalog.expertDirectory_subject filled, rfl⟩
    rw [Catalog.mem_listPublicSubjects stored kind active, same]

/-- A category and a subject of one name. -/
def homonyms : Taxonomy where
  terms :=
    (Table.insert .empty 7
      { kind := .subject, name := "Statistics", slug := "statistics" }).insert 8
      { kind := .category, name := "Statistics", slug := "statistics" }
  named := by
    intro id term stored
    rcases Table.row_insert_cases stored with old | ⟨_, rfl, _⟩
    · rcases Table.row_insert_cases old with none | ⟨_, rfl, _⟩
      · exact nomatch none
      · decide
    · decide
  distinct := by
    intro first second term other one two kinds _
    rcases Table.row_insert_cases one with one | ⟨rfl, rfl, _⟩ <;>
      rcases Table.row_insert_cases two with two | ⟨rfl, rfl, _⟩
    · rcases Table.row_insert_cases one with none | ⟨rfl, _, _⟩
      · exact nomatch none
      · rcases Table.row_insert_cases two with none | ⟨rfl, _, _⟩
        · exact nomatch none
        · rfl
    · rcases Table.row_insert_cases one with none | ⟨rfl, rfl, _⟩
      · exact nomatch none
      · exact nomatch kinds
    · rcases Table.row_insert_cases two with none | ⟨rfl, rfl, _⟩
      · exact nomatch none
      · exact nomatch kinds
    · rfl

/-- A visible expert with one of the terms. -/
def advertised (term : TermId) : Catalog where
  accounts :=
    { users :=
        .insert .empty 1 { email := "expert@demo.local", password := "" } }
  applications := .insert .empty 1 { content := {}, status := .approved }
  profiles := .insert .empty 1 { displayName := "A. Iqbal" }
  taxonomy := homonyms
  subjects := [(1, term)]

def exactLookups : Lookups where
  icontains text part := text = part
  precedes first second := first ≤ second
  atLeast _ := none

/-- The readers agree on an expert who has the subject. -/
theorem subjectCount_subject :
    ∃ count, SubjectCount exactLookups (advertised 7) 7 "statistics" count :=
  (subjectCount_iff exactLookups (advertised 7) 7
    { kind := .subject, name := "Statistics", slug := "statistics" } rfl rfl
    rfl).mpr fun _ _ _ link _ => by
      obtain ⟨rfl, _⟩ := Prod.mk.inj (List.mem_singleton.mp link)
      exact List.mem_singleton.mpr rfl

/-- The page and the directory count an expert whom the list leaves out. -/
theorem category_countedBySlug :
    (advertised 8).getPublicSubject exactLookups "statistics" =
        .ok { subject := 7, parent := none, expertCount := 1, related := [] } ∧
      (advertised 8).expertDirectory exactLookups
          { subject := some "statistics" } = .ok [1] ∧
      (advertised 8).listPublicSubjects exactLookups =
        [{ term := 7, expertCount := 0 }] ∧
      ¬∃ count, SubjectCount exactLookups (advertised 8) 7 "statistics"
        count := by
  have page : (advertised 8).getPublicSubject exactLookups "statistics" =
      .ok { subject := 7, parent := none, expertCount := 1, related := [] } :=
    rfl
  have items : (advertised 8).listPublicSubjects exactLookups =
      [{ term := 7, expertCount := 0 }] :=
    rfl
  refine ⟨page, rfl, items, ?_⟩
  rintro ⟨count, agreed⟩
  obtain ⟨_, opened, _, counted⟩ := agreed.page
  obtain rfl := Except.ok.inj (page.symm.trans opened)
  have listed := (agreed.item count).mpr rfl
  rw [items, ← counted] at listed
  simp at listed

end Experts

end KnowledgeMarketplace
