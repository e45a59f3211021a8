import KnowledgeMarketplace.Transaction.Table

/-!
# Taxonomy

Categories, subjects, skills and tags are terms of one list.  A slug is unique
among the terms of its kind only.
-/

namespace KnowledgeMarketplace

open Transaction

namespace Experts

abbrev TermId := Int

inductive TermKind where
  | category
  | subject
  | skill
  | tag
  deriving DecidableEq

structure TaxonomyTerm where
  kind : TermKind
  name : String
  slug : String
  parent : Option TermId := none
  isActive : Bool := true
  deriving DecidableEq

/-- The terms; every save gives a term a slug, which its kind has only once. -/
structure Taxonomy where
  terms : Table TermId TaxonomyTerm := .empty
  named : ∀ id term, terms.row id = some term → term.slug ≠ ""
  distinct : ∀ first second term other, terms.row first = some term →
    terms.row second = some other → term.kind = other.kind →
      term.slug = other.slug → first = second

end Experts

end KnowledgeMarketplace
