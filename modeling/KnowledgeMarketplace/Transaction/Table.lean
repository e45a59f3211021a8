import Mathlib.Data.List.Nodup

/-!
# Tables

A table maps keys to rows and lists its keys in the order of insertion.  Rows
are inserted and updated; none is deleted.
-/

namespace Transaction

/-- Rows by key, with every used key listed exactly once. -/
structure Table (κ ρ : Type) where
  row : κ → Option ρ
  keys : List κ
  nodup : keys.Nodup
  mem_keys : ∀ key, key ∈ keys ↔ (row key).isSome

namespace Table

variable {κ ρ : Type}

/-- The table without rows. -/
def empty : Table κ ρ where
  row := fun _ => none
  keys := []
  nodup := List.nodup_nil
  mem_keys := by simp

variable [DecidableEq κ]

/-- Add a row under an unused key; a used key keeps its row. -/
def insert (table : Table κ ρ) (key : κ) (value : ρ) : Table κ ρ :=
  if used : (table.row key).isSome then
    table
  else
    { row := fun query => if query = key then some value else table.row query
      keys := table.keys ++ [key]
      nodup := by
        have fresh : key ∉ table.keys := fun member =>
          used ((table.mem_keys key).mp member)
        simp only [List.nodup_append, List.nodup_cons, List.not_mem_nil,
          not_false_eq_true, List.nodup_nil, and_self, List.mem_singleton,
          forall_eq, true_and]
        exact ⟨table.nodup, fun other member same => fresh (same ▸ member)⟩
      mem_keys := by
        intro query
        by_cases same : query = key
        · simp [same]
        · simp [same, table.mem_keys] }

/-- Change the row of a key, if there is one. -/
def modify (table : Table κ ρ) (key : κ) (change : ρ → ρ) : Table κ ρ where
  row := fun query =>
    if query = key then (table.row query).map change else table.row query
  keys := table.keys
  nodup := table.nodup
  mem_keys := by
    intro query
    by_cases same : query = key <;> simp [same, table.mem_keys]

/-- Write a row under its key, used or not. -/
def store (table : Table κ ρ) (key : κ) (value : ρ) : Table κ ρ :=
  (table.insert key value).modify key fun _ => value

/-- Some row satisfies a predicate. -/
def any (table : Table κ ρ) (holds : κ → ρ → Bool) : Bool :=
  table.keys.any fun key => (table.row key).any (holds key)

/-- The keys whose rows satisfy a predicate, oldest first. -/
def select (table : Table κ ρ) (holds : κ → ρ → Bool) : List κ :=
  table.keys.filter fun key => (table.row key).any (holds key)

/-- What a function picks from the rows, oldest first. -/
def collect {β : Type} (table : Table κ ρ) (pick : ρ → Option β) : List β :=
  table.keys.filterMap fun key => (table.row key).bind pick

omit [DecidableEq κ] in
@[simp] theorem row_empty (key : κ) : (empty : Table κ ρ).row key = none :=
  rfl

theorem row_insert
    (table : Table κ ρ) (key query : κ) (value : ρ) :
    (table.insert key value).row query =
      if query = key ∧ table.row key = none then some value
      else table.row query := by
  unfold insert
  by_cases used : (table.row key).isSome
  · have present : table.row key ≠ none := by
      intro absent
      simp [absent] at used
    simp [used, present]
  · have absent : table.row key = none := by simpa using used
    simp [absent]

/-- Inserting under an unused key shows the new row there. -/
theorem row_insert_self
    {table : Table κ ρ} {key : κ} (value : ρ)
    (fresh : table.row key = none) :
    (table.insert key value).row key = some value := by
  simp [row_insert, fresh]

@[simp] theorem row_insert_other
    (table : Table κ ρ) {key query : κ} (value : ρ)
    (different : query ≠ key) :
    (table.insert key value).row query = table.row query := by
  simp [row_insert, different]

/-- An inserted table keeps every row it had. -/
theorem row_insert_of_some
    {table : Table κ ρ} {query : κ} {found : ρ} (key : κ) (value : ρ)
    (present : table.row query = some found) :
    (table.insert key value).row query = some found := by
  by_cases same : query = key
  · subst same
    simp [row_insert, present]
  · simp [same, present]

/-- A row after an insertion is the new one or an old one. -/
theorem row_insert_cases
    {table : Table κ ρ} {key query : κ} {value found : ρ}
    (present : (table.insert key value).row query = some found) :
    table.row query = some found ∨
      query = key ∧ found = value ∧ table.row key = none := by
  rw [row_insert] at present
  split at present
  · rename_i fresh
    exact .inr ⟨fresh.1, by simpa using present.symm, fresh.2⟩
  · exact .inl present

theorem row_modify
    (table : Table κ ρ) (key query : κ) (change : ρ → ρ) :
    (table.modify key change).row query =
      if query = key then (table.row query).map change
      else table.row query :=
  rfl

@[simp] theorem row_modify_self
    (table : Table κ ρ) (key : κ) (change : ρ → ρ) :
    (table.modify key change).row key = (table.row key).map change := by
  simp [row_modify]

@[simp] theorem row_modify_other
    (table : Table κ ρ) {key query : κ} (change : ρ → ρ)
    (different : query ≠ key) :
    (table.modify key change).row query = table.row query := by
  simp [row_modify, different]

/-- A change that leaves a column alone leaves it alone in every row. -/
theorem map_row_modify
    {β : Type} {column : ρ → β} {change : ρ → ρ}
    (same : ∀ row, column (change row) = column row)
    (table : Table κ ρ) (key query : κ) :
    ((table.modify key change).row query).map column =
      (table.row query).map column := by
  by_cases target : query = key
  · subst target
    cases found : table.row query <;> simp [found, same]
  · simp [target]

/-- A row after an update comes from the old row of the same key. -/
theorem row_modify_cases
    {table : Table κ ρ} {key query : κ} {change : ρ → ρ} {found : ρ}
    (present : (table.modify key change).row query = some found) :
    query ≠ key ∧ table.row query = some found ∨
      query = key ∧ ∃ old, table.row key = some old ∧ found = change old := by
  rw [row_modify] at present
  split at present
  · rename_i same
    subst same
    obtain ⟨old, stored, rfl⟩ := Option.map_eq_some_iff.mp present
    exact .inr ⟨rfl, old, stored, rfl⟩
  · rename_i different
    exact .inl ⟨different, present⟩

/-- Storing a row changes its key only. -/
theorem row_store
    (table : Table κ ρ) (key query : κ) (value : ρ) :
    (table.store key value).row query =
      if query = key then some value else table.row query := by
  rw [store, row_modify]
  split_ifs with same
  · subst same
    cases stored : table.row query with
    | none => rw [row_insert_self value stored, Option.map_some]
    | some found => rw [row_insert_of_some query value stored, Option.map_some]
  · exact row_insert_other table value same

@[simp] theorem row_store_self (table : Table κ ρ) (key : κ) (value : ρ) :
    (table.store key value).row key = some value := by
  simp [row_store]

@[simp] theorem row_store_other
    (table : Table κ ρ) {key query : κ} (value : ρ)
    (different : query ≠ key) :
    (table.store key value).row query = table.row query := by
  simp [row_store, different]

/-- Every row satisfies a predicate. -/
def All (table : Table κ ρ) (holds : ρ → Prop) : Prop :=
  ∀ key value, table.row key = some value → holds value

theorem All.insert
    {table : Table κ ρ} {holds : ρ → Prop} {value : ρ}
    (all : table.All holds) (key : κ) (fine : holds value) :
    (table.insert key value).All holds := by
  intro query found present
  rcases row_insert_cases present with old | ⟨-, rfl, -⟩
  · exact all query found old
  · exact fine

theorem All.modify
    {table : Table κ ρ} {holds : ρ → Prop} {change : ρ → ρ}
    (all : table.All holds) (key : κ)
    (keeps : ∀ stored, holds stored → holds (change stored)) :
    (table.modify key change).All holds := by
  intro query found present
  rcases row_modify_cases present with ⟨-, old⟩ | ⟨-, old, stored, rfl⟩
  · exact all query found old
  · exact keeps old (all key old stored)

omit [DecidableEq κ] in
/-- `any` finds a row exactly when there is one. -/
theorem any_eq_true
    {table : Table κ ρ} {holds : κ → ρ → Bool} :
    table.any holds = true ↔
      ∃ key value, table.row key = some value ∧ holds key value = true := by
  simp only [any, List.any_eq_true]
  constructor
  · rintro ⟨key, member, found⟩
    cases present : table.row key with
    | none => simp [present] at found
    | some value => exact ⟨key, value, present, by simpa [present] using found⟩
  · rintro ⟨key, value, present, found⟩
    exact ⟨key, (table.mem_keys key).mpr (by simp [present]),
      by simpa [present] using found⟩

omit [DecidableEq κ] in
theorem any_eq_false
    {table : Table κ ρ} {holds : κ → ρ → Bool} :
    table.any holds = false ↔
      ∀ key value, table.row key = some value → holds key value = false := by
  rw [← Bool.not_eq_true, any_eq_true]
  simp

omit [DecidableEq κ] in
/-- `select` lists the keys of the rows that satisfy the predicate. -/
theorem mem_select
    {table : Table κ ρ} {holds : κ → ρ → Bool} {key : κ} :
    key ∈ table.select holds ↔
      ∃ value, table.row key = some value ∧ holds key value = true := by
  simp only [select, List.mem_filter, table.mem_keys]
  cases table.row key <;> simp

/-! ## Collecting from rows -/

section Collect

variable {β : Type} {pick : ρ → Option β} {table : Table κ ρ} {key : κ}

omit [DecidableEq κ] in
@[simp] theorem collect_empty :
    (empty : Table κ ρ).collect pick = [] :=
  rfl

/-- An inserted row from which something is picked adds it at the end. -/
theorem collect_insert
    {value : ρ} (fresh : table.row key = none) :
    (table.insert key value).collect pick =
      table.collect pick ++ (pick value).toList := by
  have absent : key ∉ table.keys := by simp [table.mem_keys, fresh]
  have old : table.keys.filterMap
      (fun query => ((table.insert key value).row query).bind pick) =
      table.collect pick := by
    refine List.filterMap_congr fun query member => ?_
    have different : query ≠ key := fun same => absent (same ▸ member)
    simp [different]
  have keys : (table.insert key value).keys = table.keys ++ [key] := by
    simp [insert, fresh]
  rw [collect, keys, List.filterMap_append, old]
  cases picked : pick value <;> simp [row_insert, fresh, picked]

/-- An inserted row from which nothing is picked changes nothing. -/
theorem collect_insert_of_none
    {value : ρ} (nothing : pick value = none) :
    (table.insert key value).collect pick = table.collect pick := by
  cases found : table.row key with
  | none => simp [collect_insert found, nothing]
  | some old => simp [insert, found]

/-- An update that changes nothing that is picked. -/
theorem collect_modify
    {change : ρ → ρ}
    (same : ∀ old, table.row key = some old → pick (change old) = pick old) :
    (table.modify key change).collect pick = table.collect pick := by
  refine List.filterMap_congr fun query _ => ?_
  by_cases target : query = key
  · subst target
    cases found : table.row query with
    | none => simp [found]
    | some old => simp [found, same old found]
  · simp [target]

omit [DecidableEq κ] in
/-- Picking something new at one place of a list without duplicates. -/
private theorem filterMap_perm
    (key : κ) {before after : κ → Option β} {added : β} {keys : List κ}
    (nodup : keys.Nodup) (member : key ∈ keys)
    (nothing : before key = none) (something : after key = some added)
    (elsewhere : ∀ query, query ≠ key → after query = before query) :
    (keys.filterMap after).Perm (added :: keys.filterMap before) := by
  induction keys with
  | nil => simp at member
  | cons first rest inductionHypothesis =>
      -- the changed place is the head, or in the rest
      obtain ⟨absent, nodupRest⟩ := List.nodup_cons.mp nodup
      rcases List.mem_cons.mp member with rfl | later
      · have rest : rest.filterMap after = rest.filterMap before :=
          List.filterMap_congr fun query inside =>
            elsewhere query fun same => absent (same ▸ inside)
        simp [nothing, something, rest]
      · have different : first ≠ key := fun same => absent (same ▸ later)
        have tail := inductionHypothesis nodupRest later
        cases picked : before first with
        | none => simpa [elsewhere first different, picked] using tail
        | some value =>
            simp only [List.filterMap_cons, elsewhere first different, picked]
            exact (tail.cons value).trans (List.Perm.swap added value _)

/-- An update after which a row is picked from that was not before. -/
theorem collect_modify_perm
    {change : ρ → ρ} {old : ρ} {added : β}
    (found : table.row key = some old) (nothing : pick old = none)
    (something : pick (change old) = some added) :
    ((table.modify key change).collect pick).Perm
      (added :: table.collect pick) := by
  have member : key ∈ table.keys := (table.mem_keys key).mpr (by simp [found])
  refine filterMap_perm key table.nodup member ?_ ?_ ?_
  · simp [found, nothing]
  · simp [found, something]
  · intro query different
    rw [row_modify_other table change different]

end Collect

/-! ## Counting rows -/

section Count

variable {table : Table κ ρ} {key : κ}

/-- The number of rows that satisfy a predicate. -/
def count (table : Table κ ρ) (holds : ρ → Bool) : Nat :=
  (table.select fun _ => holds).length

/-- An inserted row counts if it satisfies the predicate. -/
theorem count_insert
    {value : ρ} (holds : ρ → Bool) (fresh : table.row key = none) :
    (table.insert key value).count holds =
      table.count holds + if holds value then 1 else 0 := by
  have absent : key ∉ table.keys := by simp [table.mem_keys, fresh]
  have keys : (table.insert key value).keys = table.keys ++ [key] := by
    simp [insert, fresh]
  have old : table.keys.filter
      (fun query => ((table.insert key value).row query).any holds) =
      table.select fun _ => holds := by
    refine List.filter_congr fun query member => ?_
    have different : query ≠ key := fun same => absent (same ▸ member)
    simp [different]
  rw [count, select, keys, List.filter_append, old, List.length_append]
  by_cases fine : holds value = true <;>
    simp [row_insert_self value fresh, fine, count]

/-- A changed row counts as it did before, or as it does now. -/
theorem count_modify
    {change : ρ → ρ} {old : ρ} (holds : ρ → Bool)
    (found : table.row key = some old) :
    (table.modify key change).count holds + (if holds old then 1 else 0) =
      table.count holds + if holds (change old) then 1 else 0 := by
  have member : key ∈ table.keys := (table.mem_keys key).mpr (by simp [found])
  have split : ∀ wanted : κ → Bool, (table.keys.filter wanted).length =
      ((table.keys.erase key).filter wanted).length +
        if wanted key then 1 else 0 := by
    intro wanted
    have perm := (List.perm_cons_erase member).filter wanted
    rw [perm.length_eq]
    by_cases fine : wanted key = true <;> simp [fine]
  have others : (table.keys.erase key).filter
      (fun query => ((table.modify key change).row query).any holds) =
      (table.keys.erase key).filter fun query =>
        (table.row query).any holds := by
    refine List.filter_congr fun query inside => ?_
    have different : query ≠ key := ((table.nodup.mem_erase_iff).mp inside).1
    simp [different]
  have after : (table.modify key change).count holds = _ := split fun query =>
    ((table.modify key change).row query).any holds
  have before : table.count holds = _ := split fun query =>
    (table.row query).any holds
  rw [others, row_modify_self, found, Option.map_some, Option.any_some] at after
  rw [found, Option.any_some] at before
  omega

end Count

end Table

end Transaction
