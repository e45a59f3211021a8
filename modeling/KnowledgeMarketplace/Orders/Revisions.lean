import KnowledgeMarketplace.Database.Rows

/-!
# The revision loop of an order

Deliveries and revision requests take turns.  The number of the next delivery
is taken from the status and a counter, not from the deliveries; in every
sound loop it is the first number that is not used.
-/

namespace KnowledgeMarketplace

/-- Keys carry the numbers below `count`, each exactly once. -/
structure Numbered {κ : Type} (numbers : κ → Option Nat) (count : Nat) :
    Prop where
  below : ∀ key number, numbers key = some number → number < count
  every : ∀ number, number < count → ∃ key, numbers key = some number
  unique : ∀ first second number,
    numbers first = some number → numbers second = some number → first = second

namespace Numbered

variable {κ : Type} {numbers : κ → Option Nat} {count : Nat}

theorem empty {numbers : κ → Option Nat} (none : ∀ key, numbers key = none) :
    Numbered numbers 0 where
  below key number found := by simp [none] at found
  every number small := absurd small (Nat.not_lt_zero number)
  unique first second number found := by simp [none] at found

/-- A new key takes the next number. -/
theorem add [DecidableEq κ]
    {key : κ} (numbered : Numbered numbers count) (fresh : numbers key = none) :
    Numbered (Function.update numbers key (some count)) (count + 1) := by
  refine ⟨fun other number found => ?_, fun number small => ?_,
    fun first second number found same => ?_⟩
  · rw [Function.update_apply] at found
    split_ifs at found with here
    · obtain rfl := Option.some.inj found
      exact Nat.lt_succ_self _
    · exact Nat.lt_succ_of_lt (numbered.below other number found)
  · rcases Nat.lt_succ_iff_lt_or_eq.mp small with earlier | rfl
    · obtain ⟨other, found⟩ := numbered.every number earlier
      have different : other ≠ key := by
        rintro rfl
        simp [fresh] at found
      exact ⟨other, by rw [Function.update_of_ne different, found]⟩
    · exact ⟨key, Function.update_self key _ _⟩
  · have last : ∀ other, numbers other ≠ some count := fun other found =>
      absurd (numbered.below other count found) (Nat.lt_irrefl count)
    rw [Function.update_apply] at found same
    split_ifs at found same with here there there
    · exact here.trans there.symm
    · exact absurd (Option.some.inj found ▸ same) (last second)
    · exact absurd (Option.some.inj same ▸ found) (last first)
    · exact numbered.unique first second number found same

/-- The highest number is the last one. -/
theorem latest
    {key : κ} {number : Nat} (numbered : Numbered numbers count)
    (found : numbers key = some number)
    (highest : ∀ other later, numbers other = some later → later ≤ number) :
    number + 1 = count := by
  have small := numbered.below key number found
  obtain ⟨other, last⟩ := numbered.every (count - 1) (by omega)
  have bound := highest other (count - 1) last
  omega

end Numbered

namespace Orders

/-- The deliveries of an order: revision number and status by key. -/
abbrev Filed := DeliveryId → Option (Nat × DeliveryStatus)

/-- The revision numbers of the deliveries. -/
def numbers (filed : Filed) (key : DeliveryId) : Option Nat :=
  (filed key).map Prod.fst

/-- A delivery that is filed or changed has its number. -/
theorem numbers_update
    (filed : Filed) (key : DeliveryId) (number : Nat) (status : DeliveryStatus) :
    numbers (Function.update filed key (some (number, status))) =
      Function.update (numbers filed) key (some number) := by
  funext other
  by_cases here : other = key
  · subst here
    simp [numbers]
  · simp [Function.update_of_ne here, numbers]

/-- The last of `count` deliveries has this status. -/
def Latest (filed : Filed) (count : Nat) (status : DeliveryStatus) : Prop :=
  ∀ key number current, filed key = some (number, current) →
    number + 1 = count → current = status

/-- The columns of an order, its dispute and its deliveries that take part. -/
structure Loop where
  status : OrderStatus
  revisionsUsed : Nat
  revisionsAllowed : Nat
  prior : Option OrderStatus
  filed : Filed

namespace Loop

/-- How many deliveries there are in a status, and what became of the last. -/
def Fits (loop : Loop) (count : Nat) : OrderStatus → Prop
  | .awaitingPayment | .active => count = 0 ∧ loop.revisionsUsed = 0
  | .delivered =>
      count = loop.revisionsUsed + 1 ∧ Latest loop.filed count .submitted
  | .revisionRequested =>
      count = loop.revisionsUsed ∧ Latest loop.filed count .revisionRequested
  | .completed | .cancelled | .disputed => True

/-- A loop with `count` deliveries; a disputed one fits its earlier status. -/
structure Counted (loop : Loop) (count : Nat) : Prop where
  numbered : Numbered (numbers loop.filed) count
  bounded : loop.revisionsUsed ≤ loop.revisionsAllowed
  fits : loop.Fits count loop.status
  suspended : loop.status = .disputed → ∀ prior, loop.prior = some prior →
    loop.Fits count prior

/-- The deliveries of the loop and its status tell the same. -/
def Sound (loop : Loop) : Prop :=
  ∃ count, loop.Counted count

/-- The number of the next delivery, as the service takes it. -/
def nextNumber (loop : Loop) : Nat :=
  if loop.status = .revisionRequested then loop.revisionsUsed else 0

/-- One step of the loop. -/
inductive Step : Loop → Loop → Prop where
  | pay {loop : Loop} : loop.status = .awaitingPayment →
      Step loop { loop with status := .active }
  | deliver {loop : Loop} {key : DeliveryId} :
      loop.status = .active ∨ loop.status = .revisionRequested →
      loop.filed key = none →
      Step loop
        { loop with
          status := .delivered
          filed := Function.update loop.filed key
            (some (loop.nextNumber, .submitted)) }
  | revise {loop : Loop} {key : DeliveryId} {number : Nat}
      {status : DeliveryStatus} :
      loop.status = .delivered → loop.revisionsUsed < loop.revisionsAllowed →
      loop.filed key = some (number, status) →
      (∀ other later, numbers loop.filed other = some later →
        later ≤ number) →
      Step loop
        { loop with
          status := .revisionRequested
          revisionsUsed := loop.revisionsUsed + 1
          filed := Function.update loop.filed key
            (some (number, .revisionRequested)) }
  | finish {loop : Loop} {toStatus : OrderStatus} {filed : Filed} :
      toStatus = .completed ∨ toStatus = .cancelled →
      numbers filed = numbers loop.filed →
      Step loop { loop with status := toStatus, filed }
  | suspend {loop : Loop} : loop.prior = none →
      Step loop { loop with status := .disputed, prior := some loop.status }
  | resume {loop : Loop} {prior : OrderStatus} :
      loop.status = .disputed → loop.prior = some prior →
      Step loop { loop with status := prior }

/-- The next delivery gets the first number that is not used. -/
theorem Counted.next
    {loop : Loop} {count : Nat} (counted : loop.Counted count)
    (working : loop.status = .active ∨ loop.status = .revisionRequested) :
    loop.nextNumber = count := by
  have fits := counted.fits
  rcases working with status | status <;>
    simp_all [Fits, nextNumber]

/-- Every step of a sound loop leads to a sound loop. -/
theorem Sound.step
    {loop later : Loop} (sound : loop.Sound) (step : Step loop later) :
    later.Sound := by
  obtain ⟨count, counted⟩ := sound
  have fits := counted.fits
  cases step with
  | pay waiting =>
      rw [waiting] at fits
      exact ⟨count, counted.numbered, counted.bounded, fits, nofun⟩
  | @deliver key working fresh =>
      have next := counted.next working
      refine ⟨count + 1, ?_, counted.bounded, ⟨?_, ?_⟩, nofun⟩
      · rw [next, numbers_update]
        exact counted.numbered.add (by simp [numbers, fresh])
      · rcases working with status | status <;> rw [status] at fits
        · simp [fits.1, fits.2]
        · simp [fits.1]
      · intro other number current found last
        dsimp only at found
        by_cases here : other = key
        · subst here
          simp only [Function.update_self, Option.some.injEq, Prod.mk.injEq]
            at found
          exact found.2.symm
        · rw [Function.update_of_ne here] at found
          have below := counted.numbered.below other number
            (by simp [numbers, found])
          omega
  | @revise key number status delivered left found highest =>
      rw [delivered] at fits
      have here : numbers loop.filed key = some number := by
        simp [numbers, found]
      have last := counted.numbered.latest here highest
      refine ⟨count, ?_, left, ⟨fits.1, ?_⟩, nofun⟩
      · rw [numbers_update, ← here, Function.update_eq_self]
        exact counted.numbered
      · intro other later current filed final
        dsimp only at filed
        by_cases same : other = key
        · subst same
          simp only [Function.update_self, Option.some.injEq, Prod.mk.injEq]
            at filed
          exact filed.2.symm
        · rw [Function.update_of_ne same] at filed
          obtain rfl : later = number := by omega
          exact absurd (counted.numbered.unique other key later
            (by simp [numbers, filed]) here) same
  | finish ended same =>
      refine ⟨count, ?_, counted.bounded, ?_, ?_⟩
      · rw [same]
        exact counted.numbered
      · rcases ended with rfl | rfl <;> trivial
      · rcases ended with rfl | rfl <;> exact nofun
  | suspend first =>
      refine ⟨count, counted.numbered, counted.bounded, trivial, ?_⟩
      rintro _ prior same
      obtain rfl := Option.some.inj same
      exact fits
  | resume disputed stored =>
      have before := counted.suspended disputed _ stored
      exact ⟨count, counted.numbered, counted.bounded, before,
        fun _ other same => Option.some.inj (stored.symm.trans same) ▸ before⟩

/-- A new order has no deliveries. -/
theorem sound_new
    {loop : Loop} (waiting : loop.status = .awaitingPayment)
    (unrevised : loop.revisionsUsed = 0) (none : ∀ key, loop.filed key = none) :
    loop.Sound := by
  refine ⟨0, .empty fun key => by simp [numbers, none], by simp [unrevised],
    ?_, ?_⟩
  · simp [waiting, Fits, unrevised]
  · simp [waiting]

end Loop

end Orders

end KnowledgeMarketplace
