import Mathlib.Data.List.Basic

/-!
# Signed values

A signer turns a salted and dated value into a token.  A token is loaded with
its salt and a maximal age, and is refused with any other salt and when it is
too old.
-/

namespace Signing

/-- Signatures of values, under salts and with their dates in seconds. -/
structure Signer (ς π τ : Type) where
  sign : ς → Nat → π → τ
  unsign : ς → τ → Option (Nat × π)

/-- Why a token is refused. -/
inductive Refusal where
  | badSignature
  | signatureExpired
  deriving DecidableEq

namespace Signer

variable {ς π τ : Type} (signer : Signer ς π τ)

/-- A token opens under its salt only, to what was signed. -/
structure Lawful : Prop where
  unsign_sign : ∀ salt time value,
    signer.unsign salt (signer.sign salt time value) = some (time, value)
  salted : ∀ salt other time value, other ≠ salt →
    signer.unsign other (signer.sign salt time value) = none

/-- The value of a token that is not older than `maxAge`. -/
def loads (salt : ς) (now maxAge : Nat) (token : τ) : Except Refusal π :=
  match signer.unsign salt token with
  | none => .error .badSignature
  | some (time, value) =>
      if maxAge < now - time then .error .signatureExpired else .ok value

variable {signer}

theorem loads_eq_ok
    {salt : ς} {now maxAge : Nat} {token : τ} {value : π} :
    signer.loads salt now maxAge token = .ok value ↔
      ∃ time, signer.unsign salt token = some (time, value) ∧
        now ≤ time + maxAge := by
  unfold loads
  cases opened : signer.unsign salt token with
  | none => simp
  | some found =>
      by_cases old : maxAge < now - found.1
      · simp only [old, if_true, reduceCtorEq, Option.some.injEq, false_iff,
          not_exists, not_and]
        intro time same
        rw [same] at old
        simp only at old
        omega
      · simp only [old, if_false, Except.ok.injEq, Option.some.injEq]
        constructor
        · intro same
          exact ⟨found.1, by simp [← same], by omega⟩
        · intro opens
          obtain ⟨time, same, _⟩ := opens
          simp [same]

/-- Tokens that show what was signed, for runs on fixed inputs. -/
def plain [DecidableEq ς] : Signer ς π (ς × Nat × π) where
  sign salt time value := (salt, time, value)
  unsign salt token := if token.1 = salt then some token.2 else none

theorem plain_lawful [DecidableEq ς] : (plain : Signer ς π _).Lawful where
  unsign_sign salt time value := by simp [plain]
  salted salt other time value differs := by
    simp [plain, Ne.symm differs]

end Signer

end Signing
