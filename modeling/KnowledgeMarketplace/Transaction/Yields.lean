import KnowledgeMarketplace.Transaction.Request

/-!
# Blocks that succeed

`Yields` is the run of a lone block that passes all its guards: its rules follow
the block from one state to the next.
-/

namespace Transaction

variable {σ κ ω ε α β : Type} [Store σ κ ω]

namespace Prog

/-- The block, run alone from `state`, succeeds with `value` in `next`. -/
def Yields (program : Prog σ κ ω ε α) (state : σ) (value : α) (next : σ) :
    Prop :=
  program.eval state = (.ok value, next)

namespace Yields

variable {state middle next : σ} {value found : α}

/-- What is reached by a block that succeeds. -/
theorem post
    {program : Prog σ κ ω ε α} {goal : Except ε α → σ → Prop}
    (yields : program.Yields state value next)
    (reached : goal (.ok value) next) : program.Post state goal := by
  unfold Prog.Post
  rw [yields]
  exact reached

theorem pure : (Pure.pure value : Prog σ κ ω ε α).Yields state value state :=
  rfl

theorem read {get : σ → α} :
    (Prog.read get : Prog σ κ ω ε α).Yields state (get state) state :=
  rfl

theorem lockRow {row : κ} :
    (Prog.lockRow row : Prog σ κ ω ε Unit).Yields state () state :=
  rfl

theorem exec {stmt : ω} :
    (Prog.exec stmt : Prog σ κ ω ε Unit).Yields state ()
      (Store.apply stmt state) :=
  rfl

theorem require {guard : Prop} [Decidable guard] {error : ε} (holds : guard) :
    (Prog.require guard error : Prog σ κ ω ε Unit).Yields state () state := by
  simp [Yields, Prog.require, eval, holds]

theorem orFail {error : ε} {option : Option α} (present : option = some found) :
    (Prog.orFail option error : Prog σ κ ω ε α).Yields state found state := by
  subst present
  rfl

theorem ofExcept {result : Except ε α} (passed : result = .ok found) :
    (Prog.ofExcept result : Prog σ κ ω ε α).Yields state found state := by
  subst passed
  rfl

theorem bind {first : Prog σ κ ω ε α} {rest : α → Prog σ κ ω ε β} {last : β}
    (early : first.Yields state value middle)
    (late : (rest value).Yields middle last next) :
    (first >>= rest).Yields state last next := by
  unfold Yields at early ⊢
  rw [eval_bind, early]
  exact late

theorem ite_true
    {condition : Prop} [Decidable condition] {first second : Prog σ κ ω ε α}
    (holds : condition) (yields : first.Yields state value next) :
    (if condition then first else second).Yields state value next := by
  rwa [if_pos holds]

theorem ite_false
    {condition : Prop} [Decidable condition] {first second : Prog σ κ ω ε α}
    (fails : ¬condition) (yields : second.Yields state value next) :
    (if condition then first else second).Yields state value next := by
  rwa [if_neg fails]

theorem tryCatch
    {body : Prog σ κ ω ε α} {handler : ε → Prog σ κ ω ε α}
    (yields : body.Yields state value next) :
    (Prog.tryCatch body handler).Yields state value next := by
  unfold Yields at yields ⊢
  rw [eval_tryCatch, yields]

theorem attempt
    {body : Prog σ κ ω ε α} {handler : ε → Prog σ κ ω ε α}
    (yields : body.Yields state value next) :
    (Prog.attempt body handler).Yields state value next := by
  unfold Yields at yields ⊢
  rw [eval_attempt, yields]

/-- Alone, a locking query finds the rows that match. -/
theorem selectForUpdate {ι : Type}
    {keys : σ → List ι} {holds : ι → σ → Bool} {row : ι → κ} :
    (Prog.selectForUpdate keys holds row : Prog σ κ ω ε (List ι)).Yields state
      ((keys state).filter (holds · state)) state := by
  have found : (Prog.selectForUpdate keys holds row :
      Prog σ κ ω ε (List ι)).Post state fun result next =>
        (result, next) = (.ok ((keys state).filter (holds · state)), state) :=
    Prog.post_selectForUpdate.mpr rfl
  exact found

theorem forEach_nil {body : β → Prog σ κ ω ε Unit} :
    (Prog.forEach [] body).Yields state () state :=
  rfl

theorem forEach_cons
    {item : β} {rest : List β} {body : β → Prog σ κ ω ε Unit}
    (early : (body item).Yields state () middle)
    (late : (Prog.forEach rest body).Yields middle () next) :
    (Prog.forEach (item :: rest) body).Yields state () next :=
  .bind early late

end Yields

end Prog

/-- A block that succeeds alone commits its whole effect. -/
theorem Request.run_of_yields
    {body : Prog σ κ ω ε α} {state next : σ} {value : α}
    (yields : body.Yields state value next) :
    (atomic body).run state = (.ok value, next) := by
  rw [run_atomic, yields]

end Transaction
