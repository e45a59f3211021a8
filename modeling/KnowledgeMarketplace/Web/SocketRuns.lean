import KnowledgeMarketplace.Web.Sockets
import Mathlib.Tactic.Tauto

/-!
# Runs of realtime sockets

Whatever the order of renders, timers and network events, every effect keeps to
its schedule and messages only reach the thread on screen.  When no close
arrives late, unmounting leaves no socket open.
-/

namespace KnowledgeMarketplace

namespace Web

namespace Sockets

variable {θ : Type}

/-! ## Runs of a component -/

variable {backoff : Backoff} {hook : Hook θ}

/-- Every effect is sound, only the mounted one waits, and the references
point into it. -/
structure Hook.Sound (backoff : Backoff) (hook : Hook θ) : Prop where
  effects : ∀ run effect, hook.effects[run]? = some effect →
    effect.Sound backoff ∧
      (effect.closedByUs = false ↔ hook.mounted = some run)
  mounted : ∀ run, hook.mounted = some run → run < hook.effects.length
  timers : ∀ run effect index timer, hook.effects[run]? = some effect →
    effect.timers[index]? = some timer → timer.pending = true →
      hook.mounted = some run ∧ hook.retryRef = some (run, index)
  sockets : ∀ run index, hook.socketRef = some (run, index) →
    hook.mounted = some run ∧
      ∃ effect, hook.effects[run]? = some effect ∧ effect.Live index

namespace Hook

theorem sound_start : ({} : Hook θ).Sound backoff where
  effects := by simp
  mounted := by simp
  timers := by simp
  sockets := by simp

/-- One effect is changed, and the references follow it. -/
theorem Sound.replace
    (sound : hook.Sound backoff) {run : Nat} {effect : Effect θ}
    (here : hook.effects[run]? = some effect)
    {change : Effect θ → Effect θ} {next : Hook θ}
    (effects : next.effects = hook.effects.modify run change)
    (mounted : next.mounted = hook.mounted)
    (good : (change effect).Sound backoff)
    (ours : (change effect).closedByUs = effect.closedByUs)
    (timers : ∀ index timer, (change effect).timers[index]? = some timer →
      timer.pending = true →
        hook.mounted = some run ∧ next.retryRef = some (run, index))
    (retried : next.retryRef = hook.retryRef ∨ hook.mounted = some run)
    (sockets : ∀ owner index, next.socketRef = some (owner, index) →
      hook.mounted = some owner ∧
        ∃ effect, next.effects[owner]? = some effect ∧ effect.Live index) :
    next.Sound backoff where
  effects := by
    intro other found present
    rw [effects, List.getElem?_modify] at present
    rw [mounted]
    by_cases same : run = other
    · subst same
      rw [here] at present
      obtain rfl : change effect = found := by simpa using present
      rw [ours]
      exact ⟨good, (sound.effects run effect here).2⟩
    · exact sound.effects other found (by simpa [same] using present)
  mounted := by
    intro other current
    rw [effects, List.length_modify]
    exact sound.mounted other (mounted ▸ current)
  timers := by
    intro other found index timer present listed awaited
    rw [effects, List.getElem?_modify] at present
    rw [mounted]
    by_cases same : run = other
    · subst same
      rw [here] at present
      obtain rfl : change effect = found := by simpa using present
      exact timers index timer listed awaited
    · have before := sound.timers other found index timer
        (by simpa [same] using present) listed awaited
      rcases retried with kept | current
      · exact kept ▸ before
      · exact absurd (Option.some.inj (current.symm.trans before.1)) same
  sockets := by
    intro owner index held
    rw [mounted]
    exact sockets owner index held

theorem readyState_eq_some {run index : Nat} {state : ReadyState} :
    hook.readyState run index = some state ↔
      ∃ effect, hook.effects[run]? = some effect ∧
        ∃ socket, effect.sockets[index]? = some socket ∧
          socket.readyState = state := by
  unfold readyState
  cases hook.effects[run]? with
  | none => simp
  | some effect => simp

theorem pending_eq_true {run index : Nat} :
    hook.pending run index = true ↔
      ∃ effect, hook.effects[run]? = some effect ∧
        ∃ timer, effect.timers[index]? = some timer ∧
          timer.pending = true := by
  unfold pending
  cases hook.effects[run]? with
  | none => simp
  | some effect => simp [Option.any_eq_true]

/-- Changing one socket without closing it keeps every socket alive. -/
theorem live_modify
    {effect : Effect θ} {index : Nat} {change : Socket → Socket}
    (unclosed : ∀ socket, socket.readyState ≠ .closed →
      (change socket).readyState ≠ .closed)
    {place : Nat} (alive : effect.Live place) :
    Effect.Live
      { effect with sockets := effect.sockets.modify index change } place := by
  obtain ⟨socket, found, live⟩ := alive
  by_cases same : index = place
  · exact ⟨change socket, by simp [found, same], unclosed socket live⟩
  · exact ⟨socket, by simp [found, same], live⟩

/-- A change of one socket that keeps its effect sound. -/
theorem Sound.touch
    (sound : hook.Sound backoff) {run : Nat} {effect : Effect θ}
    (here : hook.effects[run]? = some effect)
    {change : Effect θ → Effect θ} {next : Hook θ}
    (effects : next.effects = hook.effects.modify run change)
    (rest : next.mounted = hook.mounted ∧ next.retryRef = hook.retryRef ∧
      next.socketRef = hook.socketRef)
    (good : (change effect).Sound backoff)
    (same : (change effect).closedByUs = effect.closedByUs ∧
      (change effect).timers = effect.timers)
    (alive : ∀ index, effect.Live index → (change effect).Live index) :
    next.Sound backoff := by
  refine sound.replace here effects rest.1 good same.1 ?_ (.inl rest.2.1) ?_
  · intro index timer listed awaited
    rw [rest.2.1]
    exact sound.timers run effect index timer here (same.2 ▸ listed) awaited
  · intro owner index held
    obtain ⟨current, found, present, live⟩ :=
      sound.sockets owner index (rest.2.2 ▸ held)
    refine ⟨current, ?_⟩
    rw [effects, List.getElem?_modify]
    by_cases other : run = owner
    · subst other
      obtain rfl : effect = found := Option.some.inj (here.symm.trans present)
      exact ⟨change effect, by simp [here], alive index live⟩
    · exact ⟨found, by simp [present, other], live⟩

theorem Sound.opened
    (sound : hook.Sound backoff) {run index : Nat}
    (connecting : hook.readyState run index = some .connecting) :
    (hook.onopen run index).Sound backoff := by
  obtain ⟨effect, here, socket, found, state⟩ :=
    readyState_eq_some.mp connecting
  exact sound.touch here rfl ⟨rfl, rfl, rfl⟩
    ((sound.effects run effect here).1.onopen found (by simp [state]))
    ⟨rfl, rfl⟩ fun _ alive => live_modify (by simp) alive

theorem Sound.hungUp
    (sound : hook.Sound backoff) {run index : Nat}
    (opened : hook.readyState run index = some .opened) :
    (hook.change run (·.hangUp index)).Sound backoff := by
  obtain ⟨effect, here, socket, found, state⟩ := readyState_eq_some.mp opened
  exact sound.touch here rfl ⟨rfl, rfl, rfl⟩
    ((sound.effects run effect here).1.hangUp found (by simp [state]))
    ⟨rfl, rfl⟩ fun _ alive => live_modify (by simp) alive

theorem Sound.closed
    (sound : hook.Sound backoff) {run index : Nat} {state : ReadyState}
    (before : hook.readyState run index = some state)
    (live : state ≠ .closed) :
    (hook.onclose backoff run index).Sound backoff := by
  obtain ⟨effect, here, socket, found, rfl⟩ := readyState_eq_some.mp before
  obtain ⟨good, current⟩ := sound.effects run effect here
  have spent := Effect.Sound.spent_of_live good ⟨socket, found, live⟩
  have idle : ∀ {place : Nat} {timer : Timer} {goal : Prop},
      effect.timers[place]? = some timer → timer.pending = true → goal := by
    intro place timer goal listed awaited
    simp [spent timer (List.mem_of_getElem? listed)] at awaited
  have drops := good.drop found live
  have dropped : (hook.effects.modify run (·.drop index))[run]? =
      some (effect.drop index) := by
    simp [here]
  unfold onclose
  simp only [change, dropped]
  split
  · rename_i ours
    exact sound.replace here rfl rfl (drops.1 (.inl ours)) rfl
      (fun _ _ listed awaited => idle listed awaited) (.inl rfl) (by simp)
  · rename_i ours
    have mounted : hook.mounted = some run :=
      current.mp (by simpa [Effect.drop] using ours)
    split
    · rename_i few
      have composed : (hook.effects.modify run (·.drop index)).modify run
            (Effect.retry backoff) =
          hook.effects.modify run
            fun effect => (effect.drop index).retry backoff :=
        List.modify_modify_eq _ _ run hook.effects
      refine sound.replace here composed rfl (drops.2 few) rfl ?_
        (.inr mounted) (by simp)
      intro place timer listed awaited
      refine ⟨mounted, ?_⟩
      by_cases old : place < effect.timers.length
      · have earlier : effect.timers[place]? = some timer := by
          rw [← List.getElem?_append_left old]
          exact listed
        exact idle earlier awaited
      · have bound := (List.getElem?_eq_some_iff.mp listed).1
        simp only [Effect.retry, Effect.drop, List.length_append,
          List.length_singleton] at bound
        have newest : place = effect.timers.length := by omega
        rw [newest]
        rfl
    · rename_i few
      exact sound.replace here rfl rfl (drops.1 (.inr few)) rfl
        (fun _ _ listed awaited => idle listed awaited) (.inl rfl) (by simp)

/-- A timer that fires opens the next socket. -/
theorem Sound.fired
    (sound : hook.Sound backoff) {run index : Nat}
    (awaited : hook.pending run index = true) :
    ((hook.change run (·.settle index)).connect run).Sound backoff := by
  obtain ⟨effect, here, timer, listed, waits⟩ := pending_eq_true.mp awaited
  obtain ⟨good, current⟩ := sound.effects run effect here
  have mounted := (sound.timers run effect index timer here listed waits).1
  have theirs : effect.closedByUs = false := current.mpr mounted
  have settled : (hook.effects.modify run (·.settle index))[run]? =
      some (effect.settle index) := by
    simp [here]
  have dials := good.redial listed waits
  have alive : (effect.settle index).dial.Live effect.sockets.length :=
    ⟨{}, by simp [Effect.dial, Effect.settle], by simp⟩
  have composed : (hook.effects.modify run (·.settle index)).modify run
        Effect.dial =
      hook.effects.modify run fun effect => (effect.settle index).dial :=
    List.modify_modify_eq _ _ run hook.effects
  unfold connect
  simp only [change, settled]
  rw [if_neg (by simp [Effect.settle, theirs])]
  refine sound.replace here composed rfl dials rfl ?_ (.inr mounted) ?_
  · intro place timer found waits
    have spent := Effect.Sound.spent_of_live dials alive
    simp [spent timer (List.mem_of_getElem? found)] at waits
  · intro owner place held
    obtain ⟨rfl, rfl⟩ : run = owner ∧ effect.sockets.length = place := by
      simpa [Effect.settle] using held
    refine ⟨mounted, (effect.settle index).dial, ?_, alive⟩
    rw [composed]
    simp [here]

/-- An effect after a change is the changed one or another. -/
theorem effects_change_cases
    {run other : Nat} {change : Effect θ → Effect θ} {effect : Effect θ}
    (present : (hook.change run change).effects[other]? = some effect) :
    (other = run ∧ ∃ before, hook.effects[run]? = some before ∧
        effect = change before) ∨
      other ≠ run ∧ hook.effects[other]? = some effect := by
  rw [Hook.change, List.getElem?_modify] at present
  by_cases same : run = other
  · subst same
    obtain ⟨before, found, rfl⟩ : ∃ before, hook.effects[run]? = some before ∧
        change before = effect := by
      simpa using present
    exact .inl ⟨rfl, before, found, rfl⟩
  · exact .inr ⟨Ne.symm same, by simpa [same] using present⟩

/-- Once its timer is cleared, the mounted effect is retired as the others. -/
theorem Sound.cleared
    (sound : hook.Sound backoff) {current : Nat}
    (mounted : hook.mounted = some current) {run : Nat} {effect : Effect θ}
    (present : (hook.clear current).effects[run]? = some effect) :
    effect.Retired backoff := by
  have others : ∀ run effect, hook.effects[run]? = some effect →
      run ≠ current → effect.Retired backoff := by
    intro run effect present other
    obtain ⟨good, theirs⟩ := sound.effects run effect present
    refine ⟨good, ?_, ?_⟩
    · by_contra unclosed
      have same := theirs.mp (by simpa using unclosed)
      exact other (Option.some.inj (same.symm.trans mounted))
    · intro timer member
      obtain ⟨index, found⟩ := List.mem_iff_getElem?.mp member
      by_contra awaited
      have same := (sound.timers run effect index timer present found
        (by simpa using awaited)).1
      exact other (Option.some.inj (same.symm.trans mounted))
  have waits : ∀ {before : Effect θ} {place : Nat} {timer : Timer},
      hook.effects[current]? = some before →
        before.timers[place]? = some timer → timer.pending = true →
          hook.retryRef = some (current, place) :=
    fun here found awaited =>
      (sound.timers current _ _ _ here found awaited).2
  cases retried : hook.retryRef with
  | none =>
      have shape : hook.clear current = hook.change current fun effect =>
          { effect with closedByUs := true } := by
        simp only [clear, change, retried]
      rw [shape] at present
      rcases effects_change_cases present with ⟨rfl, before, here, rfl⟩ | rest
      · refine ⟨(sound.effects run before here).1.ours, rfl, ?_⟩
        intro timer member
        obtain ⟨place, found⟩ := List.mem_iff_getElem?.mp member
        by_contra awaited
        have held := waits here found (by simpa using awaited)
        simp [retried] at held
      · exact others run effect rest.2 rest.1
  | some held =>
      obtain ⟨owner, index⟩ := held
      have shape : hook.clear current =
          (hook.change current fun effect =>
            { effect with closedByUs := true }).change owner
              (·.settle index) := by
        simp only [clear, change, retried]
      rw [shape] at present
      rcases effects_change_cases present with ⟨rfl, middle, here, rfl⟩ | rest
      · rcases effects_change_cases here with
          ⟨rfl, before, start, rfl⟩ | ⟨other, start⟩
        · refine (sound.effects run before start).1.ours.retire rfl ?_
          intro place timer found awaited
          have same := waits start found awaited
          rw [retried] at same
          exact (Prod.mk.inj (Option.some.inj same)).2.symm
        · exact (others run middle start other).settle index
      · rcases effects_change_cases rest.2 with
          ⟨rfl, before, start, rfl⟩ | ⟨other, start⟩
        · refine ⟨(sound.effects run before start).1.ours, rfl, ?_⟩
          intro timer member
          obtain ⟨place, found⟩ := List.mem_iff_getElem?.mp member
          by_contra awaited
          have same := waits start found (by simpa using awaited)
          rw [retried] at same
          exact rest.1 (Prod.mk.inj (Option.some.inj same)).1.symm
        · exact others run effect start other

/-- After cleanup every effect is retired and no reference is held. -/
theorem Sound.cleaned (sound : hook.Sound backoff) :
    hook.cleanup.mounted = none ∧ hook.cleanup.socketRef = none ∧
      ∀ (run : Nat) (effect : Effect θ),
        hook.cleanup.effects[run]? = some effect →
          effect.Retired backoff := by
  unfold cleanup
  cases mounted : hook.mounted with
  | none =>
      refine ⟨mounted, ?_, ?_⟩
      · cases held : hook.socketRef with
        | none => rfl
        | some place =>
            have current := (sound.sockets place.1 place.2 held).1
            simp [mounted] at current
      · intro run effect present
        obtain ⟨good, theirs⟩ := sound.effects run effect present
        refine ⟨good, ?_, ?_⟩
        · by_contra unclosed
          have current := theirs.mp (by simpa using unclosed)
          simp [mounted] at current
        · intro timer member
          obtain ⟨index, found⟩ := List.mem_iff_getElem?.mp member
          by_contra awaited
          have current := (sound.timers run effect index timer present found
            (by simpa using awaited)).1
          simp [mounted] at current
  | some current =>
      refine ⟨rfl, rfl, ?_⟩
      intro run effect present
      simp only at present
      unfold closeSocket at present
      split at present
      · exact sound.cleared mounted present
      · rcases effects_change_cases present with ⟨rfl, before, here, rfl⟩ | rest
        · exact (sound.cleared mounted here).close _
        · exact sound.cleared mounted rest.2

theorem Sound.unmounted (sound : hook.Sound backoff) :
    hook.cleanup.Sound backoff := by
  obtain ⟨none, free, retired⟩ := sound.cleaned
  constructor
  · intro run effect present
    have done := retired run effect present
    refine ⟨done.sound, ?_⟩
    simp [done.ours, none]
  · simp [none]
  · intro run effect index timer present found awaited
    have spent := (retired run effect present).spent timer
      (List.mem_of_getElem? found)
    simp [spent] at awaited
  · simp [free]

theorem start_some (hook : Hook θ) (threadId : θ) :
    hook.start (some threadId) =
      { hook with
        effects := hook.effects ++ [Effect.dial { threadId }]
        mounted := some hook.effects.length
        socketRef := some (hook.effects.length, 0) } := by
  simp [start, connect, change, modify_length_append]

/-- A new effect opens its first socket. -/
theorem Sound.started
    (sound : hook.Sound backoff) (none : hook.mounted = none)
    (threadId : Option θ) : (hook.start threadId).Sound backoff := by
  cases threadId with
  | none => exact sound
  | some threadId =>
      rw [start_some]
      have places : ∀ {run : Nat} {effect : Effect θ},
          (hook.effects ++ [Effect.dial { threadId }])[run]? = some effect →
            hook.effects[run]? = some effect ∧ run < hook.effects.length ∨
              run = hook.effects.length ∧
                effect = Effect.dial { threadId } := by
        intro run effect present
        by_cases old : run < hook.effects.length
        · rw [List.getElem?_append_left old] at present
          exact .inl ⟨present, old⟩
        · have bound := (List.getElem?_eq_some_iff.mp present).1
          rw [List.length_append, List.length_singleton] at bound
          obtain rfl : run = hook.effects.length := by omega
          exact .inr ⟨rfl, by simpa using present.symm⟩
      constructor
      · intro run effect present
        rcases places present with ⟨before, old⟩ | ⟨rfl, rfl⟩
        · obtain ⟨good, theirs⟩ := sound.effects run effect before
          refine ⟨good, ?_⟩
          rw [theirs, none]
          simp [Nat.ne_of_gt old]
        · refine ⟨Effect.sound_dial threadId, ?_⟩
          simp [Effect.dial]
      · simp
      · intro run effect index timer present found awaited
        rcases places present with ⟨before, _⟩ | ⟨rfl, rfl⟩
        · have current :=
            (sound.timers run effect index timer before found awaited).1
          simp [none] at current
        · simp [Effect.dial] at found
      · intro owner index held
        obtain ⟨rfl, rfl⟩ : hook.effects.length = owner ∧ 0 = index := by
          simpa using held
        exact ⟨rfl, Effect.dial { threadId }, by simp,
          {}, by simp [Effect.dial], by simp⟩

/-- One event keeps a component sound. -/
theorem Sound.step (sound : hook.Sound backoff) (event : Event θ) :
    (hook.step backoff event).Sound backoff := by
  unfold Hook.step
  cases event with
  | render threadId => exact sound.unmounted.started sound.cleaned.1 threadId
  | unmount => exact sound.unmounted
  | opened run index =>
      dsimp only
      split
      · rename_i connecting
        exact sound.opened connecting
      · exact sound
  | hungUp run index =>
      dsimp only
      split
      · rename_i opened
        exact sound.hungUp opened
      · exact sound
  | closed run index =>
      dsimp only
      split
      · exact sound
      · exact sound
      · rename_i state live before
        exact sound.closed before (by simpa using live)
  | fired run index =>
      dsimp only
      split
      · rename_i awaited
        exact sound.fired awaited
      · exact sound

theorem Sound.run (sound : hook.Sound backoff) (events : List (Event θ)) :
    (hook.run backoff events).Sound backoff := by
  induction events generalizing hook with
  | nil => exact sound
  | cons event later inductionHypothesis =>
      exact inductionHypothesis (sound.step event)

/-- `send` writes to a socket of the mounted effect. -/
theorem Sound.sent
    (sound : hook.Sound backoff) {threadId : θ}
    (sent : hook.send = some threadId) :
    ∃ run effect, hook.mounted = some run ∧
      hook.effects[run]? = some effect ∧ effect.threadId = threadId ∧
        effect.closedByUs = false := by
  unfold send at sent
  split at sent
  · cases sent
  · rename_i run index held
    obtain ⟨mounted, effect, here, socket, found, live⟩ :=
      sound.sockets run index held
    simp only [here, found] at sent
    split at sent
    · exact ⟨run, effect, mounted, here, Option.some.inj sent,
        (sound.effects run effect here).2.mpr mounted⟩
    · cases sent

end Hook

/-- In every run each effect keeps to its backoff, only the mounted one waits
for a timer, and messages only reach its thread. -/
theorem sockets_paced (backoff : Backoff) (events : List (Event θ)) :
    (∀ (run : Nat) (effect : Effect θ),
      (Hook.run backoff {} events).effects[run]? = some effect →
        effect.Paced backoff ∧
          ((Hook.run backoff {} events).mounted ≠ some run →
            effect.closedByUs = true ∧ effect.awaited = [])) ∧
      ∀ threadId, (Hook.run backoff {} events).send = some threadId →
        ∃ run effect, (Hook.run backoff {} events).mounted = some run ∧
          (Hook.run backoff {} events).effects[run]? = some effect ∧
            effect.threadId = threadId ∧ effect.closedByUs = false := by
  have sound : (Hook.run backoff ({} : Hook θ) events).Sound backoff :=
    Hook.sound_start.run events
  refine ⟨?_, fun threadId => sound.sent⟩
  intro run effect present
  obtain ⟨good, theirs⟩ := sound.effects run effect present
  refine ⟨good.paced, fun left => ⟨?_, ?_⟩⟩
  · by_contra unclosed
    exact left (theirs.mp (by simpa using unclosed))
  · rw [Effect.awaited, List.filter_eq_nil_iff]
    intro timer member awaited
    obtain ⟨index, found⟩ := List.mem_iff_getElem?.mp member
    exact left (sound.timers run effect index timer present found awaited).1

/-! ## Closes that arrive late -/

namespace Hook

/-- A socket of an earlier effect closes while a later one is mounted. -/
def Late (hook : Hook θ) : Event θ → Prop
  | .closed run _ => hook.mounted ≠ none ∧ hook.mounted ≠ some run
  | _ => False

instance (hook : Hook θ) : DecidablePred hook.Late
  | .closed _ _ => inferInstanceAs (Decidable (_ ∧ _))
  | .render _ => .isFalse id
  | .unmount => .isFalse id
  | .opened _ _ => .isFalse id
  | .hungUp _ _ => .isFalse id
  | .fired _ _ => .isFalse id

/-- No close of the run arrives late. -/
def Calm (backoff : Backoff) (hook : Hook θ) : List (Event θ) → Prop
  | [] => True
  | event :: later =>
      ¬ hook.Late event ∧ (hook.step backoff event).Calm backoff later

instance Calm.decidable (backoff : Backoff) :
    ∀ (hook : Hook θ) (events : List (Event θ)),
      Decidable (hook.Calm backoff events)
  | _, [] => .isTrue trivial
  | hook, event :: later =>
      @instDecidableAnd _ _ _
        (Calm.decidable backoff (hook.step backoff event) later)

end Hook

/-- The socket carries messages, or will. -/
def Effect.Carries (effect : Effect θ) (index : Nat) : Prop :=
  ∃ socket, effect.sockets[index]? = some socket ∧
    (socket.readyState = .connecting ∨ socket.readyState = .opened)

theorem Effect.Carries.live {effect : Effect θ} {index : Nat}
    (carries : effect.Carries index) : effect.Live index := by
  obtain ⟨socket, found, connecting | opened⟩ := carries
  · exact ⟨socket, found, by simp [connecting]⟩
  · exact ⟨socket, found, by simp [opened]⟩

/-- After a change of one socket that one carries messages, or another. -/
theorem Effect.carries_modify_cases
    {effect : Effect θ} {index place : Nat} {change : Socket → Socket}
    (carries : Effect.Carries
      { effect with sockets := effect.sockets.modify index change } place) :
    (place = index ∧ ∃ socket, effect.sockets[index]? = some socket ∧
        ((change socket).readyState = .connecting ∨
          (change socket).readyState = .opened)) ∨
      place ≠ index ∧ effect.Carries place := by
  obtain ⟨socket, found, unclosed⟩ := carries
  simp only [List.getElem?_modify] at found
  by_cases same : index = place
  · subst same
    obtain ⟨before, listed, rfl⟩ : ∃ before,
        effect.sockets[index]? = some before ∧ change before = socket := by
      simpa using found
    exact .inl ⟨rfl, before, listed, unclosed⟩
  · exact .inr ⟨Ne.symm same, socket, by simpa [same] using found, unclosed⟩

/-- One socket of an effect is not closed at a time. -/
theorem Effect.Sound.live_unique {effect : Effect θ}
    (sound : effect.Sound backoff) {first second : Nat}
    (one : effect.Live first) (other : effect.Live second) :
    first = second := by
  obtain ⟨earlier, last, sockets, lost, _, _⟩ := sound
  obtain ⟨socket, found, live⟩ := one
  obtain ⟨socket', found', live'⟩ := other
  rw [sockets] at found found'
  rw [(Effect.newest_of_live lost found live).1,
    (Effect.newest_of_live lost found' live').1]

namespace Hook

/-- Every socket that carries messages is the referenced one. -/
def Held (hook : Hook θ) : Prop :=
  ∀ (run : Nat) (effect : Effect θ) (index : Nat),
    hook.effects[run]? = some effect → effect.Carries index →
      hook.socketRef = some (run, index)

/-- Nothing carries messages. -/
def Idle (hook : Hook θ) : Prop :=
  ∀ (run : Nat) (effect : Effect θ) (index : Nat),
    hook.effects[run]? = some effect → ¬ effect.Carries index

theorem Idle.held (idle : hook.Idle) : hook.Held :=
  fun run effect index present carries =>
    absurd carries (idle run effect index present)

/-- A change that leaves the sockets alone. -/
theorem Held.change
    (held : hook.Held) (run : Nat) {change : Effect θ → Effect θ}
    (same : ∀ effect, (change effect).sockets = effect.sockets) :
    (hook.change run change).Held := by
  intro other effect index present carries
  rcases effects_change_cases present with ⟨rfl, before, here, rfl⟩ | rest
  · refine held other before index here ?_
    unfold Effect.Carries
    rw [← same before]
    exact carries
  · exact held other effect index rest.2 carries

theorem Idle.change
    (idle : hook.Idle) (run : Nat) {change : Effect θ → Effect θ}
    (same : ∀ effect, (change effect).sockets = effect.sockets) :
    (hook.change run change).Idle := by
  intro other effect index present carries
  rcases effects_change_cases present with ⟨rfl, before, here, rfl⟩ | rest
  · refine idle other before index here ?_
    unfold Effect.Carries
    rw [← same before]
    exact carries
  · exact idle other effect index rest.2 carries

theorem Held.clear (held : hook.Held) (run : Nat) : (hook.clear run).Held := by
  have marked : (hook.change run fun effect =>
      { effect with closedByUs := true }).Held :=
    held.change run fun _ => rfl
  unfold Hook.clear
  dsimp only
  split
  · exact marked
  · exact marked.change _ fun _ => rfl

theorem Held.closeSocket (held : hook.Held) : hook.closeSocket.Idle := by
  intro run effect index present carries
  unfold Hook.closeSocket at present
  split at present
  · rename_i free
    have taken := held run effect index present carries
    simp [free] at taken
  · rename_i owner place taken
    rcases effects_change_cases present with ⟨rfl, before, here, rfl⟩ | rest
    · rcases Effect.carries_modify_cases carries with
        ⟨rfl, socket, found, unclosed⟩ | ⟨other, carries⟩
      · unfold Socket.close at unclosed
        split at unclosed <;> simp_all
      · have same := held run before index here carries
        rw [taken] at same
        exact other (Prod.mk.inj (Option.some.inj same)).2.symm
    · have same := held run effect index rest.2 carries
      rw [taken] at same
      exact rest.1 (Prod.mk.inj (Option.some.inj same)).1.symm

/-- After cleanup no socket carries messages. -/
theorem Held.released
    (held : hook.Held) (sound : hook.Sound backoff) :
    hook.cleanup.Idle := by
  intro run effect index present
  unfold cleanup at present
  cases mounted : hook.mounted with
  | none =>
      simp only [mounted] at present
      intro carries
      have current := (sound.sockets run index
        (held run effect index present carries)).1
      simp [mounted] at current
  | some current =>
      simp only [mounted] at present
      exact (held.clear current).closeSocket run effect index present

/-- The first socket of a new effect is the referenced one. -/
theorem Idle.started (idle : hook.Idle) (threadId : Option θ) :
    (hook.start threadId).Held := by
  cases threadId with
  | none => exact idle.held
  | some threadId =>
      intro run effect index present carries
      rw [start_some] at present ⊢
      by_cases old : run < hook.effects.length
      · rw [List.getElem?_append_left old] at present
        exact absurd carries (idle run effect index present)
      · have bound := (List.getElem?_eq_some_iff.mp present).1
        rw [List.length_append, List.length_singleton] at bound
        obtain rfl : run = hook.effects.length := by omega
        obtain rfl : Effect.dial { threadId } = effect := by
          simpa using present
        obtain ⟨socket, found, _⟩ := carries
        have first := (List.getElem?_eq_some_iff.mp found).1
        have zero : index = 0 := by simpa [Effect.dial] using first
        rw [zero]

theorem Held.opened
    (held : hook.Held) {run index : Nat}
    (connecting : hook.readyState run index = some .connecting) :
    (hook.onopen run index).Held := by
  obtain ⟨effect, here, socket, found, state⟩ :=
    readyState_eq_some.mp connecting
  have taken := held run effect index here ⟨socket, found, .inl state⟩
  intro other after place present carries
  have present' : (hook.change run (·.onopen index)).effects[other]? =
      some after := present
  show hook.socketRef = _
  rcases effects_change_cases present' with ⟨rfl, before, start, rfl⟩ | rest
  · obtain rfl : effect = before := Option.some.inj (here.symm.trans start)
    have opens : Effect.Carries
        { { effect with attempt := 0 } with
          sockets := effect.sockets.modify index fun socket =>
            { socket with readyState := .opened, wasOpen := true } } place :=
      carries
    rcases Effect.carries_modify_cases opens with ⟨rfl, _⟩ | ⟨_, carries⟩
    · exact taken
    · exact held other effect place here carries
  · exact held other after place rest.2 carries

theorem Held.hungUp
    (held : hook.Held) (run index : Nat) :
    (hook.change run (·.hangUp index)).Held := by
  intro other after place present carries
  rcases effects_change_cases present with ⟨rfl, before, start, rfl⟩ | rest
  · rcases Effect.carries_modify_cases carries with
      ⟨rfl, socket, _, unclosed⟩ | ⟨_, carries⟩
    · simp at unclosed
    · exact held other before place start carries
  · exact held other after place rest.2 carries

/-- A close that is not late leaves nothing that carries messages. -/
theorem Held.dropped
    (held : hook.Held) (sound : hook.Sound backoff)
    {run index : Nat} {effect : Effect θ}
    (here : hook.effects[run]? = some effect) (alive : effect.Live index)
    (calm : hook.mounted = none ∨ hook.mounted = some run) :
    (hook.change run (·.drop index)).Idle := by
  intro other after place present carries
  have elsewhere : ∀ {other : Nat} {found : Effect θ} {place : Nat},
      hook.effects[other]? = some found → found.Carries place →
        other = run ∧ place = index := by
    intro other found place present carries
    have taken := held other found place present carries
    have mounted := (sound.sockets other place taken).1
    rcases calm with none | current
    · simp [none] at mounted
    · obtain rfl : run = other := Option.some.inj (current.symm.trans mounted)
      obtain rfl : effect = found :=
        Option.some.inj (here.symm.trans present)
      exact ⟨rfl, (sound.effects run effect here).1.live_unique
        carries.live alive⟩
  rcases effects_change_cases present with ⟨rfl, before, start, rfl⟩ | rest
  · rcases Effect.carries_modify_cases carries with
      ⟨rfl, socket, _, unclosed⟩ | ⟨away, carries⟩
    · simp at unclosed
    · exact away (elsewhere start carries).2
  · exact rest.1 (elsewhere rest.2 carries).1

theorem Held.closed
    (held : hook.Held) (sound : hook.Sound backoff)
    {run index : Nat} {state : ReadyState}
    (before : hook.readyState run index = some state)
    (live : state ≠ .closed)
    (calm : hook.mounted = none ∨ hook.mounted = some run) :
    (hook.onclose backoff run index).Held := by
  obtain ⟨effect, here, socket, found, rfl⟩ := readyState_eq_some.mp before
  have idle := held.dropped sound here ⟨socket, found, live⟩ calm
  have again := idle.change run (fun effect => (rfl :
    (Effect.retry backoff effect).sockets = effect.sockets))
  unfold onclose
  dsimp only
  split
  · exact Idle.held idle
  · split
    · exact Idle.held idle
    · split
      · exact Idle.held again
      · exact Idle.held idle

/-- A timer that fires finds nothing that carries messages. -/
theorem Held.fired
    (held : hook.Held) (sound : hook.Sound backoff) {run index : Nat}
    (awaited : hook.pending run index = true) :
    ((hook.change run (·.settle index)).connect run).Held := by
  obtain ⟨effect, here, timer, listed, waits⟩ := pending_eq_true.mp awaited
  have mounted := (sound.timers run effect index timer here listed waits).1
  have idle : hook.Idle := by
    intro other found place present carries
    have taken := held other found place present carries
    have current := (sound.sockets other place taken).1
    obtain rfl : run = other := Option.some.inj (mounted.symm.trans current)
    obtain rfl : effect = found := Option.some.inj (here.symm.trans present)
    have spent := Effect.Sound.spent_of_live
      (sound.effects run effect here).1 carries.live
    exact absurd waits (by simp [spent timer (List.mem_of_getElem? listed)])
  have settled : (hook.change run (·.settle index)).effects[run]? =
      some (effect.settle index) := by
    simp [Hook.change, here]
  have quiet : (hook.change run (·.settle index)).Idle :=
    idle.change run fun _ => rfl
  unfold connect
  rw [settled]
  dsimp only
  split
  · exact quiet.held
  · intro other after place present carries
    have present' : ((hook.change run (·.settle index)).change run
        Effect.dial).effects[other]? = some after := present
    rcases effects_change_cases present' with ⟨rfl, before, start, rfl⟩ | rest
    · obtain rfl : effect.settle index = before :=
        Option.some.inj (settled.symm.trans start)
      obtain ⟨socket, found, unclosed⟩ := carries
      by_cases old : place < (effect.settle index).sockets.length
      · rw [Effect.dial, List.getElem?_append_left old] at found
        exact absurd ⟨socket, found, unclosed⟩ (quiet other _ place settled)
      · have bound := (List.getElem?_eq_some_iff.mp found).1
        rw [Effect.dial, List.length_append, List.length_singleton] at bound
        have newest : place = (effect.settle index).sockets.length := by
          omega
        rw [newest]
    · exact absurd carries (quiet other after place rest.2)

/-- An event that is not late keeps the reference right. -/
theorem Held.step
    (held : hook.Held) (sound : hook.Sound backoff) {event : Event θ}
    (calm : ¬ hook.Late event) : (hook.step backoff event).Held := by
  unfold Hook.step
  cases event with
  | render threadId => exact (held.released sound).started threadId
  | unmount => exact (held.released sound).held
  | opened run index =>
      dsimp only
      split
      · rename_i connecting
        exact held.opened connecting
      · exact held
  | hungUp run index =>
      dsimp only
      split
      · exact held.hungUp run index
      · exact held
  | closed run index =>
      have onTime : hook.mounted = none ∨ hook.mounted = some run := by
        unfold Late at calm
        tauto
      dsimp only
      split
      · exact held
      · exact held
      · rename_i state live before
        exact held.closed sound before (by simpa using live) onTime
  | fired run index =>
      dsimp only
      split
      · rename_i awaited
        exact held.fired sound awaited
      · exact held

theorem Held.run
    (held : hook.Held) (sound : hook.Sound backoff)
    {events : List (Event θ)} (calm : hook.Calm backoff events) :
    (hook.run backoff events).Held := by
  induction events generalizing hook with
  | nil => exact held
  | cons event later inductionHypothesis =>
      exact inductionHypothesis (held.step sound calm.1) (sound.step event)
        calm.2

end Hook

/-- When no close arrives late, the socket that carries messages is always the
referenced one, and after unmounting there is none. -/
theorem sockets_released
    (backoff : Backoff) {events : List (Event θ)}
    (calm : Hook.Calm backoff {} events) :
    (Hook.run backoff {} events).Held ∧
      (Hook.run backoff {} (events ++ [.unmount])).Idle := by
  have sound : (Hook.run backoff ({} : Hook θ) events).Sound backoff :=
    Hook.sound_start.run events
  have start : Hook.Held ({} : Hook θ) := by
    intro run effect index present
    simp at present
  have held := start.run Hook.sound_start calm
  refine ⟨held, ?_⟩
  unfold Hook.run
  rw [List.foldl_append]
  exact held.released sound

/-- A connection that is lost once, and the way to another thread. -/
def visit : List (Event String) :=
  [.render (some "algebra"), .opened 0 0, .closed 0 0, .fired 0 0,
    .opened 0 1, .unmount, .closed 0 1, .render (some "calculus"),
    .opened 1 0]

/-- The next thread is left cleanly, too. -/
theorem sockets_released_visit :
    (Hook.run useThreadSocket {} visit).send = some "calculus" ∧
      (Hook.run useThreadSocket {} visit).Held ∧
        (Hook.run useThreadSocket {} (visit ++ [.unmount])).Idle :=
  ⟨by decide, sockets_released useThreadSocket (by decide)⟩

/-- The old socket closes after the thread has changed: the new one is open but
unreachable, and unmounting leaves it open. -/
example :
    let switched : List (Event String) :=
      [.render (some "algebra"), .opened 0 0, .render (some "calculus"),
        .opened 1 0, .closed 0 0]
    (Hook.run useThreadSocket {} switched).send = none ∧
      (Hook.run useThreadSocket {} (switched ++ [.unmount])).readyState 1 0 =
        some .opened := by
  decide

end Sockets

end Web

end KnowledgeMarketplace
