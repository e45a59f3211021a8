import Mathlib.Algebra.Group.Nat.Defs
import Mathlib.Data.List.Basic

/-!
# Realtime sockets

The thread view and the notification center hold a socket in an effect.  When
it closes, a bounded backoff opens another.  Every effect of a component shares
the references to the socket and to the timer, so a close that arrives late
reaches into the effect that runs by then.
-/

namespace KnowledgeMarketplace

namespace Web

namespace Sockets

variable {θ : Type}

/-! ## Backoff -/

/-- The delays of a hook in milliseconds. -/
structure Backoff where
  base : Nat
  cap : Nat

/-- `Math.min(base * 2 ** attempt, cap)`. -/
def Backoff.delay (backoff : Backoff) (attempt : Nat) : Nat :=
  min (backoff.base * 2 ^ attempt) backoff.cap

/-- The delays of `useThreadSocket`. -/
def useThreadSocket : Backoff := { base := 1500, cap := 15000 }

/-- The delays of `NotificationsProvider`. -/
def notificationsProvider : Backoff := { base := 2000, cap := 30000 }

/-- How often in a row a lost socket is opened again. -/
def maxAttempts : Nat := 5

/-! ## Effects -/

inductive ReadyState where
  | connecting
  | opened
  | closing
  | closed
  deriving DecidableEq

/-- A socket, and whether its `onopen` has run. -/
structure Socket where
  readyState : ReadyState := .connecting
  wasOpen : Bool := false
  deriving DecidableEq

/-- `close()` leaves a socket alone that is closing or closed. -/
def Socket.close (socket : Socket) : Socket :=
  match socket.readyState with
  | .connecting => { socket with readyState := .closing }
  | .opened => { socket with readyState := .closing }
  | .closing => socket
  | .closed => socket

structure Timer where
  delay : Nat
  pending : Bool := true
  deriving DecidableEq

/-- One run of the effect: its variables, and the sockets and timers that its
closures have made, oldest first. -/
structure Effect (θ : Type) where
  threadId : θ
  closedByUs : Bool := false
  attempt : Nat := 0
  sockets : List Socket := []
  timers : List Timer := []
  deriving DecidableEq

namespace Effect

/-- `new WebSocket(..)`. -/
def dial (effect : Effect θ) : Effect θ :=
  { effect with sockets := effect.sockets ++ [{}] }

def onopen (effect : Effect θ) (index : Nat) : Effect θ :=
  { effect with
    attempt := 0
    sockets := effect.sockets.modify index fun socket =>
      { socket with readyState := .opened, wasOpen := true } }

/-- The peer starts the closing handshake; no handler runs. -/
def hangUp (effect : Effect θ) (index : Nat) : Effect θ :=
  { effect with
    sockets := effect.sockets.modify index fun socket =>
      { socket with readyState := .closing } }

/-- The socket is closed. -/
def drop (effect : Effect θ) (index : Nat) : Effect θ :=
  { effect with
    sockets := effect.sockets.modify index fun socket =>
      { socket with readyState := .closed } }

/-- `setTimeout(connect, delay)`, after a close that may be retried. -/
def retry (backoff : Backoff) (effect : Effect θ) : Effect θ :=
  { effect with
    attempt := effect.attempt + 1
    timers := effect.timers ++ [{ delay := backoff.delay effect.attempt }] }

/-- The timer fires or is cleared. -/
def settle (effect : Effect θ) (index : Nat) : Effect θ :=
  { effect with
    timers := effect.timers.modify index fun timer =>
      { timer with pending := false } }

def close (effect : Effect θ) (index : Nat) : Effect θ :=
  { effect with sockets := effect.sockets.modify index Socket.close }

end Effect

/-! ## The component -/

/-- A mounted component: the runs of its effect, the one that has not been
cleaned up, the shared references and the rendered state.  The notification
center has a single thread and does not render the state. -/
structure Hook (θ : Type) where
  effects : List (Effect θ) := []
  mounted : Option Nat := none
  socketRef : Option (Nat × Nat) := none
  retryRef : Option (Nat × Nat) := none
  connected : Bool := false
  generation : Nat := 0
  deriving DecidableEq

namespace Hook

def change (hook : Hook θ) (run : Nat) (edit : Effect θ → Effect θ) : Hook θ :=
  { hook with effects := hook.effects.modify run edit }

def connect (hook : Hook θ) (run : Nat) : Hook θ :=
  match hook.effects[run]? with
  | none => hook
  | some effect =>
      if effect.closedByUs then hook
      else
        { hook.change run Effect.dial with
          socketRef := some (run, effect.sockets.length) }

def onopen (hook : Hook θ) (run index : Nat) : Hook θ :=
  { hook.change run (·.onopen index) with
    connected := true
    generation := hook.generation + 1 }

def onclose (backoff : Backoff) (hook : Hook θ) (run index : Nat) : Hook θ :=
  let hook :=
    { hook.change run (·.drop index) with
      connected := false
      generation := 0
      socketRef := none }
  match hook.effects[run]? with
  | none => hook
  | some effect =>
      if effect.closedByUs then hook
      else if effect.attempt < maxAttempts then
        { hook.change run (Effect.retry backoff) with
          retryRef := some (run, effect.timers.length) }
      else hook

/-- `closedByUs = true` and `clearTimeout(retryRef.current)`. -/
def clear (hook : Hook θ) (run : Nat) : Hook θ :=
  let hook := hook.change run fun effect => { effect with closedByUs := true }
  match hook.retryRef with
  | none => hook
  | some (owner, index) => hook.change owner (·.settle index)

/-- `socketRef.current?.close()`. -/
def closeSocket (hook : Hook θ) : Hook θ :=
  match hook.socketRef with
  | none => hook
  | some (owner, index) => hook.change owner (·.close index)

/-- What the effect returns. -/
def cleanup (hook : Hook θ) : Hook θ :=
  match hook.mounted with
  | none => hook
  | some run =>
      { (hook.clear run).closeSocket with socketRef := none, mounted := none }

/-- The effect runs for a thread; without one it does nothing. -/
def start (hook : Hook θ) (threadId : Option θ) : Hook θ :=
  match threadId with
  | none => hook
  | some threadId =>
      let run := hook.effects.length
      connect
        { hook with
          effects := hook.effects ++ [{ threadId }]
          mounted := some run }
        run

/-- The thread of the open socket that `send` writes to. -/
def send (hook : Hook θ) : Option θ :=
  match hook.socketRef with
  | none => none
  | some (run, index) =>
      match hook.effects[run]? with
      | none => none
      | some effect =>
          match effect.sockets[index]? with
          | none => none
          | some socket =>
              if socket.readyState = .opened then some effect.threadId
              else none

end Hook

/-! ## Events -/

/-- What happens to a component.  Cleanup and effect run together when the
thread changes; the others name the run of the effect and its socket or
timer. -/
inductive Event (θ : Type) where
  | render (threadId : Option θ)
  | unmount
  | opened (run index : Nat)
  | hungUp (run index : Nat)
  | closed (run index : Nat)
  | fired (run index : Nat)
  deriving DecidableEq

namespace Hook

def readyState (hook : Hook θ) (run index : Nat) : Option ReadyState :=
  (hook.effects[run]?.bind (·.sockets[index]?)).map (·.readyState)

def pending (hook : Hook θ) (run index : Nat) : Bool :=
  (hook.effects[run]?.bind (·.timers[index]?)).any (·.pending)

/-- A socket opens from connecting, and closes once; a timer fires while it is
pending.  An event at another time does not happen. -/
def step (backoff : Backoff) (hook : Hook θ) : Event θ → Hook θ
  | .render threadId => hook.cleanup.start threadId
  | .unmount => hook.cleanup
  | .opened run index =>
      if hook.readyState run index = some .connecting then
        hook.onopen run index
      else hook
  | .hungUp run index =>
      if hook.readyState run index = some .opened then
        hook.change run (·.hangUp index)
      else hook
  | .closed run index =>
      match hook.readyState run index with
      | none => hook
      | some .closed => hook
      | some _ => hook.onclose backoff run index
  | .fired run index =>
      if hook.pending run index then
        (hook.change run (·.settle index)).connect run
      else hook

def run (backoff : Backoff) (hook : Hook θ) (events : List (Event θ)) :
    Hook θ :=
  events.foldl (step backoff) hook

end Hook

/-! ## The schedule of an effect -/

/-- How many sockets in a row have closed since one was open, with that one;
newest first. -/
def failures : List Bool → Nat
  | [] => 0
  | wasOpen :: earlier => (if wasOpen then 0 else failures earlier) + 1

/-- The delays after these closes, newest first. -/
def Backoff.delays (backoff : Backoff) : List Bool → List Nat
  | [] => []
  | wasOpen :: earlier =>
      backoff.delay (failures (wasOpen :: earlier) - 1) ::
        backoff.delays earlier

example :
    (useThreadSocket.delays (List.replicate 5 false)).reverse =
      [1500, 3000, 6000, 12000, 15000] ∧
    (notificationsProvider.delays (List.replicate 5 false)).reverse =
      [2000, 4000, 8000, 16000, 30000] := by
  decide

/-- No socket follows one too many failures. -/
def Steady : List Bool → Prop
  | [] => True
  | _ :: earlier => failures earlier ≤ maxAttempts ∧ Steady earlier

/-- Which of the sockets have been open, newest first. -/
def history (sockets : List Socket) : List Bool :=
  (sockets.map (·.wasOpen)).reverse

@[simp] theorem history_append (sockets : List Socket) (last : Socket) :
    history (sockets ++ [last]) = last.wasOpen :: history sockets := by
  simp [history]

/-- A steady history has few failures for each opening. -/
theorem Steady.length_le {opens : List Bool} (steady : Steady opens) :
    opens.length ≤ maxAttempts * opens.countP id + failures opens := by
  induction opens with
  | nil => simp
  | cons wasOpen earlier inductionHypothesis =>
      have rest := inductionHypothesis steady.2
      have few := steady.1
      cases wasOpen with
      | false =>
          simp only [List.length_cons, List.countP_cons, failures, id,
            Bool.false_eq_true, if_false, Nat.add_zero]
          omega
      | true =>
          simp only [List.length_cons, List.countP_cons, failures, id,
            if_true, Nat.mul_add]
          omega

/-- Where an effect stands, by its newest socket. -/
inductive Effect.Stage (backoff : Backoff) (effect : Effect θ)
    (last : Socket) : Prop
  | trying
      (live : last.readyState ≠ .closed)
      (attempt : effect.attempt + 1 = failures (history effect.sockets))
      (delays : effect.timers.map (·.delay) =
        (backoff.delays (history effect.sockets).tail).reverse)
      (spent : ∀ timer ∈ effect.timers, timer.pending = false)
  | waiting
      (lost : last.readyState = .closed)
      (attempt : effect.attempt = failures (history effect.sockets))
      (few : effect.attempt ≤ maxAttempts)
      (delays : effect.timers.map (·.delay) =
        (backoff.delays (history effect.sockets)).reverse)
      (fired : List Timer) (next : Timer)
      (timers : effect.timers = fired ++ [next])
      (spent : ∀ timer ∈ fired, timer.pending = false)
      (awaited : next.pending = true)
  | stopped
      (lost : last.readyState = .closed)
      (delays : effect.timers.map (·.delay) =
          (backoff.delays (history effect.sockets)).reverse ∨
        effect.timers.map (·.delay) =
          (backoff.delays (history effect.sockets).tail).reverse)
      (spent : ∀ timer ∈ effect.timers, timer.pending = false)
      (why : effect.closedByUs = false →
        failures (history effect.sockets) = maxAttempts + 1)

/-- All sockets but the newest are closed. -/
inductive Effect.Sound (backoff : Backoff) (effect : Effect θ) : Prop
  | intro (earlier : List Socket) (last : Socket)
      (sockets : effect.sockets = earlier ++ [last])
      (lost : ∀ socket ∈ earlier, socket.readyState = .closed)
      (steady : Steady (history effect.sockets))
      (stage : effect.Stage backoff last)

/-! ## Steps of an effect -/

theorem modify_length_append {α : Type} (earlier : List α) (last : α)
    (change : α → α) :
    (earlier ++ [last]).modify earlier.length change =
      earlier ++ [change last] := by
  induction earlier with
  | nil => simp
  | cons first rest inductionHypothesis =>
      simp [inductionHypothesis]

namespace Effect

variable {backoff : Backoff} {effect : Effect θ}

/-- A socket that is not closed is the newest. -/
theorem newest_of_live
    {earlier : List Socket} {last : Socket}
    (lost : ∀ socket ∈ earlier, socket.readyState = .closed)
    {index : Nat} {socket : Socket}
    (found : (earlier ++ [last])[index]? = some socket)
    (live : socket.readyState ≠ .closed) :
    index = earlier.length ∧ socket = last := by
  by_cases old : index < earlier.length
  · rw [List.getElem?_append_left old] at found
    exact absurd (lost socket (List.mem_of_getElem? found)) live
  · rw [List.getElem?_append_right (Nat.le_of_not_lt old)] at found
    have bound := (List.getElem?_eq_some_iff.mp found).1
    have zero : index - earlier.length = 0 := by simpa using bound
    rw [zero] at found
    exact ⟨by omega, by simpa using found.symm⟩

/-- A change of the newest socket that keeps whether it has been open. -/
theorem Sound.touch
    (sound : effect.Sound backoff) {index : Nat} {socket : Socket}
    (found : effect.sockets[index]? = some socket)
    (live : socket.readyState ≠ .closed)
    {change : Socket → Socket}
    (still : (change socket).wasOpen = socket.wasOpen)
    (unclosed : (change socket).readyState ≠ .closed) :
    Sound backoff
      { effect with sockets := effect.sockets.modify index change } := by
  obtain ⟨earlier, last, sockets, lost, steady, stage⟩ := sound
  rw [sockets] at found
  obtain ⟨rfl, rfl⟩ := newest_of_live lost found live
  have after : effect.sockets.modify earlier.length change =
      earlier ++ [change socket] := by
    rw [sockets, modify_length_append]
  have same : history (effect.sockets.modify earlier.length change) =
      history effect.sockets := by
    rw [after, sockets, history_append, history_append, still]
  refine ⟨earlier, change socket, after, lost, same ▸ steady, ?_⟩
  cases stage with
  | trying _ attempt delays spent =>
      exact .trying unclosed (same ▸ attempt) (same ▸ delays) spent
  | waiting lost => exact absurd lost live
  | stopped lost => exact absurd lost live

theorem Sound.hangUp
    (sound : effect.Sound backoff) {index : Nat} {socket : Socket}
    (found : effect.sockets[index]? = some socket)
    (live : socket.readyState ≠ .closed) :
    (effect.hangUp index).Sound backoff :=
  sound.touch found live rfl (by simp)

theorem Sound.close
    (sound : effect.Sound backoff) {index : Nat} {socket : Socket}
    (found : effect.sockets[index]? = some socket)
    (live : socket.readyState ≠ .closed) :
    (effect.close index).Sound backoff := by
  refine sound.touch found live ?_ ?_
  · unfold Socket.close
    split <;> rfl
  · unfold Socket.close
    split <;> simp_all

theorem Sound.onopen
    (sound : effect.Sound backoff) {index : Nat} {socket : Socket}
    (found : effect.sockets[index]? = some socket)
    (live : socket.readyState ≠ .closed) :
    (effect.onopen index).Sound backoff := by
  obtain ⟨earlier, last, sockets, lost, steady, stage⟩ := sound
  rw [sockets] at found
  obtain ⟨rfl, rfl⟩ := newest_of_live lost found live
  have after : (effect.onopen earlier.length).sockets =
      earlier ++ [{ socket with readyState := .opened, wasOpen := true }] := by
    rw [Effect.onopen, sockets, modify_length_append]
  rw [sockets, history_append] at steady
  refine ⟨earlier, _, after, lost, ?_, ?_⟩
  · rw [after, history_append]
    exact steady
  · cases stage with
    | trying _ attempt delays spent =>
        refine .trying (by simp) ?_ ?_ spent
        · rw [after, history_append]
          rfl
        · rw [sockets, history_append] at delays
          rw [after, history_append]
          exact delays
    | waiting lost => exact absurd lost live
    | stopped lost => exact absurd lost live

/-- The newest socket is closed: its delay is next, if there is a next. -/
theorem Sound.drop
    (sound : effect.Sound backoff) {index : Nat} {socket : Socket}
    (found : effect.sockets[index]? = some socket)
    (live : socket.readyState ≠ .closed) :
    (effect.closedByUs = true ∨ ¬ effect.attempt < maxAttempts →
        (effect.drop index).Sound backoff) ∧
      (effect.attempt < maxAttempts →
        ((effect.drop index).retry backoff).Sound backoff) := by
  obtain ⟨earlier, last, sockets, lost, steady, stage⟩ := sound
  rw [sockets] at found
  obtain ⟨rfl, rfl⟩ := newest_of_live lost found live
  have after : (effect.drop earlier.length).sockets =
      earlier ++ [{ socket with readyState := .closed }] := by
    rw [Effect.drop, sockets, modify_length_append]
  have same : history (effect.drop earlier.length).sockets =
      history effect.sockets := by
    rw [after, sockets, history_append, history_append]
  cases stage with
  | waiting lost => exact absurd lost live
  | stopped lost => exact absurd lost live
  | trying _ attempt delays spent =>
      have few : effect.attempt ≤ maxAttempts := by
        rw [sockets, history_append] at attempt steady
        have before := steady.1
        simp only [failures] at attempt
        split at attempt <;> omega
      constructor
      · intro ends
        refine ⟨earlier, _, after, lost, same ▸ steady,
          .stopped rfl (.inr (same ▸ delays)) spent ?_⟩
        intro ours
        rcases ends with theirs | last
        · exact absurd theirs (by simpa [Effect.drop] using ours)
        · rw [same, ← attempt]
          omega
      · intro again
        refine ⟨earlier, _, after, lost, same ▸ steady, ?_⟩
        refine .waiting rfl ?_ ?_ ?_ effect.timers _ rfl spent rfl
        · exact attempt.trans (congrArg failures same.symm)
        · exact again
        · have whole : history effect.sockets =
              socket.wasOpen :: history earlier := by
            rw [sockets, history_append]
          have delays' : effect.timers.map (·.delay) =
              (backoff.delays (history earlier)).reverse := by
            rw [delays, whole, List.tail_cons]
          have delay : effect.attempt =
              failures (socket.wasOpen :: history earlier) - 1 := by
            rw [← whole, ← attempt]
            omega
          show (effect.timers ++ [_]).map _ =
            (backoff.delays (history (effect.drop earlier.length).sockets)
              ).reverse
          rw [same, whole, Backoff.delays, List.reverse_cons, ← delays',
            ← delay]
          simp [Effect.drop]

/-- Settling a timer leaves its delay. -/
theorem map_delay_settle (effect : Effect θ) (index : Nat) :
    (effect.settle index).timers.map (·.delay) =
      effect.timers.map (·.delay) := by
  refine List.ext_getElem? fun place => ?_
  simp only [settle, List.getElem?_map, List.getElem?_modify]
  cases effect.timers[place]? with
  | none => rfl
  | some timer => by_cases here : index = place <;> simp [here]

/-- Settling the newest timer leaves none pending. -/
theorem spent_settle
    {fired : List Timer} {next : Timer}
    (timers : effect.timers = fired ++ [next])
    (spent : ∀ timer ∈ fired, timer.pending = false)
    {index : Nat} {timer : Timer}
    (found : effect.timers[index]? = some timer)
    (awaited : timer.pending = true) :
    ∀ timer ∈ (effect.settle index).timers, timer.pending = false := by
  have newest : index = fired.length := by
    rw [timers] at found
    by_cases old : index < fired.length
    · rw [List.getElem?_append_left old] at found
      simp [spent timer (List.mem_of_getElem? found)] at awaited
    · have bound := (List.getElem?_eq_some_iff.mp found).1
      rw [List.length_append, List.length_singleton] at bound
      omega
  intro timer member
  rw [settle, timers, newest, modify_length_append, List.mem_append,
    List.mem_singleton] at member
  rcases member with old | rfl
  · exact spent timer old
  · rfl

/-- A pending timer is the newest, and the effect waits for it. -/
theorem Sound.redial
    (sound : effect.Sound backoff) {index : Nat} {timer : Timer}
    (found : effect.timers[index]? = some timer)
    (awaited : timer.pending = true) :
    (effect.settle index).dial.Sound backoff := by
  obtain ⟨earlier, last, sockets, lost, steady, stage⟩ := sound
  have listed := List.mem_of_getElem? found
  cases stage with
  | trying _ _ _ spent => simp [spent timer listed] at awaited
  | stopped _ _ spent => simp [spent timer listed] at awaited
  | waiting closed attempt few delays fired next timers spent =>
      have whole : (effect.settle index).dial.sockets =
          effect.sockets ++ [({} : Socket)] := rfl
      refine ⟨effect.sockets, {}, whole, ?_, ?_, ?_⟩
      · intro socket member
        rw [sockets, List.mem_append, List.mem_singleton] at member
        rcases member with old | rfl
        · exact lost socket old
        · exact closed
      · rw [whole, history_append]
        exact ⟨attempt ▸ few, steady⟩
      · refine .trying (by simp) ?_ ?_ ?_
        · rw [whole, history_append, failures, ← attempt]
          rfl
        · rw [whole, history_append, List.tail_cons, ← delays]
          exact map_delay_settle effect index
        · exact spent_settle timers spent found awaited

/-- Cleaning up leaves an effect where it stands. -/
theorem Sound.ours (sound : effect.Sound backoff) :
    Sound backoff { effect with closedByUs := true } := by
  obtain ⟨earlier, last, sockets, lost, steady, stage⟩ := sound
  refine ⟨earlier, last, sockets, lost, steady, ?_⟩
  cases stage with
  | trying live attempt delays spent =>
      exact .trying live attempt delays spent
  | waiting closed attempt few delays fired next timers spent awaited =>
      exact .waiting closed attempt few delays fired next timers spent awaited
  | stopped closed delays spent _ =>
      exact .stopped closed delays spent (by simp)

/-- A cleaned-up effect stops with its timer. -/
theorem Sound.settle
    (sound : effect.Sound backoff) (ours : effect.closedByUs = true)
    {index : Nat} {timer : Timer}
    (found : effect.timers[index]? = some timer)
    (awaited : timer.pending = true) :
    (effect.settle index).Sound backoff := by
  obtain ⟨earlier, last, sockets, lost, steady, stage⟩ := sound
  have listed := List.mem_of_getElem? found
  refine ⟨earlier, last, sockets, lost, steady, ?_⟩
  cases stage with
  | trying _ _ _ spent => simp [spent timer listed] at awaited
  | stopped _ _ spent => simp [spent timer listed] at awaited
  | waiting closed _ _ delays fired next timers spent =>
      refine .stopped closed (.inl ?_)
        (spent_settle timers spent found awaited) ?_
      · rw [map_delay_settle]
        exact delays
      · intro theirs
        simp [Effect.settle, ours] at theirs

/-- A timer that is not pending has nothing to settle. -/
theorem settle_of_spent
    {index : Nat}
    (spent : ∀ timer, effect.timers[index]? = some timer →
      timer.pending = false) :
    effect.settle index = effect := by
  have same : effect.timers.modify index
      (fun timer => { timer with pending := false }) = effect.timers := by
    refine List.ext_getElem? fun place => ?_
    rw [List.getElem?_modify]
    by_cases here : index = place
    · subst here
      cases found : effect.timers[index]? with
      | none => rfl
      | some timer =>
          have none := spent timer found
          cases timer
          simp_all
    · cases effect.timers[place]? <;> simp [here]
  simp only [Effect.settle, same]

/-- An effect that has been cleaned up and waits for nothing. -/
structure Retired (backoff : Backoff) (effect : Effect θ) : Prop where
  sound : effect.Sound backoff
  ours : effect.closedByUs = true
  spent : ∀ timer ∈ effect.timers, timer.pending = false

theorem Retired.settle
    (retired : effect.Retired backoff) (index : Nat) :
    (effect.settle index).Retired backoff := by
  rw [settle_of_spent fun timer found =>
    retired.spent timer (List.mem_of_getElem? found)]
  exact retired

/-- Clearing the one timer that may be pending retires the effect. -/
theorem Sound.retire
    (sound : effect.Sound backoff) (ours : effect.closedByUs = true)
    {index : Nat}
    (only : ∀ place timer, effect.timers[place]? = some timer →
      timer.pending = true → place = index) :
    (effect.settle index).Retired backoff := by
  refine ⟨?_, ours, ?_⟩
  · cases found : effect.timers[index]? with
    | none =>
        rw [settle_of_spent (by simp [found])]
        exact sound
    | some timer =>
        by_cases awaited : timer.pending = true
        · exact sound.settle ours found awaited
        · rw [settle_of_spent (by simpa [found] using awaited)]
          exact sound
  · intro timer member
    obtain ⟨place, found⟩ := List.mem_iff_getElem?.mp member
    rw [Effect.settle, List.getElem?_modify] at found
    by_cases here : index = place
    · obtain ⟨before, _, rfl⟩ : ∃ before, effect.timers[place]? = some before ∧
          ({ before with pending := false } : Timer) = timer := by
        simpa [here] using found
      rfl
    · have before : effect.timers[place]? = some timer := by
        simpa [here] using found
      by_contra awaited
      exact here (only place timer before (by simpa using awaited)).symm

/-- Closing a socket leaves the effect where it stands. -/
theorem Retired.close
    (retired : effect.Retired backoff) (index : Nat) :
    (effect.close index).Retired backoff := by
  refine ⟨?_, retired.ours, retired.spent⟩
  cases found : effect.sockets[index]? with
  | none =>
      have same : effect.sockets.modify index Socket.close = effect.sockets :=
        List.modify_eq_self (List.getElem?_eq_none_iff.mp found)
      simp only [Effect.close, same]
      exact retired.sound
  | some socket =>
      by_cases closed : socket.readyState = .closed
      · have still : socket.close = socket := by simp [Socket.close, closed]
        have same : effect.sockets.modify index Socket.close =
            effect.sockets := by
          refine List.ext_getElem? fun place => ?_
          rw [List.getElem?_modify]
          by_cases here : index = place
          · subst here
            simp [found, still]
          · cases effect.sockets[place]? <;> simp [here]
        simp only [Effect.close, same]
        exact retired.sound
      · exact retired.sound.close found closed

/-- The socket is there and not closed. -/
def Live (effect : Effect θ) (index : Nat) : Prop :=
  ∃ socket, effect.sockets[index]? = some socket ∧
    socket.readyState ≠ .closed

/-- While a socket of an effect is not closed, none of its timers waits. -/
theorem Sound.spent_of_live
    (sound : effect.Sound backoff) {index : Nat}
    (alive : effect.Live index) :
    ∀ timer ∈ effect.timers, timer.pending = false := by
  obtain ⟨socket, found, live⟩ := alive
  obtain ⟨earlier, last, sockets, lost, steady, stage⟩ := sound
  rw [sockets] at found
  obtain ⟨rfl, rfl⟩ := newest_of_live lost found live
  cases stage with
  | trying _ _ _ spent => exact spent
  | waiting closed => exact absurd closed live
  | stopped closed => exact absurd closed live

/-- The first socket of an effect. -/
theorem sound_dial (threadId : θ) :
    (dial { threadId } : Effect θ).Sound backoff := by
  refine ⟨[], {}, rfl, by simp, ⟨by simp [failures], trivial⟩, ?_⟩
  exact .trying (by simp) rfl rfl (by simp [dial])

/-! ## What an effect has done -/

/-- The sockets that are not closed. -/
def live (effect : Effect θ) : List Socket :=
  effect.sockets.filter (·.readyState ≠ .closed)

/-- The timers that have neither fired nor been cleared. -/
def awaited (effect : Effect θ) : List Timer :=
  effect.timers.filter (·.pending)

/-- The life of one effect: it has one socket or one timer at most, its delays
are those of the schedule, and openings pay for its sockets. -/
structure Paced (backoff : Backoff) (effect : Effect θ) : Prop where
  single : effect.live.length + effect.awaited.length ≤ 1
  persistent : effect.closedByUs = false →
    effect.live.length + effect.awaited.length = 1 ∨
      failures (history effect.sockets) = maxAttempts + 1
  scheduled : effect.timers.map (·.delay) <+:
    (backoff.delays (history effect.sockets)).reverse
  bounded : effect.sockets.length ≤
    maxAttempts * effect.sockets.countP (·.wasOpen) + (maxAttempts + 1)

theorem Sound.paced (sound : effect.Sound backoff) :
    effect.Paced backoff := by
  obtain ⟨earlier, last, sockets, lost, steady, stage⟩ := sound
  have bounded : effect.sockets.length ≤
      maxAttempts * effect.sockets.countP (·.wasOpen) + (maxAttempts + 1) := by
    have whole := steady.length_le
    rw [sockets, history_append] at steady
    have few : failures (history effect.sockets) ≤ maxAttempts + 1 := by
      rw [sockets, history_append, failures]
      have before := steady.1
      split <;> omega
    have opens : (history effect.sockets).countP id =
        effect.sockets.countP (·.wasOpen) := by
      simp [history, List.countP_map]
    have count : (history effect.sockets).length = effect.sockets.length := by
      simp [history]
    rw [opens, count] at whole
    omega
  have old : earlier.filter (·.readyState ≠ .closed) = [] := by
    rw [List.filter_eq_nil_iff]
    intro socket member
    simp [lost socket member]
  have tail : (backoff.delays (history effect.sockets).tail).reverse <+:
      (backoff.delays (history effect.sockets)).reverse := by
    rw [sockets, history_append, List.tail_cons, Backoff.delays,
      List.reverse_cons]
    exact List.prefix_append _ _
  cases stage with
  | trying unclosed attempt delays spent =>
      have one : effect.live.length = 1 := by
        rw [live, sockets, List.filter_append, old]
        simp [unclosed]
      have none : effect.awaited = [] := by
        rw [awaited, List.filter_eq_nil_iff]
        intro timer member
        simp [spent timer member]
      refine ⟨?_, fun _ => .inl ?_, delays ▸ tail, bounded⟩ <;>
        simp [one, none]
  | waiting closed attempt few delays fired next timers spent pending =>
      have none : effect.live = [] := by
        rw [live, sockets, List.filter_append, old]
        simp [closed]
      have before : fired.filter (·.pending) = [] := by
        rw [List.filter_eq_nil_iff]
        intro timer member
        simp [spent timer member]
      have one : effect.awaited.length = 1 := by
        rw [awaited, timers, List.filter_append, before]
        simp [pending]
      refine ⟨?_, fun _ => .inl ?_, delays ▸ List.prefix_rfl, bounded⟩ <;>
        simp [one, none]
  | stopped closed delays spent why =>
      have none : effect.live = [] := by
        rw [live, sockets, List.filter_append, old]
        simp [closed]
      have idle : effect.awaited = [] := by
        rw [awaited, List.filter_eq_nil_iff]
        intro timer member
        simp [spent timer member]
      refine ⟨by simp [none, idle], fun theirs => .inr (why theirs), ?_,
        bounded⟩
      rcases delays with whole | short
      · exact whole ▸ List.prefix_rfl
      · exact short ▸ tail

end Effect

end Sockets

end Web

end KnowledgeMarketplace
