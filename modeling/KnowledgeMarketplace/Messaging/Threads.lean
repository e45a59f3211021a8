import KnowledgeMarketplace.Messaging.Services
import KnowledgeMarketplace.Operations.Effects
import KnowledgeMarketplace.Transaction.Readers

/-!
# One thread for each context

Threads are created lazily, when a context is opened and when a dispute is.  The
look-up before the insert is all that keeps a context from getting a second
thread.
-/

namespace KnowledgeMarketplace

open Transaction

namespace Messaging

/-- The row that a thread is about. -/
def contextKey (thread : Thread) : Option Nat :=
  match thread.contextType with
  | .request => thread.request
  | .order | .dispute => thread.order

/-- The threads about a row. -/
def threadsAbout (contextType : ThreadContext) (id : Nat) (db : Db) :
    List ThreadId :=
  db.conversations.threads.select fun _ thread =>
    thread.contextType = contextType && contextKey thread = some id

/-- A row has one thread at most, and a dispute thread comes with a dispute. -/
structure Founded (db : Db) : Prop where
  single : ∀ contextType id, (threadsAbout contextType id db).length ≤ 1
  filed : ∀ id, threadsAbout .dispute id db ≠ [] →
    (db.disputes.row id).isSome = true

/-- A new thread is the first about its row; a dispute was filed before. -/
def FindsFirst : Stmt → Db → Prop
  | .converse (.insertThread _ thread), db =>
      ∀ id ∈ contextKey thread, threadsAbout thread.contextType id db = [] ∧
        (thread.contextType = .dispute → (db.disputes.row id).isSome = true)
  | _, _ => True

instance (stmt : Stmt) (db : Db) : Decidable (FindsFirst stmt db) := by
  unfold FindsFirst
  split
  · exact decidable_of_iff (∀ id ∈ contextKey _, _ ∧ (_ → _)) .rfl
  · exact .isTrue trivial

/-- The effects on conversations are new threads. -/
def opening : Effect Stmt → Prop
  | .write (.converse (.insertThread _ _)) => True
  | .write (.converse _) => False
  | _ => True

theorem opening_elsewhere {stmt : Stmt} (other : stmt.table ≠ .conversations) :
    opening (.write stmt) := by
  cases stmt <;> simp_all [opening, Stmt.table]

theorem opening_ordering : Ordering opening where
  elsewhere stmt other := opening_elsewhere fun same => other (by simp [same])
  moved _ _ _ _ _ := by simp [ServiceRequests.transition, opening]
  saved _ _ _ := trivial
  told _ _ := trivial

theorem opening_founding : Founding opening where
  matched stmt table := opening_elsewhere fun same => by simp [same] at table
  created _ _ _ _ _ := trivial
  told _ := trivial

/-- The operations of the marketplace write no conversation. -/
theorem operation_opening (operation : Operation) :
    operation.call.Emits opening fun _ => True := by
  refine Operation.emits_of_accounts opening_ordering trivial
    (fun stmt table => opening_elsewhere fun same => by simp [same] at table)
    (fun _ => trivial) (fun _ _ _ => trivial) (fun _ _ _ _ => trivial)
    (fun apart => ?_) fun triages => ?_
  · rcases apart with delivers | extending | marks
    · exact delivers.emits (fun _ _ => trivial) (fun _ _ => trivial)
        (fun _ => trivial) fun _ _ => trivial
    · exact extending.emits (fun _ _ => trivial) (fun _ _ => trivial)
        (fun _ _ _ => trivial) (fun _ _ => trivial) (fun _ => trivial)
        fun _ _ => trivial
    · exact marks.emits fun _ _ _ => trivial
  · by_cases converges : operation.Converges
    · exact converges.emits opening_founding
    · exact triages.emits
        (fun stmt table =>
          opening_elsewhere fun same => by simp [same] at table)
        converges

/-! ## Activities -/

/-- `open_dispute` with its last step, the thread of the dispute. -/
def openDispute
    (env : Env) (id : OrderId) (actor : Actor) (reason : DisputeReason)
    (description : String) (evidence : Except Error Unit) :
    Tx LoadedThread := do
  Disputes.openDispute env id actor reason description evidence
  let order ← Tx.get (fun db => db.orders.row id) "Order"
  getOrCreateThread env (.dispute id order) actor.id

/-- What goes on: threads and disputes are opened, and everything else. -/
inductive Activity where
  | operation (operation : Operation)
  | openContext (env : Env) (contextType : ThreadContext) (id : Nat)
      (actor : UserId)
  | openDispute (env : Env) (id : OrderId) (actor : Actor)
      (reason : DisputeReason) (description : String)
      (evidence : Except Error Unit)

namespace Activity

/-- The request of the client; who opens a context is told the thread. -/
def call : Activity → Call (Option ThreadId)
  | .operation work => do
      work.call
      return none
  | .openContext env contextType id actor => do
      let thread ← Messaging.openContext env contextType id actor
      return some thread.id
  | .openDispute env id actor reason description evidence => do
      let _ ← Call.atomic <|
        Messaging.openDispute env id actor reason description evidence
      return none

end Activity

/-- Clients with their activities and the committed database. -/
abbrev Conversing := System Db Row Stmt (Except Error (Option ThreadId))

def Conversing.start (db : Db) (activities : Nat → Activity) : Conversing :=
  System.init db fun client => (activities client).call

abbrev Conversing.Turn := Event (Except Error (Option ThreadId))

/-- A client runs this many statements in a row. -/
def Conversing.turns (client count : Nat) : List Conversing.Turn :=
  List.replicate count (.run client)

theorem getOrCreateThread_opening
    (env : Env) (context : Context) (actor : UserId) :
    (getOrCreateThread env context actor).Emits opening fun _ => True := by
  refine .seq (by simp) fun _ => .seq (by simp) fun _ => ?_
  refine .seq (by simp) fun participants => .seq (by simp) fun _ => ?_
  refine .seq (by simp) fun _ => .seq (by simp) fun stored => .seq ?_ (by simp)
  simp [createThread, Tx.create, opening]

/-- No activity writes another conversation than a new thread. -/
theorem Activity.emits (activity : Activity) :
    activity.call.Emits opening fun _ => True := by
  cases activity with
  | operation operation => exact .seq (operation_opening operation) (by simp)
  | openContext env contextType id actor =>
      refine .seq (.seq (by simp) fun found => .seq (by simp) fun context => ?_)
        (by simp)
      exact Request.emits_atomic.mpr
        (getOrCreateThread_opening env context actor)
  | openDispute env id actor reason description evidence =>
      refine .seq (Request.emits_atomic.mpr (.seq ?_ fun _ => .seq ?_ ?_))
        (by simp)
      · have whole := operation_opening
          (.dispute (.openDispute env id actor reason description evidence))
        exact (Prog.emits_bind.mp (Request.emits_atomic.mp whole)).mono
          fun _ _ => trivial
      · simp [Tx.get]
      · exact fun order =>
          getOrCreateThread_opening env (.dispute id order) actor.id

/-! ## What a new thread keeps -/

/-- A fresh thread counts for its own row. -/
theorem threadsAbout_insert
    {db : Db} {fresh : ThreadId} (thread : Thread)
    (unused : db.conversations.threads.row fresh = none)
    (contextType : ThreadContext) (id : Nat) :
    (threadsAbout contextType id
      ((Stmt.converse (.insertThread fresh thread)).apply db)).length =
      (threadsAbout contextType id db).length +
        if thread.contextType = contextType && contextKey thread = some id
        then 1 else 0 :=
  Table.count_insert
    (fun row : Thread =>
      row.contextType = contextType && contextKey row = some id)
    unused

/-- An insertion under a used key changes nothing. -/
theorem insertThread_used
    {db : Db} {used : ThreadId} {old : Thread} (thread : Thread)
    (taken : db.conversations.threads.row used = some old) :
    (Stmt.converse (.insertThread used thread)).apply db = db := by
  simp [Stmt.apply, ConversationStmt.apply, Table.insert, taken]

/-- A dispute that was filed stays. -/
theorem disputes_kept
    (stmt : Stmt) {db : Db} {id : OrderId}
    (filed : (db.disputes.row id).isSome = true) :
    ((stmt.apply db).disputes.row id).isSome = true := by
  obtain ⟨dispute, stored⟩ := Option.isSome_iff_exists.mp filed
  cases stmt with
  | insertDispute key value =>
      simp [Stmt.apply, Table.row_insert_of_some key value stored]
  | saveDispute key loaded set =>
      by_cases same : id = key <;> simp_all [Stmt.apply]
  | _ => exact filed

/-- A first thread keeps the rest, and so does everything that opens none. -/
theorem Founded.apply
    {stmt : Stmt} {db : Db} (founded : Founded db)
    (opens : opening (.write stmt)) (finds : FindsFirst stmt db) :
    Founded (stmt.apply db) := by
  cases stmt with
  | converse stmt =>
      cases stmt with
      | insertThread fresh thread =>
          cases taken : db.conversations.threads.row fresh with
          | some old =>
              rw [insertThread_used thread taken]
              exact founded
          | none =>
              have count := threadsAbout_insert thread taken
              refine ⟨fun contextType id => ?_, fun id some => ?_⟩
              · rw [count]
                split_ifs with about
                · simp only [Bool.and_eq_true, decide_eq_true_eq] at about
                  obtain ⟨rfl, same⟩ := about
                  simp [(finds id same).1]
                · exact founded.single contextType id
              · have size := count .dispute id
                split_ifs at size with about
                · simp only [Bool.and_eq_true, decide_eq_true_eq] at about
                  exact (finds id about.2).2 about.1
                · refine founded.filed id fun none => some ?_
                  exact List.eq_nil_of_length_eq_zero
                    (by simpa [none] using size)
      | _ => exact opens.elim
  | _ =>
      exact ⟨founded.single,
        fun id some => disputes_kept _ (founded.filed id some)⟩

/-! ## Finding the thread -/

/-- The part that somebody takes in a conversation. -/
inductive Part where
  | party
  | bidder

/-- Somebody takes this part, by the rows of the context. -/
def Part.Taken
    (part : Part) (contextType : ThreadContext) (id : Nat) (user : UserId)
    (db : Db) : Prop :=
  match part, contextType with
  | .party, .request =>
      ∃ request, db.requests.row id = some request ∧ request.student = user
  | .party, .order | .party, .dispute =>
      ∃ order, db.orders.row id = some order ∧
        user ∈ [order.student, order.expert]
  | .bidder, .request =>
      (db.requests.row id).isSome = true ∧ user ∈ offerExperts id db
  | .bidder, .order | .bidder, .dispute => False

variable {part : Part} {contextType : ThreadContext} {id : Nat} {user : UserId}
  {thread : ThreadId} {seen : Db}

/-- The context is found, and the user takes part in it from then on. -/
theorem Part.Taken.context (taken : part.Taken contextType id user seen) :
    ∃ context, findContext contextType id seen = some context ∧
      (∀ db, context.threads db = threadsAbout contextType id db) ∧
      ∀ db, part.Taken contextType id user db →
        user ∈ context.participants db := by
  have threads : ∀ context : Context, context.contextType = contextType →
      (∀ thread : Thread, context.Has thread ↔
        thread.contextType = contextType ∧ contextKey thread = some id) →
      ∀ db, context.threads db = threadsAbout contextType id db := by
    intro context _ has db
    simp only [Context.threads, threadsAbout, has, Bool.decide_and]
  cases contextType with
  | request =>
      cases part with
      | party =>
          obtain ⟨request, stored, owner⟩ := taken
          refine ⟨.request id request, by simp [findContext, stored],
            threads _ rfl fun thread => and_congr_right fun type => ?_, ?_⟩
          · simp [contextKey, type]
          · exact fun _ _ => owner ▸ List.mem_cons_self
      | bidder =>
          obtain ⟨request, stored⟩ := Option.isSome_iff_exists.mp taken.1
          refine ⟨.request id request, by simp [findContext, stored],
            threads _ rfl fun thread => and_congr_right fun type => ?_, ?_⟩
          · simp [contextKey, type]
          · exact fun _ still => List.mem_cons_of_mem _ still.2
  | order =>
      cases part with
      | party =>
          obtain ⟨order, stored, among⟩ := taken
          refine ⟨.order id order, by simp [findContext, stored],
            threads _ rfl fun thread => and_congr_right fun type => ?_,
            fun _ _ => among⟩
          simp [contextKey, type]
      | bidder => exact taken.elim
  | dispute =>
      cases part with
      | party =>
          obtain ⟨order, stored, among⟩ := taken
          refine ⟨.dispute id order, by simp [findContext, stored],
            threads _ rfl fun thread => and_congr_right fun type => ?_,
            fun _ _ => among⟩
          simp [contextKey, type]
      | bidder => exact taken.elim

/-- So it is for a thread that is loaded. -/
theorem Part.Taken.loaded
    (taken : part.Taken contextType id user seen)
    (about : thread ∈ threadsAbout contextType id seen) :
    ∃ loaded, load thread seen = some loaded ∧ loaded.id = thread ∧
      ∀ db, part.Taken contextType id user db →
        user ∈ contextParticipants loaded db := by
  obtain ⟨row, stored, same⟩ := Table.mem_select.mp about
  simp only [Bool.and_eq_true, decide_eq_true_eq] at same
  obtain ⟨type, same⟩ := same
  refine ⟨_, by simp only [load, stored, Option.map_some]; rfl, rfl, ?_⟩
  intro db still
  cases contextType with
  | request =>
      have names : row.request = some id := by
        simpa [contextKey, type] using same
      cases part with
      | party =>
          obtain ⟨request, found, owner⟩ := taken
          simp [contextParticipants, type, names, found, owner]
      | bidder =>
          obtain ⟨request, found⟩ := Option.isSome_iff_exists.mp taken.1
          simp [contextParticipants, type, names, found, still.2]
  | order | dispute =>
      have names : row.order = some id := by
        simpa [contextKey, type] using same
      cases part with
      | party =>
          obtain ⟨order, found, among⟩ := taken
          simpa [contextParticipants, type, names, found] using among
      | bidder => exact taken.elim

/-- The row has a thread, like every row one at most. -/
structure HasThread
    (contextType : ThreadContext) (id : Nat) (thread : ThreadId) (db : Db) :
    Prop where
  founded : Founded db
  about : thread ∈ threadsAbout contextType id db

/-- Somebody takes part in a context that has a thread. -/
structure Open
    (part : Part) (contextType : ThreadContext) (id : Nat) (user : UserId)
    (thread : ThreadId) (db : Db) : Prop
    extends HasThread contextType id thread db where
  taken : part.Taken contextType id user db

/-- The thread is the only one about its row. -/
theorem Open.only (opened : Open part contextType id user thread seen) :
    threadsAbout contextType id seen = [thread] := by
  have single := opened.founded.single contextType id
  have about := opened.about
  cases shape : threadsAbout contextType id seen with
  | nil => simp [shape] at about
  | cons first rest =>
      rw [shape] at single about
      obtain rfl : rest = [] :=
        List.eq_nil_of_length_eq_zero (by simpa using single)
      rw [List.mem_singleton.mp about]

/-- There the thread is found, and nothing is written. -/
theorem openContext_finds (env : Env) :
    (Activity.openContext env contextType id user).call.Derives
      (Open part contextType id user thread) Effect.silent
      fun result => result = .ok (some thread) := by
  refine Request.derives_bind.mpr ?_
  refine Request.derives_bind.mpr
    (Request.derives_load.mpr fun seen opened => ?_)
  obtain ⟨context, found, threads, participates⟩ := opened.taken.context
  rw [found]
  refine Request.derives_bind.mpr (Request.derives_atomic.mpr ?_)
  refine Prog.derives_bind.mpr (Prog.derives_read.mpr fun first opened => ?_)
  refine Prog.derives_bind.mpr (Prog.derives_require.mpr
    ⟨fun _ => ?_, fun absent => absurd (participates _ opened.taken) absent⟩)
  refine Prog.derives_bind.mpr (Prog.derives_read.mpr fun second _ => ?_)
  refine Prog.derives_bind.mpr (Prog.derives_read.mpr fun third opened => ?_)
  rw [threads third, opened.only]
  refine Prog.derives_bind.mpr (Prog.derives_require.mpr
    ⟨fun _ => ?_, fun several => absurd (by simp) several⟩)
  refine Prog.derives_bind.mpr (Prog.derives_read.mpr fun fourth opened => ?_)
  obtain ⟨loaded, stored, same, participates⟩ :=
    opened.taken.loaded opened.about
  rw [List.head?_cons, Option.bind_some, stored]
  refine Prog.derives_bind.mpr (Prog.derives_orElse.mpr
    ⟨fun found chosen => ?_, nofun⟩)
  obtain rfl := Option.some.inj chosen
  refine Prog.derives_bind.mpr (Prog.derives_read.mpr fun fifth opened => ?_)
  refine Prog.derives_bind.mpr (Prog.derives_require.mpr
    ⟨fun _ => ?_, fun absent => absurd (participates _ opened.taken) absent⟩)
  exact congrArg (fun id => Except.ok (some id)) same

/-! ## Runs -/

/-- What the activities promise: they open threads at most. -/
theorem Conversing.start_sound (db : Db) (activities : Nat → Activity) :
    (Conversing.start db activities).Sound (.keeping fun _ => True)
      fun _ stmts _ => ∀ stmt ∈ stmts, opening (.write stmt) :=
  System.sound_init trivial fun client =>
    (Activity.emits (activities client)).safe
      (fun _ _ all _ _ => ⟨trivial, all⟩) fun _ _ _ _ _ _ _ => trivial

/-- A transaction of first threads. -/
theorem Founded.applyAll
    {stmts : List Stmt} {db : Db} (founded : Founded db)
    (opens : ∀ stmt ∈ stmts, opening (.write stmt))
    (along : Along FindsFirst stmts db) :
    Founded (Transaction.applyAll stmts db) :=
  along.keeps Founded
    (fun stmt member _ finds before => before.apply (opens stmt member) finds)
    founded

/-- A thread stays the thread of its row. -/
theorem threadsAbout_kept
    {stmts : List Stmt} {db : Db}
    (opens : ∀ stmt ∈ stmts, opening (.write stmt))
    (about : thread ∈ threadsAbout contextType id db) :
    thread ∈ threadsAbout contextType id (applyAll stmts db) := by
  refine applyAll_keeps (fun db => thread ∈ threadsAbout contextType id db)
    (fun stmt member db about => ?_) about
  obtain ⟨row, stored, same⟩ := Table.mem_select.mp about
  cases stmt with
  | converse stmt =>
      cases stmt with
      | insertThread fresh value =>
          exact Table.mem_select.mpr
            ⟨row, Table.row_insert_of_some fresh value stored, same⟩
      | _ => exact (opens _ member).elim
  | _ => exact about

/--
Whoever takes part and opens the context from now on is told the thread: alone,
and in any interleaving as long as the part is taken.
-/
structure Told
    (activities : Nat → Activity) (contextType : ThreadContext) (id : Nat)
    (thread : ThreadId) (system : Conversing) : Prop where
  alone : ∀ env (part : Part) user,
    part.Taken contextType id user system.committed →
    Request.run (Activity.openContext env contextType id user).call
      system.committed = (.ok (some thread), system.committed)
  among : ∀ env (part : Part) user client schedule,
    activities client = .openContext env contextType id user →
    system.clients client = ⟨(activities client).call, []⟩ →
    (∀ result, .kill client result ∉ schedule) →
    (∀ step ∈ system.trace schedule,
      step.1.Admits (Along FindsFirst) step.2 ∧
      part.Taken contextType id user step.1.committed) →
    ∀ result,
      ((system.runAll schedule).clients client).proc = .halt result →
      result = .ok (some thread)

/--
In any interleaving whose new threads are the first about their rows, each row
has one thread, which everybody who takes part is told, and dispute threads come
with disputes.
-/
theorem threads_founded
    (db : Db) (activities : Nat → Activity) (reached : Conversing)
    (founded : Founded db)
    (run : System.Reach (Along FindsFirst) (Conversing.start db activities)
      reached) :
    Founded reached.committed ∧ ∀ contextType id,
      ∀ thread ∈ threadsAbout contextType id reached.committed,
        Told activities contextType id thread reached := by
  obtain ⟨sound, still⟩ := run.lasts (Conversing.start_sound db activities)
    (fun _ _ _ => trivial)
    (fun _ _ _ along opens before => Founded.applyAll before opens along)
    founded
  refine ⟨still, fun contextType id thread about => ⟨?_, ?_⟩⟩
  · intro env part user taken
    have answers := (openContext_finds env).answers
      (Open.mk ⟨still, about⟩ taken)
    exact Prod.ext answers.1 answers.2
  · intro env part user client schedule activity waits alive steps result halted
    have initial : HasThread contextType id thread reached.committed :=
      ⟨still, about⟩
    have traced := sound.traced
      (fun current event => ¬current.Admits (Along FindsFirst) event)
      (fun _ _ => trivial)
      (fun current client stmts commits admits opens before => by
        have along := not_not.mp admits stmts commits
        exact ⟨before.founded.applyAll opens along,
          threadsAbout_kept opens before.about⟩)
      initial fun step member admits => admits (steps step member).1
    have starts : (reached.clients client).Reads
        (Open part contextType id user thread)
        fun result => result = .ok (some thread) := by
      rw [waits, activity]
      exact ⟨openContext_finds env, rfl⟩
    have ends := System.reads_runAll starts alive fun step member =>
      ⟨(traced step member).2, (steps step member).2⟩
    have answer := ends.1
    rw [halted] at answer
    exact answer

/-- An order of the student 1 with the expert 2, who have not written yet. -/
def quietOrder : Db :=
  { requests := .insert .empty 10 { student := 1, status := .inProgress }
    orders := .insert .empty 40
      { request := 10
        student := 1
        expert := 2
        source := .openBid
        amount := 5000
        commissionAmount := 750
        expertAmount := 4250
        status := .active
        paidAt := some 1
        createdAt := 0 } }

theorem quietOrder_founded : Founded quietOrder where
  single _ _ := Nat.zero_le 1
  filed _ some := absurd rfl some

/-- Both parties open the conversation; the student also names the dispute. -/
def bothParties : Nat → Activity
  | 0 => .openContext { now := 5, key := 50 } .order 40 1
  | 1 => .openContext { now := 5, key := 51 } .order 40 2
  | _ => .openContext { now := 6, key := 52 } .dispute 40 1

/-- One after the other: the expert is told the thread of the student. -/
theorem threads_founded_inTurn :
    let opened := (Conversing.start quietOrder bothParties).runAll
      (Conversing.turns 0 12)
    50 ∈ threadsAbout .order 40 opened.committed ∧
      Founded opened.committed ∧ ∀ contextType id,
        ∀ thread ∈ threadsAbout contextType id opened.committed,
          Told bothParties contextType id thread opened :=
  ⟨by decide +kernel,
    threads_founded quietOrder bothParties _ quietOrder_founded
      (System.reach_of_admitsAll .refl (by decide +kernel))⟩

/--
Both look before either inserts, and the order has two threads: after that
nobody finds one.  The dispute thread of an order that is not disputed is opened
as well.
-/
theorem bothParties_split :
    let raced := (Conversing.start quietOrder bothParties).runAll
      (Conversing.turns 0 5 ++ Conversing.turns 1 5 ++ Conversing.turns 0 7 ++
        Conversing.turns 1 7 ++ Conversing.turns 2 12)
    threadsAbout .order 40 raced.committed = [50, 51] ∧
      (Request.run
        (Activity.openContext { now := 7, key := 53 } .order 40 1).call
        raced.committed).1 = .error (.multipleObjects "Thread") ∧
      threadsAbout .dispute 40 raced.committed = [52] ∧
      raced.committed.disputes.row 40 = none := by
  decide +kernel

end Messaging

end KnowledgeMarketplace
