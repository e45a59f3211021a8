import KnowledgeMarketplace.Messaging.Membership
import KnowledgeMarketplace.Transaction.History

/-!
# Who writes in a thread

A message is stored for somebody who takes part in its thread, whatever others
do meanwhile.  That the context is open is asked of the copy of the thread that
the request, or the live connection, has loaded before.
-/

namespace KnowledgeMarketplace

open Transaction

namespace Messaging

/-! ## Requests and connections -/

/-- What a client sends over its open connection; a cue stores nothing. -/
inductive Frame where
  | send (env : Env) (files : String → Option (AttachmentId × Attachment))
      (body : String) (attachment : AttachmentArgument)
  | typing
  | read (env : Env)

/-- The error of a message goes back to its sender; the connection stays. -/
def Frame.receive (thread : LoadedThread) (user : UserId) : Frame → Call Unit
  | .send env files body attachment =>
      Call.tryCatch
        (do let _ ← sendMessage env files thread user body attachment
            return ())
        fun _ => return ()
  | .typing => return ()
  | .read env => Call.atomic (markRead env thread user)

/-- A connection keeps the thread that it has loaded when it was opened. -/
def connection (id : ThreadId) (user : UserId) (frames : List Frame) :
    Call Unit := do
  let thread ← threadForUser id user
  Call.forEach frames (Frame.receive thread user)

/-- Who is at work: those who write, those who read, and everybody else. -/
inductive Party where
  | post (env : Env) (files : String → Option (AttachmentId × Attachment))
      (id : ThreadId) (user : UserId) (body : String)
      (attachment : AttachmentArgument)
  | connect (id : ThreadId) (user : UserId) (frames : List Frame)
  | receipt (env : Env) (id : ThreadId) (user : UserId)
  | page (env : Env) (id : ThreadId) (user : UserId)
  | activity (work : Activity)

namespace Party

def call : Party → Call Unit
  | .post env files id user body attachment => do
      let _ ← postMessage env files id user body attachment
      return ()
  | .connect id user frames => connection id user frames
  | .receipt env id user => postRead env id user
  | .page env id user => do
      let _ ← getThread env id user
      return ()
  | .activity work => do
      let _ ← work.call
      return ()

/-- The thread that the party writes in, and for whom. -/
def writes : Party → Option (ThreadId × UserId)
  | .post _ _ id user _ _ | .connect id user _ => some (id, user)
  | _ => none

end Party

/-- The user takes part in the thread, by the rows of its context. -/
def TakesPart (id : ThreadId) (user : UserId) (db : Db) : Prop :=
  ∃ thread, load id db = some thread ∧ user ∈ contextParticipants thread db

/-- The context of the thread has not ended. -/
def IsOpen (id : ThreadId) (db : Db) : Prop :=
  ∃ thread, load id db = some thread ∧ assertContextOpen thread = .ok ()

/-! ## Participants stay -/

/-- Whoever was concerned in `origin` is concerned still. -/
structure Grown (origin db : Db) : Prop where
  offers : ∀ id old, origin.offers.row id = some old →
    ∃ row, db.offers.row id = some row ∧ bid row = bid old
  requests : ∀ id old, origin.requests.row id = some old →
    ∃ row, db.requests.row id = some row ∧ row.student = old.student
  orders : ∀ id old, origin.orders.row id = some old →
    ∃ row, db.orders.row id = some row ∧ row.student = old.student ∧
      row.expert = old.expert
  threads : ∀ id old, origin.conversations.threads.row id = some old →
    ∃ row, db.conversations.threads.row id = some row ∧ matter row = matter old

theorem Grown.refl (db : Db) : Grown db db where
  offers _ old stored := ⟨old, stored, rfl⟩
  requests _ old stored := ⟨old, stored, rfl⟩
  orders _ old stored := ⟨old, stored, rfl, rfl⟩
  threads _ old stored := ⟨old, stored, rfl⟩

theorem Grown.trans
    {origin middle db : Db} (first : Grown origin middle)
    (second : Grown middle db) : Grown origin db where
  offers id old stored := by
    obtain ⟨row, found, same⟩ := first.offers id old stored
    obtain ⟨later, there, kept⟩ := second.offers id row found
    exact ⟨later, there, kept.trans same⟩
  requests id old stored := by
    obtain ⟨row, found, same⟩ := first.requests id old stored
    obtain ⟨later, there, kept⟩ := second.requests id row found
    exact ⟨later, there, kept.trans same⟩
  orders id old stored := by
    obtain ⟨row, found, student, expert⟩ := first.orders id old stored
    obtain ⟨later, there, kept, still⟩ := second.orders id row found
    exact ⟨later, there, kept.trans student, still.trans expert⟩
  threads id old stored := by
    obtain ⟨row, found, same⟩ := first.threads id old stored
    obtain ⟨later, there, kept⟩ := second.threads id row found
    exact ⟨later, there, kept.trans same⟩

/-- The rows that a thread refers to are stored. -/
structure Linked (db : Db) : Prop where
  orders : ∀ id thread order, db.conversations.threads.row id = some thread →
    thread.order = some order → (db.orders.row order).isSome = true
  requests : ∀ id thread request,
    db.conversations.threads.row id = some thread →
    thread.request = some request → (db.requests.row request).isSome = true

/-- The rows that a new thread refers to have been seen. -/
def Grounded (seen : List Db) (thread : Thread) : Prop :=
  (∀ id, thread.order = some id →
    ∃ look ∈ seen, (look.orders.row id).isSome = true) ∧
  ∀ id, thread.request = some id →
    ∃ look ∈ seen, (look.requests.row id).isSome = true

/--
Effects that keep whom they have seen concerned.  A copy that is saved does not
change whose row it is, as long as the row is still that of the copy.
-/
def growing (seen : List Db) : Effect Stmt → Prop
  | .write (.saveOffer id set) => ∀ stored,
      (∀ look ∈ seen, ∀ old, look.offers.row id = some old →
        bid stored = bid old) → bid (set stored) = bid stored
  | .write (.saveRequest id _ set) | .write (.updateRequest id set) =>
      ∀ stored, (∀ look ∈ seen, ∀ old, look.requests.row id = some old →
        stored.student = old.student) → (set stored).student = stored.student
  | .write (.saveOrder _ set) => ∀ stored,
      (set stored).student = stored.student ∧
        (set stored).expert = stored.expert
  | .write (.converse (.insertThread _ thread)) => Grounded seen thread
  | .write (.converse (.saveThread _ set)) =>
      ∀ stored, matter (set stored) = matter stored
  | .write (.converse (.insertMessage _ _)) => False
  | .write _ | .savepoint => True

/-- A message of somebody who was found to take part in an open context. -/
def Vouched (seen : List Db) (message : Message) : Prop :=
  ∃ look ∈ seen, ∃ copy, load message.thread look = some copy ∧
    assertContextOpen copy = .ok () ∧
    ∃ now ∈ seen, message.sender ∈ contextParticipants copy now

/-- The effects of a party; only those who write store messages. -/
def Party.good (party : Party) (seen : List Db) : Effect Stmt → Prop
  | .write (.converse (.insertMessage _ message)) =>
      party.writes = some (message.thread, message.sender) ∧
        Vouched seen message
  | effect => growing seen effect

variable {origin db : Db} {seen : List Db}

theorem Grown.apply
    {party : Party} (stmt : Stmt) (good : party.good seen (.write stmt))
    (past : ∀ look ∈ seen, Grown look db) : Grown db (stmt.apply db) := by
  have same := Grown.refl db
  cases stmt with
  | insertOffer id value =>
      exact { same with offers := fun other old stored =>
        ⟨old, Table.row_insert_of_some id value stored, rfl⟩ }
  | saveOffer id set =>
      refine { same with offers := fun other old stored => ?_ }
      by_cases equal : other = id
      · subst equal
        refine ⟨set old, by simp [Stmt.apply, stored], good old ?_⟩
        intro look member earlier before
        obtain ⟨row, found, whose⟩ := (past look member).offers other _ before
        obtain rfl := Option.some.inj (found.symm.trans stored)
        exact whose
      · exact ⟨old, by simp [Stmt.apply, equal, stored], rfl⟩
  | insertRequest id value =>
      exact { same with requests := fun other old stored =>
        ⟨old, Table.row_insert_of_some id value stored, rfl⟩ }
  | saveRequest id loaded set | updateRequest id set =>
      refine { same with requests := fun other old stored => ?_ }
      by_cases equal : other = id
      · subst equal
        refine ⟨set old, by simp [Stmt.apply, stored], good old ?_⟩
        intro look member earlier before
        obtain ⟨row, found, whose⟩ :=
          (past look member).requests other _ before
        obtain rfl := Option.some.inj (found.symm.trans stored)
        exact whose
      · exact ⟨old, by simp [Stmt.apply, equal, stored], rfl⟩
  | insertOrder id value =>
      exact { same with orders := fun other old stored =>
        ⟨old, Table.row_insert_of_some id value stored, rfl, rfl⟩ }
  | saveOrder id set =>
      refine { same with orders := fun other old stored => ?_ }
      by_cases equal : other = id
      · subst equal
        exact ⟨set old, by simp [Stmt.apply, stored], good old⟩
      · exact ⟨old, by simp [Stmt.apply, equal, stored], rfl, rfl⟩
  | converse stmt =>
      cases stmt with
      | insertThread id value =>
          exact { same with threads := fun other old stored =>
            ⟨old, Table.row_insert_of_some id value stored, rfl⟩ }
      | saveThread id set =>
          refine { same with threads := fun other old stored => ?_ }
          by_cases equal : other = id
          · subst equal
            exact ⟨set old, by simp [Stmt.apply, ConversationStmt.apply,
              stored], good old⟩
          · exact ⟨old, by simp [Stmt.apply, ConversationStmt.apply, equal,
              stored], rfl⟩
      | _ => exact { same with threads := same.threads }
  | _ => exact { same with threads := same.threads }

/-! ## What parties commit -/

/-- Whoever has seen more keeps no less. -/
theorem growing_mono
    {later : List Db} (more : seen ⊆ later) {effect : Effect Stmt}
    (grows : growing seen effect) : growing later effect := by
  cases effect with
  | savepoint => exact grows
  | write stmt =>
      cases stmt with
      | saveOffer id set =>
          exact fun stored same => grows stored fun look member =>
            same look (more member)
      | saveRequest id loaded set | updateRequest id set =>
          exact fun stored same => grows stored fun look member =>
            same look (more member)
      | converse stmt =>
          cases stmt with
          | insertThread key thread =>
              exact ⟨fun id about => (grows.1 id about).imp
                  fun _ found => ⟨more found.1, found.2⟩,
                fun id about => (grows.2 id about).imp
                  fun _ found => ⟨more found.1, found.2⟩⟩
          | _ => exact grows
      | _ => exact grows

theorem Party.good_of_growing
    (party : Party) {effect : Effect Stmt} (grows : growing seen effect) :
    party.good seen effect := by
  cases effect with
  | savepoint => exact grows
  | write stmt =>
      cases stmt with
      | converse stmt =>
          cases stmt with
          | insertMessage => exact grows.elim
          | _ => exact grows
      | _ => exact grows

theorem Party.follows_growing
    (party : Party) {request : Call Unit}
    (emits : request.Emits (growing []) fun _ => True) :
    request.Follows .looks (recalls party.good) seen []
      fun _ _ _ => True :=
  Request.follows_of_emitted emits fun _ _ _ grows =>
    party.good_of_growing (growing_mono (by simp) grows)

/-- New threads refer to these rows. -/
def anchoring (order : Option OrderId) (request : Option RequestId) :
    Effect Stmt → Prop
  | .write (.converse (.insertThread _ thread)) =>
      thread.order = order ∧ thread.request = request
  | effect => growing [] effect

/-- Who has seen these rows may open threads that refer to them. -/
theorem Party.good_of_anchoring
    (party : Party) {order : Option OrderId} {request : Option RequestId}
    (orders : ∀ id, order = some id →
      ∃ look ∈ seen, (look.orders.row id).isSome = true)
    (requests : ∀ id, request = some id →
      ∃ look ∈ seen, (look.requests.row id).isSome = true)
    {effect : Effect Stmt} (anchors : anchoring order request effect) :
    party.good seen effect := by
  unfold anchoring at anchors
  split at anchors
  · obtain ⟨rfl, rfl⟩ := anchors
    exact ⟨orders, requests⟩
  · exact party.good_of_growing (growing_mono (by simp) anchors)

/-- Nothing that keeps everybody concerned opens a thread. -/
theorem anchoring_of_keeping
    {order : Option OrderId} {request : Option RequestId}
    {effect : Effect Stmt} (opens : opening effect)
    (keeps : ∀ origin, keeping origin effect) :
    anchoring order request effect := by
  cases effect with
  | savepoint => trivial
  | write stmt =>
      cases stmt with
      | saveOffer id set =>
          exact fun stored _ => keeps
            { offers := Table.empty.insert id stored } stored
            (by simp [Table.row_insert])
      | saveRequest id loaded set | updateRequest id set =>
          exact fun stored _ => keeps
            { requests := Table.empty.insert id stored } stored stored
            (by simp [Table.row_insert]) rfl
      | saveOrder id set => exact keeps {}
      | converse stmt =>
          cases stmt with
          | insertThread => exact (keeps {}).elim
          | saveThread id set => exact keeps {}
          | insertMessage => exact opens.elim
          | _ => trivial
      | _ => trivial

/-- Requests that concern nobody new and talk to nobody. -/
theorem emits_anchoring
    (order : Option OrderId) (request : Option RequestId) {work : Call Unit}
    (opens : work.Emits opening fun _ => True)
    (keeps : ∀ origin, work.Emits (keeping origin) fun _ => True) :
    work.Emits (anchoring order request) fun _ => True := by
  refine Request.emits_of_all
    (fun (index : Option Db) effect =>
      index.elim (opening effect) fun origin => keeping origin effect) ?_
    fun effect all => anchoring_of_keeping (all none)
      fun origin => all (some origin)
  rintro (_ | origin)
  · exact opens
  · exact keeps origin

theorem Party.follows_keeping
    (party : Party) {work : Call Unit}
    (opens : work.Emits opening fun _ => True)
    (keeps : ∀ origin, work.Emits (keeping origin) fun _ => True) :
    work.Follows .looks (recalls party.good) seen [] fun _ _ _ => True :=
  Request.follows_of_emitted
    (emits_anchoring none none opens keeps)
    fun _ _ _ anchors => party.good_of_anchoring (by simp) (by simp) anchors

/-- Work on requests saves copies of drafts only. -/
theorem requestCall_follows (party : Party) (call : RequestCall) :
    call.call.Follows .looks (recalls party.good) [] [] fun _ _ _ => True := by
  cases call with
  | updateDraft env owner id payload =>
      simp only [RequestCall.call, Call.performOn, Call.perform, Call.get,
        Request.follows_bind, Request.follows_load, Request.follows_orFail,
        applyAll_nil, implies_true, and_true]
      intro look copy found
      have keeps : (Call.atomic (do
          let _ ← ServiceRequests.updateDraft env owner id copy payload
          return ()) : Call Unit).Emits
          (fun effect => growing [look] effect) fun _ => True := by
        simp only [ServiceRequests.updateDraft, growing, Request.emits_atomic,
          Prog.emits_bind, Prog.emits_require, Prog.emits_ofExcept,
          Prog.emits_exec, Prog.emits_pure, implies_true, and_true]
        intro _ _ _ _ _ _ _ _ stored same
        exact (same look (by simp) copy found).symm
      exact Request.follows_of_emitted keeps fun later effect more grows =>
        party.good_of_growing (growing_mono more grows)
  | _ =>
      refine party.follows_growing ?_
      simp [RequestCall.call, Call.performOn, Call.perform, Call.get,
        Call.exec, ServiceRequests.createRequest, ServiceRequests.publish,
        ServiceRequests.cancel, ServiceRequests.reopen,
        ServiceRequests.expireDue, ServiceRequests.transition, Tx.create,
        growing]

/-- So does work on offers. -/
theorem offerCall_follows (party : Party) (call : OfferCall) :
    call.call.Follows .looks (recalls party.good) [] [] fun _ _ _ => True := by
  cases call with
  | update env expert id amount currency =>
      simp only [OfferCall.call, OfferCall.onOffer, Call.get, Call.exec,
        Bidding.updateOffer, Request.follows_bind, Request.follows_load,
        Request.follows_orFail, Request.follows_require,
        Request.follows_ofExcept, Request.follows_exec, applyAll_nil,
        implies_true, and_true]
      intro look copy found _ _ later _ _ _ _ _ _ stmt member
      obtain rfl := List.mem_singleton.mp member
      intro stored same
      exact (same look (by simp [Journal.looks]) copy.1
        (OfferCall.find_offer found)).symm
  | accept env student id =>
      refine party.follows_growing
        (Request.emits_atomic.mpr (.seq ?_ (by simp)))
      refine .seq (by simp [Bidding.getForUpdate, Tx.getForUpdate, Tx.get])
        fun found => .seq ?_ fun request => .seq (by simp) fun _ => ?_
      · simp [Bidding.getRequestForUpdate, Tx.getForUpdate, Tx.get]
      refine .seq (by simp) fun _ => .seq (by simp) fun _ => ?_
      refine .seq (by simp) fun _ => .seq (by simp) fun _ => ?_
      refine .seq (by simp) fun _ => .seq ?_ fun _ => .seq ?_ fun _ => ?_
      · simp [growing, bid]
      · simp [Bidding.declineSiblings, growing, bid]
      refine .seq (by simp [ServiceRequests.markMatched,
        ServiceRequests.transition, growing]) fun _ => ?_
      simp [Bidding.createOrderFromOffer, Orders.createOrderForRequest,
        Orders.recordEvent, Tx.create, growing]
  | _ =>
      refine party.follows_growing ?_
      simp [OfferCall.call, OfferCall.onOffer, Call.get, Call.exec,
        Bidding.submit, Bidding.withdraw, Bidding.resubmit, Bidding.decline,
        Bidding.expertGuard, Bidding.limitGuard, Bidding.saveOfferCount,
        Tx.create, growing, bid]

/-- The operations of the marketplace keep people concerned. -/
theorem operation_follows (party : Party) (operation : Operation) :
    operation.call.Follows .looks (recalls party.good) [] []
      fun _ _ _ => True := by
  by_cases triages : operation.Triages
  · cases operation with
    | request call => exact requestCall_follows party call
    | offer call => exact offerCall_follows party call
    | managed call =>
        exact party.follows_keeping (operation_opening (.managed call))
          fun _ => managedCall_keeping call
    | _ => exact triages.elim
  · exact party.follows_keeping (operation_opening operation)
      fun _ => operation_keeping_of_order triages

theorem getOrCreateThread_anchoring
    (env : Env) (context : Context) (actor : UserId) :
    (getOrCreateThread env context actor).Emits
      (anchoring (context.thread 0 []).order (context.thread 0 []).request)
      fun _ => True := by
  refine .seq (by simp) fun _ => .seq (by simp) fun _ => ?_
  refine .seq (by simp) fun participants => .seq (by simp) fun _ => ?_
  refine .seq (by simp) fun _ => .seq (by simp) fun stored => .seq ?_ (by simp)
  simp [createThread, Tx.create, anchoring, Context.thread]

/-- Contexts are opened about rows that have been found. -/
theorem activity_follows (party : Party) (activity : Activity) :
    activity.call.Follows .looks (recalls party.good) [] []
      fun _ _ _ => True := by
  have ends : ∀ {α : Type} {request : Call α} {rest : α → Option ThreadId},
      (request.Follows .looks (recalls party.good) [] [] fun _ _ _ => True) →
      Request.Follows .looks (recalls party.good) (request >>= fun value =>
        (pure (rest value) : Call (Option ThreadId))) [] []
          fun _ _ _ => True := by
    intro α request rest follows
    refine Request.follows_bind.mpr (follows.mono fun result _ _ _ => ?_)
    cases result <;> trivial
  cases activity with
  | operation operation => exact ends (operation_follows party operation)
  | openContext env contextType id actor =>
      refine ends ?_
      simp only [openContext, Request.follows_bind, Request.follows_load,
        Request.follows_orFail, applyAll_nil, implies_true, and_true]
      intro look context found
      have stored := Context.stored_of_find found
      refine Request.follows_of_emitted (Request.emits_atomic.mpr
        (getOrCreateThread_anchoring env context actor)) ?_
      intro later effect more anchors
      have member : look ∈ later := more (by simp [Journal.looks])
      refine party.good_of_anchoring ?_ ?_ anchors
      all_goals
        intro key about
        refine ⟨look, member, ?_⟩
        cases context <;>
          simp_all [Context.thread, Context.Stored]
  | openDispute env id actor reason description evidence =>
      refine ends ?_
      have filed : (Disputes.openDispute env id actor reason description
          evidence).Emits (anchoring (some id) none) fun _ => True := by
        have whole := emits_anchoring (some id) none
          (operation_opening (.dispute (.openDispute env id actor reason
            description evidence)))
          fun _ => operation_keeping_of_order (by simp [Operation.Triages])
        exact (Prog.emits_bind.mp (Request.emits_atomic.mp whole)).mono
          fun _ _ => trivial
      have emits : (Call.atomic (openDispute env id actor reason description
          evidence)).Emits (anchoring (some id) none) fun _ => True :=
        Request.emits_atomic.mpr <| .seq filed fun _ =>
          .seq (by simp [Tx.get]) fun order =>
            getOrCreateThread_anchoring env (.dispute id order) actor.id
      -- the first that is read is the order
      intro look
      cases stored : look.orders.row id with
      | none =>
          simp only [applyAll_nil, stored]
          trivial
      | some order =>
          refine Request.follows_of_emitted (emits look)
            fun later effect more anchors =>
              party.good_of_anchoring ?_ (by simp) anchors
          intro key same
          obtain rfl := Option.some.inj same
          exact ⟨look, more (by simp [Journal.looks]), by simp [stored]⟩

/-- A thread is found as it was loaded, and nothing is written. -/
theorem threadForUser_follows
    (party : Party) (id : ThreadId) (user : UserId) :
    (threadForUser id user).Follows .looks (recalls party.good) seen []
      fun result later stmts => stmts = [] ∧ ∀ thread, result = .ok thread →
        ∃ look ∈ later, load id look = some thread := by
  simp only [threadForUser, Request.follows_bind, Request.follows_load,
    Request.follows_orFail, Request.follows_require, Request.follows_pure,
    applyAll_nil, reduceCtorEq, Except.ok.injEq, false_implies, implies_true,
    and_true, true_and]
  rintro look thread found now _ _ rfl
  exact ⟨look, by simp [Journal.looks], found⟩

/-- The effects of storing a message. -/
def storing (id : ThreadId) (user : UserId) : Effect Stmt → Prop
  | .write (.converse (.insertMessage _ message)) =>
      message.thread = id ∧ message.sender = user
  | .write (.converse (.saveThread _ set)) =>
      ∀ stored, matter (set stored) = matter stored
  | _ => False

/-- Those who write store messages of their own, in an open context. -/
theorem sendMessage_follows
    {party : Party} {id : ThreadId} {user : UserId}
    (writes : party.writes = some (id, user))
    (env : Env) (files : String → Option (AttachmentId × Attachment))
    {look : Db} {thread : LoadedThread} (member : look ∈ seen)
    (found : load id look = some thread)
    (body : String) (attachment : AttachmentArgument) :
    (sendMessage env files thread user body attachment).Follows .looks
      (recalls party.good) seen [] fun _ later stmts =>
        stmts = [] ∧ look ∈ later := by
  obtain ⟨named, _⟩ := load_thread found
  simp only [sendMessage, storeMessage, Call.exec, Request.follows_bind,
    Request.follows_load, Request.follows_require, Request.follows_ofExcept,
    Request.follows_pure, applyAll_nil, true_and]
  intro now
  have still : look ∈ now :: seen := List.mem_cons_of_mem now member
  refine ⟨fun takes => ⟨fun _ opened => ⟨fun _ => ⟨fun _ => ⟨fun _ _ => ?_,
    fun _ _ => still⟩, fun _ => still⟩, fun _ => still⟩, fun _ _ => still⟩,
    fun _ => still⟩
  have allowed : ∀ later effect, now :: seen ⊆ later → storing id user effect →
      party.good later effect := by
    intro later effect more stores
    unfold storing at stores
    split at stores
    · obtain ⟨rfl, rfl⟩ := stores
      exact ⟨writes, look, more still, thread, found, opened, now,
        more (by simp), takes⟩
    · exact stores
    · exact stores.elim
  refine (Request.follows_atomic_of_emitted (storing id user)
    (by simp [Tx.create, storing, named]) allowed).mono ?_
  rintro (error | _) first stmts ⟨rfl, more⟩
  · exact ⟨rfl, more still⟩
  · refine (Request.follows_atomic_of_emitted (storing id user)
      (by simp [storing, matter]) fun later effect grown stores =>
        allowed later effect (fun _ seen => grown (more seen)) stores).mono ?_
    rintro (error | _) later stmts ⟨rfl, grown⟩ <;>
      exact ⟨rfl, grown (more still)⟩

/-- What a connection receives is said with the copy that it has loaded. -/
theorem receive_follows
    {party : Party} {id : ThreadId} {user : UserId}
    (writes : party.writes = some (id, user))
    {look : Db} {thread : LoadedThread} (member : look ∈ seen)
    (found : load id look = some thread) (frame : Frame) :
    (frame.receive thread user).Follows .looks (recalls party.good) seen []
      fun _ later stmts => stmts = [] ∧ look ∈ later := by
  cases frame with
  | typing => exact ⟨rfl, member⟩
  | send env files body attachment =>
      refine Request.follows_tryCatch.mpr (Request.follows_bind.mpr
        ((sendMessage_follows writes env files member found body
          attachment).mono ?_))
      rintro (error | _) later stmts ⟨rfl, still⟩ <;> exact ⟨rfl, still⟩
  | read env =>
      refine (Request.follows_atomic_of_emitted (growing [])
        (by simp [markRead, growing]) fun _ _ _ grows =>
          party.good_of_growing (growing_mono (by simp) grows)).mono ?_
      rintro _ later stmts ⟨rfl, more⟩
      exact ⟨rfl, more member⟩

/-- Every party keeps to what it has seen. -/
theorem Party.follows (party : Party) :
    party.call.Follows .looks (recalls party.good) [] [] fun _ _ _ => True := by
  have reads : ∀ env id user, (Request.Emits (growing []) (fun _ => True)
      (postRead env id user)) ∧ Request.Emits (growing []) (fun _ => True)
        (getThread env id user) := by
    intro env id user
    simp [postRead, getThread, findThread, threadForUser, markRead, growing]
  cases party with
  | post env files id user body attachment =>
      refine Request.follows_bind.mpr (Request.follows_bind.mpr
        (Request.follows_tryCatch.mpr
          ((threadForUser_follows _ id user).mono ?_)))
      rintro (error | thread) later stmts ⟨rfl, loaded⟩
      · trivial
      · obtain ⟨look, member, found⟩ := loaded thread rfl
        refine (sendMessage_follows rfl env files member found body
          attachment).mono ?_
        rintro (error | _) _ _ _ <;> trivial
  | connect id user frames =>
      refine Request.follows_bind.mpr
        ((threadForUser_follows _ id user).mono ?_)
      rintro (error | thread) later stmts ⟨rfl, loaded⟩
      · trivial
      · obtain ⟨look, member, found⟩ := loaded thread rfl
        refine (Request.follows_each (look ∈ ·)
          (fun frame _ now still => receive_follows rfl still found frame)
          member).mono fun _ _ _ _ => trivial
  | receipt env id user => exact follows_growing _ (reads env id user).1
  | page env id user =>
      exact follows_growing _ (.seq (reads env id user).2 (by simp))
  | activity work =>
      refine Request.follows_bind.mpr ((activity_follows _ work).mono ?_)
      rintro (error | _) _ _ _ <;> trivial

/-! ## Who is concerned -/

/-- A thread was there before, or refers to rows that have been seen. -/
theorem thread_apply
    {party : Party} {stmt : Stmt} (good : party.good seen (.write stmt))
    {id : ThreadId} {thread : Thread}
    (stored : (stmt.apply db).conversations.threads.row id = some thread) :
    (∃ old, db.conversations.threads.row id = some old ∧
      matter thread = matter old) ∨ Grounded seen thread := by
  cases stmt with
  | converse stmt =>
      cases stmt with
      | insertThread key value =>
          rcases Table.row_insert_cases stored with old | ⟨_, rfl, _⟩
          · exact .inl ⟨thread, old, rfl⟩
          · exact .inr good
      | saveThread key set =>
          rcases Table.row_modify_cases stored with
            ⟨_, old⟩ | ⟨rfl, old, there, rfl⟩
          · exact .inl ⟨thread, old, rfl⟩
          · exact .inl ⟨old, there, good old⟩
      | _ => exact .inl ⟨thread, stored, rfl⟩
  | _ => exact .inl ⟨thread, stored, rfl⟩

theorem Linked.apply
    {party : Party} (linked : Linked db) {stmt : Stmt}
    (good : party.good seen (.write stmt))
    (past : ∀ look ∈ seen, Grown look db) : Linked (stmt.apply db) := by
  have grown := Grown.apply stmt good past
  have orders : ∀ {first : Db} {order}, Grown first (stmt.apply db) →
      (first.orders.row order).isSome = true →
        ((stmt.apply db).orders.row order).isSome = true := by
    intro first order more present
    obtain ⟨old, stored⟩ := Option.isSome_iff_exists.mp present
    obtain ⟨row, found, _⟩ := more.orders order old stored
    simp [found]
  have requests : ∀ {first : Db} {request}, Grown first (stmt.apply db) →
      (first.requests.row request).isSome = true →
        ((stmt.apply db).requests.row request).isSome = true := by
    intro first request more present
    obtain ⟨old, stored⟩ := Option.isSome_iff_exists.mp present
    obtain ⟨row, found, _⟩ := more.requests request old stored
    simp [found]
  constructor
  · intro id thread order stored about
    rcases thread_apply good stored with ⟨old, there, same⟩ | grounded
    · simp only [matter, Prod.mk.injEq] at same
      exact orders grown (linked.orders id old order there
        (same.2.2.1.symm.trans about))
    · obtain ⟨look, member, present⟩ := grounded.1 order about
      exact orders ((past look member).trans grown) present
  · intro id thread request stored about
    rcases thread_apply good stored with ⟨old, there, same⟩ | grounded
    · simp only [matter, Prod.mk.injEq] at same
      exact requests grown (linked.requests id old request there
        (same.2.1.symm.trans about))
    · obtain ⟨look, member, present⟩ := grounded.2 request about
      exact requests ((past look member).trans grown) present

/-- What a party commits keeps people concerned. -/
theorem grown_applyAll
    {party : Party} {stmts : List Stmt}
    (good : recalls party.good seen stmts) (linked : Linked db)
    (past : ∀ look ∈ seen, Grown look db) :
    Linked (applyAll stmts db) ∧ Grown db (applyAll stmts db) := by
  induction stmts generalizing db with
  | nil => exact ⟨linked, .refl db⟩
  | cons stmt rest inductionHypothesis =>
      have first : party.good seen (.write stmt) := good stmt (by simp)
      have grown := Grown.apply stmt first past
      obtain ⟨still, more⟩ := inductionHypothesis
        (fun other member => good other (by simp [member]))
        (linked.apply first past)
        fun look member => (past look member).trans grown
      exact ⟨still, grown.trans more⟩

theorem Grown.offerExperts
    (grown : Grown origin db) {request : RequestId} {user : UserId}
    (offers : user ∈ offerExperts request origin) :
    user ∈ Messaging.offerExperts request db := by
  obtain ⟨id, mine⟩ := mem_offerExperts.mp offers
  obtain ⟨old, stored, whose⟩ := Option.map_eq_some_iff.mp mine
  obtain ⟨row, found, same⟩ := grown.offers id old stored
  exact mem_offerExperts.mpr ⟨id, by simp [found, same, whose]⟩

theorem Grown.snapshot
    (grown : Grown origin db) {id : ThreadId} {user : UserId}
    (member : user ∈ snapshot id origin) : user ∈ Messaging.snapshot id db := by
  cases stored : origin.conversations.threads.row id with
  | none => simp [Messaging.snapshot, stored] at member
  | some old =>
      obtain ⟨row, found, same⟩ := grown.threads id old stored
      simp only [matter, Prod.mk.injEq] at same
      simpa [Messaging.snapshot, stored, found, same.2.2.2] using member

/-- Who was found to take part with an earlier copy takes part. -/
theorem Grown.takesPart
    {look now : Db} (linked : Linked look) (before : Grown look db)
    (meanwhile : Grown now db) {id : ThreadId} {copy : LoadedThread}
    (loaded : load id look = some copy) {user : UserId}
    (takes : user ∈ contextParticipants copy now) : TakesPart id user db := by
  obtain ⟨old, stored, rfl⟩ := Option.map_eq_some_iff.mp loaded
  obtain ⟨row, found, same⟩ := before.threads id old stored
  simp only [matter, Prod.mk.injEq] at same
  obtain ⟨type, request, order, _⟩ := same
  refine ⟨_, by simp only [load, found, Option.map_some]; rfl, ?_⟩
  cases about : old.contextType with
  | request =>
      cases names : old.request with
      | none =>
          simp only [contextParticipants, about, names, Option.bind_none]
            at takes
          simpa [contextParticipants, type, about, request, names] using
            meanwhile.snapshot takes
      | some key =>
          obtain ⟨first, there⟩ := Option.isSome_iff_exists.mp
            (linked.requests id old key stored names)
          obtain ⟨later, kept, student⟩ := before.requests key first there
          simp only [contextParticipants, about, names, there, Option.bind_some,
            Option.map_some, List.mem_cons] at takes
          simp only [contextParticipants, type, about, request, names, kept,
            student, Option.bind_some, Option.map_some, List.mem_cons]
          exact takes.imp_right meanwhile.offerExperts
  | order | dispute =>
      cases names : old.order with
      | none =>
          simp only [contextParticipants, about, names, Option.bind_none]
            at takes
          simpa [contextParticipants, type, about, order, names] using
            meanwhile.snapshot takes
      | some key =>
          obtain ⟨first, there⟩ := Option.isSome_iff_exists.mp
            (linked.orders id old key stored names)
          obtain ⟨later, kept, student, expert⟩ := before.orders key first there
          simpa [contextParticipants, type, about, order, names, there, kept,
            student, expert] using takes

/-! ## Runs -/

/-- Parties at work and the committed database. -/
abbrev Meeting := System Db Row Stmt (Except Error Unit)

variable {parties : Nat → Party} {looks : Nat → List Db} {system : Meeting}
  {allow : (Nat → List Db) → Nat → List Stmt → Db → Prop} {start : Db}

/-- Every look of a party was at a store that has grown since. -/
theorem recalled_of_noted
    (noted : System.Noted .looks allow [] start
      (fun client => (parties client).call) looks system)
    (linked : Linked start) :
    system.Following .looks (fun client => recalls (parties client).good)
        (fun _ _ _ => True) looks ∧
      System.Recalled (fun _ look now => Linked look ∧ Grown look now) Linked
        looks system.committed := by
  refine noted.recalled _ _ (fun client => (parties client).follows)
    (fun _ db holds => ⟨holds, .refl db⟩) ?_ linked
  intro seen client stmts db _ good recalled
  obtain ⟨still, grown⟩ := grown_applyAll good recalled.holds
    fun look member => (recalled.past client look member).2
  refine ⟨still, fun other look member => ?_⟩
  obtain ⟨first, before⟩ := recalled.past other look member
  exact ⟨first, before.trans grown⟩

/--
In every run, whoever else is at work, a message is stored by a party that
writes in its thread for its sender, who takes part in the thread at that
moment; the party has seen the context of the thread open.
-/
theorem senders_take_part
    (linked : Linked start)
    (noted : System.Noted .looks (fun _ _ _ _ => True) [] start
      (fun client => (parties client).call) looks system)
    {client : Nat} {stmts : List Stmt}
    (commits : system.committing (.run client) = some stmts)
    {key : MessageId} {message : Message}
    (stored : Stmt.converse (.insertMessage key message) ∈ stmts) :
    (parties client).writes = some (message.thread, message.sender) ∧
      TakesPart message.thread message.sender system.committed ∧
      ∃ look ∈ looks client, IsOpen message.thread look := by
  obtain ⟨following, recalled⟩ := recalled_of_noted noted linked
  obtain ⟨writes, look, seen, copy, found, opened, now, read, takes⟩ :=
    following.promised commits _ stored
  obtain ⟨first, before⟩ := recalled.past client look seen
  obtain ⟨_, meanwhile⟩ := recalled.past client now read
  exact ⟨writes, before.takesPart first meanwhile found takes, look, seen, copy,
    found, opened⟩

/-- The thread about the request of the student 1. -/
def chat : Thread where
  contextType := .request
  request := some 10
  participants := [1, 2]
  createdAt := 1

def talkedOver : Db :=
  { bidOn with conversations := { threads := .insert .empty 50 chat } }

theorem talkedOver_linked : Linked talkedOver := by
  have none : (Table.empty : Table ThreadId Thread).All (· = chat) := by
    simp [Table.All]
  have only : talkedOver.conversations.threads.All (· = chat) :=
    none.insert 50 rfl
  constructor
  · intro id thread key stored about
    simp [only id thread stored, chat] at about
  · intro id thread key stored about
    obtain rfl : 10 = key := by simpa [only id thread stored, chat] using about
    decide

/-- The expert writes over a connection; the student cancels the request. -/
def lastWords : Nat → Party
  | 0 => .connect 50 2 [.typing, .send { now := 7, key := 70 } (fun _ => none)
      "Is it still open?" .absent]
  | _ => .activity (.operation (.request (.cancel { now := 6 } 1 10 "Solved.")))

/-- The message as it is stored. -/
def lastQuestion : Message where
  thread := 50
  sender := 2
  body := "Is it still open?"
  createdAt := 7

/-- The messages that are stored. -/
def posted (stmts : List Stmt) : List (MessageId × Message) :=
  stmts.filterMap fun stmt => match stmt with
    | .converse (.insertMessage key message) => some (key, message)
    | _ => none

theorem mem_posted {stmts : List Stmt} {key : MessageId} {message : Message} :
    (key, message) ∈ posted stmts ↔
      Stmt.converse (.insertMessage key message) ∈ stmts := by
  simp only [posted, List.mem_filterMap]
  constructor
  · rintro ⟨stmt, member, found⟩
    split at found
    · simp only [Option.some.injEq, Prod.mk.injEq] at found
      obtain ⟨rfl, rfl⟩ := found
      exact member
    · simp at found
  · exact fun member => ⟨_, member, rfl⟩

/-- The message is stored when the request has ended already. -/
theorem senders_take_part_tooLate :
    let started : Meeting := System.init talkedOver fun client =>
      (lastWords client).call
    let reached := (started.runAll (List.replicate 6 (.run 0))).runAll
      (List.replicate 20 (.run 1))
    (reached.committing (.run 0)).map posted = some [(70, lastQuestion)] ∧
      TakesPart 50 2 reached.committed ∧ ¬IsOpen 50 reached.committed := by
  intro started reached
  obtain ⟨looks, noted⟩ : ∃ looks, System.Noted .looks (fun _ _ _ _ => True) []
      talkedOver (fun client => (lastWords client).call) looks reached :=
    ⟨_, (System.Noted.runs .start (fun _ _ _ => trivial) 6).runs
      (fun _ _ _ => trivial) 20⟩
  have sends : (reached.committing (.run 0)).map posted =
      some [(70, lastQuestion)] := by decide +kernel
  obtain ⟨stmts, commits, stored⟩ := Option.map_eq_some_iff.mp sends
  have member : Stmt.converse (.insertMessage 70 lastQuestion) ∈ stmts :=
    mem_posted.mp (by simp [stored])
  obtain ⟨_, takes, _⟩ :=
    senders_take_part talkedOver_linked noted commits member
  refine ⟨sends, takes, ?_⟩
  rintro ⟨thread, loaded, opened⟩
  have ended : (load 50 reached.committed).map isReadOnly = some true := by
    decide +kernel
  rw [loaded] at ended
  simp [isReadOnly, opened, Except.isOk, Except.toBool] at ended

/-- No commit ends a context that a writer at work has seen open. -/
def Leaves (parties : Nat → Party) (looks : Nat → List Db) (_ : Nat)
    (stmts : List Stmt) (db : Db) : Prop :=
  ∀ writer id user, (parties writer).writes = some (id, user) →
    (∃ look ∈ looks writer, IsOpen id look) → IsOpen id db →
      IsOpen id (applyAll stmts db)

/--
If nobody ends a context that a writer at work has seen open, then messages are
stored in open contexts only.
-/
theorem messages_stored_open
    (linked : Linked start)
    (noted : System.Noted .looks (Leaves parties) [] start
      (fun client => (parties client).call) looks system)
    {client : Nat} {stmts : List Stmt}
    (commits : system.committing (.run client) = some stmts)
    {key : MessageId} {message : Message}
    (stored : Stmt.converse (.insertMessage key message) ∈ stmts) :
    IsOpen message.thread system.committed := by
  obtain ⟨writes, _, look, seen, opened⟩ := senders_take_part linked
    (noted.mono fun _ _ _ _ _ => trivial) commits stored
  have recalled := noted.recalled
    (fun writer look now => ∀ id user,
      (parties writer).writes = some (id, user) → IsOpen id look →
        IsOpen id now)
    (fun _ => True)
    (fun client => (parties client).follows)
    (fun _ _ _ _ _ _ same => same)
    (fun looks client stmts db leaves _ recalled => ⟨trivial,
      fun other look member id user writes opened =>
        leaves other id user writes ⟨look, member, opened⟩
          (recalled.past other look member id user writes opened)⟩)
    trivial
  exact recalled.2.past client look seen _ _ writes opened

/-- While the expert writes, the request stays as it is. -/
theorem messages_stored_open_inTime :
    let started : Meeting := System.init talkedOver fun client =>
      (lastWords client).call
    let reached := started.runAll (List.replicate 6 (.run 0))
    (reached.committing (.run 0)).map posted = some [(70, lastQuestion)] ∧
      IsOpen 50 reached.committed := by
  intro started reached
  have quiet : started.quiet (List.replicate 6 (.run 0)) = true := by
    decide +kernel
  have begun : System.Noted .looks (Leaves lastWords) [] talkedOver
      (fun client => (lastWords client).call) (fun _ => []) started := .start
  obtain ⟨looks, noted⟩ : ∃ looks, System.Noted .looks (Leaves lastWords) []
      talkedOver (fun client => (lastWords client).call) looks reached :=
    ⟨_, begun.quietly _ quiet⟩
  have sends : (reached.committing (.run 0)).map posted =
      some [(70, lastQuestion)] := by decide +kernel
  obtain ⟨stmts, commits, stored⟩ := Option.map_eq_some_iff.mp sends
  have member : Stmt.converse (.insertMessage 70 lastQuestion) ∈ stmts :=
    mem_posted.mp (by simp [stored])
  have opened := messages_stored_open talkedOver_linked noted commits member
  exact ⟨sends, opened⟩

end Messaging

end KnowledgeMarketplace
