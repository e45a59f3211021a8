import KnowledgeMarketplace.Messaging.Services
import KnowledgeMarketplace.Transaction.Continues
import KnowledgeMarketplace.Transaction.Watch

/-!
# Unread messages

The read cursor of a participant is a time, and so is the age of a message.  A
page moves the cursor before it fetches the messages; a read receipt moves it
and fetches nothing, because a live session has shown the messages already.
-/

namespace KnowledgeMarketplace

open Transaction

namespace Messaging

/-- The answer to a request about a conversation. -/
inductive Answer where
  | sent (id : MessageId)
  | read
  | page (response : ThreadResponse)

/-- Requests in conversations; a live session keeps its copy of the thread. -/
inductive Exchange where
  | send (env : Env) (files : String → Option (AttachmentId × Attachment))
      (id : ThreadId) (user : UserId) (body : String)
      (attachment : AttachmentArgument)
  | sendLive (env : Env) (files : String → Option (AttachmentId × Attachment))
      (thread : LoadedThread) (user : UserId) (body : String)
      (attachment : AttachmentArgument)
  | receipt (env : Env) (id : ThreadId) (user : UserId)
  | receiptLive (env : Env) (thread : LoadedThread) (user : UserId)
  | page (env : Env) (id : ThreadId) (user : UserId)

namespace Exchange

/-- The request of the client. -/
def call : Exchange → Call Answer
  | .send env files id user body attachment => do
      let message ← postMessage env files id user body attachment
      return .sent message.1
  | .sendLive env files thread user body attachment => do
      let message ← sendMessage env files thread user body attachment
      return .sent message.1
  | .receipt env id user => do
      postRead env id user
      return .read
  | .receiptLive env thread user => do
      Call.atomic (markRead env thread user)
      return .read
  | .page env id user => do
      let response ← getThread env id user
      return .page response

/-- A page of the user's. -/
def Pages (id : ThreadId) (user : UserId) : Exchange → Prop
  | .page _ key reader => key = id ∧ reader = user
  | _ => False

/-- A read receipt of the user's, at this time. -/
def Receipts (id : ThreadId) (user : UserId) (now : Time) : Exchange → Prop
  | .receipt env key reader => key = id ∧ reader = user ∧ env.now = now
  | .receiptLive env thread reader =>
      thread.id = id ∧ reader = user ∧ env.now = now
  | _ => False

end Exchange

/-- Clients in conversation and the committed database. -/
abbrev Corresponding := System Db Row Stmt (Except Error Answer)

def Corresponding.start (db : Db) (exchanges : Nat → Exchange) :
    Corresponding :=
  System.init db fun client => (exchanges client).call

/-- A client runs this many statements in a row. -/
def Corresponding.turns (client count : Nat) :
    List (Event (Except Error Answer)) :=
  List.replicate count (.run client)

/-- The cursor has moved, the messages are to be fetched. -/
def fetching (id : ThreadId) (readOnly : Bool) :
    Proc Db Row Stmt (Except Error Answer) :=
  .query fun db =>
    .halt (.ok (.page { readOnly, messages := visibleMessages id db }))

/-! ## What the requests commit, and how they go on -/

/-- The statement moves the cursor. -/
def Moves (id : ThreadId) (user : UserId) (now : Time) : Effect Stmt → Prop
  | .write (.converse (.insertReceipt key time))
  | .write (.converse (.saveReceipt key time)) => key = (id, user) ∧ time = now
  | _ => False

/-- The statement stores a message or moves its thread. -/
def Posts : Effect Stmt → Prop
  | .write (.converse (.insertMessage _ _))
  | .write (.converse (.saveThread _ _)) => True
  | _ => False

/-- A commit of the request goes with what is left of it. -/
def Exchange.Goes
    (exchange : Exchange) (stmts : List Stmt)
    (next : Proc Db Row Stmt (Except Error Answer)) : Prop :=
  match exchange with
  | .send _ _ _ _ _ _ | .sendLive _ _ _ _ _ _ =>
      ∀ stmt ∈ stmts, Posts (.write stmt)
  | .receipt env id user =>
      (∀ stmt ∈ stmts, Moves id user env.now (.write stmt)) ∧
        (stmts ≠ [] → next = .halt (.ok .read))
  | .receiptLive env thread user =>
      (∀ stmt ∈ stmts, Moves thread.id user env.now (.write stmt)) ∧
        (stmts ≠ [] → next = .halt (.ok .read))
  | .page env id user =>
      (∀ stmt ∈ stmts, Moves id user env.now (.write stmt)) ∧
        (stmts ≠ [] → ∃ readOnly, next = fetching id readOnly)

/-- Nothing is written before the thread is found. -/
theorem findThread_finds (id : ThreadId) (user : UserId) :
    (findThread id user).Emits (fun _ => False) fun result =>
      ∀ thread, result = .ok thread → thread.id = id := by
  have named : ∀ db thread, load id db = some thread → thread.id = id := by
    intro db thread found
    obtain ⟨row, _, rfl⟩ := Option.map_eq_some_iff.mp found
    rfl
  simp only [findThread, threadForUser]
  simp
  exact fun db thread found _ _ => named db thread found

theorem sendMessage_posts
    (env : Env) (files : String → Option (AttachmentId × Attachment))
    (thread : LoadedThread) (sender : UserId) (body : String)
    (attachment : AttachmentArgument) :
    (sendMessage env files thread sender body attachment).Emits Posts
      fun _ => True := by
  refine Request.Emits.seq (by simp) fun _ => ?_
  refine Request.Emits.seq (by simp) fun _ => ?_
  refine Request.Emits.seq (by simp) fun _ => ?_
  refine Request.Emits.seq (by simp) fun _ => ?_
  refine Request.Emits.seq (by simp) fun _ => ?_
  refine Request.Emits.seq (by simp) fun _ => ?_
  simp [storeMessage, Tx.create, Call.exec, Posts]

theorem markRead_moves (env : Env) (thread : LoadedThread) (user : UserId) :
    (markRead env thread user).Emits (Moves thread.id user env.now)
      fun _ => True := by
  simp [markRead, Moves]

/-- A commit of nothing is always right. -/
theorem Exchange.goes_nothing
    (exchange : Exchange) (next : Proc Db Row Stmt (Except Error Answer)) :
    exchange.Goes [] next := by
  cases exchange <;> simp [Exchange.Goes]

/-- Sending commits nothing but what it posts. -/
theorem sendMessage_goes
    {exchange : Exchange}
    (env : Env) (files : String → Option (AttachmentId × Attachment))
    (thread : LoadedThread) (sender : UserId) (body : String)
    (attachment : AttachmentArgument)
    (goes : ∀ stmts next, (∀ stmt ∈ stmts, Posts (.write stmt)) →
      exchange.Goes stmts next) :
    (do let message ← sendMessage env files thread sender body attachment
        return .sent message.1 : Call Answer).Continues exchange.Goes := by
  have posts := sendMessage_posts env files thread sender body attachment
  exact Proc.continues_of_emits (Request.Emits.seq posts (by simp)) goes
    (by simp)

/-- A receipt is done when it is committed. -/
theorem markRead_goes
    {exchange : Exchange} (env : Env) (thread : LoadedThread) (user : UserId)
    (goes : ∀ stmts, (∀ stmt ∈ stmts,
      Moves thread.id user env.now (.write stmt)) →
        exchange.Goes stmts (.halt (.ok .read))) :
    (do Call.atomic (markRead env thread user)
        return .read : Call Answer).Continues exchange.Goes :=
  .commit (markRead_moves env thread user) (fun stmts _ all => goes stmts all)
    fun _ => trivial

/-- Every request goes on as it should. -/
theorem Exchange.goes (exchange : Exchange) :
    exchange.call.Continues exchange.Goes := by
  cases exchange with
  | send env files id user body attachment =>
      rw [Exchange.call, postMessage, Request.bind_assoc]
      refine .seq (findThread_finds id user) (Exchange.goes_nothing _)
        fun thread _ => ?_
      exact sendMessage_goes env files thread user body attachment
        fun _ _ all => all
  | sendLive env files thread user body attachment =>
      exact sendMessage_goes env files thread user body attachment
        fun _ _ all => all
  | receipt env id user =>
      rw [Exchange.call, postRead, Request.bind_assoc]
      refine .seq (findThread_finds id user) (Exchange.goes_nothing _)
        fun thread same => ?_
      subst same
      exact markRead_goes env thread user fun _ all => ⟨all, fun _ => rfl⟩
  | receiptLive env thread user =>
      exact markRead_goes env thread user fun _ all => ⟨all, fun _ => rfl⟩
  | page env id user =>
      rw [Exchange.call, getThread, Request.bind_assoc]
      refine .seq (findThread_finds id user) (Exchange.goes_nothing _)
        fun thread same => ?_
      subst same
      rw [Request.bind_assoc]
      exact .commit (markRead_moves env thread user)
        (fun _ _ all => ⟨all, fun _ => ⟨isReadOnly thread, rfl⟩⟩)
        fun _ _ => trivial

/-! ## Messages and cursors -/

/-- A visible message of somebody else in the thread. -/
structure Addressed
    (id : ThreadId) (user : UserId) (message : Message) : Prop where
  thread : message.thread = id
  foreign : message.sender ≠ user
  visible : message.isHidden = false

/-- A page shows the visible messages of its thread. -/
theorem mem_visibleMessages
    {id : ThreadId} {user : UserId} {key : MessageId} {message : Message}
    {db : Db} (stored : db.conversations.messages.row key = some message)
    (addressed : Addressed id user message) :
    (key, message) ∈ visibleMessages id db := by
  rw [visibleMessages, List.mem_mergeSort, List.mem_filter]
  refine ⟨List.mem_filterMap.mpr ⟨key, ?_, by simp [stored]⟩, ?_⟩
  · exact (Table.mem_keys _ key).mpr (by simp [stored])
  · simp [addressed.thread, addressed.visible]

/-- Unread is what is younger than the cursor. -/
theorem mem_unreadMessages
    {id : ThreadId} {user : UserId} {key : MessageId} {message : Message}
    {db : Db} (stored : db.conversations.messages.row key = some message)
    (addressed : Addressed id user message)
    (young : lastReadAt id user db < message.createdAt) :
    key ∈ unreadMessages id user db :=
  Table.mem_select.mpr ⟨message, stored, by
    simp [addressed.thread, addressed.visible, addressed.foreign, young]⟩

/-- Posting leaves the cursors alone. -/
theorem posts_cursor
    {stmts : List Stmt} (posts : ∀ stmt ∈ stmts, Posts (.write stmt))
    (id : ThreadId) (user : UserId) (db : Db) :
    lastReadAt id user (applyAll stmts db) = lastReadAt id user db := by
  refine applyAll_keeps
    (fun later => lastReadAt id user later = lastReadAt id user db)
    (fun stmt member later same => ?_) rfl
  have post := posts stmt member
  cases stmt with
  | converse stmt => cases stmt <;> first | exact same | exact post.elim
  | _ => exact post.elim

/-- A message after posting was there before, or has just been inserted. -/
theorem posts_message
    {stmts : List Stmt} (posts : ∀ stmt ∈ stmts, Posts (.write stmt))
    {db : Db} {key : MessageId} {message : Message}
    (stored : (applyAll stmts db).conversations.messages.row key =
      some message) :
    db.conversations.messages.row key = some message ∨
      Stmt.converse (.insertMessage key message) ∈ stmts := by
  refine applyAll_keeps (fun later : Db => ∀ found,
    later.conversations.messages.row key = some found →
      db.conversations.messages.row key = some found ∨
        Stmt.converse (.insertMessage key found) ∈ stmts)
    (fun stmt member later before found stored => ?_)
    (fun _ stored => .inl stored) message stored
  have post := posts stmt member
  cases stmt with
  | converse stmt =>
      cases stmt with
      | insertMessage fresh value =>
          rcases Table.row_insert_cases stored with old | ⟨rfl, rfl, _⟩
          · exact before found old
          · exact .inr member
      | saveThread => exact before found stored
      | _ => exact post.elim
  | _ => exact post.elim

variable {stmts : List Stmt} {key : ThreadId} {reader : UserId} {now : Time}

/-- Moving a cursor leaves the messages alone. -/
theorem moves_messages
    (moves : ∀ stmt ∈ stmts, Moves key reader now (.write stmt)) (db : Db) :
    (applyAll stmts db).conversations.messages = db.conversations.messages := by
  refine applyAll_keeps (fun later : Db =>
    later.conversations.messages = db.conversations.messages)
    (fun stmt member later same => ?_) rfl
  have move := moves stmt member
  cases stmt with
  | converse stmt => cases stmt <;> first | exact same | exact move.elim
  | _ => exact move.elim

/-- The other cursors stay. -/
theorem moves_others
    (moves : ∀ stmt ∈ stmts, Moves key reader now (.write stmt))
    {id : ThreadId} {user : UserId} (other : (id, user) ≠ (key, reader))
    (db : Db) :
    lastReadAt id user (applyAll stmts db) = lastReadAt id user db := by
  refine applyAll_keeps
    (fun later => lastReadAt id user later = lastReadAt id user db)
    (fun stmt member later same => ?_) rfl
  have move := moves stmt member
  cases stmt with
  | converse stmt =>
      cases stmt with
      | insertReceipt _ _ | saveReceipt _ _ =>
          obtain ⟨rfl, rfl⟩ := move
          simpa [lastReadAt, Stmt.apply, ConversationStmt.apply, other]
            using same
      | _ => exact move.elim
  | _ => exact move.elim

/-- The cursor is where it was, or at the time of the move. -/
theorem moves_cursor
    (moves : ∀ stmt ∈ stmts, Moves key reader now (.write stmt)) (db : Db) :
    lastReadAt key reader (applyAll stmts db) = lastReadAt key reader db ∨
      lastReadAt key reader (applyAll stmts db) = now := by
  refine applyAll_keeps (fun later =>
    lastReadAt key reader later = lastReadAt key reader db ∨
      lastReadAt key reader later = now)
    (fun stmt member later before => ?_) (.inl rfl)
  have move := moves stmt member
  cases stmt with
  | converse stmt =>
      cases stmt with
      | insertReceipt _ _ | saveReceipt _ _ =>
          obtain ⟨rfl, rfl⟩ := move
          cases stored : later.conversations.receipts.row (key, reader) <;>
            simp_all [lastReadAt, Stmt.apply, ConversationStmt.apply,
              Table.row_insert]
      | _ => exact move.elim
  | _ => exact move.elim

/-! ## Runs -/

/-- What becomes of a message that somebody else has sent. -/
inductive Accounted
    (exchanges : Nat → Exchange) (id : ThreadId) (user : UserId)
    (system : Corresponding) (key : MessageId) (message : Message) : Prop where
  | unread
      (young : lastReadAt id user system.committed < message.createdAt)
  | fetched (client : Nat) (response : ThreadResponse)
      (pages : (exchanges client).Pages id user)
      (halted : (system.clients client).proc = .halt (.ok (.page response)))
      (shown : (key, message) ∈ response.messages)
  | underway (client : Nat) (readOnly : Bool)
      (pages : (exchanges client).Pages id user)
      (waits : system.clients client = ⟨fetching id readOnly, []⟩)
  | receipted (client : Nat) (now : Time)
      (receipts : (exchanges client).Receipts id user now)
      (halted : (system.clients client).proc = .halt (.ok .read))
      (old : message.createdAt ≤ now)

/-- No message is committed with a time that the user has read past. -/
def Timely
    (exchanges : Nat → Exchange) (id : ThreadId) (user : UserId)
    (system : Corresponding) (client : Nat) : Prop :=
  ∀ stmts, system.committing (.run client) = some stmts →
    ∀ key message, Stmt.converse (.insertMessage key message) ∈ stmts →
      Addressed id user message →
        lastReadAt id user system.committed < message.createdAt ∨
          ∃ reader readOnly, (exchanges reader).Pages id user ∧
            system.clients reader = ⟨fetching id readOnly, []⟩

/-- Every message is accounted for, and every request goes on as it should. -/
structure Tracked
    (exchanges : Nat → Exchange) (id : ThreadId) (user : UserId)
    (system : Corresponding) : Prop where
  goes : ∀ client, (system.clients client).proc.Continues
    (exchanges client).Goes (system.clients client).writes
  accounts : ∀ key message,
    system.committed.conversations.messages.row key = some message →
      Addressed id user message →
        Accounted exchanges id user system key message

variable {exchanges : Nat → Exchange} {id : ThreadId} {user : UserId}
  {system : Corresponding} {client : Nat} {message : Message}

/-- Who is done stays as he is. -/
theorem turn_halted
    {other : Nat} {result : Except Error Answer} (mover : Nat)
    (halted : (system.clients other).proc = .halt result) :
    (system.turn mover).clients other = system.clients other := by
  by_cases same : other = mover
  · subst same
    simp [System.turn, halted]
  · exact System.turn_other same

/-- A turn that leaves the cursor where it is. -/
theorem Accounted.turn
    {key : MessageId} (client : Nat)
    (stored : system.committed.conversations.messages.row key = some message)
    (addressed : Addressed id user message)
    (still : lastReadAt id user (system.turn client).committed =
      lastReadAt id user system.committed)
    (accounted : Accounted exchanges id user system key message) :
    Accounted exchanges id user (system.turn client) key message := by
  cases accounted with
  | unread young => exact .unread (by rwa [still])
  | fetched reader response pages halted shown =>
      exact .fetched reader response pages
        (by rw [turn_halted client halted, halted]) shown
  | underway reader readOnly pages waits =>
      by_cases same : reader = client
      · subst same
        have shown : ((system.turn reader).clients reader).proc = .halt (.ok
            (.page ⟨readOnly, visibleMessages id system.committed⟩)) := by
          simp [System.turn, waits, fetching]
        exact .fetched reader _ pages shown
          (mem_visibleMessages stored addressed)
      · exact .underway reader readOnly pages
          (by rw [System.turn_other same, waits])
  | receipted reader now receipts halted old =>
      exact .receipted reader now receipts
        (by rw [turn_halted client halted, halted]) old

/-- New messages are young, or a page is going to show them. -/
theorem Tracked.posts
    (tracked : Tracked exchanges id user system)
    (timely : Timely exchanges id user system client)
    {stmts : List Stmt} (posts : ∀ stmt ∈ stmts, Posts (.write stmt))
    (commits : system.committing
      (.run client : Event (Except Error Answer)) = some stmts)
    (after : (system.turn client).committed = applyAll stmts system.committed)
    {key : MessageId}
    (stored : (applyAll stmts system.committed).conversations.messages.row key =
      some message)
    (addressed : Addressed id user message) :
    Accounted exchanges id user (system.turn client) key message := by
  have still : lastReadAt id user (system.turn client).committed =
      lastReadAt id user system.committed := by
    rw [after, posts_cursor posts]
  rcases posts_message posts stored with old | fresh
  · exact (tracked.accounts key message old addressed).turn client old addressed
      still
  · rcases timely stmts commits key message fresh addressed with
      young | ⟨reader, readOnly, pages, waits⟩
    · exact .unread (by rwa [still])
    · have other : reader ≠ client := by
        rintro rfl
        simp [System.committing, waits, fetching] at commits
      exact .underway reader readOnly pages
        (by rw [System.turn_other other, waits])

/-- What a moved cursor passes is going to be shown, or has a receipt. -/
theorem Tracked.moves
    (tracked : Tracked exchanges id user system)
    {stmts : List Stmt} {thread : ThreadId} {reader : UserId} {now : Time}
    (moves : ∀ stmt ∈ stmts, Moves thread reader now (.write stmt))
    (after : (system.turn client).committed = applyAll stmts system.committed)
    {key : MessageId}
    (stored : (applyAll stmts system.committed).conversations.messages.row key =
      some message)
    (addressed : Addressed id user message)
    (passed : thread = id → reader = user → stmts ≠ [] →
      message.createdAt ≤ now →
        Accounted exchanges id user (system.turn client) key message) :
    Accounted exchanges id user (system.turn client) key message := by
  rw [moves_messages moves] at stored
  have before := tracked.accounts key message stored addressed
  by_cases same : (id, user) = (thread, reader)
  · obtain ⟨rfl, rfl⟩ := Prod.mk.inj same
    rcases moves_cursor moves system.committed with still | moved
    · exact before.turn client stored addressed (by rw [after, still])
    · by_cases young : now < message.createdAt
      · exact .unread (by rwa [after, moved])
      · by_cases nothing : stmts = []
        · subst nothing
          exact before.turn client stored addressed
            (by rw [after, applyAll_nil])
        · exact passed rfl rfl nothing (not_lt.mp young)
  · exact before.turn client stored addressed
      (by rw [after, moves_others moves same])

/-- A timely turn keeps the account. -/
theorem Tracked.turn
    (tracked : Tracked exchanges id user system) (client : Nat)
    (timely : Timely exchanges id user system client) :
    Tracked exchanges id user (system.turn client) := by
  have goes : ∀ other, ((system.turn client).clients other).proc.Continues
      (exchanges other).Goes ((system.turn client).clients other).writes := by
    intro other
    by_cases mover : other = client
    · exact mover ▸ System.continues_turn client (tracked.goes client)
    · rw [System.turn_other mover]
      exact tracked.goes other
  refine ⟨goes, fun key message stored addressed => ?_⟩
  have same : system.turn client =
      system.step (.run client : Event (Except Error Answer)) := rfl
  rcases commits : system.committing
      (.run client : Event (Except Error Answer)) with _ | stmts
  · have quiet := System.step_committed_of_none commits
    rw [← same] at quiet
    rw [quiet] at stored
    exact (tracked.accounts key message stored addressed).turn client stored
      addressed (by rw [quiet])
  · have after := System.step_committed_of_some commits
    rw [← same] at after
    rw [after] at stored
    obtain ⟨next, left, going⟩ :=
      System.continues_commits (tracked.goes client) commits
    cases shape : exchanges client with
    | send | sendLive =>
        rw [shape] at going
        exact tracked.posts timely going commits after stored addressed
    | receipt env thread reader =>
        rw [shape] at going
        refine tracked.moves going.1 after stored addressed ?_
        intro named own some old
        exact .receipted client env.now
          (by simp [shape, Exchange.Receipts, named, own])
          (by rw [left, going.2 some]) old
    | receiptLive env thread reader =>
        rw [shape] at going
        refine tracked.moves going.1 after stored addressed ?_
        intro named own some old
        exact .receipted client env.now
          (by simp [shape, Exchange.Receipts, named, own])
          (by rw [left, going.2 some]) old
    | page env thread reader =>
        rw [shape] at going
        refine tracked.moves going.1 after stored addressed ?_
        intro named own some _
        obtain ⟨readOnly, rest⟩ := going.2 some
        exact .underway client readOnly
          (by simp [shape, Exchange.Pages, named, own])
          (by rw [left, rest, named])

/-- The messages that the client has been shown. -/
def shownTo (system : Corresponding) (client : Nat) : List MessageId :=
  match (system.clients client).proc with
  | .halt (.ok (.page response)) => response.messages.map Prod.fst
  | _ => []

/--
No page has shown the message to the user and none is about to, and no receipt
of the user's is as young as it is.
-/
structure Unseen
    (exchanges : Nat → Exchange) (id : ThreadId) (user : UserId)
    (system : Corresponding) (key : MessageId) (message : Message) : Prop where
  unfetched : ∀ client, (exchanges client).Pages id user →
    key ∉ shownTo system client
  settled : ∀ client readOnly, (exchanges client).Pages id user →
    system.clients client ≠ ⟨fetching id readOnly, []⟩
  unreceipted : ∀ client now, (exchanges client).Receipts id user now →
    (system.clients client).proc = .halt (.ok .read) → now < message.createdAt

/-- Accounted for in no other way, the message is unread. -/
theorem Accounted.young
    {key : MessageId}
    (accounted : Accounted exchanges id user system key message)
    (unseen : Unseen exchanges id user system key message) :
    lastReadAt id user system.committed < message.createdAt := by
  cases accounted with
  | unread young => exact young
  | fetched client response pages halted shown =>
      refine absurd ?_ (unseen.unfetched client pages)
      rw [shownTo, halted]
      exact List.mem_map.mpr ⟨_, shown, rfl⟩
  | underway client readOnly pages waits =>
      exact absurd waits (unseen.settled client readOnly pages)
  | receipted client now receipts halted old =>
      have younger := unseen.unreceipted client now receipts halted
      exact absurd old (not_le.mpr younger)

/-- The inbox of a listed participant counts the unread messages. -/
theorem inbox_counts
    {db : Db} (listed : user ∈ snapshot id db) :
    ∃ card ∈ inbox user db, card.id = id ∧
      card.unread = (unreadMessages id user db).length := by
  cases stored : db.conversations.threads.row id with
  | none => simp [snapshot, stored] at listed
  | some thread =>
      have member : user ∈ thread.participants := by
        simpa [snapshot, stored] using listed
      have selected : id ∈ db.conversations.threads.select fun _ thread =>
          decide (user ∈ thread.participants) :=
        Table.mem_select.mpr ⟨thread, stored, by simpa using member⟩
      obtain ⟨loaded, found, same⟩ :
          ∃ loaded, load id db = some loaded ∧ loaded.id = id :=
        ⟨_, by simp only [load, stored, Option.map_some]; rfl, rfl⟩
      refine ⟨card user db loaded, ?_, same, by rw [← same]; rfl⟩
      rw [inbox, List.mem_mergeSort, List.mem_filterMap]
      exact ⟨id, selected, by rw [found, Option.map_some]⟩

/--
In any interleaving in which no message is committed with a time that the user
has read past, a message of somebody else that the user has not been shown, and
that no receipt covers, is unread, and the inbox counts it.
-/
theorem messages_unread
    (db : Db) (exchanges : Nat → Exchange) (id : ThreadId) (user : UserId)
    (reached : Corresponding)
    (unread : ∀ key message,
      db.conversations.messages.row key = some message →
        Addressed id user message → lastReadAt id user db < message.createdAt)
    (run : System.Turns (Timely exchanges id user)
      (Corresponding.start db exchanges) reached) :
    (∀ key message,
      reached.committed.conversations.messages.row key = some message →
        Addressed id user message →
        Unseen exchanges id user reached key message →
          key ∈ unreadMessages id user reached.committed) ∧
      (user ∈ snapshot id reached.committed →
        ∃ card ∈ inbox user reached.committed, card.id = id ∧
          card.unread = (unreadMessages id user reached.committed).length) := by
  have tracked : Tracked exchanges id user reached := by
    induction run with
    | refl =>
        exact ⟨fun client => (exchanges client).goes,
          fun key message stored addressed =>
            .unread (unread key message stored addressed)⟩
    | turn client _ timely inductionHypothesis =>
        exact inductionHypothesis.turn client timely
  refine ⟨fun key message stored addressed unseen => ?_, inbox_counts⟩
  have accounted := tracked.accounts key message stored addressed
  exact mem_unreadMessages stored addressed (accounted.young unseen)

/-- Timeliness of a turn, as far as the cursor shows it. -/
def timely (id : ThreadId) (user : UserId) (system : Corresponding)
    (client : Nat) : Bool :=
  (system.committing (.run client)).all fun stmts => stmts.all fun
    | .converse (.insertMessage _ message) =>
        lastReadAt id user system.committed < message.createdAt
    | _ => true

theorem timely_sound
    (system : Corresponding) (client : Nat)
    (checked : timely id user system client = true) :
    Timely exchanges id user system client := by
  intro stmts commits key message member _
  rw [timely, commits, Option.all_some, List.all_eq_true] at checked
  exact .inl (by simpa using checked _ member)

/-- An order of the student 1 with the expert 2 and its empty thread. -/
def emptyThread : Db :=
  { orders := .insert .empty 40
      { request := 10
        student := 1
        expert := 2
        source := .openBid
        amount := 5000
        commissionAmount := 750
        expertAmount := 4250
        status := .active
        paidAt := some 1
        createdAt := 0 }
    conversations :=
      { threads := .insert .empty 60
          { contextType := .order
            order := some 40
            participants := [1, 2]
            createdAt := 3 } } }

/-- The student has the page when the expert writes. -/
def pageThenMessage : Nat → Exchange
  | 0 => .page { now := 5 } 60 1
  | _ => .send { now := 7, key := 80 } (fun _ => none) 60 2
      "The first chapter is done." .absent

/-- The message as it is stored. -/
def chapterDone : Message where
  thread := 60
  sender := 2
  body := "The first chapter is done."
  createdAt := 7

/-- The message of the expert is unread. -/
theorem messages_unread_afterPage :
    let reached := (Corresponding.start emptyThread pageThenMessage).runAll
      (Corresponding.turns 0 12 ++ Corresponding.turns 1 14)
    80 ∈ unreadMessages 60 1 reached.committed ∧
      ∃ card ∈ inbox 1 reached.committed, card.id = 60 ∧ card.unread = 1 := by
  intro reached
  have run : System.Turns (Timely pageThenMessage 60 1)
      (Corresponding.start emptyThread pageThenMessage) reached :=
    System.turns_of_allowsAll timely_sound .refl (by decide +kernel)
  obtain ⟨counts, listed⟩ := messages_unread emptyThread pageThenMessage 60 1
    reached (fun _ _ stored => nomatch stored) run
  have sent : reached.committed.conversations.messages.row 80 =
      some chapterDone := by decide +kernel
  have paged : ∀ client, (pageThenMessage client).Pages 60 1 → client = 0 := by
    intro client pages
    match client with
    | 0 => rfl
    | _ + 1 => exact pages.elim
  have unseen : Unseen pageThenMessage 60 1 reached 80 chapterDone :=
    { unfetched := fun client pages => by
        obtain rfl := paged client pages
        decide +kernel
      settled := fun client readOnly pages waits => by
        obtain rfl := paged client pages
        have ended : (reached.clients 0).proc.ended = true := by decide +kernel
        rw [waits] at ended
        exact nomatch ended
      unreceipted := fun client now receipts => by
        match client with
        | 0 => exact receipts.elim
        | _ + 1 => exact receipts.elim }
  have unread := counts 80 chapterDone sent ⟨rfl, by decide, rfl⟩ unseen
  have one : (unreadMessages 60 1 reached.committed).length = 1 := by
    decide +kernel
  exact ⟨unread, one ▸ listed (by decide +kernel)⟩

/-- The student sends a receipt and never asks for the page. -/
def messageThenReceipt : Nat → Exchange
  | 0 => .send { now := 5, key := 80 } (fun _ => none) 60 2
      "The first chapter is done." .absent
  | _ => .receipt { now := 9 } 60 1

/-- The expert's message is stored when the student has had the page. -/
def lateMessage : Nat → Exchange
  | 0 => .send { now := 5, key := 80 } (fun _ => none) 60 2
      "The first chapter is done." .absent
  | _ => .page { now := 9 } 60 1

/--
The receipt marks a message read that no page has shown; so does a page that is
fetched before the older message is committed.
-/
theorem receipt_unfetched :
    let receipted := (Corresponding.start emptyThread messageThenReceipt).runAll
      (Corresponding.turns 0 14 ++ Corresponding.turns 1 12)
    let raced := (Corresponding.start emptyThread lateMessage).runAll
      (Corresponding.turns 0 5 ++ Corresponding.turns 1 12 ++
        Corresponding.turns 0 9)
    ((∀ client, ¬(messageThenReceipt client).Pages 60 1) ∧
      (visibleMessages 60 receipted.committed).map Prod.fst = [80] ∧
      (inbox 1 receipted.committed).map Card.unread = [0]) ∧
    shownTo raced 1 = [] ∧
      (visibleMessages 60 raced.committed).map Prod.fst = [80] ∧
      (inbox 1 raced.committed).map Card.unread = [0] := by
  intro receipted raced
  refine ⟨⟨fun client pages => ?_, by decide +kernel, by decide +kernel⟩, ?_⟩
  · match client with
    | 0 => exact pages.elim
    | _ + 1 => exact pages.elim
  · decide +kernel

end Messaging

end KnowledgeMarketplace
