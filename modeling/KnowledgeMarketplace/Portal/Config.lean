import KnowledgeMarketplace.Database.Rows
import KnowledgeMarketplace.Transaction.History
import Mathlib.Data.Rat.Floor
import Mathlib.Tactic.Linarith

/-!
# The configuration editor

An update checks every change against the bounds of its field, saves the fields
that change and tells what they were before and after.  The row is read without
a lock.
-/

namespace KnowledgeMarketplace

open Transaction

namespace Configuration

/-! ## Fields -/

/-- `MUTABLE_FIELDS`. -/
inductive Field where
  | openCommissionRate
  | managedCommissionRate
  | minOfferMinor
  | payoutMinMinor
  | disputeWindowDays
  deriving DecidableEq

namespace Field

def all : List Field :=
  [.openCommissionRate, .managedCommissionRate, .minOfferMinor,
    .payoutMinMinor, .disputeWindowDays]

def name : Field → String
  | .openCommissionRate => "open_commission_rate"
  | .managedCommissionRate => "managed_commission_rate"
  | .minOfferMinor => "min_offer_minor"
  | .payoutMinMinor => "payout_min_minor"
  | .disputeWindowDays => "dispute_window_days"

def label : Field → String
  | .openCommissionRate => "Open-marketplace commission rate (BR-17)"
  | .managedCommissionRate => "Managed-service commission rate"
  | .minOfferMinor => "Binding offer floor, minor units (BR-18)"
  | .payoutMinMinor => "Payout roll-forward floor, minor units (BR-30)"
  | .disputeWindowDays => "Dispute window after completion, days (BR-40)"

/-- Rates are decimals with four places, stored in ten thousandths. -/
def isRate : Field → Bool
  | .openCommissionRate | .managedCommissionRate => true
  | _ => false

/-- The bounds of a field, as stored. -/
def low : Field → Int
  | .openCommissionRate | .managedCommissionRate => 0
  | .minOfferMinor | .payoutMinMinor => 100
  | .disputeWindowDays => 1

def high : Field → Int
  | .openCommissionRate | .managedCommissionRate => 5000
  | .minOfferMinor | .payoutMinMinor => 100000000
  | .disputeWindowDays => 30

/-- The bounds of a field, as an error names them. -/
def lowText : Field → String
  | .openCommissionRate | .managedCommissionRate => "0"
  | .minOfferMinor | .payoutMinMinor => "100"
  | .disputeWindowDays => "1"

def highText : Field → String
  | .openCommissionRate | .managedCommissionRate => "0.50"
  | .minOfferMinor | .payoutMinMinor => "100000000"
  | .disputeWindowDays => "30"

/-- The field with this name. -/
def ofName (name : String) : Option Field :=
  all.find? (·.name = name)

/-- A rate as `str` writes it. -/
def rateText (tenThousandths : Int) : String :=
  let digits := toString (tenThousandths.natAbs % 10000)
  (if tenThousandths < 0 then "-" else "") ++
    toString (tenThousandths.natAbs / 10000) ++ "." ++
      String.ofList (List.replicate (4 - digits.length) '0') ++ digits

/-- A stored value as `str` writes it. -/
def text (field : Field) (value : Int) : String :=
  if field.isRate then rateText value else toString value

end Field

/-- The mutable columns of the singleton row. -/
structure Settings where
  value : Field → Int

namespace Settings

def InBounds (settings : Settings) : Prop :=
  ∀ field : Field,
    field.low ≤ settings.value field ∧ settings.value field ≤ field.high

/-- The columns that are saved. -/
def save (settings : Settings) (changes : List (Field × Int)) : Settings where
  value field := (changes.lookup field).getD (settings.value field)

end Settings

/-! ## Raw values -/

/-- What `Decimal` makes of a raw value. -/
inductive Number where
  | finite (value : Rat)
  | negativeZero
  | infinite
  | nan

/-- What `int` makes of a raw value, which may be a truth value itself. -/
inductive Whole where
  | int (value : Int)
  | bool (value : Bool)

/-- The conversions of raw values; nothing when they raise. -/
structure Readers (ρ : Type) where
  decimal : ρ → Option Number
  integer : ρ → Option Whole

/-- An expected failure, or the comparison of a decimal that is no number. -/
inductive ConfigError where
  | domain (message code : String)
  | invalidOperation
  deriving DecidableEq

def validationError (message : String) : ConfigError :=
  .domain message "validation_error"

/-- Round to an integer, halves to even. -/
def roundHalfEven (value : Rat) : Int :=
  let whole := value.floor
  let rest := value - whole
  if rest < 1 / 2 then whole
  else if 1 / 2 < rest then whole + 1
  else if whole % 2 = 0 then whole
  else whole + 1

/-- A value to be stored, and as `str` writes it. -/
structure Coerced where
  value : Int
  text : String

variable {ρ : Type}

namespace Field

def invalid (field : Field) : ConfigError :=
  validationError (field.label ++ ": invalid value.")

def outOfBounds (field : Field) : ConfigError :=
  validationError (field.label ++ " must be between " ++ field.lowText ++
    " and " ++ field.highText ++ ".")

/-- `_coerce`, and the rounding of decimals to four places. -/
def coerce (readers : Readers ρ) (field : Field) (raw : ρ) :
    Except ConfigError Coerced :=
  if field.isRate then
    match readers.decimal raw with
    | none => .error field.invalid
    | some .nan => .error .invalidOperation
    | some .infinite => .error field.outOfBounds
    | some .negativeZero => .ok { value := 0, text := "-0.0000" }
    | some (.finite value) =>
        if value < field.low / 10000 ∨ field.high / 10000 < value then
          .error field.outOfBounds
        else
          let rounded := roundHalfEven (value * 10000)
          .ok { value := rounded, text := rateText rounded }
  else
    match readers.integer raw with
    | none => .error field.invalid
    | some whole =>
        let coerced : Coerced := match whole with
          | .int value => { value, text := toString value }
          | .bool value =>
              { value := if value then 1 else 0
                text := if value then "True" else "False" }
        if coerced.value < field.low ∨ field.high < coerced.value then
          .error field.outOfBounds
        else
          .ok coerced

end Field

/-! ## Updates -/

/-- A field that changes. -/
structure Change where
  field : Field
  before : Int
  after : Coerced

/-- What an update tells: `before` and `after` of its detail. -/
structure ConfigEvent where
  actor : UserId
  before : List (Field × String)
  after : List (Field × String)
  deriving DecidableEq

/-- The changes that a client sends: a dictionary. -/
structure Payload (ρ : Type) where
  entries : List (String × ρ)
  unique : (entries.map Prod.fst).Nodup

/-- The configuration and what is told about it, the oldest event first. -/
structure Panel where
  settings : Settings
  trail : List ConfigEvent := []

inductive PanelStmt where
  | save (changes : List (Field × Int))
  | log (event : ConfigEvent)

def PanelStmt.apply (panel : Panel) : PanelStmt → Panel
  | .save changes => { panel with settings := panel.settings.save changes }
  | .log event => { panel with trail := panel.trail ++ [event] }

/-- The singleton row is all there is to lock. -/
instance : Store Panel Unit PanelStmt where
  apply stmt panel := stmt.apply panel
  rows
    | .save _ => [()]
    | .log _ => []

@[simp] theorem panelStore_apply (stmt : PanelStmt) (panel : Panel) :
    Store.apply stmt panel = stmt.apply panel :=
  rfl

abbrev PanelTx (α : Type) := Prog Panel Unit PanelStmt ConfigError α

abbrev PanelCall (α : Type) := Request Panel Unit PanelStmt ConfigError α

/-- The changes of known fields, checked one after the other. -/
def collect (readers : Readers ρ) (settings : Settings) :
    List (Field × ρ) → Except ConfigError (List Change)
  | [] => .ok []
  | (field, raw) :: rest => do
      let after ← field.coerce readers raw
      let later ← collect readers settings rest
      if settings.value field = after.value then
        return later
      else
        return { field, before := settings.value field, after } :: later

/-- The names that are no field. -/
def unknown (entries : List (String × ρ)) : List String :=
  (entries.map Prod.fst).filter fun name => (Field.ofName name).isNone

/-- The entries with their fields. -/
def known (entries : List (String × ρ)) : List (Field × ρ) :=
  entries.filterMap fun entry =>
    (Field.ofName entry.1).map (·, entry.2)

/-- Check and save changes, and tell them. -/
def updateConfig (readers : Readers ρ) (actor : UserId) (payload : Payload ρ) :
    PanelTx Settings := do
  let others := unknown payload.entries
  Prog.require (others = [])
    (validationError
      ("Unknown or immutable configuration fields: " ++
        ", ".intercalate (others.mergeSort (· ≤ ·)) ++ "."))
  let settings ← Prog.read Panel.settings
  let changes ← Prog.ofExcept (collect readers settings (known payload.entries))
  if changes ≠ [] then
    Prog.exec <| .save <| changes.map fun change =>
      (change.field, change.after.value)
    Prog.exec <| .log
      { actor
        before := changes.map fun change =>
          (change.field, change.field.text change.before)
        after := changes.map fun change =>
          (change.field, change.after.text) }
  Prog.read Panel.settings

/-- A request with its payload. -/
structure Update (ρ : Type) where
  actor : UserId
  payload : Payload ρ

def Update.call (readers : Readers ρ) (update : Update ρ) :
    PanelCall Settings :=
  Request.atomic (updateConfig readers update.actor update.payload)

/-! ## What an update saves -/

/-- The text is what `str` writes, save for two values with two texts. -/
def Tells (field : Field) (text : String) (value : Int) : Prop :=
  text = field.text value ∨
    field.isRate = true ∧ text = "-0.0000" ∧ value = 0 ∨
    field.isRate = false ∧ text = "True" ∧ value = 1

theorem roundHalfEven_bounds
    {value : Rat} {top : Int} (nonneg : 0 ≤ value) (bounded : value ≤ top) :
    0 ≤ roundHalfEven value ∧ roundHalfEven value ≤ top := by
  have below : ((value.floor : Int) : Rat) ≤ value := Rat.floor_le value
  have low : 0 ≤ value.floor := Rat.le_floor_iff.mpr (by simpa using nonneg)
  have high : value.floor ≤ top := by exact_mod_cast below.trans bounded
  have room : value.floor < value → value.floor + 1 ≤ top := by
    intro less
    have strict : ((value.floor : Int) : Rat) < (top : Int) :=
      less.trans_le bounded
    have : value.floor < top := by exact_mod_cast strict
    omega
  unfold roundHalfEven
  simp only
  split_ifs with small large even
  · exact ⟨low, high⟩
  · have : ((value.floor : Int) : Rat) < value := by linarith
    exact ⟨by omega, room this⟩
  · exact ⟨low, high⟩
  · have : ((value.floor : Int) : Rat) < value := by linarith
    exact ⟨by omega, room this⟩

/-- What passes the check is within the bounds. -/
theorem checked_ok
    {field : Field} {value coerced : Coerced} {error : ConfigError}
    (ok : (if value.value < field.low ∨ field.high < value.value then
      .error error else .ok value) = Except.ok coerced) :
    value = coerced ∧ field.low ≤ value.value ∧ value.value ≤ field.high := by
  split_ifs at ok with outside
  obtain rfl : value = coerced := by simpa using ok
  rw [not_or, not_lt, not_lt] at outside
  exact ⟨rfl, outside⟩

/-- What is coerced is within the bounds, and told. -/
theorem coerce_bounds
    {readers : Readers ρ} {field : Field} {raw : ρ} {coerced : Coerced}
    (ok : field.coerce readers raw = .ok coerced) :
    field.low ≤ coerced.value ∧ coerced.value ≤ field.high ∧
      Tells field coerced.text coerced.value := by
  unfold Field.coerce at ok
  split at ok
  case isTrue rate =>
    have bounds : field.low = 0 ∧ field.high = 5000 := by
      cases field <;> simp_all [Field.isRate, Field.low, Field.high]
    rw [bounds.1, bounds.2] at ok ⊢
    split at ok
    · cases ok
    · cases ok
    · cases ok
    · cases ok
      exact ⟨le_rfl, by decide, .inr (.inl ⟨rate, rfl, rfl⟩)⟩
    · next value _ =>
        split at ok
        · cases ok
        · next inside =>
            cases ok
            rw [not_or, not_lt, not_lt] at inside
            norm_num at inside
            have rounded : 0 ≤ roundHalfEven (value * 10000) ∧
                roundHalfEven (value * 10000) ≤ 5000 :=
              roundHalfEven_bounds (by linarith [inside.1])
                (by push_cast; linarith [inside.2])
            exact ⟨rounded.1, rounded.2, .inl (by simp [Field.text, rate])⟩
  case isFalse whole =>
    split at ok
    · cases ok
    · next read _ =>
        obtain ⟨rfl, low, high⟩ := checked_ok ok
        refine ⟨low, high, ?_⟩
        cases read with
        | int value => exact .inl (by simp [Field.text, whole])
        | bool value =>
            cases value with
            | true => exact .inr (.inr ⟨by simp [whole], rfl, rfl⟩)
            | false =>
                -- only rates may be zero
                have positive : 1 ≤ field.low := by
                  cases field <;> simp_all [Field.isRate, Field.low]
                have : field.low ≤ 0 := low
                omega

/-- The changes of an update that has seen these settings. -/
structure Sound (settings : Settings) (changes : List Change) : Prop where
  distinct : (changes.map Change.field).Nodup
  before : ∀ change ∈ changes, change.before = settings.value change.field
  differ : ∀ change ∈ changes, change.after.value ≠ change.before
  inBounds : ∀ change ∈ changes,
    change.field.low ≤ change.after.value ∧
      change.after.value ≤ change.field.high
  told : ∀ change ∈ changes,
    Tells change.field change.after.text change.after.value

theorem ofName_name {name : String} {field : Field}
    (found : Field.ofName name = some field) : field.name = name := by
  simpa using List.find?_some found

/-- A payload names a field once. -/
theorem known_nodup (payload : Payload ρ) :
    ((known payload.entries).map Prod.fst).Nodup := by
  have names : (known payload.entries).map Prod.fst =
      (payload.entries.map Prod.fst).filterMap Field.ofName := by
    simp [known, List.map_filterMap, List.filterMap_map, Function.comp_def]
  rw [names]
  refine payload.unique.filterMap fun first second field one other => ?_
  exact (ofName_name one).symm.trans (ofName_name other)

variable {readers : Readers ρ} {settings : Settings}

/-- What is collected are sound changes of the fields that were sent. -/
theorem collect_sound
    {entries : List (Field × ρ)} {changes : List Change}
    (unique : (entries.map Prod.fst).Nodup)
    (ok : collect readers settings entries = .ok changes) :
    Sound settings changes ∧
      (changes.map Change.field).Sublist (entries.map Prod.fst) := by
  induction entries generalizing changes with
  | nil =>
      cases ok
      exact ⟨⟨.nil, by simp, by simp, by simp, by simp⟩, .slnil⟩
  | cons entry rest inductionHypothesis =>
      obtain ⟨field, raw⟩ := entry
      rw [List.map_cons, List.nodup_cons] at unique
      cases coerced : field.coerce readers raw with
      | error error => simp [collect, coerced, bind, Except.bind] at ok
      | ok after =>
          cases collected : collect readers settings rest with
          | error error =>
              simp [collect, coerced, collected, bind, Except.bind] at ok
          | ok later =>
              obtain ⟨sound, sublist⟩ :=
                inductionHypothesis unique.2 collected
              simp only [collect, coerced, collected, bind, Except.bind] at ok
              split at ok
              · cases ok
                exact ⟨sound, sublist.cons field⟩
              · next different =>
                  cases ok
                  obtain ⟨low, high, told⟩ := coerce_bounds coerced
                  have fresh : field ∉ later.map Change.field :=
                    fun again => unique.1 (sublist.subset again)
                  refine ⟨?_, sublist.cons_cons field⟩
                  constructor
                  · exact List.nodup_cons.mpr ⟨fresh, sound.distinct⟩
                  · exact List.forall_mem_cons.mpr ⟨rfl, sound.before⟩
                  · exact List.forall_mem_cons.mpr
                      ⟨Ne.symm different, sound.differ⟩
                  · exact List.forall_mem_cons.mpr
                      ⟨⟨low, high⟩, sound.inBounds⟩
                  · exact List.forall_mem_cons.mpr ⟨told, sound.told⟩

/-- What the event of an update tells. -/
def eventOf (actor : UserId) (changes : List Change) : ConfigEvent where
  actor
  before := changes.map fun change =>
    (change.field, change.field.text change.before)
  after := changes.map fun change => (change.field, change.after.text)

/--
A commit that changes something saves the changes and tells them; they are
changes from settings that its client has seen.
-/
def Edits (actor : UserId) (seen : List Panel) (stmts : List PanelStmt) :
    Prop :=
  stmts = [] ∨ ∃ look ∈ seen, ∃ changes ≠ [],
    Sound look.settings changes ∧
      stmts = [
        .save (changes.map fun change => (change.field, change.after.value)),
        .log (eventOf actor changes)]

theorem Update.follows (readers : Readers ρ) (update : Update ρ) :
    (update.call readers).Follows .looks (Edits update.actor) [] []
      fun _ _ _ => True := by
  refine Request.follows_atomic_sees ?_
  simp only [updateConfig, Prog.sees_bind, Prog.sees_require, Prog.sees_read,
    Prog.sees_ofExcept, Prog.sees_ite, Prog.sees_exec, applyAll_nil, and_true, implies_true]
  intro _ look
  cases collected : collect readers look.settings
      (known update.payload.entries) with
  | error error => trivial
  | ok changes =>
      obtain ⟨sound, _⟩ := collect_sound (known_nodup update.payload) collected
      refine ⟨fun some now => .inr ?_, fun _ _ => .inl rfl⟩
      exact ⟨look, by simp, changes, some, sound, rfl⟩

/-! ## The trail of updates -/

/-- The text that was told last of a field. -/
def latest (field : Field) (trail : List ConfigEvent) : Option String :=
  (trail.filterMap fun event => event.after.lookup field).getLast?

/-- The trail tells the settings; a field that it does not tell is as before. -/
def Replays (base : Settings) (panel : Panel) : Prop :=
  ∀ field, match latest field panel.trail with
    | some text => Tells field text (panel.settings.value field)
    | none => panel.settings.value field = base.value field

/-- A field that changes is found with its change. -/
theorem lookup_of_change
    {α : Type} (value : Change → α) {changes : List Change} {change : Change}
    (distinct : (changes.map Change.field).Nodup) (member : change ∈ changes) :
    (changes.map fun other => (other.field, value other)).lookup
      change.field = some (value change) := by
  induction changes with
  | nil => simp at member
  | cons first rest inductionHypothesis =>
      rw [List.map_cons, List.nodup_cons] at distinct
      rcases List.mem_cons.mp member with rfl | later
      · simp
      · have different : change.field ≠ first.field := fun same =>
          distinct.1 (same ▸ List.mem_map_of_mem later)
        have other : (change.field == first.field) = false := by
          simpa using different
        rw [List.map_cons, List.lookup_cons, other]
        exact inductionHypothesis distinct.2 later

/-- A field that does not change is not found. -/
theorem lookup_of_none
    {α : Type} (value : Change → α) {changes : List Change} {field : Field}
    (none : ∀ change ∈ changes, change.field ≠ field) :
    (changes.map fun other => (other.field, value other)).lookup field =
      .none := by
  rw [List.lookup_eq_none_iff]
  intro pair member
  obtain ⟨change, changed, rfl⟩ := List.mem_map.mp member
  simpa using Ne.symm (none change changed)

/-- The settings are within their bounds and the trail tells them. -/
structure Recorded (base : Settings) (panel : Panel) : Prop where
  bounded : panel.settings.InBounds
  replays : Replays base panel

/-- Sound changes are within the bounds and recorded as they are told. -/
theorem Recorded.edits
    {base : Settings} {actor : UserId} {seen : List Panel}
    {stmts : List PanelStmt} (edits : Edits actor seen stmts) {panel : Panel}
    (recorded : Recorded base panel) :
    Recorded base (applyAll stmts panel) := by
  rcases edits with rfl | ⟨look, _, changes, _, sound, rfl⟩
  · exact recorded
  · have later : ∀ field, latest field (panel.trail ++
        [eventOf actor changes]) =
        ((eventOf actor changes).after.lookup field).or
          (latest field panel.trail) := by
      intro field
      cases found : (eventOf actor changes).after.lookup field <;>
        simp [latest, List.filterMap_append, found]
    constructor <;> intro field <;>
      simp only [applyAll_cons, applyAll_nil, panelStore_apply,
        PanelStmt.apply, Settings.save, later]
    all_goals by_cases changed : ∃ change ∈ changes, change.field = field
    · obtain ⟨change, member, rfl⟩ := changed
      rw [lookup_of_change _ sound.distinct member]
      exact sound.inBounds change member
    · rw [lookup_of_none _ (by simpa using changed)]
      exact recorded.bounded field
    · obtain ⟨change, member, rfl⟩ := changed
      simp only [eventOf]
      rw [lookup_of_change _ sound.distinct member,
        lookup_of_change _ sound.distinct member]
      exact sound.told change member
    · simp only [eventOf]
      rw [lookup_of_none _ (by simpa using changed),
        lookup_of_none _ (by simpa using changed)]
      exact recorded.replays field

/-- The row that the services read, from settings within their bounds. -/
def Settings.config (settings : Settings) (inBounds : settings.InBounds) :
    PlatformConfig where
  openCommissionRate :=
    { tenThousandths := (settings.value .openCommissionRate).toNat
      bounded := Int.toNat_le.mpr (inBounds .openCommissionRate).2 }
  managedCommissionRate :=
    { tenThousandths := (settings.value .managedCommissionRate).toNat
      bounded := Int.toNat_le.mpr (inBounds .managedCommissionRate).2 }
  minOfferMinor := settings.value .minOfferMinor
  payoutMinMinor := settings.value .payoutMinMinor
  payoutMinPositive := (inBounds .payoutMinMinor).1
  disputeWindowDays := (settings.value .disputeWindowDays).toNat

/-- The settings of the row that the services read. -/
def Settings.ofConfig (config : PlatformConfig) : Settings where
  value
    | .openCommissionRate => config.openCommissionRate.tenThousandths
    | .managedCommissionRate => config.managedCommissionRate.tenThousandths
    | .minOfferMinor => config.minOfferMinor
    | .payoutMinMinor => config.payoutMinMinor
    | .disputeWindowDays => config.disputeWindowDays

/-- No value is lost. -/
theorem ofConfig_config (settings : Settings) (inBounds : settings.InBounds) :
    Settings.ofConfig (settings.config inBounds) = settings := by
  have values : ∀ field,
      (Settings.ofConfig (settings.config inBounds)).value field =
        settings.value field := by
    intro field
    have low := (inBounds field).1
    cases field with
    | minOfferMinor => rfl
    | payoutMinMinor => rfl
    | openCommissionRate => exact Int.toNat_of_nonneg low
    | managedCommissionRate => exact Int.toNat_of_nonneg low
    | disputeWindowDays =>
        exact Int.toNat_of_nonneg ((by decide : (0 : Int) ≤ 1).trans low)
  calc Settings.ofConfig (settings.config inBounds)
      _ = ⟨(Settings.ofConfig (settings.config inBounds)).value⟩ := rfl
      _ = ⟨settings.value⟩ := congrArg Settings.mk (funext values)
      _ = settings := rfl

/-- Updates of the configuration, one client each. -/
abbrev Editing := System Panel Unit PanelStmt (Except ConfigError Settings)

/--
In every run of overlapping updates the settings stay within their bounds, so
that they are a row as the services read it, and the trail tells them: the text
told last of a field is that of its value.  Whatever an update commits are the
changes that its own event tells, from settings that it has seen; since the row
is not locked, these need not be the settings that it overwrites.
-/
theorem updates_recorded
    {ρ : Type} (readers : Readers ρ) (base : Settings) (start : Panel)
    (bounded : start.settings.InBounds) (told : Replays base start)
    (updates : Nat → Update ρ) {looks : Nat → List Panel} {system : Editing}
    (noted : System.Noted .looks (fun _ _ _ _ => True) [] start
      (fun client => (updates client).call readers) looks system) :
    (∃ config : PlatformConfig,
        Settings.ofConfig config = system.committed.settings) ∧
      system.committed.settings.InBounds ∧
      Replays base system.committed ∧
      ∀ client stmts, system.committing (.run client) = some stmts →
        Edits (updates client).actor (looks client) stmts := by
  obtain ⟨following, recorded⟩ := noted.keeps_base (Recorded base)
    (fun client => (updates client).follows readers) ⟨bounded, told⟩
    fun _ _ _ _ edits recorded => recorded.edits edits
  exact ⟨⟨_, ofConfig_config _ recorded.bounded⟩, recorded.bounded,
    recorded.replays, fun client stmts commits => following.promised commits⟩

/-- Whole numbers as they are sent. -/
def wholeReaders : Readers Int where
  decimal value := some (.finite value)
  integer value := some (.int value)

/-- The row as it is created. -/
def defaults : Panel :=
  { settings := .ofConfig {} }

/-- Two administrators set the dispute window. -/
def twoWindows : Nat → Update Int
  | 0 => { actor := 100
           payload := ⟨[("dispute_window_days", 14)], by simp⟩ }
  | _ => { actor := 101
           payload := ⟨[("dispute_window_days", 10)], by simp⟩ }

/-- Both tell that the window was seven days. -/
theorem updates_recorded_twoWindows :
    let started : Editing := System.init defaults fun client =>
      (twoWindows client).call wholeReaders
    let looked := (started.runAll (List.replicate 1 (.run 0))).runAll
      (List.replicate 1 (.run 1))
    let reached := (looked.runAll (List.replicate 5 (.run 0))).runAll
      (List.replicate 5 (.run 1))
    Replays defaults.settings reached.committed ∧
      reached.committed.settings.value .disputeWindowDays = 10 ∧
      reached.committed.trail =
        [{ actor := 100, before := [(.disputeWindowDays, "7")]
           after := [(.disputeWindowDays, "14")] },
         { actor := 101, before := [(.disputeWindowDays, "7")]
           after := [(.disputeWindowDays, "10")] }] := by
  intro started looked reached
  have inBounds : defaults.settings.InBounds := by
    intro field
    cases field <;> decide +kernel
  obtain ⟨looks, noted⟩ : ∃ looks, System.Noted .looks (fun _ _ _ _ => True) []
      defaults (fun client => (twoWindows client).call wholeReaders) looks
      reached :=
    have always : ∀ (_ : Nat → List Panel) (_ : List PanelStmt) (_ : Panel),
        True := fun _ _ _ => trivial
    ⟨_, (((System.Noted.start.runs always 1).runs always 1).runs always 5).runs
      always 5⟩
  have untold : Replays defaults.settings defaults := by
    simp [Replays, latest, defaults]
  have ends : reached.committed.settings.value .disputeWindowDays = 10 := by
    decide +kernel
  have told : reached.committed.trail =
      [{ actor := 100, before := [(.disputeWindowDays, "7")]
         after := [(.disputeWindowDays, "14")] },
       { actor := 101, before := [(.disputeWindowDays, "7")]
         after := [(.disputeWindowDays, "10")] }] := by
    decide +kernel
  clear_value reached
  obtain ⟨_, _, replays, _⟩ := updates_recorded wholeReaders defaults.settings
    defaults inBounds untold twoWindows noted
  exact ⟨replays, ends, told⟩

end Configuration

end KnowledgeMarketplace
