import Mathlib.Logic.Function.Basic
import Mathlib.Data.List.Basic

/-!
# Models — scalars and enumerations

The values the records of `models.py` are made of.

* `DateTime`: Python's naive and aware datetimes, compared as UTC instants.
* `Uuid`: a random identifier.  Two draws never collide: it is the process that drew it and the
  number of the draw.
* `Json`: what `json.loads` returns; integers and floats are apart.
* `Change`, `Expect`: one entry of the `fields`, or of the `expected` filter, of an update.
-/

namespace Orchestrator

/-! ### Scalars -/

/-- A datetime in microseconds of its own wall clock; `none` is a naive one. -/
structure DateTime where
  wall : Int
  offset : Option Int
  deriving DecidableEq, Repr

namespace DateTime

/-- The UTC instant: a naive value is read as UTC (`value.replace(tzinfo=timezone.utc)`). -/
def utc (d : DateTime) : Int := d.wall - d.offset.getD 0

/-- `utc_now()` at a clock reading. -/
def now (clock : Int) : DateTime := ⟨clock, some 0⟩

/-- `d + timedelta(seconds=n)`. -/
def addSeconds (d : DateTime) (n : Int) : DateTime := { d with wall := d.wall + n * 1000000 }

@[simp] theorem utc_now (clock : Int) : (now clock).utc = clock := by simp [now, utc]

@[simp] theorem utc_addSeconds (d : DateTime) (n : Int) :
    (d.addSeconds n).utc = d.utc + n * 1000000 := by
  simp only [addSeconds, utc]; omega

end DateTime

/-- `uuid4().hex`, drawn by `drawer` as its draw number `serial`. -/
structure Uuid where
  drawer : Nat
  serial : Nat
  deriving DecidableEq, Repr

/-- The text of an identifier. -/
def Uuid.hex (u : Uuid) : String := toString u.drawer ++ "x" ++ toString u.serial

abbrev BuildId := Uuid

abbrev CheckId := Uuid

/-- The `repr` of a finite `float`: unlike that of an integer, it has a point or an exponent. -/
structure FloatText where
  text : String
  floats : (text.toList.all fun c => c.isDigit || c == '-' || c == '+' || c == '.' || c == 'e') &&
    (text.toList.any fun c => c == '.' || c == 'e')
  deriving DecidableEq, Repr

/-- What Python also reads from JSON, and writes to it, unless told not to. -/
inductive NonFinite where
  | nan
  | infinity
  | minusInfinity
  deriving DecidableEq, Repr

inductive Json where
  | null
  | bool (b : Bool)
  | num (n : Int)
  | float (x : FloatText)
  | nonfinite (x : NonFinite)
  | str (s : String)
  | arr (items : List Json)
  | obj (fields : List (String × Json))

/-- `document.get(key)`, of an object. -/
def Json.get? : Json → String → Option Json
  | .obj fields, key => (fields.find? (·.1 == key)).map (·.2)
  | _, _ => none

/-- An entry of an update: the field is not mentioned, or set. -/
inductive Change (α : Type) where
  | keep
  | set (a : α)

namespace Change
variable {α : Type}

def apply : Change α → α → α
  | .keep, old => old
  | .set a, _ => a

@[simp] theorem apply_keep (old : α) : (keep : Change α).apply old = old := rfl

@[simp] theorem apply_set (a old : α) : (set a).apply old = a := rfl

/-- The field is not mentioned. -/
def Untouched : Change α → Prop
  | .keep => True
  | .set _ => False

instance (c : Change α) : Decidable c.Untouched :=
  match c with
  | .keep => isTrue trivial
  | .set _ => isFalse id

@[simp] theorem untouched_keep : (keep : Change α).Untouched := trivial

@[simp] theorem not_untouched_set (a : α) : ¬ (set a).Untouched := id

theorem Untouched.apply {c : Change α} (h : c.Untouched) (old : α) : c.apply old = old := by
  cases c with
  | keep => rfl
  | set a => exact h.elim

end Change

/-- An entry of an `expected` filter: the field is not mentioned, or compared. -/
inductive Expect (α : Type) where
  | any
  | eq (a : α)

namespace Expect
variable {α : Type} [DecidableEq α]

def holds : Expect α → α → Bool
  | .any, _ => true
  | .eq a, x => x == a

@[simp] theorem holds_any (x : α) : (any : Expect α).holds x = true := rfl

@[simp] theorem holds_eq (a x : α) : (eq a : Expect α).holds x = true ↔ x = a := by
  simp [holds]

end Expect

/-- A string an `if not value` of the source takes for missing. -/
def falsy : Option String → Bool
  | none => true
  | some s => s == ""

/-! ### Enumerations -/

inductive BuildStatus where
  | queued | validating | triggering | building | deploying | succeeded | failed | cancelled
  deriving DecidableEq, Repr

namespace BuildStatus

def value : BuildStatus → String
  | queued => "queued"
  | validating => "validating"
  | triggering => "triggering"
  | building => "building"
  | deploying => "deploying"
  | succeeded => "succeeded"
  | failed => "failed"
  | cancelled => "cancelled"

/-- `TERMINAL_BUILD_STATUSES`. -/
def terminal : BuildStatus → Bool
  | succeeded | failed | cancelled => true
  | _ => false

end BuildStatus

inductive CleanupStatus where
  | notStarted | queued | running | succeeded | partialFailed
  deriving DecidableEq, Repr

inductive ResourceState where
  | planned | present | removed | blocked | error
  deriving DecidableEq, Repr

inductive ResourceKind where
  | service | container | network | volume | workspace | runtimeDirectory | localImage
  | registryImage | port | builderCache
  deriving DecidableEq, Repr

/-- `dynamic_status` of a build. -/
inductive DynamicStatus where
  | pending | queued | running | succeeded | failed
  deriving DecidableEq, Repr

inductive TeardownStatus where
  | pending | running | succeeded | partialFailed
  deriving DecidableEq, Repr

/-- `static_status` of a route check. -/
inductive StaticStatus where
  | queued | running | succeeded | failed
  deriving DecidableEq, Repr

inductive RoleKey where
  | staticBuildAgent | dynamicDebugAgent
  deriving DecidableEq, Repr

end Orchestrator
