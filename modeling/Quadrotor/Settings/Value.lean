import Quadrotor.Axes
import Quadrotor.Scalar.Exact

/-!
# Settings

Structured settings as a text file or a request holds them, and the readers that turn them into typed
configuration. A reader answers nothing where the settings do not have the shape it asks for: a
number may be written without a fraction, a whole number may not be written with one, a record may be
a table or the array of its fields in order, and entries of a table that nobody asks for are ignored.
In what else may be there without being asked for, files and requests differ, and a reader is told.
-/

namespace Quadrotor.Settings

/-- A setting. -/
inductive Value where
  | table (entries : List (String × Value))
  | array (items : List Value)
  | text (s : String)
  | integer (n : Int)
  | real (x : Float)
  | flag (b : Bool)
  /-- A date, a time of day, or both, as it is written. -/
  | moment (s : String)
  deriving Repr, Inhabited

/-- What settings may hold beyond the shape that is asked for. -/
structure Tolerance where
  /-- An array may go on after the items that are asked for. -/
  moreItems : Bool
  /-- The fields of an alternative may have others beside them. -/
  moreFields : Bool
  deriving DecidableEq, Repr, Inhabited

/-- What a file may hold. -/
def Tolerance.file : Tolerance := ⟨true, false⟩

/-- What a request may hold. -/
def Tolerance.request : Tolerance := ⟨false, true⟩

/-- A reading of settings, which may fail. -/
abbrev Reading := ReaderT Tolerance Option

/-- Reads a setting as a value of some type, if it has the shape of one. -/
abbrev Reader (α : Type) := Value → Reading α

/-- The entry of a name. -/
def lookup? (entries : List (String × Value)) (name : String) : Option Value :=
  (entries.find? fun e => e.1 == name).map Prod.snd

/-- A number, as the scalar nearest to it. -/
def number : Reader Scalar
  | .real x => return x.toFloat32
  | .integer n => return Scalar.nearest (decide (n < 0)) n.natAbs 1 0
  | _ => failure

/-- A whole number. -/
def whole : Reader Int
  | .integer n => return n
  | _ => failure

/-- A whole number below `bound`. -/
def natBelow (bound : Nat) : Reader Nat := fun v => do
  let n ← whole v
  if 0 ≤ n ∧ n < (bound : Int) then return n.toNat else failure

/-- An unsigned byte. -/
def byte : Reader UInt8 := fun v => Nat.toUInt8 <$> natBelow UInt8.size v

/-- An unsigned word of 32 bits. -/
def word32 : Reader UInt32 := fun v => Nat.toUInt32 <$> natBelow UInt32.size v

/-- An unsigned word of 64 bits. -/
def word64 : Reader UInt64 := fun v => Nat.toUInt64 <$> natBelow UInt64.size v

/-- A text. -/
def text : Reader String
  | .text s => return s
  | _ => failure

/-- One of some values, by its name. -/
def named {α : Type} (name : α → String) (all : List α) : Reader α := fun v => do
  let s ← text v
  liftM (all.find? fun a => name a == s)

/-- A truth value. -/
def truth : Reader Bool
  | .flag b => return b
  | _ => failure

/-- The first items of an array of which so many are asked for. -/
def firstItems (count : Nat) : Reader (List Value)
  | .array items => do
    if items.length = count || (count < items.length && (← read).moreItems) then
      return items.take count
    else failure
  | _ => failure

/-- A pair of values. -/
def pair {α : Type} (r : Reader α) : Reader (α × α) := fun v => do
  match ← firstItems 2 v with
  | [a, b] => return (← r a, ← r b)
  | _ => failure

/-- Three values in the order of the axes. -/
def triple {α : Type} (r : Reader α) : Reader (Triple α) := fun v => do
  match ← firstItems 3 v with
  | [a, b, c] => return ⟨← r a, ← r b, ← r c⟩
  | _ => failure

/-- Any number of values. -/
def list {α : Type} (r : Reader α) : Reader (List α)
  | .array items => items.mapM r
  | _ => failure

/-! ## Records -/

/-- Where the fields of a record come from: a table has them under their names, an array in their
order. -/
inductive Fields where
  | named (entries : List (String × Value))
  | ordered (items : List Value)
  deriving Repr, Inhabited

/-- A step of reading a record, which takes the fields that are still to come. -/
abbrev Record := StateT Fields Reading

/-- The setting of the next field, if there is one. -/
def field (name : String) : Record (Option Value)
  | .named es => return (lookup? es name, .named es)
  | .ordered [] => return (none, .ordered [])
  | .ordered (v :: items) => return (some v, .ordered items)

/-- A field that has to be there. -/
def required {α : Type} (name : String) (r : Reader α) : Record α := do
  match ← field name with
  | some v => StateT.lift (r v)
  | none => failure

/-- A field that stands for a default where it is not there. -/
def withDefault {α : Type} (name : String) (default : α) (r : Reader α) : Record α := do
  match ← field name with
  | some v => StateT.lift (r v)
  | none => return default

/-- A field that may be missing in a table. -/
def optional {α : Type} (name : String) (r : Reader α) : Record (Option α)
  | .named es => (withDefault name none fun v => some <$> r v) (.named es)
  | .ordered items => (required name fun v => some <$> r v) (.ordered items)

/-- Every field has been taken; a table may hold more than that. -/
def Fields.isDone : Fields → Bool
  | .named _ => true
  | .ordered items => items.isEmpty

/-- The record that its fields make. -/
def Fields.read {α : Type} (fields : Fields) (r : Record α) : Reading α := do
  let (a, rest) ← r fields
  if rest.isDone || (← MonadReader.read).moreItems then return a else failure

/-- A record as a table or an array. A moment has none of the fields of a record. -/
def record {α : Type} (r : Record α) : Reader α
  | .table es => (Fields.named es).read r
  | .array items => (Fields.ordered items).read r
  | .moment _ => (Fields.named []).read r
  | _ => failure

/-! ## Alternatives -/

/-- The name of an alternative and its content: a bare name, or a table of one entry. -/
def alternative : Reader (String × Option Value)
  | .text s => return (s, none)
  | .table [(name, v)] => return (name, some v)
  | _ => failure

/-- An alternative without content may have an empty table or array for it. -/
def isBare : Option Value → Bool
  | none => true
  | some (.table []) => true
  | some (.array []) => true
  | _ => false

/-- The fields of an alternative, as a record of the given names. -/
def content {α : Type} (names : List String) (r : Record α) : Reader α := fun v => do
  let others := match v with
    | .table es => es.any fun e => !names.contains e.1
    | _ => false
  if others && !(← read).moreFields then failure else record r v

end Quadrotor.Settings
