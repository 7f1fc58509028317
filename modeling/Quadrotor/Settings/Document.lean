import Quadrotor.Settings.Value

/-!
# Settings documents

A document states one entry at a time: a header opens a table, and entries with a path go below the
table that is open. This module keeps the tree that the entries make and the rule that nothing is
stated twice. A table made on the way to another one may still be opened once by a header; one made
by the path of an entry may only be added to by further such entries.
-/

namespace Quadrotor.Settings

/-- How a table of a document has come about. -/
inductive Origin where
  /-- Opened by a header. -/
  | header
  /-- On the way to a table opened by a header. -/
  | headerPath
  /-- By the path of an entry. -/
  | entryPath
  deriving DecidableEq, Repr, Inhabited

/-- A node of the tree of a document. -/
inductive Node where
  | value (v : Value)
  | table (origin : Origin) (entries : List (String × Node))
  /-- The tables of a list, the latest first. -/
  | tables (latest : List (String × Node)) (earlier : List (List (String × Node)))
  deriving Repr, Inhabited

namespace Node

/-- The entries of a table. -/
abbrev Entries := List (String × Node)

/-- The entry of a name. -/
def lookup? (entries : Entries) (name : String) : Option Node :=
  (entries.find? fun e => e.1 == name).map Prod.snd

/-- The entries with another node under a name, at its place or at the end. -/
def put (entries : Entries) (name : String) (node : Node) : Entries :=
  if entries.any fun e => e.1 == name then
    entries.map fun e => if e.1 == name then (name, node) else e
  else entries ++ [(name, node)]

/-- Changes the table at the end of the path of a header. Missing tables are made on the way, and a
list of tables stands for its latest one. -/
def atHeader : List String → (Entries → Option Entries) → Entries → Option Entries
  | [], f, es => f es
  | name :: path, f, es => do
    match lookup? es name with
    | none => return put es name (.table .headerPath (← atHeader path f []))
    | some (.table origin inner) => return put es name (.table origin (← atHeader path f inner))
    | some (.tables latest earlier) => return put es name (.tables (← atHeader path f latest) earlier)
    | some (.value _) => none

/-- Opens the table of a name. -/
def openTable (name : String) (es : Entries) : Option Entries :=
  match lookup? es name with
  | none => some (put es name (.table .header []))
  | some (.table .headerPath inner) => some (put es name (.table .header inner))
  | some _ => none

/-- Opens a further table of a list. -/
def openListed (name : String) (es : Entries) : Option Entries :=
  match lookup? es name with
  | none => some (put es name (.tables [] []))
  | some (.tables latest earlier) => some (put es name (.tables [] (latest :: earlier)))
  | some _ => none

/-- Adds an entry below a table. Tables opened by a header are out of reach of its path, and the last
one on the path has to have been made by such a path. -/
def addEntry : List String → String → Value → Entries → Option Entries
  | [], name, v, es =>
    match lookup? es name with
    | none => some (put es name (.value v))
    | some _ => none
  | step :: path, name, v, es => do
    match lookup? es step with
    | none => return put es step (.table .entryPath (← addEntry path name v []))
    | some (.table .header _) => none
    | some (.table .headerPath inner) =>
      if path.isEmpty then none
      else return put es step (.table .headerPath (← addEntry path name v inner))
    | some (.table .entryPath inner) =>
      return put es step (.table .entryPath (← addEntry path name v inner))
    | some (.tables latest earlier) =>
      if path.isEmpty then none
      else return put es step (.tables (← addEntry path name v latest) earlier)
    | some (.value _) => none

mutual

/-- The node as a setting. -/
def toValue : Node → Value
  | .value v => v
  | .table _ es => .table (toEntries es)
  | .tables latest earlier => .array (toTables earlier [.table (toEntries latest)])

/-- The entries as settings. -/
def toEntries : List (String × Node) → List (String × Value)
  | [] => []
  | (name, node) :: es => (name, toValue node) :: toEntries es

/-- Earlier tables of a list, ahead of the settings of the later ones. -/
def toTables : List (List (String × Node)) → List Value → List Value
  | [], later => later
  | es :: earlier, later => toTables earlier (.table (toEntries es) :: later)

end

end Node

/-- A document being read: its tree, and the path of the table that is open. -/
structure Document where
  entries : Node.Entries := []
  opened : List String := []
  deriving Repr, Inhabited

namespace Document

/-- A path as the way to its last name, and that name. -/
def splitLast? (path : List String) : Option (List String × String) :=
  path.getLast?.map fun name => (path.dropLast, name)

/-- A header of a table. -/
def openTable (d : Document) (path : List String) : Option Document := do
  let (way, name) ← splitLast? path
  return ⟨← Node.atHeader way (Node.openTable name) d.entries, path⟩

/-- A header of a further table of a list. -/
def openListed (d : Document) (path : List String) : Option Document := do
  let (way, name) ← splitLast? path
  return ⟨← Node.atHeader way (Node.openListed name) d.entries, path⟩

/-- An entry of the open table. -/
def add (d : Document) (path : List String) (v : Value) : Option Document := do
  let (way, name) ← splitLast? path
  return { d with entries := ← Node.atHeader d.opened (Node.addEntry way name v) d.entries }

/-- The whole document as a setting. -/
def toValue (d : Document) : Value := .table (Node.toEntries d.entries)

end Document

end Quadrotor.Settings
