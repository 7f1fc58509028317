import Quadrotor.Hex

/-!
# Scanning

Steps that take characters off the front of a list, and what the lines of a settings text are made of
besides settings: blanks, comments and line breaks.
-/

namespace Quadrotor.Settings.Toml

/-- A step of scanning. -/
abbrev Scan := StateT (List Char) Option

/-! ## Characters -/

/-- A blank within a line. -/
def isBlank (c : Char) : Bool := c == ' ' || c == '\t'

/-- A control character that no text may hold. -/
def isControl (c : Char) : Bool := (decide (c.toNat < 0x20) && c != '\t') || c.toNat == 0x7f

/-- A character of a bare name. -/
def isBare (c : Char) : Bool := c.isAlphanum || c == '_' || c == '-'

/-- The character is a digit of the base. -/
def isDigitOf (base : Nat) (c : Char) : Bool :=
  match Hex.digitValue? c with
  | some v => decide (v < base)
  | none => false

/-! ## Steps -/

/-- The next character, without taking it. -/
def peek : Scan (Option Char) := fun cs => some (cs.head?, cs)

/-- Takes the next character, if it is the given one. -/
def eat (c : Char) : Scan Bool
  | d :: cs => if d = c then some (true, cs) else some (false, d :: cs)
  | [] => some (false, [])

/-- Takes the given character, which has to be next. -/
def expect (c : Char) : Scan Unit := do
  if ← eat c then return () else failure

/-- Takes the given characters, if they are next. -/
def eatAll (text : List Char) : Scan Bool := fun cs =>
  if text.isPrefixOf cs then some (true, cs.drop text.length) else some (false, cs)

/-- Takes the longest run of characters of a class. -/
def run (p : Char → Bool) : Scan (List Char) := fun cs => some (cs.takeWhile p, cs.dropWhile p)

/-- Takes the blanks ahead. -/
def blanks : Scan Unit := do let _ ← run isBlank

/-- Takes a line break, if one is next. -/
def lineBreak : Scan Bool := do
  if ← eat '\n' then return true else eatAll ['\r', '\n']

/-- Takes a comment, if one is next; it must not hold control characters. -/
def comment : Scan Unit := do
  if ← eat '#' then
    let text ← run fun c => c != '\n' && c != '\r'
    if text.any isControl then failure

/-- Takes the rest of a line, on which only a comment may stand. -/
def endOfLine : Scan Unit := do
  blanks
  comment
  if ← lineBreak then return ()
  else match ← peek with
    | none => return ()
    | some _ => failure

/-- Takes blanks, comments and line breaks, `fuel` of them at most. -/
def gap : Nat → Scan Unit
  | 0 => return ()
  | fuel + 1 => do
    blanks
    comment
    if ← lineBreak then gap fuel

/-- Takes blanks and line breaks, `fuel` of them at most. -/
def breaks : Nat → Scan Unit
  | 0 => return ()
  | fuel + 1 => do
    blanks
    if ← lineBreak then breaks fuel

/-- The longest run of steps that the characters ahead can take. -/
def remaining : Scan Nat := fun cs => some (cs.length + 1, cs)

end Quadrotor.Settings.Toml
