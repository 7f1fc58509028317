import Quadrotor.Settings.Document
import Quadrotor.Settings.Toml.Moment

/-!
# Settings text

Reading TOML text: comments, tables and lists of tables, entries with bare, quoted and dotted names,
strings of all four kinds, whole numbers in four bases, floating point numbers, truth values, moments,
arrays and inline tables. Values and names go to a depth of less than `depthLimit`.

The scanner works on a list of characters and takes them off the front.
-/

namespace Quadrotor.Settings.Toml

/-- The depth that values within values, and names within names, do not reach. -/
def depthLimit : Nat := 80

/-! ## Strings -/

/-- The character of a hexadecimal number, unless it stands for none. -/
def charOfHex (digits : List Char) : Option Char := do
  let code := (← digits.mapM Hex.digitValue?).foldl (fun n d => 16 * n + d) 0
  if code < 0xd800 ∨ (0xdfff < code ∧ code < 0x110000) then return Char.ofNat code else none

/-- The character of an escape, after its backslash. -/
def escape : Scan Char := fun cs =>
  match cs with
  | 'b' :: cs => some ('\x08', cs)
  | 't' :: cs => some ('\t', cs)
  | 'n' :: cs => some ('\n', cs)
  | 'f' :: cs => some ('\x0c', cs)
  | 'r' :: cs => some ('\r', cs)
  | '"' :: cs => some ('"', cs)
  | '\\' :: cs => some ('\\', cs)
  | 'u' :: cs =>
    if 4 ≤ cs.length then (charOfHex (cs.take 4)).map fun c => (c, cs.drop 4) else none
  | 'U' :: cs =>
    if 8 ≤ cs.length then (charOfHex (cs.take 8)).map fun c => (c, cs.drop 8) else none
  | _ => none

/-- The rest of a string on one line, up to its closing quote. -/
def basicRest : Nat → Scan (List Char)
  | 0 => failure
  | fuel + 1 => do
    let plain ← run fun c => c != '"' && c != '\\' && !isControl c
    if ← eat '"' then return plain
    else if ← eat '\\' then
      let c ← escape
      return plain ++ c :: (← basicRest fuel)
    else failure

/-- The rest of a string without escapes on one line, up to its closing apostrophe. -/
def literalRest : Scan (List Char) := do
  let plain ← run fun c => c != '\'' && !isControl c
  expect '\''
  return plain

/-- The end of a string of several lines: up to two quotes more than the closing three belong to
it. -/
def closing (quote : Char) : Scan (Option (List Char)) := do
  if ← eatAll [quote, quote, quote, quote, quote] then return some [quote, quote]
  else if ← eatAll [quote, quote, quote, quote] then return some [quote]
  else if ← eatAll [quote, quote, quote] then return some []
  else return none

/-- The rest of a string of several lines, up to its closing quotes. A backslash at the end of a line
takes all blanks and line breaks after it away. -/
def basicLines : Nat → Scan (List Char)
  | 0 => failure
  | fuel + 1 => do
    let plain ← run fun c => c != '"' && c != '\\' && (c == '\n' || !isControl c)
    match ← closing '"' with
    | some quotes => return plain ++ quotes
    | none =>
      if ← eat '"' then return plain ++ '"' :: (← basicLines fuel)
      else if ← eat '\\' then
        let ahead ← run isBlank
        if ← lineBreak then
          breaks (← remaining)
          return plain ++ (← basicLines fuel)
        else if ahead.isEmpty then
          let c ← escape
          return plain ++ c :: (← basicLines fuel)
        else failure
      else if ← lineBreak then return plain ++ '\n' :: (← basicLines fuel)
      else failure

/-- The rest of a string of several lines without escapes, up to its closing apostrophes. -/
def literalLines : Nat → Scan (List Char)
  | 0 => failure
  | fuel + 1 => do
    let plain ← run fun c => c != '\'' && (c == '\n' || !isControl c)
    match ← closing '\'' with
    | some quotes => return plain ++ quotes
    | none =>
      if ← eat '\'' then return plain ++ '\'' :: (← literalLines fuel)
      else if ← lineBreak then return plain ++ '\n' :: (← literalLines fuel)
      else failure

/-- A string on one line, if one is next. -/
def lineString? : Scan (Option String) := do
  if ← eat '"' then return some (String.ofList (← basicRest (← remaining)))
  else if ← eat '\'' then return some (String.ofList (← literalRest))
  else return none

/-- A string of any kind, if one is next. A line break right after the opening of a string of several
lines does not belong to it. -/
def string? : Scan (Option String) := do
  if ← eatAll ['"', '"', '"'] then
    let _ ← lineBreak
    return some (String.ofList (← basicLines (← remaining)))
  else if ← eatAll ['\'', '\'', '\''] then
    let _ ← lineBreak
    return some (String.ofList (← literalLines (← remaining)))
  else lineString?

/-! ## Numbers -/

/-- Digits of a base with single underscores between them, without the underscores. -/
def digits? (base : Nat) (text : List Char) : Option (List Char) :=
  let rec go (afterDigit : Bool) : List Char → Option (List Char)
    | [] => if afterDigit then some [] else none
    | c :: cs =>
      if c = '_' then if afterDigit then go false cs else none
      else if isDigitOf base c then (go true cs).map (c :: ·)
      else none
  go false text

/-- The number that digits of a base stand for. -/
def numeral (base : Nat) (digits : List Char) : Nat :=
  digits.foldl (fun n c => base * n + (Hex.digitValue? c).getD 0) 0

/-- Digits without a superfluous zero in front. -/
def isCanonical : List Char → Bool
  | '0' :: _ :: _ => false
  | _ => true

/-- A whole number, unless it leaves the range of signed 64-bit words. -/
def integer (negative : Bool) (n : Nat) : Option Value :=
  let v : Int := if negative then -n else n
  if Int64.minValue.toInt ≤ v ∧ v ≤ Int64.maxValue.toInt then some (.integer v) else none

/-- A whole number in base ten. -/
def decimal (negative : Bool) (text : List Char) : Option Value := do
  let ds ← digits? 10 text
  if isCanonical ds then integer negative (numeral 10 ds) else none

/-- The binary64 number nearest to `mantissa · 10 ^ exponent`, unless it is positive and too large for
one. A power that takes any such mantissa out of reach of all numbers counts as one that only just
does. -/
def real (negative : Bool) (mantissa : Nat) (exponent : Int) : Option Value :=
  let exponent := max (-(400 + (mantissa.log2 : Int))) (min 400 exponent)
  let x := Float.ofScientific mantissa (exponent < 0) exponent.natAbs
  if negative then some (.real (-x)) else if x.isInf then none else some (.real x)

/-- The exponent of a floating point number, with its sign. -/
def exponent (text : List Char) : Option Int := do
  match text with
  | '-' :: cs => return -(numeral 10 (← digits? 10 cs) : Int)
  | '+' :: cs => return numeral 10 (← digits? 10 cs)
  | cs => return numeral 10 (← digits? 10 cs)

/-- A floating point number: whole part, and at least one of fraction and exponent. -/
def fractional (negative : Bool) (text : List Char) : Option Value := do
  let isMark (c : Char) : Bool := c == 'e' || c == 'E'
  let mantissa := text.takeWhile fun c => !isMark c
  let power ← match text.dropWhile fun c => !isMark c with
    | [] => some 0
    | _ :: cs => exponent cs
  let whole ← digits? 10 (mantissa.takeWhile (· != '.'))
  let fraction ← match mantissa.dropWhile (· != '.') with
    | [] => some []
    | _ :: cs => digits? 10 cs
  if isCanonical whole then
    real negative (numeral 10 (whole ++ fraction)) (power - fraction.length)
  else none

/-- A number without its sign. -/
def unsigned (negative : Bool) (text : List Char) : Option Value :=
  match text with
  | ['i', 'n', 'f'] => some (.real (if negative then -(1.0 / 0.0) else 1.0 / 0.0))
  | ['n', 'a', 'n'] => some (.real (0.0 / 0.0))
  | _ => if text.any fun c => c == '.' || c == 'e' || c == 'E' then fractional negative text
    else decimal negative text

/-- A number or a truth value. -/
def scalar (text : List Char) : Option Value :=
  match text with
  | ['t', 'r', 'u', 'e'] => some (.flag true)
  | ['f', 'a', 'l', 's', 'e'] => some (.flag false)
  | '0' :: 'x' :: cs => do integer false (numeral 16 (← digits? 16 cs))
  | '0' :: 'o' :: cs => do integer false (numeral 8 (← digits? 8 cs))
  | '0' :: 'b' :: cs => do integer false (numeral 2 (← digits? 2 cs))
  | '-' :: cs => unsigned true cs
  | '+' :: cs => unsigned false cs
  | cs => unsigned false cs

/-! ## Names -/

/-- A name: bare, or a string on one line. -/
def name : Scan String := do
  match ← lineString? with
  | some s => return s
  | none =>
    let bare ← run isBare
    if bare.isEmpty then failure else return String.ofList bare

/-- Names with points between them, `fuel` of them at most. -/
def names : Nat → Scan (List String)
  | 0 => failure
  | fuel + 1 => do
    blanks
    let first ← name
    blanks
    if ← eat '.' then return first :: (← names fuel) else return [first]

/-- A path of names. -/
def path : Scan (List String) := do
  let path ← names (← remaining)
  if path.length < depthLimit then return path else failure

/-! ## Values -/

/-- The depth that is left within a value. -/
def below? : Nat → Option Nat
  | 0 => none
  | depth + 1 => some depth

mutual

/-- A value that other values are in at most so deep. -/
def value : Nat → Nat → Scan Value
  | 0, _ => failure
  | fuel + 1, depth => do
    if ← eat '[' then return .array (← items fuel (← StateT.lift (below? depth)))
    else if ← eat '\x7b' then
      let depth ← StateT.lift (below? depth)
      blanks
      if ← eat '\x7d' then return .table []
      else return .table (Node.toEntries (← inlineEntries fuel depth []))
    else if let some s ← string? then return .text s
    else if let some s ← moment? then return .moment s
    else
      let text ← run fun c => isBare c || c == '.' || c == '+'
      StateT.lift (scalar text)

/-- The rest of an array, on one line or several. -/
def items : Nat → Nat → Scan (List Value)
  | 0, _ => failure
  | fuel + 1, depth => do
    gap (← remaining)
    if ← eat ']' then return []
    else
      let v ← value fuel depth
      gap (← remaining)
      if ← eat ',' then return v :: (← items fuel depth)
      else
        expect ']'
        return [v]

/-- The rest of an inline table, on one line, below the entries read so far. -/
def inlineEntries : Nat → Nat → Node.Entries → Scan Node.Entries
  | 0, _, _ => failure
  | fuel + 1, depth, es => do
    let keys ← path
    expect '='
    blanks
    let v ← value fuel depth
    blanks
    let (way, last) ← StateT.lift (Document.splitLast? keys)
    let es ← StateT.lift (Node.addEntry way last v es)
    if ← eat ',' then inlineEntries fuel depth es
    else
      expect '\x7d'
      return es

end

/-! ## Documents -/

/-- One line of a document, or the lines of one value. -/
def statement (d : Document) : Scan Document := do
  blanks
  match ← peek with
  | none => return d
  | some '\n' | some '\r' | some '#' => endOfLine; return d
  | some '[' =>
    if ← eatAll ['[', '['] then
      let keys ← path
      expect ']'
      expect ']'
      endOfLine
      StateT.lift (d.openListed keys)
    else
      expect '['
      let keys ← path
      expect ']'
      endOfLine
      StateT.lift (d.openTable keys)
  | some _ =>
    let keys ← path
    expect '='
    blanks
    let v ← value (2 * (← remaining)) (depthLimit - 1)
    endOfLine
    StateT.lift (d.add keys v)

/-- The statements of a document, `fuel` of them at most. -/
def statements : Nat → Document → Scan Document
  | 0, _ => failure
  | fuel + 1, d => do
    match ← peek with
    | none => return d
    | some _ => statements fuel (← statement d)

/-- The characters of a text after the mark of its encoding, if it begins with one. -/
def unmarked (text : String) : List Char :=
  match text.toList with
  | '\ufeff' :: cs => cs
  | cs => cs

/-- The settings of a text, if it is well formed. -/
def parse (text : String) : Option Value := do
  let (d, _) ← (statements (text.length + 1) {}).run (unmarked text)
  return d.toValue

/-- Reads the settings of a text. -/
def read {α : Type} (r : Reader α) (text : String) : Option α := do
  r (← parse text) .file

end Quadrotor.Settings.Toml
