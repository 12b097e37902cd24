import PropertyFilter.Calendar
import PropertyFilter.Lexeme.Scan
import PropertyFilter.Text.Reader
import PropertyFilter.Toml

/-!
Reading TOML documents, after version 1.0 of the format. How deep arrays and tables between braces
are nested is limited, and so is the number of parts of a key.
-/

set_option autoImplicit false

namespace PropertyFilter.Toml

open Text Text.Reader

/-- How deep arrays and tables between braces may be nested. -/
def maxNesting : Nat := 79

/-- How many parts a key may have. -/
def maxKeyParts : Nat := 79

/-! ### Between values -/

def isSpace (c : Char) : Bool := c == ' ' || c == '\t'

/-- Characters of comments and of literal strings: all but control characters, and tabs. -/
def isPlain (c : Char) : Bool := c == '\t' || (0x20 ≤ c.toNat && c.toNat != 0x7f)

def spaces : Reader Unit := do
  let _ ← Reader.takeWhile isSpace

def newline : Reader Unit := orElse (exactly ['\n']) (exactly ['\r', '\n'])

def comment : Reader Unit := do
  let _ ← char '#'
  let _ ← Reader.takeWhile isPlain

/-- The rest of a line after what it says. -/
def lineEnd : Reader Unit := do
  spaces
  let _ ← optional comment
  if ← atEnd then return
  newline

/-- What may stand around the items of an array. -/
def gap : Reader Unit := do
  let _ ← many (firstOf [discard (charWhere isSpace), newline, comment])

/-! ### Strings -/

/-- The character that a number of hexadecimal digits name. -/
def codeChar (width : Nat) : Reader Char := fun cs ↦
  let ds := cs.take width
  if ds.length = width then
    ((ds.mapM hexValue?).bind fun values ↦
      Lexeme.charOfCode? (values.foldl (fun total digit ↦ 16 * total + digit) 0)).map fun c ↦
        (c, width)
  else none

def escape : Reader Char := do
  let _ ← char '\\'
  let c ← charWhere fun _ ↦ true
  match c with
  | 'b' => return '\x08'
  | 't' => return '\t'
  | 'n' => return '\n'
  | 'f' => return '\x0c'
  | 'r' => return '\r'
  | '"' => return '"'
  | '\\' => return '\\'
  | 'u' => codeChar 4
  | 'U' => codeChar 8
  | _ => refuse

/-- Characters that stand for themselves between double quotes. -/
def basicChar : Reader Char := charWhere fun c ↦ isPlain c && c != '"' && c != '\\'

/-- Characters that stand for themselves between single quotes. -/
def literalChar : Reader Char := charWhere fun c ↦ isPlain c && c != '\x27'

def basicString : Reader String := do
  let _ ← char '"'
  let cs ← many (orElse basicChar escape)
  let _ ← char '"'
  return String.ofList cs

def literalString : Reader String := do
  let _ ← char '\x27'
  let cs ← many literalChar
  let _ ← char '\x27'
  return String.ofList cs

/-- A quote inside a string of several lines, where no three of them follow. -/
def innerQuote (quote : Char) : Reader Char := do
  let cs ← ahead
  if [quote, quote, quote].isPrefixOf cs then refuse else char quote

/-- The end of a string of several lines: three quotes after at most two that belong to it. -/
def closingQuotes (quote : Char) : Reader (List Char) := do
  let quotes ← Reader.takeWhile (· == quote)
  if 3 ≤ quotes.length && quotes.length ≤ 5 then return quotes.drop 3 else refuse

/-- A backslash before the end of a line, with all blanks and line ends that follow. -/
def foldedBreak : Reader Unit := do
  let _ ← char '\\'
  spaces
  newline
  let _ ← many (orElse (discard (charWhere isSpace)) newline)

/-- A string of several lines between three quotes, a line end right after them left out. -/
def lines (quote : Char) (part : Reader (List Char)) : Reader String := do
  exactly [quote, quote, quote]
  let _ ← optional newline
  let parts ← many part
  let quotes ← closingQuotes quote
  return String.ofList (parts.flatten ++ quotes)

def basicLines : Reader String :=
  lines '"' (firstOf [List.singleton <$> basicChar, (fun _ ↦ ['\n']) <$> newline,
    (fun _ ↦ []) <$> foldedBreak, List.singleton <$> escape, List.singleton <$> innerQuote '"'])

def literalLines : Reader String :=
  lines '\x27' (firstOf [List.singleton <$> literalChar, (fun _ ↦ ['\n']) <$> newline,
    List.singleton <$> innerQuote '\x27'])

def anyString : Reader String := firstOf [basicLines, basicString, literalLines, literalString]

/-! ### Keys -/

def isBareKeyChar (c : Char) : Bool := c.isAlphanum || c == '_' || c == '-'

def bareKey : Reader String := do
  let first ← charWhere isBareKeyChar
  let rest ← Reader.takeWhile isBareKeyChar
  return String.ofList (first :: rest)

/-- A key with points between its parts: the parts before the last one, and that. -/
def key : Reader (List String × String) := do
  let parts ← separated (do
    spaces
    let part ← firstOf [basicString, literalString, bareKey]
    spaces
    return part) (char '.')
  match parts.getLast? with
  | some last => if parts.length ≤ maxKeyParts then return (parts.dropLast, last) else refuse
  | none => refuse

/-! ### Numbers and points in time -/

/-- Digits, of which any two may have an underscore between them. -/
def digitRun (isDigit : Char → Bool) : Reader (List Char) := do
  let first ← charWhere isDigit
  let rest ← many (orElse (charWhere isDigit) (do
    let _ ← char '_'
    charWhere isDigit))
  return first :: rest

/-- Decimal digits without needless zeros. -/
def wholeDigits : Reader (List Char) := do
  let cs ← ahead
  if cs.head? = some '0' then exactly ['0'] *> pure ['0'] else digitRun Char.isDigit

/-- Whether a sign says that a number is negative. -/
def sign : Reader Bool := do
  let c ← optional (charWhere fun c ↦ c == '+' || c == '-')
  return c == some '-'

def exponent : Reader Int := do
  let _ ← charWhere fun c ↦ c == 'e' || c == 'E'
  let negative ← sign
  let ds ← digitRun Char.isDigit
  return if negative then -(Numeral.value ds : Int) else Numeral.value ds

/-- A number with a fraction or an exponent; above the greatest one there is none. -/
def finiteFloat : Reader Toml := do
  let negative ← sign
  let whole ← wholeDigits
  let fraction ← optional (char '.' *> digitRun Char.isDigit)
  let power ← optional exponent
  if fraction.isNone && power.isNone then refuse
  else
    let places := fraction.getD []
    let x := Binary64.ofDecimal negative (Numeral.value (whole ++ places))
      (power.getD 0 - places.length)
    if x.isFinite || negative then return .float else refuse

/-- Infinity, or what is no number. -/
def specialFloat : Reader Toml := do
  let _ ← sign
  orElse (exactly "inf".toList) (exactly "nan".toList)
  return .float

/-- An integer of 64 bits. -/
def integerOf (i : Int) : Reader Toml :=
  if -9223372036854775808 ≤ i ∧ i ≤ 9223372036854775807 then return .integer i else refuse

def decimalInteger : Reader Toml := do
  let negative ← sign
  let ds ← wholeDigits
  integerOf (if negative then -(Numeral.value ds : Int) else Numeral.value ds)

/-- An integer to another base, after the letters that name the base. -/
def integerToBase (letter : Char) (base : Nat) : Reader Toml := do
  exactly ['0', letter]
  let ds ← digitRun fun c ↦ (hexValue? c).any (· < base)
  integerOf ((ds.filterMap hexValue?).foldl (fun total digit ↦ base * total + digit) 0 : Nat)

/-- A number of two digits below a bound. -/
def twoDigits (bound : Nat) : Reader Nat := do
  let first ← charWhere Char.isDigit
  let second ← charWhere Char.isDigit
  let n := Numeral.value [first, second]
  if n < bound then return n else refuse

def date : Reader Unit := do
  let century ← twoDigits 100
  let year ← twoDigits 100
  let _ ← char '-'
  let month ← twoDigits 13
  let _ ← char '-'
  let day ← twoDigits 32
  if Date.isValid ⟨100 * century + year, month, day⟩ then return else refuse

def time : Reader Unit := do
  let _ ← twoDigits 24
  let _ ← char ':'
  let _ ← twoDigits 60
  let _ ← char ':'
  let _ ← twoDigits 61
  let _ ← optional (do
    let _ ← char '.'
    let _ ← charWhere Char.isDigit
    Reader.takeWhile Char.isDigit)

def offset : Reader Unit :=
  orElse (discard (charWhere fun c ↦ c == 'Z' || c == 'z')) (do
    let _ ← charWhere fun c ↦ c == '+' || c == '-'
    let _ ← twoDigits 24
    let _ ← char ':'
    let _ ← twoDigits 60)

/-- A date, a time, or both, then also with an offset. -/
def pointInTime : Reader Toml := do
  orElse (do
    date
    let _ ← optional (do
      let _ ← charWhere fun c ↦ c == 'T' || c == 't' || c == ' '
      time
      optional offset)) time
  return .moment

/-! ### Values and documents -/

/-- Items between brackets, where a comma may also follow the last one. -/
def arrayOf (inner : Reader Toml) : Reader Toml := do
  let _ ← char '['
  let items ← optional (separated (do
    gap
    let item ← inner
    gap
    return item) (char ','))
  if items.isSome then
    let _ ← optional (char ',')
  gap
  let _ ← char ']'
  return array (items.getD [])

/-- Assignments between braces, on one line. -/
def tableOf (inner : Reader Toml) : Reader Toml := do
  let _ ← char '\x7b'
  let assignments ← optional (separated (do
    let (path, last) ← key
    let _ ← char '='
    spaces
    let v ← inner
    spaces
    return (path, last, v)) (char ','))
  spaces
  let _ ← char '\x7d'
  match ofAssignments? (assignments.getD []) with
  | some v => return v
  | none => refuse

/-- A value that holds no other ones. -/
def scalar : Reader Toml :=
  firstOf [string <$> anyString, exactly "true".toList *> pure (bool true),
    exactly "false".toList *> pure (bool false), pointInTime, finiteFloat, specialFloat,
    integerToBase 'x' 16, integerToBase 'o' 8, integerToBase 'b' 2, decimalInteger]

/-- A value, given the reader for the values inside it; there is none where nothing may be nested
any further. -/
def valueAround (inner? : Option (Reader Toml)) : Reader Toml :=
  match inner? with
  | some inner => firstOf [scalar, arrayOf inner, tableOf inner]
  | none => scalar

/-- A value with arrays and tables nested so deep at most. -/
def valueNested : (budget : Nat) → Reader Toml
  | 0 => valueAround none
  | budget + 1 => valueAround (some (valueNested budget))

/-- A line with what it says, if it says anything. -/
def line : Reader (Option Statement) := do
  spaces
  firstOf [
    (do
      comment
      lineEnd
      return none),
    (do
      newline
      return none),
    (do
      exactly ['[', '[']
      let (path, last) ← key
      exactly [']', ']']
      lineEnd
      return some (.further path last)),
    (do
      let _ ← char '['
      let (path, last) ← key
      let _ ← char ']'
      lineEnd
      return some (.table path last)),
    (do
      let (path, last) ← key
      let _ ← char '='
      spaces
      let v ← valueNested maxNesting
      lineEnd
      return some (.assignment path last v))]

/-- A document, which may have a byte order mark before it. -/
def document : Reader (List Statement) := do
  let _ ← optional (char '\ufeff')
  let statements ← many line
  spaces
  return statements.filterMap id

/-- The entries of a document. -/
def read? (text : String) : Option (Entries Toml) :=
  (document.whole text.toList).bind ofStatements?

end PropertyFilter.Toml
