import PropertyFilter.Calendar
import PropertyFilter.Number.Numeral
import PropertyFilter.Text.Blank

/-!
Points in time with the offset of a local clock, as RFC 3339 writes them. A point in time counts
seconds from 1970 in universal time; a leap second is held as the second before it with a thousand
million nanoseconds or more, so that time stays ordered by seconds, then nanoseconds.
-/

set_option autoImplicit false

namespace PropertyFilter

structure DateTime where
  /-- Whole seconds since the start of 1970, in universal time. -/
  seconds : Int
  nanos : Nat
  /-- How far the local clock is ahead of universal time, in seconds. -/
  offset : Int
  nanos_lt : nanos < 2000000000
  offset_lt : offset.natAbs < 86400
  deriving DecidableEq

namespace DateTime

/-- The order of time; the offset does not count. -/
def compare (t u : DateTime) : Ordering :=
  (Ord.compare t.seconds u.seconds).then (Ord.compare t.nanos u.nanos)

/-- Whether two values are the same point in time. -/
def same (t u : DateTime) : Bool := t.compare u == .eq

/-- The same point in time on the clock of universal time. -/
def toUniversal (t : DateTime) : DateTime :=
  ⟨t.seconds, t.nanos, 0, t.nanos_lt, by decide⟩

/-! ### Text -/

/-- Years outside four digits show their sign. -/
def yearText (year : Int) : List Char :=
  if 0 ≤ year ∧ year ≤ 9999 then Numeral.padded 4 year.natAbs
  else (if year < 0 then '-' else '+') :: Numeral.padded 4 year.natAbs

/-- A fraction of a second in three, six or nine digits, the fewest that hold it; none for a whole
second. -/
def fractionText (nanos : Nat) : List Char :=
  if nanos = 0 then []
  else if nanos % 1000000 = 0 then '.' :: Numeral.padded 3 (nanos / 1000000)
  else if nanos % 1000 = 0 then '.' :: Numeral.padded 6 (nanos / 1000)
  else '.' :: Numeral.padded 9 nanos

/-- The offset in hours and minutes, rounded to the minute; zero is written `Z`. -/
def offsetText (offset : Int) : List Char :=
  if offset = 0 then ['Z']
  else
    let minutes := (offset.natAbs + 30) / 60
    (if offset < 0 then '-' else '+') :: Numeral.padded 2 (minutes / 60) ++
      ':' :: Numeral.padded 2 (minutes % 60)

def text (t : DateTime) : List Char :=
  let moment := t.seconds + t.offset
  let date := Date.ofDayNumber (moment / 86400)
  let clock := (moment % 86400).toNat
  let leap := if t.nanos < 1000000000 then 0 else 1
  yearText date.year ++ '-' :: Numeral.padded 2 date.month ++ '-' :: Numeral.padded 2 date.day ++
    'T' :: Numeral.padded 2 (clock / 3600) ++ ':' :: Numeral.padded 2 (clock / 60 % 60) ++
    ':' :: Numeral.padded 2 (clock % 60 + leap) ++ fractionText (t.nanos - leap * 1000000000) ++
    offsetText t.offset

/-! ### Reading -/

/-- What a text says, before it is checked against calendar and clock. -/
structure Fields where
  year : Int
  month : Nat
  day : Nat
  hour : Nat
  minute : Nat
  second : Nat
  nanos : Nat
  offset : Int

/-- The years of points in time that can be held, by the local clock as well as in universal
time. -/
def yearInRange (year : Int) : Bool := -262143 ≤ year && year ≤ 262142

/-- The point in time that fields name. The second may be 60, for a leap second. -/
def ofFields? (f : Fields) : Option DateTime :=
  let date : Date := ⟨f.year, f.month, f.day⟩
  if yearInRange f.year && date.isValid && f.hour < 24 && f.minute < 60 && f.second ≤ 60 then
    let second := min f.second 59
    let nanos := if f.second = 60 then f.nanos + 1000000000 else f.nanos
    let moment := date.toDayNumber * 86400 + f.hour * 3600 + f.minute * 60 + second - f.offset
    if !yearInRange (Date.ofDayNumber (moment / 86400)).year then none
    else if h : nanos < 2000000000 ∧ f.offset.natAbs < 86400 then
      some ⟨moment, nanos, f.offset, h.1, h.2⟩
    else none
  else none

/-- The value of a number of digits at the start of a text, and what follows them. -/
def digits? (count : Nat) (cs : List Char) : Option (Nat × List Char) :=
  let ds := cs.take count
  if ds.length = count ∧ ds.all Char.isDigit then some (Numeral.value ds, cs.drop count) else none

/-- What follows a character that the text must begin with. -/
def expect (c : Char) : List Char → Option (List Char)
  | [] => none
  | d :: rest => if d = c then some rest else none

/-- What follows the mark between date and time. -/
def dateEnd : List Char → Option (List Char)
  | 'T' :: rest => some rest
  | 't' :: rest => some rest
  | ' ' :: rest => some rest
  | _ => none

/-- A fraction of a second in nanoseconds, if a point begins one; digits past the ninth are left
out of account. -/
def fraction? : List Char → Option (Nat × List Char)
  | '.' :: rest =>
    let ds := rest.takeWhile Char.isDigit
    if ds = [] then none
    else
      let kept := ds.take 9
      some (Numeral.value kept * Nat.pow 10 (9 - kept.length), rest.dropWhile Char.isDigit)
  | cs => some (0, cs)

/-- An offset from universal time; `skip` passes over what may stand between hours and minutes. -/
def offset? (skip : List Char → Option (List Char)) : List Char → Option (Int × List Char)
  | [] => none
  | sign :: rest =>
    if sign = 'Z' ∨ sign = 'z' then some (0, rest)
    else if sign = '+' ∨ sign = '-' ∨ sign = '\u2212' then do
      let (hours, rest) ← digits? 2 rest
      let rest ← skip rest
      let (minutes, rest) ← digits? 2 rest
      if 60 ≤ minutes then none
      else
        let total : Int := hours * 3600 + minutes * 60
        return (if sign = '+' then total else -total, rest)
    else none

/-- Reads exactly the form of RFC 3339, of which a date and a time may also be separated by one
space. -/
def read? (cs : List Char) : Option DateTime := do
  let (year, cs) ← digits? 4 cs
  let cs ← expect '-' cs
  let (month, cs) ← digits? 2 cs
  let cs ← expect '-' cs
  let (day, cs) ← digits? 2 cs
  let cs ← dateEnd cs
  let (hour, cs) ← digits? 2 cs
  let cs ← expect ':' cs
  let (minute, cs) ← digits? 2 cs
  let cs ← expect ':' cs
  let (second, cs) ← digits? 2 cs
  let (nanos, cs) ← fraction? cs
  let (offset, cs) ← offset? (expect ':') cs
  if cs ≠ [] then none else ofFields? ⟨year, month, day, hour, minute, second, nanos, offset⟩

/-! ### Reading with tolerance

Stored values are read with blanks between their parts, fields of fewer digits, signed years, and
offsets without a colon or spelled `UTC`. -/

/-- A number of at most `most` digits after any blanks. -/
def number? (most : Nat) (cs : List Char) : Option (Nat × List Char) :=
  let cs := Text.trimLeft cs
  let ds := (cs.takeWhile Char.isDigit).take most
  if ds = [] then none else some (Numeral.value ds, cs.drop ds.length)

/-- A year after any blanks: a sign allows any number of digits, else there are at most four. -/
def year? (cs : List Char) : Option (Int × List Char) :=
  let digitsAfterSign (rest : List Char) : Option (Nat × List Char) :=
    let ds := rest.takeWhile Char.isDigit
    if ds = [] then none else some (Numeral.value ds, rest.dropWhile Char.isDigit)
  match Text.trimLeft cs with
  | '-' :: rest => (digitsAfterSign rest).map fun (n, rest) ↦ (-(n : Int), rest)
  | '+' :: rest => (digitsAfterSign rest).map fun (n, rest) ↦ ((n : Int), rest)
  | rest => (number? 4 rest).map fun (n, rest) ↦ ((n : Int), rest)

/-- What follows a character that the text must begin with after any blanks. -/
def expectAfterBlanks (c : Char) (cs : List Char) : Option (List Char) :=
  expect c (Text.trimLeft cs)

/-- An offset after any blanks, or the name of universal time. -/
def looseOffset? (cs : List Char) : Option (Int × List Char) :=
  let cs := Text.trimLeft cs
  if (cs.take 3).map Char.toLower = ['u', 't', 'c'] then some (0, cs.drop 3)
  else offset? (fun rest ↦ some (rest.dropWhile fun c ↦ c == ':' || Text.isBlank c)) cs

def readLoose? (cs : List Char) : Option DateTime := do
  let (year, cs) ← year? cs
  let cs ← expectAfterBlanks '-' cs
  let (month, cs) ← number? 2 cs
  let cs ← expectAfterBlanks '-' cs
  let (day, cs) ← number? 2 cs
  let cs ← dateEnd cs
  let (hour, cs) ← number? 2 cs
  let cs ← expectAfterBlanks ':' cs
  let (minute, cs) ← number? 2 cs
  let cs ← expectAfterBlanks ':' cs
  let (second, cs) ← number? 2 cs
  let (nanos, cs) ← fraction? cs
  let (offset, cs) ← looseOffset? cs
  if Text.trimLeft cs ≠ [] then none
  else ofFields? ⟨year, month, day, hour, minute, second, nanos, offset⟩

end DateTime

end PropertyFilter
