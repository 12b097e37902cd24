import PropertyFilter.Lexeme
import PropertyFilter.Text.Alphanumeric

/-!
Scanning: the lexeme that a text begins with. Every scanner answers with what it read and how many
characters that took, or with a fault, the distance to the character at fault and the number of
characters used up; all of these are counted from the first character of the lexeme, so that a
lexeme depends on its own characters and at most on whether it ends there.
-/

set_option autoImplicit false

namespace PropertyFilter.Lexeme

open Text

/-- A failed attempt: `distance` characters past the first one stands the one at fault, and `taken`
characters are used up. -/
structure Failure where
  fault : Fault
  distance : Nat
  taken : Nat
  deriving DecidableEq

/-- Characters that a word may begin with. -/
def isWordStart (c : Char) : Bool := c.isAlpha || c == '_'

/-- Characters that a word may go on with. -/
def isWordPart (c : Char) : Bool := c.isAlphanum || c == '_'

/-- The word at the start of a text: word characters, and points that stand between such a
character and one that a word may begin with. -/
def takeWord : List Char → List Char
  | [] => []
  | '.' :: d :: rest => if isWordStart d then '.' :: takeWord (d :: rest) else []
  | c :: rest => if isWordPart c then c :: takeWord rest else []

/-! ### Strings -/

/-- The number that hexadecimal digits at the start of a text write, after the `value` of those
read so far. A failure is laid to the character `distance`, and counts `taken` characters before. -/
def scanCode (distance taken : Nat) : (count : Nat) → (value : Nat) → List Char →
    Except Failure Nat
  | 0, value, _ => .ok value
  | _ + 1, _, [] => .error ⟨.incompleteCode, distance, taken⟩
  | count + 1, value, c :: rest =>
    match hexValue? c with
    | none => .error ⟨.incompleteCode, distance, taken⟩
    | some digit => scanCode distance (taken + 1) count (16 * value + digit) rest

def isHighSurrogate (unit : Nat) : Bool := 0xd800 ≤ unit && unit ≤ 0xdbff

def isLowSurrogate (unit : Nat) : Bool := 0xdc00 ≤ unit && unit ≤ 0xdfff

/-- The character with a code, if there is one. -/
def charOfCode? (code : Nat) : Option Char :=
  if h : code.isValidChar then some (Char.ofNatAux code h) else none

/-- What a code escape stands for whose backslash is `read` characters past the start of the
lexeme and whose `\u` the text follows. Two escapes of surrogates make one character. -/
def scanCodeEscape (read : Nat) (cs : List Char) : Except Failure (Char × Nat) := do
  let unit ← scanCode read (read + 2) 4 0 cs
  let unpaired (taken : Nat) : Failure := ⟨.unpairedSurrogate, read, taken⟩
  if isHighSurrogate unit then
    match cs.drop 4 with
    | '\\' :: 'u' :: rest =>
      let low ← scanCode (read + 6) (read + 8) 4 0 rest
      if isLowSurrogate low then
        match charOfCode? (0x10000 + (unit - 0xd800) * 0x400 + (low - 0xdc00)) with
        | some c => return (c, 12)
        | none => throw ⟨.invalidCode, read, read + 12⟩
      else throw (unpaired (read + 12))
    | '\\' :: _ :: _ => throw (unpaired (read + 8))
    | _ :: _ => throw (unpaired (read + 7))
    | [] => throw (unpaired (read + 6))
  else if isLowSurrogate unit then throw (unpaired (read + 6))
  else
    match charOfCode? unit with
    | some c => return (c, 6)
    | none => throw ⟨.invalidCode, read, read + 6⟩

/-- What an escape stands for whose backslash is `read` characters past the start of the lexeme and
which the text follows, with the length of the escape. -/
def scanEscape (read : Nat) : List Char → Except Failure (Char × Nat)
  | [] => .error ⟨.unterminatedEscape, read, read + 1⟩
  | '\\' :: _ => .ok ('\\', 2)
  | '"' :: _ => .ok ('"', 2)
  | '/' :: _ => .ok ('/', 2)
  | 'b' :: _ => .ok ('\x08', 2)
  | 'f' :: _ => .ok ('\x0c', 2)
  | 'n' :: _ => .ok ('\n', 2)
  | 'r' :: _ => .ok ('\r', 2)
  | 't' :: _ => .ok ('\t', 2)
  | 'u' :: rest => scanCodeEscape read rest
  | c :: _ => .error ⟨.unknownEscape c, read, read + 2⟩

/-- The characters that a quoted text stands for, whether any of them is escaped, and the number
of characters up to and with the closing quote. The text is `read` characters past the start of
the lexeme. -/
def scanBody (read : Nat) : List Char → Except Failure (List Char × Bool × Nat)
  | [] => .error ⟨.unterminatedString, 0, read⟩
  | '"' :: _ => .ok ([], false, read + 1)
  | '\\' :: rest =>
    match scanEscape read rest with
    | .error failure => .error failure
    | .ok (c, length) =>
      match scanBody (read + length) (rest.drop (length - 1)) with
      | .error failure => .error failure
      | .ok (text, _, taken) => .ok (c :: text, true, taken)
  | c :: rest =>
    match scanBody (read + 1) rest with
    | .error failure => .error failure
    | .ok (text, escaped, taken) => .ok (c :: text, escaped, taken)
termination_by cs => cs.length
decreasing_by all_goals simp; try omega

/-- A quoted lexeme, whose opening quote the text follows. Written without escapes, a text shaped
like an identifier is one. -/
def scanString (cs : List Char) : Except Failure (Lexeme × Nat) :=
  match scanBody 1 cs with
  | .error failure => .error failure
  | .ok (text, escaped, taken) =>
    if !escaped && Uuid.shaped text then
      match Uuid.read? text with
      | some value => .ok (.uuid value (String.ofList text), taken)
      | none => .error ⟨.malformedUuid (String.ofList text), 0, taken⟩
    else .ok (.string (String.ofList text), taken)

/-! ### Numbers -/

/-- The parts of a number as it is written. -/
structure Number where
  negative : Bool
  whole : List Char
  /-- The digits after the point, if there is one. -/
  fraction : Option (List Char)
  /-- The letter, the sign and the digits of the exponent, if there is one. -/
  exponent : Option (Char × Option Char × List Char)

namespace Number

/-- The text of a number without a plus sign before it. -/
def text (n : Number) : List Char :=
  (if n.negative then ['-'] else []) ++ n.whole ++
    (match n.fraction with
      | some ds => '.' :: ds
      | none => []) ++
    match n.exponent with
    | some (letter, sign, ds) => letter :: sign.toList ++ ds
    | none => []

/-- The power of ten that the exponent names. -/
def power (n : Number) : Int :=
  match n.exponent with
  | some (_, sign, ds) => if sign = some '-' then -(Numeral.value ds : Int) else Numeral.value ds
  | none => 0

/-- The floating-point number nearest to a number. -/
def toBinary64 (n : Number) : Binary64 :=
  let places := n.fraction.getD []
  Binary64.ofDecimal n.negative (Numeral.value (n.whole ++ places)) (n.power - places.length)

/-- The integer that the digits before the point write, if they can be read. -/
def toInt? (n : Number) : Option Int :=
  (Numeral.read? n.whole).map fun (value : Nat) ↦ if n.negative then -(value : Int) else value

/-- A number with fraction or exponent is a decimal, which has to be finite; another one is an
integer of any size, whose digits have to be readable. -/
def toLexeme (n : Number) : Except Fault Lexeme :=
  if n.fraction.isSome || n.exponent.isSome then
    let value := n.toBinary64
    if value.isFinite then .ok (.decimal value)
    else .error (.unreadableNumber (String.ofList n.text))
  else
    match n.toInt? with
    | some value => .ok (.integer value)
    | none => .error (.unreadableNumber (String.ofList n.text))

end Number

/-- The digits that a text begins with. -/
def takeDigits (cs : List Char) : List Char := cs.takeWhile Char.isDigit

/-- The fraction that a text begins with, and the characters it takes; a point has to be followed
by a digit. -/
def scanFraction : List Char → Except Unit (Option (List Char) × Nat)
  | '.' :: rest =>
    let ds := takeDigits rest
    if ds = [] then .error () else .ok (some ds, ds.length + 1)
  | _ => .ok (none, 0)

/-- The exponent that a text begins with, and the characters it takes; without digits it fails,
with the characters before the place of the first one. -/
def scanExponent : List Char → Except Nat (Option (Char × Option Char × List Char) × Nat)
  | [] => .ok (none, 0)
  | letter :: rest =>
    if letter = 'e' ∨ letter = 'E' then
      let sign := match rest with
        | '+' :: _ => some '+'
        | '-' :: _ => some '-'
        | _ => none
      let before := 1 + sign.toList.length
      let ds := takeDigits (rest.drop sign.toList.length)
      if ds = [] then .error before else .ok (some (letter, sign, ds), before + ds.length)
    else .ok (none, 0)

/-- Whether a character may follow a number directly. -/
def mayFollowNumber : List Char → Bool
  | [] => true
  | c :: _ => !(isAlphanumeric c || c == '_' || c == '.')

/-- The length of the sign that a text begins with, if there is one. -/
def signLength : List Char → Nat
  | [] => 0
  | c :: _ => if c = '-' ∨ c = '+' then 1 else 0

/-- A number at the start of a text. -/
def scanNumber (cs : List Char) : Except Failure (Lexeme × Nat) :=
  let malformed (taken : Nat) : Failure := ⟨.malformedNumber, 0, taken⟩
  let whole := takeDigits (cs.drop (signLength cs))
  let first := signLength cs + whole.length
  match scanFraction (cs.drop first) with
  | .error () => .error (malformed first)
  | .ok (fraction, length) =>
    let second := first + length
    match scanExponent (cs.drop second) with
    | .error length => .error (malformed (second + length))
    | .ok (exponent, length) =>
      let taken := second + length
      if mayFollowNumber (cs.drop taken) then
        match Number.toLexeme ⟨cs.head? == some '-', whole, fraction, exponent⟩ with
        | .ok lexeme => .ok (lexeme, taken)
        | .error fault => .error ⟨fault, 0, taken⟩
      else .error (malformed taken)

/-! ### Lexemes -/

/-- Whether a text begins with a digit. -/
def beginsWithDigit : List Char → Bool
  | [] => false
  | c :: _ => c.isDigit

/-- The lexeme that a text begins with which is not empty. Nothing is used up by a character that
begins no lexeme. -/
def scan (c : Char) (rest : List Char) : Except Failure (Lexeme × Nat) :=
  if c = '(' then .ok (.openParen, 1)
  else if c = ')' then .ok (.closeParen, 1)
  else if c = '[' then .ok (.openBracket, 1)
  else if c = ']' then .ok (.closeBracket, 1)
  else if c = ',' then .ok (.comma, 1)
  else if c = '"' then scanString rest
  else if c.isDigit || ((c == '+' || c == '-') && beginsWithDigit rest) then
    scanNumber (c :: rest)
  else if isWordStart c then
    let name := takeWord (c :: rest)
    .ok (.word (String.ofList name), name.length)
  else .error ⟨.unexpectedCharacter c, 0, 0⟩

theorem scanBody_taken {read : Nat} {cs : List Char} {text : List Char} {escaped : Bool}
    {taken : Nat} (h : scanBody read cs = .ok (text, escaped, taken)) : read < taken := by
  fun_induction scanBody read cs generalizing text escaped taken with
  | case1 => simp at h
  | case2 => simp at h; omega
  | case3 => simp at h
  | case4 => simp at h
  | case5 read rest c length _ _ _ _ heq ih =>
    simp only [Except.ok.injEq, Prod.mk.injEq] at h
    have := ih heq
    omega
  | case6 => simp at h
  | case7 read c rest _ _ _ _ _ heq ih =>
    simp only [Except.ok.injEq, Prod.mk.injEq] at h
    have := ih heq
    omega

theorem scanString_taken {cs : List Char} {lexeme : Lexeme} {taken : Nat}
    (h : scanString cs = .ok (lexeme, taken)) : 0 < taken := by
  unfold scanString at h
  split at h
  · simp at h
  · next heq =>
    have := scanBody_taken heq
    split at h
    · split at h
      · simp at h; omega
      · simp at h
    · simp at h; omega

theorem scanNumber_taken {c : Char} {rest : List Char} {lexeme : Lexeme} {taken : Nat}
    (hc : c.isDigit = true ∨ c = '+' ∨ c = '-')
    (h : scanNumber (c :: rest) = .ok (lexeme, taken)) : 0 < taken := by
  have first : 0 < signLength (c :: rest) +
      (takeDigits ((c :: rest).drop (signLength (c :: rest)))).length := by
    by_cases hsign : c = '-' ∨ c = '+'
    · simp only [signLength, if_pos hsign]
      omega
    · have hdigit : c.isDigit = true := by
        rcases hc with hc | hc | hc
        · exact hc
        · exact absurd (.inr hc) hsign
        · exact absurd (.inl hc) hsign
      simp [signLength, if_neg hsign, takeDigits, hdigit]
  simp only [scanNumber] at h
  repeat' split at h
  all_goals try (simp only [Except.ok.injEq, Prod.mk.injEq] at h; omega)
  all_goals simp at h

/-- A lexeme takes at least one character. -/
theorem scan_taken {c : Char} {rest : List Char} {lexeme : Lexeme} {taken : Nat}
    (h : scan c rest = .ok (lexeme, taken)) : 0 < taken := by
  unfold scan at h
  repeat' split at h
  all_goals try (simp only [Except.ok.injEq, Prod.mk.injEq] at h; omega)
  · exact scanString_taken h
  · next hc =>
    refine scanNumber_taken ?_ h
    simp only [Bool.or_eq_true, Bool.and_eq_true, beq_iff_eq] at hc
    rcases hc with hc | ⟨hc, _⟩
    · exact .inl hc
    · exact .inr hc
  · next hstart =>
    simp only [Except.ok.injEq, Prod.mk.injEq] at h
    rw [← h.2]
    unfold takeWord
    split
    · simp_all
    · simp_all [isWordStart]
    · next heq =>
      have : isWordPart c = true := by
        simp only [isWordStart, isWordPart, Char.isAlphanum, Bool.or_eq_true] at hstart ⊢
        rcases hstart with hstart | hstart
        · exact .inl (.inl hstart)
        · exact .inr hstart
      simp only [List.cons.injEq] at heq
      simp [← heq.1, this]
  · simp at h

end PropertyFilter.Lexeme
