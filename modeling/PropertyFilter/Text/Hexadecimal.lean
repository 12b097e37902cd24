/-!
Hexadecimal digits and numbers of a fixed number of them.
-/

set_option autoImplicit false

namespace PropertyFilter.Text

/-- Which letters stand for the digits from ten on. -/
inductive LetterCase
  | lower
  | upper
  deriving DecidableEq

/-- The digit for a number below sixteen. -/
def hexDigit (letters : LetterCase) (n : Nat) : Char :=
  if n < 10 then Char.ofNat ('0'.toNat + n)
  else match letters with
    | .lower => Char.ofNat ('a'.toNat + (n - 10))
    | .upper => Char.ofNat ('A'.toNat + (n - 10))

/-- The value of a hexadecimal digit in either case. -/
def hexValue? (c : Char) : Option Nat :=
  if '0' ≤ c ∧ c ≤ '9' then some (c.toNat - '0'.toNat)
  else if 'a' ≤ c ∧ c ≤ 'f' then some (c.toNat - 'a'.toNat + 10)
  else if 'A' ≤ c ∧ c ≤ 'F' then some (c.toNat - 'A'.toNat + 10)
  else none

def isHexDigit (c : Char) : Bool := (hexValue? c).isSome

/-- The last `width` hexadecimal digits of a number, the most significant first. -/
def hexDigits (letters : LetterCase) : (width : Nat) → Nat → List Char
  | 0, _ => []
  | width + 1, n => hexDigits letters width (n / 16) ++ [hexDigit letters (n % 16)]

@[simp] theorem length_hexDigits (letters : LetterCase) (width n : Nat) :
    (hexDigits letters width n).length = width := by
  induction width generalizing n with
  | zero => rfl
  | succ width ih => simp [hexDigits, ih]

theorem hexValue?_hexDigit (letters : LetterCase) (n : Nat) (h : n < 16) :
    hexValue? (hexDigit letters n) = some n := by
  have : ∀ m : Fin 16, hexValue? (hexDigit letters m) = some m.val := by
    cases letters <;> decide
  exact this ⟨n, h⟩

end PropertyFilter.Text
