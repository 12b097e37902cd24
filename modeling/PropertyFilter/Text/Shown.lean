import PropertyFilter.Text.Hexadecimal
import PropertyFilter.Text.Printable

/-!
Texts quoted to be looked at: whatever is not printed is shown as an escape.
-/

set_option autoImplicit false

namespace PropertyFilter.Text

/-- The hexadecimal digits of a number without needless zeros. -/
def hexNumber (n : Nat) : List Char :=
  if n < 16 then [hexDigit .lower n] else hexNumber (n / 16) ++ [hexDigit .lower (n % 16)]

def shownChar (c : Char) : List Char :=
  if c = '"' then ['\\', '"']
  else if c = '\\' then ['\\', '\\']
  else if c = '\n' then ['\\', 'n']
  else if c = '\r' then ['\\', 'r']
  else if c = '\t' then ['\\', 't']
  else if c = '\x00' then ['\\', '0']
  else if isPrintable c then [c]
  else '\\' :: 'u' :: '\x7b' :: hexNumber c.toNat ++ ['\x7d']

/-- A text between quotes. -/
def shown (cs : List Char) : List Char := '"' :: cs.flatMap shownChar ++ ['"']

end PropertyFilter.Text
