import PropertyFilter.Text.CodeRange

/-!
Blank characters: those with the Unicode property White_Space. They separate lexemes, and text is
trimmed of them.
-/

set_option autoImplicit false

namespace PropertyFilter.Text

/-- The code points with the property White_Space. -/
def blankRanges : List (Nat × Nat) :=
  [(0x09, 0x0d), (0x20, 0x20), (0x85, 0x85), (0xa0, 0xa0), (0x1680, 0x1680), (0x2000, 0x200a),
    (0x2028, 0x2029), (0x202f, 0x202f), (0x205f, 0x205f), (0x3000, 0x3000)]

def isBlank (c : Char) : Bool := inRanges blankRanges c

/-- The text without the blanks it begins with. -/
def trimLeft (cs : List Char) : List Char := cs.dropWhile isBlank

/-- The text without the blanks it begins and ends with. -/
def trim (cs : List Char) : List Char := (trimLeft (trimLeft cs).reverse).reverse

/-- Whether a text holds nothing but blanks. -/
def allBlank (cs : List Char) : Bool := cs.all isBlank

theorem trimLeft_eq_nil_iff (cs : List Char) : trimLeft cs = [] ↔ allBlank cs = true := by
  induction cs with
  | nil => simp [trimLeft, allBlank]
  | cons c rest ih =>
    simp only [trimLeft, allBlank] at ih ⊢
    by_cases h : isBlank c <;> simp [h, ih]

end PropertyFilter.Text
