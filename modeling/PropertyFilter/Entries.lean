import PropertyFilter.Lexeme

/-!
Tables from names to things, held in the order of the names by code points, each name once.
-/

set_option autoImplicit false

namespace PropertyFilter

abbrev Entries (α : Type) := List (String × α)

namespace Entries

variable {α : Type}

/-- The table with an entry added, or put in the place of the one of that name. -/
def put (name : String) (thing : α) : Entries α → Entries α
  | [] => [(name, thing)]
  | entry :: entries =>
    if name < entry.1 then (name, thing) :: entry :: entries
    else if name = entry.1 then (name, thing) :: entries
    else entry :: put name thing entries

/-- The table of a list of entries, of which the last one of a name counts. -/
def ofList (entries : List (String × α)) : Entries α :=
  entries.foldl (fun table entry ↦ put entry.1 entry.2 table) []

/-- What stands under exactly this name. -/
def find? (name : String) (entries : Entries α) : Option α :=
  (List.find? (fun entry ↦ entry.1 == name) entries).map (·.2)

/-- What stands under this name, or else under the first one that differs only in the case of
letters. -/
def lookup? (name : String) (entries : Entries α) : Option α :=
  (find? name entries).or
    ((List.find? (fun entry ↦ alike entry.1 name) entries).map (·.2))

theorem find?_put_self (name : String) (thing : α) (entries : Entries α) :
    find? name (put name thing entries) = some thing := by
  induction entries with
  | nil => simp [put, find?]
  | cons entry entries ih =>
    unfold put
    split
    · simp [find?]
    · split
      · simp [find?]
      · next h =>
        have hne : (entry.1 == name) = false := by
          simp only [beq_eq_false_iff_ne, ne_eq]
          exact fun heq ↦ h heq.symm
        simpa [find?, List.find?_cons, hne] using ih

theorem find?_put_of_ne (name other : String) (thing : α) (entries : Entries α)
    (h : other ≠ name) : find? other (put name thing entries) = find? other entries := by
  have hne : (name == other) = false := by
    simp only [beq_eq_false_iff_ne, ne_eq]
    exact fun heq ↦ h heq.symm
  induction entries with
  | nil => simp [put, find?, hne]
  | cons entry entries ih =>
    unfold put
    split
    · simp [find?, List.find?_cons, hne]
    · split
      · next same => simp [find?, hne, ← same]
      · simp only [find?, List.find?_cons] at ih ⊢
        split
        · rfl
        · exact ih

end Entries

end PropertyFilter
