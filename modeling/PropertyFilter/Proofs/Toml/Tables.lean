import PropertyFilter.Toml

/-!
# Tables of a document

How assignments and headers change a draft of a document whose open table is the root or a table
with a header of its own. A key that is not there yet is put into the open table (`add_root`,
`add_inside`), and a header that is not there yet opens an empty one (`add_header`).
-/

set_option autoImplicit false

namespace PropertyFilter

namespace Entries

variable {α : Type}

/-- Of two things put under a name the second one counts. -/
theorem put_put (name : String) (thing other : α) (entries : Entries α) :
    put name other (put name thing entries) = put name other entries := by
  have hirrefl : ¬ name < name := String.lt_irrefl name
  induction entries with
  | nil => simp [put]
  | cons entry entries ih =>
    by_cases hlt : name < entry.1
    · simp only [put, hlt, hirrefl, if_true, if_false]
    by_cases heq : name = entry.1
    · simp only [put, heq, if_true, if_false, String.lt_irrefl]
    · simp only [put, hlt, heq, if_false, ih]

end Entries

namespace Toml

theorem find?_ofNodes (name : String) (entries : Entries Node) :
    Entries.find? name (ofNodes entries) = (Entries.find? name entries).map ofNode := by
  induction entries with
  | nil => rfl
  | cons entry entries ih =>
    obtain ⟨key, node⟩ := entry
    rw [ofNodes]
    simp only [Entries.find?, List.find?_cons] at ih ⊢
    split
    · rfl
    · exact ih

variable {name : String} {entries inner : Entries Node}

theorem add_root (h : Entries.find? name entries = none) (v : Toml) :
    Draft.add ⟨[], entries⟩ (.assignment [] name v) =
      some ⟨[], Entries.put name (.value v) entries⟩ := by
  simp [Draft.add, alter, assign, h]

theorem add_header (h : Entries.find? name entries = none) (current : List String) :
    Draft.add ⟨current, entries⟩ (.table [] name) =
      some ⟨[name], Entries.put name (.table .header []) entries⟩ := by
  simp [Draft.add, openTable, alter, h]

theorem add_inside {table : String} (h : Entries.find? name inner = none) (v : Toml) :
    Draft.add ⟨[table], Entries.put table (.table .header inner) entries⟩ (.assignment [] name v) =
      some ⟨[table],
        Entries.put table (.table .header (Entries.put name (.value v) inner)) entries⟩ := by
  simp [Draft.add, alter, assign, h, Entries.find?_put_self, Entries.put_put]

/-! ### Assignments of values that may be missing -/

/-- The assignment of a value, if there is one. -/
def optionalStatement (name : String) (v? : Option Toml) : List Statement :=
  (v?.map (.assignment [] name)).toList

/-- The table with a value under a name, if there is one. -/
def putOptional (name : String) (v? : Option Toml) (entries : Entries Node) : Entries Node :=
  match v? with
  | some v => Entries.put name (.value v) entries
  | none => entries

theorem find?_putOptional_self (h : Entries.find? name entries = none) (v? : Option Toml) :
    Entries.find? name (putOptional name v? entries) = v?.map .value := by
  cases v? with
  | none => exact h
  | some v => exact Entries.find?_put_self name _ entries

theorem find?_putOptional_of_ne {other : String} (h : other ≠ name) (v? : Option Toml) :
    Entries.find? other (putOptional name v? entries) = Entries.find? other entries := by
  cases v? with
  | none => rfl
  | some v => exact Entries.find?_put_of_ne name other _ entries h

theorem foldlM_optional_root (h : Entries.find? name entries = none) (v? : Option Toml) :
    (optionalStatement name v?).foldlM Draft.add ⟨[], entries⟩ =
      some ⟨[], putOptional name v? entries⟩ := by
  cases v? with
  | none => rfl
  | some v => simp [optionalStatement, putOptional, add_root h v]

theorem foldlM_optional_inside {table : String} (h : Entries.find? name inner = none)
    (v? : Option Toml) :
    (optionalStatement name v?).foldlM Draft.add
        ⟨[table], Entries.put table (.table .header inner) entries⟩ =
      some ⟨[table], Entries.put table (.table .header (putOptional name v? inner)) entries⟩ := by
  cases v? with
  | none => rfl
  | some v => simp [optionalStatement, putOptional, add_inside h v]

end Toml

end PropertyFilter
