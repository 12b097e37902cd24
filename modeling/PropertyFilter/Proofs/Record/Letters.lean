import PropertyFilter.Proofs.Expression.Operands
import PropertyFilter.Proofs.Filter.Letters
import PropertyFilter.Proofs.Lexeme.Letters
import PropertyFilter.Proofs.Record

/-!
# The case of letters in the names of properties

If the names of a table stand apart, a name finds the one entry that is alike, in whatever order the
entries are tried and in whatever letters the name is asked for (`Entries.NamesApart.lookup?_eq`).
The parts of names that are alike are alike as well, so if the names of each object inside a
document stand apart, they lead to the same place in it, by induction on the path
(`Record.follow_recased`). Such records give the same answer to filters that differ at most in the
case of letters in the names of properties (`Filter.holds_recased`).
-/

set_option autoImplicit false

namespace PropertyFilter

/-! ### Tables -/

namespace Entries

variable {α : Type} {entries order : Entries α} {name other : String} {thing : α}

/-- The names of different entries differ in more than the case of letters. -/
def NamesApart (entries : Entries α) : Prop :=
  entries.Pairwise fun e e' ↦ alike e.1 e'.1 = false

instance (entries : Entries α) : Decidable (NamesApart entries) :=
  inferInstanceAs (Decidable (entries.Pairwise _))

namespace NamesApart

theorem apart_symm {e e' : String × α} (h : alike e.1 e'.1 = false) : alike e'.1 e.1 = false := by
  rwa [alike_comm]

theorem perm (h : NamesApart entries) (horder : order.Perm entries) : NamesApart order :=
  (List.Perm.pairwise_iff apart_symm horder).mpr h

theorem eq_of_alike (h : NamesApart entries) {e e' : String × α} (he : e ∈ entries)
    (he' : e' ∈ entries) (halike : alike e.1 e'.1 = true) : e = e' := by
  by_contra hne
  have hsymm : Std.Symm fun e e' : String × α ↦ alike e.1 e'.1 = false := ⟨fun _ _ ↦ apart_symm⟩
  have hapart := List.Pairwise.forall h he he' hne
  simp [halike] at hapart

theorem lookup?_eq_some_iff (h : NamesApart entries) :
    lookup? name entries = some thing ↔ ∃ e ∈ entries, alike e.1 name = true ∧ e.2 = thing := by
  refine ⟨exists_mem_of_lookup?, ?_⟩
  rintro ⟨e, he, halike, rfl⟩
  cases hfound : lookup? name entries with
  | none =>
    have hapart := lookup?_eq_none_iff.mp hfound e he
    simp [halike] at hapart
  | some thing =>
    obtain ⟨e', he', halike', rfl⟩ := exists_mem_of_lookup? hfound
    rw [alike_comm] at halike'
    rw [h.eq_of_alike he he']
    rw [alike_congr halike, halike']

/-- The case of letters in the name asked for does not matter, nor does the order of the entries. -/
theorem lookup?_eq (h : NamesApart entries) (horder : order.Perm entries)
    (halike : alike name other = true) : lookup? other order = lookup? name entries := by
  ext thing
  rw [(h.perm horder).lookup?_eq_some_iff, h.lookup?_eq_some_iff]
  simp only [horder.mem_iff, alike_comm _ name, alike_comm _ other, alike_congr halike]

end NamesApart

end Entries

/-! ### Documents -/

/-- A document, and all that stands in the entries of objects inside of it. -/
inductive Json.Within : Json → Json → Prop
  | self (document : Json) : Within document document
  | entry {part : Json} {entries : Entries Json} {e : String × Json} (he : e ∈ entries)
      (h : Within part e.2) : Within part (.object entries)

/-- In no object inside of the document, two names differ at most in the case of letters. -/
def Json.NamesApart (document : Json) : Prop :=
  ∀ entries : Entries Json, Within (.object entries) document → entries.NamesApart

theorem Json.namesApart_object_iff {entries : Entries Json} :
    (Json.object entries).NamesApart ↔ entries.NamesApart ∧ ∀ e ∈ entries, e.2.NamesApart := by
  refine ⟨fun h ↦ ⟨h entries (.self _), fun e he inner hinner ↦ h inner (.entry he hinner)⟩, ?_⟩
  rintro ⟨hnames, hentries⟩ inner (_ | ⟨he, hinner⟩)
  · exact hnames
  · exact hentries _ he inner hinner

namespace Record

open Text (Recased recased_cons_iff)

theorem segments_point (cs : List Char) : segments ('.' :: cs) = [] :: segments cs := by
  rw [segments]

theorem segments_ne_nil (cs : List Char) : segments cs ≠ [] := by
  fun_cases segments cs <;> simp

theorem segments_of_ne {c : Char} (hc : c ≠ '.') {cs part : List Char} {parts : List (List Char)}
    (h : segments cs = part :: parts) : segments (c :: cs) = (c :: part) :: parts := by
  simp [segments, h]

theorem segments_recased {cs ds : List Char} (h : Recased cs ds) :
    List.Forall₂ Recased (segments cs) (segments ds) := by
  induction cs generalizing ds with
  | nil =>
    obtain rfl : ds = [] := List.length_eq_zero_iff.mp h.length_eq.symm
    exact .cons rfl .nil
  | cons c cs ih =>
    obtain ⟨d, ds, rfl⟩ : ∃ d ds', ds = d :: ds' :=
      List.exists_cons_of_length_pos (h.length_eq ▸ Nat.succ_pos cs.length)
    obtain ⟨hletter, h⟩ := recased_cons_iff.mp h
    have hpoint : c = '.' ↔ d = '.' := by
      rw [← Lexeme.toLower_eq_point_iff, hletter, Lexeme.toLower_eq_point_iff]
    by_cases hc : c = '.'
    · rw [hc, hpoint.mp hc, segments_point, segments_point]
      exact .cons rfl (ih h)
    · obtain ⟨part, parts, hparts⟩ := List.exists_cons_of_ne_nil (segments_ne_nil cs)
      obtain ⟨part', parts', hparts'⟩ := List.exists_cons_of_ne_nil (segments_ne_nil ds)
      have hsplit := ih h
      rw [hparts, hparts', List.forall₂_cons] at hsplit
      rw [segments_of_ne hc hparts, segments_of_ne (mt hpoint.mpr hc) hparts']
      exact .cons (recased_cons_iff.mpr ⟨hletter, hsplit.1⟩) hsplit.2

theorem follow_recased {path path' : List (List Char)} (h : List.Forall₂ Recased path path')
    {document : Json} (hdocument : document.NamesApart) :
    follow path' document = follow path document := by
  induction h generalizing document with
  | nil => rfl
  | @cons segment segment' path path' hsegment h ih =>
    cases document with
    | object entries =>
      have halike : alike (.ofList segment) (.ofList segment') = true := by
        rw [alike_iff, foldCase, foldCase, String.toList_ofList, String.toList_ofList]
        exact hsegment
      obtain ⟨hnames, hentries⟩ := Json.namesApart_object_iff.mp hdocument
      rw [follow, follow, hnames.lookup?_eq (.refl _) halike]
      refine Option.bind_congr fun part hpart ↦ ih ?_
      obtain ⟨e, he, -, rfl⟩ := Entries.exists_mem_of_lookup? hpart
      exact hentries e he
    | _ => rfl

end Record

/-! ### Filters -/

namespace Filter

theorem Recased.holds_eq {f g : Filter} (h : f.Recased g) {r r' : Record}
    (hr : ∀ property other, alike property other = true → r' other = r property) :
    g.holds r' = f.holds r := by
  induction h with
  | and hleft hright ihl ihr => rw [holds, holds, ihl, ihr]
  | or hleft hright ihl ihr => rw [holds, holds, ihl, ihr]
  | not h ih => rw [holds, holds, ih]
  | test h t => rw [holds, holds, hr _ _ h]

/-- Names of properties count in letters of either case: unless a table, in whatever order, or an
object inside of a document has names that differ at most in the case of letters, filters that
differ at most in the case of letters in names give it the same answer. -/
theorem holds_recased {f g : Filter} (h : f.Recased g) :
    (∀ table order : Entries Value, table.NamesApart → order.Perm table →
      g.holds (.ofTable order) = f.holds (.ofTable table)) ∧
    ∀ document : Json, document.NamesApart →
      g.holds (.ofJson document) = f.holds (.ofJson document) := by
  refine ⟨fun table order htable horder ↦ h.holds_eq fun property other halike ↦ ?_,
    fun document hdocument ↦ h.holds_eq fun property other halike ↦ ?_⟩
  · exact htable.lookup?_eq horder halike
  · have hpath : List.Forall₂ Text.Recased (Record.segments property.toList)
        (Record.segments other.toList) := Record.segments_recased ((alike_iff _ _).mp halike)
    rw [Record.ofJson, Record.ofJson, Record.follow_recased hpath hdocument]

/-- A table in two orders, and a document with an object in it. -/
theorem holds_recased_nested :
    (Filter.and (.test "Age" .present) (.not (.test "HOME.city" (.text .contains "rn")))).holds
        (.ofTable [("home.City", .string "Brno"), ("age", .int 3)]) =
      (Filter.and (.test "age" .present) (.not (.test "home.City" (.text .contains "rn")))).holds
        (.ofTable [("age", .int 3), ("home.City", .string "Brno")]) ∧
    (Filter.and (.test "Age" .present) (.not (.test "HOME.city" (.text .contains "rn")))).holds
        (.ofJson (.object [("aGe", .integer 3), ("Home", .object [("City", .string "Brno")])])) =
      (Filter.and (.test "age" .present) (.not (.test "home.City" (.text .contains "rn")))).holds
        (.ofJson (.object [("aGe", .integer 3), ("Home", .object [("City", .string "Brno")])])) :=
  by
  have hrecased :
      Recased (.and (.test "age" .present) (.not (.test "home.City" (.text .contains "rn"))))
        (.and (.test "Age" .present) (.not (.test "HOME.city" (.text .contains "rn")))) :=
    .and (.test (by decide) _) (.not (.test (by decide) _))
  have hinner : (Json.object [("City", .string "Brno")]).NamesApart :=
    Json.namesApart_object_iff.mpr ⟨by decide, List.forall_mem_singleton.mpr nofun⟩
  refine ⟨(holds_recased hrecased).1 _ _ (by decide) (.swap _ _ _),
    (holds_recased hrecased).2 _ (Json.namesApart_object_iff.mpr ⟨by decide, ?_⟩)⟩
  exact List.forall_mem_cons.mpr ⟨nofun, List.forall_mem_singleton.mpr hinner⟩

end Filter

end PropertyFilter
