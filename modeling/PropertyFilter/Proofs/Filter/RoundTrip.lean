import PropertyFilter.Proofs.Filter.Layout
import PropertyFilter.Proofs.Lexeme.Quoted
import PropertyFilter.Proofs.Number.RoundTrip

/-!
# Canonical texts read back

The canonical text of a filter is parsed as the filter itself (`Filter.parse_text`), strictly: not
just as a filter that is equal as data, so the sign of a zero and the spelling of a name survive.
What it takes is that properties are names, that nesting keeps to the limit of the language, and
that every value is of a kind that a literal stands for (`Value.HasLiteral`). A point in time is
none, since its literal is read as a string, and an integer of any size is one only where 64 bits do
not suffice.
-/

set_option autoImplicit false

namespace PropertyFilter

open Expression

/-! ### Values -/

/-- The values that literals are read as. -/
def Value.HasLiteral : Value → Prop
  | .bigInt i => Value.fits i = false
  | .float x => x.isFinite = true
  | .dateTime _ => False
  | _ => True

theorem Value.ofInt_toInt (i : Int64) : Value.ofInt i.toInt = .int i := by
  have hlow := Int64.le_toInt i
  have hhigh := Int64.toInt_lt i
  rw [Value.ofInt, if_pos ((Value.fits_iff _).mpr ⟨by omega, by omega⟩), Int64.ofInt_toInt]

/-- The literal of a value writes one lexeme, and that one writes the value. -/
theorem exists_scalar_literal {v : Value} (hv : v.HasLiteral) :
    ∃ l, Scalar l (some v) ∧ Writes v.literal [l] := by
  cases v with
  | bool b =>
    cases b with
    | true => exact ⟨_, .yes (by decide), writes_word (.of_isSegment rfl)⟩
    | false => exact ⟨_, .no (by decide), writes_word (.of_isSegment rfl)⟩
  | int i =>
    refine ⟨.integer i.toInt, ?_, writes_of_scans fun _ ↦ Lexeme.scans_signedDigits i.toInt⟩
    rw [← Value.ofInt_toInt]
    exact .integer i.toInt
  | bigInt i =>
    refine ⟨.integer i, ?_, writes_of_scans fun _ ↦ Lexeme.scans_signedDigits i⟩
    have hwide : Value.ofInt i = .bigInt i := by
      rw [Value.ofInt, show Value.fits i = false from hv]
      rfl
    rw [← hwide]
    exact .integer i
  | float x =>
    exact ⟨_, .decimal x, writes_of_scans fun _ ↦ Binary64.scans_text hv _⟩
  | string s => exact ⟨_, .string s, writes_of_scans fun rest _ ↦ Lexeme.scans_quoted s rest⟩
  | dateTime t => exact absurd hv id
  | uuid u => exact ⟨_, .uuid u _, writes_of_scans fun rest _ ↦ Lexeme.scans_uuid u rest⟩

/-- The literal of a value, or the word `null`, writes one lexeme that writes the value or its
absence. -/
theorem exists_scalar_optionLiteral {v : Option Value} (hv : ∀ w ∈ v, w.HasLiteral) :
    ∃ l, Scalar l v ∧ Writes (Test.optionLiteral v) [l] := by
  cases v with
  | none => exact ⟨_, .null (by decide), writes_word (.of_isSegment rfl)⟩
  | some v => exact exists_scalar_literal (hv v rfl)

theorem exists_items_literals {vs : List Value} (hne : vs ≠ []) (hvs : ∀ v ∈ vs, v.HasLiteral) :
    ∃ ls, Items ls vs ∧ Writes (Test.literals vs) ls := by
  fun_induction Test.literals vs with
  | case1 => exact absurd rfl hne
  | case2 v =>
    obtain ⟨l, hscalar, hwrites⟩ := exists_scalar_literal (hvs v (by simp))
    exact ⟨[l], .last hscalar, hwrites⟩
  | case3 v vs hmore ih =>
    rw [List.forall_mem_cons] at hvs
    obtain ⟨l, hscalar, hwrites⟩ := exists_scalar_literal hvs.1
    obtain ⟨ls, hitems, hothers⟩ := ih (by simpa using hmore) hvs.2
    refine ⟨l :: .comma :: ls, .more hscalar hitems, ?_⟩
    simpa using hwrites.comma hothers

/-! ### Tests -/

/-- The tests that canonical texts are read as: values have literals, and a choice is one between
different values. -/
def Test.HasLiterals : Test → Prop
  | .equals v => ∀ w ∈ v, w.HasLiteral
  | .differs v => ∀ w ∈ v, w.HasLiteral
  | .ordered _ bound => bound.HasLiteral
  | .text _ _ => True
  | .present => True
  | .oneOf vs => vs ≠ [] ∧ (∀ v ∈ vs, v.HasLiteral) ∧ Distinct vs

theorem eraseDupsBy_of_distinct {vs : List Value} (h : Test.Distinct vs) :
    vs.eraseDupsBy (fun v kept ↦ kept.same v) = vs := by
  induction vs with
  | nil => rfl
  | cons v vs ih =>
    obtain ⟨hv, hvs⟩ := List.pairwise_cons.mp h
    have hkept : (vs.filter fun w ↦ decide (v.same w = false)) = vs :=
      List.filter_eq_self.mpr fun w hw ↦ by simpa using hv w hw
    rw [List.eraseDupsBy_cons, hkept, ih hvs]

theorem spells_of_ofWord? (word : String) {operator : Operator}
    (h : Operator.ofWord? word = some operator) : Operator.Spells word operator :=
  (Operator.ofWord?_eq_some_iff word operator).mp h

theorem writes_quoted (s : String) : Writes (Value.quoted s) [.string s] :=
  writes_of_scans fun rest _ ↦ Lexeme.scans_quoted s rest

theorem isName_relation (relation : Relation) : Lexeme.IsName relation.keyword.toList := by
  cases relation <;> exact .of_isSegment rfl

theorem spells_relation (relation : Relation) :
    Operator.Spells relation.keyword (.ordered relation) :=
  spells_of_ofWord? _ (by cases relation <;> decide)

theorem isName_textTest (test : TextTest) : Lexeme.IsName test.keyword.toList := by
  cases test <;> exact .of_isSegment rfl

theorem spells_textTest (test : TextTest) : Operator.Spells test.keyword (.text test) :=
  spells_of_ofWord? _ (by cases test <;> decide)

namespace Filter.AsksFor

variable {own : List Char} {l : Lexeme} {v : Option Value}

theorem equals (hscalar : Scalar l v) (hown : Writes own [l]) :
    AsksFor ("eq".toList ++ ' ' :: own) (.equals v) :=
  ⟨_, _, .equals (spells_of_ofWord? "eq" (by decide)) hscalar, rfl,
    (writes_word (.of_isSegment rfl)).space hown⟩

theorem differs (hscalar : Scalar l v) (hown : Writes own [l]) :
    AsksFor ("ne".toList ++ ' ' :: own) (.differs v) :=
  ⟨_, _, .differs (spells_of_ofWord? "ne" (by decide)) hscalar, rfl,
    (writes_word (.of_isSegment rfl)).space hown⟩

theorem ordered (relation : Relation) {bound : Value} (hscalar : Scalar l (some bound))
    (hown : Writes own [l]) :
    AsksFor (relation.keyword.toList ++ ' ' :: own) (.ordered relation bound) :=
  ⟨_, _, .ordered (spells_relation relation) hscalar, rfl,
    (writes_word (isName_relation relation)).space hown⟩

theorem text (test : TextTest) {pattern : String} (hown : Writes own [.string pattern]) :
    AsksFor (test.keyword.toList ++ ' ' :: own) (.text test pattern) :=
  ⟨_, _, .text (spells_textTest test) (.string pattern), rfl,
    (writes_word (isName_textTest test)).space hown⟩

theorem present : AsksFor "pr".toList .present :=
  ⟨_, _, .present (spells_of_ofWord? "pr" (by decide)), rfl, writes_word (.of_isSegment rfl)⟩

theorem oneOf {ls : List Lexeme} {vs : List Value} (hitems : Items ls vs)
    (hdistinct : Test.Distinct vs) (hown : Writes own ls) :
    AsksFor ("in".toList ++ ' ' :: '(' :: (own ++ [')'])) (.oneOf vs) := by
  refine ⟨_, _, .oneOf (spells_of_ofWord? "in" (by decide)) (.parentheses hitems), ?_,
    (writes_word (.of_isSegment rfl)).space hown.parens⟩
  rw [withoutRepeats, eraseDupsBy_of_distinct hdistinct]

end Filter.AsksFor

/-- The canonical text of a test asks for that test. -/
theorem asksFor_canonical {t : Test} (ht : t.HasLiterals) : Filter.AsksFor t.canonical t := by
  cases t with
  | equals v =>
    obtain ⟨l, hscalar, hwrites⟩ := exists_scalar_optionLiteral ht
    exact .equals hscalar hwrites
  | differs v =>
    obtain ⟨l, hscalar, hwrites⟩ := exists_scalar_optionLiteral ht
    exact .differs hscalar hwrites
  | ordered relation bound =>
    obtain ⟨l, hscalar, hwrites⟩ := exists_scalar_literal ht
    exact .ordered relation hscalar hwrites
  | text test pattern => exact .text test (writes_quoted pattern)
  | present => exact .present
  | oneOf vs =>
    obtain ⟨hne, hvs, hdistinct⟩ := ht
    obtain ⟨ls, hitems, hwrites⟩ := exists_items_literals hne hvs
    exact .oneOf hitems hdistinct hwrites

/-! ### Filters -/

namespace Filter

theorem mapTests_id (f : Filter) : f.mapTests id = f := by
  induction f with
  | and a b iha ihb => rw [mapTests, iha, ihb]
  | or a b iha ihb => rw [mapTests, iha, ihb]
  | not a ih => rw [mapTests, ih]
  | test property t => rfl

/-- The canonical text of a filter is parsed as that filter, whatever names its properties have and
whichever of the values that have literals it compares with. -/
theorem parse_text {f : Filter} (hnames : ∀ p ∈ f.tests, Lexeme.IsName p.1.toList)
    (hvalues : ∀ p ∈ f.tests, p.2.HasLiterals) (hnesting : f.nesting ≤ 256) :
    parse f.text = .ok f := by
  have hasked : ∀ p ∈ f.tests, AsksFor p.2.canonical (id p.2) :=
    fun p hp ↦ asksFor_canonical (hvalues p hp)
  have hparse := parse_layout hnames hasked hnesting
  rwa [← canonical_eq_layout, mapTests_id] at hparse

/-- A property called `not`, a string shaped like an identifier and a negative zero. -/
theorem parse_text_not : parse (text (.not (.and
      (.test "not" (.equals (some (.string "01234567-89ab-cdef-0123-456789abcdef"))))
      (.test "a.in" (.oneOf [.float (.zero true), .bigInt 9223372036854775808]))))) =
    .ok (.not (.and
      (.test "not" (.equals (some (.string "01234567-89ab-cdef-0123-456789abcdef"))))
      (.test "a.in" (.oneOf [.float (.zero true), .bigInt 9223372036854775808])))) := by
  refine parse_text ?_ ?_ (by decide)
  · simp only [tests, List.cons_append, List.nil_append, List.forall_mem_cons]
    have hin : Lexeme.IsName "in".toList := .of_isSegment rfl
    have hdotted : Lexeme.IsName ("a".toList ++ '.' :: "in".toList) := hin.point rfl
    exact ⟨.of_isSegment rfl, hdotted, by simp⟩
  · simp [tests, Test.HasLiterals, Value.HasLiteral, Test.Distinct, Value.same, Binary64.zero,
      Binary64.isFinite, Value.fits]

end Filter

end PropertyFilter
