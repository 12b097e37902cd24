import Mathlib.Algebra.Ring.Nat
import PropertyFilter.Filter.Canonical
import PropertyFilter.Proofs.Token.Lexes

/-!
# Laid out filters are parsed as their trees

Several texts of a filter share one layout: connectives stand in parentheses of their own, a
negation is `not` in front of parentheses, and a property stands before what is asked of it
(`Filter.layout`). How deep such a text nests groups and negations is `Filter.nesting`. If each test
is written in a way that the grammar takes for some test, then the laid out text is parsed as the
tree with these tests in it (`Filter.parse_layout`). A property may be called anything that is a
name, `not` and the other keywords included.
-/

set_option autoImplicit false

namespace PropertyFilter

open Expression

/-! ### Names in the place of keywords -/

namespace Expression

theorem ofWord?_of_alike {word keyword : String} (h : alike word keyword = true) :
    Operator.ofWord? word = Operator.ofWord? keyword := by
  rw [alike_iff] at h
  have hfind : (fun entry : String × Operator ↦ alike word entry.1) =
      fun entry ↦ alike keyword entry.1 := by
    funext entry
    rw [alike, alike, h]
  rw [Operator.ofWord?, Operator.ofWord?, hfind]

theorem isOperator_word_iff (word : String) :
    IsOperator (.word word) ↔ (Operator.ofWord? word).isSome = true :=
  (isSome_ofLexeme?_iff (.word word)).symm

theorem not_isOperator_of_ne {l : Lexeme} (h : ∀ word, l ≠ .word word) : ¬ IsOperator l := by
  rintro ⟨word, _, heq, _⟩
  exact h word heq

/-- No lexeme that writes a value, or its absence, is an operator. -/
theorem not_isOperator_of_scalar {l : Lexeme} {v : Option Value} (h : Scalar l v) :
    ¬ IsOperator l := by
  have hword {word keyword : String} (halike : alike word keyword = true)
      (hkeyword : Operator.ofWord? keyword = none) : ¬ IsOperator (.word word) := by
    rw [isOperator_word_iff, ofWord?_of_alike halike, hkeyword]
    simp
  cases h with
  | string text => exact not_isOperator_of_ne nofun
  | uuid value text => exact not_isOperator_of_ne nofun
  | integer value => exact not_isOperator_of_ne nofun
  | decimal value => exact not_isOperator_of_ne nofun
  | yes h => exact hword h (by decide)
  | no h => exact hword h (by decide)
  | null h => exact hword h (by decide)

theorem not_isOperator_of_pattern {l : Lexeme} {text : String} (h : Pattern l text) :
    ¬ IsOperator l := by
  cases h with
  | string => exact not_isOperator_of_ne nofun
  | uuid => exact not_isOperator_of_ne nofun

/-- What is asked of a property tells that a `not` before it is one, unless an operator follows. -/
theorem namesProperty_of_asked {own rest : List Lexeme} {t : Test} (h : Asked own t)
    (hrest : ∀ l ∈ rest.head?, ¬ IsOperator l) : NamesProperty (own ++ rest) := by
  cases h with
  | equals hword hscalar =>
    exact ⟨_, _, rfl, ⟨_, _, rfl, hword⟩, by simpa using not_isOperator_of_scalar hscalar⟩
  | differs hword hscalar =>
    exact ⟨_, _, rfl, ⟨_, _, rfl, hword⟩, by simpa using not_isOperator_of_scalar hscalar⟩
  | ordered hword hscalar =>
    exact ⟨_, _, rfl, ⟨_, _, rfl, hword⟩, by simpa using not_isOperator_of_scalar hscalar⟩
  | text hword hpattern =>
    exact ⟨_, _, rfl, ⟨_, _, rfl, hword⟩, by simpa using not_isOperator_of_pattern hpattern⟩
  | present hword => exact ⟨_, _, rfl, ⟨_, _, rfl, hword⟩, hrest⟩
  | oneOf hword hlisting =>
    refine ⟨_, _, rfl, ⟨_, _, rfl, hword⟩, ?_⟩
    cases hlisting <;> simp [IsOperator]

end Expression

/-! ### Layouts -/

namespace Filter

/-- The text of a tree, given the texts of what is asked. -/
def layout (asked : Test → List Char) : Filter → List Char
  | .and a b => '(' :: a.layout asked ++ " and ".toList ++ b.layout asked ++ [')']
  | .or a b => '(' :: a.layout asked ++ " or ".toList ++ b.layout asked ++ [')']
  | .not a => "not(".toList ++ a.layout asked ++ [')']
  | .test property t => property.toList ++ ' ' :: asked t

/-- How many groups and negations are open at once in a laid out text, at most. -/
def nesting : Filter → Nat
  | .and a b => max a.nesting b.nesting + 1
  | .or a b => max a.nesting b.nesting + 1
  | .not a => a.nesting + 2
  | .test _ _ => 0

/-- The tree with other tests of the same properties. -/
def mapTests (change : Test → Test) : Filter → Filter
  | .and a b => .and (a.mapTests change) (b.mapTests change)
  | .or a b => .or (a.mapTests change) (b.mapTests change)
  | .not a => .not (a.mapTests change)
  | .test property t => .test property (change t)

theorem canonical_eq_layout (f : Filter) : f.canonical = f.layout Test.canonical := by
  induction f with
  | and a b iha ihb => rw [canonical, layout, iha, ihb]
  | or a b iha ihb => rw [canonical, layout, iha, ihb]
  | not a ih => rw [canonical, layout, ih]
  | test property t => rfl

theorem height_mapTests (change : Test → Test) (f : Filter) :
    (f.mapTests change).height = f.height := by
  induction f with
  | and a b iha ihb => simp only [mapTests, height, iha, ihb]
  | or a b iha ihb => simp only [mapTests, height, iha, ihb]
  | not a ih => simp only [mapTests, height, ih]
  | test property t => rfl

theorem nesting_mapTests (change : Test → Test) (f : Filter) :
    (f.mapTests change).nesting = f.nesting := by
  induction f with
  | and a b iha ihb => simp only [mapTests, nesting, iha, ihb]
  | or a b iha ihb => simp only [mapTests, nesting, iha, ihb]
  | not a ih => simp only [mapTests, nesting, ih]
  | test property t => rfl

theorem tests_mapTests (change : Test → Test) (f : Filter) :
    (f.mapTests change).tests = f.tests.map fun p ↦ (p.1, change p.2) := by
  induction f with
  | and a b iha ihb => simp [mapTests, tests, iha, ihb]
  | or a b iha ihb => simp [mapTests, tests, iha, ihb]
  | not a ih => simp [mapTests, tests, ih]
  | test property t => rfl

theorem layout_mapTests (asked : Test → List Char) (change : Test → Test) (f : Filter) :
    (f.mapTests change).layout asked = f.layout fun t ↦ asked (change t) := by
  induction f with
  | and a b iha ihb => simp only [mapTests, layout, iha, ihb]
  | or a b iha ihb => simp only [mapTests, layout, iha, ihb]
  | not a ih => simp only [mapTests, layout, ih]
  | test property t => rfl

theorem layout_congr {asked asked' : Test → List Char} {f : Filter}
    (h : ∀ p ∈ f.tests, asked p.2 = asked' p.2) : f.layout asked = f.layout asked' := by
  induction f with
  | and a b iha ihb =>
    rw [tests, List.forall_mem_append] at h
    rw [layout, layout, iha h.1, ihb h.2]
  | or a b iha ihb =>
    rw [tests, List.forall_mem_append] at h
    rw [layout, layout, iha h.1, ihb h.2]
  | not a ih => rw [layout, layout, ih h]
  | test property t => rw [layout, layout, h (property, t) (by simp [tests])]

/-- What the texts of the tests add to the length of a laid out text. -/
theorem exists_length_layout (f : Filter) : ∃ frame, ∀ asked : Test → List Char,
    (f.layout asked).length = frame + (f.tests.map fun p ↦ (asked p.2).length).sum := by
  induction f with
  | and a b iha ihb =>
    obtain ⟨frame, ha⟩ := iha
    obtain ⟨frame', hb⟩ := ihb
    refine ⟨frame + frame' + 7, ?_⟩
    intro asked
    simp [layout, tests, ha, hb]
    omega
  | or a b iha ihb =>
    obtain ⟨frame, ha⟩ := iha
    obtain ⟨frame', hb⟩ := ihb
    refine ⟨frame + frame' + 6, ?_⟩
    intro asked
    simp [layout, tests, ha, hb]
    omega
  | not a ih =>
    obtain ⟨frame, ha⟩ := ih
    refine ⟨frame + 5, ?_⟩
    intro asked
    simp [layout, tests, ha]
    omega
  | test property t =>
    refine ⟨property.toList.length + 1, ?_⟩
    intro asked
    simp [layout, tests]
    omega

theorem height_le_nesting (f : Filter) : f.height ≤ f.nesting + 1 := by
  induction f with
  | and a b iha ihb => simp only [height, nesting]; omega
  | or a b iha ihb => simp only [height, nesting]; omega
  | not a ih => simp only [height, nesting]; omega
  | test property t => exact Nat.le_refl 1

/-- Text that the grammar takes for a test of a property. -/
def AsksFor (text : List Char) (t : Test) : Prop :=
  ∃ own asked, Asked own asked ∧ withoutRepeats asked = t ∧ Writes text own

theorem isName_not : Lexeme.IsName "not".toList := .of_isSegment rfl

theorem isName_and : Lexeme.IsName "and".toList := .of_isSegment rfl

theorem isName_or : Lexeme.IsName "or".toList := .of_isSegment rfl

/-- Lexemes that are a term wherever no operator follows them. -/
def IsTerm (budget : Nat) (ls : List Lexeme) (f : Filter) : Prop :=
  ∀ rest : List Lexeme, (∀ l ∈ rest.head?, ¬ IsOperator l) →
    ∃ depth ≤ budget, Derives .term depth (ls ++ rest) rest f

theorem not_isOperator_closeParen (rest : List Lexeme) :
    ∀ l ∈ (Lexeme.closeParen :: rest).head?, ¬ IsOperator l := by
  simp [IsOperator]

/-- Alternatives in parentheses are a term. -/
theorem isTerm_group {budget : Nat} {ls : List Lexeme} {f : Filter}
    (h : ∀ rest, ∃ depth ≤ budget,
      Derives .alternatives depth (ls ++ .closeParen :: rest) (.closeParen :: rest) f) :
    IsTerm (budget + 1) (.openParen :: (ls ++ [.closeParen])) f := by
  intro rest _
  obtain ⟨depth, hdepth, hderives⟩ := h rest
  refine ⟨depth + 1, by omega, ?_⟩
  rw [List.cons_append, List.append_assoc]
  exact .group hderives

theorem isTerm_not {budget : Nat} {ls : List Lexeme} {f : Filter} (h : IsTerm budget ls f) :
    IsTerm (budget + 2) (.word "not" :: .openParen :: (ls ++ [.closeParen])) (.not f) := by
  intro rest hrest
  have hgroup : IsTerm (budget + 1) (.openParen :: (ls ++ [.closeParen])) f :=
    isTerm_group fun rest ↦ by
      obtain ⟨depth, hdepth, hterm⟩ := h _ (not_isOperator_closeParen rest)
      exact ⟨depth, hdepth, .conjunction (.term hterm)⟩
  obtain ⟨depth, hdepth, hterm⟩ := hgroup rest hrest
  refine ⟨depth + 1, by omega, ?_⟩
  rw [List.cons_append]
  refine .negation (by decide) ?_ hterm
  rw [List.cons_append, namesProperty_cons_iff]
  intro hnames
  exact absurd hnames.1 (not_isOperator_of_ne nofun)

theorem isTerm_and {budget budget' : Nat} {ls ls' : List Lexeme} {f g : Filter}
    (h : IsTerm budget ls f) (h' : IsTerm budget' ls' g) :
    IsTerm (max budget budget' + 1)
      (.openParen :: (ls ++ .word "and" :: ls' ++ [.closeParen])) (.and f g) := by
  apply isTerm_group
  intro rest
  obtain ⟨depth', hdepth', hright⟩ := h' _ (not_isOperator_closeParen rest)
  obtain ⟨depth, hdepth, hleft⟩ := h (.word "and" :: (ls' ++ .closeParen :: rest)) fun l hl ↦ by
    cases hl
    decide
  refine ⟨max depth depth', by omega, ?_⟩
  rw [List.append_assoc, List.cons_append]
  exact .conjunction (.and (.term hleft) (by decide) hright)

theorem isTerm_or {budget budget' : Nat} {ls ls' : List Lexeme} {f g : Filter}
    (h : IsTerm budget ls f) (h' : IsTerm budget' ls' g) :
    IsTerm (max budget budget' + 1)
      (.openParen :: (ls ++ .word "or" :: ls' ++ [.closeParen])) (.or f g) := by
  apply isTerm_group
  intro rest
  obtain ⟨depth', hdepth', hright⟩ := h' _ (not_isOperator_closeParen rest)
  obtain ⟨depth, hdepth, hleft⟩ := h (.word "or" :: (ls' ++ .closeParen :: rest)) fun l hl ↦ by
    cases hl
    decide
  refine ⟨max depth depth', by omega, ?_⟩
  rw [List.append_assoc, List.cons_append]
  exact .or (.conjunction (.term hleft)) (by decide) (.term hright)

theorem isTerm_test {property : String} {own : List Lexeme} {t : Test} (h : Asked own t) :
    IsTerm 0 (.word property :: own) (.test property (withoutRepeats t)) :=
  fun _ hrest ↦ ⟨0, Nat.le_refl 0, .test h fun _ ↦ namesProperty_of_asked h hrest⟩

/-- The lexemes of a laid out tree whose tests are asked for. -/
inductive LaidOut : Filter → List Lexeme → Prop
  | and {f g : Filter} {ls ls' : List Lexeme} (hleft : LaidOut f ls) (hright : LaidOut g ls') :
      LaidOut (.and f g) (.openParen :: (ls ++ .word "and" :: ls' ++ [.closeParen]))
  | or {f g : Filter} {ls ls' : List Lexeme} (hleft : LaidOut f ls) (hright : LaidOut g ls') :
      LaidOut (.or f g) (.openParen :: (ls ++ .word "or" :: ls' ++ [.closeParen]))
  | not {f : Filter} {ls : List Lexeme} (h : LaidOut f ls) :
      LaidOut (.not f) (.word "not" :: .openParen :: (ls ++ [.closeParen]))
  | test {property : String} {own : List Lexeme} {t : Test} (h : Asked own t) :
      LaidOut (.test property (withoutRepeats t)) (.word property :: own)

/-- The lexemes of a laid out tree are a term. -/
theorem LaidOut.isTerm {f : Filter} {ls : List Lexeme} (h : LaidOut f ls) :
    IsTerm f.nesting ls f := by
  induction h with
  | and _ _ hleft hright => exact isTerm_and hleft hright
  | or _ _ hleft hright => exact isTerm_or hleft hright
  | not _ h => exact isTerm_not h
  | test h => exact isTerm_test h

/-- A laid out text writes the lexemes of its tree. -/
theorem exists_laidOut_layout {asked : Test → List Char} {change : Test → Test} {f : Filter}
    (hnames : ∀ p ∈ f.tests, Lexeme.IsName p.1.toList)
    (hasked : ∀ p ∈ f.tests, AsksFor (asked p.2) (change p.2)) :
    ∃ ls, Writes (f.layout asked) ls ∧ LaidOut (f.mapTests change) ls := by
  induction f with
  | and a b iha ihb =>
    simp only [tests, List.forall_mem_append] at hnames hasked
    obtain ⟨ls, hls, hleft⟩ := iha hnames.1 hasked.1
    obtain ⟨ls', hls', hright⟩ := ihb hnames.2 hasked.2
    refine ⟨_, ?_, .and hleft hright⟩
    simpa [layout] using (hls.space ((writes_word isName_and).space hls')).parens
  | or a b iha ihb =>
    simp only [tests, List.forall_mem_append] at hnames hasked
    obtain ⟨ls, hls, hleft⟩ := iha hnames.1 hasked.1
    obtain ⟨ls', hls', hright⟩ := ihb hnames.2 hasked.2
    refine ⟨_, ?_, .or hleft hright⟩
    simpa [layout] using (hls.space ((writes_word isName_or).space hls')).parens
  | not a ih =>
    obtain ⟨ls, hls, hoperand⟩ := ih hnames hasked
    refine ⟨_, ?_, .not hoperand⟩
    have hwrites := (writes_word isName_not).append hls.parens fun _ _ ↦
      Lexeme.boundary_openParen _
    simpa [layout] using hwrites
  | test property t =>
    obtain ⟨own, raw, hown, hraw, hwrites⟩ := hasked (property, t) (by simp [tests])
    have hname := writes_word (hnames (property, t) (by simp [tests]))
    refine ⟨_, hname.space hwrites, ?_⟩
    rw [mapTests, ← hraw]
    exact .test hown

/-- A text is parsed as what its lexemes are an expression for. -/
theorem parse_eq_ok_iff_of_writes {text : List Char} {ls : List Lexeme} (h : Writes text ls)
    (f : Filter) : parse (String.ofList text) = .ok f ↔ IsExpression ls f := by
  obtain ⟨tokens, htokens, rfl⟩ := h.lexes .start
  have htext : (Cursor.ofText (String.ofList text).toList).tokens = .ok tokens := by
    rw [String.toList_ofList]
    exact htokens
  exact parse_eq_ok_iff htext f

/-- A laid out filter that is not nested too deep is parsed as the tree with the tests that its
texts ask for. -/
theorem parse_layout {asked : Test → List Char} {change : Test → Test} {f : Filter}
    (hnames : ∀ p ∈ f.tests, Lexeme.IsName p.1.toList)
    (hasked : ∀ p ∈ f.tests, AsksFor (asked p.2) (change p.2)) (hnesting : f.nesting ≤ 256) :
    parse (String.ofList (f.layout asked)) = .ok (f.mapTests change) := by
  obtain ⟨ls, hwrites, hlaidOut⟩ := exists_laidOut_layout hnames hasked
  obtain ⟨depth, hdepth, hderives⟩ := hlaidOut.isTerm [] (by simp)
  rw [nesting_mapTests] at hdepth
  rw [List.append_nil] at hderives
  rw [parse_eq_ok_iff_of_writes hwrites]
  refine ⟨⟨depth, by omega, .conjunction (.term hderives)⟩, ?_⟩
  have hheight := height_le_nesting f
  rw [height_mapTests]
  omega

end Filter

end PropertyFilter
