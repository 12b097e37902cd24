import PropertyFilter.Dialect.Query
import PropertyFilter.Proofs.Dialect.Graph.Literals
import PropertyFilter.Proofs.Filter.Checked

/-!
# Query parameters are read in one way

Two filters have one text as query parameters exactly if they are the same tree but for what the
text does not show: presence and a difference from nothing are written alike, and so are the values
that have one literal (`query_graph_eq_iff`).

Every text starts with a bare word and a mark, a blank or a parenthesis, so the kind of the filter
is known from its start (`start_append_inj`): a group starts with a parenthesis, a negation with the
word for it and a parenthesis, a call with the name of its function and a parenthesis, and any other
test with a property and a blank, also where the property has one of these names. What is between
two such starts is told apart wherever it stands in a text (`readOnce_of_legible`).
-/

set_option autoImplicit false

namespace PropertyFilter.Graph

open Lexeme (Boundary IsName)

/-! ### Trees of one text -/

/-- One test, but for values of one literal and for the two ways to ask for presence. -/
inductive SameTest : Test → Test → Prop
  | equals {v w : Option Value} (h : Option.Rel SameValue v w) : SameTest (.equals v) (.equals w)
  | differs {v w : Option Value} (h : Option.Rel SameValue v w) :
      SameTest (.differs v) (.differs w)
  | ordered (relation : Relation) {v w : Value} (h : SameValue v w) :
      SameTest (.ordered relation v) (.ordered relation w)
  | text (test : TextTest) (pattern : String) : SameTest (.text test pattern) (.text test pattern)
  | present : SameTest .present .present
  | presentDiffers : SameTest .present (.differs none)
  | differsPresent : SameTest (.differs none) .present
  | oneOf {vs ws : List Value} (h : List.Forall₂ SameValue vs ws) :
      SameTest (.oneOf vs) (.oneOf ws)

/-- One tree of the same properties, but for what is the same in its tests. -/
inductive SameTree : Filter → Filter → Prop
  | and {a b c d : Filter} (hleft : SameTree a c) (hright : SameTree b d) :
      SameTree (.and a b) (.and c d)
  | or {a b c d : Filter} (hleft : SameTree a c) (hright : SameTree b d) :
      SameTree (.or a b) (.or c d)
  | not {a b : Filter} (h : SameTree a b) : SameTree (.not a) (.not b)
  | test (property : String) {t u : Test} (h : SameTest t u) :
      SameTree (.test property t) (.test property u)

theorem optionLiteral_eq_of_same {v w : Option Value} (h : Option.Rel SameValue v w) :
    optionLiteral v = optionLiteral w := by
  cases h with
  | none => rfl
  | some h => exact h.literal_eq

theorem SameTest.predicate_eq {t u : Test} (h : SameTest t u) (property : String) :
    predicate property t = predicate property u := by
  cases h with
  | equals h => rw [predicate, predicate, optionLiteral_eq_of_same h]
  | differs h => rw [predicate, predicate, optionLiteral_eq_of_same h]
  | ordered relation h => rw [predicate, predicate, h.literal_eq]
  | text => rfl
  | present => rfl
  | presentDiffers => rfl
  | differsPresent => rfl
  | oneOf h => rw [predicate, predicate, literals_eq_of_sameValues h]

theorem SameTree.query_eq {f g : Filter} (h : SameTree f g) : query f = query g := by
  induction h with
  | and _ _ ihleft ihright => simp only [query, ihleft, ihright]
  | or _ _ ihleft ihright => simp only [query, ihleft, ihright]
  | not _ ih => simp only [query, ih]
  | test property h => exact h.predicate_eq property

/-! ### Starts -/

/-- The word between the property and the operand of a test that is no call. -/
def operator : Test → String
  | .equals _ => "eq"
  | .differs _ => "ne"
  | .ordered relation _ => relation.keyword
  | .text test _ => functionName test
  | .present => "ne"
  | .oneOf _ => "in"

/-- What a test that is no call compares its property with. -/
def operand : Test → List Char
  | .equals v => optionLiteral v
  | .differs v => optionLiteral v
  | .ordered _ bound => literal bound
  | .text _ pattern => quoted pattern
  | .present => optionLiteral none
  | .oneOf vs => '(' :: (literals vs ++ [')'])

/-- The first word of a filter and the mark after it. -/
def start : Filter → List Char × Char
  | .and _ _ => ([], '(')
  | .or _ _ => ([], '(')
  | .not _ => ("not".toList, '(')
  | .test _ (.text test _) => ((functionName test).toList, '(')
  | .test property _ => (property.toList, ' ')

/-- What stands after the mark. -/
def remainder : Filter → List Char
  | .and a b => query a ++ ' ' :: ("and".toList ++ ' ' :: (query b ++ [')']))
  | .or a b => query a ++ ' ' :: ("or".toList ++ ' ' :: (query b ++ [')']))
  | .not a => query a ++ [')']
  | .test property (.text _ pattern) =>
    property.toList ++ ',' :: ' ' :: (quoted pattern ++ [')'])
  | .test _ t => (operator t).toList ++ ' ' :: operand t

theorem query_eq_start (f : Filter) :
    query f = (start f).1 ++ (start f).2 :: remainder f := by
  cases f with
  | test property t => cases t <;> simp [query, predicate, start, remainder, operator, operand]
  | _ => simp [query, start, remainder]

/-- Properties have names, and tests are sound. -/
def Legible (f : Filter) : Prop := ∀ p ∈ f.tests, IsName p.1.toList ∧ p.2.WellFormed

theorem bare_functionName (test : TextTest) : Bare (functionName test).toList := by
  rw [Bare, ← List.all_eq_true]
  cases test <;> decide

theorem bare_start {f : Filter} (hf : Legible f) : Bare (start f).1 := by
  cases f with
  | and a b => exact nofun
  | or a b => exact nofun
  | not a => exact bare_of_isName Filter.isName_not
  | test property t =>
    have hname : IsName property.toList := (hf (property, t) (by simp [Filter.tests])).1
    cases t with
    | text test pattern => exact bare_functionName test
    | _ => exact bare_of_isName hname

theorem boundary_mark (f : Filter) (rest : List Char) : Boundary ((start f).2 :: rest) := by
  cases f with
  | test property t =>
    cases t with
    | text test pattern => exact Lexeme.boundary_openParen rest
    | _ => exact Lexeme.boundary_blank rest
  | _ => exact Lexeme.boundary_openParen rest

/-- Two texts that are equal have equal starts. -/
theorem start_append_inj {f g : Filter} (hf : Legible f) (hg : Legible g) {rest rest' : List Char}
    (h : query f ++ rest = query g ++ rest') :
    start f = start g ∧ remainder f ++ rest = remainder g ++ rest' := by
  rw [query_eq_start f, query_eq_start g, List.append_assoc, List.append_assoc,
    List.cons_append, List.cons_append] at h
  obtain ⟨hword, hothers⟩ :=
    bare_append_inj (bare_start hf) (bare_start hg) (boundary_mark f _) (boundary_mark g _) h
  obtain ⟨hmark, hremainder⟩ := List.cons.inj hothers
  exact ⟨Prod.ext hword hmark, hremainder⟩

/-! ### Tests -/

theorem start_test (property : String) (t : Test) :
    (∃ test pattern, t = .text test pattern) ∨
      start (.test property t) = (property.toList, ' ') ∧
        remainder (.test property t) = (operator t).toList ++ ' ' :: operand t := by
  cases t with
  | text test pattern => exact .inl ⟨test, pattern, rfl⟩
  | _ => exact .inr ⟨rfl, rfl⟩

theorem bare_operator (t : Test) : Bare (operator t).toList := by
  have hword (word : String) (h : Lexeme.isSegment word.toList = true) : Bare word.toList :=
    bare_of_isName (.of_isSegment h)
  cases t with
  | equals v => exact hword "eq" rfl
  | differs v => exact hword "ne" rfl
  | ordered relation bound => exact bare_of_isName (isName_relation relation)
  | text test pattern => exact bare_functionName test
  | present => exact hword "ne" rfl
  | oneOf vs => exact hword "in" rfl

/-- The operator that the word of a test stands for. Presence has the word for a difference. -/
def writtenOperator : Test → Operator
  | .equals _ => .equals
  | .differs _ => .differs
  | .ordered relation _ => .ordered relation
  | .text test _ => .text test
  | .present => .differs
  | .oneOf _ => .oneOf

theorem ofWord?_functionName (test : TextTest) :
    Operator.ofWord? (functionName test) = some (.text test) := by
  cases test <;> decide

theorem ofWord?_operator (t : Test) : Operator.ofWord? (operator t) = some (writtenOperator t) := by
  cases t with
  | equals v => exact (by decide : Operator.ofWord? "eq" = some .equals)
  | differs v => exact (by decide : Operator.ofWord? "ne" = some .differs)
  | ordered relation bound =>
    exact (Operator.ofWord?_eq_some_iff _ _).mpr (spells_relation relation)
  | text test pattern => exact ofWord?_functionName test
  | present => exact (by decide : Operator.ofWord? "ne" = some .differs)
  | oneOf vs => exact (by decide : Operator.ofWord? "in" = some .oneOf)

/-- Operators of one word are one, presence and difference apart. -/
theorem writtenOperator_eq {t u : Test} (h : operator t = operator u) :
    writtenOperator t = writtenOperator u := by
  have hword := ofWord?_operator t
  rw [h, ofWord?_operator u] at hword
  exact (Option.some.inj hword).symm

/-- Operands are told apart, given the operator. -/
theorem operand_append_inj {t u : Test} (ht : t.WellFormed) (hu : u.WellFormed)
    {rest rest' : List Char} (hrest : Boundary rest) (hrest' : Boundary rest')
    (hoperator : writtenOperator t = writtenOperator u)
    (h : operand t ++ rest = operand u ++ rest') : SameTest t u ∧ rest = rest' := by
  -- of two kinds of tests only presence and difference have one operator
  cases t <;> cases u <;> simp only [writtenOperator, reduceCtorEq, Operator.ordered.injEq,
    Operator.text.injEq] at hoperator
  case equals.equals v w =>
    obtain ⟨hsame, hrests⟩ := optionLiteral_append_inj ht hu hrest hrest' h
    exact ⟨.equals hsame, hrests⟩
  case differs.differs v w =>
    obtain ⟨hsame, hrests⟩ := optionLiteral_append_inj ht hu hrest hrest' h
    exact ⟨.differs hsame, hrests⟩
  case differs.present v =>
    obtain ⟨hsame, hrests⟩ := optionLiteral_append_inj (w := none) ht nofun hrest hrest' h
    cases hsame
    exact ⟨.differsPresent, hrests⟩
  case present.differs w =>
    obtain ⟨hsame, hrests⟩ := optionLiteral_append_inj (v := none) nofun hu hrest hrest' h
    cases hsame
    exact ⟨.presentDiffers, hrests⟩
  case present.present => exact ⟨.present, List.append_cancel_left h⟩
  case ordered.ordered relation v relation' w =>
    obtain ⟨hsame, hrests⟩ := literal_append_inj ht hu hrest hrest' h
    exact ⟨hoperator ▸ .ordered relation hsame, hrests⟩
  case text.text test pattern test' pattern' =>
    obtain ⟨rfl, hrests⟩ := quoted_append_inj hrest hrest' h
    exact ⟨hoperator ▸ .text test pattern, hrests⟩
  case oneOf.oneOf vs ws =>
    have hlists : literals vs ++ ')' :: rest = literals ws ++ ')' :: rest' := by
      simpa [operand] using h
    obtain ⟨hsame, hrests⟩ := literals_append_inj ht.1 hu.1 ht.2.1 hu.2.1 hlists
    exact ⟨.oneOf hsame, hrests⟩

/-- Tests that start alike are told apart by what follows. -/
theorem remainder_test_append_inj {property property' : String} {t u : Test}
    (hproperty : IsName property.toList) (hproperty' : IsName property'.toList)
    (ht : t.WellFormed) (hu : u.WellFormed) {rest rest' : List Char} (hrest : Boundary rest)
    (hrest' : Boundary rest') (hstart : start (.test property t) = start (.test property' u))
    (h : remainder (.test property t) ++ rest = remainder (.test property' u) ++ rest') :
    SameTree (.test property t) (.test property' u) ∧ rest = rest' := by
  rcases start_test property t with ⟨test, pattern, rfl⟩ | ⟨hs, hr⟩
  · rcases start_test property' u with ⟨test', pattern', rfl⟩ | ⟨hs', -⟩
    · have hfunction : functionName test = functionName test' :=
        String.toList_inj.mp (congrArg Prod.fst hstart)
      have hcall : property.toList ++ ',' :: ' ' :: (quoted pattern ++ ')' :: rest) =
          property'.toList ++ ',' :: ' ' :: (quoted pattern' ++ ')' :: rest') := by
        simpa [remainder] using h
      obtain ⟨hname, hothers⟩ := bare_append_inj (bare_of_isName hproperty)
        (bare_of_isName hproperty') (Lexeme.boundary_comma _) (Lexeme.boundary_comma _) hcall
      have hpatterns : quoted pattern ++ ')' :: rest = quoted pattern' ++ ')' :: rest' := by
        simpa using hothers
      obtain ⟨hsame, hrests⟩ := operand_append_inj (t := .text test pattern)
        (u := .text test' pattern') trivial trivial (Lexeme.boundary_closeParen _)
        (Lexeme.boundary_closeParen _) (writtenOperator_eq hfunction) hpatterns
      obtain rfl := String.toList_inj.mp hname
      exact ⟨.test property hsame, (List.cons.inj hrests).2⟩
    · rw [hs'] at hstart
      cases congrArg Prod.snd hstart
  · rcases start_test property' u with ⟨test', pattern', rfl⟩ | ⟨hs', hr'⟩
    · rw [hs] at hstart
      cases congrArg Prod.snd hstart
    · rw [hs, hs'] at hstart
      obtain rfl := String.toList_inj.mp (congrArg Prod.fst hstart)
      rw [hr, hr', List.append_assoc, List.append_assoc, List.cons_append, List.cons_append] at h
      obtain ⟨hword, hothers⟩ := bare_append_inj (bare_operator t) (bare_operator u)
        (Lexeme.boundary_blank _) (Lexeme.boundary_blank _) h
      have hoperator := writtenOperator_eq (String.toList_inj.mp hword)
      obtain ⟨hsame, hrests⟩ :=
        operand_append_inj ht hu hrest hrest' hoperator (List.cons.inj hothers).2
      exact ⟨.test property hsame, hrests⟩

/-! ### Filters -/

/-- Wherever texts start with this filter and with another one, they are one tree. -/
def ReadOnce (f : Filter) : Prop :=
  ∀ (g : Filter) (rest rest' : List Char), Legible g → Boundary rest → Boundary rest' →
    query f ++ rest = query g ++ rest' → SameTree f g ∧ rest = rest'

/-- Two operands with a word between them. -/
inductive IsGroup : String → Filter → Filter → Filter → Prop
  | and (a b : Filter) : IsGroup "and" a b (.and a b)
  | or (a b : Filter) : IsGroup "or" a b (.or a b)

namespace IsGroup

variable {word : String} {a b c d f g : Filter}

theorem isName_word (h : IsGroup word a b f) : IsName word.toList := by
  cases h with
  | and => exact Filter.isName_and
  | or => exact Filter.isName_or

theorem start_eq (h : IsGroup word a b f) : start f = ([], '(') := by
  cases h with
  | and => rfl
  | or => rfl

theorem remainder_append (h : IsGroup word a b f) (rest : List Char) : remainder f ++ rest =
    query a ++ ' ' :: (word.toList ++ ' ' :: (query b ++ ')' :: rest)) := by
  cases h with
  | and => simp [remainder]
  | or => simp [remainder]

theorem legible (h : IsGroup word a b f) (hf : Legible f) : Legible a ∧ Legible b := by
  cases h with
  | and => exact List.forall_mem_append.mp hf
  | or => exact List.forall_mem_append.mp hf

theorem sameTree {word' : String} (h : IsGroup word a b f) (h' : IsGroup word' c d g)
    (hword : word = word') (hleft : SameTree a c) (hright : SameTree b d) : SameTree f g := by
  cases h with
  | and =>
    cases h' with
    | and => exact .and hleft hright
    | or => exact absurd hword (by decide)
  | or =>
    cases h' with
    | and => exact absurd hword (by decide)
    | or => exact .or hleft hright

end IsGroup

theorem remainder_not_append (a : Filter) (rest : List Char) :
    remainder (.not a) ++ rest = query a ++ ')' :: rest := by
  simp [remainder]

theorem filter_cases (f : Filter) :
    (∃ word a b, IsGroup word a b f) ∨ (∃ a, f = .not a) ∨ ∃ property t, f = .test property t := by
  cases f with
  | and a b => exact .inl ⟨_, _, _, .and a b⟩
  | or a b => exact .inl ⟨_, _, _, .or a b⟩
  | not a => exact .inr (.inl ⟨a, rfl⟩)
  | test property t => exact .inr (.inr ⟨property, t, rfl⟩)

theorem isName_of_legible {property : String} {t : Test} (h : Legible (.test property t)) :
    IsName property.toList ∧ t.WellFormed :=
  h (property, t) (by simp [Filter.tests])

/-- A test starts neither as a group nor as a negation, not even if `not` is its property. -/
theorem start_test_ne {property : String} {t : Test} (h : Legible (.test property t)) :
    start (.test property t) ≠ ([], '(') ∧ start (.test property t) ≠ ("not".toList, '(') := by
  rcases start_test property t with ⟨test, pattern, rfl⟩ | ⟨hs, -⟩
  · simp only [start]
    cases test <;> decide
  · rw [hs]
    exact ⟨by simp, by simp⟩

variable {f : Filter}

/-- A group is told apart by its operands and the word between them. -/
theorem readOnce_group {word : String} {a b : Filter} (hgroup : IsGroup word a b f)
    (ha : ReadOnce a) (hb : ReadOnce b) (hf : Legible f) : ReadOnce f := by
  intro g rest rest' hg hrest hrest' h
  obtain ⟨hstart, hremainder⟩ := start_append_inj hf hg h
  rw [hgroup.start_eq] at hstart
  rcases filter_cases g with ⟨word', c, d, hgroup'⟩ | ⟨c, rfl⟩ | ⟨property, t, rfl⟩
  · rw [hgroup.remainder_append, hgroup'.remainder_append] at hremainder
    obtain ⟨hc, hd⟩ := hgroup'.legible hg
    obtain ⟨hleft, hothers⟩ :=
      ha c _ _ hc (Lexeme.boundary_blank _) (Lexeme.boundary_blank _) hremainder
    obtain ⟨hword, hoperand⟩ := bare_append_inj (bare_of_isName hgroup.isName_word)
      (bare_of_isName hgroup'.isName_word) (Lexeme.boundary_blank _) (Lexeme.boundary_blank _)
      (List.cons.inj hothers).2
    obtain ⟨hright, hclosed⟩ := hb d _ _ hd (Lexeme.boundary_closeParen _)
      (Lexeme.boundary_closeParen _) (List.cons.inj hoperand).2
    have hsame := hgroup.sameTree hgroup' (String.toList_inj.mp hword) hleft hright
    exact ⟨hsame, (List.cons.inj hclosed).2⟩
  · simp [start] at hstart
  · exact absurd hstart.symm (start_test_ne hg).1

/-- A negation is told apart by its operand. -/
theorem readOnce_not {a : Filter} (ha : ReadOnce a) (hf : Legible (.not a)) :
    ReadOnce (.not a) := by
  intro g rest rest' hg hrest hrest' h
  obtain ⟨hstart, hremainder⟩ := start_append_inj hf hg h
  rcases filter_cases g with ⟨word', c, d, hgroup'⟩ | ⟨c, rfl⟩ | ⟨property, t, rfl⟩
  · rw [hgroup'.start_eq] at hstart
    simp [start] at hstart
  · rw [remainder_not_append, remainder_not_append] at hremainder
    obtain ⟨hsame, hclosed⟩ := ha c _ _ hg (Lexeme.boundary_closeParen _)
      (Lexeme.boundary_closeParen _) hremainder
    exact ⟨.not hsame, (List.cons.inj hclosed).2⟩
  · exact absurd hstart.symm (start_test_ne hg).2

theorem readOnce_test {property : String} {t : Test} (hf : Legible (.test property t)) :
    ReadOnce (.test property t) := by
  intro g rest rest' hg hrest hrest' h
  obtain ⟨hstart, hremainder⟩ := start_append_inj hf hg h
  rcases filter_cases g with ⟨word', c, d, hgroup'⟩ | ⟨c, rfl⟩ | ⟨property', u, rfl⟩
  · rw [hgroup'.start_eq] at hstart
    exact absurd hstart (start_test_ne hf).1
  · exact absurd hstart (start_test_ne hf).2
  · obtain ⟨hproperty, ht⟩ := isName_of_legible hf
    obtain ⟨hproperty', hu⟩ := isName_of_legible hg
    exact remainder_test_append_inj hproperty hproperty' ht hu hrest hrest' hstart hremainder

/-- Every filter is told apart from every other one, wherever it stands in a text. -/
theorem readOnce_of_legible (hf : Legible f) : ReadOnce f := by
  induction f with
  | and a b iha ihb =>
    obtain ⟨ha, hb⟩ := (IsGroup.and a b).legible hf
    exact readOnce_group (.and a b) (iha ha) (ihb hb) hf
  | or a b iha ihb =>
    obtain ⟨ha, hb⟩ := (IsGroup.or a b).legible hf
    exact readOnce_group (.or a b) (iha ha) (ihb hb) hf
  | not a ih => exact readOnce_not (ih hf) hf
  | test property t => exact readOnce_test hf

/-! ### Query parameters -/

theorem legible_of_wellFormed (hnames : ∀ p ∈ f.tests, IsName p.1.toList) (hf : f.WellFormed) :
    Legible f :=
  fun p hp ↦ ⟨hnames p hp, ((Filter.wellFormed_iff f).mp hf p hp).2⟩

theorem query_graph_eq (f : Filter) : f.query .graph = .ok (String.ofList (query f)) := rfl

/-- Filters whose properties have names and whose tests are sound have one text as query parameters
exactly if they are one tree, but for what the text does not show: presence against a difference
from nothing, and values of one literal against each other. -/
theorem query_graph_eq_iff {f g : Filter} (hfnames : ∀ p ∈ f.tests, IsName p.1.toList)
    (hgnames : ∀ p ∈ g.tests, IsName p.1.toList) (hf : f.WellFormed) (hg : g.WellFormed) :
    f.query .graph = g.query .graph ↔ SameTree f g := by
  have hlegible := legible_of_wellFormed hfnames hf
  have hlegible' := legible_of_wellFormed hgnames hg
  rw [query_graph_eq, query_graph_eq, Except.ok.injEq, String.ofList_inj]
  constructor
  · intro h
    have happend : query f ++ [] = query g ++ [] := congrArg (· ++ []) h
    exact (readOnce_of_legible hlegible g [] [] hlegible' Lexeme.boundary_nil
      Lexeme.boundary_nil happend).1
  · exact SameTree.query_eq

/-- A property called `not` beside a choice with a text that reads as the end of a list. -/
theorem query_graph_eq_iff_not :
    (Filter.not (.and (.test "not" .present)
        (.test "a" (.oneOf [.string "b\", \"c)", .bigInt 7])))).query .graph =
      (Filter.not (.and (.test "not" (.differs none))
        (.test "a" (.oneOf [.string "b\", \"c)", .int 7])))).query .graph ∧
    SameTree
      (.not (.and (.test "not" .present)
        (.test "a" (.oneOf [.string "b\", \"c)", .bigInt 7]))))
      (.not (.and (.test "not" (.differs none))
        (.test "a" (.oneOf [.string "b\", \"c)", .int 7])))) := by
  have hnames (s t : Test) : ∀ p ∈ (Filter.not (.and (.test "not" s) (.test "a" t))).tests,
      IsName p.1.toList := by
    simp only [Filter.tests, List.cons_append, List.nil_append, List.forall_mem_cons]
    exact ⟨Filter.isName_not, .of_isSegment rfl, by simp⟩
  have hpresent : (Filter.test "not" .present).WellFormed := ⟨by decide, trivial⟩
  have hdiffers : (Filter.test "not" (.differs none)).WellFormed :=
    ⟨by decide, by simp [Test.WellFormed]⟩
  have hchoice (v : Value) (hv : v.isUsable = true)
      (hne : (Value.string "b\", \"c)").same v = false) :
      (Filter.test "a" (.oneOf [.string "b\", \"c)", v])).WellFormed := by
    refine ⟨by decide, by simp, ?_, by simpa [Test.Distinct] using hne⟩
    simpa [Value.isUsable] using hv
  have hiff := query_graph_eq_iff (hnames _ _) (hnames _ _)
    ⟨hpresent, hchoice (.bigInt 7) rfl rfl⟩ ⟨hdiffers, hchoice (.int 7) rfl rfl⟩
  have hsame : (Filter.not (.and (.test "not" .present)
      (.test "a" (.oneOf [.string "b\", \"c)", .bigInt 7])))).query .graph =
    (Filter.not (.and (.test "not" (.differs none))
      (.test "a" (.oneOf [.string "b\", \"c)", .int 7])))).query .graph := rfl
  exact ⟨hsame, hiff.mp hsame⟩

end PropertyFilter.Graph
