import PropertyFilter.Proofs.Filter.Nesting
import PropertyFilter.Proofs.Filter.RoundTrip

/-!
# Parsing the canonical text of what was parsed

What is parsed has names for properties and literals for values (`Filter.hasLiterals_of_parse`), so
there is one thing only that can keep its canonical text from being parsed again: groups and
negations nest deeper in that text than in the one it came from, since each connective gets
parentheses of its own and a negation counts twice. The text is parsed as the same filter exactly if
this nesting keeps to the limit, and never as another filter
(`Filter.parse_text_iff_nesting_of_parse`).
-/

set_option autoImplicit false

namespace PropertyFilter

namespace Expression

/-! ### What tests are made of -/

theorem hasLiteral_ofInt (i : Int) : (Value.ofInt i).HasLiteral := by
  rw [Value.ofInt]
  split
  · trivial
  · next hwide => exact Bool.eq_false_of_not_eq_true hwide

/-- A value that a lawful lexeme writes has a literal. -/
theorem hasLiteral_of_scalar {l : Lexeme} {v : Value} (h : Scalar l (some v))
    (hlawful : l.IsLawful) : v.HasLiteral := by
  cases h with
  | string => trivial
  | uuid => trivial
  | integer value => exact hasLiteral_ofInt value
  | decimal => exact hlawful
  | yes => trivial
  | no => trivial

theorem hasLiteral_of_optionalScalar {l : Lexeme} {v : Option Value} (h : Scalar l v)
    (hlawful : l.IsLawful) : ∀ w ∈ v, w.HasLiteral := by
  rintro w rfl
  exact hasLiteral_of_scalar h hlawful

theorem eraseDupsBy_same_cons (v : Value) (vs : List Value) :
    (v :: vs).eraseDupsBy (fun v kept ↦ kept.same v) =
      v :: (vs.filter fun w ↦ decide (v.same w = false)).eraseDupsBy
        fun v kept ↦ kept.same v :=
  List.eraseDupsBy_cons

theorem sublist_eraseDupsBy (vs : List Value) :
    List.Sublist (vs.eraseDupsBy fun v kept ↦ kept.same v) vs := by
  match vs with
  | [] => exact .slnil
  | v :: vs =>
    rw [eraseDupsBy_same_cons]
    exact ((sublist_eraseDupsBy _).trans List.filter_sublist).cons_cons v
termination_by vs.length
decreasing_by
  exact Nat.lt_succ_of_le (List.length_filter_le _ _)

theorem distinct_eraseDupsBy (vs : List Value) :
    Test.Distinct (vs.eraseDupsBy fun v kept ↦ kept.same v) := by
  match vs with
  | [] => exact .nil
  | v :: vs =>
    rw [eraseDupsBy_same_cons]
    refine .cons ?_ (distinct_eraseDupsBy _)
    intro w hw
    have hkept := (sublist_eraseDupsBy _).subset hw
    exact of_decide_eq_true (List.mem_filter.mp hkept).2
termination_by vs.length
decreasing_by
  exact Nat.lt_succ_of_le (List.length_filter_le _ _)

/-- What lawful lexemes ask for has literals, once repeated values are left out. -/
theorem hasLiterals_of_asked {own : List Lexeme} {t : Test} (h : Asked own t)
    (hlawful : ∀ l ∈ own, l.IsLawful) : (withoutRepeats t).HasLiterals := by
  cases h with
  | equals _ hscalar => exact hasLiteral_of_optionalScalar hscalar (hlawful _ (by simp))
  | differs _ hscalar => exact hasLiteral_of_optionalScalar hscalar (hlawful _ (by simp))
  | ordered _ hscalar => exact hasLiteral_of_scalar hscalar (hlawful _ (by simp))
  | text => trivial
  | present => trivial
  | @oneOf _ ls vs _ hlisting =>
    have hliterals := forall_of_listing (fun _ _ ↦ hasLiteral_of_scalar) hlisting fun l hl ↦
      hlawful l (by simp [hl])
    obtain ⟨v, others, rfl⟩ := List.exists_cons_of_ne_nil (listing_ne_nil hlisting)
    refine ⟨?_, fun w hw ↦ hliterals w ((sublist_eraseDupsBy _).subset hw), distinct_eraseDupsBy _⟩
    rw [eraseDupsBy_same_cons]
    exact List.cons_ne_nil _ _

/-! ### What phrases are made of -/

theorem suffix_of_derives {phrase : Phrase} {depth : Nat} {ls rest : List Lexeme} {f : Filter}
    (h : Derives phrase depth ls rest f) : rest <:+ ls := by
  induction h with
  | test => exact (List.suffix_append _ _).trans (List.suffix_cons _ _)
  | negation _ _ _ ih => exact ih.trans (List.suffix_cons _ _)
  | group _ ih => exact ((List.suffix_cons _ _).trans ih).trans (List.suffix_cons _ _)
  | term _ ih => exact ih
  | conjunction _ ih => exact ih
  | and _ _ _ ih ih' => exact (ih'.trans (List.suffix_cons _ _)).trans ih
  | or _ _ _ ih ih' => exact (ih'.trans (List.suffix_cons _ _)).trans ih

/-- In a phrase of scanned lexemes, properties are names and values have literals. -/
theorem tests_of_derives {phrase : Phrase} {depth : Nat} {ls rest : List Lexeme} {f : Filter}
    (h : Derives phrase depth ls rest f) (hscanned : ∀ l ∈ ls, l.IsScanned) :
    ∀ p ∈ f.tests, Lexeme.IsName p.1.toList ∧ p.2.HasLiterals := by
  induction h with
  | test hasked =>
    simp only [Filter.tests, List.forall_mem_singleton]
    refine ⟨hscanned _ List.mem_cons_self, hasLiterals_of_asked hasked fun l hl ↦ ?_⟩
    exact (hscanned l (by simp [hl])).isLawful
  | negation _ _ _ ih => exact ih fun l hl ↦ hscanned l (List.mem_cons_of_mem _ hl)
  | group _ ih => exact ih fun l hl ↦ hscanned l (List.mem_cons_of_mem _ hl)
  | term _ ih => exact ih hscanned
  | conjunction _ ih => exact ih hscanned
  | and hleft _ _ ih ih' | or hleft _ _ ih ih' =>
    have hothers := ((List.suffix_cons _ _).trans (suffix_of_derives hleft)).subset
    rw [Filter.tests, List.forall_mem_append]
    exact ⟨ih hscanned, ih' fun l hl ↦ hscanned l (hothers hl)⟩

end Expression

namespace Filter

open Expression

theorem exists_tokens_of_parse {source : String} {f : Filter} (h : parse source = .ok f) :
    ∃ tokens, (Cursor.ofText source.toList).tokens = .ok tokens := by
  cases htokens : (Cursor.ofText source.toList).tokens with
  | ok tokens => exact ⟨tokens, rfl⟩
  | error fault => simp [parse, htokens] at h

/-- What is parsed has names for properties and literals for values. -/
theorem hasLiterals_of_parse {source : String} {f : Filter} (h : parse source = .ok f) :
    ∀ p ∈ f.tests, Lexeme.IsName p.1.toList ∧ p.2.HasLiterals := by
  obtain ⟨tokens, htokens⟩ := exists_tokens_of_parse h
  obtain ⟨⟨depth, -, hderives⟩, -⟩ := (parse_eq_ok_iff htokens f).mp h
  exact tests_of_derives hderives (Cursor.isScanned_of_tokens _ htokens)

/-- The texts of what is parsed can be laid out. -/
theorem asksFor_of_parse {source : String} {f : Filter} (h : parse source = .ok f) :
    (∀ p ∈ f.tests, Lexeme.IsName p.1.toList) ∧
      ∀ p ∈ f.tests, AsksFor p.2.canonical (id p.2) :=
  ⟨fun p hp ↦ (hasLiterals_of_parse h p hp).1,
    fun p hp ↦ asksFor_canonical (hasLiterals_of_parse h p hp).2⟩

theorem exists_parse_text_iff_of_parse {source : String} {f : Filter} (h : parse source = .ok f) :
    (∃ g, parse f.text = .ok g) ↔ f.nesting ≤ 256 := by
  obtain ⟨hnames, hasked⟩ := asksFor_of_parse h
  rw [text, canonical_eq_layout]
  exact exists_parse_layout_iff hnames hasked

/-! ### Negations in a row -/

/-- Words `not` in front of one test. -/
theorem derives_negations {own : List Lexeme} {property : String} {t : Test} (h : Asked own t)
    (hnot : alike property "not" = false)
    (hproperty : Operator.ofWord? property = none) (n : Nat) :
    Derives .term n (List.replicate n (.word "not") ++ .word property :: own) []
      (Filter.not^[n] (.test property (withoutRepeats t))) := by
  induction n with
  | zero =>
    have htest : Derives .term 0 (.word property :: (own ++ [])) []
        (.test property (withoutRepeats t)) := by
      refine .test h fun halike ↦ ?_
      rw [hnot] at halike
      cases halike
    rwa [List.append_nil] at htest
  | succ n ih =>
    rw [List.replicate_succ, List.cons_append, Function.iterate_succ_apply']
    refine .negation (by decide) ?_ ih
    cases n with
    | zero =>
      rw [List.replicate_zero, List.nil_append, namesProperty_cons_iff, isOperator_word_iff,
        hproperty]
      simp
    | succ n =>
      rw [List.replicate_succ, List.cons_append, namesProperty_cons_iff]
      exact fun hnames ↦ absurd hnames.1 (by decide)

theorem writes_negations {own : List Char} {ls : List Lexeme} (h : Writes own ls) (n : Nat) :
    Writes ((List.replicate n "not ".toList).flatten ++ own)
      (List.replicate n (.word "not") ++ ls) := by
  induction n with
  | zero => exact h
  | succ n ih =>
    rw [List.replicate_succ, List.replicate_succ, List.flatten_cons, List.append_assoc]
    exact (writes_word isName_not).space ih

theorem height_negations (f : Filter) (n : Nat) : (Filter.not^[n] f).height = f.height + n := by
  induction n with
  | zero => rfl
  | succ n ih => rw [Function.iterate_succ_apply', height, ih, Nat.add_assoc]

theorem nesting_negations (f : Filter) (n : Nat) :
    (Filter.not^[n] f).nesting = f.nesting + 2 * n := by
  induction n with
  | zero => rfl
  | succ n ih =>
    rw [Function.iterate_succ_apply', nesting, ih]
    omega

/-- As many negations in a row as may be nested are parsed. -/
theorem parse_negations {n : Nat} (hn : n ≤ 256) :
    parse (String.ofList ((List.replicate n "not ".toList).flatten ++ "a pr".toList)) =
      .ok (Filter.not^[n] (.test "a" .present)) := by
  have hasked : Asked [.word "pr"] .present := .present (spells_of_ofWord? "pr" (by decide))
  have hproperty : Lexeme.IsName "a".toList := .of_isSegment rfl
  have hoperator : Lexeme.IsName "pr".toList := .of_isSegment rfl
  have hwrites : Writes "a pr".toList [.word "a", .word "pr"] :=
    (writes_word hproperty).space (writes_word hoperator)
  rw [parse_eq_ok_iff_of_writes (writes_negations hwrites n)]
  refine ⟨⟨n, hn, .conjunction (.term (derives_negations hasked (by decide) (by decide) n))⟩, ?_⟩
  rw [height_negations, height]
  omega

/-! ### The canonical text -/

/-- The canonical text of a filter that was parsed is parsed as the same filter exactly if it keeps
to the limit on nesting, and as no other filter in any case. -/
theorem parse_text_iff_nesting_of_parse {source : String} {f : Filter} (h : parse source = .ok f) :
    (parse f.text = .ok f ↔ f.nesting ≤ 256) ∧ ∀ g, parse f.text = .ok g → g = f := by
  have hiff := exists_parse_text_iff_of_parse h
  have hself (hnesting : f.nesting ≤ 256) : parse f.text = .ok f := by
    obtain ⟨hnames, hasked⟩ := asksFor_of_parse h
    have hparse := parse_layout hnames hasked hnesting
    rwa [← canonical_eq_layout, mapTests_id] at hparse
  refine ⟨⟨fun hparse ↦ hiff.mp ⟨f, hparse⟩, hself⟩, ?_⟩
  intro g hg
  exact Except.ok.inj (hg.symm.trans (hself (hiff.mp ⟨g, hg⟩)))

/-- A hundred and twenty-eight negations are as many as the canonical text may have. -/
theorem parse_text_negations :
    parse (String.ofList ((List.replicate 128 "not ".toList).flatten ++ "a pr".toList)) =
        .ok (Filter.not^[128] (.test "a" .present)) ∧
      parse (text (Filter.not^[128] (.test "a" .present))) =
        .ok (Filter.not^[128] (.test "a" .present)) := by
  have hparse := parse_negations (n := 128) (by decide)
  refine ⟨hparse, (parse_text_iff_nesting_of_parse hparse).1.mpr ?_⟩
  rw [nesting_negations, nesting]

/-- One negation more is parsed, but its canonical text is not. -/
theorem parse_text_negations_fails :
    parse (String.ofList ((List.replicate 129 "not ".toList).flatten ++ "a pr".toList)) =
        .ok (Filter.not^[129] (.test "a" .present)) ∧
      ∀ g, parse (text (Filter.not^[129] (.test "a" .present))) ≠ .ok g := by
  have hparse := parse_negations (n := 129) (by decide)
  refine ⟨hparse, fun g hg ↦ ?_⟩
  have hnesting := (exists_parse_text_iff_of_parse hparse).mp ⟨g, hg⟩
  rw [nesting_negations, nesting] at hnesting
  omega

end Filter

end PropertyFilter
