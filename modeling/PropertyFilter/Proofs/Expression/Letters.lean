import PropertyFilter.Proofs.Filter.Checked
import PropertyFilter.Proofs.Filter.Layout
import PropertyFilter.Proofs.Filter.Letters
import PropertyFilter.Proofs.Token.Letters

/-!
# The case of letters in expressions

Two rows of tokens that differ at most in the case of letters of words are read alike: `Agree` says
of two attempts that they read related things, or that both fail at the same place. A rule compares
words without regard to the case of letters, so what it does with one of the rows it does with the
other. There is one short lemma for each rule, and `Agree.bind` for rules that are made of others;
the filters that are read differ in the names of properties alone.

A text with recased words has such tokens, so it is parsed as the text is, or rejected where the
text is rejected (`Filter.parse_recased`).
-/

set_option autoImplicit false

namespace PropertyFilter

/-! ### Lexemes -/

namespace Lexeme.Recased

variable {l m : Lexeme}

theorem isWord_eq (h : l.Recased m) (keyword : String) : l.isWord keyword = m.isWord keyword := by
  cases h with
  | refl => rfl
  | word h => exact alike_congr h keyword

theorem ofLexeme?_eq (h : l.Recased m) : Operator.ofLexeme? l = Operator.ofLexeme? m := by
  cases h with
  | refl => rfl
  | word h => exact Expression.ofWord?_of_alike h

theorem scalar?_eq (h : l.Recased m) : Expression.scalar? l = Expression.scalar? m := by
  cases h with
  | refl => rfl
  | word h => simp only [Expression.scalar?, alike_congr h]

theorem closing?_eq (h : l.Recased m) : Expression.closing? l = Expression.closing? m := by
  cases h with
  | refl => rfl
  | word h => rfl

/-- A lexeme that is no word is one of the two if it is the other one. -/
theorem eq_iff (h : l.Recased m) {other : Lexeme} (hother : ∀ name, other ≠ .word name) :
    l = other ↔ m = other := by
  cases h with
  | refl => rfl
  | word h => exact iff_of_false (hother _).symm (hother _).symm

theorem words_or_eq (h : l.Recased m) :
    (∃ name other, l = .word name ∧ m = .word other ∧ alike name other = true) ∨
      (l = m ∧ ∀ name, l ≠ .word name) := by
  cases h with
  | refl =>
    by_cases hword : ∃ name, l = .word name
    · obtain ⟨name, rfl⟩ := hword
      exact .inl ⟨name, name, rfl, rfl, beq_self_eq_true _⟩
    · exact .inr ⟨rfl, fun name hname ↦ hword ⟨name, hname⟩⟩
  | word h => exact .inl ⟨_, _, rfl, rfl, h⟩

end Lexeme.Recased

namespace Expression

variable {α β γ δ : Type}

theorem ne_word_of_closing? {l close : Lexeme} (h : closing? l = some close) (name : String) :
    close ≠ .word name := by
  unfold closing? at h
  split at h <;> simp at h
  all_goals simp [← h]

/-! ### Attempts that agree -/

/-- Both attempts read something, and what they read is related, or both fail at the same place. -/
inductive Agree (R : α → β → Prop) : Except Failure α → Except Failure β → Prop
  | ok {a : α} {b : β} (h : R a b) : Agree R (.ok a) (.ok b)
  | error {e e' : Failure} (h : e.place? = e'.place?) : Agree R (.error e) (.error e')

theorem Agree.bind {R : α → β → Prop} {S : γ → δ → Prop} {first : Except Failure α}
    {first' : Except Failure β} {next : α → Except Failure γ} {next' : β → Except Failure δ}
    (h : Agree R first first') (hnext : ∀ a b, R a b → Agree S (next a) (next' b)) :
    Agree S (first >>= next) (first' >>= next') := by
  cases h with
  | ok h => exact hnext _ _ h
  | error h => exact .error h

theorem Agree.refl (result : Except Failure α) : Agree Eq result result := by
  cases result with
  | ok a => exact .ok rfl
  | error e => exact .error rfl

/-- What comes after attempts that read the same. -/
theorem Agree.next {first first' : Except Failure α} (h : Agree Eq first first')
    (next : α → Except Failure γ) : Agree Eq (first >>= next) (first' >>= next) :=
  h.bind fun _ _ hread ↦ hread ▸ .refl _

theorem agree_fail {R : α → β → Prop} {token token' : Token} (h : token.Recased token')
    (fault fault' : Fault) : Agree R (fail fault token) (fail fault' token') :=
  .error (congrArg some h.first)

theorem agree_ended {R : α → β → Prop} (wanted wanted' : Wanted) :
    Agree R (ended wanted) (ended wanted') := .error rfl

/-! ### Tests -/

/-- Rows of tokens that differ at most in the case of letters of words. -/
abbrev Recased : List Token → List Token → Prop := List.Forall₂ Token.Recased

variable {tokens tokens' : List Token}

theorem agree_optionalValue (word word' : String) (h : Recased tokens tokens') :
    Agree Eq (optionalValue word tokens) (optionalValue word' tokens') := by
  cases h with
  | nil => exact agree_ended _ _
  | cons htoken h =>
    rw [optionalValue, optionalValue, htoken.lexeme.scalar?_eq]
    split
    · exact .ok rfl
    · exact agree_fail htoken _ _

theorem agree_value (word word' : String) (absent absent' : Fault) (h : Recased tokens tokens') :
    Agree Eq (value word absent tokens) (value word' absent' tokens') := by
  cases h with
  | nil => exact agree_ended _ _
  | cons htoken h =>
    rw [value, value, htoken.lexeme.scalar?_eq]
    split
    · exact .ok rfl
    all_goals exact agree_fail htoken _ _

theorem agree_pattern (word word' : String) (h : Recased tokens tokens') :
    Agree Eq (pattern word tokens) (pattern word' tokens') := by
  cases h with
  | nil => exact agree_ended _ _
  | @cons token token' tokens tokens' htoken h =>
    have hlexeme := htoken.lexeme
    rw [pattern, pattern]
    generalize token.lexeme = l, token'.lexeme = m at hlexeme
    cases hlexeme with
    | refl =>
      split
      · exact .ok rfl
      · split
        · exact .ok rfl
        all_goals exact agree_fail htoken _ _
    | word hword =>
      dsimp only
      rw [(Lexeme.Recased.word hword).scalar?_eq]
      split
      · exact .ok rfl
      all_goals exact agree_fail htoken _ _

theorem agree_items (word word' : String) {close : Lexeme} (hclose : ∀ name, close ≠ .word name)
    (h : Recased tokens tokens') :
    Agree Eq (items word close tokens) (items word' close tokens') := by
  induction tokens using items.induct generalizing tokens' with
  | case1 =>
    cases h
    exact agree_ended _ _
  | case2 token tokens ih =>
    have hfirst := agree_value word word' (.absentInList word) (.absentInList word') h
    cases h with
    | cons htoken h =>
    rw [items, items]
    refine hfirst.bind ?_
    rintro first _ rfl
    cases h with
    | nil => exact agree_ended _ _
    | @cons separator separator' rest rest' hseparator h =>
      dsimp only
      by_cases hcomma : separator.lexeme = .comma
      · rw [if_pos hcomma, if_pos ((hseparator.lexeme.eq_iff (by simp)).mp hcomma)]
        exact (ih h).next _
      · rw [if_neg hcomma, if_neg (mt (hseparator.lexeme.eq_iff (by simp)).mpr hcomma)]
        by_cases hend : separator.lexeme = close
        · rw [if_pos hend, if_pos ((hseparator.lexeme.eq_iff hclose).mp hend)]
          exact .ok rfl
        · rw [if_neg hend, if_neg (mt (hseparator.lexeme.eq_iff hclose).mpr hend)]
          exact agree_fail hseparator _ _

theorem agree_values (word word' : String) (h : Recased tokens tokens') :
    Agree Eq (values word tokens) (values word' tokens') := by
  cases h with
  | nil => exact agree_ended _ _
  | @cons opened opened' tokens tokens' hopened h =>
    rw [values, values, ← hopened.lexeme.closing?_eq]
    cases hclosing : closing? opened.lexeme with
    | none => exact agree_fail hopened _ _
    | some close =>
      have hclose := ne_word_of_closing? hclosing
      dsimp only
      cases h with
      | nil => exact agree_ended _ _
      | @cons token token' rest rest' htoken h =>
        dsimp only
        by_cases hempty : token.lexeme = close
        · rw [if_pos hempty, if_pos ((htoken.lexeme.eq_iff hclose).mp hempty)]
          exact agree_fail htoken _ _
        · rw [if_neg hempty, if_neg (mt (htoken.lexeme.eq_iff hclose).mpr hempty)]
          exact (agree_items word word' hclose (.cons htoken h)).next _

theorem agree_operand (word word' : String) (h : Recased tokens tokens') (operator : Operator) :
    Agree Eq (operand word tokens operator) (operand word' tokens' operator) := by
  cases operator with
  | present => exact .refl _
  | oneOf => exact (agree_values word word' h).next _
  | equals => exact (agree_optionalValue word word' h).next _
  | differs => exact (agree_optionalValue word word' h).next _
  | ordered relation => exact (agree_value word word' _ _ h).next _
  | text test => exact (agree_pattern word word' h).next _

theorem agree_asked (property property' : String) (h : Recased tokens tokens') :
    Agree Eq (asked property tokens) (asked property' tokens') := by
  cases h with
  | nil => exact agree_ended _ _
  | @cons token token' tokens tokens' htoken h =>
    have hlexeme := htoken.lexeme
    rw [asked, asked]
    generalize token.lexeme = l, token'.lexeme = m at hlexeme
    rcases hlexeme.words_or_eq with ⟨name, other, rfl, rfl, hword⟩ | ⟨rfl, hother⟩
    · dsimp only
      rw [ofWord?_of_alike hword]
      split
      · exact agree_fail htoken _ _
      · exact (agree_operand _ _ h _).next _
    · split
      · exact absurd rfl (hother _)
      · exact agree_fail htoken _ _

/-- The readings are the same, but for the case of letters in the names of properties. -/
def SameReading (read read' : Filter × Nat) : Prop := read.1.Recased read'.1 ∧ read.2 = read'.2

/-- A name does not become blank with other letters. -/
theorem allBlank_of_alike {property other : String} (h : alike property other = true) :
    Text.allBlank property.toList = Text.allBlank other.toList := by
  have hlower (cs : List Char) : Text.allBlank (cs.map Char.toLower) = Text.allBlank cs := by
    rw [Text.allBlank, List.all_map]
    exact congrArg cs.all (funext Lexeme.isBlank_toLower)
  have hcase : Text.Recased property.toList other.toList := (alike_iff _ _).mp h
  rw [← hlower, hcase, hlower]

theorem agree_make {property other : String} (h : alike property other = true) (t : Test) :
    (∃ f g, Filter.make property t = .ok f ∧ Filter.make other t = .ok g ∧ f.Recased g) ∨
      ∃ e e', Filter.make property t = .error e ∧ Filter.make other t = .error e' := by
  have hfault : Filter.fault? property t = none ↔ Filter.fault? other t = none := by
    rw [Filter.fault?_eq_none_iff, Filter.fault?_eq_none_iff, allBlank_of_alike h]
  rw [Filter.make_eq_elim, Filter.make_eq_elim]
  cases hproperty : Filter.fault? property t with
  | none =>
    rw [hfault.mp hproperty]
    exact .inl ⟨_, _, rfl, rfl, .test h _⟩
  | some e =>
    obtain ⟨e', hother⟩ := Option.ne_none_iff_exists'.mp
      (mt hfault.mpr (by rw [hproperty]; exact Option.some_ne_none e))
    rw [hother]
    exact .inr ⟨e, e', rfl, rfl⟩

theorem agree_predicate (h : Recased tokens tokens') :
    Agree SameReading (predicate tokens) (predicate tokens') := by
  cases h with
  | nil => exact agree_ended _ _
  | @cons token token' tokens tokens' htoken h =>
    have hlexeme := htoken.lexeme
    rw [predicate, predicate]
    generalize token.lexeme = l, token'.lexeme = m at hlexeme
    rcases hlexeme.words_or_eq with ⟨property, other, rfl, rfl, halike⟩ | ⟨rfl, hother⟩
    · refine (agree_asked property other h).bind ?_
      rintro ⟨test, used⟩ _ rfl
      dsimp only
      -- the test is the same, and it is made of both names or of none
      rcases agree_make halike test with ⟨f, g, hf, hg, hrecased⟩ | ⟨e, e', he, he'⟩
      · rw [hf, hg]
        exact .ok ⟨hrecased, rfl⟩
      · rw [he, he']
        exact agree_fail htoken _ _
    · split
      · exact absurd rfl (hother _)
      · exact agree_fail htoken _ _

/-! ### Connectives -/

/-- A rule reads recased rows of tokens alike. -/
def IgnoresCase (rule : Rule Filter) : Prop :=
  ∀ tokens tokens', Recased tokens tokens' → Agree SameReading (rule tokens) (rule tokens')

theorem agree_limited {token token' : Token} (htoken : token.Recased token') {f g : Filter}
    (h : f.Recased g) : Agree Filter.Recased (limited token f) (limited token' g) := by
  rw [limited, limited, h.height_eq]
  split
  · exact .ok h
  · exact agree_fail htoken _ _

theorem recased_drop (h : Recased tokens tokens') (count : Nat) :
    Recased (tokens.drop count) (tokens'.drop count) := List.forall₂_drop count h

theorem agree_chainFrom (word : String) {join : Filter → Filter → Filter}
    (hjoin : ∀ a b c d, a.Recased c → b.Recased d → (join a b).Recased (join c d))
    {operand : Rule Filter} (hoperand : IgnoresCase operand) {left left' : Filter}
    (hleft : left.Recased left') (h : Recased tokens tokens') :
    Agree SameReading (chainFrom word join operand left tokens)
      (chainFrom word join operand left' tokens') := by
  induction hlength : tokens.length using Nat.strongRecOn
    generalizing tokens tokens' left left' with
  | _ length ih =>
    cases h with
    | nil =>
      rw [chainFrom, chainFrom]
      exact .ok ⟨hleft, rfl⟩
    | @cons token token' tokens tokens' htoken h =>
      rw [chainFrom, chainFrom, htoken.lexeme.isWord_eq]
      split
      · refine (hoperand _ _ h).bind ?_
        rintro ⟨right, used⟩ ⟨right', _⟩ ⟨hright, rfl⟩
        have hboth := hjoin _ _ _ _ hleft hright
        refine (agree_limited htoken hboth).bind fun joined joined' hjoined ↦ ?_
        have hshorter : (tokens.drop used).length < length := by
          rw [← hlength, List.length_drop, List.length_cons]
          omega
        refine (ih _ hshorter hjoined (recased_drop h used) rfl).bind ?_
        rintro ⟨filter, more⟩ ⟨filter', _⟩ ⟨hfilter, rfl⟩
        exact .ok ⟨hfilter, rfl⟩
      · exact .ok ⟨hleft, rfl⟩

theorem IgnoresCase.chain {operand : Rule Filter} (h : IgnoresCase operand) (word : String)
    {join : Filter → Filter → Filter}
    (hjoin : ∀ a b c d, a.Recased c → b.Recased d → (join a b).Recased (join c d)) :
    IgnoresCase (chain word join operand) := by
  intro tokens tokens' htokens
  refine (h _ _ htokens).bind ?_
  rintro ⟨left, used⟩ ⟨left', _⟩ ⟨hleft, rfl⟩
  refine (agree_chainFrom word hjoin h hleft (recased_drop htokens used)).bind ?_
  rintro ⟨filter, more⟩ ⟨filter', _⟩ ⟨hfilter, rfl⟩
  exact .ok ⟨hfilter, rfl⟩

theorem IgnoresCase.alternatives {term : Rule Filter} (h : IgnoresCase term) :
    IgnoresCase (alternatives term) :=
  (h.chain "and" fun _ _ _ _ ↦ .and).chain "or" fun _ _ _ _ ↦ .or

theorem beginsWithOperator_eq (h : Recased tokens tokens') :
    beginsWithOperator tokens = beginsWithOperator tokens' := by
  cases h with
  | nil => rfl
  | cons htoken h => exact congrArg Option.isSome htoken.lexeme.ofLexeme?_eq

theorem beginsNegation_eq (h : Recased tokens tokens') :
    beginsNegation tokens = beginsNegation tokens' := by
  cases h with
  | nil => rfl
  | cons htoken h =>
    rw [beginsNegation, beginsNegation, htoken.lexeme.isWord_eq, beginsWithOperator_eq h,
      beginsWithOperator_eq (recased_drop h 1)]

theorem IgnoresCase.group {inner : Rule Filter} (h : IgnoresCase inner) (opened : Position) :
    IgnoresCase (group inner opened) := by
  intro tokens tokens' htokens
  refine (h.alternatives _ _ htokens).bind ?_
  rintro ⟨filter, used⟩ ⟨filter', _⟩ ⟨hfilter, rfl⟩
  have hrest := recased_drop htokens used
  dsimp only
  generalize tokens.drop used = rest, tokens'.drop used = rest' at hrest
  cases hrest with
  | nil => exact agree_ended _ _
  | @cons token token' rest rest' htoken hrest =>
    dsimp only
    by_cases hclose : token.lexeme = .closeParen
    · rw [if_pos hclose, if_pos ((htoken.lexeme.eq_iff (by simp)).mp hclose)]
      exact .ok ⟨hfilter, rfl⟩
    · rw [if_neg hclose, if_neg (mt (htoken.lexeme.eq_iff (by simp)).mpr hclose)]
      exact agree_fail htoken _ _

theorem ignoresCase_termAround {inner? : Option (Rule Filter)}
    (hinner : ∀ inner ∈ inner?, IgnoresCase inner) : IgnoresCase (termAround inner?) := by
  intro tokens tokens' htokens
  have hnegation := beginsNegation_eq htokens
  cases htokens with
  | nil => exact agree_ended _ _
  | @cons token token' tokens tokens' htoken h =>
    have hopen : token.lexeme = .openParen ↔ token'.lexeme = .openParen :=
      htoken.lexeme.eq_iff (by simp)
    simp only [termAround, ← hnegation, ← hopen, ← htoken.first]
    split
    · split
      · exact agree_fail htoken _ _
      · next inner =>
        refine (hinner inner rfl _ _ h).bind ?_
        rintro ⟨operand, used⟩ ⟨operand', _⟩ ⟨hoperand, rfl⟩
        refine (agree_limited htoken (.not hoperand)).bind fun filter filter' hfilter ↦ ?_
        exact .ok ⟨hfilter, rfl⟩
    · split
      · split
        · exact agree_fail htoken _ _
        · next inner =>
          refine ((hinner inner rfl).group _ _ _ h).bind ?_
          rintro ⟨filter, used⟩ ⟨filter', _⟩ ⟨hfilter, rfl⟩
          exact .ok ⟨hfilter, rfl⟩
      · exact agree_predicate (.cons htoken h)

theorem ignoresCase_term (budget : Nat) : IgnoresCase (term budget) := by
  induction budget with
  | zero => exact ignoresCase_termAround nofun
  | succ budget ih =>
    refine ignoresCase_termAround ?_
    rintro _ ⟨⟩
    exact ih

theorem agree_read (h : Recased tokens tokens') :
    Agree Filter.Recased (read tokens) (read tokens') := by
  cases h with
  | nil => exact .error rfl
  | @cons token token' tokens tokens' htoken h =>
    have htokens : Recased (token :: tokens) (token' :: tokens') := .cons htoken h
    rw [read, read, if_neg (by simp), if_neg (by simp)]
    refine ((ignoresCase_term maxNesting).alternatives _ _ htokens).bind ?_
    rintro ⟨filter, used⟩ ⟨filter', _⟩ ⟨hfilter, rfl⟩
    have hrest := recased_drop htokens used
    dsimp only
    generalize (token :: tokens).drop used = rest, (token' :: tokens').drop used = rest' at hrest ⊢
    cases hrest with
    | nil => exact .ok hfilter
    | cons htoken hrest => exact agree_fail htoken _ _

end Expression

/-! ### Texts -/

namespace Filter

/-- Both texts are parsed, as filters that differ at most in the case of letters in the names of
properties, or both are rejected for their grammar, at the same place. -/
inductive SameOutcome : Except FilterError Filter → Except FilterError Filter → Prop
  | accepted {f g : Filter} (h : f.Recased g) : SameOutcome (.ok f) (.ok g)
  | rejected (fault fault' : Expression.Fault) (place : Position) :
      SameOutcome (.error (.grammatical fault place)) (.error (.grammatical fault' place))

/-- Keywords are words in letters of either case, wherever they stand: with the letters of its words
in another case, a text is accepted as the same filter, but for the case of letters in names, or it
is rejected at the same place. -/
theorem parse_recased {text other : String} {tokens : List Token}
    (htokens : (Cursor.ofText text.toList).tokens = .ok tokens)
    (h : WordsRecased tokens 0 text.toList other.toList) :
    SameOutcome (parse text) (parse other) := by
  obtain ⟨tokens', htokens', hrecased⟩ := Cursor.tokens_recased _ htokens h
  change (Cursor.ofText other.toList).tokens = .ok tokens' at htokens'
  have hend : Position.start.after text.toList = Position.start.after other.toList :=
    Position.after_recased h.recased _
  have hread := Expression.agree_read hrecased
  simp only [parse, htokens, htokens', hend]
  generalize Expression.read tokens = result, Expression.read tokens' = result' at hread
  cases hread with
  | ok hfilter => exact .accepted hfilter
  | error hplace =>
    dsimp only
    rw [hplace]
    exact .rejected _ _ _

/-- A connective before an operator is the name of a property, in any letters. -/
theorem parse_recased_connective :
    SameOutcome (parse "not Pr or Not a in [TRUE]") (parse "NOT pr OR nOT A iN [true]") := by
  have htokens : (Cursor.ofText "not Pr or Not a in [TRUE]".toList).tokens =
      .ok [⟨.word "not", ⟨0, 1, 1⟩, ⟨3, 1, 4⟩⟩, ⟨.word "Pr", ⟨4, 1, 5⟩, ⟨6, 1, 7⟩⟩,
        ⟨.word "or", ⟨7, 1, 8⟩, ⟨9, 1, 10⟩⟩, ⟨.word "Not", ⟨10, 1, 11⟩, ⟨13, 1, 14⟩⟩,
        ⟨.word "a", ⟨14, 1, 15⟩, ⟨15, 1, 16⟩⟩, ⟨.word "in", ⟨16, 1, 17⟩, ⟨18, 1, 19⟩⟩,
        ⟨.openBracket, ⟨19, 1, 20⟩, ⟨20, 1, 21⟩⟩, ⟨.word "TRUE", ⟨20, 1, 21⟩, ⟨24, 1, 25⟩⟩,
        ⟨.closeBracket, ⟨24, 1, 25⟩, ⟨25, 1, 26⟩⟩] := by decide +kernel
  exact parse_recased htokens (by decide +kernel)

end Filter

end PropertyFilter
