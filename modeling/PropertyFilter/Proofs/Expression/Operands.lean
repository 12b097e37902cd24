import PropertyFilter.Proofs.Expression.Grammar

/-!
# Tests of a property are read as the grammar says

For every rule below the connectives there are two lemmas. What the rule reads, if it reads
anything, is a phrase of the grammar, and the tokens that it leaves are those after the phrase
(`…_sound`). And on a phrase of the grammar, whatever follows it, the rule reads exactly the phrase
(`…_complete`).

The grammar does not check what a test is made of. `Lexeme.IsLawful` is what the check needs of the
lexemes and what scanning ensures: a word is not blank, and a decimal is finite.
-/

set_option autoImplicit false

namespace PropertyFilter

theorem alike_iff (s t : String) : alike s t = true ↔ foldCase s = foldCase t := by
  simp [alike]

/-- What a test may be made of: words that are not blank and decimals that are finite. -/
def Lexeme.IsLawful : Lexeme → Prop
  | .word name => Text.allBlank name.toList = false
  | .decimal value => value.isFinite = true
  | _ => True

namespace Operator

/-- The keywords that are looked up are those of the grammar. -/
theorem mem_keywords_iff (keyword : String) (operator : Operator) :
    (keyword, operator) ∈ keywords ↔ IsKeyword keyword operator := by
  constructor
  · intro h
    simp only [keywords, List.mem_cons, List.not_mem_nil, or_false, Prod.mk.injEq] at h
    rcases h with ⟨rfl, rfl⟩ | ⟨rfl, rfl⟩ | ⟨rfl, rfl⟩ | ⟨rfl, rfl⟩ | ⟨rfl, rfl⟩ | ⟨rfl, rfl⟩ |
      ⟨rfl, rfl⟩ | ⟨rfl, rfl⟩ | ⟨rfl, rfl⟩ | ⟨rfl, rfl⟩ | ⟨rfl, rfl⟩ | ⟨rfl, rfl⟩ | ⟨rfl, rfl⟩ |
      ⟨rfl, rfl⟩
    all_goals constructor
  · intro h
    cases h <;> decide

/-- No two keywords that differ only in the case of letters stand for different operators. -/
theorem keywords_consistent :
    ∀ k ∈ keywords, ∀ k' ∈ keywords, foldCase k.1 = foldCase k'.1 → k.2 = k'.2 := by
  decide

/-- A word is looked up as the operator that it spells. -/
theorem ofWord?_eq_some_iff (word : String) (operator : Operator) :
    ofWord? word = some operator ↔ Spells word operator := by
  rw [ofWord?, Option.map_eq_some_iff]
  constructor
  · rintro ⟨keyword, hfind, rfl⟩
    have halike : alike word keyword.1 = true := by simpa using List.find?_some hfind
    exact ⟨keyword.1, (mem_keywords_iff _ _).mp (List.mem_of_find?_eq_some hfind), halike⟩
  · rintro ⟨keyword, hkeyword, halike⟩
    have hmem := (mem_keywords_iff keyword operator).mpr hkeyword
    have hsome : (keywords.find? fun k ↦ alike word k.1).isSome := by
      rw [List.find?_isSome]
      exact ⟨(keyword, operator), hmem, halike⟩
    obtain ⟨found, hfind⟩ := Option.isSome_iff_exists.mp hsome
    have hfound : alike word found.1 = true := by simpa using List.find?_some hfind
    rw [alike_iff] at halike hfound
    exact ⟨found, hfind, keywords_consistent found (List.mem_of_find?_eq_some hfind)
      (keyword, operator) hmem (hfound.symm.trans halike)⟩

end Operator

namespace Expression

/-- An accepted computation is one whose first step is accepted and whose other steps are accepted
with what the first one gave. -/
theorem bind_eq_ok_iff {ε α β : Type} {first : Except ε α} {next : α → Except ε β} {b : β} :
    (first >>= next) = .ok b ↔ ∃ a, first = .ok a ∧ next a = .ok b := by
  cases first <;> simp [bind, Except.bind]

/-- The lexemes of a row of tokens. -/
abbrev lexemes (tokens : List Token) : List Lexeme := tokens.map Token.lexeme

theorem lexemes_cons (token : Token) (tokens : List Token) :
    lexemes (token :: tokens) = token.lexeme :: lexemes tokens := rfl

theorem lexemes_eq_cons_iff {tokens : List Token} {l : Lexeme} {ls : List Lexeme} :
    lexemes tokens = l :: ls ↔
      ∃ token tail, tokens = token :: tail ∧ token.lexeme = l ∧ lexemes tail = ls :=
  List.map_eq_cons_iff

theorem lexemes_drop (tokens : List Token) (used : Nat) :
    lexemes (tokens.drop used) = (lexemes tokens).drop used := List.map_drop

/-- A row of tokens that begins with given lexemes is left with those after them. -/
theorem lexemes_drop_of_append {tokens : List Token} {own rest : List Lexeme}
    (h : lexemes tokens = own ++ rest) : lexemes (tokens.drop own.length) = rest := by
  rw [lexemes_drop, h, List.drop_left]

/-! ### Values -/

/-- The words for truth, falsehood and absence are told apart in letters of either case. -/
theorem alike_false_of_alike {word keyword : String} (h : alike word keyword = true)
    (other : String) (hne : alike keyword other = false) : alike word other = false := by
  rw [alike_iff] at h
  rwa [alike, h]

theorem scalar?_eq_some_iff (l : Lexeme) (v : Option Value) :
    scalar? l = some v ↔ Scalar l v := by
  constructor
  · intro h
    cases l with
    | word name =>
      simp only [scalar?] at h
      split at h
      · next hword => exact Option.some.inj h ▸ .yes hword
      · split at h
        · next hword => exact Option.some.inj h ▸ .no hword
        · split at h
          · next hword => exact Option.some.inj h ▸ .null hword
          · simp at h
    | string text => exact Option.some.inj h ▸ .string text
    | uuid value text => exact Option.some.inj h ▸ .uuid value text
    | integer value => exact Option.some.inj h ▸ .integer value
    | decimal value => exact Option.some.inj h ▸ .decimal value
    | openParen => simp [scalar?] at h
    | closeParen => simp [scalar?] at h
    | openBracket => simp [scalar?] at h
    | closeBracket => simp [scalar?] at h
    | comma => simp [scalar?] at h
  · intro h
    cases h with
    | string text => rfl
    | uuid value text => rfl
    | integer value => rfl
    | decimal value => rfl
    | yes hword => simp [scalar?, hword]
    | no hword => simp [scalar?, hword, alike_false_of_alike hword "true" (by decide)]
    | null hword =>
      simp [scalar?, hword, alike_false_of_alike hword "true" (by decide),
        alike_false_of_alike hword "false" (by decide)]

theorem optionalValue_eq_ok_iff (operator : String) (tokens : List Token) (v : Option Value) :
    optionalValue operator tokens = .ok v ↔
      ∃ token rest, tokens = token :: rest ∧ Scalar token.lexeme v := by
  cases tokens with
  | nil => simp [optionalValue, ended]
  | cons token rest =>
    cases hscalar : scalar? token.lexeme <;>
      simp [optionalValue, fail, ← scalar?_eq_some_iff, hscalar]

theorem value_of_scalar {token : Token} {v : Value} (h : Scalar token.lexeme (some v))
    (operator : String) (absent : Fault) (rest : List Token) :
    value operator absent (token :: rest) = .ok v := by
  rw [← scalar?_eq_some_iff] at h
  simp [value, h]

theorem value_eq_ok_iff (operator : String) (absent : Fault) (tokens : List Token) (v : Value) :
    value operator absent tokens = .ok v ↔
      ∃ token rest, tokens = token :: rest ∧ Scalar token.lexeme (some v) := by
  cases tokens with
  | nil => simp [value, ended]
  | cons token rest =>
    rcases hscalar : scalar? token.lexeme with _ | _ | _ <;>
      simp [value, fail, ← scalar?_eq_some_iff, hscalar]

/-- Only a quoted text writes a text. -/
theorem scalar_string_iff (l : Lexeme) (text : String) :
    Scalar l (some (.string text)) ↔ l = .string text := by
  rw [← scalar?_eq_some_iff]
  constructor
  · intro h
    cases l with
    | word name =>
      simp only [scalar?] at h
      repeat' split at h
      all_goals simp at h
    | string written => simpa [scalar?] using h
    | integer value =>
      simp only [scalar?, Option.some.injEq, Value.ofInt] at h
      split at h <;> simp at h
    | _ => simp [scalar?] at h
  · rintro rfl
    rfl

theorem pattern_eq_ok_iff (operator : String) (tokens : List Token) (text : String) :
    pattern operator tokens = .ok text ↔
      ∃ token rest, tokens = token :: rest ∧ Pattern token.lexeme text := by
  cases tokens with
  | nil => simp [pattern, ended]
  | cons token rest =>
    have hhead : (∃ t r, token :: rest = t :: r ∧ Pattern t.lexeme text) ↔
        Pattern token.lexeme text := by simp
    rw [hhead]
    constructor
    · intro h
      simp only [pattern] at h
      split at h
      · next value written hlexeme =>
        rw [hlexeme, ← Except.ok.inj h]
        exact .uuid value written
      · next hlexeme =>
        split at h
        · next written hscalar =>
          rw [scalar?_eq_some_iff, scalar_string_iff] at hscalar
          rw [← Except.ok.inj h, hscalar]
          exact .string written
        · simp [fail] at h
        · simp [fail] at h
        · simp [fail] at h
    · intro h
      generalize hlexeme : token.lexeme = l at h
      cases h with
      | string => simp [pattern, hlexeme, scalar?]
      | uuid => simp [pattern, hlexeme]

/-! ### Lists -/

theorem items_sound {operator : String} {close : Lexeme} (tokens : List Token) {vs : List Value}
    {used : Nat} (h : items operator close tokens = .ok (vs, used)) :
    ∃ own, Items own vs ∧ lexemes tokens = own ++ close :: lexemes (tokens.drop used) := by
  induction tokens using items.induct generalizing vs used with
  | case1 => simp [items, ended] at h
  | case2 token tokens ih =>
    rw [items, bind_eq_ok_iff] at h
    obtain ⟨first, hfirst, h⟩ := h
    obtain ⟨_, _, heq, hscalar⟩ := (value_eq_ok_iff _ _ _ _).mp hfirst
    cases heq
    cases tokens with
    | nil => simp [ended] at h
    | cons separator rest =>
      simp only at h ih
      split at h
      · next hcomma =>
        rw [bind_eq_ok_iff] at h
        obtain ⟨⟨others, more⟩, hothers, h⟩ := h
        cases h
        obtain ⟨own, hown, htokens⟩ := ih hothers
        refine ⟨_, .more hscalar hown, ?_⟩
        rw [← hcomma]
        exact congrArg (token.lexeme :: separator.lexeme :: ·) htokens
      · split at h
        · next hclose =>
          cases h
          exact ⟨_, .last hscalar, by rw [← hclose]; rfl⟩
        · simp [fail] at h

theorem items_complete {operator : String} {close : Lexeme} (hclose : close ≠ .comma)
    {own rest : List Lexeme} {vs : List Value} (hown : Items own vs) {tokens : List Token}
    (htokens : lexemes tokens = own ++ close :: rest) :
    items operator close tokens = .ok (vs, own.length + 1) := by
  induction hown generalizing tokens with
  | last hscalar =>
    obtain ⟨token, tail, rfl, rfl, htail⟩ := lexemes_eq_cons_iff.mp htokens
    obtain ⟨separator, others, rfl, rfl, -⟩ := lexemes_eq_cons_iff.mp htail
    rw [items, value_of_scalar hscalar]
    simp [bind, Except.bind, hclose, pure, Except.pure]
  | more hscalar hrest ih =>
    obtain ⟨token, tail, rfl, rfl, htail⟩ := lexemes_eq_cons_iff.mp htokens
    obtain ⟨separator, others, rfl, hcomma, hothers⟩ := lexemes_eq_cons_iff.mp htail
    rw [items, value_of_scalar hscalar]
    simp [bind, Except.bind, hcomma, ih hothers, pure, Except.pure]

theorem not_closing_of_items {own : List Lexeme} {vs : List Value} (h : Items own vs)
    {opening close : Lexeme} (hclose : closing? opening = some close) :
    ∃ l ls, own = l :: ls ∧ l ≠ close := by
  have hscalar : scalar? close = none := by
    unfold closing? at hclose
    split at hclose <;> simp_all [scalar?]
    all_goals subst hclose; rfl
  cases h with
  | last hl =>
    refine ⟨_, _, rfl, ?_⟩
    rintro rfl
    simp [(scalar?_eq_some_iff _ _).mpr hl] at hscalar
  | more hl =>
    refine ⟨_, _, rfl, ?_⟩
    rintro rfl
    simp [(scalar?_eq_some_iff _ _).mpr hl] at hscalar

/-- A list is its opening lexeme, its values and the lexeme that closes it. -/
theorem listing_iff (own : List Lexeme) (vs : List Value) :
    Listing own vs ↔ ∃ opening close inner, closing? opening = some close ∧ Items inner vs ∧
      own = opening :: (inner ++ [close]) := by
  constructor
  · rintro (h | h)
    · exact ⟨_, _, _, rfl, h, rfl⟩
    · exact ⟨_, _, _, rfl, h, rfl⟩
  · rintro ⟨opening, close, inner, hclose, h, rfl⟩
    cases opening <;> simp only [closing?, Option.some.injEq, reduceCtorEq] at hclose
    · subst hclose
      exact .parentheses h
    · subst hclose
      exact .brackets h

theorem values_sound {operator : String} {tokens : List Token} {vs : List Value} {used : Nat}
    (h : values operator tokens = .ok (vs, used)) :
    ∃ own, Listing own vs ∧ lexemes tokens = own ++ lexemes (tokens.drop used) := by
  cases tokens with
  | nil => simp [values, ended] at h
  | cons opened tokens =>
    cases hclose : closing? opened.lexeme with
    | none => simp [values, hclose, fail] at h
    | some close =>
      cases tokens with
      | nil => simp [values, hclose, ended] at h
      | cons token rest =>
        simp only [values, hclose] at h
        split at h
        · simp [fail] at h
        · rw [bind_eq_ok_iff] at h
          obtain ⟨⟨read, count⟩, hitems, h⟩ := h
          cases h
          obtain ⟨inner, hinner, htokens⟩ := items_sound _ hitems
          refine ⟨_, (listing_iff _ _).mpr ⟨_, _, _, hclose, hinner, rfl⟩, ?_⟩
          rw [lexemes_cons, htokens, List.drop_succ_cons]
          simp

theorem values_complete {operator : String} {own rest : List Lexeme} {vs : List Value}
    (hown : Listing own vs) {tokens : List Token} (htokens : lexemes tokens = own ++ rest) :
    values operator tokens = .ok (vs, own.length) := by
  obtain ⟨_, close, inner, hclose, hinner, rfl⟩ := (listing_iff _ _).mp hown
  obtain ⟨first, ls, rfl, hfirst⟩ := not_closing_of_items hinner hclose
  obtain ⟨opened, tail, rfl, rfl, htail⟩ := lexemes_eq_cons_iff.mp htokens
  have hcomma : close ≠ .comma := by
    rintro rfl
    unfold closing? at hclose
    split at hclose <;> simp at hclose
  have hinside : lexemes tail = first :: ls ++ close :: rest := by simp [htail]
  obtain ⟨token, others, rfl, rfl, -⟩ := lexemes_eq_cons_iff.mp hinside
  simp only [values, hclose, if_neg hfirst, items_complete hcomma hinner hinside]
  simp [bind, Except.bind, pure, Except.pure]

/-! ### Operators with what they take -/

theorem asked_sound {property : String} {tokens : List Token} {t : Test} {used : Nat}
    (h : asked property tokens = .ok (t, used)) :
    ∃ own, Asked own t ∧ lexemes tokens = own ++ lexemes (tokens.drop used) := by
  cases tokens with
  | nil => simp [asked, ended] at h
  | cons token tokens =>
    simp only [asked] at h
    split at h
    · next word hword =>
      split at h
      · simp [fail] at h
      · next operator hoperator =>
        rw [Operator.ofWord?_eq_some_iff] at hoperator
        rw [bind_eq_ok_iff] at h
        obtain ⟨⟨read, count⟩, hoperand, h⟩ := h
        cases h
        rw [List.drop_succ_cons, lexemes_cons, hword]
        cases operator with
        | present =>
          cases hoperand
          exact ⟨_, .present hoperator, rfl⟩
        | oneOf =>
          rw [operand, bind_eq_ok_iff] at hoperand
          obtain ⟨⟨vs, n⟩, hvalues, hoperand⟩ := hoperand
          cases hoperand
          obtain ⟨own, hown, htokens⟩ := values_sound hvalues
          exact ⟨_, .oneOf hoperator hown, congrArg (Lexeme.word word :: ·) htokens⟩
        | equals =>
          rw [operand, bind_eq_ok_iff] at hoperand
          obtain ⟨v, hv, hoperand⟩ := hoperand
          cases hoperand
          obtain ⟨operandToken, rest, rfl, hscalar⟩ := (optionalValue_eq_ok_iff _ _ _).mp hv
          exact ⟨_, .equals hoperator hscalar, rfl⟩
        | differs =>
          rw [operand, bind_eq_ok_iff] at hoperand
          obtain ⟨v, hv, hoperand⟩ := hoperand
          cases hoperand
          obtain ⟨operandToken, rest, rfl, hscalar⟩ := (optionalValue_eq_ok_iff _ _ _).mp hv
          exact ⟨_, .differs hoperator hscalar, rfl⟩
        | ordered relation =>
          rw [operand, bind_eq_ok_iff] at hoperand
          obtain ⟨v, hv, hoperand⟩ := hoperand
          cases hoperand
          obtain ⟨operandToken, rest, rfl, hscalar⟩ := (value_eq_ok_iff _ _ _ _).mp hv
          exact ⟨_, .ordered hoperator hscalar, rfl⟩
        | text test =>
          rw [operand, bind_eq_ok_iff] at hoperand
          obtain ⟨v, hv, hoperand⟩ := hoperand
          cases hoperand
          obtain ⟨operandToken, rest, rfl, hpattern⟩ := (pattern_eq_ok_iff _ _ _).mp hv
          exact ⟨_, .text hoperator hpattern, rfl⟩
    · simp [fail] at h

/-- The tests of the grammar, ordered by their operators. -/
theorem asked_cases {own : List Lexeme} {t : Test} (h : Asked own t) :
    ∃ word operator operands, Operator.Spells word operator ∧ own = .word word :: operands ∧
      ∀ rest tokens, lexemes tokens = operands ++ rest →
        operand word tokens operator = .ok (t, operands.length) := by
  cases h with
  | @equals word l v hword hscalar =>
    refine ⟨_, _, _, hword, rfl, ?_⟩
    intro rest tokens htokens
    obtain ⟨token, tail, rfl, rfl, -⟩ := lexemes_eq_cons_iff.mp htokens
    rw [operand, (optionalValue_eq_ok_iff word _ v).mpr ⟨_, _, rfl, hscalar⟩]
    rfl
  | @differs word l v hword hscalar =>
    refine ⟨_, _, _, hword, rfl, ?_⟩
    intro rest tokens htokens
    obtain ⟨token, tail, rfl, rfl, -⟩ := lexemes_eq_cons_iff.mp htokens
    rw [operand, (optionalValue_eq_ok_iff word _ v).mpr ⟨_, _, rfl, hscalar⟩]
    rfl
  | @ordered word relation l v hword hscalar =>
    refine ⟨_, _, _, hword, rfl, ?_⟩
    intro rest tokens htokens
    obtain ⟨token, tail, rfl, rfl, -⟩ := lexemes_eq_cons_iff.mp htokens
    rw [operand, value_of_scalar hscalar]
    rfl
  | @text word test l written hword hpattern =>
    refine ⟨_, _, _, hword, rfl, ?_⟩
    intro rest tokens htokens
    obtain ⟨token, tail, rfl, rfl, -⟩ := lexemes_eq_cons_iff.mp htokens
    rw [operand, (pattern_eq_ok_iff word _ written).mpr ⟨_, _, rfl, hpattern⟩]
    rfl
  | present hword => exact ⟨_, _, [], hword, rfl, fun rest tokens htokens ↦ rfl⟩
  | oneOf hword hlisting =>
    refine ⟨_, _, _, hword, rfl, ?_⟩
    intro rest tokens htokens
    rw [operand, values_complete hlisting htokens]
    rfl

theorem asked_complete {property : String} {own rest : List Lexeme} {t : Test} (hown : Asked own t)
    {tokens : List Token} (htokens : lexemes tokens = own ++ rest) :
    asked property tokens = .ok (t, own.length) := by
  obtain ⟨word, operator, operands, hword, rfl, hoperand⟩ := asked_cases hown
  obtain ⟨token, tail, rfl, hlexeme, htail⟩ := lexemes_eq_cons_iff.mp htokens
  rw [← Operator.ofWord?_eq_some_iff] at hword
  simp only [asked, hlexeme, hword, hoperand rest tail htail]
  rfl

/-! ### Checked tests -/

theorem isUsable_of_scalar {l : Lexeme} {v : Value} (h : Scalar l (some v)) (hlawful : l.IsLawful) :
    v.isUsable = true := by
  rw [← scalar?_eq_some_iff] at h
  cases l with
  | word name =>
    simp only [scalar?] at h
    repeat' split at h
    all_goals simp only [Option.some.injEq, reduceCtorEq] at h
    all_goals subst h; rfl
  | integer value =>
    simp only [scalar?, Option.some.injEq, Value.ofInt] at h
    split at h
    all_goals subst h; rfl
  | decimal value =>
    simp only [scalar?, Option.some.injEq] at h
    subst h
    exact hlawful
  | string text =>
    simp only [scalar?, Option.some.injEq] at h
    subst h
    rfl
  | uuid value text =>
    simp only [scalar?, Option.some.injEq] at h
    subst h
    rfl
  | _ => simp [scalar?] at h

section Lists

variable {P : Value → Prop} (hscalar : ∀ l v, Scalar l (some v) → l.IsLawful → P v)
include hscalar

/-- What holds of each value that a lawful lexeme writes holds of all values of a list. -/
theorem forall_of_items {ls : List Lexeme} {vs : List Value} (h : Items ls vs)
    (hlawful : ∀ l ∈ ls, l.IsLawful) : ∀ v ∈ vs, P v := by
  induction h with
  | last h => simpa using hscalar _ _ h (hlawful _ (by simp))
  | more h _ ih =>
    rw [List.forall_mem_cons]
    exact ⟨hscalar _ _ h (hlawful _ (by simp)), ih fun l hl ↦ hlawful l (by simp [hl])⟩

theorem forall_of_listing {ls : List Lexeme} {vs : List Value} (h : Listing ls vs)
    (hlawful : ∀ l ∈ ls, l.IsLawful) : ∀ v ∈ vs, P v := by
  cases h with
  | brackets h => exact forall_of_items hscalar h fun l hl ↦ hlawful l (by simp [hl])
  | parentheses h => exact forall_of_items hscalar h fun l hl ↦ hlawful l (by simp [hl])

end Lists

theorem items_ne_nil {ls : List Lexeme} {vs : List Value} (h : Items ls vs) : vs ≠ [] := by
  cases h <;> simp

theorem listing_ne_nil {ls : List Lexeme} {vs : List Value} (h : Listing ls vs) : vs ≠ [] := by
  cases h with
  | brackets h => exact items_ne_nil h
  | parentheses h => exact items_ne_nil h

/-- The check keeps of usable values those that are not the same as an earlier one. -/
theorem keepDistinct_eq {vs : List Value} (husable : ∀ v ∈ vs, v.isUsable = true)
    (kept : List Value) : Test.keepDistinct kept vs =
      .ok (List.eraseDupsBy.loop (fun v k ↦ k.same v) vs kept.reverse) := by
  induction vs generalizing kept with
  | nil => simp [Test.keepDistinct, List.eraseDupsBy.loop]
  | cons v vs ih =>
    rw [List.forall_mem_cons] at husable
    simp only [Test.keepDistinct, Test.checkValue, if_pos husable.1, ih husable.2,
      List.eraseDupsBy.loop, List.any_reverse]
    cases kept.any (·.same v) <;> simp

/-- What is asked in the words of the grammar passes the check, which leaves repeated values out. -/
theorem check_eq {own : List Lexeme} {t : Test} (h : Asked own t)
    (hlawful : ∀ l ∈ own, l.IsLawful) (property : String) :
    t.check property = .ok (withoutRepeats t) := by
  have hoption {l : Lexeme} {v : Option Value} (hscalar : Scalar l v) (hl : l.IsLawful) :
      ∀ w ∈ v, w.isUsable = true := by
    rintro w rfl
    exact isUsable_of_scalar hscalar hl
  cases h with
  | @equals _ l v _ hscalar =>
    have husable := hoption hscalar (hlawful l (by simp))
    cases v with
    | none => rfl
    | some v => simp [Test.check, Test.checkValue, husable v rfl, Except.map, withoutRepeats]
  | @differs _ l v _ hscalar =>
    have husable := hoption hscalar (hlawful l (by simp))
    cases v with
    | none => rfl
    | some v => simp [Test.check, Test.checkValue, husable v rfl, Except.map, withoutRepeats]
  | @ordered _ _ l v _ hscalar =>
    have husable := isUsable_of_scalar hscalar (hlawful l (by simp))
    simp [Test.check, Test.checkValue, husable, Except.map, withoutRepeats]
  | text => rfl
  | present => rfl
  | @oneOf _ ls vs _ hlisting =>
    have husable := forall_of_listing (fun _ _ ↦ isUsable_of_scalar) hlisting fun l hl ↦
      hlawful l (by simp [hl])
    have hdistinct := keepDistinct_eq husable []
    obtain ⟨v, others, rfl⟩ := List.exists_cons_of_ne_nil (listing_ne_nil hlisting)
    rw [List.reverse_nil, ← List.eraseDupsBy, List.eraseDupsBy_cons] at hdistinct
    simp only [Test.check, hdistinct, withoutRepeats, List.eraseDupsBy_cons]

theorem make_eq {property : String} {own rest : List Lexeme} {t : Test} (h : Asked own t)
    (hlawful : ∀ l ∈ Lexeme.word property :: (own ++ rest), l.IsLawful) :
    Filter.make property t = .ok (.test property (withoutRepeats t)) := by
  have hname : Text.allBlank property.toList = false := hlawful (.word property) (by simp)
  have hcheck := check_eq h (fun l hl ↦ hlawful l (by simp [hl])) property
  simp [Filter.make, Filter.checkProperty, hname, hcheck, Except.map]

theorem predicate_sound {tokens : List Token} (hlawful : ∀ l ∈ lexemes tokens, l.IsLawful)
    {f : Filter} {used : Nat} (h : predicate tokens = .ok (f, used)) :
    ∃ property own t, Asked own t ∧ f = .test property (withoutRepeats t) ∧
      lexemes tokens = .word property :: (own ++ lexemes (tokens.drop used)) := by
  cases tokens with
  | nil => simp [predicate, ended] at h
  | cons token tokens =>
    simp only [predicate] at h
    split at h
    · next property hproperty =>
      rw [bind_eq_ok_iff] at h
      obtain ⟨⟨t, count⟩, hasked, h⟩ := h
      obtain ⟨own, hown, htokens⟩ := asked_sound hasked
      have hall : lexemes (token :: tokens) =
          .word property :: (own ++ lexemes (tokens.drop count)) := by
        rw [lexemes_cons, hproperty, htokens]
      rw [hall] at hlawful
      simp only [make_eq hown hlawful] at h
      cases h
      exact ⟨property, own, t, hown, rfl, hall⟩
    · simp [fail] at h

theorem predicate_complete {tokens : List Token} (hlawful : ∀ l ∈ lexemes tokens, l.IsLawful)
    {property : String} {own rest : List Lexeme} {t : Test} (hown : Asked own t)
    (htokens : lexemes tokens = .word property :: (own ++ rest)) :
    predicate tokens = .ok (.test property (withoutRepeats t), own.length + 1) := by
  rw [htokens] at hlawful
  obtain ⟨token, tail, rfl, hlexeme, htail⟩ := lexemes_eq_cons_iff.mp htokens
  simp only [predicate, hlexeme, asked_complete hown htail, bind, Except.bind,
    make_eq hown hlawful]
  rfl

end Expression

end PropertyFilter
