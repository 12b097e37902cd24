import PropertyFilter.Expression.Reading

/-!
# The grammar of filter expressions

The grammar is stated over rows of lexemes and knows nothing of places, budgets or faults. It has
words of its own for the operators. Values, lists and what is asked of a property are relations
between exactly the lexemes that write them and what they stand for. `Derives` is the relation for
terms and for the two connectives: it holds of lexemes that begin with a phrase, of the lexemes that
follow the phrase and of its filter. What follows is part of the relation because `not` looks two
lexemes ahead to see whether it is a property. Chains group to the left, since the left operand of a
connective is again a chain.

The number in `Derives` is the greatest number of groups and negations that are open at once, so the
limits of the language are said once, in `IsExpression`.
-/

set_option autoImplicit false

namespace PropertyFilter

namespace Operator

/-- The words for the operators. Tests of a text have a short one and a long one each. -/
inductive IsKeyword : String → Operator → Prop
  | equals : IsKeyword "eq" .equals
  | differs : IsKeyword "ne" .differs
  | greater : IsKeyword "gt" (.ordered .greater)
  | greaterOrEqual : IsKeyword "ge" (.ordered .greaterOrEqual)
  | less : IsKeyword "lt" (.ordered .less)
  | lessOrEqual : IsKeyword "le" (.ordered .lessOrEqual)
  | startsWith : IsKeyword "sw" (.text .startsWith)
  | startsWithLong : IsKeyword "startsWith" (.text .startsWith)
  | endsWith : IsKeyword "ew" (.text .endsWith)
  | endsWithLong : IsKeyword "endsWith" (.text .endsWith)
  | contains : IsKeyword "co" (.text .contains)
  | containsLong : IsKeyword "contains" (.text .contains)
  | oneOf : IsKeyword "in" .oneOf
  | present : IsKeyword "pr" .present

/-- Words that stand for an operator, in letters of either case. -/
def Spells (word : String) (operator : Operator) : Prop :=
  ∃ keyword, IsKeyword keyword operator ∧ alike word keyword = true

end Operator

namespace Expression

/-! ### What is asked of a property -/

/-- A lexeme that writes a value, or no value. -/
inductive Scalar : Lexeme → Option Value → Prop
  | string (text : String) : Scalar (.string text) (some (.string text))
  | uuid (value : Uuid) (text : String) : Scalar (.uuid value text) (some (.uuid value))
  | integer (value : Int) : Scalar (.integer value) (some (Value.ofInt value))
  | decimal (value : Binary64) : Scalar (.decimal value) (some (.float value))
  | yes {word : String} (h : alike word "true" = true) : Scalar (.word word) (some (.bool true))
  | no {word : String} (h : alike word "false" = true) : Scalar (.word word) (some (.bool false))
  | null {word : String} (h : alike word "null" = true) : Scalar (.word word) none

/-- A lexeme that writes a pattern. An identifier stands for its text. -/
inductive Pattern : Lexeme → String → Prop
  | string (text : String) : Pattern (.string text) text
  | uuid (value : Uuid) (text : String) : Pattern (.uuid value text) text

/-- Values with commas between them. -/
inductive Items : List Lexeme → List Value → Prop
  | last {l : Lexeme} {v : Value} (h : Scalar l (some v)) : Items [l] [v]
  | more {l : Lexeme} {v : Value} {ls : List Lexeme} {vs : List Value}
      (h : Scalar l (some v)) (hrest : Items ls vs) : Items (l :: .comma :: ls) (v :: vs)

/-- A list, closed by the lexeme that belongs to the one that opens it. -/
inductive Listing : List Lexeme → List Value → Prop
  | brackets {ls : List Lexeme} {vs : List Value} (h : Items ls vs) :
      Listing (.openBracket :: (ls ++ [.closeBracket])) vs
  | parentheses {ls : List Lexeme} {vs : List Value} (h : Items ls vs) :
      Listing (.openParen :: (ls ++ [.closeParen])) vs

/-- An operator with what it takes, as it is written. -/
inductive Asked : List Lexeme → Test → Prop
  | equals {word : String} {l : Lexeme} {v : Option Value}
      (hword : Operator.Spells word .equals) (h : Scalar l v) : Asked [.word word, l] (.equals v)
  | differs {word : String} {l : Lexeme} {v : Option Value}
      (hword : Operator.Spells word .differs) (h : Scalar l v) : Asked [.word word, l] (.differs v)
  | ordered {word : String} {relation : Relation} {l : Lexeme} {v : Value}
      (hword : Operator.Spells word (.ordered relation)) (h : Scalar l (some v)) :
      Asked [.word word, l] (.ordered relation v)
  | text {word : String} {test : TextTest} {l : Lexeme} {pattern : String}
      (hword : Operator.Spells word (.text test)) (h : Pattern l pattern) :
      Asked [.word word, l] (.text test pattern)
  | present {word : String} (hword : Operator.Spells word .present) : Asked [.word word] .present
  | oneOf {word : String} {ls : List Lexeme} {vs : List Value}
      (hword : Operator.Spells word .oneOf) (h : Listing ls vs) :
      Asked (.word word :: ls) (.oneOf vs)

/-- The same test with each value of a choice once, in the place where it stands first. -/
def withoutRepeats : Test → Test
  | .oneOf vs => .oneOf (vs.eraseDupsBy fun v kept ↦ kept.same v)
  | t => t

/-! ### Terms and connectives -/

/-- A lexeme that is the word for an operator. -/
def IsOperator (l : Lexeme) : Prop :=
  ∃ word operator, l = .word word ∧ Operator.Spells word operator

/-- A `not` that these lexemes follow is a property: an operator comes next, and after it comes
none. -/
def NamesProperty (following : List Lexeme) : Prop :=
  ∃ l rest, following = l :: rest ∧ IsOperator l ∧ ∀ m ∈ rest.head?, ¬ IsOperator m

/-- The kinds of phrases, from the tightest to the loosest. -/
inductive Phrase
  | term
  | conjunction
  | alternatives

/-- The lexemes in the third place begin with a phrase that is followed by those in the fourth; it
stands for a filter, and inside it so many groups and negations are open at most. -/
inductive Derives : Phrase → Nat → List Lexeme → List Lexeme → Filter → Prop
  | test {property : String} {asked rest : List Lexeme} {t : Test} (h : Asked asked t)
      (hnot : alike property "not" = true → NamesProperty (asked ++ rest)) :
      Derives .term 0 (.word property :: (asked ++ rest)) rest (.test property (withoutRepeats t))
  | negation {l : Lexeme} {ls rest : List Lexeme} {depth : Nat} {f : Filter}
      (hword : l.isWord "not" = true) (hnot : ¬ NamesProperty ls)
      (h : Derives .term depth ls rest f) : Derives .term (depth + 1) (l :: ls) rest (.not f)
  | group {ls rest : List Lexeme} {depth : Nat} {f : Filter}
      (h : Derives .alternatives depth ls (.closeParen :: rest) f) :
      Derives .term (depth + 1) (.openParen :: ls) rest f
  | term {ls rest : List Lexeme} {depth : Nat} {f : Filter} (h : Derives .term depth ls rest f) :
      Derives .conjunction depth ls rest f
  | and {ls others rest : List Lexeme} {l : Lexeme} {depth depth' : Nat} {f g : Filter}
      (hleft : Derives .conjunction depth ls (l :: others) f) (hword : l.isWord "and" = true)
      (hright : Derives .term depth' others rest g) :
      Derives .conjunction (max depth depth') ls rest (.and f g)
  | conjunction {ls rest : List Lexeme} {depth : Nat} {f : Filter}
      (h : Derives .conjunction depth ls rest f) : Derives .alternatives depth ls rest f
  | or {ls others rest : List Lexeme} {l : Lexeme} {depth depth' : Nat} {f g : Filter}
      (hleft : Derives .alternatives depth ls (l :: others) f) (hword : l.isWord "or" = true)
      (hright : Derives .conjunction depth' others rest g) :
      Derives .alternatives (max depth depth') ls rest (.or f g)

/-- Lexemes that are an expression as a whole, with at most 256 groups and negations open at any of
them and a tree of height at most 1024. -/
def IsExpression (ls : List Lexeme) (f : Filter) : Prop :=
  (∃ depth, depth ≤ 256 ∧ Derives .alternatives depth ls [] f) ∧ f.height ≤ 1024

end Expression

end PropertyFilter
