import PropertyFilter.FilterError
import PropertyFilter.Token

/-!
Reading filter expressions. `or` joins operands of `and`, which joins terms, both from the left; a
term is a negation, a group in parentheses, or a test of a property. Every rule reads from the
start of a row of tokens and answers with what it read and how many tokens that took.

How deep groups and negations are nested is limited, and so is the height of the tree. A rule for
terms is built from the rule for the terms one level further in, so the limit on nesting is the
number of times that this is done.
-/

set_option autoImplicit false

namespace PropertyFilter.Expression

/-- A fault, with the place of the token it is laid to; without one it lies at the end of the
text. -/
structure Failure where
  fault : Fault
  place? : Option Position
  deriving DecidableEq

abbrev Rule (α : Type) := List Token → Except Failure (α × Nat)

def fail {α : Type} (fault : Fault) (token : Token) : Except Failure α :=
  .error ⟨fault, some token.first⟩

def ended {α : Type} (wanted : Wanted) : Except Failure α :=
  .error ⟨.endOfText wanted, none⟩

/-! ### Tests -/

/-- The value that a lexeme writes, where the word `null` writes the absence of one. -/
def scalar? : Lexeme → Option (Option Value)
  | .string text => some (some (.string text))
  | .uuid value _ => some (some (.uuid value))
  | .integer value => some (some (Value.ofInt value))
  | .decimal value => some (some (.float value))
  | .word name =>
    if alike name "true" then some (some (.bool true))
    else if alike name "false" then some (some (.bool false))
    else if alike name "null" then some none
    else none
  | _ => none

/-- One token for a value or its absence. -/
def optionalValue (operator : String) : List Token → Except Failure (Option Value)
  | [] => ended (.value operator)
  | token :: _ =>
    match scalar? token.lexeme with
    | some value => .ok value
    | none => fail (.notAValue operator token.lexeme) token

/-- One token for a value. Its absence is the given fault. -/
def value (operator : String) (absent : Fault) : List Token → Except Failure Value
  | [] => ended (.value operator)
  | token :: _ =>
    match scalar? token.lexeme with
    | some (some value) => .ok value
    | some none => fail absent token
    | none => fail (.notAValue operator token.lexeme) token

/-- One token for a text, for which an identifier is taken as it is written. -/
def pattern (operator : String) : List Token → Except Failure String
  | [] => ended (.value operator)
  | token :: _ =>
    match token.lexeme with
    | .uuid _ text => .ok text
    | lexeme =>
      match scalar? lexeme with
      | some (some (.string text)) => .ok text
      | some (some value) => fail (.notAString operator value) token
      | some none => fail (.absentValue operator) token
      | none => fail (.notAValue operator lexeme) token

/-- The values of a list from one of them on, up to the lexeme that closes the list. -/
def items (operator : String) (close : Lexeme) : Rule (List Value)
  | [] => ended (.value operator)
  | token :: tokens => do
    let first ← value operator (.absentInList operator) (token :: tokens)
    match tokens with
    | [] => ended (.separator close)
    | separator :: rest =>
      if separator.lexeme = .comma then
        let (others, used) ← items operator close rest
        return (first :: others, used + 2)
      else if separator.lexeme = close then return ([first], 2)
      else fail (.notASeparator close separator.lexeme) separator

/-- The lexeme that closes a list which another one opens. -/
def closing? : Lexeme → Option Lexeme
  | .openBracket => some .closeBracket
  | .openParen => some .closeParen
  | _ => none

/-- A list of at least one value, in brackets or in parentheses. -/
def values (operator : String) : Rule (List Value)
  | [] => ended .values
  | opened :: tokens =>
    match closing? opened.lexeme with
    | none => fail (.notAList operator opened.lexeme) opened
    | some close =>
      match tokens with
      | [] => ended (.value operator)
      | token :: rest =>
        if token.lexeme = close then fail (.emptyList operator) token
        else do
          let (values, used) ← items operator close (token :: rest)
          return (values, used + 1)

/-- What follows an operator, which is written as `word`. -/
def operand (word : String) (tokens : List Token) : Operator → Except Failure (Test × Nat)
  | .present => return (.present, 0)
  | .oneOf => do
    let (values, used) ← values word tokens
    return (.oneOf values, used)
  | .equals => do
    let value ← optionalValue word tokens
    return (.equals value, 1)
  | .differs => do
    let value ← optionalValue word tokens
    return (.differs value, 1)
  | .ordered relation => do
    let bound ← value word (.absentValue word) tokens
    return (.ordered relation bound, 1)
  | .text test => do
    let pattern ← pattern word tokens
    return (.text test pattern, 1)

/-- What is asked of a property: an operator, and what it takes. -/
def asked (property : String) : Rule Test
  | [] => ended .operator
  | token :: tokens =>
    match token.lexeme with
    | .word word =>
      match Operator.ofWord? word with
      | none => fail (.unknownOperator property word) token
      | some operator => do
        let (test, used) ← operand word tokens operator
        return (test, used + 1)
    | other => fail (.notAnOperator property other) token

/-- A test of a property. What makes it invalid is laid to the name of the property. -/
def predicate : Rule Filter
  | [] => ended .property
  | token :: tokens =>
    match token.lexeme with
    | .word property => do
      let (test, used) ← asked property tokens
      match Filter.make property test with
      | .ok filter => return (filter, used + 1)
      | .error reason => fail (.invalid reason) token
    | other => fail (.notAProperty other) token

/-! ### Connectives -/

/-- A filter that is not too high; it is a fault of the token that made it so. -/
def limited (token : Token) (filter : Filter) : Except Failure Filter :=
  if filter.height ≤ maxHeight then .ok filter else fail .tooHigh token

/-- Further operands, each after the word that joins it to what stands to its left. -/
def chainFrom (word : String) (join : Filter → Filter → Filter) (operand : Rule Filter)
    (left : Filter) : Rule Filter
  | [] => .ok (left, 0)
  | token :: tokens =>
    if token.lexeme.isWord word then do
      let (right, used) ← operand tokens
      let joined ← limited token (join left right)
      let (filter, more) ← chainFrom word join operand joined (tokens.drop used)
      return (filter, 1 + used + more)
    else .ok (left, 0)
termination_by tokens => tokens.length
decreasing_by simp only [List.length_cons, List.length_drop]; omega

/-- Operands joined by a word, from the left. -/
def chain (word : String) (join : Filter → Filter → Filter) (operand : Rule Filter) :
    Rule Filter := fun tokens ↦ do
  let (left, used) ← operand tokens
  let (filter, more) ← chainFrom word join operand left (tokens.drop used)
  return (filter, used + more)

/-- Terms, joined by `and` before by `or`. -/
def alternatives (term : Rule Filter) : Rule Filter :=
  chain "or" .or (chain "and" .and term)

/-- Whether the first token is the word for an operator. -/
def beginsWithOperator : List Token → Bool
  | [] => false
  | token :: _ => (Operator.ofLexeme? token.lexeme).isSome

/-- Whether `not` stands first and negates what follows. It is a property if an operator follows
which is not followed by another one. -/
def beginsNegation : List Token → Bool
  | [] => false
  | token :: tokens =>
    token.lexeme.isWord "not" &&
      !(beginsWithOperator tokens && !beginsWithOperator (tokens.drop 1))

/-- What is left of a group whose terms follow a rule and whose parenthesis was opened at a
place. -/
def group (inner : Rule Filter) (opened : Position) : Rule Filter := fun tokens ↦ do
  let (filter, used) ← alternatives inner tokens
  match tokens.drop used with
  | [] => ended .closeParen
  | token :: _ =>
    if token.lexeme = .closeParen then return (filter, used + 1)
    else fail (.unclosed opened token.lexeme) token

/-- A term, given the rule for the terms inside it; there is none where nothing may be nested any
further. -/
def termAround (inner? : Option (Rule Filter)) : Rule Filter
  | [] => ended .property
  | token :: tokens =>
    if beginsNegation (token :: tokens) then
      match inner? with
      | none => fail .nestedTooDeep token
      | some inner => do
        let (operand, used) ← inner tokens
        let filter ← limited token (.not operand)
        return (filter, used + 1)
    else if token.lexeme = .openParen then
      match inner? with
      | none => fail .nestedTooDeep token
      | some inner => do
        let (filter, used) ← group inner token.first tokens
        return (filter, used + 1)
    else predicate (token :: tokens)

/-- A term with at most so many groups and negations open at a token. -/
def term : (budget : Nat) → Rule Filter
  | 0 => termAround none
  | budget + 1 => termAround (some (term budget))

/-- Reads a row of tokens as one expression. -/
def read (tokens : List Token) : Except Failure Filter :=
  if tokens.isEmpty then .error ⟨.noTokens, some .start⟩
  else do
    let (filter, used) ← alternatives (term maxNesting) tokens
    match tokens.drop used with
    | [] => return filter
    | token :: _ => fail (.trailing token.lexeme) token

end Expression

/-- Reads a filter expression. -/
def Filter.parse (text : String) : Except FilterError Filter :=
  match (Cursor.ofText text.toList).tokens with
  | .error (fault, place) => .error (.lexical fault place)
  | .ok tokens =>
    match Expression.read tokens with
    | .ok filter => .ok filter
    | .error failure =>
      let place := failure.place?.getD (Position.start.after text.toList)
      .error (.grammatical failure.fault place)

end PropertyFilter
