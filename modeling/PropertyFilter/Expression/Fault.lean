import PropertyFilter.Expression.Operator
import PropertyFilter.Filter.Checked
import PropertyFilter.Text.Position

/-!
Why a row of tokens is no filter expression.
-/

set_option autoImplicit false

namespace PropertyFilter.Expression

/-- How many groups and negations may be open at one token. -/
def maxNesting : Nat := 256

/-- How high the tree of an expression may be. -/
def maxHeight : Nat := 1024

/-- What an expression that ends too early should have gone on with. Operators are named by the
word that was written for them. -/
inductive Wanted
  | property
  | operator
  | value (operator : String)
  | values
  | separator (close : Lexeme)
  | closeParen
  deriving DecidableEq

inductive Fault
  | noTokens
  | trailing (found : Lexeme)
  | nestedTooDeep
  | tooHigh
  | unclosed (opened : Position) (found : Lexeme)
  | endOfText (wanted : Wanted)
  | notAProperty (found : Lexeme)
  | notAnOperator (property : String) (found : Lexeme)
  | unknownOperator (property : String) (word : String)
  | notAValue (operator : String) (found : Lexeme)
  | absentValue (operator : String)
  | notAString (operator : String) (found : Value)
  | notAList (operator : String) (found : Lexeme)
  | emptyList (operator : String)
  | absentInList (operator : String)
  | notASeparator (close : Lexeme) (found : Lexeme)
  | invalid (reason : InvalidFilter)
  deriving DecidableEq

def Wanted.message : Wanted → String
  | property => "a property name"
  | operator => "an operator"
  | value word => "a value after '" ++ word ++ "'"
  | values => "a list of values"
  | separator close => "',' or " ++ close.description
  | closeParen => Lexeme.closeParen.description

def Fault.message : Fault → String
  | noTokens => "empty filter expression"
  | trailing found => "unexpected " ++ found.description ++ " after complete expression"
  | nestedTooDeep =>
    "expression is nested deeper than " ++ Numeral.text maxNesting ++ " levels"
  | tooHigh => "expression is deeper than " ++ Numeral.text maxHeight ++ " operators"
  | unclosed opened found =>
    "expected ')' to close '(' at " ++ opened.text ++ ", found " ++ found.description
  | endOfText wanted => "unexpected end of input, expected " ++ wanted.message
  | notAProperty found => "expected " ++ Wanted.property.message ++ ", found " ++ found.description
  | notAnOperator property found =>
    "expected an operator after '" ++ property ++ "', found " ++ found.description
  | unknownOperator property word =>
    "unknown operator '" ++ word ++ "' after '" ++ property ++ "'" ++
      match Operator.suggestion? word with
      | some keyword => ", did you mean '" ++ keyword ++ "'?"
      | none => ""
  | notAValue operator found =>
    "expected " ++ (Wanted.value operator).message ++ ", found " ++ found.description
  | absentValue operator => "'" ++ operator ++ "' does not accept null"
  | notAString operator found =>
    "'" ++ operator ++ "' requires a string value, found " ++ found.kind
  | notAList operator found =>
    "'" ++ operator ++ "' requires a list of values, found " ++ found.description
  | emptyList operator => "'" ++ operator ++ "' needs at least one value"
  | absentInList operator => "'" ++ operator ++ "' lists must not contain null"
  | notASeparator close found =>
    "expected " ++ (Wanted.separator close).message ++ " in list, found " ++ found.description
  | invalid reason => reason.message

end PropertyFilter.Expression
