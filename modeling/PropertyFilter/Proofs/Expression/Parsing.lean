import Mathlib.Control.Monad.Basic
import PropertyFilter.Proofs.Expression.Connectives
import PropertyFilter.Proofs.Lexeme.Plain

/-!
# Expressions are what the grammar says

Scanning gives names and finite decimals (`Cursor.isScanned_of_tokens`), which are lawful, so that
what is known of reading tokens holds of every text whose tokens can be told: it is parsed as a
filter exactly if its lexemes are an expression for that filter, and they are one for one filter at
most (`Filter.parse_eq_ok_iff_isExpression`).
-/

set_option autoImplicit false

namespace PropertyFilter

namespace Lexeme

/-- What scanning gives: words that are names and decimals that are finite. -/
def IsScanned : Lexeme → Prop
  | .word name => IsName name.toList
  | .decimal value => value.isFinite = true
  | _ => True

theorem IsScanned.isLawful {l : Lexeme} (h : l.IsScanned) : l.IsLawful := by
  cases l with
  | word name =>
    obtain ⟨c, cs, hname, hstart⟩ := IsName.head h
    rw [IsLawful, hname, Text.allBlank, List.all_cons, isBlank_eq_false_of_isWordStart hstart,
      Bool.false_and]
  | decimal value => exact h
  | _ => trivial

theorem isScanned_of_toLexeme {n : Number} {lexeme : Lexeme} (h : n.toLexeme = .ok lexeme) :
    lexeme.IsScanned := by
  simp only [Number.toLexeme] at h
  split at h
  · split at h
    · next hfinite =>
      cases h
      exact hfinite
    · cases h
  · split at h
    · cases h
      trivial
    · cases h

theorem isScanned_of_scan {c : Char} {rest : List Char} {lexeme : Lexeme} {taken : Nat}
    (h : scan c rest = .ok (lexeme, taken)) : lexeme.IsScanned := by
  unfold scan at h
  repeat' split at h
  any_goals
    cases h
    trivial
  · unfold scanString at h
    repeat' split at h
    all_goals cases h
    all_goals trivial
  · simp only [scanNumber] at h
    repeat' split at h
    all_goals cases h
    next hlexeme => exact isScanned_of_toLexeme hlexeme
  · next hstart =>
    cases h
    rw [IsScanned, String.toList_ofList]
    exact isName_takeWord hstart rest
  · cases h

end Lexeme

namespace Cursor

theorem isScanned_of_next? {c past : Cursor} {token : Token}
    (h : c.next? = some (.ok token, past)) : token.lexeme.IsScanned := by
  simp only [next?] at h
  split at h
  · simp at h
  · split at h
    · next hscan =>
      simp only [Option.some.injEq, Prod.mk.injEq, Except.ok.injEq] at h
      rw [← h.1]
      exact Lexeme.isScanned_of_scan hscan
    · simp at h

theorem isScanned_of_tokens (c : Cursor) {tokens : List Token} (h : c.tokens = .ok tokens) :
    ∀ l ∈ Expression.lexemes tokens, l.IsScanned := by
  fun_induction Cursor.tokens c generalizing tokens with
  | case1 c hnext =>
    cases h
    simp
  | case2 c fault past hnext => cases h
  | case3 c token past hnext others hothers ih =>
    cases h
    rw [Expression.lexemes_cons, List.forall_mem_cons]
    exact ⟨isScanned_of_next? hnext, ih hothers⟩
  | case4 c token past hnext fault hothers ih => cases h

/-- All tokens of a text are lawful. -/
theorem isLawful_of_tokens (c : Cursor) {tokens : List Token} (h : c.tokens = .ok tokens) :
    ∀ l ∈ Expression.lexemes tokens, l.IsLawful :=
  fun l hl ↦ (isScanned_of_tokens c h l hl).isLawful

end Cursor

namespace Filter

open Expression

/-- A text whose tokens can be told is parsed as what its tokens are read as. -/
theorem parse_eq_ok_iff_read {text : String} {tokens : List Token}
    (htokens : (Cursor.ofText text.toList).tokens = .ok tokens) (f : Filter) :
    parse text = .ok f ↔ Expression.read tokens = .ok f := by
  simp only [parse, htokens]
  cases Expression.read tokens <;> simp

theorem parse_eq_ok_iff {text : String} {tokens : List Token}
    (htokens : (Cursor.ofText text.toList).tokens = .ok tokens) (f : Filter) :
    parse text = .ok f ↔ IsExpression (lexemes tokens) f := by
  rw [parse_eq_ok_iff_read htokens, read_eq_ok_iff (Cursor.isLawful_of_tokens _ htokens)]

/-- Parsing decides the grammar: a text whose tokens can be told is parsed as a filter exactly if
its lexemes are an expression for that filter, and the lexemes of one text are an expression for
one filter at most. -/
theorem parse_eq_ok_iff_isExpression {text : String} {tokens : List Token}
    (htokens : (Cursor.ofText text.toList).tokens = .ok tokens) :
    (∀ f, parse text = .ok f ↔ IsExpression (lexemes tokens) f) ∧
      ∀ f g, IsExpression (lexemes tokens) f → IsExpression (lexemes tokens) g → f = g := by
  have hparse := parse_eq_ok_iff htokens
  refine ⟨hparse, ?_⟩
  intro f g hf hg
  exact Except.ok.inj (((hparse f).mpr hf).symm.trans ((hparse g).mpr hg))

/-- In `not not eq 1`, the first `not` is a negation and the second one is a property. -/
theorem parse_not_not_eq_one :
    parse "not not eq 1" = .ok (.not (.test "not" (.equals (some (.int 1))))) := by
  have htokens : (Cursor.ofText "not not eq 1".toList).tokens =
      .ok [⟨.word "not", ⟨0, 1, 1⟩, ⟨3, 1, 4⟩⟩, ⟨.word "not", ⟨4, 1, 5⟩, ⟨7, 1, 8⟩⟩,
        ⟨.word "eq", ⟨8, 1, 9⟩, ⟨10, 1, 11⟩⟩, ⟨.integer 1, ⟨11, 1, 12⟩, ⟨12, 1, 13⟩⟩] := by
    decide +kernel
  have hequals : Asked [.word "eq", .integer 1] (.equals (some (Value.ofInt 1))) :=
    .equals ((Operator.ofWord?_eq_some_iff _ _).mp (by decide)) (.integer 1)
  have hterm : Derives .term 0 [.word "not", .word "eq", .integer 1] []
      (.test "not" (.equals (some (.int 1)))) := .test hequals (by decide)
  refine ((parse_eq_ok_iff_isExpression htokens).1 _).mpr
    ⟨⟨1, by decide, .conjunction (.term ?_)⟩, by decide⟩
  exact .negation (by decide) (by decide) hterm

end Filter

end PropertyFilter
