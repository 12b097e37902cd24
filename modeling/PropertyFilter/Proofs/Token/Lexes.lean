import PropertyFilter.Proofs.Expression.Parsing
import PropertyFilter.Proofs.Lexeme.Plain

/-!
# Texts and the lexemes that they are made of

`Lexes cs ls` says that the tokens of a text are told and have just these lexemes, wherever the text
stands. `Writes own ls` says that a text puts the lexemes in front of those of any text that may
follow it, so that texts can be put together: `Writes.append` joins two of them, and from it come
the ways in which filters are laid out, with a blank, with a comma and in parentheses.
-/

set_option autoImplicit false

namespace PropertyFilter

open Lexeme (Boundary Scans)

namespace Cursor

theorem tokens_of_next?_none {c : Cursor} (h : c.next? = none) : c.tokens = .ok [] := by
  rw [tokens]
  split <;> simp_all

theorem tokens_of_next?_some {c past : Cursor} {token : Token} {others : List Token}
    (h : c.next? = some (.ok token, past)) (hothers : past.tokens = .ok others) :
    c.tokens = .ok (token :: others) := by
  rw [tokens]
  split <;> simp_all

/-- Tokens depend on what comes next only. -/
theorem tokens_of_next?_eq {c d : Cursor} (h : c.next? = d.next?) {tokens : List Token}
    (hd : d.tokens = .ok tokens) : c.tokens = .ok tokens := by
  rw [Cursor.tokens] at hd
  split at hd
  · next hnext =>
    cases hd
    exact tokens_of_next?_none (h.trans hnext)
  · cases hd
  · next hnext =>
    split at hd
    · next hothers =>
      cases hd
      exact tokens_of_next?_some (h.trans hnext) hothers
    · cases hd

theorem next?_blank (place : Position) {c : Char} (h : Text.isBlank c = true) (cs : List Char) :
    (⟨place, c :: cs⟩ : Cursor).next? = (⟨place.step c, cs⟩ : Cursor).next? := by
  simp [next?, skipBlanks, h]

theorem next?_scans (place : Position) {own rest : List Char} {l : Lexeme} (h : Scans own l rest) :
    (⟨place, own ++ rest⟩ : Cursor).next? =
      some (.ok ⟨l, place, place.after own⟩, ⟨place.after own, rest⟩) := by
  obtain ⟨c, cs, rfl, hblank, hscan⟩ := h
  simp only [next?, skipBlanks, List.cons_append, List.takeWhile_cons, List.dropWhile_cons, hblank,
    Bool.false_eq_true, if_false, Position.after_nil, hscan, advance]
  rw [← List.cons_append, List.take_left, List.drop_left]

end Cursor

/-! ### Lexemes of a text -/

/-- The tokens of a text are told, and these are their lexemes. -/
def Lexes (cs : List Char) (ls : List Lexeme) : Prop :=
  ∀ place, ∃ tokens, (⟨place, cs⟩ : Cursor).tokens = .ok tokens ∧ Expression.lexemes tokens = ls

/-- A text has one row of lexemes. -/
theorem Lexes.unique {cs : List Char} {ls ls' : List Lexeme} (h : Lexes cs ls)
    (h' : Lexes cs ls') : ls = ls' := by
  obtain ⟨tokens, htokens, rfl⟩ := h .start
  obtain ⟨tokens', htokens', rfl⟩ := h' .start
  rw [Except.ok.inj (htokens.symm.trans htokens')]

theorem lexes_nil : Lexes [] [] := fun place ↦
  ⟨[], Cursor.tokens_of_next?_none (by simp [Cursor.next?, Cursor.skipBlanks]), rfl⟩

theorem lexes_blank {c : Char} (h : Text.isBlank c = true) {cs : List Char} {ls : List Lexeme}
    (hcs : Lexes cs ls) : Lexes (c :: cs) ls := by
  intro place
  obtain ⟨tokens, htokens, hlexemes⟩ := hcs (place.step c)
  exact ⟨tokens, Cursor.tokens_of_next?_eq (Cursor.next?_blank place h cs) htokens, hlexemes⟩

theorem lexes_scans {own rest : List Char} {l : Lexeme} {ls : List Lexeme} (h : Scans own l rest)
    (hrest : Lexes rest ls) : Lexes (own ++ rest) (l :: ls) := by
  intro place
  obtain ⟨tokens, htokens, rfl⟩ := hrest (place.after own)
  exact ⟨_, Cursor.tokens_of_next?_some (Cursor.next?_scans place h) htokens, rfl⟩

/-! ### Texts to be put together -/

/-- The text puts the lexemes in front of those of what follows it. -/
def Writes (own : List Char) (ls : List Lexeme) : Prop :=
  ∀ rest others, Boundary rest → Lexes rest others → Lexes (own ++ rest) (ls ++ others)

theorem writes_of_scans {own : List Char} {l : Lexeme}
    (h : ∀ rest, Boundary rest → Scans own l rest) : Writes own [l] :=
  fun rest _ hrest hothers ↦ lexes_scans (h rest hrest) hothers

/-- A name is a word. -/
theorem writes_word {name : String} (h : Lexeme.IsName name.toList) :
    Writes name.toList [.word name] := by
  have hscans : Writes name.toList [.word (String.ofList name.toList)] :=
    writes_of_scans fun _ hrest ↦ Lexeme.scans_word h (Lexeme.mayFollowNumber_of_boundary hrest)
  rwa [String.ofList_toList] at hscans

namespace Writes

variable {own own' : List Char} {ls ls' : List Lexeme}

theorem lexes (h : Writes own ls) : Lexes own ls := by
  have hnil := h [] [] Lexeme.boundary_nil lexes_nil
  rwa [List.append_nil, List.append_nil] at hnil

/-- Two texts one after the other, if the second one begins with what may follow the first. -/
theorem append (h : Writes own ls) (h' : Writes own' ls')
    (hboundary : ∀ rest, Boundary rest → Boundary (own' ++ rest)) :
    Writes (own ++ own') (ls ++ ls') := by
  intro rest others hrest hothers
  rw [List.append_assoc, List.append_assoc]
  exact h _ _ (hboundary rest hrest) (h' rest others hrest hothers)

theorem blank (h : Writes own ls) : Writes (' ' :: own) ls :=
  fun rest others hrest hothers ↦ lexes_blank (by decide) (h rest others hrest hothers)

/-- Two texts with a blank between them. -/
theorem space (h : Writes own ls) (h' : Writes own' ls') :
    Writes (own ++ ' ' :: own') (ls ++ ls') :=
  h.append h'.blank fun _ _ ↦ Lexeme.boundary_blank _

/-- Two texts with a comma and a blank between them. -/
theorem comma (h : Writes own ls) (h' : Writes own' ls') :
    Writes (own ++ ',' :: ' ' :: own') (ls ++ .comma :: ls') := by
  have hcomma : Writes (',' :: ' ' :: own') (.comma :: ls') := by
    intro rest others hrest hothers
    have hscans := lexes_scans (Lexeme.scans_comma _) (h'.blank rest others hrest hothers)
    exact hscans
  exact h.append hcomma fun _ _ ↦ Lexeme.boundary_comma _

/-- A text in parentheses. -/
theorem parens (h : Writes own ls) :
    Writes ('(' :: own ++ [')']) (.openParen :: (ls ++ [.closeParen])) := by
  intro rest others hrest hothers
  have hclose := lexes_scans (Lexeme.scans_closeParen rest) hothers
  have hinner := h _ _ (Lexeme.boundary_closeParen rest) hclose
  have hopen := lexes_scans (Lexeme.scans_openParen _) hinner
  simpa using hopen

end Writes

end PropertyFilter
