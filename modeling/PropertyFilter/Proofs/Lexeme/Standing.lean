import PropertyFilter.Proofs.Lexeme.Body

/-!
# Lexemes stand alone

`IsDenotedBy l own` says that the characters `own` are the lexeme `l` wherever they stand, as long
as nothing follows them that a number could not be followed by. What is scanned at the start of any
text has such characters of its own (`beginsWith_of_scan`): a quoted text ends with its closing
quote and no character after that is looked at, and a name or a number takes all characters that it
could go on with. So a lexeme is told from its own characters, and neither from those before it nor
from those after it.
-/

set_option autoImplicit false

namespace PropertyFilter.Lexeme

/-- The characters are the lexeme, whatever follows that may follow a number. -/
def IsDenotedBy (l : Lexeme) (own : List Char) : Prop :=
  ∀ rest, mayFollowNumber rest = true → Scans own l rest

theorem IsDenotedBy.ne_nil {l : Lexeme} {own : List Char} (h : l.IsDenotedBy own) : own ≠ [] := by
  obtain ⟨c, cs, rfl, -⟩ := h [] rfl
  exact List.cons_ne_nil c cs

/-! ### Quoted texts -/

theorem exists_body_of_scanString {cs : List Char} {l : Lexeme} {taken : Nat}
    (h : scanString cs = .ok (l, taken)) :
    ∃ body rest, cs = body ++ '"' :: rest ∧ taken = body.length + 2 ∧
      ∀ rest, scanString (body ++ '"' :: rest) = .ok (l, body.length + 2) := by
  unfold scanString at h
  split at h
  · cases h
  next text escaped length hbody =>
  obtain ⟨body, rest, rfl, rfl, hgrammar⟩ := exists_isBody_of_scanBody hbody
  refine ⟨body, rest, rfl, ?_, ?_⟩
  · split at h
    · split at h
      · cases h
        omega
      · cases h
    · cases h
      omega
  · intro rest
    rw [scanString, hgrammar.scanBody]
    have hlength : 1 + body.length + 1 = body.length + 2 := by omega
    rw [hlength] at h ⊢
    split at h
    · next hshaped =>
      split at h
      · next hread =>
        cases h
        simp [hshaped, hread]
      · cases h
    · next hshaped =>
      cases h
      simp [hshaped]

/-! ### Words -/

theorem exists_append_takeWord (cs : List Char) : ∃ rest, cs = takeWord cs ++ rest := by
  fun_induction takeWord cs with
  | case1 => exact ⟨[], rfl⟩
  | case2 d rest hstart ih =>
    obtain ⟨after, hafter⟩ := ih
    exact ⟨after, by rw [List.cons_append, ← hafter]⟩
  | case3 d rest hstart => exact ⟨_, rfl⟩
  | case4 c rest hpoint hpart ih =>
    obtain ⟨after, hafter⟩ := ih
    exact ⟨after, by rw [List.cons_append, ← hafter]⟩
  | case5 c rest hpoint hpart => exact ⟨_, rfl⟩

/-! ### Numbers -/

theorem exists_append_takeDigits (cs : List Char) :
    (∃ rest, cs = takeDigits cs ++ rest) ∧ ∀ c ∈ takeDigits cs, c.isDigit = true := by
  refine ⟨⟨cs.dropWhile Char.isDigit, List.takeWhile_append_dropWhile.symm⟩, ?_⟩
  exact List.all_eq_true.mp List.all_takeWhile

theorem isDigits_takeDigits {cs : List Char} (h : beginsWithDigit cs = true) :
    IsDigits (takeDigits cs) := by
  refine ⟨?_, (exists_append_takeDigits cs).2⟩
  cases cs with
  | nil => cases h
  | cons c cs =>
    have hc : c.isDigit = true := h
    simp [takeDigits, hc]

namespace Number

variable {n : Number} {cs : List Char} {length : Nat}

theorem exists_append_of_scanFraction (h : scanFraction cs = .ok (n.fraction, length)) :
    (∃ rest, cs = n.fractionText ++ rest) ∧ length = n.fractionText.length ∧
      ∀ ds ∈ n.fraction, IsDigits ds := by
  obtain ⟨negative, whole, fraction, exponent⟩ := n
  unfold scanFraction at h
  split at h
  · next after =>
    obtain ⟨⟨rest, hrest⟩, hdigits⟩ := exists_append_takeDigits after
    dsimp only at h
    split at h
    · cases h
    · next hne =>
      cases h
      refine ⟨⟨rest, congrArg ('.' :: ·) hrest⟩, rfl, ?_⟩
      rintro ds ⟨⟩
      exact ⟨hne, hdigits⟩
  · cases h
    exact ⟨⟨cs, rfl⟩, rfl, nofun⟩

/-- The text begins with the exponent of the number, if it has one, in so many characters. -/
def BeginsWithExponent (n : Number) (cs : List Char) (length : Nat) : Prop :=
  (∃ rest, cs = n.exponentText ++ rest) ∧ length = n.exponentText.length ∧
    ∀ e ∈ n.exponent, (e.1 = 'e' ∨ e.1 = 'E') ∧ (∀ c ∈ e.2.1, c = '+' ∨ c = '-') ∧ IsDigits e.2.2

theorem beginsWithExponent_none (h : n.exponent = none) : n.BeginsWithExponent cs 0 := by
  obtain ⟨negative, whole, fraction, exponent⟩ := n
  cases h
  exact ⟨⟨cs, rfl⟩, rfl, nofun⟩

/-- The digits of an exponent are taken from what follows its letter and its sign. -/
theorem beginsWithExponent_of_digits {letter : Char} {sign : Option Char} {tail : List Char}
    {before : Nat} (hletter : letter = 'e' ∨ letter = 'E') (hsign : ∀ c ∈ sign, c = '+' ∨ c = '-')
    (h : (if takeDigits tail = [] then .error before
      else .ok (some (letter, sign, takeDigits tail),
        1 + sign.toList.length + (takeDigits tail).length)) = Except.ok (n.exponent, length)) :
    n.BeginsWithExponent (letter :: (sign.toList ++ tail)) length := by
  obtain ⟨negative, whole, fraction, exponent⟩ := n
  obtain ⟨⟨rest, hrest⟩, hdigits⟩ := exists_append_takeDigits tail
  split at h
  · cases h
  · next hne =>
    cases h
    refine ⟨⟨rest, ?_⟩, ?_, ?_⟩
    · simp only [exponentText, List.cons_append, List.append_assoc, ← hrest]
    · simp only [exponentText, List.length_cons, List.length_append]
      omega
    · rintro e ⟨⟩
      exact ⟨hletter, hsign, hne, hdigits⟩

theorem beginsWithExponent_of_scanExponent (h : scanExponent cs = .ok (n.exponent, length)) :
    n.BeginsWithExponent cs length := by
  unfold scanExponent at h
  split at h
  · obtain ⟨hexponent, rfl⟩ := Prod.mk.inj (Except.ok.inj h)
    exact beginsWithExponent_none hexponent.symm
  split at h
  · next hletter =>
    dsimp only at h
    split at h
    · exact beginsWithExponent_of_digits hletter (by simp) h
    · exact beginsWithExponent_of_digits hletter (by simp) h
    · have hnone : ∀ c ∈ (none : Option Char), c = '+' ∨ c = '-' := by simp
      exact beginsWithExponent_of_digits hletter hnone h
  · obtain ⟨hexponent, rfl⟩ := Prod.mk.inj (Except.ok.inj h)
    exact beginsWithExponent_none hexponent.symm

theorem length_take_signLength (cs : List Char) :
    (cs.take (signLength cs)).length = signLength cs := by
  cases cs with
  | nil => rfl
  | cons c cs =>
    rw [signLength]
    split <;> simp

/-- What may stand before a number is its sign. -/
theorem hasSign_take (n : Number) (h : n.negative = (cs.head? == some '-')) :
    n.HasSign (cs.take (signLength cs)) := by
  cases cs with
  | nil =>
    left
    simp [signText, h]
  | cons c cs =>
    by_cases hminus : c = '-'
    · left
      simp [signText, h, hminus, signLength]
    · by_cases hplus : c = '+'
      · right
        simp [h, hplus, signLength]
      · left
        simp [signText, h, hminus, hplus, signLength]

/-- What is scanned as a number is the text of one, maybe after a plus sign. -/
theorem exists_number_of_scanNumber {l : Lexeme} {taken : Nat}
    (hdigit : beginsWithDigit (cs.drop (signLength cs)) = true)
    (h : scanNumber cs = .ok (l, taken)) :
    ∃ (n : Number) (sign rest : List Char), cs = sign ++ n.unsignedText ++ rest ∧
      taken = (sign ++ n.unsignedText).length ∧ n.HasSign sign ∧ n.IsSpelled ∧
      n.toLexeme = .ok l := by
  obtain ⟨⟨first, hfirst⟩, -⟩ := exists_append_takeDigits (cs.drop (signLength cs))
  have hwhole := isDigits_takeDigits hdigit
  simp only [scanNumber] at h
  generalize takeDigits (cs.drop (signLength cs)) = whole at h hfirst hwhole
  split at h
  · cases h
  next fraction fractionLength hfraction =>
  split at h
  · cases h
  next exponent exponentLength hexponent =>
  split at h
  · split at h
    · next lexeme hlexeme =>
      cases h
      let n : Number := ⟨cs.head? == some '-', whole, fraction, exponent⟩
      rw [← List.drop_drop, hfirst, List.drop_left] at hfraction
      obtain ⟨⟨second, rfl⟩, rfl, hfractions⟩ := exists_append_of_scanFraction (n := n) hfraction
      rw [← List.drop_drop, ← List.drop_drop, hfirst, List.drop_left, List.drop_left] at hexponent
      obtain ⟨⟨rest, rfl⟩, rfl, hexponents⟩ :=
        beginsWithExponent_of_scanExponent (n := n) hexponent
      refine ⟨n, cs.take (signLength cs), rest, ?_, ?_, hasSign_take n rfl, ?_, hlexeme⟩
      · rw [unsignedText, List.append_assoc, List.append_assoc, List.append_assoc, ← hfirst,
          List.take_append_drop]
      · simp only [List.length_append, unsignedText, length_take_signLength, n, Nat.add_assoc]
      · exact ⟨hwhole, hfractions, fun e he ↦ (hexponents e he).1,
          fun e he ↦ (hexponents e he).2.1, fun e he ↦ (hexponents e he).2.2⟩
    · cases h
  · cases h

end Number

/-! ### Lexemes -/

/-- The lexemes of one character. -/
def punctuation : List (Char × Lexeme) :=
  [('(', .openParen), (')', .closeParen), ('[', .openBracket), (']', .closeBracket), (',', .comma)]

theorem scan_of_mem_punctuation {c : Char} {l : Lexeme} (h : (c, l) ∈ punctuation)
    (rest : List Char) : scan c rest = .ok (l, 1) := by
  have hall : ∀ p ∈ punctuation, scan p.1 rest = .ok (p.2, 1) := by
    simp only [punctuation, List.forall_mem_cons]
    exact ⟨rfl, rfl, rfl, rfl, rfl, by simp⟩
  exact hall _ h

/-- What scanning gives is one character, or it is what the scanner of strings, of numbers or of
words gives. -/
theorem scan_cases {c : Char} {rest : List Char} {l : Lexeme} {taken : Nat}
    (h : scan c rest = .ok (l, taken)) :
    ((c, l) ∈ punctuation ∧ taken = 1) ∨ (c = '"' ∧ scanString rest = .ok (l, taken)) ∨
      ((c.isDigit || ((c == '+' || c == '-') && beginsWithDigit rest)) = true ∧
        scanNumber (c :: rest) = .ok (l, taken)) ∨
      isWordStart c = true ∧ l = .word (String.ofList (takeWord (c :: rest))) ∧
        taken = (takeWord (c :: rest)).length := by
  unfold scan at h
  -- parentheses, brackets and the comma
  iterate 5
    split at h
    · next hc =>
      cases h
      exact .inl ⟨by simp [punctuation, hc], rfl⟩
  split at h
  · next hquote => exact .inr (.inl ⟨hquote, h⟩)
  split at h
  · next hnumber => exact .inr (.inr (.inl ⟨hnumber, h⟩))
  split at h
  · next hstart =>
    cases h
    exact .inr (.inr (.inr ⟨hstart, rfl, rfl⟩))
  · cases h

/-- The lexeme is denoted by characters that the text begins with, so many of them. -/
def BeginsWith (cs : List Char) (l : Lexeme) (taken : Nat) : Prop :=
  ∃ own rest, cs = own ++ rest ∧ own.length = taken ∧ l.IsDenotedBy own

theorem beginsWith_single {c : Char} {cs : List Char} {l : Lexeme}
    (hblank : Text.isBlank c = false) (h : ∀ rest, scan c rest = .ok (l, 1)) :
    BeginsWith (c :: cs) l 1 :=
  ⟨[c], cs, rfl, rfl, fun rest _ ↦ ⟨c, [], rfl, hblank, h rest⟩⟩

theorem beginsWith_of_scanString {cs : List Char} {l : Lexeme} {taken : Nat}
    (h : scanString cs = .ok (l, taken)) : BeginsWith ('"' :: cs) l taken := by
  obtain ⟨body, rest, rfl, rfl, hscan⟩ := exists_body_of_scanString h
  refine ⟨'"' :: (body ++ ['"']), rest, by simp, by simp, ?_⟩
  intro rest _
  refine ⟨'"', body ++ ['"'], rfl, isBlank_quote, ?_⟩
  rw [List.append_assoc, List.singleton_append, scan_quote, hscan]
  simp

/-- A text that the scanner of numbers is tried on has a digit, maybe after a sign. -/
theorem beginsWithDigit_drop {c : Char} {cs : List Char}
    (hc : (c.isDigit || ((c == '+' || c == '-') && beginsWithDigit cs)) = true) :
    beginsWithDigit ((c :: cs).drop (signLength (c :: cs))) = true := by
  simp only [Bool.or_eq_true, Bool.and_eq_true, beq_iff_eq] at hc
  rcases hc with hc | ⟨rfl | rfl, hcs⟩
  · have hminus : c ≠ '-' := ne_of_isDigit hc rfl
    have hplus : c ≠ '+' := ne_of_isDigit hc rfl
    rwa [signLength, if_neg (by simp [hminus, hplus])]
  · exact hcs
  · exact hcs

theorem beginsWith_of_scanNumber {c : Char} {cs : List Char} {l : Lexeme} {taken : Nat}
    (hc : (c.isDigit || ((c == '+' || c == '-') && beginsWithDigit cs)) = true)
    (h : scanNumber (c :: cs) = .ok (l, taken)) : BeginsWith (c :: cs) l taken := by
  obtain ⟨n, sign, rest, heq, rfl, hsign, hspelled, hl⟩ :=
    Number.exists_number_of_scanNumber (beginsWithDigit_drop hc) h
  exact ⟨_, rest, heq, rfl, fun _ hrest ↦ Number.scans_signed hspelled hsign hl hrest⟩

theorem beginsWith_word {c : Char} (hstart : isWordStart c = true) (cs : List Char) :
    BeginsWith (c :: cs) (.word (String.ofList (takeWord (c :: cs))))
      (takeWord (c :: cs)).length := by
  obtain ⟨rest, hrest⟩ := exists_append_takeWord (c :: cs)
  exact ⟨_, rest, hrest, rfl, fun _ hends ↦ scans_word (isName_takeWord hstart cs) hends⟩

/-- A lexeme that is scanned is denoted by the characters that it takes. -/
theorem beginsWith_of_scan {c : Char} {cs : List Char} {l : Lexeme} {taken : Nat}
    (hblank : Text.isBlank c = false) (h : scan c cs = .ok (l, taken)) :
    BeginsWith (c :: cs) l taken := by
  rcases scan_cases h with ⟨hmem, rfl⟩ | ⟨rfl, hstring⟩ | ⟨hc, hnumber⟩ | ⟨hstart, rfl, rfl⟩
  · exact beginsWith_single hblank (scan_of_mem_punctuation hmem)
  · exact beginsWith_of_scanString hstring
  · exact beginsWith_of_scanNumber hc hnumber
  · exact beginsWith_word hstart cs

end PropertyFilter.Lexeme
