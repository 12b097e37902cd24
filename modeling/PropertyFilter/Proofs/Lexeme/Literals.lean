import PropertyFilter.Proofs.Lexeme.Standing

/-!
# The grammar of literals

`IsInteger own k` and `IsDecimal own x` say how the numbers are written: a sign, digits, and for a
decimal a fraction or an exponent. A quoted text is a body of the grammar between quotes.

The characters that denote a literal are those that its grammar describes, for numbers in
`isDenotedBy_integer_iff` and `isDenotedBy_decimal_iff`, and for quoted texts in
`isDenotedBy_string_iff` and `isDenotedBy_uuid_iff`. One half of each takes the parts that were
scanned for parts of the grammar, the other half scans what the grammar describes.
-/

set_option autoImplicit false

namespace PropertyFilter.Lexeme

/-! ### Grammar -/

/-- A sign, and whether what it stands before is negative. -/
inductive IsSign : List Char → Bool → Prop
  | absent : IsSign [] false
  | plus : IsSign ['+'] false
  | minus : IsSign ['-'] true

/-- What may follow the whole digits, with the digits after the point. -/
inductive IsFraction : List Char → List Char → Prop
  | absent : IsFraction [] []
  | point {ds : List Char} (hds : IsDigits ds) : IsFraction ('.' :: ds) ds

def signed (negative : Bool) (n : Nat) : Int := if negative then -(n : Int) else n

/-- What may follow the fraction, with the power of ten that it names. -/
inductive IsExponent : List Char → Int → Prop
  | absent : IsExponent [] 0
  | letter {letter : Char} {sign ds : List Char} {negative : Bool}
      (hletter : letter = 'e' ∨ letter = 'E') (hsign : IsSign sign negative) (hds : IsDigits ds) :
      IsExponent (letter :: (sign ++ ds)) (signed negative (Numeral.value ds))

/-- An integer is written with digits, maybe after a sign. -/
inductive IsInteger : List Char → Int → Prop
  | intro {sign ds : List Char} {negative : Bool} (hsign : IsSign sign negative)
      (hds : IsDigits ds) : IsInteger (sign ++ ds) (signed negative (Numeral.value ds))

/-- A decimal has a fraction or an exponent besides, and a value that is finite. -/
inductive IsDecimal : List Char → Binary64 → Prop
  | intro {sign whole fraction places exponent : List Char} {negative : Bool} {power : Int}
      {x : Binary64} (hsign : IsSign sign negative) (hwhole : IsDigits whole)
      (hfraction : IsFraction fraction places) (hexponent : IsExponent exponent power)
      (hparts : fraction ≠ [] ∨ exponent ≠ [])
      (hvalue : x = Binary64.ofDecimal negative (Numeral.value (whole ++ places))
        (power - places.length))
      (hfinite : x.isFinite = true) :
      IsDecimal (sign ++ (whole ++ (fraction ++ exponent))) x

/-! ### Parts of numbers -/

namespace Number

variable {n : Number}

theorem hasSign_iff {sign : List Char} : n.HasSign sign ↔ IsSign sign n.negative := by
  obtain ⟨negative, whole, fraction, exponent⟩ := n
  constructor
  · rintro (rfl | ⟨rfl, rfl⟩)
    · cases negative
      · exact .absent
      · exact .minus
    · exact .plus
  · rintro (_ | _ | _)
    · exact .inl rfl
    · exact .inr ⟨rfl, rfl⟩
    · exact .inl rfl

theorem isFraction (hn : n.IsSpelled) : IsFraction n.fractionText (n.fraction.getD []) := by
  obtain ⟨negative, whole, fraction, exponent⟩ := n
  cases fraction with
  | none => exact .absent
  | some ds => exact .point (hn.fraction ds rfl)

theorem isExponent (hn : n.IsSpelled) : IsExponent n.exponentText n.power := by
  obtain ⟨negative, whole, fraction, exponent⟩ := n
  cases exponent with
  | none => exact .absent
  | some e =>
    obtain ⟨letter, sign, ds⟩ := e
    have hletter : letter = 'e' ∨ letter = 'E' := hn.letter _ rfl
    have hds : IsDigits ds := hn.power _ rfl
    cases sign with
    | none => exact .letter hletter .absent hds
    | some c =>
      have hc : c = '+' ∨ c = '-' := hn.sign _ rfl c rfl
      rcases hc with rfl | rfl
      · exact .letter hletter .plus hds
      · exact .letter hletter .minus hds

/-- The parts that a fraction is scanned as. -/
theorem exists_fraction {fraction places : List Char} (h : IsFraction fraction places) :
    ∃ part, (∀ ds ∈ part, IsDigits ds) ∧ ∀ n : Number, n.fraction = part →
      n.fractionText = fraction ∧ n.fraction.getD [] = places := by
  cases h with
  | absent =>
    refine ⟨none, nofun, ?_⟩
    rintro ⟨negative, whole, _, exponent⟩ rfl
    exact ⟨rfl, rfl⟩
  | point hds =>
    refine ⟨some places, by rintro ds ⟨⟩; exact hds, ?_⟩
    rintro ⟨negative, whole, _, exponent⟩ rfl
    exact ⟨rfl, rfl⟩

/-- The parts that an exponent is scanned as. -/
theorem exists_exponent {exponent : List Char} {power : Int} (h : IsExponent exponent power) :
    ∃ part : Option (Char × Option Char × List Char),
      (∀ e ∈ part, (e.1 = 'e' ∨ e.1 = 'E') ∧ (∀ c ∈ e.2.1, c = '+' ∨ c = '-') ∧ IsDigits e.2.2) ∧
      ∀ n : Number, n.exponent = part → n.exponentText = exponent ∧ n.power = power := by
  cases h with
  | absent =>
    refine ⟨none, nofun, ?_⟩
    rintro ⟨negative, whole, fraction, _⟩ rfl
    exact ⟨rfl, rfl⟩
  | @letter letter sign ds negative hletter hsign hds =>
    refine ⟨some (letter, sign.head?, ds), ?_, ?_⟩
    · rintro e ⟨⟩
      refine ⟨hletter, ?_, hds⟩
      cases hsign <;> simp
    · rintro ⟨minus, whole, fraction, _⟩ rfl
      cases hsign <;> exact ⟨rfl, rfl⟩

/-- Parts of the grammar are the parts of a number. -/
theorem exists_spelled {sign whole fraction places exponent : List Char} {negative : Bool}
    {power : Int} (hsign : IsSign sign negative) (hwhole : IsDigits whole)
    (hfraction : IsFraction fraction places) (hexponent : IsExponent exponent power) :
    ∃ n : Number, n.IsSpelled ∧ n.HasSign sign ∧ n.negative = negative ∧ n.whole = whole ∧
      (n.fractionText = fraction ∧ n.fraction.getD [] = places) ∧
      n.exponentText = exponent ∧ n.power = power := by
  obtain ⟨places', hplaces, hfractionText⟩ := exists_fraction hfraction
  obtain ⟨part, hpart, hexponentText⟩ := exists_exponent hexponent
  let n : Number := ⟨negative, whole, places', part⟩
  have hspelled : n.IsSpelled :=
    ⟨hwhole, hplaces, fun e he ↦ (hpart e he).1, fun e he ↦ (hpart e he).2.1,
      fun e he ↦ (hpart e he).2.2⟩
  exact ⟨n, hspelled, hasSign_iff.mpr hsign, rfl, rfl, hfractionText n rfl, hexponentText n rfl⟩

/-! ### Lexemes of numbers -/

theorem isSome_iff : (n.fraction.isSome || n.exponent.isSome) = true ↔
    n.fractionText ≠ [] ∨ n.exponentText ≠ [] := by
  obtain ⟨negative, whole, fraction, exponent⟩ := n
  cases fraction <;> cases exponent <;> simp [fractionText, exponentText]

theorem toLexeme_eq_integer_iff {k : Int} : n.toLexeme = .ok (.integer k) ↔
    (n.fractionText = [] ∧ n.exponentText = []) ∧ n.toInt? = some k := by
  unfold toLexeme
  split
  · next hparts =>
    constructor
    · intro h
      dsimp only at h
      split at h <;> cases h
    · rintro ⟨⟨hfraction, hexponent⟩, -⟩
      rcases isSome_iff.mp hparts with hsome | hsome
      · exact absurd hfraction hsome
      · exact absurd hexponent hsome
  · next hparts =>
    obtain ⟨hfraction, hexponent⟩ := not_or.mp (mt isSome_iff.mpr hparts)
    rw [and_iff_right ⟨not_not.mp hfraction, not_not.mp hexponent⟩]
    cases n.toInt? <;> simp

theorem toLexeme_eq_decimal_iff {x : Binary64} : n.toLexeme = .ok (.decimal x) ↔
    (n.fractionText ≠ [] ∨ n.exponentText ≠ []) ∧ x = n.toBinary64 ∧ x.isFinite = true := by
  unfold toLexeme
  split
  · next hparts =>
    dsimp only
    split
    · next hfinite =>
      rw [Except.ok.injEq, Lexeme.decimal.injEq]
      exact ⟨fun h ↦ ⟨isSome_iff.mp hparts, h.symm, h ▸ hfinite⟩, fun h ↦ h.2.1.symm⟩
    · next hfinite => exact ⟨nofun, fun h ↦ absurd (h.2.1 ▸ h.2.2) hfinite⟩
  · next hparts =>
    refine ⟨fun h ↦ ?_, fun h ↦ absurd (isSome_iff.mpr h.1) hparts⟩
    split at h <;> cases h

end Number

def isNumeric : Lexeme → Bool
  | .integer _ => true
  | .decimal _ => true
  | _ => false

def isQuoted : Lexeme → Bool
  | .string _ => true
  | .uuid _ _ => true
  | _ => false

theorem isNumeric_eq_false_of_isQuoted {l : Lexeme} (h : l.isQuoted = true) :
    l.isNumeric = false := by
  cases l <;> first | rfl | cases h

theorem kinds_of_mem_punctuation {c : Char} {l : Lexeme} (h : (c, l) ∈ punctuation) :
    l.isNumeric = false ∧ l.isQuoted = false := by
  have hall : ∀ p ∈ punctuation, p.2.isNumeric = false ∧ p.2.isQuoted = false := by decide
  exact hall _ h

theorem isQuoted_of_scanString {cs : List Char} {l : Lexeme} {taken : Nat}
    (h : scanString cs = .ok (l, taken)) : l.isQuoted = true := by
  unfold scanString at h
  repeat' split at h
  all_goals cases h
  all_goals rfl

theorem isNumeric_of_scanNumber {cs : List Char} {l : Lexeme} {taken : Nat}
    (h : scanNumber cs = .ok (l, taken)) : l.isNumeric = true := by
  simp only [scanNumber, Number.toLexeme] at h
  repeat' split at h
  all_goals cases h
  all_goals
    next hlexeme =>
    split at hlexeme
    all_goals
      split at hlexeme
      · cases hlexeme
        rfl
      · cases hlexeme

/-- Numbers come from the scanner of numbers. -/
theorem scanNumber_of_scan {c : Char} {rest : List Char} {l : Lexeme} {taken : Nat}
    (hl : l.isNumeric = true) (h : scan c rest = .ok (l, taken)) :
    (c.isDigit || ((c == '+' || c == '-') && beginsWithDigit rest)) = true ∧
      scanNumber (c :: rest) = .ok (l, taken) := by
  rcases scan_cases h with ⟨hmem, -⟩ | ⟨-, hstring⟩ | hnumber | ⟨-, rfl, -⟩
  · exact absurd hl (Bool.eq_false_iff.mp (kinds_of_mem_punctuation hmem).1)
  · have hquoted := isQuoted_of_scanString hstring
    exact absurd hl (Bool.eq_false_iff.mp (isNumeric_eq_false_of_isQuoted hquoted))
  · exact hnumber
  · cases hl

/-- Quoted texts come from the scanner of strings. -/
theorem scanString_of_scan {c : Char} {rest : List Char} {l : Lexeme} {taken : Nat}
    (hl : l.isQuoted = true) (h : scan c rest = .ok (l, taken)) :
    c = '"' ∧ scanString rest = .ok (l, taken) := by
  rcases scan_cases h with ⟨hmem, -⟩ | hstring | ⟨-, hnumber⟩ | ⟨-, rfl, -⟩
  · exact absurd hl (Bool.eq_false_iff.mp (kinds_of_mem_punctuation hmem).2)
  · exact hstring
  · have hnumeric := isNumeric_of_scanNumber hnumber
    exact absurd hnumeric (Bool.eq_false_iff.mp (isNumeric_eq_false_of_isQuoted hl))
  · cases hl

/-- A word is denoted by its own characters. -/
theorem eq_toList_of_isDenotedBy_word {name : String} {own : List Char}
    (h : (word name).IsDenotedBy own) : own = name.toList := by
  obtain ⟨c, cs, rfl, -, hscan⟩ := h [] rfl
  rw [List.append_nil] at hscan
  rcases scan_cases hscan with ⟨hmem, -⟩ | ⟨-, hstring⟩ | ⟨-, hnumber⟩ | ⟨-, hword, hlength⟩
  · simp [punctuation] at hmem
  · cases isQuoted_of_scanString hstring
  · cases isNumeric_of_scanNumber hnumber
  · obtain ⟨rest, hrest⟩ := exists_append_takeWord (c :: cs)
    have htaken : takeWord (c :: cs) = c :: cs :=
      List.IsPrefix.eq_of_length ⟨rest, hrest.symm⟩ hlength.symm
    rw [Lexeme.word.inj hword, String.toList_ofList, htaken]

/-- A number is denoted by its text without needless plus sign, or after one. -/
theorem isDenotedBy_numeric_iff {l : Lexeme} (hl : l.isNumeric = true) {own : List Char} :
    l.IsDenotedBy own ↔ ∃ (n : Number) (sign : List Char), own = sign ++ n.unsignedText ∧
      n.HasSign sign ∧ n.IsSpelled ∧ n.toLexeme = .ok l := by
  constructor
  · intro h
    obtain ⟨c, cs, rfl, -, hscan⟩ := h [] rfl
    rw [List.append_nil] at hscan
    obtain ⟨hc, hnumber⟩ := scanNumber_of_scan hl hscan
    obtain ⟨n, sign, rest, heq, hlength, hsign, hspelled, hlexeme⟩ :=
      Number.exists_number_of_scanNumber (beginsWithDigit_drop hc) hnumber
    have hown : sign ++ n.unsignedText = c :: cs :=
      List.IsPrefix.eq_of_length ⟨rest, heq.symm⟩ hlength.symm
    exact ⟨n, sign, hown.symm, hsign, hspelled, hlexeme⟩
  · rintro ⟨n, sign, rfl, hsign, hspelled, hlexeme⟩
    exact fun _ hrest ↦ Number.scans_signed hspelled hsign hlexeme hrest

/-- What denotes an integer is written as one. -/
theorem isDenotedBy_integer_iff {k : Int} {own : List Char} :
    (integer k).IsDenotedBy own ↔ IsInteger own k := by
  rw [isDenotedBy_numeric_iff rfl]
  constructor
  · rintro ⟨n, sign, rfl, hsign, hspelled, hlexeme⟩
    obtain ⟨⟨hfraction, hexponent⟩, hint⟩ := Number.toLexeme_eq_integer_iff.mp hlexeme
    rw [Number.toInt?_eq hspelled.whole] at hint
    obtain rfl := Option.some.inj hint
    rw [Number.unsignedText, hfraction, hexponent, List.append_nil, List.append_nil]
    exact .intro (Number.hasSign_iff.mp hsign) hspelled.whole
  · rintro ⟨hsign, hds⟩
    obtain ⟨n, hspelled, hn, rfl, rfl, ⟨hfraction, -⟩, hexponent, -⟩ :=
      Number.exists_spelled hsign hds .absent .absent
    have hlexeme := Number.toLexeme_eq_integer_iff.mpr
      ⟨⟨hfraction, hexponent⟩, Number.toInt?_eq hspelled.whole⟩
    refine ⟨n, _, ?_, hn, hspelled, hlexeme⟩
    rw [Number.unsignedText, hfraction, hexponent, List.append_nil, List.append_nil]

/-- What denotes a decimal is written as one. -/
theorem isDenotedBy_decimal_iff {x : Binary64} {own : List Char} :
    (decimal x).IsDenotedBy own ↔ IsDecimal own x := by
  rw [isDenotedBy_numeric_iff rfl]
  constructor
  · rintro ⟨n, sign, rfl, hsign, hspelled, hlexeme⟩
    obtain ⟨hparts, hvalue, hfinite⟩ := Number.toLexeme_eq_decimal_iff.mp hlexeme
    exact .intro (Number.hasSign_iff.mp hsign) hspelled.whole (Number.isFraction hspelled)
      (Number.isExponent hspelled) hparts hvalue hfinite
  · rintro ⟨hsign, hwhole, hfraction, hexponent, hparts, hvalue, hfinite⟩
    obtain ⟨n, hspelled, hn, rfl, rfl, ⟨rfl, rfl⟩, rfl, rfl⟩ :=
      Number.exists_spelled hsign hwhole hfraction hexponent
    exact ⟨n, _, rfl, hn, hspelled,
      Number.toLexeme_eq_decimal_iff.mpr ⟨hparts, hvalue, hfinite⟩⟩

/-! ### Quoted texts -/

/-- The text of a quoted lexeme is what its body stands for. -/
theorem scanString_eq_string_iff {cs : List Char} {s : String} {taken : Nat} :
    scanString cs = .ok (.string s, taken) ↔ ∃ escaped,
      Lexeme.scanBody 1 cs = .ok (s.toList, escaped, taken) ∧
        (Uuid.shaped s.toList = true → escaped = true) := by
  unfold scanString
  cases hbody : Lexeme.scanBody 1 cs with
  | error failure => simp
  | ok read =>
    obtain ⟨text, escaped, length⟩ := read
    dsimp only
    split
    · next hshaped =>
      rw [Bool.and_eq_true, Bool.not_eq_true'] at hshaped
      constructor
      · intro h
        split at h <;> cases h
      · rintro ⟨escaped', heq, himplies⟩
        cases heq
        exact absurd (himplies hshaped.2) (by simp [hshaped.1])
    · next hshaped =>
      rw [Bool.and_eq_true, Bool.not_eq_true', not_and] at hshaped
      constructor
      · intro h
        cases h
        refine ⟨escaped, by rw [String.toList_ofList], fun htrue ↦ ?_⟩
        rw [String.toList_ofList] at htrue
        exact Bool.of_not_eq_false fun hfalse ↦ hshaped hfalse htrue
      · rintro ⟨escaped', heq, -⟩
        cases heq
        rw [String.ofList_toList]

theorem scanString_eq_uuid_iff {cs : List Char} {u : Uuid} {s : String} {taken : Nat} :
    scanString cs = .ok (.uuid u s, taken) ↔
      Lexeme.scanBody 1 cs = .ok (s.toList, false, taken) ∧ Uuid.shaped s.toList = true ∧
        Uuid.read? s.toList = some u := by
  unfold scanString
  cases hbody : Lexeme.scanBody 1 cs with
  | error failure => simp
  | ok read =>
    obtain ⟨text, escaped, length⟩ := read
    dsimp only
    split
    · next hshaped =>
      rw [Bool.and_eq_true, Bool.not_eq_true'] at hshaped
      obtain ⟨rfl, hshaped⟩ := hshaped
      constructor
      · intro h
        split at h
        · next value hread =>
          cases h
          rw [String.toList_ofList]
          exact ⟨rfl, hshaped, hread⟩
        · cases h
      · rintro ⟨heq, -, hread⟩
        cases heq
        rw [hread, String.ofList_toList]
    · next hshaped =>
      constructor
      · nofun
      · rintro ⟨heq, htrue, -⟩
        cases heq
        simp [htrue] at hshaped

/-- Characters between quotes. -/
def quotation (body : List Char) : List Char := '"' :: (body ++ ['"'])

/-- Characters that denote a quoted lexeme are a body between quotes that is scanned as it. -/
theorem exists_scanString_of_isDenotedBy {l : Lexeme} (hl : l.isQuoted = true) {own : List Char}
    (h : l.IsDenotedBy own) :
    ∃ cs, own = '"' :: cs ∧ scanString cs = .ok (l, cs.length + 1) := by
  obtain ⟨c, cs, rfl, -, hscan⟩ := h [] rfl
  rw [List.append_nil] at hscan
  obtain ⟨rfl, hstring⟩ := scanString_of_scan hl hscan
  exact ⟨cs, rfl, hstring⟩

theorem isDenotedBy_quotation {l : Lexeme} {body : List Char}
    (h : ∀ rest, scanString (body ++ '"' :: rest) = .ok (l, body.length + 2)) :
    l.IsDenotedBy (quotation body) := by
  intro rest _
  refine ⟨'"', body ++ ['"'], rfl, isBlank_quote, ?_⟩
  rw [List.append_assoc, List.singleton_append, scan_quote, h]
  simp [quotation]

theorem eq_quotation_of_scanBody {cs text : List Char} {escaped : Bool}
    (h : Lexeme.scanBody 1 cs = .ok (text, escaped, cs.length + 1)) :
    ∃ body, '"' :: cs = quotation body ∧ IsBody body text escaped := by
  obtain ⟨body, rest, rfl, hlength, hbody⟩ := exists_isBody_of_scanBody h
  rw [List.length_append, List.length_cons] at hlength
  obtain rfl : rest = [] := List.length_eq_zero_iff.mp (by omega)
  exact ⟨body, rfl, hbody⟩

/-- A body between quotes denotes a string if it has an escape or no shape of an identifier. -/
theorem isDenotedBy_string_iff {s : String} {own : List Char} :
    (string s).IsDenotedBy own ↔ ∃ body escaped, own = quotation body ∧
      IsBody body s.toList escaped ∧ (Uuid.shaped s.toList = true → escaped = true) := by
  constructor
  · intro h
    obtain ⟨cs, rfl, hstring⟩ := exists_scanString_of_isDenotedBy rfl h
    obtain ⟨escaped, hscan, hshaped⟩ := scanString_eq_string_iff.mp hstring
    obtain ⟨body, hown, hbody⟩ := eq_quotation_of_scanBody hscan
    exact ⟨body, escaped, hown, hbody, hshaped⟩
  · rintro ⟨body, escaped, rfl, hbody, hshaped⟩
    refine isDenotedBy_quotation fun rest ↦ scanString_eq_string_iff.mpr ⟨escaped, ?_, hshaped⟩
    rw [hbody.scanBody, Nat.add_right_comm, Nat.add_comm]

/-- A body between quotes denotes an identifier if it has no escape and is read as one. -/
theorem isDenotedBy_uuid_iff {u : Uuid} {s : String} {own : List Char} :
    (uuid u s).IsDenotedBy own ↔ own = quotation s.toList ∧ IsBody s.toList s.toList false ∧
      Uuid.shaped s.toList = true ∧ Uuid.read? s.toList = some u := by
  constructor
  · intro h
    obtain ⟨cs, rfl, hstring⟩ := exists_scanString_of_isDenotedBy rfl h
    obtain ⟨hscan, hread⟩ := scanString_eq_uuid_iff.mp hstring
    obtain ⟨body, hown, hbody⟩ := eq_quotation_of_scanBody hscan
    obtain rfl := hbody.eq_of_not_escaped
    exact ⟨hown, hbody, hread⟩
  · rintro ⟨rfl, hbody, hread⟩
    refine isDenotedBy_quotation fun rest ↦ scanString_eq_uuid_iff.mpr ⟨?_, hread⟩
    rw [hbody.scanBody, Nat.add_right_comm, Nat.add_comm]

end PropertyFilter.Lexeme
