import PropertyFilter.Lexeme.Scan
import PropertyFilter.Text.Blank

/-!
# Texts of lexemes without quotes

`Scans own l rest` says that a text which goes on with `rest` begins with the lexeme `l`, written as
`own`. It is shown for punctuation, for the names that `IsName` describes (`scans_word`) and for the
numbers that `Number.IsSpelled` describes (`scans_number`). A name or a number has to end where it
ends: it is followed by what may follow a number, such as nothing, a blank, a comma or a parenthesis
(`Boundary`), which is all that ever follows one in the text of a filter.
-/

set_option autoImplicit false

namespace PropertyFilter.Lexeme

/-- What may follow a name or a number. -/
def Boundary (rest : List Char) : Prop :=
  ∀ c ∈ rest.head?, c = ' ' ∨ c = ',' ∨ c = '(' ∨ c = ')'

theorem boundary_nil : Boundary [] := by simp [Boundary]

theorem boundary_blank (rest : List Char) : Boundary (' ' :: rest) := by simp [Boundary]

theorem boundary_comma (rest : List Char) : Boundary (',' :: rest) := by simp [Boundary]

theorem boundary_openParen (rest : List Char) : Boundary ('(' :: rest) := by simp [Boundary]

theorem boundary_closeParen (rest : List Char) : Boundary (')' :: rest) := by simp [Boundary]

/-- The four characters, told apart. -/
theorem Boundary.cases {rest : List Char} (h : Boundary rest) :
    rest = [] ∨ ∃ c cs, rest = c :: cs ∧ (c = ' ' ∨ c = ',' ∨ c = '(' ∨ c = ')') := by
  cases rest with
  | nil => exact .inl rfl
  | cons c cs => exact .inr ⟨c, cs, rfl, h c rfl⟩

/-- A text begins with a lexeme that is written in just these characters. -/
def Scans (own : List Char) (l : Lexeme) (rest : List Char) : Prop :=
  ∃ c cs, own = c :: cs ∧ Text.isBlank c = false ∧ scan c (cs ++ rest) = .ok (l, own.length)

theorem scans_openParen (rest : List Char) : Scans ['('] .openParen rest :=
  ⟨'(', [], rfl, by decide, rfl⟩

theorem scans_closeParen (rest : List Char) : Scans [')'] .closeParen rest :=
  ⟨')', [], rfl, by decide, rfl⟩

theorem scans_comma (rest : List Char) : Scans [','] .comma rest :=
  ⟨',', [], rfl, by decide, rfl⟩

/-! ### Ends of names and numbers -/

/-- No character is both blank and alphanumeric, since no range of one kind meets one of the other
kind. -/
theorem mayFollowNumber_of_isBlank {c : Char} (h : Text.isBlank c = true) (cs : List Char) :
    mayFollowNumber (c :: cs) = true := by
  have hapart : (Text.blankRanges.all fun blanks ↦ Text.alphanumericRanges.all fun range ↦
      blanks.2 < range.1 || range.2 < blanks.1) = true := by decide +kernel
  obtain ⟨blanks, hblanks, hin⟩ := List.any_eq_true.mp h
  have halphanumeric : Text.isAlphanumeric c = false := by
    rw [Text.isAlphanumeric, Text.inRanges, List.any_eq_false]
    intro range hrange
    have hdisjoint := List.all_eq_true.mp (List.all_eq_true.mp hapart blanks hblanks) range hrange
    simp only [Bool.or_eq_true, Bool.and_eq_true, decide_eq_true_eq] at hdisjoint hin ⊢
    omega
  have hunderscore : c ≠ '_' := Text.ne_of_class h (by decide)
  have hpoint : c ≠ '.' := Text.ne_of_class h (by decide)
  simp [mayFollowNumber, halphanumeric, hunderscore, hpoint]

theorem mayFollowNumber_of_boundary {rest : List Char} (h : Boundary rest) :
    mayFollowNumber rest = true := by
  have hcomma : Text.isAlphanumeric ',' = false := by decide +kernel
  have hopen : Text.isAlphanumeric '(' = false := by decide +kernel
  have hclose : Text.isAlphanumeric ')' = false := by decide +kernel
  rcases h.cases with rfl | ⟨c, cs, rfl, rfl | rfl | rfl | rfl⟩
  · rfl
  · exact mayFollowNumber_of_isBlank (by decide) cs
  · simp [mayFollowNumber, hcomma]
  · simp [mayFollowNumber, hopen]
  · simp [mayFollowNumber, hclose]

theorem isAlphanumeric_of_isAlphanum {c : Char} (h : c.isAlphanum = true) :
    Text.isAlphanumeric c = true := by
  change (decide (65 ≤ c.val ∧ c.val ≤ 90) || (decide (97 ≤ c.val) && decide (c.val ≤ 122)) ||
    c.isDigit) = true at h
  simp only [Char.isDigit, Bool.or_eq_true, Bool.and_eq_true, decide_eq_true_eq, ge_iff_le,
    UInt32.le_iff_toNat_le] at h
  have hascii : Text.inRanges [(48, 57), (65, 90), (97, 122)] c = true := by
    simp only [Text.inRanges, List.any_cons, List.any_nil, Bool.or_false, Bool.or_eq_true,
      Bool.and_eq_true, decide_eq_true_eq]
    change ((65 ≤ c.toNat ∧ c.toNat ≤ 90) ∨ 97 ≤ c.toNat ∧ c.toNat ≤ 122) ∨
      48 ≤ c.toNat ∧ c.toNat ≤ 57 at h
    omega
  have hsplit : Text.alphanumericRanges =
      [(48, 57), (65, 90), (97, 122)] ++ Text.alphanumericRanges.drop 3 := rfl
  rw [Text.isAlphanumeric, hsplit, Text.inRanges_append, hascii, Bool.true_or]

/-- What may follow a number begins with no character of a word and with no point. -/
theorem head_of_mayFollowNumber {c : Char} {cs : List Char}
    (h : mayFollowNumber (c :: cs) = true) : isWordPart c = false ∧ c ≠ '.' := by
  simp only [mayFollowNumber, Bool.not_eq_true', Bool.or_eq_false_iff, beq_eq_false_iff_ne] at h
  obtain ⟨⟨halphanumeric, hunderscore⟩, hpoint⟩ := h
  have halphanum : c.isAlphanum = false :=
    Bool.eq_false_iff.mpr fun htrue ↦
      Bool.eq_false_iff.mp halphanumeric (isAlphanumeric_of_isAlphanum htrue)
  simp [isWordPart, halphanum, hunderscore, hpoint]

/-! ### Words -/

/-- Segments with points between them, each of word characters and not beginning with a digit. -/
inductive IsName : List Char → Prop
  | segment {c : Char} {cs : List Char} (hstart : isWordStart c = true)
      (hparts : ∀ d ∈ cs, isWordPart d = true) : IsName (c :: cs)
  | dotted {c : Char} {cs name : List Char} (hstart : isWordStart c = true)
      (hparts : ∀ d ∈ cs, isWordPart d = true) (hname : IsName name) :
      IsName (c :: (cs ++ '.' :: name))

theorem IsName.head {name : List Char} (h : IsName name) :
    ∃ c cs, name = c :: cs ∧ isWordStart c = true := by
  cases h with
  | segment hstart hparts => exact ⟨_, _, rfl, hstart⟩
  | dotted hstart hparts hname => exact ⟨_, _, rfl, hstart⟩

/-- Whether a text is a segment of a name. -/
def isSegment : List Char → Bool
  | [] => false
  | c :: cs => isWordStart c && cs.all isWordPart

theorem isSegment_cons_iff {c : Char} {cs : List Char} :
    isSegment (c :: cs) = true ↔ isWordStart c = true ∧ ∀ d ∈ cs, isWordPart d = true := by
  rw [isSegment, Bool.and_eq_true, List.all_eq_true]

theorem IsName.of_isSegment {name : List Char} (h : isSegment name = true) : IsName name := by
  cases name with
  | nil => exact absurd h Bool.false_ne_true
  | cons c cs =>
    obtain ⟨hstart, hparts⟩ := isSegment_cons_iff.mp h
    exact .segment hstart hparts

theorem IsName.point {segment name : List Char} (h : isSegment segment = true)
    (hname : IsName name) : IsName (segment ++ '.' :: name) := by
  cases segment with
  | nil => exact absurd h Bool.false_ne_true
  | cons c cs =>
    obtain ⟨hstart, hparts⟩ := isSegment_cons_iff.mp h
    exact .dotted hstart hparts hname

theorem isWordPart_of_isWordStart {c : Char} (h : isWordStart c = true) : isWordPart c = true := by
  simp only [isWordStart, isWordPart, Char.isAlphanum, Bool.or_eq_true] at h ⊢
  exact h.imp_left .inl

/-- The codes of the characters that words begin with. -/
theorem toNat_of_isWordStart {c : Char} (h : isWordStart c = true) :
    c.toNat = 0x5f ∨ (0x41 ≤ c.toNat ∧ c.toNat ≤ 0x5a) ∨ 0x61 ≤ c.toNat ∧ c.toNat ≤ 0x7a := by
  rw [isWordStart, Bool.or_eq_true, beq_iff_eq] at h
  rcases h with h | rfl
  · have hcase : c.isUpper = true ∨ c.isLower = true := Bool.or_eq_true_iff.mp h
    rcases hcase with h | h
    · have hupper : 'A'.val ≤ c.val ∧ c.val ≤ 'Z'.val := of_decide_eq_true h
      exact .inr (.inl hupper)
    · obtain ⟨hfirst, hlast⟩ := Bool.and_eq_true_iff.mp h
      exact .inr (.inr ⟨of_decide_eq_true hfirst, of_decide_eq_true hlast⟩)
  · exact .inl rfl

theorem isBlank_eq_false_of_isWordStart {c : Char} (h : isWordStart c = true) :
    Text.isBlank c = false := by
  have hcode := toNat_of_isWordStart h
  simp only [Text.isBlank, Text.inRanges, Text.blankRanges, List.any_cons, List.any_nil,
    Bool.or_false, Bool.or_eq_false_iff, Bool.and_eq_false_iff, decide_eq_false_iff_not]
  omega

theorem takeWord_cons {c : Char} (h : isWordPart c = true) (rest : List Char) :
    takeWord (c :: rest) = c :: takeWord rest := by
  rw [takeWord, if_pos h]
  rintro d ds rfl
  exact absurd h (by decide)

theorem takeWord_append {cs : List Char} (h : ∀ c ∈ cs, isWordPart c = true) (rest : List Char) :
    takeWord (cs ++ rest) = cs ++ takeWord rest := by
  induction cs with
  | nil => rfl
  | cons c cs ih =>
    rw [List.forall_mem_cons] at h
    rw [List.cons_append, takeWord_cons h.1, ih h.2, List.cons_append]

theorem takeWord_of_mayFollowNumber {rest : List Char} (h : mayFollowNumber rest = true) :
    takeWord rest = [] := by
  cases rest with
  | nil => rfl
  | cons c cs =>
    obtain ⟨hpart, hpoint⟩ := head_of_mayFollowNumber h
    rw [takeWord, if_neg (by simp [hpart])]
    rintro d ds rfl
    exact absurd rfl hpoint

/-- A name that ends is taken as a whole. -/
theorem takeWord_name {name rest : List Char} (hname : IsName name)
    (hrest : mayFollowNumber rest = true) : takeWord (name ++ rest) = name := by
  induction hname with
  | segment hstart hparts =>
    rw [List.cons_append, takeWord_cons (isWordPart_of_isWordStart hstart),
      takeWord_append hparts, takeWord_of_mayFollowNumber hrest, List.append_nil]
  | dotted hstart hparts hname ih =>
    obtain ⟨c, cs, rfl, hc⟩ := hname.head
    rw [List.cons_append] at ih
    rw [List.cons_append, takeWord_cons (isWordPart_of_isWordStart hstart), List.append_assoc,
      takeWord_append hparts, List.cons_append, List.cons_append, takeWord, if_pos hc, ih]

theorem IsName.cons {c d : Char} {cs : List Char} (h : IsName (c :: cs))
    (hd : isWordPart d = true) : IsName (c :: d :: cs) := by
  cases h with
  | segment hstart hparts => exact .segment hstart (List.forall_mem_cons.mpr ⟨hd, hparts⟩)
  | dotted hstart hparts hname =>
    rw [← List.cons_append]
    exact .dotted hstart (List.forall_mem_cons.mpr ⟨hd, hparts⟩) hname

theorem IsName.tail {c d : Char} {cs : List Char} (h : IsName (c :: d :: cs))
    (hd : isWordStart d = true) : IsName (d :: cs) := by
  generalize hname : c :: d :: cs = name at h
  cases h with
  | segment hstart hparts =>
    obtain ⟨rfl, rfl⟩ := List.cons.inj hname
    exact .segment hd (List.forall_mem_cons.mp hparts).2
  | @dotted _ parts name hstart hparts hafter =>
    obtain ⟨rfl, htail⟩ := List.cons.inj hname
    cases parts with
    | nil =>
      obtain ⟨rfl, rfl⟩ := List.cons.inj htail
      exact absurd hd (by decide)
    | cons e parts =>
      obtain ⟨rfl, rfl⟩ := List.cons.inj htail
      exact .dotted hd (List.forall_mem_cons.mp hparts).2 hafter

/-- What is taken as a word is a name. -/
theorem isName_takeWord {c : Char} (h : isWordStart c = true) (rest : List Char) :
    IsName (takeWord (c :: rest)) := by
  rw [takeWord_cons (isWordPart_of_isWordStart h)]
  fun_induction takeWord rest generalizing c with
  | case1 => exact .segment h (by simp)
  | case2 d rest hd ih =>
    have hname : IsName (c :: takeWord (d :: rest)) := ih h
    rw [takeWord_cons (isWordPart_of_isWordStart hd)] at hname ⊢
    have hsegment : isSegment [c] = true := isSegment_cons_iff.mpr ⟨h, by simp⟩
    exact .point hsegment (hname.tail hd)
  | case3 => exact .segment h (by simp)
  | case4 d rest _ hd ih => exact (ih h).cons hd
  | case5 => exact .segment h (by simp)

theorem scan_word {c : Char} (h : isWordStart c = true) (rest : List Char) :
    scan c rest =
      .ok (.word (String.ofList (takeWord (c :: rest))), (takeWord (c :: rest)).length) := by
  have hcode := toNat_of_isWordStart h
  have hother (d : Char) (hd : isWordStart d = false) : c ≠ d := Text.ne_of_class h hd
  have hdigit : c.isDigit = false := by
    rw [Char.isDigit, Bool.and_eq_false_iff, decide_eq_false_iff_not, decide_eq_false_iff_not]
    simp only [ge_iff_le, UInt32.le_iff_toNat_le]
    change ¬ 48 ≤ c.toNat ∨ ¬ c.toNat ≤ 57
    omega
  simp [scan, hother _ (show isWordStart '(' = false by decide),
    hother _ (show isWordStart ')' = false by decide),
    hother _ (show isWordStart '[' = false by decide),
    hother _ (show isWordStart ']' = false by decide),
    hother _ (show isWordStart ',' = false by decide),
    hother _ (show isWordStart '"' = false by decide),
    hother _ (show isWordStart '+' = false by decide),
    hother _ (show isWordStart '-' = false by decide), hdigit, h]

/-- A name that ends is scanned as the word it is. -/
theorem scans_word {name rest : List Char} (hname : IsName name)
    (hrest : mayFollowNumber rest = true) : Scans name (.word (String.ofList name)) rest := by
  obtain ⟨c, cs, rfl, hc⟩ := hname.head
  refine ⟨c, cs, rfl, isBlank_eq_false_of_isWordStart hc, ?_⟩
  have htaken := takeWord_name hname hrest
  rw [List.cons_append] at htaken
  rw [scan_word hc, htaken]

/-! ### Numbers -/

/-- A run of digits that is not empty. -/
def IsDigits (cs : List Char) : Prop := cs ≠ [] ∧ ∀ c ∈ cs, c.isDigit = true

theorem IsDigits.head {ds : List Char} (h : IsDigits ds) :
    ∃ c cs, ds = c :: cs ∧ c.isDigit = true := by
  obtain ⟨c, cs, rfl⟩ := List.exists_cons_of_ne_nil h.1
  exact ⟨c, cs, rfl, h.2 c List.mem_cons_self⟩

/-- The codes of digits. -/
theorem toNat_of_isDigit {c : Char} (h : c.isDigit = true) : 48 ≤ c.toNat ∧ c.toNat ≤ 57 := by
  simp only [Char.isDigit, Bool.and_eq_true, decide_eq_true_eq, ge_iff_le,
    UInt32.le_iff_toNat_le] at h
  exact h

/-- A digit is none of the characters that are no digits. -/
theorem ne_of_isDigit {c d : Char} (h : c.isDigit = true) (hd : d.isDigit = false) : c ≠ d :=
  Text.ne_of_class h hd

theorem takeDigits_append {ds rest : List Char} (h : ∀ c ∈ ds, c.isDigit = true)
    (hrest : beginsWithDigit rest = false) : takeDigits (ds ++ rest) = ds := by
  rw [takeDigits, List.takeWhile_append_of_pos h]
  cases rest with
  | nil => simp
  | cons c cs =>
    rw [List.takeWhile_cons_of_neg (by simpa [beginsWithDigit] using hrest), List.append_nil]

theorem beginsWithDigit_of_mayFollowNumber {rest : List Char}
    (h : mayFollowNumber rest = true) : beginsWithDigit rest = false := by
  cases rest with
  | nil => rfl
  | cons c cs =>
    have hpart := (head_of_mayFollowNumber h).1
    simp only [isWordPart, Char.isAlphanum, Bool.or_eq_false_iff] at hpart
    exact hpart.1.2

namespace Number

/-- The sign of a number, which is written only if the number is negative. -/
def signText (n : Number) : List Char := if n.negative then ['-'] else []

/-- What may stand before the digits of a number: its sign, or a plus sign if it is not negative. -/
def HasSign (n : Number) (sign : List Char) : Prop :=
  sign = n.signText ∨ (sign = ['+'] ∧ n.negative = false)

/-- Digits can be read. -/
theorem toInt?_eq {n : Number} (h : IsDigits n.whole) : n.toInt? =
    some (if n.negative then -(Numeral.value n.whole : Int) else Numeral.value n.whole) := by
  have hread : Numeral.read? n.whole = some (Numeral.value n.whole) :=
    if_pos (by simpa [IsDigits] using h)
  rw [toInt?, hread, Option.map_some]

/-- The text after the digits of the whole number, up to the exponent. -/
def fractionText (n : Number) : List Char :=
  match n.fraction with
  | some ds => '.' :: ds
  | none => []

/-- The text of the exponent. -/
def exponentText (n : Number) : List Char :=
  match n.exponent with
  | some (letter, sign, ds) => letter :: sign.toList ++ ds
  | none => []

/-- The text of a number after its sign. -/
def unsignedText (n : Number) : List Char := n.whole ++ (n.fractionText ++ n.exponentText)

/-- There are digits wherever digits have to be, and the exponent has one of its letters and at
most one of its signs. -/
structure IsSpelled (n : Number) : Prop where
  whole : IsDigits n.whole
  fraction : ∀ ds ∈ n.fraction, IsDigits ds
  letter : ∀ e ∈ n.exponent, e.1 = 'e' ∨ e.1 = 'E'
  sign : ∀ e ∈ n.exponent, ∀ c ∈ e.2.1, c = '+' ∨ c = '-'
  power : ∀ e ∈ n.exponent, IsDigits e.2.2

theorem text_eq (n : Number) : n.text = n.signText ++ n.unsignedText := by
  have hparts : n.text = n.signText ++ n.whole ++ n.fractionText ++ n.exponentText := rfl
  rw [hparts, unsignedText, List.append_assoc, List.append_assoc]

variable {n : Number} {rest : List Char}

/-- The characters that the text of a number is made of. -/
theorem mem_text_of_isSpelled (hn : n.IsSpelled) {c : Char} (h : c ∈ n.text) :
    c.isDigit = true ∨ c = '-' ∨ c = '+' ∨ c = '.' ∨ c = 'e' ∨ c = 'E' := by
  obtain ⟨negative, whole, fraction, exponent⟩ := n
  simp only [text_eq, unsignedText, List.mem_append] at h
  rcases h with h | h | h | h
  · cases negative <;> simp_all [signText]
  · exact .inl (hn.whole.2 c h)
  · cases fraction with
    | none => simp [fractionText] at h
    | some ds =>
      have hds := (hn.fraction ds rfl).2 c
      rcases List.mem_cons.mp h with rfl | h
      · simp
      · exact .inl (hds h)
  · cases exponent with
    | none => simp [exponentText] at h
    | some e =>
      obtain ⟨letter, sign, ds⟩ := e
      have hletter : letter = 'e' ∨ letter = 'E' := hn.letter _ rfl
      have hsign : ∀ c ∈ sign, c = '+' ∨ c = '-' := hn.sign _ rfl
      have hds := (hn.power _ rfl).2 c
      simp only [exponentText, List.mem_append, List.mem_cons, Option.mem_toList] at h
      rcases h with (rfl | h) | h
      · rcases hletter with rfl | rfl <;> simp
      · rcases hsign c h with rfl | rfl <;> simp
      · exact .inl (hds h)

theorem scanExponent_eq (hn : n.IsSpelled) (hrest : mayFollowNumber rest = true) :
    scanExponent (n.exponentText ++ rest) = .ok (n.exponent, n.exponentText.length) := by
  obtain ⟨negative, whole, fraction, exponent⟩ := n
  cases exponent with
  | none =>
    cases rest with
    | nil => rfl
    | cons c cs =>
      have hpart := (head_of_mayFollowNumber hrest).1
      have hother (d : Char) (hd : isWordPart d = true) : c ≠ d := (Text.ne_of_class hd hpart).symm
      simp [exponentText, scanExponent, hother 'e' (by decide), hother 'E' (by decide)]
  | some e =>
    obtain ⟨letter, sign, ds⟩ := e
    have hletter : letter = 'e' ∨ letter = 'E' := hn.letter _ rfl
    have hds : IsDigits ds := hn.power _ rfl
    have hdigits := takeDigits_append hds.2 (beginsWithDigit_of_mayFollowNumber hrest)
    cases sign with
    | none =>
      obtain ⟨c, cs, rfl, hc⟩ := hds.head
      have hplus : c ≠ '+' := ne_of_isDigit hc rfl
      have hminus : c ≠ '-' := ne_of_isDigit hc rfl
      rw [List.cons_append] at hdigits
      simp [exponentText, scanExponent, hletter, hdigits, hplus, hminus, Nat.add_comm]
    | some c =>
      have hsign : c = '+' ∨ c = '-' := hn.sign _ rfl c rfl
      rcases hsign with rfl | rfl <;>
        simp [exponentText, scanExponent, hletter, hdigits, hds.1] <;> omega

/-- The exponent, or what follows it, begins with no digit and no point. -/
theorem exponentText_append (hn : n.IsSpelled) (hrest : mayFollowNumber rest = true) :
    beginsWithDigit (n.exponentText ++ rest) = false ∧
      (n.exponentText ++ rest).head? ≠ some '.' := by
  obtain ⟨negative, whole, fraction, exponent⟩ := n
  cases exponent with
  | none =>
    refine ⟨beginsWithDigit_of_mayFollowNumber hrest, ?_⟩
    cases rest with
    | nil => simp [exponentText]
    | cons c cs => simpa [exponentText] using (head_of_mayFollowNumber hrest).2
  | some e =>
    obtain ⟨letter, sign, ds⟩ := e
    have hletter : letter = 'e' ∨ letter = 'E' := hn.letter _ rfl
    rcases hletter with rfl | rfl <;> simp [exponentText, beginsWithDigit]

theorem scanFraction_eq (hn : n.IsSpelled) (hdigit : beginsWithDigit rest = false)
    (hpoint : rest.head? ≠ some '.') :
    scanFraction (n.fractionText ++ rest) = .ok (n.fraction, n.fractionText.length) := by
  obtain ⟨negative, whole, fraction, exponent⟩ := n
  cases fraction with
  | none =>
    cases rest with
    | nil => rfl
    | cons c cs =>
      simp only [fractionText, List.nil_append]
      rw [scanFraction]
      · rfl
      · rintro ds heq
        rw [heq] at hpoint
        exact hpoint rfl
  | some ds =>
    have hds : IsDigits ds := hn.fraction _ rfl
    simp [fractionText, scanFraction, takeDigits_append hds.2 hdigit, hds.1]

theorem beginsWithDigit_fractionText (hrest : beginsWithDigit rest = false) :
    beginsWithDigit (n.fractionText ++ rest) = false := by
  obtain ⟨negative, whole, fraction, exponent⟩ := n
  cases fraction with
  | none => exact hrest
  | some ds => rfl

/-- What stands before the digits is a minus sign exactly if the number is negative. -/
theorem signLength_eq (hn : n.IsSpelled) {sign : List Char} (hsign : n.HasSign sign)
    (others : List Char) :
    signLength (sign ++ (n.whole ++ others)) = sign.length ∧
      ((sign ++ (n.whole ++ others)).head? == some '-') = n.negative := by
  obtain ⟨c, cs, hwhole, hc⟩ := hn.whole.head
  have hminus : c ≠ '-' := ne_of_isDigit hc rfl
  have hplus : c ≠ '+' := ne_of_isDigit hc rfl
  rw [hwhole]
  rcases hsign with rfl | ⟨rfl, hnegative⟩
  · cases hnegative : n.negative <;> simp [signText, hnegative, signLength, hminus, hplus]
  · simp [signLength, hnegative]

/-- What is scanned of a number is its parts. -/
theorem scanNumber_eq (hn : n.IsSpelled) {sign : List Char} (hsign : n.HasSign sign) {l : Lexeme}
    (hl : n.toLexeme = .ok l) (hrest : mayFollowNumber rest = true) :
    scanNumber (sign ++ n.unsignedText ++ rest) = .ok (l, (sign ++ n.unsignedText).length) := by
  obtain ⟨hdigit, hpoint⟩ := exponentText_append hn hrest
  obtain ⟨hlength, hhead⟩ := signLength_eq hn hsign (n.fractionText ++ (n.exponentText ++ rest))
  have hwhole := takeDigits_append hn.whole.2 (beginsWithDigit_fractionText (n := n) hdigit)
  have hfraction := scanFraction_eq hn hdigit hpoint
  have hexponent := scanExponent_eq hn hrest
  simp only [unsignedText, List.append_assoc, scanNumber, hlength, hhead, ← List.drop_drop,
    List.drop_left, hwhole, hfraction, hexponent, hrest, hl, if_true,
    List.length_append, Nat.add_assoc]

theorem isBlank_eq_false_of_isDigit {c : Char} (h : c.isDigit = true) :
    Text.isBlank c = false := by
  have hcode := toNat_of_isDigit h
  simp only [Text.isBlank, Text.inRanges, Text.blankRanges, List.any_cons, List.any_nil,
    Bool.or_false, Bool.or_eq_false_iff, Bool.and_eq_false_iff, decide_eq_false_iff_not]
  omega

/-- A number that ends is scanned as the lexeme of its parts, also after a plus sign. -/
theorem scans_signed (hn : n.IsSpelled) {sign : List Char} (hsign : n.HasSign sign) {l : Lexeme}
    (hl : n.toLexeme = .ok l) (hrest : mayFollowNumber rest = true) :
    Scans (sign ++ n.unsignedText) l rest := by
  have hnumber := scanNumber_eq hn hsign hl hrest
  obtain ⟨c, cs, hwhole, hc⟩ := hn.whole.head
  have hunsigned : n.unsignedText = c :: (cs ++ (n.fractionText ++ n.exponentText)) := by
    rw [unsignedText, hwhole]
    rfl
  have hcases : sign = [] ∨ sign = ['-'] ∨ sign = ['+'] := by
    rcases hsign with rfl | ⟨rfl, -⟩
    · cases hnegative : n.negative <;> simp [signText, hnegative]
    · exact .inr (.inr rfl)
  rw [hunsigned] at hnumber ⊢
  rcases hcases with rfl | rfl | rfl
  · refine ⟨_, _, rfl, isBlank_eq_false_of_isDigit hc, ?_⟩
    have hother (d : Char) (hd : d.isDigit = false) : c ≠ d := ne_of_isDigit hc hd
    rw [← hnumber]
    simp [scan, hother '(' rfl, hother ')' rfl, hother '[' rfl, hother ']' rfl, hother ',' rfl,
      hother '"' rfl, hc]
  all_goals
    refine ⟨_, _, rfl, by decide, ?_⟩
    rw [← hnumber]
    simp [scan, beginsWithDigit, hc]

/-- A number that ends is scanned as the lexeme of its parts. -/
theorem scans_number (hn : n.IsSpelled) {l : Lexeme} (hl : n.toLexeme = .ok l)
    (hrest : mayFollowNumber rest = true) : Scans n.text l rest := by
  rw [text_eq]
  exact scans_signed hn (.inl rfl) hl hrest

end Number

theorem isDigits_digits (m : Nat) : IsDigits (Numeral.digits m) :=
  ⟨Numeral.digits_ne_nil m, Numeral.isDigit_of_mem_digits m⟩

/-- An integer in decimal digits is scanned as that integer. -/
theorem scans_signedDigits (i : Int) {rest : List Char} (hrest : Boundary rest) :
    Scans (Numeral.signedDigits i) (.integer i) rest := by
  let n : Number := ⟨i < 0, Numeral.digits i.natAbs, none, none⟩
  have hn : n.IsSpelled := ⟨isDigits_digits _, by simp [n], by simp [n], by simp [n], by simp [n]⟩
  have htext : n.text = Numeral.signedDigits i := by
    by_cases hi : i < 0 <;> simp [n, Number.text, Numeral.signedDigits, hi]
  have hint : n.toInt? = some i := by
    rw [Number.toInt?_eq hn.whole, Numeral.value_digits, Option.some.injEq]
    by_cases hi : i < 0
    · rw [if_pos (decide_eq_true hi)]
      omega
    · rw [if_neg (by simpa [n] using hi)]
      omega
  have hlexeme : n.toLexeme = .ok (.integer i) := by
    rw [Number.toLexeme, if_neg (by simp [n]), hint]
  rw [← htext]
  exact Number.scans_number hn hlexeme (mayFollowNumber_of_boundary hrest)

end PropertyFilter.Lexeme
