import PropertyFilter.Dialect.Graph
import PropertyFilter.Proofs.DateTime
import PropertyFilter.Proofs.Filter.Reparsing
import PropertyFilter.Proofs.Uuid

/-!
# Literals of query parameters told apart

A literal of query parameters is quoted or bare. A quoted text ends at the first quote that is not
one of a pair, and a bare one at the first character that it cannot have, which is all that ever
follows one. So where two texts begin with literals, whatever follows these, the literals are the
same text (`optionLiteral_append_inj`, `literals_append_inj`).

What values a text is the literal of is said by `SameValue`: an identifier and the string of its
text have one literal, as have an integer in both representations and points in time that print
alike, and no other values do (`optionLiteral_eq_iff`). Bare literals other than points in time are
told apart by what they are scanned as, and from points in time by the letter in these.
-/

set_option autoImplicit false

namespace PropertyFilter.Graph

open Expression
open Lexeme (Boundary IsName Number isWordPart isWordStart)

/-! ### Bare texts -/

/-- Whether a character stands for itself outside of quotes and ends no bare text. -/
def isBare (c : Char) : Bool := !([' ', ',', '(', ')', '"'].contains c)

/-- A text without blanks, commas, parentheses and quotes. -/
def Bare (own : List Char) : Prop := ∀ c ∈ own, isBare c = true

theorem isBare_eq_false_of_boundary {rest : List Char} (h : Boundary rest) :
    ∀ c ∈ rest.head?, isBare c = false := by
  intro c hc
  rcases h c hc with rfl | rfl | rfl | rfl <;> decide

theorem takeWhile_bare_append {own rest : List Char} (hown : Bare own) (hrest : Boundary rest) :
    (own ++ rest).takeWhile isBare = own := by
  rw [List.takeWhile_append_of_pos hown]
  cases rest with
  | nil => simp
  | cons c cs =>
    have hc : isBare c = false := isBare_eq_false_of_boundary hrest c rfl
    rw [List.takeWhile_cons_of_neg (by simp [hc]), List.append_nil]

/-- Bare texts that end are told apart. -/
theorem bare_append_inj {own own' rest rest' : List Char} (hown : Bare own) (hown' : Bare own')
    (hrest : Boundary rest) (hrest' : Boundary rest') (h : own ++ rest = own' ++ rest') :
    own = own' ∧ rest = rest' := by
  have hsame : own = own' := by
    rw [← takeWhile_bare_append hown hrest, h, takeWhile_bare_append hown' hrest']
  subst hsame
  exact ⟨rfl, List.append_cancel_left h⟩

theorem isBare_of_isWordPart {c : Char} (h : isWordPart c = true) : isBare c = true := by
  have hother (d : Char) (hd : isWordPart d = false) : c ≠ d := Text.ne_of_class h hd
  simp [isBare, hother ' ' (by decide), hother ',' (by decide), hother '(' (by decide),
    hother ')' (by decide), hother '"' (by decide)]

/-- Names are bare. -/
theorem bare_of_isName {name : List Char} (h : IsName name) : Bare name := by
  induction h with
  | segment hstart hparts =>
    have hhead := isBare_of_isWordPart (Lexeme.isWordPart_of_isWordStart hstart)
    exact List.forall_mem_cons.mpr ⟨hhead, fun d hd ↦ isBare_of_isWordPart (hparts d hd)⟩
  | dotted hstart hparts hname ih =>
    have hhead := isBare_of_isWordPart (Lexeme.isWordPart_of_isWordStart hstart)
    refine List.forall_mem_cons.mpr ⟨hhead, List.forall_mem_append.mpr ⟨?_, ?_⟩⟩
    · exact fun d hd ↦ isBare_of_isWordPart (hparts d hd)
    · exact List.forall_mem_cons.mpr ⟨by decide, ih⟩

theorem isBare_of_isDigit {c : Char} (h : c.isDigit = true) : isBare c = true := by
  apply isBare_of_isWordPart
  simp [isWordPart, Char.isAlphanum, h]

theorem bare_text (t : DateTime) : Bare t.text := by
  intro c hc
  rcases DateTime.mem_text hc with h | rfl | rfl | rfl | rfl | rfl | rfl
  · exact isBare_of_isDigit h
  all_goals decide

/-! ### Numbers -/

/-- Whether a text is bare and has none of the letter between date and time. -/
def Plain (own : List Char) : Prop := ∀ c ∈ own, isBare c = true ∧ c ≠ 'T'

theorem plain_of_all {own : List Char} (h : (own.all fun c ↦ isBare c && c != 'T') = true) :
    Plain own := by
  simpa [Plain] using h

theorem plain_of_isSpelled {n : Number} (hn : n.IsSpelled) : Plain n.text := by
  intro c hc
  rcases Number.mem_text_of_isSpelled hn hc with h | rfl | rfl | rfl | rfl | rfl
  · exact ⟨isBare_of_isDigit h, Lexeme.ne_of_isDigit h (by decide)⟩
  all_goals decide

theorem plain_signedDigits (i : Int) : Plain (Numeral.signedDigits i) := by
  have hdigits : Plain (Numeral.digits i.natAbs) := by
    intro c hc
    have hdigit := Numeral.isDigit_of_mem_digits _ c hc
    exact ⟨isBare_of_isDigit hdigit, Lexeme.ne_of_isDigit hdigit (by decide)⟩
  unfold Numeral.signedDigits
  split
  · exact List.forall_mem_cons.mpr ⟨by decide, hdigits⟩
  · exact hdigits

theorem plain_float {x : Binary64} (hx : x.isFinite = true) (layout : Decimal.Layout) :
    Plain (x.text layout) := by
  obtain ⟨n, hspelled, htext, -⟩ := Binary64.exists_number_text hx layout
  rw [← htext]
  exact plain_of_isSpelled hspelled

/-! ### Quoted texts -/

/-- A character inside of quotes. -/
def quotedChar (c : Char) : List Char := if c = '"' then ['"', '"'] else [c]

theorem quoted_eq (s : String) : quoted s = '"' :: (s.toList.flatMap quotedChar ++ ['"']) := rfl

/-- Quoted bodies are told apart where no further quote follows the one at the end. -/
theorem flatMap_quotedChar_append_inj {cs cs' rest rest' : List Char}
    (hrest : rest.head? ≠ some '"') (hrest' : rest'.head? ≠ some '"')
    (h : cs.flatMap quotedChar ++ '"' :: rest = cs'.flatMap quotedChar ++ '"' :: rest') :
    cs = cs' ∧ rest = rest' := by
  induction cs generalizing cs' with
  | nil =>
    cases cs' with
    | nil => simpa using h
    | cons d ds =>
      by_cases hd : d = '"'
      · simp [quotedChar, hd] at h
        simp [h] at hrest
      · simp [quotedChar, hd, Ne.symm hd] at h
  | cons c cs ih =>
    cases cs' with
    | nil =>
      by_cases hc : c = '"'
      · simp [quotedChar, hc] at h
        simp [← h] at hrest'
      · simp [quotedChar, hc] at h
    | cons d ds =>
      by_cases hc : c = '"' <;> by_cases hd : d = '"'
      · subst hc hd
        obtain ⟨rfl, hsame⟩ := ih (by simpa [quotedChar] using h)
        exact ⟨rfl, hsame⟩
      · simp [quotedChar, hc, Ne.symm hd, hd] at h
      · simp [quotedChar, hc, hd] at h
      · have hsplit : c = d ∧ cs.flatMap quotedChar ++ '"' :: rest =
            ds.flatMap quotedChar ++ '"' :: rest' := by
          simpa [quotedChar, hc, hd] using h
        obtain ⟨rfl, htail⟩ := hsplit
        obtain ⟨rfl, hsame⟩ := ih htail
        exact ⟨rfl, hsame⟩

theorem head?_ne_quote_of_boundary {rest : List Char} (h : Boundary rest) :
    rest.head? ≠ some '"' := by
  intro hquote
  exact absurd (h '"' hquote) (by decide)

/-- Quoted texts that end are told apart. -/
theorem quoted_append_inj {s s' : String} {rest rest' : List Char} (hrest : Boundary rest)
    (hrest' : Boundary rest') (h : quoted s ++ rest = quoted s' ++ rest') :
    s = s' ∧ rest = rest' := by
  have hbodies : s.toList.flatMap quotedChar ++ '"' :: rest =
      s'.toList.flatMap quotedChar ++ '"' :: rest' := by
    simpa [quoted_eq] using h
  obtain ⟨hsame, hrests⟩ := flatMap_quotedChar_append_inj (head?_ne_quote_of_boundary hrest)
    (head?_ne_quote_of_boundary hrest') hbodies
  exact ⟨String.ext hsame, hrests⟩

/-! ### One literal -/

/-- The text that a literal has in quotes. -/
def quotedText? : Option Value → Option String
  | some (.string s) => some s
  | some (.uuid u) => some (String.ofList u.text)
  | _ => none

theorem quotedText?_eq_some_iff {v : Option Value} {s : String} : quotedText? v = some s ↔
    v = some (.string s) ∨ ∃ u : Uuid, v = some (.uuid u) ∧ String.ofList u.text = s := by
  unfold quotedText?
  split
  · simp
  · simp
  · next hstring huuid =>
    simp only [reduceCtorEq, false_iff, not_or, not_exists, not_and]
    exact ⟨hstring s, fun u hu ↦ absurd hu (huuid u)⟩

theorem ne_quote_of_mem_text {u : Uuid} {c : Char} (h : c ∈ u.text) : c ≠ '"' := by
  rintro rfl
  rcases Uuid.isHexDigit_or_eq_of_mem_text h with h | h
  · exact absurd h (by decide)
  · exact absurd h (by decide)

theorem flatMap_quotedChar_of_ne {cs : List Char} (h : ∀ c ∈ cs, c ≠ '"') :
    cs.flatMap quotedChar = cs := by
  induction cs with
  | nil => rfl
  | cons c cs ih =>
    rw [List.forall_mem_cons] at h
    rw [List.flatMap_cons, ih h.2, quotedChar, if_neg h.1, List.singleton_append]

/-- A literal with a text in quotes is this text quoted. An identifier has no quote in its text. -/
theorem optionLiteral_of_quotedText? {v : Option Value} {s : String} (h : quotedText? v = some s) :
    optionLiteral v = quoted s := by
  rcases quotedText?_eq_some_iff.mp h with rfl | ⟨u, rfl, rfl⟩
  · rfl
  · rw [quoted_eq, String.toList_ofList, flatMap_quotedChar_of_ne fun _ ↦ ne_quote_of_mem_text]
    rfl

/-- A literal that is neither quoted nor a point in time: a truth value, a number, or the word for
absence. -/
def IsPlain : Option Value → Prop
  | some (.string _) => False
  | some (.uuid _) => False
  | some (.dateTime _) => False
  | _ => True

theorem optionLiteral_cases (v : Option Value) :
    (∃ s, quotedText? v = some s) ∨ (∃ t, v = some (.dateTime t)) ∨ IsPlain v := by
  rcases v with - | (b | i | i | x | s | t | u)
  · exact .inr (.inr trivial)
  · exact .inr (.inr trivial)
  · exact .inr (.inr trivial)
  · exact .inr (.inr trivial)
  · exact .inr (.inr trivial)
  · exact .inl ⟨s, rfl⟩
  · exact .inr (.inl ⟨t, rfl⟩)
  · exact .inl ⟨_, rfl⟩

/-- The value in the narrowest representation, which is the one that its literal is read in. -/
def narrowed : Value → Value
  | .bigInt i => .ofInt i
  | v => v

theorem literal_of_integer? {v : Value} {i : Int} (h : v.integer? = some i) :
    literal v = Numeral.signedDigits i := by
  cases v <;> cases h <;> rfl

theorem integer?_narrowed (v : Value) : (narrowed v).integer? = v.integer? := by
  cases v with
  | bigInt i => exact Value.integer?_ofInt i
  | _ => rfl

theorem narrowed_of_integer? {v : Value} (h : v.integer? = none) : narrowed v = v := by
  cases v with
  | bigInt i => cases h
  | _ => rfl

/-- A literal that is neither quoted nor a point in time is scanned as one lexeme, and that one
writes the value. -/
theorem exists_scalar_of_isPlain {v : Option Value} (hv : IsPlain v)
    (husable : ∀ w ∈ v, w.isUsable = true) :
    ∃ l, Scalar l (v.map narrowed) ∧ Writes (optionLiteral v) [l] := by
  rcases v with - | (b | i | i | x | s | t | u)
  · exact exists_scalar_optionLiteral (v := none) (by simp)
  · exact exists_scalar_literal (v := .bool b) trivial
  · exact exists_scalar_literal (v := .int i) trivial
  · exact ⟨_, .integer i, writes_of_scans fun _ ↦ Lexeme.scans_signedDigits i⟩
  · exact exists_scalar_literal (v := .float x) (husable _ rfl)
  · exact absurd hv id
  · exact absurd hv id
  · exact absurd hv id

theorem plain_optionLiteral {v : Option Value} (hv : IsPlain v)
    (husable : ∀ w ∈ v, w.isUsable = true) : Plain (optionLiteral v) := by
  rcases v with - | (b | i | i | x | s | t | u)
  · exact plain_of_all rfl
  · exact plain_of_all (by cases b <;> rfl)
  · exact plain_signedDigits _
  · exact plain_signedDigits i
  · exact plain_float (husable _ rfl) _
  · exact absurd hv id
  · exact absurd hv id
  · exact absurd hv id

/-- A literal without quotes is bare. -/
theorem bare_optionLiteral {v : Option Value} (hv : quotedText? v = none)
    (husable : ∀ w ∈ v, w.isUsable = true) : Bare (optionLiteral v) := by
  rcases optionLiteral_cases v with ⟨s, hs⟩ | ⟨t, rfl⟩ | hplain
  · rw [hs] at hv
    cases hv
  · exact bare_text t
  · exact fun c hc ↦ (plain_optionLiteral hplain husable c hc).1

/-! ### Values of one literal -/

/-- Two values are one, or the identifier and the string of its text, or one integer in both
representations, or points in time that print alike. -/
inductive SameValue : Value → Value → Prop
  | refl (v : Value) : SameValue v v
  | integer {v w : Value} {i : Int} (hv : v.integer? = some i) (hw : w.integer? = some i) :
      SameValue v w
  | moment {t u : DateTime} (h : t.text = u.text) : SameValue (.dateTime t) (.dateTime u)
  | spelled (u : Uuid) : SameValue (.uuid u) (.string (String.ofList u.text))
  | read (u : Uuid) : SameValue (.string (String.ofList u.text)) (.uuid u)

theorem SameValue.literal_eq {v w : Value} (h : SameValue v w) : literal v = literal w := by
  cases h with
  | refl => rfl
  | integer hv hw => rw [literal_of_integer? hv, literal_of_integer? hw]
  | moment h => exact h
  | spelled u => exact optionLiteral_of_quotedText? (v := some (.uuid u)) rfl
  | read u => exact (optionLiteral_of_quotedText? (v := some (.uuid u)) rfl).symm

/-- Values with one text in quotes are one, or one of them is the identifier of this text. -/
theorem sameValue_of_quotedText? {v w : Value} {s : String} (hv : quotedText? (some v) = some s)
    (hw : quotedText? (some w) = some s) : SameValue v w := by
  simp only [quotedText?_eq_some_iff, Option.some.injEq] at hv hw
  rcases hv with rfl | ⟨u, rfl, htext⟩
  · rcases hw with rfl | ⟨u', rfl, rfl⟩
    · exact .refl _
    · exact .read u'
  · rcases hw with rfl | ⟨u', rfl, htext'⟩
    · exact htext ▸ .spelled u
    · rw [← htext'] at htext
      rw [Uuid.text_injective (String.ofList_injective htext)]
      exact .refl _

/-- Values that are one in the narrowest representation are one, or one integer. -/
theorem sameValue_of_narrowed {v w : Value} (h : narrowed v = narrowed w) : SameValue v w := by
  have hinteger : v.integer? = w.integer? := by
    rw [← integer?_narrowed v, h, integer?_narrowed]
  cases hv : v.integer? with
  | none =>
    rw [narrowed_of_integer? hv, narrowed_of_integer? (hinteger ▸ hv)] at h
    exact h ▸ .refl v
  | some i => exact .integer hv (hinteger ▸ hv)

/-- The letter between date and time tells a point in time from other bare literals. -/
theorem text_ne_of_isPlain (t : DateTime) {v : Option Value} (hv : IsPlain v)
    (husable : ∀ w ∈ v, w.isUsable = true) : t.text ≠ optionLiteral v := by
  intro h
  have hletter : 'T' ∈ t.text := by simp [DateTime.text]
  exact (plain_optionLiteral hv husable 'T' (h ▸ hletter)).2 rfl

/-- Literals without quotes, other than points in time, are one lexeme each. -/
theorem map_narrowed_of_isPlain {v w : Option Value} (hv : IsPlain v) (hw : IsPlain w)
    (hvusable : ∀ x ∈ v, x.isUsable = true) (hwusable : ∀ x ∈ w, x.isUsable = true)
    (h : optionLiteral v = optionLiteral w) : v.map narrowed = w.map narrowed := by
  obtain ⟨l, hscalar, hwrites⟩ := exists_scalar_of_isPlain hv hvusable
  obtain ⟨l', hscalar', hwrites'⟩ := exists_scalar_of_isPlain hw hwusable
  rw [← h] at hwrites'
  obtain ⟨rfl, -⟩ := List.cons.inj (hwrites.lexes.unique hwrites'.lexes)
  rw [← scalar?_eq_some_iff] at hscalar hscalar'
  exact Option.some.inj (hscalar.symm.trans hscalar')

theorem sameOption_of_map_narrowed {v w : Option Value} (h : v.map narrowed = w.map narrowed) :
    Option.Rel SameValue v w := by
  cases v with
  | none =>
    cases w with
    | none => exact .none
    | some w => cases h
  | some v =>
    cases w with
    | none => cases h
    | some w => exact .some (sameValue_of_narrowed (Option.some.inj h))

/-- Absent values and values with one literal that is not quoted are the same for it. -/
theorem sameOption_of_bare {v w : Option Value} (hs : quotedText? v = none)
    (hs' : quotedText? w = none) (hv : ∀ x ∈ v, x.isUsable = true)
    (hw : ∀ x ∈ w, x.isUsable = true) (h : optionLiteral v = optionLiteral w) :
    Option.Rel SameValue v w := by
  rcases optionLiteral_cases v with ⟨s, hquoted⟩ | ⟨t, rfl⟩ | hplain
  · exact nomatch hs.symm.trans hquoted
  · rcases optionLiteral_cases w with ⟨s, hquoted'⟩ | ⟨u, rfl⟩ | hplain'
    · exact nomatch hs'.symm.trans hquoted'
    · exact .some (.moment h)
    · exact absurd h (text_ne_of_isPlain t hplain' hw)
  · rcases optionLiteral_cases w with ⟨s, hquoted'⟩ | ⟨u, rfl⟩ | hplain'
    · exact nomatch hs'.symm.trans hquoted'
    · exact absurd h.symm (text_ne_of_isPlain u hplain hv)
    · exact sameOption_of_map_narrowed (map_narrowed_of_isPlain hplain hplain' hv hw h)

theorem sameOption_of_quotedText? {v w : Option Value} {s : String} (hs : quotedText? v = some s)
    (hs' : quotedText? w = some s) : Option.Rel SameValue v w := by
  cases v with
  | none => cases hs
  | some v =>
    cases w with
    | none => cases hs'
    | some w => exact .some (sameValue_of_quotedText? hs hs')

/-! ### Texts that begin with literals -/

theorem not_bare_append_eq_quoted {own rest rest' : List Char} {s : String} (hown : Bare own)
    (hrest : Boundary rest) : own ++ rest ≠ quoted s ++ rest' := by
  intro h
  rw [quoted_eq, List.cons_append] at h
  cases own with
  | nil => exact head?_ne_quote_of_boundary hrest (by simp [show rest = _ from h])
  | cons c cs =>
    obtain ⟨rfl, -⟩ := List.cons.inj h
    exact absurd (hown _ List.mem_cons_self) (by decide)

/-- Where two texts begin with literals, the literals have the same values. -/
theorem optionLiteral_append_inj {v w : Option Value} {rest rest' : List Char}
    (hv : ∀ x ∈ v, x.isUsable = true) (hw : ∀ x ∈ w, x.isUsable = true)
    (hrest : Boundary rest) (hrest' : Boundary rest')
    (h : optionLiteral v ++ rest = optionLiteral w ++ rest') :
    Option.Rel SameValue v w ∧ rest = rest' := by
  cases hs : quotedText? v with
  | none =>
    have hbare := bare_optionLiteral hs hv
    cases hs' : quotedText? w with
    | none =>
      obtain ⟨hsame, hrests⟩ :=
        bare_append_inj hbare (bare_optionLiteral hs' hw) hrest hrest' h
      exact ⟨sameOption_of_bare hs hs' hv hw hsame, hrests⟩
    | some s' =>
      rw [optionLiteral_of_quotedText? hs'] at h
      exact absurd h (not_bare_append_eq_quoted hbare hrest)
  | some s =>
    rw [optionLiteral_of_quotedText? hs] at h
    cases hs' : quotedText? w with
    | none =>
      exact absurd h.symm (not_bare_append_eq_quoted (bare_optionLiteral hs' hw) hrest')
    | some s' =>
      rw [optionLiteral_of_quotedText? hs'] at h
      obtain ⟨rfl, hrests⟩ := quoted_append_inj hrest hrest' h
      exact ⟨sameOption_of_quotedText? hs hs', hrests⟩

theorem literal_append_inj {v w : Value} {rest rest' : List Char} (hv : v.isUsable = true)
    (hw : w.isUsable = true) (hrest : Boundary rest) (hrest' : Boundary rest')
    (h : literal v ++ rest = literal w ++ rest') : SameValue v w ∧ rest = rest' := by
  obtain ⟨hsame, hrests⟩ := optionLiteral_append_inj (v := some v) (w := some w)
    (by simpa using hv) (by simpa using hw) hrest hrest' h
  cases hsame with
  | some hsame => exact ⟨hsame, hrests⟩

/-! ### Lists of literals -/

/-- What follows the first literal of a list, up to the parenthesis that closes the list. -/
def otherLiterals : List Value → List Char
  | [] => []
  | values => ", ".toList ++ literals values

theorem literals_cons (v : Value) (vs : List Value) :
    literals (v :: vs) = literal v ++ otherLiterals vs := by
  cases vs with
  | nil => simp [literals, otherLiterals]
  | cons w ws => simp [literals, otherLiterals]

theorem otherLiterals_cons (v : Value) (vs : List Value) :
    otherLiterals (v :: vs) = ", ".toList ++ (literal v ++ otherLiterals vs) := by
  rw [← literals_cons, otherLiterals]
  exact List.cons_ne_nil v vs

theorem boundary_otherLiterals (vs : List Value) (rest : List Char) :
    Boundary (otherLiterals vs ++ ')' :: rest) := by
  cases vs with
  | nil => exact Lexeme.boundary_closeParen rest
  | cons v vs => exact Lexeme.boundary_comma _

/-- Where two texts begin with lists that are closed, the lists have the same values. -/
theorem otherLiterals_append_inj {vs ws : List Value} {rest rest' : List Char}
    (hvs : ∀ x ∈ vs, x.isUsable = true) (hws : ∀ x ∈ ws, x.isUsable = true)
    (h : otherLiterals vs ++ ')' :: rest = otherLiterals ws ++ ')' :: rest') :
    List.Forall₂ SameValue vs ws ∧ rest = rest' := by
  induction vs generalizing ws with
  | nil =>
    cases ws with
    | nil => exact ⟨.nil, (List.cons.inj h).2⟩
    | cons w ws => simp [otherLiterals] at h
  | cons v vs ih =>
    cases ws with
    | nil => simp [otherLiterals] at h
    | cons w ws =>
      rw [List.forall_mem_cons] at hvs hws
      have hlists : literal v ++ (otherLiterals vs ++ ')' :: rest) =
          literal w ++ (otherLiterals ws ++ ')' :: rest') := by
        simpa [otherLiterals_cons] using h
      obtain ⟨hsame, hothers⟩ := literal_append_inj hvs.1 hws.1 (boundary_otherLiterals vs rest)
        (boundary_otherLiterals ws rest') hlists
      obtain ⟨hall, hrests⟩ := ih hvs.2 hws.2 hothers
      exact ⟨.cons hsame hall, hrests⟩

theorem literals_append_inj {vs ws : List Value} {rest rest' : List Char} (hvsne : vs ≠ [])
    (hwsne : ws ≠ []) (hvs : ∀ x ∈ vs, x.isUsable = true) (hws : ∀ x ∈ ws, x.isUsable = true)
    (h : literals vs ++ ')' :: rest = literals ws ++ ')' :: rest') :
    List.Forall₂ SameValue vs ws ∧ rest = rest' := by
  apply otherLiterals_append_inj hvs hws
  obtain ⟨v, vs, rfl⟩ := List.exists_cons_of_ne_nil hvsne
  obtain ⟨w, ws, rfl⟩ := List.exists_cons_of_ne_nil hwsne
  simp [otherLiterals, h]

theorem otherLiterals_eq_of_sameValues {vs ws : List Value} (h : List.Forall₂ SameValue vs ws) :
    otherLiterals vs = otherLiterals ws := by
  induction h with
  | nil => rfl
  | cons hsame _ ih => rw [otherLiterals_cons, otherLiterals_cons, hsame.literal_eq, ih]

theorem literals_eq_of_sameValues {vs ws : List Value} (h : List.Forall₂ SameValue vs ws) :
    literals vs = literals ws := by
  cases h with
  | nil => rfl
  | cons hsame hall =>
    rw [literals_cons, literals_cons, hsame.literal_eq, otherLiterals_eq_of_sameValues hall]

end PropertyFilter.Graph
