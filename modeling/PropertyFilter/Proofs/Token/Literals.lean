import PropertyFilter.Proofs.Lexeme.Literals
import PropertyFilter.Proofs.Text.Trimming
import PropertyFilter.Proofs.Token.Faults

/-!
# Texts of one literal

A text is one token of a lexeme if characters that denote the lexeme are all that is left of it
without the blanks around them (`isOnly_iff`). Literals end with characters that are not blank, so
trimming leaves just these (`isOnly_iff_trim`), and the grammar of literals says which they are.
`ReadsLiterals` puts the kinds of literals side by side: what is read as one of them is what the
grammar has for it, and a body that is shaped like an identifier without being one is a fault.

The scanners could also fail because a code has no character or because the digits of an integer
cannot be read; no step over any text comes to either (`tokens_read_literals`).

Where a string is written, it is written as a quoted body that has the string, and whatever follows
the quotes, one token is told there that has the string (`Encodes`). Both ways to write strings
escape the first character of one that is shaped like an identifier, so it is not told as an
identifier (`literals_encode_strings`).
-/

set_option autoImplicit false

namespace PropertyFilter

/-! ### Texts of one token -/

open Lexeme (IsBody IsDecimal IsInteger quotation)

/-- The text is one token of the lexeme. -/
def IsOnly (text : List Char) (l : Lexeme) : Prop :=
  ∃ first last, (Cursor.ofText text).tokens = .ok [⟨l, first, last⟩]

theorem isOnly_iff {text : List Char} {l : Lexeme} :
    IsOnly text l ↔ ∃ gap own gap', text = gap ++ (own ++ gap') ∧ Text.allBlank gap = true ∧
      Text.allBlank gap' = true ∧ l.IsDenotedBy own := by
  constructor
  · rintro ⟨first, last, htokens⟩
    have htokenizes : Tokenizes .start text [⟨l, first, last⟩] :=
      Cursor.tokenizes_of_tokens _ htokens
    cases htokenizes with
    | token hgap hown hrest =>
      cases hrest with
      | done hgap' => exact ⟨_, _, _, rfl, hgap, hgap', hown⟩
  · rintro ⟨gap, own, gap', rfl, hgap, hgap', hown⟩
    have hfollow : Lexeme.mayFollowNumber (gap' ++ []) = true :=
      mayFollowNumber_allBlank hgap' fun _ ↦ rfl
    have hlexes : Lexes (gap ++ (own ++ gap')) [l] := by
      have hrest := lexes_allBlank hgap' lexes_nil
      rw [List.append_nil] at hrest hfollow
      exact lexes_allBlank hgap (lexes_scans (hown _ hfollow) hrest)
    obtain ⟨tokens, htokens, hlexemes⟩ := hlexes .start
    obtain ⟨⟨_, first, last⟩, rfl, rfl⟩ := List.map_eq_singleton_iff.mp hlexemes
    exact ⟨first, last, htokens⟩

/-- If no characters that denote a lexeme end with a blank, those of its one token are what trimming
leaves of the text. -/
theorem isOnly_iff_trim {text : List Char} {l : Lexeme}
    (hlast : ∀ own, l.IsDenotedBy own → ∀ c ∈ own.getLast?, Text.isBlank c = false) :
    IsOnly text l ↔ l.IsDenotedBy (Text.trim text) := by
  rw [isOnly_iff]
  constructor
  · rintro ⟨gap, own, gap', rfl, hgap, hgap', hown⟩
    have hhead : ∀ c ∈ own.head?, Text.isBlank c = false := by
      obtain ⟨c, cs, rfl, hc, -⟩ := hown [] rfl
      rintro _ ⟨⟩
      exact hc
    rwa [Text.trim_append hgap hgap' hown.ne_nil hhead (hlast own hown)]
  · intro hown
    obtain ⟨gap, gap', htext, hgap, hgap'⟩ := Text.exists_gaps_trim text
    exact ⟨gap, _, gap', htext, hgap, hgap', hown⟩

/-- No character of a number is blank. -/
theorem isBlank_eq_false_of_isNumeric {l : Lexeme} (hl : l.isNumeric = true) {own : List Char}
    (hown : l.IsDenotedBy own) : ∀ c ∈ own.getLast?, Text.isBlank c = false := by
  obtain ⟨n, sign, rfl, hsign, hspelled, -⟩ := (Lexeme.isDenotedBy_numeric_iff hl).mp hown
  intro c hc
  have hmem : c = '+' ∨ c ∈ n.text := by
    rw [Lexeme.Number.text_eq, List.mem_append]
    rcases List.mem_append.mp (List.mem_of_getLast? hc) with hc | hc
    · rcases hsign with rfl | ⟨rfl, -⟩
      · exact .inr (.inl hc)
      · exact .inl (List.mem_singleton.mp hc)
    · exact .inr (.inr hc)
  rcases hmem with rfl | hmem
  · decide
  rcases Lexeme.Number.mem_text_of_isSpelled hspelled hmem with h | rfl | rfl | rfl | rfl | rfl
  · exact Lexeme.Number.isBlank_eq_false_of_isDigit h
  all_goals decide

/-- The last character of a quoted text is its quote. -/
theorem isBlank_eq_false_of_quotation {body : List Char} :
    ∀ c ∈ (quotation body).getLast?, Text.isBlank c = false := by
  have hlast : (quotation body).getLast? = some '"' := by
    rw [quotation, ← List.cons_append, List.getLast?_concat]
  rw [hlast]
  rintro _ ⟨⟩
  exact Lexeme.isBlank_quote

/-! ### Kinds of literals -/

variable {text : List Char}

theorem isOnly_integer_iff {k : Int} : IsOnly text (.integer k) ↔ IsInteger (Text.trim text) k := by
  rw [isOnly_iff_trim fun _ ↦ isBlank_eq_false_of_isNumeric rfl, Lexeme.isDenotedBy_integer_iff]

theorem isOnly_decimal_iff {x : Binary64} :
    IsOnly text (.decimal x) ↔ IsDecimal (Text.trim text) x := by
  rw [isOnly_iff_trim fun _ ↦ isBlank_eq_false_of_isNumeric rfl, Lexeme.isDenotedBy_decimal_iff]

theorem isOnly_string_iff {s : String} : IsOnly text (.string s) ↔ ∃ body escaped,
    Text.trim text = quotation body ∧ IsBody body s.toList escaped ∧
      (Uuid.shaped s.toList = true → escaped = true) := by
  rw [isOnly_iff_trim, Lexeme.isDenotedBy_string_iff]
  intro own hown
  obtain ⟨body, escaped, rfl, -⟩ := Lexeme.isDenotedBy_string_iff.mp hown
  exact isBlank_eq_false_of_quotation

/-- An identifier is a body without escapes that is digits in their groups. -/
theorem isOnly_uuid_iff {u : Uuid} {s : String} : IsOnly text (.uuid u s) ↔ ∃ body ds,
    Text.trim text = quotation body ∧ IsBody body s.toList false ∧ Uuid.IsHyphenated body ds ∧
      Uuid.bytesOfDigits ds = some u.bytes := by
  rw [isOnly_iff_trim, Lexeme.isDenotedBy_uuid_iff]
  · constructor
    · rintro ⟨htrim, hbody, hshaped, hread⟩
      obtain ⟨ds, hds, hbytes⟩ := (Uuid.read?_eq_some_iff u hshaped).mp hread
      exact ⟨_, ds, htrim, hbody, hds, hbytes⟩
    · rintro ⟨body, ds, htrim, hbody, hds, hbytes⟩
      obtain rfl := hbody.eq_of_not_escaped
      exact ⟨htrim, hbody, hds.shaped, (Uuid.read?_eq_some_iff u hds.shaped).mpr ⟨ds, hds, hbytes⟩⟩
  · intro own hown
    obtain ⟨rfl, -⟩ := Lexeme.isDenotedBy_uuid_iff.mp hown
    exact isBlank_eq_false_of_quotation

/-- A body without escapes that is shaped like an identifier, though it is not digits in their
groups. -/
def IsMalformed (body : List Char) (escaped : Bool) : Prop :=
  escaped = false ∧ Uuid.shaped body = true ∧ ¬∃ ds, Uuid.IsHyphenated body ds

theorem isOnly_quoted_iff {s : String} :
    (IsOnly text (.string s) ∨ ∃ u, IsOnly text (.uuid u s)) ↔ ∃ body escaped,
      Text.trim text = quotation body ∧ IsBody body s.toList escaped ∧
        ¬IsMalformed body escaped := by
  constructor
  · rintro (hstring | ⟨u, huuid⟩)
    · obtain ⟨body, escaped, htrim, hbody, hshaped⟩ := isOnly_string_iff.mp hstring
      refine ⟨body, escaped, htrim, hbody, ?_⟩
      rintro ⟨rfl, htrue, -⟩
      rw [hbody.eq_of_not_escaped] at htrue
      exact absurd (hshaped htrue) Bool.false_ne_true
    · obtain ⟨body, ds, htrim, hbody, hds, -⟩ := isOnly_uuid_iff.mp huuid
      exact ⟨body, false, htrim, hbody, fun h ↦ h.2.2 ⟨ds, hds⟩⟩
  · rintro ⟨body, escaped, htrim, hbody, hwell⟩
    by_cases hstring : Uuid.shaped s.toList = true → escaped = true
    · exact .inl (isOnly_string_iff.mpr ⟨body, escaped, htrim, hbody, hstring⟩)
    · -- The text is shaped like an identifier and has no escape, so it has to be one.
      obtain ⟨hshaped, hplain⟩ := Classical.not_imp.mp hstring
      obtain rfl := Bool.eq_false_iff.mpr hplain
      rw [← hbody.eq_of_not_escaped] at hshaped
      obtain ⟨ds, hds⟩ := not_not.mp fun hnone ↦ hwell ⟨rfl, hshaped, hnone⟩
      obtain ⟨u, hread⟩ := hds.exists_read?
      obtain ⟨ds, hds, hbytes⟩ := (Uuid.read?_eq_some_iff u hshaped).mp hread
      exact .inr ⟨u, isOnly_uuid_iff.mpr ⟨body, ds, htrim, hbody, hds, hbytes⟩⟩

/-! ### Faults -/

/-- A malformed body between quotes is told at the opening quote. -/
theorem tokens_of_isMalformed {body : List Char} (htrim : Text.trim text = quotation body)
    (hbody : IsBody body body false) (hmalformed : IsMalformed body false) :
    (Cursor.ofText text).tokens = .error (.malformedUuid (String.ofList body),
      Position.start.after (text.takeWhile Text.isBlank)) := by
  obtain ⟨gap, gap', htext, hgap, -⟩ := Text.exists_gaps_trim text
  rw [htrim] at htext
  have hread : Uuid.read? body = none := by
    rw [Option.eq_none_iff_forall_ne_some]
    intro u hread
    obtain ⟨ds, hds, -⟩ := (Uuid.read?_eq_some_iff u hmalformed.2.1).mp hread
    exact hmalformed.2.2 ⟨ds, hds⟩
  have hscan : Lexeme.scan '"' (body ++ '"' :: gap') =
      .error ⟨.malformedUuid (String.ofList body), 0, 1 + body.length + 1⟩ := by
    rw [Lexeme.scan_quote, Lexeme.scanString, hbody.scanBody]
    simp [hmalformed.2.1, hread]
  have hhead : ∀ c ∈ (quotation body ++ gap').head?, Text.isBlank c = false := by
    rintro _ ⟨⟩
    exact Lexeme.isBlank_quote
  have hrest : (Cursor.ofText text).skipBlanks.rest = '"' :: (body ++ '"' :: gap') := by
    have hleft : (Cursor.ofText text).skipBlanks.rest = quotation body ++ gap' := by
      rw [htext]
      exact Text.trimLeft_append hgap hhead
    rw [hleft, quotation, List.cons_append, List.append_assoc, List.singleton_append]
  exact Cursor.tokens_of_scan_error hrest hscan

/-! ### Literals -/

/-- What is read of the text as one literal is what the grammar of literals has for it without the
blanks around it. -/
structure ReadsLiterals (text : List Char) : Prop where
  integer : ∀ k, IsOnly text (.integer k) ↔ IsInteger (Text.trim text) k
  decimal : ∀ x, IsOnly text (.decimal x) ↔ IsDecimal (Text.trim text) x
  quoted : ∀ s, (IsOnly text (.string s) ∨ ∃ u, IsOnly text (.uuid u s)) ↔ ∃ body escaped,
    Text.trim text = quotation body ∧ IsBody body s.toList escaped ∧ ¬IsMalformed body escaped
  uuid : ∀ u s, IsOnly text (.uuid u s) ↔ ∃ body ds, Text.trim text = quotation body ∧
    IsBody body s.toList false ∧ Uuid.IsHyphenated body ds ∧
      Uuid.bytesOfDigits ds = some u.bytes
  malformed : ∀ body, Text.trim text = quotation body → IsBody body body false →
    IsMalformed body false → (Cursor.ofText text).tokens =
      .error (.malformedUuid (String.ofList body),
        Position.start.after (text.takeWhile Text.isBlank))

/-- The literals that are read are those of the grammar, for every text. No step over any text fails
for a code without a character, or for a number that has neither a fraction nor an exponent and
cannot be read. -/
theorem tokens_read_literals :
    (∀ text, ReadsLiterals text) ∧
    ∀ (c past : Cursor) (fault : Lexeme.Fault) (place : Position),
      c.next? = some (.error (fault, place), past) →
        fault ≠ .invalidCode ∧ ∀ written, fault = .unreadableNumber written →
          '.' ∈ written.toList ∨ 'e' ∈ written.toList ∨ 'E' ∈ written.toList := by
  constructor
  · intro text
    exact ⟨fun _ ↦ isOnly_integer_iff, fun _ ↦ isOnly_decimal_iff, fun _ ↦ isOnly_quoted_iff,
      fun _ _ ↦ isOnly_uuid_iff, fun _ ↦ tokens_of_isMalformed⟩
  · intro c past fault place h
    obtain ⟨d, rest, failure, -, hscan, rfl, -⟩ := Cursor.exists_scan_of_next?_error h
    have hreachable := Lexeme.reachable_of_scan hscan
    exact ⟨hreachable.code, hreachable.number⟩

/-- A plus sign and needless zeros are read with an integer; a decimal too large is not readable. -/
theorem tokens_read_literals_signed :
    IsOnly "\n+007 ".toList (.integer 7) ∧
    (Cursor.ofText "-1e999".toList).next? = some (.error (.unreadableNumber "-1e999", .start),
      ⟨⟨6, 1, 7⟩, []⟩) ∧
    ('.' ∈ "-1e999".toList ∨ 'e' ∈ "-1e999".toList ∨ 'E' ∈ "-1e999".toList) := by
  have htrim : IsInteger (Text.trim "\n+007 ".toList) 7 := by
    have hdigits : Lexeme.IsDigits ['0', '0', '7'] := ⟨by simp, by simp⟩
    exact .intro .plus hdigits
  have hnext : (Cursor.ofText "-1e999".toList).next? =
      some (.error (.unreadableNumber "-1e999", .start), ⟨⟨6, 1, 7⟩, []⟩) := by rfl
  exact ⟨((tokens_read_literals.1 _).integer 7).mpr htrim, hnext,
    (tokens_read_literals.2 _ _ _ _ hnext).2 _ rfl⟩

/-! ### Strings that are written -/

/-- The characters are a literal for the string: a body between quotes that has the string, which is
told as one token for the string, from the opening quote to the closing one, wherever it stands and
whatever follows it. -/
structure Encodes (own : List Char) (s : String) : Prop where
  quoted : ∃ body escaped, own = quotation body ∧ IsBody body s.toList escaped
  next : ∀ place rest, (⟨place, own ++ rest⟩ : Cursor).next? =
    some (.ok ⟨.string s, place, place.after own⟩, ⟨place.after own, rest⟩)

theorem encodes_of_scans {own : List Char} {s : String}
    (h : ∀ rest, Lexeme.Scans own (.string s) rest) : Encodes own s := by
  obtain ⟨body, escaped, rfl, hbody, -⟩ := Lexeme.isDenotedBy_string_iff.mp fun rest _ ↦ h rest
  exact ⟨⟨body, escaped, rfl, hbody⟩, fun place rest ↦ Cursor.next?_scans place (h rest)⟩

/-- Each string is told again from the literals that are written for it, the one of expressions and
the one for provisioning. -/
theorem literals_encode_strings (s : String) :
    Encodes (Value.literal (.string s)) s ∧ Encodes (Scim.literal (.string s)) s :=
  ⟨encodes_of_scans (Lexeme.scans_quoted s), encodes_of_scans (Lexeme.scans_scim_quoted s)⟩

end PropertyFilter
