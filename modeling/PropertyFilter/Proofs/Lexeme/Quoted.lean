import Mathlib.Tactic.SplitIfs
import PropertyFilter.Dialect.Scim
import PropertyFilter.Proofs.Lexeme.Plain
import PropertyFilter.Proofs.Uuid

/-!
# Quoted texts

A character may be written in several ways between quotes. `Spells code c escaped` says that `code`
writes `c` wherever it stands: as itself (`spells_self`), as a short escape
(`spells_shortEscape`), as the escape of its code (`spells_codeEscape`) or as the escapes of two
surrogates (`spells_surrogates`). A text that is written character by character, each of them
spelled in some way, is scanned as that text (`scanBody_flatMap`).

Filters are written with two tables of spellings, and both of them are read back: a string as
itself, though it may be shaped like an identifier (`scans_quoted`, `scans_scim_quoted`), and an
identifier as itself (`scans_uuid`).
-/

set_option autoImplicit false

namespace PropertyFilter.Lexeme

/-! ### Codes -/

/-- Hexadecimal digits are read as the number that they write. -/
theorem scanCode_hexDigits (letters : Text.LetterCase) (distance taken width further value n : Nat)
    (rest : List Char) :
    scanCode distance taken (width + further) value (Text.hexDigits letters width n ++ rest) =
      scanCode distance (taken + width) further (16 ^ width * value + n % 16 ^ width) rest := by
  induction width generalizing further n rest with
  | zero => simp [Text.hexDigits, Nat.mod_one]
  | succ width ih =>
    have hdigit := Text.hexValue?_hexDigit letters (n % 16) (Nat.mod_lt _ (by decide))
    have hvalue : 16 * (16 ^ width * value + n / 16 % 16 ^ width) + n % 16 =
        16 ^ (width + 1) * value + n % 16 ^ (width + 1) := by
      have hmod := Nat.mod_mul (x := n) (a := 16) (b := 16 ^ width)
      rw [Nat.pow_succ, Nat.mul_comm (16 ^ width) 16, hmod, Nat.mul_add, Nat.mul_assoc]
      omega
    rw [Text.hexDigits, List.append_assoc, Nat.add_right_comm, Nat.add_assoc, ih, ← hvalue]
    simp only [List.cons_append, List.nil_append, scanCode, hdigit, Nat.add_assoc]

/-- The four digits are read as the code. -/
def IsCode (ds : List Char) (code : Nat) : Prop :=
  ds.length = 4 ∧ ∀ distance taken rest, scanCode distance taken 4 0 (ds ++ rest) = .ok code

theorem isCode_hexDigits (letters : Text.LetterCase) {n : Nat} (h : n < 0x10000) :
    IsCode (Text.hexDigits letters 4 n) n := by
  refine ⟨Text.length_hexDigits _ _ _, ?_⟩
  intro distance taken rest
  rw [show 4 = 4 + 0 from rfl, scanCode_hexDigits, scanCode, Nat.mod_eq_of_lt (by omega)]
  simp

theorem charOfCode?_toNat (c : Char) : charOfCode? c.toNat = some c := by
  have hvalid : c.toNat.isValidChar := c.valid
  rw [charOfCode?, dif_pos hvalid]
  exact congrArg some (Char.ext (UInt32.toNat.inj rfl))

/-- No character is a surrogate. -/
theorem toNat_cases (c : Char) :
    c.toNat < 0xd800 ∨ (0xdfff < c.toNat ∧ c.toNat < 0x110000) := c.valid

/-! ### Characters -/

/-- Between quotes the characters of `code` write the one character `c`. -/
def Spells (code : List Char) (c : Char) (escaped : Bool) : Prop :=
  ∀ read rest, scanBody read (code ++ rest) =
    match scanBody (read + code.length) rest with
    | .error failure => .error failure
    | .ok (text, others, taken) => .ok (c :: text, escaped || others, taken)

theorem spells_self {c : Char} (hquote : c ≠ '"') (hbackslash : c ≠ '\\') :
    Spells [c] c false := by
  intro read rest
  rw [List.singleton_append, scanBody]
  · rfl
  · exact hquote
  · exact hbackslash

/-- After a backslash the characters of `code` write the one character `c`. -/
def Escapes (code : List Char) (c : Char) : Prop :=
  ∀ read rest, scanEscape read (code ++ rest) = .ok (c, code.length + 1)

theorem Escapes.spells {code : List Char} {c : Char} (h : Escapes code c) :
    Spells ('\\' :: code) c true := by
  intro read rest
  rw [List.cons_append, scanBody, h]
  simp only [Nat.add_sub_cancel, List.drop_left, List.length_cons]
  cases scanBody (read + (code.length + 1)) rest <;> rfl

theorem escapes_code {ds : List Char} {unit : Nat} {c : Char} (hds : IsCode ds unit)
    (hhigh : isHighSurrogate unit = false) (hlow : isLowSurrogate unit = false)
    (hc : charOfCode? unit = some c) : Escapes ('u' :: ds) c := by
  intro read rest
  simp [scanEscape, scanCodeEscape, hds.1, hds.2, bind, Except.bind, hhigh, hlow, hc, pure,
    Except.pure]

theorem escapes_surrogates {ds ds' : List Char} {high low : Nat} {c : Char} (hds : IsCode ds high)
    (hds' : IsCode ds' low) (hhigh : isHighSurrogate high = true)
    (hlow : isLowSurrogate low = true)
    (hc : charOfCode? (0x10000 + (high - 0xd800) * 0x400 + (low - 0xdc00)) = some c) :
    Escapes ('u' :: (ds ++ '\\' :: 'u' :: ds')) c := by
  intro read rest
  have hdrop : (ds ++ '\\' :: 'u' :: (ds' ++ rest)).drop 4 = '\\' :: 'u' :: (ds' ++ rest) :=
    List.drop_left' hds.1
  simp [scanEscape, scanCodeEscape, hds.1, hds.2, hds'.1, hds'.2, bind, Except.bind, hhigh, hdrop,
    hlow, hc, pure, Except.pure]

theorem spells_shortEscape {c : Char} {code : List Char} (h : Value.shortEscape? c = some code) :
    Spells code c true := by
  unfold Value.shortEscape? at h
  split_ifs at h with h1 h2 h3 h4 h5 h6 h7 <;> cases h <;> subst c
  all_goals exact Escapes.spells fun _ _ ↦ rfl

/-- A character below the supplementary planes may be written as its code. -/
theorem spells_codeEscape (letters : Text.LetterCase) {c : Char} (h : c.toNat < 0x10000) :
    Spells (Value.codeEscape letters c.toNat) c true := by
  have hhigh : isHighSurrogate c.toNat = false := by
    have hcases := toNat_cases c
    simp only [isHighSurrogate, Bool.and_eq_false_iff, decide_eq_false_iff_not]
    omega
  have hlow : isLowSurrogate c.toNat = false := by
    have hcases := toNat_cases c
    simp only [isLowSurrogate, Bool.and_eq_false_iff, decide_eq_false_iff_not]
    omega
  exact (escapes_code (isCode_hexDigits letters h) hhigh hlow (charOfCode?_toNat c)).spells

/-- A character of a supplementary plane may be written as the codes of its two surrogates. -/
theorem spells_surrogates {c : Char} {high low : Nat} (hhigh : high < 0x400) (hlow : low < 0x400)
    (hsum : 0x10000 + high * 0x400 + low = c.toNat) :
    Spells (Value.codeEscape .upper (0xd800 + high) ++ Value.codeEscape .upper (0xdc00 + low)) c
      true := by
  have hhighCode : 0xd800 + high < 0x10000 := by omega
  have hlowCode : 0xdc00 + low < 0x10000 := by omega
  have hisHigh : isHighSurrogate (0xd800 + high) = true := by
    simp only [isHighSurrogate, Bool.and_eq_true, decide_eq_true_eq]
    omega
  have hisLow : isLowSurrogate (0xdc00 + low) = true := by
    simp only [isLowSurrogate, Bool.and_eq_true, decide_eq_true_eq]
    omega
  have hc : charOfCode? (0x10000 + (0xd800 + high - 0xd800) * 0x400 + (0xdc00 + low - 0xdc00)) =
      some c := by
    rw [Nat.add_sub_cancel_left, Nat.add_sub_cancel_left, hsum, charOfCode?_toNat]
  have hcode := (escapes_surrogates (isCode_hexDigits .upper hhighCode)
    (isCode_hexDigits .upper hlowCode) hisHigh hisLow hc).spells
  simpa [Value.codeEscape] using hcode

/-- Any character may be written as its units of UTF-16. -/
theorem spells_escapeUnits (c : Char) : Spells (Scim.escapeUnits c) c true := by
  by_cases h : c.toNat < 0x10000
  · have hunits : Scim.escapeUnits c = Value.codeEscape .upper c.toNat := by
      simp [Scim.escapeUnits, Scim.units, h]
    rw [hunits]
    exact spells_codeEscape .upper h
  · have hcases := toNat_cases c
    have hunits : Scim.escapeUnits c =
        Value.codeEscape .upper (0xd800 + (c.toNat - 0x10000) / 0x400) ++
          Value.codeEscape .upper (0xdc00 + (c.toNat - 0x10000) % 0x400) := by
      simp [Scim.escapeUnits, Scim.units, h]
    rw [hunits]
    exact spells_surrogates (by omega) (by omega) (by omega)

/-! ### Texts -/

/-- A text whose characters are each spelled in some way is read up to the closing quote. -/
theorem scanBody_flatMap {spell : Char → List Char} {cs : List Char}
    (hspell : ∀ c ∈ cs, ∃ escaped, Spells (spell c) c escaped) (read : Nat) (rest : List Char) :
    ∃ escaped, scanBody read (cs.flatMap spell ++ '"' :: rest) =
      .ok (cs, escaped, read + (cs.flatMap spell).length + 1) := by
  induction cs generalizing read with
  | nil => exact ⟨false, by simp [scanBody]⟩
  | cons c cs ih =>
    rw [List.forall_mem_cons] at hspell
    obtain ⟨escaped, hc⟩ := hspell.1
    obtain ⟨others, hcs⟩ := ih hspell.2 (read + (spell c).length)
    refine ⟨escaped || others, ?_⟩
    rw [List.flatMap_cons, List.append_assoc, hc, hcs, List.length_append, Nat.add_assoc read]

/-- A text without quotes and backslashes may stand as it is. -/
theorem scanBody_plain {cs : List Char} (hplain : ∀ c ∈ cs, c ≠ '"' ∧ c ≠ '\\') (read : Nat)
    (rest : List Char) :
    scanBody read (cs ++ '"' :: rest) = .ok (cs, false, read + cs.length + 1) := by
  induction cs generalizing read with
  | nil => simp [scanBody]
  | cons c cs ih =>
    rw [List.forall_mem_cons] at hplain
    have hself := spells_self hplain.1.1 hplain.1.2 read (cs ++ '"' :: rest)
    rw [List.singleton_append, List.length_singleton, ih hplain.2] at hself
    rw [List.cons_append, hself, List.length_cons, Nat.add_assoc read, Nat.add_comm 1]
    rfl

theorem isBlank_quote : Text.isBlank '"' = false := by decide

theorem scan_quote (rest : List Char) : scan '"' rest = scanString rest := by
  simp [scan]

/-- A quoted text is a string if it is not shaped like an identifier, or has an escape. -/
theorem scans_string {body cs rest : List Char} {escaped : Bool}
    (hbody : scanBody 1 (body ++ '"' :: rest) = .ok (cs, escaped, 1 + body.length + 1))
    (hshaped : Uuid.shaped cs = true → escaped = true) :
    Scans ('"' :: body ++ ['"']) (.string (String.ofList cs)) rest := by
  refine ⟨'"', body ++ ['"'], rfl, isBlank_quote, ?_⟩
  have hstring : (!escaped && Uuid.shaped cs) = false := by
    by_cases hs : Uuid.shaped cs = true
    · simp [hshaped hs]
    · simp [hs]
  rw [List.append_assoc, List.singleton_append, scan_quote, scanString, hbody]
  simp [hstring, Nat.add_comm 1]

/-! ### Identifiers -/

/-- An identifier is read as itself, along with its text. -/
theorem scans_uuid (u : Uuid) (rest : List Char) :
    Scans ('"' :: u.text ++ ['"']) (.uuid u (String.ofList u.text)) rest := by
  refine ⟨'"', u.text ++ ['"'], rfl, isBlank_quote, ?_⟩
  have hplain : ∀ c ∈ u.text, c ≠ '"' ∧ c ≠ '\\' := by
    intro c hc
    have hdigit := Uuid.isHexDigit_or_eq_of_mem_text hc
    constructor
    · rintro rfl
      exact absurd hdigit (by decide)
    · rintro rfl
      exact absurd hdigit (by decide)
  rw [List.append_assoc, List.singleton_append, scan_quote, scanString,
    scanBody_plain hplain 1 rest]
  simp [Uuid.shaped_text, Uuid.read?_text, Nat.add_comm 1]

/-! ### Strings -/

theorem toNat_lt_of_isHexDigit {c : Char} (h : Text.isHexDigit c = true) : c.toNat < 0x80 := by
  unfold Text.isHexDigit Text.hexValue? at h
  simp only [Char.le_def, UInt32.le_iff_toNat_le] at h
  split_ifs at h with hdigit hlower hupper
  · exact Nat.lt_of_le_of_lt hdigit.2 (by decide)
  · exact Nat.lt_of_le_of_lt hlower.2 (by decide)
  · exact Nat.lt_of_le_of_lt hupper.2 (by decide)
  · cases h

/-- What is shaped like an identifier begins with a character that a short code writes. -/
theorem toNat_lt_of_shaped {c : Char} {cs : List Char} (h : Uuid.shaped (c :: cs) = true) :
    c.toNat < 0x80 := by
  simp only [Uuid.shaped, Bool.and_eq_true, List.all_cons, Bool.or_eq_true] at h
  rcases h.2.1 with hhex | hhyphen
  · exact toNat_lt_of_isHexDigit hhex
  · rw [beq_iff_eq] at hhyphen
    exact hhyphen ▸ by decide

/-- The first character of a text escaped, the others spelled in any way. -/
theorem scanBody_escaped_head {first : List Char} {c : Char} {spell : Char → List Char}
    {cs : List Char} (hfirst : Spells first c true)
    (hspell : ∀ c ∈ cs, ∃ escaped, Spells (spell c) c escaped) (read : Nat) (rest : List Char) :
    scanBody read (first ++ cs.flatMap spell ++ '"' :: rest) =
      .ok (c :: cs, true, read + (first ++ cs.flatMap spell).length + 1) := by
  obtain ⟨others, hcs⟩ := scanBody_flatMap hspell (read + first.length) rest
  rw [List.append_assoc, hfirst, hcs, List.length_append, Nat.add_assoc read]
  rfl

/-- Two ways to spell the characters of a string, one of them for the first character of a string
that is shaped like an identifier. -/
theorem scans_spelled {body : List Char → List Char} {first spell : Char → List Char}
    (hbody : ∀ cs, body cs = match Uuid.shaped cs, cs with
      | true, c :: others => first c ++ others.flatMap spell
      | _, cs => cs.flatMap spell)
    (hfirst : ∀ c : Char, c.toNat < 0x80 → Spells (first c) c true)
    (hspell : ∀ c, ∃ escaped, Spells (spell c) c escaped) (s : String) (rest : List Char) :
    Scans ('"' :: body s.toList ++ ['"']) (.string s) rest := by
  have hofList : s = String.ofList s.toList := String.ofList_toList.symm
  generalize s.toList = cs at hofList
  rw [hofList, hbody]
  cases hshaped : Uuid.shaped cs with
  | false =>
    have hall : ∀ c ∈ cs, ∃ escaped, Spells (spell c) c escaped := fun c _ ↦ hspell c
    obtain ⟨escaped, hscan⟩ := scanBody_flatMap hall 1 rest
    exact scans_string hscan (by simp [hshaped])
  | true =>
    cases cs with
    | nil => simp [Uuid.shaped] at hshaped
    | cons c cs =>
      have hall : ∀ c ∈ cs, ∃ escaped, Spells (spell c) c escaped := fun c _ ↦ hspell c
      have hscan := scanBody_escaped_head (hfirst c (toNat_lt_of_shaped hshaped)) hall 1 rest
      exact scans_string hscan fun _ ↦ rfl

theorem ne_of_shortEscape?_eq_none {c : Char} (h : Value.shortEscape? c = none) :
    c ≠ '"' ∧ c ≠ '\\' := by
  unfold Value.shortEscape? at h
  split_ifs at h with hquote hbackslash
  exact ⟨hquote, hbackslash⟩

theorem spells_quotedChar (c : Char) : ∃ escaped, Spells (Value.quotedChar c) c escaped := by
  unfold Value.quotedChar
  cases hshort : Value.shortEscape? c with
  | some escape => exact ⟨true, spells_shortEscape hshort⟩
  | none =>
    obtain ⟨hquote, hbackslash⟩ := ne_of_shortEscape?_eq_none hshort
    cases hcontrol : Value.isControl c with
    | true =>
      have hcode : c.toNat < 0x10000 := by
        simp only [Value.isControl, Bool.or_eq_true, Bool.and_eq_true, decide_eq_true_eq]
          at hcontrol
        omega
      exact ⟨true, spells_codeEscape .lower hcode⟩
    | false => exact ⟨false, spells_self hquote hbackslash⟩

theorem spells_scim_quotedChar (c : Char) : ∃ escaped, Spells (Scim.quotedChar c) c escaped := by
  unfold Scim.quotedChar
  cases hshort : Value.shortEscape? c with
  | some escape => exact ⟨true, spells_shortEscape hshort⟩
  | none =>
    obtain ⟨hquote, hbackslash⟩ := ne_of_shortEscape?_eq_none hshort
    cases Scim.isPlain c with
    | true => exact ⟨false, spells_self hquote hbackslash⟩
    | false => exact ⟨true, spells_escapeUnits c⟩

/-- A string in the canonical spelling is read as itself. -/
theorem scans_quoted (s : String) (rest : List Char) :
    Scans (Value.quoted s) (.string s) rest :=
  scans_spelled (fun _ ↦ rfl) (fun _ hc ↦ spells_codeEscape .lower (by omega)) spells_quotedChar s
    rest

/-- A string in the spelling for provisioning is read as itself. -/
theorem scans_scim_quoted (s : String) (rest : List Char) :
    Scans (Scim.quoted s) (.string s) rest :=
  scans_spelled (fun _ ↦ rfl) (fun c _ ↦ spells_escapeUnits c) spells_scim_quotedChar s rest

end PropertyFilter.Lexeme
