import Mathlib.Data.List.Forall2
import PropertyFilter.Proofs.Lexeme.Quoted

/-!
# The grammar of quoted texts

`IsBody body text escaped` says which characters may stand between quotes, what text they stand for,
and whether one of them is escaped: characters other than quotes and backslashes stand for
themselves, and `IsEscape` lists what may follow a backslash. What is scanned between quotes is in
the grammar (`exists_isBody_of_scanBody`), and what is in the grammar is scanned as its text
wherever it stands (`IsBody.scanBody`).

An escape of a code never lacks its character: four hexadecimal digits that write no surrogate, and
a high and a low surrogate together, write a valid code (`charOfCode?_unit`,
`charOfCode?_surrogates`).
-/

set_option autoImplicit false

namespace PropertyFilter.Lexeme

/-! ### Codes -/

theorem charOfCode?_of_isValidChar {code : Nat} (h : code.isValidChar) :
    charOfCode? code = some (Char.ofNat code) := by
  rw [charOfCode?, dif_pos h, Char.ofNat, dif_pos h]

/-- A unit that is no surrogate is the code of a character. -/
theorem charOfCode?_unit {unit : Nat} (h : unit < 0x10000) (hhigh : isHighSurrogate unit = false)
    (hlow : isLowSurrogate unit = false) : charOfCode? unit = some (Char.ofNat unit) := by
  refine charOfCode?_of_isValidChar ?_
  simp only [isHighSurrogate, isLowSurrogate, Bool.and_eq_false_iff, decide_eq_false_iff_not]
    at hhigh hlow
  simp only [Nat.isValidChar]
  omega

/-- The code that two surrogates write. -/
def pairedCode (high low : Nat) : Nat := 0x10000 + (high - 0xd800) * 0x400 + (low - 0xdc00)

/-- Two surrogates are the code of a character. -/
theorem charOfCode?_surrogates {high low : Nat} (hhigh : isHighSurrogate high = true)
    (hlow : isLowSurrogate low = true) :
    charOfCode? (pairedCode high low) = some (Char.ofNat (pairedCode high low)) := by
  have hvalid : (pairedCode high low).isValidChar := by
    simp only [isHighSurrogate, isLowSurrogate, Bool.and_eq_true, decide_eq_true_eq] at hhigh hlow
    unfold pairedCode Nat.isValidChar
    omega
  exact charOfCode?_of_isValidChar hvalid

theorem value_of_hexValue? {c : Char} {digit : Nat} (h : Text.hexValue? c = some digit) :
    digit < 16 := by
  unfold Text.hexValue? at h
  simp only [Char.le_def, UInt32.le_iff_toNat_le] at h
  split_ifs at h with hdigit hlower hupper <;> cases h
  · have hlast : c.toNat ≤ '9'.toNat := hdigit.2
    have hsize : '9'.toNat - '0'.toNat = 9 := rfl
    omega
  · have hlast : c.toNat ≤ 'f'.toNat := hlower.2
    have hsize : 'f'.toNat - 'a'.toNat = 5 := rfl
    omega
  · have hlast : c.toNat ≤ 'F'.toNat := hupper.2
    have hsize : 'F'.toNat - 'A'.toNat = 5 := rfl
    omega

/-- So many hexadecimal digits write a number of at most so many. -/
theorem lt_of_scanCode {distance taken count value code : Nat} {cs : List Char}
    (h : scanCode distance taken count value cs = .ok code) : code < 16 ^ count * (value + 1) := by
  induction count generalizing taken value cs with
  | zero =>
    cases h
    omega
  | succ count ih =>
    cases cs with
    | nil => cases h
    | cons c cs =>
      rw [scanCode] at h
      split at h
      · cases h
      · next digit hdigit =>
        have hlt := value_of_hexValue? hdigit
        calc code < 16 ^ count * (16 * value + digit + 1) := ih h
          _ ≤ 16 ^ count * (16 * (value + 1)) := Nat.mul_le_mul_left _ (by omega)
          _ = 16 ^ (count + 1) * (value + 1) := by rw [Nat.pow_succ, Nat.mul_assoc]

/-! ### Grammar -/

/-- The letters of the short escapes, and what they stand for. -/
def shortEscapes : List (Char × Char) :=
  [('\\', '\\'), ('"', '"'), ('/', '/'), ('b', '\x08'), ('f', '\x0c'), ('n', '\n'), ('r', '\r'),
    ('t', '\t')]

/-- Four hexadecimal digits, in either case of letters, and the number that they write. -/
def IsCodeUnit (ds : List Char) (unit : Nat) : Prop :=
  ∃ digits, List.Forall₂ (fun c digit ↦ Text.hexValue? c = some digit) ds digits ∧
    digits.length = 4 ∧ unit = digits.foldl (fun value digit ↦ 16 * value + digit) 0

/-- What may follow a backslash, and the character that it stands for. -/
inductive IsEscape : List Char → Char → Prop
  | short {letter c : Char} (h : (letter, c) ∈ shortEscapes) : IsEscape [letter] c
  | code {ds : List Char} {unit : Nat} (hds : IsCodeUnit ds unit)
      (hhigh : isHighSurrogate unit = false) (hlow : isLowSurrogate unit = false) :
      IsEscape ('u' :: ds) (Char.ofNat unit)
  | surrogates {ds ds' : List Char} {high low : Nat} (hds : IsCodeUnit ds high)
      (hds' : IsCodeUnit ds' low) (hhigh : isHighSurrogate high = true)
      (hlow : isLowSurrogate low = true) :
      IsEscape ('u' :: (ds ++ '\\' :: 'u' :: ds')) (Char.ofNat (pairedCode high low))

/-- What may stand between quotes, the text that it stands for, and whether any of it is escaped. -/
inductive IsBody : List Char → List Char → Bool → Prop
  | done : IsBody [] [] false
  | plain {c : Char} {body text : List Char} {escaped : Bool} (hquote : c ≠ '"')
      (hbackslash : c ≠ '\\') (hbody : IsBody body text escaped) :
      IsBody (c :: body) (c :: text) escaped
  | escape {code body text : List Char} {c : Char} {escaped : Bool} (hcode : IsEscape code c)
      (hbody : IsBody body text escaped) : IsBody ('\\' :: (code ++ body)) (c :: text) true

/-! ### Code units -/

/-- Digits that are read as a code write it, in front of what was read before them. -/
theorem exists_digits_foldl_of_scanCode {distance taken count value code : Nat} {cs : List Char}
    (h : scanCode distance taken count value cs = .ok code) :
    ∃ ds rest digits, cs = ds ++ rest ∧
      List.Forall₂ (fun c digit ↦ Text.hexValue? c = some digit) ds digits ∧
      digits.length = count ∧ code = digits.foldl (fun value digit ↦ 16 * value + digit) value := by
  induction count generalizing taken value cs with
  | zero =>
    cases h
    exact ⟨[], cs, [], rfl, .nil, rfl, rfl⟩
  | succ count ih =>
    cases cs with
    | nil => cases h
    | cons c cs =>
      rw [scanCode] at h
      split at h
      · cases h
      · next digit hdigit =>
        obtain ⟨ds, rest, digits, rfl, hds, rfl, hcode⟩ := ih h
        exact ⟨c :: ds, rest, digit :: digits, rfl, .cons hdigit hds, rfl, hcode⟩

theorem exists_isCodeUnit_of_scanCode {distance taken unit : Nat} {cs : List Char}
    (h : scanCode distance taken 4 0 cs = .ok unit) :
    ∃ ds rest, cs = ds ++ rest ∧ ds.length = 4 ∧ IsCodeUnit ds unit := by
  obtain ⟨ds, rest, digits, rfl, hds, hlength, hunit⟩ := exists_digits_foldl_of_scanCode h
  exact ⟨ds, rest, rfl, hds.length_eq.trans hlength, digits, hds, hlength, hunit⟩

/-- Digits are read as the code that they write. -/
theorem scanCode_digits {ds : List Char} {digits : List Nat}
    (h : List.Forall₂ (fun c digit ↦ Text.hexValue? c = some digit) ds digits)
    (distance taken value : Nat) (rest : List Char) :
    scanCode distance taken digits.length value (ds ++ rest) =
      .ok (digits.foldl (fun value digit ↦ 16 * value + digit) value) := by
  induction h generalizing taken value with
  | nil => rfl
  | @cons c digit ds digits hdigit hds ih =>
    rw [List.cons_append, List.length_cons, scanCode, hdigit]
    exact ih _ _

theorem IsCodeUnit.isCode {ds : List Char} {unit : Nat} (h : IsCodeUnit ds unit) :
    IsCode ds unit := by
  obtain ⟨digits, hds, hlength, rfl⟩ := h
  refine ⟨hds.length_eq.trans hlength, fun distance taken rest ↦ ?_⟩
  have hscan := scanCode_digits hds distance taken 0 rest
  rwa [hlength] at hscan

theorem IsCodeUnit.lt {ds : List Char} {unit : Nat} (h : IsCodeUnit ds unit) : unit < 0x10000 :=
  lt_of_scanCode (h.isCode.2 0 0 [])

/-! ### Escapes -/

/-- A code escape is one code that is no surrogate, or those of a high and of a low surrogate. -/
theorem scanCodeEscape_cases {read : Nat} {cs : List Char} {c : Char} {length : Nat}
    (h : scanCodeEscape read cs = .ok (c, length)) :
    ∃ unit, scanCode read (read + 2) 4 0 cs = .ok unit ∧
      ((isHighSurrogate unit = false ∧ isLowSurrogate unit = false ∧ charOfCode? unit = some c ∧
          length = 6) ∨
        isHighSurrogate unit = true ∧ ∃ after low, cs.drop 4 = '\\' :: 'u' :: after ∧
          scanCode (read + 6) (read + 8) 4 0 after = .ok low ∧ isLowSurrogate low = true ∧
          charOfCode? (0x10000 + (unit - 0xd800) * 0x400 + (low - 0xdc00)) = some c ∧
          length = 12) := by
  unfold scanCodeEscape at h
  cases hunit : scanCode read (read + 2) 4 0 cs with
  | error failure =>
    rw [hunit] at h
    cases h
  | ok unit =>
  rw [hunit] at h
  simp only [bind, Except.bind] at h
  refine ⟨unit, rfl, ?_⟩
  split at h
  · next hhigh =>
    split at h
    · next after hafter =>
      cases hlow : scanCode (read + 6) (read + 8) 4 0 after with
      | error failure =>
        rw [hlow] at h
        cases h
      | ok low =>
      rw [hlow] at h
      dsimp only at h
      split at h
      · next hisLow =>
        split at h
        · next hchar =>
          cases h
          exact .inr ⟨hhigh, after, low, hafter, hlow, hisLow, hchar, rfl⟩
        · cases h
      · cases h
    all_goals cases h
  · next hhigh =>
    split at h
    · cases h
    · next hlow =>
      split at h
      · next hchar =>
        cases h
        exact .inl ⟨Bool.eq_false_iff.mpr hhigh, Bool.eq_false_iff.mpr hlow, hchar, rfl⟩
      · cases h

/-- What follows a backslash by the grammar is scanned as its character. -/
theorem IsEscape.escapes {code : List Char} {c : Char} (h : IsEscape code c) : Escapes code c := by
  cases h with
  | short h =>
    have hscan : ∀ escape ∈ shortEscapes, Escapes [escape.1] escape.2 := by
      simp only [shortEscapes, List.forall_mem_cons]
      exact ⟨fun _ _ ↦ rfl, fun _ _ ↦ rfl, fun _ _ ↦ rfl, fun _ _ ↦ rfl, fun _ _ ↦ rfl,
        fun _ _ ↦ rfl, fun _ _ ↦ rfl, fun _ _ ↦ rfl, by simp⟩
    exact hscan _ h
  | code hds hhigh hlow =>
    exact escapes_code hds.isCode hhigh hlow (charOfCode?_unit hds.lt hhigh hlow)
  | surrogates hds hds' hhigh hlow =>
    exact escapes_surrogates hds.isCode hds'.isCode hhigh hlow (charOfCode?_surrogates hhigh hlow)

theorem exists_isEscape_of_scanCodeEscape {read : Nat} {cs : List Char} {c : Char} {length : Nat}
    (h : scanCodeEscape read cs = .ok (c, length)) :
    ∃ code rest, 'u' :: cs = code ++ rest ∧ length = code.length + 1 ∧ IsEscape code c := by
  obtain ⟨unit, hunit, hcases⟩ := scanCodeEscape_cases h
  obtain ⟨ds, rest, rfl, hlength, hds⟩ := exists_isCodeUnit_of_scanCode hunit
  obtain ⟨hhigh, hlow, hchar, rfl⟩ | ⟨hhigh, after, low, hafter, hlow, hisLow, hchar, rfl⟩ := hcases
  · rw [charOfCode?_unit hds.lt hhigh hlow] at hchar
    cases hchar
    exact ⟨'u' :: ds, rest, rfl, by simp [hlength], .code hds hhigh hlow⟩
  · rw [List.drop_left' hlength] at hafter
    obtain ⟨ds', rest, rfl, hlength', hds'⟩ := exists_isCodeUnit_of_scanCode hlow
    have hpaired : charOfCode? (pairedCode unit low) = some c := hchar
    rw [charOfCode?_surrogates hhigh hisLow] at hpaired
    obtain rfl := Option.some.inj hpaired
    exact ⟨'u' :: (ds ++ '\\' :: 'u' :: ds'), rest, by simp [hafter], by simp [hlength, hlength'],
      .surrogates hds hds' hhigh hisLow⟩

/-- What is scanned after a backslash is in the grammar. -/
theorem exists_isEscape_of_scanEscape {read : Nat} {cs : List Char} {c : Char} {length : Nat}
    (h : scanEscape read cs = .ok (c, length)) :
    ∃ code rest, cs = code ++ rest ∧ length = code.length + 1 ∧ IsEscape code c := by
  unfold scanEscape at h
  split at h
  case h_1 => cases h
  case h_10 => exact exists_isEscape_of_scanCodeEscape h
  case h_11 => cases h
  all_goals
    cases h
    exact ⟨[_], _, rfl, rfl, .short (by simp [shortEscapes])⟩

/-! ### Bodies -/

/-- What stands between quotes by the grammar is scanned as its text. -/
theorem IsBody.scanBody {body text : List Char} {escaped : Bool} (h : IsBody body text escaped)
    (read : Nat) (rest : List Char) :
    scanBody read (body ++ '"' :: rest) = .ok (text, escaped, read + body.length + 1) := by
  induction h generalizing read with
  | done => simp [Lexeme.scanBody]
  | @plain c body text escaped hquote hbackslash hbody ih =>
    have hself := spells_self hquote hbackslash read (body ++ '"' :: rest)
    rw [List.singleton_append, ih] at hself
    rw [List.cons_append, hself]
    simp only [List.length_cons, List.length_nil, Bool.false_or]
    congr 3
    omega
  | @escape code body text c escaped hcode hbody ih =>
    have hspelled := hcode.escapes.spells read (body ++ '"' :: rest)
    rw [ih] at hspelled
    rw [← List.cons_append, List.append_assoc, hspelled, List.length_append]
    simp only [Bool.true_or]
    congr 3
    omega

/-- What is scanned between quotes is in the grammar. -/
theorem exists_isBody_of_scanBody {read : Nat} {cs text : List Char} {escaped : Bool} {taken : Nat}
    (h : Lexeme.scanBody read cs = .ok (text, escaped, taken)) :
    ∃ body rest, cs = body ++ '"' :: rest ∧ taken = read + body.length + 1 ∧
      IsBody body text escaped := by
  fun_induction Lexeme.scanBody read cs generalizing text escaped taken with
  | case1 => cases h
  | case2 read rest =>
    cases h
    exact ⟨[], rest, rfl, rfl, .done⟩
  | case3 => cases h
  | case4 => cases h
  | case5 read rest c length hescape text others taken heq ih =>
    cases h
    obtain ⟨code, after, rfl, rfl, hcode⟩ := exists_isEscape_of_scanEscape hescape
    obtain ⟨body, tail, hafter, rfl, hbody⟩ := ih heq
    rw [Nat.add_sub_cancel, List.drop_left] at hafter
    refine ⟨'\\' :: (code ++ body), tail, by simp [hafter], ?_, .escape hcode hbody⟩
    simp only [List.length_cons, List.length_append]
    omega
  | case6 => cases h
  | case7 read c rest hquote hbackslash text others taken heq ih =>
    cases h
    obtain ⟨body, tail, rfl, rfl, hbody⟩ := ih heq
    refine ⟨c :: body, tail, rfl, ?_, .plain hquote hbackslash hbody⟩
    rw [List.length_cons]
    omega

/-- A body without escapes is its own text. -/
theorem IsBody.eq_of_not_escaped {body text : List Char} (h : IsBody body text false) :
    body = text := by
  generalize hescaped : false = escaped at h
  induction h with
  | done => rfl
  | plain hquote hbackslash hbody ih => rw [ih hescaped]
  | escape => cases hescaped

end PropertyFilter.Lexeme
