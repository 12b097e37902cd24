import PropertyFilter.Proofs.Text.Reading
import PropertyFilter.Toml.Quoted
import PropertyFilter.Toml.Reading

/-!
# Reading quoted texts

A text that is written as a TOML string is read back as it was (`reads_quoted`), whichever way it is
quoted. Between single or double quotes on one line, each character is read from the characters that
stand for it. Over several lines the quotes of the text are the difficulty: up to two may stand as
they are, and those at the end of the text run into the ones that close the string. `Closes` says
what comes of the rest of such a string, and a run of quotes in front of it is read one by one, or
with the closing ones if there is nothing between them.
-/

set_option autoImplicit false

namespace PropertyFilter.Toml

open Text Text.Reader

/-! ### Characters -/

/-- A character that has no need to be escaped is plain, or ends a line. -/
theorem isPlain_of_needsEscape {c : Char} (h : needsEscape c = false) (hend : c ≠ '\n') :
    isPlain c = true := by
  by_cases htab : c = '\t'
  · rw [htab]
    rfl
  simp only [needsEscape, isPlain, Bool.or_eq_false_iff, Bool.and_eq_false_iff, Bool.or_eq_true,
    Bool.and_eq_true, decide_eq_false_iff_not, decide_eq_true_eq, bne_eq_false_iff_eq,
    beq_eq_false_iff_ne, bne_iff_ne, beq_iff_eq] at h ⊢
  obtain ⟨(hcontrol | rfl) | rfl, hdelete⟩ := h
  · exact .inr ⟨by omega, hdelete⟩
  · exact .inl rfl
  · exact absurd rfl hend

/-- The digits of a code below 128 are read as its character. -/
theorem reads_codeChar {n : Nat} (h : n < 128) (rest : List Char) :
    Reads (codeChar 4) (hexDigits .upper 4 n) (Char.ofNat n) rest := by
  have hcodes : ∀ n : Fin 128, (((hexDigits .upper 4 n).mapM hexValue?).bind fun values ↦
      Lexeme.charOfCode? (values.foldl (fun total digit ↦ 16 * total + digit) 0)) =
        some (Char.ofNat n) := by
    decide +kernel
  have htake : (hexDigits .upper 4 n ++ rest).take 4 = hexDigits .upper 4 n :=
    List.take_left' (length_hexDigits .upper 4 n)
  rw [Reads, codeChar, htake, length_hexDigits, if_pos rfl, hcodes ⟨n, h⟩]
  rfl

/-- The characters are an escape for a character. -/
def IsEscape (own : List Char) (c : Char) : Prop :=
  ∃ d more, own = '\\' :: d :: more ∧ isSpace d = false ∧ d ≠ '\n' ∧ d ≠ '\r' ∧
    ∀ rest, Reads escape own c rest

theorem isEscape_quote : IsEscape ['\\', '"'] '"' :=
  ⟨'"', [], rfl, by decide, by decide, by decide, fun _ ↦ rfl⟩

theorem isEscape_code {c : Char} (h : needsEscape c = true) :
    IsEscape ('\\' :: 'u' :: hexDigits .upper 4 c.toNat) c := by
  have hcode : c.toNat < 128 := by
    simp only [needsEscape, Bool.or_eq_true, Bool.and_eq_true, decide_eq_true_eq,
      beq_iff_eq] at h
    omega
  refine ⟨'u', _, rfl, by decide, by decide, by decide, fun rest ↦ ?_⟩
  have hdigits := reads_codeChar hcode rest
  rw [Char.ofNat_toNat] at hdigits
  exact (reads_char '\\' _).bind ((reads_charWhere rfl _).bind hdigits)

/-- A character between double quotes stands for itself, ends a line of several, or is escaped. -/
theorem quotedChar_cases (several : Bool) {c : Char} (hquote : c ≠ '"') :
    (quotedChar several c = [c] ∧ isPlain c = true ∧ c ≠ '\\') ∨
      (quotedChar several c = [c] ∧ several = true ∧ c = '\n') ∨
      IsEscape (quotedChar several c) c := by
  unfold quotedChar
  split
  · next h =>
    subst h
    exact .inr (.inr ⟨'b', [], rfl, by decide, by decide, by decide, fun _ ↦ rfl⟩)
  split
  · next h =>
    subst h
    exact .inr (.inr ⟨'t', [], rfl, by decide, by decide, by decide, fun _ ↦ rfl⟩)
  split
  · next h =>
    subst h
    cases several with
    | true => exact .inr (.inl ⟨rfl, rfl, rfl⟩)
    | false => exact .inr (.inr ⟨'n', [], rfl, by decide, by decide, by decide, fun _ ↦ rfl⟩)
  next hend =>
  split
  · next h =>
    subst h
    exact .inr (.inr ⟨'f', [], rfl, by decide, by decide, by decide, fun _ ↦ rfl⟩)
  split
  · next h =>
    subst h
    exact .inr (.inr ⟨'r', [], rfl, by decide, by decide, by decide, fun _ ↦ rfl⟩)
  split
  · next h =>
    subst h
    exact .inr (.inr ⟨'\\', [], rfl, by decide, by decide, by decide, fun _ ↦ rfl⟩)
  next hbackslash =>
  split
  · next h => exact .inr (.inr (isEscape_code h))
  · next h =>
    exact .inl ⟨rfl, isPlain_of_needsEscape (Bool.eq_false_iff.mpr h) hend, hbackslash⟩

/-! ### One line -/

theorem refuses_escape {cs : List Char} (h : ∀ d ∈ cs.head?, d ≠ '\\') : Refuses escape cs :=
  (refuses_char h).bind

theorem refuses_basicChar {cs : List Char}
    (h : ∀ d ∈ cs.head?, d = '"' ∨ d = '\\' ∨ isPlain d = false) : Refuses basicChar cs := by
  refine refuses_charWhere fun d hd ↦ ?_
  rcases h d hd with rfl | rfl | hplain
  · rfl
  · rfl
  · rw [hplain, Bool.false_and, Bool.false_and]

theorem reads_basicChar {c : Char} (hplain : isPlain c = true) (hquote : c ≠ '"')
    (hbackslash : c ≠ '\\') (rest : List Char) : Reads basicChar [c] c rest :=
  reads_charWhere (by simp [hplain, hquote, hbackslash]) rest

theorem IsEscape.reads {own : List Char} {c : Char} (h : IsEscape own c) (rest : List Char) :
    Reads (orElse basicChar escape) own c rest := by
  obtain ⟨d, more, rfl, -, -, -, hreads⟩ := h
  exact .orElse_right (refuses_basicChar fun _ hd ↦ .inr (.inl (Option.some.inj hd).symm))
    (hreads rest)

theorem reads_quotedBody (run : Nat) (cs rest : List Char) :
    Reads (many (orElse basicChar escape)) (quotedBody false run cs) cs ('"' :: rest) := by
  induction cs generalizing run with
  | nil =>
    exact reads_many_nil ((refuses_basicChar (by simp)).orElse (refuses_escape (by simp)))
  | cons c cs ih =>
    rw [quotedBody]
    split
    · next hquote =>
      subst hquote
      exact (isEscape_quote.reads _).many_cons (List.cons_ne_nil _ _) (ih 0)
    · next hquote =>
      rcases quotedChar_cases false hquote with
        ⟨hown, hplain, hbackslash⟩ | ⟨-, hfalse, -⟩ | hescape
      · rw [hown]
        exact (reads_basicChar hplain hquote hbackslash _).orElse_left.many_cons
          (List.cons_ne_nil _ _) (ih 0)
      · cases hfalse
      · have hreads := hescape.reads (quotedBody false 0 cs ++ '"' :: rest)
        obtain ⟨d, more, hown, -⟩ := hescape
        exact hreads.many_cons (by simp [hown]) (ih 0)

theorem reads_basicString (cs rest : List Char) :
    Reads basicString ('"' :: (quotedBody false 0 cs ++ ['"'])) (String.ofList cs) rest :=
  (reads_char '"' _).bind ((reads_quotedBody 0 cs rest).bind
    ((reads_char '"' rest).bind_nil (reads_pure _ rest)))

theorem reads_literalString {cs : List Char}
    (h : ∀ c ∈ cs, isPlain c = true ∧ c ≠ '\x27') (rest : List Char) :
    Reads literalString ('\x27' :: (cs ++ ['\x27'])) (String.ofList cs) rest := by
  have hbody : Reads (many literalChar) cs cs (['\x27'] ++ rest) := by
    have hchars : ∀ c ∈ cs, ∀ rest, True → Reads literalChar [c] c rest := fun c hc rest _ ↦
      reads_charWhere (by simp [h c hc]) rest
    have hend : Refuses literalChar (['\x27'] ++ rest) := refuses_charWhere (by simp)
    have hflat := Reads.many_flatMap (fun c ↦ [c]) id (fun _ ↦ True)
      (fun _ _ ↦ List.cons_ne_nil _ _) (fun _ _ _ ↦ trivial) hchars trivial hend
    rwa [List.map_id, List.flatMap_singleton'] at hflat
  exact (reads_char '\x27' _).bind
    (hbody.bind ((reads_char '\x27' rest).bind_nil (reads_pure _ rest)))

/-! ### Several lines -/

/-- What is left of a string of several lines is read as a text, quotes at the end of the text with
those that close the string. -/
def Closes (quote : Char) (part : Reader (List Char)) (own text rest : List Char) : Prop :=
  ∃ front parts back quotes, own = front ++ back ∧ text = parts.flatten ++ quotes ∧
    Reads (many part) front parts (back ++ rest) ∧ Reads (closingQuotes quote) back quotes rest

/-- A part of a string of several lines reads a quote only where no three of them stand. -/
structure KeepsQuotes (quote : Char) (part : Reader (List Char)) : Prop where
  refuses : ∀ cs, [quote, quote, quote].isPrefixOf cs = true → Refuses part cs
  reads : ∀ cs, [quote, quote].isPrefixOf cs = false → Reads part [quote] [quote] cs

section lines

variable {quote : Char} {part : Reader (List Char)} {own piece text rest : List Char}

theorem Closes.cons {own' : List Char} (h : Reads part own piece (own' ++ rest)) (hown : own ≠ [])
    (h' : Closes quote part own' text rest) :
    Closes quote part (own ++ own') (piece ++ text) rest := by
  obtain ⟨front, parts, back, quotes, rfl, rfl, hparts, hback⟩ := h'
  rw [List.append_assoc] at h
  exact ⟨own ++ front, piece :: parts, back, quotes, by simp, by simp,
    h.many_cons hown hparts, hback⟩

/-- Quotes at the end of the text. -/
theorem closes_replicate (hpart : KeepsQuotes quote part) {run : Nat} (hrun : run ≤ 2)
    (hrest : ∀ c ∈ rest.head?, c ≠ quote) :
    Closes quote part (List.replicate run quote ++ [quote, quote, quote])
      (List.replicate run quote) rest := by
  have hquotes : List.replicate run quote ++ List.replicate 3 quote =
      List.replicate (run + 3) quote := List.replicate_append_replicate
  have htaken : Reads (closingQuotes quote) (List.replicate (run + 3) quote)
      (List.replicate run quote) rest := by
    have hrun' : run + 3 ≤ 5 := by omega
    refine (reads_takeWhile ?_ ?_).bind_nil ?_
    · intro c hc
      exact beq_iff_eq.mpr (List.eq_of_mem_replicate hc)
    · intro c hc
      exact beq_eq_false_iff_ne.mpr (hrest c hc)
    · simp [hrun', reads_pure]
  change Closes quote part (List.replicate run quote ++ List.replicate 3 quote) _ rest
  rw [hquotes]
  refine ⟨[], [], _, _, rfl, rfl, reads_many_nil (hpart.refuses _ ?_), htaken⟩
  simp [List.replicate_succ]

/-- Quotes inside the text. -/
theorem Closes.replicate (hpart : KeepsQuotes quote part) {run : Nat} (hrun : run ≤ 2) {d : Char}
    (hd : d ≠ quote) (h : Closes quote part (d :: own) text rest) :
    Closes quote part (List.replicate run quote ++ d :: own) (List.replicate run quote ++ text)
      rest := by
  induction run with
  | zero => exact h
  | succ run ih =>
    have hapart : [quote, quote].isPrefixOf (List.replicate run quote ++ d :: own ++ rest) =
        false := by
      have hone : run = 0 ∨ run = 1 := by omega
      rcases hone with rfl | rfl <;> simp [List.isPrefixOf, Ne.symm hd]
    have hcons : Closes quote part ([quote] ++ (List.replicate run quote ++ d :: own))
        ([quote] ++ (List.replicate run quote ++ text)) rest :=
      .cons (hpart.reads _ hapart) (List.cons_ne_nil _ _) (ih (by omega))
    exact hcons

theorem reads_lines (h : Closes quote part own text rest)
    (hstart : Refuses newline (own ++ rest)) :
    Reads (lines quote part) ([quote, quote, quote] ++ own) (String.ofList text) rest := by
  obtain ⟨front, parts, back, quotes, rfl, rfl, hparts, hback⟩ := h
  refine (reads_exactly _ _).bind (hstart.reads_optional.nil_bind ?_)
  exact hparts.bind (hback.bind_nil (reads_pure _ _))

/-- A line end after the opening quotes is no part of the text. -/
theorem reads_lines_newline (h : Closes quote part own text rest) :
    Reads (lines quote part) ([quote, quote, quote] ++ '\n' :: own) (String.ofList text) rest := by
  obtain ⟨front, parts, back, quotes, rfl, rfl, hparts, hback⟩ := h
  have hnewline : Reads newline ['\n'] () (front ++ back ++ rest) :=
    (reads_exactly ['\n'] _).orElse_left
  refine (reads_exactly _ _).bind (hnewline.optional.bind ?_)
  exact hparts.bind (hback.bind_nil (reads_pure _ _))

end lines

theorem refuses_newline {cs : List Char} (h : ∀ c ∈ cs.head?, c ≠ '\n' ∧ c ≠ '\r') :
    Refuses newline cs :=
  (refuses_exactly_cons fun c hc ↦ (h c hc).1).orElse (refuses_exactly_cons fun c hc ↦ (h c hc).2)

theorem refuses_innerQuote {quote : Char} {cs : List Char}
    (h : [quote, quote, quote].isPrefixOf cs = true) : Refuses (innerQuote quote) cs := by
  refine (reads_ahead cs).refuses_bind ?_
  rw [if_pos h]
  exact refuses_refuse cs

theorem reads_innerQuote {quote : Char} {cs : List Char}
    (h : [quote, quote].isPrefixOf cs = false) : Reads (innerQuote quote) [quote] quote cs := by
  refine (reads_ahead _).nil_bind ?_
  rw [if_neg (by simp [h])]
  exact reads_char quote cs

/-- What a string of several lines between double quotes is read part by part with. -/
def basicPart : Reader (List Char) :=
  firstOf [List.singleton <$> basicChar, (fun _ ↦ ['\n']) <$> newline,
    (fun _ ↦ []) <$> foldedBreak, List.singleton <$> escape, List.singleton <$> innerQuote '"']

/-- What a string of several lines between single quotes is read part by part with. -/
def literalPart : Reader (List Char) :=
  firstOf [List.singleton <$> literalChar, (fun _ ↦ ['\n']) <$> newline,
    List.singleton <$> innerQuote '\x27']

theorem refuses_foldedBreak {cs : List Char} (h : ∀ d ∈ cs.head?, d ≠ '\\') :
    Refuses foldedBreak cs := (refuses_char h).bind

/-- A backslash that neither blanks nor a line end follow folds no line. -/
theorem refuses_foldedBreak_escape {d : Char} {cs : List Char} (hspace : isSpace d = false)
    (hfeed : d ≠ '\n') (hreturn : d ≠ '\r') : Refuses foldedBreak ('\\' :: d :: cs) := by
  have hspaces : Reads spaces [] () (d :: cs) :=
    (reads_takeWhile (by simp) (by simpa using hspace)).bind_nil (reads_pure _ _)
  have hnewline : Refuses newline (d :: cs) := refuses_newline (by simp [hfeed, hreturn])
  exact (reads_char '\\' _).refuses_bind (hspaces.refuses_bind hnewline.bind)

theorem keepsQuotes_basicPart : KeepsQuotes '"' basicPart := by
  have hbasic : ∀ cs, Refuses basicChar ('"' :: cs) := fun cs ↦ refuses_basicChar (by simp)
  have hnewline : ∀ cs, Refuses newline ('"' :: cs) := fun cs ↦ refuses_newline (by simp)
  have hfolded : ∀ cs, Refuses foldedBreak ('"' :: cs) := fun cs ↦ refuses_foldedBreak (by simp)
  have hescape : ∀ cs, Refuses escape ('"' :: cs) := fun cs ↦ refuses_escape (by simp)
  constructor
  · intro cs hcs
    obtain ⟨tail, rfl⟩ := List.isPrefixOf_iff_prefix.mp hcs
    refine refuses_firstOf fun r hr ↦ ?_
    simp only [List.mem_cons, List.not_mem_nil, or_false] at hr
    rcases hr with rfl | rfl | rfl | rfl | rfl
    · exact (hbasic _).map _
    · exact (hnewline _).map _
    · exact (hfolded _).map _
    · exact (hescape _).map _
    · exact (refuses_innerQuote hcs).map _
  · intro cs hcs
    exact .firstOf_tail ((hbasic cs).map _) (.firstOf_tail ((hnewline cs).map _)
      (.firstOf_tail ((hfolded cs).map _) (.firstOf_tail ((hescape cs).map _)
        ((reads_innerQuote hcs).map List.singleton).firstOf_head)))

theorem keepsQuotes_literalPart : KeepsQuotes '\x27' literalPart := by
  have hliteral : ∀ cs, Refuses literalChar ('\x27' :: cs) := fun cs ↦ refuses_charWhere (by simp)
  have hnewline : ∀ cs, Refuses newline ('\x27' :: cs) := fun cs ↦ refuses_newline (by simp)
  constructor
  · intro cs hcs
    obtain ⟨tail, rfl⟩ := List.isPrefixOf_iff_prefix.mp hcs
    refine refuses_firstOf fun r hr ↦ ?_
    simp only [List.mem_cons, List.not_mem_nil, or_false] at hr
    rcases hr with rfl | rfl | rfl
    · exact (hliteral _).map _
    · exact (hnewline _).map _
    · exact (refuses_innerQuote hcs).map _
  · intro cs hcs
    exact .firstOf_tail ((hliteral cs).map _) (.firstOf_tail ((hnewline cs).map _)
      ((reads_innerQuote hcs).map List.singleton).firstOf_head)

/-! ### The bodies of strings of several lines -/

theorem IsEscape.reads_basicPart {own : List Char} {c : Char} (h : IsEscape own c)
    (cs : List Char) : Reads basicPart own [c] cs := by
  obtain ⟨d, more, rfl, hspace, hfeed, hreturn, hreads⟩ := h
  have hbasic : Refuses basicChar ('\\' :: d :: more ++ cs) := refuses_basicChar (by simp)
  have hnewline : Refuses newline ('\\' :: d :: more ++ cs) := refuses_newline (by simp)
  have hfolded : Refuses foldedBreak ('\\' :: d :: more ++ cs) :=
    refuses_foldedBreak_escape hspace hfeed hreturn
  exact .firstOf_tail (hbasic.map _) (.firstOf_tail (hnewline.map _) (.firstOf_tail (hfolded.map _)
    ((hreads cs).map List.singleton).firstOf_head))

/-- A character of a text over several lines does not begin with a quote, unless it is one. -/
theorem exists_reads_quotedChar {c : Char} (hquote : c ≠ '"') :
    ∃ d more, quotedChar true c = d :: more ∧ d ≠ '"' ∧
      ∀ cs, Reads basicPart (d :: more) [c] cs := by
  rcases quotedChar_cases true hquote with ⟨hown, hplain, hbackslash⟩ | ⟨hown, -, rfl⟩ | hescape
  · refine ⟨c, [], hown, hquote, fun cs ↦ ?_⟩
    exact ((reads_basicChar hplain hquote hbackslash cs).map List.singleton).firstOf_head
  · refine ⟨'\n', [], hown, hquote, fun cs ↦ ?_⟩
    have hbasic : Refuses basicChar ('\n' :: cs) := refuses_basicChar (by simp [isPlain])
    have hnewline : Reads newline ['\n'] () cs := (reads_exactly ['\n'] cs).orElse_left
    exact .firstOf_tail (hbasic.map _) (hnewline.map fun _ ↦ ['\n']).firstOf_head
  · have hreads := hescape.reads_basicPart
    obtain ⟨d, more, hown, -⟩ := hescape
    rw [hown] at hreads
    exact ⟨'\\', d :: more, hown, by decide, hreads⟩

theorem replicate_append_cons (run : Nat) (quote : Char) (cs : List Char) :
    List.replicate run quote ++ quote :: cs = List.replicate (run + 1) quote ++ cs := by
  rw [List.replicate_succ', List.append_assoc, List.singleton_append]

/-- The induction is on the text, where the quotes in a row in front of it are still to be read. -/
theorem closes_quotedBody {run : Nat} (hrun : run ≤ 2) (cs : List Char) {rest : List Char}
    (hrest : ∀ c ∈ rest.head?, c ≠ '"') :
    Closes '"' basicPart (List.replicate run '"' ++ (quotedBody true run cs ++ ['"', '"', '"']))
      (List.replicate run '"' ++ cs) rest := by
  induction cs generalizing run with
  | nil =>
    rw [quotedBody, List.nil_append, List.append_nil]
    exact closes_replicate keepsQuotes_basicPart hrun hrest
  | cons c cs ih =>
    have hinner : Closes '"' basicPart (quotedBody true 0 cs ++ ['"', '"', '"']) cs rest :=
      ih (Nat.zero_le 2)
    rw [quotedBody]
    split
    · next hquote =>
      subst hquote
      split
      · next hfew =>
        have hless : run + 1 ≤ 2 := by
          rw [Bool.true_and, decide_eq_true_eq] at hfew
          omega
        rw [List.cons_append, replicate_append_cons, replicate_append_cons]
        exact ih hless
      · have hescaped := Closes.cons (isEscape_quote.reads_basicPart _) (List.cons_ne_nil _ _)
          hinner
        exact Closes.replicate keepsQuotes_basicPart hrun (by decide) hescaped
    · next hquote =>
      obtain ⟨d, more, hown, hd, hreads⟩ := exists_reads_quotedChar hquote
      rw [hown]
      have hpiece := Closes.cons (hreads _) (List.cons_ne_nil _ _) hinner
      rw [List.append_assoc]
      exact Closes.replicate keepsQuotes_basicPart hrun hd hpiece

theorem hasRun_of_append {count : Nat} {c : Char} {before cs : List Char}
    (h : hasRun count c (before ++ cs) = false) : hasRun count c cs = false := by
  induction before with
  | nil => exact h
  | cons d before ih =>
    rw [List.cons_append, hasRun, Bool.or_eq_false_iff] at h
    exact ih h.2

theorem closes_literal {run : Nat} (hrun : run ≤ 2) {cs : List Char}
    (hplain : ∀ c ∈ cs, needsEscape c = false)
    (hfew : hasRun 3 '\x27' (List.replicate run '\x27' ++ cs) = false) {rest : List Char}
    (hrest : ∀ c ∈ rest.head?, c ≠ '\x27') :
    Closes '\x27' literalPart (List.replicate run '\x27' ++ (cs ++ ['\x27', '\x27', '\x27']))
      (List.replicate run '\x27' ++ cs) rest := by
  induction cs generalizing run with
  | nil =>
    rw [List.nil_append, List.append_nil]
    exact closes_replicate keepsQuotes_literalPart hrun hrest
  | cons c cs ih =>
    obtain ⟨hc, hcs⟩ := List.forall_mem_cons.mp hplain
    by_cases hquote : c = '\x27'
    · subst hquote
      rw [List.cons_append, replicate_append_cons, replicate_append_cons]
      rw [replicate_append_cons] at hfew
      have hless : run + 1 ≤ 2 := by
        rcases Nat.lt_or_eq_of_le hrun with hlt | rfl
        · omega
        · simp [hasRun, List.replicate_succ] at hfew
      exact ih hless hcs hfew
    · have hfew' : hasRun 3 '\x27' cs = false := by
        rw [← List.singleton_append, ← List.append_assoc] at hfew
        exact hasRun_of_append hfew
      have hpiece : Reads literalPart [c] [c] (cs ++ ['\x27', '\x27', '\x27'] ++ rest) := by
        by_cases hend : c = '\n'
        · subst hend
          have hliteral : ∀ cs, Refuses literalChar ('\n' :: cs) := fun cs ↦
            refuses_charWhere (by simp [isPlain])
          have hnewline : ∀ cs, Reads newline ['\n'] () cs := fun cs ↦
            (reads_exactly ['\n'] cs).orElse_left
          exact .firstOf_tail ((hliteral _).map _) ((hnewline _).map fun _ ↦ ['\n']).firstOf_head
        · have hread : isPlain c && c != '\x27' := by simp [isPlain_of_needsEscape hc hend, hquote]
          exact ((reads_charWhere hread _).map List.singleton).firstOf_head
      have hinner : Closes '\x27' literalPart (cs ++ ['\x27', '\x27', '\x27']) cs rest :=
        ih (Nat.zero_le 2) hcs hfew'
      have hpieces := Closes.cons hpiece (List.cons_ne_nil _ _) hinner
      exact Closes.replicate keepsQuotes_literalPart hrun hquote hpieces

/-! ### Strings -/

/-- A text has no need of escapes in the quotation that is chosen, or that is one with escapes. -/
theorem suits_choose (cs : List Char) :
    Quotation.suits cs (Quotation.choose cs) = true ∨ Quotation.choose cs = .basic ∨
      Quotation.choose cs = .basicLines := by
  unfold Quotation.choose
  split
  · next quotation hfound => exact .inl (List.find?_some hfound)
  · split
    · exact .inr (.inr rfl)
    · exact .inr (.inl rfl)

/-- One quote with none after it is not followed by another two. -/
theorem isPrefixOf_two {quote : Char} {own rest : List Char} (hown : ∀ c ∈ own.head?, c ≠ quote)
    (hrest : ∀ c ∈ rest.head?, c ≠ quote) :
    [quote, quote].isPrefixOf (own ++ quote :: rest) = false := by
  cases own with
  | nil =>
    cases rest with
    | nil => simp
    | cons c cs => simp [List.isPrefixOf, Ne.symm (hrest c rfl)]
  | cons c cs => simp [List.isPrefixOf, Ne.symm (hown c rfl)]

theorem refuses_lines {quote : Char} {part : Reader (List Char)} {cs : List Char}
    (h : [quote, quote, quote].isPrefixOf cs = false) : Refuses (lines quote part) cs :=
  (refuses_exactly h).bind

theorem head?_quotedBody (cs : List Char) : ∀ c ∈ (quotedBody false 0 cs).head?, c ≠ '"' := by
  cases cs with
  | nil => simp [quotedBody]
  | cons c cs =>
    rw [quotedBody]
    split
    · simp
    · next hquote =>
      rcases quotedChar_cases false hquote with ⟨hown, -⟩ | ⟨hown, -⟩ | ⟨d, more, hown, -⟩
      · simpa [hown] using hquote
      · simpa [hown] using hquote
      · simp [hown]

/-- A body over several lines begins with a line end only if its text does. -/
theorem head?_quotedBody_lines {cs : List Char} (h : '\n' ∉ cs) (rest : List Char) :
    ∀ c ∈ (quotedBody true 0 cs ++ '"' :: rest).head?, c ≠ '\n' ∧ c ≠ '\r' := by
  cases cs with
  | nil => simp [quotedBody]
  | cons c cs =>
    rw [quotedBody]
    split
    · simp
    · next hquote =>
      rcases quotedChar_cases true hquote with ⟨hown, hplain, -⟩ | ⟨-, -, rfl⟩ | ⟨d, more, hown, -⟩
      · have hends : c ≠ '\n' ∧ c ≠ '\r' := by
          constructor <;> rintro rfl <;> exact absurd hplain (by decide)
        simpa [hown] using hends
      · exact absurd List.mem_cons_self h
      · simp [hown]

theorem reads_basicLines (cs : List Char) {rest : List Char}
    (hrest : ∀ c ∈ rest.head?, c ≠ '"') :
    Reads basicLines (['"', '"', '"'] ++ (if '\n' ∈ cs then ['\n'] else []) ++
      quotedBody true 0 cs ++ ['"', '"', '"']) (String.ofList cs) rest := by
  have hcloses : Closes '"' basicPart (quotedBody true 0 cs ++ ['"', '"', '"']) cs rest :=
    closes_quotedBody (Nat.zero_le 2) cs hrest
  split
  · have hread : Reads basicLines _ _ rest := reads_lines_newline hcloses
    simpa using hread
  · next hend =>
    have hstart : Refuses newline (quotedBody true 0 cs ++ ['"', '"', '"'] ++ rest) := by
      rw [List.append_assoc]
      exact refuses_newline (head?_quotedBody_lines hend _)
    have hread : Reads basicLines _ _ rest := reads_lines hcloses hstart
    simpa using hread

theorem reads_literalLines {cs : List Char} (hplain : ∀ c ∈ cs, needsEscape c = false)
    (hfew : hasRun 3 '\x27' cs = false) {rest : List Char} (hrest : ∀ c ∈ rest.head?, c ≠ '\x27') :
    Reads literalLines (['\x27', '\x27', '\x27'] ++ (if '\n' ∈ cs then ['\n'] else []) ++ cs ++
      ['\x27', '\x27', '\x27']) (String.ofList cs) rest := by
  have hcloses : Closes '\x27' literalPart (cs ++ ['\x27', '\x27', '\x27']) cs rest :=
    closes_literal (Nat.zero_le 2) hplain hfew hrest
  split
  · have hread : Reads literalLines _ _ rest := reads_lines_newline hcloses
    simpa using hread
  · next hend =>
    have hstart : Refuses newline (cs ++ ['\x27', '\x27', '\x27'] ++ rest) := by
      refine refuses_newline ?_
      cases cs with
      | nil => simp
      | cons c cs =>
        have hfeed : c ≠ '\n' := fun heq ↦ hend (heq ▸ List.mem_cons_self)
        have hreturn : c ≠ '\r' := by
          rintro rfl
          exact absurd (hplain _ List.mem_cons_self) (by decide)
        simp [hfeed, hreturn]
    have hread : Reads literalLines _ _ rest := reads_lines hcloses hstart
    simpa using hread

/-! ### Any string -/

theorem refuses_basicString {cs : List Char} (h : ∀ c ∈ cs.head?, c ≠ '"') :
    Refuses basicString cs :=
  (refuses_char h).bind

theorem reads_anyString_basic (cs : List Char) {rest : List Char}
    (hrest : ∀ c ∈ rest.head?, c ≠ '"') :
    Reads anyString ('"' :: (quotedBody false 0 cs ++ ['"'])) (String.ofList cs) rest := by
  have htwo := isPrefixOf_two (head?_quotedBody cs) hrest
  refine .firstOf_tail (refuses_lines ?_) (reads_basicString cs rest).firstOf_head
  simpa using htwo

theorem reads_anyString_literal {cs : List Char} (h : ∀ c ∈ cs, isPlain c = true ∧ c ≠ '\x27')
    {rest : List Char} (hrest : ∀ c ∈ rest.head?, c ≠ '\x27') :
    Reads anyString ('\x27' :: (cs ++ ['\x27'])) (String.ofList cs) rest := by
  have htwo := isPrefixOf_two (fun c hc ↦ (h c (List.mem_of_mem_head? hc)).2) hrest
  refine .firstOf_tail (refuses_exactly_cons (by simp)).bind
    (.firstOf_tail (refuses_basicString (by simp)) (.firstOf_tail (refuses_lines ?_)
      (reads_literalString h rest).firstOf_head))
  simpa using htwo

theorem reads_anyString_basicLines {own rest : List Char} {s : String}
    (h : Reads basicLines own s rest) : Reads anyString own s rest :=
  .firstOf_head h

theorem reads_anyString_literalLines {own rest : List Char} {s : String}
    (h : Reads literalLines ('\x27' :: own) s rest) : Reads anyString ('\x27' :: own) s rest :=
  .firstOf_tail (refuses_exactly_cons (by simp)).bind
    (.firstOf_tail (refuses_basicString (by simp)) (.firstOf_head h))

/-- A quoted text is read as the text, if no quote follows it. -/
theorem reads_quoted (s : String) {rest : List Char}
    (hrest : ∀ c ∈ rest.head?, c ≠ '"' ∧ c ≠ '\x27') : Reads anyString (quoted s) s rest := by
  have hdouble : ∀ c ∈ rest.head?, c ≠ '"' := fun c hc ↦ (hrest c hc).1
  have hsingle : ∀ c ∈ rest.head?, c ≠ '\x27' := fun c hc ↦ (hrest c hc).2
  have hsuits := suits_choose s.toList
  cases hchoice : Quotation.choose s.toList with
  | basic =>
    have hread := reads_anyString_basic s.toList hdouble
    rw [String.ofList_toList] at hread
    simpa [quoted, hchoice, Quotation.mark, Quotation.isLines] using hread
  | literal =>
    simp only [hchoice, reduceCtorEq, or_false, Quotation.suits, Bool.and_eq_true,
      Bool.not_eq_true', List.any_eq_false, Bool.or_eq_true, beq_iff_eq, not_or,
      Bool.not_eq_true] at hsuits
    obtain ⟨hplain, hfree⟩ := hsuits
    have hchars : ∀ c ∈ s.toList, isPlain c = true ∧ c ≠ '\x27' := fun c hc ↦
      ⟨isPlain_of_needsEscape (hplain c hc) (hfree c hc).2, (hfree c hc).1⟩
    have hread := reads_anyString_literal hchars hsingle
    rw [String.ofList_toList] at hread
    simpa [quoted, hchoice, Quotation.mark, Quotation.isLines] using hread
  | basicLines =>
    have hread := reads_anyString_basicLines (reads_basicLines s.toList hdouble)
    rw [String.ofList_toList] at hread
    simpa [quoted, hchoice, Quotation.mark, Quotation.isLines] using hread
  | literalLines =>
    simp only [hchoice, reduceCtorEq, or_false, Quotation.suits, Bool.and_eq_true,
      Bool.not_eq_true', List.any_eq_false, Bool.not_eq_true] at hsuits
    have hread := reads_anyString_literalLines (reads_literalLines hsuits.1 hsuits.2 hsingle)
    rw [String.ofList_toList] at hread
    simpa [quoted, hchoice, Quotation.mark, Quotation.isLines] using hread

end PropertyFilter.Toml
