import PropertyFilter.Proofs.Lexeme.Letters
import PropertyFilter.Proofs.Token.Slices

/-!
# The case of letters in words of a text

`WordsRecased tokens 0 text other` says that another text differs from a text with these tokens at
most in the case of letters that stand in words. Its tokens are told as well: they stand at the same
places and are the same lexemes, but for the letters of words (`Cursor.tokens_recased`). The step is
the next token of a cursor (`Cursor.next?_recased`); no word stands in the blanks before it, nor in
the token unless it is a word itself, so what is recased there is left as it is or is a word again.
-/

set_option autoImplicit false

namespace PropertyFilter

/-! ### Texts -/

/-- One of the tokens is a word that stands on the character at this offset. -/
def InWord (tokens : List Token) (offset : Nat) : Prop :=
  ∃ t ∈ tokens, (∃ name, t.lexeme = .word name) ∧ t.first.offset ≤ offset ∧ offset < t.last.offset

/-- Two texts that begin at an offset and are the same, except that letters may be in another case
where a token is a word. -/
inductive WordsRecased (tokens : List Token) : Nat → List Char → List Char → Prop
  | nil (offset : Nat) : WordsRecased tokens offset [] []
  | same {offset : Nat} (c : Char) {cs ds : List Char}
      (h : WordsRecased tokens (offset + c.utf8Size) cs ds) :
      WordsRecased tokens offset (c :: cs) (c :: ds)
  | letter {offset : Nat} {c d : Char} {cs ds : List Char} (hword : InWord tokens offset)
      (hletter : c.toLower = d.toLower) (h : WordsRecased tokens (offset + c.utf8Size) cs ds) :
      WordsRecased tokens offset (c :: cs) (d :: ds)

/-- Before the end of the first of several tokens, none but that token is a word. -/
theorem InWord.first {t : Token} {others : List Token} {offset : Nat}
    (h : InWord (t :: others) offset) (hlast : offset < t.last.offset)
    (hothers : ∀ u ∈ others, t.last.offset ≤ u.first.offset) :
    t.first.offset ≤ offset ∧ ∃ name, t.lexeme = .word name := by
  obtain ⟨u, hu, hname, hfirst, -⟩ := h
  rcases List.mem_cons.mp hu with rfl | hu
  · exact ⟨hfirst, hname⟩
  · have hbegin := hothers u hu
    omega

/-- The tokens stand at the same place and are the same, but for the letters of words. -/
structure Token.Recased (t u : Token) : Prop where
  lexeme : t.lexeme.Recased u.lexeme
  first : t.first = u.first
  last : t.last = u.last

namespace WordsRecased

variable {tokens : List Token} {offset : Nat} {cs ds : List Char}

theorem recased (h : WordsRecased tokens offset cs ds) : Text.Recased cs ds := by
  induction h with
  | nil => rfl
  | same c h ih => exact Text.recased_cons_iff.mpr ⟨rfl, ih⟩
  | letter hword hletter h ih => exact Text.recased_cons_iff.mpr ⟨hletter, ih⟩

theorem split {first second : List Char} (h : WordsRecased tokens offset (first ++ second) ds) :
    ∃ first' second', ds = first' ++ second' ∧ WordsRecased tokens offset first first' ∧
      WordsRecased tokens (offset + Text.byteCount first) second second' := by
  induction first generalizing offset ds with
  | nil => exact ⟨[], ds, rfl, .nil offset, h⟩
  | cons c first ih =>
    rw [Text.byteCount_cons, ← Nat.add_assoc]
    cases h with
    | same c h =>
      obtain ⟨first', second', rfl, hfirst, hsecond⟩ := ih h
      exact ⟨c :: first', second', rfl, .same c hfirst, hsecond⟩
    | letter hword hletter h =>
      obtain ⟨first', second', rfl, hfirst, hsecond⟩ := ih h
      exact ⟨_ :: first', second', rfl, .letter hword hletter hfirst, hsecond⟩

/-- Where no word stands, the texts are the same. -/
theorem eq_of_not_inWord (h : WordsRecased tokens offset cs ds)
    (houtside : ∀ place, offset ≤ place → place < offset + Text.byteCount cs →
      ¬ InWord tokens place) : cs = ds := by
  induction h with
  | nil => rfl
  | same c h ih =>
    refine congrArg (c :: ·) (ih fun place hfrom hto ↦ houtside place (by omega) ?_)
    rw [Text.byteCount_cons]
    omega
  | @letter offset c d cs ds hword hletter h ih =>
    have hsize := c.utf8Size_pos
    refine absurd hword (houtside offset (Nat.le_refl _) ?_)
    rw [Text.byteCount_cons]
    omega

/-- A token that ends before the texts begin is not asked for. -/
theorem of_cons {t : Token} (h : WordsRecased (t :: tokens) offset cs ds)
    (hlast : t.last.offset ≤ offset) : WordsRecased tokens offset cs ds := by
  induction h with
  | nil offset => exact .nil offset
  | same c h ih => exact .same c (ih (by omega))
  | letter hword hletter h ih =>
    refine .letter ?_ hletter (ih (by omega))
    obtain ⟨u, hu, hname, hfirst, hend⟩ := hword
    rcases List.mem_cons.mp hu with rfl | hu
    · omega
    · exact ⟨u, hu, hname, hfirst, hend⟩

end WordsRecased

instance (tokens : List Token) (offset : Nat) : Decidable (InWord tokens offset) :=
  have (l : Lexeme) : Decidable (∃ name, l = .word name) :=
    Lexeme.casesOn (motive := fun l ↦ Decidable (∃ name, l = .word name)) l
      (fun name ↦ isTrue ⟨name, rfl⟩) (fun _ ↦ isFalse (by simp)) (fun _ _ ↦ isFalse (by simp))
      (fun _ ↦ isFalse (by simp)) (fun _ ↦ isFalse (by simp)) (isFalse (by simp))
      (isFalse (by simp)) (isFalse (by simp)) (isFalse (by simp)) (isFalse (by simp))
  inferInstanceAs (Decidable (∃ t ∈ tokens, _ ∧ _))

theorem wordsRecased_cons_iff {tokens : List Token} {offset : Nat} {c d : Char}
    {cs ds : List Char} :
    WordsRecased tokens offset (c :: cs) (d :: ds) ↔
      (c = d ∨ InWord tokens offset ∧ c.toLower = d.toLower) ∧
        WordsRecased tokens (offset + c.utf8Size) cs ds := by
  constructor
  · rintro (_ | ⟨_, h⟩ | ⟨hword, hletter, h⟩)
    · exact ⟨.inl rfl, h⟩
    · exact ⟨.inr ⟨hword, hletter⟩, h⟩
  · rintro ⟨rfl | ⟨hword, hletter⟩, h⟩
    · exact .same c h
    · exact .letter hword hletter h

instance decidableWordsRecased (tokens : List Token) (offset : Nat) :
    (cs ds : List Char) → Decidable (WordsRecased tokens offset cs ds)
  | [], [] => isTrue (.nil offset)
  | [], _ :: _ => isFalse nofun
  | _ :: _, [] => isFalse nofun
  | c :: cs, _ :: ds =>
    have := decidableWordsRecased tokens (offset + c.utf8Size) cs ds
    decidable_of_iff' _ wordsRecased_cons_iff

/-! ### Tokens -/

namespace Cursor

theorem next?_allBlank (place : Position) {gap : List Char} (h : Text.allBlank gap = true)
    (cs : List Char) :
    (⟨place, gap ++ cs⟩ : Cursor).next? = (⟨place.after gap, cs⟩ : Cursor).next? := by
  induction gap generalizing place with
  | nil => rfl
  | cons c gap ih =>
    rw [Text.allBlank, List.all_cons, Bool.and_eq_true] at h
    rw [List.cons_append, next?_blank place h.1, ih _ h.2, Position.after_cons]

theorem next?_of_scan (place : Position) {d : Char} {own rest cs : List Char} {l : Lexeme}
    (hblank : Text.isBlank d = false) (hsplit : d :: cs = own ++ rest)
    (hscan : Lexeme.scan d cs = .ok (l, own.length)) :
    (⟨place, own ++ rest⟩ : Cursor).next? =
      some (.ok ⟨l, place, place.after own⟩, ⟨place.after own, rest⟩) := by
  simp only [next?, skipBlanks, ← hsplit, List.takeWhile_cons, List.dropWhile_cons, hblank,
    Bool.false_eq_true, if_false, Position.after_nil, hscan, advance]
  rw [hsplit, List.take_left, List.drop_left]

/-- The next token is scanned from what follows the blanks. -/
theorem exists_scan_of_next? {c past : Cursor} {token : Token}
    (h : c.next? = some (.ok token, past)) :
    ∃ gap d cs own, c.rest = gap ++ (own ++ past.rest) ∧ Text.allBlank gap = true ∧
      Text.isBlank d = false ∧ d :: cs = own ++ past.rest ∧
      Lexeme.scan d cs = .ok (token.lexeme, own.length) ∧ token.first = c.place.after gap ∧
      token.last = token.first.after own ∧ past.place = token.last := by
  have hsplit : c.rest = c.rest.takeWhile Text.isBlank ++ c.skipBlanks.rest :=
    List.takeWhile_append_dropWhile.symm
  have hgap : Text.allBlank (c.rest.takeWhile Text.isBlank) = true := List.all_takeWhile
  simp only [next?] at h
  split at h
  · cases h
  next d cs hrest =>
  have hd : Text.isBlank d = false := by
    have hhead := List.head?_dropWhile_not Text.isBlank c.rest
    rw [show c.rest.dropWhile Text.isBlank = d :: cs from hrest] at hhead
    exact hhead
  split at h
  · next l taken hscan =>
    obtain ⟨own, rest, hown, rfl, -⟩ := Lexeme.beginsWith_of_scan hd hscan
    cases h
    refine ⟨_, d, cs, own, ?_, hgap, hd, ?_, hscan, rfl, ?_, rfl⟩
    · rw [advance, hrest, hown, List.drop_left, ← hown, ← hrest]
      exact hsplit
    · rw [advance, hrest, hown, List.drop_left]
    · rw [advance, hrest, hown, List.take_left]
  · cases h

/-- The next token of a text with recased words, and what follows it. -/
theorem next?_recased {c past : Cursor} {token : Token} {others : List Token} {ds : List Char}
    (h : c.next? = some (.ok token, past)) (hothers : past.tokens = .ok others)
    (hrecased : WordsRecased (token :: others) c.place.offset c.rest ds) :
    ∃ other rest, (⟨c.place, ds⟩ : Cursor).next? = some (.ok other, ⟨past.place, rest⟩) ∧
      token.Recased other ∧ WordsRecased others past.place.offset past.rest rest := by
  obtain ⟨gap, d, cs, own, hrest, hgap, hblank, hown, hscan, hfirst, hlast, hpast⟩ :=
    exists_scan_of_next? h
  have hspans : ∀ u ∈ others, token.last.offset ≤ u.first.offset := fun u hu ↦
    hpast ▸ ((tokenizes_of_tokens past hothers).spans u hu).1
  have hgapOffset : token.first.offset = c.place.offset + Text.byteCount gap := by
    rw [hfirst, Position.offset_after]
  have hownOffset : token.last.offset = token.first.offset + Text.byteCount own := by
    rw [hlast, Position.offset_after]
  rw [hrest] at hrecased
  obtain ⟨gap', cs', rfl, hgap', hcs'⟩ := hrecased.split
  obtain ⟨own', rest', rfl, hown', hrest'⟩ := hcs'.split
  obtain rfl : gap = gap' := hgap'.eq_of_not_inWord fun place _ hto hword ↦ by
    have hbegin := (hword.first (by omega) hspans).1
    omega
  have hsame (hother : ∀ name, token.lexeme ≠ .word name) : own = own' :=
    hown'.eq_of_not_inWord fun place _ hto hword ↦ by
      obtain ⟨-, name, hname⟩ := hword.first (by omega) hspans
      exact hother name hname
  have hletters : Text.Recased (d :: cs) (own' ++ rest') := by
    rw [hown]
    exact hown'.recased.append hrest'.recased
  obtain ⟨e, es, hes⟩ : ∃ e es, own' ++ rest' = e :: es :=
    List.exists_cons_of_length_pos (hletters.length_eq ▸ Nat.succ_pos _)
  rw [hes] at hletters
  have hblank' : Text.isBlank e = false := by
    rw [← Lexeme.isBlank_toLower, ← (Text.recased_cons_iff.mp hletters).1,
      Lexeme.isBlank_toLower, hblank]
  obtain ⟨m, hm, hlexeme⟩ := Lexeme.scan_recased hscan hletters fun hother ↦ by
    rw [hown, ← hes, List.take_left, hsame hother, List.take_left]
  rw [hown'.recased.length_eq] at hm
  have hplace : token.last = token.first.after own' := by
    rw [hlast, Position.after_recased hown'.recased]
  refine ⟨⟨m, token.first, token.last⟩, rest', ?_, ⟨hlexeme, rfl, rfl⟩, ?_⟩
  · rw [next?_allBlank _ hgap, ← hfirst, hpast, hplace]
    exact next?_of_scan _ hblank' hes.symm hm
  · rw [← hgapOffset, ← hownOffset, ← hpast] at hrest'
    exact hrest'.of_cons (Nat.le_of_eq (congrArg _ hpast.symm))

/-- A text with recased words has the tokens of the text, but for the letters of words. -/
theorem tokens_recased (c : Cursor) {tokens : List Token} (h : c.tokens = .ok tokens)
    {ds : List Char} (hrecased : WordsRecased tokens c.place.offset c.rest ds) :
    ∃ others, (⟨c.place, ds⟩ : Cursor).tokens = .ok others ∧
      List.Forall₂ Token.Recased tokens others := by
  fun_induction Cursor.tokens c generalizing tokens ds with
  | case1 c hnext =>
    cases h
    have hsame : c.rest = ds := hrecased.eq_of_not_inWord (by simp [InWord])
    refine ⟨[], tokens_of_next?_none ?_, .nil⟩
    rw [← hsame]
    exact hnext
  | case2 c fault past hnext => cases h
  | case3 c token past hnext others hothers ih =>
    cases h
    obtain ⟨other, rest, hother, htoken, hrest⟩ := next?_recased hnext hothers hrecased
    obtain ⟨more, hmore, hforall⟩ := ih hothers hrest
    exact ⟨other :: more, tokens_of_next?_some hother hmore, .cons htoken hforall⟩
  | case4 c token past hnext fault hothers ih => cases h

end Cursor

end PropertyFilter
