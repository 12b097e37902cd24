import Mathlib.Data.List.Forall2
import PropertyFilter.Proofs.Lexeme.Standing
import PropertyFilter.Proofs.Text.Slices
import PropertyFilter.Proofs.Token.Lexes

/-!
# Tokens and their slices of the text

`Tokenizes place cs tokens` says that a text which begins at a place is made of the tokens: each
stands after some blanks, on characters that denote its lexeme wherever they stand, and after the
last one there are blanks only. The tokens that are told of a text are such (`tokenizes_of_tokens`).

So a text is parted by its tokens (`StandApart`). Their slices are not empty, follow one another
without touching a common character, and leave out nothing but blanks; and a slice read alone, or
all of them read with other blanks between them, give the same lexemes (`standApart_of_tokens`).
-/

set_option autoImplicit false

namespace PropertyFilter

/-! ### Tokens of a text -/

/-- The tokens of a text that begins at a place, each of them on characters that denote its lexeme,
and blanks around them. -/
inductive Tokenizes : Position → List Char → List Token → Prop
  | done {place : Position} {cs : List Char} (hblank : Text.allBlank cs = true) :
      Tokenizes place cs []
  | token {place : Position} {gap own rest : List Char} {l : Lexeme} {tokens : List Token}
      (hblank : Text.allBlank gap = true) (hown : l.IsDenotedBy own)
      (hrest : Tokenizes (place.after (gap ++ own)) rest tokens) :
      Tokenizes place (gap ++ (own ++ rest))
        (⟨l, place.after gap, place.after (gap ++ own)⟩ :: tokens)

namespace Cursor

theorem allBlank_of_next?_none {c : Cursor} (h : c.next? = none) :
    Text.allBlank c.rest = true := by
  simp only [next?] at h
  split at h
  · next hrest => exact (Text.trimLeft_eq_nil_iff c.rest).mp hrest
  · split at h <;> cases h

/-- The next token stands on characters that denote its lexeme, after blanks. -/
theorem exists_denoting_of_next? {c past : Cursor} {token : Token}
    (h : c.next? = some (.ok token, past)) :
    ∃ gap own, c.rest = gap ++ (own ++ past.rest) ∧ Text.allBlank gap = true ∧
      token.lexeme.IsDenotedBy own ∧ token.first = c.place.after gap ∧
      token.last = c.place.after (gap ++ own) ∧ past.place = token.last := by
  have hsplit : c.rest = c.rest.takeWhile Text.isBlank ++ c.skipBlanks.rest :=
    List.takeWhile_append_dropWhile.symm
  have hgap : Text.allBlank (c.rest.takeWhile Text.isBlank) = true := List.all_takeWhile
  simp only [next?] at h
  split at h
  · cases h
  next d cs hrest =>
  split at h
  · next l taken hscan =>
    have hd : Text.isBlank d = false := by
      have hhead := List.head?_dropWhile_not Text.isBlank c.rest
      rw [show c.rest.dropWhile Text.isBlank = d :: cs from hrest] at hhead
      exact hhead
    obtain ⟨own, rest, hown, rfl, hdenoted⟩ := Lexeme.beginsWith_of_scan hd hscan
    cases h
    refine ⟨_, own, ?_, hgap, hdenoted, rfl, ?_, rfl⟩
    · rw [advance, hrest, hown, List.drop_left, ← hown, ← hrest]
      exact hsplit
    · rw [advance, hrest, hown, List.take_left, Position.after_append]
      rfl
  · cases h

theorem tokenizes_of_tokens (c : Cursor) {tokens : List Token} (h : c.tokens = .ok tokens) :
    Tokenizes c.place c.rest tokens := by
  fun_induction Cursor.tokens c generalizing tokens with
  | case1 c hnext =>
    cases h
    exact .done (allBlank_of_next?_none hnext)
  | case2 c fault past hnext => cases h
  | case3 c token past hnext others hothers ih =>
    cases h
    obtain ⟨l, first, last⟩ := token
    obtain ⟨gap, own, hrest, hgap, hown, rfl, rfl, hplace⟩ := exists_denoting_of_next? hnext
    have hpast := ih hothers
    rw [hplace] at hpast
    rw [hrest]
    exact .token hgap hown hpast
  | case4 c token past hnext fault hothers ih => cases h

end Cursor

namespace Tokenizes

variable {place : Position} {cs : List Char} {tokens : List Token}

/-- No token begins before the text, and each of them takes some bytes. -/
theorem spans (h : Tokenizes place cs tokens) :
    ∀ t ∈ tokens, place.offset ≤ t.first.offset ∧ t.first.offset < t.last.offset := by
  induction h with
  | done => simp
  | @token place gap own rest l tokens hblank hown hrest ih =>
    have hpositive : 0 < Text.byteCount own := Text.byteCount_pos hown.ne_nil
    intro t ht
    rcases List.mem_cons.mp ht with rfl | ht
    · simp only [Position.offset_after, Text.byteCount_append]
      omega
    · have hspan := ih t ht
      simp only [Position.offset_after] at hspan
      omega

theorem pairwise (h : Tokenizes place cs tokens) :
    tokens.Pairwise fun t u ↦ t.last.offset ≤ u.first.offset := by
  induction h with
  | done => exact .nil
  | token hblank hown hrest ih => exact .cons (fun t ht ↦ (hrest.spans t ht).1) ih

/-- A character of the text is blank or stands in a token. -/
theorem blank_or_inside (h : Tokenizes place cs tokens) {before after : List Char} {c : Char}
    (hcs : cs = before ++ c :: after) :
    Text.isBlank c = true ∨ ∃ t ∈ tokens, t.first.offset ≤ place.offset + Text.byteCount before ∧
      place.offset + Text.byteCount (before ++ [c]) ≤ t.last.offset := by
  induction h generalizing before with
  | done hblank =>
    subst hcs
    exact .inl (List.all_eq_true.mp hblank c (by simp))
  | @token place gap own rest l tokens hblank hown hrest ih =>
    -- The character stands in the blanks, in the token or after it.
    rcases Text.split_append hcs with ⟨more, rfl⟩ | ⟨past, rfl, hpast⟩
    · exact .inl (List.all_eq_true.mp hblank c (by simp))
    rcases Text.split_append hpast with ⟨more, rfl⟩ | ⟨past, rfl, hrestPast⟩
    · refine .inr ⟨_, List.mem_cons_self, ?_, ?_⟩
      · simp only [Position.offset_after, Text.byteCount_append]
        omega
      · simp only [Position.offset_after, Text.byteCount_append, Text.byteCount_cons,
          Text.byteCount_nil]
        omega
    · refine (ih hrestPast).imp_right ?_
      rintro ⟨t, ht, hfirst, hlast⟩
      refine ⟨t, List.mem_cons_of_mem _ ht, ?_, ?_⟩
      · simp only [Position.offset_after, Text.byteCount_append] at hfirst ⊢
        omega
      · simp only [Position.offset_after, Text.byteCount_append] at hlast ⊢
        omega

/-- The slices of the text where the tokens stand are characters that denote their lexemes. -/
theorem exists_slices (h : Tokenizes place cs tokens) {before : List Char}
    (hplace : place.offset = Text.byteCount before) :
    ∃ owns, tokens.mapM (fun t ↦ Text.slice? (before ++ cs) t.first.offset t.last.offset) =
        some owns ∧
      List.Forall₂ (fun t own ↦ t.lexeme.IsDenotedBy own) tokens owns := by
  induction h generalizing before with
  | done => exact ⟨[], rfl, .nil⟩
  | @token place gap own rest l tokens hblank hown hrest ih =>
    have hpast : (place.after (gap ++ own)).offset = Text.byteCount (before ++ (gap ++ own)) := by
      rw [Position.offset_after, hplace, Text.byteCount_append before]
    obtain ⟨owns, howns, hdenoted⟩ := ih hpast
    have hslice := Text.slice?_append (before ++ gap) own rest
    refine ⟨own :: owns, ?_, .cons hown hdenoted⟩
    simp only [List.append_assoc] at howns hslice
    simp only [List.mapM_cons, Position.offset_after, hplace, Text.byteCount_append,
      ← Nat.add_assoc] at howns hslice ⊢
    rw [hslice, howns]
    rfl

end Tokenizes

/-! ### Slices read again -/

namespace Lexeme.IsDenotedBy

/-- Characters that denote a lexeme are a text of one token. -/
theorem tokens {l : Lexeme} {own : List Char} (h : l.IsDenotedBy own) :
    (Cursor.ofText own).tokens = .ok [⟨l, .start, Position.start.after own⟩] := by
  have hnext := Cursor.next?_scans .start (h [] rfl)
  rw [List.append_nil] at hnext
  refine Cursor.tokens_of_next?_some hnext (Cursor.tokens_of_next?_none ?_)
  simp [Cursor.next?, Cursor.skipBlanks]

end Lexeme.IsDenotedBy

theorem lexes_allBlank {gap cs : List Char} {ls : List Lexeme} (h : Text.allBlank gap = true)
    (hcs : Lexes cs ls) : Lexes (gap ++ cs) ls := by
  induction gap with
  | nil => exact hcs
  | cons c gap ih =>
    rw [Text.allBlank, List.all_cons, Bool.and_eq_true] at h
    exact lexes_blank h.1 (ih h.2)

theorem mayFollowNumber_allBlank {gap cs : List Char} (h : Text.allBlank gap = true)
    (hcs : gap = [] → Lexeme.mayFollowNumber cs = true) :
    Lexeme.mayFollowNumber (gap ++ cs) = true := by
  cases gap with
  | nil => exact hcs rfl
  | cons c gap =>
    rw [Text.allBlank, List.all_cons, Bool.and_eq_true] at h
    exact Lexeme.mayFollowNumber_of_isBlank h.1 _

/-- Texts one after the other, each of them after a gap, and a last gap after them. -/
def joined (gaps texts : List (List Char)) (last : List Char) : List Char :=
  (List.zipWith (· ++ ·) gaps texts).flatten ++ last

/-- Characters that denote lexemes, with blanks before, between and after them, are a text of these
lexemes. -/
theorem lexes_joined {tokens : List Token} {owns : List (List Char)}
    (h : List.Forall₂ (fun t own ↦ t.lexeme.IsDenotedBy own) tokens owns)
    {gaps : List (List Char)} {last : List Char} (hlength : gaps.length = owns.length)
    (hblank : ∀ gap ∈ gaps, Text.allBlank gap = true) (hlast : Text.allBlank last = true)
    (hapart : ∀ gap ∈ gaps.tail, gap ≠ []) :
    Lexes (joined gaps owns last) (tokens.map Token.lexeme) := by
  induction h generalizing gaps with
  | nil =>
    have hlexes := lexes_allBlank hlast lexes_nil
    simpa [joined] using hlexes
  | @cons t own tokens owns hown howns ih =>
    obtain - | ⟨gap, gaps⟩ := gaps
    · cases hlength
    obtain ⟨hgap, hgaps⟩ := List.forall_mem_cons.mp hblank
    have hrest := ih (Nat.succ.inj hlength) hgaps fun other hother ↦
      hapart other (List.mem_of_mem_tail hother)
    -- What follows the characters is the next gap, or the last one.
    have hfollow : Lexeme.mayFollowNumber (joined gaps owns last) = true := by
      cases gaps with
      | nil =>
        have hend : Lexeme.mayFollowNumber (last ++ []) = true :=
          mayFollowNumber_allBlank hlast fun _ ↦ rfl
        simpa [joined] using hend
      | cons gap' gaps =>
        obtain - | ⟨own', owns⟩ := owns
        · cases hlength
        rw [joined, List.zipWith_cons_cons, List.flatten_cons, List.append_assoc, List.append_assoc]
        refine mayFollowNumber_allBlank (hgaps gap' List.mem_cons_self) fun hnil ↦ ?_
        exact absurd hnil (hapart gap' List.mem_cons_self)
    have hlexes := lexes_allBlank hgap (lexes_scans (hown _ hfollow) hrest)
    simpa [joined] using hlexes

/-! ### The parts of a text -/

/-- The tokens part the text: they stand in order, with nothing but blanks around them, and each of
them depends on its own slice of the text only. -/
structure StandApart (text : List Char) (tokens : List Token) : Prop where
  nonempty : ∀ t ∈ tokens, t.first.offset < t.last.offset
  ordered : tokens.Pairwise fun t u ↦ t.last.offset ≤ u.first.offset
  covered : ∀ before c after, text = before ++ c :: after →
    Text.isBlank c = true ∨ ∃ t ∈ tokens, t.first.offset ≤ Text.byteCount before ∧
      Text.byteCount (before ++ [c]) ≤ t.last.offset
  slices : ∃ owns,
    -- Every token begins and ends between characters.
    tokens.mapM (fun t ↦ Text.slice? text t.first.offset t.last.offset) = some owns ∧
    List.Forall₂ (fun t own ↦
      (Cursor.ofText own).tokens = .ok [⟨t.lexeme, .start, Position.start.after own⟩]) tokens owns ∧
    ∀ gaps last, gaps.length = owns.length → (∀ gap ∈ gaps, Text.allBlank gap = true) →
      Text.allBlank last = true → (∀ gap ∈ gaps.tail, gap ≠ []) →
      ∃ others, (Cursor.ofText (joined gaps owns last)).tokens = .ok others ∧
        others.map Token.lexeme = tokens.map Token.lexeme

/-- The tokens that are told of a text part it. -/
theorem standApart_of_tokens {text : List Char} {tokens : List Token}
    (h : (Cursor.ofText text).tokens = .ok tokens) : StandApart text tokens := by
  have htokenizes : Tokenizes .start text tokens := Cursor.tokenizes_of_tokens _ h
  refine ⟨fun t ht ↦ (htokenizes.spans t ht).2, htokenizes.pairwise, ?_, ?_⟩
  · intro before c after hsplit
    simpa [Position.start] using htokenizes.blank_or_inside hsplit
  · have hstart : Position.start.offset = Text.byteCount [] := rfl
    obtain ⟨owns, howns, hdenoted⟩ := htokenizes.exists_slices hstart
    refine ⟨owns, howns, hdenoted.imp fun _ _ hown ↦ hown.tokens, ?_⟩
    intro gaps last hlength hblank hlast hapart
    exact lexes_joined hdenoted hlength hblank hlast hapart .start

/-- A number may touch the word before it, and a text may hold blanks, quotes and characters of more
than one byte. -/
theorem standApart_of_tokens_touching :
    (Cursor.ofText "gt-5 \"é \\\" b\" ,x.y ".toList).tokens =
      .ok [⟨.word "gt", ⟨0, 1, 1⟩, ⟨2, 1, 3⟩⟩, ⟨.integer (-5), ⟨2, 1, 3⟩, ⟨4, 1, 5⟩⟩,
        ⟨.string "é \" b", ⟨5, 1, 6⟩, ⟨14, 1, 14⟩⟩, ⟨.comma, ⟨15, 1, 15⟩, ⟨16, 1, 16⟩⟩,
        ⟨.word "x.y", ⟨16, 1, 16⟩, ⟨19, 1, 19⟩⟩] ∧
    StandApart "gt-5 \"é \\\" b\" ,x.y ".toList
      [⟨.word "gt", ⟨0, 1, 1⟩, ⟨2, 1, 3⟩⟩, ⟨.integer (-5), ⟨2, 1, 3⟩, ⟨4, 1, 5⟩⟩,
        ⟨.string "é \" b", ⟨5, 1, 6⟩, ⟨14, 1, 14⟩⟩, ⟨.comma, ⟨15, 1, 15⟩, ⟨16, 1, 16⟩⟩,
        ⟨.word "x.y", ⟨16, 1, 16⟩, ⟨19, 1, 19⟩⟩] := by
  refine ⟨by decide +kernel, standApart_of_tokens ?_⟩
  decide +kernel

end PropertyFilter
