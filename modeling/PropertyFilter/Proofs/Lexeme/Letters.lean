import PropertyFilter.Proofs.Lexeme.Literals
import PropertyFilter.Proofs.Text.Letters

/-!
# The case of letters in lexemes

What a word is made of, and what may follow a number, does not depend on the case of letters, so
that recased texts have words of the same length (`takeWord_map_toLower`) and numbers end alike
(`mayFollowNumber_map_toLower`). A text is therefore scanned like one of which at most the letters
of its first lexeme, if that is a word, and the letters after its first lexeme are recased
(`scan_recased`).
-/

set_option autoImplicit false

namespace PropertyFilter.Lexeme

open Text (apply_toLower)

/-! ### Ends of words and numbers -/

theorem isWordStart_toLower (c : Char) : isWordStart c.toLower = isWordStart c := by
  have hletters (d : Char) (hd : d.isAlpha = true) : isWordStart d = true := by
    simp [isWordStart, hd]
  exact apply_toLower hletters c

theorem isWordPart_toLower (c : Char) : isWordPart c.toLower = isWordPart c := by
  have hletters (d : Char) (hd : d.isAlpha = true) : isWordPart d = true := by
    simp [isWordPart, Char.isAlphanum, hd]
  exact apply_toLower hletters c

theorem isBlank_toLower (c : Char) : Text.isBlank c.toLower = Text.isBlank c := by
  have hletters (d : Char) (hd : d.isAlpha = true) : Text.isBlank d = false :=
    isBlank_eq_false_of_isWordStart (by simp [isWordStart, hd])
  exact apply_toLower hletters c

theorem toLower_eq_point_iff (c : Char) : c.toLower = '.' ↔ c = '.' := by
  have hpoint : Char.toLower '.' = '.' := by decide
  constructor
  · intro h
    exact Text.eq_of_toLower_eq (by decide) (h.trans hpoint.symm)
  · rintro rfl
    exact hpoint

/-- Words end at the same character in letters of either case. -/
theorem takeWord_map_toLower (cs : List Char) :
    takeWord (cs.map Char.toLower) = (takeWord cs).map Char.toLower := by
  have hpoint : Char.toLower '.' = '.' := by decide
  fun_induction takeWord cs with
  | case1 => rfl
  | case2 d rest hstart ih =>
    rw [List.map_cons] at ih
    rw [List.map_cons, List.map_cons, hpoint, takeWord, if_pos (by rwa [isWordStart_toLower]), ih,
      List.map_cons, hpoint]
  | case3 d rest hstart =>
    rw [List.map_cons, List.map_cons, hpoint, takeWord, if_neg (by rwa [isWordStart_toLower])]
    rfl
  | case4 c rest hnext hpart ih =>
    rw [List.map_cons, takeWord_cons (by rwa [isWordPart_toLower]), ih, List.map_cons]
  | case5 c rest hnext hpart =>
    rw [List.map_cons, takeWord, if_neg (by rwa [isWordPart_toLower])]
    · rfl
    · intro d ds hc hrest
      obtain ⟨e, es, rfl, -⟩ := List.map_eq_cons_iff.mp hrest
      exact hnext e es ((toLower_eq_point_iff c).mp hc) rfl

theorem takeWord_recased {cs ds : List Char} (h : Text.Recased cs ds) :
    Text.Recased (takeWord cs) (takeWord ds) := by
  rw [Text.Recased, ← takeWord_map_toLower, h, takeWord_map_toLower]

theorem mayFollowNumber_map_toLower (cs : List Char) :
    mayFollowNumber (cs.map Char.toLower) = mayFollowNumber cs := by
  cases cs with
  | nil => rfl
  | cons c cs =>
    have hletters (d : Char) (hd : d.isAlpha = true) :
        (!(Text.isAlphanumeric d || d == '_' || d == '.')) = false := by
      have halphanum : d.isAlphanum = true := by simp [Char.isAlphanum, hd]
      simp [isAlphanumeric_of_isAlphanum halphanum]
    exact apply_toLower hletters c

theorem mayFollowNumber_recased {cs ds : List Char} (h : Text.Recased cs ds) :
    mayFollowNumber cs = mayFollowNumber ds := by
  rw [← mayFollowNumber_map_toLower, h, mayFollowNumber_map_toLower]

/-! ### Lexemes -/

/-- The lexemes are the same, or they are words that differ at most in the case of letters. -/
inductive Recased : Lexeme → Lexeme → Prop
  | refl (l : Lexeme) : Recased l l
  | word {name other : String} (h : alike name other = true) : Recased (.word name) (.word other)

theorem mayFollowNumber_of_scanNumber {cs : List Char} {l : Lexeme} {taken : Nat}
    (h : scanNumber cs = .ok (l, taken)) : mayFollowNumber (cs.drop taken) = true := by
  simp only [scanNumber] at h
  repeat' split at h
  all_goals cases h
  assumption

/-- A lexeme that is no word is scanned from the same characters whatever follows them, as long as
that may or may not follow a number as before. -/
theorem scan_append_of_scan {c : Char} {cs : List Char} {l : Lexeme} {taken : Nat}
    (h : scan c cs = .ok (l, taken)) (hl : ∀ name, l ≠ .word name) :
    ∃ own rest, cs = own ++ rest ∧ taken = own.length + 1 ∧
      ∀ rest', mayFollowNumber rest' = mayFollowNumber rest →
        scan c (own ++ rest') = .ok (l, taken) := by
  rcases scan_cases h with ⟨hmem, rfl⟩ | ⟨rfl, hstring⟩ | ⟨hc, hnumber⟩ | ⟨-, rfl, -⟩
  · exact ⟨[], cs, rfl, rfl, fun rest' _ ↦ scan_of_mem_punctuation hmem rest'⟩
  · obtain ⟨body, rest, rfl, rfl, hscan⟩ := exists_body_of_scanString hstring
    refine ⟨body ++ ['"'], rest, by simp, by simp, fun rest' _ ↦ ?_⟩
    rw [List.append_assoc, List.singleton_append, scan_quote, hscan]
  · obtain ⟨own, rest, heq, hlength, hdenoted⟩ := beginsWith_of_scanNumber hc hnumber
    have hfollow := mayFollowNumber_of_scanNumber hnumber
    rw [heq, ← hlength, List.drop_left] at hfollow
    obtain ⟨d, own, rfl, -, -⟩ := hdenoted rest hfollow
    obtain ⟨rfl, rfl⟩ := List.cons.inj heq
    refine ⟨own, rest, rfl, by simpa using hlength.symm, fun rest' hrest' ↦ ?_⟩
    obtain ⟨e, es, hes, -, hscan⟩ := hdenoted rest' (hrest'.trans hfollow)
    cases hes
    rw [hscan, hlength]
  · exact absurd rfl (hl _)

/-- Scanning a text with recased letters, which stand after its first lexeme, or in it if it is a
word. -/
theorem scan_recased {c d : Char} {cs ds : List Char} {l : Lexeme} {taken : Nat}
    (h : scan c cs = .ok (l, taken)) (hrecased : Text.Recased (c :: cs) (d :: ds))
    (hown : (∀ name, l ≠ .word name) → (c :: cs).take taken = (d :: ds).take taken) :
    ∃ m, scan d ds = .ok (m, taken) ∧ l.Recased m := by
  by_cases hl : ∀ name, l ≠ .word name
  · obtain ⟨own, rest, rfl, rfl, hscan⟩ := scan_append_of_scan h hl
    have htake := hown hl
    rw [List.take_succ_cons, List.take_succ_cons, List.take_left] at htake
    obtain ⟨rfl, hfirst⟩ := List.cons.inj htake
    have hds : ds = own ++ ds.drop own.length :=
      calc ds = ds.take own.length ++ ds.drop own.length := (List.take_append_drop _ _).symm
        _ = own ++ ds.drop own.length := by rw [← hfirst]
    have hrest : Text.Recased rest (ds.drop own.length) := by
      simpa using hrecased.drop (own.length + 1)
    refine ⟨l, ?_, .refl l⟩
    rw [hds, hscan _ (mayFollowNumber_recased hrest).symm]
  · simp only [not_forall, not_not] at hl
    obtain ⟨name, rfl⟩ := hl
    rcases scan_cases h with ⟨hmem, -⟩ | ⟨-, hstring⟩ | ⟨-, hnumber⟩ | ⟨hstart, hword, htaken⟩
    · simp [punctuation] at hmem
    · cases isQuoted_of_scanString hstring
    · cases isNumeric_of_scanNumber hnumber
    · have hletter : c.toLower = d.toLower := (Text.recased_cons_iff.mp hrecased).1
      have hstart' : isWordStart d = true := by
        rw [← isWordStart_toLower, ← hletter, isWordStart_toLower, hstart]
      have hname := takeWord_recased hrecased
      rw [htaken, hword, hname.length_eq]
      refine ⟨_, scan_word hstart' ds, .word ?_⟩
      rw [alike, foldCase, foldCase, String.toList_ofList, String.toList_ofList, beq_iff_eq]
      exact hname

end PropertyFilter.Lexeme
