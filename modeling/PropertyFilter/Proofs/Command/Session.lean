import PropertyFilter.Command.Session
import PropertyFilter.Proofs.Expression.Faults

/-!
# Sessions are folds over their lines

The bytes of a character above 127 are above 127 themselves (`toNat_eq_of_mem_utf8EncodeChar`), so
the bytes of a text without line feeds and carriage returns have neither, and the lines of an input
are told again from it, however each of them ends (`decode?_splitLines`). What a session prints is
then put together of what it prints for each line alone, up to the line that ends it
(`run_of_areLines`).

What is wrong with a line has a place between two of its characters, and the column of a place in a
text of one line counts the characters before it (`column_eq_of_locates`). So the mark below the
line stands where the fault is (`pointsAt_of_parse_error`). A blank line is not answered at all,
though it is no expression (`not_pointsAt_of_empty`).
-/

set_option autoImplicit false

namespace PropertyFilter.Session

/-! ### Lines of bytes -/

/-- The bytes of a text. -/
def bytesOf (s : String) : List UInt8 := s.toUTF8.data.toList

/-- The bytes are the lines, each of them with its end, which is a line feed, maybe after a carriage
return; a last line with something in it needs no end. -/
inductive AreLines : List String → List UInt8 → Prop
  | none : AreLines [] []
  | last {line : String} (h : line ≠ "") : AreLines [line] (bytesOf line)
  | feed {line : String} {lines : List String} {input : List UInt8} (h : AreLines lines input) :
      AreLines (line :: lines) (bytesOf line ++ 0x0a :: input)
  | returnFeed {line : String} {lines : List String} {input : List UInt8}
      (h : AreLines lines input) :
      AreLines (line :: lines) (bytesOf line ++ 0x0d :: 0x0a :: input)

theorem decode?_bytesOf (s : String) : decode? (bytesOf s) = some s := by
  have hvalid : s.toUTF8.IsValidUTF8 := s.isValidUTF8
  rw [decode?, bytesOf, Array.toArray_toList, String.fromUTF8?, dif_pos hvalid]
  rfl

theorem bytesOf_eq (s : String) : bytesOf s = s.toList.flatMap String.utf8EncodeChar := by
  rw [bytesOf, String.toUTF8, ← String.ofList_toList (s := s), String.toByteArray_ofList,
    List.utf8Encode, List.data_toByteArray, String.toList_ofList]

theorem le_toNat_ofNat_add {bits lead : Nat} (hlead : 0x80 ≤ lead) (h : bits + lead < 0x100) :
    0x80 ≤ (UInt8.ofNat (bits + lead)).toNat := by
  rw [UInt8.toNat_ofNat', Nat.mod_eq_of_lt h]
  omega

/-- A byte that is not above 127 stands for the character with its code. -/
theorem toNat_eq_of_mem_utf8EncodeChar {c : Char} {byte : UInt8}
    (h : byte ∈ String.utf8EncodeChar c) (hbyte : byte.toNat < 0x80) : c.toNat = byte.toNat := by
  simp only [String.utf8EncodeChar] at h
  split at h
  · next hcode =>
    rw [List.mem_singleton] at h
    rw [h, UInt8.toNat_ofNat', Nat.mod_eq_of_lt (by omega)]
    rfl
  · -- Each byte of a longer code has a lead that is added to less bits than it leaves free.
    refine absurd hbyte (Nat.not_lt.mpr ?_)
    split at h
    · rcases List.mem_pair.mp h with rfl | rfl
      all_goals exact le_toNat_ofNat_add (by decide) (by omega)
    · split at h
      all_goals
        simp only [List.mem_cons, List.not_mem_nil, or_false] at h
        rcases h with rfl | rfl | rfl | rfl
      all_goals exact le_toNat_ofNat_add (by decide) (by omega)

theorem not_mem_bytesOf {s : String} {c : Char} (hc : c.toNat < 0x80) (h : c ∉ s.toList) :
    UInt8.ofNat c.toNat ∉ bytesOf s := by
  have hcode : (UInt8.ofNat c.toNat).toNat = c.toNat := by
    rw [UInt8.toNat_ofNat', Nat.mod_eq_of_lt (by omega)]
  rw [bytesOf_eq, List.mem_flatMap]
  rintro ⟨d, hd, hmem⟩
  have hsame := toNat_eq_of_mem_utf8EncodeChar hmem (by omega)
  exact h (Char.toNat_inj.mp (hsame.trans hcode) ▸ hd)

/-! ### Splitting -/

section Lines

variable {line : List UInt8}

theorem splitLines_cons {byte : UInt8} {bytes first : List UInt8} {others : List (List UInt8)}
    (hfeed : byte ≠ 0x0a) (hreturn : byte ≠ 0x0d) (h : splitLines bytes = first :: others) :
    splitLines (byte :: bytes) = (byte :: first) :: others := by
  rw [splitLines, h]
  · exact hfeed
  · exact fun _ heq ↦ absurd heq hreturn

theorem splitLines_append {rest : List UInt8} {others : List (List UInt8)}
    (hline : ∀ byte ∈ line, byte ≠ 0x0a ∧ byte ≠ 0x0d) (h : splitLines rest = [] :: others) :
    splitLines (line ++ rest) = line :: others := by
  induction line with
  | nil => exact h
  | cons byte line ih =>
    obtain ⟨hbyte, hline⟩ := List.forall_mem_cons.mp hline
    exact splitLines_cons hbyte.1 hbyte.2 (ih hline)

theorem splitLines_last (hline : ∀ byte ∈ line, byte ≠ 0x0a ∧ byte ≠ 0x0d) (hne : line ≠ []) :
    splitLines line = [line] := by
  induction line with
  | nil => exact absurd rfl hne
  | cons byte line ih =>
    obtain ⟨hbyte, hline⟩ := List.forall_mem_cons.mp hline
    cases line with
    | nil =>
      rw [splitLines, splitLines]
      · exact hbyte.1
      · nofun
    | cons next line => exact splitLines_cons hbyte.1 hbyte.2 (ih hline (List.cons_ne_nil _ _))

end Lines

/-- The text of a line has no line feed and no carriage return. -/
def IsLine (line : String) : Prop := '\n' ∉ line.toList ∧ '\r' ∉ line.toList

theorem IsLine.bytes {line : String} (h : IsLine line) :
    ∀ byte ∈ bytesOf line, byte ≠ 0x0a ∧ byte ≠ 0x0d := by
  have hfeed : 0x0a ∉ bytesOf line := not_mem_bytesOf (c := '\n') (by decide) h.1
  have hreturn : 0x0d ∉ bytesOf line := not_mem_bytesOf (c := '\r') (by decide) h.2
  intro byte hbyte
  exact ⟨ne_of_mem_of_not_mem hbyte hfeed, ne_of_mem_of_not_mem hbyte hreturn⟩

theorem bytesOf_ne_nil {line : String} (h : line ≠ "") : bytesOf line ≠ [] := by
  intro hnil
  have hdecode := decode?_bytesOf line
  rw [hnil] at hdecode
  exact h (Option.some.inj (hdecode.symm.trans (decode?_bytesOf "")))

/-- The lines of an input are told again from their bytes. -/
theorem decode?_splitLines {lines : List String} {input : List UInt8} (h : AreLines lines input)
    (hlines : ∀ line ∈ lines, IsLine line) :
    (splitLines input).map decode? = lines.map some := by
  induction h with
  | none => rfl
  | @last line hne =>
    rw [splitLines_last (hlines line List.mem_cons_self).bytes (bytesOf_ne_nil hne), List.map_cons,
      decode?_bytesOf]
    rfl
  | @feed line lines input h ih =>
    obtain ⟨hline, hlines⟩ := List.forall_mem_cons.mp hlines
    have hfeed : splitLines (0x0a :: input) = [] :: splitLines input := by rw [splitLines]
    rw [splitLines_append hline.bytes hfeed, List.map_cons, decode?_bytesOf, ih hlines]
    rfl
  | @returnFeed line lines input h ih =>
    obtain ⟨hline, hlines⟩ := List.forall_mem_cons.mp hlines
    have hfeed : splitLines (0x0d :: 0x0a :: input) = [] :: splitLines input := by rw [splitLines]
    rw [splitLines_append hline.bytes hfeed, List.map_cons, decode?_bytesOf, ih hlines]
    rfl

/-! ### Transcripts -/

theorem isEnd_iff (line : String) :
    isEnd line = true ↔ Text.trim line.toList ∈ ["exit".toList, "quit".toList] := by
  simp only [isEnd, List.any_cons, List.any_nil, Bool.or_false, Bool.or_eq_true, beq_iff_eq,
    List.mem_cons, List.not_mem_nil, or_false, eq_comm (a := Text.trim line.toList)]

/-- What follows the first prompt is an answer and the next prompt for each line that is answered,
and a line end. -/
theorem transcript_map_some (c : Context) (lines : List String) :
    transcript c (lines.map some) =
      (String.join ((lines.takeWhile (!isEnd ·)).map fun line ↦ block c line ++ c.prompt) ++ "\n",
        none) := by
  induction lines with
  | nil => rfl
  | cons line lines ih =>
    rw [List.map_cons, transcript, respond]
    cases hend : isEnd line with
    | true => simp [hend]
    | false => simp [hend, ih, String.append_assoc]

/-! ### What is wrong with a line -/

open Position (Locates)

/-- A place in a text of one line has as many characters before it on the line as in the text. -/
theorem column_eq_of_locates {text : List Char} {place : Position} (hline : '\n' ∉ text)
    (h : Locates text place) : ∃ before after, text = before ++ after ∧
      place.offset = Text.byteCount before ∧ place.column = before.length + 1 := by
  obtain ⟨⟨before, after, rfl, hoffset⟩, hplace⟩ :=
    (Position.at?_eq_some_iff h.inside place).mp h.sliced
  rw [hoffset, Position.ofOffset_byteCount] at hplace
  obtain ⟨lines, own, rfl, hends, -, hafter⟩ := Position.exists_lines before
  obtain rfl : lines = [] := by
    rcases hends with hnil | ⟨init, rfl⟩
    · exact hnil
    · simp at hline
  exact ⟨own, after, rfl, hoffset, congrArg Position.column (hplace.trans hafter)⟩

/-- What is wrong with a text has a place in it. -/
theorem exists_place_of_parse_error {text : String} {e : FilterError}
    (h : Filter.parse text = .error e) :
    ∃ place, e.place? = some place ∧ Locates text.toList place := by
  unfold Filter.parse at h
  split at h
  · next fault place hfault =>
    cases h
    exact ⟨place, rfl, (locates_of_tokens_error hfault).1⟩
  · next tokens htokens =>
    split at h
    · cases h
    · next failure hread =>
      cases h
      cases Filter.locatedFault_of_read htokens hread with
      | grammatical _ hplace _ _ => exact ⟨_, rfl, hplace⟩

/-- The answer to a line is a mark below the place of what is wrong with it, which stands as many
characters after the prompt as the line has before that place, then the message, then a blank
line. -/
def PointsAt (c : Context) (line : String) (e : FilterError) : Prop :=
  ∃ before after place, line.toList = before ++ after ∧ e.place? = some place ∧
    place.offset = Text.byteCount before ∧
    block c line = String.ofList (List.replicate (c.prompt.length + before.length) ' ') ++ "^\n" ++
      e.message ++ "\n\n"

theorem block_blank (c : Context) {line : String} (hblank : Text.allBlank line.toList = true) :
    block c line = "" := by
  rw [block, answer, if_pos hblank]

theorem pointsAt_of_parse_error {c : Context} {line : String} {e : FilterError}
    (hcolors : c.colors = false) (hline : '\n' ∉ line.toList)
    (hblank : Text.allBlank line.toList = false) (h : Filter.parse line = .error e) :
    PointsAt c line e := by
  obtain ⟨place, hplace, hlocates⟩ := exists_place_of_parse_error h
  obtain ⟨before, after, htext, hoffset, hcolumn⟩ := column_eq_of_locates hline hlocates
  refine ⟨before, after, place, htext, hplace, hoffset, ?_⟩
  have hfilter : c.filter c.optimize line = .error e := by rw [Context.filter, h]; rfl
  have hanswer : answer c line =
      [Display.caret false c.prompt.length (before.length + 1), e.message] := by
    rw [answer, if_neg (by simp [hblank]), hfilter]
    simp only [Display.filterError, hplace, hcolors, hcolumn, Display.painted, Bool.false_eq_true,
      if_false]
  simp only [block, hanswer, List.foldr_cons, List.foldr_nil, Display.caret, Display.painted,
    Nat.add_sub_cancel, Bool.false_eq_true, if_false, String.append_assoc]
  rfl

/-! ### Sessions -/

/-- What is wrong with a line is told below it if there is anything in the line; a blank line is not
answered, though it is no expression. -/
structure Explains (c : Context) (line : String) : Prop where
  blank : Text.allBlank line.toList = true → block c line = ""
  wrong : ∀ e, Filter.parse line = .error e → Text.allBlank line.toList = false → PointsAt c line e

theorem explains_of_isLine {c : Context} {line : String} (hcolors : c.colors = false)
    (hline : IsLine line) : Explains c line :=
  ⟨block_blank c, fun _ h hblank ↦ pointsAt_of_parse_error hcolors hline.1 hblank h⟩

/-- A session succeeds. It prints the prompt, then for each line before the one that ends it the
answer to this line and the prompt again, and then a line end. -/
theorem run_of_areLines (c : Context) {lines : List String} {input : List UInt8}
    (hinput : AreLines lines input) (hlines : ∀ line ∈ lines, IsLine line) :
    run c input = (c.prompt ++ (String.join ((lines.takeWhile fun line ↦
        Text.trim line.toList ∉ ["exit".toList, "quit".toList]).map fun line ↦
          block c line ++ c.prompt) ++ "\n"), none) ∧
      (c.colors = false → ∀ line, IsLine line → Explains c line) := by
  have hend : (fun line ↦ !isEnd line) = fun line ↦
      decide (Text.trim line.toList ∉ ["exit".toList, "quit".toList]) := by
    funext line
    simp only [← isEnd_iff, Bool.not_eq_true, Bool.decide_eq_false]
  refine ⟨?_, fun hcolors line ↦ explains_of_isLine hcolors⟩
  rw [run, decode?_splitLines hinput hlines, transcript_map_some, hend]

/-- A line with a character of two bytes before what is wrong with it, a blank line, and a line that
ends the session. -/
theorem run_of_areLines_wrong :
    let c : Context := ⟨false, false, false, "> ", true, false, [.graph]⟩
    let input := bytesOf "a eq \"é\" b" ++ 0x0d :: 0x0a :: (bytesOf "" ++ 0x0a :: bytesOf " quit")
    AreLines ["a eq \"é\" b", "", " quit"] input ∧
    (∀ line ∈ ["a eq \"é\" b", "", " quit"], IsLine line) ∧
    run c input =
      ("> " ++ (String.join [block c "a eq \"é\" b" ++ "> ", block c "" ++ "> "] ++ "\n"), none) ∧
    PointsAt c "a eq \"é\" b" (.grammatical (.trailing (.word "b")) ⟨10, 1, 10⟩) := by
  intro c input
  have hinput : AreLines ["a eq \"é\" b", "", " quit"] input :=
    .returnFeed (.feed (.last (by decide)))
  have hlines : ∀ line ∈ ["a eq \"é\" b", "", " quit"], IsLine line := by
    unfold IsLine
    decide
  have hparse : Filter.parse "a eq \"é\" b" =
      .error (.grammatical (.trailing (.word "b")) ⟨10, 1, 10⟩) := by
    decide +kernel
  have hanswered : ["a eq \"é\" b", "", " quit"].takeWhile (fun line ↦
      Text.trim line.toList ∉ ["exit".toList, "quit".toList]) = ["a eq \"é\" b", ""] := by
    decide +kernel
  obtain ⟨hrun, hexplains⟩ := run_of_areLines c hinput hlines
  rw [hanswered] at hrun
  exact ⟨hinput, hlines, hrun, (hexplains rfl _ (hlines _ List.mem_cons_self)).wrong _ hparse rfl⟩

/-- Nothing points at what is wrong with a line that is empty. -/
theorem not_pointsAt_of_empty :
    let c : Context := ⟨false, false, false, "query> ", true, false, [.graph, .ldap, .scim]⟩
    Filter.parse "" = .error (.grammatical .noTokens .start) ∧ c.colors = false ∧ IsLine "" ∧
      ¬PointsAt c "" (.grammatical .noTokens .start) := by
  refine ⟨by decide +kernel, rfl, by simp [IsLine], ?_⟩
  rintro ⟨before, after, place, -, -, -, hblock⟩
  rw [block_blank _ rfl] at hblock
  have hlength := congrArg String.length hblock
  rw [String.length_append] at hlength
  have hline : 0 < "\n\n".length := by decide
  exact absurd hlength (by rw [String.length_empty]; omega)

end PropertyFilter.Session
