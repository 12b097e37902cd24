import PropertyFilter.Proofs.Lexeme.Letters
import PropertyFilter.Proofs.Text.Trimming
import PropertyFilter.Settings

/-!
# What texts say for settings

A truth value has four words. A list of dialects is said by the names between the commas of a text:
blank parts name nothing, and a dialect that is named again does not count again. `SaysBool` and
`SaysDialects` are these readings as relations, and `RefusesBool` and `RefusesDialects` are what is
wrong with texts that have none.

Reading finds what a text says and fails with what is wrong with it. For truth values this holds
since they have no word in common (`not_saysBool_false_of_true`). Parts between commas either name
dialects as a whole or have a first part that names none (`namesDialects_or_hasStranger`), and
reading goes along from part to part with the dialects that were named before, each of them once
(`collectDialects_of_namesDialects`, `collectDialects_of_hasStranger`).
-/

set_option autoImplicit false

namespace PropertyFilter

/-! ### Readings -/

/-- The words for truth values. -/
inductive TruthWord : String → Bool → Prop
  | true : TruthWord "true" true
  | yes : TruthWord "yes" true
  | one : TruthWord "1" true
  | on : TruthWord "on" true
  | false : TruthWord "false" false
  | no : TruthWord "no" false
  | zero : TruthWord "0" false
  | off : TruthWord "off" false

/-- The text is a word for the truth value, in letters of either case. -/
def SaysBool (text : String) (b : Bool) : Prop :=
  ∃ word, TruthWord word b ∧ text.toList.map Char.toLower = word.toList

/-- The text is no word for a truth value. -/
inductive RefusesBool (text : String) : SettingsFault → Prop
  | notABool (h : ∀ b, ¬ SaysBool text b) : RefusesBool text (.notABool text)

/-- The words for dialects. -/
inductive DialectWord : String → Dialect → Prop
  | graph : DialectWord "graph" .graph
  | ldap : DialectWord "ldap" .ldap
  | scim : DialectWord "scim" .scim

/-- The part of a text is the word for a dialect, in letters of either case and between blanks. -/
inductive NamesDialect : List Char → Dialect → Prop
  | intro {gap own gap' : List Char} {word : String} {d : Dialect}
      (hgap : Text.allBlank gap = true) (hgap' : Text.allBlank gap' = true)
      (hword : DialectWord word d) (hown : own.map Char.toLower = word.toList) :
      NamesDialect (gap ++ (own ++ gap')) d

/-- Those of the parts that are not blank name these dialects, one after another. -/
inductive NamesDialects : List (List Char) → List Dialect → Prop
  | none : NamesDialects [] []
  | blank {part : List Char} {parts : List (List Char)} {ds : List Dialect}
      (hblank : Text.allBlank part = true) (h : NamesDialects parts ds) :
      NamesDialects (part :: parts) ds
  | more {part : List Char} {parts : List (List Char)} {d : Dialect} {ds : List Dialect}
      (hpart : NamesDialect part d) (h : NamesDialects parts ds) :
      NamesDialects (part :: parts) (d :: ds)

/-- The part is the first one that is not blank and names no dialect. -/
inductive HasStranger : List (List Char) → List Char → Prop
  | intro {before after : List (List Char)} {part : List Char} {ds : List Dialect}
      (hbefore : NamesDialects before ds) (hblank : Text.allBlank part = false)
      (hpart : ∀ d, ¬ NamesDialect part d) : HasStranger (before ++ part :: after) part

/-- Between its commas the text names dialects, one at least; these are they, each of them once and
where it is named first. -/
def SaysDialects (text : String) (ds : List Dialect) : Prop :=
  ∃ named, NamesDialects (text.toList.splitOn ',') named ∧ named ≠ [] ∧ ds = named.eraseDups

/-- Between its commas the text names something that is no dialect, or nothing at all. -/
inductive RefusesDialects (text : String) : SettingsFault → Prop
  | unknown {part : List Char} (h : HasStranger (text.toList.splitOn ',') part) :
      RefusesDialects text (.unknownDialect (String.ofList part))
  | none (h : NamesDialects (text.toList.splitOn ',') []) : RefusesDialects text .noDialects

/-! ### Truth values -/

/-- The words for a truth value in the order in which they are tried. -/
def truthWords : Bool → List String
  | true => ["true", "yes", "1", "on"]
  | false => ["false", "no", "0", "off"]

theorem truthWord_iff (word : String) (b : Bool) : TruthWord word b ↔ word ∈ truthWords b := by
  constructor
  · rintro (_ | _ | _ | _ | _ | _ | _ | _) <;> simp [truthWords]
  · intro h
    cases b
    all_goals
      simp only [truthWords, List.mem_cons, List.not_mem_nil, or_false] at h
      rcases h with rfl | rfl | rfl | rfl
      all_goals constructor

/-- No text says both truth values. -/
theorem not_saysBool_false_of_true {text : String} (h : SaysBool text true) :
    ¬ SaysBool text false := by
  rintro ⟨no, hno, htext⟩
  obtain ⟨yes, hyes, htext'⟩ := h
  obtain rfl := String.toList_inj.mp (htext.symm.trans htext')
  have hapart : ∀ word ∈ truthWords true, word ∉ truthWords false := by decide
  exact hapart no ((truthWord_iff no true).mp hyes) ((truthWord_iff no false).mp hno)

/-- Trying its words tells whether a text says a truth value. -/
theorem any_alike_truthWords_iff (text : String) (b : Bool) :
    (truthWords b).any (alike text) = true ↔ SaysBool text b := by
  have hlower : ∀ word ∈ truthWords b, foldCase word = word.toList := by cases b <;> decide
  rw [List.any_eq_true]
  constructor
  · rintro ⟨word, hmem, halike⟩
    rw [alike, beq_iff_eq, hlower word hmem] at halike
    exact ⟨word, (truthWord_iff word b).mpr hmem, halike⟩
  · rintro ⟨word, hword, htext⟩
    have hmem := (truthWord_iff word b).mp hword
    refine ⟨word, hmem, ?_⟩
    rw [alike, beq_iff_eq, hlower word hmem]
    exact htext

namespace Settings

variable {text : String}

theorem readBool_eq (text : String) : readBool text =
    if (truthWords true).any (alike text) then .ok true
    else if (truthWords false).any (alike text) then .ok false
    else .error (.notABool text) := rfl

theorem readBool_of_saysBool {b : Bool} (h : SaysBool text b) : readBool text = .ok b := by
  cases b with
  | true => rw [readBool_eq, if_pos ((any_alike_truthWords_iff text true).mpr h)]
  | false =>
    have hnot : ¬ SaysBool text true := fun htext ↦ not_saysBool_false_of_true htext h
    rw [readBool_eq, if_neg (mt (any_alike_truthWords_iff text true).mp hnot),
      if_pos ((any_alike_truthWords_iff text false).mpr h)]

theorem readBool_of_refusesBool {fault : SettingsFault} (h : RefusesBool text fault) :
    readBool text = .error fault := by
  obtain ⟨hnone⟩ := h
  rw [readBool_eq, if_neg (mt (any_alike_truthWords_iff text true).mp (hnone true)),
    if_neg (mt (any_alike_truthWords_iff text false).mp (hnone false))]

/-- A text says a truth value or is refused. -/
theorem saysBool_or_refusesBool (text : String) :
    (∃ b, SaysBool text b) ∨ ∃ fault, RefusesBool text fault := by
  by_cases h : ∃ b, SaysBool text b
  · exact .inl h
  · exact .inr ⟨_, .notABool (not_exists.mp h)⟩

end Settings

/-! ### Dialects -/

section Names

variable {part : List Char} {d : Dialect}

/-- What is a word for a dialect in lower case begins and ends with letters. -/
theorem DialectWord.ends {word : String} (h : DialectWord word d) {own : List Char}
    (hown : own.map Char.toLower = word.toList) : own ≠ [] ∧
      (∀ c ∈ own.head?, Text.isBlank c = false) ∧ ∀ c ∈ own.getLast?, Text.isBlank c = false := by
  have hblank : ∀ c ∈ own, Text.isBlank c = false := by
    intro c hc
    have hmem : c.toLower ∈ word.toList := hown ▸ List.mem_map_of_mem hc
    have hletters : (word.toList.all fun letter ↦ !Text.isBlank letter) = true := by
      cases h <;> rfl
    rw [← Lexeme.isBlank_toLower]
    simpa using List.all_eq_true.mp hletters _ hmem
  refine ⟨?_, fun c hc ↦ hblank c (List.mem_of_head? hc),
    fun c hc ↦ hblank c (List.mem_of_getLast? hc)⟩
  rintro rfl
  cases h <;> cases hown

theorem ofText?_eq_some_iff (part : List Char) (d : Dialect) :
    Dialect.ofText? (String.ofList part) = some d ↔ NamesDialect part d := by
  constructor
  · intro h
    have hname := List.find?_some h
    rw [String.toList_ofList, beq_iff_eq] at hname
    obtain ⟨gap, gap', hpart, hgap, hgap'⟩ := Text.exists_gaps_trim part
    have hword : DialectWord d.name d := by cases d <;> constructor
    rw [hpart]
    exact .intro hgap hgap' hword hname.symm
  · rintro ⟨hgap, hgap', hword, hown⟩
    obtain ⟨hne, hhead, hlast⟩ := hword.ends hown
    rw [Dialect.ofText?, String.toList_ofList, Text.trim_append hgap hgap' hne hhead hlast, hown]
    cases hword <;> decide

theorem ofText?_eq_none_iff (part : List Char) :
    Dialect.ofText? (String.ofList part) = none ↔ ∀ d, ¬ NamesDialect part d := by
  simp only [Option.eq_none_iff_forall_ne_some, ne_eq, ofText?_eq_some_iff]

/-- A part that names a dialect is not blank. -/
theorem NamesDialect.allBlank_eq_false (h : NamesDialect part d) : Text.allBlank part = false := by
  obtain ⟨-, -, hword, hown⟩ := h
  obtain ⟨hne, hhead, -⟩ := hword.ends hown
  obtain ⟨c, cs, rfl⟩ := List.exists_cons_of_ne_nil hne
  rw [Text.allBlank, List.all_eq_false]
  exact ⟨c, by simp, by simp [hhead c rfl]⟩

end Names

/-- Parts name dialects as a whole or have a first one that names none. -/
theorem namesDialects_or_hasStranger (parts : List (List Char)) :
    (∃ ds, NamesDialects parts ds) ∨ ∃ part, HasStranger parts part := by
  induction parts with
  | nil => exact .inl ⟨[], .none⟩
  | cons part parts ih =>
    -- A stranger among the parts after one that is blank or a name is the first one still.
    cases hblank : Text.allBlank part with
    | true =>
      rcases ih with ⟨ds, h⟩ | ⟨stranger, ⟨hbefore, hnot, hpart⟩⟩
      · exact .inl ⟨ds, .blank hblank h⟩
      · exact .inr ⟨stranger, .intro (.blank hblank hbefore) hnot hpart⟩
    | false =>
      by_cases hname : ∃ d, NamesDialect part d
      · obtain ⟨d, hname⟩ := hname
        rcases ih with ⟨ds, h⟩ | ⟨stranger, ⟨hbefore, hnot, hpart⟩⟩
        · exact .inl ⟨d :: ds, .more hname h⟩
        · exact .inr ⟨stranger, .intro (.more hname hbefore) hnot hpart⟩
      · exact .inr ⟨part, .intro .none hblank (not_exists.mp hname)⟩

namespace Settings

variable {text : String} {parts : List (List Char)}

theorem commaParts_eq (cs : List Char) : commaParts cs = cs.splitOn ',' := by
  induction cs with
  | nil => rfl
  | cons c cs ih =>
    have hcons : (c :: cs).splitOn ',' = if c = ',' then [] :: cs.splitOn ','
        else (cs.splitOn ',').modifyHead (c :: ·) := by
      rw [List.splitOn, List.splitOnP_cons_eq_if_modifyHead]
      simp only [beq_iff_eq]
      rfl
    rw [commaParts, ih, hcons]
    cases hparts : cs.splitOn ',' with
    | nil => exact absurd hparts (List.splitOnP_ne_nil _ _)
    | cons part parts => rfl

/-- The parts that count. -/
abbrev nonblank (parts : List (List Char)) : List (List Char) :=
  parts.filter fun part ↦ !Text.allBlank part

theorem nonblank_cons_of_blank {part : List Char} (h : Text.allBlank part = true) :
    nonblank (part :: parts) = nonblank parts :=
  List.filter_cons_of_neg (by simp [h])

theorem nonblank_cons {part : List Char} (h : Text.allBlank part = false) :
    nonblank (part :: parts) = part :: nonblank parts :=
  List.filter_cons_of_pos (by simp [h])

theorem eraseDups_concat (ds : List Dialect) (d : Dialect) : (ds ++ [d]).eraseDups =
    if ds.eraseDups.contains d then ds.eraseDups else ds.eraseDups ++ [d] := by
  rw [List.eraseDups_append]
  split
  · next h =>
    rw [List.contains_iff_mem, List.mem_eraseDups] at h
    simp [List.removeAll, h]
  · next h =>
    rw [List.contains_iff_mem, List.mem_eraseDups] at h
    simp [List.removeAll, h, List.eraseDups_cons]

/-- Going on from a part that names a dialect, this one has been found. -/
theorem collectDialects_cons {part : List Char} {d : Dialect} (h : NamesDialect part d)
    (before : List Dialect) : collectDialects before.eraseDups (nonblank (part :: parts)) =
      collectDialects (before ++ [d]).eraseDups (nonblank parts) := by
  rw [nonblank_cons h.allBlank_eq_false, collectDialects, (ofText?_eq_some_iff part d).mpr h,
    eraseDups_concat]

theorem collectDialects_of_namesDialects {ds : List Dialect} (h : NamesDialects parts ds)
    (before : List Dialect) :
    collectDialects before.eraseDups (nonblank parts) = .ok (before ++ ds).eraseDups := by
  induction h generalizing before with
  | none => rw [List.append_nil]; rfl
  | blank hblank h ih => rw [nonblank_cons_of_blank hblank, ih]
  | more hpart h ih =>
    rw [collectDialects_cons hpart, ih, List.append_assoc, List.singleton_append]

theorem collectDialects_of_hasStranger {part : List Char} (h : HasStranger parts part)
    (before : List Dialect) : collectDialects before.eraseDups (nonblank parts) =
      .error (.unknownDialect (String.ofList part)) := by
  obtain ⟨hbefore, hblank, hpart⟩ := h
  induction hbefore generalizing before with
  | none =>
    rw [List.nil_append, nonblank_cons hblank, collectDialects,
      (ofText?_eq_none_iff part).mpr hpart]
  | blank hblank h ih => rw [List.cons_append, nonblank_cons_of_blank hblank, ih]
  | more hpart h ih => rw [List.cons_append, collectDialects_cons hpart, ih]

theorem readDialects_of_saysDialects {ds : List Dialect} (h : SaysDialects text ds) :
    readDialects text = .ok ds := by
  obtain ⟨named, hnamed, hne, rfl⟩ := h
  obtain ⟨d, named, rfl⟩ := List.exists_cons_of_ne_nil hne
  have hfound : collectDialects [] (nonblank (text.toList.splitOn ',')) =
      .ok (d :: named).eraseDups := collectDialects_of_namesDialects hnamed []
  rw [readDialects, commaParts_eq, hfound, List.eraseDups_cons]

theorem readDialects_of_refusesDialects {fault : SettingsFault} (h : RefusesDialects text fault) :
    readDialects text = .error fault := by
  rw [readDialects, commaParts_eq]
  cases h with
  | @unknown part h =>
    have hfound : collectDialects [] (nonblank (text.toList.splitOn ',')) =
        .error (.unknownDialect (String.ofList part)) := collectDialects_of_hasStranger h []
    rw [hfound]
  | none h =>
    have hfound : collectDialects [] (nonblank (text.toList.splitOn ',')) = .ok [] :=
      collectDialects_of_namesDialects h []
    rw [hfound]

/-- A text says dialects or is refused. -/
theorem saysDialects_or_refusesDialects (text : String) :
    (∃ ds, SaysDialects text ds) ∨ ∃ fault, RefusesDialects text fault := by
  rcases namesDialects_or_hasStranger (text.toList.splitOn ',') with ⟨ds, h⟩ | ⟨part, h⟩
  · cases ds with
    | nil => exact .inr ⟨_, .none h⟩
    | cons d ds => exact .inl ⟨_, _, h, List.cons_ne_nil d ds, rfl⟩
  · exact .inr ⟨_, .unknown h⟩

end Settings

end PropertyFilter
