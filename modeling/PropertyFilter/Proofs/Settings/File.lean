import PropertyFilter.Proofs.Toml.Reading
import PropertyFilter.Proofs.Toml.Tables
import PropertyFilter.Settings.File

/-!
# Reading settings that were written

Settings that are written as a file are read back (`read?_text`), whatever is set: the lines of the
file are the statements of the settings (`adds_text`), and these make up a document that holds just
them (`ofEntries?_statements`). The file that explains the settings has the statements of settings
of which nothing is set, so that is how it is read (`read?_template`).
-/

set_option autoImplicit false

namespace PropertyFilter.Settings

open Text Text.Reader Toml

/-! ### Statements -/

def dialectsToml (ds : List Dialect) : Toml := .array (ds.map fun d ↦ .string d.name)

/-- What the file of the settings says. -/
def statements (s : Settings) : List Statement :=
  [.assignment [] "version" (.integer version)] ++
  optionalStatement "prompt" (s.prompt?.map .string) ++
  [.table [] "render"] ++
  optionalStatement "optimize" (s.optimize?.map .bool) ++
  optionalStatement "collapse_duplicates" (s.collapse?.map .bool) ++
  optionalStatement "dialects" (s.dialects?.map dialectsToml) ++
  [.table [] "output"] ++
  optionalStatement "color" (s.color?.map .bool)

/-- The root of the document, without its tables. -/
def rootNodes (s : Settings) : Entries Node :=
  putOptional "prompt" (s.prompt?.map .string)
    (Entries.put "version" (.value (.integer version)) [])

def renderNodes (s : Settings) : Entries Node :=
  putOptional "dialects" (s.dialects?.map dialectsToml)
    (putOptional "collapse_duplicates" (s.collapse?.map .bool)
      (putOptional "optimize" (s.optimize?.map .bool) []))

def outputNodes (s : Settings) : Entries Node :=
  putOptional "color" (s.color?.map .bool) []

/-- The document that the statements make up. -/
def nodes (s : Settings) : Entries Node :=
  Entries.put "output" (.table .header s.outputNodes)
    (Entries.put "render" (.table .header s.renderNodes) s.rootNodes)

theorem find?_rootNodes (s : Settings) (name : String) (hversion : name ≠ "version")
    (hprompt : name ≠ "prompt") : Entries.find? name s.rootNodes = none := by
  rw [rootNodes, find?_putOptional_of_ne hprompt, Entries.find?_put_of_ne _ _ _ _ hversion]
  rfl

theorem foldlM_statements (s : Settings) :
    s.statements.foldlM Draft.add ⟨[], []⟩ = some ⟨["output"], s.nodes⟩ := by
  have hversion : Draft.add ⟨[], []⟩ (.assignment [] "version" (.integer version)) =
      some ⟨[], Entries.put "version" (.value (.integer version)) []⟩ := add_root rfl _
  have hprompt : Entries.find? "prompt"
      (Entries.put "version" (.value (.integer version)) ([] : Entries Node)) = none := by
    rw [Entries.find?_put_of_ne _ _ _ _ (by decide)]
    rfl
  have hrender := add_header (s.find?_rootNodes "render" (by decide) (by decide)) []
  have hoptimize : Entries.find? "optimize" ([] : Entries Node) = none := rfl
  have hcollapse : Entries.find? "collapse_duplicates"
      (putOptional "optimize" (s.optimize?.map .bool) []) = none := by
    rw [find?_putOptional_of_ne (by decide)]
    rfl
  have hdialects : Entries.find? "dialects" (putOptional "collapse_duplicates"
      (s.collapse?.map .bool) (putOptional "optimize" (s.optimize?.map .bool) [])) = none := by
    rw [find?_putOptional_of_ne (by decide), find?_putOptional_of_ne (by decide)]
    rfl
  have houtput : Entries.find? "output"
      (Entries.put "render" (.table .header s.renderNodes) s.rootNodes) = none := by
    rw [Entries.find?_put_of_ne _ _ _ _ (by decide), s.find?_rootNodes _ (by decide) (by decide)]
  simp only [statements, List.foldlM_append, List.foldlM_cons, List.foldlM_nil, hversion,
    foldlM_optional_root hprompt, Option.bind_eq_bind, Option.bind_some, Option.pure_def]
  rw [← rootNodes]
  simp only [hrender, Option.bind_some, foldlM_optional_inside hoptimize,
    foldlM_optional_inside hcollapse, foldlM_optional_inside hdialects]
  rw [← renderNodes]
  have hcolor : Entries.find? "color" ([] : Entries Node) = none := rfl
  simp only [add_header houtput, Option.bind_some, foldlM_optional_inside hcolor]
  rfl

/-! ### Entries -/

theorem find?_nodes_tables (s : Settings) :
    Entries.find? "render" s.nodes = some (.table .header s.renderNodes) ∧
      Entries.find? "output" s.nodes = some (.table .header s.outputNodes) := by
  constructor
  · rw [nodes, Entries.find?_put_of_ne _ _ _ _ (by decide), Entries.find?_put_self]
  · rw [nodes, Entries.find?_put_self]

theorem find?_nodes_values (s : Settings) :
    Entries.find? "version" s.nodes = some (.value (.integer version)) ∧
      Entries.find? "prompt" s.nodes = (s.prompt?.map .string).map .value := by
  have hprompt : Entries.find? "prompt"
      (Entries.put "version" (.value (.integer version)) ([] : Entries Node)) = none := by
    rw [Entries.find?_put_of_ne _ _ _ _ (by decide)]
    rfl
  constructor
  · rw [nodes, Entries.find?_put_of_ne _ _ _ _ (by decide),
      Entries.find?_put_of_ne _ _ _ _ (by decide), rootNodes, find?_putOptional_of_ne (by decide),
      Entries.find?_put_self]
  · rw [nodes, Entries.find?_put_of_ne _ _ _ _ (by decide),
      Entries.find?_put_of_ne _ _ _ _ (by decide), rootNodes, find?_putOptional_self hprompt]

theorem find?_renderNodes (s : Settings) :
    Entries.find? "optimize" s.renderNodes = (s.optimize?.map .bool).map .value ∧
      Entries.find? "collapse_duplicates" s.renderNodes = (s.collapse?.map .bool).map .value ∧
      Entries.find? "dialects" s.renderNodes = (s.dialects?.map dialectsToml).map .value := by
  have hnone : ∀ name, Entries.find? name ([] : Entries Node) = none := fun _ ↦ rfl
  refine ⟨?_, ?_, ?_⟩
  · rw [renderNodes, find?_putOptional_of_ne (by decide), find?_putOptional_of_ne (by decide),
      find?_putOptional_self (hnone _)]
  · rw [renderNodes, find?_putOptional_of_ne (by decide), find?_putOptional_self]
    rw [find?_putOptional_of_ne (by decide), hnone]
  · rw [renderNodes, find?_putOptional_self]
    rw [find?_putOptional_of_ne (by decide), find?_putOptional_of_ne (by decide), hnone]

theorem find?_outputNodes (s : Settings) :
    Entries.find? "color" s.outputNodes = (s.color?.map .bool).map .value :=
  find?_putOptional_self rfl _

theorem dialectsOf?_dialectsToml (ds : List Dialect) : dialectsOf? (dialectsToml ds) = some ds := by
  rw [dialectsToml, dialectsOf?]
  induction ds with
  | nil => rfl
  | cons d ds ih => simp [ih, dialectOf?, Dialect.ofName?_name]

/-- What is written for a value that may be missing is decoded as that. -/
theorem entryOf?_map {α : Type} {decode : Toml → Option α} {encode : α → Toml}
    (h : ∀ a, decode (encode a) = some a) (a? : Option α) :
    entryOf? decode (((a?.map encode).map Node.value).map ofNode) = some a? := by
  cases a? with
  | none => rfl
  | some a => simp [entryOf?, ofNode, h]

theorem ofEntries?_nodes (s : Settings) : ofEntries? (ofNodes s.nodes) = some s := by
  obtain ⟨hrender, houtput⟩ := s.find?_nodes_tables
  obtain ⟨hversion, hprompt⟩ := s.find?_nodes_values
  obtain ⟨hoptimize, hcollapse, hdialects⟩ := s.find?_renderNodes
  have hisVersion : isVersion (some (.integer version)) = true := by decide
  have hprompts : ∀ a?, entryOf? promptOf? (((Option.map .string a?).map Node.value).map ofNode) =
      some a? := entryOf?_map fun _ ↦ rfl
  have hbools : ∀ a?, entryOf? boolOf? (((Option.map .bool a?).map Node.value).map ofNode) =
      some a? := entryOf?_map fun _ ↦ rfl
  have hlists : ∀ a?, entryOf? dialectsOf? (((Option.map dialectsToml a?).map Node.value).map
      ofNode) = some a? := entryOf?_map dialectsOf?_dialectsToml
  simp only [ofEntries?, find?_ofNodes, hrender, houtput, hversion, hprompt, Option.map_some,
    ofNode, sectionOf?, List.map_cons, List.map_nil, hoptimize, hcollapse, hdialects,
    s.find?_outputNodes, hprompts, hbools, hlists, hisVersion, Option.bind_eq_bind,
    Option.bind_some, Option.pure_def]

theorem ofEntries?_statements (s : Settings) :
    (ofStatements? s.statements).bind ofEntries? = some s := by
  rw [ofStatements?, foldlM_statements, Option.map_some, Option.bind_some, ofEntries?_nodes]

/-! ### Lines -/

theorem reads_dialectText (d : Dialect) {rest : List Char} (hrest : ∀ c ∈ rest.head?, c ≠ '"') :
    Reads anyString (dialectText d) d.name rest := by
  have hbody : quotedBody false 0 d.name.toList = d.name.toList := by cases d <;> decide
  have htwo := isPrefixOf_two (head?_quotedBody d.name.toList) hrest
  have hread := reads_basicString d.name.toList rest
  rw [hbody] at htwo hread
  rw [String.ofList_toList] at hread
  exact .firstOf_tail (refuses_lines (by simpa [dialectText] using htwo)) hread.firstOf_head

theorem reads_dialectsText (ds : List Dialect) (rest : List Char) :
    Reads (valueNested maxNesting) (dialectsText ds) (dialectsToml ds) rest := by
  have harray : ∀ {own : List Char}, Reads (arrayOf (valueNested 78)) ('[' :: own) (dialectsToml ds)
      rest → Reads (valueNested maxNesting) ('[' :: own) (dialectsToml ds) rest := fun hread ↦
    .firstOf_tail (refuses_scalar_openBracket _) hread.firstOf_head
  have hread : ∀ d rest, (∀ c ∈ rest.head?, c ≠ '"') →
      Reads (valueNested 78) (dialectText d) (.string d.name) rest := fun d rest hrest ↦
    reads_valueNested (reads_string (reads_dialectText d hrest)) 78
  have hclose := refuses_valueNested_closeBracket 78
  have hbegins : ∀ d rest, BeginsThing (dialectText d ++ rest) := fun d rest ↦
    beginsThing_cons (by decide)
  obtain - | ⟨d, - | ⟨d', ds⟩⟩ := ds
  · exact harray (reads_array_nil hclose rest)
  · have hone : ∀ rest, Reads (valueNested 78) (dialectText d) (.string d.name) (']' :: rest) :=
      fun rest ↦ hread d _ (by simp)
    exact harray (reads_array_one (hbegins d) hone rest)
  · have hitems : ∀ d rest, Reads (valueNested 78) (dialectText d) (.string d.name) (',' :: rest) :=
      fun d rest ↦ hread d _ (by simp)
    have hbefore : ∀ c ∈ "\n    ".toList, isSpace c = true ∨ c = '\n' := by simp [isSpace]
    exact harray (reads_array_lines dialectText (fun d ↦ .string d.name) hbefore hitems hbegins
      hclose rest)

theorem reads_boolText (b : Bool) (rest : List Char) :
    Reads (valueNested maxNesting) (boolText b) (.bool b) rest := by
  cases b with
  | false => exact reads_valueNested (reads_false rest) _
  | true => exact reads_valueNested (reads_true rest) _

theorem reads_prompt (s : String) (rest : List Char) :
    Reads (valueNested maxNesting) (quoted s) (.string s) ('\n' :: rest) :=
  reads_valueNested (reads_string (reads_quoted s (by simp))) _

/-- The line of a setting, if it is set, says what is set. -/
theorem adds_optionalAssignment {α : Type} {name : String} (hname : IsBareKey name)
    {written : α → List Char} {encode : α → Toml}
    (hbegins : ∀ a, ∀ c ∈ (written a).head?, isSpace c = false)
    (h : ∀ a rest, Reads (valueNested maxNesting) (written a) (encode a) ('\n' :: rest))
    (a? : Option α) :
    Adds (optionalAssignment name written a?) (optionalStatement name (a?.map encode)) := by
  cases a? with
  | none => exact adds_nil
  | some a =>
    refine adds_line (fun rest ↦ reads_line_assignment hname ?_ (h a rest))
      (by simp [optionalAssignment, assignment])
    cases hown : written a with
    | nil => simp [isSpace]
    | cons c cs => exact fun d hd ↦ hbegins a d (by rw [hown]; exact hd)

/-- The header of a table after an empty line. -/
theorem adds_header {name : String} (hname : IsBareKey name) {own : List Char}
    (hown : own = ['\n'] ++ ('[' :: name.toList ++ [']', '\n'])) : Adds own [.table [] name] := by
  rw [hown]
  exact (adds_line reads_line_blank (by simp)).append
    (adds_line (reads_line_header hname) (by simp))

theorem adds_version : Adds (assignment "version" (Numeral.digits version))
    [.assignment [] "version" (.integer version)] := by
  have hdigits : Numeral.digits version = ['1'] := by decide +kernel
  rw [hdigits]
  exact adds_line (fun rest ↦ reads_line_assignment (by decide) (by simp [isSpace])
    (reads_valueNested (reads_one rest) _)) (by simp)

theorem head?_quoted (s : String) : ∀ c ∈ (quoted s).head?, isSpace c = false := by
  have hmark : ∃ c cs, (Quotation.choose s.toList).mark = c :: cs ∧ isSpace c = false := by
    cases Quotation.choose s.toList with
    | basic => exact ⟨'"', [], rfl, by decide⟩
    | literal => exact ⟨'\x27', [], rfl, by decide⟩
    | basicLines => exact ⟨'"', ['"', '"'], rfl, by decide⟩
    | literalLines => exact ⟨'\x27', ['\x27', '\x27'], rfl, by decide⟩
  obtain ⟨c, cs, hmark, hspace⟩ := hmark
  simpa [quoted, hmark] using hspace

theorem adds_prompt (prompt? : Option String) :
    Adds (optionalAssignment "prompt" quoted prompt?)
      (optionalStatement "prompt" (prompt?.map .string)) :=
  adds_optionalAssignment (by decide) head?_quoted reads_prompt prompt?

theorem adds_bool (name : String) (hname : IsBareKey name) (b? : Option Bool) :
    Adds (optionalAssignment name boolText b?) (optionalStatement name (b?.map .bool)) := by
  have hbegins : ∀ b, ∀ c ∈ (boolText b).head?, isSpace c = false := by
    rintro (- | -) c ⟨⟩ <;> rfl
  exact adds_optionalAssignment hname hbegins (fun b rest ↦ reads_boolText b _) b?

theorem adds_dialects (dialects? : Option (List Dialect)) :
    Adds (optionalAssignment "dialects" dialectsText dialects?)
      (optionalStatement "dialects" (dialects?.map dialectsToml)) := by
  have hbegins : ∀ ds, ∀ c ∈ (dialectsText ds).head?, isSpace c = false := by
    rintro (- | ⟨d, - | ⟨d', ds⟩⟩) c ⟨⟩ <;> rfl
  have hread : ∀ ds rest, Reads (valueNested maxNesting) (dialectsText ds) (dialectsToml ds)
      ('\n' :: rest) := fun ds rest ↦ reads_dialectsText ds _
  exact adds_optionalAssignment (by decide) hbegins hread dialects?

theorem adds_text (s : Settings) : Adds s.text.toList s.statements := by
  have hrender : Adds "\n[render]\n".toList [.table [] "render"] :=
    adds_header (by decide) (by decide)
  have houtput : Adds "\n[output]\n".toList [.table [] "output"] :=
    adds_header (by decide) (by decide)
  have hoptimize := adds_bool "optimize" (by decide) s.optimize?
  have hcollapse := adds_bool "collapse_duplicates" (by decide) s.collapse?
  have hcolor := adds_bool "color" (by decide) s.color?
  rw [text, String.toList_ofList]
  exact ((((((adds_version.append (adds_prompt s.prompt?)).append hrender).append
    hoptimize).append hcollapse).append (adds_dialects s.dialects?)).append houtput).append hcolor

/-- Settings that are written are read back. -/
theorem read?_text (s : Settings) : read? s.text = some s := by
  have hmark : ∀ c ∈ s.text.toList.head?, c ≠ '\ufeff' := by
    rw [text, String.toList_ofList]
    simp [assignment]
  rw [read?, Toml.read?, whole_document s.adds_text hmark, Option.bind_some, ofEntries?_statements]

/-! ### The file that explains the settings -/

/-- A line of a comment, or an empty one. -/
def isSilent (line : List Char) : Bool :=
  match line with
  | [] => true
  | c :: text => c == '#' && text.all isPlain

theorem adds_silent {line : List Char} (h : isSilent line = true) : Adds (line ++ ['\n']) [] := by
  cases line with
  | nil => exact adds_line reads_line_blank (by simp)
  | cons c text =>
    rw [isSilent, Bool.and_eq_true, beq_iff_eq, List.all_eq_true] at h
    obtain ⟨rfl, hplain⟩ := h
    exact adds_line (reads_line_comment hplain) (by simp)

/-- What a line of the file says. -/
def lineStatements (line : String) : List Statement :=
  if line = "version = 1" then [.assignment [] "version" (.integer version)]
  else if line = "[render]" then [.table [] "render"]
  else if line = "[output]" then [.table [] "output"]
  else []

/-- Every line of the file is one of three that say something, or silent. A literal is compared with
the text of its characters, since to read the characters off the literal is slow. -/
theorem templateLine_cases {line : String} (h : line ∈ templateLines) :
    line = "version = 1" ∨ line = "[render]" ∨ line = "[output]" ∨
      ∃ cs, line = String.ofList cs ∧ isSilent cs = true := by
  have hsilent : ∀ {line cs}, line = String.ofList cs → isSilent cs = true →
      line = "version = 1" ∨ line = "[render]" ∨ line = "[output]" ∨
        ∃ cs, line = String.ofList cs ∧ isSilent cs = true :=
    fun hline hcs ↦ .inr (.inr (.inr ⟨_, hline, hcs⟩))
  simp only [templateLines, List.mem_cons, List.not_mem_nil, or_false] at h
  rcases h with rfl | rfl | rfl | rfl | rfl | rfl | rfl | rfl | rfl | rfl | rfl | rfl | rfl | rfl |
    rfl
  iterate 3 exact hsilent rfl (by decide +kernel)
  · exact .inl rfl
  iterate 4 exact hsilent rfl (by decide +kernel)
  · exact .inr (.inl rfl)
  iterate 4 exact hsilent rfl (by decide +kernel)
  · exact .inr (.inr (.inl rfl))
  · exact hsilent rfl (by decide +kernel)

theorem adds_templateLine {line : String} (h : line ∈ templateLines) :
    Adds (line.toList ++ ['\n']) (lineStatements line) := by
  unfold lineStatements
  split
  · next hversion =>
    have htext : "version = 1".toList ++ ['\n'] =
        assignment "version" (Numeral.digits version) := by decide +kernel
    rw [hversion, htext]
    exact adds_version
  split
  · next hrender =>
    have htext : "[render]".toList ++ ['\n'] = '[' :: "render".toList ++ [']', '\n'] := by decide
    rw [hrender, htext]
    exact adds_line (reads_line_header (by decide)) (by simp)
  split
  · next houtput =>
    have htext : "[output]".toList ++ ['\n'] = '[' :: "output".toList ++ [']', '\n'] := by decide
    rw [houtput, htext]
    exact adds_line (reads_line_header (by decide)) (by simp)
  · next hversion hrender houtput =>
    have hcases := templateLine_cases h
    simp only [hversion, hrender, houtput, false_or] at hcases
    obtain ⟨cs, rfl, hsilent⟩ := hcases
    rw [String.toList_ofList]
    exact adds_silent hsilent

theorem adds_lines {lines : List String} {said : String → List Statement}
    (h : ∀ line ∈ lines, Adds (line.toList ++ ['\n']) (said line)) :
    Adds (lines.foldr (fun line rest ↦ line ++ "\n" ++ rest) "").toList (lines.flatMap said) := by
  induction lines with
  | nil => exact adds_nil
  | cons line lines ih =>
    obtain ⟨hline, hlines⟩ := List.forall_mem_cons.mp h
    have hboth := hline.append (ih hlines)
    simpa using hboth

theorem adds_template : Adds template.toList unset.statements :=
  adds_lines fun _ hline ↦ adds_templateLine hline

theorem read?_template : read? template = some unset := by
  have hfirst : template.toList.head? = some '#' := by
    rw [template, templateLines, List.foldr_cons, String.toList_append, String.toList_append,
      List.head?_append, List.head?_append, String.toList_ofList, List.head?_cons, Option.some_or,
      Option.some_or]
  have hmark : ∀ c ∈ template.toList.head?, c ≠ '\ufeff' := by
    rw [hfirst]
    rintro c ⟨⟩
    decide
  rw [read?, Toml.read?, whole_document adds_template hmark, Option.bind_some,
    ofEntries?_statements]

end PropertyFilter.Settings
