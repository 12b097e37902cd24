import PropertyFilter.Proofs.Toml.Quoted

/-!
# Reading lines of TOML documents

What stands in the lines that settings are written in is read as it was meant: truth values, whole
numbers of one digit and lists of strings on one line or on several (`reads_array_one`,
`reads_array_lines`), assignments to keys, headers of tables and comments. `Adds own statements`
says that lines add their statements to those of any lines after them, so that a document is read
line by line (`whole_document`).
-/

set_option autoImplicit false

namespace PropertyFilter.Toml

open Text Text.Reader

/-! ### Between values -/

/-- The text does not begin with a blank, a line end or a comment. -/
def BeginsThing (cs : List Char) : Prop :=
  ∀ c ∈ cs.head?, isSpace c = false ∧ c ≠ '\n' ∧ c ≠ '\r' ∧ c ≠ '#'

theorem reads_spaces {own rest : List Char} (hown : ∀ c ∈ own, isSpace c = true)
    (hrest : ∀ c ∈ rest.head?, isSpace c = false) : Reads spaces own () rest :=
  (reads_takeWhile hown hrest).bind_nil (reads_pure _ _)

/-- What stands between the items of an array is read up to where something begins. -/
theorem reads_gap {own rest : List Char} (hown : ∀ c ∈ own, isSpace c = true ∨ c = '\n')
    (hrest : BeginsThing rest) : Reads gap own () rest := by
  have hchars : ∀ c ∈ own, ∀ rest, True →
      Reads (firstOf [discard (charWhere isSpace), newline, comment]) [c] () rest := by
    intro c hc rest _
    by_cases hspace : isSpace c = true
    · exact ((reads_charWhere hspace rest).map _).firstOf_head
    · obtain rfl := (hown c hc).resolve_left hspace
      have hblank : Refuses (discard (charWhere isSpace)) ('\n' :: rest) :=
        (refuses_charWhere (by simp [isSpace])).map _
      have hnewline : Reads newline ['\n'] () rest := (reads_exactly ['\n'] rest).orElse_left
      exact .firstOf_tail hblank hnewline.firstOf_head
  have hend : Refuses (firstOf [discard (charWhere isSpace), newline, comment]) rest := by
    refine refuses_firstOf fun r hr ↦ ?_
    simp only [List.mem_cons, List.not_mem_nil, or_false] at hr
    rcases hr with rfl | rfl | rfl
    · exact (refuses_charWhere fun c hc ↦ (hrest c hc).1).map _
    · exact refuses_newline fun c hc ↦ ⟨(hrest c hc).2.1, (hrest c hc).2.2.1⟩
    · exact (refuses_char fun c hc ↦ (hrest c hc).2.2.2).bind
  have hflat := Reads.many_flatMap (fun c ↦ [c]) (fun _ ↦ ()) (fun _ ↦ True)
    (fun _ _ ↦ List.cons_ne_nil _ _) (fun _ _ _ ↦ trivial) hchars trivial hend
  rw [List.flatMap_singleton'] at hflat
  exact hflat.bind_nil (reads_pure _ rest)

theorem reads_lineEnd (rest : List Char) : Reads lineEnd ['\n'] () rest := by
  have hspaces : Reads spaces [] () ('\n' :: rest) := reads_spaces (by simp) (by simp [isSpace])
  have hcomment : Refuses comment ('\n' :: rest) := (refuses_char (by simp)).bind
  have hnotEnd : Reads atEnd [] false ('\n' :: rest) := (reads_ahead _).map _
  have hnewline : Reads newline ['\n'] () rest := (reads_exactly ['\n'] rest).orElse_left
  refine hspaces.nil_bind (hcomment.reads_optional.nil_bind (hnotEnd.nil_bind ?_))
  rwa [if_neg Bool.false_ne_true]

/-! ### Values -/

theorem refuses_anyString {cs : List Char} (h : ∀ c ∈ cs.head?, c ≠ '"' ∧ c ≠ '\x27') :
    Refuses anyString cs := by
  refine refuses_firstOf fun r hr ↦ ?_
  simp only [List.mem_cons, List.not_mem_nil, or_false] at hr
  rcases hr with rfl | rfl | rfl | rfl
  · exact (refuses_exactly_cons fun c hc ↦ (h c hc).1).bind
  · exact (refuses_char fun c hc ↦ (h c hc).1).bind
  · exact (refuses_exactly_cons fun c hc ↦ (h c hc).2).bind
  · exact (refuses_char fun c hc ↦ (h c hc).2).bind

theorem reads_valueNested {own rest : List Char} {v : Toml} (h : Reads scalar own v rest)
    (budget : Nat) : Reads (valueNested budget) own v rest := by
  cases budget with
  | zero => exact h
  | succ budget => exact h.firstOf_head

theorem reads_string {own rest : List Char} {s : String} (h : Reads anyString own s rest) :
    Reads scalar own (string s) rest :=
  (h.map string).firstOf_head

theorem reads_true (rest : List Char) : Reads scalar "true".toList (bool true) rest := by
  have hstring : Refuses anyString ("true".toList ++ rest) := refuses_anyString (by simp)
  have hword : Reads (exactly "true".toList *> pure (bool true)) "true".toList (bool true) rest :=
    (reads_exactly _ rest).bind_nil (reads_pure _ rest)
  exact .firstOf_tail (hstring.map _) hword.firstOf_head

theorem reads_false (rest : List Char) : Reads scalar "false".toList (bool false) rest := by
  have hstring : Refuses anyString ("false".toList ++ rest) := refuses_anyString (by simp)
  have htrue : Refuses (exactly "true".toList) ("false".toList ++ rest) := refuses_exactly rfl
  have hword : Reads (exactly "false".toList *> pure (bool false)) "false".toList (bool false)
      rest := (reads_exactly _ rest).bind_nil (reads_pure _ rest)
  exact .firstOf_tail (hstring.map _) (.firstOf_tail htrue.bind hword.firstOf_head)

/-! ### Numbers of one digit -/

section digit

variable {c : Char} {rest : List Char}

theorem reads_sign (h : ∀ d ∈ rest.head?, d ≠ '+' ∧ d ≠ '-') : Reads sign [] false rest := by
  have hsign : Refuses (charWhere fun d ↦ d == '+' || d == '-') rest :=
    refuses_charWhere fun d hd ↦ by simp [h d hd]
  exact hsign.reads_optional.nil_bind (reads_pure _ _)

/-- A digit that no digit follows is a whole number. -/
theorem reads_wholeDigits (hc : c.isDigit = true) (hzero : c ≠ '0')
    (hrest : ∀ d ∈ rest.head?, d.isDigit = false ∧ d ≠ '_') :
    Reads wholeDigits [c] [c] rest := by
  have hmore : Refuses (orElse (charWhere Char.isDigit) (do
      let _ ← char '_'
      charWhere Char.isDigit)) rest :=
    (refuses_charWhere fun d hd ↦ (hrest d hd).1).orElse
      (refuses_char fun d hd ↦ (hrest d hd).2).bind
  refine (reads_ahead _).nil_bind ?_
  rw [if_neg (by simpa using hzero)]
  exact (reads_charWhere hc _).bind_nil ((reads_many_nil hmore).nil_bind (reads_pure _ _))

/-- Dates and times begin with two digits. -/
theorem refuses_pointInTime (hc : c.isDigit = true) (hrest : ∀ d ∈ rest.head?, d.isDigit = false) :
    Refuses pointInTime (c :: rest) := by
  have htwo : ∀ bound, Refuses (twoDigits bound) (c :: rest) := fun bound ↦
    (reads_charWhere hc rest).refuses_bind (refuses_charWhere hrest).bind
  exact ((htwo 100).bind.bind.orElse (htwo 24).bind).bind

/-- A number without a fraction and an exponent is no floating-point number. -/
theorem refuses_finiteFloat {own ds : List Char} {negative : Bool}
    (hsign : Reads sign [] negative (own ++ rest)) (hdigits : Reads wholeDigits own ds rest)
    (hrest : ∀ d ∈ rest.head?, d ≠ '.' ∧ d ≠ 'e' ∧ d ≠ 'E') :
    Refuses finiteFloat (own ++ rest) := by
  have hfraction : Refuses (char '.' *> digitRun Char.isDigit) rest :=
    (refuses_char fun d hd ↦ (hrest d hd).1).bind
  have hpower : Refuses exponent rest :=
    (refuses_charWhere fun d hd ↦ by simp [hrest d hd]).bind
  exact hsign.refuses_bind (hdigits.refuses_bind (hfraction.reads_optional.refuses_bind
    (hpower.reads_optional.refuses_bind (refuses_refuse rest))))

end digit

/-- The number one is no other value, if the line ends after it. -/
theorem reads_one (rest : List Char) : Reads scalar ['1'] (integer 1) ('\n' :: rest) := by
  have hstring : Refuses anyString ('1' :: '\n' :: rest) := refuses_anyString (by simp)
  have htrue : Refuses (exactly "true".toList) ('1' :: '\n' :: rest) := refuses_exactly rfl
  have hfalse : Refuses (exactly "false".toList) ('1' :: '\n' :: rest) := refuses_exactly rfl
  have hmoment : Refuses pointInTime ('1' :: '\n' :: rest) :=
    refuses_pointInTime (by decide) (by simp)
  have hsign : Reads sign [] false (['1'] ++ '\n' :: rest) := reads_sign (by simp)
  have hdigits : Reads wholeDigits ['1'] ['1'] ('\n' :: rest) :=
    reads_wholeDigits (by decide) (by decide) (by simp)
  have hfloat : Refuses finiteFloat ('1' :: '\n' :: rest) :=
    refuses_finiteFloat hsign hdigits (by simp)
  have hspecial : Refuses specialFloat ('1' :: '\n' :: rest) :=
    hsign.refuses_bind ((refuses_exactly rfl).orElse (refuses_exactly rfl)).bind
  have hbase : ∀ letter base, Refuses (integerToBase letter base) ('1' :: '\n' :: rest) :=
    fun letter base ↦ (refuses_exactly rfl).bind
  have hinteger : Reads decimalInteger ['1'] (integer 1) ('\n' :: rest) :=
    hsign.nil_bind (hdigits.bind_nil (reads_pure _ _))
  exact .firstOf_tail (hstring.map _) (.firstOf_tail htrue.bind (.firstOf_tail hfalse.bind
    (.firstOf_tail hmoment (.firstOf_tail hfloat (.firstOf_tail hspecial
      (.firstOf_tail (hbase 'x' 16) (.firstOf_tail (hbase 'o' 8) (.firstOf_tail (hbase 'b' 2)
        hinteger.firstOf_head))))))))

/-! ### Arrays -/

/-- No string, no number and no other value of one part begins with a bracket. -/
theorem refuses_scalar_openBracket (cs : List Char) : Refuses scalar ('[' :: cs) := rfl

theorem refuses_scalar_closeBracket (cs : List Char) : Refuses scalar (']' :: cs) := rfl

theorem refuses_valueNested_closeBracket (budget : Nat) (cs : List Char) :
    Refuses (valueNested budget) (']' :: cs) := by
  have hscalar := refuses_scalar_closeBracket cs
  cases budget with
  | zero => exact hscalar
  | succ budget =>
    exact hscalar.orElse ((refuses_char (by simp)).bind.orElse
      ((refuses_char (by simp)).bind.orElse (refuses_refuse _)))

/-- An item of an array with what stands around it. -/
def item (inner : Reader Toml) : Reader Toml := do
  gap
  let v ← inner
  gap
  return v

section arrays

variable {inner : Reader Toml} {own rest : List Char} {v : Toml}

theorem reads_item (before : List Char) (hbefore : ∀ c ∈ before, isSpace c = true ∨ c = '\n')
    (hown : BeginsThing (own ++ rest)) (h : Reads inner own v rest) (hrest : BeginsThing rest) :
    Reads (item inner) (before ++ own) v rest :=
  (reads_gap hbefore hown).bind
    (h.bind_nil ((reads_gap (by simp) hrest).nil_bind (reads_pure v rest)))

theorem refuses_item (before : List Char) (hbefore : ∀ c ∈ before, isSpace c = true ∨ c = '\n')
    {cs : List Char} (hcs : BeginsThing cs) (h : Refuses inner cs) :
    Refuses (item inner) (before ++ cs) :=
  (reads_gap hbefore hcs).refuses_bind h.bind

theorem beginsThing_cons {c : Char} {cs : List Char}
    (h : isSpace c = false ∧ c ≠ '\n' ∧ c ≠ '\r' ∧ c ≠ '#') : BeginsThing (c :: cs) := by
  simpa [BeginsThing] using h

theorem reads_closing (before : List Char) (hbefore : ∀ c ∈ before, isSpace c = true ∨ c = '\n')
    (items : List Toml) (rest : List Char) :
    Reads (do
      gap
      let _ ← char ']'
      return array items) (before ++ [']']) (array items) rest := by
  have hbegins : BeginsThing (']' :: rest) := beginsThing_cons (by decide)
  exact (reads_gap hbefore hbegins).bind ((reads_char ']' rest).bind_nil (reads_pure _ rest))

theorem reads_array_nil (hclose : ∀ cs, Refuses inner (']' :: cs)) (rest : List Char) :
    Reads (arrayOf inner) ['[', ']'] (array []) rest := by
  have hbegins : ∀ cs, BeginsThing (']' :: cs) := fun cs ↦ beginsThing_cons (by decide)
  have hitems : Refuses (separated (item inner) (char ',')) (']' :: rest) :=
    (refuses_item [] (by simp) (hbegins rest) (hclose rest)).separated
  refine (reads_char '[' _).bind (hitems.reads_optional.nil_bind ?_)
  exact reads_closing [] (by simp) [] rest

/-- A list of one item on the line that it begins on. -/
theorem reads_array_one (hbegins : ∀ rest, BeginsThing (own ++ rest))
    (h : ∀ rest, Reads inner own v (']' :: rest)) (rest : List Char) :
    Reads (arrayOf inner) ('[' :: (own ++ [']'])) (array [v]) rest := by
  have hitem : Reads (item inner) own v (']' :: rest) :=
    reads_item [] (by simp) (hbegins _) (h rest) (beginsThing_cons (by decide))
  have hmore : Refuses (char ',' >>= fun _ ↦ item inner) (']' :: rest) :=
    (refuses_char (by simp)).bind
  have hitems : Reads (separated (item inner) (char ',')) own [v] (']' :: rest) :=
    hitem.bind_nil ((reads_many_nil hmore).nil_bind (reads_pure _ _))
  have hcomma : Refuses (char ',') (']' :: rest) := refuses_char (by simp)
  refine (reads_char '[' _).bind (hitems.optional.bind ?_)
  exact hcomma.reads_optional.nil_bind (reads_closing [] (by simp) [v] rest)

theorem flatMap_comma {γ : Type} (write : γ → List Char) (things : List γ) :
    ',' :: things.flatMap (fun thing ↦ write thing ++ [',']) =
      things.flatMap (fun thing ↦ ',' :: write thing) ++ [','] := by
  induction things with
  | nil => rfl
  | cons thing things ih =>
    rw [List.flatMap_cons, List.flatMap_cons, List.append_assoc, List.singleton_append, ih]
    simp

/-- A list of items on lines of their own, each with blanks before it and a comma after it. -/
theorem reads_array_lines {γ : Type} (write : γ → List Char) (value : γ → Toml)
    {before : List Char} (hbefore : ∀ c ∈ before, isSpace c = true ∨ c = '\n')
    {thing : γ} {things : List γ}
    (h : ∀ thing, ∀ rest, Reads inner (write thing) (value thing) (',' :: rest))
    (hbegins : ∀ thing rest, BeginsThing (write thing ++ rest))
    (hclose : ∀ cs, Refuses inner (']' :: cs)) (rest : List Char) :
    Reads (arrayOf inner)
      ('[' :: ((thing :: things).flatMap (fun thing ↦ before ++ write thing ++ [',']) ++
        ['\n', ']']))
      (array ((thing :: things).map value)) rest := by
  have hcomma : ∀ cs, BeginsThing (',' :: cs) := fun cs ↦ beginsThing_cons (by decide)
  have hitem : ∀ thing, ∀ cs, cs.head? = some ',' →
      Reads (item inner) (before ++ write thing) (value thing) cs := by
    intro thing cs hcs
    obtain ⟨cs, rfl⟩ := List.head?_eq_some_iff.mp hcs
    exact reads_item before hbefore (hbegins thing _) (h thing cs) (hcomma cs)
  have hend : Refuses (char ',' >>= fun _ ↦ item inner) (',' :: '\n' :: ']' :: rest) :=
    (reads_char ',' _).refuses_bind
      (refuses_item ['\n'] (by simp) (beginsThing_cons (by decide)) (hclose rest))
  have hmore : Reads (many (char ',' >>= fun _ ↦ item inner))
      (things.flatMap fun thing ↦ ',' :: (before ++ write thing)) (things.map value)
      (',' :: '\n' :: ']' :: rest) :=
    Reads.many_flatMap _ value (fun cs ↦ cs.head? = some ',') (fun _ _ ↦ List.cons_ne_nil _ _)
      (fun _ _ _ ↦ rfl) (fun other _ cs hcs ↦ (reads_char ',' _).bind (hitem other cs hcs)) rfl hend
  have hfirst : ((things.flatMap fun thing ↦ ',' :: (before ++ write thing)) ++
      ',' :: '\n' :: ']' :: rest).head? = some ',' := by
    cases things <;> rfl
  have hitems : Reads (separated (item inner) (char ','))
      (before ++ write thing ++ things.flatMap fun thing ↦ ',' :: (before ++ write thing))
      ((thing :: things).map value) (',' :: '\n' :: ']' :: rest) :=
    (hitem thing _ hfirst).separated hmore
  have htext : '[' :: ((thing :: things).flatMap (fun thing ↦ before ++ write thing ++ [',']) ++
      ['\n', ']']) = ['['] ++ (before ++ write thing ++
        (things.flatMap fun thing ↦ ',' :: (before ++ write thing)) ++ ([','] ++ ['\n', ']'])) := by
    have hcommas := flatMap_comma (fun thing ↦ before ++ write thing) things
    rw [List.flatMap_cons, List.append_assoc (before ++ write thing), List.singleton_append,
      hcommas]
    simp only [List.append_assoc, List.singleton_append]
  rw [htext]
  exact (reads_char '[' _).bind (hitems.optional.bind ((reads_char ',' _).optional.bind
    (reads_closing ['\n'] (by simp) _ rest)))

end arrays

/-! ### Keys -/

/-- A name that is written as a key without quotes. -/
def IsBareKey (name : String) : Prop :=
  name.toList ≠ [] ∧ name.toList.all isBareKeyChar = true

instance (name : String) : Decidable (IsBareKey name) :=
  inferInstanceAs (Decidable (_ ∧ name.toList.all isBareKeyChar = true))

theorem isSpace_cases {c : Char} (h : isSpace c = true) : c = ' ' ∨ c = '\t' := by
  simpa [isSpace] using h

theorem isBareKeyChar_of_isSpace {c : Char} (h : isSpace c = true) : isBareKeyChar c = false := by
  rcases isSpace_cases h with rfl | rfl <;> decide

theorem isSpace_of_isBareKeyChar {c : Char} (h : isBareKeyChar c = true) : isSpace c = false := by
  rw [← Bool.not_eq_true]
  intro hspace
  rw [isBareKeyChar_of_isSpace hspace] at h
  cases h

theorem ne_of_isBareKeyChar {c d : Char} (h : isBareKeyChar c = true)
    (hd : isBareKeyChar d = false) : c ≠ d := by
  rintro rfl
  rw [hd] at h
  cases h

section lines

variable {name : String} {rest : List Char}

theorem IsBareKey.of_mem (h : IsBareKey name) {c : Char} (hc : c ∈ name.toList) :
    isBareKeyChar c = true :=
  List.all_eq_true.mp h.2 c hc

theorem IsBareKey.head {P : Char → Prop} (h : IsBareKey name)
    (hP : ∀ c, isBareKeyChar c = true → P c) (more : List Char) :
    ∀ c ∈ (name.toList ++ more).head?, P c := by
  obtain ⟨c, cs, hname⟩ := List.exists_cons_of_ne_nil h.1
  rw [hname]
  rintro _ ⟨⟩
  exact hP c (h.of_mem (by simp [hname]))

theorem IsBareKey.refuses_char (h : IsBareKey name) {c : Char} (hc : isBareKeyChar c = false)
    (more : List Char) : Refuses (char c) (name.toList ++ more) :=
  Reader.refuses_char (h.head (fun _ hd ↦ ne_of_isBareKeyChar hd hc) more)

theorem reads_bareKey (h : IsBareKey name) (hrest : ∀ c ∈ rest.head?, isBareKeyChar c = false) :
    Reads bareKey name.toList name rest := by
  obtain ⟨c, cs, hname⟩ := List.exists_cons_of_ne_nil h.1
  have hchars : ∀ c ∈ name.toList, isBareKeyChar c = true := fun c hc ↦ h.of_mem hc
  rw [hname] at hchars
  obtain ⟨hc, hcs⟩ := List.forall_mem_cons.mp hchars
  have hread : Reads bareKey (c :: cs) (String.ofList (c :: cs)) rest :=
    (reads_charWhere hc _).bind ((reads_takeWhile hcs hrest).bind_nil (reads_pure _ rest))
  rwa [← hname, String.ofList_toList] at hread

/-- A key of one part is read with the blanks after it, up to where it is closed. -/
theorem reads_key (h : IsBareKey name) {after : List Char} (hafter : ∀ c ∈ after, isSpace c = true)
    (hrest : ∀ c ∈ rest.head?, isSpace c = false ∧ isBareKeyChar c = false ∧ c ≠ '.') :
    Reads key (name.toList ++ after) ([], name) rest := by
  have hclosed : ∀ c ∈ (after ++ rest).head?, isBareKeyChar c = false := by
    cases after with
    | nil => exact fun c hc ↦ (hrest c hc).2.1
    | cons c cs => simpa using isBareKeyChar_of_isSpace (hafter c List.mem_cons_self)
  have hbefore : Reads spaces [] () (name.toList ++ after ++ rest) := by
    rw [List.append_assoc]
    exact reads_spaces (by simp) (h.head (fun _ hc ↦ isSpace_of_isBareKeyChar hc) _)
  have hbasic : Refuses basicString (name.toList ++ (after ++ rest)) :=
    (h.refuses_char (by decide) _).bind
  have hliteral : Refuses literalString (name.toList ++ (after ++ rest)) :=
    (h.refuses_char (by decide) _).bind
  have hpart : Reads (firstOf [basicString, literalString, bareKey]) name.toList name
      (after ++ rest) :=
    .firstOf_tail hbasic (.firstOf_tail hliteral (reads_bareKey h hclosed).firstOf_head)
  have hspaces : Reads spaces after () rest := reads_spaces hafter fun c hc ↦ (hrest c hc).1
  have hone : Reads (do
      spaces
      let part ← firstOf [basicString, literalString, bareKey]
      spaces
      return part) (name.toList ++ after) name rest :=
    hbefore.nil_bind (hpart.bind (hspaces.map fun _ ↦ name))
  have hpoint : Refuses (char '.') rest := refuses_char fun c hc ↦ (hrest c hc).2.2
  have hparts := Reads.separated hone (reads_many_nil hpoint.bind)
  rw [List.append_nil] at hparts
  exact hparts.bind_nil (reads_pure _ rest)

/-! ### Lines -/

theorem reads_line_blank (rest : List Char) : Reads line ['\n'] none rest := by
  have hspaces : Reads spaces [] () ('\n' :: rest) := reads_spaces (by simp) (by simp [isSpace])
  have hcomment : Refuses comment ('\n' :: rest) := (refuses_char (by simp)).bind
  have hnewline : Reads newline ['\n'] () rest := (reads_exactly ['\n'] rest).orElse_left
  exact hspaces.nil_bind (.firstOf_tail hcomment.bind (hnewline.map fun _ ↦ none).firstOf_head)

theorem reads_line_comment {text : List Char} (h : ∀ c ∈ text, isPlain c = true)
    (rest : List Char) : Reads line ('#' :: text ++ ['\n']) none rest := by
  have hspaces : Reads spaces [] () ('#' :: text ++ ['\n'] ++ rest) :=
    reads_spaces (by simp) (by simp [isSpace])
  have hplain : Reads (Reader.takeWhile isPlain) text text ('\n' :: rest) :=
    reads_takeWhile h (by simp [isPlain])
  have hcomment : Reads comment ('#' :: text) () ('\n' :: rest) :=
    (reads_char '#' _).bind (hplain.bind_nil (reads_pure _ _))
  have hline : Reads (do
      comment
      lineEnd
      return none) ('#' :: text ++ ['\n']) (none : Option Statement) rest :=
    hcomment.bind ((reads_lineEnd rest).map fun _ ↦ none)
  exact hspaces.nil_bind hline.firstOf_head

/-- A line that begins a table, without the blanks before it. -/
def headerLine : Reader (Option Statement) := do
  let _ ← char '['
  let (path, last) ← key
  let _ ← char ']'
  lineEnd
  return some (.table path last)

theorem reads_line_header (h : IsBareKey name) (rest : List Char) :
    Reads line ('[' :: name.toList ++ [']', '\n']) (some (.table [] name)) rest := by
  have hspaces : Reads spaces [] () ('[' :: name.toList ++ [']', '\n'] ++ rest) :=
    reads_spaces (by simp) (by simp [isSpace])
  have hcomment : Refuses comment ('[' :: name.toList ++ [']', '\n'] ++ rest) :=
    (refuses_char (by simp)).bind
  have hnewline : Refuses newline ('[' :: name.toList ++ [']', '\n'] ++ rest) :=
    refuses_newline (by simp)
  have hfurther : Refuses (exactly ['[', '[']) ('[' :: name.toList ++ [']', '\n'] ++ rest) := by
    obtain ⟨c, cs, hname⟩ := List.exists_cons_of_ne_nil h.1
    have hc : c ≠ '[' := ne_of_isBareKeyChar (h.of_mem (by simp [hname])) (by decide)
    exact refuses_exactly (by simp [hname, List.isPrefixOf, Ne.symm hc])
  have hkey : Reads key (name.toList ++ []) ([], name) (']' :: '\n' :: rest) :=
    reads_key h (by simp) (by simp; decide)
  rw [List.append_nil] at hkey
  have hline : Reads headerLine ('[' :: name.toList ++ [']', '\n']) (some (.table [] name)) rest :=
    (reads_char '[' _).bind (hkey.bind ((reads_char ']' _).bind ((reads_lineEnd rest).map _)))
  exact hspaces.nil_bind (.firstOf_tail hcomment.bind (.firstOf_tail hnewline.bind
    (.firstOf_tail hfurther.bind hline.firstOf_head)))

/-- A line that assigns a value, without the blanks before it. -/
def assignmentLine : Reader (Option Statement) := do
  let (path, last) ← key
  let _ ← char '='
  spaces
  let v ← valueNested maxNesting
  lineEnd
  return some (.assignment path last v)

/-- A line that begins with a key assigns a value. -/
theorem IsBareKey.reads_line (h : IsBareKey name) {own more : List Char}
    {statement? : Option Statement} (hown : own ++ rest = name.toList ++ more)
    (hread : Reads assignmentLine own statement? rest) : Reads line own statement? rest := by
  have hspaces : Reads spaces [] () (own ++ rest) :=
    reads_spaces (by simp) (hown ▸ h.head (fun _ hc ↦ isSpace_of_isBareKeyChar hc) more)
  have hcomment : Refuses comment (own ++ rest) := hown ▸ (h.refuses_char (by decide) more).bind
  have hnewline : Refuses newline (own ++ rest) :=
    hown ▸ refuses_newline (h.head (fun _ hc ↦
      ⟨ne_of_isBareKeyChar hc (by decide), ne_of_isBareKeyChar hc (by decide)⟩) more)
  have hfurther : Refuses (exactly ['[', '[']) (own ++ rest) :=
    hown ▸ refuses_exactly_cons (h.head (fun _ hc ↦ ne_of_isBareKeyChar hc (by decide)) more)
  have hopen : Refuses (char '[') (own ++ rest) := hown ▸ h.refuses_char (by decide) more
  exact hspaces.nil_bind (.firstOf_tail hcomment.bind (.firstOf_tail hnewline.bind
    (.firstOf_tail hfurther.bind (.firstOf_tail hopen.bind hread.firstOf_head))))

/-- An assignment of what is read as a value, where no blank begins it. -/
theorem reads_line_assignment (h : IsBareKey name) {own : List Char} {v : Toml}
    (hown : ∀ c ∈ (own ++ '\n' :: rest).head?, isSpace c = false)
    (hvalue : Reads (valueNested maxNesting) own v ('\n' :: rest)) :
    Reads line (name.toList ++ " = ".toList ++ own ++ ['\n']) (some (.assignment [] name v))
      rest := by
  have htext : name.toList ++ " = ".toList ++ own ++ ['\n'] =
      name.toList ++ [' '] ++ (['='] ++ ([' '] ++ (own ++ ['\n']))) := by simp
  have hkey : Reads key (name.toList ++ [' ']) ([], name)
      ('=' :: ([' '] ++ (own ++ ['\n']) ++ rest)) :=
    reads_key h (by simp [isSpace]) (by simp; decide)
  have hblank : Reads spaces [' '] () (own ++ ['\n'] ++ rest) := by
    rw [List.append_assoc]
    exact reads_spaces (by simp [isSpace]) hown
  have hline : Reads assignmentLine (name.toList ++ [' '] ++ (['='] ++ ([' '] ++ (own ++ ['\n']))))
      (some (.assignment [] name v)) rest :=
    hkey.bind ((reads_char '=' _).bind (hblank.bind (hvalue.bind ((reads_lineEnd rest).map _))))
  rw [htext]
  refine h.reads_line (?_ : _ = name.toList ++ ([' '] ++ (['='] ++ ([' '] ++ (own ++ ['\n']))) ++
    rest)) hline
  simp only [List.append_assoc]

end lines

/-! ### Documents -/

/-- Lines put their statements in front of those of any lines after them. -/
def Adds (own : List Char) (statements : List Statement) : Prop :=
  ∀ cs more, Reads (many line) cs more [] → ∃ all, Reads (many line) (own ++ cs) all [] ∧
    all.filterMap id = statements ++ more.filterMap id

theorem adds_nil : Adds [] [] := fun _ more hcs ↦ ⟨more, hcs, rfl⟩

theorem adds_line {own : List Char} {statement? : Option Statement}
    (h : ∀ rest, Reads line own statement? rest) (hown : own ≠ []) :
    Adds own statement?.toList := by
  intro cs more hcs
  refine ⟨statement? :: more, (h _).many_cons hown hcs, ?_⟩
  cases statement? <;> rfl

theorem Adds.append {own own' : List Char} {statements statements' : List Statement}
    (h : Adds own statements) (h' : Adds own' statements') :
    Adds (own ++ own') (statements ++ statements') := by
  intro cs more hcs
  obtain ⟨all', hall', hstatements'⟩ := h' cs more hcs
  obtain ⟨all, hall, hstatements⟩ := h _ all' hall'
  rw [← List.append_assoc] at hall
  exact ⟨all, hall, by rw [hstatements, hstatements', List.append_assoc]⟩

/-- A document of lines says what they say. -/
theorem whole_document {own : List Char} {statements : List Statement} (h : Adds own statements)
    (hmark : ∀ c ∈ own.head?, c ≠ '\ufeff') : document.whole own = some statements := by
  obtain ⟨all, hall, hstatements⟩ := h [] [] reads_many_end
  rw [List.append_nil] at hall
  have hmark' : Refuses (char '\ufeff') (own ++ []) := by
    rw [List.append_nil]
    exact refuses_char hmark
  have hspaces : Reads spaces [] () [] := reads_spaces (by simp) (by simp)
  have hread : Reads document own (all.filterMap id) [] :=
    hmark'.reads_optional.nil_bind (hall.bind_nil (hspaces.nil_bind (reads_pure _ [])))
  rw [hread.whole, hstatements, List.filterMap_nil, List.append_nil]

end PropertyFilter.Toml
