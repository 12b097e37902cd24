import Mathlib.Algebra.Order.BigOperators.Group.List
import PropertyFilter.Proofs.DateTime
import PropertyFilter.Proofs.Filter.RoundTrip

/-!
# Filters for provisioning read back

The text that is rendered for provisioning is always parsed (`parse_query`), as a tree with the same
properties and connectives. Its tests may have changed: a test for any value becomes one for
presence, a choice of one value becomes an equality, an integer gets its narrowest representation,
and a point in time becomes the string of its text (`readBack`). Every filter without other choices
is rendered and comes back like that (`query_and_parse_readBack`).

Only the last change shows when the tree is rendered again. Points in time are quoted as they are,
but in a string a plus sign is escaped, so the second text is the first one exactly if no point in
time shows a plus sign (`query_parse_query_iff`); otherwise it is longer.
-/

set_option autoImplicit false

namespace PropertyFilter.Scim

open Expression

/-! ### What is rendered -/

/-- What follows the property, for a test that can be rendered. -/
def asked (t : Test) : List Char :=
  match predicate t with
  | .ok text => text
  | .error _ => []

/-- Every test but a choice between several values can be rendered. -/
def Rendered (t : Test) : Prop := predicate t = .ok (asked t)

/-- A filter is rendered if its tests are, and is then laid out. -/
theorem query_eq_ok_iff (f : Filter) (text : List Char) :
    query f = .ok text ↔ (∀ p ∈ f.tests, Rendered p.2) ∧ text = f.layout asked := by
  induction f generalizing text with
  | and a b iha ihb =>
    simp only [query, bind_eq_ok_iff, iha, ihb, Filter.tests, List.forall_mem_append, Filter.layout]
    constructor
    · rintro ⟨_, ⟨ha, rfl⟩, _, ⟨hb, rfl⟩, htext⟩
      exact ⟨⟨ha, hb⟩, (Except.ok.inj htext).symm⟩
    · rintro ⟨⟨ha, hb⟩, rfl⟩
      exact ⟨_, ⟨ha, rfl⟩, _, ⟨hb, rfl⟩, rfl⟩
  | or a b iha ihb =>
    simp only [query, bind_eq_ok_iff, iha, ihb, Filter.tests, List.forall_mem_append, Filter.layout]
    constructor
    · rintro ⟨_, ⟨ha, rfl⟩, _, ⟨hb, rfl⟩, htext⟩
      exact ⟨⟨ha, hb⟩, (Except.ok.inj htext).symm⟩
    · rintro ⟨⟨ha, hb⟩, rfl⟩
      exact ⟨_, ⟨ha, rfl⟩, _, ⟨hb, rfl⟩, rfl⟩
  | not a ih =>
    simp only [query, bind_eq_ok_iff, ih, Filter.tests, Filter.layout]
    constructor
    · rintro ⟨_, ⟨ha, rfl⟩, htext⟩
      exact ⟨ha, (Except.ok.inj htext).symm⟩
    · rintro ⟨ha, rfl⟩
      exact ⟨_, ⟨ha, rfl⟩, rfl⟩
  | test property t =>
    simp only [query, Filter.tests, List.forall_mem_singleton, Filter.layout]
    cases h : predicate t with
    | error count => simp [Rendered, h]
    | ok found =>
      have hasked : asked t = found := by rw [asked, h]
      simp [Rendered, h, hasked, eq_comm]

/-! ### What is read back -/

/-- The value that the literal of a value is read as. -/
def readBackValue : Value → Value
  | .bigInt i => Value.ofInt i
  | .dateTime t => .string (String.ofList t.text)
  | v => v

/-- The test that the text of a test is read as. -/
def readBack : Test → Test
  | .equals v => .equals (v.map readBackValue)
  | .differs none => .present
  | .differs (some v) => .differs (some (readBackValue v))
  | .ordered relation bound => .ordered relation (readBackValue bound)
  | .text test pattern => .text test pattern
  | .present => .present
  | .oneOf [v] => .equals (some (readBackValue v))
  | .oneOf vs => .oneOf vs

theorem plain_of_mem_text {t : DateTime} {c : Char} (h : c ∈ t.text) : c ≠ '"' ∧ c ≠ '\\' := by
  constructor
  · rintro rfl
    simpa using DateTime.mem_text h
  · rintro rfl
    simpa using DateTime.mem_text h

/-- The literal of a usable value is read back as one value. -/
theorem exists_scalar_literal {v : Value} (hv : v.isUsable = true) :
    ∃ l, Scalar l (some (readBackValue v)) ∧ Writes (literal v) [l] := by
  cases v with
  | bool b => exact PropertyFilter.exists_scalar_literal (v := .bool b) trivial
  | int i => exact PropertyFilter.exists_scalar_literal (v := .int i) trivial
  | bigInt i => exact ⟨_, .integer i, writes_of_scans fun _ ↦ Lexeme.scans_signedDigits i⟩
  | float x => exact PropertyFilter.exists_scalar_literal (v := .float x) hv
  | string s => exact ⟨_, .string s, writes_of_scans fun rest _ ↦ Lexeme.scans_scim_quoted s rest⟩
  | dateTime t =>
    refine ⟨_, .string _, writes_of_scans fun rest _ ↦ ?_⟩
    refine Lexeme.scans_string (Lexeme.scanBody_plain (fun c hc ↦ plain_of_mem_text hc) 1 rest) ?_
    rw [DateTime.shaped_text]
    exact fun h ↦ by cases h
  | uuid u => exact PropertyFilter.exists_scalar_literal (v := .uuid u) trivial

theorem not_rendered_oneOf {vs : List Value} (hvs : ∀ v, vs ≠ [v]) : ¬ Rendered (.oneOf vs) := by
  rw [Rendered, predicate]
  · simp
  · rintro v rfl
    exact hvs v rfl

/-- What is rendered of a test asks for the test that is read back. -/
theorem asksFor_asked {t : Test} (hrendered : Rendered t) (ht : t.WellFormed) :
    Filter.AsksFor (asked t) (readBack t) := by
  cases t with
  | equals v =>
    cases v with
    | none =>
      obtain ⟨l, hscalar, hwrites⟩ := exists_scalar_optionLiteral (v := none) (by simp)
      exact .equals hscalar hwrites
    | some v =>
      obtain ⟨l, hscalar, hwrites⟩ := exists_scalar_literal (ht v rfl)
      exact .equals hscalar hwrites
  | differs v =>
    cases v with
    | none => exact .present
    | some v =>
      obtain ⟨l, hscalar, hwrites⟩ := exists_scalar_literal (ht v rfl)
      exact .differs hscalar hwrites
  | ordered relation bound =>
    obtain ⟨l, hscalar, hwrites⟩ := exists_scalar_literal ht
    exact .ordered relation hscalar hwrites
  | text test pattern =>
    have hwrites : Writes (quoted pattern) [.string pattern] :=
      writes_of_scans fun rest _ ↦ Lexeme.scans_scim_quoted pattern rest
    exact .text test hwrites
  | present => exact .present
  | oneOf vs =>
    by_cases hone : ∃ v, vs = [v]
    · obtain ⟨v, rfl⟩ := hone
      obtain ⟨l, hscalar, hwrites⟩ := exists_scalar_literal (ht.2.1 v (by simp))
      exact .equals hscalar hwrites
    · exact absurd hrendered (not_rendered_oneOf fun v hv ↦ hone ⟨v, hv⟩)

theorem wellFormed_of_mem_tests {f : Filter} (hf : f.WellFormed) :
    ∀ p ∈ f.tests, p.2.WellFormed := by
  induction f with
  | and a b iha ihb =>
    rw [Filter.tests, List.forall_mem_append]
    exact ⟨iha hf.1, ihb hf.2⟩
  | or a b iha ihb =>
    rw [Filter.tests, List.forall_mem_append]
    exact ⟨iha hf.1, ihb hf.2⟩
  | not a ih => exact ih hf
  | test property t => simpa [Filter.tests] using hf.2

/-- The text of a filter is parsed as the filter with the tests that are read back. -/
theorem parse_query {f : Filter} (hnames : ∀ p ∈ f.tests, Lexeme.IsName p.1.toList)
    (hf : f.WellFormed) (hnesting : f.nesting ≤ 256) {text : List Char}
    (htext : query f = .ok text) :
    Filter.parse (String.ofList text) = .ok (f.mapTests readBack) := by
  obtain ⟨hrendered, rfl⟩ := (query_eq_ok_iff f text).mp htext
  exact Filter.parse_layout hnames
    (fun p hp ↦ asksFor_asked (hrendered p hp) (wellFormed_of_mem_tests hf p hp)) hnesting

/-- Only a choice between several values is not rendered. -/
theorem rendered_of_choices {t : Test} (hchoices : ∀ vs, t = .oneOf vs → ∃ v, vs = [v]) :
    Rendered t := by
  cases t with
  | equals v => cases v <;> rfl
  | differs v => cases v <;> rfl
  | ordered relation bound => rfl
  | text test pattern => rfl
  | present => rfl
  | oneOf vs =>
    obtain ⟨v, rfl⟩ := hchoices vs rfl
    rfl

/-- A filter whose choices are choices of one value is rendered, and its text is parsed as the same
tree with the tests that are read back. -/
theorem query_and_parse_readBack {f : Filter} (hnames : ∀ p ∈ f.tests, Lexeme.IsName p.1.toList)
    (hf : f.WellFormed) (hchoices : ∀ p ∈ f.tests, ∀ vs, p.2 = .oneOf vs → ∃ v, vs = [v])
    (hnesting : f.nesting ≤ 256) :
    ∃ text, query f = .ok text ∧
      Filter.parse (String.ofList text) = .ok (f.mapTests readBack) := by
  have hrendered : ∀ p ∈ f.tests, Rendered p.2 := fun p hp ↦ rendered_of_choices (hchoices p hp)
  have hquery : query f = .ok (f.layout asked) := (query_eq_ok_iff f _).mpr ⟨hrendered, rfl⟩
  exact ⟨f.layout asked, hquery, parse_query hnames hf hnesting hquery⟩

/-- All that is read back in another form: presence, a choice, a narrow integer and a clock. -/
theorem query_and_parse_readBack_changed :
    ∃ text, query (.and (.not (.test "not" (.differs none)))
        (.or (.test "a.b" (.oneOf [.bigInt 7]))
          (.test "c" (.ordered .less (.dateTime ⟨0, 500000000, -7200, by decide, by decide⟩))))) =
        .ok text ∧
      Filter.parse (String.ofList text) =
        .ok (.and (.not (.test "not" .present))
          (.or (.test "a.b" (.equals (some (.int 7))))
            (.test "c" (.ordered .less (.string "1969-12-31T22:00:00.500-02:00"))))) := by
  generalize hf : Filter.and _ _ = f
  have hback : f.mapTests readBack = .and (.not (.test "not" .present))
      (.or (.test "a.b" (.equals (some (.int 7))))
        (.test "c" (.ordered .less (.string "1969-12-31T22:00:00.500-02:00")))) := by
    rw [← hf]
    decide +kernel
  rw [← hback]
  have hname : Lexeme.IsName "b".toList := .of_isSegment rfl
  have hdotted : Lexeme.IsName ("a".toList ++ '.' :: "b".toList) := hname.point rfl
  subst hf
  refine query_and_parse_readBack ?_ ?_ ?_ (by decide)
  · simp only [Filter.tests, List.cons_append, List.nil_append, List.forall_mem_cons]
    exact ⟨Filter.isName_not, hdotted, .of_isSegment rfl, by simp⟩
  · simp [Filter.WellFormed, Test.WellFormed, Test.Distinct, Value.isUsable]
    decide
  · simp [Filter.tests]

/-! ### What is rendered again -/

/-- Whether a point in time shows a plus sign. -/
def ShowsPlus : Value → Prop
  | .dateTime t => t.ShowsPlus
  | _ => False

/-- The values that a test compares with. -/
def valuesOf : Test → List Value
  | .equals v => v.toList
  | .differs v => v.toList
  | .ordered _ bound => [bound]
  | .oneOf vs => vs
  | _ => []

theorem length_quotedChar_pos (c : Char) : 0 < (quotedChar c).length := by
  have hescape : 0 < (escapeUnits c).length := by
    rw [escapeUnits, units]
    split <;> simp [Value.codeEscape]
  unfold quotedChar
  cases hshort : Value.shortEscape? c with
  | some escape =>
    simp only [Value.shortEscape?] at hshort
    split_ifs at hshort <;> cases hshort <;> simp
  | none =>
    dsimp only
    split
    · exact Nat.one_pos
    · exact hescape

/-- In a string all characters that points in time are written with stand for themselves, except
for the plus sign. -/
theorem quotedChar_of_mem_text {t : DateTime} {c : Char} (h : c ∈ t.text) (hplus : c ≠ '+') :
    quotedChar c = [c] := by
  rcases DateTime.mem_text h with hdigit | rfl | rfl | rfl | rfl | rfl | rfl
  · have hother (d : Char) (hd : d.isDigit = false) : c ≠ d := Lexeme.ne_of_isDigit hdigit hd
    have hcode := Lexeme.toNat_of_isDigit hdigit
    have hlow : 0x20 ≤ c.toNat := by omega
    have hhigh : c.toNat < 0x7f := by omega
    simp [quotedChar, Value.shortEscape?, isPlain, hother '"' rfl, hother '\\' rfl, hother '\n' rfl,
      hother '\r' rfl, hother '\t' rfl, hother '\x08' rfl, hother '\x0c' rfl, hother '&' rfl,
      hother '<' rfl, hother '>' rfl, hother '\x27' rfl, hother '\x60' rfl, hplus, hlow, hhigh]
  · rfl
  · exact absurd rfl hplus
  · rfl
  · rfl
  · rfl
  · rfl

/-- Texts in which nothing but the plus sign is escaped stay as they are without one, and get
longer with one. -/
theorem flatMap_quotedChar {cs : List Char} (hcs : ∀ c ∈ cs, c ≠ '+' → quotedChar c = [c]) :
    ('+' ∉ cs → cs.flatMap quotedChar = cs) ∧
      cs.length ≤ (cs.flatMap quotedChar).length ∧
      ('+' ∈ cs → cs.length < (cs.flatMap quotedChar).length) := by
  induction cs with
  | nil => simp
  | cons c cs ih =>
    rw [List.forall_mem_cons] at hcs
    obtain ⟨hsame, hle, hlt⟩ := ih hcs.2
    have hpositive := length_quotedChar_pos c
    simp only [List.flatMap_cons, List.length_append, List.length_cons, List.mem_cons, not_or]
    refine ⟨?_, by omega, ?_⟩
    · rintro ⟨hc, hothers⟩
      rw [hcs.1 (Ne.symm hc), hsame hothers, List.singleton_append]
    · rintro (rfl | hothers)
      · have hescaped : (quotedChar '+').length = 6 := by decide
        omega
      · have hothers := hlt hothers
        omega

theorem literal_ofInt (i : Int) : literal (Value.ofInt i) = Numeral.signedDigits i := by
  have hinteger := Value.integer?_ofInt i
  cases hvalue : Value.ofInt i with
  | int j =>
    rw [hvalue, Value.integer?, Option.some.injEq] at hinteger
    rw [literal, hinteger]
  | bigInt j =>
    rw [hvalue, Value.integer?, Option.some.injEq] at hinteger
    rw [literal, hinteger]
  | _ => simp [hvalue, Value.integer?] at hinteger

/-- A value that is read back is rendered as before, unless it showed a plus sign: then its text is
longer now. -/
theorem literal_readBackValue (v : Value) :
    (¬ ShowsPlus v → literal (readBackValue v) = literal v) ∧
      (ShowsPlus v → (literal v).length < (literal (readBackValue v)).length) := by
  cases v with
  | bigInt i => exact ⟨fun _ ↦ literal_ofInt i, fun h ↦ absurd h id⟩
  | dateTime t =>
    obtain ⟨hsame, -, hlonger⟩ := flatMap_quotedChar fun c hc ↦ quotedChar_of_mem_text (t := t) hc
    have hquoted : literal (readBackValue (.dateTime t)) =
        '"' :: t.text.flatMap quotedChar ++ ['"'] := by
      rw [readBackValue, literal, quoted, String.toList_ofList, quotedBody]
      simp [DateTime.shaped_text]
    rw [DateTime.plus_mem_text_iff] at hsame hlonger
    rw [hquoted, literal]
    constructor
    · intro h
      rw [hsame h]
    · intro h
      have hlonger := hlonger h
      simp only [List.cons_append, List.length_cons, List.length_append]
      omega
  | _ => exact ⟨fun _ ↦ rfl, fun h ↦ absurd h id⟩

/-- Whether a test compares with a point in time that shows a plus sign. -/
def TestShowsPlus (t : Test) : Prop := ∃ v ∈ valuesOf t, ShowsPlus v

theorem testShowsPlus_iff {t : Test} {v : Value} (h : valuesOf t = [v]) :
    TestShowsPlus t ↔ ShowsPlus v := by
  simp [TestShowsPlus, h]

theorem not_testShowsPlus {t : Test} (h : valuesOf t = []) : ¬ TestShowsPlus t := by
  simp [TestShowsPlus, h]

theorem append_literal_readBackValue (front : List Char) (v : Value) :
    (¬ ShowsPlus v → front ++ literal (readBackValue v) = front ++ literal v) ∧
      (ShowsPlus v →
        (front ++ literal v).length < (front ++ literal (readBackValue v)).length) := by
  obtain ⟨hsame, hlonger⟩ := literal_readBackValue v
  constructor
  · intro hplus
    rw [hsame hplus]
  · intro hplus
    have hlonger := hlonger hplus
    rw [List.length_append, List.length_append]
    omega

/-- A test that is read back is rendered again: as before, unless a value showed a plus sign. -/
theorem asked_readBack {t : Test} (h : Rendered t) :
    Rendered (readBack t) ∧ (¬ TestShowsPlus t → asked (readBack t) = asked t) ∧
      (TestShowsPlus t → (asked t).length < (asked (readBack t)).length) := by
  cases t with
  | equals v =>
    cases v with
    | none => exact ⟨rfl, fun _ ↦ rfl, fun hplus ↦ absurd hplus (not_testShowsPlus rfl)⟩
    | some v =>
      rw [testShowsPlus_iff (v := v) rfl]
      exact ⟨rfl, append_literal_readBackValue "eq ".toList v⟩
  | differs v =>
    cases v with
    | none => exact ⟨rfl, fun _ ↦ rfl, fun hplus ↦ absurd hplus (not_testShowsPlus rfl)⟩
    | some v =>
      rw [testShowsPlus_iff (v := v) rfl]
      exact ⟨rfl, append_literal_readBackValue "ne ".toList v⟩
  | ordered relation bound =>
    rw [testShowsPlus_iff (v := bound) rfl]
    have hbound := append_literal_readBackValue (relation.keyword.toList ++ [' ']) bound
    simp only [List.append_assoc, List.singleton_append] at hbound
    exact ⟨rfl, hbound⟩
  | text test pattern =>
    exact ⟨rfl, fun _ ↦ rfl, fun hplus ↦ absurd hplus (not_testShowsPlus rfl)⟩
  | present => exact ⟨rfl, fun _ ↦ rfl, fun hplus ↦ absurd hplus (not_testShowsPlus rfl)⟩
  | oneOf vs =>
    by_cases hsingle : ∃ v, vs = [v]
    · obtain ⟨v, rfl⟩ := hsingle
      rw [testShowsPlus_iff (v := v) rfl]
      exact ⟨rfl, append_literal_readBackValue "eq ".toList v⟩
    · exact absurd h (not_rendered_oneOf fun v hv ↦ hsingle ⟨v, hv⟩)

/-- What is rendered for provisioning is parsed, and the filter that it is parsed as is rendered as
the same text exactly if no test compares with a point in time that shows a plus sign. -/
theorem query_parse_query_iff {f : Filter} (hnames : ∀ p ∈ f.tests, Lexeme.IsName p.1.toList)
    (hf : f.WellFormed) (hnesting : f.nesting ≤ 256) {text : List Char}
    (htext : query f = .ok text) :
    ∃ g, Filter.parse (String.ofList text) = .ok g ∧
      (query g = .ok text ↔ ∀ p ∈ f.tests, ¬ TestShowsPlus p.2) := by
  refine ⟨f.mapTests readBack, parse_query hnames hf hnesting htext, ?_⟩
  obtain ⟨hrendered, rfl⟩ := (query_eq_ok_iff f text).mp htext
  have hagain : ∀ p ∈ (f.mapTests readBack).tests, Rendered p.2 := by
    rw [Filter.tests_mapTests]
    simp only [List.forall_mem_map]
    exact fun p hp ↦ (asked_readBack (hrendered p hp)).1
  rw [query_eq_ok_iff, and_iff_right hagain, Filter.layout_mapTests]
  constructor
  · intro hsame p hp hplus
    obtain ⟨frame, hlength⟩ := f.exists_length_layout
    have hsum : (f.tests.map fun p ↦ (asked p.2).length).sum <
        (f.tests.map fun p ↦ (asked (readBack p.2)).length).sum := by
      have hlonger := (asked_readBack (hrendered p hp)).2.2 hplus
      refine List.sum_lt_sum _ _ (fun q hq ↦ ?_) ⟨p, hp, hlonger⟩
      obtain ⟨-, hkept, hlonger⟩ := asked_readBack (hrendered q hq)
      by_cases hq : TestShowsPlus q.2
      · exact (hlonger hq).le
      · rw [hkept hq]
    have hequal := congrArg List.length hsame
    rw [hlength, hlength] at hequal
    omega
  · intro hplain
    exact (Filter.layout_congr fun p hp ↦ (asked_readBack (hrendered p hp)).2.1 (hplain p hp)).symm

/-- A clock behind universal time: its text stays the same. -/
theorem query_parse_query_behind :
    ∃ g, Filter.parse "created gt \"2024-03-05T04:30:00-02:00\"" = .ok g ∧
      query g = .ok "created gt \"2024-03-05T04:30:00-02:00\"".toList := by
  have hname : Lexeme.IsName "created".toList := .of_isSegment rfl
  have hquery : query (.test "created" (.ordered .greater
      (.dateTime ⟨1709620200, 0, -7200, by decide, by decide⟩))) =
      .ok "created gt \"2024-03-05T04:30:00-02:00\"".toList := by decide +kernel
  generalize hf : Filter.test "created" _ = f at hquery
  obtain ⟨g, hparse, hagain⟩ := query_parse_query_iff (f := f)
    (by simpa [← hf, Filter.tests] using hname) (by rw [← hf]; exact ⟨by decide, rfl⟩)
    (by rw [← hf]; decide) hquery
  rw [String.ofList_toList] at hparse
  refine ⟨g, hparse, hagain.mpr ?_⟩
  subst hf
  rintro p hp ⟨v, hv, hplus⟩
  cases List.mem_singleton.mp hp
  cases List.mem_singleton.mp hv
  exact absurd hplus (show ¬ DateTime.ShowsPlus _ by decide)

/-- A clock ahead of universal time: the plus sign of its text is escaped the second time. -/
theorem query_parse_query_ahead :
    query (.test "meta.lastModified" (.ordered .greater
        (.dateTime ⟨1709620200, 0, 7200, by decide, by decide⟩))) =
      .ok "meta.lastModified gt \"2024-03-05T08:30:00+02:00\"".toList ∧
    Filter.parse "meta.lastModified gt \"2024-03-05T08:30:00+02:00\"" =
      .ok (.test "meta.lastModified" (.ordered .greater (.string "2024-03-05T08:30:00+02:00"))) ∧
    query (.test "meta.lastModified" (.ordered .greater (.string "2024-03-05T08:30:00+02:00"))) =
      .ok "meta.lastModified gt \"2024-03-05T08:30:00\\u002B02:00\"".toList := by
  have hquery : query (.test "meta.lastModified" (.ordered .greater
      (.dateTime ⟨1709620200, 0, 7200, by decide, by decide⟩))) =
      .ok "meta.lastModified gt \"2024-03-05T08:30:00+02:00\"".toList := by decide +kernel
  refine ⟨hquery, ?_, by decide +kernel⟩
  have hlast : Lexeme.IsName "lastModified".toList := .of_isSegment rfl
  have hname : Lexeme.IsName ("meta".toList ++ '.' :: "lastModified".toList) := .point rfl hlast
  generalize hf : Filter.test "meta.lastModified" _ = f at hquery
  have hparse := parse_query (f := f) (by simpa [← hf, Filter.tests] using hname)
    (by rw [← hf]; exact ⟨by decide, rfl⟩) (by rw [← hf]; decide) hquery
  rw [String.ofList_toList] at hparse
  rw [hparse, ← hf]
  decide +kernel

end PropertyFilter.Scim
