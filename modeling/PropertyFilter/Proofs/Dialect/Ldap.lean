import PropertyFilter.Dialect.Query
import PropertyFilter.Filter.Checked
import PropertyFilter.Proofs.Dialect.Ldap.Reading
import PropertyFilter.Proofs.Filter.Layout

/-!
# Search filters are read as intended

What a filter is meant to say as a search is defined on its own (`intended`): which groups there
are, what is compared, and the bytes that stand for a value. The search that is written for a filter
is read as exactly that, to its last character (`query_read?_eq_intended`). The texts that are
compared with are nothing but bytes there: other texts, whatever characters they have, leave the
groups, the attributes, the comparisons and the wildcards as they are.
-/

set_option autoImplicit false

namespace PropertyFilter.Ldap

/-! ### What is intended -/

/-- The bytes of a text. -/
def octetsOfText (s : String) : List Octet := s.toUTF8.data.toList.map .byte

/-- The order of the bytes of an identifier in which its first three fields, of four, two and two
bytes, begin with their least significant ones. -/
def fieldOrder : List Nat := [3, 2, 1, 0, 5, 4, 7, 6, 8, 9, 10, 11, 12, 13, 14, 15]

/-- The steps of 100 nanoseconds that have passed since the year 1601 began. -/
def stepsSince1601 (t : DateTime) : Int :=
  ((t.seconds - Date.toDayNumber ⟨1601, 1, 1⟩ * 86400) * 1000000000 + t.nanos) / 100

/-- What stands for a value. -/
def octets : Value → List Octet
  | .bool true => octetsOfText "TRUE"
  | .bool false => octetsOfText "FALSE"
  | .int i => octetsOfText (Numeral.signedText i.toInt)
  | .bigInt i => octetsOfText (Numeral.signedText i)
  | .float x => octetsOfText (Value.float x).text
  | .string s => octetsOfText s
  | .dateTime t => octetsOfText (Numeral.signedText (stepsSince1601 t))
  | .uuid u => fieldOrder.map fun place ↦ .byte (u.bytes.getD place 0)

/-- An attribute has any value. -/
def hasAny (property : String) : Parsed := .item property .equal [.wildcard]

/-- An attribute has a value. -/
def has (property : String) (v : Value) : Parsed := .item property .equal (octets v)

/-- Next to an integer a strict bound is the inclusive one away by one; next to another value it is
the opposite inclusive one, negated. -/
def intendedBound (property : String) (bound : Value) : Relation → Parsed
  | .greaterOrEqual => .item property .atLeast (octets bound)
  | .lessOrEqual => .item property .atMost (octets bound)
  | .greater =>
    match bound.integer? with
    | some i => .item property .atLeast (octetsOfText (Numeral.signedText (i + 1)))
    | none => .negation (.item property .atMost (octets bound))
  | .less =>
    match bound.integer? with
    | some i => .item property .atMost (octetsOfText (Numeral.signedText (i - 1)))
    | none => .negation (.item property .atLeast (octets bound))

def intendedTest (property : String) : Test → Parsed
  | .equals (some v) => has property v
  | .equals none => .negation (hasAny property)
  | .differs (some v) => .negation (has property v)
  | .differs none => hasAny property
  | .ordered relation bound => intendedBound property bound relation
  | .text .startsWith pattern => .item property .equal (octetsOfText pattern ++ [.wildcard])
  | .text .endsWith pattern => .item property .equal (.wildcard :: octetsOfText pattern)
  | .text .contains pattern =>
    .item property .equal (.wildcard :: octetsOfText pattern ++ [.wildcard])
  | .present => hasAny property
  | .oneOf vs => .group .any (vs.map (has property))

/-- How the operands of a filter are joined. A choice is not joined, though it is a group. -/
def joined? : Filter → Option Join
  | .and _ _ => some .all
  | .or _ _ => some .any
  | _ => none

def Parsed.operands : Parsed → List Parsed
  | .group _ operands => operands
  | _ => []

/-- What a filter, which on its own is to be read as `own`, adds to a group: itself, or its operands
if they are joined alike. -/
def part (join : Join) (f : Filter) (own : Parsed) : List Parsed :=
  if joined? f = some join then own.operands else [own]

/-- What the search of a filter is to be read as. That a property is not absent is the same as that
it is present, and is said without two negations. -/
def intended : Filter → Parsed
  | .and a b => .group .all (part .all a (intended a) ++ part .all b (intended b))
  | .or a b => .group .any (part .any a (intended a) ++ part .any b (intended b))
  | .not (.test property (.equals none)) => hasAny property
  | .not a => .negation (intended a)
  | .test property t => intendedTest property t

/-- The structure of a search, which is all of it but the bytes. -/
def Parsed.frame : Parsed → Parsed
  | .group join operands => .group join (operands.map frame)
  | .negation operand => .negation operand.frame
  | .item name comparison assertion =>
    .item name comparison (assertion.filter fun octet ↦ octet = .wildcard)

/-- A value with another text, if it is one. -/
def withText (change : String → String) : Value → Value
  | .string s => .string (change s)
  | v => v

/-- A test that compares with other texts. -/
def withTexts (change : String → String) : Test → Test
  | .equals v => .equals (v.map (withText change))
  | .differs v => .differs (v.map (withText change))
  | .ordered relation bound => .ordered relation (withText change bound)
  | .text test pattern => .text test (change pattern)
  | .present => .present
  | .oneOf vs => .oneOf (vs.map (withText change))

/-! ### Values -/

/-- The bytes of a text are those of its characters one after the other. -/
theorem octetsOfText_eq (s : String) : octetsOfText s = s.toList.flatMap octetsOfChar := by
  have hbytes : s.toUTF8.data.toList = s.toList.flatMap String.utf8EncodeChar := by
    rw [String.toUTF8, ← String.ofList_toList (s := s), String.toByteArray_ofList, List.utf8Encode,
      List.data_toByteArray, String.toList_ofList]
  rw [octetsOfText, hbytes, List.map_flatMap]
  rfl

theorem spells_ofList (cs : List Char) :
    Spells (Piece.written (.text cs)) (octetsOfText (String.ofList cs)) := by
  rw [octetsOfText_eq, String.toList_ofList]
  exact spells_escape cs

theorem spells_text (s : String) : Spells (Piece.written (.text s.toList)) (octetsOfText s) := by
  rw [octetsOfText_eq]
  exact spells_escape s.toList

theorem spells_bytes (bytes : List UInt8) :
    Spells (Piece.written (.bytes bytes)) (bytes.map .byte) := by
  rw [List.map_eq_flatMap]
  exact spells_flatMap fun byte _ ↦ spells_escapeByte .upper byte

theorem ticks_eq (t : DateTime) : t.ticks = stepsSince1601 t := by
  have hday : Date.toDayNumber ⟨1601, 1, 1⟩ = -134774 := by decide
  rw [DateTime.ticks, stepsSince1601, hday]
  omega

theorem fieldBytes_eq (u : Uuid) :
    u.fieldBytes = fieldOrder.map fun place ↦ u.bytes.getD place 0 := by
  obtain ⟨bytes, hlength⟩ := u
  match bytes, hlength with
  | [_, _, _, _, _, _, _, _, _, _, _, _, _, _, _, _], _ => rfl

/-- What is written for a value is read as the octets that stand for it. -/
theorem spells_assertion (v : Value) :
    Spells ((Search.assertion v).flatMap Piece.written) (octets v) := by
  have hsingle {piece : Piece} {octets : List Octet} (h : Spells piece.written octets) :
      Spells ([piece].flatMap Piece.written) octets := by
    rwa [List.flatMap_singleton]
  cases v with
  | bool b =>
    cases b with
    | true => exact hsingle (spells_text "TRUE")
    | false => exact hsingle (spells_text "FALSE")
  | int i => exact hsingle (spells_ofList _)
  | bigInt i => exact hsingle (spells_ofList _)
  | float x => exact hsingle (spells_ofList _)
  | string s => exact hsingle (spells_text s)
  | dateTime t =>
    rw [octets, ← ticks_eq]
    exact hsingle (spells_ofList _)
  | uuid u =>
    have hoctets : octets (.uuid u) = u.fieldBytes.map .byte := by
      rw [octets, fieldBytes_eq, List.map_map]
      rfl
    rw [hoctets]
    exact hsingle (spells_bytes u.fieldBytes)

/-- An integer stands for its digits in either representation. -/
theorem octets_of_integer? {v : Value} {i : Int} (h : v.integer? = some i) :
    octets v = octetsOfText (Numeral.signedText i) := by
  cases v with
  | int j =>
    cases h
    rfl
  | bigInt j =>
    cases h
    rfl
  | _ => cases h

theorem octets_ofInt (i : Int) : octets (Value.ofInt i) = octetsOfText (Numeral.signedText i) :=
  octets_of_integer? (Value.integer?_ofInt i)

theorem wildcard_notMem_octetsOfText (s : String) : .wildcard ∉ octetsOfText s := by
  simp [octetsOfText]

theorem wildcard_notMem_octets (v : Value) : .wildcard ∉ octets v := by
  cases v with
  | bool b => cases b <;> exact wildcard_notMem_octetsOfText _
  | uuid u => simp [octets]
  | _ => exact wildcard_notMem_octetsOfText _

/-! ### Tests -/

section Tests

variable {property : String} (hproperty : IsAttribute property)
include hproperty

theorem reads_value (comparison : Comparison) (v : Value) :
    Reads (.item property comparison (Search.assertion v))
      (.item property comparison (octets v)) :=
  reads_item hproperty (spells_assertion v) fun _ ↦ wildcard_notMem_octets v

theorem reads_present : Reads (Search.present property) (hasAny property) := by
  refine reads_item hproperty ?_ (by simp)
  exact spells_wildcard

theorem reads_differs (v : Option Value) :
    Reads (Search.differs property v) (intendedTest property (.differs v)) := by
  cases v with
  | none => exact reads_present hproperty
  | some v => exact reads_negation (reads_value hproperty .equal v)

theorem reads_bounded (relation : Relation) (bound : Value) :
    Reads (Search.bounded property bound relation) (intendedBound property bound relation) := by
  cases relation with
  | greaterOrEqual => exact reads_value hproperty .atLeast bound
  | lessOrEqual => exact reads_value hproperty .atMost bound
  | greater =>
    simp only [Search.bounded, intendedBound, Value.successor, ← octets_ofInt]
    cases bound.integer? with
    | none => exact reads_negation (reads_value hproperty .atMost bound)
    | some i => exact reads_value hproperty .atLeast (Value.ofInt (i + 1))
  | less =>
    simp only [Search.bounded, intendedBound, Value.predecessor, ← octets_ofInt]
    cases bound.integer? with
    | none => exact reads_negation (reads_value hproperty .atLeast bound)
    | some i => exact reads_value hproperty .atMost (Value.ofInt (i - 1))

theorem reads_text (test : TextTest) (pattern : String) :
    Reads (.item property .equal (Search.matching pattern test))
      (intendedTest property (.text test pattern)) := by
  have htext := spells_text pattern
  cases test with
  | startsWith =>
    refine reads_item hproperty ?_ (by simp)
    simpa [Search.matching, Piece.written] using htext.append spells_wildcard
  | endsWith =>
    refine reads_item hproperty ?_ (by simp)
    simpa [Search.matching, Piece.written] using spells_wildcard.append htext
  | contains =>
    refine reads_item hproperty ?_ (by simp)
    simpa [Search.matching, Piece.written] using
      spells_wildcard.append (htext.append spells_wildcard)

theorem reads_ofTest {t : Test} (ht : t.WellFormed) :
    Reads (Search.ofTest property t) (intendedTest property t) := by
  cases t with
  | equals v =>
    cases v with
    | none => exact reads_negation (reads_present hproperty)
    | some v => exact reads_value hproperty .equal v
  | differs v => exact reads_differs hproperty v
  | ordered relation bound => exact reads_bounded hproperty relation bound
  | text test pattern => exact reads_text hproperty test pattern
  | present => exact reads_present hproperty
  | oneOf vs =>
    refine reads_group .any ?_ (by simpa using ht.1)
    rw [List.forall₂_map_left_iff, List.forall₂_map_right_iff, List.forall₂_same]
    exact fun v _ ↦ reads_value hproperty .equal v

end Tests

/-! ### Filters -/

theorem isAttributePart_of_isWordPart {c : Char} (h : Lexeme.isWordPart c = true) :
    isAttributePart c = true := by
  rw [Lexeme.isWordPart, Bool.or_eq_true, beq_iff_eq] at h
  rcases h with h | rfl
  · rw [isAttributePart, h, Bool.true_or]
  · decide

/-- Names of properties are names of attributes. -/
theorem isAttribute_of_isName {name : String} (h : Lexeme.IsName name.toList) :
    IsAttribute name := by
  obtain ⟨c, cs, hcs, -⟩ := h.head
  refine ⟨by simp [hcs], ?_⟩
  generalize name.toList = cs at h
  induction h with
  | segment hstart hparts =>
    rw [List.forall_mem_cons]
    exact ⟨isAttributePart_of_isWordPart (Lexeme.isWordPart_of_isWordStart hstart),
      fun d hd ↦ isAttributePart_of_isWordPart (hparts d hd)⟩
  | dotted hstart hparts _ ih =>
    rw [List.forall_mem_cons, List.forall_mem_append, List.forall_mem_cons]
    exact ⟨isAttributePart_of_isWordPart (Lexeme.isWordPart_of_isWordStart hstart),
      fun d hd ↦ isAttributePart_of_isWordPart (hparts d hd), by decide, ih⟩

/-- A filter adds something to every group. -/
theorem part_ne_nil (join : Join) (f : Filter) : part join f (intended f) ≠ [] := by
  induction f with
  | and a b iha _ =>
    cases join with
    | all => exact List.append_ne_nil_of_left_ne_nil iha _
    | any => exact List.cons_ne_nil _ _
  | or a b iha _ =>
    cases join with
    | all => exact List.cons_ne_nil _ _
    | any => exact List.append_ne_nil_of_left_ne_nil iha _
  | not a => exact List.cons_ne_nil _ _
  | test property t => exact List.cons_ne_nil _ _

/-- A negation, of an equality or of anything else. -/
theorem reads_negationOf {f : Filter} (hnames : ∀ p ∈ f.tests, IsAttribute p.1)
    (h : Reads (Search.ofFilter f) (intended f)) :
    Reads (Search.negationOf f (Search.ofFilter f)) (intended (.not f)) := by
  cases f with
  | test property t =>
    cases t with
    | equals v =>
      have hdiffers := reads_differs (hnames (property, .equals v) (by simp [Filter.tests])) v
      cases v <;> exact hdiffers
    | _ => exact reads_negation h
  | _ => exact reads_negation h

/-- The search of a filter, alone and as a part of either kind of group. -/
theorem reads_ofFilter {f : Filter} (hnames : ∀ p ∈ f.tests, IsAttribute p.1)
    (hf : f.WellFormed) :
    Reads (Search.ofFilter f) (intended f) ∧
      List.Forall₂ Reads (Search.conjuncts f) (part .all f (intended f)) ∧
      List.Forall₂ Reads (Search.disjuncts f) (part .any f (intended f)) := by
  induction f with
  | and a b iha ihb =>
    rw [Filter.tests, List.forall_mem_append] at hnames
    obtain ⟨-, ha, -⟩ := iha hnames.1 hf.1
    obtain ⟨-, hb, -⟩ := ihb hnames.2 hf.2
    have hoperands := List.rel_append ha hb
    have hgroup := reads_group .all hoperands (by simp [part_ne_nil])
    exact ⟨hgroup, hoperands, .cons hgroup .nil⟩
  | or a b iha ihb =>
    rw [Filter.tests, List.forall_mem_append] at hnames
    obtain ⟨-, -, ha⟩ := iha hnames.1 hf.1
    obtain ⟨-, -, hb⟩ := ihb hnames.2 hf.2
    have hoperands := List.rel_append ha hb
    have hgroup := reads_group .any hoperands (by simp [part_ne_nil])
    exact ⟨hgroup, .cons hgroup .nil, hoperands⟩
  | not a ih =>
    have hnegation := reads_negationOf (f := a) hnames (ih hnames hf).1
    exact ⟨hnegation, .cons hnegation .nil, .cons hnegation .nil⟩
  | test property t =>
    have htest := reads_ofTest (hnames (property, t) (by simp [Filter.tests])) hf.2
    exact ⟨htest, .cons htest .nil, .cons htest .nil⟩

/-! ### Other texts -/

theorem filter_octetsOfText (s : String) :
    (octetsOfText s).filter (fun octet ↦ octet = .wildcard) = [] := by
  simp [octetsOfText]

theorem filter_octets (v : Value) :
    (octets v).filter (fun octet ↦ octet = .wildcard) = [] := by
  rw [List.filter_eq_nil_iff]
  intro octet hoctet
  simpa using ne_of_mem_of_not_mem hoctet (wildcard_notMem_octets v)

theorem integer?_withText (change : String → String) (v : Value) :
    (withText change v).integer? = v.integer? := by
  cases v <;> rfl

theorem frame_intendedBound (change : String → String) (property : String) (bound : Value)
    (relation : Relation) : (intendedBound property (withText change bound) relation).frame =
      (intendedBound property bound relation).frame := by
  cases relation <;> simp only [intendedBound, integer?_withText]
  all_goals try cases bound.integer?
  all_goals simp [Parsed.frame, filter_octets]

theorem frame_intendedTest (change : String → String) (property : String) (t : Test) :
    (intendedTest property (withTexts change t)).frame = (intendedTest property t).frame := by
  cases t with
  | equals v => cases v <;> simp [withTexts, intendedTest, has, Parsed.frame, filter_octets]
  | differs v => cases v <;> simp [withTexts, intendedTest, has, Parsed.frame, filter_octets]
  | ordered relation bound => exact frame_intendedBound change property bound relation
  | text test pattern =>
    cases test <;> simp [withTexts, intendedTest, Parsed.frame, filter_octetsOfText]
  | present => rfl
  | oneOf vs =>
    simp [withTexts, intendedTest, has, Parsed.frame, filter_octets, Function.comp_def]

theorem joined?_mapTests (change : Test → Test) (f : Filter) :
    joined? (f.mapTests change) = joined? f := by
  cases f <;> rfl

theorem map_frame_part (join : Join) (f : Filter) (own : Parsed) :
    (part join f own).map Parsed.frame = part join f own.frame := by
  have hoperands : own.frame.operands = own.operands.map Parsed.frame := by
    cases own <;> simp [Parsed.frame, Parsed.operands]
  rw [part, part, hoperands]
  split <;> simp

/-- Other texts do not change the structure of a search. -/
theorem frame_intended_withTexts (change : String → String) (f : Filter) :
    (intended (f.mapTests (withTexts change))).frame = (intended f).frame := by
  have hpart (join : Join) (g : Filter) (own : Parsed) :
      part join (g.mapTests (withTexts change)) own = part join g own := by
    rw [part, part, joined?_mapTests]
  induction f with
  | and a b iha ihb =>
    simp only [Filter.mapTests, intended, Parsed.frame, List.map_append, map_frame_part, hpart, iha,
      ihb]
  | or a b iha ihb =>
    simp only [Filter.mapTests, intended, Parsed.frame, List.map_append, map_frame_part, hpart, iha,
      ihb]
  | not a ih =>
    have hnegation : (Parsed.negation (intended (a.mapTests (withTexts change)))).frame =
        (Parsed.negation (intended a)).frame := by
      rw [Parsed.frame, Parsed.frame, ih]
    cases a with
    | test property t =>
      cases t with
      | equals v =>
        cases v with
        | none => rfl
        | some v => exact hnegation
      | _ => exact hnegation
    | _ => exact hnegation
  | test property t => exact frame_intendedTest change property t

/-- A filter is written as a search that is read, as a whole, as what is intended, and of which no
text that is compared with is a part of the structure. -/
theorem query_read?_eq_intended {f : Filter} (hnames : ∀ p ∈ f.tests, Lexeme.IsName p.1.toList)
    (hf : f.WellFormed) :
    (∃ text, f.query .ldap = .ok text ∧ read? text.toList = some (intended f)) ∧
      ∀ change : String → String,
        (intended (f.mapTests (withTexts change))).frame = (intended f).frame := by
  refine ⟨⟨_, rfl, ?_⟩, fun change ↦ frame_intended_withTexts change f⟩
  rw [String.toList_ofList]
  exact read?_written (reads_ofFilter (fun p hp ↦ isAttribute_of_isName (hnames p hp)) hf).1

/-- Texts of metacharacters, the least integer of 64 bits, and a choice among alternatives. -/
theorem query_read?_metacharacters :
    ∃ text, Filter.query .ldap (.and
        (.and (.test "cn" (.text .startsWith "*)("))
          (.test "n" (.ordered .less (.int (-9223372036854775808)))))
        (.not (.or (.test "cn" (.equals (some (.string "č"))))
          (.test "a.b" (.oneOf [.bool true, .string ")"]))))) = .ok text ∧
      read? text.toList = some (.group .all [
        .item "cn" .equal [.byte 0x2a, .byte 0x29, .byte 0x28, .wildcard],
        .item "n" .atMost (octetsOfText "-9223372036854775809"),
        .negation (.group .any [.item "cn" .equal [.byte 0xc4, .byte 0x8d],
          .group .any [.item "a.b" .equal (octetsOfText "TRUE"),
            .item "a.b" .equal [.byte 0x29]]])]) := by
  have haccent : octetsOfText "č" = [.byte 0xc4, .byte 0x8d] := by decide +kernel
  have hclose : octetsOfText ")" = [.byte 0x29] := by decide +kernel
  have hbound : Numeral.signedText (-9223372036854775808 - 1) = "-9223372036854775809" := by
    decide +kernel
  have hcn : Lexeme.IsName "cn".toList := .of_isSegment rfl
  have hn : Lexeme.IsName "n".toList := .of_isSegment rfl
  have hb : Lexeme.IsName "b".toList := .of_isSegment rfl
  have hdotted : Lexeme.IsName ("a".toList ++ '.' :: "b".toList) := hb.point rfl
  generalize hf : Filter.and _ _ = f
  have hnames : ∀ p ∈ f.tests, Lexeme.IsName p.1.toList := by
    simp only [← hf, Filter.tests, List.cons_append, List.nil_append, List.forall_mem_cons]
    exact ⟨hcn, hn, hcn, hdotted, by simp⟩
  have hwellFormed : f.WellFormed := by
    simp only [← hf, Filter.WellFormed, Test.WellFormed, Test.Distinct]
    simp [Value.isUsable, Value.same, Text.allBlank, Text.isBlank, Text.inRanges, Text.blankRanges]
  obtain ⟨text, hquery, hread⟩ := (query_read?_eq_intended hnames hwellFormed).1
  refine ⟨text, hquery, ?_⟩
  rw [hread, ← haccent, ← hclose, ← hbound, ← hf]
  rfl

end PropertyFilter.Ldap
