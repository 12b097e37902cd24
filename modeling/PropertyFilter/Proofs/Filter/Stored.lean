import PropertyFilter.Filter.Stored
import PropertyFilter.Proofs.Filter.Checked
import PropertyFilter.Proofs.Value.Stored

/-!
# Documents of filters

`Filter.Describes` says which documents stand for a tree of tests, whether or not the tests pass the
check. Reading such a document gives the tree with each value of a choice once, or the fault of the
first test that has one, from left to right (`Filter.ofStored_of_describes`). The document that a
filter is stored as stands for what is the same filter (`Filter.describes_stored`), so a well formed
filter is read back (`Filter.ofStored_stored_and_of_describes`).
-/

set_option autoImplicit false

namespace PropertyFilter

open Expression (withoutRepeats)

/-! ### Tests -/

namespace Test

/-- What stands for a value that may be absent: a document of the value, nothing, or no entry. -/
inductive DescribesOption : Option Json → Option Value → Prop
  | missing : DescribesOption none none
  | null : DescribesOption (some .null) none
  | value {document : Json} {v : Value} (h : Value.Describes document v) :
      DescribesOption (some document) (some v)

/-- Arguments, besides the property, of the operator of a test. -/
inductive Describes (arguments : Entries Json) : Test → Prop
  | equals {v : Option Value} (h : DescribesOption (Entries.find? "value" arguments) v) :
      Describes arguments (.equals v)
  | differs {v : Option Value} (h : DescribesOption (Entries.find? "value" arguments) v) :
      Describes arguments (.differs v)
  | ordered (relation : Relation) {document : Json} {bound : Value}
      (hfound : Entries.find? "value" arguments = some document)
      (h : Value.Describes document bound) : Describes arguments (.ordered relation bound)
  | text (test : TextTest) {pattern : String}
      (hfound : Entries.find? "value" arguments = some (.string pattern)) :
      Describes arguments (.text test pattern)
  | present : Describes arguments .present
  | oneOf {documents : List Json} {vs : List Value}
      (hfound : Entries.find? "values" arguments = some (.array documents))
      (h : List.Forall₂ Value.Describes documents vs) : Describes arguments (.oneOf vs)

theorem optionOfStored?_of_describes (access : Json.Access) {found : Option Json}
    {v : Option Value} (h : DescribesOption found v) :
    Filter.optionOfStored? access found = some v := by
  cases h with
  | missing => rfl
  | null => rfl
  | value h =>
    have hread := Value.ofStored?_of_describes access h
    cases h
    exact congrArg (Option.map some) hread

/-- The arguments of a test are read as what it asks. -/
theorem testOfStored?_of_describes (access : Json.Access) {arguments : Entries Json} {t : Test}
    (h : Describes arguments t) :
    Filter.testOfStored? access t.operator
      (Entries.find? (Filter.argumentName t.operator) arguments) = some t := by
  cases h with
  | equals h =>
    simp [operator, Filter.argumentName, Filter.testOfStored?,
      optionOfStored?_of_describes access h]
  | differs h =>
    simp [operator, Filter.argumentName, Filter.testOfStored?,
      optionOfStored?_of_describes access h]
  | ordered relation hfound h =>
    simp [operator, Filter.argumentName, hfound, Filter.testOfStored?,
      Value.ofStored?_of_describes access h]
  | text test hfound => simp [operator, Filter.argumentName, hfound, Filter.testOfStored?]
  | present => rfl
  | oneOf hfound h =>
    simp [operator, Filter.argumentName, hfound, Filter.testOfStored?,
      Value.mapM_ofStored?_of_describes access h]

/-- The test with each of its values changed. -/
def mapValues (change : Value → Value) : Test → Test
  | .equals v => .equals (v.map change)
  | .differs v => .differs (v.map change)
  | .ordered relation bound => .ordered relation (change bound)
  | .text test pattern => .text test pattern
  | .present => .present
  | .oneOf vs => .oneOf (vs.map change)

theorem describesOption_stored {v : Option Value} (husable : ∀ w ∈ v, w.isUsable = true)
    (hv : ∀ w ∈ v, w.Restorable) :
    DescribesOption (some (storedOption v)) (v.map Value.restored) := by
  cases v with
  | none => exact .null
  | some v => exact .value (Value.describes_stored (husable v rfl) (hv v rfl))

theorem forall₂_describes_stored {vs : List Value} (husable : ∀ v ∈ vs, v.isUsable = true)
    (hvs : ∀ v ∈ vs, v.Restorable) :
    List.Forall₂ Value.Describes (vs.map Value.stored) (vs.map Value.restored) := by
  rw [List.forall₂_map_left_iff, List.forall₂_map_right_iff, List.forall₂_same]
  exact fun v hv ↦ Value.describes_stored (husable v hv) (hvs v hv)

theorem operator_mapValues (change : Value → Value) (t : Test) :
    (t.mapValues change).operator = t.operator := by
  cases t <;> rfl

/-- The arguments that a test is stored with are those of the test that is read back. -/
theorem describes_storedArguments {t : Test} (ht : t.WellFormed)
    (hvalues : ∀ v ∈ t.values, v.Restorable) (property : String) :
    Describes (("name", .string property) :: t.storedArguments) (t.mapValues Value.restored) := by
  cases t with
  | equals v =>
    exact .equals (describesOption_stored ht fun w hw ↦ hvalues w (by simpa [values] using hw))
  | differs v =>
    exact .differs (describesOption_stored ht fun w hw ↦ hvalues w (by simpa [values] using hw))
  | ordered relation bound =>
    exact .ordered relation rfl (Value.describes_stored ht (hvalues bound (by simp [values])))
  | text test pattern => exact .text test rfl
  | present => exact .present
  | oneOf vs => exact .oneOf rfl (forall₂_describes_stored ht.2.1 hvalues)

theorem isUsable_map_restored {v : Option Value} (h : ∀ w ∈ v, w.isUsable = true) :
    ∀ w ∈ v.map Value.restored, w.isUsable = true := by
  intro w hw
  obtain ⟨u, hu, rfl⟩ := Option.mem_map.mp hw
  exact (Value.isUsable_restored u).trans (h u hu)

theorem distinct_restored {vs : List Value} (h : Distinct vs) (hvs : ∀ v ∈ vs, v.Restorable) :
    Distinct (vs.map Value.restored) := by
  rw [Distinct, List.pairwise_map]
  refine h.imp_of_mem ?_
  intro v w hv hw hne
  rw [Value.same_restored_restored (hvs v hv) (hvs w hw), hne]

theorem wellFormed_restored {t : Test} (ht : t.WellFormed)
    (hvalues : ∀ v ∈ t.values, v.Restorable) : (t.mapValues Value.restored).WellFormed := by
  cases t with
  | equals v => exact isUsable_map_restored ht
  | differs v => exact isUsable_map_restored ht
  | ordered relation bound => exact (Value.isUsable_restored bound).trans ht
  | text test pattern => trivial
  | present => trivial
  | oneOf vs =>
    obtain ⟨hne, husable, hdistinct⟩ := ht
    refine ⟨by simpa using hne, ?_, distinct_restored hdistinct hvalues⟩
    intro w hw
    obtain ⟨v, hv, rfl⟩ := List.mem_map.mp hw
    exact (Value.isUsable_restored v).trans (husable v hv)

theorem sameOption_restored {v : Option Value} (husable : ∀ w ∈ v, w.isUsable = true)
    (hv : ∀ w ∈ v, w.Restorable) : sameOption (v.map Value.restored) v = true := by
  cases v with
  | none => rfl
  | some v => exact Value.restored_same (husable v rfl) (hv v rfl)

theorem sameList_restored {vs : List Value} (husable : ∀ v ∈ vs, v.isUsable = true)
    (hvs : ∀ v ∈ vs, v.Restorable) : sameList (vs.map Value.restored) vs = true := by
  induction vs with
  | nil => rfl
  | cons v vs ih =>
    rw [List.forall_mem_cons] at husable hvs
    rw [List.map_cons, sameList, Value.restored_same husable.1 hvs.1, ih husable.2 hvs.2]
    rfl

theorem restored_same {t : Test} (ht : t.WellFormed) (hvalues : ∀ v ∈ t.values, v.Restorable) :
    (t.mapValues Value.restored).same t = true := by
  cases t with
  | equals v => exact sameOption_restored ht fun w hw ↦ hvalues w (by simpa [values] using hw)
  | differs v => exact sameOption_restored ht fun w hw ↦ hvalues w (by simpa [values] using hw)
  | ordered relation bound =>
    have hbound := Value.restored_same ht (hvalues bound (by simp [values]))
    simp only [mapValues, same, hbound, beq_self_eq_true, Bool.and_self]
  | text test pattern => simp only [mapValues, same, beq_self_eq_true, Bool.and_self]
  | present => rfl
  | oneOf vs => exact sameList_restored ht.2.1 hvalues

end Test

/-! ### Filters -/

namespace Filter

/-- A document of the form that filters are stored in: an object with an operator and its arguments,
which for a connective are its operands. -/
inductive Describes : Json → Filter → Prop
  | and {entries : Entries Json} {left right : Json} {a b : Filter}
      (hoperator : Entries.find? "op" entries = some (.string StoredNode.and.name))
      (harguments : Entries.find? "args" entries = some (.array [left, right]))
      (hleft : Describes left a) (hright : Describes right b) :
      Describes (.object entries) (.and a b)
  | or {entries : Entries Json} {left right : Json} {a b : Filter}
      (hoperator : Entries.find? "op" entries = some (.string StoredNode.or.name))
      (harguments : Entries.find? "args" entries = some (.array [left, right]))
      (hleft : Describes left a) (hright : Describes right b) :
      Describes (.object entries) (.or a b)
  | not {entries : Entries Json} {operand : Json} {a : Filter}
      (hoperator : Entries.find? "op" entries = some (.string StoredNode.not.name))
      (harguments : Entries.find? "args" entries = some operand) (h : Describes operand a) :
      Describes (.object entries) (.not a)
  | test {entries arguments : Entries Json} {property : String} {t : Test}
      (hoperator : Entries.find? "op" entries =
        some (.string (StoredNode.test t.operator).name))
      (harguments : Entries.find? "args" entries = some (.object arguments))
      (hname : Entries.find? "name" arguments = some (.string property))
      (h : t.Describes arguments) : Describes (.object entries) (.test property t)

/-- The fault of the first test that has one, from left to right. -/
def firstFault? (f : Filter) : Option InvalidFilter := f.tests.findSome? fun p ↦ fault? p.1 p.2

/-- What a document is read as that stands for a tree. -/
def checked (f : Filter) : Except StoredFault Filter :=
  f.firstFault?.elim (.ok (f.mapTests withoutRepeats)) fun reason ↦ .error (.invalid reason)

/-- The arguments of a node are read wherever they stand. -/
theorem ofStoredEntries_of_find? {entries : Entries Json} {arguments : Json}
    (h : Entries.find? "args" entries = some arguments) (node : StoredNode) :
    ofStoredEntries node entries = ofStoredNode .putAside node arguments true
      (fun _ ↦ operandsOfStored .putAside arguments) fun _ ↦ ofStored .putAside arguments := by
  induction entries with
  | nil => cases h
  | cons entry entries ih =>
    obtain ⟨name, document⟩ := entry
    rw [ofStoredEntries]
    by_cases hname : (name == "args") = true
    · have hfound : document = arguments := by simpa [Entries.find?, hname] using h
      rw [if_pos hname, hfound]
    · rw [if_neg hname]
      exact ih (by simpa [Entries.find?, hname] using h)

/-- A node with an operator and arguments is read by that operator. -/
theorem ofStored_of_find? {entries : Entries Json} {arguments : Json} {node : StoredNode}
    (hoperator : Entries.find? "op" entries = some (.string node.name))
    (harguments : Entries.find? "args" entries = some arguments) (access : Json.Access) :
    ofStored access (.object entries) = ofStoredNode .putAside node arguments true
      (fun _ ↦ operandsOfStored .putAside arguments) fun _ ↦ ofStored .putAside arguments := by
  rw [ofStored, hoperator, Option.bind_some, Json.Access.tagOfEntry?_string, Option.bind_some,
    StoredNode.ofName?_name]
  exact ofStoredEntries_of_find? harguments node

theorem firstFault?_append {f a b : Filter} (h : f.tests = a.tests ++ b.tests) :
    f.firstFault? = a.firstFault?.or b.firstFault? := by
  rw [firstFault?, h, List.findSome?_append]
  rfl

/-- Two operands are read one after the other; the second one only if nothing is wrong with the
first. -/
theorem operandsOfStored_pair {access : Json.Access} {left right : Json} {a b : Filter}
    (hleft : ofStored access left = a.checked) (hright : ofStored access right = b.checked) :
    operandsOfStored access (.array [left, right]) =
      (a.firstFault?.or b.firstFault?).elim
        (.ok [a.mapTests withoutRepeats, b.mapTests withoutRepeats])
        fun reason ↦ .error (.invalid reason) := by
  rw [operandsOfStored, firstTwoOfStored, hleft, checked]
  cases a.firstFault? with
  | some reason => rfl
  | none =>
    simp only [Option.elim_none, Option.none_or, firstTwoOfStored, hright, checked]
    cases b.firstFault? with
    | some reason => rfl
    | none => rfl

/-- A test is made of what it is read as. -/
theorem predicateOfStored?_of_describes (access : Json.Access) {arguments : Entries Json}
    {property : String} {t : Test}
    (hname : Entries.find? "name" arguments = some (.string property))
    (h : t.Describes arguments) :
    predicateOfStored? access t.operator (.object arguments) = some (property, t) := by
  rw [predicateOfStored?, hname]
  simp only [Test.testOfStored?_of_describes access h, Option.map_some]

theorem firstFault?_test (property : String) (t : Test) :
    (Filter.test property t).firstFault? = fault? property t := by
  rw [firstFault?, tests, List.findSome?_singleton]

/-- A document that stands for a tree is read as the tree, in which each value of a choice stands
once, or has the fault of the first test that has one. -/
theorem ofStored_of_describes {document : Json} {f : Filter} (h : Describes document f)
    (access : Json.Access) : ofStored access document = f.checked := by
  -- operands are read from what was put aside, however the document itself is read
  induction h generalizing access with
  | @and entries left right a b hoperator harguments _ _ ihleft ihright =>
    rw [ofStored_of_find? hoperator harguments]
    simp only [ofStoredNode, operandsOfStored_pair (ihleft .putAside) (ihright .putAside), checked,
      firstFault?_append (f := .and a b) rfl]
    cases a.firstFault?.or b.firstFault? with
    | none => rfl
    | some reason => rfl
  | @or entries left right a b hoperator harguments _ _ ihleft ihright =>
    rw [ofStored_of_find? hoperator harguments]
    simp only [ofStoredNode, operandsOfStored_pair (ihleft .putAside) (ihright .putAside), checked,
      firstFault?_append (f := .or a b) rfl]
    cases a.firstFault?.or b.firstFault? with
    | none => rfl
    | some reason => rfl
  | @not entries operand a hoperator harguments _ ih =>
    rw [ofStored_of_find? hoperator harguments]
    have hfault : (Filter.not a).firstFault? = a.firstFault? := rfl
    simp only [ofStoredNode, ih .putAside, checked, hfault]
    cases a.firstFault? with
    | none => rfl
    | some reason => rfl
  | @test entries arguments property t hoperator harguments hname h =>
    rw [ofStored_of_find? hoperator harguments]
    simp only [ofStoredNode, predicateOfStored?_of_describes .putAside hname h, make_eq_elim,
      checked, firstFault?_test]
    cases fault? property t with
    | none => rfl
    | some reason => rfl

/-! ### Stored filters -/

/-- Filters survive being stored if their values do. -/
def Restorable (f : Filter) : Prop := ∀ p ∈ f.tests, ∀ v ∈ p.2.values, v.Restorable

/-- The filter that a stored one is read as. -/
def restored (f : Filter) : Filter := f.mapTests (Test.mapValues Value.restored)

theorem restorable_append {f a b : Filter} (h : f.tests = a.tests ++ b.tests) :
    f.Restorable ↔ a.Restorable ∧ b.Restorable := by
  rw [Restorable, h]
  exact List.forall_mem_append

theorem restorable_test {property : String} {t : Test}
    (h : (Filter.test property t).Restorable) : ∀ v ∈ t.values, v.Restorable :=
  h (property, t) (by simp [tests])

/-- The document of a well formed filter stands for what is read back. -/
theorem describes_stored {f : Filter} (hf : f.WellFormed) (hvalues : f.Restorable) :
    Describes f.stored f.restored := by
  induction f with
  | and a b iha ihb =>
    obtain ⟨ha, hb⟩ := (restorable_append rfl).mp hvalues
    exact .and rfl rfl (iha hf.1 ha) (ihb hf.2 hb)
  | or a b iha ihb =>
    obtain ⟨ha, hb⟩ := (restorable_append rfl).mp hvalues
    exact .or rfl rfl (iha hf.1 ha) (ihb hf.2 hb)
  | not a ih => exact .not rfl rfl (ih hf hvalues)
  | test property t =>
    refine .test ?_ rfl rfl (Test.describes_storedArguments hf.2 (restorable_test hvalues) property)
    rw [Test.operator_mapValues]
    rfl

theorem wellFormed_restored {f : Filter} (hf : f.WellFormed) (hvalues : f.Restorable) :
    f.restored.WellFormed := by
  induction f with
  | and a b iha ihb =>
    obtain ⟨ha, hb⟩ := (restorable_append rfl).mp hvalues
    exact ⟨iha hf.1 ha, ihb hf.2 hb⟩
  | or a b iha ihb =>
    obtain ⟨ha, hb⟩ := (restorable_append rfl).mp hvalues
    exact ⟨iha hf.1 ha, ihb hf.2 hb⟩
  | not a ih => exact ih hf hvalues
  | test property t =>
    exact ⟨hf.1, Test.wellFormed_restored hf.2 (restorable_test hvalues)⟩

theorem restored_same {f : Filter} (hf : f.WellFormed) (hvalues : f.Restorable) :
    f.restored.same f = true := by
  induction f with
  | and a b iha ihb =>
    obtain ⟨ha, hb⟩ := (restorable_append rfl).mp hvalues
    exact Bool.and_eq_true_iff.mpr ⟨iha hf.1 ha, ihb hf.2 hb⟩
  | or a b iha ihb =>
    obtain ⟨ha, hb⟩ := (restorable_append rfl).mp hvalues
    exact Bool.and_eq_true_iff.mpr ⟨iha hf.1 ha, ihb hf.2 hb⟩
  | not a ih => exact ih hf hvalues
  | test property t =>
    have htest := Test.restored_same hf.2 (restorable_test hvalues)
    exact Bool.and_eq_true_iff.mpr ⟨beq_self_eq_true property, htest⟩

theorem mapTests_withoutRepeats {f : Filter} (hf : f.WellFormed) :
    f.mapTests withoutRepeats = f := by
  induction f with
  | and a b iha ihb => rw [mapTests, iha hf.1, ihb hf.2]
  | or a b iha ihb => rw [mapTests, iha hf.1, ihb hf.2]
  | not a ih => rw [mapTests, ih hf]
  | test property t => rw [mapTests, Test.withoutRepeats_of_wellFormed hf.2]

/-- A well formed tree passes the check as it is. -/
theorem checked_of_wellFormed {f : Filter} (hf : f.WellFormed) : f.checked = .ok f := by
  have hfault : f.firstFault? = none := by
    rw [firstFault?, List.findSome?_eq_none_iff]
    intro p hp
    obtain ⟨hname, ht⟩ := (wellFormed_iff f).mp hf p hp
    exact (fault?_eq_none_iff p.1 p.2).mpr ⟨hname, Test.usable_of_wellFormed ht⟩
  rw [checked, hfault, Option.elim_none, mapTests_withoutRepeats hf]

/-! ### The two sides -/

theorem exists_make_iff (property : String) (t : Test) :
    (∃ f, make property t = .ok f) ↔ fault? property t = none := by
  simp [make_eq_ok_iff]

theorem make_eq_error_iff (property : String) (t : Test) (reason : InvalidFilter) :
    make property t = .error reason ↔ fault? property t = some reason := by
  rw [make_eq_elim]
  cases fault? property t with
  | none => simp
  | some fault => simp

/-- A tree passes the check if each of its tests does. -/
theorem exists_checked_iff (f : Filter) :
    (∃ g, f.checked = .ok g) ↔ ∀ p ∈ f.tests, ∃ g, make p.1 p.2 = .ok g := by
  simp only [exists_make_iff]
  rw [← List.findSome?_eq_none_iff, checked, firstFault?]
  cases f.tests.findSome? fun p ↦ fault? p.1 p.2 with
  | none => simp
  | some reason => simp

/-- A tree that does not pass the check has the fault of its first test that does not. -/
theorem exists_first_of_checked {f : Filter} {fault : StoredFault} (h : f.checked = .error fault) :
    ∃ before p after reason, f.tests = before ++ p :: after ∧
      (∀ q ∈ before, ∃ g, make q.1 q.2 = .ok g) ∧ make p.1 p.2 = .error reason ∧
      fault = .invalid reason := by
  cases hfault : f.firstFault? with
  | none => simp [checked, hfault] at h
  | some reason =>
    obtain ⟨before, p, after, htests, hp, hbefore⟩ := List.findSome?_eq_some_iff.mp hfault
    refine ⟨before, p, after, reason, htests, ?_, (make_eq_error_iff p.1 p.2 reason).mpr hp, ?_⟩
    · exact fun q hq ↦ (exists_make_iff q.1 q.2).mpr (hbefore q hq)
    · simpa [checked, hfault, eq_comm] using h

/-- A well formed filter is read back from its document as the same filter, if the texts of its
points in time are. A document that stands for a tree is read exactly if each test of the tree
passes the check, and then as the tree with each value of a choice once, where it stood first; else
reading fails with the fault of the first test that has one. -/
theorem ofStored_stored_and_of_describes :
    (∀ f : Filter, f.WellFormed → f.Restorable → ∀ access,
      ∃ g, ofStored access f.stored = .ok g ∧ g.same f = true) ∧
    ∀ (document : Json) (f : Filter), Describes document f → ∀ access,
      ((∃ g, ofStored access document = .ok g) ↔ ∀ p ∈ f.tests, ∃ g, make p.1 p.2 = .ok g) ∧
      (∀ g, ofStored access document = .ok g → g = f.mapTests withoutRepeats) ∧
      ∀ fault, ofStored access document = .error fault →
        ∃ before p after reason, f.tests = before ++ p :: after ∧
          (∀ q ∈ before, ∃ g, make q.1 q.2 = .ok g) ∧ make p.1 p.2 = .error reason ∧
          fault = .invalid reason := by
  constructor
  · intro f hf hvalues access
    refine ⟨f.restored, ?_, restored_same hf hvalues⟩
    rw [ofStored_of_describes (describes_stored hf hvalues) access]
    exact checked_of_wellFormed (wellFormed_restored hf hvalues)
  · intro document f h access
    rw [ofStored_of_describes h access]
    refine ⟨exists_checked_iff f, ?_, fun fault ↦ exists_first_of_checked⟩
    intro g hg
    cases hfault : f.firstFault? with
    | none => simpa [checked, hfault, eq_comm] using hg
    | some reason => simp [checked, hfault] at hg

/-- A wide integer of few digits and a point in time on a clock ahead are read back. A document is
not read that stands for a choice with a repeated value next to a test of a blank name. -/
theorem ofStored_stored_and_of_describes_wide :
    (∃ g, ofStored .inPlace (Filter.and (.test "a" (.equals (some (.bigInt 7))))
        (.not (.test "b" (.ordered .less
          (.dateTime ⟨1709627400, 500000000, 7200, by decide, by decide⟩))))).stored = .ok g ∧
      g.same (.and (.test "a" (.equals (some (.bigInt 7))))
        (.not (.test "b" (.ordered .less
          (.dateTime ⟨1709627400, 500000000, 7200, by decide, by decide⟩))))) = true) ∧
    ¬ ∃ g, ofStored .putAside (Filter.or
        (.test "a" (.oneOf [.string "x", .string "x"])) (.test " " .present)).stored = .ok g := by
  constructor
  · apply ofStored_stored_and_of_describes.1
    · simp only [WellFormed, Test.WellFormed]
      decide
    · intro p hp v hv
      apply Value.restorable_of_isRegular
      rintro t rfl
      obtain rfl : t = ⟨1709627400, 500000000, 7200, by decide, by decide⟩ := by
        simp only [tests, List.cons_append, List.nil_append, List.mem_cons, List.not_mem_nil,
          or_false] at hp
        rcases hp with rfl | rfl
        · simp [Test.values] at hv
        · simpa [Test.values] using hv
      exact ⟨by decide, by decide, by decide⟩
  · have hx : Value.Describes (Value.string "x").stored (.string "x") :=
      .object rfl rfl (.string "x")
    have hchoice : Describes (Filter.test "a" (.oneOf [.string "x", .string "x"])).stored
        (.test "a" (.oneOf [.string "x", .string "x"])) :=
      .test rfl rfl rfl (.oneOf rfl (.cons hx (.cons hx .nil)))
    have hblank : Describes (Filter.test " " .present).stored (.test " " .present) :=
      .test rfl rfl rfl .present
    obtain ⟨hread, -, -⟩ := ofStored_stored_and_of_describes.2
      (Filter.or (.test "a" (.oneOf [.string "x", .string "x"])) (.test " " .present)).stored
      _ (.or rfl rfl hchoice hblank) .putAside
    rw [hread]
    intro h
    obtain ⟨f, hf⟩ := h (" ", .present) (by simp [tests])
    cases hf

end Filter

end PropertyFilter
