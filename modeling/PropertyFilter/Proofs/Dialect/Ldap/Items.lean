import PropertyFilter.Proofs.Dialect.Ldap
import PropertyFilter.Proofs.Dialect.Ldap.Parentheses
import PropertyFilter.Proofs.Filter.Checked

/-!
# Names in searches

Names of properties are written as they are, whatever characters they have. A search is read with as
many items as it was written from exactly if each of these is read as an item on its own
(`exists_read?_iff`): the first closing parenthesis of a name is the end of one more item, and if
names have no closing parentheses, an opening one has no counterpart. So the number of items is
right for a filter if it is for each of its tests, and the items have the names of the properties
exactly if these are names of attributes (`query_isItemized_iff`).
-/

set_option autoImplicit false

namespace PropertyFilter

/-! ### Leaves of a filter -/

/-- How often a test counts: a choice once for each of its values, any other test once. -/
def Test.leaves : Test → Nat
  | .oneOf vs => vs.length
  | _ => 1

/-- The properties of all tests from left to right, each as often as the test counts. -/
def Filter.leaves (f : Filter) : List String :=
  f.tests.flatMap fun p ↦ List.replicate p.2.leaves p.1

theorem Filter.leaves_and (a b : Filter) : (and a b).leaves = a.leaves ++ b.leaves :=
  List.flatMap_append

theorem Filter.leaves_or (a b : Filter) : (or a b).leaves = a.leaves ++ b.leaves :=
  List.flatMap_append

namespace Ldap

/-! ### Items of a search -/

namespace Search

/-- The items of a search from left to right: the names, and what is written after them. -/
def items : Search → List (String × List Char)
  | .group _ operands => operands.flatMap items
  | .negation operand => operand.items
  | .item name comparison assertion =>
    [(name, comparison.symbol ++ assertion.flatMap Piece.written)]

/-- Every group of the search has an operand. -/
def Filled : Search → Prop
  | .group _ operands => operands ≠ [] ∧ ∀ operand ∈ operands, operand.Filled
  | .negation operand => operand.Filled
  | .item _ _ _ => True

end Search

/-- A name and what is written after it are read as an item. -/
def Legible (item : String × List Char) : Prop :=
  ∃ parsed, IsItem (item.1.toList ++ item.2) parsed

theorem exists_spells (piece : Piece) : ∃ octets, Spells piece.written octets := by
  cases piece with
  | text cs => exact ⟨_, spells_escape cs⟩
  | bytes bytes => exact ⟨_, spells_bytes bytes⟩
  | wildcard => exact ⟨_, spells_wildcard⟩

theorem flat_assertion (assertion : List Piece) : Flat (assertion.flatMap Piece.written) := by
  induction assertion with
  | nil => exact flat_nil
  | cons piece pieces ih =>
    obtain ⟨octets, hspells⟩ := exists_spells piece
    exact flat_append.2 ⟨hspells.flat, ih⟩

namespace Search

theorem written_group (join : Join) (operands : List Search) :
    (group join operands).written = '(' :: join.symbol :: (writtenAll operands ++ [')']) := by
  rw [written]
  rfl

theorem written_negation (operand : Search) :
    (negation operand).written = '(' :: '!' :: (operand.written ++ [')']) := by
  rw [written]
  rfl

theorem written_item (name : String) (comparison : Comparison) (assertion : List Piece) :
    (item name comparison assertion).written =
      '(' :: (name.toList ++ (comparison.symbol ++ assertion.flatMap Piece.written) ++ [')']) := by
  simp [written]

theorem exists_written (s : Search) : ∃ own, s.written = '(' :: own := by
  cases s with
  | group join operands => exact ⟨_, written_group join operands⟩
  | negation operand => exact ⟨_, written_negation operand⟩
  | item name comparison assertion => exact ⟨_, written_item name comparison assertion⟩

end Search

theorem length_close {own : List Char} : (own ++ [')']).length = own.length + 1 :=
  List.length_append

/-! ### Legible items -/

/-- A search of legible items is read with as many items. -/
theorem exists_reads_and_forall₂ :
    (∀ s : Search, s.Filled → (∀ item ∈ s.items, Legible item) →
      ∃ parsed, Reads s parsed ∧ parsed.names.length = s.items.length) ∧
    ∀ searches : List Search, (∀ s ∈ searches, s.Filled) →
      (∀ item ∈ searches.flatMap Search.items, Legible item) →
        ∃ parsed, List.Forall₂ Reads searches parsed ∧
          (parsed.flatMap Parsed.names).length = (searches.flatMap Search.items).length := by
  refine Search.written.mutual_induct _ _ ?group ?negation ?item ?nil ?cons
  case group =>
    intro join operands ih hfilled hlegible
    rw [Search.Filled] at hfilled
    rw [Search.items] at hlegible ⊢
    obtain ⟨parsed, hreads, hlength⟩ := ih hfilled.2 hlegible
    refine ⟨.group join parsed, reads_group join hreads ?_, by rw [Parsed.names, hlength]⟩
    rintro rfl
    exact hfilled.1 (List.forall₂_nil_right_iff.1 hreads)
  case negation =>
    intro operand ih hfilled hlegible
    rw [Search.Filled] at hfilled
    rw [Search.items] at hlegible ⊢
    obtain ⟨parsed, hreads, hlength⟩ := ih hfilled hlegible
    exact ⟨.negation parsed, reads_negation hreads, by rw [Parsed.names, hlength]⟩
  case item =>
    intro name comparison assertion _ hlegible
    rw [Search.items, List.forall_mem_singleton] at hlegible
    obtain ⟨parsed, hitem⟩ := hlegible
    obtain ⟨_, hnames, -⟩ := hitem.exists_names
    have hlength : parsed.names.length = (Search.item name comparison assertion).items.length := by
      rw [hnames, Search.items, List.length_singleton, List.length_singleton]
    refine ⟨parsed, ⟨_, Search.written_item name comparison assertion, fun rest ↦ ?_⟩, hlength⟩
    rw [List.append_assoc, List.singleton_append]
    exact (hitem.reads rest).trans (congrArg (fun used ↦ some (parsed, used)) length_close.symm)
  case nil =>
    exact fun _ _ ↦ ⟨[], .nil, rfl⟩
  case cons =>
    intro s searches ihfirst ihothers hfilled hlegible
    rw [List.forall_mem_cons] at hfilled
    rw [List.flatMap_cons, List.forall_mem_append] at hlegible
    obtain ⟨first, hfirst, hlength⟩ := ihfirst hfilled.1 hlegible.1
    obtain ⟨others, hothers, hlength'⟩ := ihothers hfilled.2 hlegible.2
    refine ⟨first :: others, .cons hfirst hothers, ?_⟩
    rw [List.flatMap_cons, List.flatMap_cons, List.length_append, List.length_append, hlength,
      hlength']

/-- If no name has a parenthesis, what is read ends where the search was written to end, and the
items are those that were written. -/
theorem legible_of_body? :
    (∀ s : Search, (∀ item ∈ s.items, Flat item.1.toList) → ∀ own, s.written = '(' :: own →
      ∀ rest parsed length, body? (own ++ rest) = some (parsed, length) →
        length = own.length ∧ ∀ item ∈ s.items, Legible item) ∧
    ∀ searches : List Search, (∀ item ∈ searches.flatMap Search.items, Flat item.1.toList) →
      ∀ rest parsed length,
        bodies? (Search.writtenAll searches ++ ')' :: rest) = some (parsed, length) →
          length = (Search.writtenAll searches).length + 1 ∧
            ∀ item ∈ searches.flatMap Search.items, Legible item := by
  refine Search.written.mutual_induct _ _ ?group ?negation ?item ?nil ?cons
  case group =>
    intro join operands ih hflat own hown rest parsed length h
    rw [Search.items] at hflat ⊢
    obtain rfl := List.tail_eq_of_cons_eq ((Search.written_group join operands).symm.trans hown)
    rw [List.cons_append, List.append_assoc] at h
    obtain ⟨_, _, hoperands, -, rfl, rfl⟩ := exists_of_body?_group h
    obtain ⟨rfl, hlegible⟩ := ih hflat _ _ _ hoperands
    exact ⟨by simp, hlegible⟩
  case negation =>
    intro operand ih hflat own hown rest parsed length h
    rw [Search.items] at hflat ⊢
    obtain ⟨own', hown'⟩ := operand.exists_written
    obtain rfl := List.tail_eq_of_cons_eq ((Search.written_negation operand).symm.trans hown)
    rw [hown', List.cons_append, List.cons_append, List.cons_append, List.append_assoc] at h
    obtain ⟨_, _, hoperand, -, rfl, rfl⟩ := exists_of_body?_negation h
    obtain ⟨rfl, hlegible⟩ := ih hflat _ hown' _ _ _ hoperand
    exact ⟨by simp [hown'], hlegible⟩
  case item =>
    intro name comparison assertion hflat own hown rest parsed length h
    rw [Search.items, List.forall_mem_singleton] at hflat ⊢
    obtain rfl := List.tail_eq_of_cons_eq ((Search.written_item _ _ _).symm.trans hown)
    have hitem : Flat (name.toList ++ (comparison.symbol ++ assertion.flatMap Piece.written)) :=
      flat_append.2 ⟨hflat, flat_append.2 ⟨flat_symbol _, flat_assertion _⟩⟩
    rw [List.append_assoc, List.singleton_append] at h
    obtain ⟨rfl, his⟩ := isItem_of_body? hitem h
    exact ⟨length_close.symm, _, his⟩
  case nil =>
    intro _ rest parsed length h
    rw [Search.writtenAll, List.nil_append, bodies?] at h
    cases h
    exact ⟨rfl, by simp⟩
  case cons =>
    intro s searches ihfirst ihothers hflat rest parsed length h
    rw [List.flatMap_cons, List.forall_mem_append] at hflat ⊢
    obtain ⟨own, hown⟩ := s.exists_written
    rw [Search.writtenAll, hown, List.cons_append, List.cons_append, List.append_assoc] at h
    obtain ⟨_, _, _, _, hfirst, hothers, rfl, rfl⟩ := exists_of_bodies?_open h
    obtain ⟨rfl, hlegible⟩ := ihfirst hflat.1 _ hown _ _ _ hfirst
    rw [List.drop_left] at hothers
    obtain ⟨rfl, hlegible'⟩ := ihothers hflat.2 _ _ _ hothers
    refine ⟨?_, hlegible, hlegible'⟩
    rw [Search.writtenAll, hown, List.length_append, List.length_cons]
    omega

/-! ### Parentheses in names -/

/-- The names of items one after the other. -/
def namesText (items : List (String × List Char)) : List Char :=
  items.flatMap fun item ↦ item.1.toList

/-- The closing parentheses of names that do not follow another one. -/
def namesEnds (items : List (String × List Char)) : Nat :=
  (items.map fun item ↦ ends false item.1.toList).sum

/-- Parentheses are balanced but for those of the names. -/
theorem count_written :
    (∀ s : Search, s.written.count ')' + (namesText s.items).count '(' =
      s.written.count '(' + (namesText s.items).count ')') ∧
    ∀ searches : List Search,
      (Search.writtenAll searches).count ')' +
          (namesText (searches.flatMap Search.items)).count '(' =
        (Search.writtenAll searches).count '(' +
          (namesText (searches.flatMap Search.items)).count ')' := by
  refine Search.written.mutual_induct _ _ ?group ?negation ?item ?nil ?cons
  case group =>
    intro join operands ih
    have hsymbol : join.symbol ≠ '(' ∧ join.symbol ≠ ')' := by cases join <;> decide
    simp only [Search.items, Search.written_group, List.count_append, List.count_cons_self,
      List.count_nil, List.count_cons_of_ne, hsymbol.1, hsymbol.2, ne_eq, Char.reduceEq,
      not_false_eq_true]
    omega
  case negation =>
    intro operand ih
    simp only [Search.items, Search.written_negation, List.count_append, List.count_cons_self,
      List.count_nil, List.count_cons_of_ne, ne_eq, Char.reduceEq, not_false_eq_true]
    omega
  case item =>
    intro name comparison assertion
    have hsymbol := flat_symbol comparison
    have hassertion := flat_assertion assertion
    simp only [Search.items, Search.written_item, namesText, List.flatMap_cons, List.flatMap_nil,
      List.append_nil, List.count_append, List.count_cons_self, List.count_nil,
      List.count_cons_of_ne, List.count_eq_zero.2 hsymbol.1, List.count_eq_zero.2 hsymbol.2,
      List.count_eq_zero.2 hassertion.1, List.count_eq_zero.2 hassertion.2, ne_eq, Char.reduceEq,
      not_false_eq_true]
    omega
  case nil =>
    rfl
  case cons =>
    intro s searches ihfirst ihothers
    simp only [Search.writtenAll, namesText, List.flatMap_cons, List.flatMap_append,
      List.count_append] at ihfirst ihothers ⊢
    omega

/-- Items end with a closing parenthesis that does not follow another, besides those of names. -/
theorem ends_written :
    (∀ s : Search, s.Filled → ∀ after rest, ends after (s.written ++ rest) =
      s.items.length + namesEnds s.items + ends true rest) ∧
    ∀ searches : List Search, (∀ s ∈ searches, s.Filled) →
      ∀ after rest, searches ≠ [] ∨ after = true → ends after (Search.writtenAll searches ++ rest) =
        (searches.flatMap Search.items).length + namesEnds (searches.flatMap Search.items) +
          ends true rest := by
  refine Search.written.mutual_induct _ _ ?group ?negation ?item ?nil ?cons
  case group =>
    intro join operands ih hfilled after rest
    rw [Search.Filled] at hfilled
    have hoperands := ih hfilled.2 false (')' :: rest) (.inl hfilled.1)
    simp only [Search.written, Search.items, List.cons_append, List.append_assoc, List.nil_append]
    rw [ends_cons_of_ne (by decide), ends_cons_of_ne (by cases join <;> decide), hoperands,
      ends_close]
    simp
  case negation =>
    intro operand ih hfilled after rest
    rw [Search.Filled] at hfilled
    have hoperand := ih hfilled false (')' :: rest)
    simp only [Search.written, Search.items, List.cons_append, List.append_assoc, List.nil_append]
    rw [ends_cons_of_ne (by decide), ends_cons_of_ne (by decide), hoperand, ends_close]
    simp
  case item =>
    intro name comparison assertion _ after rest
    obtain ⟨d, ds, hsymbol, hd⟩ : ∃ d ds, comparison.symbol = d :: ds ∧ d ≠ ')' := by
      cases comparison <;> exact ⟨_, _, rfl, by decide⟩
    have hafter := (flat_append.2 ⟨flat_symbol comparison, flat_assertion assertion⟩).2
    rw [hsymbol, List.cons_append, List.mem_cons, not_or] at hafter
    rw [Search.written_item, Search.items, List.cons_append, ends_cons_of_ne (by decide), hsymbol]
    simp only [List.append_assoc, List.cons_append, List.nil_append]
    rw [ends_append_cons _ _ hd, ← List.append_assoc, ends_flat hafter.2, ends_close]
    simp only [namesEnds, List.length_singleton, List.map_singleton, List.sum_singleton,
      Bool.false_eq_true, if_false]
    omega
  case nil =>
    intro _ after rest hafter
    obtain rfl := hafter.resolve_left (not_not_intro rfl)
    simp [Search.writtenAll, namesEnds]
  case cons =>
    intro s searches ihfirst ihothers hfilled after rest _
    rw [List.forall_mem_cons] at hfilled
    rw [Search.writtenAll, List.append_assoc, ihfirst hfilled.1,
      ihothers hfilled.2 true rest (.inr rfl)]
    simp only [namesEnds, List.flatMap_cons, List.length_append, List.map_append, List.sum_append]
    omega

theorem flat_of_namesEnds_eq_zero {items : List (String × List Char)}
    (hends : namesEnds items = 0)
    (hcount : (namesText items).count '(' = (namesText items).count ')') :
    ∀ item ∈ items, Flat item.1.toList := by
  have hclose : ∀ item ∈ items, ')' ∉ item.1.toList := by
    intro item hitem
    rw [namesEnds, List.sum_eq_zero_iff_forall_eq_nat] at hends
    exact notMem_of_ends_eq_zero (hends _ (List.mem_map_of_mem hitem))
  have hnone : (namesText items).count ')' = 0 := by
    rw [List.count_eq_zero, namesText, List.mem_flatMap]
    rintro ⟨item, hitem, hmem⟩
    exact hclose item hitem hmem
  rw [hnone, List.count_eq_zero] at hcount
  exact fun item hitem ↦
    ⟨fun hmem ↦ hcount (List.mem_flatMap.2 ⟨item, hitem, hmem⟩), hclose item hitem⟩

/-- A search is read with as many items as it was written from exactly if each of them is read as an
item on its own. -/
theorem exists_read?_iff {s : Search} (hs : s.Filled) :
    (∃ parsed, read? s.written = some parsed ∧ parsed.names.length = s.items.length) ↔
      ∀ item ∈ s.items, Legible item := by
  constructor
  · rintro ⟨parsed, hread, hlength⟩
    obtain ⟨own, hown⟩ := s.exists_written
    rw [hown] at hread
    obtain ⟨hbody, hcloses⟩ := closes_of_read? hread
    have hends := ends_written.1 s hs false []
    have hcount := count_written.1 s
    have hends' := hcloses.ends_eq []
    have hcount' := hcloses.count_eq
    rw [hown, List.cons_append, ends_cons_of_ne (by decide), hends', hlength] at hends
    rw [hown, List.count_cons_of_ne (by decide), List.count_cons_self, hcount'] at hcount
    have hflat : ∀ item ∈ s.items, Flat item.1.toList :=
      flat_of_namesEnds_eq_zero (by omega) (by omega)
    rw [← List.append_nil own] at hbody
    exact (legible_of_body?.1 s hflat own hown [] _ _ hbody).2
  · intro hlegible
    obtain ⟨parsed, hreads, hlength⟩ := exists_reads_and_forall₂.1 s hs hlegible
    exact ⟨parsed, read?_written hreads, hlength⟩

/-! ### Tests and filters -/

/-- The items of all tests of a filter. -/
def itemsOfTests (f : Filter) : List (String × List Char) :=
  f.tests.flatMap fun p ↦ (Search.ofTest p.1 p.2).items

theorem itemsOfTests_and (a b : Filter) :
    itemsOfTests (.and a b) = itemsOfTests a ++ itemsOfTests b := List.flatMap_append

theorem itemsOfTests_or (a b : Filter) :
    itemsOfTests (.or a b) = itemsOfTests a ++ itemsOfTests b := List.flatMap_append

/-- A test is searched for as an item, or the negation of one, unless it is a choice. -/
theorem ofTest_cases (property : String) (t : Test) :
    (t.leaves = 1 ∧ ∃ comparison assertion,
      Search.ofTest property t = .item property comparison assertion ∨
        Search.ofTest property t = .negation (.item property comparison assertion)) ∨
      ∃ vs, t = .oneOf vs := by
  cases t with
  | equals v =>
    cases v with
    | none => exact .inl ⟨rfl, _, _, .inr rfl⟩
    | some v => exact .inl ⟨rfl, _, _, .inl rfl⟩
  | differs v =>
    cases v with
    | none => exact .inl ⟨rfl, _, _, .inl rfl⟩
    | some v => exact .inl ⟨rfl, _, _, .inr rfl⟩
  | ordered relation bound =>
    refine .inl ⟨rfl, ?_⟩
    rw [Search.ofTest]
    cases relation with
    | greaterOrEqual => exact ⟨_, _, .inl rfl⟩
    | lessOrEqual => exact ⟨_, _, .inl rfl⟩
    | greater =>
      rw [Search.bounded]
      cases bound.successor with
      | none => exact ⟨_, _, .inr rfl⟩
      | some next => exact ⟨_, _, .inl rfl⟩
    | less =>
      rw [Search.bounded]
      cases bound.predecessor with
      | none => exact ⟨_, _, .inr rfl⟩
      | some previous => exact ⟨_, _, .inl rfl⟩
  | text test pattern => exact .inl ⟨rfl, _, _, .inl rfl⟩
  | present => exact .inl ⟨rfl, _, _, .inl rfl⟩
  | oneOf vs => exact .inr ⟨vs, rfl⟩

theorem map_fst_items_ofTest (property : String) (t : Test) :
    (Search.ofTest property t).items.map Prod.fst = List.replicate t.leaves property := by
  obtain ⟨hone, comparison, assertion, heq | heq⟩ | ⟨vs, rfl⟩ := ofTest_cases property t
  · simp [heq, hone, Search.items]
  · simp [heq, hone, Search.items]
  · rw [Search.ofTest, Search.items, List.flatMap_map, List.map_flatMap, Test.leaves]
    simp [Search.items, ← List.map_eq_flatMap]

theorem map_fst_itemsOfTests (f : Filter) : (itemsOfTests f).map Prod.fst = f.leaves := by
  rw [itemsOfTests, List.map_flatMap, Filter.leaves]
  simp only [map_fst_items_ofTest]

theorem filled_ofTest (property : String) {t : Test} (ht : t.WellFormed) :
    (Search.ofTest property t).Filled := by
  obtain ⟨-, comparison, assertion, heq | heq⟩ | ⟨vs, rfl⟩ := ofTest_cases property t
  · simp [heq, Search.Filled]
  · simp [heq, Search.Filled]
  · simpa [Search.ofTest, Search.Filled] using ht.1

theorem items_negationOf (f : Filter) :
    (Search.negationOf f (Search.ofFilter f)).items = (Search.ofFilter f).items := by
  cases f with
  | test property t =>
    cases t with
    | equals v =>
      cases v <;> simp [Search.negationOf, Search.ofFilter, Search.ofTest, Search.equals,
        Search.differs, Search.items]
    | _ => simp [Search.negationOf, Search.items]
  | _ => simp [Search.negationOf, Search.items]

theorem filled_negationOf {f : Filter} (hf : (Search.ofFilter f).Filled) :
    (Search.negationOf f (Search.ofFilter f)).Filled := by
  cases f with
  | test property t =>
    cases t with
    | equals v =>
      cases v <;> simp [Search.negationOf, Search.differs, Search.present, Search.Filled]
    | _ => simpa [Search.negationOf, Search.Filled] using hf
  | _ => simpa [Search.negationOf, Search.Filled] using hf

/-- The items of a filter, and of what it adds to either kind of group, are those of its tests. -/
theorem items_ofFilter (f : Filter) :
    (Search.ofFilter f).items = itemsOfTests f ∧
      (Search.conjuncts f).flatMap Search.items = itemsOfTests f ∧
      (Search.disjuncts f).flatMap Search.items = itemsOfTests f := by
  induction f with
  | and a b iha ihb =>
    have hitems : (Search.conjuncts a ++ Search.conjuncts b).flatMap Search.items =
        itemsOfTests (.and a b) := by
      rw [List.flatMap_append, iha.2.1, ihb.2.1, itemsOfTests_and]
    simp only [Search.ofFilter, Search.conjuncts, Search.disjuncts, Search.items,
      List.flatMap_singleton, hitems, and_self]
  | or a b iha ihb =>
    have hitems : (Search.disjuncts a ++ Search.disjuncts b).flatMap Search.items =
        itemsOfTests (.or a b) := by
      rw [List.flatMap_append, iha.2.2, ihb.2.2, itemsOfTests_or]
    simp only [Search.ofFilter, Search.conjuncts, Search.disjuncts, Search.items,
      List.flatMap_singleton, hitems, and_self]
  | not a ih =>
    have hitems : (Search.negationOf a (Search.ofFilter a)).items = itemsOfTests (.not a) :=
      (items_negationOf a).trans ih.1
    simp only [Search.ofFilter, Search.conjuncts, Search.disjuncts, List.flatMap_singleton, hitems,
      and_self]
  | test property t =>
    simp only [Search.ofFilter, Search.conjuncts, Search.disjuncts, List.flatMap_singleton,
      itemsOfTests, Filter.tests, and_self]

theorem conjuncts_ne_nil (f : Filter) : Search.conjuncts f ≠ [] := by
  induction f with
  | and a b iha _ => exact List.append_ne_nil_of_left_ne_nil iha _
  | _ => exact List.cons_ne_nil _ _

theorem disjuncts_ne_nil (f : Filter) : Search.disjuncts f ≠ [] := by
  induction f with
  | or a b iha _ => exact List.append_ne_nil_of_left_ne_nil iha _
  | _ => exact List.cons_ne_nil _ _

theorem filled_ofFilter {f : Filter} (hf : f.WellFormed) :
    (Search.ofFilter f).Filled ∧ (∀ s ∈ Search.conjuncts f, s.Filled) ∧
      ∀ s ∈ Search.disjuncts f, s.Filled := by
  induction f with
  | and a b iha ihb =>
    have hconjuncts := List.forall_mem_append.2 ⟨(iha hf.1).2.1, (ihb hf.2).2.1⟩
    have hfilled : (Search.ofFilter (.and a b)).Filled := by
      rw [Search.ofFilter, Search.Filled]
      exact ⟨List.append_ne_nil_of_left_ne_nil (conjuncts_ne_nil a) _, hconjuncts⟩
    exact ⟨hfilled, hconjuncts, List.forall_mem_singleton.2 hfilled⟩
  | or a b iha ihb =>
    have hdisjuncts := List.forall_mem_append.2 ⟨(iha hf.1).2.2, (ihb hf.2).2.2⟩
    have hfilled : (Search.ofFilter (.or a b)).Filled := by
      rw [Search.ofFilter, Search.Filled]
      exact ⟨List.append_ne_nil_of_left_ne_nil (disjuncts_ne_nil a) _, hdisjuncts⟩
    exact ⟨hfilled, List.forall_mem_singleton.2 hfilled, hdisjuncts⟩
  | not a ih =>
    have hfilled := filled_negationOf (ih hf).1
    exact ⟨hfilled, List.forall_mem_singleton.2 hfilled, List.forall_mem_singleton.2 hfilled⟩
  | test property t =>
    have hfilled := filled_ofTest property hf.2
    exact ⟨hfilled, List.forall_mem_singleton.2 hfilled, List.forall_mem_singleton.2 hfilled⟩

/-- The filter is written as one search, with as many items as the filter has leaves. -/
def IsItemized (f : Filter) : Prop :=
  ∃ text parsed, f.query .ldap = .ok text ∧ read? text.toList = some parsed ∧
    parsed.names.length = f.leaves.length

theorem isItemized_iff {f : Filter} (hf : f.WellFormed) :
    IsItemized f ↔ ∀ item ∈ itemsOfTests f, Legible item := by
  have hitems := (items_ofFilter f).1
  have hlength : f.leaves.length = (Search.ofFilter f).items.length := by
    rw [hitems, ← map_fst_itemsOfTests, List.length_map]
  rw [← hitems, ← exists_read?_iff (filled_ofFilter hf).1]
  constructor
  · rintro ⟨text, parsed, hquery, hread, hleaves⟩
    cases hquery
    rw [String.toList_ofList] at hread
    exact ⟨parsed, hread, hleaves.trans hlength⟩
  · rintro ⟨parsed, hread, hleaves⟩
    refine ⟨_, parsed, rfl, ?_, hleaves.trans hlength.symm⟩
    rw [String.toList_ofList]
    exact hread

theorem names_intendedTest (property : String) (t : Test) :
    (intendedTest property t).names = List.replicate t.leaves property := by
  cases t with
  | equals v => cases v <;> simp [intendedTest, has, hasAny, Parsed.names, Test.leaves]
  | differs v => cases v <;> simp [intendedTest, has, hasAny, Parsed.names, Test.leaves]
  | ordered relation bound =>
    cases relation <;> simp only [intendedTest, intendedBound, Test.leaves]
    all_goals try split
    all_goals simp [Parsed.names]
  | text test pattern => cases test <;> simp [intendedTest, Parsed.names, Test.leaves]
  | present => simp [intendedTest, hasAny, Parsed.names, Test.leaves]
  | oneOf vs =>
    rw [intendedTest, Parsed.names, List.flatMap_map, Test.leaves]
    simp [has, Parsed.names, ← List.map_eq_flatMap]

theorem names_part (join : Join) (f : Filter) :
    (part join f (intended f)).flatMap Parsed.names = (intended f).names := by
  cases f with
  | and a b =>
    cases join <;> simp [part, joined?, intended, Parsed.operands, Parsed.names]
  | or a b =>
    cases join <;> simp [part, joined?, intended, Parsed.operands, Parsed.names]
  | _ => simp [part, joined?]

/-- What a filter is to be read as has the items of its tests. -/
theorem names_intended (f : Filter) : (intended f).names = f.leaves := by
  induction f with
  | and a b iha ihb =>
    rw [intended, Parsed.names, List.flatMap_append, names_part, names_part, iha, ihb,
      Filter.leaves_and]
  | or a b iha ihb =>
    rw [intended, Parsed.names, List.flatMap_append, names_part, names_part, iha, ihb,
      Filter.leaves_or]
  | not a ih =>
    have hleaves : (Filter.not a).leaves = a.leaves := rfl
    rw [hleaves, ← ih]
    cases a with
    | test property t =>
      cases t with
      | equals v =>
        cases v <;> simp [intended, intendedTest, has, hasAny, Parsed.names]
      | _ => simp [intended, Parsed.names]
    | _ => simp [intended, Parsed.names]
  | test property t => simp [intended, names_intendedTest, Filter.leaves, Filter.tests]

theorem mem_replicate_leaves {t : Test} (ht : t.WellFormed) (property : String) :
    property ∈ List.replicate t.leaves property := by
  rw [List.mem_replicate]
  refine ⟨?_, rfl⟩
  cases t with
  | oneOf vs => simpa [Test.leaves] using ht.1
  | _ => exact Nat.one_ne_zero

theorem mem_leaves {f : Filter} (hf : f.WellFormed) {p : String × Test} (hp : p ∈ f.tests) :
    p.1 ∈ f.leaves :=
  List.mem_flatMap.2 ⟨p, hp, mem_replicate_leaves ((f.wellFormed_iff.1 hf) p hp).2 p.1⟩

/-- The text of a filter is one search whose items have the names of the leaves, one after the
other, exactly if these are names of attributes. It is one search with as many items as there are
leaves exactly if the text of each test is, and only if no property has a parenthesis. -/
theorem query_isItemized_iff {f : Filter} (hf : f.WellFormed) :
    ((∃ text parsed, f.query .ldap = .ok text ∧ read? text.toList = some parsed ∧
        parsed.names = f.leaves) ↔ ∀ p ∈ f.tests, IsAttribute p.1) ∧
      (IsItemized f ↔ ∀ p ∈ f.tests, IsItemized (.test p.1 p.2)) ∧
      (IsItemized f → ∀ p ∈ f.tests, Flat p.1.toList) := by
  refine ⟨⟨?_, fun hnames ↦ ?_⟩, ?_, fun hitemized p hp ↦ ?_⟩
  · rintro ⟨text, parsed, hquery, hread, hnames⟩ p hp
    cases hquery
    obtain ⟨own, hown⟩ := (Search.ofFilter f).exists_written
    rw [String.toList_ofList, query, hown] at hread
    exact (closes_of_read? hread).2.isAttribute _ (hnames ▸ mem_leaves hf hp)
  · refine ⟨_, intended f, rfl, ?_, names_intended f⟩
    rw [String.toList_ofList]
    exact read?_written (reads_ofFilter hnames hf).1
  · have htests : ∀ p ∈ f.tests, (Filter.test p.1 p.2).WellFormed := f.wellFormed_iff.1 hf
    rw [isItemized_iff hf, itemsOfTests, List.forall_mem_flatMap]
    refine forall₂_congr fun p hp ↦ ?_
    rw [isItemized_iff (htests p hp), itemsOfTests, Filter.tests, List.flatMap_singleton]
  · have hlegible := (isItemized_iff hf).1 hitemized
    have hmem := mem_leaves hf hp
    rw [← map_fst_itemsOfTests] at hmem
    obtain ⟨item, hitem, heq⟩ := List.mem_map.1 hmem
    obtain ⟨parsed, his⟩ := hlegible item hitem
    rw [← heq]
    exact (flat_append.1 his.flat).1

/-- A choice of values with parentheses, and a name that is one. -/
theorem query_isItemized_iff_parentheses :
    let f : Filter := .not (.or (.test "ou;x" (.oneOf [.string ")(", .int 7]))
      (.test "a.b" .present))
    let g : Filter := .test "(" .present
    f.WellFormed ∧ g.WellFormed ∧
      (∃ text parsed, f.query .ldap = .ok text ∧ read? text.toList = some parsed ∧
        parsed.names = ["ou;x", "ou;x", "a.b"]) ∧
      ¬ IsItemized g := by
  intro f g
  have hf : f.WellFormed := by
    simp [f, Filter.WellFormed, Test.WellFormed, Test.Distinct, Value.isUsable, Value.same,
      Text.allBlank, Text.isBlank, Text.inRanges, Text.blankRanges]
  have hg : g.WellFormed := by
    simp [g, Filter.WellFormed, Test.WellFormed, Text.allBlank, Text.isBlank, Text.inRanges,
      Text.blankRanges]
  have hnames : ∀ p ∈ f.tests, IsAttribute p.1 := by
    simp [f, Filter.tests, IsAttribute, isAttributePart]
  refine ⟨hf, hg, (query_isItemized_iff hf).1.2 hnames, fun hitemized ↦ ?_⟩
  have hflat := (query_isItemized_iff hg).2.2 hitemized ("(", .present) (List.mem_singleton_self _)
  exact hflat.1 (by decide)

/-- A name that ends an item and begins another one: there are three items for two tests. -/
theorem not_isItemized_of_name :
    let f : Filter := .and (.test "cn=a)(mail" .present) (.test "x" .present)
    f.WellFormed ∧ f.query .ldap = .ok "(&(cn=a)(mail=*)(x=*))" ∧ f.leaves.length = 2 ∧
      (∃ parsed, read? "(&(cn=a)(mail=*)(x=*))".toList = some parsed ∧
        parsed.names = ["cn", "mail", "x"]) ∧
      ¬ IsItemized f := by
  intro f
  have hf : f.WellFormed := by
    simp [f, Filter.WellFormed, Test.WellFormed, Text.allBlank, Text.isBlank, Text.inRanges,
      Text.blankRanges]
  have hquery : f.query .ldap = .ok "(&(cn=a)(mail=*)(x=*))" :=
    congrArg Except.ok (by decide +kernel)
  -- The same text is that of a filter with three tests, whose names are those of attributes.
  let g : Filter := .and (.and (.test "cn" (.equals (some (.string "a")))) (.test "mail" .present))
    (.test "x" .present)
  have hg : g.WellFormed := by
    simp [g, Filter.WellFormed, Test.WellFormed, Value.isUsable, Text.allBlank, Text.isBlank,
      Text.inRanges, Text.blankRanges]
  have hnames : ∀ p ∈ g.tests, IsAttribute p.1 := by
    simp [g, Filter.tests, IsAttribute, isAttributePart]
  have hwritten : (Search.ofFilter g).written = "(&(cn=a)(mail=*)(x=*))".toList := by
    decide +kernel
  have hread : read? "(&(cn=a)(mail=*)(x=*))".toList = some (intended g) := by
    rw [← hwritten]
    exact read?_written (reads_ofFilter hnames hg).1
  refine ⟨hf, hquery, rfl, ⟨intended g, hread, names_intended g⟩, ?_⟩
  rintro ⟨text, parsed, htext, hparsed, hlength⟩
  rw [hquery] at htext
  cases htext
  rw [hread] at hparsed
  cases hparsed
  rw [names_intended] at hlength
  exact absurd hlength (by decide)

end Ldap

end PropertyFilter
