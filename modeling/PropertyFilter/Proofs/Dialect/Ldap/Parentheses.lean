import Mathlib.Data.List.TakeWhile
import PropertyFilter.Proofs.Dialect.Ldap.Reading

/-!
# Parentheses of searches

What a text that is read as a search has to look like, whoever wrote it. An item ends with the first
parenthesis after its attribute, and a group or a negation ends with one that follows another. So
the number of items is that of the closing parentheses that do not follow another one (`ends`), as
`Closes` says together with the two other facts that are kept by groups and negations: there are as
many opening parentheses as closing ones, and the names of all items are attributes
(`closes_of_body?`).
-/

set_option autoImplicit false

namespace PropertyFilter.Ldap

open Text

/-- The names of the items, from left to right. -/
def Parsed.names : Parsed → List String
  | .group _ operands => operands.flatMap names
  | .negation operand => operand.names
  | .item name _ _ => [name]

/-! ### Text without parentheses -/

/-- Text without parentheses. -/
def Flat (cs : List Char) : Prop := '(' ∉ cs ∧ ')' ∉ cs

theorem flat_nil : Flat [] := ⟨List.not_mem_nil, List.not_mem_nil⟩

theorem flat_append {cs ds : List Char} : Flat (cs ++ ds) ↔ Flat cs ∧ Flat ds := by
  simp only [Flat, List.mem_append, not_or]
  tauto

theorem flat_cons {c : Char} {cs : List Char} :
    Flat (c :: cs) ↔ (c ≠ '(' ∧ c ≠ ')') ∧ Flat cs := by
  simp only [Flat, List.mem_cons, not_or, ne_comm]
  tauto

/-- Texts that are the same are so up to their first closing parentheses. -/
theorem append_close_inj {own own' rest rest' : List Char} (hown : Flat own) (hown' : Flat own')
    (h : own ++ ')' :: rest = own' ++ ')' :: rest') : own = own' ∧ rest = rest' := by
  induction own generalizing own' with
  | nil =>
    cases own' with
    | nil => exact ⟨rfl, (List.cons.inj h).2⟩
    | cons d own' => exact absurd (List.cons.inj h).1.symm (flat_cons.1 hown').1.2
  | cons c own ih =>
    cases own' with
    | nil => exact absurd (List.cons.inj h).1 (flat_cons.1 hown).1.2
    | cons d own' =>
      obtain ⟨rfl, htail⟩ := List.cons.inj h
      obtain ⟨rfl, rfl⟩ := ih (flat_cons.1 hown).2 (flat_cons.1 hown').2 htail
      exact ⟨rfl, rfl⟩

theorem ne_of_hexValue? {c d : Char} {n : Nat} (h : hexValue? c = some n)
    (hd : hexValue? d = none) : c ≠ d := by
  rintro rfl
  rw [hd] at h
  cases h

/-! ### Items -/

/-- What is read as an assertion has no parenthesis, except that at its end. -/
theorem spells_of_octets? {cs : List Char} {octets : List Octet} {length : Nat}
    (h : octets? cs = some (octets, length)) :
    ∃ own rest, cs = own ++ ')' :: rest ∧ length = own.length + 1 ∧ Flat own ∧
      Spells own octets := by
  -- One character or escape, and what follows it.
  have hstep (own : List Char) {cs : List Char} {first octets : List Octet} {length : Nat}
      (hflat : Flat own) (hspells : Spells own first)
      (ih : ∀ {octets length}, octets? cs = some (octets, length) →
        ∃ own rest, cs = own ++ ')' :: rest ∧ length = own.length + 1 ∧ Flat own ∧
          Spells own octets)
      (h : (octets? cs).map (onto first own.length) = some (octets, length)) :
      ∃ own' rest, own ++ cs = own' ++ ')' :: rest ∧ length = own'.length + 1 ∧ Flat own' ∧
        Spells own' octets := by
    obtain ⟨⟨others, used⟩, hothers, honto⟩ := Option.map_eq_some_iff.1 h
    obtain ⟨own', rest, rfl, rfl, hflat', hspells'⟩ := ih hothers
    cases honto
    exact ⟨own ++ own', rest, by rw [List.append_assoc], by rw [List.length_append, Nat.add_assoc],
      flat_append.2 ⟨hflat, hflat'⟩, hspells.append hspells'⟩
  fun_induction octets? cs generalizing octets length with
  | case1 => cases h
  | case2 rest =>
    cases h
    exact ⟨[], rest, rfl, rfl, flat_nil, spells_nil⟩
  | case3 rest ih => exact hstep ['*'] (by simp [Flat]) spells_wildcard ih h
  | case4 high low rest a b hlow hhigh ih =>
    refine hstep ['\\', high, low] ?_ (spells_hexadecimal hhigh hlow) ih h
    have hopen : hexValue? '(' = none := by decide
    have hclose : hexValue? ')' = none := by decide
    refine flat_cons.2 ⟨by decide, flat_cons.2 ⟨?_, flat_cons.2 ⟨?_, flat_nil⟩⟩⟩
    · exact ⟨ne_of_hexValue? hhigh hopen, ne_of_hexValue? hhigh hclose⟩
    · exact ⟨ne_of_hexValue? hlow hopen, ne_of_hexValue? hlow hclose⟩
  | case5 => cases h
  | case6 => cases h
  | case7 c rest hclose hstar _ hother ih =>
    have hopen : c ≠ '(' := fun heq ↦ hother (.inl heq)
    exact hstep [c] (flat_cons.2 ⟨⟨hopen, hclose⟩, flat_nil⟩) (spells_char hclose hstar hother) ih h

theorem Spells.flat {own : List Char} {octets : List Octet} (h : Spells own octets) :
    Flat own := by
  have hread : octets? (own ++ [')']) = some (octets, own.length + 1) := by
    rw [h, octets?, Option.map_some, onto, List.append_nil]
  obtain ⟨own', rest, heq, hlength, hflat, -⟩ := spells_of_octets? hread
  have hown : own = own' := List.append_inj_left heq (Nat.succ.inj hlength)
  rwa [hown]

/-- A text that is an item if a parenthesis is written in front of it and another one after it. -/
inductive IsItem : List Char → Parsed → Prop
  | mk {name : String} {comparison : Comparison} {assertion : List Char} {octets : List Octet}
      (isAttribute : IsAttribute name) (spells : Spells assertion octets)
      (wildcard : comparison ≠ .equal → .wildcard ∉ octets) :
      IsItem (name.toList ++ (comparison.symbol ++ assertion)) (.item name comparison octets)

theorem IsAttribute.flat {name : String} (h : IsAttribute name) : Flat name.toList :=
  ⟨fun hmem ↦ absurd (h.2 _ hmem) (by decide), fun hmem ↦ absurd (h.2 _ hmem) (by decide)⟩

theorem flat_symbol (comparison : Comparison) : Flat comparison.symbol := by
  cases comparison <;> simp [Flat, Comparison.symbol]

namespace IsItem

variable {own : List Char} {parsed : Parsed}

theorem flat (h : IsItem own parsed) : Flat own := by
  obtain ⟨hattribute, hspells, -⟩ := h
  exact flat_append.2 ⟨hattribute.flat, flat_append.2 ⟨flat_symbol _, hspells.flat⟩⟩

theorem reads (h : IsItem own parsed) (rest : List Char) :
    body? (own ++ ')' :: rest) = some (parsed, own.length + 1) := by
  obtain ⟨hattribute, hspells, hwildcard⟩ := h
  have hbody := body?_item hattribute hspells hwildcard rest
  simpa only [List.append_assoc, List.length_append, Nat.add_assoc] using hbody

theorem exists_names (h : IsItem own parsed) :
    ∃ name, parsed.names = [name] ∧ IsAttribute name := by
  obtain ⟨hattribute, -, -⟩ := h
  exact ⟨_, by rw [Parsed.names], hattribute⟩

end IsItem

theorem comparison?_eq_some {cs : List Char} {comparison : Comparison} {length : Nat}
    (h : comparison? cs = some (comparison, length)) :
    ∃ rest, cs = comparison.symbol ++ rest ∧ length = comparison.symbol.length := by
  revert h
  fun_cases comparison? cs with
  | case1 rest =>
    rintro ⟨⟩
    exact ⟨rest, rfl, rfl⟩
  | case2 rest =>
    rintro ⟨⟩
    exact ⟨rest, rfl, rfl⟩
  | case3 rest =>
    rintro ⟨⟩
    exact ⟨rest, rfl, rfl⟩
  | case4 => rintro ⟨⟩

theorem isItem_of_item? {cs : List Char} {parsed : Parsed} {length : Nat}
    (h : item? cs = some (parsed, length)) :
    ∃ own rest, cs = own ++ ')' :: rest ∧ length = own.length + 1 ∧ IsItem own parsed := by
  simp only [item?, Option.bind_eq_bind, Option.bind_eq_some_iff] at h
  obtain ⟨⟨comparison, _⟩, hcomparison, ⟨octets, _⟩, hoctets, hvalid⟩ := h
  obtain ⟨tail, htail⟩ := List.takeWhile_prefix isAttributePart (l := cs)
  generalize hname : cs.takeWhile isAttributePart = name at hcomparison hoctets hvalid htail
  subst htail
  rw [List.drop_left] at hcomparison hoctets
  obtain ⟨tail, rfl, rfl⟩ := comparison?_eq_some hcomparison
  rw [List.drop_left] at hoctets
  obtain ⟨assertion, rest, rfl, rfl, -, hspells⟩ := spells_of_octets? hoctets
  split at hvalid
  · cases hvalid
  · next hitem =>
    cases hvalid
    rw [not_or, not_and] at hitem
    have hattribute : IsAttribute (String.ofList name) := by
      rw [IsAttribute, String.toList_ofList]
      exact ⟨hitem.1, fun c hc ↦ List.mem_takeWhile_imp (hname ▸ hc)⟩
    have his := IsItem.mk hattribute hspells hitem.2
    rw [String.toList_ofList] at his
    refine ⟨_, rest, ?_, ?_, his⟩
    · simp only [List.append_assoc]
    · simp only [List.length_append]
      omega

/-! ### Searches -/

/-- How many closing parentheses there are that do not follow another one. Whether one stands in
front of the text is given. -/
def ends (after : Bool) : List Char → Nat
  | [] => 0
  | c :: cs => (if c = ')' ∧ after = false then 1 else 0) + ends (c == ')') cs

theorem ends_cons_of_ne {c : Char} (h : c ≠ ')') (after : Bool) (cs : List Char) :
    ends after (c :: cs) = ends false cs := by
  rw [ends, if_neg (fun hc ↦ h hc.1), beq_false_of_ne h, Nat.zero_add]

theorem ends_close (after : Bool) (cs : List Char) :
    ends after (')' :: cs) = (if after then 0 else 1) + ends true cs := by
  cases after <;> simp [ends]

/-- What stands after a character other than a closing parenthesis is counted on its own. -/
theorem ends_append_cons (after : Bool) (cs : List Char) {d : Char} (hd : d ≠ ')')
    (ds : List Char) : ends after (cs ++ d :: ds) = ends after cs + ends false ds := by
  induction cs generalizing after with
  | nil => rw [List.nil_append, ends_cons_of_ne hd, ends, Nat.zero_add]
  | cons c cs ih => rw [List.cons_append, ends, ends, ih, Nat.add_assoc]

theorem ends_flat {own : List Char} (h : ')' ∉ own) (rest : List Char) :
    ends false (own ++ rest) = ends false rest := by
  induction own with
  | nil => rfl
  | cons c own ih =>
    rw [List.mem_cons, not_or] at h
    rw [List.cons_append, ends_cons_of_ne (Ne.symm h.1), ih h.2]

/-- The first closing parenthesis does not follow another. -/
theorem notMem_of_ends_eq_zero {cs : List Char} (h : ends false cs = 0) : ')' ∉ cs := by
  induction cs with
  | nil => exact List.not_mem_nil
  | cons c cs ih =>
    have hc : c ≠ ')' := by
      rintro rfl
      rw [ends_close] at h
      simp at h
    rw [ends_cons_of_ne hc] at h
    exact List.not_mem_cons_of_ne_of_not_mem hc.symm (ih h)

/-- The text goes on to the parenthesis that closes what was opened before it, with items of these
names. Whether a closing parenthesis stands in front of the text is given. -/
structure Closes (after : Bool) (own : List Char) (names : List String) : Prop where
  isAttribute : ∀ name ∈ names, IsAttribute name
  count_eq : own.count ')' = own.count '(' + 1
  ends_eq : ∀ rest, ends after (own ++ rest) = names.length + ends true rest

theorem IsItem.closes {own : List Char} {parsed : Parsed} (h : IsItem own parsed) :
    Closes false (own ++ [')']) parsed.names := by
  obtain ⟨name, hnames, hattribute⟩ := h.exists_names
  obtain ⟨hopen, hclose⟩ := h.flat
  rw [hnames]
  refine ⟨by simpa using hattribute, ?_, fun rest ↦ ?_⟩
  · simp [List.count_eq_zero.2 hopen, List.count_eq_zero.2 hclose]
  · rw [List.append_assoc, ends_flat hclose, List.singleton_append, ends_close]
    rfl

namespace Closes

variable {own others : List Char} {names names' : List String}

theorem negation (h : Closes false own names) :
    Closes false ('!' :: '(' :: (own ++ [')'])) names where
  isAttribute := h.isAttribute
  count_eq := by
    have hcount := h.count_eq
    simp only [List.count_append, List.count_cons_self, List.count_nil, List.count_cons_of_ne,
      ne_eq, Char.reduceEq, not_false_eq_true]
    omega
  ends_eq rest := by
    rw [List.cons_append, List.cons_append, ends_cons_of_ne (by decide),
      ends_cons_of_ne (by decide), List.append_assoc, h.ends_eq, List.singleton_append, ends_close]
    simp

/-- The end of a group. -/
theorem nil : Closes true [')'] [] where
  isAttribute := by simp
  count_eq := by decide
  ends_eq rest := by
    rw [List.singleton_append, ends_close]
    simp

theorem cons (hfirst : Closes false own names) (hothers : Closes true others names') :
    Closes true ('(' :: (own ++ others)) (names ++ names') where
  isAttribute := List.forall_mem_append.2 ⟨hfirst.isAttribute, hothers.isAttribute⟩
  count_eq := by
    have hcount := hfirst.count_eq
    have hcount' := hothers.count_eq
    simp only [List.count_append, List.count_cons_self, List.count_cons_of_ne, ne_eq,
      Char.reduceEq, not_false_eq_true]
    omega
  ends_eq rest := by
    rw [List.cons_append, ends_cons_of_ne (by decide), List.append_assoc, hfirst.ends_eq,
      hothers.ends_eq, List.length_append, Nat.add_assoc]

/-- A group, in which the first operand is opened. -/
theorem group (join : Join) (h : Closes true ('(' :: own) names) :
    Closes false (join.symbol :: '(' :: own) names where
  isAttribute := h.isAttribute
  count_eq := by
    have hcount := h.count_eq
    cases join <;> simpa [Join.symbol] using hcount
  ends_eq rest := by
    have hends := h.ends_eq rest
    rw [List.cons_append, ends_cons_of_ne (by decide)] at hends
    rw [List.cons_append, List.cons_append, ends_cons_of_ne (by cases join <;> decide),
      ends_cons_of_ne (by decide), hends]

end Closes

/-! ### Reading -/

section Reading

variable {cs : List Char} {parsed : Parsed} {length : Nat}

theorem exists_of_body?_group {join : Join}
    (h : body? (join.symbol :: cs) = some (parsed, length)) :
    ∃ operands used, bodies? cs = some (operands, used) ∧ operands ≠ [] ∧
      parsed = .group join operands ∧ length = used + 1 := by
  have hbind : (bodies? cs).bind (fun read ↦
      if read.1.isEmpty then none else some (.group join read.1, read.2 + 1)) =
        some (parsed, length) := by
    cases join <;> rwa [Join.symbol, body?] at h
  obtain ⟨⟨operands, used⟩, hoperands, hparsed⟩ := Option.bind_eq_some_iff.1 hbind
  split at hparsed
  · cases hparsed
  · next hne =>
    cases hparsed
    exact ⟨operands, used, hoperands, by simpa using hne, rfl, rfl⟩

theorem exists_of_body?_negation (h : body? ('!' :: '(' :: cs) = some (parsed, length)) :
    ∃ operand used, body? cs = some (operand, used) ∧ (cs.drop used).head? = some ')' ∧
      parsed = .negation operand ∧ length = used + 3 := by
  rw [body?] at h
  obtain ⟨⟨operand, used⟩, hoperand, hparsed⟩ := Option.bind_eq_some_iff.1 h
  dsimp only at hparsed
  split at hparsed
  · next hclose =>
    cases hparsed
    exact ⟨operand, used, hoperand, hclose, rfl, rfl⟩
  · cases hparsed

theorem exists_of_bodies?_open {parsed : List Parsed}
    (h : bodies? ('(' :: cs) = some (parsed, length)) :
    ∃ first used others more, body? cs = some (first, used) ∧
      bodies? (cs.drop used) = some (others, more) ∧ parsed = first :: others ∧
        length = 1 + used + more := by
  rw [bodies?] at h
  obtain ⟨⟨first, used⟩, hfirst, h⟩ := Option.bind_eq_some_iff.1 h
  obtain ⟨⟨others, more⟩, hothers, hparsed⟩ := Option.bind_eq_some_iff.1 h
  cases hparsed
  exact ⟨first, used, others, more, hfirst, hothers, rfl, rfl⟩

end Reading

/-- What is read as a search closes. In the text of a list of searches, the first is opened. -/
theorem closes_of_body? :
    (∀ cs parsed length, body? cs = some (parsed, length) →
      ∃ own rest, cs = own ++ rest ∧ length = own.length ∧ Closes false own parsed.names) ∧
    ∀ cs parsed length, bodies? cs = some (parsed, length) →
      ∃ own rest, cs = own ++ rest ∧ length = own.length ∧
        Closes true own (parsed.flatMap Parsed.names) ∧
          (parsed ≠ [] → ∃ others, own = '(' :: others) := by
  have hgroup (join : Join) {cs : List Char}
      (ih : ∀ parsed length, bodies? cs = some (parsed, length) →
        ∃ own rest, cs = own ++ rest ∧ length = own.length ∧
          Closes true own (parsed.flatMap Parsed.names) ∧
            (parsed ≠ [] → ∃ others, own = '(' :: others)) {parsed : Parsed} {length : Nat}
      (h : body? (join.symbol :: cs) = some (parsed, length)) :
      ∃ own rest, join.symbol :: cs = own ++ rest ∧ length = own.length ∧
        Closes false own parsed.names := by
    obtain ⟨operands, used, hoperands, hne, rfl, rfl⟩ := exists_of_body?_group h
    obtain ⟨own, rest, rfl, rfl, hcloses, hopened⟩ := ih _ _ hoperands
    obtain ⟨others, rfl⟩ := hopened hne
    exact ⟨_, rest, rfl, rfl, by simpa only [Parsed.names] using hcloses.group join⟩
  refine body?.mutual_induct _ _ ?all ?any ?negation ?item ?close ?first ?other
  case all =>
    exact fun rest ih _ _ h ↦ hgroup .all ih h
  case any =>
    exact fun rest ih _ _ h ↦ hgroup .any ih h
  case negation =>
    intro cs ih parsed length h
    obtain ⟨operand, used, hoperand, hclose, rfl, rfl⟩ := exists_of_body?_negation h
    obtain ⟨own, rest, rfl, rfl, hcloses⟩ := ih _ _ hoperand
    rw [List.drop_left] at hclose
    obtain ⟨rest, rfl⟩ := List.head?_eq_some_iff.1 hclose
    refine ⟨_, rest, ?_, ?_, by simpa only [Parsed.names] using hcloses.negation⟩
    · simp only [List.cons_append, List.append_assoc, List.nil_append]
    · simp only [List.length_cons, List.length_append, List.length_nil]
  case item =>
    intro cs hall hany hnot parsed length h
    rw [body?.eq_4 cs hall hany hnot] at h
    obtain ⟨own, rest, rfl, rfl, hitem⟩ := isItem_of_item? h
    exact ⟨own ++ [')'], rest, by simp, by simp, hitem.closes⟩
  case close =>
    intro rest parsed length h
    rw [bodies?] at h
    cases h
    exact ⟨[')'], rest, rfl, rfl, .nil, by simp⟩
  case first =>
    intro cs ihfirst ihothers parsed length h
    obtain ⟨first, used, others, more, hfirst, hothers, rfl, rfl⟩ := exists_of_bodies?_open h
    obtain ⟨own, rest, rfl, rfl, hcloses⟩ := ihfirst _ _ hfirst
    obtain ⟨own', rest', heq, rfl, hcloses', -⟩ := ihothers _ _ _ hothers
    rw [List.drop_left] at heq
    subst heq
    refine ⟨_, rest', ?_, ?_, hcloses.cons hcloses', fun _ ↦ ⟨_, rfl⟩⟩
    · simp only [List.cons_append, List.append_assoc]
    · simp only [List.length_cons, List.length_append]
      omega
  case other =>
    intro cs hclose hopen parsed length h
    rw [bodies?.eq_3 cs hclose hopen] at h
    cases h

theorem closes_of_read? {own : List Char} {parsed : Parsed}
    (h : read? ('(' :: own) = some parsed) :
    body? own = some (parsed, own.length) ∧ Closes false own parsed.names := by
  rw [read?] at h
  obtain ⟨⟨read, used⟩, hbody, hwhole⟩ := Option.bind_eq_some_iff.1 h
  dsimp only at hwhole
  split at hwhole
  · next hused =>
    cases hwhole
    subst hused
    obtain ⟨own', rest, rfl, hlength, hcloses⟩ := closes_of_body?.1 _ _ _ hbody
    rw [List.length_append, Nat.add_eq_left, List.length_eq_zero_iff] at hlength
    rw [hlength, List.append_nil] at hbody ⊢
    exact ⟨hbody, hcloses⟩
  · cases hwhole

/-- What is opened at once has a parenthesis before the first closing one. -/
theorem append_close_ne_open {own : List Char} (hown : Flat own) (rest : List Char) {c : Char}
    (hc : c ≠ ')') (cs : List Char) : own ++ ')' :: rest ≠ c :: '(' :: cs := by
  intro heq
  obtain - | ⟨d, - | ⟨e, own⟩⟩ := own
  · exact hc (List.cons.inj heq).1.symm
  · exact absurd (List.cons.inj (List.cons.inj heq).2).1 (by decide)
  · exact (flat_cons.1 (flat_cons.1 hown).2).1.1 (List.cons.inj (List.cons.inj heq).2).1

/-- What is read up to the first parenthesis, which is a closing one, is an item. -/
theorem isItem_of_body? {own rest : List Char} (hown : Flat own) {parsed : Parsed} {length : Nat}
    (h : body? (own ++ ')' :: rest) = some (parsed, length)) :
    length = own.length + 1 ∧ IsItem own parsed := by
  have hgroup (join : Join) (cs : List Char) : own ++ ')' :: rest ≠ join.symbol :: cs := by
    intro heq
    rw [heq] at h
    obtain ⟨_, _, hoperands, hne, -⟩ := exists_of_body?_group h
    obtain ⟨_, _, rfl, -, -, hopened⟩ := closes_of_body?.2 _ _ _ hoperands
    obtain ⟨others, rfl⟩ := hopened hne
    exact append_close_ne_open hown rest (by cases join <;> decide) _ heq
  have hnegation := append_close_ne_open hown rest (c := '!') (by decide)
  rw [body?.eq_4 _ (hgroup .all) (hgroup .any) hnegation] at h
  obtain ⟨own', rest', heq, rfl, hitem⟩ := isItem_of_item? h
  obtain ⟨rfl, -⟩ := append_close_inj hown hitem.flat heq
  exact ⟨rfl, hitem⟩

end PropertyFilter.Ldap
