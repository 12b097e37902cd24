import Mathlib.Data.List.Forall2
import PropertyFilter.Dialect.Ldap

/-!
# Reading search filters

A reader for the search filters of RFC 4515, which knows nothing of how they are written here. A
search is a group of at least one search, the negation of one, or an item: an attribute, a
comparison and what the attribute is compared with, all between parentheses. Of an assertion, a
backslash with two hexadecimal digits is one byte, an asterisk is a wildcard, and any other
character is the bytes of its encoding, unless it is a parenthesis, a backslash or the character
zero. Wildcards have a meaning in tests for equality only. Approximate and extensible matches are
left out, and attributes may have underscores.

As in other readers of the library, a rule answers with what it read and the number of characters
that this took. `Reads` says of a search that it is written so that the reader gets back a given
structure, whatever follows; there is one lemma for each form of a search.
-/

set_option autoImplicit false

namespace PropertyFilter.Ldap

open Text

/-- A part of an assertion as it is understood. -/
inductive Octet
  | byte (value : UInt8)
  | wildcard
  deriving DecidableEq

/-- What the text of a search says. -/
inductive Parsed
  | group (join : Join) (operands : List Parsed)
  | negation (operand : Parsed)
  | item (name : String) (comparison : Comparison) (assertion : List Octet)

/-! ### The reader -/

/-- Adds octets, written with so many characters, in front of those that were read. -/
def onto (octets : List Octet) (length : Nat) (read : List Octet × Nat) : List Octet × Nat :=
  (octets ++ read.1, length + read.2)

/-- The bytes of the encoding of a character. -/
def octetsOfChar (c : Char) : List Octet := (String.utf8EncodeChar c).map .byte

/-- An assertion and the parenthesis that ends it. -/
def octets? : List Char → Option (List Octet × Nat)
  | [] => none
  | ')' :: _ => some ([], 1)
  | '*' :: rest => (octets? rest).map (onto [.wildcard] 1)
  | '\\' :: high :: low :: rest =>
    match hexValue? high, hexValue? low with
    | some h, some l => (octets? rest).map (onto [.byte (UInt8.ofNat (16 * h + l))] 3)
    | _, _ => none
  | c :: rest =>
    if c = '(' ∨ c = '\\' ∨ c = '\x00' then none
    else (octets? rest).map (onto (octetsOfChar c) 1)

/-- Characters of attributes: letters, digits, and what stands between names, numbers and
options. -/
def isAttributePart (c : Char) : Bool := c.isAlphanum || ['_', '-', '.', ';'].contains c

def comparison? : List Char → Option (Comparison × Nat)
  | '=' :: _ => some (.equal, 1)
  | '>' :: '=' :: _ => some (.atLeast, 2)
  | '<' :: '=' :: _ => some (.atMost, 2)
  | _ => none

/-- An item, up to and with the parenthesis that closes it. -/
def item? (cs : List Char) : Option (Parsed × Nat) := do
  let name := cs.takeWhile isAttributePart
  let (comparison, length) ← comparison? (cs.drop name.length)
  let (octets, used) ← octets? ((cs.drop name.length).drop length)
  if name = [] ∨ (comparison ≠ .equal ∧ .wildcard ∈ octets) then none
  else some (.item (String.ofList name) comparison octets, name.length + length + used)

mutual

/-- A search whose opening parenthesis the text follows, up to and with the closing one. -/
def body? : List Char → Option (Parsed × Nat)
  | '&' :: rest => do
    let (operands, used) ← bodies? rest
    if operands.isEmpty then none else some (.group .all operands, used + 1)
  | '|' :: rest => do
    let (operands, used) ← bodies? rest
    if operands.isEmpty then none else some (.group .any operands, used + 1)
  | '!' :: '(' :: rest => do
    let (operand, used) ← body? rest
    if (rest.drop used).head? = some ')' then some (.negation operand, used + 3) else none
  | cs => item? cs
termination_by cs => cs.length
decreasing_by all_goals simp only [List.length_cons]; omega

/-- Searches up to and with the parenthesis that closes the group of them. -/
def bodies? : List Char → Option (List Parsed × Nat)
  | ')' :: _ => some ([], 1)
  | '(' :: rest => do
    let (first, used) ← body? rest
    let (others, more) ← bodies? (rest.drop used)
    some (first :: others, 1 + used + more)
  | _ => none
termination_by cs => cs.length
decreasing_by
  · simp
  · simp only [List.length_cons, List.length_drop]; omega

end

/-- Reads a text that is one search as a whole. -/
def read? : List Char → Option Parsed
  | '(' :: rest => do
    let (parsed, used) ← body? rest
    if used = rest.length then some parsed else none
  | _ => none

/-! ### Assertions -/

/-- The text stands for just these octets, whatever follows it. -/
def Spells (own : List Char) (octets : List Octet) : Prop :=
  ∀ rest, octets? (own ++ rest) = (octets? rest).map (onto octets own.length)

theorem onto_onto (octets octets' : List Octet) (length length' : Nat) :
    onto octets length ∘ onto octets' length' = onto (octets ++ octets') (length + length') := by
  funext read
  simp [onto, Nat.add_assoc]

theorem spells_nil : Spells [] [] := by
  intro rest
  have honto : onto [] 0 = id := by
    funext read
    simp [onto]
  rw [List.nil_append, List.length_nil, honto, Option.map_id_apply]

theorem Spells.append {own own' : List Char} {octets octets' : List Octet} (h : Spells own octets)
    (h' : Spells own' octets') : Spells (own ++ own') (octets ++ octets') := by
  intro rest
  rw [List.append_assoc, h, h', Option.map_map, onto_onto, List.length_append]

theorem spells_flatMap {α : Type} {own : α → List Char} {octets : α → List Octet} {as : List α}
    (h : ∀ a ∈ as, Spells (own a) (octets a)) : Spells (as.flatMap own) (as.flatMap octets) := by
  induction as with
  | nil => exact spells_nil
  | cons a as ih =>
    rw [List.forall_mem_cons] at h
    rw [List.flatMap_cons, List.flatMap_cons]
    exact h.1.append (ih h.2)

theorem spells_wildcard : Spells ['*'] [.wildcard] := fun rest ↦ by
  rw [List.singleton_append, octets?, List.length_singleton]

/-- Two hexadecimal digits after a backslash are one byte. -/
theorem spells_hexadecimal {high low : Char} {h l : Nat} (hhigh : hexValue? high = some h)
    (hlow : hexValue? low = some l) :
    Spells ['\\', high, low] [.byte (UInt8.ofNat (16 * h + l))] := fun rest ↦ by
  simp only [List.cons_append, List.nil_append, octets?, hhigh, hlow, List.length_cons,
    List.length_nil]

/-- Bytes are written with letters of either case. -/
theorem spells_escapeByte (letters : LetterCase) (byte : UInt8) :
    Spells (escapeByte letters byte) [.byte byte] := by
  have hbyte : byte.toNat < 256 := byte.toNat_lt
  have hhigh := hexValue?_hexDigit letters (byte.toNat / 16 % 16) (Nat.mod_lt _ (by decide))
  have hlow := hexValue?_hexDigit letters (byte.toNat % 16) (Nat.mod_lt _ (by decide))
  have hvalue : 16 * (byte.toNat / 16 % 16) + byte.toNat % 16 = byte.toNat := by omega
  have hspells := spells_hexadecimal hhigh hlow
  rwa [hvalue, UInt8.ofNat_toNat] at hspells

/-- Characters that delimit nothing stand for themselves. -/
theorem spells_char {c : Char} (hclose : c ≠ ')') (hstar : c ≠ '*')
    (hother : ¬ (c = '(' ∨ c = '\\' ∨ c = '\x00')) : Spells [c] (octetsOfChar c) := fun rest ↦ by
  rw [List.singleton_append, octets?, if_neg hother, List.length_singleton]
  · exact hclose
  · exact hstar
  · exact fun _ _ _ heq ↦ absurd (.inr (.inl heq)) hother

theorem spells_plain {c : Char} (h : isPlain c = true) : Spells [c] (octetsOfChar c) := by
  have hother (d : Char) (hd : isPlain d = false) : c ≠ d := ne_of_class h hd
  refine spells_char (hother _ (by decide)) (hother _ (by decide)) ?_
  rintro (rfl | rfl | rfl) <;> exact absurd h (by decide)

/-- Escaped text is read as its encoding, whatever characters it has. -/
theorem spells_escape (cs : List Char) : Spells (escape cs) (cs.flatMap octetsOfChar) := by
  refine spells_flatMap fun c _ ↦ ?_
  split
  · next hplain => exact spells_plain hplain
  · rw [octetsOfChar, List.map_eq_flatMap]
    exact spells_flatMap fun byte _ ↦ spells_escapeByte .lower byte

/-! ### Searches -/

/-- The search is written as a parenthesis and a text that is read as just this, whatever follows
it. -/
def Reads (search : Search) (parsed : Parsed) : Prop :=
  ∃ body, search.written = '(' :: body ∧ ∀ rest, body? (body ++ rest) = some (parsed, body.length)

/-- Names that are taken as a whole where an attribute is read. -/
def IsAttribute (name : String) : Prop :=
  name.toList ≠ [] ∧ ∀ c ∈ name.toList, isAttributePart c = true

/-- A text that begins with an attribute is an item, if it can be read. -/
theorem body?_of_isAttributePart {c : Char} (hc : isAttributePart c = true) (cs : List Char) :
    body? (c :: cs) = item? (c :: cs) := by
  have hother (d : Char) (hd : isAttributePart d = false) : c ≠ d := ne_of_class hc hd
  rw [body?]
  · rintro rest heq
    exact hother '&' (by decide) (List.cons.inj heq).1
  · rintro rest heq
    exact hother '|' (by decide) (List.cons.inj heq).1
  · rintro rest heq
    exact hother '!' (by decide) (List.cons.inj heq).1

theorem comparison?_symbol (comparison : Comparison) (rest : List Char) :
    comparison? (comparison.symbol ++ rest) = some (comparison, comparison.symbol.length) := by
  cases comparison <;> rfl

theorem takeWhile_isAttributePart {name : List Char} (h : ∀ c ∈ name, isAttributePart c = true)
    (comparison : Comparison) (rest : List Char) :
    (name ++ (comparison.symbol ++ rest)).takeWhile isAttributePart = name := by
  rw [List.takeWhile_append_of_pos h]
  have hsymbol : (comparison.symbol ++ rest).takeWhile isAttributePart = [] := by
    cases comparison <;> rfl
  rw [hsymbol, List.append_nil]

/-- An attribute, a comparison and an assertion are read up to the parenthesis that closes them. -/
theorem body?_item {name : String} {comparison : Comparison} {assertion : List Char}
    {octets : List Octet} (hname : IsAttribute name) (hspells : Spells assertion octets)
    (hwildcard : comparison ≠ .equal → .wildcard ∉ octets) (rest : List Char) :
    body? (name.toList ++ (comparison.symbol ++ (assertion ++ ')' :: rest))) =
      some (.item name comparison octets,
        name.toList.length + comparison.symbol.length + (assertion.length + 1)) := by
  obtain ⟨hne, hparts⟩ := hname
  obtain ⟨c, cs, hcs⟩ := List.exists_cons_of_ne_nil hne
  have hc : isAttributePart c = true := hparts c (by simp [hcs])
  have hclose : octets? (assertion ++ ')' :: rest) = some (octets, assertion.length + 1) := by
    rw [hspells, octets?, Option.map_some, onto, List.append_nil]
  have hvalid : ¬ (name.toList = [] ∨ comparison ≠ .equal ∧ .wildcard ∈ octets) := by
    rintro (hnil | ⟨hcomparison, hmem⟩)
    · exact hne hnil
    · exact hwildcard hcomparison hmem
  have hbody := body?_of_isAttributePart hc
    (cs ++ (comparison.symbol ++ (assertion ++ ')' :: rest)))
  rw [← List.cons_append, ← hcs] at hbody
  rw [hbody]
  simp only [item?, takeWhile_isAttributePart hparts, List.drop_left, comparison?_symbol, hclose,
    bind, Option.bind, if_neg hvalid, String.ofList_toList]

/-- An attribute that is compared with an assertion. -/
theorem reads_item {name : String} {comparison : Comparison} {assertion : List Piece}
    {octets : List Octet} (hname : IsAttribute name)
    (hspells : Spells (assertion.flatMap Piece.written) octets)
    (hwildcard : comparison ≠ .equal → .wildcard ∉ octets) :
    Reads (.item name comparison assertion) (.item name comparison octets) := by
  refine ⟨name.toList ++ (comparison.symbol ++ (assertion.flatMap Piece.written ++ [')'])),
    by simp [Search.written], fun rest ↦ ?_⟩
  have hbody := body?_item hname hspells hwildcard rest
  simp only [List.append_assoc, List.singleton_append, hbody, List.length_append,
    List.length_singleton, Nat.add_assoc]

theorem reads_negation {operand : Search} {parsed : Parsed} (h : Reads operand parsed) :
    Reads (.negation operand) (.negation parsed) := by
  obtain ⟨body, hwritten, hbody⟩ := h
  refine ⟨'!' :: '(' :: (body ++ [')']), by simp [Search.written, hwritten], fun rest ↦ ?_⟩
  simp [body?, hbody]

theorem bodies?_writtenAll {searches : List Search} {parsed : List Parsed}
    (h : List.Forall₂ Reads searches parsed) (rest : List Char) :
    bodies? (Search.writtenAll searches ++ ')' :: rest) =
      some (parsed, (Search.writtenAll searches).length + 1) := by
  induction h with
  | nil => simp [Search.writtenAll, bodies?]
  | cons hfirst _ ih =>
    obtain ⟨body, hwritten, hbody⟩ := hfirst
    simp only [Search.writtenAll, hwritten, List.append_assoc, List.cons_append, bodies?, hbody,
      List.drop_left, ih, bind, Option.bind, List.length_append, List.length_cons]
    congr 2
    omega

/-- Searches that stand in a group, of which there is at least one. -/
theorem reads_group (join : Join) {searches : List Search} {parsed : List Parsed}
    (h : List.Forall₂ Reads searches parsed) (hne : parsed ≠ []) :
    Reads (.group join searches) (.group join parsed) := by
  refine ⟨join.symbol :: (Search.writtenAll searches ++ [')']), by simp [Search.written],
    fun rest ↦ ?_⟩
  have hbodies := bodies?_writtenAll h rest
  cases join <;> simp [Join.symbol, body?, hbodies, hne]

/-- A search that is read whatever follows is read as a whole text. -/
theorem read?_written {search : Search} {parsed : Parsed} (h : Reads search parsed) :
    read? search.written = some parsed := by
  obtain ⟨body, hwritten, hbody⟩ := h
  have hwhole := hbody []
  rw [List.append_nil] at hwhole
  simp [hwritten, read?, hwhole]

end PropertyFilter.Ldap
