import Mathlib.Order.Defs.LinearOrder
import PropertyFilter.Filter.Matching
import PropertyFilter.Proofs.Dialect.Ldap
import PropertyFilter.Proofs.Value.Order

/-!
# Bounds of integers

A directory takes what an attribute is compared with as a decimal number (`integer?`), and answers
an item, or the negation of one, by comparing the integer that the attribute holds with it
(`Parsed.answer?`). Searches have no strict bounds: next to an integer these become the inclusive
ones of its neighbours, which are exact at every size (`strict_eq_inclusive`). Of an integer that a
property holds, a directory therefore answers a bound as the filter does (`query_ordered_answer?`).
-/

set_option autoImplicit false

namespace PropertyFilter

/-! ### Decimal numbers -/

theorem Numeral.digits_eq_toDigits (n : Nat) : digits n = Nat.toDigits 10 n := by
  have hdigit : ∀ m : Fin 10, digit m = Nat.digitChar m := by decide
  induction n using Nat.strongRecOn with
  | _ n ih =>
    rw [digits_eq]
    split
    · next hn => rw [Nat.toDigits_of_lt_base hn, hdigit ⟨n, hn⟩]
    · next hn =>
      have hlast : n % 10 < 10 := Nat.mod_lt n (by decide)
      rw [ih (n / 10) (by omega), hdigit ⟨n % 10, hlast⟩, ← Nat.toDigits_of_lt_base hlast,
        Nat.toDigits_append_toDigits (by decide) (by omega) hlast, Nat.div_add_mod]

/-- Integers are written as the library writes them. -/
theorem Numeral.signedText_eq_toString (i : Int) : signedText i = toString i := by
  cases i with
  | ofNat n =>
    rw [signedText, signedDigits, if_neg (by simp), digits_eq_toDigits]
    rfl
  | negSucc n =>
    have htext : toString (Int.negSucc n) = "-" ++ Nat.repr (n + 1) := rfl
    rw [signedText, signedDigits, if_pos (Int.negSucc_lt_zero n), digits_eq_toDigits, htext,
      ← String.toList_inj, String.toList_append, Nat.repr]
    simp only [String.toList_ofList]
    rfl

/-! ### Integers that are compared -/

/-- How an integer that is held is related to a bound. -/
theorem Relation.holds_compare (relation : Relation) (held bound : Int) :
    relation.holds (Ord.compare held bound) =
      match relation with
      | .greater => decide (bound < held)
      | .greaterOrEqual => decide (bound ≤ held)
      | .less => decide (held < bound)
      | .lessOrEqual => decide (held ≤ bound) := by
  rcases lt_trichotomy held bound with h | rfl | h
  · rw [Int.compare_eq_lt.mpr h]
    cases relation <;> simp [Relation.holds, h, h.le]
  · rw [Int.compare_eq_eq.mpr rfl]
    cases relation <;> simp [Relation.holds]
  · rw [Int.compare_eq_gt.mpr h]
    cases relation <;> simp [Relation.holds, h, h.le]

/-- A property that is an integer is ordered with respect to an integer as integers are. -/
theorem Filter.holds_of_integer? {property : String} {r : Record} {actual v : Value} {held i : Int}
    (relation : Relation) (hactual : r property = some actual) (hheld : actual.integer? = some held)
    (hv : v.integer? = some i) :
    (test property (.ordered relation v)).holds r = relation.holds (Ord.compare held i) := by
  rw [holds, Test.holds, Test.compared, hactual, Option.bind_some, Value.converted_of_integer? hv,
    Value.compare_of_integer? hheld hv, Option.any_some]

/-- The value is an integer, of 64 bits precisely if it fits in them. -/
def Value.IsNarrow (v : Value) (i : Int) : Prop :=
  v.integer? = some i ∧
    ((∃ word, v = .int word) ↔ -9223372036854775808 ≤ i ∧ i ≤ 9223372036854775807)

theorem Value.isNarrow_ofInt (i : Int) : (ofInt i).IsNarrow i := by
  refine ⟨integer?_ofInt i, ?_⟩
  rw [← fits_iff, ofInt]
  cases fits i <;> simp

namespace Ldap

/-- The digit that an octet is. -/
def digit? : Octet → Option Nat
  | .byte b => if 0x30 ≤ b.toNat ∧ b.toNat ≤ 0x39 then some (b.toNat - 0x30) else none
  | .wildcard => none

/-- The number that begins with the digits of another one and goes on with these octets. -/
def onward? (n : Nat) (octets : List Octet) : Option Nat :=
  octets.foldlM (fun n octet ↦ (digit? octet).map fun d ↦ 10 * n + d) n

/-- The number of which octets are the decimal digits. -/
def natural? (octets : List Octet) : Option Nat :=
  if octets = [] then none else onward? 0 octets

/-- The integer of which octets are the decimal digits, behind a hyphen if it is negative. -/
def integer? : List Octet → Option Int
  | .byte 0x2d :: octets => (natural? octets).map fun (n : Nat) ↦ -n
  | octets => (natural? octets).map fun (n : Nat) ↦ n

theorem octetsOfChar_digit {d : Nat} (hd : d < 10) :
    ∃ octet, octetsOfChar (Numeral.digit d) = [octet] ∧ digit? octet = some d := by
  have hdigits : ∀ m : Fin 10, octetsOfChar (Numeral.digit m) = [.byte (UInt8.ofNat (48 + m))] ∧
      digit? (.byte (UInt8.ofNat (48 + m))) = some m.val := by decide +kernel
  exact ⟨_, hdigits ⟨d, hd⟩⟩

theorem onward?_append_digit (octets : List Octet) {n d : Nat} (hd : d < 10)
    (h : onward? 0 octets = some n) :
    onward? 0 (octets ++ octetsOfChar (Numeral.digit d)) = some (10 * n + d) := by
  obtain ⟨octet, hoctet, hvalue⟩ := octetsOfChar_digit hd
  rw [onward?] at h ⊢
  rw [hoctet, List.foldlM_append, h]
  simp [hvalue]

theorem onward?_digits (n : Nat) :
    onward? 0 ((Numeral.digits n).flatMap octetsOfChar) = some n := by
  induction n using Nat.strongRecOn with
  | _ n ih =>
    rw [Numeral.digits_eq]
    split
    · next hn => simpa using onward?_append_digit [] hn rfl
    · next hn =>
      have hlast : n % 10 < 10 := Nat.mod_lt n (by decide)
      rw [List.flatMap_append, List.flatMap_singleton,
        onward?_append_digit _ hlast (ih (n / 10) (by omega)), Nat.div_add_mod]

theorem natural?_digits (n : Nat) :
    natural? ((Numeral.digits n).flatMap octetsOfChar) = some n := by
  have hne : (Numeral.digits n).flatMap octetsOfChar ≠ [] := by
    obtain ⟨c, cs, hcs⟩ := List.exists_cons_of_ne_nil (Numeral.digits_ne_nil n)
    simp [hcs, octetsOfChar, String.utf8EncodeChar_ne_nil]
  rw [natural?, if_neg hne, onward?_digits]

/-- Digits do not begin with a hyphen. -/
theorem integer?_of_natural? {octets : List Octet} {n : Nat} (h : natural? octets = some n) :
    integer? octets = some (n : Int) := by
  fun_cases integer? octets with
  | case1 octets =>
    have hhyphen : digit? (.byte 0x2d) = none := by decide
    simp [natural?, onward?, hhyphen] at h
  | case2 => rw [h, Option.map_some]

/-- What is written for an integer is read as the integer. -/
theorem integer?_octetsOfText (i : Int) :
    integer? (octetsOfText (Numeral.signedText i)) = some i := by
  have hdigits := natural?_digits i.natAbs
  rw [octetsOfText_eq, Numeral.signedText, String.toList_ofList, Numeral.signedDigits]
  split
  · next hnegative =>
    have hhyphen : octetsOfChar '-' = [.byte 0x2d] := by decide +kernel
    rw [List.flatMap_cons, hhyphen, List.singleton_append, integer?, hdigits, Option.map_some,
      Int.ofNat_natAbs_of_nonpos hnegative.le, Int.neg_neg]
  · next hnonnegative =>
    rw [integer?_of_natural? hdigits, Int.natAbs_of_nonneg (not_lt.mp hnonnegative)]

/-! ### What a directory answers -/

/-- How an integer that is held has to compare with another one. -/
def Comparison.holds (held bound : Int) : Comparison → Bool
  | .equal => held == bound
  | .atLeast => bound ≤ held
  | .atMost => held ≤ bound

/-- The answer about an attribute that holds an integer, if an item is about this attribute and
compares it with an integer, or if such an item is negated. -/
def Parsed.answer? (name : String) (held : Int) : Parsed → Option Bool
  | .group _ _ => none
  | .negation operand => (operand.answer? name held).map not
  | .item property comparison assertion =>
    if property = name then (integer? assertion).map fun bound ↦ comparison.holds held bound
    else none

variable {v : Value} {i held bound : Int} {assertion : List Octet}

theorem answer?_item (property : String) (comparison : Comparison)
    (h : integer? assertion = some bound) :
    (Parsed.item property comparison assertion).answer? property held =
      some (comparison.holds held bound) := by
  rw [Parsed.answer?, if_pos rfl, h, Option.map_some]

theorem answer?_negated_item (property : String) (comparison : Comparison)
    (h : integer? assertion = some bound) :
    (Parsed.negation (.item property comparison assertion)).answer? property held =
      some (!comparison.holds held bound) := by
  rw [Parsed.answer?, answer?_item property comparison h, Option.map_some]

/-- Next to an integer a directory answers what is asked for, by the integer one away if the bound
is strict. -/
theorem answer?_of_integer? (property : String) (relation : Relation)
    (hv : v.integer? = some i) :
    (intendedBound property v relation).answer? property held =
      some (relation.holds (Ord.compare held i)) := by
  have hoctets : integer? (octets v) = some i := by
    rw [octets_of_integer? hv, integer?_octetsOfText]
  cases relation with
  | greater =>
    simp only [intendedBound, hv, answer?_item property _ (integer?_octetsOfText _),
      Relation.holds_compare, Comparison.holds, Int.add_one_le_iff]
  | greaterOrEqual =>
    simp only [intendedBound, answer?_item property _ hoctets, Relation.holds_compare,
      Comparison.holds]
  | less =>
    simp only [intendedBound, hv, answer?_item property _ (integer?_octetsOfText _),
      Relation.holds_compare, Comparison.holds, Int.le_sub_one_iff]
  | lessOrEqual =>
    simp only [intendedBound, answer?_item property _ hoctets, Relation.holds_compare,
      Comparison.holds]

/-- Next to a point in time a directory answers by its ticks. -/
theorem answer?_dateTime (property : String) (relation : Relation) (t : DateTime) :
    (intendedBound property (.dateTime t) relation).answer? property held =
      some (relation.holds (Ord.compare held t.ticks)) := by
  have hoctets : integer? (octets (.dateTime t)) = some t.ticks := by
    rw [octets, ← ticks_eq, integer?_octetsOfText]
  cases relation with
  | greater =>
    simp only [intendedBound, Value.integer?, answer?_negated_item property _ hoctets,
      Relation.holds_compare, Comparison.holds, ← not_le, decide_not]
  | greaterOrEqual =>
    simp only [intendedBound, answer?_item property _ hoctets, Relation.holds_compare,
      Comparison.holds]
  | less =>
    simp only [intendedBound, Value.integer?, answer?_negated_item property _ hoctets,
      Relation.holds_compare, Comparison.holds, ← not_le, decide_not]
  | lessOrEqual =>
    simp only [intendedBound, answer?_item property _ hoctets, Relation.holds_compare,
      Comparison.holds]

/-! ### What is written -/

theorem isPlain_of_isDigit {c : Char} (h : c.isDigit = true) : isPlain c = true := by
  obtain ⟨hlow, hhigh⟩ := Lexeme.toNat_of_isDigit h
  have hother (d : Char) (hd : d.isDigit = false) : c ≠ d := Lexeme.ne_of_isDigit h hd
  have hlow' : 0x20 ≤ c.toNat := by omega
  have hhigh' : c.toNat < 0x7f := by omega
  simp [isPlain, hlow', hhigh', hother]

theorem escape_of_isPlain {cs : List Char} (h : ∀ c ∈ cs, isPlain c = true) : escape cs = cs := by
  induction cs with
  | nil => rfl
  | cons c cs ih =>
    rw [List.forall_mem_cons] at h
    rw [escape, List.flatMap_cons, if_pos h.1, ← escape, ih h.2, List.singleton_append]

theorem isPlain_of_mem_signedDigits {c : Char} (h : c ∈ Numeral.signedDigits i) :
    isPlain c = true := by
  have hdigits : ∀ d ∈ Numeral.digits i.natAbs, isPlain d = true := fun d hd ↦
    isPlain_of_isDigit (Numeral.isDigit_of_mem_digits _ d hd)
  rw [Numeral.signedDigits] at h
  split at h
  · rcases List.mem_cons.mp h with rfl | h
    · decide
    · exact hdigits c h
  · exact hdigits c h

/-- The text of an item that compares a property with an integer. -/
def itemText (property symbol : String) (i : Int) : String :=
  "(" ++ property ++ symbol ++ toString i ++ ")"

theorem written_item (property : String) (comparison : Comparison) (i : Int) :
    String.ofList (Search.item property comparison [.text (Numeral.signedDigits i)]).written =
      itemText property (String.ofList comparison.symbol) i := by
  have hescape : escape (Numeral.signedDigits i) = Numeral.signedDigits i :=
    escape_of_isPlain fun _ ↦ isPlain_of_mem_signedDigits
  rw [itemText, ← Numeral.signedText_eq_toString, Numeral.signedText, ← String.toList_inj]
  simp [Search.written, Piece.written, hescape]

/-! ### Bounds that are integers -/

theorem assertion_of_integer? (hv : v.integer? = some i) :
    Search.assertion v = [.text (Numeral.signedDigits i)] := by
  cases v with
  | int k =>
    cases hv
    rfl
  | bigInt k =>
    cases hv
    rfl
  | _ => cases hv

/-- A bound on a property is read as what is intended. -/
theorem read?_query_ordered {property : String} (hname : IsAttribute property)
    (relation : Relation) (v : Value) :
    ∃ text, (Filter.test property (.ordered relation v)).query .ldap = .ok text ∧
      read? text.toList = some (intendedBound property v relation) := by
  refine ⟨_, rfl, ?_⟩
  rw [String.toList_ofList]
  exact read?_written (reads_bounded hname relation v)

/-- Whatever a directory answers of an integer that a property holds, the filter answers of it. -/
theorem query_ordered_answer? {property : String} (hname : IsAttribute property)
    (relation : Relation) (hv : v.integer? = some i) :
    ∃ text parsed, (Filter.test property (.ordered relation v)).query .ldap = .ok text ∧
      read? text.toList = some parsed ∧
      ∀ (r : Record) (actual : Value) (held : Int), r property = some actual →
        actual.integer? = some held →
        parsed.answer? property held =
          some ((Filter.test property (.ordered relation v)).holds r) := by
  obtain ⟨text, hquery, hread⟩ := read?_query_ordered hname relation v
  refine ⟨text, _, hquery, hread, fun r actual held hactual hheld ↦ ?_⟩
  rw [answer?_of_integer? property relation hv, Filter.holds_of_integer? relation hactual hheld hv]

theorem successor_of_integer? (hv : v.integer? = some i) :
    v.successor = some (.ofInt (i + 1)) := by
  rw [Value.successor, hv, Option.map_some]

theorem predecessor_of_integer? (hv : v.integer? = some i) :
    v.predecessor = some (.ofInt (i - 1)) := by
  rw [Value.predecessor, hv, Option.map_some]

/-- A strict lower bound is written as the inclusive one above it. -/
theorem query_greater (property : String) (hv : v.integer? = some i) :
    (Filter.test property (.ordered .greater v)).query .ldap =
      .ok (itemText property ">=" (i + 1)) := by
  have hsearch : Search.ofFilter (.test property (.ordered .greater v)) =
      .item property .atLeast [.text (Numeral.signedDigits (i + 1))] := by
    rw [Search.ofFilter, Search.ofTest, Search.bounded, successor_of_integer? hv]
    exact congrArg _ (assertion_of_integer? (Value.integer?_ofInt (i + 1)))
  rw [Filter.query, query, hsearch, written_item]
  rfl

/-- A strict upper bound is written as the inclusive one below it. -/
theorem query_less (property : String) (hv : v.integer? = some i) :
    (Filter.test property (.ordered .less v)).query .ldap =
      .ok (itemText property "<=" (i - 1)) := by
  have hsearch : Search.ofFilter (.test property (.ordered .less v)) =
      .item property .atMost [.text (Numeral.signedDigits (i - 1))] := by
    rw [Search.ofFilter, Search.ofTest, Search.bounded, predecessor_of_integer? hv]
    exact congrArg _ (assertion_of_integer? (Value.integer?_ofInt (i - 1)))
  rw [Filter.query, query, hsearch, written_item]
  rfl

/-- The integers next to a bound are exact, so that strict bounds are the inclusive ones away by
one, which are what is written. -/
theorem strict_eq_inclusive (hv : v.integer? = some i) :
    ∃ next previous : Value,
      (v.successor = some next ∧ next.IsNarrow (i + 1)) ∧
      (v.predecessor = some previous ∧ previous.IsNarrow (i - 1)) ∧
      (∀ (property : String) (r : Record) (actual : Value) (held : Int),
        r property = some actual → actual.integer? = some held →
        ((Filter.test property (.ordered .greater v)).holds r = decide (i < held) ∧
            (Filter.test property (.ordered .greaterOrEqual next)).holds r = decide (i < held)) ∧
          (Filter.test property (.ordered .less v)).holds r = decide (held < i) ∧
            (Filter.test property (.ordered .lessOrEqual previous)).holds r = decide (held < i)) ∧
      ∀ property : String,
        (Filter.test property (.ordered .greater v)).query .ldap =
            .ok (itemText property ">=" (i + 1)) ∧
          (Filter.test property (.ordered .less v)).query .ldap =
            .ok (itemText property "<=" (i - 1)) := by
  have hnext := Value.isNarrow_ofInt (i + 1)
  have hprevious := Value.isNarrow_ofInt (i - 1)
  refine ⟨_, _, ⟨successor_of_integer? hv, hnext⟩, ⟨predecessor_of_integer? hv, hprevious⟩,
    fun property r actual held hactual hheld ↦ ⟨⟨?_, ?_⟩, ?_, ?_⟩,
    fun property ↦ ⟨query_greater property hv, query_less property hv⟩⟩
  · rw [Filter.holds_of_integer? _ hactual hheld hv, Relation.holds_compare]
  · rw [Filter.holds_of_integer? _ hactual hheld hnext.1]
    simp only [Relation.holds_compare, Int.add_one_le_iff]
  · rw [Filter.holds_of_integer? _ hactual hheld hv, Relation.holds_compare]
  · rw [Filter.holds_of_integer? _ hactual hheld hprevious.1]
    simp only [Relation.holds_compare, Int.le_sub_one_iff]

/-- Above the greatest integer of 64 bits, held in the wider representation, there is one that needs
it, and below it one that does not. -/
theorem strict_eq_inclusive_greatest :
    let v : Value := .bigInt 9223372036854775807
    let r : Record := fun _ ↦ some (.bigInt 9223372036854775808)
    ∃ next previous : Value,
      (v.successor = some next ∧ ¬ ∃ word, next = .int word) ∧
      (v.predecessor = some previous ∧ ∃ word, previous = .int word) ∧
      (Filter.test "n" (.ordered .greater v)).holds r = true ∧
      (Filter.test "n" (.ordered .greaterOrEqual next)).holds r = true ∧
      (Filter.test "n" (.ordered .greater v)).query .ldap = .ok "(n>=9223372036854775808)" := by
  intro v r
  have hv : v.integer? = some 9223372036854775807 := rfl
  have hheld : (Value.bigInt 9223372036854775808).integer? = some 9223372036854775808 := rfl
  obtain ⟨next, previous, ⟨hnext, -, hwide⟩, ⟨hprevious, -, hnarrow⟩, hholds, hquery⟩ :=
    strict_eq_inclusive hv
  obtain ⟨⟨hgreater, hinclusive⟩, -⟩ := hholds "n" r _ _ rfl hheld
  refine ⟨next, previous, ⟨hnext, ?_⟩, ⟨hprevious, hnarrow.mpr (by decide)⟩, hgreater,
    hinclusive, (hquery "n").1.trans ?_⟩
  · rw [hwide]
    decide
  · decide +kernel

end Ldap

end PropertyFilter
