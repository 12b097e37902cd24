import PropertyFilter.Proofs.Number.Monotone
import PropertyFilter.Value

/-!
# Where comparing is consistent

Within one kind values are ordered, and so are integers of both representations. But an integer is
compared with a floating-point number as the number that it is rounded to, so that a float can equal
two integers of which one is less than the other (`compare_eq_of_rounded_alike`). Nothing else goes
wrong: for values whose integers are taken from any set, comparing is consistent exactly if rounding
keeps the integers of the set apart (`consistent_iff_roundsApart`).

Both directions come down to a float between two integers. Of other numbers, either all are
integers, which are compared exactly, or the first and the last are compared by their places on the
line of floating-point numbers (`compare_numbers`).
-/

set_option autoImplicit false

namespace PropertyFilter

instance : Std.TransCmp DateTime.compare :=
  inferInstanceAs <| Std.TransCmp <|
    compareLex (compareOn DateTime.seconds) (compareOn DateTime.nanos)

instance : Std.TransCmp Uuid.compare := inferInstanceAs (Std.TransCmp (compareOn Uuid.number))

namespace Value

open Binary64 (place horizon RoundsApart)

/-- The values are comparable and the first is not the greater one. -/
def AtMost (v w : Value) : Prop := v.compare w = some .lt ∨ v.compare w = some .eq

/-- What equals an equal is equal, and what is at most as great as something that is at most as
great is so itself. -/
structure Consistent (a b c : Value) : Prop where
  equal : a.compare b = some .eq → b.compare c = some .eq → a.compare c = some .eq
  atMost : a.AtMost b → b.AtMost c → a.AtMost c

/-- The value may stand in a test and, if it is an integer, is one of a set. -/
def IsFrom (S : Set Int) (v : Value) : Prop :=
  v.isUsable = true ∧ ∀ i, v.integer? = some i → i ∈ S

/-- The number as which a number is compared with a float. -/
def toFloat? : Value → Option Binary64
  | .float x => some x
  | v => v.integer?.map Binary64.ofWide

variable {a b c v w : Value} {x y z : Binary64} {i j r s : Int} {o o' : Ordering} {S : Set Int}

theorem atMost_iff_isLE (h : v.compare w = some o) : v.AtMost w ↔ o.isLE = true := by
  rw [AtMost, h]
  cases o <;> simp

theorem AtMost.exists_compare (h : v.AtMost w) : ∃ o, v.compare w = some o :=
  h.elim (fun h ↦ ⟨_, h⟩) fun h ↦ ⟨_, h⟩

/-- Values that are compared by one transitive comparison are compared consistently. -/
theorem consistent_of_transCmp {α : Type} (cmp : α → α → Ordering) [Std.TransCmp cmp] {p q t : α}
    (hab : a.compare b = some (cmp p q)) (hbc : b.compare c = some (cmp q t))
    (hac : a.compare c = some (cmp p t)) : Consistent a b c := by
  constructor
  · rw [hab, hbc, hac, Option.some.injEq, Option.some.injEq, Option.some.injEq]
    exact Std.TransCmp.eq_trans
  · rw [atMost_iff_isLE hab, atMost_iff_isLE hbc, atMost_iff_isLE hac]
    exact Std.TransCmp.isLE_trans

/-! ### Values that are not numbers -/

/-- How values of a kind other than numbers compare. -/
inductive Alike : Value → Value → Ordering → Prop
  | bools (p q : Bool) : Alike (.bool p) (.bool q) (Ord.compare p q)
  | strings (s t : String) : Alike (.string s) (.string t) (Ord.compare s t)
  | dateTimes (t u : DateTime) : Alike (.dateTime t) (.dateTime u) (t.compare u)
  | uuids (u v : Uuid) : Alike (.uuid u) (.uuid v) (u.compare v)

/-- Values that are comparable are of one kind other than numbers, or both are numbers. -/
theorem compare_cases (h : v.compare w = some o) :
    Alike v w o ∨ ∃ x y, v.toFloat? = some x ∧ w.toFloat? = some y := by
  cases v <;> cases w
  all_goals
    first
    | exact .inr ⟨_, _, rfl, rfl⟩
    | (cases h; exact .inl (by constructor))
    | cases h

theorem Alike.toFloat?_eq_none (h : Alike v w o) : v.toFloat? = none ∧ w.toFloat? = none := by
  cases h <;> exact ⟨rfl, rfl⟩

/-- Within a kind other than numbers, comparing is consistent. -/
theorem Alike.consistent (hab : Alike a b o) (hbc : Alike b c o') : Consistent a b c := by
  cases hab with
  | bools p q =>
    cases hbc
    exact consistent_of_transCmp Ord.compare rfl rfl rfl
  | strings s t =>
    cases hbc
    exact consistent_of_transCmp Ord.compare rfl rfl rfl
  | dateTimes t u =>
    cases hbc
    exact consistent_of_transCmp DateTime.compare rfl rfl rfl
  | uuids u v =>
    cases hbc
    exact consistent_of_transCmp Uuid.compare rfl rfl rfl

/-! ### Numbers -/

theorem toFloat?_of_integer? (hv : v.integer? = some i) :
    v.toFloat? = some (Binary64.ofWide i) := by
  cases v with
  | int k =>
    cases hv
    rfl
  | bigInt k =>
    cases hv
    rfl
  | _ => cases hv

/-- A number is a float or an integer that is rounded to one. -/
theorem toFloat?_cases (hv : v.toFloat? = some x) :
    v = .float x ∨ ∃ i, v.integer? = some i ∧ x = Binary64.ofWide i := by
  cases v with
  | float y =>
    cases hv
    exact .inl rfl
  | int k =>
    cases hv
    exact .inr ⟨_, rfl, rfl⟩
  | bigInt k =>
    cases hv
    exact .inr ⟨_, rfl, rfl⟩
  | _ => cases hv

/-- Integers are compared exactly, in either representation. -/
theorem compare_of_integer? (hv : v.integer? = some i) (hw : w.integer? = some j) :
    v.compare w = some (Ord.compare i j) := by
  cases v <;> cases w <;> simp_all [integer?, compare]

/-- A float is compared with every number as with a float. -/
theorem compare_float_left (x : Binary64) (hw : w.toFloat? = some y) :
    (Value.float x).compare w = x.compare y := by
  rcases toFloat?_cases hw with rfl | ⟨j, hj, rfl⟩
  · rfl
  · have hbind : (Value.float x).compare w =
        w.integer?.bind fun j ↦ x.compare (Binary64.ofWide j) := by
      cases w <;> first | rfl | cases hj
    rw [hbind, hj, Option.bind_some]

/-- Every number is compared with a float as a float. -/
theorem compare_float_right (hv : v.toFloat? = some x) (y : Binary64) :
    v.compare (.float y) = x.compare y := by
  rcases toFloat?_cases hv with rfl | ⟨i, hi, rfl⟩
  · rfl
  · have hbind : v.compare (.float y) =
        v.integer?.bind fun i ↦ (Binary64.ofWide i).compare y := by
      cases v <;> first | rfl | cases hi
    rw [hbind, hi, Option.bind_some]

/-- Numbers are compared by their places, or both are integers. -/
theorem compare_numbers (hv : v.toFloat? = some x) (hw : w.toFloat? = some y)
    (hr : x.rank? = some r) (hs : y.rank? = some s) :
    v.compare w = some (Ord.compare r s) ∨
      ∃ i j, v.integer? = some i ∧ w.integer? = some j ∧ place i = r ∧ place j = s := by
  rcases toFloat?_cases hv with rfl | ⟨i, hi, rfl⟩
  · exact .inl ((compare_float_left x hw).trans (Binary64.compare_of_rank? hr hs))
  rcases toFloat?_cases hw with rfl | ⟨j, hj, rfl⟩
  · exact .inl ((compare_float_right hv y).trans (Binary64.compare_of_rank? hr hs))
  rw [Binary64.rank?_ofWide, Option.some.injEq] at hr hs
  exact .inr ⟨i, j, hi, hj, hr, hs⟩

theorem atMost_iff_of_compare (h : v.compare w = some (Ord.compare i j)) :
    v.AtMost w ↔ i ≤ j := by
  rw [atMost_iff_isLE h, Int.isLE_compare]

theorem equal_iff_of_compare (h : v.compare w = some (Ord.compare i j)) :
    v.compare w = some .eq ↔ i = j := by
  rw [h, Option.some.injEq, Int.compare_eq_eq]

theorem IsFrom.exists_rank? (hv : v.IsFrom S) (hx : v.toFloat? = some x) :
    ∃ r, x.rank? = some r := by
  rcases toFloat?_cases hx with rfl | ⟨i, -, rfl⟩
  · obtain ⟨r, hr, -⟩ := Binary64.exists_rank?_of_isFinite hv.1
    exact ⟨r, hr⟩
  · exact ⟨_, Binary64.rank?_ofWide i⟩

/-- Numbers that are equal are at one place. -/
theorem rank_eq_rank (hx : v.toFloat? = some x) (hy : w.toFloat? = some y)
    (hr : x.rank? = some r) (hs : y.rank? = some s) (h : v.compare w = some .eq) : r = s := by
  rcases compare_numbers hx hy hr hs with hcompare | ⟨i, j, hi, hj, rfl, rfl⟩
  · exact (equal_iff_of_compare hcompare).mp h
  · rw [(equal_iff_of_compare (compare_of_integer? hi hj)).mp h]

/-! ### Integers that are rounded apart -/

section Apart

variable (hS : ∀ i ∈ S, ∀ j ∈ S, i < j → RoundsApart i j)
include hS

/-- Among integers that are rounded apart, rounding keeps the order. -/
theorem rank_le_rank (hv : v.IsFrom S) (hw : w.IsFrom S) (hx : v.toFloat? = some x)
    (hy : w.toFloat? = some y) (hr : x.rank? = some r) (hs : y.rank? = some s)
    (h : v.AtMost w) : r ≤ s := by
  rcases compare_numbers hx hy hr hs with hcompare | ⟨i, j, hi, hj, rfl, rfl⟩
  · exact (atMost_iff_of_compare hcompare).mp h
  have hij := (atMost_iff_of_compare (compare_of_integer? hi hj)).mp h
  rcases hij.eq_or_lt with rfl | hlt
  · exact le_rfl
  · rcases (hS i (hv.2 i hi) j (hw.2 j hj) hlt).place_cases with hplace | ⟨hplace, -⟩
    · exact hplace.le
    · exact hplace.le

/-- Integers are in the order of their places, if a finite number stands between these. -/
theorem le_of_between (hi : i ∈ S) (hj : j ∈ S) (hbelow : -horizon < r) (habove : r < horizon)
    (hir : place i ≤ r) (hrj : r ≤ place j) : i ≤ j := by
  by_contra hji
  rcases (hS j hj i hi (not_le.mp hji)).place_cases with hplace | ⟨hplace, hend | hend⟩
  · omega
  · omega
  · omega

theorem consistent_of_numbers (ha : a.IsFrom S) (hb : b.IsFrom S) (hc : c.IsFrom S)
    (hx : a.toFloat? = some x) (hy : b.toFloat? = some y) (hz : c.toFloat? = some z) :
    Consistent a b c := by
  obtain ⟨r, hr⟩ := ha.exists_rank? hx
  obtain ⟨s, hs⟩ := hb.exists_rank? hy
  obtain ⟨t, ht⟩ := hc.exists_rank? hz
  rcases compare_numbers hx hz hr ht with hac | ⟨i, k, hi, hk, rfl, rfl⟩
  · constructor
    · intro hab hbc
      rw [equal_iff_of_compare hac]
      exact (rank_eq_rank hx hy hr hs hab).trans (rank_eq_rank hy hz hs ht hbc)
    · intro hab hbc
      rw [atMost_iff_of_compare hac]
      exact (rank_le_rank hS ha hb hx hy hr hs hab).trans (rank_le_rank hS hb hc hy hz hs ht hbc)
  have hac := compare_of_integer? hi hk
  rcases toFloat?_cases hy with rfl | ⟨j, hj, rfl⟩
  · -- Only here, with a float between two integers, it matters that these are rounded apart.
    obtain ⟨s', hs', hbelow, habove⟩ := Binary64.exists_rank?_of_isFinite hb.1
    obtain rfl := Option.some.inj (hs.symm.trans hs')
    constructor
    · intro hab hbc
      have his := rank_eq_rank hx hy hr hs hab
      have hsk := rank_eq_rank hy hz hs ht hbc
      have hik := le_of_between hS (ha.2 i hi) (hc.2 k hk) hbelow habove his.le hsk.le
      have hki := le_of_between hS (hc.2 k hk) (ha.2 i hi) hbelow habove hsk.ge his.ge
      rw [equal_iff_of_compare hac]
      exact le_antisymm hik hki
    · intro hab hbc
      have his := rank_le_rank hS ha hb hx hy hr hs hab
      have hsk := rank_le_rank hS hb hc hy hz hs ht hbc
      rw [atMost_iff_of_compare hac]
      exact le_of_between hS (ha.2 i hi) (hc.2 k hk) hbelow habove his hsk
  · exact consistent_of_transCmp Ord.compare (compare_of_integer? hi hj)
      (compare_of_integer? hj hk) hac

theorem consistent_of_roundsApart (ha : a.IsFrom S) (hb : b.IsFrom S) (hc : c.IsFrom S) :
    Consistent a b c := by
  have hcomparable {o o' : Ordering} (hab : a.compare b = some o) (hbc : b.compare c = some o') :
      Consistent a b c := by
    rcases compare_cases hab with hab | ⟨x, y, hx, hy⟩
    · rcases compare_cases hbc with hbc | ⟨y, z, hy, -⟩
      · exact hab.consistent hbc
      · rw [hab.toFloat?_eq_none.2] at hy
        cases hy
    · rcases compare_cases hbc with hbc | ⟨-, z, -, hz⟩
      · rw [hbc.toFloat?_eq_none.1] at hy
        cases hy
      · exact consistent_of_numbers hS ha hb hc hx hy hz
  constructor
  · intro hab hbc
    exact (hcomparable hab hbc).equal hab hbc
  · intro hab hbc
    obtain ⟨o, ho⟩ := hab.exists_compare
    obtain ⟨o', ho'⟩ := hbc.exists_compare
    exact (hcomparable ho ho').atMost hab hbc

end Apart

theorem isUsable_ofInt (i : Int) : (ofInt i).isUsable = true := by
  unfold ofInt
  split <;> rfl

/-- Where rounding does not keep the order, a float between two integers is not between them. -/
theorem roundsApart_of_consistent
    (h : ∀ a b c : Value, a.IsFrom S → b.IsFrom S → c.IsFrom S → Consistent a b c)
    (hi : i ∈ S) (hj : j ∈ S) (hij : i < j) : RoundsApart i j := by
  rcases Binary64.roundsApart_or_exists_between hij with happart | ⟨x, r, hx, hr, hjr, hri⟩
  · exact happart
  have hfrom {k : Int} (hk : k ∈ S) : (Value.ofInt k).IsFrom S := by
    refine ⟨isUsable_ofInt k, fun l hl ↦ ?_⟩
    rw [integer?_ofInt, Option.some.injEq] at hl
    exact hl ▸ hk
  have hfloat : (Value.float x).IsFrom S := ⟨hx, fun k hk ↦ nomatch hk⟩
  have hbelow : (Value.ofInt j).AtMost (.float x) := by
    have hcompare := compare_float_right (toFloat?_of_integer? (integer?_ofInt j)) x
    rw [Binary64.compare_of_rank? (Binary64.rank?_ofWide j) hr] at hcompare
    exact (atMost_iff_of_compare hcompare).mpr hjr
  have habove : (Value.float x).AtMost (Value.ofInt i) := by
    have hcompare := compare_float_left x (toFloat?_of_integer? (integer?_ofInt i))
    rw [Binary64.compare_of_rank? hr (Binary64.rank?_ofWide i)] at hcompare
    exact (atMost_iff_of_compare hcompare).mpr hri
  have hmost := (h _ _ _ (hfrom hj) hfloat (hfrom hi)).atMost hbelow habove
  rw [atMost_iff_of_compare (compare_of_integer? (integer?_ofInt j) (integer?_ofInt i))] at hmost
  exact absurd hmost (not_le.mpr hij)

/-- Comparing is consistent exactly for values whose integers are rounded apart. Integers of 53 bits
are, and integers of 128 bits are unless two of them are rounded to one number. -/
theorem consistent_iff_roundsApart (S : Set Int) :
    ((∀ a b c : Value, a.IsFrom S → b.IsFrom S → c.IsFrom S → Consistent a b c) ↔
        ∀ i ∈ S, ∀ j ∈ S, i < j → RoundsApart i j) ∧
      ((∀ i ∈ S, i.natAbs ≤ 2 ^ 53) → ∀ i ∈ S, ∀ j ∈ S, i < j → RoundsApart i j) ∧
      ((∀ i ∈ S, i.natAbs < 2 ^ 128) → ∀ i ∈ S, ∀ j ∈ S, i < j →
        (RoundsApart i j ↔ ¬ (Binary64.ofWide i).same (Binary64.ofWide j) = true)) := by
  refine ⟨⟨fun h i hi j hj ↦ roundsApart_of_consistent h hi hj,
    fun hS a b c ↦ consistent_of_roundsApart hS⟩,
    fun hbits i hi j hj ↦ ?_, fun hbits i hi j hj ↦ ?_⟩
  · exact Binary64.roundsApart_of_natAbs_le (hbits i hi) (hbits j hj)
  · exact Binary64.roundsApart_iff_not_same (hbits i hi) (hbits j hj)

/-- Two even integers beyond 53 bits are rounded apart, and with a float beside them all is well. -/
theorem consistent_iff_roundsApart_even :
    RoundsApart 9007199254740992 9007199254740994 ∧
      Consistent (.int 9007199254740992) (.float (.ofInt 9007199254740993))
        (.int 9007199254740994) := by
  have happart : RoundsApart 9007199254740992 9007199254740994 := .inl (by decide +kernel)
  refine ⟨happart, (consistent_iff_roundsApart {9007199254740992, 9007199254740994}).1.mpr ?_ _ _ _
    ⟨rfl, ?_⟩ ⟨by decide +kernel, ?_⟩ ⟨rfl, ?_⟩⟩
  · rintro i (rfl | rfl) j (rfl | rfl) hij
    · exact absurd hij (by decide)
    · exact happart
    · exact absurd hij (by decide)
    · exact absurd hij (by decide)
  · rintro i ⟨⟩
    exact .inl rfl
  · exact fun i hi ↦ nomatch hi
  · rintro i ⟨⟩
    exact .inr rfl

/-- The float 2 ^ 53 equals two neighbouring integers, itself and the odd one that is rounded to
it. -/
theorem compare_eq_of_rounded_alike :
    let even : Value := .int 9007199254740992
    let x : Value := .float (.ofInt 9007199254740992)
    let odd : Value := .int 9007199254740993
    (even.isUsable = true ∧ x.isUsable = true ∧ odd.isUsable = true) ∧
      (even.compare x = some .eq ∧ x.compare odd = some .eq ∧ even.compare odd = some .lt) ∧
      ¬ Consistent even x odd ∧ ¬ Consistent odd x even := by
  intro even x odd
  have heven : even.compare x = some .eq := by decide +kernel
  have hodd : x.compare odd = some .eq := by decide +kernel
  have hodd' : odd.compare x = some .eq := by decide +kernel
  have heven' : x.compare even = some .eq := by decide +kernel
  have hless : even.compare odd = some .lt := by decide +kernel
  refine ⟨⟨rfl, by decide +kernel, rfl⟩, ⟨heven, hodd, hless⟩, fun h ↦ ?_, fun h ↦ ?_⟩
  · exact absurd (hless.symm.trans (h.equal heven hodd)) (by decide)
  · rcases h.atMost (.inr hodd') (.inr heven') with hmost | hmost
    · exact absurd hmost (by decide +kernel)
    · exact absurd hmost (by decide +kernel)

end Value

end PropertyFilter
