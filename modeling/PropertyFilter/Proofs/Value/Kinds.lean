import PropertyFilter.Proofs.Value.Order
import PropertyFilter.Proofs.Value.Same

/-!
# The order of values within kinds

Values that are no floats are compared without rounding. The values of each kind have an order of
their own, by what they stand for (`Ranking`): truth values, integers of either representation,
texts, points in time, and identifiers by the number that their bytes are. Values of two kinds are
not comparable (`compare_eq_none_of_kind_ne`). So comparing is a total order within each kind; equal
in it are values that are equal as data and two representations of one integer, and no others
(`compare_orders_kinds`).
-/

set_option autoImplicit false

namespace PropertyFilter

namespace Uuid

/-- Bytes that go on from two numbers to the same one are the same, if they are as many, and go on
from the same number. -/
theorem eq_of_foldl_eq {bytes bytes' : List UInt8} (hlength : bytes.length = bytes'.length)
    {n m : Nat} (h : bytes.foldl (fun total byte ↦ 256 * total + byte.toNat) n =
      bytes'.foldl (fun total byte ↦ 256 * total + byte.toNat) m) : n = m ∧ bytes = bytes' := by
  induction bytes generalizing bytes' n m with
  | nil =>
    obtain rfl := List.eq_nil_of_length_eq_zero hlength.symm
    exact ⟨h, rfl⟩
  | cons byte bytes ih =>
    obtain ⟨byte', others, rfl⟩ :=
      List.exists_cons_of_length_pos (Nat.lt_of_lt_of_eq (Nat.succ_pos _) hlength)
    obtain ⟨htotal, rfl⟩ := ih (Nat.succ.inj hlength) h
    have hstep : 256 * n + byte.toNat = 256 * m + byte'.toNat := htotal
    have hbyte : byte.toNat < 256 := byte.toNat_lt
    have hbyte' : byte'.toNat < 256 := byte'.toNat_lt
    have hsame : byte = byte' := UInt8.toNat_inj.mp (by omega)
    exact ⟨by omega, by rw [hsame]⟩

theorem number_injective : Function.Injective number := by
  rintro ⟨bytes, hbytes⟩ ⟨bytes', hbytes'⟩ h
  obtain ⟨-, rfl⟩ := eq_of_foldl_eq (hbytes.trans hbytes'.symm) h
  rfl

theorem compare_eq_eq_iff (u v : Uuid) : u.compare v = .eq ↔ u = v := by
  rw [compare, Std.compare_eq_iff_eq, number_injective.eq_iff]

end Uuid

namespace Value

variable {v w x : Value} {o o' : Ordering}

/-- The value is no float, and so is compared without rounding. -/
def IsExact (v : Value) : Prop := ∀ x, v ≠ .float x

/-- The values are equal as data or stand for the same integer. -/
def MeansSame (v w : Value) : Prop :=
  v.same w = true ∨ ∃ i, v.integer? = some i ∧ w.integer? = some i

/-- Values that are equal as data stand for the same integer, if for any. -/
theorem integer?_eq_of_same (h : v.same w = true) : v.integer? = w.integer? := by
  rcases same_cases h with rfl | ⟨x, y, rfl, rfl, -⟩ | ⟨t, u, rfl, rfl, -⟩
  · rfl
  · rfl
  · rfl

/-! ### Kinds -/

/-- How the values of one kind are ordered: just these have a rank, they compare as their ranks do,
and the ranks of two values are equal if the values mean the same, and only then. -/
structure Ranking (kind : String) where
  Rank : Type
  cmp : Rank → Rank → Ordering
  transCmp : Std.TransCmp cmp
  rank? : Value → Option Rank
  exists_rank?_iff : ∀ v, (∃ p, rank? v = some p) ↔ v.kind = kind
  compare_eq : ∀ {v w p q}, rank? v = some p → rank? w = some q → v.compare w = some (cmp p q)
  cmp_eq_iff : ∀ {v w p q}, rank? v = some p → rank? w = some q →
    (cmp p q = .eq ↔ v.MeansSame w)

namespace Ranking

/-- The order of a kind whose values hold one thing each and are no integers: it is the order of the
things, in which those are equal that make values equal as data. -/
def ofHeld {α : Type} (kind : String) (hold : α → Value) (cmp : α → α → Ordering)
    [transCmp : Std.TransCmp cmp] (held? : Value → Option α)
    (held?_eq : ∀ v p, held? v = some p ↔ v = hold p)
    (kind_eq : ∀ v, (∃ p, v = hold p) ↔ v.kind = kind)
    (compare_hold : ∀ p q, (hold p).compare (hold q) = some (cmp p q))
    (same_hold : ∀ p q, (hold p).same (hold q) = (cmp p q == .eq))
    (integer?_hold : ∀ p, (hold p).integer? = none) : Ranking kind where
  Rank := α
  cmp := cmp
  transCmp := transCmp
  rank? := held?
  exists_rank?_iff v := by simp only [held?_eq, kind_eq]
  compare_eq hv hw := by rw [(held?_eq _ _).mp hv, (held?_eq _ _).mp hw, compare_hold]
  cmp_eq_iff hv hw := by
    rw [(held?_eq _ _).mp hv, (held?_eq _ _).mp hw, MeansSame, same_hold, integer?_hold]
    simp

def bools : Ranking "boolean" :=
  ofHeld "boolean" .bool Ord.compare
    (fun | .bool p => some p | _ => none)
    (fun v p ↦ by cases v <;> simp)
    (fun v ↦ by cases v <;> simp [kind])
    (fun _ _ ↦ rfl)
    (fun p q ↦ by cases p <;> cases q <;> rfl)
    (fun _ ↦ rfl)

def strings : Ranking "string" :=
  ofHeld "string" .string Ord.compare string?
    (fun v p ↦ by cases v <;> simp [string?])
    (fun v ↦ by cases v <;> simp [kind])
    (fun _ _ ↦ rfl)
    (fun p q ↦ by rw [same, Bool.eq_iff_iff, beq_iff_eq, beq_iff_eq, Std.compare_eq_iff_eq])
    (fun _ ↦ rfl)

def dateTimes : Ranking "date/time" :=
  ofHeld "date/time" .dateTime DateTime.compare
    (fun | .dateTime t => some t | _ => none)
    (fun v p ↦ by cases v <;> simp)
    (fun v ↦ by cases v <;> simp [kind])
    (fun _ _ ↦ rfl)
    (fun _ _ ↦ rfl)
    (fun _ ↦ rfl)

def uuids : Ranking "uuid" :=
  ofHeld "uuid" .uuid Uuid.compare
    (fun | .uuid u => some u | _ => none)
    (fun v p ↦ by cases v <;> simp)
    (fun v ↦ by cases v <;> simp [kind])
    (fun _ _ ↦ rfl)
    (fun p q ↦ by rw [same, Bool.eq_iff_iff, beq_iff_eq, beq_iff_eq, Uuid.compare_eq_eq_iff])
    (fun _ ↦ rfl)

def integers : Ranking "integer" where
  Rank := Int
  cmp := Ord.compare
  transCmp := inferInstance
  rank? := integer?
  exists_rank?_iff v := by cases v <;> simp [kind, integer?]
  compare_eq hv hw := compare_of_integer? hv hw
  cmp_eq_iff {v w i j} hv hw := by
    rw [Std.compare_eq_iff_eq]
    constructor
    · rintro rfl
      exact .inr ⟨i, hv, hw⟩
    · rintro (hsame | ⟨k, hvk, hwk⟩)
      · rw [integer?_eq_of_same hsame, hw, Option.some.injEq] at hv
        exact hv.symm
      · rw [hvk, Option.some.injEq] at hv
        rw [hwk, Option.some.injEq] at hw
        exact hv.symm.trans hw

end Ranking

/-- All values but floats are of a kind that is ordered. -/
theorem nonempty_ranking (hv : v.IsExact) : Nonempty (Ranking v.kind) := by
  cases v with
  | bool p => exact ⟨.bools⟩
  | int i => exact ⟨.integers⟩
  | bigInt i => exact ⟨.integers⟩
  | float x => exact absurd rfl (hv x)
  | string s => exact ⟨.strings⟩
  | dateTime t => exact ⟨.dateTimes⟩
  | uuid u => exact ⟨.uuids⟩

/-- Values of two kinds are not comparable, unless one of them is a float. -/
theorem compare_eq_none_of_kind_ne (hv : v.IsExact) (hw : w.IsExact) (h : v.kind ≠ w.kind) :
    v.compare w = none := by
  cases v with
  | float x => exact absurd rfl (hv x)
  | _ =>
    cases w with
    | float y => exact absurd rfl (hw y)
    | _ => first | rfl | exact absurd rfl h

/-- Values that mean the same are of one kind. -/
theorem MeansSame.kind_eq (h : v.MeansSame w) : v.kind = w.kind := by
  rcases h with h | ⟨i, hv, hw⟩
  · rcases same_cases h with rfl | ⟨x, y, rfl, rfl, -⟩ | ⟨t, u, rfl, rfl, -⟩
    · rfl
    · rfl
    · rfl
  · exact ((Ranking.integers.exists_rank?_iff v).mp ⟨i, hv⟩).trans
      ((Ranking.integers.exists_rank?_iff w).mp ⟨i, hw⟩).symm

/-! ### Orders -/

/-- Of three that do not descend, the first and the last compare as the first strict step does. -/
theorem cmp_eq_then {α : Type} (cmp : α → α → Ordering) [Std.TransCmp cmp] {p q r : α}
    (hpq : (cmp p q).isLE = true) (hqr : (cmp q r).isLE = true) :
    cmp p r = (cmp p q).then (cmp q r) := by
  cases hpq' : cmp p q with
  | lt =>
    cases hqr' : cmp q r with
    | lt => exact Std.TransCmp.lt_trans hpq' hqr'
    | eq => exact Std.TransCmp.lt_of_lt_of_eq hpq' hqr'
    | gt => simp [hqr'] at hqr
  | eq =>
    cases hqr' : cmp q r with
    | lt => exact Std.TransCmp.lt_of_eq_of_lt hpq' hqr'
    | eq => exact Std.TransCmp.eq_trans hpq' hqr'
    | gt => simp [hqr'] at hqr
  | gt => simp [hpq'] at hpq

/-- Values of one kind compare as their ranks. -/
theorem Ranking.exists_compare_eq {kind : String} (ranking : Ranking kind) (hv : v.kind = kind)
    (hw : w.kind = kind) : ∃ p q, ranking.rank? v = some p ∧ ranking.rank? w = some q ∧
      v.compare w = some (ranking.cmp p q) := by
  obtain ⟨p, hp⟩ := (ranking.exists_rank?_iff v).mpr hv
  obtain ⟨q, hq⟩ := (ranking.exists_rank?_iff w).mpr hw
  exact ⟨p, q, hp, hq, ranking.compare_eq hp hq⟩

theorem compare_eq_none_iff (hv : v.IsExact) (hw : w.IsExact) :
    v.compare w = none ↔ v.kind ≠ w.kind := by
  refine ⟨fun hnone hkind ↦ ?_, compare_eq_none_of_kind_ne hv hw⟩
  obtain ⟨ranking⟩ := nonempty_ranking hv
  obtain ⟨p, q, -, -, hcompare⟩ := ranking.exists_compare_eq rfl hkind.symm
  rw [hnone] at hcompare
  cases hcompare

theorem compare_swap (hv : v.IsExact) (hw : w.IsExact) :
    w.compare v = (v.compare w).map Ordering.swap := by
  by_cases hkind : v.kind = w.kind
  · obtain ⟨ranking⟩ := nonempty_ranking hv
    obtain ⟨p, q, hp, hq, hcompare⟩ := ranking.exists_compare_eq rfl hkind.symm
    have htransCmp : Std.TransCmp ranking.cmp := ranking.transCmp
    have hswap : ranking.cmp q p = (ranking.cmp p q).swap := Std.OrientedCmp.eq_swap
    rw [hcompare, ranking.compare_eq hq hp, hswap, Option.map_some]
  · rw [compare_eq_none_of_kind_ne hv hw hkind, compare_eq_none_of_kind_ne hw hv (Ne.symm hkind),
      Option.map_none]

theorem compare_trans (hv : v.IsExact) (hw : w.IsExact) (hx : x.IsExact)
    (hvw : v.compare w = some o) (hwx : w.compare x = some o') (ho : o.isLE = true)
    (ho' : o'.isLE = true) : v.compare x = some (o.then o') := by
  have hkind : v.kind = w.kind := by
    by_contra hne
    rw [compare_eq_none_of_kind_ne hv hw hne] at hvw
    cases hvw
  have hkind' : w.kind = x.kind := by
    by_contra hne
    rw [compare_eq_none_of_kind_ne hw hx hne] at hwx
    cases hwx
  obtain ⟨ranking⟩ := nonempty_ranking hw
  obtain ⟨p, q, hp, hq, hcompare⟩ := ranking.exists_compare_eq hkind rfl
  obtain ⟨r, hr⟩ := (ranking.exists_rank?_iff x).mpr hkind'.symm
  have htransCmp : Std.TransCmp ranking.cmp := ranking.transCmp
  rw [hcompare, Option.some.injEq] at hvw
  rw [ranking.compare_eq hq hr, Option.some.injEq] at hwx
  subst hvw hwx
  rw [ranking.compare_eq hp hr, cmp_eq_then ranking.cmp ho ho']

theorem compare_eq_eq_iff (hv : v.IsExact) (hw : w.IsExact) :
    v.compare w = some .eq ↔ v.MeansSame w := by
  by_cases hkind : v.kind = w.kind
  · obtain ⟨ranking⟩ := nonempty_ranking hv
    obtain ⟨p, q, hp, hq, hcompare⟩ := ranking.exists_compare_eq rfl hkind.symm
    rw [hcompare, Option.some.injEq, ranking.cmp_eq_iff hp hq]
  · rw [compare_eq_none_of_kind_ne hv hw hkind]
    exact ⟨nofun, fun h ↦ absurd h.kind_eq hkind⟩

/-- Values that are no floats are comparable exactly within a kind. There comparing is reversed by
swapping and transitive, equal are the values that mean the same, and integers of either
representation compare as integers. -/
theorem compare_orders_kinds (hv : v.IsExact) (hw : w.IsExact) (hx : x.IsExact) :
    (v.compare w = none ↔ v.kind ≠ w.kind) ∧
      w.compare v = (v.compare w).map Ordering.swap ∧
      (∀ o o', v.compare w = some o → w.compare x = some o' → o.isLE = true → o'.isLE = true →
        v.compare x = some (o.then o')) ∧
      (v.compare w = some .eq ↔ v.MeansSame w) ∧
      ∀ i j, v.integer? = some i → w.integer? = some j → v.compare w = some (Ord.compare i j) :=
  ⟨compare_eq_none_iff hv hw, compare_swap hv hw, fun _ _ ↦ compare_trans hv hw hx,
    compare_eq_eq_iff hv hw, fun _ _ ↦ compare_of_integer?⟩

/-- Five in both representations, which are not equal as data, and an integer that needs the wider
one. -/
theorem compare_orders_kinds_representations :
    let five : Value := .int 5
    let wide : Value := .bigInt 5
    let greater : Value := .bigInt 9223372036854775808
    (five.IsExact ∧ wide.IsExact ∧ greater.IsExact) ∧ wide.same five = false ∧
      wide.compare five = some .eq ∧ five.compare wide = some .eq ∧
      wide.compare greater = some .lt ∧ five.compare (.string "5") = none := by
  intro five wide greater
  have hfive : five.IsExact := nofun
  have hwide : wide.IsExact := nofun
  have hgreater : greater.IsExact := nofun
  have htext : (Value.string "5").IsExact := nofun
  obtain ⟨-, hswap, htrans, hequal, -⟩ := compare_orders_kinds hwide hfive hgreater
  obtain ⟨hnone, -⟩ := compare_orders_kinds hfive htext hgreater
  obtain ⟨-, -, -, -, hless⟩ := compare_orders_kinds hfive hgreater hwide
  have hsame : wide.compare five = some .eq := hequal.mpr (.inr ⟨5, rfl, rfl⟩)
  have hbelow : five.compare greater = some .lt := hless 5 9223372036854775808 rfl rfl
  refine ⟨⟨hfive, hwide, hgreater⟩, rfl, hsame, ?_, htrans _ _ hsame hbelow rfl rfl,
    hnone.mpr (by decide)⟩
  rw [hswap, hsame]
  rfl

end Value

end PropertyFilter
