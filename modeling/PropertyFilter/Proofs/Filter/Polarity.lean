import Mathlib.Algebra.Ring.Parity
import PropertyFilter.Proofs.Filter.Answers

/-!
# Comparisons under an odd number of negations

Pushing negations down can only lose records: whatever satisfies the normal form satisfies the
filter. What is lost is lost at one kind of place, an ordering test that stands under an odd number
of negations (`Filter.Occurs`) and whose property is absent or not comparable with the bound. A
record that answers all of these tests keeps its answer (`Filter.normalize_refines_holds`).
-/

set_option autoImplicit false

namespace PropertyFilter.Filter

/-- The test of the property stands in the tree, under so many negations. -/
inductive Occurs (property : String) (t : Test) : Nat → Filter → Prop
  | here : Occurs property t 0 (.test property t)
  | andLeft {n : Nat} {a b : Filter} (h : Occurs property t n a) : Occurs property t n (.and a b)
  | andRight {n : Nat} {a b : Filter} (h : Occurs property t n b) : Occurs property t n (.and a b)
  | orLeft {n : Nat} {a b : Filter} (h : Occurs property t n a) : Occurs property t n (.or a b)
  | orRight {n : Nat} {a b : Filter} (h : Occurs property t n b) : Occurs property t n (.or a b)
  | not {n : Nat} {a : Filter} (h : Occurs property t n a) : Occurs property t (n + 1) (.not a)

variable {r : Record}

/-- A filter has one possible answer if every test under an odd number of negations is answered.
The filter itself stands under one more negation if it is `negated`. -/
theorem eq_holds_of_mayAnswer {negated answer : Bool} {f : Filter}
    (h : f.MayAnswer r negated answer)
    (hanswered : ∀ n property t, Occurs property t n f → Odd (n + negated.toNat) →
      t.isUnanswered (r property) = false) : answer = f.holds r := by
  induction f generalizing negated answer with
  | and a b iha ihb =>
    obtain ⟨x, y, hx, hy, rfl⟩ := h
    have hleft := iha hx fun n property t hoccurs ↦ hanswered n property t hoccurs.andLeft
    have hright := ihb hy fun n property t hoccurs ↦ hanswered n property t hoccurs.andRight
    rw [holds, hleft, hright]
  | or a b iha ihb =>
    obtain ⟨x, y, hx, hy, rfl⟩ := h
    have hleft := iha hx fun n property t hoccurs ↦ hanswered n property t hoccurs.orLeft
    have hright := ihb hy fun n property t hoccurs ↦ hanswered n property t hoccurs.orRight
    rw [holds, hleft, hright]
  | not a ih =>
    have hinner : (!answer) = a.holds r := by
      refine ih h fun n property t hoccurs hodd ↦ hanswered (n + 1) property t hoccurs.not ?_
      cases negated with
      | false => exact hodd
      | true => exact hodd.add_even even_two
    rw [holds, ← hinner, Bool.not_not]
  | test property t =>
    rcases h with rfl | ⟨rfl, hunanswered⟩
    · rfl
    · rw [hanswered 0 property t .here odd_one] at hunanswered
      cases hunanswered

/-- What satisfies the normal form satisfies the filter, and the two give one answer to every record
that can be compared wherever an ordering test stands under an odd number of negations. -/
theorem normalize_refines_holds (f : Filter) (collapse : Bool) (r : Record) :
    ((f.normalize collapse).holds r = true → f.holds r = true) ∧
      ((∀ n property relation bound, Occurs property (.ordered relation bound) n f → Odd n →
          (Test.compared (r property) bound).isSome = true) →
        (f.normalize collapse).holds r = f.holds r) := by
  constructor
  · intro hnormalized
    have hpossible : f.MayAnswer r false (normalizedAnswer collapse r false f) :=
      mayAnswer_normalizedAnswer false f
    rw [normalizedAnswer, hnormalized] at hpossible
    exact holds_of_mayAnswer false hpossible
  · intro hcompared
    apply eq_holds_of_mayAnswer (mayAnswer_normalizedAnswer false f)
    intro n property t hoccurs hodd
    cases t with
    | ordered relation bound =>
      have hsome := hcompared n property relation bound hoccurs hodd
      rw [Test.isUnanswered, Option.isNone_eq_false_iff, hsome]
    | _ => rfl

/-- A name that is not comparable stands under two negations, an age that is under one. -/
theorem normalize_refines_holds_under_two :
    ((not (.and (.test "age" (.ordered .greater (.int 65)))
        (.not (.test "name" (.ordered .less (.int 0)))))).normalize true).holds
      (Record.ofJson (.object [("age", .integer 20), ("name", .string "Ann")])) =
    (not (.and (.test "age" (.ordered .greater (.int 65)))
        (.not (.test "name" (.ordered .less (.int 0)))))).holds
      (Record.ofJson (.object [("age", .integer 20), ("name", .string "Ann")])) ∧
    (not (.and (.test "age" (.ordered .greater (.int 65)))
        (.not (.test "name" (.ordered .less (.int 0)))))).holds
      (Record.ofJson (.object [("age", .integer 20), ("name", .string "Ann")])) = true := by
  refine ⟨(normalize_refines_holds _ _ _).2 ?_, (normalize_refines_holds _ true _).1 (by decide)⟩
  intro n property relation bound hoccurs hodd
  cases hoccurs with
  | not hoccurs =>
    cases hoccurs with
    | andLeft hoccurs =>
      cases hoccurs
      decide
    | andRight hoccurs =>
      cases hoccurs with
      | not hoccurs =>
        cases hoccurs
        exact absurd hodd (by decide)

end PropertyFilter.Filter
