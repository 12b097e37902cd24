import PropertyFilter.Proofs.Dialect.Ldap.Bounds

/-!
# Bounds in time

A directory holds points in time as ticks of 100 nanoseconds, and a bound is written as its whole
ticks. Of a point in time on a whole tick the directory then answers as a filter does, but for two
things (`query_ordered_dateTime`). The ticks of a leap second are those of the second after it as
well, so that they are not in the order of time with those. And what a bound has beyond its last
whole tick is lost: the inclusive bounds that are written for `ge` and `lt` put this tick itself on
the other side.
-/

set_option autoImplicit false

namespace PropertyFilter

/-- Two orders that are told apart by a relation are told apart by its complement. -/
theorem Relation.complement_holds_eq_iff (relation : Relation) {o o' : Ordering} :
    relation.complement.holds o = relation.complement.holds o' ↔
      relation.holds o = relation.holds o' := by
  rw [holds_complement, holds_complement, Bool.not_inj_iff]

namespace DateTime

variable {t u p bound : DateTime}

/-! ### The order of time -/

theorem compare_eq_lt_iff :
    t.compare u = .lt ↔ t.seconds < u.seconds ∨ t.seconds = u.seconds ∧ t.nanos < u.nanos := by
  rw [compare, Ordering.then_eq_lt, Int.compare_eq_lt, Int.compare_eq_eq, Nat.compare_eq_lt]

theorem compare_eq_gt_iff :
    t.compare u = .gt ↔ u.seconds < t.seconds ∨ t.seconds = u.seconds ∧ u.nanos < t.nanos := by
  rw [compare, Ordering.then_eq_gt, Int.compare_eq_gt, Int.compare_eq_eq, Nat.compare_eq_gt]

/-! ### The order of ticks -/

/-- The one is a leap second and the other one is in the second after it, the ticks of which a leap
second has as well. -/
def RunsInto (t u : DateTime) : Prop := 1000000000 ≤ t.nanos ∧ u.seconds = t.seconds + 1

/-- Where a point in time on a whole tick is not related to a bound as their ticks are. -/
def Misjudged (p bound : DateTime) : Relation → Prop
  | .greater | .lessOrEqual =>
    (p.RunsInto bound ∧ bound.ticks < p.ticks) ∨ (bound.RunsInto p ∧ p.ticks ≤ bound.ticks)
  | .greaterOrEqual | .less =>
    (p.RunsInto bound ∧ bound.ticks ≤ p.ticks) ∨ (bound.RunsInto p ∧ p.ticks < bound.ticks) ∨
      (p.ticks = bound.ticks ∧ p.seconds = bound.seconds ∧ bound.nanos % 100 ≠ 0)

/-- Of points in time in different seconds only those of a leap second may have the later ticks. -/
theorem runsInto_of_ticks_le (hseconds : t.seconds < u.seconds) (hticks : u.ticks ≤ t.ticks) :
    t.RunsInto u := by
  have hnanos := t.nanos_lt
  rw [ticks, ticks] at hticks
  rw [RunsInto]
  omega

theorem not_runsInto (h : t.seconds ≤ u.seconds) : ¬ u.RunsInto t := fun hrun ↦ by
  have hnext := hrun.2
  omega

/-- Within a second, a point in time on a whole tick is beyond a bound if its tick is. -/
theorem ticks_lt_ticks_iff (hseconds : p.seconds = bound.seconds) (hp : p.nanos % 100 = 0) :
    bound.ticks < p.ticks ↔ bound.nanos < p.nanos := by
  rw [ticks, ticks]
  omega

/-- Within a second, a point in time on a whole tick is before a bound if its tick is, or if the
bound has something beyond that tick. -/
theorem nanos_lt_nanos_iff (hseconds : p.seconds = bound.seconds) (hp : p.nanos % 100 = 0) :
    p.nanos < bound.nanos ↔
      p.ticks < bound.ticks ∨ (p.ticks = bound.ticks ∧ bound.nanos % 100 ≠ 0) := by
  rw [ticks, ticks]
  omega

theorem greater_ticks_iff (hp : p.nanos % 100 = 0) :
    (bound.ticks < p.ticks ↔ p.compare bound = .gt) ↔ ¬ p.Misjudged bound .greater := by
  rw [compare_eq_gt_iff, Misjudged]
  rcases lt_trichotomy p.seconds bound.seconds with hbefore | hsame | hafter
  · have hrun (h : bound.ticks < p.ticks) := runsInto_of_ticks_le hbefore h.le
    simp [hbefore.not_gt, hbefore.ne, not_runsInto hbefore.le, and_iff_right_of_imp hrun]
  · simp [hsame, not_runsInto hsame.le, not_runsInto hsame.ge, ticks_lt_ticks_iff hsame hp]
  · have hrun := runsInto_of_ticks_le hafter
    simp [hafter, not_runsInto hafter.le, and_iff_right_of_imp hrun]

theorem less_ticks_iff (hp : p.nanos % 100 = 0) :
    (p.ticks < bound.ticks ↔ p.compare bound = .lt) ↔ ¬ p.Misjudged bound .less := by
  rw [compare_eq_lt_iff, Misjudged]
  rcases lt_trichotomy p.seconds bound.seconds with hbefore | hsame | hafter
  · have hrun := runsInto_of_ticks_le hbefore
    simp [hbefore, hbefore.ne, not_runsInto hbefore.le, and_iff_right_of_imp hrun]
  · rw [nanos_lt_nanos_iff hsame hp]
    by_cases hticks : p.ticks = bound.ticks
    · simp [hsame, not_runsInto hsame.le, not_runsInto hsame.ge, hticks]
    · simp [hsame, not_runsInto hsame.le, not_runsInto hsame.ge, hticks]
  · have hrun (h : p.ticks < bound.ticks) := runsInto_of_ticks_le hafter h.le
    simp [hafter.not_gt, hafter.ne', not_runsInto hafter.le, and_iff_right_of_imp hrun]

/-- Ticks are related as points in time are, unless these are misjudged. -/
theorem holds_ticks_iff (relation : Relation) (hp : p.nanos % 100 = 0) :
    relation.holds (Ord.compare p.ticks bound.ticks) = relation.holds (p.compare bound) ↔
      ¬ p.Misjudged bound relation := by
  have hgreater : Relation.greater.holds (Ord.compare p.ticks bound.ticks) =
      Relation.greater.holds (p.compare bound) ↔ ¬ p.Misjudged bound .greater := by
    rw [← greater_ticks_iff hp, Relation.holds_compare, Relation.holds, Bool.eq_iff_iff,
      decide_eq_true_iff, beq_iff_eq]
  have hless : Relation.less.holds (Ord.compare p.ticks bound.ticks) =
      Relation.less.holds (p.compare bound) ↔ ¬ p.Misjudged bound .less := by
    rw [← less_ticks_iff hp, Relation.holds_compare, Relation.holds, Bool.eq_iff_iff,
      decide_eq_true_iff, beq_iff_eq]
  cases relation with
  | greater => exact hgreater
  | lessOrEqual => exact (Relation.complement_holds_eq_iff .greater).trans hgreater
  | less => exact hless
  | greaterOrEqual => exact (Relation.complement_holds_eq_iff .less).trans hless

end DateTime

namespace Ldap

variable {property : String} {r : Record} {p bound : DateTime}

/-- A property that is a point in time, or a text of one, is ordered with respect to a bound as
points in time are. -/
theorem holds_dateTime (relation : Relation)
    (hp : (r property).map (·.converted (.dateTime bound)) = some (.dateTime p)) :
    (Filter.test property (.ordered relation (.dateTime bound))).holds r =
      relation.holds (p.compare bound) := by
  obtain ⟨actual, hactual, hconverted⟩ := Option.map_eq_some_iff.mp hp
  rw [Filter.holds, Test.holds, Test.compared, hactual, Option.bind_some, hconverted,
    Value.compare, Option.any_some]

/-- What is written for a bound in time: an item, which for a strict bound is the opposite one and
negated. -/
def boundText (property : String) (ticks : Int) : Relation → String
  | .greater => "(!" ++ itemText property "<=" ticks ++ ")"
  | .greaterOrEqual => itemText property ">=" ticks
  | .less => "(!" ++ itemText property ">=" ticks ++ ")"
  | .lessOrEqual => itemText property "<=" ticks

theorem query_ordered_eq (property : String) (relation : Relation) (bound : DateTime) :
    (Filter.test property (.ordered relation (.dateTime bound))).query .ldap =
      .ok (boundText property bound.ticks relation) := by
  have hitem (comparison : Comparison) := written_item property comparison bound.ticks
  have hnegated (comparison : Comparison) : String.ofList (Search.negation
      (.item property comparison [.text (Numeral.signedDigits bound.ticks)])).written =
        "(!" ++ itemText property (String.ofList comparison.symbol) bound.ticks ++ ")" := by
    rw [← hitem, ← String.toList_inj]
    simp [Search.written]
  cases relation with
  | greater => exact congrArg Except.ok (hnegated .atMost)
  | greaterOrEqual => exact congrArg Except.ok (hitem .atLeast)
  | less => exact congrArg Except.ok (hnegated .atLeast)
  | lessOrEqual => exact congrArg Except.ok (hitem .atMost)

/-- The text that is written for a bound in time makes a directory answer as the filter does of a
point in time on a whole tick, exactly unless this is misjudged. -/
theorem query_ordered_dateTime (relation : Relation)
    (hp : (r property).map (·.converted (.dateTime bound)) = some (.dateTime p))
    (htick : p.nanos % 100 = 0) :
    (Filter.test property (.ordered relation (.dateTime bound))).query .ldap =
        .ok (boundText property bound.ticks relation) ∧
      (IsAttribute property → ∃ parsed,
        read? (boundText property bound.ticks relation).toList = some parsed ∧
          parsed.answer? property p.ticks =
            some (relation.holds (Ord.compare p.ticks bound.ticks))) ∧
      (relation.holds (Ord.compare p.ticks bound.ticks) =
          (Filter.test property (.ordered relation (.dateTime bound))).holds r ↔
        ¬ p.Misjudged bound relation) := by
  have hquery := query_ordered_eq property relation bound
  refine ⟨hquery, fun hname ↦ ⟨_, ?_, answer?_dateTime property relation bound⟩, ?_⟩
  · obtain ⟨text, htext, hread⟩ := read?_query_ordered hname relation (.dateTime bound)
    obtain rfl := Except.ok.inj (htext.symm.trans hquery)
    exact hread
  · rw [holds_dateTime relation hp]
    exact DateTime.holds_ticks_iff relation htick

/-- A text of a whole tick and a bound just before it. -/
theorem query_ordered_dateTime_text :
    let bound : DateTime := ⟨1709627400, 50, 0, by decide, by decide⟩
    let p : DateTime := ⟨1709627400, 100, 7200, by decide, by decide⟩
    let r : Record := fun _ ↦ some (.string "2024-03-05T10:30:00.0000001+02:00")
    (r "whenCreated").map (·.converted (.dateTime bound)) = some (.dateTime p) ∧
      (∃ parsed, read? (boundText "whenCreated" bound.ticks .less).toList = some parsed ∧
        parsed.answer? "whenCreated" p.ticks = some false) ∧
      (Filter.test "whenCreated" (.ordered .less (.dateTime bound))).holds r = false := by
  intro bound p r
  have hp : (r "whenCreated").map (·.converted (.dateTime bound)) = some (.dateTime p) := by
    decide +kernel
  have hname : IsAttribute "whenCreated" := isAttribute_of_isName (.of_isSegment rfl)
  have htick : p.nanos % 100 = 0 := Nat.mod_self 100
  obtain ⟨-, hread, hholds⟩ := query_ordered_dateTime .less hp htick
  have hanswer : Relation.less.holds (Ord.compare p.ticks bound.ticks) = false := by decide
  have hjudged : ¬ p.Misjudged bound .less := by
    simp [DateTime.Misjudged, DateTime.RunsInto, DateTime.ticks, p, bound]
  rw [hanswer] at hread hholds
  exact ⟨hp, hread hname, (hholds.mpr hjudged).symm⟩

/-- The whole tick that a bound is written as is not at the bound but before it, and a leap second
before a bound in the second after it has later ticks. -/
theorem answer?_ne_holds :
    (let bound : DateTime := ⟨1709627400, 50, 0, by decide, by decide⟩
      let p : DateTime := ⟨1709627400, 0, 0, by decide, by decide⟩
      let f := Filter.test "whenCreated" (.ordered .greaterOrEqual (.dateTime bound))
      p.nanos % 100 = 0 ∧ f.query .ldap = .ok "(whenCreated>=133541010000000000)" ∧
        (read? "(whenCreated>=133541010000000000)".toList).bind
            (·.answer? "whenCreated" p.ticks) = some true ∧
        f.holds (fun _ ↦ some (.dateTime p)) = false) ∧
    (let bound : DateTime := ⟨1483228800, 200000000, 0, by decide, by decide⟩
      let p : DateTime := ⟨1483228799, 1500000000, 0, by decide, by decide⟩
      let f := Filter.test "whenCreated" (.ordered .greater (.dateTime bound))
      p.nanos % 100 = 0 ∧ f.query .ldap = .ok "(!(whenCreated<=131277024002000000))" ∧
        (read? "(!(whenCreated<=131277024002000000))".toList).bind
            (·.answer? "whenCreated" p.ticks) = some true ∧
        f.holds (fun _ ↦ some (.dateTime p)) = false) := by
  refine ⟨⟨rfl, ?_, ?_, ?_⟩, ⟨rfl, ?_, ?_, ?_⟩⟩
  · decide +kernel
  · decide +kernel
  · decide +kernel
  · decide +kernel
  · decide +kernel
  · decide +kernel

end Ldap

end PropertyFilter
