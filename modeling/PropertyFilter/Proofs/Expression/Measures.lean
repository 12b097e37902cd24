import PropertyFilter.Proofs.Expression.Connectives
import PropertyFilter.Proofs.Filter.Checked

/-!
# How far rules go

What a rule says it used is one token at least and no more than there are, and the tree that it
gives is not too high (`Measured`). Unlike what the grammar says of the rules, this holds of tokens
that scanning never gives, too. It passes from the rule for operands to the rule for chains
(`chain_measured`), and from the terms inside to groups, factors and terms (`termAround_measured`).

A factor is a term that is no negation (`factorAround`), and a group is what stands in it and the
parenthesis that closes it (`group_eq`).
-/

set_option autoImplicit false

namespace PropertyFilter.Expression

/-- What the rule reads takes a token at least and those that there are at most, and is not too
high. -/
def Measured (rule : Rule Filter) : Prop :=
  ∀ tokens f used, rule tokens = .ok (f, used) →
    0 < used ∧ used ≤ tokens.length ∧ f.height ≤ maxHeight

theorem items_used (operator : String) (close : Lexeme) (tokens : List Token) {vs : List Value}
    {used : Nat} (h : items operator close tokens = .ok (vs, used)) : used ≤ tokens.length := by
  induction tokens using items.induct generalizing vs used with
  | case1 => simp [items, ended] at h
  | case2 token tokens ih =>
    rw [items, bind_eq_ok_iff] at h
    obtain ⟨first, -, h⟩ := h
    cases tokens with
    | nil => simp [ended] at h
    | cons separator rest =>
      dsimp only at h
      split at h
      · rw [bind_eq_ok_iff] at h
        obtain ⟨⟨others, more⟩, hmore, h⟩ := h
        cases h
        have hothers := ih hmore
        simp only [List.length_cons]
        omega
      · split at h
        · cases h
          simp
        · simp [fail] at h

theorem values_used (operator : String) (tokens : List Token) {vs : List Value} {used : Nat}
    (h : values operator tokens = .ok (vs, used)) : used ≤ tokens.length := by
  cases tokens with
  | nil => simp [values, ended] at h
  | cons opened tokens =>
    rw [values] at h
    split at h
    · simp [fail] at h
    · next close hclose =>
      cases tokens with
      | nil => simp [ended] at h
      | cons token rest =>
        dsimp only at h
        split at h
        · simp [fail] at h
        · rw [bind_eq_ok_iff] at h
          obtain ⟨⟨values, more⟩, hmore, h⟩ := h
          cases h
          have hitems := items_used operator close _ hmore
          simp only [List.length_cons] at hitems ⊢
          omega

/-- A rule for one token needs one. -/
theorem one_le_length_of_ok {α : Type} {rule : List Token → Except Failure α} {wanted : Wanted}
    (hnil : rule [] = ended wanted) {tokens : List Token} {a : α} (h : rule tokens = .ok a) :
    1 ≤ tokens.length := by
  cases tokens with
  | nil => rw [hnil] at h; cases h
  | cons token rest => simp

theorem operand_used (word : String) (tokens : List Token) (operator : Operator) {t : Test}
    {used : Nat} (h : operand word tokens operator = .ok (t, used)) : used ≤ tokens.length := by
  cases operator with
  | present =>
    cases h
    exact Nat.zero_le _
  | oneOf =>
    obtain ⟨⟨values, more⟩, hvalues, h⟩ := bind_eq_ok_iff.mp h
    cases h
    exact values_used word tokens hvalues
  | equals =>
    obtain ⟨value, hvalue, h⟩ := bind_eq_ok_iff.mp h
    cases h
    exact one_le_length_of_ok rfl hvalue
  | differs =>
    obtain ⟨value, hvalue, h⟩ := bind_eq_ok_iff.mp h
    cases h
    exact one_le_length_of_ok rfl hvalue
  | ordered relation =>
    obtain ⟨bound, hbound, h⟩ := bind_eq_ok_iff.mp h
    cases h
    exact one_le_length_of_ok rfl hbound
  | text test =>
    obtain ⟨pattern, hpattern, h⟩ := bind_eq_ok_iff.mp h
    cases h
    exact one_le_length_of_ok rfl hpattern

theorem asked_used (property : String) (tokens : List Token) {t : Test} {used : Nat}
    (h : asked property tokens = .ok (t, used)) : used ≤ tokens.length := by
  cases tokens with
  | nil => simp [asked, ended] at h
  | cons token tokens =>
    rw [asked] at h
    split at h
    · split at h
      · simp [fail] at h
      · obtain ⟨⟨test, more⟩, hmore, h⟩ := bind_eq_ok_iff.mp h
        cases h
        exact Nat.succ_le_succ (operand_used _ tokens _ hmore)
    · simp [fail] at h

theorem predicate_used {tokens : List Token} {f : Filter} {used : Nat}
    (h : predicate tokens = .ok (f, used)) : 0 < used ∧ used ≤ tokens.length ∧ f.height = 1 := by
  cases tokens with
  | nil => simp [predicate, ended] at h
  | cons token tokens =>
    rw [predicate] at h
    split at h
    · next property _ =>
      obtain ⟨⟨test, more⟩, hmore, h⟩ := bind_eq_ok_iff.mp h
      dsimp only at h
      split at h
      · next filter hmake =>
        cases h
        have hasked := asked_used property tokens hmore
        obtain ⟨-, rfl⟩ := (Filter.make_eq_ok_iff property test f).mp hmake
        exact ⟨Nat.succ_pos _, Nat.succ_le_succ hasked, rfl⟩
      · simp [fail] at h
    · simp [fail] at h

theorem predicate_measured : Measured predicate := by
  intro tokens f used h
  obtain ⟨hpos, hused, hheight⟩ := predicate_used h
  exact ⟨hpos, hused, by simp [hheight, maxHeight]⟩

section Chains

variable {word : String} {join : Filter → Filter → Filter} {rule : Rule Filter}

theorem chainFrom_measured (hrule : Measured rule) (left : Filter) (tokens : List Token)
    (hleft : left.height ≤ maxHeight) {f : Filter} {more : Nat}
    (h : chainFrom word join rule left tokens = .ok (f, more)) :
    more ≤ tokens.length ∧ f.height ≤ maxHeight := by
  induction left, tokens using chainFrom.induct word generalizing f more with
  | case1 left =>
    rw [chainFrom] at h
    cases h
    exact ⟨Nat.le_refl _, hleft⟩
  | case2 left token tail hword ih =>
    rw [chainFrom, if_pos hword, bind_eq_ok_iff] at h
    obtain ⟨⟨right, used⟩, hright, h⟩ := h
    rw [bind_eq_ok_iff] at h
    obtain ⟨joined, hjoined, h⟩ := h
    rw [bind_eq_ok_iff] at h
    obtain ⟨⟨filter, more'⟩, hmore, h⟩ := h
    cases h
    obtain ⟨rfl, hheight⟩ := (limited_eq_ok_iff _ _ _).mp hjoined
    obtain ⟨-, hused, -⟩ := hrule tail right used hright
    obtain ⟨hmore', hfilter⟩ := ih used (join left right) hheight hmore
    rw [List.length_drop] at hmore'
    refine ⟨?_, hfilter⟩
    rw [List.length_cons]
    omega
  | case3 left token tail hword =>
    rw [chainFrom, if_neg hword] at h
    cases h
    exact ⟨Nat.zero_le _, hleft⟩

theorem chain_measured (hrule : Measured rule) : Measured (chain word join rule) := by
  intro tokens f used h
  rw [chain, bind_eq_ok_iff] at h
  obtain ⟨⟨left, taken⟩, hleft, h⟩ := h
  rw [bind_eq_ok_iff] at h
  obtain ⟨⟨filter, more⟩, hmore, h⟩ := h
  cases h
  obtain ⟨hpos, htaken, hheight⟩ := hrule tokens left taken hleft
  obtain ⟨hmore', hfilter⟩ := chainFrom_measured hrule left (tokens.drop taken) hheight hmore
  rw [List.length_drop] at hmore'
  exact ⟨by omega, by omega, hfilter⟩

end Chains

/-- A group in parentheses or else a test, given the rule for the terms inside it. -/
def factorAround (inner? : Option (Rule Filter)) : Rule Filter
  | [] => predicate []
  | token :: tokens =>
    if token.lexeme = .openParen then
      match inner? with
      | none => fail .nestedTooDeep token
      | some inner => do
        let (filter, used) ← group inner token.first tokens
        return (filter, used + 1)
    else predicate (token :: tokens)

theorem termAround_eq_factorAround (inner? : Option (Rule Filter)) {tokens : List Token}
    (h : beginsNegation tokens = false) :
    termAround inner? tokens = factorAround inner? tokens := by
  cases tokens with
  | nil => rfl
  | cons token tail =>
    simp only [termAround, h, Bool.false_eq_true, if_false]
    rfl

/-- The parenthesis that closes a group, which was opened at a place. -/
def closing (opened : Position) (filter : Filter) : Rule Filter
  | [] => ended .closeParen
  | token :: _ =>
    if token.lexeme = .closeParen then .ok (filter, 1)
    else fail (.unclosed opened token.lexeme) token

theorem group_eq (inner : Rule Filter) (opened : Position) (tokens : List Token) :
    group inner opened tokens = (do
      let read ← alternatives inner tokens
      let closed ← closing opened read.1 (tokens.drop read.2)
      return (closed.1, read.2 + closed.2)) := by
  rw [group]
  refine bind_congr fun read ↦ ?_
  cases htokens : tokens.drop read.2 with
  | nil => simp [closing, ended, htokens]
  | cons token rest =>
    simp only [closing, htokens]
    split <;> rfl

theorem group_measured {inner : Rule Filter} (hinner : Measured inner) (opened : Position) :
    Measured (group inner opened) := by
  intro tokens f used h
  obtain ⟨⟨filter, taken⟩, hread, h⟩ := bind_eq_ok_iff.mp h
  obtain ⟨hpos, htaken, hheight⟩ := chain_measured (chain_measured hinner) tokens filter taken hread
  cases hrest : tokens.drop taken with
  | nil => simp [hrest, ended] at h
  | cons token rest =>
    have hlength := congrArg List.length hrest
    rw [List.length_drop, List.length_cons] at hlength
    simp only [hrest] at h
    split at h
    · cases h
      exact ⟨by omega, by omega, hheight⟩
    · simp [fail] at h

section Around

variable {inner? : Option (Rule Filter)}

theorem factorAround_measured (hinner : ∀ inner ∈ inner?, Measured inner) :
    Measured (factorAround inner?) := by
  intro tokens f used h
  cases tokens with
  | nil => simp [factorAround, predicate, ended] at h
  | cons token tail =>
    simp only [factorAround] at h
    split at h
    · cases inner? with
      | none => simp [fail] at h
      | some inner =>
        obtain ⟨⟨filter, taken⟩, hgroup, h⟩ := bind_eq_ok_iff.mp h
        cases h
        obtain ⟨-, htaken, hheight⟩ :=
          group_measured (hinner inner rfl) token.first tail filter taken hgroup
        exact ⟨Nat.succ_pos _, Nat.succ_le_succ htaken, hheight⟩
    · exact predicate_measured (token :: tail) f used h

theorem termAround_measured (hinner : ∀ inner ∈ inner?, Measured inner) :
    Measured (termAround inner?) := by
  intro tokens f used h
  cases hnegation : beginsNegation tokens with
  | false =>
    rw [termAround_eq_factorAround inner? hnegation] at h
    exact factorAround_measured hinner tokens f used h
  | true =>
    cases tokens with
    | nil => simp [beginsNegation] at hnegation
    | cons token tail =>
      simp only [termAround, hnegation, if_true] at h
      cases inner? with
      | none => simp [fail] at h
      | some inner =>
        obtain ⟨⟨operand, taken⟩, hoperand, h⟩ := bind_eq_ok_iff.mp h
        obtain ⟨negated, hnegated, h⟩ := bind_eq_ok_iff.mp h
        cases h
        obtain ⟨rfl, hheight⟩ := (limited_eq_ok_iff _ _ _).mp hnegated
        obtain ⟨-, htaken, -⟩ := hinner inner rfl tail operand taken hoperand
        exact ⟨Nat.succ_pos _, Nat.succ_le_succ htaken, hheight⟩

end Around

/-- The rule for the terms inside those with at most so many groups and negations open. -/
def inside? : (budget : Nat) → Option (Rule Filter)
  | 0 => none
  | budget + 1 => some (term budget)

theorem term_eq_termAround (budget : Nat) : term budget = termAround (inside? budget) := by
  cases budget <;> rfl

theorem term_measured (budget : Nat) : Measured (term budget) := by
  induction budget with
  | zero => exact termAround_measured (by simp)
  | succ budget ih =>
    refine termAround_measured ?_
    rintro _ ⟨⟩
    exact ih

theorem inside?_measured (budget : Nat) : ∀ inner ∈ inside? budget, Measured inner := by
  cases budget with
  | zero => simp [inside?]
  | succ budget =>
    rintro _ ⟨⟩
    exact term_measured budget

end PropertyFilter.Expression
