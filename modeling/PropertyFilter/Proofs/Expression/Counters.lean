import PropertyFilter.Proofs.Expression.Measures
import PropertyFilter.Proofs.Expression.Walking

/-!
# The counters of a walk are exact

A rule answers with how many tokens it used, which are one at least and no more than there are
(`Measured`), so where a walk does what a rule answers, everything that it counts by hand is known
from the rule (`Obeys`). That it does so is said of all walks with so many groups and negations
open (`Follows`). A chain follows its rule if its operands do, by the recursion of the rule
(`chain_follows`); a term follows its rule if the terms one level further in do (`term_follows`),
which is known where the limit is reached because nothing is opened there. The induction goes on
what is left up to the limit, for any value of the counter at all (`inside_budget`).

So each rule of the walk ends wherever it starts, with its position, its counter and its heights
right (`walks_exact`), and the counter never has a value that it should not have (`Walk.Grew`).
-/

set_option autoImplicit false

namespace PropertyFilter.Expression

/-! ### Walks follow rules -/

namespace Walk

/-- On the way to there the counter has only had values between the one it has here and the next
one, or as far as one above the limit. -/
def Grew (w w' : Walk) : Prop :=
  ∀ n ∈ w'.counts, n ∈ w.counts ∨ w.nesting ≤ n ∧ n ≤ max (w.nesting + 1) 257

theorem grew_self (w : Walk) : w.Grew w := fun _ ↦ .inl

theorem Grew.trans {w w' w'' : Walk} (h : w.Grew w') (hnesting : w'.nesting = w.nesting)
    (h' : w'.Grew w'') : w.Grew w'' := by
  intro n hn
  rcases h' n hn with hn | hn
  · exact h n hn
  · rw [hnesting] at hn
    exact .inr hn

theorem grew_pass (w : Walk) (count : Nat) : w.Grew (w.pass count) := fun _ ↦ .inl

theorem grew_recount (w : Walk) : w.Grew (w.recount 1) := by
  intro n hn
  rcases List.mem_cons.mp hn with rfl | hn
  · right
    simp only [recount]
    omega
  · exact .inl hn

/-- A walk that opens something, goes on while the limit allows it, and closes it. -/
theorem Grew.within {w w' : Walk} (hnesting : w.nesting < 256) (h : (w.recount 1).Grew w') :
    w.Grew w' := by
  intro n hn
  rcases h n hn with hn | hn
  · exact grew_recount w n hn
  · right
    simp only [recount] at hn
    omega

theorem grew_leave {w w' : Walk} (h : w.Grew w') (hnesting : w'.nesting = w.nesting + 1) :
    w.Grew (w'.recount (-1)) := by
  intro n hn
  rcases List.mem_cons.mp hn with rfl | hn
  · right
    simp only [recount]
    omega
  · exact h n hn

end Walk

namespace Walking

variable {tokens : List Token} {m : Walking Node} {w : Walk}

/-- From here the walk does what a rule answers: what the rule reads is passed, the height of its
tree is the one that was counted, and the counter is back at its value; or the walk ends with the
same failure. -/
inductive Obeys (tokens : List Token) (m : Walking Node) (w : Walk) :
    Except Failure (Filter × Nat) → Prop
  | ok {f : Filter} {used : Nat} {w' : Walk} (ends : Ends tokens m w (.ok (f, f.height)) w')
      (position : w'.position = w.position + used) (nesting : w'.nesting = w.nesting)
      (grew : w.Grew w') : Obeys tokens m w (.ok (f, used))
  | error {failure : Failure} {w' : Walk} (ends : Ends tokens m w (.error failure) w')
      (grew : w.Grew w') : Obeys tokens m w (.error failure)

/-- With so many groups and negations open, the walk does everywhere what the rule answers. -/
def Follows (tokens : List Token) (level : Int) (m : Walking Node) (rule : Rule Filter) : Prop :=
  ∀ w : Walk, w.nesting = level → Obeys tokens m w (rule (tokens.drop w.position))

/-- A walk that does nothing but pass tokens is at the same level. -/
theorem Obeys.of_pass {f : Filter} {used : Nat}
    (h : Ends tokens m w (.ok (f, f.height)) (w.pass used)) : Obeys tokens m w (.ok (f, used)) :=
  .ok h rfl rfl (w.grew_pass used)

theorem Obeys.imp {next : Walking Node} {answer : Except Failure (Filter × Nat)}
    (h : Obeys tokens next w answer)
    (hm : ∀ result w', Ends tokens next w result w' → Ends tokens m w result w') :
    Obeys tokens m w answer := by
  cases h with
  | error ends grew => exact .error (hm _ _ ends) grew
  | ok ends position nesting grew => exact .ok (hm _ _ ends) position nesting grew

/-- A call obeys what its procedure obeys. -/
theorem obeys_call {c : Call} {answer : Except Failure (Filter × Nat)}
    (h : Obeys tokens (procedure tokens c) w answer) : Obeys tokens (call c) w answer :=
  h.imp fun _ _ ↦ ends_call

/-- A walk that obeys a rule ends. -/
theorem Obeys.ends {answer : Except Failure (Filter × Nat)} (h : Obeys tokens m w answer) :
    ∃ w', Ends tokens m w (answer.map fun read ↦ (read.1, read.1.height)) w' ∧ w.Grew w' := by
  cases h with
  | error ends grew => exact ⟨_, ends, grew⟩
  | ok ends position nesting grew => exact ⟨_, ends, grew⟩

/-- A walk that has passed some tokens goes on as another one. -/
theorem Obeys.after {next : Walking Node} {w' : Walk} {passed : Nat}
    {answer : Except Failure (Filter × Nat)} (h : Obeys tokens next w' answer)
    (hposition : w'.position = w.position + passed) (hnesting : w'.nesting = w.nesting)
    (hgrew : w.Grew w')
    (hm : ∀ result w'', Ends tokens next w' result w'' → Ends tokens m w result w'') :
    Obeys tokens m w (do let read ← answer; return (read.1, passed + read.2)) := by
  cases h with
  | error ends grew => exact .error (hm _ _ ends) (hgrew.trans hnesting grew)
  | ok ends position nesting grew =>
    refine .ok (hm _ _ ends) ?_ (nesting.trans hnesting) (hgrew.trans hnesting grew)
    rw [position, hposition, Nat.add_assoc]

section Passing

variable {token : Token} {tail : List Token} {w' : Walk} {used : Nat}

/-- What a walk passes of a row of tokens is gone from what is ahead. -/
theorem drop_pass (h : tokens.drop w.position = token :: tail) :
    tokens.drop (w.pass 1).position = tail := by
  rw [Walk.pass, ← List.drop_drop, h, List.drop_one, List.tail_cons]

theorem drop_of_pass (h : tokens.drop w.position = token :: tail)
    (hw' : w'.position = (w.pass 1).position + used) :
    tokens.drop w'.position = tail.drop used := by
  rw [hw', ← List.drop_drop, drop_pass h]

theorem position_of_pass (hw' : w'.position = (w.pass 1).position + used) :
    w'.position = w.position + (1 + used) := by
  rw [hw', Walk.pass, Nat.add_assoc]

end Passing

section Chains

variable {level : Int} {c : Connective} {rule : Rule Filter}

theorem height_join (c : Connective) (f g : Filter) :
    (c.join f g).height = max f.height g.height + 1 := by
  cases c <;> rfl

theorem chainFrom_obeys (h : Follows tokens level (call (operand c)) rule) (left : Filter)
    (rest : List Token) (hrest : tokens.drop w.position = rest) (hw : w.nesting = level) :
    Obeys tokens (call (.further c (left, left.height))) w
      (Expression.chainFrom c.word c.join rule left rest) := by
  -- The rule recurses on what is left, and the walk may be anywhere where that is ahead.
  induction left, rest using Expression.chainFrom.induct c.word generalizing w with
  | case1 left =>
    rw [Expression.chainFrom]
    refine obeys_call (.of_pass ?_)
    exact (ends_take?_none (by simp [hrest])).bind (ends_return tokens _ w)
  | case2 left token tail hword ih =>
    have hpassed := drop_pass hrest
    have htake := ends_take? (p := (·.isWord c.word)) hrest hword
    have hoperand := h (w.pass 1) hw
    rw [hpassed] at hoperand
    rw [Expression.chainFrom, if_pos hword]
    refine obeys_call ?_
    generalize rule tail = answer at hoperand ⊢
    cases hoperand with
    | error ends grew => exact .error (htake.bind ends.bind_error) ((w.grew_pass 1).trans rfl grew)
    | @ok right used w' ends position nesting grew =>
      have hgrew : w.Grew w' := (w.grew_pass 1).trans rfl grew
      have hposition := position_of_pass position
      have hafter := drop_of_pass hrest position
      by_cases hheight : (c.join left right).height ≤ maxHeight
      · have hlimited := (limited_eq_ok_iff token _ _).mpr ⟨rfl, hheight⟩
        have hmore := ih used (c.join left right) hafter (nesting.trans hw)
        rw [height_join] at hheight hmore
        simp only [bind, Except.bind, hlimited]
        refine hmore.after hposition nesting hgrew fun result w'' hends ↦ ?_
        exact htake.bind (ends.bind ((ends_deepen hheight token w').bind hends))
      · have hlimited : limited token (c.join left right) = fail .tooHigh token := if_neg hheight
        rw [height_join] at hheight
        simp only [bind, Except.bind, hlimited]
        exact .error (htake.bind (ends.bind (ends_deepen_error hheight token w').bind_error)) hgrew
  | case3 left token tail hword =>
    rw [Expression.chainFrom, if_neg hword]
    refine obeys_call (.of_pass ?_)
    exact (ends_take?_none (by simpa [hrest] using hword)).bind (ends_return tokens _ w)

theorem chain_follows (h : Follows tokens level (call (operand c)) rule) :
    Follows tokens level (call (.chain c)) (Expression.chain c.word c.join rule) := by
  intro w hw
  have hoperand := h w hw
  rw [Expression.chain]
  refine obeys_call ?_
  generalize rule (tokens.drop w.position) = answer at hoperand ⊢
  cases hoperand with
  | error ends grew => exact .error ends.bind_error grew
  | @ok left used w' ends position nesting grew =>
    have hafter : tokens.drop w'.position = (tokens.drop w.position).drop used := by
      rw [position, List.drop_drop]
    have hmore := chainFrom_obeys h left _ hafter (nesting.trans hw)
    exact hmore.after position nesting grew fun result w'' hends ↦ ends.bind hends

theorem conjunction_follows {term : Rule Filter}
    (h : Follows tokens level (call .term) term) :
    Follows tokens level (call (.chain .and)) (Expression.chain "and" .and term) := by
  exact chain_follows h

theorem alternatives_follows {term : Rule Filter}
    (h : Follows tokens level (call .term) term) :
    Follows tokens level (call (.chain .or)) (alternatives term) := by
  exact chain_follows (conjunction_follows h)

end Chains

/-! ### Groups and negations -/

/-- A walk between the opening of something at a token and its end. -/
def within (token : Token) (m : Walking Node) : Walking Node := do
  enter token
  let inner ← m
  leave
  return inner

theorem within_bind (token : Token) (m : Walking Node) (next : Node → Walking Node) :
    (do enter token; let inner ← m; leave; next inner) = within token m >>= next := by
  simp only [within, bind_assoc, pure_bind]

/-- What is opened below the limit is closed again, with the counter back at its value. -/
theorem within_obeys (token : Token) {answer : Except Failure (Filter × Nat)}
    (hw : w.nesting < 256) (h : Obeys tokens m (w.recount 1) answer) :
    Obeys tokens (within token m) w answer := by
  have henter := ends_enter tokens token hw
  cases h with
  | error ends grew => exact .error (henter.bind ends.bind_error) (grew.within hw)
  | @ok f used w' ends position nesting grew =>
    have hclosed : (w'.recount (-1)).nesting = w.nesting := by
      simp only [Walk.recount, nesting]
      omega
    have hends : Ends tokens (within token m) w (.ok (f, f.height)) (w'.recount (-1)) :=
      henter.bind (ends.bind ((ends_leave tokens w').bind (ends_return tokens _ _)))
    exact .ok hends position hclosed (Walk.grew_leave (grew.within hw) nesting)

/-- What a token opens below the limit does what the rule answers for the tokens after it. -/
theorem within_obeys_of_follows {token : Token} {tail : List Token} {rule : Rule Filter}
    (hrest : tokens.drop w.position = token :: tail) (hw : w.nesting < 256)
    (h : Follows tokens (w.nesting + 1) m rule) :
    Obeys tokens (within token m) (w.pass 1) (rule tail) := by
  have hinner := h ((w.pass 1).recount 1) rfl
  rw [show ((w.pass 1).recount 1).position = (w.pass 1).position from rfl,
    drop_pass hrest] at hinner
  exact within_obeys token hw hinner

/-- Nothing is opened at the limit. -/
theorem within_obeys_fail (tokens : List Token) (m : Walking Node) (token : Token)
    (hw : 256 ≤ w.nesting) : Obeys tokens (within token m) w (fail .nestedTooDeep token) :=
  .error (ends_enter_error tokens token hw).bind_error w.grew_recount

/-- The terms inside those at a level follow a rule; there is none where the limit is reached. -/
inductive Inside (tokens : List Token) (level : Int) : Option (Rule Filter) → Prop
  | none (h : 256 ≤ level) : Inside tokens level none
  | some {inner : Rule Filter} (h : level < 256)
      (follows : Follows tokens (level + 1) (call .term) inner) :
      Inside tokens level (some inner)

section Around

variable {level : Int} {inner? : Option (Rule Filter)} {token : Token} {tail : List Token}

/-- Where no group opens, a factor is a test. -/
theorem factor_obeys_predicate (tokens : List Token) (w : Walk)
    (h : ∀ token ∈ (tokens.drop w.position).head?, token.lexeme ≠ .openParen) :
    Obeys tokens (call .factor) w (predicate (tokens.drop w.position)) := by
  have htake : Ends tokens (take? tokens (· = .openParen)) w (.ok none) w :=
    ends_take?_none fun token htoken ↦ decide_eq_false (h token htoken)
  refine obeys_call ?_
  cases hanswer : predicate (tokens.drop w.position) with
  | error failure =>
    exact .error (htake.bind (ends_follow_error hanswer).bind_error) w.grew_self
  | ok read =>
    obtain ⟨f, used⟩ := read
    obtain ⟨-, -, hheight⟩ := predicate_used hanswer
    refine .of_pass ?_
    rw [hheight]
    exact htake.bind ((ends_follow hanswer).bind (ends_return tokens _ _))

theorem close_obeys (opened : Token) (f : Filter) {rest : List Token}
    (hrest : tokens.drop w.position = rest) :
    Obeys tokens (close tokens opened (f, f.height)) w (closing opened.first f rest) := by
  cases rest with
  | nil =>
    have htake : Ends tokens (take? tokens fun _ ↦ true) w (.ok none) w :=
      ends_take?_none (by simp [hrest])
    exact .error (htake.bind (ends_throw tokens _ w)) w.grew_self
  | cons token tail =>
    have htake := ends_take? (p := fun _ ↦ true) hrest rfl
    by_cases hclose : token.lexeme = .closeParen
    · rw [closing, if_pos hclose]
      refine .of_pass (htake.bind ?_)
      simp only [hclose, if_true]
      exact ends_return tokens _ _
    · rw [closing, if_neg hclose]
      refine @Obeys.error _ _ _ _ (w.pass 1) (htake.bind ?_) (w.grew_pass 1)
      simp only [hclose, if_false]
      exact ends_throw tokens _ _

/-- A factor that opens a group is what is in the group and the parenthesis that closes it. -/
theorem ends_factor_of_open (hrest : tokens.drop w.position = token :: tail)
    (hopen : token.lexeme = .openParen) {result : Except Failure Node} {w' : Walk}
    (h : Ends tokens (within token (call (.chain .or)) >>= close tokens token) (w.pass 1)
      result w') : Ends tokens (call .factor) w result w' := by
  have htake : Ends tokens (take? tokens (· = .openParen)) w (.ok (some token)) (w.pass 1) :=
    ends_take? hrest (decide_eq_true hopen)
  rw [← within_bind] at h
  exact ends_call (htake.bind h)

theorem factor_obeys_group (hinside : Inside tokens w.nesting inner?)
    (hrest : tokens.drop w.position = token :: tail) (hopen : token.lexeme = .openParen) :
    Obeys tokens (call .factor) w (factorAround inner? (token :: tail)) := by
  simp only [factorAround, hopen, if_true]
  cases hinside with
  | none hlevel =>
    have hgroup := within_obeys_fail (w := w.pass 1) tokens (call (.chain .or)) token hlevel
    cases hgroup with
    | error ends grew => exact .error (ends_factor_of_open hrest hopen ends.bind_error) grew
  | @some inner hlevel follows =>
    have hgroup := within_obeys_of_follows hrest hlevel (alternatives_follows follows)
    simp only [group_eq]
    generalize alternatives inner tail = answer at hgroup ⊢
    cases hgroup with
    | error ends grew => exact .error (ends_factor_of_open hrest hopen ends.bind_error) grew
    | @ok f used w' ends position nesting grew =>
      have hclose := close_obeys token f (drop_of_pass hrest position)
      have hgrew : w.Grew w' := grew
      have hfactor := hclose.after (position_of_pass position) nesting hgrew fun result w'' h ↦
        ends_factor_of_open hrest hopen (ends.bind h)
      simp only [bind, Except.bind] at hfactor ⊢
      cases hclosing : closing token.first f (tail.drop used) with
      | error failure => simpa only [hclosing] using hfactor
      | ok read =>
        have hsum : used + read.2 + 1 = 1 + used + read.2 := by omega
        simpa only [hclosing, pure, Except.pure, hsum] using hfactor

theorem factor_follows (hinside : Inside tokens level inner?) :
    Follows tokens level (call .factor) (factorAround inner?) := by
  intro w hw
  cases hrest : tokens.drop w.position with
  | nil =>
    have hpredicate := factor_obeys_predicate tokens w (by rw [hrest]; simp)
    rwa [hrest] at hpredicate
  | cons token tail =>
    by_cases hopen : token.lexeme = .openParen
    · exact factor_obeys_group (hw ▸ hinside) hrest hopen
    · have hpredicate := factor_obeys_predicate tokens w
        (by rw [hrest]; simpa using hopen)
      rw [hrest] at hpredicate
      simpa only [factorAround, hopen, if_false] using hpredicate

/-- A term that begins with a negation is the negation of the term after it. -/
theorem ends_term_of_negation (hrest : tokens.drop w.position = token :: tail)
    (hnegation : beginsNegation (token :: tail) = true) {result : Except Failure Node} {w' : Walk}
    (h : Ends tokens (within token (call .term) >>= negate token) (w.pass 1) result w') :
    Ends tokens (call .term) w result w' := by
  have hahead := ends_ahead tokens w
  have htake := ends_take? (p := fun _ ↦ true) hrest rfl
  rw [← within_bind] at h
  rw [hrest] at hahead
  refine ends_call (hahead.bind ?_)
  simp only [hnegation, if_true]
  exact htake.bind h

theorem term_obeys_negation (hinside : Inside tokens w.nesting inner?)
    (hrest : tokens.drop w.position = token :: tail)
    (hnegation : beginsNegation (token :: tail) = true) :
    Obeys tokens (call .term) w (termAround inner? (token :: tail)) := by
  simp only [termAround, hnegation, if_true]
  cases hinside with
  | none hlevel =>
    have hterm := within_obeys_fail (w := w.pass 1) tokens (call .term) token hlevel
    cases hterm with
    | error ends grew => exact .error (ends_term_of_negation hrest hnegation ends.bind_error) grew
  | @some inner hlevel follows =>
    have hterm := within_obeys_of_follows hrest hlevel follows
    dsimp only
    generalize inner tail = answer at hterm ⊢
    cases hterm with
    | error ends grew => exact .error (ends_term_of_negation hrest hnegation ends.bind_error) grew
    | @ok f used w' ends position nesting grew =>
      have hgrew : w.Grew w' := grew
      have hposition : w'.position = w.position + (used + 1) :=
        Nat.add_comm 1 used ▸ position_of_pass position
      by_cases hheight : (Filter.not f).height ≤ maxHeight
      · have hlimited := (limited_eq_ok_iff token _ _).mpr ⟨rfl, hheight⟩
        have hnegate : Ends tokens (negate token (f, f.height)) w'
            (.ok (.not f, f.height + 1)) w' :=
          (ends_deepen hheight token w').bind (ends_return tokens _ w')
        simp only [bind, Except.bind, hlimited]
        have hends := ends_term_of_negation hrest hnegation (ends.bind hnegate)
        exact .ok hends hposition nesting hgrew
      · have hlimited : limited token (.not f) = fail .tooHigh token := if_neg hheight
        have hnegate : Ends tokens (negate token (f, f.height)) w'
            (.error ⟨.tooHigh, some token.first⟩) w' :=
          (ends_deepen_error hheight token w').bind_error
        simp only [bind, Except.bind, hlimited]
        exact .error (ends_term_of_negation hrest hnegation (ends.bind hnegate)) hgrew

theorem term_follows (hinside : Inside tokens level inner?) :
    Follows tokens level (call .term) (termAround inner?) := by
  intro w hw
  cases hnegation : beginsNegation (tokens.drop w.position) with
  | false =>
    rw [termAround_eq_factorAround inner? hnegation]
    refine (factor_follows hinside w hw).imp fun result w' hends ↦ ?_
    refine ends_call ((ends_ahead tokens w).bind ?_)
    simp only [hnegation, Bool.false_eq_true, if_false]
    exact hends
  | true =>
    cases hrest : tokens.drop w.position with
    | nil => simp [hrest, beginsNegation] at hnegation
    | cons token tail =>
      exact term_obeys_negation (hw ▸ hinside) hrest (hrest ▸ hnegation)

end Around

/-! ### Whole walks -/

/-- How many more groups and negations may be open at a level. -/
def budget (level : Int) : Nat := (256 - level).toNat

theorem inside_budget (tokens : List Token) (level : Int) :
    Inside tokens level (inside? (budget level)) := by
  generalize hbudget : budget level = b
  unfold budget at hbudget
  induction b generalizing level with
  | zero => exact .none (by omega)
  | succ b ih =>
    refine .some (by omega) ?_
    rw [term_eq_termAround]
    exact term_follows (ih (level + 1) (by omega))

theorem term_follows_budget (tokens : List Token) (level : Int) :
    Follows tokens level (call .term) (Expression.term (budget level)) := by
  rw [term_eq_termAround]
  exact term_follows (inside_budget tokens level)

/-- The walk has passed a token at least and none that there is not, its counter is back at its
value, and the height that was counted for a tree is the height of the tree, which the limit
allows. -/
structure Exact (tokens : List Token) (w : Walk) (f : Filter) (depth : Nat) (w' : Walk) : Prop where
  forward : w.position < w'.position
  inside : w'.position ≤ tokens.length
  nesting : w'.nesting = w.nesting
  depth_eq : depth = f.height
  depth_le : depth ≤ 1024

/-- From everywhere the walk ends, its counter has only had values that it may have, and where it
ends with a tree it was exact. -/
structure IsExact (tokens : List Token) (m : Walking Node) : Prop where
  ends : ∀ w, ∃ result w', Ends tokens m w result w'
  counts : ∀ w result w', Ends tokens m w result w' → w.Grew w'
  exact : ∀ w f depth w', Ends tokens m w (.ok (f, depth)) w' → Exact tokens w f depth w'

theorem isExact_of_follows {rule : Int → Rule Filter}
    (h : ∀ level, Follows tokens level m (rule level)) (hrule : ∀ level, Measured (rule level)) :
    IsExact tokens m := by
  constructor
  · intro w
    obtain ⟨w', hends, -⟩ := (h w.nesting w rfl).ends
    exact ⟨_, w', hends⟩
  · intro w result w' hends
    obtain ⟨w'', hends', hgrew⟩ := (h w.nesting w rfl).ends
    obtain ⟨-, rfl⟩ := hends.unique hends'
    exact hgrew
  · intro w f depth w' hends
    have hobeys := h w.nesting w rfl
    have hmeasured := hrule w.nesting (tokens.drop w.position)
    generalize rule w.nesting (tokens.drop w.position) = answer at hobeys hmeasured
    cases hobeys with
    | @ok g used w'' ends position nesting grew =>
      obtain ⟨heq, rfl⟩ := hends.unique ends
      cases heq
      obtain ⟨hpos, hused, hheight⟩ := hmeasured _ used rfl
      rw [List.length_drop] at hused
      exact ⟨by omega, by omega, nesting, rfl, hheight⟩
    | error ends grew =>
      obtain ⟨heq, -⟩ := hends.unique ends
      cases heq

/-- The walk over a whole row of tokens gives what is read of them. -/
theorem ends_expression (tokens : List Token) :
    ∃ w, Ends tokens (expression tokens) .start (read tokens) w ∧ Walk.start.Grew w := by
  have hobeys := alternatives_follows (term_follows_budget tokens 0) .start rfl
  rw [show budget 0 = maxNesting from rfl] at hobeys
  rw [Walk.start, List.drop_zero] at hobeys
  rw [expression, read]
  split
  · exact ⟨.start, ends_throw tokens _ _, Walk.start.grew_self⟩
  · generalize alternatives (Expression.term maxNesting) tokens = answer at hobeys ⊢
    cases hobeys with
    | @error failure w ends grew => exact ⟨w, ends.bind_error, grew⟩
    | @ok f used w ends position nesting grew =>
      refine ⟨w, ends.bind ((ends_ahead tokens w).bind ?_), grew⟩
      simp only [bind, Except.bind]
      have hafter : tokens.drop w.position = tokens.drop used := by rw [position, Nat.zero_add]
      rw [hafter]
      cases tokens.drop used with
      | nil => exact ends_return tokens _ w
      | cons token rest => exact ends_throw tokens _ w

/-- The rules of the walk are exact: each of them ends, wherever it starts and however many groups
and negations are open there, and what it reads is passed, counted and measured as it should be. In
a walk over a whole row of tokens, which gives what is read of them, the counter is never below
zero and never above 257. -/
theorem walks_exact (tokens : List Token) :
    IsExact tokens (call (.chain .or)) ∧ IsExact tokens (call (.chain .and)) ∧
      IsExact tokens (call .term) ∧ IsExact tokens (call .factor) ∧
      ∃ w, Ends tokens (expression tokens) .start (read tokens) w ∧
        ∀ n ∈ w.counts, 0 ≤ n ∧ n ≤ 257 := by
  have hterm := term_follows_budget tokens
  have hmeasured (level : Int) := term_measured (budget level)
  obtain ⟨w, hends, hgrew⟩ := ends_expression tokens
  refine ⟨?_, ?_, ?_, ?_, w, hends, ?_⟩
  · exact isExact_of_follows (fun level ↦ alternatives_follows (hterm level))
      fun level ↦ chain_measured (chain_measured (hmeasured level))
  · exact isExact_of_follows (fun level ↦ conjunction_follows (hterm level))
      fun level ↦ chain_measured (hmeasured level)
  · exact isExact_of_follows hterm hmeasured
  · exact isExact_of_follows (fun level ↦ factor_follows (inside_budget tokens level))
      fun level ↦ factorAround_measured (inside?_measured (budget level))
  · intro n hn
    rcases hgrew n hn with hstart | hbounds
    · simp [Walk.counts, Walk.start] at hstart
      omega
    · simpa [Walk.start] using hbounds

end Walking

end PropertyFilter.Expression
