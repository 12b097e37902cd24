import PropertyFilter.Proofs.Expression.Operands

/-!
# Terms and chains are read as the grammar says

A chain of operands is one notion for both connectives (`Chain`), so that what is true of reading
chains is said once. A rule is sound for a phrase if what it reads is such a phrase, within the
limits (`Sound`). It is complete for a phrase if it reads every such phrase within the limits and
leaves exactly what follows (`Complete`); a chain is read as far as it goes, so a phrase that is a
chain must not be followed by a word that would continue it.

Both properties pass from the rule for operands to the rule for chains (`chain_sound`,
`chain_complete`), and from the terms inside to the terms around them (`termAround_sound`,
`termAround_complete`). Induction on the number of groups and negations that may be open gives them
for `term`, and `read_eq_ok_iff` puts the whole together.
-/

set_option autoImplicit false

namespace PropertyFilter.Expression

/-! ### Looking ahead of `not` -/

theorem isSome_ofLexeme?_iff (l : Lexeme) :
    (Operator.ofLexeme? l).isSome = true ↔ IsOperator l := by
  cases l with
  | word word =>
    rw [Option.isSome_iff_exists]
    simp [Operator.ofLexeme?, IsOperator, Operator.ofWord?_eq_some_iff]
  | _ => simp [Operator.ofLexeme?, IsOperator]

instance (l : Lexeme) : Decidable (IsOperator l) :=
  decidable_of_iff _ (isSome_ofLexeme?_iff l)

theorem namesProperty_cons_iff (l : Lexeme) (rest : List Lexeme) :
    NamesProperty (l :: rest) ↔ IsOperator l ∧ ∀ m ∈ rest.head?, ¬ IsOperator m := by
  constructor
  · rintro ⟨_, _, heq, hoperator, hother⟩
    cases heq
    exact ⟨hoperator, hother⟩
  · rintro ⟨hoperator, hother⟩
    exact ⟨l, rest, rfl, hoperator, hother⟩

theorem not_namesProperty_nil : ¬ NamesProperty [] := by
  rintro ⟨_, _, heq, -⟩
  cases heq

instance (following : List Lexeme) : Decidable (NamesProperty following) :=
  match following with
  | [] => isFalse not_namesProperty_nil
  | l :: rest => decidable_of_iff _ (namesProperty_cons_iff l rest).symm

theorem beginsWithOperator_iff (tokens : List Token) :
    beginsWithOperator tokens = true ↔ ∃ l ∈ (lexemes tokens).head?, IsOperator l := by
  cases tokens with
  | nil => simp [beginsWithOperator]
  | cons token tokens => simp [beginsWithOperator, isSome_ofLexeme?_iff]

theorem beginsNegation_iff (token : Token) (tokens : List Token) :
    beginsNegation (token :: tokens) = true ↔
      token.lexeme.isWord "not" = true ∧ ¬ NamesProperty (lexemes tokens) := by
  have hnames : (beginsWithOperator tokens && !beginsWithOperator (tokens.drop 1)) = true ↔
      NamesProperty (lexemes tokens) := by
    rw [Bool.and_eq_true, Bool.not_eq_true', ← Bool.not_eq_true, beginsWithOperator_iff,
      beginsWithOperator_iff, lexemes_drop]
    cases tokens with
    | nil => simpa using not_namesProperty_nil
    | cons next rest => simp [namesProperty_cons_iff]
  rw [beginsNegation, Bool.and_eq_true, Bool.not_eq_true', ← Bool.not_eq_true, hnames]

/-! ### Chains -/

/-- Operands joined by a word, from the left. -/
inductive Chain (word : String) (join : Filter → Filter → Filter)
    (Operand : Nat → List Lexeme → List Lexeme → Filter → Prop) :
    Nat → List Lexeme → List Lexeme → Filter → Prop
  | first {depth : Nat} {ls rest : List Lexeme} {f : Filter} (h : Operand depth ls rest f) :
      Chain word join Operand depth ls rest f
  | next {depth depth' : Nat} {ls others rest : List Lexeme} {l : Lexeme} {f g : Filter}
      (hleft : Chain word join Operand depth ls (l :: others) f) (hword : l.isWord word = true)
      (hright : Operand depth' others rest g) :
      Chain word join Operand (max depth depth') ls rest (join f g)

theorem derives_conjunction_iff {depth : Nat} {ls rest : List Lexeme} {f : Filter} :
    Derives .conjunction depth ls rest f ↔
      Chain "and" .and (Derives .term) depth ls rest f := by
  constructor
  · intro h
    generalize hphrase : Phrase.conjunction = phrase at h
    induction h with
    | term h => exact .first h
    | and hleft hword hright ih => exact .next (ih rfl) hword hright
    | _ => simp at hphrase
  · intro h
    induction h with
    | first h => exact .term h
    | next hleft hword hright ih => exact .and ih hword hright

theorem derives_alternatives_iff {depth : Nat} {ls rest : List Lexeme} {f : Filter} :
    Derives .alternatives depth ls rest f ↔
      Chain "or" .or (Derives .conjunction) depth ls rest f := by
  constructor
  · intro h
    generalize hphrase : Phrase.alternatives = phrase at h
    induction h with
    | conjunction h => exact .first h
    | or hleft hword hright ih => exact .next (ih rfl) hword hright
    | _ => simp at hphrase
  · intro h
    induction h with
    | first h => exact .conjunction h
    | next hleft hword hright ih => exact .or ih hword hright

theorem limited_eq_ok_iff (token : Token) (f g : Filter) :
    limited token f = .ok g ↔ f = g ∧ g.height ≤ maxHeight := by
  unfold limited
  by_cases h : f.height ≤ maxHeight
  · rw [if_pos h, Except.ok.injEq]
    constructor
    · intro heq
      exact ⟨heq, heq ▸ h⟩
    · exact And.left
  · rw [if_neg h]
    constructor
    · intro heq
      simp [fail] at heq
    · rintro ⟨rfl, hheight⟩
      exact absurd hheight h

/-! ### What is read is a phrase -/

/-- What the rule reads is a phrase in which at most so many groups and negations are open, and
whose tree is not too high. -/
def Sound (Phrase : Nat → List Lexeme → List Lexeme → Filter → Prop) (budget : Nat)
    (rule : Rule Filter) : Prop :=
  ∀ tokens, (∀ l ∈ lexemes tokens, l.IsLawful) → ∀ f used, rule tokens = .ok (f, used) →
    f.height ≤ maxHeight ∧
      ∃ depth ≤ budget, Phrase depth (lexemes tokens) (lexemes (tokens.drop used)) f

theorem isLawful_drop {tokens : List Token} (hlawful : ∀ l ∈ lexemes tokens, l.IsLawful)
    (used : Nat) : ∀ l ∈ lexemes (tokens.drop used), l.IsLawful := by
  intro l hl
  rw [lexemes_drop] at hl
  exact hlawful l (List.mem_of_mem_drop hl)

theorem isLawful_tail {token : Token} {tokens : List Token}
    (hlawful : ∀ l ∈ lexemes (token :: tokens), l.IsLawful) :
    ∀ l ∈ lexemes tokens, l.IsLawful := by
  intro l hl
  exact hlawful l (List.mem_cons_of_mem _ hl)

section Chains

variable {word : String} {join : Filter → Filter → Filter} {operand : Rule Filter}
  {Operand : Nat → List Lexeme → List Lexeme → Filter → Prop} {budget : Nat}

/-- The operands that are read after a chain extend it. -/
theorem chainFrom_sound (hoperand : Sound Operand budget operand) {ls : List Lexeme}
    (left : Filter) (tokens : List Token) (hlawful : ∀ l ∈ lexemes tokens, l.IsLawful)
    (hleft : ∃ depth ≤ budget, Chain word join Operand depth ls (lexemes tokens) left)
    (hheight : left.height ≤ maxHeight) {f : Filter} {more : Nat}
    (h : chainFrom word join operand left tokens = .ok (f, more)) :
    f.height ≤ maxHeight ∧ ∃ depth ≤ budget,
      Chain word join Operand depth ls (lexemes (tokens.drop more)) f := by
  induction left, tokens using chainFrom.induct word generalizing f more with
  | case1 left =>
    rw [chainFrom] at h
    cases h
    exact ⟨hheight, hleft⟩
  | case2 left token tail hword ih =>
    rw [chainFrom, if_pos hword, bind_eq_ok_iff] at h
    obtain ⟨⟨right, used⟩, hright, h⟩ := h
    rw [bind_eq_ok_iff] at h
    obtain ⟨joined, hjoined, h⟩ := h
    rw [bind_eq_ok_iff] at h
    obtain ⟨⟨filter, more'⟩, hmore, h⟩ := h
    cases h
    obtain ⟨rfl, hjoinedHeight⟩ := (limited_eq_ok_iff _ _ _).mp hjoined
    have htail := isLawful_tail hlawful
    obtain ⟨-, depth', hdepth', hright⟩ := hoperand tail htail right used hright
    obtain ⟨depth, hdepth, hchain⟩ := hleft
    have hjoin := ih used (join left right) (isLawful_drop htail used)
      ⟨max depth depth', by omega, .next hchain hword hright⟩ hjoinedHeight hmore
    have hdrop : (token :: tail).drop (1 + used + more') = tail.drop (used + more') := by
      rw [Nat.add_assoc, Nat.add_comm 1, List.drop_succ_cons]
    rwa [List.drop_drop, ← hdrop] at hjoin
  | case3 left token tail hword =>
    rw [chainFrom, if_neg hword] at h
    cases h
    exact ⟨hheight, hleft⟩

theorem chain_sound (hoperand : Sound Operand budget operand) :
    Sound (Chain word join Operand) budget (chain word join operand) := by
  intro tokens hlawful f used h
  rw [chain, bind_eq_ok_iff] at h
  obtain ⟨⟨left, taken⟩, hleft, h⟩ := h
  rw [bind_eq_ok_iff] at h
  obtain ⟨⟨filter, more⟩, hmore, h⟩ := h
  cases h
  obtain ⟨hheight, depth, hdepth, hleft⟩ := hoperand tokens hlawful left taken hleft
  have hchain := chainFrom_sound hoperand left (tokens.drop taken) (isLawful_drop hlawful taken)
    ⟨depth, hdepth, .first hleft⟩ hheight hmore
  rwa [List.drop_drop] at hchain

end Chains

theorem alternatives_sound {budget : Nat} {term : Rule Filter}
    (hterm : Sound (Derives .term) budget term) :
    Sound (Derives .alternatives) budget (alternatives term) := by
  have hconjunction : Sound (Derives .conjunction) budget (chain "and" .and term) := by
    intro tokens hlawful f used h
    simp only [derives_conjunction_iff]
    exact chain_sound hterm tokens hlawful f used h
  intro tokens hlawful f used h
  simp only [derives_alternatives_iff]
  exact chain_sound hconjunction tokens hlawful f used h

/-- What is left of a group is alternatives and the parenthesis that closes it. -/
theorem group_sound {budget : Nat} {inner : Rule Filter}
    (hinner : Sound (Derives .term) budget inner) (opened : Position) {tokens : List Token}
    (hlawful : ∀ l ∈ lexemes tokens, l.IsLawful) {f : Filter} {used : Nat}
    (h : group inner opened tokens = .ok (f, used)) :
    f.height ≤ maxHeight ∧ ∃ depth ≤ budget, Derives .alternatives depth (lexemes tokens)
      (.closeParen :: lexemes (tokens.drop used)) f := by
  rw [group, bind_eq_ok_iff] at h
  obtain ⟨⟨filter, taken⟩, hread, h⟩ := h
  obtain ⟨hheight, depth, hdepth, hphrase⟩ := alternatives_sound hinner tokens hlawful _ _ hread
  cases hrest : tokens.drop taken with
  | nil => simp [hrest, ended] at h
  | cons token rest =>
    simp only [hrest] at h
    split at h
    · next hclose =>
      cases h
      rw [hrest, lexemes_cons, hclose] at hphrase
      have htail : rest = tokens.drop (taken + 1) := by
        rw [← List.drop_drop, hrest, List.drop_one, List.tail_cons]
      exact ⟨hheight, depth, hdepth, htail ▸ hphrase⟩
    · simp [fail] at h

theorem termAround_sound {budget : Nat} {inner? : Option (Rule Filter)}
    (hinner : ∀ inner ∈ inner?, ∃ b, budget = b + 1 ∧ Sound (Derives .term) b inner) :
    Sound (Derives .term) budget (termAround inner?) := by
  intro tokens hlawful f used h
  cases tokens with
  | nil => simp [termAround, ended] at h
  | cons token tokens =>
    have htail := isLawful_tail hlawful
    simp only [termAround] at h
    split at h
    · next hnegation =>
      obtain ⟨hword, hnames⟩ := (beginsNegation_iff _ _).mp hnegation
      cases inner? with
      | none => simp [fail] at h
      | some inner =>
        obtain ⟨b, rfl, hsound⟩ := hinner inner rfl
        simp only [bind_eq_ok_iff] at h
        obtain ⟨⟨operand, taken⟩, hoperand, negated, hnegated, h⟩ := h
        cases h
        obtain ⟨rfl, hheight⟩ := (limited_eq_ok_iff _ _ _).mp hnegated
        obtain ⟨-, depth, hdepth, hphrase⟩ := hsound tokens htail _ _ hoperand
        exact ⟨hheight, depth + 1, by omega, .negation hword hnames hphrase⟩
    · next hnegation =>
      split at h
      · next hopen =>
        cases inner? with
        | none => simp [fail] at h
        | some inner =>
          obtain ⟨b, rfl, hsound⟩ := hinner inner rfl
          simp only [bind_eq_ok_iff] at h
          obtain ⟨⟨filter, taken⟩, hgroup, h⟩ := h
          cases h
          obtain ⟨hheight, depth, hdepth, hphrase⟩ := group_sound hsound token.first htail hgroup
          refine ⟨hheight, depth + 1, by omega, ?_⟩
          rw [lexemes_cons, hopen]
          exact .group hphrase
      · obtain ⟨property, own, t, hown, rfl, htokens⟩ := predicate_sound hlawful h
        refine ⟨by simp [Filter.height, maxHeight], 0, Nat.zero_le _, ?_⟩
        obtain ⟨hlexeme, hafter⟩ := List.cons.inj htokens
        rw [htokens]
        apply Derives.test hown
        intro hnot
        rw [beginsNegation_iff, hlexeme] at hnegation
        rw [← hafter]
        exact Classical.not_not.mp fun hnames ↦ hnegation ⟨hnot, hnames⟩

theorem term_sound (budget : Nat) : Sound (Derives .term) budget (term budget) := by
  induction budget with
  | zero => exact termAround_sound (by simp)
  | succ budget ih =>
    apply termAround_sound
    intro inner hinner
    cases hinner
    exact ⟨budget, rfl, ih⟩

/-! ### Every phrase is read -/

/-- Every phrase in which at most so many groups and negations are open, whose tree is not too high
and which none of the words follows is read as a whole. -/
def Complete (Phrase : Nat → List Lexeme → List Lexeme → Filter → Prop) (words : List String)
    (budget : Nat) (rule : Rule Filter) : Prop :=
  ∀ tokens, (∀ l ∈ lexemes tokens, l.IsLawful) → ∀ depth ≤ budget, ∀ rest f,
    Phrase depth (lexemes tokens) rest f → f.height ≤ maxHeight →
    (∀ l ∈ rest.head?, ∀ word ∈ words, l.isWord word = false) →
    ∃ used, rule tokens = .ok (f, used) ∧ lexemes (tokens.drop used) = rest

section Chains

variable {word : String} {join : Filter → Filter → Filter} {operand : Rule Filter}
  {Operand : Nat → List Lexeme → List Lexeme → Filter → Prop} {words : List String} {budget : Nat}

theorem chainFrom_of_not_isWord {tokens : List Token} {rest : List Lexeme}
    (htokens : lexemes tokens = rest) (hrest : ∀ l ∈ rest.head?, l.isWord word = false)
    (left : Filter) : chainFrom word join operand left tokens = .ok (left, 0) := by
  cases tokens with
  | nil => rw [chainFrom]
  | cons token tail =>
    have hword : token.lexeme.isWord word = false := hrest _ (by rw [← htokens]; rfl)
    rw [chainFrom, hword]
    rfl

/-- Reading from the start of a chain comes to its end, and goes on there with what follows. -/
theorem chain_eq_of_chain (hoperand : Complete Operand words budget operand)
    (hjoin : ∀ f g, max f.height g.height ≤ (join f g).height)
    (hwords : ∀ l : Lexeme, l.isWord word = true → ∀ other ∈ words, l.isWord other = false)
    {depth : Nat} {ls rest : List Lexeme} {f : Filter} (h : Chain word join Operand depth ls rest f)
    {tokens : List Token} (htokens : lexemes tokens = ls)
    (hlawful : ∀ l ∈ lexemes tokens, l.IsLawful) (hdepth : depth ≤ budget)
    (hheight : f.height ≤ maxHeight)
    (hrest : ∀ l ∈ rest.head?, ∀ other ∈ words, l.isWord other = false) :
    ∃ used, lexemes (tokens.drop used) = rest ∧
      chain word join operand tokens =
        (chainFrom word join operand f (tokens.drop used)).map fun (g, more) ↦
          (g, used + more) := by
  induction h with
  | @first depth ls rest f h =>
    subst htokens
    obtain ⟨used, hread, hused⟩ := hoperand tokens hlawful depth hdepth rest f h hheight hrest
    refine ⟨used, hused, ?_⟩
    rw [chain, hread]
    rfl
  | @next depth depth' ls others rest l f g hleft hword hright ih =>
    have hheights := hjoin f g
    obtain ⟨used, hused, hread⟩ := ih htokens (by omega) (by omega) fun l' hl' ↦ by
      rw [← Option.some.inj hl']
      exact hwords l hword
    obtain ⟨token, tail, hdrop, rfl, rfl⟩ := lexemes_eq_cons_iff.mp hused
    have htail : ∀ l ∈ lexemes tail, l.IsLawful := by
      have htoken := isLawful_drop hlawful used
      rw [hdrop] at htoken
      exact isLawful_tail htoken
    obtain ⟨taken, hoperandRead, htaken⟩ :=
      hoperand tail htail depth' (by omega) rest g hright (by omega) hrest
    have hlimited := (limited_eq_ok_iff token (join f g) (join f g)).mpr ⟨rfl, hheight⟩
    have hafter : tokens.drop (used + (1 + taken)) = tail.drop taken := by
      rw [← List.drop_drop, hdrop, Nat.add_comm 1, List.drop_succ_cons]
    refine ⟨used + (1 + taken), by rw [hafter, htaken], ?_⟩
    rw [hread, hdrop, chainFrom, if_pos hword, hoperandRead, hafter]
    simp only [bind, Except.bind, hlimited]
    cases chainFrom word join operand (join f g) (tail.drop taken) with
    | error failure => rfl
    | ok read =>
      simp only [Except.map, pure, Except.pure, Except.ok.injEq, Prod.mk.injEq, true_and]
      omega

theorem chain_complete (hoperand : Complete Operand words budget operand)
    (hjoin : ∀ f g, max f.height g.height ≤ (join f g).height)
    (hwords : ∀ l : Lexeme, l.isWord word = true → ∀ other ∈ words, l.isWord other = false) :
    Complete (Chain word join Operand) (word :: words) budget (chain word join operand) := by
  intro tokens hlawful depth hdepth rest f h hheight hrest
  obtain ⟨used, hused, hread⟩ := chain_eq_of_chain hoperand hjoin hwords h rfl hlawful hdepth
    hheight fun l hl other hother ↦ hrest l hl other (List.mem_cons_of_mem _ hother)
  refine ⟨used, ?_, hused⟩
  rw [hread, chainFrom_of_not_isWord hused fun l hl ↦ hrest l hl word List.mem_cons_self]
  rfl

end Chains

theorem isWord_and_of_isWord_or (l : Lexeme) (h : l.isWord "or" = true) :
    l.isWord "and" = false := by
  cases l with
  | word name => exact alike_false_of_alike h "and" (by decide)
  | _ => rfl

theorem alternatives_complete {budget : Nat} {term : Rule Filter}
    (hterm : Complete (Derives .term) [] budget term) :
    Complete (Derives .alternatives) ["or", "and"] budget (alternatives term) := by
  have hconjunction : Complete (Derives .conjunction) ["and"] budget (chain "and" .and term) := by
    intro tokens hlawful depth hdepth rest f h
    rw [derives_conjunction_iff] at h
    refine chain_complete hterm (fun f g ↦ ?_) (by simp) tokens hlawful depth hdepth rest f h
    simp [Filter.height]
  intro tokens hlawful depth hdepth rest f h
  rw [derives_alternatives_iff] at h
  refine chain_complete hconjunction (fun f g ↦ ?_) (fun l hl ↦ ?_) tokens hlawful depth hdepth
    rest f h
  · simp [Filter.height]
  · simpa using isWord_and_of_isWord_or l hl

theorem group_complete {budget : Nat} {inner : Rule Filter}
    (hinner : Complete (Derives .term) [] budget inner) (opened : Position) {tokens : List Token}
    (hlawful : ∀ l ∈ lexemes tokens, l.IsLawful) {depth : Nat} (hdepth : depth ≤ budget)
    {rest : List Lexeme} {f : Filter}
    (h : Derives .alternatives depth (lexemes tokens) (.closeParen :: rest) f)
    (hheight : f.height ≤ maxHeight) :
    ∃ used, group inner opened tokens = .ok (f, used) ∧ lexemes (tokens.drop used) = rest := by
  obtain ⟨used, hread, hused⟩ := alternatives_complete hinner tokens hlawful depth hdepth
    (.closeParen :: rest) f h hheight fun l hl word _ ↦ by rw [← Option.some.inj hl]; rfl
  obtain ⟨token, tail, hdrop, hclose, rfl⟩ := lexemes_eq_cons_iff.mp hused
  refine ⟨used + 1, ?_, ?_⟩
  · rw [group, hread]
    simp only [bind, Except.bind, hdrop, if_pos hclose]
    rfl
  · rw [← List.drop_drop, hdrop, List.drop_one, List.tail_cons]

theorem termAround_complete {budget : Nat} {inner? : Option (Rule Filter)}
    (hinner : ∀ b, budget = b + 1 → ∃ inner, inner? = some inner ∧
      Complete (Derives .term) [] b inner) :
    Complete (Derives .term) [] budget (termAround inner?) := by
  intro tokens hlawful depth hdepth rest f h hheight _
  generalize htokens : lexemes tokens = ls at h
  cases h with
  | @test property own _ t hown hnot =>
    have hread := predicate_complete hlawful hown htokens
    obtain ⟨token, tail, rfl, hlexeme, htail⟩ := lexemes_eq_cons_iff.mp htokens
    refine ⟨own.length + 1, ?_, ?_⟩
    · have hnegation : beginsNegation (token :: tail) = false := by
        rw [← Bool.not_eq_true, beginsNegation_iff, hlexeme, htail]
        exact fun ⟨hword, hnames⟩ ↦ hnames (hnot hword)
      simp only [termAround, hnegation, hlexeme, hread, reduceCtorEq, Bool.false_eq_true, if_false]
    · rw [List.drop_succ_cons, lexemes_drop_of_append htail]
  | @negation l ls rest depth f hword hnot h =>
    obtain ⟨token, tail, rfl, rfl, rfl⟩ := lexemes_eq_cons_iff.mp htokens
    obtain ⟨b, rfl⟩ : ∃ b, budget = b + 1 := ⟨budget - 1, by omega⟩
    obtain ⟨inner, rfl, hcomplete⟩ := hinner b rfl
    have htail := isLawful_tail hlawful
    have hlower : f.height ≤ maxHeight := Nat.le_of_succ_le hheight
    obtain ⟨used, hread, hused⟩ :=
      hcomplete tail htail depth (by omega) rest f h hlower (by simp)
    have hnegation := (beginsNegation_iff token tail).mpr ⟨hword, hnot⟩
    have hlimited := (limited_eq_ok_iff token (.not f) (.not f)).mpr ⟨rfl, hheight⟩
    refine ⟨used + 1, ?_, hused⟩
    rw [termAround, if_pos hnegation]
    simp only [hread, bind, Except.bind, hlimited]
    rfl
  | @group ls rest depth f h =>
    obtain ⟨token, tail, rfl, hopen, rfl⟩ := lexemes_eq_cons_iff.mp htokens
    obtain ⟨b, rfl⟩ : ∃ b, budget = b + 1 := ⟨budget - 1, by omega⟩
    obtain ⟨inner, rfl, hcomplete⟩ := hinner b rfl
    have htail := isLawful_tail hlawful
    obtain ⟨used, hread, hused⟩ :=
      group_complete hcomplete token.first htail (by omega) h hheight
    have hnegation : beginsNegation (token :: tail) = false := by
      rw [beginsNegation, hopen]
      rfl
    refine ⟨used + 1, ?_, hused⟩
    rw [termAround, if_neg (by simp [hnegation]), if_pos hopen]
    simp only [hread, bind, Except.bind]
    rfl

theorem term_complete (budget : Nat) : Complete (Derives .term) [] budget (term budget) := by
  induction budget with
  | zero => exact termAround_complete (by simp)
  | succ budget ih =>
    apply termAround_complete
    intro b hb
    cases hb
    exact ⟨_, rfl, ih⟩

/-! ### Whole expressions -/

/-- A row of lawful tokens is read as a filter exactly if it is an expression for that filter. -/
theorem read_eq_ok_iff {tokens : List Token} (hlawful : ∀ l ∈ lexemes tokens, l.IsLawful)
    (f : Filter) : read tokens = .ok f ↔ IsExpression (lexemes tokens) f := by
  constructor
  · intro h
    rw [read] at h
    split at h
    · cases h
    · rw [bind_eq_ok_iff] at h
      obtain ⟨⟨filter, used⟩, hread, h⟩ := h
      obtain ⟨hheight, depth, hdepth, hphrase⟩ :=
        alternatives_sound (term_sound maxNesting) tokens hlawful _ _ hread
      cases hrest : tokens.drop used with
      | nil =>
        simp only [hrest] at h
        cases h
        rw [hrest] at hphrase
        exact ⟨⟨depth, hdepth, hphrase⟩, hheight⟩
      | cons token rest => simp [hrest, fail] at h
  · rintro ⟨⟨depth, hdepth, hphrase⟩, hheight⟩
    obtain ⟨used, hread, hused⟩ := alternatives_complete (term_complete maxNesting) tokens hlawful
      depth hdepth [] f hphrase hheight (by simp)
    rw [List.map_eq_nil_iff] at hused
    have hsome : tokens.isEmpty = false := by
      cases tokens with
      | nil =>
        have hnone : alternatives (term maxNesting) [] = ended .property := rfl
        simp [hnone, ended] at hread
      | cons token tail => rfl
    rw [read, hsome, hread]
    simp only [Bool.false_eq_true, if_false, bind, Except.bind, hused]
    rfl

end PropertyFilter.Expression
