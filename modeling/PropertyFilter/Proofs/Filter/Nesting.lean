import PropertyFilter.Proofs.Filter.Layout

/-!
# Laid out filters that are nested too deep are not parsed

`Filter.parse_layout` says that a laid out filter is parsed if it keeps to the limit on nesting.
Here is the converse (`Filter.exists_parse_layout_iff`): there is no other way to derive what is
laid out, with fewer groups and negations open. `Delimits` says of a row of lexemes that every
phrase which begins with it ends with it and nests at least so deep. It is shown for each form of a
laid out tree. A derivation of a chain grows to the left, so the first operand of a chain is brought
out before (`Chain.exists_first`).
-/

set_option autoImplicit false

namespace PropertyFilter

namespace Expression

/-! ### Rows of lexemes that nest at least so deep -/

/-- If neither an operator nor any of the words comes next, then a phrase that begins with these
lexemes, and that none of the words continues, ends with them and nests at least so deep. -/
def Delimits (Phrase : Nat → List Lexeme → List Lexeme → Filter → Prop) (words : List String)
    (least : Nat) (ls : List Lexeme) : Prop :=
  ∀ rest rest', (∀ l ∈ rest.head?, ¬ IsOperator l ∧ ∀ word ∈ words, l.isWord word = false) →
    (∀ l ∈ rest'.head?, ∀ word ∈ words, l.isWord word = false) →
    ∀ depth f, Phrase depth (ls ++ rest) rest' f → least ≤ depth ∧ rest' = rest

section Chains

variable {word : String} {join : Filter → Filter → Filter}
  {Operand : Nat → List Lexeme → List Lexeme → Filter → Prop} {words : List String}

/-- A chain is its first operand, or goes on after it with the word and another chain. -/
theorem Chain.exists_first {depth : Nat} {ls rest : List Lexeme} {f : Filter}
    (h : Chain word join Operand depth ls rest f) :
    ∃ d ≤ depth, ∃ after g, Operand d ls after g ∧ (after = rest ∨
      ∃ l others, after = l :: others ∧ l.isWord word = true ∧
        ∃ d' ≤ depth, ∃ g', Chain word join Operand d' others rest g') := by
  induction h with
  | first h => exact ⟨_, Nat.le_refl _, _, _, h, .inl rfl⟩
  | @next depth depth' ls others rest l f g hleft hword hright ih =>
    obtain ⟨d, hd, after, first, hfirst, hafter⟩ := ih
    refine ⟨d, by omega, after, first, hfirst, .inr ?_⟩
    rcases hafter with rfl | ⟨l', others', rfl, hword', d', hd', g', hchain⟩
    · exact ⟨l, others, rfl, hword, depth', by omega, g, .first hright⟩
    · exact ⟨l', others', rfl, hword', max d' depth', by omega, _, .next hchain hword hright⟩

/-- A chain of one operand. -/
theorem Delimits.first (hwords : ∀ l : Lexeme, l.isWord word = true → ∀ other ∈ words,
      l.isWord other = false) {least : Nat} {ls : List Lexeme}
    (h : Delimits Operand words least ls) :
    Delimits (Chain word join Operand) (word :: words) least ls := by
  intro rest rest' hrest hrest' depth f hchain
  simp only [List.forall_mem_cons] at hrest hrest'
  have hfollow : ∀ l ∈ rest.head?, ¬ IsOperator l ∧ ∀ other ∈ words, l.isWord other = false :=
    fun l hl ↦ ⟨(hrest l hl).1, (hrest l hl).2.2⟩
  obtain ⟨d, hd, after, g, hfirst, hafter⟩ := hchain.exists_first
  rcases hafter with rfl | ⟨l, others, rfl, hword, -⟩
  · obtain ⟨hleast, rfl⟩ := h rest after hfollow (fun l hl ↦ (hrest' l hl).2) d g hfirst
    exact ⟨by omega, rfl⟩
  · have hnext : ∀ m ∈ (l :: others).head?, ∀ other ∈ words, m.isWord other = false := by
      intro m hm
      cases hm
      exact hwords l hword
    obtain ⟨-, rfl⟩ := h rest (l :: others) hfollow hnext d g hfirst
    rw [(hrest l rfl).2.1] at hword
    cases hword

/-- A chain of two operands. -/
theorem Delimits.pair (hwords : ∀ l : Lexeme, l.isWord word = true → ∀ other ∈ words,
      l.isWord other = false) {least least' : Nat} {ls ls' : List Lexeme} {l : Lexeme}
    (hl : l.isWord word = true) (hoperator : ¬ IsOperator l)
    (h : Delimits Operand words least ls) (h' : Delimits Operand words least' ls') :
    Delimits (Chain word join Operand) (word :: words) (max least least') (ls ++ l :: ls') := by
  intro rest rest' hrest hrest' depth f hchain
  rw [List.append_assoc, List.cons_append] at hchain
  have hfollow : ∀ m ∈ (l :: (ls' ++ rest)).head?, ¬ IsOperator m ∧
      ∀ other ∈ words, m.isWord other = false := by
    intro m hm
    cases hm
    exact ⟨hoperator, hwords l hl⟩
  obtain ⟨d, hd, after, g, hfirst, hafter⟩ := hchain.exists_first
  rcases hafter with rfl | ⟨m, others, rfl, hm, d', hd', g', hothers⟩
  · have hnext : ∀ m ∈ after.head?, ∀ other ∈ words, m.isWord other = false :=
      fun m hm other hother ↦ hrest' m hm other (List.mem_cons_of_mem _ hother)
    obtain ⟨-, rfl⟩ := h _ after hfollow hnext d g hfirst
    rw [hrest' l rfl word List.mem_cons_self] at hl
    cases hl
  · have hnext : ∀ k ∈ (m :: others).head?, ∀ other ∈ words, k.isWord other = false := by
      intro k hk
      cases hk
      exact hwords m hm
    obtain ⟨hleast, heq⟩ := h _ (m :: others) hfollow hnext d g hfirst
    obtain ⟨rfl, rfl⟩ := List.cons.inj heq
    obtain ⟨hleast', rfl⟩ := h'.first hwords rest rest' hrest hrest' d' g' hothers
    exact ⟨by omega, rfl⟩

end Chains

theorem derives_conjunction_eq :
    Derives .conjunction = Chain "and" .and (Derives .term) := by
  funext depth ls rest f
  exact propext derives_conjunction_iff

theorem derives_alternatives_eq :
    Derives .alternatives = Chain "or" .or (Derives .conjunction) := by
  funext depth ls rest f
  exact propext derives_alternatives_iff

theorem isWord_and_of_isWord_or_mem (l : Lexeme) (h : l.isWord "or" = true) :
    ∀ other ∈ ["and"], l.isWord other = false := by
  simpa using isWord_and_of_isWord_or l h

section Terms

variable {least least' : Nat} {ls ls' : List Lexeme}

/-- A term alone is a conjunction. -/
theorem Delimits.conjunction (h : Delimits (Derives .term) [] least ls) :
    Delimits (Derives .conjunction) ["and"] least ls := by
  rw [derives_conjunction_eq]
  exact h.first (by simp)

/-- A conjunction alone is alternatives. -/
theorem Delimits.alternatives (h : Delimits (Derives .conjunction) ["and"] least ls) :
    Delimits (Derives .alternatives) ["or", "and"] least ls := by
  rw [derives_alternatives_eq]
  exact h.first isWord_and_of_isWord_or_mem

theorem Delimits.group (h : Delimits (Derives .alternatives) ["or", "and"] least ls) :
    Delimits (Derives .term) [] (least + 1) (.openParen :: (ls ++ [.closeParen])) := by
  intro rest rest' _ _ depth f hterm
  rw [List.cons_append, List.append_assoc] at hterm
  cases hterm with
  | negation hword => cases hword
  | group hinner =>
    obtain ⟨hleast, heq⟩ := h (.closeParen :: rest) (.closeParen :: rest')
      (by simp [IsOperator, Lexeme.isWord]) (by simp [Lexeme.isWord]) _ _ hinner
    exact ⟨by omega, (List.cons.inj heq).2⟩

theorem Delimits.and (h : Delimits (Derives .term) [] least ls)
    (h' : Delimits (Derives .term) [] least' ls') :
    Delimits (Derives .term) [] (max least least' + 1)
      (.openParen :: (ls ++ .word "and" :: ls' ++ [.closeParen])) := by
  have hpair : Delimits (Derives .conjunction) ["and"] (max least least')
      (ls ++ .word "and" :: ls') := by
    rw [derives_conjunction_eq]
    exact h.pair (by simp) (by decide) (by decide) h'
  exact hpair.alternatives.group

theorem Delimits.or (h : Delimits (Derives .term) [] least ls)
    (h' : Delimits (Derives .term) [] least' ls') :
    Delimits (Derives .term) [] (max least least' + 1)
      (.openParen :: (ls ++ .word "or" :: ls' ++ [.closeParen])) := by
  have hpair : Delimits (Derives .alternatives) ["or", "and"] (max least least')
      (ls ++ .word "or" :: ls') := by
    rw [derives_alternatives_eq]
    exact h.conjunction.pair isWord_and_of_isWord_or_mem (by decide) (by decide) h'.conjunction
  exact hpair.group

/-- Two ways to ask that begin alike are one. -/
theorem asked_append_inj {own own' rest rest' : List Lexeme} {t t' : Test} (h : Asked own t)
    (h' : Asked own' t') (heq : own ++ rest = own' ++ rest') : own = own' ∧ rest = rest' := by
  have htokens : lexemes ((own ++ rest).map fun l ↦ ⟨l, .start, .start⟩) = own ++ rest := by
    simp [lexemes, Function.comp_def]
  have hread : asked "" _ = .ok (t, own.length) := asked_complete h htokens
  rw [asked_complete h' (htokens.trans heq), Except.ok.injEq, Prod.mk.injEq] at hread
  exact List.append_inj heq hread.2.symm

/-- After a negation comes no way to ask, so what is negated is a term. -/
theorem Delimits.not (h : Delimits (Derives .term) [] least (.openParen :: ls)) :
    Delimits (Derives .term) [] (least + 1) (.word "not" :: .openParen :: ls) := by
  intro rest rest' hrest hrest' depth f hterm
  generalize hwhole : Lexeme.word "not" :: .openParen :: ls ++ rest = whole at hterm
  cases hterm with
  | @test property own _ t hasked =>
    obtain ⟨word, operator, operands, -, rfl, -⟩ := asked_cases hasked
    simp at hwhole
  | negation hword hnot hoperand =>
    obtain ⟨rfl, rfl⟩ := List.cons.inj hwhole
    obtain ⟨hleast, rfl⟩ := h rest rest' hrest hrest' _ _ hoperand
    exact ⟨by omega, rfl⟩
  | group => cases hwhole

theorem delimits_test {property : String} {own : List Lexeme} {t : Test} (h : Asked own t) :
    Delimits (Derives .term) [] 0 (.word property :: own) := by
  intro rest rest' hrest _ depth f hterm
  refine ⟨Nat.zero_le _, ?_⟩
  generalize hwhole : Lexeme.word property :: own ++ rest = whole at hterm
  cases hterm with
  | test hasked =>
    obtain ⟨-, hown⟩ := List.cons.inj hwhole
    exact (asked_append_inj h hasked hown).2.symm
  | negation hword hnot =>
    obtain ⟨-, rfl⟩ := List.cons.inj hwhole
    exact absurd (namesProperty_of_asked h fun l hl ↦ (hrest l hl).1) hnot
  | group => cases hwhole

end Terms

end Expression

namespace Filter

open Expression

theorem LaidOut.delimits {f : Filter} {ls : List Lexeme} (h : LaidOut f ls) :
    Delimits (Derives .term) [] f.nesting ls := by
  induction h with
  | and _ _ hleft hright => exact hleft.and hright
  | or _ _ hleft hright => exact hleft.or hright
  | not _ h => exact h.conjunction.alternatives.group.not
  | test h => exact delimits_test h

/-- A laid out filter is parsed exactly if it is not nested too deep. -/
theorem exists_parse_layout_iff {asked : Test → List Char} {change : Test → Test} {f : Filter}
    (hnames : ∀ p ∈ f.tests, Lexeme.IsName p.1.toList)
    (hasked : ∀ p ∈ f.tests, AsksFor (asked p.2) (change p.2)) :
    (∃ g, parse (String.ofList (f.layout asked)) = .ok g) ↔ f.nesting ≤ 256 := by
  constructor
  · rintro ⟨g, hparse⟩
    obtain ⟨ls, hwrites, hlaidOut⟩ := exists_laidOut_layout hnames hasked
    rw [parse_eq_ok_iff_of_writes hwrites] at hparse
    obtain ⟨⟨depth, hdepth, hderives⟩, -⟩ := hparse
    rw [← List.append_nil ls] at hderives
    obtain ⟨hleast, -⟩ := hlaidOut.delimits.conjunction.alternatives [] [] (by simp) (by simp) _ _
      hderives
    rw [nesting_mapTests] at hleast
    omega
  · intro hnesting
    exact ⟨_, parse_layout hnames hasked hnesting⟩

end Filter

end PropertyFilter
