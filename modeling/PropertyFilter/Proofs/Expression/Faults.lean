import PropertyFilter.Proofs.Lexeme.Literals
import PropertyFilter.Proofs.Token.Faults

/-!
# Faults of expressions and their places

Every rule lays its faults to tokens that it was given, or to the end of the text; `Laid all result`
says so of what a rule answers. A rule made of others lays its faults to tokens if these do
(`Laid.bind`), so there is one short lemma for each rule, by induction where the rule is recursive,
and `laid_read` for a whole row of tokens.

So the place of a fault lies between characters of the text, wherever the fault arose, and its line
and its column lead to it (`LocatedFault`, `parse_faults_located`).
-/

set_option autoImplicit false

namespace PropertyFilter

namespace Expression

variable {α β : Type} {all : List Token}

/-- The fault is laid to one of the tokens, or to the end of the text; and a parenthesis that it
says was opened is one of them. -/
structure Failure.LaidTo (failure : Failure) (all : List Token) : Prop where
  place : ∀ place ∈ failure.place?, ∃ t ∈ all, place = t.first
  opened : ∀ opened found, failure.fault = .unclosed opened found → ∃ t ∈ all, opened = t.first

/-- A failure, if this is one, is laid to the tokens. -/
def Laid (all : List Token) (result : Except Failure α) : Prop :=
  ∀ failure, result = .error failure → failure.LaidTo all

theorem laid_ok (a : α) : Laid all (.ok a : Except Failure α) := nofun

theorem Laid.bind {first : Except Failure α} {next : α → Except Failure β} (h : Laid all first)
    (hnext : ∀ a, Laid all (next a)) : Laid all (first >>= next) := by
  cases first with
  | error failure => exact fun _ heq ↦ h _ (congrArg Except.error (Except.error.inj heq))
  | ok a => exact hnext a

theorem laid_ended (wanted : Wanted) : Laid all (ended wanted : Except Failure α) := by
  rintro _ ⟨⟩
  exact ⟨nofun, nofun⟩

/-- A fault that opens no parenthesis may be laid to any of the tokens. -/
theorem laid_fail {fault : Fault} {token : Token} (ht : token ∈ all)
    (hfault : ∀ opened found, fault ≠ .unclosed opened found) :
    Laid all (fail fault token : Except Failure α) := by
  rintro _ ⟨⟩
  refine ⟨?_, fun opened found h ↦ absurd h (hfault opened found)⟩
  rintro _ ⟨⟩
  exact ⟨token, ht, rfl⟩

/-! ### Tests -/

variable {tokens : List Token}

theorem laid_optionalValue (operator : String) (h : tokens ⊆ all) :
    Laid all (optionalValue operator tokens) := by
  cases tokens with
  | nil => exact laid_ended _
  | cons token rest =>
    rw [optionalValue]
    split
    · exact laid_ok _
    · exact laid_fail (h List.mem_cons_self) (by simp)

theorem laid_value (operator : String) {absent : Fault}
    (habsent : ∀ opened found, absent ≠ .unclosed opened found) (h : tokens ⊆ all) :
    Laid all (value operator absent tokens) := by
  cases tokens with
  | nil => exact laid_ended _
  | cons token rest =>
    rw [value]
    split
    · exact laid_ok _
    · exact laid_fail (h List.mem_cons_self) habsent
    · exact laid_fail (h List.mem_cons_self) (by simp)

theorem laid_pattern (operator : String) (h : tokens ⊆ all) :
    Laid all (pattern operator tokens) := by
  cases tokens with
  | nil => exact laid_ended _
  | cons token rest =>
    have ht : token ∈ all := h List.mem_cons_self
    rw [pattern]
    split
    · exact laid_ok _
    · split
      · exact laid_ok _
      all_goals exact laid_fail ht (by simp)

theorem laid_items (operator : String) (close : Lexeme) (h : tokens ⊆ all) :
    Laid all (items operator close tokens) := by
  induction tokens using items.induct with
  | case1 => exact laid_ended _
  | case2 token tokens ih =>
    rw [items]
    refine (laid_value operator (by simp) h).bind fun first ↦ ?_
    cases tokens with
    | nil => exact laid_ended _
    | cons separator rest =>
      obtain ⟨-, hseparator, hrest⟩ : token ∈ all ∧ separator ∈ all ∧ rest ⊆ all := by
        simpa [List.cons_subset] using h
      dsimp only
      split
      · exact (ih hrest).bind fun _ ↦ laid_ok _
      · split
        · exact laid_ok _
        · exact laid_fail hseparator (by simp)

theorem laid_values (operator : String) (h : tokens ⊆ all) :
    Laid all (values operator tokens) := by
  cases tokens with
  | nil => exact laid_ended _
  | cons opened tokens =>
    obtain ⟨hopened, htokens⟩ := List.cons_subset.mp h
    rw [values]
    split
    · exact laid_fail hopened (by simp)
    · split
      · exact laid_ended _
      · next token rest =>
        split
        · exact laid_fail (htokens List.mem_cons_self) (by simp)
        · exact (laid_items operator _ htokens).bind fun _ ↦ laid_ok _

theorem laid_operand (word : String) (h : tokens ⊆ all) (operator : Operator) :
    Laid all (operand word tokens operator) := by
  cases operator with
  | present => exact laid_ok _
  | oneOf => exact (laid_values word h).bind fun _ ↦ laid_ok _
  | equals => exact (laid_optionalValue word h).bind fun _ ↦ laid_ok _
  | differs => exact (laid_optionalValue word h).bind fun _ ↦ laid_ok _
  | ordered relation => exact (laid_value word (by simp) h).bind fun _ ↦ laid_ok _
  | text test => exact (laid_pattern word h).bind fun _ ↦ laid_ok _

theorem laid_asked (property : String) (h : tokens ⊆ all) :
    Laid all (asked property tokens) := by
  cases tokens with
  | nil => exact laid_ended _
  | cons token tokens =>
    obtain ⟨ht, htokens⟩ := List.cons_subset.mp h
    rw [asked]
    split
    · split
      · exact laid_fail ht (by simp)
      · exact (laid_operand _ htokens _).bind fun _ ↦ laid_ok _
    · exact laid_fail ht (by simp)

theorem laid_predicate (h : tokens ⊆ all) : Laid all (predicate tokens) := by
  cases tokens with
  | nil => exact laid_ended _
  | cons token tokens =>
    obtain ⟨ht, htokens⟩ := List.cons_subset.mp h
    rw [predicate]
    split
    · refine (laid_asked _ htokens).bind fun read ↦ ?_
      dsimp only
      split
      · exact laid_ok _
      · exact laid_fail ht (by simp)
    · exact laid_fail ht (by simp)

/-! ### Connectives -/

theorem laid_limited {token : Token} (ht : token ∈ all) (filter : Filter) :
    Laid all (limited token filter) := by
  unfold limited
  split
  · exact laid_ok _
  · exact laid_fail ht (by simp)

theorem laid_chainFrom (word : String) (join : Filter → Filter → Filter) {operand : Rule Filter}
    (hoperand : ∀ tokens ⊆ all, Laid all (operand tokens)) (left : Filter) (h : tokens ⊆ all) :
    Laid all (chainFrom word join operand left tokens) := by
  induction hlength : tokens.length using Nat.strongRecOn generalizing tokens left with
  | _ length ih =>
    cases tokens with
    | nil =>
      rw [chainFrom]
      exact laid_ok _
    | cons token tokens =>
      obtain ⟨ht, htokens⟩ := List.cons_subset.mp h
      rw [chainFrom]
      split
      · refine (hoperand tokens htokens).bind fun read ↦ ?_
        refine (laid_limited ht _).bind fun joined ↦ ?_
        refine (ih _ ?_ joined ?_ rfl).bind fun _ ↦ laid_ok _
        · rw [← hlength, List.length_drop, List.length_cons]
          omega
        · exact List.Subset.trans (List.drop_subset _ _) htokens
      · exact laid_ok _

theorem laid_chain (word : String) (join : Filter → Filter → Filter) {operand : Rule Filter}
    (hoperand : ∀ tokens ⊆ all, Laid all (operand tokens)) (h : tokens ⊆ all) :
    Laid all (chain word join operand tokens) := by
  refine (hoperand tokens h).bind fun read ↦ ?_
  refine (laid_chainFrom word join hoperand _ ?_).bind fun _ ↦ laid_ok _
  exact List.Subset.trans (List.drop_subset _ _) h

theorem laid_alternatives {term : Rule Filter} (hterm : ∀ tokens ⊆ all, Laid all (term tokens))
    (h : tokens ⊆ all) : Laid all (alternatives term tokens) :=
  laid_chain _ _ (fun _ hown ↦ laid_chain _ _ hterm hown) h

theorem laid_group {inner : Rule Filter} (hinner : ∀ tokens ⊆ all, Laid all (inner tokens))
    {opened : Token} (hopened : opened ∈ all) (h : tokens ⊆ all) :
    Laid all (group inner opened.first tokens) := by
  refine (laid_alternatives hinner h).bind fun read ↦ ?_
  dsimp only
  split
  · exact laid_ended _
  · next token rest hdrop =>
    have ht : token ∈ all := h (List.drop_subset _ _ (hdrop ▸ List.mem_cons_self))
    split
    · exact laid_ok _
    · rintro _ ⟨⟩
      refine ⟨?_, ?_⟩
      · rintro _ ⟨⟩
        exact ⟨token, ht, rfl⟩
      · rintro _ _ ⟨⟩
        exact ⟨opened, hopened, rfl⟩

theorem laid_termAround {inner? : Option (Rule Filter)}
    (hinner : ∀ inner ∈ inner?, ∀ tokens ⊆ all, Laid all (inner tokens)) (h : tokens ⊆ all) :
    Laid all (termAround inner? tokens) := by
  cases tokens with
  | nil => exact laid_ended _
  | cons token tokens =>
    obtain ⟨ht, htokens⟩ := List.cons_subset.mp h
    simp only [termAround]
    split
    · split
      · exact laid_fail ht (by simp)
      · next inner =>
        refine (hinner inner rfl tokens htokens).bind fun read ↦ ?_
        exact (laid_limited ht _).bind fun _ ↦ laid_ok _
    · split
      · split
        · exact laid_fail ht (by simp)
        · next inner =>
          exact (laid_group (hinner inner rfl) ht htokens).bind fun _ ↦ laid_ok _
      · exact laid_predicate h

theorem laid_term (budget : Nat) (h : tokens ⊆ all) : Laid all (term budget tokens) := by
  induction budget generalizing tokens with
  | zero => exact laid_termAround nofun h
  | succ budget ih =>
    refine laid_termAround ?_ h
    rintro _ ⟨⟩ own hown
    exact ih hown

theorem laid_read (h : tokens ≠ []) : Laid tokens (read tokens) := by
  rw [read, if_neg (by simpa using h)]
  refine (laid_alternatives (fun _ hown ↦ laid_term _ hown) (List.Subset.refl _)).bind
    fun read ↦ ?_
  dsimp only
  split
  · exact laid_ok _
  · next token rest hdrop =>
    exact laid_fail (List.drop_subset _ _ (hdrop ▸ List.mem_cons_self)) (by simp)

/-- The fault of a row of tokens is laid to one of them or to the end of the text; that of no tokens
is laid to the start of the text. -/
theorem laidTo_of_read {failure : Failure} (h : read tokens = .error failure) :
    (tokens = [] ∧ failure = ⟨.noTokens, some .start⟩) ∨ failure.LaidTo tokens := by
  cases tokens with
  | nil =>
    cases h
    exact .inl ⟨rfl, rfl⟩
  | cons token tokens => exact .inr (laid_read (List.cons_ne_nil token tokens) failure h)

end Expression

/-! ### Texts -/

open Position (Locates)

/-- A place where a fault of the expression may stand: where a token begins, at the end of the text,
or at its start if there are no tokens. -/
def IsFaultPlace (text : List Char) (tokens : List Token) (place : Position) : Prop :=
  (∃ t ∈ tokens, place = t.first) ∨ place.offset = Text.byteCount text ∨
    tokens = [] ∧ place.offset = 0

/-- A fault of the text or of its expression, with the place where it stands. -/
inductive LocatedFault (text : List Char) : FilterError → Prop
  | lexical {fault : Lexeme.Fault} {place : Position} (hplace : Locates text place)
      (hinside : place.offset < Text.byteCount text) : LocatedFault text (.lexical fault place)
  | grammatical {tokens : List Token} {fault : Expression.Fault} {place : Position}
      (htokens : (Cursor.ofText text).tokens = .ok tokens) (hplace : Locates text place)
      (hfault : IsFaultPlace text tokens place)
      (hopened : ∀ opened found, fault = .unclosed opened found →
        Locates text opened ∧ ∃ t ∈ tokens, opened = t.first) :
      LocatedFault text (.grammatical fault place)

/-- The part of the text on which a token stands begins and ends between characters, and that of a
word is the word. -/
def IsSliced (text : List Char) (t : Token) : Prop :=
  ∃ own, Text.slice? text t.first.offset t.last.offset = some own ∧
    ∀ name, t.lexeme = .word name → own = name.toList

theorem isSliced_of_tokens {text : List Char} {tokens : List Token}
    (h : (Cursor.ofText text).tokens = .ok tokens) {t : Token} (ht : t ∈ tokens) :
    IsSliced text t ∧ Locates text t.first := by
  have htokenizes : Tokenizes .start text tokens := Cursor.tokenizes_of_tokens _ h
  obtain ⟨before, own, after, rfl, hown, hfirst, hlast⟩ := htokenizes.exists_parts ht
  refine ⟨⟨own, ?_, fun name hname ↦ ?_⟩, hfirst ▸ Position.locates_after before _⟩
  · rw [hfirst, hlast, Position.offset_start_after, Position.offset_start_after,
      Text.byteCount_append]
    exact Text.slice?_append before own after
  · rw [hname] at hown
    exact Lexeme.eq_toList_of_isDenotedBy_word hown

namespace Filter

/-- The place of a fault, for a text whose tokens are not read as an expression. -/
theorem locatedFault_of_read {text : List Char} {tokens : List Token}
    {failure : Expression.Failure} (htokens : (Cursor.ofText text).tokens = .ok tokens)
    (h : Expression.read tokens = .error failure) :
    LocatedFault text
      (.grammatical failure.fault (failure.place?.getD (Position.start.after text))) := by
  have hend : Locates text (Position.start.after text) := by
    simpa using Position.locates_after text []
  have hstart : Locates text .start := Position.locates_after [] text
  rcases Expression.laidTo_of_read h with ⟨rfl, rfl⟩ | hlaid
  · exact .grammatical htokens hstart (.inr (.inr ⟨rfl, rfl⟩)) nofun
  · have hopened (opened : Position) (found : Lexeme)
        (hfault : failure.fault = .unclosed opened found) :
        Locates text opened ∧ ∃ t ∈ tokens, opened = t.first := by
      obtain ⟨t, ht, rfl⟩ := hlaid.opened opened found hfault
      exact ⟨(isSliced_of_tokens htokens ht).2, t, ht, rfl⟩
    cases hplace : failure.place? with
    | none =>
      refine .grammatical htokens hend (.inr (.inl ?_)) hopened
      exact Position.offset_start_after text
    | some place =>
      obtain ⟨t, ht, rfl⟩ := hlaid.place place hplace
      exact .grammatical htokens (isSliced_of_tokens htokens ht).2 (.inl ⟨t, ht, rfl⟩) hopened

/-- Parsing fails with a fault of the text or of its expression, and with the place of the fault,
which its line and its column lead to. Neither that place nor the part of the text on which a token
stands cuts a character; a place that would, slices of the text do not tell. Further on in a text,
lines and columns are greater. -/
theorem parse_faults_located :
    (∀ (text : String) (e : FilterError), parse text = .error e → LocatedFault text.toList e) ∧
    (∀ (text : List Char) (tokens : List Token), (Cursor.ofText text).tokens = .ok tokens →
      ∀ t ∈ tokens, IsSliced text t) ∧
    (∀ (text : List Char) (offset : Nat) (p : Position), offset ≤ Text.byteCount text →
      (Position.at? text offset = some p ↔
        Text.IsBoundary text offset ∧ p = Position.ofOffset text offset)) ∧
    ∀ (text : List Char) (first last : Nat), Text.IsBoundary text first →
      Text.IsBoundary text last → first < last →
      (Position.ofOffset text first).Precedes (Position.ofOffset text last) := by
  refine ⟨fun text e h ↦ ?_, fun text tokens h t ht ↦ (isSliced_of_tokens h ht).1,
    fun text offset p h ↦ Position.at?_eq_some_iff h p,
    fun text first last ↦ Position.ofOffset_precedes⟩
  unfold parse at h
  split at h
  · next fault place hfault =>
    cases h
    obtain ⟨hplace, hinside⟩ := locates_of_tokens_error hfault
    exact .lexical hplace hinside
  · next tokens htokens =>
    split at h
    · cases h
    · next failure hread =>
      cases h
      exact locatedFault_of_read htokens hread

/-- A group that is not closed, with a character of two bytes and a line end before the fault. -/
theorem parse_faults_located_unclosed :
    parse "(a eq \"é\"\n b" =
      .error (.grammatical (.unclosed ⟨0, 1, 1⟩ (.word "b")) ⟨12, 2, 2⟩) ∧
    LocatedFault "(a eq \"é\"\n b".toList
      (.grammatical (.unclosed ⟨0, 1, 1⟩ (.word "b")) ⟨12, 2, 2⟩) := by
  have hparse : parse "(a eq \"é\"\n b" =
      .error (.grammatical (.unclosed ⟨0, 1, 1⟩ (.word "b")) ⟨12, 2, 2⟩) := by
    decide +kernel
  exact ⟨hparse, parse_faults_located.1 _ _ hparse⟩

end Filter

end PropertyFilter
