import PropertyFilter.Expression.Reading

/-!
# Reading as a walk

The rules of the grammar answer with how many tokens they used, and neither a place nor a depth is
kept while they read. Here reading is a program that changes a state instead: it has a position
among the tokens, counts the groups and negations that are open up and down again by hand, and
hands the height of each tree along beside the tree. Nothing in the program keeps the counter from
going below zero.

The procedures of the program call each other, with nothing that gets smaller on the way
(`procedure`). So a call has a meaning for each number of times that calls may be nested
(`meaning`), and a walk ends where it does so once that number is large enough (`Ends`). That every
walk ends, that it counts right, and that it reads what the rules read, is proved of the program.
-/

set_option autoImplicit false

namespace PropertyFilter.Expression

/-- Where a walk stands. -/
structure Walk where
  position : Nat
  /-- The counter of the groups and negations that are open. -/
  nesting : Int
  /-- The values that the counter has had before, the last one first. -/
  earlier : List Int

namespace Walk

/-- At the first token, with nothing open. -/
def start : Walk := ⟨0, 0, []⟩

/-- All values that the counter has had. -/
def counts (w : Walk) : List Int := w.nesting :: w.earlier

def pass (w : Walk) (count : Nat) : Walk := { w with position := w.position + count }

def recount (w : Walk) (change : Int) : Walk := ⟨w.position, w.nesting + change, w.counts⟩

end Walk

/-- What joins operands, from the loosest on. -/
inductive Connective
  | or
  | and
  deriving DecidableEq

namespace Connective

def word : Connective → String
  | or => "or"
  | and => "and"

def join : Connective → Filter → Filter → Filter
  | or => .or
  | and => .and

end Connective

namespace Walking

/-- A filter, and the height that was counted for its tree. -/
abbrev Node := Filter × Nat

/-- The procedures that call each other. -/
inductive Call
  /-- Operands joined by a connective, from the left. -/
  | chain (c : Connective)
  /-- Further operands, each after the word that joins it to what stands to its left. -/
  | further (c : Connective) (left : Node)
  /-- A negation, or else a factor. -/
  | term
  /-- A group in parentheses, or else a test. -/
  | factor

/-- A computation that walks over tokens. It may fail, and then the walk stops where it is; it has
no end if calls are nested more often than they may be. -/
abbrev Run (α : Type) : Type := ExceptT Failure (StateT Walk Option) α

end Walking

open Walking (Call Node Run)

/-- A computation with calls, for any meaning that these may have. -/
abbrev Walking (α : Type) : Type := ReaderT (Call → Run Node) Run α

namespace Walking

/-! ### Steps -/

def call (c : Call) : Walking Node := fun meaning ↦ meaning c

/-- Counts a group or a negation that a token opens. -/
def enter (token : Token) : Walking Unit := do
  modify (·.recount 1)
  if maxNesting < (← get).nesting then throw ⟨.nestedTooDeep, some token.first⟩

/-- Counts a group or a negation that ends. -/
def leave : Walking Unit := modify (·.recount (-1))

/-- The height of a tree one level above another one, which a token makes. -/
def deepen (depth : Nat) (token : Token) : Walking Nat :=
  if depth + 1 ≤ maxHeight then return depth + 1 else throw ⟨.tooHigh, some token.first⟩

/-- The negation of what a token negates. -/
def negate (token : Token) (inner : Node) : Walking Node := do
  return (.not inner.1, ← deepen inner.2 token)

variable (tokens : List Token)

/-- The tokens that have not been passed. -/
def ahead : Walking (List Token) := do return tokens.drop (← get).position

/-- Passes the next token, if there is one and its lexeme passes a test. -/
def take? (p : Lexeme → Bool) : Walking (Option Token) := do
  match ← ahead tokens with
  | [] => return none
  | token :: _ =>
    if p token.lexeme then
      modify (·.pass 1)
      return some token
    else return none

/-- Reads what a rule reads that counts nothing. -/
def follow (rule : Rule Filter) : Walking Filter := do
  match rule (← ahead tokens) with
  | .ok (filter, used) =>
    modify (·.pass used)
    return filter
  | .error failure => throw failure

/-- Passes the parenthesis that closes a group which a token opened. -/
def close (opened : Token) (inner : Node) : Walking Node := do
  match ← take? tokens fun _ ↦ true with
  | none => throw ⟨.endOfText .closeParen, none⟩
  | some token =>
    if token.lexeme = .closeParen then return inner
    else throw ⟨.unclosed opened.first token.lexeme, some token.first⟩

/-! ### Procedures -/

/-- What a connective joins. -/
def operand : Connective → Call
  | .or => .chain .and
  | .and => .term

/-- What is done for a call. -/
def procedure : Call → Walking Node
  | .chain c => do call (.further c (← call (operand c)))
  | .further c left => do
    match ← take? tokens (·.isWord c.word) with
    | none => return left
    | some token =>
      let right ← call (operand c)
      let depth ← deepen (max left.2 right.2) token
      call (.further c (c.join left.1 right.1, depth))
  | .term => do
    if beginsNegation (← ahead tokens) then
      match ← take? tokens fun _ ↦ true with
      | none => throw ⟨.endOfText .property, none⟩
      | some token =>
        enter token
        let inner ← call .term
        leave
        negate token inner
    else call .factor
  | .factor => do
    match ← take? tokens (· = .openParen) with
    | none => return (← follow tokens predicate, 1)
    | some opened =>
      enter opened
      let inner ← call (.chain .or)
      leave
      close tokens opened inner

/-- What a call comes to if calls may be nested so many times. -/
def meaning : (rounds : Nat) → Call → Run Node
  | 0, _ => fun _ ↦ none
  | rounds + 1, c => procedure tokens c (meaning rounds)

/-- A row of tokens as one expression. -/
def expression : Walking Filter := do
  if tokens.isEmpty then throw ⟨.noTokens, some .start⟩
  let (filter, _) ← call (.chain .or)
  match ← ahead tokens with
  | [] => return filter
  | token :: _ => throw ⟨.trailing token.lexeme, some token.first⟩

/-! ### Ends of walks -/

section Ends

variable {α β : Type} {m : Walking α} {next : α → Walking β} {w w' w'' : Walk}

/-- From here the walk ends there, with this result, as soon as calls may be nested often enough. -/
def Ends (tokens : List Token) (m : Walking α) (w : Walk) (result : Except Failure α)
    (w' : Walk) : Prop :=
  ∃ enough, ∀ rounds ≥ enough, (m.run (meaning tokens rounds)).run.run w = some (result, w')

variable {tokens}

theorem Ends.unique {result result' : Except Failure α} (h : Ends tokens m w result w')
    (h' : Ends tokens m w result' w'') : result = result' ∧ w' = w'' := by
  obtain ⟨enough, h⟩ := h
  obtain ⟨enough', h'⟩ := h'
  have hend := h _ (Nat.le_max_left enough enough')
  rw [h' _ (Nat.le_max_right enough enough')] at hend
  exact Prod.mk.inj (Option.some.inj hend.symm)

/-- A call ends as its procedure does. -/
theorem ends_call {c : Call} {result : Except Failure Node}
    (h : Ends tokens (procedure tokens c) w result w') : Ends tokens (call c) w result w' := by
  obtain ⟨enough, h⟩ := h
  refine ⟨enough + 1, fun rounds hrounds ↦ ?_⟩
  obtain ⟨rounds, rfl⟩ := Nat.exists_eq_add_of_le' (Nat.le_trans (Nat.le_add_left 1 enough) hrounds)
  exact h rounds (Nat.le_of_succ_le_succ hrounds)

theorem Ends.bind {a : α} {result : Except Failure β} (h : Ends tokens m w (.ok a) w')
    (hnext : Ends tokens (next a) w' result w'') : Ends tokens (m >>= next) w result w'' := by
  obtain ⟨enough, h⟩ := h
  obtain ⟨enough', hnext⟩ := hnext
  refine ⟨max enough enough', fun rounds hrounds ↦ ?_⟩
  obtain ⟨hrounds, hrounds'⟩ := Nat.max_le.mp hrounds
  rw [ReaderT.run_bind, ExceptT.run_bind, StateT.run_bind, h rounds hrounds]
  exact hnext rounds hrounds'

/-- A failure ends the walk, whatever was to come next. -/
theorem Ends.bind_error {failure : Failure} (h : Ends tokens m w (.error failure) w') :
    Ends tokens (m >>= next) w (.error failure) w' := by
  obtain ⟨enough, h⟩ := h
  refine ⟨enough, fun rounds hrounds ↦ ?_⟩
  rw [ReaderT.run_bind, ExceptT.run_bind, StateT.run_bind, h rounds hrounds]
  rfl

/-- A walk without calls ends as it does for any meaning of calls. -/
theorem ends_of_forall {result : Except Failure α}
    (h : ∀ meaning, (m.run meaning).run.run w = some (result, w')) : Ends tokens m w result w' :=
  ⟨0, fun _ _ ↦ h _⟩

theorem ends_return (tokens : List Token) (a : α) (w : Walk) : Ends tokens (pure a) w (.ok a) w :=
  ends_of_forall fun _ ↦ rfl

theorem ends_throw (tokens : List Token) (failure : Failure) (w : Walk) :
    Ends tokens (throw failure : Walking α) w (.error failure) w :=
  ends_of_forall fun _ ↦ rfl

theorem ends_leave (tokens : List Token) (w : Walk) :
    Ends tokens leave w (.ok ()) (w.recount (-1)) :=
  ends_of_forall fun _ ↦ rfl

theorem ends_enter (tokens : List Token) (token : Token) (h : w.nesting < 256) :
    Ends tokens (enter token) w (.ok ()) (w.recount 1) := by
  have hif : ¬ (maxNesting : Int) < (w.recount 1).nesting := by
    simp only [maxNesting, Walk.recount]
    omega
  unfold enter
  refine Ends.bind (ends_of_forall fun _ ↦ rfl) ?_
  refine Ends.bind (ends_of_forall fun _ ↦ rfl) ?_
  rw [if_neg hif]
  exact ends_return tokens () _

theorem ends_enter_error (tokens : List Token) (token : Token) (h : 256 ≤ w.nesting) :
    Ends tokens (enter token) w (.error ⟨.nestedTooDeep, some token.first⟩) (w.recount 1) := by
  have hif : (maxNesting : Int) < (w.recount 1).nesting := by
    simp only [maxNesting, Walk.recount]
    omega
  unfold enter
  refine Ends.bind (ends_of_forall fun _ ↦ rfl) ?_
  refine Ends.bind (ends_of_forall fun _ ↦ rfl) ?_
  rw [if_pos hif]
  exact ends_throw tokens _ _

theorem ends_deepen {depth : Nat} (h : depth + 1 ≤ maxHeight) (token : Token) (w : Walk) :
    Ends tokens (deepen depth token) w (.ok (depth + 1)) w := by
  rw [deepen, if_pos h]
  exact ends_return tokens _ w

theorem ends_deepen_error {depth : Nat} (h : ¬ depth + 1 ≤ maxHeight) (token : Token) (w : Walk) :
    Ends tokens (deepen depth token) w (.error ⟨.tooHigh, some token.first⟩) w := by
  rw [deepen, if_neg h]
  exact ends_throw tokens _ w

theorem ends_ahead (tokens : List Token) (w : Walk) :
    Ends tokens (ahead tokens) w (.ok (tokens.drop w.position)) w :=
  ends_of_forall fun _ ↦ rfl

theorem ends_take? {token : Token} {rest : List Token} {p : Lexeme → Bool}
    (h : tokens.drop w.position = token :: rest) (hp : p token.lexeme = true) :
    Ends tokens (take? tokens p) w (.ok (some token)) (w.pass 1) := by
  refine (ends_ahead tokens w).bind (ends_of_forall fun _ ↦ ?_)
  simp only [h, hp, if_true]
  rfl

theorem ends_take?_none {p : Lexeme → Bool}
    (h : ∀ token ∈ (tokens.drop w.position).head?, p token.lexeme = false) :
    Ends tokens (take? tokens p) w (.ok none) w := by
  refine (ends_ahead tokens w).bind (ends_of_forall fun _ ↦ ?_)
  cases hahead : tokens.drop w.position with
  | nil => rfl
  | cons token rest =>
    rw [hahead] at h
    simp only [h token rfl, Bool.false_eq_true, if_false]
    rfl

theorem ends_follow {rule : Rule Filter} {f : Filter} {used : Nat}
    (h : rule (tokens.drop w.position) = .ok (f, used)) :
    Ends tokens (follow tokens rule) w (.ok f) (w.pass used) := by
  refine (ends_ahead tokens w).bind (ends_of_forall fun _ ↦ ?_)
  rw [h]
  rfl

theorem ends_follow_error {rule : Rule Filter} {failure : Failure}
    (h : rule (tokens.drop w.position) = .error failure) :
    Ends tokens (follow tokens rule) w (.error failure) w := by
  refine (ends_ahead tokens w).bind (ends_of_forall fun _ ↦ ?_)
  rw [h]
  rfl

end Ends

end Walking

end PropertyFilter.Expression
