import PropertyFilter.Proofs.Lexeme.Faults
import PropertyFilter.Proofs.Text.Places
import PropertyFilter.Proofs.Token.Slices

/-!
# Faults of tokens and their places

The fault of a text is that of scanning what follows the tokens before it and any blanks
(`exists_scan_of_tokens_error`). It is laid to a character of the text, and the place that comes
with it is the place of that character (`locates_of_tokens_error`). Tokens begin and end at places
of the text as well (`Tokenizes.exists_parts`).
-/

set_option autoImplicit false

namespace PropertyFilter

namespace Cursor

theorem tokens_of_next?_error {c past : Cursor} {fault : Lexeme.Fault × Position}
    (h : c.next? = some (.error fault, past)) : c.tokens = .error fault := by
  rw [tokens]
  split <;> simp_all

/-- A fault of a step is one of scanning what follows the blanks, and stands at the character that
the failure names. -/
theorem exists_scan_of_next?_error {c past : Cursor} {fault : Lexeme.Fault} {place : Position}
    (h : c.next? = some (.error (fault, place), past)) :
    ∃ d rest failure, c.skipBlanks.rest = d :: rest ∧ Lexeme.scan d rest = .error failure ∧
      fault = failure.fault ∧
      place = c.skipBlanks.place.after ((d :: rest).take failure.distance) := by
  simp only [next?] at h
  split at h
  · cases h
  next d rest hrest =>
  split at h
  · cases h
  · next failure hscan =>
    cases h
    exact ⟨d, rest, failure, hrest, hscan, rfl, by rw [advance, hrest]⟩

/-- Characters that fail after any blanks are the fault of the whole text. -/
theorem tokens_of_scan_error {c : Cursor} {d : Char} {rest : List Char}
    {failure : Lexeme.Failure} (hrest : c.skipBlanks.rest = d :: rest)
    (hscan : Lexeme.scan d rest = .error failure) :
    c.tokens = .error (failure.fault, (c.skipBlanks.advance failure.distance).place) := by
  have hnext : c.next? = some (.error (failure.fault,
      (c.skipBlanks.advance failure.distance).place), c.skipBlanks.advance failure.taken) := by
    simp only [next?, hrest, hscan]
  exact tokens_of_next?_error hnext

/-- The fault of a text is that of scanning what follows some beginning of it. -/
theorem exists_scan_of_tokens_error (c : Cursor) {fault : Lexeme.Fault} {place : Position}
    (h : c.tokens = .error (fault, place)) :
    ∃ before d rest failure, c.rest = before ++ d :: rest ∧ Lexeme.scan d rest = .error failure ∧
      fault = failure.fault ∧
      place = c.place.after (before ++ (d :: rest).take failure.distance) := by
  fun_induction Cursor.tokens c with
  | case1 c hnext => cases h
  | case2 c other past hnext =>
    cases h
    obtain ⟨d, rest, failure, hrest, hscan, rfl, rfl⟩ := exists_scan_of_next?_error hnext
    refine ⟨c.rest.takeWhile Text.isBlank, d, rest, failure, ?_, hscan, rfl, ?_⟩
    · rw [← hrest]
      exact List.takeWhile_append_dropWhile.symm
    · rw [Position.after_append]
      rfl
  | case3 c token past hnext others hothers ih => cases h
  | case4 c token past hnext other hothers ih =>
    cases h
    obtain ⟨before, d, rest, failure, hpast, hscan, rfl, rfl⟩ := ih hothers
    obtain ⟨gap, own, hrest, -, -, -, hlast, hplace⟩ := exists_denoting_of_next? hnext
    refine ⟨gap ++ own ++ before, d, rest, failure, ?_, hscan, rfl, ?_⟩
    · rw [hrest, hpast, List.append_assoc, List.append_assoc]
    · rw [hplace, hlast, ← Position.after_append, List.append_assoc (gap ++ own)]

end Cursor

/-- The fault of a text stands at one of its characters. -/
theorem locates_of_tokens_error {text : List Char} {fault : Lexeme.Fault} {place : Position}
    (h : (Cursor.ofText text).tokens = .error (fault, place)) :
    Position.Locates text place ∧ place.offset < Text.byteCount text := by
  obtain ⟨before, d, rest, failure, htext, hscan, -, rfl⟩ :=
    Cursor.exists_scan_of_tokens_error _ h
  have hinside := (Lexeme.reachable_of_scan hscan).inside
  have hsplit : text = before ++ (d :: rest).take failure.distance ++
      (d :: rest).drop failure.distance := by
    rw [List.append_assoc, List.take_append_drop]
    exact htext
  have hafter : 0 < Text.byteCount ((d :: rest).drop failure.distance) := by
    refine Text.byteCount_pos (List.ne_nil_of_length_pos ?_)
    rw [List.length_drop]
    omega
  generalize before ++ (d :: rest).take failure.distance = past at hsplit ⊢
  generalize (d :: rest).drop failure.distance = after at hsplit hafter
  subst hsplit
  refine ⟨Position.locates_after past after, ?_⟩
  change (Position.start.after past).offset < _
  rw [Position.offset_start_after, Text.byteCount_append]
  exact Nat.lt_add_of_pos_right hafter

/-- A token stands on characters of the text that denote its lexeme, between its two places. -/
theorem Tokenizes.exists_parts {place : Position} {cs : List Char} {tokens : List Token}
    (h : Tokenizes place cs tokens) {t : Token} (ht : t ∈ tokens) :
    ∃ before own after, cs = before ++ (own ++ after) ∧ t.lexeme.IsDenotedBy own ∧
      t.first = place.after before ∧ t.last = place.after (before ++ own) := by
  induction h with
  | done => cases ht
  | @token place gap own rest l tokens hblank hown hrest ih =>
    rcases List.mem_cons.mp ht with rfl | ht
    · exact ⟨gap, own, rest, rfl, hown, rfl, rfl⟩
    · obtain ⟨before, other, after, rfl, hother, hfirst, hlast⟩ := ih ht
      refine ⟨gap ++ own ++ before, other, after, by simp, hother, ?_, ?_⟩
      · rw [hfirst, Position.after_append _ (gap ++ own)]
      · rw [hlast, ← Position.after_append, List.append_assoc (gap ++ own)]

end PropertyFilter
