import PropertyFilter.Filter.Normalize
import PropertyFilter.Filter.Stored
import PropertyFilter.Proofs.Filter.Checked

/-!
# Filters that can be made are well formed

A `Construction` is one way to make a filter: a single test, a connective of filters made before,
their normal form, what is parsed, and what a document stores. Every construction keeps filters well
formed (`Construction.wellFormed_of_result`), although normal forms are built without the check of
tests. So in any sequence of constructions each one adds a well formed filter to those made so far,
or is refused and adds nothing (`wellFormed_of_run`).
-/

set_option autoImplicit false

namespace PropertyFilter

namespace Test

theorem wellFormed_of_complement? {t u : Test} (ht : t.WellFormed) (h : t.complement? = some u) :
    u.WellFormed := by
  cases t <;> cases h <;> exact ht

theorem wellFormed_simplify {t : Test} (ht : t.WellFormed) : t.simplify.WellFormed := by
  unfold simplify
  split
  · next v =>
    rintro w ⟨⟩
    exact ht.2.1 v List.mem_cons_self
  · exact ht

theorem isUsable_of_hasLiteral {v : Value} (h : v.HasLiteral) : v.isUsable = true := by
  cases v with
  | float x => exact h
  | _ => rfl

/-- What is parsed is well formed, since its values have literals. -/
theorem wellFormed_of_hasLiterals {t : Test} (h : t.HasLiterals) : t.WellFormed := by
  cases t with
  | equals v => exact fun w hw ↦ isUsable_of_hasLiteral (h w hw)
  | differs v => exact fun w hw ↦ isUsable_of_hasLiteral (h w hw)
  | ordered relation bound => exact isUsable_of_hasLiteral h
  | text test pattern => trivial
  | present => trivial
  | oneOf vs => exact ⟨h.1, fun w hw ↦ isUsable_of_hasLiteral (h.2.1 w hw), h.2.2⟩

end Test

namespace Filter

/-! ### Connectives -/

theorem wellFormed_foldl {join : Filter → Filter → Filter}
    (hjoin : ∀ a b : Filter, a.WellFormed → b.WellFormed → (join a b).WellFormed) {f : Filter}
    {fs : List Filter} (hf : f.WellFormed) (hfs : ∀ g ∈ fs, g.WellFormed) :
    (fs.foldl join f).WellFormed := by
  induction fs generalizing f with
  | nil => exact hf
  | cons g gs ih =>
    rw [List.forall_mem_cons] at hfs
    exact ih (hjoin f g hf hfs.1) hfs.2

theorem wellFormed_of_all? {f : Filter} {fs : List Filter} (hfs : ∀ g ∈ fs, g.WellFormed)
    (h : all? fs = some f) : f.WellFormed := by
  cases fs with
  | nil => cases h
  | cons g gs =>
    rw [List.forall_mem_cons] at hfs
    cases h
    exact wellFormed_foldl (fun _ _ ↦ And.intro) hfs.1 hfs.2

theorem wellFormed_of_any? {f : Filter} {fs : List Filter} (hfs : ∀ g ∈ fs, g.WellFormed)
    (h : any? fs = some f) : f.WellFormed := by
  cases fs with
  | nil => cases h
  | cons g gs =>
    rw [List.forall_mem_cons] at hfs
    cases h
    exact wellFormed_foldl (fun _ _ ↦ And.intro) hfs.1 hfs.2

/-! ### Normal forms -/

theorem wellFormed_complement {f : Filter} (hf : f.WellFormed) : f.complement.WellFormed := by
  induction f with
  | and a b iha ihb => exact ⟨iha hf.1, ihb hf.2⟩
  | or a b iha ihb => exact ⟨iha hf.1, ihb hf.2⟩
  | not a => exact hf
  | test property t =>
    rw [complement]
    split
    · next u hu => exact ⟨hf.1, Test.wellFormed_of_complement? hf.2 hu⟩
    · exact hf

theorem wellFormed_joined (collapse : Bool) {join : Filter → Filter → Filter} {a b : Filter}
    (ha : a.WellFormed) (hjoin : (join a b).WellFormed) :
    (joined collapse join a b).WellFormed := by
  unfold joined
  split
  · exact ha
  · exact hjoin

theorem wellFormed_normalize (collapse : Bool) {f : Filter} (hf : f.WellFormed) :
    (f.normalize collapse).WellFormed := by
  induction f with
  | and a b iha ihb => exact wellFormed_joined collapse (iha hf.1) ⟨iha hf.1, ihb hf.2⟩
  | or a b iha ihb => exact wellFormed_joined collapse (iha hf.1) ⟨iha hf.1, ihb hf.2⟩
  | not a ih => exact wellFormed_complement (ih hf)
  | test property t => exact ⟨hf.1, Test.wellFormed_simplify hf.2⟩

/-! ### Expressions and documents -/

theorem wellFormed_of_parse {source : String} {f : Filter} (h : parse source = .ok f) :
    f.WellFormed := by
  rw [wellFormed_iff]
  intro p hp
  obtain ⟨hname, hliterals⟩ := hasLiterals_of_parse h p hp
  have hscanned : (Lexeme.word p.1).IsScanned := hname
  exact ⟨hscanned.isLawful, Test.wellFormed_of_hasLiterals hliterals⟩

theorem ok_of_mapError {α β γ : Type} {result : Except α γ} {change : α → β} {x : γ}
    (h : result.mapError change = .ok x) : result = .ok x := by
  cases result with
  | error e => cases h
  | ok y =>
    cases h
    rfl

/-- A filter that is read is well formed. -/
def ReadsSound (result : Except StoredFault Filter) : Prop :=
  ∀ f, result = .ok f → f.WellFormed

/-- Filters that are read are well formed. -/
def ReadAllSound (result : Except StoredFault (List Filter)) : Prop :=
  ∀ fs, result = .ok fs → ∀ f ∈ fs, f.WellFormed

theorem readsSound_error (fault : StoredFault) : ReadsSound (.error fault) := nofun

theorem readsSound_ofOperands {join : Filter → Filter → Filter}
    (hjoin : ∀ a b : Filter, a.WellFormed → b.WellFormed → (join a b).WellFormed)
    {fs : List Filter} (hfs : ∀ g ∈ fs, g.WellFormed) : ReadsSound (ofOperands join fs) := by
  unfold ofOperands
  split
  · next a b =>
    rintro f ⟨⟩
    exact hjoin a b (hfs a (by simp)) (hfs b (by simp))
  · exact readsSound_error .malformed

theorem readsSound_make (property : String) (t : Test) :
    ReadsSound ((make property t).mapError .invalid) := by
  intro f h
  exact wellFormed_of_make (ok_of_mapError h)

/-- The filter of a node is well formed if those of its operands are. -/
theorem readsSound_ofStoredNode (access : Json.Access) (node : StoredNode) (arguments : Json)
    (isWhole : Bool) {operands : Unit → Except StoredFault (List Filter)}
    {operand : Unit → Except StoredFault Filter} (hoperands : ReadAllSound (operands ()))
    (hoperand : ReadsSound (operand ())) :
    ReadsSound (ofStoredNode access node arguments isWhole operands operand) := by
  have hwhole {result : Except StoredFault Filter} (h : ReadsSound result) :
      ReadsSound (if isWhole then result else .error .malformed) := by
    split
    · exact h
    · exact readsSound_error .malformed
  cases node with
  | and =>
    simp only [ofStoredNode]
    split
    · exact readsSound_error _
    · next fs hfs => exact hwhole (readsSound_ofOperands (fun _ _ ↦ And.intro) (hoperands fs hfs))
  | or =>
    simp only [ofStoredNode]
    split
    · exact readsSound_error _
    · next fs hfs => exact hwhole (readsSound_ofOperands (fun _ _ ↦ And.intro) (hoperands fs hfs))
  | not =>
    simp only [ofStoredNode]
    split
    · exact readsSound_error _
    · next g hg =>
      apply hwhole
      rintro f ⟨⟩
      exact hoperand g hg
  | test operator =>
    simp only [ofStoredNode]
    split
    · exact readsSound_error _
    · next property t _ => exact hwhole (readsSound_make property t)

/-- Whatever a document holds, it is read as a well formed filter or not at all. -/
theorem readsSound_ofStored :
    (∀ access document, ReadsSound (ofStored access document)) ∧
      (∀ access document, ReadAllSound (operandsOfStored access document)) ∧
      (∀ access count items, ReadAllSound (firstTwoOfStored access count items)) ∧
      ∀ node entries, ReadsSound (ofStoredEntries node entries) := by
  apply ofStored.mutual_induct
  -- documents: an object, a list of an operator and its arguments, or neither
  case case1 =>
    intro access entries hnode
    rw [ofStored, hnode]
    exact readsSound_error .malformed
  case case2 =>
    intro access entries node hnode ih
    rw [ofStored, hnode]
    exact ih
  case case3 =>
    intro access tag arguments others hnode
    rw [ofStored, hnode]
    exact readsSound_error .malformed
  case case4 =>
    intro access tag arguments others node hnode ihoperands ihoperand
    rw [ofStored, hnode]
    exact readsSound_ofStoredNode access node arguments _ ihoperands ihoperand
  case case5 =>
    intro document access hobject harray
    rw [ofStored]
    · exact readsSound_error .malformed
    · exact hobject
    · exact harray
  -- the operands in a document, then those in a list of which only so many are read
  case case6 =>
    intro access items ih
    exact ih
  case case7 =>
    intro document access harray
    rw [operandsOfStored]
    · exact nofun
    · exact harray
  case case8 =>
    rintro access count fs ⟨⟩
    simp
  case case9 => exact fun _ _ _ ↦ nofun
  case case10 =>
    intro access item items count fault hitem _
    rw [firstTwoOfStored, hitem]
    exact nofun
  case case11 =>
    intro access item items count f hitem fault hitems _ _
    rw [firstTwoOfStored, hitem, hitems]
    exact nofun
  case case12 =>
    intro access item items count f hitem fs hitems ih ihitems
    rw [firstTwoOfStored, hitem, hitems]
    rintro _ ⟨⟩
    exact List.forall_mem_cons.mpr ⟨ih f hitem, ihitems fs hitems⟩
  -- entries, up to the one that holds the arguments
  case case13 => exact fun _ ↦ readsSound_error .malformed
  case case14 =>
    intro node name arguments entries hname ihoperands ihoperand
    rw [ofStoredEntries, if_pos hname]
    exact readsSound_ofStoredNode .putAside node arguments true ihoperands ihoperand
  case case15 =>
    intro node name arguments entries hname ih
    rw [ofStoredEntries, if_neg hname]
    exact ih

/-! ### Constructions -/

/-- One way to make a filter, of filters that were made before or of none. -/
inductive Construction
  | make (property : String) (t : Test)
  | and (left right : Filter)
  | or (left right : Filter)
  | not (operand : Filter)
  | all (operands : List Filter)
  | any (operands : List Filter)
  | normalize (collapse : Bool) (operand : Filter)
  | parse (source : String)
  | ofStored (access : Json.Access) (document : Json)

/-- Why a construction makes no filter. -/
inductive Refusal
  | invalid (reason : InvalidFilter)
  | unread (error : FilterError)
  | notStored (fault : StoredFault)
  | nothingToJoin

namespace Construction

/-- The filters that a construction works on. -/
def operands : Construction → List Filter
  | make _ _ => []
  | and a b => [a, b]
  | or a b => [a, b]
  | not a => [a]
  | all fs => fs
  | any fs => fs
  | normalize _ a => [a]
  | parse _ => []
  | ofStored _ _ => []

/-- What a construction makes. -/
def result : Construction → Except Refusal Filter
  | make property t => (Filter.make property t).mapError .invalid
  | and a b => .ok (.and a b)
  | or a b => .ok (.or a b)
  | not a => .ok (.not a)
  | all fs => (all? fs).elim (.error .nothingToJoin) .ok
  | any fs => (any? fs).elim (.error .nothingToJoin) .ok
  | normalize collapse a => .ok (a.normalize collapse)
  | parse source => (Filter.parse source).mapError .unread
  | ofStored access document => (Filter.ofStored access document).mapError .notStored

/-- The filters made so far after one more construction. -/
def extend (made : List Filter) (c : Construction) : List Filter :=
  c.result.toOption.toList ++ made

end Construction

theorem some_of_elim {α β : Type} {found : Option β} {fault : α} {x : β}
    (h : found.elim (.error fault) Except.ok = .ok x) : found = some x := by
  cases found with
  | none => cases h
  | some y => exact congrArg some (Except.ok.inj h)

/-- One construction of well formed filters makes a well formed filter or none. -/
theorem Construction.wellFormed_of_result {c : Construction} {f : Filter}
    (hoperands : ∀ g ∈ c.operands, g.WellFormed) (h : c.result = .ok f) : f.WellFormed := by
  cases c with
  | make property t => exact wellFormed_of_make (ok_of_mapError h)
  | and a b =>
    cases h
    exact ⟨hoperands a (by simp [operands]), hoperands b (by simp [operands])⟩
  | or a b =>
    cases h
    exact ⟨hoperands a (by simp [operands]), hoperands b (by simp [operands])⟩
  | not a =>
    cases h
    exact hoperands a (by simp [operands])
  | all fs => exact wellFormed_of_all? hoperands (some_of_elim h)
  | any fs => exact wellFormed_of_any? hoperands (some_of_elim h)
  | normalize collapse a =>
    cases h
    exact wellFormed_normalize collapse (hoperands a (by simp [operands]))
  | parse source => exact wellFormed_of_parse (ok_of_mapError h)
  | ofStored access document => exact readsSound_ofStored.1 access document f (ok_of_mapError h)

/-- The filters that a finite sequence of constructions has made, each of filters made before. -/
inductive Run : List Filter → Prop
  | start : Run []
  | step {made : List Filter} (c : Construction) (hrun : Run made)
      (hoperands : ∀ g ∈ c.operands, g ∈ made) : Run (c.extend made)

theorem Construction.extend_of_ok {c : Construction} {f : Filter} (h : c.result = .ok f)
    (made : List Filter) : c.extend made = f :: made := by
  rw [extend, h]
  rfl

theorem Construction.extend_of_error {c : Construction} {refusal : Refusal}
    (h : c.result = .error refusal) (made : List Filter) : c.extend made = made := by
  rw [extend, h]
  rfl

theorem wellFormed_of_mem_run {made : List Filter} (h : Run made) : ∀ f ∈ made, f.WellFormed := by
  induction h with
  | start => simp
  | @step made c hrun hoperands ih =>
    cases hresult : c.result with
    | error refusal =>
      rw [Construction.extend_of_error hresult]
      exact ih
    | ok f =>
      rw [Construction.extend_of_ok hresult, List.forall_mem_cons]
      exact ⟨c.wellFormed_of_result (fun g hg ↦ ih g (hoperands g hg)) hresult, ih⟩

/-- Whatever constructions were made, all filters that came of them are well formed, and the next
construction adds a filter that is well formed too, or is refused and adds none. The test of a
property is refused exactly if the name is blank, a value is not usable or there is no value to
choose. -/
theorem wellFormed_of_run {made : List Filter} (h : Run made) :
    (∀ f ∈ made, f.WellFormed) ∧
      (∀ c : Construction, (∀ g ∈ c.operands, g ∈ made) →
        (∃ f, c.result = .ok f ∧ f.WellFormed ∧ c.extend made = f :: made) ∨
          ∃ refusal, c.result = .error refusal ∧ c.extend made = made) ∧
      ∀ property t, (∃ f, (Construction.make property t).result = .ok f) ↔
        Text.allBlank property.toList = false ∧ (∀ v ∈ t.values, v.isUsable = true) ∧
          t ≠ .oneOf [] := by
  have hmade := wellFormed_of_mem_run h
  refine ⟨hmade, ?_, ?_⟩
  · intro c hoperands
    cases hresult : c.result with
    | error refusal => exact .inr ⟨refusal, rfl, c.extend_of_error hresult made⟩
    | ok f =>
      have hf := c.wellFormed_of_result (fun g hg ↦ hmade g (hoperands g hg)) hresult
      exact .inl ⟨f, rfl, hf, c.extend_of_ok hresult made⟩
  · intro property t
    rw [← fault?_eq_none_iff, Construction.result, make_eq_elim]
    cases fault? property t with
    | none => simp [Except.mapError]
    | some fault => simp [Except.mapError]

/-- A choice with a repeated value, an expression, a document with a blank name, which is refused,
and the normal form of a negated group of what was made. -/
theorem wellFormed_of_run_normal_form :
    ∃ made, Run made ∧
      .or (.test "a" (.differs (some (.string "x")))) (.not (.test "a" .present)) ∈ made ∧
      ∀ f ∈ made, f.WellFormed := by
  let choice : Filter := .test "a" (.oneOf [.string "x"])
  let present : Filter := .not (.not (.test "a" .present))
  let blank : Json :=
    .object [("args", .object [("name", .string " ")]), ("op", .string "presence")]
  have hchoice : Run [choice] :=
    .step (.make "a" (.oneOf [.string "x", .string "x"])) .start (by simp [Construction.operands])
  have hparse : (Construction.parse (String.ofList
      ((List.replicate 2 "not ".toList).flatten ++ "a pr".toList))).result = .ok present := by
    rw [Construction.result, parse_negations (by decide)]
    rfl
  have hpresent : Run [present, choice] := by
    rw [← Construction.extend_of_ok hparse]
    exact .step _ hchoice (by simp [Construction.operands])
  have hrefused : Run [present, choice] :=
    .step (.ofStored .inPlace blank) hpresent (by simp [Construction.operands])
  have hand : Run [.and choice present, present, choice] :=
    .step (.and choice present) hrefused (by simp [Construction.operands])
  have hgroup : Run [.not (.and choice present), .and choice present, present, choice] :=
    .step (.not (.and choice present)) hand (by simp [Construction.operands])
  have hnormal := Run.step (.normalize true (.not (.and choice present))) hgroup
    (by simp [Construction.operands])
  exact ⟨_, hnormal, List.mem_cons_self, (wellFormed_of_run hnormal).1⟩

end Filter

end PropertyFilter
