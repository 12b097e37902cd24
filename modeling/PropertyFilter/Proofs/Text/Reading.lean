import PropertyFilter.Text.Reader

/-!
# What readers read

`Reads r own a rest` says that in front of a rest a reader reads just the characters `own`, as `a`;
`Refuses r cs` says that it reads nothing of a text. For each way to put readers together there is a
lemma from what its parts read to what the whole reads: one after the other (`Reads.bind`), one or
else the other (`Reads.orElse_left`, `Reads.orElse_right`), as often as it goes (`Reads.many_cons`,
`reads_many_nil`).
-/

set_option autoImplicit false

namespace PropertyFilter.Text.Reader

variable {α β : Type}

/-- In front of the rest, the reader reads just these characters. -/
def Reads (r : Reader α) (own : List Char) (a : α) (rest : List Char) : Prop :=
  r (own ++ rest) = some (a, own.length)

/-- The reader does not read any of the text. -/
def Refuses (r : Reader α) (cs : List Char) : Prop := r cs = none

/-! ### One reader after another -/

theorem bind_eq (r : Reader α) (next : α → Reader β) (cs : List Char) :
    (r >>= next) cs = match r cs with
      | none => none
      | some (a, used) => (next a (cs.drop used)).map fun (b, more) ↦ (b, used + more) := rfl

theorem reads_pure (a : α) (rest : List Char) : Reads (pure a) [] a rest := rfl

theorem refuses_refuse (cs : List Char) : Refuses (refuse : Reader α) cs := rfl

section bind

variable {r : Reader α} {next : α → Reader β} {own own' rest cs : List Char} {a : α} {b : β}

theorem Reads.bind (h : Reads r own a (own' ++ rest)) (h' : Reads (next a) own' b rest) :
    Reads (r >>= next) (own ++ own') b rest := by
  rw [Reads, List.append_assoc, bind_eq, h]
  simp only [List.drop_left]
  rw [h', Option.map_some, List.length_append]

/-- Nothing more is read after the first reader. -/
theorem Reads.bind_nil (h : Reads r own a rest) (h' : Reads (next a) [] b rest) :
    Reads (r >>= next) own b rest := by
  have hboth : Reads (r >>= next) (own ++ []) b rest := Reads.bind h h'
  rwa [List.append_nil] at hboth

/-- The first reader reads nothing. -/
theorem Reads.nil_bind (h : Reads r [] a (own ++ rest)) (h' : Reads (next a) own b rest) :
    Reads (r >>= next) own b rest :=
  Reads.bind h h'

theorem Reads.map (f : α → β) (h : Reads r own a rest) : Reads (f <$> r) own (f a) rest :=
  h.bind_nil (reads_pure _ _)

theorem Refuses.bind (h : Refuses r cs) : Refuses (r >>= next) cs := by
  rw [Refuses, bind_eq, h]

theorem Refuses.map (f : α → β) (h : Refuses r cs) : Refuses (f <$> r) cs := h.bind

theorem Reads.refuses_bind (h : Reads r own a rest) (h' : Refuses (next a) rest) :
    Refuses (r >>= next) (own ++ rest) := by
  rw [Refuses, bind_eq, h]
  simp only [List.drop_left]
  rw [h', Option.map_none]

end bind

/-! ### Characters -/

section characters

variable {p : Char → Bool} {c : Char} {own rest cs : List Char}

theorem reads_charWhere (h : p c = true) (rest : List Char) : Reads (charWhere p) [c] c rest := by
  simp [Reads, charWhere, h]

theorem refuses_charWhere (h : ∀ c ∈ cs.head?, p c = false) : Refuses (charWhere p) cs := by
  cases cs with
  | nil => rfl
  | cons c cs => simp [Refuses, charWhere, h c rfl]

theorem reads_char (c : Char) (rest : List Char) : Reads (char c) [c] c rest :=
  reads_charWhere (beq_self_eq_true c) rest

theorem refuses_char (h : ∀ d ∈ cs.head?, d ≠ c) : Refuses (char c) cs :=
  refuses_charWhere fun d hd ↦ beq_eq_false_iff_ne.mpr (h d hd)

theorem reads_exactly (word rest : List Char) : Reads (exactly word) word () rest := by
  have hprefix : word.isPrefixOf (word ++ rest) = true :=
    List.isPrefixOf_iff_prefix.mpr (List.prefix_append word rest)
  rw [Reads, exactly, if_pos hprefix]

theorem refuses_exactly {word : List Char} (h : word.isPrefixOf cs = false) :
    Refuses (exactly word) cs := by
  rw [Refuses, exactly, h]
  rfl

theorem refuses_exactly_cons {word : List Char} (h : ∀ d ∈ cs.head?, d ≠ c) :
    Refuses (exactly (c :: word)) cs := by
  refine refuses_exactly ?_
  cases cs with
  | nil => rfl
  | cons d cs => simp [List.isPrefixOf, Ne.symm (h d rfl)]

theorem reads_takeWhile (hown : ∀ c ∈ own, p c = true) (hrest : ∀ c ∈ rest.head?, p c = false) :
    Reads (takeWhile p) own own rest := by
  have htaken : (own ++ rest).takeWhile p = own := by
    rw [List.takeWhile_append_of_pos hown]
    cases rest with
    | nil => rw [List.takeWhile_nil, List.append_nil]
    | cons c cs =>
      rw [List.takeWhile_cons_of_neg (by simp [hrest c rfl]), List.append_nil]
  rw [Reads, takeWhile, htaken]

theorem reads_ahead (rest : List Char) : Reads ahead [] rest rest := rfl

end characters

/-! ### One reader or another -/

section orElse

variable {r other : Reader α} {readers : List (Reader α)} {own rest cs : List Char} {a : α}

theorem Reads.orElse_left (h : Reads r own a rest) : Reads (orElse r other) own a rest := by
  rw [Reads, orElse, h, Option.some_or]

theorem Reads.orElse_right (h : Refuses r (own ++ rest)) (h' : Reads other own a rest) :
    Reads (orElse r other) own a rest := by
  rw [Reads, orElse, h, Option.none_or, h']

theorem Refuses.orElse (h : Refuses r cs) (h' : Refuses other cs) :
    Refuses (Reader.orElse r other) cs := by
  rw [Refuses, Reader.orElse, h, h', Option.none_or]

theorem Reads.firstOf_head (h : Reads r own a rest) : Reads (firstOf (r :: readers)) own a rest :=
  h.orElse_left

theorem Reads.firstOf_tail (h : Refuses r (own ++ rest)) (h' : Reads (firstOf readers) own a rest) :
    Reads (firstOf (r :: readers)) own a rest :=
  .orElse_right h h'

theorem refuses_firstOf (h : ∀ r ∈ readers, Refuses r cs) : Refuses (firstOf readers) cs := by
  induction readers with
  | nil => rfl
  | cons r readers ih =>
    exact (h r List.mem_cons_self).orElse (ih fun other hother ↦ h other (.tail r hother))

theorem Reads.optional (h : Reads r own a rest) : Reads (optional r) own (some a) rest :=
  (h.map some).orElse_left

theorem Refuses.reads_optional (h : Refuses r rest) : Reads (Reader.optional r) [] none rest :=
  .orElse_right (h.map some) (reads_pure none rest)

end orElse

/-! ### As often as it goes -/

section many

variable {r : Reader α} {separator : Reader β} {own own' rest : List Char} {a : α} {as : List α}
  {b : β}

theorem reads_many_nil (h : Refuses r rest) : Reads (many r) [] [] rest := by
  rw [Reads, List.nil_append]
  cases rest with
  | nil =>
    rw [many]
    rfl
  | cons c cs =>
    rw [many, h]
    rfl

theorem reads_many_end : Reads (many r) [] [] [] := by
  rw [Reads, List.nil_append, many]
  rfl

theorem Reads.many_cons (h : Reads r own a (own' ++ rest)) (hown : own ≠ [])
    (h' : Reads (many r) own' as rest) : Reads (many r) (own ++ own') (a :: as) rest := by
  obtain - | ⟨c, cs⟩ := own
  · exact absurd rfl hown
  have htail : (cs ++ (own' ++ rest)).drop cs.length = own' ++ rest := List.drop_left
  rw [Reads, List.append_assoc]
  rw [Reads] at h h'
  rw [List.cons_append] at h ⊢
  rw [many, h]
  simp only [List.length_cons, htail, h', Option.map_some, List.length_append]

/-- A row of texts is read one by one, if each is read in front of what may follow it, and if so
may the texts themselves and the rest. -/
theorem Reads.many_flatMap {γ : Type} (write : γ → List Char) (value : γ → α)
    (follows : List Char → Prop) {things : List γ} (hown : ∀ thing ∈ things, write thing ≠ [])
    (hfollows : ∀ thing ∈ things, ∀ rest, follows (write thing ++ rest))
    (h : ∀ thing ∈ things, ∀ rest, follows rest → Reads r (write thing) (value thing) rest)
    (hrest : follows rest) (hend : Refuses r rest) :
    Reads (many r) (things.flatMap write) (things.map value) rest := by
  induction things with
  | nil => exact reads_many_nil hend
  | cons thing things ih =>
    have hnext : follows (things.flatMap write ++ rest) := by
      cases things with
      | nil => exact hrest
      | cons other things =>
        rw [List.flatMap_cons, List.append_assoc]
        exact hfollows other (.tail thing (.head things)) _
    have hfirst := h thing List.mem_cons_self _ hnext
    refine hfirst.many_cons (hown thing List.mem_cons_self) (ih ?_ ?_ ?_)
    · exact fun other hother ↦ hown other (.tail thing hother)
    · exact fun other hother ↦ hfollows other (.tail thing hother)
    · exact fun other hother ↦ h other (.tail thing hother)

theorem Reads.separated (h : Reads r own a (own' ++ rest))
    (h' : Reads (many (separator >>= fun _ ↦ r)) own' as rest) :
    Reads (separated r separator) (own ++ own') (a :: as) rest :=
  h.bind (h'.bind_nil (reads_pure _ _))

theorem Refuses.separated (h : Refuses r rest) : Refuses (separated r separator) rest := h.bind

theorem Reads.whole (h : Reads r own a []) : whole r own = some a := by
  rw [Reads, List.append_nil] at h
  rw [Reader.whole, h]
  exact if_pos (Nat.le_refl _)

end many

end PropertyFilter.Text.Reader
