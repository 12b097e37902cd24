import PropertyFilter.Proofs.Calendar
import PropertyFilter.Proofs.DateTime
import PropertyFilter.Proofs.Number.RoundTrip

/-!
# Points in time read back

The text of a point in time says the fields of its local clock, each in a number of digits of its
own, and these fields are read from it (`DateTime.readLoose?_text_eq`). They name the point in time
again if the year has four digits, the clock is ahead by whole minutes and a leap second comes after
the fifty-ninth (`DateTime.ofFields?_fields`). Such a point in time is what its text is read as
(`DateTime.readLoose?_text`).
-/

set_option autoImplicit false

namespace PropertyFilter

namespace Numeral

/-! ### Digits of a fixed number -/

theorem length_digits_le {width n : Nat} (hwidth : 0 < width) (h : n < 10 ^ width) :
    (digits n).length ≤ width := by
  induction width generalizing n with
  | zero => exact absurd hwidth (Nat.lt_irrefl 0)
  | succ width ih =>
    rw [digits_eq]
    by_cases hn : n < 10
    · rw [if_pos hn]
      exact Nat.le_add_left 1 width
    · rw [if_neg hn, List.length_append]
      have hpositive : 0 < width := by
        rcases Nat.eq_zero_or_pos width with rfl | hpositive
        · omega
        · exact hpositive
      have hquotient : n / 10 < 10 ^ width := by
        rw [pow_succ] at h
        omega
      exact Nat.succ_le_succ (ih hpositive hquotient)

theorem length_padded {width n : Nat} (hwidth : 0 < width) (h : n < 10 ^ width) :
    (padded width n).length = width := by
  have hdigits := length_digits_le hwidth h
  rw [padded, List.length_append, List.length_replicate]
  omega

theorem value_padded (width n : Nat) : value (padded width n) = n := by
  rw [padded, value_zeros_append, value_digits]

theorem padded_ne_nil (width n : Nat) : padded width n ≠ [] := by
  simp [padded, digits_ne_nil]

/-- Digits end where another character stands. -/
theorem takeWhile_digits {ds rest : List Char} (hds : ∀ c ∈ ds, c.isDigit = true)
    (hrest : ∀ c ∈ rest.head?, c.isDigit = false) :
    (ds ++ rest).takeWhile Char.isDigit = ds ∧ (ds ++ rest).dropWhile Char.isDigit = rest := by
  rw [List.takeWhile_append_of_pos hds, List.dropWhile_append_of_pos hds]
  cases rest with
  | nil => simp
  | cons c cs =>
    have hc : c.isDigit = false := hrest c rfl
    simp [hc]

theorem takeWhile_padded {width n : Nat} {rest : List Char}
    (hrest : ∀ c ∈ rest.head?, c.isDigit = false) :
    (padded width n ++ rest).takeWhile Char.isDigit = padded width n ∧
      (padded width n ++ rest).dropWhile Char.isDigit = rest :=
  takeWhile_digits (fun _ ↦ isDigit_of_mem_padded) hrest

theorem exists_padded_cons (width n : Nat) :
    ∃ c cs, padded width n = c :: cs ∧ c.isDigit = true := by
  obtain ⟨c, cs, heq⟩ := List.exists_cons_of_ne_nil (padded_ne_nil width n)
  exact ⟨c, cs, heq, isDigit_of_mem_padded (heq ▸ List.mem_cons_self)⟩

end Numeral

namespace DateTime

open Numeral

/-! ### Fields -/

theorem trimLeft_padded (width n : Nat) (rest : List Char) :
    Text.trimLeft (padded width n ++ rest) = padded width n ++ rest := by
  obtain ⟨c, cs, heq, hc⟩ := exists_padded_cons width n
  rw [heq, List.cons_append, Text.trimLeft,
    List.dropWhile_cons_of_neg (by simp [Lexeme.Number.isBlank_eq_false_of_isDigit hc])]

/-- A number in its digits is read whatever follows that is no digit. -/
theorem number?_padded {width n : Nat} (hwidth : 0 < width) (hn : n < 10 ^ width)
    {rest : List Char} (hrest : ∀ c ∈ rest.head?, c.isDigit = false) :
    number? width (padded width n ++ rest) = some (n, rest) := by
  have hlength := length_padded hwidth hn
  have htake : (padded width n).take width = padded width n :=
    List.take_of_length_le (Nat.le_of_eq hlength)
  simp only [number?, trimLeft_padded, (takeWhile_padded hrest).1, htake,
    if_neg (padded_ne_nil width n), value_padded, hlength]
  rw [List.drop_left' hlength]

theorem year?_padded {n : Nat} (hn : n < 10000) {rest : List Char}
    (hrest : ∀ c ∈ rest.head?, c.isDigit = false) :
    year? (padded 4 n ++ rest) = some ((n : Int), rest) := by
  have hnumber := @number?_padded 4 n (by decide) (by simpa using hn) rest hrest
  obtain ⟨c, cs, heq, hc⟩ := exists_padded_cons 4 n
  have hminus : c ≠ '-' := Lexeme.ne_of_isDigit hc rfl
  have hplus : c ≠ '+' := Lexeme.ne_of_isDigit hc rfl
  rw [year?, trimLeft_padded]
  simp only [heq, List.cons_append] at hnumber ⊢
  split
  · next h => exact absurd (List.cons.inj h).1 hminus
  · next h => exact absurd (List.cons.inj h).1 hplus
  · rw [hnumber]
    rfl

theorem expectAfterBlanks_cons {c : Char} (hc : Text.isBlank c = false) (rest : List Char) :
    expectAfterBlanks c (c :: rest) = some rest := by
  rw [expectAfterBlanks, Text.trimLeft, List.dropWhile_cons_of_neg (by simp [hc]), expect,
    if_pos rfl]

theorem fraction?_padded {width n : Nat} (hwidth : 0 < width) (hwidth' : width ≤ 9)
    (hn : n < 10 ^ width) {rest : List Char} (hrest : ∀ c ∈ rest.head?, c.isDigit = false) :
    fraction? ('.' :: (padded width n ++ rest)) = some (n * 10 ^ (9 - width), rest) := by
  have hlength := length_padded hwidth hn
  have htake : (padded width n).take 9 = padded width n :=
    List.take_of_length_le (by rw [hlength]; exact hwidth')
  simp only [fraction?, takeWhile_padded hrest, if_neg (padded_ne_nil width n), htake,
    value_padded, hlength]
  rfl

/-- A fraction of a second is read from its text, be it empty. -/
theorem fraction?_fractionText {nanos : Nat} (hnanos : nanos < 1000000000) {rest : List Char}
    (hrest : ∀ c ∈ rest.head?, c.isDigit = false ∧ c ≠ '.') :
    fraction? (fractionText nanos ++ rest) = some (nanos, rest) := by
  have hdigit : ∀ c ∈ rest.head?, c.isDigit = false := fun c hc ↦ (hrest c hc).1
  unfold fractionText
  split
  · next hzero =>
    rw [hzero, List.nil_append]
    unfold fraction?
    split
    · next rest' => exact absurd rfl (hrest '.' rfl).2
    · rfl
  · split
    · next hmillis =>
      rw [List.cons_append, fraction?_padded (by decide) (by decide) (by omega) hdigit]
      congr 2
      omega
    · split
      · next hmicros =>
        rw [List.cons_append, fraction?_padded (by decide) (by decide) (by omega) hdigit]
        congr 2
        omega
      · rw [List.cons_append, fraction?_padded (by decide) (by decide) (by omega) hdigit]
        congr 2
        omega

/-! ### Offsets -/

theorem digits?_padded {width n : Nat} (hwidth : 0 < width) (hn : n < 10 ^ width)
    (rest : List Char) : digits? width (padded width n ++ rest) = some (n, rest) := by
  have hlength := length_padded hwidth hn
  have hdigits : (padded width n).all Char.isDigit = true :=
    List.all_eq_true.mpr fun _ ↦ isDigit_of_mem_padded
  rw [digits?, List.take_left' hlength, List.drop_left' hlength, hlength, hdigits, value_padded]
  simp

/-- What may stand between hours and minutes is passed over. -/
theorem dropWhile_colon (minutes : Nat) :
    (':' :: padded 2 minutes).dropWhile (fun c ↦ c == ':' || Text.isBlank c) =
      padded 2 minutes := by
  obtain ⟨c, cs, heq, hc⟩ := exists_padded_cons 2 minutes
  have hcolon : c ≠ ':' := Lexeme.ne_of_isDigit hc rfl
  have hblank := Lexeme.Number.isBlank_eq_false_of_isDigit hc
  rw [List.dropWhile_cons_of_pos (by decide), heq, List.dropWhile_cons_of_neg]
  simp [hcolon, hblank]

/-- Hours and minutes after a sign are an offset. -/
theorem looseOffset?_signed {sign : Char} (hsign : sign = '+' ∨ sign = '-') {hours minutes : Nat}
    (hhours : hours < 100) (hminutes : minutes < 60) :
    looseOffset? (sign :: (padded 2 hours ++ ':' :: padded 2 minutes)) =
      some (if sign = '+' then (hours * 3600 + minutes * 60 : Int)
        else -(hours * 3600 + minutes * 60 : Int), []) := by
  have hblank : Text.isBlank sign = false := by rcases hsign with rfl | rfl <;> decide
  have htrim (rest : List Char) : Text.trimLeft (sign :: rest) = sign :: rest := by
    rw [Text.trimLeft, List.dropWhile_cons_of_neg (by simp [hblank])]
  have hword (rest : List Char) :
      ((sign :: rest).take 3).map Char.toLower ≠ ['u', 't', 'c'] := by
    rcases hsign with rfl | rfl <;> simp
  have hread := @digits?_padded 2 hours (by decide) hhours (':' :: padded 2 minutes)
  have hlast := @digits?_padded 2 minutes (by decide) (by omega) []
  rw [List.append_nil] at hlast
  have hutc : ¬ (sign = 'Z' ∨ sign = 'z') := by rcases hsign with rfl | rfl <;> decide
  have hsigned : sign = '+' ∨ sign = '-' ∨ sign = '\u2212' := hsign.imp_right .inl
  simp only [looseOffset?, htrim, if_neg (hword _), offset?, if_neg hutc, if_pos hsigned, hread,
    Option.bind_eq_bind, Option.bind_some, dropWhile_colon, hlast, Nat.not_le_of_lt hminutes,
    if_false]
  rfl

/-- An offset in whole minutes is read from its text at the end of a text. -/
theorem looseOffset?_offsetText {offset : Int} (hlt : offset.natAbs < 86400)
    (hminutes : offset % 60 = 0) : looseOffset? (offsetText offset) = some (offset, []) := by
  unfold offsetText
  by_cases hzero : offset = 0
  · rw [if_pos hzero, hzero]
    decide
  · rw [if_neg hzero]
    generalize hminute : (offset.natAbs + 30) / 60 = minute
    have hhours : minute / 60 < 100 := by omega
    have hrest : minute % 60 < 60 := by omega
    by_cases hnegative : offset < 0
    · have hread := looseOffset?_signed (.inr rfl) hhours hrest
      simp only [hnegative, if_true, List.cons_append, hread]
      congr 2
      simp only [Char.reduceEq, if_false]
      omega
    · have hread := looseOffset?_signed (.inl rfl) hhours hrest
      simp only [hnegative, if_false, List.cons_append, hread]
      congr 2
      simp only [if_true]
      omega

/-! ### Whole texts -/

/-- What the text of a point in time says. -/
def fields (t : DateTime) : Fields :=
  let moment := t.seconds + t.offset
  let date := Date.ofDayNumber (moment / 86400)
  let clock := (moment % 86400).toNat
  let leap := if t.nanos < 1000000000 then 0 else 1
  ⟨date.year, date.month, date.day, clock / 3600, clock / 60 % 60, clock % 60 + leap,
    t.nanos - leap * 1000000000, t.offset⟩

/-- Fields in their digits, the year in four. -/
def Fields.text (f : Fields) : List Char :=
  padded 4 f.year.natAbs ++ '-' :: (padded 2 f.month ++ '-' :: (padded 2 f.day ++ 'T' ::
    (padded 2 f.hour ++ ':' :: (padded 2 f.minute ++ ':' :: (padded 2 f.second ++
      (fractionText f.nanos ++ offsetText f.offset))))))

theorem text_eq_text_fields {t : DateTime} (hyear : 0 ≤ t.localYear ∧ t.localYear ≤ 9999) :
    t.text = t.fields.text := by
  have htext : yearText t.fields.year = padded 4 t.fields.year.natAbs := if_pos hyear
  rw [Fields.text, ← htext]
  simp only [List.cons_append, List.append_assoc, text, fields]

/-- An offset begins with a sign or with the letter for none. -/
theorem head?_offsetText (offset : Int) :
    ∀ c ∈ (offsetText offset).head?, c.isDigit = false ∧ c ≠ '.' := by
  unfold offsetText
  intro c hc
  split at hc
  · cases hc
    decide
  · split at hc
    · cases hc
      decide
    · cases hc
      decide

theorem head?_fractionText (nanos : Nat) (offset : Int) :
    ∀ c ∈ (fractionText nanos ++ offsetText offset).head?, c.isDigit = false := by
  unfold fractionText
  intro c hc
  split at hc
  · exact (head?_offsetText offset c hc).1
  · repeat' split at hc
    all_goals
      cases hc
      decide

/-- A step that gives something is followed by the next one. -/
theorem bind_eq_of_eq_some {α β : Type} {step : Option α} {x : α} {next : α → Option β}
    {result : Option β} (h : step = some x) (hnext : next x = result) :
    (step >>= next) = result := by
  rw [h]
  exact hnext

/-- The numbers fit in the digits that a date and a time have for them. -/
structure Fields.Fit (f : Fields) : Prop where
  year : 0 ≤ f.year ∧ f.year ≤ 9999
  month : f.month < 100
  day : f.day < 100
  hour : f.hour < 100
  minute : f.minute < 100
  second : f.second < 100

/-- Fields that fit in their digits are read from their text. -/
theorem readLoose?_text_fields {f : Fields} (hf : f.Fit) (hnanos : f.nanos < 1000000000)
    (hoffset : f.offset.natAbs < 86400) (hminutes : f.offset % 60 = 0) :
    readLoose? f.text = ofFields? f := by
  have hnext (c : Char) (hc : c.isDigit = false) (rest : List Char) :
      ∀ d ∈ (c :: rest).head?, d.isDigit = false := by simpa using hc
  have hfield (n : Nat) (hn : n < 100) (c : Char) (hc : c.isDigit = false) (rest : List Char) :
      number? 2 (padded 2 n ++ c :: rest) = some (n, c :: rest) :=
    number?_padded (by decide) hn (hnext c hc rest)
  have hyearField (rest : List Char) : year? (padded 4 f.year.natAbs ++ '-' :: rest) =
      some (f.year, '-' :: rest) := by
    have hyear := hf.year
    have hsame : (f.year.natAbs : Int) = f.year := by omega
    rw [year?_padded (by omega) (hnext '-' (by decide) rest), hsame]
  have hhyphen := @expectAfterBlanks_cons '-' (by decide)
  have hcolon := @expectAfterBlanks_cons ':' (by decide)
  have hdate (rest : List Char) : dateEnd ('T' :: rest) = some rest := rfl
  have hlast : number? 2 (padded 2 f.second ++ (fractionText f.nanos ++ offsetText f.offset)) =
      some (f.second, fractionText f.nanos ++ offsetText f.offset) :=
    number?_padded (by decide) hf.second (head?_fractionText f.nanos f.offset)
  have hfraction := fraction?_fractionText hnanos (head?_offsetText f.offset)
  -- one step for each line of what reads, since to rewrite under all the later ones is slow
  refine bind_eq_of_eq_some (hyearField _) ?_
  refine bind_eq_of_eq_some (hhyphen _) ?_
  refine bind_eq_of_eq_some (hfield _ hf.month _ (by decide) _) ?_
  refine bind_eq_of_eq_some (hhyphen _) ?_
  refine bind_eq_of_eq_some (hfield _ hf.day _ (by decide) _) ?_
  refine bind_eq_of_eq_some (hdate _) ?_
  refine bind_eq_of_eq_some (hfield _ hf.hour _ (by decide) _) ?_
  refine bind_eq_of_eq_some (hcolon _) ?_
  refine bind_eq_of_eq_some (hfield _ hf.minute _ (by decide) _) ?_
  refine bind_eq_of_eq_some (hcolon _) ?_
  refine bind_eq_of_eq_some hlast ?_
  refine bind_eq_of_eq_some hfraction ?_
  exact bind_eq_of_eq_some (looseOffset?_offsetText hoffset hminutes) rfl

/-! ### Points in time -/

/-- The points in time that a text says in full: the year has four digits, the local clock is ahead
by whole minutes, and a leap second comes after the fifty-ninth. -/
structure IsRegular (t : DateTime) : Prop where
  year : 0 ≤ t.localYear ∧ t.localYear ≤ 9999
  minutes : t.offset % 60 = 0
  leap : 1000000000 ≤ t.nanos → t.seconds % 60 = 59

/-- The year of a day next to one of a year with four digits can be held. -/
theorem yearInRange_ofDayNumber {number next : Int}
    (hyear : 0 ≤ (Date.ofDayNumber number).year ∧ (Date.ofDayNumber number).year ≤ 9999)
    (hnext : next - number ≤ 1 ∧ number - next ≤ 1) :
    yearInRange (Date.ofDayNumber next).year = true := by
  obtain ⟨hlow, hhigh⟩ := Calendar.yearOfDay_spec (number + Calendar.epochDay)
  obtain ⟨hlow', hhigh'⟩ := Calendar.yearOfDay_spec (next + Calendar.epochDay)
  have heq (day : Int) :
      (Date.ofDayNumber day).year = Calendar.yearOfDay (day + Calendar.epochDay) := rfl
  rw [heq] at hyear ⊢
  generalize Calendar.yearOfDay (number + Calendar.epochDay) = year at *
  generalize Calendar.yearOfDay (next + Calendar.epochDay) = year' at *
  simp only [yearInRange, Bool.and_eq_true, decide_eq_true_eq]
  unfold Calendar.daysBeforeYear at *
  omega

/-- The second and the nanoseconds that are read, a leap second being the second before it. -/
theorem second_of_fields {t : DateTime} (ht : t.IsRegular) :
    min t.fields.second 59 = ((t.seconds + t.offset) % 86400).toNat % 60 ∧ t.fields.second ≤ 60 ∧
      (if t.fields.second = 60 then t.fields.nanos + 1000000000 else t.fields.nanos) = t.nanos := by
  have hminutes := ht.minutes
  have hleap := ht.leap
  simp only [fields]
  by_cases hnanos : t.nanos < 1000000000
  · simp only [if_pos hnanos]
    refine ⟨by omega, by omega, ?_⟩
    rw [if_neg (by omega)]
    omega
  · have hsecond := hleap (by omega)
    simp only [if_neg hnanos]
    refine ⟨by omega, by omega, ?_⟩
    rw [if_pos (by omega)]
    omega

/-- The fields of a regular point in time name it. -/
theorem ofFields?_fields {t : DateTime} (ht : t.IsRegular) : ofFields? t.fields = some t := by
  obtain ⟨hsecond, hatMost, hnanos⟩ := second_of_fields ht
  have hvalid := Date.isValid_ofDayNumber ((t.seconds + t.offset) / 86400)
  have hday := Date.toDayNumber_ofDayNumber ((t.seconds + t.offset) / 86400)
  have hyear : yearInRange t.fields.year = true :=
    yearInRange_ofDayNumber ht.year ⟨by omega, by omega⟩
  have hoffset := t.offset_lt
  have hutc : yearInRange (Date.ofDayNumber (t.seconds / 86400)).year = true :=
    yearInRange_ofDayNumber ht.year ⟨by omega, by omega⟩
  have hhour : t.fields.hour < 24 := by
    simp only [fields]
    omega
  have hminute : t.fields.minute < 60 := Nat.mod_lt _ (by decide)
  have hmoment : (Date.toDayNumber ⟨t.fields.year, t.fields.month, t.fields.day⟩ * 86400 +
      t.fields.hour * 3600 + t.fields.minute * 60 + (min t.fields.second 59 : Nat) -
        t.fields.offset) = t.seconds := by
    rw [hsecond]
    simp only [fields, hday]
    omega
  have hvalid' : Date.isValid ⟨t.fields.year, t.fields.month, t.fields.day⟩ = true := hvalid
  simp only [ofFields?, hyear, hvalid', hhour, hminute, hatMost, hmoment, hutc, hnanos]
  rw [dif_pos ⟨t.nanos_lt, t.offset_lt⟩]
  rfl

theorem fit_fields {t : DateTime} (ht : t.IsRegular) : t.fields.Fit := by
  obtain ⟨hmonth, hday⟩ := Date.ofDayNumber_bounds ((t.seconds + t.offset) / 86400)
  obtain ⟨-, hatMost, -⟩ := second_of_fields ht
  refine ⟨ht.year, ?_, ?_, ?_, ?_, by omega⟩
  · show (Date.ofDayNumber ((t.seconds + t.offset) / 86400)).month < 100
    omega
  · show (Date.ofDayNumber ((t.seconds + t.offset) / 86400)).day < 100
    omega
  · simp only [fields]
    omega
  · simp only [fields]
    omega

theorem nanos_fields_lt (t : DateTime) : t.fields.nanos < 1000000000 := by
  have hnanos := t.nanos_lt
  simp only [fields]
  split <;> omega

/-- What the text of a regular point in time says, read field by field. -/
theorem readLoose?_text_eq {t : DateTime} (ht : t.IsRegular) :
    readLoose? t.text = ofFields? t.fields := by
  rw [text_eq_text_fields ht.year]
  exact readLoose?_text_fields (fit_fields ht) t.nanos_fields_lt t.offset_lt ht.minutes

/-- A regular point in time is what its text is read as, offset and nanoseconds included. -/
theorem readLoose?_text {t : DateTime} (ht : t.IsRegular) : readLoose? t.text = some t := by
  rw [readLoose?_text_eq ht, ofFields?_fields ht]

end DateTime

end PropertyFilter
