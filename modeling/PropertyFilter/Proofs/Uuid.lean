import Mathlib.Algebra.Ring.Nat
import PropertyFilter.Uuid

/-!
# Identifiers and their text

The text of an identifier has the shape of one (`Uuid.shaped_text`) and is read as the identifier
(`Uuid.read?_text`). Of the texts with that shape those are read that `IsHyphenated` describes,
digits in groups, and each of them as the bytes of its digits (`Uuid.read?_eq_some_iff`).
-/

set_option autoImplicit false

namespace PropertyFilter.Uuid

open Text

/-! ### Groups -/

theorem unhyphenate_hyphenate {sizes : List Nat} (hsizes : sizes ≠ []) {ds : List Char}
    (hlength : ds.length = sizes.sum) :
    unhyphenate sizes (hyphenate sizes ds) = some ds := by
  fun_induction hyphenate sizes ds with
  | case1 => exact absurd rfl hsizes
  | case2 size ds =>
    have htake : ds.take size = ds := List.take_of_length_le (by simp [hlength])
    simp [unhyphenate, htake, hlength]
  | case3 size sizes ds hne ih =>
    have hsum : ds.length = size + sizes.sum := by simpa using hlength
    have hdrop : (ds.take size ++ '-' :: hyphenate sizes (ds.drop size)).drop size =
        '-' :: hyphenate sizes (ds.drop size) :=
      List.drop_left' (by rw [List.length_take]; omega)
    have htake : (ds.take size ++ '-' :: hyphenate sizes (ds.drop size)).take size =
        ds.take size := List.take_left' (by rw [List.length_take]; omega)
    have hrest := ih (by simpa using hne) (by rw [List.length_drop]; omega)
    rw [unhyphenate]
    · simp [hdrop, htake, hrest]
    · simpa using hne

theorem length_hyphenate {sizes : List Nat} (hsizes : sizes ≠ []) {ds : List Char}
    (hlength : ds.length = sizes.sum) :
    (hyphenate sizes ds).length + 1 = ds.length + sizes.length := by
  fun_induction hyphenate sizes ds with
  | case1 => exact absurd rfl hsizes
  | case2 size ds => simp [hlength]
  | case3 size sizes ds hne ih =>
    have hsum : ds.length = size + sizes.sum := by simpa using hlength
    have hrest := ih (by simpa using hne) (by rw [List.length_drop]; omega)
    rw [List.length_drop] at hrest
    simp only [List.length_append, List.length_take, List.length_cons]
    omega

theorem mem_of_mem_hyphenate {sizes : List Nat} {ds : List Char} {c : Char}
    (h : c ∈ hyphenate sizes ds) : c = '-' ∨ c ∈ ds := by
  fun_induction hyphenate sizes ds with
  | case1 => cases h
  | case2 size ds => exact .inr (List.mem_of_mem_take h)
  | case3 size sizes ds hne ih =>
    rw [List.mem_append, List.mem_cons] at h
    rcases h with h | h | h
    · exact .inr (List.mem_of_mem_take h)
    · exact .inl h
    · exact (ih h).imp_right List.mem_of_mem_drop

/-! ### Bytes -/

/-- The digits of bytes, two for each. -/
def digits (bytes : List UInt8) : List Char :=
  bytes.flatMap fun byte ↦ hexDigits .lower 2 byte.toNat

theorem digits_cons (byte : UInt8) (bytes : List UInt8) :
    digits (byte :: bytes) =
      hexDigit .lower (byte.toNat / 16) :: hexDigit .lower (byte.toNat % 16) :: digits bytes := by
  have hbyte := byte.toNat_lt
  have hhigh : byte.toNat / 16 % 16 = byte.toNat / 16 := Nat.mod_eq_of_lt (by omega)
  simp [digits, hexDigits, hhigh]

theorem length_digits (bytes : List UInt8) : (digits bytes).length = 2 * bytes.length := by
  induction bytes with
  | nil => rfl
  | cons byte bytes ih =>
    rw [digits_cons]
    simp only [List.length_cons, ih]
    omega

theorem isHexDigit_hexDigit (letters : LetterCase) {n : Nat} (h : n < 16) :
    isHexDigit (hexDigit letters n) = true := by
  rw [isHexDigit, hexValue?_hexDigit letters n h]
  rfl

theorem isHexDigit_of_mem_digits {bytes : List UInt8} {c : Char} (h : c ∈ digits bytes) :
    isHexDigit c = true := by
  induction bytes with
  | nil => cases h
  | cons byte bytes ih =>
    have hbyte := byte.toNat_lt
    rw [digits_cons, List.mem_cons, List.mem_cons] at h
    rcases h with rfl | rfl | h
    · exact isHexDigit_hexDigit .lower (by omega)
    · exact isHexDigit_hexDigit .lower (by omega)
    · exact ih h

theorem bytesOfDigits_digits (bytes : List UInt8) : bytesOfDigits (digits bytes) = some bytes := by
  induction bytes with
  | nil => rfl
  | cons byte bytes ih =>
    have hbyte := byte.toNat_lt
    have hsum : UInt8.ofNat (16 * (byte.toNat / 16) + byte.toNat % 16) = byte := by
      rw [Nat.div_add_mod, UInt8.ofNat_toNat]
    rw [digits_cons, bytesOfDigits, hexValue?_hexDigit _ _ (show byte.toNat / 16 < 16 by omega),
      hexValue?_hexDigit _ _ (show byte.toNat % 16 < 16 by omega), ih]
    exact congrArg some (congrArg (· :: bytes) hsum)

/-! ### Texts -/

variable (u : Uuid)

theorem length_digits_bytes : (digits u.bytes).length = groups.sum := by
  rw [length_digits, u.length_bytes]
  rfl

theorem length_text : u.text.length = 36 := by
  have hlength : (hyphenate groups (digits u.bytes)).length + 1 = (digits u.bytes).length + 5 :=
    length_hyphenate (by decide) u.length_digits_bytes
  rw [length_digits, u.length_bytes] at hlength
  exact Nat.succ.inj hlength

theorem isHexDigit_or_eq_of_mem_text {u : Uuid} {c : Char} (h : c ∈ u.text) :
    isHexDigit c = true ∨ c = '-' := by
  rcases mem_of_mem_hyphenate h with rfl | hmem
  · exact .inr rfl
  · exact .inl (isHexDigit_of_mem_digits hmem)

/-- The text of an identifier has the shape of one. -/
theorem shaped_text : shaped u.text = true := by
  rw [shaped, length_text, List.all_eq_true.mpr]
  · rfl
  · intro c hc
    simpa using isHexDigit_or_eq_of_mem_text hc

/-- The text of an identifier is read as the identifier. -/
theorem read?_text : read? u.text = some u := by
  have hunhyphenate : unhyphenate groups u.text = some (digits u.bytes) :=
    unhyphenate_hyphenate (by decide) u.length_digits_bytes
  have hofDigits : ofDigits? (digits u.bytes) = some u := by
    simp [ofDigits?, bytesOfDigits_digits, u.length_bytes]
  rw [read?, length_text, if_neg (by decide), if_pos rfl, ofHyphenated?, hunhyphenate]
  exact hofDigits

/-- Identifiers with one text are one. -/
theorem text_injective : Function.Injective text := by
  intro u v h
  have hread : some u = some v := by rw [← read?_text u, h, read?_text v]
  exact Option.some.inj hread

/-! ### Texts that are read -/

/-- Digits in groups, whatever the case of their letters. -/
structure IsHyphenated (cs ds : List Char) : Prop where
  length : ds.length = 32
  digits : ∀ c ∈ ds, isHexDigit c = true
  groups : cs = hyphenate groups ds

theorem hyphenate_of_unhyphenate {sizes : List Nat} {cs ds : List Char}
    (h : unhyphenate sizes cs = some ds) : cs = hyphenate sizes ds ∧ ds.length = sizes.sum := by
  fun_induction unhyphenate sizes cs generalizing ds with
  | case1 => cases h
  | case2 cs =>
    cases h
    exact ⟨(List.take_of_length_le (Nat.le_refl _)).symm, by simp⟩
  | case3 => cases h
  | case4 size sizes cs hne rest hdrop ih =>
    obtain ⟨others, hothers, rfl⟩ := Option.map_eq_some_iff.mp h
    obtain ⟨rfl, hlength⟩ := ih hothers
    have htake : (cs.take size).length = size := by
      have hpositive := congrArg List.length hdrop
      rw [List.length_drop, List.length_cons] at hpositive
      rw [List.length_take]
      omega
    constructor
    · rw [hyphenate, List.take_left' htake, List.drop_left' htake, ← hdrop, List.take_append_drop]
      exact hne
    · rw [List.length_append, htake, hlength, List.sum_cons]
  | case5 => cases h

/-- An even number of hexadecimal digits stands for half as many bytes. -/
theorem exists_bytesOfDigits {count : Nat} {ds : List Char} (hlength : ds.length = 2 * count)
    (hds : ∀ c ∈ ds, isHexDigit c = true) :
    ∃ bytes, bytesOfDigits ds = some bytes ∧ bytes.length = count := by
  induction count generalizing ds with
  | zero =>
    obtain rfl := List.length_eq_zero_iff.mp hlength
    exact ⟨[], rfl, rfl⟩
  | succ count ih =>
    obtain _ | ⟨high, _ | ⟨low, ds⟩⟩ := ds
    · cases hlength
    · simp at hlength
      omega
    · obtain ⟨hhigh, hlow, hrest⟩ : isHexDigit high = true ∧ isHexDigit low = true ∧
          ∀ c ∈ ds, isHexDigit c = true := by
        simpa using hds
      obtain ⟨h, hh⟩ := Option.isSome_iff_exists.mp hhigh
      obtain ⟨l, hl⟩ := Option.isSome_iff_exists.mp hlow
      obtain ⟨bytes, hbytes, rfl⟩ := ih (by simp at hlength; omega) hrest
      exact ⟨UInt8.ofNat (16 * h + l) :: bytes, by simp [bytesOfDigits, hh, hl, hbytes], rfl⟩

theorem isHexDigit_of_bytesOfDigits {ds : List Char} {bytes : List UInt8}
    (h : bytesOfDigits ds = some bytes) : ∀ c ∈ ds, isHexDigit c = true := by
  fun_induction bytesOfDigits ds generalizing bytes with
  | case1 => simp
  | case2 high low rest ih =>
    simp only [bind, Option.bind_eq_some_iff, pure] at h
    obtain ⟨high', hhigh, low', hlow, others, hothers, -⟩ := h
    simp only [List.forall_mem_cons, isHexDigit, hhigh, hlow, Option.isSome_some, true_and]
    exact ih hothers
  | case3 => cases h

theorem ofDigits?_eq_some_iff {ds : List Char} :
    ofDigits? ds = some u ↔ bytesOfDigits ds = some u.bytes := by
  unfold ofDigits?
  split
  · next bytes hbytes =>
    split
    · rw [hbytes, Option.some.injEq, Option.some.injEq]
      exact ⟨fun h ↦ h ▸ rfl, fun h ↦ by cases u; cases h; rfl⟩
    · next hlength =>
      rw [hbytes, Option.some.injEq]
      exact ⟨nofun, fun h ↦ absurd (h ▸ u.length_bytes) hlength⟩
  · next hnone => simp [hnone]

/-- Of the texts with the shape of an identifier, those in its groups are read. -/
theorem read?_eq_some_iff {cs : List Char} (hshaped : shaped cs = true) :
    read? cs = some u ↔ ∃ ds, IsHyphenated cs ds ∧ bytesOfDigits ds = some u.bytes := by
  have hlength : cs.length = 36 := by
    rw [shaped, Bool.and_eq_true, beq_iff_eq] at hshaped
    exact hshaped.1
  have hread : read? cs = (unhyphenate Uuid.groups cs).bind ofDigits? := by
    rw [read?, hlength, if_neg (by decide), if_pos rfl, ofHyphenated?]
  rw [hread, Option.bind_eq_some_iff]
  constructor
  · rintro ⟨ds, hds, hbytes⟩
    obtain ⟨hcs, hsum⟩ := hyphenate_of_unhyphenate hds
    have hbytes : bytesOfDigits ds = some u.bytes := (ofDigits?_eq_some_iff u).mp hbytes
    exact ⟨ds, ⟨hsum, isHexDigit_of_bytesOfDigits hbytes, hcs⟩, hbytes⟩
  · rintro ⟨ds, ⟨hsum, -, rfl⟩, hbytes⟩
    exact ⟨ds, unhyphenate_hyphenate (by decide) hsum, (ofDigits?_eq_some_iff u).mpr hbytes⟩

namespace IsHyphenated

variable {cs ds : List Char}

theorem shaped (h : IsHyphenated cs ds) : Uuid.shaped cs = true := by
  obtain ⟨hlength, hdigits, rfl⟩ := h
  have hsize : (hyphenate Uuid.groups ds).length + 1 = ds.length + 5 :=
    length_hyphenate (by decide) hlength
  rw [Uuid.shaped, Bool.and_eq_true, beq_iff_eq, List.all_eq_true]
  refine ⟨by omega, fun c hc ↦ ?_⟩
  rw [Bool.or_eq_true, beq_iff_eq]
  exact (mem_of_mem_hyphenate hc).symm.imp_left (hdigits c)

/-- Digits in groups are read as some identifier. -/
theorem exists_read? (h : IsHyphenated cs ds) : ∃ u, read? cs = some u := by
  have hsize : ds.length = 2 * 16 := h.length
  obtain ⟨bytes, hbytes, hlength⟩ := exists_bytesOfDigits hsize h.digits
  exact ⟨⟨bytes, hlength⟩, (read?_eq_some_iff _ h.shaped).mpr ⟨ds, h, hbytes⟩⟩

end IsHyphenated

end PropertyFilter.Uuid
