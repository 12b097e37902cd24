/-!
Decimal numerals. A number is written without needless zeros, and any run of digits has a value;
reading what was written gives the number back.
-/

set_option autoImplicit false

namespace PropertyFilter.Numeral

/-- The digit for a number below ten. -/
def digit (n : Nat) : Char := Char.ofNat ('0'.toNat + n)

/-- The decimal digits of a number in front of other characters. -/
def digitsOnto (n : Nat) (rest : List Char) : List Char :=
  if n < 10 then digit n :: rest else digitsOnto (n / 10) (digit (n % 10) :: rest)

/-- The decimal digits of a number, the most significant first. -/
def digits (n : Nat) : List Char := digitsOnto n []

/-- The value of a run of decimal digits, zero for an empty one. -/
def value (cs : List Char) : Nat :=
  cs.foldl (fun total c ↦ 10 * total + (c.toNat - '0'.toNat)) 0

/-- The number that a run of digits writes; no digits write none, and neither do other
characters. -/
def read? (cs : List Char) : Option Nat :=
  if !cs.isEmpty && cs.all Char.isDigit then some (value cs) else none

/-- A number as text. -/
def text (n : Nat) : String := String.ofList (digits n)

/-- An integer as text, with a sign only if it is negative. -/
def signedDigits (i : Int) : List Char :=
  if i < 0 then '-' :: digits i.natAbs else digits i.natAbs

def signedText (i : Int) : String := String.ofList (signedDigits i)

/-- A number as text, filled with zeros on the left to at least `width` digits. -/
def padded (width n : Nat) : List Char :=
  List.replicate (width - (digits n).length) '0' ++ digits n

theorem digitsOnto_eq (n : Nat) (rest : List Char) : digitsOnto n rest = digits n ++ rest := by
  induction n using Nat.strongRecOn generalizing rest with
  | _ n ih =>
    by_cases h : n < 10
    · unfold digits digitsOnto
      simp [h]
    · have small : n / 10 < n := by omega
      unfold digits digitsOnto
      simp only [if_neg h, ih (n / 10) small, List.append_assoc, List.singleton_append]

theorem digits_eq (n : Nat) :
    digits n = if n < 10 then [digit n] else digits (n / 10) ++ [digit (n % 10)] := by
  rw [digits, digitsOnto]
  split
  · rfl
  · exact digitsOnto_eq _ _

theorem toNat_digit (n : Nat) (h : n < 10) : (digit n).toNat = '0'.toNat + n := by
  have : ∀ m : Fin 10, (digit m).toNat = '0'.toNat + m.val := by decide
  exact this ⟨n, h⟩

theorem isDigit_digit (n : Nat) (h : n < 10) : (digit n).isDigit = true := by
  have : ∀ m : Fin 10, (digit m).isDigit = true := by decide
  exact this ⟨n, h⟩

theorem value_append (first second : List Char) :
    value (first ++ second) = second.foldl (fun total c ↦ 10 * total + (c.toNat - '0'.toNat))
      (value first) := by
  simp [value, List.foldl_append]

theorem value_concat (cs : List Char) (c : Char) :
    value (cs ++ [c]) = 10 * value cs + (c.toNat - '0'.toNat) := by
  simp [value_append]

theorem digits_ne_nil (n : Nat) : digits n ≠ [] := by
  rw [digits_eq]
  split <;> simp

theorem value_digits (n : Nat) : value (digits n) = n := by
  induction n using Nat.strongRecOn with
  | _ n ih =>
    rw [digits_eq]
    split
    · next h => simp [value, toNat_digit n h]
    · next h =>
      rw [value_concat, ih (n / 10) (by omega), toNat_digit _ (Nat.mod_lt _ (by omega))]
      omega

theorem isDigit_of_mem_digits (n : Nat) (c : Char) (h : c ∈ digits n) : c.isDigit = true := by
  induction n using Nat.strongRecOn with
  | _ n ih =>
    rw [digits_eq] at h
    split at h
    · next hn => simp at h; exact h ▸ isDigit_digit n hn
    · next hn =>
      rcases List.mem_append.1 h with h | h
      · exact ih (n / 10) (by omega) h
      · simp at h; exact h ▸ isDigit_digit _ (Nat.mod_lt _ (by omega))

end PropertyFilter.Numeral
