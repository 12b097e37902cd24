import PropertyFilter.Number.Binary64

/-!
Integers of any size as floating-point numbers. One that fits in a word of 64 bits is rounded as it
is. A wider one is rounded from its leading 64 bits, the last of which is set also for bits that are
left out: of every lower word those count that are no higher than the topmost word is wide. So the
result is the nearest number unless the bits that decide are all higher ones.
-/

set_option autoImplicit false

namespace PropertyFilter.Wide

/-- The width of a word. -/
def wordBits : Nat := 64

/-- The number of words below the topmost one. -/
def lowerWords (n : Nat) : Nat := n.log2 / wordBits

/-- The number of bits that the topmost word has. -/
def topBits (n : Nat) : Nat := n.log2 % wordBits + 1

/-- A word, counted from the lowest one. -/
def word (n index : Nat) : Nat := n >>> (wordBits * index) % Nat.pow 2 wordBits

/-- Whether a lower word has one of those bits set that count when they are left out. -/
def leavesOut (n : Nat) : Bool :=
  (List.range (lowerWords n)).any fun index ↦ word n index % Nat.pow 2 (topBits n) != 0

/-- The number of bits below the leading ones. -/
def lowerBits (n : Nat) : Nat := n.log2 + 1 - wordBits

/-- The leading bits, the last of them set if bits that count are left out. -/
def leading (n : Nat) : Nat :=
  let kept := n >>> lowerBits n
  if leavesOut n && kept % 2 == 0 then kept + 1 else kept

/-- The number that is rounded in place of `n`. -/
def jammed (n : Nat) : Nat := leading n <<< lowerBits n

theorem jammed_of_lt (n : Nat) (h : n < Nat.pow 2 wordBits) : jammed n = n := by
  have bits : n.log2 < wordBits := by
    by_cases hn : n = 0
    · subst hn
      decide
    · exact (Nat.log2_lt hn).2 h
  have lower : lowerBits n = 0 := by
    simp only [lowerBits]
    omega
  have words : lowerWords n = 0 := Nat.div_eq_of_lt bits
  have nothing : leavesOut n = false := by
    rw [leavesOut, words]
    rfl
  simp [jammed, leading, lower, nothing]

end PropertyFilter.Wide

namespace PropertyFilter.Binary64

/-- The floating-point number that an integer of any size is compared as. -/
def ofWide (i : Int) : Binary64 := ofQuotient (i < 0) (Wide.jammed i.natAbs) 1

theorem ofWide_of_lt (i : Int) (h : i.natAbs < Nat.pow 2 Wide.wordBits) : ofWide i = ofInt i := by
  rw [ofWide, ofInt, Wide.jammed_of_lt _ h]

end PropertyFilter.Binary64
