/-!
How similar two words are, after Jaro and Winkler: the share of characters that the words have in
common near the same places, with a bonus for a common beginning. Characters are in common if they
are equal and their places differ by less than half of the longer word; each is paired once, with
the first partner that is free.
-/

set_option autoImplicit false

namespace PropertyFilter.Text

/-- The place of the first character equal to `c` that is not `taken`, from the place `first` up to
but not including `last`, in a text whose own first character has the place `place`. -/
def freePartner? (c : Char) (taken : List Nat) (first last : Nat) : (place : Nat) → List Char →
    Option Nat
  | _, [] => none
  | place, d :: rest =>
    if first ≤ place && place < last && c == d && !taken.contains place then some place
    else freePartner? c taken first last (place + 1) rest

/-- The characters of a text, the first of them at `place`, that have a partner in `other`, and the
places of their partners besides those already `taken`. -/
def pairOff (range : Nat) (other : List Char) : (place : Nat) → (taken : List Nat) → List Char →
    List Char × List Nat
  | _, taken, [] => ([], taken)
  | place, taken, c :: rest =>
    match freePartner? c taken (place - range) (place + range + 1) 0 other with
    | some partner =>
      let (paired, taken) := pairOff range other (place + 1) (partner :: taken) rest
      (c :: paired, taken)
    | none => pairOff range other (place + 1) taken rest

/-- The characters at the given places of a text, in the order of the text. -/
def atPlaces (places : List Nat) : (place : Nat) → List Char → List Char
  | _, [] => []
  | place, c :: rest =>
    if places.contains place then c :: atPlaces places (place + 1) rest
    else atPlaces places (place + 1) rest

/-- The similarity without the bonus. -/
def jaro (a b : List Char) : Float :=
  if a.isEmpty && b.isEmpty then 1
  else
    let range := max a.length b.length / 2 - 1
    let (paired, places) := pairOff range b 0 [] a
    let partners := atPlaces places 0 b
    let transposed := (List.zip paired partners).countP fun (c, d) ↦ c != d
    let common := paired.length
    if common = 0 then 0
    else
      (Float.ofNat common / Float.ofNat a.length + Float.ofNat common / Float.ofNat b.length +
        Float.ofNat (common - transposed / 2) / Float.ofNat common) / 3

/-- The number of characters that two texts begin with in common. -/
def commonStart : List Char → List Char → Nat
  | c :: cs, d :: ds => if c = d then commonStart cs ds + 1 else 0
  | _, _ => 0

/-- The similarity of two words. The bonus is for at most four characters, and for words that are
similar anyhow. -/
def similarity (a b : List Char) : Float :=
  let score := jaro a b
  if score > 0.7 then
    score + 0.1 * Float.ofNat (commonStart (a.take 4) b) * (1 - score)
  else score

end PropertyFilter.Text
