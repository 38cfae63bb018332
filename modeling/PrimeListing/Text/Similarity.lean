/-
Similarity of two texts after Jaro.

Two characters match if they are equal and stand at nearby places; each place
is matched once, and a character takes the first place that is free.  The
similarity is the mean of three shares: how much of either text is matched,
and how many of the matches stand in the same order in both.
-/
namespace PrimeListing.Text

/-- How far apart two places may be and still match. -/
def reach (m n : Nat) : Nat := max m n / 2 - 1

/-- The first free place of `other` within reach of place `i` that holds `c`. -/
def partner? (other : List Char) (reach : Nat) (taken : List Nat) (i : Nat) (c : Char) :
    Option Nat :=
  (List.range other.length).find? fun j =>
    i ≤ j + reach && j ≤ i + reach && other[j]? == some c && !taken.contains j

/-- The characters from place `i` on that find a partner, each with its partner's place. -/
def matchesFrom (other : List Char) (reach : Nat) (taken : List Nat) (i : Nat) :
    List Char → List (Char × Nat)
  | [] => []
  | c :: rest =>
    match partner? other reach taken i c with
    | some j => (c, j) :: matchesFrom other reach (j :: taken) (i + 1) rest
    | none => matchesFrom other reach taken (i + 1) rest

/-- The characters of a text that find a partner in another, each with its partner's place. -/
def matchesIn (cs other : List Char) : List (Char × Nat) :=
  matchesFrom other (reach cs.length other.length) [] 0 cs

/-- How many matches stand at a place where the other text has a different matched character. -/
def displaced (found : List (Char × Nat)) (other : List Char) : Nat :=
  let partners := other.zipIdx.filter fun p => (found.map (·.2)).contains p.2
  ((found.map (·.1)).zip (partners.map (·.1))).countP fun p => p.1 != p.2

/-- The similarity of two texts, from zero for nothing in common to one for equal texts. -/
def similarity (cs other : List Char) : Float :=
  let found := matchesIn cs other
  if cs.isEmpty && other.isEmpty then 1
  else if found.isEmpty then 0
  else
    let share (part whole : Nat) : Float := Float.ofNat part / Float.ofNat whole
    let inOrder := found.length - displaced found other / 2
    (share found.length cs.length + share found.length other.length
      + share inOrder found.length) / 3

end PrimeListing.Text
