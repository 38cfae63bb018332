/-
Blank characters, and text without the blanks around it.

* `blanks` — the 25 characters with the property White_Space.
* `trim_blank_append`, `trimEnd_append_blank` — blanks on either end do not matter.
* `trimStart_cons` — text that does not begin blank loses nothing in front.
-/
import PrimeListing.Text.CodePoints

namespace PrimeListing.Text

/-- The characters with the property White_Space. -/
def blanks : CodePoints :=
  [(0x9, 0xd), (0x20, 0x20), (0x85, 0x85), (0xa0, 0xa0), (0x1680, 0x1680), (0x2000, 0x200a),
    (0x2028, 0x2029), (0x202f, 0x202f), (0x205f, 0x205f), (0x3000, 0x3000)]

def isBlank (c : Char) : Bool := blanks.contains c

/-- The text from its first character that is not blank on. -/
def trimStart (cs : List Char) : List Char := cs.dropWhile isBlank

/-- The text up to its last character that is not blank. -/
def trimEnd (cs : List Char) : List Char := (trimStart cs.reverse).reverse

def trim (cs : List Char) : List Char := trimEnd (trimStart cs)

theorem trimStart_blank_append {bs : List Char} (hbs : ∀ c ∈ bs, isBlank c = true)
    (cs : List Char) : trimStart (bs ++ cs) = trimStart cs := by
  unfold trimStart
  rw [List.dropWhile_append_of_pos hbs]

/-- Text is trimmed to the same core whatever blanks stand in front of it. -/
theorem trim_blank_append {bs : List Char} (hbs : ∀ c ∈ bs, isBlank c = true) (cs : List Char) :
    trim (bs ++ cs) = trim cs := by
  rw [trim, trimStart_blank_append hbs, trim]

theorem trimEnd_append_blank {bs : List Char} (hbs : ∀ c ∈ bs, isBlank c = true)
    (cs : List Char) : trimEnd (cs ++ bs) = trimEnd cs := by
  unfold trimEnd
  rw [List.reverse_append, trimStart_blank_append]
  intro c hc
  exact hbs c (List.mem_reverse.mp hc)

/-- Text that does not begin blank has nothing to lose in front. -/
theorem trimStart_cons {c : Char} (hc : isBlank c = false) (cs : List Char) :
    trimStart (c :: cs) = c :: cs := by
  simp [trimStart, hc]

end PrimeListing.Text
