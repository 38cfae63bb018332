/-
Sets of characters as tables of code point ranges.

* `contains_append` — joining two tables joins their sets.
* `contains_eq_false_of_lt` — below the lowest range there is no member.
-/
namespace PrimeListing.Text

/-- A table of ranges, each given by its first and its last code point. -/
abbrev CodePoints := List (Nat × Nat)

/-- Whether a character lies in one of the ranges. -/
def CodePoints.contains (table : CodePoints) (c : Char) : Bool :=
  table.any fun r => r.1 ≤ c.toNat && c.toNat ≤ r.2

theorem CodePoints.contains_append (t u : CodePoints) (c : Char) :
    CodePoints.contains (t ++ u) c = (t.contains c || u.contains c) := by
  simp [CodePoints.contains]

/-- Below the lowest range there is no member. -/
theorem CodePoints.contains_eq_false_of_lt {table : CodePoints} {low : Nat}
    (hlow : ∀ r ∈ table, low ≤ r.1) {c : Char} (hc : c.toNat < low) :
    table.contains c = false := by
  rw [CodePoints.contains, List.any_eq_false]
  intro r hr
  have := hlow r hr
  simp only [Bool.and_eq_true, decide_eq_true_eq, not_and]
  omega

end PrimeListing.Text
