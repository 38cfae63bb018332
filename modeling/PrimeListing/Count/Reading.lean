/-
Reading a count from text.

Blanks on either end are dropped.  What is left must be decimal digits, with
at most one plus sign in front, whose value fits into a 64-bit word; leading
zeros do not matter.  A refusal keeps the text as it was given.

* `read_eq_ok_iff` — what is read, in terms of the trimmed text.
* `read_eq_error_iff` — a refusal always holds the whole text.
-/
import PrimeListing.Count.Basic
import PrimeListing.Text.Blank

namespace PrimeListing.Count

/-- A text without the plus sign it may begin with. -/
def dropPlus : List Char → List Char
  | [] => []
  | c :: rest => if c = '+' then rest else c :: rest

/-- The natural number that a trimmed text stands for. -/
def number? (cs : List Char) : Option Nat := Base.decimal.read? (dropPlus cs)

def read (s : String) : Except InvalidCount Count :=
  match number? (Text.trim s.toList) with
  | none => .error ⟨s⟩
  | some n => if n < UInt64.size then .ok ⟨UInt64.ofNat n⟩ else .error ⟨s⟩

/-- A text is read as a count exactly if it stands for a number that fits. -/
theorem read_eq_ok_iff {s : String} {c : Count} :
    read s = .ok c ↔ number? (Text.trim s.toList) = some c.val.toNat := by
  unfold read
  cases hn : number? (Text.trim s.toList) with
  | none => simp
  | some n =>
    by_cases hlt : n < UInt64.size
    · simp only [hlt, if_true, Except.ok.injEq, Option.some.injEq]
      constructor
      · rintro rfl
        exact (UInt64.toNat_ofNat_of_lt' hlt).symm
      · rintro rfl
        simp
    · simp only [hlt, if_false, reduceCtorEq, Option.some.injEq, false_iff]
      rintro rfl
      exact hlt c.val.toNat_lt

theorem read_eq_error_iff {s : String} {e : InvalidCount} :
    read s = .error e ↔ (∀ c, read s ≠ .ok c) ∧ e = ⟨s⟩ := by
  unfold read
  split
  · simp [eq_comm]
  · split <;> simp [eq_comm]

/-- Two outcomes are equal if they hold the same count, or refuse the same text. -/
instance : DecidableEq (Except InvalidCount Count)
  | .ok m, .ok n => decidable_of_iff (m = n) (by simp)
  | .error d, .error e => decidable_of_iff (d = e) (by simp)
  | .ok _, .error _ => isFalse nofun
  | .error _, .ok _ => isFalse nofun

/-- The outcome of reading as labelled text. -/
def labelledOutcome : Except InvalidCount Count → String
  | .ok n => Text.wrapped "Ok" n.labelled
  | .error e => Text.wrapped "Err" e.labelled

end PrimeListing.Count
