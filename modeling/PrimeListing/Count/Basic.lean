/-
Counts: how many primes are asked for.

A count is a 64-bit word.  A signed number makes a count unless it is
negative; the refusal keeps the text of what was refused.

* `ofInt64_eq_error_iff` — only negative numbers are refused.
* `eq_ascending_iff` — sorting is the one way to put counts in order: the result
  holds the same counts, as often, from the smallest to the largest.
-/
import PrimeListing.Numeral
import PrimeListing.Text.Labelled
import PrimeListing.Text.Quoted

namespace PrimeListing

/-- How many primes are asked for. -/
structure Count where
  val : UInt64
  deriving DecidableEq

/-- What cannot be taken for a count. -/
structure InvalidCount where
  input : String
  deriving DecidableEq

namespace InvalidCount

/-- The message for a refused text. -/
def message (e : InvalidCount) : String :=
  "invalid argument " ++ Text.quoted e.input ++ ": expected a non-negative integer count"

/-- The refused text under its name. -/
def fields (e : InvalidCount) : List (String × String) := [("input", Text.quoted e.input)]

def labelled (e : InvalidCount) : String := Text.record "InvalidArgument" e.fields

def labelledBlock (e : InvalidCount) : String := Text.recordBlock "InvalidArgument" e.fields

end InvalidCount

namespace Count

/-- The count when none is given. -/
def standard : Count := ⟨10⟩

instance : Inhabited Count := ⟨standard⟩

def text (n : Count) : String := decimal n.val.toNat

def labelled (n : Count) : String := Text.wrapped "Count" n.text

/-- The count of a signed number; a negative one is refused. -/
def ofInt64 (n : Int64) : Except InvalidCount Count :=
  if n < 0 then .error ⟨signedDecimal n.toInt⟩ else .ok ⟨n.toUInt64⟩

theorem ofInt64_eq_error_iff {n : Int64} {e : InvalidCount} :
    ofInt64 n = .error e ↔ n < 0 ∧ e = ⟨signedDecimal n.toInt⟩ := by
  unfold ofInt64
  by_cases h : n < 0
  · simp [h, eq_comm]
  · simp [h]

/-! ### Order -/

instance : LT Count := ⟨fun m n => m.val < n.val⟩

instance : LE Count := ⟨fun m n => m.val ≤ n.val⟩

instance (m n : Count) : Decidable (m < n) := inferInstanceAs (Decidable (m.val < n.val))

instance (m n : Count) : Decidable (m ≤ n) := inferInstanceAs (Decidable (m.val ≤ n.val))

instance : Ord Count := ⟨fun m n => compare m.val n.val⟩

instance : Max Count := maxOfLe

instance : Min Count := minOfLe

/-- Counts from the smallest to the largest. -/
def ascending (ns : List Count) : List Count := ns.mergeSort fun m n => m ≤ n

theorem ascending_perm (ns : List Count) : (ascending ns).Perm ns := List.mergeSort_perm ns _

theorem pairwise_ascending (ns : List Count) : (ascending ns).Pairwise (· ≤ ·) := by
  have h : (ascending ns).Pairwise fun m n => decide (m ≤ n) = true := by
    refine List.pairwise_mergeSort (fun a b c hab hbc => ?_) (fun a b => ?_) ns
    · simp only [decide_eq_true_eq] at hab hbc ⊢
      exact UInt64.le_trans hab hbc
    · simp only [Bool.or_eq_true, decide_eq_true_eq]
      exact UInt64.le_total a.val b.val
  exact h.imp fun hle => of_decide_eq_true hle

theorem eq_ascending_iff {ms ns : List Count} :
    ms = ascending ns ↔ ms.Perm ns ∧ ms.Pairwise (· ≤ ·) := by
  constructor
  · rintro rfl
    exact ⟨ascending_perm ns, pairwise_ascending ns⟩
  · rintro ⟨hperm, hordered⟩
    have hsame : ms.Perm (ascending ns) := hperm.trans (ascending_perm ns).symm
    refine hsame.eq_of_pairwise (fun m n _ _ hmn hnm => ?_) hordered (pairwise_ascending ns)
    have hval : m.val = n.val := UInt64.le_antisymm hmn hnm
    exact congrArg mk hval

end Count

end PrimeListing
