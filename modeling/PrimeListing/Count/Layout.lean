/-
Layouts: how a count is fitted into a column of text.

A layout says how wide the text shall be at least and where it stands in that
width, whether a plus sign or the mark of the base goes in front, and whether
the number is shown alone or under the label of a count.  Under the label the
layout applies to the number alone.  Zeros that fill the width go behind the
sign and the mark, and then the alignment does not matter.

A layout is written as a short text, `[[fill]align][+][#][0][width][.precision][form]`.

* `length_numeral` — a numeral is as long as the width asks for, or as its
  sign, mark and digits need.
-/
import PrimeListing.Count.Basic

namespace PrimeListing.Count

/-- Where a text stands in a wider column. -/
inductive Alignment
  | left
  | centre
  | right
  deriving DecidableEq

/-- What is shown of a count. -/
inductive Form
  | plain
  /-- The number in some base, under the label of a count. -/
  | labelled (base : Base)
  deriving DecidableEq

/-- How a count is laid out. -/
structure Layout where
  /-- What fills the column beside the text. -/
  fill : Char
  alignment : Alignment
  plus : Bool
  /-- Whether the number bears the mark of its base, and a labelled count takes its block form. -/
  marked : Bool
  zeros : Bool
  /-- The least length of the number with all that goes with it. -/
  width : Nat
  form : Form
  deriving DecidableEq

namespace Layout

def base (l : Layout) : Base :=
  match l.form with
  | .plain => .decimal
  | .labelled b => b

/-- What goes in front of the digits. -/
def lead (l : Layout) : List Char :=
  (if l.plus then ['+'] else []) ++ (if l.marked then l.base.mark else [])

/-- The number with its sign and mark, before it is fitted into the width. -/
def bare (l : Layout) (n : Nat) : List Char := l.lead ++ l.base.digits n

/-- How many characters the number lacks to fill the width. -/
def missing (l : Layout) (n : Nat) : Nat := l.width - (l.bare n).length

/-- How many of the missing characters go to the left. -/
def leftShare (l : Layout) (missing : Nat) : Nat :=
  match l.alignment with
  | .left => 0
  | .centre => missing / 2
  | .right => missing

/-- The number fitted into the width. -/
def numeral (l : Layout) (n : Nat) : List Char :=
  let missing := l.missing n
  if l.zeros then l.lead ++ List.replicate missing '0' ++ l.base.digits n
  else
    let left := l.leftShare missing
    List.replicate left l.fill ++ l.bare n ++ List.replicate (missing - left) l.fill

theorem leftShare_le (l : Layout) (missing : Nat) : l.leftShare missing ≤ missing := by
  unfold leftShare
  cases l.alignment with
  | left => exact Nat.zero_le _
  | centre => exact Nat.div_le_self _ _
  | right => exact Nat.le_refl _

theorem length_numeral (l : Layout) (n : Nat) :
    (l.numeral n).length = max l.width (l.bare n).length := by
  have hshare := l.leftShare_le (l.missing n)
  have hmissing : l.missing n = l.width - (l.bare n).length := rfl
  have hbare : (l.bare n).length = l.lead.length + (l.base.digits n).length :=
    List.length_append
  unfold numeral
  by_cases hzeros : l.zeros = true
  · simp only [hzeros, if_true, List.length_append, List.length_replicate]
    omega
  · simp only [hzeros, Bool.false_eq_true, if_false, List.length_append, List.length_replicate]
    omega

/-! ### The written form of a layout -/

/-- The alignment that a sign stands for. -/
def alignment? (c : Char) : Option Alignment :=
  if c = '<' then some .left
  else if c = '^' then some .centre
  else if c = '>' then some .right
  else none

/-- The fill and the alignment at the front of a written layout; at first, blanks on the left. -/
def readPlace : List Char → (Char × Alignment) × List Char
  | [] => ((' ', .right), [])
  | [c] =>
    match alignment? c with
    | some a => ((' ', a), [])
    | none => ((' ', .right), [c])
  | c :: d :: rest =>
    match alignment? d with
    | some a => ((c, a), rest)
    | none =>
      match alignment? c with
      | some a => ((' ', a), d :: rest)
      | none => ((' ', .right), c :: d :: rest)

/-- Whether a sign stands at the front, and what follows it. -/
def readSign (sign : Char) : List Char → Bool × List Char
  | [] => (false, [])
  | c :: rest => if c = sign then (true, rest) else (false, c :: rest)

/-- The width at the front, where none means that any will do. -/
def readWidth (cs : List Char) : Nat × List Char :=
  ((Base.decimal.readFrom? 0 (cs.takeWhile Char.isDigit)).getD 0, cs.dropWhile Char.isDigit)

/-- Skip a precision, which says nothing about whole numbers. -/
def skipPrecision (cs : List Char) : Option (List Char) :=
  match readSign '.' cs with
  | (false, rest) => some rest
  | (true, rest) =>
    if (rest.takeWhile Char.isDigit).isEmpty then none else some (rest.dropWhile Char.isDigit)

/-- The form that the last letters of a written layout stand for. -/
def form? (cs : List Char) : Option Form :=
  if cs = [] then some .plain
  else if cs = ['?'] then some (.labelled .decimal)
  else if cs = ['x', '?'] then some (.labelled .lowerHex)
  else if cs = ['X', '?'] then some (.labelled .upperHex)
  else none

/-- The layout that a text stands for. -/
def ofSpec? (spec : String) : Option Layout := do
  let (place, afterPlace) := readPlace spec.toList
  let (plus, afterPlus) := readSign '+' afterPlace
  let (marked, afterMark) := readSign '#' afterPlus
  let (zeros, afterZeros) := readSign '0' afterMark
  let (width, afterWidth) := readWidth afterZeros
  let letters ← skipPrecision afterWidth
  let form ← form? letters
  return { fill := place.1, alignment := place.2, plus, marked, zeros, width, form }

end Layout

/-- The count in a layout. -/
def format (l : Layout) (n : Count) : String :=
  let body := String.ofList (l.numeral n.val.toNat)
  match l.form with
  | .plain => body
  | .labelled _ =>
    if l.marked then Text.wrappedBlock "Count" body else Text.wrapped "Count" body

end PrimeListing.Count
