/-
Positional numerals of natural numbers.

A base fixes the radix and the characters of the digits.  `digits` writes a
number without leading zeros and `read?` gives the value of a non-empty row of
digits, leading zeros allowed.

* `digits_eq_if` — all digits but the last write the quotient by the radix.
* `digit?_digit` — each digit is read as the number it stands for.
* `read?_digits` — what is written reads back.
-/
namespace PrimeListing

/-- A notation for natural numbers. -/
inductive Base
  | decimal
  /-- Sixteen digits, with small letters from ten on. -/
  | lowerHex
  /-- Sixteen digits, with capital letters from ten on. -/
  | upperHex
  deriving DecidableEq

namespace Base

/-- The number of digits of a base. -/
def radix : Base → Nat
  | .decimal => 10
  | .lowerHex | .upperHex => 16

/-- The mark that may stand in front of a numeral to tell its base. -/
def mark : Base → List Char
  | .decimal => []
  | .lowerHex | .upperHex => ['0', 'x']

/-- A digit in the letter case of the base. -/
def spell (b : Base) (c : Char) : Char :=
  match b with
  | .decimal | .lowerHex => c
  | .upperHex => c.toUpper

/-- The digit for a number below the radix. -/
def digit (b : Base) (d : Nat) : Char := b.spell d.digitChar

/-- The number that a digit stands for. -/
def digit? (b : Base) (c : Char) : Option Nat :=
  if c.isDigit then some (c.toNat - 48)
  else
    match b with
    | .decimal => none
    | .lowerHex => if 'a' ≤ c ∧ c ≤ 'f' then some (c.toNat - 87) else none
    | .upperHex => if 'A' ≤ c ∧ c ≤ 'F' then some (c.toNat - 55) else none

/-- The numeral of a number, without leading zeros. -/
def digits (b : Base) (n : Nat) : List Char := (Nat.toDigits b.radix n).map b.spell

/-- The value of a row of digits that continues a numeral of value `n`. -/
def readFrom? (b : Base) (n : Nat) : List Char → Option Nat
  | [] => some n
  | c :: rest => (b.digit? c).bind fun d => b.readFrom? (b.radix * n + d) rest

/-- The value of a non-empty row of digits. -/
def read? (b : Base) : List Char → Option Nat
  | [] => none
  | c :: rest => b.readFrom? 0 (c :: rest)

theorem one_lt_radix (b : Base) : 1 < b.radix := by
  cases b <;> decide

theorem digits_eq_if (b : Base) (n : Nat) :
    b.digits n =
      if n < b.radix then [b.digit n] else b.digits (n / b.radix) ++ [b.digit (n % b.radix)] := by
  unfold digits
  rw [Nat.toDigits_eq_if b.one_lt_radix]
  split
  · rfl
  · simp [digit]

theorem digits_ne_nil (b : Base) (n : Nat) : b.digits n ≠ [] := by
  simp [digits, Nat.toDigits_ne_nil]

theorem digit?_digit (b : Base) {d : Nat} (h : d < b.radix) : b.digit? (b.digit d) = some d := by
  have table : ∀ b : Base, ∀ i : Fin b.radix, b.digit? (b.digit i.val) = some i.val := by
    intro b
    cases b <;> decide
  exact table b ⟨d, h⟩

/-- A row of digits is read from left to right. -/
theorem readFrom?_append (b : Base) (n : Nat) (cs ds : List Char) :
    b.readFrom? n (cs ++ ds) = (b.readFrom? n cs).bind fun m => b.readFrom? m ds := by
  induction cs generalizing n with
  | nil => rfl
  | cons c cs ih =>
    cases hc : b.digit? c with
    | none => simp [readFrom?, hc]
    | some d => simp [readFrom?, hc, ih]

theorem readFrom?_digits (b : Base) (n : Nat) : b.readFrom? 0 (b.digits n) = some n := by
  induction n using Nat.strongRecOn with
  | ind n ih =>
    rw [digits_eq_if]
    split
    · rename_i hlt
      simp [readFrom?, b.digit?_digit hlt]
    · rename_i hge
      have hradix := b.one_lt_radix
      have hsmaller : n / b.radix < n := Nat.div_lt_self (by omega) hradix
      have hlast : n % b.radix < b.radix := Nat.mod_lt _ (by omega)
      rw [readFrom?_append, ih _ hsmaller]
      simp [readFrom?, b.digit?_digit hlast, Nat.div_add_mod]

theorem read?_digits (b : Base) (n : Nat) : b.read? (b.digits n) = some n := by
  have h := b.readFrom?_digits n
  cases hd : b.digits n with
  | nil => exact absurd hd (b.digits_ne_nil n)
  | cons c rest => rw [hd] at h; exact h

end Base

/-- The decimal text of a natural number. -/
def decimal (n : Nat) : String := String.ofList (Base.decimal.digits n)

/-- The decimal text of an integer, with a sign in front of a negative one. -/
def signedDecimal (n : Int) : String :=
  if n < 0 then "-" ++ decimal n.natAbs else decimal n.natAbs

end PrimeListing
