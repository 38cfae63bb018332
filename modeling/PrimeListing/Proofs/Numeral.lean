/-
What a row of digits is worth.

A numeral is read from left to right, each digit added to the radix times what
was read before.  The number that comes out is the sum of the digits times the
powers of the radix, as `Nat.ofDigits` has it for the digits from the last to
the first.

* `readFrom?_eq_some_iff` — a row of digits that continues a numeral.
* `read?_decimal_eq_some_iff` — in base ten what is read is a non-empty row of
  the digits from `0` to `9`, and its value is `decimalValue`.
* `isDigit_digits` — what is written in base ten is such a row.
* `exists_of_mem_digits` — what is written in any base is a row of its digits.
* `isNumeral_zeros_digits` — it is a numeral over the alphabet of the base, also
  behind zeros, and its value is the number.
* `length_digits` — how many digits a number takes.
-/
import Mathlib.Data.List.Forall2
import Mathlib.Data.Nat.Digits.Defs
import Mathlib.Data.Nat.Log
import Mathlib.Tactic.Ring
import PrimeListing.Numeral

namespace PrimeListing

/-- Zeros in front of a row of digits are worth nothing, whatever the others are worth. -/
theorem ofDigits_zeros_append {radix : Nat} {worth : Char → Nat} (h : worth '0' = 0) (k : Nat)
    (ds : List Char) :
    Nat.ofDigits radix ((List.replicate k '0' ++ ds).map worth).reverse =
      Nat.ofDigits radix (ds.map worth).reverse := by
  rw [List.map_append, List.map_replicate, List.reverse_append, List.reverse_replicate, h,
    Nat.ofDigits_append_replicate_zero]

namespace Base

theorem readFrom?_eq_some_iff {b : Base} {n v : Nat} {cs : List Char} :
    b.readFrom? n cs = some v ↔
      ∃ ds, List.Forall₂ (fun c d => b.digit? c = some d) cs ds ∧
        v = b.radix ^ cs.length * n + Nat.ofDigits b.radix ds.reverse := by
  induction cs generalizing n with
  | nil => simp [readFrom?, eq_comm]
  | cons c cs ih =>
    -- a digit counts for the power of the radix that the digits behind it make
    have hshift : ∀ (d : Nat) (ds : List Nat), cs.length = ds.length →
        b.radix ^ cs.length * (b.radix * n + d) + Nat.ofDigits b.radix ds.reverse
          = b.radix ^ (c :: cs).length * n + Nat.ofDigits b.radix (d :: ds).reverse := by
      intro d ds hlength
      rw [List.reverse_cons, Nat.ofDigits_append, Nat.ofDigits_singleton, List.length_reverse,
        ← hlength, List.length_cons]
      ring
    rw [readFrom?, Option.bind_eq_some_iff]
    constructor
    · rintro ⟨d, hd, hrest⟩
      obtain ⟨ds, hds, rfl⟩ := ih.mp hrest
      exact ⟨d :: ds, .cons hd hds, hshift d ds hds.length_eq⟩
    · rintro ⟨_, hall, rfl⟩
      cases hall with
      | @cons _ d _ ds hd hds =>
        exact ⟨d, hd, ih.mpr ⟨ds, hds, (hshift d ds hds.length_eq).symm⟩⟩

theorem digit?_decimal_eq_some_iff {c : Char} {d : Nat} :
    Base.decimal.digit? c = some d ↔ c.isDigit = true ∧ d = c.toNat - '0'.toNat := by
  have hzero : '0'.toNat = 48 := rfl
  rw [digit?, hzero]
  by_cases hc : c.isDigit = true
  · simp [hc, eq_comm]
  · simp [hc]

theorem isDigit_digits (n : Nat) : ∀ c ∈ Base.decimal.digits n, c.isDigit = true := by
  intro c hc
  obtain ⟨d, hd, rfl⟩ := List.mem_map.mp hc
  exact Nat.isDigit_of_mem_toDigits (b := 10) (by decide) (by decide) hd

/-- A numeral consists of digits below the radix. -/
theorem exists_of_mem_digits {b : Base} {n : Nat} {c : Char} (h : c ∈ b.digits n) :
    ∃ d, d < b.radix ∧ c = b.digit d := by
  induction n using Nat.strongRecOn with
  | ind n ih =>
    have hradix := b.one_lt_radix
    rw [digits_eq_if] at h
    split at h
    · next hlt => exact ⟨n, hlt, List.mem_singleton.mp h⟩
    · next hge =>
      rcases List.mem_append.mp h with hfront | hlast
      · exact ih _ (Nat.div_lt_self (by omega) hradix) hfront
      · exact ⟨n % b.radix, Nat.mod_lt _ (by omega), List.mem_singleton.mp hlast⟩

/-! ### Numerals over an alphabet -/

/-- The digits of a base, each in the place that is its worth. -/
def alphabet : Base → List Char
  | .decimal => ['0', '1', '2', '3', '4', '5', '6', '7', '8', '9']
  | .lowerHex =>
    ['0', '1', '2', '3', '4', '5', '6', '7', '8', '9', 'a', 'b', 'c', 'd', 'e', 'f']
  | .upperHex =>
    ['0', '1', '2', '3', '4', '5', '6', '7', '8', '9', 'A', 'B', 'C', 'D', 'E', 'F']

/-- What a row of digits is worth, each of them by its place in the alphabet. -/
def value (b : Base) (cs : List Char) : Nat :=
  Nat.ofDigits b.radix (cs.map fun c => b.alphabet.idxOf c).reverse

/-- A row of digits of the base that is worth `v`. -/
structure IsNumeral (b : Base) (cs : List Char) (v : Nat) : Prop where
  ne_nil : cs ≠ []
  mem_alphabet : ∀ c ∈ cs, c ∈ b.alphabet
  value_eq : b.value cs = v

theorem length_alphabet (b : Base) : b.alphabet.length = b.radix := by
  cases b <;> rfl

theorem idxOf_digit (b : Base) {d : Nat} (h : d < b.radix) : b.alphabet.idxOf (b.digit d) = d := by
  have table : ∀ b : Base, ∀ i : Fin b.radix, b.alphabet.idxOf (b.digit i.val) = i.val := by
    intro b
    cases b <;> decide
  exact table b ⟨d, h⟩

theorem digit_mem_alphabet (b : Base) {d : Nat} (h : d < b.radix) : b.digit d ∈ b.alphabet := by
  rw [← List.idxOf_lt_length_iff, b.idxOf_digit h, length_alphabet]
  exact h

theorem value_concat (b : Base) (cs : List Char) (c : Char) :
    b.value (cs ++ [c]) = b.alphabet.idxOf c + b.radix * b.value cs := by
  rw [value, List.map_append, List.reverse_append]
  exact Nat.ofDigits_cons

theorem value_digits (b : Base) (n : Nat) : b.value (b.digits n) = n := by
  have hradix := b.one_lt_radix
  induction n using Nat.strongRecOn with
  | ind n ih =>
    rw [digits_eq_if]
    by_cases hlt : n < b.radix
    · rw [if_pos hlt, ← List.nil_append [b.digit n], value_concat, b.idxOf_digit hlt]
      rfl
    · have hlast : n % b.radix < b.radix := Nat.mod_lt _ (by omega)
      rw [if_neg hlt, value_concat, b.idxOf_digit hlast, ih _ (Nat.div_lt_self (by omega) hradix)]
      exact Nat.mod_add_div n b.radix

/-- What is written is a numeral, also with zeros in front. -/
theorem isNumeral_zeros_digits (b : Base) (k n : Nat) :
    b.IsNumeral (List.replicate k '0' ++ b.digits n) n where
  ne_nil := List.append_ne_nil_of_right_ne_nil _ (b.digits_ne_nil n)
  mem_alphabet := by
    intro c hc
    rcases List.mem_append.mp hc with hzero | hdigit
    · have hradix := b.one_lt_radix
      have hfirst : b.digit 0 = '0' := by cases b <;> rfl
      rw [List.eq_of_mem_replicate hzero, ← hfirst]
      exact b.digit_mem_alphabet (by omega)
    · obtain ⟨d, hd, rfl⟩ := exists_of_mem_digits hdigit
      exact b.digit_mem_alphabet hd
  value_eq := by
    have hzero : b.alphabet.idxOf '0' = 0 := by cases b <;> rfl
    rw [value, ofDigits_zeros_append hzero]
    exact b.value_digits n

/-- The number of digits of a number, one for zero. -/
theorem length_digits (b : Base) (n : Nat) : (b.digits n).length = Nat.log b.radix n + 1 := by
  have hradix := b.one_lt_radix
  induction n using Nat.strongRecOn with
  | ind n ih =>
    rw [digits_eq_if]
    by_cases hlt : n < b.radix
    · rw [if_pos hlt, Nat.log_of_lt hlt]
      rfl
    · have hle : b.radix ≤ n := Nat.le_of_not_lt hlt
      rw [if_neg hlt, List.length_append, ih _ (Nat.div_lt_self (by omega) hradix),
        Nat.log_of_one_lt_of_le hradix hle]
      rfl

end Base

theorem toList_decimal (n : Nat) : (decimal n).toList = Base.decimal.digits n :=
  String.toList_ofList

theorem toList_hyphen_decimal (n : Nat) :
    ("-" ++ decimal n).toList = '-' :: Base.decimal.digits n := by
  rw [String.toList_append, toList_decimal]
  rfl

/-- What a row of decimal digits is worth. -/
def decimalValue (cs : List Char) : Nat :=
  Nat.ofDigits 10 (cs.map fun c => c.toNat - '0'.toNat).reverse

theorem forall₂_digit?_decimal_iff {cs : List Char} {ds : List Nat} :
    List.Forall₂ (fun c d => Base.decimal.digit? c = some d) cs ds ↔
      (∀ c ∈ cs, c.isDigit = true) ∧ ds = cs.map fun c => c.toNat - '0'.toNat := by
  induction cs generalizing ds with
  | nil => simp
  | cons c cs ih =>
    cases ds with
    | nil => simp
    | cons d ds =>
      rw [List.forall₂_cons, Base.digit?_decimal_eq_some_iff, ih, List.forall_mem_cons,
        List.map_cons, List.cons.injEq]
      tauto

theorem read?_decimal_eq_some_iff {cs : List Char} {v : Nat} :
    Base.decimal.read? cs = some v ↔
      cs ≠ [] ∧ (∀ c ∈ cs, c.isDigit = true) ∧ v = decimalValue cs := by
  cases cs with
  | nil => simp [Base.read?]
  | cons c cs =>
    rw [Base.read?, Base.readFrom?_eq_some_iff, decimalValue]
    constructor
    · rintro ⟨ds, hds, rfl⟩
      obtain ⟨hdigits, rfl⟩ := forall₂_digit?_decimal_iff.mp hds
      refine ⟨List.cons_ne_nil c cs, hdigits, ?_⟩
      rw [Nat.mul_zero, Nat.zero_add]
      rfl
    · rintro ⟨-, hdigits, rfl⟩
      refine ⟨_, forall₂_digit?_decimal_iff.mpr ⟨hdigits, rfl⟩, ?_⟩
      rw [Nat.mul_zero, Nat.zero_add]
      rfl

end PrimeListing
