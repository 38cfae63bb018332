/-
Trial division on 64-bit words.

A number is tested by dividing it by 2, 3, 4, … while the divisor is at most
the quotient.  `stop k` is the divisor where that search ends: either it
divides `k`, or it is the first one that exceeds its quotient.  `isPrime`
reads the verdict off the divisor reached.

* `toNat_succ_of_lt` — below the largest word the next word is the next number.
* `lt_of_le_div`, `toNat_add_one` — inside the search the divisor is below the
  number, so the next one exists and no word wraps around.
* `stopFrom_of_dvd`, `stopFrom_of_not_le`, `stopFrom_of_not_dvd` — the three
  ways one round of the search can go.
-/
namespace PrimeListing

/-- A sum of numbers that is a word is the sum of the words. -/
theorem toNat_add_ofNat {n : UInt64} {j : Nat} (h : n.toNat + j < UInt64.size) :
    (n + UInt64.ofNat j).toNat = n.toNat + j := by
  have hj : j < UInt64.size := by omega
  rw [UInt64.toNat_add, UInt64.toNat_ofNat_of_lt' hj]
  exact Nat.mod_eq_of_lt h

theorem toNat_succ_of_lt {n : UInt64} (h : n.toNat + 1 < UInt64.size) :
    (n + 1).toNat = n.toNat + 1 :=
  toNat_add_ofNat h

namespace TrialDivision

/-- A divisor that is at most its quotient, and does not divide, is below the number. -/
theorem lt_of_le_div {k d : UInt64} (hle : d ≤ k / d) (hmod : k % d ≠ 0) : d < k := by
  rw [UInt64.le_iff_toNat_le, UInt64.toNat_div] at hle
  rw [UInt64.lt_iff_toNat_lt]
  have hmod' : k.toNat % d.toNat ≠ 0 := fun h =>
    hmod (UInt64.toNat_inj.mp (by simpa using h))
  rcases Nat.lt_or_ge d.toNat 2 with hd | hd
  -- dividing by zero leaves the number itself, and one divides everything
  · rcases Nat.le_one_iff_eq_zero_or_eq_one.mp (Nat.le_of_lt_succ hd) with h0 | h1
    · rw [h0] at hmod' ⊢
      simpa [Nat.pos_iff_ne_zero] using hmod'
    · rw [h1, Nat.mod_one] at hmod'
      exact absurd rfl hmod'
  -- any other divisor is below its own square
  · have hmul : d.toNat * d.toNat ≤ k.toNat :=
      (Nat.le_div_iff_mul_le (Nat.lt_of_lt_of_le Nat.two_pos hd)).mp hle
    have : 2 * d.toNat ≤ d.toNat * d.toNat := Nat.mul_le_mul_right _ hd
    omega

theorem toNat_add_one {k d : UInt64} (h : d < k) : (d + 1).toNat = d.toNat + 1 := by
  rw [UInt64.lt_iff_toNat_lt] at h
  exact toNat_succ_of_lt (Nat.lt_of_le_of_lt h k.toNat_lt)

/-- The divisor where the search for a divisor of `k` ends when it starts at `d`. -/
def stopFrom (k d : UInt64) : UInt64 :=
  if d ≤ k / d then
    if k % d = 0 then d else stopFrom k (d + 1)
  else d
termination_by k.toNat - d.toNat
decreasing_by
  rename_i hle hmod
  have hlt := lt_of_le_div hle hmod
  rw [toNat_add_one hlt]
  rw [UInt64.lt_iff_toNat_lt] at hlt
  omega

theorem stopFrom_of_dvd {k d : UInt64} (hle : d ≤ k / d) (hmod : k % d = 0) :
    stopFrom k d = d := by
  rw [stopFrom, if_pos hle, if_pos hmod]

theorem stopFrom_of_not_le {k d : UInt64} (hle : ¬ d ≤ k / d) : stopFrom k d = d := by
  rw [stopFrom, if_neg hle]

theorem stopFrom_of_not_dvd {k d : UInt64} (hle : d ≤ k / d) (hmod : k % d ≠ 0) :
    stopFrom k d = stopFrom k (d + 1) := by
  rw [stopFrom, if_pos hle, if_neg hmod]

/-- The divisor where trial division of `k` ends. -/
def stop (k : UInt64) : UInt64 := stopFrom k 2

end TrialDivision

/-- Primality by trial division: the search went past every possible divisor. -/
def isPrime (k : UInt64) : Bool :=
  2 ≤ k && k / TrialDivision.stop k < TrialDivision.stop k

end PrimeListing
