/-
The divisors that trial division comes to, and the last of them.

A round of the search looks at the quotient first and at the remainder next.
The search goes through the divisors from two on in their order, and every one
of them is at most one above the square root of the number.  So all of them are
far below the largest word, although the number may be the largest word itself.
What ends the search is either a divisor that divides, and then it is the least
factor, or the first divisor above the square root.

* `stopFrom_eq_roundAt` — a search is a first round and what follows on it.
* `Reached.le_sqrt_add_one`, `Ended.eq_minFac`, `Ended.eq_sqrt_add_one` — how
  far the search can come, and where it ends.
* `Visited.reached` — the invariant holds at every divisor on the way.  The
  induction is on the way there, and a round carries it on.
* `Visited.isSafe` — what the arithmetic on words needs follows from it.
* `visited_iff` — the divisors on the way are those up to the last one.
* `visits_up_to_minFac_or_sqrt` — all of it in terms of the number.
-/
import Mathlib.Data.Nat.Sqrt
import Mathlib.Tactic.NormNum.NatSqrt
import Mathlib.Tactic.NormNum.Prime
import PrimeListing.Proofs.TrialDivision

namespace PrimeListing.TrialDivision

/-! ### The rounds of a search -/

/-- How one round of the search ends. -/
inductive Round
  /-- The divisor is above its quotient, and the search is over. -/
  | above
  /-- The divisor divides the number, and the search is over. -/
  | divides
  /-- The search goes on at another divisor. -/
  | again (d : UInt64)
  deriving DecidableEq

/-- The round at the divisor `d`. -/
def roundAt (k d : UInt64) : Round :=
  if d ≤ k / d then
    if k % d = 0 then .divides else .again (d + 1)
  else .above

/-- A search is a first round and what follows on it. -/
theorem stopFrom_eq_roundAt (k d : UInt64) :
    stopFrom k d =
      match roundAt k d with
      | .above | .divides => d
      | .again e => stopFrom k e := by
  by_cases hle : d ≤ k / d
  · by_cases hmod : k % d = 0
    · rw [stopFrom_of_dvd hle hmod, roundAt, if_pos hle, if_pos hmod]
    · rw [stopFrom_of_not_dvd hle hmod, roundAt, if_pos hle, if_neg hmod]
  · rw [stopFrom_of_not_le hle, roundAt, if_neg hle]

theorem roundAt_eq_above_iff {k d : UInt64} (hd : 2 ≤ d.toNat) :
    roundAt k d = .above ↔ k.toNat < d.toNat * d.toNat := by
  rw [← Nat.not_le, ← le_div_iff_mul_self_le hd, roundAt]
  split
  · split <;> simp [*]
  · simp [*]

theorem roundAt_eq_divides_iff {k d : UInt64} (hd : 2 ≤ d.toNat) :
    roundAt k d = .divides ↔ d.toNat * d.toNat ≤ k.toNat ∧ d.toNat ∣ k.toNat := by
  rw [← le_div_iff_mul_self_le hd, ← mod_eq_zero_iff_dvd, roundAt]
  split
  · split <;> simp [*]
  · simp [*]

theorem roundAt_eq_again_iff {k d e : UInt64} :
    roundAt k d = .again e ↔ d ≤ k / d ∧ k % d ≠ 0 ∧ e = d + 1 := by
  rw [roundAt]
  split
  · split
    · simp [*]
    · simp [*, eq_comm]
  · simp [*]

theorem le_stopFrom (k d : UInt64) : d.toNat ≤ (stopFrom k d).toNat := by
  fun_induction stopFrom k d with
  | case1 d hle hmod => exact Nat.le_refl _
  | case2 d hle hmod ih =>
    rw [toNat_add_one (lt_of_le_div hle hmod)] at ih
    omega
  | case3 d hle => exact Nat.le_refl _

/-- The search goes on exactly where it does not end at once. -/
theorem roundAt_eq_again_iff_ne {k d : UInt64} :
    roundAt k d = .again (d + 1) ↔ d ≠ stopFrom k d := by
  constructor
  · intro hround hself
    obtain ⟨hle, hmod, -⟩ := roundAt_eq_again_iff.mp hround
    have hnext := le_stopFrom k (d + 1)
    rw [← stopFrom_of_not_dvd hle hmod, ← hself, toNat_add_one (lt_of_le_div hle hmod)] at hnext
    omega
  · intro hne
    rw [roundAt_eq_again_iff]
    have hle : d ≤ k / d := by
      by_contra hnot
      exact hne (stopFrom_of_not_le hnot).symm
    have hmod : k % d ≠ 0 := by
      intro hzero
      exact hne (stopFrom_of_dvd hle hzero).symm
    exact ⟨hle, hmod, rfl⟩

/-! ### How far the search comes -/

theorem Reached.le_sqrt_add_one {k d : Nat} (h : Reached k d) : d ≤ k.sqrt + 1 := by
  have hpred : d - 1 ≤ k.sqrt := Nat.le_sqrt.mpr h.pred_mul_self_le
  omega

/-- The square root of a word has half its length. -/
theorem Reached.le_two_pow {k : UInt64} {d : Nat} (h : Reached k.toNat d) : d ≤ 2 ^ 32 := by
  have hroot : k.toNat.sqrt < 2 ^ 32 := Nat.sqrt_lt.mpr k.toNat_lt
  have hle := h.le_sqrt_add_one
  omega

/-- What ends the search for a composite number is still within its square root. -/
theorem Ended.mul_self_le {k d : Nat} (h : Ended k d) (hk : 2 ≤ k) (hcomposite : ¬ k.Prime) :
    d * d ≤ k := by
  by_contra habove
  exact hcomposite ((h.prime_iff hk).mpr (Nat.lt_of_not_le habove))

theorem Ended.eq_minFac {k d : Nat} (h : Ended k d) (hk : 2 ≤ k) (hcomposite : ¬ k.Prime) :
    d = k.minFac := by
  have hdvd : d ∣ k := h.dvd_of_mul_self_le (h.mul_self_le hk hcomposite)
  apply Nat.le_antisymm
  · exact h.le_minFac (by omega)
  · exact Nat.minFac_le_of_dvd h.two_le hdvd

theorem Ended.eq_sqrt_add_one {k d : Nat} (h : Ended k d) (hk : 2 ≤ k) (hprime : k.Prime) :
    d = k.sqrt + 1 := by
  have habove : k.sqrt < d := Nat.sqrt_lt.mpr ((h.prime_iff hk).mp hprime)
  have hle := h.le_sqrt_add_one
  omega

/-- The last round of a composite number meets its least factor. -/
theorem stop_of_not_prime {k : UInt64} (hk : 2 ≤ k.toNat) (hcomposite : ¬ k.toNat.Prime) :
    (stop k).toNat = k.toNat.minFac ∧ roundAt k (stop k) = .divides := by
  have hended : Ended k.toNat (stop k).toNat := ended_stop (by omega)
  have hsq := hended.mul_self_le hk hcomposite
  refine ⟨hended.eq_minFac hk hcomposite, ?_⟩
  rw [roundAt_eq_divides_iff hended.two_le]
  exact ⟨hsq, hended.dvd_of_mul_self_le hsq⟩

/-- The last round of a prime number is the first above its square root. -/
theorem stop_of_prime {k : UInt64} (hprime : k.toNat.Prime) :
    (stop k).toNat = k.toNat.sqrt + 1 ∧ roundAt k (stop k) = .above := by
  have hk := hprime.two_le
  have hended : Ended k.toNat (stop k).toNat := ended_stop (by omega)
  refine ⟨hended.eq_sqrt_add_one hk hprime, ?_⟩
  rw [roundAt_eq_above_iff hended.two_le]
  exact (hended.prime_iff hk).mp hprime

/-! ### The divisors on the way -/

/-- The divisors that the search for a divisor of `k` comes to. -/
inductive Visited (k : UInt64) : UInt64 → Prop
  | two : Visited k 2
  | again {d e : UInt64} : Visited k d → roundAt k d = .again e → Visited k e

/-- What a round at the divisor `d` asks of the arithmetic on words. -/
structure IsSafe (k d : UInt64) : Prop where
  two_le : 2 ≤ d.toNat
  le_two_pow : d.toNat ≤ 2 ^ 32
  /-- Quotient and remainder are those of a division. -/
  ne_zero : d ≠ 0
  /-- The next divisor does not wrap around. -/
  toNat_add_one : (d + 1).toNat = d.toNat + 1
  /-- The guard compares the square with the number, though a word may have no room for it. -/
  guard_iff : d ≤ k / d ↔ d.toNat * d.toNat ≤ k.toNat

theorem Visited.reached {k d : UInt64} (hk : 1 ≤ k.toNat) (h : Visited k d) :
    Reached k.toNat d.toNat := by
  induction h with
  | two => exact reached_two hk
  | again _ hround ih =>
    obtain ⟨hle, hmod, rfl⟩ := roundAt_eq_again_iff.mp hround
    exact ih.add_one hle hmod

theorem Visited.isSafe {k d : UInt64} (hk : 1 ≤ k.toNat) (h : Visited k d) : IsSafe k d := by
  have hreached := h.reached hk
  have htwo := hreached.two_le
  have hpow := hreached.le_two_pow
  have hroom : d.toNat + 1 < UInt64.size := Nat.lt_of_le_of_lt (Nat.succ_le_succ hpow) (by decide)
  refine ⟨htwo, hpow, ?_, toNat_succ_of_lt hroom, le_div_iff_mul_self_le htwo⟩
  rintro rfl
  exact absurd htwo (by decide)

/-- From any divisor on the way the search goes on to the same end. -/
theorem Visited.stopFrom_eq {k d : UInt64} (h : Visited k d) : stopFrom k d = stop k := by
  induction h with
  | two => rfl
  | @again d e _ hround ih =>
    calc stopFrom k e = stopFrom k d := by rw [stopFrom_eq_roundAt k d, hround]
      _ = stop k := ih

theorem Visited.roundAt_eq_again_iff_ne_stop {k d : UInt64} (h : Visited k d) :
    roundAt k d = .again (d + 1) ↔ d ≠ stop k := by
  rw [roundAt_eq_again_iff_ne, h.stopFrom_eq]

/-- Nothing up to the last divisor is left out.  The induction is on the rounds before. -/
theorem visited_of_le_stop {k d : UInt64} {n : Nat} (hd : d.toNat = 2 + n)
    (hle : d.toNat ≤ (stop k).toNat) : Visited k d := by
  induction n generalizing d with
  | zero =>
    have htwo : d = 2 := UInt64.toNat_inj.mp hd
    rw [htwo]
    exact .two
  | succ n ih =>
    have hpred : (d - 1).toNat = d.toNat - 1 :=
      UInt64.toNat_sub_of_le d 1 (UInt64.le_iff_toNat_le.mpr (show 1 ≤ d.toNat by omega))
    have hvisited : Visited k (d - 1) := ih (by omega) (by omega)
    -- the divisor before is not the last one, so the search goes on from it
    have hne : d - 1 ≠ stop k := by
      intro heq
      rw [← heq] at hle
      omega
    have hround := hvisited.roundAt_eq_again_iff_ne_stop.mpr hne
    rw [UInt64.sub_add_cancel] at hround
    exact .again hvisited hround

/-- The divisors on the way are those from two up to the last one. -/
theorem visited_iff {k d : UInt64} (hk : 1 ≤ k.toNat) :
    Visited k d ↔ 2 ≤ d.toNat ∧ d.toNat ≤ (stop k).toNat := by
  constructor
  · intro h
    refine ⟨(h.reached hk).two_le, ?_⟩
    rw [← h.stopFrom_eq]
    exact le_stopFrom k d
  · rintro ⟨htwo, hle⟩
    exact visited_of_le_stop (n := d.toNat - 2) (by omega) hle

/-- Trial division of a number from two on comes to the divisors from two up to the last one, and to
no other.  At each of them the arithmetic on words is that on numbers: the divisor is between two
and `2 ^ 32`, so it is not zero and the next one does not wrap around, and the guard compares its
square with the number.  The last divisor, and no other, ends the search.  If the number is
composite, that is its least prime factor; if it is prime, it is the first divisor above the square
root. -/
theorem visits_up_to_minFac_or_sqrt {k : UInt64} (hk : 2 ≤ k.toNat) :
    (∀ d, Visited k d ↔ 2 ≤ d.toNat ∧ d.toNat ≤ (stop k).toNat) ∧
      (∀ d, Visited k d → IsSafe k d ∧ (roundAt k d = .again (d + 1) ↔ d ≠ stop k)) ∧
      (¬ k.toNat.Prime →
        (stop k).toNat = k.toNat.minFac ∧ roundAt k (stop k) = .divides) ∧
      (k.toNat.Prime →
        (stop k).toNat = k.toNat.sqrt + 1 ∧ roundAt k (stop k) = .above) := by
  have hpos : 1 ≤ k.toNat := by omega
  refine ⟨fun d => visited_iff hpos, ?_, stop_of_not_prime hk, stop_of_prime⟩
  intro d hd
  exact ⟨hd.isSafe hpos, hd.roundAt_eq_again_iff_ne_stop⟩

/-- The search on the square 49 ends at its root 7.  So does the search on the prime 47, where 7 is
the first divisor above the root.  On the largest word it comes to 3, the least factor, by way of 2
alone. -/
theorem visits_up_to_seven :
    (2 ≤ (49 : UInt64).toNat ∧ (stop 49).toNat = 7 ∧ roundAt 49 (stop 49) = .divides) ∧
      (2 ≤ (47 : UInt64).toNat ∧ (stop 47).toNat = 7 ∧ roundAt 47 (stop 47) = .above) ∧
      2 ≤ (18446744073709551615 : UInt64).toNat ∧
        ∀ d, Visited 18446744073709551615 d ↔ 2 ≤ d.toNat ∧ d.toNat ≤ 3 := by
  have hsquare : 2 ≤ (49 : UInt64).toNat := by decide
  have hprime : 2 ≤ (47 : UInt64).toNat := by decide
  have hlargest : 2 ≤ (18446744073709551615 : UInt64).toNat := by decide
  obtain ⟨-, -, hminFac, -⟩ := visits_up_to_minFac_or_sqrt hsquare
  obtain ⟨-, -, -, hsqrt⟩ := visits_up_to_minFac_or_sqrt hprime
  obtain ⟨hvisited, -, hleast, -⟩ := visits_up_to_minFac_or_sqrt hlargest
  obtain ⟨h49, hdivides⟩ := hminFac (show ¬ Nat.Prime 49 by norm_num)
  obtain ⟨h47, habove⟩ := hsqrt (show Nat.Prime 47 by norm_num)
  obtain ⟨hstop, -⟩ := hleast (show ¬ Nat.Prime 18446744073709551615 by norm_num)
  have hthree : (stop 18446744073709551615).toNat = 3 :=
    hstop.trans (show Nat.minFac 18446744073709551615 = 3 by norm_num)
  rw [hthree] at hvisited
  refine ⟨⟨hsquare, ?_, hdivides⟩, ⟨hprime, ?_, habove⟩, hlargest, hvisited⟩
  · exact h49.trans (show Nat.minFac 49 = 7 by norm_num)
  · exact h47.trans (show Nat.sqrt 47 + 1 = 7 by norm_num)

end PrimeListing.TrialDivision
