/-
Trial division decides primality.

The search for a divisor keeps an invariant, `Reached`: nothing below the
divisor at hand divides the number, and the divisor before it was still within
the square root.  Where the search ends, `Ended`, the divisor reached either
divides the number or is above the square root.

* `Reached.succ`, `Reached.add_one` — one round of the search keeps the invariant, for numbers and
  for words.
* `Ended.prime_iff` — where the search ends tells whether the number is prime.
* `le_div_iff_mul_self_le` — the guard on 64-bit words compares the square of
  the divisor with the number, although no square is ever formed.
* `ended_stopFrom` — the search on words goes through the rounds to the end.
* `isPrime_iff_prime` — the verdict is right on every word.
-/
import Mathlib.Data.Nat.Prime.Basic
import PrimeListing.TrialDivision

namespace PrimeListing

namespace TrialDivision

/-- The search for a divisor of `k` has come to the divisor `d`. -/
structure Reached (k d : Nat) : Prop where
  two_le : 2 ≤ d
  /-- Every smaller divisor has been tried in vain. -/
  not_dvd : ∀ m, 2 ≤ m → m < d → ¬ m ∣ k
  /-- The divisor before was not above the square root. -/
  pred_mul_self_le : (d - 1) * (d - 1) ≤ k

theorem reached_two {k : Nat} (hk : 1 ≤ k) : Reached k 2 where
  two_le := Nat.le_refl 2
  not_dvd := by
    intro m hm hlt
    omega
  pred_mul_self_le := by simpa using hk

/-- A divisor within the square root that does not divide makes way for the next. -/
theorem Reached.succ {k d : Nat} (h : Reached k d) (hsq : d * d ≤ k) (hndvd : ¬ d ∣ k) :
    Reached k (d + 1) where
  two_le := Nat.le_succ_of_le h.two_le
  not_dvd := by
    intro m hm hlt
    rcases Nat.lt_succ_iff_lt_or_eq.mp hlt with hlt' | rfl
    · exact h.not_dvd m hm hlt'
    · exact hndvd
  pred_mul_self_le := by simpa using hsq

theorem Reached.le_minFac {k d : Nat} (h : Reached k d) (hk : k ≠ 1) : d ≤ k.minFac := by
  by_contra hlt
  have hprime := Nat.minFac_prime hk
  exact h.not_dvd k.minFac hprime.two_le (Nat.lt_of_not_le hlt) (Nat.minFac_dvd k)

/-- Above the square root and with nothing found, the number is prime. -/
theorem Reached.prime {k d : Nat} (h : Reached k d) (hk : 2 ≤ k) (hsq : k < d * d) :
    k.Prime := by
  by_contra hcomposite
  have hle : d ≤ k.minFac := h.le_minFac (by omega)
  have hfac : k.minFac ^ 2 ≤ k := Nat.minFac_sq_le_self (by omega) hcomposite
  have hmul : d * d ≤ k.minFac * k.minFac := Nat.mul_le_mul hle hle
  rw [Nat.pow_two] at hfac
  omega

/-- The search for a divisor of `k` ends at `d`: within the square root only if `d` divides. -/
structure Ended (k d : Nat) : Prop extends Reached k d where
  dvd_of_mul_self_le : d * d ≤ k → d ∣ k

/-- The number is prime exactly if the search has gone past its square root. -/
theorem Ended.prime_iff {k d : Nat} (h : Ended k d) (hk : 2 ≤ k) : k.Prime ↔ k < d * d := by
  constructor
  · intro hprime
    by_contra hsq
    -- a divisor within the square root would be the number itself, which is above it
    have hdvd : d ∣ k := h.dvd_of_mul_self_le (Nat.le_of_not_lt hsq)
    have heq : d = k := (Nat.dvd_prime_two_le hprime h.two_le).mp hdvd
    have hlt : d * 1 < d * d := Nat.mul_lt_mul_of_pos_left h.two_le (by omega)
    omega
  · exact h.toReached.prime hk

/-! ### The search on words -/

theorem le_div_iff_mul_self_le {k d : UInt64} (hd : 2 ≤ d.toNat) :
    d ≤ k / d ↔ d.toNat * d.toNat ≤ k.toNat := by
  rw [UInt64.le_iff_toNat_le, UInt64.toNat_div]
  exact Nat.le_div_iff_mul_le (by omega)

theorem mod_eq_zero_iff_dvd {k d : UInt64} : k % d = 0 ↔ d.toNat ∣ k.toNat := by
  rw [← UInt64.toNat_inj, UInt64.toNat_mod, UInt64.toNat_zero]
  exact (Nat.dvd_iff_mod_eq_zero).symm

/-- The guard and the remainder are what one round of the invariant asks for. -/
theorem Reached.add_one {k d : UInt64} (h : Reached k.toNat d.toNat) (hle : d ≤ k / d)
    (hmod : k % d ≠ 0) : Reached k.toNat (d + 1).toNat := by
  have hsq := (le_div_iff_mul_self_le h.two_le).mp hle
  have hndvd : ¬ d.toNat ∣ k.toNat := fun hdvd => hmod (mod_eq_zero_iff_dvd.mpr hdvd)
  rw [toNat_add_one (lt_of_le_div hle hmod)]
  exact h.succ hsq hndvd

/-- A search that has come to `d` ends at the divisor it reaches from there. -/
theorem ended_stopFrom {k d : UInt64} (h : Reached k.toNat d.toNat) :
    Ended k.toNat (stopFrom k d).toNat := by
  fun_induction stopFrom k d with
  | case1 d hle hmod =>
    exact { toReached := h, dvd_of_mul_self_le := fun _ => mod_eq_zero_iff_dvd.mp hmod }
  | case2 d hle hmod ih => exact ih (h.add_one hle hmod)
  | case3 d hle =>
    refine { toReached := h, dvd_of_mul_self_le := fun hsq => ?_ }
    exact absurd ((le_div_iff_mul_self_le h.two_le).mpr hsq) hle

theorem ended_stop {k : UInt64} (hk : 1 ≤ k.toNat) : Ended k.toNat (stop k).toNat :=
  ended_stopFrom (reached_two hk)

end TrialDivision

open TrialDivision

theorem isPrime_iff_prime (k : UInt64) : isPrime k = true ↔ k.toNat.Prime := by
  simp only [isPrime, Bool.and_eq_true, decide_eq_true_eq]
  by_cases hk : 2 ≤ k.toNat
  · have hword : (2 : UInt64) ≤ k := UInt64.le_iff_toNat_le.mpr hk
    have hended : Ended k.toNat (stop k).toNat := ended_stop (by omega)
    have hguard : k / stop k < stop k ↔ k.toNat < (stop k).toNat * (stop k).toNat := by
      rw [← not_iff_not, UInt64.not_lt, Nat.not_lt]
      exact le_div_iff_mul_self_le hended.two_le
    rw [hguard, hended.prime_iff hk]
    exact and_iff_right hword
  · constructor
    · rintro ⟨hword, -⟩
      exact absurd (UInt64.le_iff_toNat_le.mp hword) hk
    · intro hprime
      exact absurd hprime.two_le hk

/-- A word passes trial division exactly if it is at least two and nothing but one and the
word itself divides it. -/
theorem isPrime_iff_two_le_and_divisors (k : UInt64) :
    isPrime k = true ↔ 2 ≤ k.toNat ∧ ∀ d : Nat, d ∣ k.toNat → d = 1 ∨ d = k.toNat := by
  rw [isPrime_iff_prime, Nat.prime_def]

end PrimeListing
