/-
The sequence of all primes, as far as it fits into 64-bit words.

`Nat.nth Nat.Prime k` is the prime at position `k`, where 2 stands at position
0.  `Fits m` says that the first `m` primes are words, and `segment m n` lists
`n` primes from position `m` on.  `frontier m` is the number where the search
for the prime at position `m` begins: one above the prime before it.

* `nth_le_of_frontier_le` — the prime at position `m` is the least one from the
  frontier on.
* `segment_append` — neighbouring segments make one segment.
* `mem_segment_iff`, `pairwise_segment` — which primes a segment holds, and in
  which order.
* `succ_lt_size_of_prime` — the largest word is not prime, so a prime among the
  words has a successor among them.
-/
import Mathlib.NumberTheory.PrimeCounting

namespace PrimeListing

/-- The first `m` primes fit into 64-bit words. -/
def Fits (m : Nat) : Prop := ∀ k < m, Nat.nth Nat.Prime k < UInt64.size

theorem Fits.mono {m n : Nat} (h : Fits n) (hmn : m ≤ n) : Fits m :=
  fun k hk => h k (Nat.lt_of_lt_of_le hk hmn)

theorem fits_primeCounting {n : Nat} (hn : n < UInt64.size) : Fits (Nat.primeCounting n) := by
  intro k hk
  have hlt : Nat.nth Nat.Prime k < n + 1 := Nat.nth_lt_of_lt_count hk
  omega

/-- The largest word is a multiple of three, so a prime word is not the last one. -/
theorem succ_lt_size_of_prime {p : Nat} (hp : p.Prime) (hlt : p < UInt64.size) :
    p + 1 < UInt64.size := by
  have hne : p ≠ UInt64.size - 1 := by
    rintro rfl
    exact absurd hp (Nat.not_prime_of_dvd_of_lt (m := 3) (by decide) (by decide) (by decide))
  omega

/-! ### Positions -/

theorem nth_prime_lt_nth_prime {k m : Nat} :
    Nat.nth Nat.Prime k < Nat.nth Nat.Prime m ↔ k < m :=
  Nat.nth_lt_nth Nat.infinite_setOfPred_prime

/-- Where the search for the prime at position `m` begins. -/
noncomputable def frontier : Nat → Nat
  | 0 => 2
  | m + 1 => Nat.nth Nat.Prime m + 1

theorem two_le_frontier (m : Nat) : 2 ≤ frontier m := by
  cases m with
  | zero => exact Nat.le_refl 2
  | succ m => exact Nat.le_succ_of_le (Nat.prime_nth_prime m).two_le

theorem frontier_le_nth (m : Nat) : frontier m ≤ Nat.nth Nat.Prime m := by
  cases m with
  | zero => exact (Nat.prime_nth_prime 0).two_le
  | succ m => exact nth_prime_lt_nth_prime.mpr (Nat.lt_succ_self m)

/-- No prime lies between the frontier and the prime looked for. -/
theorem nth_le_of_frontier_le {m q : Nat} (hq : q.Prime) (hle : frontier m ≤ q) :
    Nat.nth Nat.Prime m ≤ q := by
  rw [← Nat.nth_count hq]
  apply Nat.nth_monotone Nat.infinite_setOfPred_prime
  cases m with
  | zero => exact Nat.zero_le _
  | succ m => exact (Nat.lt_nth_iff_count_lt Nat.infinite_setOfPred_prime).mpr hle

/-- Where the first `m` primes fit, the search for the next one begins at a word. -/
theorem Fits.frontier_lt {m : Nat} (h : Fits m) : frontier m < UInt64.size := by
  cases m with
  | zero => decide
  | succ m => exact succ_lt_size_of_prime (Nat.prime_nth_prime m) (h m (Nat.lt_succ_self m))

/-! ### Primes as words -/

/-- The prime at position `k`, as a word. -/
noncomputable def primeWord (k : Nat) : UInt64 := UInt64.ofNat (Nat.nth Nat.Prime k)

theorem toNat_primeWord {k : Nat} (h : Nat.nth Nat.Prime k < UInt64.size) :
    (primeWord k).toNat = Nat.nth Nat.Prime k :=
  UInt64.toNat_ofNat_of_lt' h

/-- The `n` primes from position `m` on. -/
noncomputable def segment (m n : Nat) : List UInt64 := (List.range' m n).map primeWord

theorem segment_succ (m n : Nat) : segment m (n + 1) = primeWord m :: segment (m + 1) n := rfl

@[simp] theorem length_segment (m n : Nat) : (segment m n).length = n := by
  simp [segment]

theorem segment_append (m a b : Nat) : segment m a ++ segment (m + a) b = segment m (a + b) := by
  rw [segment, segment, segment, ← List.map_append, List.range'_append_1]

theorem map_toNat_segment {m n : Nat} (h : Fits (m + n)) :
    (segment m n).map UInt64.toNat = (List.range' m n).map (Nat.nth Nat.Prime) := by
  rw [segment, List.map_map]
  apply List.map_congr_left
  intro k hk
  exact toNat_primeWord (h k (List.mem_range'_1.mp hk).2)

theorem pairwise_segment {m n : Nat} (h : Fits (m + n)) : (segment m n).Pairwise (· < ·) := by
  have hnumbers : ((segment m n).map UInt64.toNat).Pairwise (· < ·) := by
    rw [map_toNat_segment h, List.pairwise_map]
    exact List.Pairwise.imp nth_prime_lt_nth_prime.mpr List.pairwise_lt_range'
  exact (List.pairwise_map.mp hnumbers).imp UInt64.lt_iff_toNat_lt.mpr

/-- A segment holds the primes that as many primes are below as its positions say. -/
theorem mem_segment_iff {m n : Nat} (h : Fits (m + n)) {p : UInt64} :
    p ∈ segment m n ↔
      p.toNat.Prime ∧ m ≤ Nat.primeCounting' p.toNat ∧ Nat.primeCounting' p.toNat < m + n := by
  simp only [segment, List.mem_map, List.mem_range'_1]
  constructor
  · rintro ⟨k, ⟨hle, hlt⟩, rfl⟩
    rw [toNat_primeWord (h k hlt), Nat.primeCounting'_nth_eq]
    exact ⟨Nat.prime_nth_prime k, hle, hlt⟩
  · rintro ⟨hp, hrange⟩
    refine ⟨Nat.primeCounting' p.toNat, hrange, ?_⟩
    rw [primeWord, Nat.primeCounting', Nat.nth_count hp, UInt64.ofNat_toNat]

end PrimeListing
