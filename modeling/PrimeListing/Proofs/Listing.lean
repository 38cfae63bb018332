/-
The list for a count holds the first primes.

* `primes_eq_segment` — the list is taken along the sequence of primes.
* `firstPrimes_eq_ok` — a signed number that is not negative names the list of
  its count.
* `primes_eq_first_primes` — the list is ascending and complete: as many primes
  as were asked for, and no other prime up to the last of them.
-/
import PrimeListing.Listing
import PrimeListing.Proofs.Consumption

namespace PrimeListing

theorem Count.primes_eq_segment {n : Count} (h : Fits n.val.toNat) :
    n.primes = segment 0 n.val.toNat := by
  rw [Count.primes, PrimeStream.take_fresh h]

/-- A signed number that is not negative makes the count of the same value. -/
theorem Count.ofInt64_eq_ok {i : Int64} {n : Count} (h : i.toInt = n.val.toNat) :
    Count.ofInt64 i = .ok n := by
  have hnonneg : (0 : Int64) ≤ i := by
    rw [Int64.le_iff_toInt_le, h]
    exact Int.natCast_nonneg _
  have hval : i.toUInt64 = n.val := by
    rw [← UInt64.toNat_inj, Int64.toNat_toUInt64_of_le hnonneg, ← Int64.toNat_toInt, h]
    exact Int.toNat_natCast _
  rw [Count.ofInt64, if_neg (Int64.not_lt.mpr hnonneg), hval]

theorem firstPrimes_eq_ok {i : Int64} {n : Count} (h : i.toInt = n.val.toNat) :
    firstPrimes i = .ok n.primes := by
  rw [firstPrimes, Count.ofInt64_eq_ok h]

/-- The list for a count is the list of the first primes: of the length asked for, ascending,
of primes only, and with every prime up to the last one.  A signed number of the same value
names the same list. -/
theorem primes_eq_first_primes (n : Count) (h : Fits n.val.toNat) :
    n.primes.map UInt64.toNat = (List.range n.val.toNat).map (Nat.nth Nat.Prime) ∧
      n.primes.length = n.val.toNat ∧
      n.primes.Pairwise (· < ·) ∧
      (∀ p ∈ n.primes, p.toNat.Prime) ∧
      (∀ q : Nat, q.Prime → ∀ p ∈ n.primes, q ≤ p.toNat → UInt64.ofNat q ∈ n.primes) ∧
      ∀ i : Int64, i.toInt = n.val.toNat → firstPrimes i = .ok n.primes := by
  have hfits : Fits (0 + n.val.toNat) := by rwa [Nat.zero_add]
  rw [Count.primes_eq_segment h]
  refine ⟨?_, length_segment _ _, pairwise_segment hfits, ?_, ?_, ?_⟩
  · rw [map_toNat_segment hfits, List.range_eq_range']
  · intro p hp
    exact ((mem_segment_iff hfits).mp hp).1
  · intro q hq p hp hle
    obtain ⟨-, -, hlast⟩ := (mem_segment_iff hfits).mp hp
    -- a smaller prime is a word as well, and no more primes are below it
    have hword : (UInt64.ofNat q).toNat = q :=
      UInt64.toNat_ofNat_of_lt' (Nat.lt_of_le_of_lt hle p.toNat_lt)
    have hcount : Nat.primeCounting' q ≤ Nat.primeCounting' p.toNat :=
      Nat.monotone_primeCounting' hle
    rw [mem_segment_iff hfits, hword]
    exact ⟨hq, Nat.zero_le _, Nat.lt_of_le_of_lt hcount hlast⟩
  · intro i hi
    rw [firstPrimes_eq_ok hi, Count.primes_eq_segment h]

theorem primes_eq_first_primes_five :
    Fits 5 ∧ (Count.mk 5).primes.map UInt64.toNat = [2, 3, 5, 7, 11] ∧
      firstPrimes 5 = .ok (Count.mk 5).primes := by
  have hfits : Fits 5 := fits_primeCounting (n := 11) (by decide)
  obtain ⟨hlist, -, -, -, -, hsigned⟩ := primes_eq_first_primes ⟨5⟩ hfits
  refine ⟨hfits, ?_, hsigned 5 rfl⟩
  rw [hlist]
  simp [List.range_succ]

end PrimeListing
