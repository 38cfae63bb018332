/-
The candidates that are tested to find a list of primes.

A search puts one candidate after the other to the test of primality, from
the place where the stream stands.  `tries` lists them, in the order in which
they are tested, and `triesOfTake` those of several searches in a row.

* `afterTests_length_tries` — a search is as many tests in a row.
* `map_toNat_triesOfTake` — no candidate is left out and none is tested twice.
* `toNat_tested_take` — the stream has counted every test.
* `testedFor_primes`, `toNat_testedFor_primes` — the last prime of a list tells
  the same number.
* `debug_account` — the account that the debug flag brings is that number.
-/
import PrimeListing.Proofs.Listing
import PrimeListing.Proofs.Reading
import PrimeListing.Proofs.SingleValue

namespace PrimeListing

namespace PrimeStream

/-- The candidates that a search puts to the test, in order. -/
def tries (s : PrimeStream) : List UInt64 :=
  match _h : s.advance? with
  | none => []
  | some t => s.candidate :: if isPrime s.candidate then [] else t.tries
termination_by UInt64.size - s.candidate.toNat
decreasing_by
  have hlt := s.candidate.toNat_lt
  have ht := candidate_of_advance _h
  simp only [UInt64.size] at *
  omega

theorem tries_of_end {s : PrimeStream} (h : s.advance? = none) : s.tries = [] := by
  rw [tries]
  split
  · rfl
  · rename_i heq
    cases h.symm.trans heq

theorem tries_of_advance {s t : PrimeStream} (h : s.advance? = some t) :
    s.tries = s.candidate :: if isPrime s.candidate then [] else t.tries := by
  rw [tries]
  split
  · rename_i heq
    cases h.symm.trans heq
  · rename_i heq
    cases h.symm.trans heq
    rfl

/-- The candidates tested by the searches for the next `n` primes, in order. -/
def triesOfTake : Nat → PrimeStream → List UInt64
  | 0, _ => []
  | n + 1, s =>
    match s.next with
    | (none, _) => s.tries
    | (some _, t) => s.tries ++ triesOfTake n t

/-! ### Tests in a row -/

theorem afterTests_add (i j : Nat) (s : PrimeStream) :
    s.afterTests (i + j) = (s.afterTests i).bind (afterTests j) := by
  induction i generalizing s with
  | zero => rw [Nat.zero_add]; rfl
  | succ i ih =>
    rw [Nat.succ_add, afterTests, afterTests, Option.bind_assoc]
    exact Option.bind_congr fun t _ => ih t

theorem candidate_afterTests {j : Nat} {s t : PrimeStream} (h : s.afterTests j = some t) :
    t.candidate.toNat = s.candidate.toNat + j := by
  induction j generalizing s with
  | zero =>
    cases h
    rfl
  | succ j ih =>
    obtain ⟨u, hu, ht⟩ := Option.bind_eq_some_iff.mp h
    have hup := candidate_of_advance hu
    have hrest := ih ht
    omega

theorem afterTests_length_tries (s : PrimeStream) :
    s.afterTests s.tries.length = some s.next.2 := by
  fun_induction next s with
  | case1 s hend =>
    rw [tries_of_end hend]
    rfl
  | case2 s t hadv hprime =>
    rw [tries_of_advance hadv, if_pos hprime, List.length_singleton, afterTests, hadv]
    rfl
  | case3 s t hadv hprime ih =>
    rw [tries_of_advance hadv, if_neg hprime, List.length_cons, afterTests, hadv,
      Option.bind_some, ih]

theorem map_toNat_tries (s : PrimeStream) :
    s.tries.map UInt64.toNat = List.range' s.candidate.toNat s.tries.length := by
  fun_induction next s with
  | case1 s hend =>
    rw [tries_of_end hend]
    rfl
  | case2 s t hadv hprime =>
    rw [tries_of_advance hadv, if_pos hprime]
    rfl
  | case3 s t hadv hprime ih =>
    rw [tries_of_advance hadv, if_neg hprime, List.map_cons, List.length_cons,
      List.range'_succ, ih, candidate_of_advance hadv]

theorem afterTests_length_triesOfTake (n : Nat) (s : PrimeStream) :
    s.afterTests (triesOfTake n s).length = some (take n s).2 := by
  induction n generalizing s with
  | zero => rfl
  | succ n ih =>
    have hsearch := afterTests_length_tries s
    rw [triesOfTake, take_succ]
    cases hnext : s.next with
    | mk found t =>
      rw [hnext] at hsearch
      cases found with
      | none => exact hsearch
      | some p =>
        simp only [List.length_append, afterTests_add, hsearch, Option.bind_some, ih]

theorem map_toNat_triesOfTake (n : Nat) (s : PrimeStream) :
    (triesOfTake n s).map UInt64.toNat =
      List.range' s.candidate.toNat (triesOfTake n s).length := by
  induction n generalizing s with
  | zero => rfl
  | succ n ih =>
    have hsearch := afterTests_length_tries s
    rw [triesOfTake]
    cases hnext : s.next with
    | mk found t =>
      rw [hnext] at hsearch
      cases found with
      | none => exact map_toNat_tries s
      | some p =>
        -- the next search starts where as many tests as were made have led
        have hcandidate := candidate_afterTests hsearch
        simp only [List.map_append, List.length_append, map_toNat_tries, ih, hcandidate,
          List.range'_append_1]

theorem toNat_tested_take (n : Nat) :
    (take n {}).2.tested.toNat = (triesOfTake n {}).length := by
  have htests := afterTests_length_triesOfTake n {}
  -- every test moves the candidate and the count by one, and a fresh stream stands at 2
  have hfresh : Aligned {} := rfl
  have haligned : Aligned (take n {}).2 := aligned_afterTests hfresh htests
  have hcandidate := candidate_afterTests htests
  have hstart : ({} : PrimeStream).candidate.toNat = 2 := rfl
  rw [Aligned] at haligned
  omega

/-! ### What is found -/

/-- Nothing but primes is taken from a stream, wherever it stands. -/
theorem isPrime_of_mem_take {n : Nat} {s : PrimeStream} {p : UInt64} (h : p ∈ (take n s).1) :
    isPrime p = true := by
  rw [take_eq] at h
  exact (mem_toCome.mp (List.mem_of_mem_take h)).2

end PrimeStream

/-! ### The account of a list -/

theorem getLast?_segment_succ (m n : Nat) :
    (segment m (n + 1)).getLast? = some (primeWord (m + n)) := by
  rw [← segment_append m n 1]
  exact List.getLast?_concat

namespace Command

open PrimeStream

/-- One less than the last prime of a list is what the stream counted that the list was taken
from, and nothing is taken from zero. -/
theorem testedFor_primes {n : Count} (h : Fits n.val.toNat) :
    testedFor n.primes = (take n.val.toNat {}).2.tested ∧
      ∀ p, n.primes.getLast? = some p → 1 ≤ p.toNat := by
  rw [Count.primes_eq_segment h, take_fresh h, testedFor]
  cases hn : n.val.toNat with
  | zero =>
    refine ⟨rfl, ?_⟩
    intro p hp
    cases hp
  | succ m =>
    -- the last of `m + 1` primes is the one at position `m`
    rw [hn] at h
    have hword := toNat_primeWord (h m (Nat.lt_succ_self m))
    have htwo := (Nat.prime_nth_prime m).two_le
    have hlast : (segment 0 (m + 1)).getLast? = some (primeWord m) := by
      rw [getLast?_segment_succ, Nat.zero_add]
    have hone : (1 : UInt64) ≤ primeWord m := by
      rw [UInt64.le_iff_toNat_le, hword, UInt64.toNat_one]
      omega
    rw [hlast]
    constructor
    · apply UInt64.toNat_inj.mp
      rw [toNat_tested_after h, UInt64.toNat_sub_of_le _ _ hone, hword, UInt64.toNat_one]
      exact (Nat.add_sub_add_right _ 1 1).symm
    · rintro p hp
      cases hp
      exact UInt64.le_iff_toNat_le.mp hone

/-- The number of candidates is one less than the last prime of the list, and zero where the list is
empty, however many primes were asked for. -/
theorem toNat_testedFor_primes (n : Count) :
    (n.primes = [] → (testedFor n.primes).toNat = 0) ∧
      ∀ p, n.primes.getLast? = some p → (testedFor n.primes).toNat + 1 = p.toNat := by
  constructor
  · intro h
    rw [h]
    rfl
  · intro p hp
    have hprime : p.toNat.Prime :=
      (isPrime_iff_prime p).mp (isPrime_of_mem_take (List.mem_of_getLast? hp))
    have hone : (1 : UInt64) ≤ p := UInt64.le_iff_toNat_le.mpr hprime.one_le
    have hsub := UInt64.toNat_sub_of_le p 1 hone
    rw [UInt64.toNat_one] at hsub
    have htwo := hprime.two_le
    rw [testedFor, hp]
    simp only [hsub]
    omega

/-- Where the debug flag asks for an account of a list of words, the number in it is what a fresh
stream has counted once the list is taken from it, and that is the number of candidates tested:
all from two on, each of them once.  It is one less than the last prime, which is never zero. -/
theorem debug_account {n : Count} (h : Fits n.val.toNat) :
    Request.ofArgs ["-d", n.text] = .ok { count := n, debug := true } ∧
      (∀ args, Request.ofArgs args = .ok { count := n, debug := true } →
        (Transcript.ofArgs args).stderr =
          n.labelled ++ "\ntested " ++ decimal (take n.val.toNat {}).2.tested.toNat
            ++ " candidates\n") ∧
      (take n.val.toNat {}).1.length = n.val.toNat ∧
      testedFor n.primes = (take n.val.toNat {}).2.tested ∧
      (triesOfTake n.val.toNat {}).map UInt64.toNat =
        List.range' 2 (take n.val.toNat {}).2.tested.toNat ∧
      ∀ p, n.primes.getLast? = some p →
        1 ≤ p.toNat ∧ (testedFor n.primes).toNat = p.toNat - 1 := by
  obtain ⟨htested, hone⟩ := testedFor_primes h
  refine ⟨?_, ?_, ?_, htested, ?_, ?_⟩
  · have hvalue : Argument.read true n.text = .value n.text :=
      Argument.read_decimal true n.val.toNat
    rw [Request.ofArgs_debug_value hvalue, Request.ofValue, n.read_text]
  · intro args hargs
    rw [Transcript.ofArgs_of_request hargs, ← htested]
    rfl
  · rw [take_fresh h, length_segment]
  · rw [map_toNat_triesOfTake, toNat_tested_take]
    rfl
  · intro p hp
    refine ⟨hone p hp, ?_⟩
    have hle : (1 : UInt64) ≤ p := UInt64.le_iff_toNat_le.mpr (hone p hp)
    rw [testedFor, hp]
    exact UInt64.toNat_sub_of_le p 1 hle

/-- The five primes up to 11 are found among ten candidates. -/
theorem debug_account_five :
    Fits 5 ∧ Request.ofArgs ["-d", "5"] = .ok { count := ⟨5⟩, debug := true } ∧
      (Transcript.ofArgs ["-d", "5"]).stderr = "Count(5)\ntested 10 candidates\n" ∧
      testedFor (Count.mk 5).primes = 10 := by
  have hfits : Fits 5 := fits_primeCounting (n := 11) (by decide)
  have hcount : (take 5 {}).2.tested = 10 := by cbv
  obtain ⟨hrequest, haccount, -, htested, -⟩ := debug_account (n := ⟨5⟩) hfits
  refine ⟨hfits, hrequest, ?_, htested.trans hcount⟩
  have hval : (Count.mk 5).val.toNat = 5 := rfl
  rw [haccount ["-d", "5"] hrequest, hval, hcount]
  rfl

end Command

end PrimeListing
