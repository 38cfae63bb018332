/-
The primes of an interval are a segment of the stream of all primes.

A list of primes is found in two ways: by testing every number of an interval,
or by taking one prime after the other from a stream.  Ascending lists that
hold the same numbers are the same list, so it is enough to compare what they
hold.  The largest word needs no care: it lies in intervals and is never
tested by a stream, but it is not prime.

* `mem_toCome_fresh` — a fresh stream gives every prime word.
* `toCome_fresh_eq_append` — what comes before an interval, the primes in it,
  and what comes after it make up that stream.
* `primesBetween_append` — neighbouring intervals.
* `take_eq_filter_of_getLast?` — the front of an ascending list is cut off by
  its last member.
* `primesBetween_eq_segment` — both ways find the same primes.
-/
import Mathlib.Data.List.Sort
import PrimeListing.Proofs.PrimesToCome

namespace PrimeListing

open PrimeStream

theorem two_le_of_isPrime {p : UInt64} (h : isPrime p = true) : 2 ≤ p :=
  of_decide_eq_true (Bool.and_eq_true_iff.mp h).1

/-- A fresh stream gives every prime word. -/
theorem mem_toCome_fresh {p : UInt64} : p ∈ ({} : PrimeStream).toCome ↔ isPrime p = true := by
  rw [mem_toCome]
  exact and_iff_right_of_imp two_le_of_isPrime

theorem primesBetween_eq_filter (lo hi : UInt64) :
    primesBetween lo hi = ({} : PrimeStream).toCome.filter fun p => lo ≤ p ∧ p ≤ hi := by
  refine (pairwise_primesBetween lo hi).eq_of_mem_iff ((pairwise_toCome {}).filter _) fun p => ?_
  rw [mem_primesBetween, List.mem_filter, mem_toCome_fresh, decide_eq_true_eq]
  exact and_comm

/-- The stream of all primes comes to an interval, goes through it and leaves it behind. -/
theorem toCome_fresh_eq_append (lo hi : UInt64) :
    ({} : PrimeStream).toCome.filter (· < lo) ++ primesBetween lo hi ++
        ({} : PrimeStream).toCome.filter (fun p => lo ≤ p ∧ hi < p) =
      ({} : PrimeStream).toCome := by
  have hall := pairwise_toCome {}
  refine List.Pairwise.eq_of_mem_iff ?_ hall fun p => ?_
  · rw [List.append_assoc, List.pairwise_append, List.pairwise_append]
    refine ⟨hall.filter _, ⟨pairwise_primesBetween lo hi, hall.filter _, ?_⟩, ?_⟩
    · intro p hp q hq
      have hle : p ≤ hi := (mem_primesBetween.mp hp).1.2
      have hlt : hi < q := (of_decide_eq_true (List.mem_filter.mp hq).2).2
      exact UInt64.lt_of_le_of_lt hle hlt
    · intro p hp q hq
      have hlt : p < lo := of_decide_eq_true (List.mem_filter.mp hp).2
      have hle : lo ≤ q := by
        rcases List.mem_append.mp hq with hmem | hmem
        · exact (mem_primesBetween.mp hmem).1.1
        · exact (of_decide_eq_true (List.mem_filter.mp hmem).2).1
      exact UInt64.lt_of_lt_of_le hlt hle
  · have hplace : p < lo ∨ (lo ≤ p ∧ p ≤ hi) ∨ (lo ≤ p ∧ hi < p) := by
      simp only [UInt64.lt_iff_toNat_lt, UInt64.le_iff_toNat_le]
      omega
    simp only [List.mem_append, List.mem_filter, mem_primesBetween, mem_toCome_fresh,
      decide_eq_true_eq]
    tauto

/-- An interval that is cut in two is listed in two parts. -/
theorem primesBetween_append {lo m hi : UInt64} (hlo : lo ≤ m) (hhi : m < hi) :
    primesBetween lo m ++ primesBetween (m + 1) hi = primesBetween lo hi := by
  have hsucc : (m + 1).toNat = m.toNat + 1 := TrialDivision.toNat_add_one hhi
  rw [UInt64.le_iff_toNat_le] at hlo
  rw [UInt64.lt_iff_toNat_lt] at hhi
  refine List.Pairwise.eq_of_mem_iff ?_ (pairwise_primesBetween lo hi) fun p => ?_
  · refine List.pairwise_append.mpr
      ⟨pairwise_primesBetween _ _, pairwise_primesBetween _ _, fun p hp q hq => ?_⟩
    obtain ⟨⟨-, hpm⟩, -⟩ := mem_primesBetween.mp hp
    obtain ⟨⟨hmq, -⟩, -⟩ := mem_primesBetween.mp hq
    rw [UInt64.le_iff_toNat_le] at hpm hmq
    rw [UInt64.lt_iff_toNat_lt]
    omega
  · rw [List.mem_append, mem_primesBetween, mem_primesBetween, mem_primesBetween, ← or_and_right]
    refine and_congr_left fun _ => ?_
    simp only [UInt64.le_iff_toNat_le]
    omega

/-- What is taken from the front of an ascending list is all that is not above the last of it. -/
theorem take_eq_filter_of_getLast? {l : List UInt64} (hl : l.Pairwise (· < ·)) {k : Nat}
    {p : UInt64} (h : (l.take k).getLast? = some p) : l.take k = l.filter (· ≤ p) := by
  obtain ⟨front, hfront⟩ := List.getLast?_eq_some_iff.mp h
  have hsplit : front ++ [p] ++ l.drop k = l := by
    rw [← hfront]
    exact List.take_append_drop k l
  rw [← hsplit, List.pairwise_append, List.pairwise_append] at hl
  obtain ⟨⟨-, -, hbelow⟩, -, habove⟩ := hl
  have hkept : (front ++ [p]).filter (· ≤ p) = front ++ [p] := by
    refine List.filter_eq_self.mpr fun q hq => decide_eq_true ?_
    rcases List.mem_append.mp hq with hmem | hmem
    · exact UInt64.le_of_lt (hbelow q hmem p (List.mem_singleton_self p))
    · exact UInt64.le_of_eq (List.mem_singleton.mp hmem)
  have hdropped : (l.drop k).filter (· ≤ p) = [] := by
    refine List.filter_eq_nil_iff.mpr fun q hq hle => ?_
    have hlt : p < q := habove p (by simp) q hq
    exact UInt64.not_le.mpr hlt (of_decide_eq_true hle)
  conv_rhs => rw [← hsplit]
  rw [List.filter_append, hkept, hdropped, List.append_nil, hfront]

/-- The list for a count holds the primes up to the last of it. -/
theorem Count.primes_eq_primesBetween (n : Count) :
    n.primes = primesBetween 0 (n.primes.getLast?.getD 1) := by
  have htake : n.primes = ({} : PrimeStream).toCome.take n.val.toNat := by
    rw [Count.primes, take_eq]
  rw [primesBetween_eq_filter]
  cases hlast : n.primes.getLast? with
  | none =>
    rw [List.getLast?_eq_none_iff.mp hlast, eq_comm, List.filter_eq_nil_iff]
    intro p hp hle
    -- the least prime is above one
    have htwo := two_le_of_isPrime (mem_toCome_fresh.mp hp)
    have hone : p ≤ 1 := (of_decide_eq_true hle).2
    exact absurd (UInt64.le_trans htwo hone) (by decide)
  | some p =>
    rw [htake] at hlast ⊢
    rw [take_eq_filter_of_getLast? (pairwise_toCome {}) hlast]
    refine List.filter_congr fun q _ => ?_
    simp

/-- The primes of an interval, found by testing each of its numbers, are in order and are those of
the stream of all primes that lie in it, which stand there side by side; there are none where the
ends are the wrong way round.  So the list for a count is the list for the interval from zero up to
its last prime, or up to one if it is empty, and an interval may be cut in two anywhere. -/
theorem primesBetween_eq_segment :
    (∀ lo hi : UInt64,
      (primesBetween lo hi).Pairwise (· < ·) ∧
        (∀ k, k ∈ primesBetween lo hi ↔ (lo ≤ k ∧ k ≤ hi) ∧ isPrime k = true) ∧
        primesBetween lo hi = ({} : PrimeStream).toCome.filter (fun p => lo ≤ p ∧ p ≤ hi) ∧
        primesBetween lo hi <:+: ({} : PrimeStream).toCome ∧
        (hi < lo → primesBetween lo hi = [])) ∧
      (∀ n : Count, n.primes = primesBetween 0 (n.primes.getLast?.getD 1)) ∧
      ∀ lo m hi : UInt64, lo ≤ m → m < hi →
        primesBetween lo hi = primesBetween lo m ++ primesBetween (m + 1) hi := by
  refine ⟨fun lo hi => ⟨pairwise_primesBetween lo hi, fun _ => mem_primesBetween,
    primesBetween_eq_filter lo hi, ?_, primesBetween_of_lt⟩, Count.primes_eq_primesBetween, ?_⟩
  · exact ⟨_, _, toCome_fresh_eq_append lo hi⟩
  · exact fun lo m hi hlo hhi => (primesBetween_append hlo hhi).symm

end PrimeListing
