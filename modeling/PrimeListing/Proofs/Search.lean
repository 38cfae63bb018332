/-
What a search for the next prime does.

A search goes in passes.  In each pass the counters are moved on and one number
is tested.  From any stream the passes go from the candidate up to the least
prime that is not below it, if there is one among the words, and they stop
there.  A stream from which the first `m` primes have been taken is `after m`,
and on these streams a search is one step along the sequence of primes.

* `next_eq_pass` — a search is a first pass and what follows on it.
* `atPass_eq_some_iff` — which passes there are, and what the counters are at
  each of them.  The induction is on the number of the pass, and what it carries
  is that no prime was met before.
* `next_of_least` — the result of a search that begins at an arbitrary stream.
* `search_ends_at_least_prime` — the same with the number of passes, where the
  count of the tested candidates does not wrap around.
* `next_after` — a search takes the prime at position `m` from `after m` and
  leaves `after (m + 1)`.
* `next_of_next_none` — once a stream has ended it stays as it is.
* `aligned_afterTests` — a stream whose counters run side by side keeps them so
  through any number of tests, and no addition wraps around.
-/
import Mathlib.Order.Bounds.Defs
import Mathlib.Tactic.IntervalCases
import PrimeListing.PrimeStream.Basic
import PrimeListing.Proofs.PrimeSequence
import PrimeListing.Proofs.TrialDivision

namespace PrimeListing.PrimeStream

/-! ### A single test -/

/-- Below the largest word a test moves both counters on. -/
theorem advance_of_succ_lt {s : PrimeStream} (h : s.candidate.toNat + 1 < UInt64.size) :
    s.advance? = some { candidate := s.candidate + 1, tested := s.tested + 1 } := by
  have hmax : s.candidate ≠ UInt64.ofNat (UInt64.size - 1) := by
    intro heq
    have htop : s.candidate.toNat = UInt64.size - 1 := by rw [heq]; rfl
    omega
  rw [advance?, if_neg hmax]

/-- The stream after `j` tests in a row; none where the largest word comes before. -/
def afterTests : Nat → PrimeStream → Option PrimeStream
  | 0, s => some s
  | j + 1, s => s.advance?.bind (afterTests j)

/-- The number of tested candidates keeps pace with the candidate, which began at two. -/
def Aligned (s : PrimeStream) : Prop := s.tested.toNat + 2 = s.candidate.toNat

/-- In step with the candidate, the number of tested candidates does not wrap around. -/
theorem Aligned.tested_of_advance {s t : PrimeStream} (hs : Aligned s)
    (h : s.advance? = some t) : t.tested.toNat = s.tested.toNat + 1 := by
  have hlt : s.candidate.toNat < UInt64.size := s.candidate.toNat_lt
  unfold Aligned at hs
  unfold advance? at h
  split at h
  · cases h
  · cases h
    exact toNat_succ_of_lt (by omega)

theorem Aligned.advance {s t : PrimeStream} (hs : Aligned s) (h : s.advance? = some t) :
    Aligned t := by
  have htested := hs.tested_of_advance h
  have hcandidate := candidate_of_advance h
  unfold Aligned at hs ⊢
  omega

theorem aligned_afterTests {j : Nat} {s t : PrimeStream} (hs : Aligned s)
    (h : s.afterTests j = some t) : Aligned t := by
  induction j generalizing s with
  | zero =>
    cases h
    exact hs
  | succ j ih =>
    obtain ⟨u, hu, ht⟩ := Option.bind_eq_some_iff.mp h
    exact ih (hs.advance hu) ht

/-! ### The passes of a search -/

/-- How one pass of a search ends. -/
inductive Pass
  /-- The candidate is the largest word, and the search ends with nothing. -/
  | exhausted
  /-- The candidate is prime, and the search ends with it. -/
  | found (p : UInt64) (t : PrimeStream)
  /-- The candidate is not prime, and another pass follows. -/
  | again (t : PrimeStream)
  deriving DecidableEq

/-- One pass: the counters are moved on, and the number that was the candidate is tested. -/
def pass (s : PrimeStream) : Pass :=
  match s.advance? with
  | none => .exhausted
  | some t => if isPrime s.candidate then .found s.candidate t else .again t

/-- The stream that a further pass begins with, if there is one. -/
def Pass.rest? : Pass → Option PrimeStream
  | .again t => some t
  | .exhausted | .found _ _ => none

/-- The stream at the beginning of pass `j`, where the first pass is number zero; none where the
search has ended before. -/
def atPass (s : PrimeStream) : Nat → Option PrimeStream
  | 0 => some s
  | j + 1 => (s.atPass j).bind fun u => u.pass.rest?

/-- The stream with both counters moved on by `j`. -/
def moved (s : PrimeStream) (j : Nat) : PrimeStream where
  candidate := s.candidate + UInt64.ofNat j
  tested := s.tested + UInt64.ofNat j

theorem moved_zero (s : PrimeStream) : s.moved 0 = s := by
  simp [moved]

theorem moved_moved (s : PrimeStream) (i j : Nat) : (s.moved i).moved j = s.moved (i + j) := by
  simp only [moved, UInt64.ofNat_add, UInt64.add_assoc]

theorem toNat_candidate_moved {s : PrimeStream} {j : Nat}
    (h : s.candidate.toNat + j < UInt64.size) :
    (s.moved j).candidate.toNat = s.candidate.toNat + j :=
  toNat_add_ofNat h

theorem toNat_tested_moved {s : PrimeStream} {j : Nat} (h : s.tested.toNat + j < UInt64.size) :
    (s.moved j).tested.toNat = s.tested.toNat + j :=
  toNat_add_ofNat h

/-- A search is a first pass and what follows on it. -/
theorem next_eq_pass (s : PrimeStream) :
    s.next =
      match s.pass with
      | .exhausted => (none, s)
      | .found p t => (some p, t)
      | .again t => t.next := by
  by_cases hend : s.advance? = none
  · rw [next_of_end hend, pass, hend]
  · obtain ⟨t, hadv⟩ := Option.ne_none_iff_exists'.mp hend
    rw [next_of_advance hadv, pass, hadv]
    by_cases hprime : isPrime s.candidate = true
    · simp only [hprime, if_true]
    · simp only [hprime, if_false, Bool.false_eq_true]

/-- Below the largest word a pass tests the candidate. -/
theorem pass_of_succ_lt {s : PrimeStream} (h : s.candidate.toNat + 1 < UInt64.size) :
    s.pass =
      if isPrime s.candidate then .found s.candidate (s.moved 1) else .again (s.moved 1) := by
  rw [pass, advance_of_succ_lt h]
  rfl

theorem pass_ne_exhausted {s : PrimeStream} (h : s.candidate.toNat + 1 < UInt64.size) :
    s.pass ≠ .exhausted := by
  rw [pass_of_succ_lt h]
  split <;> exact nofun

theorem pass_of_size_le {s : PrimeStream} (h : UInt64.size ≤ s.candidate.toNat + 1) :
    s.pass = .exhausted := by
  have hlast : s.candidate = UInt64.ofNat (UInt64.size - 1) := by
    have hlt : s.candidate.toNat < UInt64.size := s.candidate.toNat_lt
    apply UInt64.toNat_inj.mp
    show s.candidate.toNat = UInt64.size - 1
    omega
  have hend : s.advance? = none := if_pos hlast
  rw [pass, hend]

theorem rest_pass_eq_some_iff {s t : PrimeStream} :
    s.pass.rest? = some t ↔
      s.candidate.toNat + 1 < UInt64.size ∧ ¬ s.candidate.toNat.Prime ∧ t = s.moved 1 := by
  by_cases hlt : s.candidate.toNat + 1 < UInt64.size
  · rw [pass_of_succ_lt hlt, ← isPrime_iff_prime]
    by_cases hprime : isPrime s.candidate = true
    · simp [hprime, Pass.rest?]
    · simp [hprime, hlt, Pass.rest?, eq_comm]
  · rw [pass_of_size_le (Nat.le_of_not_lt hlt)]
    simp [Pass.rest?, hlt]

/-- What a search comes to is decided by any of its passes. -/
theorem next_of_atPass {s u : PrimeStream} {j : Nat} (h : s.atPass j = some u) :
    s.next = u.next := by
  induction j generalizing u with
  | zero =>
    cases h
    rfl
  | succ j ih =>
    obtain ⟨v, hv, hrest⟩ := Option.bind_eq_some_iff.mp h
    have hpass : v.pass = .again u := by
      rcases hp : v.pass with _ | ⟨p, t⟩ | t
      · rw [hp] at hrest
        cases hrest
      · rw [hp] at hrest
        cases hrest
      · rw [hp] at hrest
        cases hrest
        rfl
    rw [ih hv, next_eq_pass, hpass]

/-- There is a pass number `j` exactly if there is a word `j` above the candidate and no prime was
met on the way to it.  Both counters have been moved on by `j` then. -/
theorem atPass_eq_some_iff {s u : PrimeStream} {j : Nat} :
    s.atPass j = some u ↔
      s.candidate.toNat + j < UInt64.size ∧
        (∀ q, q.Prime → s.candidate.toNat ≤ q → s.candidate.toNat + j ≤ q) ∧ u = s.moved j := by
  induction j generalizing u with
  | zero =>
    have hlt : s.candidate.toNat < UInt64.size := s.candidate.toNat_lt
    rw [atPass, moved_zero, Option.some.injEq, eq_comm]
    constructor
    · intro h
      exact ⟨hlt, fun q _ hle => hle, h⟩
    · rintro ⟨-, -, h⟩
      exact h
  | succ j ih =>
    rw [atPass, Option.bind_eq_some_iff]
    constructor
    · rintro ⟨v, hv, hrest⟩
      obtain ⟨hlt, hnone, rfl⟩ := ih.mp hv
      obtain ⟨hsucc, hcomposite, rfl⟩ := rest_pass_eq_some_iff.mp hrest
      rw [toNat_candidate_moved hlt] at hsucc hcomposite
      refine ⟨hsucc, ?_, moved_moved s j 1⟩
      intro q hq hle
      have hne : q ≠ s.candidate.toNat + j := by
        rintro rfl
        exact hcomposite hq
      have := hnone q hq hle
      omega
    · rintro ⟨hlt, hnone, rfl⟩
      have hlt' : s.candidate.toNat + j < UInt64.size := by omega
      refine ⟨s.moved j, ih.mpr ⟨hlt', fun q hq hle => ?_, rfl⟩, ?_⟩
      · have := hnone q hq hle
        omega
      · rw [rest_pass_eq_some_iff, toNat_candidate_moved hlt', moved_moved]
        refine ⟨hlt, ?_, rfl⟩
        intro hprime
        have := hnone _ hprime (Nat.le_add_right _ _)
        omega

/-! ### A whole search -/

/-- The passes go on up to the one for the first prime. -/
theorem exists_atPass_iff {s : PrimeStream} {gap j : Nat} (hp : (s.candidate.toNat + gap).Prime)
    (hlt : s.candidate.toNat + gap < UInt64.size)
    (hleast : ∀ q, q.Prime → s.candidate.toNat ≤ q → s.candidate.toNat + gap ≤ q) :
    (∃ u, s.atPass j = some u) ↔ j ≤ gap := by
  constructor
  · rintro ⟨u, hu⟩
    obtain ⟨-, hnone, -⟩ := atPass_eq_some_iff.mp hu
    have := hnone _ hp (Nat.le_add_right _ _)
    omega
  · intro hj
    refine ⟨s.moved j, atPass_eq_some_iff.mpr ⟨by omega, fun q hq hle => ?_, rfl⟩⟩
    have := hleast q hq hle
    omega

/-- Where no prime was met before, the pass for a prime ends the search with it. -/
theorem pass_of_least {s : PrimeStream} {gap : Nat} (hp : (s.candidate.toNat + gap).Prime)
    (hlt : s.candidate.toNat + gap < UInt64.size)
    (hleast : ∀ q, q.Prime → s.candidate.toNat ≤ q → s.candidate.toNat + gap ≤ q) :
    s.atPass gap = some (s.moved gap) ∧
      (s.moved gap).pass = .found (s.candidate + UInt64.ofNat gap) (s.moved (gap + 1)) := by
  have hsucc := succ_lt_size_of_prime hp hlt
  have hcandidate := toNat_candidate_moved hlt
  have hprime : isPrime (s.moved gap).candidate = true := by
    rw [isPrime_iff_prime, hcandidate]
    exact hp
  refine ⟨atPass_eq_some_iff.mpr ⟨hlt, hleast, rfl⟩, ?_⟩
  rw [pass_of_succ_lt (by omega), if_pos hprime, moved_moved]
  rfl

/-- A search ends at the least prime that is not below the candidate. -/
theorem next_of_least {s : PrimeStream} {p : Nat} (hp : p.Prime) (hlt : p < UInt64.size)
    (hge : s.candidate.toNat ≤ p)
    (hleast : ∀ q, q.Prime → s.candidate.toNat ≤ q → p ≤ q) :
    s.next = (some (UInt64.ofNat p),
      { candidate := UInt64.ofNat (p + 1),
        tested := s.tested + UInt64.ofNat (p + 1 - s.candidate.toNat) }) := by
  obtain ⟨gap, rfl⟩ := Nat.exists_eq_add_of_le hge
  obtain ⟨hat, hpass⟩ := pass_of_least hp hlt hleast
  have hcount : s.candidate.toNat + gap + 1 - s.candidate.toNat = gap + 1 := by omega
  have hword : ∀ j, UInt64.ofNat (s.candidate.toNat + j) = s.candidate + UInt64.ofNat j := by
    intro j
    rw [UInt64.ofNat_add, UInt64.ofNat_toNat]
  rw [next_of_atPass hat, next_eq_pass, hpass, hcount, Nat.add_assoc, hword, hword]
  rfl

/-- From any stream, reachable or not, a search makes one pass for each number from the candidate up
to the least prime that is not below it.  No pass meets the largest word, the last one finds the
prime, and the counters have moved on by one in each, as long as the count of the tested candidates
has room for that. -/
theorem search_ends_at_least_prime {s : PrimeStream} {p : UInt64}
    (hp : IsLeast {q : Nat | q.Prime ∧ s.candidate.toNat ≤ q} p.toNat)
    (htested : s.tested.toNat + (p.toNat - s.candidate.toNat + 1) < UInt64.size) :
    ∃ t, s.next = (some p, t) ∧
      t.candidate.toNat = p.toNat + 1 ∧
      t.tested.toNat = s.tested.toNat + (p.toNat - s.candidate.toNat + 1) ∧
      (∀ j, (∃ u, s.atPass j = some u) ↔ j < p.toNat - s.candidate.toNat + 1) ∧
      (∀ j u, s.atPass j = some u →
        u.pass ≠ .exhausted ∧
          u.candidate.toNat = s.candidate.toNat + j ∧ u.tested.toNat = s.tested.toNat + j) ∧
      ∃ u, s.atPass (p.toNat - s.candidate.toNat) = some u ∧ u.pass = .found p t := by
  obtain ⟨⟨hprime, hge⟩, hlower⟩ := hp
  have hlt : p.toNat < UInt64.size := p.toNat_lt
  have hleast : ∀ q, q.Prime → s.candidate.toNat ≤ q → p.toNat ≤ q :=
    fun q hq hle => hlower ⟨hq, hle⟩
  have hsucc := succ_lt_size_of_prime hprime hlt
  set gap := p.toNat - s.candidate.toNat with hgap
  have hsum : s.candidate.toNat + gap = p.toNat := by omega
  have hword : s.candidate + UInt64.ofNat gap = p := by
    rw [← UInt64.ofNat_toNat (x := p), ← hsum, UInt64.ofNat_add, UInt64.ofNat_toNat]
  rw [← hsum] at hprime hlt hleast
  have hpasses : ∀ j, (∃ u, s.atPass j = some u) ↔ j ≤ gap :=
    fun j => exists_atPass_iff hprime hlt hleast
  obtain ⟨hat, hpass⟩ := pass_of_least hprime hlt hleast
  rw [hword] at hpass
  refine ⟨s.moved (gap + 1), ?_, ?_, ?_, ?_, ?_, s.moved gap, hat, hpass⟩
  · rw [next_of_atPass hat, next_eq_pass, hpass]
  · rw [toNat_candidate_moved (by omega)]
    omega
  · exact toNat_tested_moved htested
  · intro j
    rw [hpasses, Nat.lt_succ_iff]
  · intro j u hu
    have hle : j ≤ gap := (hpasses j).mp ⟨u, hu⟩
    obtain ⟨hroom, -, rfl⟩ := atPass_eq_some_iff.mp hu
    have hcandidate := toNat_candidate_moved hroom
    exact ⟨pass_ne_exhausted (by omega), hcandidate, toNat_tested_moved (by omega)⟩

/-- From a stream that no run leads to, with a count that six tests bring to the largest word, the
search makes six passes to 29. -/
theorem search_ends_at_twenty_nine :
    IsLeast {q : Nat | q.Prime ∧ (24 : UInt64).toNat ≤ q} (29 : UInt64).toNat ∧
      (18446744073709551609 : UInt64).toNat + 6 < UInt64.size ∧
      ∃ t, next { candidate := 24, tested := 18446744073709551609 } = (some 29, t) ∧
        t.candidate.toNat = 30 ∧ t.tested.toNat = 18446744073709551615 ∧
        ∀ j, (∃ u, atPass { candidate := 24, tested := 18446744073709551609 } j = some u) ↔
          j < 6 := by
  have hleast : IsLeast {q : Nat | q.Prime ∧ (24 : UInt64).toNat ≤ q} (29 : UInt64).toNat := by
    refine ⟨⟨show Nat.Prime 29 by decide, show 24 ≤ 29 by decide⟩, ?_⟩
    rintro q ⟨hq, hle⟩
    have hlow : 24 ≤ q := hle
    show 29 ≤ q
    by_contra hlt
    have hhigh : q < 29 := Nat.lt_of_not_le hlt
    interval_cases q <;> exact absurd hq (by decide)
  have hroom : (18446744073709551609 : UInt64).toNat + 6 < UInt64.size := by decide
  obtain ⟨t, hnext, hcandidate, htested, hpasses, -⟩ :=
    search_ends_at_least_prime (s := { candidate := 24, tested := 18446744073709551609 })
      hleast hroom
  exact ⟨hleast, hroom, t, hnext, hcandidate, htested, hpasses⟩

/-- Once a stream has ended, asking again changes nothing. -/
theorem next_of_next_none {s t : PrimeStream} (h : s.next = (none, t)) : t.next = (none, t) := by
  fun_induction next s with
  | case1 s hend =>
    cases h
    exact next_of_end hend
  | case2 s u hadv hprime => cases h
  | case3 s u hadv hprime ih => exact ih h

/-! ### Along the sequence of primes -/

/-- The stream once the first `m` primes have been taken from it. -/
noncomputable def after (m : Nat) : PrimeStream where
  candidate := UInt64.ofNat (frontier m)
  tested := UInt64.ofNat (frontier m - 2)

theorem after_zero : after 0 = {} := rfl

theorem toNat_candidate_after {m : Nat} (h : Fits m) :
    (after m).candidate.toNat = frontier m :=
  UInt64.toNat_ofNat_of_lt' h.frontier_lt

theorem toNat_tested_after {m : Nat} (h : Fits m) :
    (after m).tested.toNat = frontier m - 2 := by
  have := h.frontier_lt
  exact UInt64.toNat_ofNat_of_lt' (by omega)

theorem aligned_after {m : Nat} (h : Fits m) : Aligned (after m) := by
  have := two_le_frontier m
  rw [Aligned, toNat_candidate_after h, toNat_tested_after h]
  omega

/-- A search is one step along the sequence of primes. -/
theorem next_after {m : Nat} (h : Fits (m + 1)) :
    (after m).next = (some (primeWord m), after (m + 1)) := by
  have hcand := toNat_candidate_after (h.mono (Nat.le_succ m))
  have hfrontier := frontier_le_nth m
  have htwo := two_le_frontier m
  rw [next_of_least (Nat.prime_nth_prime m) (h m (Nat.lt_succ_self m)) (hcand ▸ hfrontier)
    (fun q hq hle => nth_le_of_frontier_le hq (hcand ▸ hle)), hcand]
  have htested : (after m).tested + UInt64.ofNat (Nat.nth Nat.Prime m + 1 - frontier m)
      = UInt64.ofNat (Nat.nth Nat.Prime m + 1 - 2) := by
    rw [after, ← UInt64.ofNat_add]
    congr 1
    omega
  rw [htested]
  rfl

end PrimeListing.PrimeStream
