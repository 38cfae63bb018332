/-
The stream of primes.

A stream stands at a candidate, the next number to be tested, and counts the
candidates it has tested.  A fresh one stands at 2.  Asking for the next prime
tests one candidate after the other until one is prime; the stream ends at the
largest word, which has no successor to stand at and is never tested.

* `advance?` is one test, `next` a whole search, and `next_of_advance` gives
  the search in terms of the single test.
* `toNat_lt_of_next` — a search that finds a prime moves the candidate up.
* `nth`, `take`, `takeWhileBelow` and `findAbove` consume several primes; each
  returns what it found with the stream as it stands afterwards.
* `take_succ`, `takeWhileBelow_eq`, `findAbove_eq` unfold one round of them.
-/
import PrimeListing.Numeral
import PrimeListing.Text.Labelled
import PrimeListing.TrialDivision

namespace PrimeListing

/-- A stream of primes in ascending order. -/
structure PrimeStream where
  /-- The next number to be tested. -/
  candidate : UInt64 := 2
  /-- How many candidates have been tested so far. -/
  tested : UInt64 := 0
  deriving DecidableEq

namespace PrimeStream

/-- The stream after its candidate has been tested, unless it stands at the largest word. -/
@[inline] def advance? (s : PrimeStream) : Option PrimeStream :=
  if s.candidate = UInt64.ofNat (UInt64.size - 1) then none
  else some { candidate := s.candidate + 1, tested := s.tested + 1 }

theorem candidate_of_advance {s t : PrimeStream} (h : s.advance? = some t) :
    t.candidate.toNat = s.candidate.toNat + 1 := by
  unfold advance? at h
  split at h
  · cases h
  · rename_i hmax
    cases h
    have hlt : s.candidate.toNat < UInt64.size := s.candidate.toNat_lt
    have hne : s.candidate.toNat ≠ UInt64.size - 1 := fun he =>
      hmax (UInt64.toNat_inj.mp (by rw [he]; rfl))
    exact toNat_succ_of_lt (by omega)

/-- The next prime, and the stream once it has been consumed. -/
def next (s : PrimeStream) : Option UInt64 × PrimeStream :=
  match _h : s.advance? with
  | none => (none, s)
  | some t => if isPrime s.candidate then (some s.candidate, t) else t.next
termination_by UInt64.size - s.candidate.toNat
decreasing_by
  have hlt := s.candidate.toNat_lt
  have ht := candidate_of_advance _h
  simp only [UInt64.size] at *
  omega

/-- At the largest word there is no next prime. -/
theorem next_of_end {s : PrimeStream} (h : s.advance? = none) : s.next = (none, s) := by
  rw [next]
  split
  · rfl
  · rename_i heq
    cases h.symm.trans heq

/-- Elsewhere the candidate is tested: it is the answer, or the search goes on. -/
theorem next_of_advance {s t : PrimeStream} (h : s.advance? = some t) :
    s.next = if isPrime s.candidate then (some s.candidate, t) else t.next := by
  rw [next]
  split
  · rename_i heq
    cases h.symm.trans heq
  · rename_i heq
    cases h.symm.trans heq
    rfl

/-- A search that finds a prime leaves the stream above the place where it began. -/
theorem toNat_lt_of_next {s t : PrimeStream} {p : UInt64} (h : s.next = (some p, t)) :
    s.candidate.toNat < t.candidate.toNat := by
  fun_induction next s with
  | case1 s hend => cases h
  | case2 s u hadv hprime =>
    cases h
    rw [candidate_of_advance hadv]
    exact Nat.lt_succ_self _
  | case3 s u hadv hprime ih =>
    have := candidate_of_advance hadv
    have := ih h
    omega

/-- Skip `k` primes and give the one after them. -/
def nth : Nat → PrimeStream → Option UInt64 × PrimeStream
  | 0, s => s.next
  | k + 1, s =>
    match s.next with
    | (none, t) => (none, t)
    | (some _, t) => nth k t

/-- At most `n` more primes, behind the reversed list `found` of those found before. -/
def collect (found : List UInt64) : Nat → PrimeStream → List UInt64 × PrimeStream
  | 0, s => (found.reverse, s)
  | n + 1, s =>
    match s.next with
    | (none, t) => (found.reverse, t)
    | (some p, t) => collect (p :: found) n t

/-- The next `n` primes; fewer only when the stream ends. -/
def take (n : Nat) (s : PrimeStream) : List UInt64 × PrimeStream := collect [] n s

/-- What was found before only stands in front. -/
theorem collect_eq (found : List UInt64) (n : Nat) (s : PrimeStream) :
    collect found n s = (found.reverse ++ (take n s).1, (take n s).2) := by
  unfold take
  induction n generalizing found s with
  | zero => simp [collect]
  | succ n ih =>
    simp only [collect]
    split
    · simp
    · rename_i p t _
      rw [ih (p :: found) t, ih [p] t]
      simp

theorem take_zero (s : PrimeStream) : take 0 s = ([], s) := rfl

theorem take_succ (n : Nat) (s : PrimeStream) :
    take (n + 1) s =
      match s.next with
      | (none, t) => ([], t)
      | (some p, t) => (p :: (take n t).1, (take n t).2) := by
  rw [take, collect]
  split
  · rfl
  · rename_i p t _
    rw [collect_eq]
    rfl

/-- The next primes below `bound`, behind the reversed list `found` of those found before. -/
def collectBelow (bound : UInt64) (found : List UInt64) (s : PrimeStream) :
    List UInt64 × PrimeStream :=
  match _h : s.next with
  | (none, t) => (found.reverse, t)
  | (some p, t) => if p < bound then collectBelow bound (p :: found) t else (found.reverse, t)
termination_by UInt64.size - s.candidate.toNat
decreasing_by
  have hlt := t.candidate.toNat_lt
  have := toNat_lt_of_next _h
  simp only [UInt64.size] at *
  omega

/-- The next primes while they are below `bound`; the first one that is not is consumed too. -/
def takeWhileBelow (bound : UInt64) (s : PrimeStream) : List UInt64 × PrimeStream :=
  collectBelow bound [] s

/-- What was found before only stands in front. -/
theorem collectBelow_eq (bound : UInt64) (found : List UInt64) (s : PrimeStream) :
    collectBelow bound found s =
      (found.reverse ++ (takeWhileBelow bound s).1, (takeWhileBelow bound s).2) := by
  unfold takeWhileBelow
  suffices h : ∀ m (s : PrimeStream) (found : List UInt64),
      UInt64.size - s.candidate.toNat ≤ m →
      collectBelow bound found s =
        (found.reverse ++ (collectBelow bound [] s).1, (collectBelow bound [] s).2) from
    h _ s found (Nat.le_refl _)
  intro m
  induction m with
  | zero =>
    intro s found hm
    have := s.candidate.toNat_lt
    simp only [UInt64.size] at hm
    omega
  | succ m ih =>
    intro s found hm
    rw [collectBelow, collectBelow]
    split
    · simp
    · rename_i p t hnext
      have hlt := t.candidate.toNat_lt
      have hup := toNat_lt_of_next hnext
      have hm' : UInt64.size - t.candidate.toNat ≤ m := by
        simp only [UInt64.size] at *
        omega
      split
      · rw [ih t (p :: found) hm', ih t [p] hm']
        simp
      · simp

theorem takeWhileBelow_eq (bound : UInt64) (s : PrimeStream) :
    takeWhileBelow bound s =
      match s.next with
      | (none, t) => ([], t)
      | (some p, t) =>
        if p < bound then (p :: (takeWhileBelow bound t).1, (takeWhileBelow bound t).2)
        else ([], t) := by
  rw [takeWhileBelow, collectBelow]
  split
  · rename_i t hnext
    rw [hnext]
    rfl
  · rename_i p t hnext
    rw [hnext]
    split
    · rename_i hlt
      rw [collectBelow_eq]
      simp [hlt]
    · rename_i hge
      simp [hge]

/-- The first of the following primes that is above `bound`; those before it are consumed. -/
def findAbove (bound : UInt64) (s : PrimeStream) : Option UInt64 × PrimeStream :=
  match _h : s.next with
  | (none, t) => (none, t)
  | (some p, t) => if bound < p then (some p, t) else findAbove bound t
termination_by UInt64.size - s.candidate.toNat
decreasing_by
  have hlt := t.candidate.toNat_lt
  have := toNat_lt_of_next _h
  simp only [UInt64.size] at *
  omega

theorem findAbove_eq (bound : UInt64) (s : PrimeStream) :
    findAbove bound s =
      match s.next with
      | (none, t) => (none, t)
      | (some p, t) => if bound < p then (some p, t) else findAbove bound t := by
  rw [findAbove]
  split <;> rename_i hnext <;> rw [hnext]

/-- The two fields of a stream with their values. -/
def fields (s : PrimeStream) : List (String × String) :=
  [("candidate", decimal s.candidate.toNat), ("tested", decimal s.tested.toNat)]

def labelled (s : PrimeStream) : String := Text.record "Primes" s.fields

def labelledBlock (s : PrimeStream) : String := Text.recordBlock "Primes" s.fields

end PrimeStream

end PrimeListing
