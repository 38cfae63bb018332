/-
What is still to come from a stream of primes.

A stream is known to those who ask it for primes by the list `toCome` of all
that it will give up to its end.  From any stream, reachable or not, these are
the primes from the candidate on.  Every action takes them from the front of
that list, and what it leaves is known by the rest of the list.

* `nth_eq_next_nexts`, `take_add` — skipping and taking in parts, on any
  stream, ended or not.
* `toCome_eq_primesBetween` — from the candidate on no prime is left out.
* `take_eq`, `nth_eq` — batches are taken from the front.
* `takeWhileBelow_eq_nth`, `findAbove_eq_nth` — a search with a bound skips what
  is on the near side of it, and takes one prime more.
* `act_eq_nexts` — an action comes to a number of searches in a row.
* `toCome_act`, `mem_toCome_of_found` — what it leaves is the rest of the list,
  and what it hands out was in the list.
* `Aligned.act` — it keeps the counters side by side.
-/
import PrimeListing.Listing
import PrimeListing.PrimeStream.Action
import PrimeListing.Proofs.Search

namespace PrimeListing

/-! ### Intervals of words -/

/-- The largest word, where a stream ends. -/
def lastWord : UInt64 := UInt64.ofNat (UInt64.size - 1)

theorem toNat_lastWord : lastWord.toNat = UInt64.size - 1 := rfl

theorem le_lastWord (k : UInt64) : k ≤ lastWord := by
  have hlt := k.toNat_lt
  rw [UInt64.le_iff_toNat_le, toNat_lastWord]
  simp only [UInt64.size]
  omega

theorem not_isPrime_lastWord : isPrime lastWord = false := by
  rw [Bool.eq_false_iff, Ne, isPrime_iff_prime]
  intro hprime
  have hsucc := succ_lt_size_of_prime hprime lastWord.toNat_lt
  rw [toNat_lastWord] at hsucc
  exact absurd hsucc (by decide)

/-- An interval begins with its lower end, if there is a word above it. -/
theorem interval_of_le {lo hi : UInt64} (hle : lo ≤ hi) (hlo : lo.toNat + 1 < UInt64.size) :
    interval lo hi = lo :: interval (lo + 1) hi := by
  rw [UInt64.le_iff_toNat_le] at hle
  have hlength : hi.toNat + 1 - lo.toNat = (hi.toNat + 1 - (lo.toNat + 1)) + 1 := by omega
  rw [interval, interval, toNat_succ_of_lt hlo, hlength, List.range'_succ, List.map_cons,
    UInt64.ofNat_toNat]

theorem primesBetween_of_le {lo hi : UInt64} (hle : lo ≤ hi) (hlo : lo.toNat + 1 < UInt64.size) :
    primesBetween lo hi =
      if isPrime lo then lo :: primesBetween (lo + 1) hi else primesBetween (lo + 1) hi := by
  rw [primesBetween, interval_of_le hle hlo, List.filter_cons]
  rfl

theorem primesBetween_lastWord : primesBetween lastWord lastWord = [] := by
  have hself : interval lastWord lastWord = [lastWord] := rfl
  rw [primesBetween, hself, List.filter_singleton, not_isPrime_lastWord]
  rfl

theorem pairwise_interval (lo hi : UInt64) : (interval lo hi).Pairwise (· < ·) := by
  rw [interval, List.pairwise_map]
  refine List.Pairwise.imp_of_mem ?_ List.pairwise_lt_range'
  intro a b ha hb hlt
  have hlast := hi.toNat_lt
  rw [List.mem_range'_1] at ha hb
  rw [UInt64.lt_iff_toNat_lt, UInt64.toNat_ofNat_of_lt' (by simp only [UInt64.size]; omega),
    UInt64.toNat_ofNat_of_lt' (by simp only [UInt64.size]; omega)]
  exact hlt

theorem pairwise_primesBetween (lo hi : UInt64) : (primesBetween lo hi).Pairwise (· < ·) :=
  (pairwise_interval lo hi).filter _

namespace PrimeStream

/-! ### Searches in a row -/

/-- The answers of `k` searches in a row, and the stream they leave. -/
def nexts : Nat → PrimeStream → List (Option UInt64) × PrimeStream
  | 0, s => ([], s)
  | k + 1, s => (s.next.1 :: (nexts k s.next.2).1, (nexts k s.next.2).2)

theorem nexts_succ {k : Nat} {s t : PrimeStream} {answer : Option UInt64}
    (h : s.next = (answer, t)) :
    nexts (k + 1) s = (answer :: (nexts k t).1, (nexts k t).2) := by
  rw [nexts, h]

theorem nexts_of_ended {s : PrimeStream} (h : s.next = (none, s)) (k : Nat) :
    (nexts k s).2 = s := by
  induction k with
  | zero => rfl
  | succ k ih => rw [nexts_succ h, ih]

/-- Skipping `k` primes is `k` searches whose answers are dropped, and one more. -/
theorem nth_eq_next_nexts (k : Nat) (s : PrimeStream) : nth k s = (nexts k s).2.next := by
  induction k generalizing s with
  | zero => rfl
  | succ k ih =>
    rw [nth]
    split
    · rename_i t hend
      have hstay := next_of_next_none hend
      rw [nexts_succ hend, nexts_of_ended hstay, hstay]
    · rename_i p t hfound
      rw [nexts_succ hfound, ih]

theorem take_of_ended {s : PrimeStream} (h : s.next = (none, s)) (n : Nat) :
    take n s = ([], s) := by
  cases n with
  | zero => rfl
  | succ n => rw [take_succ, h]

/-- Taking in two parts gives the same primes and leaves the same stream. -/
theorem take_add (a b : Nat) (s : PrimeStream) :
    take (a + b) s = ((take a s).1 ++ (take b (take a s).2).1, (take b (take a s).2).2) := by
  induction a generalizing s with
  | zero => rw [Nat.zero_add, take_zero, List.nil_append]
  | succ a ih =>
    rw [Nat.succ_add, take_succ, take_succ]
    split
    · rename_i t hend
      rw [take_of_ended (next_of_next_none hend), List.append_nil]
    · rename_i p t hfound
      rw [ih t, List.cons_append]

/-! ### The list of what is to come -/

/-- The primes that are still to come from a stream, up to its end. -/
def toCome (s : PrimeStream) : List UInt64 :=
  match _h : s.next with
  | (none, _) => []
  | (some p, t) => p :: t.toCome
termination_by UInt64.size - s.candidate.toNat
decreasing_by
  have hlt := t.candidate.toNat_lt
  have := toNat_lt_of_next _h
  simp only [UInt64.size] at *
  omega

theorem toCome_of_next_none {s t : PrimeStream} (h : s.next = (none, t)) : s.toCome = [] := by
  rw [toCome]
  split
  · rfl
  · next heq => cases h.symm.trans heq

theorem toCome_of_next_some {s t : PrimeStream} {p : UInt64} (h : s.next = (some p, t)) :
    s.toCome = p :: t.toCome := by
  rw [toCome]
  split
  · next heq => cases h.symm.trans heq
  · next heq =>
    cases h.symm.trans heq
    rfl

theorem next_of_toCome_nil {s : PrimeStream} (h : s.toCome = []) : s.next = (none, s.next.2) := by
  cases hnext : s.next with
  | mk found t =>
    cases found with
    | none => rfl
    | some p =>
      rw [toCome_of_next_some hnext] at h
      cases h

theorem next_of_toCome_cons {s : PrimeStream} {p : UInt64} {ps : List UInt64}
    (h : s.toCome = p :: ps) : ∃ t, s.next = (some p, t) ∧ t.toCome = ps := by
  cases hnext : s.next with
  | mk found t =>
    cases found with
    | none =>
      rw [toCome_of_next_none hnext] at h
      cases h
    | some q =>
      rw [toCome_of_next_some hnext] at h
      obtain ⟨rfl, hrest⟩ := List.cons.inj h
      exact ⟨t, rfl, hrest⟩

/-- A test decides whether the candidate is the first of what is to come. -/
theorem toCome_of_advance {s t : PrimeStream} (h : s.advance? = some t) :
    s.toCome = if isPrime s.candidate then s.candidate :: t.toCome else t.toCome := by
  by_cases hprime : isPrime s.candidate = true
  · have hnext : s.next = (some s.candidate, t) := by
      rw [next_of_advance h, if_pos hprime]
    rw [toCome_of_next_some hnext, if_pos hprime]
  · have hnext : s.next = t.next := by
      rw [next_of_advance h, if_neg hprime]
    rw [if_neg hprime, toCome, toCome, hnext]

/-- From any stream the primes from the candidate on are to come. -/
theorem toCome_eq_primesBetween (s : PrimeStream) :
    s.toCome = primesBetween s.candidate lastWord := by
  -- induction on how many candidates there are up to the end
  obtain ⟨left, hleft⟩ : ∃ left, s.candidate.toNat + left = UInt64.size - 1 := by
    have hle := UInt64.le_iff_toNat_le.mp (le_lastWord s.candidate)
    rw [toNat_lastWord] at hle
    exact ⟨_, Nat.add_sub_cancel' hle⟩
  induction left generalizing s with
  | zero =>
    have hlast : s.candidate = lastWord :=
      UInt64.toNat_inj.mp (by rw [toNat_lastWord]; exact hleft)
    have hend : s.advance? = none := if_pos hlast
    rw [toCome_of_next_none (next_of_end hend), hlast, primesBetween_lastWord]
  | succ left ih =>
    have hlt : s.candidate.toNat + 1 < UInt64.size := by
      simp only [UInt64.size] at hleft ⊢
      omega
    have hadvance := advance_of_succ_lt hlt
    have hup := candidate_of_advance hadvance
    rw [toCome_of_advance hadvance, primesBetween_of_le (le_lastWord _) hlt,
      ih { candidate := s.candidate + 1, tested := s.tested + 1 } (by omega)]

theorem mem_toCome {s : PrimeStream} {p : UInt64} :
    p ∈ s.toCome ↔ s.candidate ≤ p ∧ isPrime p = true := by
  rw [toCome_eq_primesBetween, mem_primesBetween, and_iff_left (le_lastWord p)]

theorem pairwise_toCome (s : PrimeStream) : s.toCome.Pairwise (· < ·) := by
  rw [toCome_eq_primesBetween]
  exact pairwise_primesBetween _ _

/-! ### Actions take from the front -/

theorem fst_next (s : PrimeStream) : s.next.1 = s.toCome.head? := by
  cases h : s.toCome with
  | nil => rw [next_of_toCome_nil h, List.head?_nil]
  | cons p ps =>
    obtain ⟨t, hnext, -⟩ := next_of_toCome_cons h
    rw [hnext, List.head?_cons]

theorem toCome_next (s : PrimeStream) : s.next.2.toCome = s.toCome.tail := by
  cases h : s.toCome with
  | nil =>
    have hstay := next_of_next_none (next_of_toCome_nil h)
    rw [toCome_of_next_none hstay, List.tail_nil]
  | cons p ps =>
    obtain ⟨t, hnext, hrest⟩ := next_of_toCome_cons h
    rw [hnext, hrest, List.tail_cons]

theorem toCome_nexts (k : Nat) (s : PrimeStream) : (nexts k s).2.toCome = s.toCome.drop k := by
  induction k generalizing s with
  | zero => rfl
  | succ k ih => rw [nexts, ih, toCome_next, List.drop_tail]

theorem nth_eq (k : Nat) (s : PrimeStream) :
    nth k s = (s.toCome[k]?, (nexts (k + 1) s).2) := by
  have hlast : (nexts (k + 1) s).2 = (nexts k s).2.next.2 := by
    induction k generalizing s with
    | zero => rfl
    | succ k ih => rw [nexts, ih s.next.2, nexts]
  rw [hlast, ← List.head?_drop, ← toCome_nexts, ← fst_next, nth_eq_next_nexts]

theorem nth_succ {s t : PrimeStream} {p : UInt64} (h : s.next = (some p, t)) (k : Nat) :
    nth (k + 1) s = nth k t := by
  rw [nth, h]

theorem take_eq (n : Nat) (s : PrimeStream) : take n s = (s.toCome.take n, (nexts n s).2) := by
  induction n generalizing s with
  | zero => rfl
  | succ n ih =>
    cases h : s.toCome with
    | nil =>
      have hend := next_of_toCome_nil h
      rw [take_succ, nexts_succ hend, nexts_of_ended (next_of_next_none hend), hend]
      rfl
    | cons p ps =>
      obtain ⟨t, hnext, rfl⟩ := next_of_toCome_cons h
      rw [take_succ, hnext, nexts_succ hnext, List.take_succ_cons]
      simp only [ih t]

/-- Taking while below a bound skips what is below it, and takes one prime more. -/
theorem takeWhileBelow_eq_nth (bound : UInt64) (s : PrimeStream) :
    takeWhileBelow bound s =
      (s.toCome.takeWhile (· < bound), (nth (s.toCome.takeWhile (· < bound)).length s).2) := by
  induction h : s.toCome generalizing s with
  | nil =>
    rw [takeWhileBelow_eq, next_of_toCome_nil h]
    rfl
  | cons p ps ih =>
    obtain ⟨t, hnext, hrest⟩ := next_of_toCome_cons h
    rw [takeWhileBelow_eq, hnext]
    by_cases hlt : p < bound
    · rw [List.takeWhile_cons_of_pos (by simpa using hlt), List.length_cons, nth_succ hnext]
      simp only [if_pos hlt, ih t hrest]
    · rw [List.takeWhile_cons_of_neg (by simpa using hlt), List.length_nil, nth, hnext]
      simp only [if_neg hlt]

/-- Looking above a bound skips what is not above it, and takes one prime more. -/
theorem findAbove_eq_nth (bound : UInt64) (s : PrimeStream) :
    findAbove bound s = nth (s.toCome.takeWhile (· ≤ bound)).length s := by
  induction h : s.toCome generalizing s with
  | nil =>
    rw [findAbove_eq, next_of_toCome_nil h]
    exact (next_of_toCome_nil h).symm
  | cons p ps ih =>
    obtain ⟨t, hnext, hrest⟩ := next_of_toCome_cons h
    rw [findAbove_eq, hnext]
    by_cases hlt : bound < p
    · rw [List.takeWhile_cons_of_neg (by simpa using hlt), List.length_nil, nth, hnext]
      simp only [if_pos hlt]
    · rw [List.takeWhile_cons_of_pos (by simpa using hlt), List.length_cons, nth_succ hnext]
      simp only [if_neg hlt, ih t hrest]

/-- The number of searches that an action comes to. -/
def searches (s : PrimeStream) : Action → Nat
  | .next => 1
  | .nth k => k + 1
  | .take n => n
  | .takeWhileBelow bound => (s.toCome.takeWhile (· < bound)).length + 1
  | .findAbove bound => (s.toCome.takeWhile (· ≤ bound)).length + 1
  | .lengthBounds | .takenLengthBounds _ | .labelled | .labelledBlock | .tested => 0

theorem act_eq_nexts (s : PrimeStream) (a : Action) :
    (s.act a).2 = (nexts (s.searches a) s).2 := by
  cases a with
  | next => rfl
  | nth k => exact congrArg Prod.snd (nth_eq k s)
  | take n => exact congrArg Prod.snd (take_eq n s)
  | takeWhileBelow bound =>
    rw [act, takeWhileBelow_eq_nth, nth_eq]
    rfl
  | findAbove bound =>
    rw [act, findAbove_eq_nth, nth_eq]
    rfl
  | lengthBounds | takenLengthBounds | labelled | labelledBlock | tested => rfl

theorem toCome_act (s : PrimeStream) (a : Action) :
    (s.act a).2.toCome = s.toCome.drop (s.searches a) := by
  rw [act_eq_nexts, toCome_nexts]

/-- The primes that an answer hands out. -/
def Answer.found : Answer → List UInt64
  | .prime found => found.toList
  | .primes found => found
  | .bounds _ | .text _ | .silence => []

/-- Only what was to come is handed out. -/
theorem mem_toCome_of_found {s : PrimeStream} {a : Action} {p : UInt64}
    (h : p ∈ (s.act a).1.found) : p ∈ s.toCome := by
  cases a with
  | next =>
    have hhead : s.next.1 = some p := Option.mem_toList.mp h
    rw [fst_next] at hhead
    exact List.mem_of_head? hhead
  | nth k =>
    have hat : (nth k s).1 = some p := Option.mem_toList.mp h
    rw [nth_eq] at hat
    exact List.mem_of_getElem? hat
  | take n =>
    have hmem : p ∈ (take n s).1 := h
    rw [take_eq] at hmem
    exact List.mem_of_mem_take hmem
  | takeWhileBelow bound =>
    have hmem : p ∈ (takeWhileBelow bound s).1 := h
    rw [takeWhileBelow_eq_nth] at hmem
    exact (List.takeWhile_sublist _).subset hmem
  | findAbove bound =>
    have hat : (findAbove bound s).1 = some p := Option.mem_toList.mp h
    rw [findAbove_eq_nth, nth_eq] at hat
    exact List.mem_of_getElem? hat
  | lengthBounds | takenLengthBounds | labelled | labelledBlock | tested => cases h

/-! ### The counters -/

theorem Aligned.next {s : PrimeStream} (hs : Aligned s) : Aligned s.next.2 := by
  fun_induction PrimeStream.next s with
  | case1 s hend => exact hs
  | case2 s t hadv hprime => exact hs.advance hadv
  | case3 s t hadv hprime ih => exact ih (hs.advance hadv)

theorem Aligned.nexts {s : PrimeStream} (hs : Aligned s) (k : Nat) : Aligned (nexts k s).2 := by
  induction k generalizing s with
  | zero => exact hs
  | succ k ih => exact ih hs.next

theorem Aligned.act {s : PrimeStream} (hs : Aligned s) (a : Action) : Aligned (s.act a).2 := by
  rw [act_eq_nexts]
  exact hs.nexts _

/-- The candidate is one above the prime found last. -/
theorem candidate_of_next {s t : PrimeStream} {p : UInt64} (h : s.next = (some p, t)) :
    t.candidate.toNat = p.toNat + 1 := by
  fun_induction PrimeStream.next s with
  | case1 s hend => cases h
  | case2 s t hadv hprime =>
    cases h
    exact candidate_of_advance hadv
  | case3 s u hadv hprime ih => exact ih h

/-- Behind so many skipped primes the next one is found, and the stream stands right behind it. -/
theorem exists_nth_eq {s : PrimeStream} {skipped rest : List UInt64} {p : UInt64}
    (h : s.toCome = skipped ++ p :: rest) :
    ∃ t, nth skipped.length s = (some p, t) ∧ t.candidate.toNat = p.toNat + 1 ∧
      t.toCome = rest := by
  have hskip : (nexts skipped.length s).2.toCome = p :: rest := by
    rw [toCome_nexts, h, List.drop_left]
  obtain ⟨t, hnext, hrest⟩ := next_of_toCome_cons hskip
  exact ⟨t, (nth_eq_next_nexts _ _).trans hnext, candidate_of_next hnext, hrest⟩

end PrimeStream

end PrimeListing
