/-
What the actions take from a stream.

Every action that takes primes is a number of searches in a row.  On the
streams along the sequence of primes this number is known beforehand:
`Action.taken a m` is how many primes have been taken in all once `a` follows
on `m` primes.

* `toCome_after` — what is to come begins with the primes that are next in the
  sequence.
* `take_after`, `nth_after`, `takeWhileBelow_after`, `findAbove_after` — the
  answer and the stream left, along the sequence of primes.
* `act_after` — an action moves from `after m` to `after (a.taken m)`.
-/
import PrimeListing.Proofs.PrimesToCome

namespace PrimeListing.PrimeStream

/-! ### Along the sequence of primes -/

theorem nexts_after {m k : Nat} (h : Fits (m + k)) :
    (after m).nexts k = ((segment m k).map some, after (m + k)) := by
  induction k generalizing m with
  | zero => rfl
  | succ k ih =>
    have hnext := next_after (h.mono (by omega : m + 1 ≤ m + (k + 1)))
    have hrest := ih (m := m + 1) (h.mono (by omega))
    rw [nexts_succ hnext, hrest, segment_succ, List.map_cons, Nat.succ_add_eq_add_succ]

/-- From one place in the sequence of primes to a later one it is a search for each prime. -/
theorem nexts_after_sub {m n : Nat} (hle : m ≤ n) (h : Fits n) :
    (after m).nexts (n - m) = ((segment m (n - m)).map some, after n) := by
  have hsum : m + (n - m) = n := Nat.add_sub_cancel' hle
  rw [nexts_after (hsum.symm ▸ h), hsum]

theorem take_after {m n : Nat} (h : Fits (m + n)) :
    (after m).take n = (segment m n, after (m + n)) := by
  induction n generalizing m with
  | zero => rfl
  | succ n ih =>
    have hnext := next_after (h.mono (by omega : m + 1 ≤ m + (n + 1)))
    have hrest := ih (m := m + 1) (h.mono (by omega))
    rw [take_succ, hnext]
    simp only [hrest, segment_succ, Nat.succ_add_eq_add_succ]

/-- Taking from a fresh stream gives the first primes. -/
theorem take_fresh {n : Nat} (h : Fits n) : take n {} = (segment 0 n, after n) := by
  have htake := take_after (m := 0) (n := n) (by rwa [Nat.zero_add])
  rwa [after_zero, Nat.zero_add] at htake

theorem nth_after {m k : Nat} (h : Fits (m + k + 1)) :
    (after m).nth k = (some (primeWord (m + k)), after (m + k + 1)) := by
  rw [nth_eq_next_nexts, nexts_after (h.mono (Nat.le_succ _)), next_after h]

/-- The prime at position `m` is below a bound exactly if more than `m` primes are. -/
theorem primeWord_lt_iff {m : Nat} {bound : UInt64} (h : Fits (m + 1)) :
    primeWord m < bound ↔ m < Nat.primeCounting' bound.toNat := by
  rw [UInt64.lt_iff_toNat_lt, toNat_primeWord (h m (Nat.lt_succ_self m))]
  exact (Nat.lt_nth_iff_count_lt Nat.infinite_setOfPred_prime).symm

/-- The prime at position `m` is above a bound exactly if at most `m` primes are not. -/
theorem lt_primeWord_iff {m : Nat} {bound : UInt64} (h : Fits (m + 1)) :
    bound < primeWord m ↔ Nat.primeCounting bound.toNat ≤ m := by
  rw [UInt64.lt_iff_toNat_lt, toNat_primeWord (h m (Nat.lt_succ_self m))]
  exact (Nat.count_le_iff_le_nth Nat.infinite_setOfPred_prime).symm

/-- What is to come after `m` primes begins with the primes from position `m` on. -/
theorem toCome_after {m n : Nat} (h : Fits (m + n)) :
    (after m).toCome = segment m n ++ (after (m + n)).toCome := by
  induction n generalizing m with
  | zero => rfl
  | succ n ih =>
    have hnext := next_after (h.mono (by omega : m + 1 ≤ m + (n + 1)))
    have hrest := ih (m := m + 1) (h.mono (by omega))
    rw [toCome_of_next_some hnext, hrest, segment_succ, List.cons_append,
      Nat.succ_add_eq_add_succ]

/-- Skipping ends before the first prime in the sequence that is not to be skipped. -/
theorem takeWhile_toCome_after {m n : Nat} {skip : UInt64 → Bool} (h : Fits (m + n + 1))
    (hskip : ∀ k, m ≤ k → k < m + n → skip (primeWord k) = true)
    (hstop : ¬ skip (primeWord (m + n)) = true) :
    (after m).toCome.takeWhile skip = segment m n := by
  have hsegment : ∀ p ∈ segment m n, skip p = true := by
    intro p hp
    obtain ⟨k, hk, rfl⟩ := List.mem_map.mp hp
    obtain ⟨hle, hlt⟩ := List.mem_range'_1.mp hk
    exact hskip k hle hlt
  rw [toCome_after (h.mono (Nat.le_succ _)), toCome_of_next_some (next_after h),
    List.takeWhile_append_of_pos hsegment, List.takeWhile_cons_of_neg hstop, List.append_nil]

/-- Taking while below a bound gives the primes below it that are left, and takes one more. -/
theorem takeWhileBelow_after {m : Nat} {bound : UInt64}
    (h : Fits (max m (Nat.primeCounting' bound.toNat) + 1)) :
    (after m).takeWhileBelow bound =
      (segment m (Nat.primeCounting' bound.toNat - m),
        after (max m (Nat.primeCounting' bound.toNat) + 1)) := by
  have hsum : m + (Nat.primeCounting' bound.toNat - m) =
      max m (Nat.primeCounting' bound.toNat) := by omega
  have hbelow : ∀ k, k ≤ max m (Nat.primeCounting' bound.toNat) →
      (primeWord k < bound ↔ k < Nat.primeCounting' bound.toNat) :=
    fun k hk => primeWord_lt_iff (h.mono (Nat.succ_le_succ hk))
  rw [← hsum] at h hbelow ⊢
  have hskipped : (after m).toCome.takeWhile (· < bound) =
      segment m (Nat.primeCounting' bound.toNat - m) := by
    refine takeWhile_toCome_after h (fun k hle hlt => ?_) ?_
    · exact decide_eq_true ((hbelow k hlt.le).mpr (by omega))
    · rw [decide_eq_true_eq, hbelow _ (Nat.le_refl _)]
      omega
  rw [takeWhileBelow_eq_nth, hskipped, length_segment, nth_after h]

/-- Looking above a bound takes what is left up to it, and gives the prime that follows. -/
theorem findAbove_after {m : Nat} {bound : UInt64}
    (h : Fits (max m (Nat.primeCounting bound.toNat) + 1)) :
    (after m).findAbove bound =
      (some (primeWord (max m (Nat.primeCounting bound.toNat))),
        after (max m (Nat.primeCounting bound.toNat) + 1)) := by
  have hsum : m + (Nat.primeCounting bound.toNat - m) =
      max m (Nat.primeCounting bound.toNat) := by omega
  have habove : ∀ k, k ≤ max m (Nat.primeCounting bound.toNat) →
      (bound < primeWord k ↔ Nat.primeCounting bound.toNat ≤ k) :=
    fun k hk => lt_primeWord_iff (h.mono (Nat.succ_le_succ hk))
  rw [← hsum] at h habove ⊢
  have hskipped : (after m).toCome.takeWhile (· ≤ bound) =
      segment m (Nat.primeCounting bound.toNat - m) := by
    refine takeWhile_toCome_after h (fun k hle hlt => ?_) ?_
    · rw [decide_eq_true_eq, ← UInt64.not_lt, habove k hlt.le]
      omega
    · rw [decide_eq_true_eq, UInt64.not_le, habove _ (Nat.le_refl _)]
      omega
  rw [findAbove_eq_nth, hskipped, length_segment, nth_after h]

/-- How many primes have been taken in all once an action follows on `m` primes. -/
def Action.taken (a : Action) (m : Nat) : Nat :=
  match a with
  | .next => m + 1
  | .nth k => m + k + 1
  | .take n => m + n
  | .takeWhileBelow bound => max m (Nat.primeCounting' bound.toNat) + 1
  | .findAbove bound => max m (Nat.primeCounting bound.toNat) + 1
  | .lengthBounds | .takenLengthBounds _ | .labelled | .labelledBlock | .tested => m

theorem Action.le_taken (a : Action) (m : Nat) : m ≤ a.taken m := by
  cases a <;> simp only [Action.taken] <;> omega

/-- An action is so many steps along the sequence of primes. -/
theorem act_after {a : Action} {m : Nat} (h : Fits (a.taken m)) :
    ((after m).act a).2 = after (a.taken m) := by
  cases a with
  | next => exact congrArg Prod.snd (next_after h)
  | nth k => exact congrArg Prod.snd (nth_after h)
  | take n => exact congrArg Prod.snd (take_after h)
  | takeWhileBelow bound => exact congrArg Prod.snd (takeWhileBelow_after h)
  | findAbove bound => exact congrArg Prod.snd (findAbove_after h)
  | lengthBounds | takenLengthBounds | labelled | labelledBlock | tested => rfl

end PrimeListing.PrimeStream
