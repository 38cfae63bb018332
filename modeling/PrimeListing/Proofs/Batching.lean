/-
Batches of primes.

Primes can be asked for one by one, with some skipped, or several at a time.
How they are asked for makes no difference: a sequence of such actions hands
out, or skips, the primes one after the other, none twice and none left out.

* `Handout` — how a row of primes is dealt out over the actions of a sequence.
* `handout_after` — along the sequence of primes, the row dealt out is the
  segment that comes next.
* `batching_irrelevant` — the same of every reachable stream, on which
  moreover batches of any size can be divided.
-/
import PrimeListing.Proofs.Counters

namespace PrimeListing.PrimeStream

/-- The answers to a sequence of actions, and the stream they leave. -/
def acts : List Action → PrimeStream → List Answer × PrimeStream
  | [], s => ([], s)
  | a :: as, s => ((s.act a).1 :: (acts as (s.act a).2).1, (acts as (s.act a).2).2)

/-- How many primes have been taken in all once a sequence of actions follows on `m` primes. -/
def takenBy (as : List Action) (m : Nat) : Nat := as.foldl (fun m a => a.taken m) m

theorem le_takenBy (as : List Action) (m : Nat) : m ≤ takenBy as m := by
  induction as generalizing m with
  | nil => exact Nat.le_refl m
  | cons a as ih => exact Nat.le_trans (a.le_taken m) (ih (a.taken m))

/-- An action that takes a number of primes fixed beforehand. -/
def Action.isBatch : Action → Bool
  | .next | .nth _ | .take _ => true
  | .takeWhileBelow _ | .findAbove _ => false
  | .lengthBounds | .takenLengthBounds _ | .labelled | .labelledBlock | .tested => false

/-- A row of primes is dealt out in order: each action hands out, or skips, the ones that come
next in the row. -/
inductive Handout : List Action → List Answer → List UInt64 → Prop
  | nil : Handout [] [] []
  | next {as answers row} (p : UInt64) : Handout as answers row →
      Handout (.next :: as) (.prime (some p) :: answers) (p :: row)
  | nth {as answers row} (skipped : List UInt64) (p : UInt64) : Handout as answers row →
      Handout (.nth skipped.length :: as) (.prime (some p) :: answers) (skipped ++ p :: row)
  | take {as answers row} (batch : List UInt64) : Handout as answers row →
      Handout (.take batch.length :: as) (.primes batch :: answers) (batch ++ row)

/-- Along the sequence of primes, the row dealt out is the segment that comes next. -/
theorem handout_after {as : List Action} {m : Nat} (hbatch : ∀ a ∈ as, a.isBatch = true)
    (h : Fits (takenBy as m)) :
    Handout as ((after m).acts as).1 (segment m (takenBy as m - m)) ∧
      ((after m).acts as).2 = after (takenBy as m) := by
  induction as generalizing m with
  | nil =>
    rw [takenBy, List.foldl_nil, Nat.sub_self]
    exact ⟨.nil, rfl⟩
  | cons a as ih =>
    have hrest : takenBy (a :: as) m = takenBy as (a.taken m) := rfl
    have htaken : m ≤ a.taken m := a.le_taken m
    have htakenBy : a.taken m ≤ takenBy as (a.taken m) := le_takenBy as _
    have hfits : Fits (a.taken m) := h.mono htakenBy
    obtain ⟨hdealt, hleft⟩ := ih (fun a ha => hbatch a (List.mem_cons_of_mem _ ha)) h
    rw [hrest, acts, act_after hfits]
    refine ⟨?_, hleft⟩
    -- the segment begins with the primes of the first action
    have hsplit : takenBy as (a.taken m) - m
        = (a.taken m - m) + (takenBy as (a.taken m) - a.taken m) := by omega
    rw [hsplit, ← segment_append, Nat.add_sub_cancel' htaken]
    cases a with
    | next =>
      have hone : Action.next.taken m - m = 1 := by simp [Action.taken]
      rw [hone, act, next_after hfits]
      exact .next (primeWord m) hdealt
    | nth k =>
      have hwidth : (Action.nth k).taken m - m = k + 1 := by simp [Action.taken, Nat.add_assoc]
      rw [hwidth, ← segment_append, act, nth_after hfits, List.append_assoc]
      have hskip := Handout.nth (segment m k) (primeWord (m + k)) hdealt
      rwa [length_segment] at hskip
    | take n =>
      have hwidth : (Action.take n).taken m - m = n := by simp [Action.taken]
      rw [hwidth, act, take_after hfits]
      have hwhole := Handout.take (segment m n) hdealt
      rwa [length_segment] at hwhole
    | takeWhileBelow | findAbove | lengthBounds | takenLengthBounds | labelled | labelledBlock
    | tested => cases hbatch _ List.mem_cons_self

/-- On a stream from which `m` primes have been taken, batches can be divided at will. -/
structure Divisible (m : Nat) (s : PrimeStream) : Prop where
  nth_eq : ∀ k, s.nth k = (s.nexts k).2.next
  nexts_eq : ∀ k, Fits (m + k) → s.nexts k = ((s.take k).1.map some, (s.take k).2)
  take_zero : s.take 0 = ([], s)
  take_add : ∀ a b, s.take (a + b) =
    ((s.take a).1 ++ ((s.take a).2.take b).1, ((s.take a).2.take b).2)

theorem divisible_after (m : Nat) : Divisible m (after m) where
  nth_eq := fun k => nth_eq_next_nexts k _
  nexts_eq := by
    intro k hfits
    rw [nexts_after hfits, take_after hfits]
  take_zero := PrimeStream.take_zero _
  take_add := fun a b => PrimeStream.take_add a b _

/-- A sequence of batches deals out the segment of primes that follows those taken before, and
leaves what as many single searches leave; there as everywhere batches can be divided. -/
theorem batching_irrelevant {m : Nat} {s : PrimeStream} (hs : Reachable m s) {as : List Action}
    (hbatch : ∀ a ∈ as, a.isBatch = true) (hfits : Fits (takenBy as m)) :
    Handout as (s.acts as).1 (segment m (takenBy as m - m)) ∧
      (s.acts as).2 = (s.nexts (takenBy as m - m)).2 ∧
      Divisible (takenBy as m) (s.acts as).2 := by
  have hle := le_takenBy as m
  obtain rfl := hs.eq_after (hfits.mono hle)
  obtain ⟨hdealt, hleft⟩ := handout_after hbatch hfits
  refine ⟨hdealt, ?_, ?_⟩
  · rw [hleft, nexts_after_sub hle hfits]
  · rw [hleft]
    exact divisible_after _

/-- A copy of a stream from which 2 and 3 have been taken deals out the primes from 5 to 17. -/
theorem batching_irrelevant_of_copy :
    Reachable 2 { candidate := 4, tested := 2 } ∧
      Fits (takenBy [.next, .nth 1, .take 0, .take 2] 2) ∧
      Handout [.next, .nth 1, .take 0, .take 2]
        (acts [.next, .nth 1, .take 0, .take 2] { candidate := 4, tested := 2 }).1
        (segment 2 5) := by
  have hs : Reachable 2 { candidate := 4, tested := 2 } :=
    ⟨[.act (.take 2), .copy], { entries := [2, 2], focus := 1, focus_lt := by decide }, _,
      { streams := [{ candidate := 4, tested := 2 }, { candidate := 4, tested := 2 }],
        focus := 1, focus_lt := by decide }, 1, rfl, by cbv, rfl, rfl⟩
  have hfits : Fits (takenBy [.next, .nth 1, .take 0, .take 2] 2) :=
    fits_primeCounting (n := 17) (by decide)
  exact ⟨hs, hfits, (batching_irrelevant hs (by decide) hfits).1⟩

end PrimeListing.PrimeStream
