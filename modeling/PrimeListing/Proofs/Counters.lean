/-
The counters of every stream in a pool.

The ledger of a pool notes for each stream how many primes have been taken
from it, a copy beginning with those taken from its source.  Whatever is done
to a pool, a stream with `m` primes noted is the stream `after m`, as long as
these primes are words.

* `ledger_keeps` — single notes and streams belong together through every kind
  of step.
* `eq_after_of_ledger` — hence they do so after a run.
* `Reachable.eq_after` — a stream in some pool is known by the number of primes
  taken from it.
* `counters_along_run` — the candidate is one above the last prime taken, the
  number of tested candidates one below it, and neither ever wraps around.
-/
import PrimeListing.Proofs.Account
import PrimeListing.Proofs.Consumption

namespace PrimeListing.PrimeStream

/-- The account of how many primes have been taken from each stream. -/
def ledger : Account Nat where
  fresh := 0
  act := Action.taken

/-- A stream stands where the number of primes noted for it says, if these primes are words. -/
def Noted (m : Nat) (s : PrimeStream) : Prop := Fits m → s = after m

theorem ledger_keeps : ledger.Keeps Noted where
  fresh := fun _ => after_zero.symm
  act := by
    intro m s a hnoted hfits
    rw [hnoted (hfits.mono (a.le_taken m))]
    exact act_after hfits
  copy := fun hnoted => hnoted

/-- No step takes a note back, so what fits after it did so before. -/
theorem fits_of_step {b c : Book Nat} {st : Pool.Step} (h : ledger.step b st = some c)
    (hc : ∀ m ∈ c.entries, Fits m) : ∀ m ∈ b.entries, Fits m := by
  intro m hm
  cases st with
  | act a =>
    cases h
    obtain ⟨i, hi, rfl⟩ := List.mem_iff_getElem.mp hm
    by_cases hfocus : b.focus = i
    · subst hfocus
      exact (hc _ (List.mem_set hi _)).mono (a.le_taken _)
    · apply hc
      rw [← List.getElem_set_ne hfocus (by simpa using hi)]
      exact List.getElem_mem _
  | fresh =>
    cases h
    exact hc m (List.mem_append_left _ hm)
  | copy =>
    cases h
    exact hc m (List.mem_append_left _ hm)
  | select i =>
    simp only [Account.step] at h
    split at h
    · cases h
      exact hc m hm
    · cases h

theorem fits_of_run {b c : Book Nat} {steps : List Pool.Step} (h : ledger.run b steps = some c)
    (hc : ∀ m ∈ c.entries, Fits m) : ∀ m ∈ b.entries, Fits m := by
  induction steps generalizing b with
  | nil =>
    cases h
    exact hc
  | cons st rest ih =>
    obtain ⟨b', hstep, hrest⟩ := Option.bind_eq_some_iff.mp h
    exact fits_of_step hstep (ih hrest)

/-- Steps that the ledger keeps account of are carried out by the pool, and its notes are
right. -/
theorem eq_after_of_ledger {steps : List Pool.Step} {b : Book Nat}
    (h : ledger.run ledger.start steps = some b) :
    ∃ rs p, Pool.start.run steps = some (rs, p) ∧ Follows Noted b p :=
  (Follows.start ledger_keeps).exists_run ledger_keeps h

/-- The number of tested candidates once the first `m` primes have been taken. -/
noncomputable def testedCount : Nat → Nat
  | 0 => 0
  | m + 1 => Nat.nth Nat.Prime m - 1

theorem toNat_tested_after_eq {m : Nat} (h : Fits m) :
    (after m).tested.toNat = testedCount m := by
  rw [toNat_tested_after h]
  cases m with
  | zero => rfl
  | succ m => rfl

/-- What holds of a stream from which the first `m` primes have been taken. -/
structure Counted (m : Nat) (s : PrimeStream) : Prop where
  /-- It is what `m` searches leave of a fresh stream, each of which finds a prime. -/
  nexts_eq : nexts m {} = ((segment 0 m).map some, s)
  /-- An action on it comes to as many searches as the ledger will note primes for it. -/
  act_eq : ∀ a : Action, Fits (a.taken m) → (s.act a).2 = (s.nexts (a.taken m - m)).2
  candidate_fresh : m = 0 → s.candidate.toNat = 2
  candidate_taken : ∀ k, m = k + 1 → s.candidate.toNat = Nat.nth Nat.Prime k + 1
  tested_eq : s.tested.toNat = testedCount m
  aligned : s.tested.toNat + 2 = s.candidate.toNat
  /-- No test that a search on it may come to lets the count wrap around. -/
  tested_succ : ∀ j u v, s.afterTests j = some u → u.advance? = some v →
    v.tested.toNat = u.tested.toNat + 1

theorem counted_after {m : Nat} (h : Fits m) : Counted m (after m) where
  nexts_eq := by
    have hnexts := nexts_after (m := 0) (k := m) (by rwa [Nat.zero_add])
    rwa [Nat.zero_add, after_zero] at hnexts
  act_eq := by
    intro a hfits
    rw [act_after hfits, nexts_after_sub (a.le_taken m) hfits]
  candidate_fresh := by
    rintro rfl
    exact toNat_candidate_after h
  candidate_taken := by
    rintro k rfl
    exact toNat_candidate_after h
  tested_eq := toNat_tested_after_eq h
  aligned := aligned_after h
  tested_succ := by
    intro j u v hu hv
    exact (aligned_afterTests (aligned_after h) hu).tested_of_advance hv

/-- After every step of a run in which only words are taken, the counters of every stream are
determined by the last prime taken from it, and so is the count reported. -/
theorem counters_along_run {steps : List Pool.Step} {b : Book Nat}
    (hb : ledger.run ledger.start steps = some b) (hfits : ∀ m ∈ b.entries, Fits m) :
    ∀ before, before <+: steps → ∃ b' rs p,
      ledger.run ledger.start before = some b' ∧ Pool.start.run before = some (rs, p) ∧
      p.focus = b'.focus ∧ List.Forall₂ Counted b'.entries p.streams ∧
      rs.length = before.length ∧
      ∀ r, rs.getLast? = some r → r.tested.toNat = testedCount b'.focused := by
  rintro before ⟨rest, rfl⟩
  rw [Account.run_append] at hb
  obtain ⟨b', hbefore, hrest⟩ := Option.bind_eq_some_iff.mp hb
  have hfits' := fits_of_run hrest hfits
  obtain ⟨rs, p, hrun, hfollows⟩ := eq_after_of_ledger hbefore
  refine ⟨b', rs, p, hbefore, hrun, hfollows.focus_eq.symm, ?_, Pool.length_of_run hrun, ?_⟩
  · rw [List.forall₂_iff_get]
    refine ⟨hfollows.length_eq, fun i hi hi' => ?_⟩
    have hfit := hfits' _ (List.getElem_mem hi)
    have hafter := hfollows.related i hi hi' hfit
    simp only [List.get_eq_getElem, hafter]
    exact counted_after hfit
  · intro r hlast
    have hfit := hfits' b'.focused (List.getElem_mem b'.focus_lt)
    rw [Pool.tested_of_getLast_run hrun hlast, hfollows.focused hfit]
    exact toNat_tested_after_eq hfit

/-- A run over a stream, its copy and a fresh stream, with all kinds of searches. -/
theorem counters_along_run_of_three_streams :
    ∃ b, ledger.run ledger.start [.act .next, .act (.takeWhileBelow 10), .copy,
        .act (.findAbove 12), .select 0, .act (.nth 2), .fresh, .act (.take 3)] = some b ∧
      (∀ m ∈ b.entries, Fits m) ∧
      ∃ rs p, Pool.start.run [.act .next, .act (.takeWhileBelow 10), .copy,
          .act (.findAbove 12), .select 0, .act (.nth 2), .fresh, .act (.take 3)] = some (rs, p) ∧
        List.Forall₂ Counted [8, 6, 3] p.streams := by
  have hb : ledger.run ledger.start [.act .next, .act (.takeWhileBelow 10), .copy,
      .act (.findAbove 12), .select 0, .act (.nth 2), .fresh, .act (.take 3)]
      = some { entries := [8, 6, 3], focus := 2, focus_lt := by decide } := by rfl
  have hfits : ∀ m ∈ [8, 6, 3], Fits m := by
    have height : Fits 8 := fits_primeCounting (n := 19) (by decide)
    intro m hm
    have hle : m ≤ 8 := by
      revert m
      decide
    exact height.mono hle
  obtain ⟨b', rs, p, hb', hp, -, hcounted, -⟩ :=
    counters_along_run hb hfits _ (List.prefix_refl _)
  cases hb.symm.trans hb'
  exact ⟨_, hb, hfits, rs, p, hp, hcounted⟩

/-! ### Reachable streams -/

/-- Some pool comes to hold the stream, with `m` primes taken from it. -/
def Reachable (m : Nat) (s : PrimeStream) : Prop :=
  ∃ (steps : List Pool.Step) (b : Book Nat) (rs : List Pool.Report) (p : Pool) (i : Nat),
    ledger.run ledger.start steps = some b ∧ Pool.start.run steps = some (rs, p) ∧
    b.entries[i]? = some m ∧ p.streams[i]? = some s

/-- The number of primes taken determines a reachable stream. -/
theorem Reachable.eq_after {m : Nat} {s : PrimeStream} (h : Reachable m s) (hm : Fits m) :
    s = after m := by
  obtain ⟨steps, b, rs, p, i, hb, hp, hentry, hstream⟩ := h
  obtain ⟨rs', p', hp', hfollows⟩ := eq_after_of_ledger hb
  obtain ⟨rfl, rfl⟩ : rs' = rs ∧ p' = p := by simpa [hp] using hp'.symm
  obtain ⟨hi, rfl⟩ := List.getElem?_eq_some_iff.mp hentry
  obtain ⟨hi', rfl⟩ := List.getElem?_eq_some_iff.mp hstream
  exact hfollows.related i hi hi' hm

end PrimeListing.PrimeStream
