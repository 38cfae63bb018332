/-
Taking primes while they are below a bound.

Only the first prime that is not below the bound tells that no more are to be
had, and by then it has been taken from the stream.  So it is neither in the
list that is handed out nor can it be asked for later, and it is the only prime
of which this is true.

* `exists_eq_takeWhile_append` — an ascending list is cut at the least member
  that is not to be skipped.
* `obtainable_iff` — what can be asked for is what is to come.
* `Reachable.aligned` — on reachable streams the counters run side by side.
* `takeWhileBelow_loses_one` — what is handed out, where the stream stands
  afterwards, and which prime is lost.
-/
import Mathlib.Data.List.TakeWhile
import Mathlib.Order.Bounds.Defs
import PrimeListing.Proofs.Batching
import PrimeListing.Proofs.PrimesToCome

namespace PrimeListing.PrimeStream

/-- An ascending list is cut at the least member that is not to be skipped. -/
theorem exists_eq_takeWhile_append {l : List UInt64} (hl : l.Pairwise (· < ·))
    {skip : UInt64 → Bool} {r : UInt64} (hmem : r ∈ l) (hr : skip r = false)
    (hleast : ∀ q ∈ l, skip q = false → r ≤ q) : ∃ rest, l = l.takeWhile skip ++ r :: rest := by
  have hsplit := List.takeWhile_append_dropWhile (p := skip) (l := l)
  have hdropped : r ∈ l.dropWhile skip := by
    rw [← hsplit] at hmem
    refine (List.mem_append.mp hmem).resolve_left fun htaken => ?_
    rw [List.mem_takeWhile_imp htaken] at hr
    cases hr
  cases hd : l.dropWhile skip with
  | nil =>
    rw [hd] at hdropped
    cases hdropped
  | cons q rest =>
    rw [hd] at hsplit hdropped
    -- the member that stops the skipping is the least one, as the list ascends
    have hq : skip q = false := by
      have hhead := List.head?_dropWhile_not skip l
      rw [hd] at hhead
      simpa using hhead
    have hle : r ≤ q := hleast q (hsplit ▸ List.mem_append_right _ List.mem_cons_self) hq
    have heq : r = q := by
      rcases List.mem_cons.mp hdropped with heq | hlater
      · exact heq
      · rw [← hsplit, List.pairwise_append, List.pairwise_cons] at hl
        exact absurd (hl.2.1.1 r hlater) (UInt64.not_lt.mpr hle)
    exact ⟨rest, heq ▸ hsplit.symm⟩

theorem mem_takeWhile_lt_iff {l : List UInt64} (hl : l.Pairwise (· < ·)) {bound q : UInt64} :
    q ∈ l.takeWhile (· < bound) ↔ q ∈ l ∧ q < bound := by
  induction l with
  | nil => simp
  | cons p ps ih =>
    obtain ⟨hp, hps⟩ := List.pairwise_cons.mp hl
    by_cases hlt : p < bound
    · have hfirst : q = p → q < bound := fun heq => heq ▸ hlt
      rw [List.takeWhile_cons_of_pos (by simpa using hlt), List.mem_cons, List.mem_cons, ih hps,
        or_and_right, and_iff_left_of_imp hfirst]
    · rw [List.takeWhile_cons_of_neg (by simpa using hlt)]
      refine iff_of_false List.not_mem_nil ?_
      rintro ⟨hmem, hq⟩
      rcases List.mem_cons.mp hmem with rfl | hlater
      · exact hlt hq
      · exact hlt (UInt64.lt_trans (hp q hlater) hq)

/-- Only the member between the two parts is in neither of them. -/
theorem eq_iff_of_ascending {front rest : List UInt64} {r q : UInt64}
    (h : (front ++ r :: rest).Pairwise (· < ·)) :
    q ∈ front ++ r :: rest ∧ q ∉ front ∧ q ∉ rest ↔ q = r := by
  rw [List.pairwise_append, List.pairwise_cons] at h
  obtain ⟨-, ⟨hrest, -⟩, hfront⟩ := h
  constructor
  · rintro ⟨hmem, hnotFront, hnotRest⟩
    exact (List.mem_cons.mp ((List.mem_append.mp hmem).resolve_left hnotFront)).resolve_right
      hnotRest
  · rintro rfl
    refine ⟨List.mem_append_right _ List.mem_cons_self, fun hmem => ?_, fun hmem => ?_⟩
    · exact UInt64.lt_irrefl q (hfront q hmem q List.mem_cons_self)
    · exact UInt64.lt_irrefl q (hrest q hmem)

/-! ### What can be asked for -/

/-- Some sequence of actions on a stream hands the prime out. -/
def Obtainable (s : PrimeStream) (p : UInt64) : Prop :=
  ∃ as : List Action, ∃ answer ∈ (s.acts as).1, p ∈ answer.found

/-- Whatever is handed out in the end was to come from the start. -/
theorem mem_toCome_of_acts {as : List Action} {s : PrimeStream} {answer : Answer} {p : UInt64}
    (hanswer : answer ∈ (s.acts as).1) (hp : p ∈ answer.found) : p ∈ s.toCome := by
  induction as generalizing s with
  | nil => cases hanswer
  | cons a as ih =>
    rcases List.mem_cons.mp hanswer with rfl | hlater
    · exact mem_toCome_of_found hp
    · have hrest := ih hlater
      rw [toCome_act] at hrest
      exact List.mem_of_mem_drop hrest

theorem obtainable_iff {s : PrimeStream} {p : UInt64} : s.Obtainable p ↔ p ∈ s.toCome := by
  constructor
  · rintro ⟨as, answer, hanswer, hp⟩
    exact mem_toCome_of_acts hanswer hp
  · intro hp
    -- skipping all before it leads to it
    obtain ⟨skipped, rest, hsplit⟩ := List.append_of_mem hp
    obtain ⟨t, hnth, -, -⟩ := exists_nth_eq hsplit
    refine ⟨[.nth skipped.length], .prime (some p), ?_, List.mem_singleton_self p⟩
    rw [acts, act, hnth]
    exact List.mem_singleton_self _

theorem obtainable_iff_prime {s : PrimeStream} {p : UInt64} :
    s.Obtainable p ↔ p.toNat.Prime ∧ s.candidate ≤ p := by
  rw [obtainable_iff, mem_toCome, isPrime_iff_prime]
  exact and_comm

/-! ### What is lost -/

theorem Reachable.aligned {m : Nat} {s : PrimeStream} (h : Reachable m s) : Aligned s := by
  obtain ⟨steps, b, rs, p, i, -, hp, -, hstream⟩ := h
  have hfresh : Aligned {} := rfl
  have hact : ∀ (u : PrimeStream) (a : Action), Aligned u → Aligned (u.act a).2 :=
    fun _ a hu => hu.act a
  exact Pool.forall_streams_of_run hfresh hact hp s (List.mem_of_getElem? hstream)

/-- Taking while below a bound on a reachable stream hands out, in order, the primes from the
candidate on that are below the bound, and leaves the stream right behind the first prime that is
not.  Of all the primes that could be asked for before, this one alone was neither handed out nor
can it be asked for afterwards.  So it is also where nothing is handed out, because the bound is
not above the candidate. -/
theorem takeWhileBelow_loses_one {m : Nat} {s : PrimeStream} (hs : Reachable m s)
    {bound r : UInt64}
    (hr : IsLeast {q : Nat | q.Prime ∧ max bound.toNat s.candidate.toNat ≤ q} r.toNat) :
    ∃ found t, s.takeWhileBelow bound = (found, t) ∧
      found.Pairwise (· < ·) ∧
      (∀ q, q ∈ found ↔ q.toNat.Prime ∧ s.candidate ≤ q ∧ q < bound) ∧
      t.candidate.toNat = r.toNat + 1 ∧ t.tested.toNat = r.toNat - 1 ∧
      (∀ q, s.Obtainable q ↔ q.toNat.Prime ∧ s.candidate ≤ q) ∧
      (∀ q, s.Obtainable q ∧ q ∉ found ∧ ¬ t.Obtainable q ↔ q = r) ∧
      (bound ≤ s.candidate → found = []) := by
  obtain ⟨⟨hprime, hmax⟩, hlower⟩ := hr
  have hbound : bound ≤ r := UInt64.le_iff_toNat_le.mpr (Nat.le_trans (Nat.le_max_left _ _) hmax)
  have hcandidate : s.candidate ≤ r :=
    UInt64.le_iff_toNat_le.mpr (Nat.le_trans (Nat.le_max_right _ _) hmax)
  have hascending := pairwise_toCome s
  have hmem : ∀ q, q ∈ s.toCome ↔ q.toNat.Prime ∧ s.candidate ≤ q :=
    fun q => obtainable_iff.symm.trans obtainable_iff_prime
  have hleast : ∀ q ∈ s.toCome, decide (q < bound) = false → r ≤ q := by
    intro q hq hnot
    obtain ⟨hqprime, hqcandidate⟩ := (hmem q).mp hq
    have hqbound : bound ≤ q := UInt64.not_lt.mp (of_decide_eq_false hnot)
    exact UInt64.le_iff_toNat_le.mpr (hlower ⟨hqprime, Nat.max_le.mpr
      ⟨UInt64.le_iff_toNat_le.mp hqbound, UInt64.le_iff_toNat_le.mp hqcandidate⟩⟩)
  have hstop : decide (r < bound) = false := decide_eq_false (UInt64.not_lt.mpr hbound)
  obtain ⟨rest, hsplit⟩ :=
    exists_eq_takeWhile_append hascending ((hmem r).mpr ⟨hprime, hcandidate⟩) hstop hleast
  obtain ⟨t, hnth, htcandidate, htrest⟩ := exists_nth_eq hsplit
  have htaligned : Aligned t := by
    have hact := hs.aligned.act (.nth (s.toCome.takeWhile (· < bound)).length)
    rwa [act, hnth] at hact
  have hfound : ∀ q, q ∈ s.toCome.takeWhile (· < bound) ↔
      q.toNat.Prime ∧ s.candidate ≤ q ∧ q < bound := by
    intro q
    rw [mem_takeWhile_lt_iff hascending, hmem, and_assoc]
  refine ⟨s.toCome.takeWhile (· < bound), t, ?_, ?_, hfound, htcandidate, ?_,
    fun q => obtainable_iff_prime, fun q => ?_, fun hle => ?_⟩
  · rw [takeWhileBelow_eq_nth, hnth]
  · exact hascending.sublist (List.takeWhile_sublist _)
  · rw [Aligned] at htaligned
    omega
  · rw [hsplit] at hascending
    rw [obtainable_iff, obtainable_iff, htrest, ← eq_iff_of_ascending hascending, ← hsplit]
  · refine List.eq_nil_iff_forall_not_mem.mpr fun q hq => ?_
    obtain ⟨-, hlow, hhigh⟩ := (hfound q).mp hq
    exact UInt64.not_lt.mpr (UInt64.le_trans hle hlow) hhigh

/-- A stream from which 2 and 3 have been taken gives 5 and 7, and 11 is lost. -/
theorem takeWhileBelow_loses_eleven :
    Reachable 2 { candidate := 4, tested := 2 } ∧
      IsLeast {q : Nat | q.Prime ∧ max (10 : UInt64).toNat (4 : UInt64).toNat ≤ q}
        (11 : UInt64).toNat ∧
      ∃ found t, takeWhileBelow 10 { candidate := 4, tested := 2 } = (found, t) ∧
        (5 ∈ found ∧ 7 ∈ found ∧ 11 ∉ found) ∧ t.candidate.toNat = 12 ∧ t.tested.toNat = 10 ∧
        ¬ t.Obtainable 11 := by
  have hs : Reachable 2 { candidate := 4, tested := 2 } :=
    ⟨[.act (.take 2)], { entries := [2], focus := 0, focus_lt := by decide }, _,
      { streams := [{ candidate := 4, tested := 2 }], focus := 0, focus_lt := by decide }, 0,
      rfl, by cbv, rfl, rfl⟩
  have hr : IsLeast {q : Nat | q.Prime ∧ max (10 : UInt64).toNat (4 : UInt64).toNat ≤ q}
      (11 : UInt64).toNat := by
    refine ⟨⟨Nat.prime_eleven, by decide⟩, ?_⟩
    rintro q ⟨hq, hle⟩
    have hten : (10 : Nat) ≤ q := hle
    have hne : q ≠ 10 := by
      rintro rfl
      exact absurd hq (by decide)
    show 11 ≤ q
    omega
  obtain ⟨found, t, heq, -, hfound, hcandidate, htested, -, hlost, -⟩ :=
    takeWhileBelow_loses_one hs hr
  refine ⟨hs, hr, found, t, heq, ?_, hcandidate, htested, ((hlost 11).mpr rfl).2.2⟩
  rw [hfound, hfound, hfound]
  decide

end PrimeListing.PrimeStream
