/-
Looking for the first prime above a bound.

What is to come from a stream falls into the primes up to the bound and those
above it.  A search above the bound passes over the first part and hands out
the prime that the second part begins with.  To take the primes below the next
bound hands out the first part, and the same prime is then lost.  So the two
leave the same stream, and where one finds a prime the other loses it.

* `toCome_split` — the two parts, of which the second may be empty.
* `findAbove_of_split`, `findAbove_of_forall_le` — the search in either case.
* `isLeast_of_split` — the second part begins with the least prime there is.
* `findAbove_eq_next` — a bound below the candidate makes no difference.
* `snd_findAbove_eq`, `fst_findAbove_eq_some_iff` — the search against taking
  primes below the next bound.
* `findAbove_finds_what_is_lost` — which prime is found, and that it is the one
  that would be lost.
-/
import PrimeListing.Proofs.BoundedTaking

namespace PrimeListing.PrimeStream

/-! ### The two parts of what is to come -/

/-- Either nothing above the bound is to come, or some prime is the first to come above it. -/
theorem toCome_split (s : PrimeStream) (bound : UInt64) :
    (∀ q ∈ s.toCome, q ≤ bound) ∨
      ∃ skipped r rest,
        s.toCome = skipped ++ r :: rest ∧ (∀ q ∈ skipped, q ≤ bound) ∧ bound < r := by
  by_cases hfind : s.toCome.find? (bound < ·) = none
  · refine .inl fun q hq => ?_
    have hnot := List.find?_eq_none.mp hfind q hq
    exact UInt64.not_lt.mp fun hlt => hnot (decide_eq_true hlt)
  · obtain ⟨r, hr⟩ := Option.ne_none_iff_exists'.mp hfind
    obtain ⟨habove, skipped, rest, hsplit, hskipped⟩ := List.find?_eq_some_iff_append.mp hr
    refine .inr ⟨skipped, r, rest, hsplit, fun q hq => ?_, of_decide_eq_true habove⟩
    have hnot : ¬ bound < q := by simpa using hskipped q hq
    exact UInt64.not_lt.mp hnot

theorem takeWhile_le_eq_self {l : List UInt64} {bound : UInt64} (h : ∀ q ∈ l, q ≤ bound) :
    l.takeWhile (· ≤ bound) = l :=
  List.takeWhile_eq_self_iff.mpr fun q hq => decide_eq_true (h q hq)

theorem takeWhile_le_eq {skipped rest : List UInt64} {bound r : UInt64}
    (hskipped : ∀ q ∈ skipped, q ≤ bound) (hr : bound < r) :
    (skipped ++ r :: rest).takeWhile (· ≤ bound) = skipped := by
  have hnot : ¬ r ≤ bound := UInt64.not_le.mpr hr
  rw [List.takeWhile_append_of_pos fun q hq => decide_eq_true (hskipped q hq),
    List.takeWhile_cons_of_neg (by simpa using hnot), List.append_nil]

/-- A search above a bound passes over what is not above it. -/
theorem findAbove_of_split {s : PrimeStream} {skipped rest : List UInt64} {bound r : UInt64}
    (h : s.toCome = skipped ++ r :: rest) (hskipped : ∀ q ∈ skipped, q ≤ bound)
    (hr : bound < r) :
    ∃ t, s.findAbove bound = (some r, t) ∧ t.candidate.toNat = r.toNat + 1 ∧ t.toCome = rest := by
  obtain ⟨t, hnth, hcandidate, hrest⟩ := exists_nth_eq h
  refine ⟨t, ?_, hcandidate, hrest⟩
  rw [findAbove_eq_nth, h, takeWhile_le_eq hskipped hr, hnth]

/-- Where nothing above the bound is to come, the search takes it all and finds nothing. -/
theorem findAbove_of_forall_le {s : PrimeStream} {bound : UInt64}
    (h : ∀ q ∈ s.toCome, q ≤ bound) : (s.findAbove bound).1 = none := by
  rw [findAbove_eq_nth, takeWhile_le_eq_self h, nth_eq]
  exact List.getElem?_eq_none (Nat.le_refl _)

/-- With a bound below the candidate nothing is passed over. -/
theorem findAbove_eq_next {s : PrimeStream} {bound : UInt64} (h : bound < s.candidate) :
    s.findAbove bound = s.next := by
  have habove : ∀ q ∈ s.toCome, ¬ q ≤ bound := by
    intro q hq hle
    have hcandidate := (mem_toCome.mp hq).1
    exact UInt64.lt_irrefl bound (UInt64.lt_of_lt_of_le h (UInt64.le_trans hcandidate hle))
  have hnone : s.toCome.takeWhile (· ≤ bound) = [] := by
    rw [List.takeWhile_eq_nil_iff]
    intro hpos hle
    exact habove _ (List.get_mem _ _) (of_decide_eq_true hle)
  rw [findAbove_eq_nth, hnone]
  rfl

/-! ### The next bound -/

theorem lt_add_one_iff {bound q : UInt64} (h : bound.toNat + 1 < UInt64.size) :
    q < bound + 1 ↔ q ≤ bound := by
  rw [UInt64.lt_iff_toNat_lt, UInt64.le_iff_toNat_le, toNat_succ_of_lt h]
  omega

/-- Taking while below the next bound hands out what a search above the bound passes over. -/
theorem takeWhileBelow_add_one_eq {bound : UInt64} (h : bound.toNat + 1 < UInt64.size)
    (s : PrimeStream) :
    s.takeWhileBelow (bound + 1) = (s.toCome.takeWhile (· ≤ bound), (s.findAbove bound).2) := by
  have hsame : (fun q : UInt64 => decide (q < bound + 1)) = fun q => decide (q ≤ bound) := by
    funext q
    rw [decide_eq_decide]
    exact lt_add_one_iff h
  rw [takeWhileBelow_eq_nth, findAbove_eq_nth, hsame]

theorem snd_findAbove_eq {bound : UInt64} (h : bound.toNat + 1 < UInt64.size) (s : PrimeStream) :
    (s.findAbove bound).2 = (s.takeWhileBelow (bound + 1)).2 := by
  rw [takeWhileBelow_add_one_eq h]

/-- What a search above a bound finds is what is lost below the next bound. -/
theorem fst_findAbove_eq_some_iff {bound : UInt64} (h : bound.toNat + 1 < UInt64.size)
    {s : PrimeStream} {q : UInt64} :
    (s.findAbove bound).1 = some q ↔
      s.Obtainable q ∧ q ∉ (s.takeWhileBelow (bound + 1)).1 ∧
        ¬ (s.takeWhileBelow (bound + 1)).2.Obtainable q := by
  rw [takeWhileBelow_add_one_eq h, obtainable_iff, obtainable_iff]
  rcases toCome_split s bound with hall | ⟨skipped, r, rest, hsplit, hskipped, hr⟩
  · rw [findAbove_of_forall_le hall, takeWhile_le_eq_self hall]
    refine iff_of_false nofun ?_
    rintro ⟨hmem, hnot, -⟩
    exact hnot hmem
  · obtain ⟨t, hfind, -, hrest⟩ := findAbove_of_split hsplit hskipped hr
    have hascending := pairwise_toCome s
    rw [hsplit] at hascending
    rw [hfind, hsplit, takeWhile_le_eq hskipped hr, hrest, eq_iff_of_ascending hascending,
      Option.some.injEq, eq_comm]

/-! ### What is found -/

/-- Among the numbers that are words, those to come are the primes from the candidate on. -/
theorem ofNat_mem_toCome_iff {s : PrimeStream} {k : Nat} (h : k < UInt64.size) :
    UInt64.ofNat k ∈ s.toCome ↔ k.Prime ∧ s.candidate.toNat ≤ k := by
  have hval : (UInt64.ofNat k).toNat = k := UInt64.toNat_ofNat_of_lt' h
  rw [← obtainable_iff, obtainable_iff_prime, UInt64.le_iff_toNat_le, hval]

/-- What the second part begins with is the least prime that could be found. -/
theorem isLeast_of_split {s : PrimeStream} {skipped rest : List UInt64} {bound r : UInt64}
    (h : s.toCome = skipped ++ r :: rest) (hskipped : ∀ q ∈ skipped, q ≤ bound)
    (hr : bound < r) :
    IsLeast {q : Nat | q.Prime ∧ bound.toNat < q ∧ s.candidate.toNat ≤ q} r.toNat := by
  have hascending := pairwise_toCome s
  have hmem : r ∈ s.toCome := by
    rw [h]
    exact List.mem_append_right _ List.mem_cons_self
  obtain ⟨hprime, hcandidate⟩ := obtainable_iff_prime.mp (obtainable_iff.mpr hmem)
  refine ⟨⟨hprime, UInt64.lt_iff_toNat_lt.mp hr, UInt64.le_iff_toNat_le.mp hcandidate⟩, ?_⟩
  rintro k ⟨hk, hkbound, hkcandidate⟩
  by_contra hnot
  -- a smaller one would be a word, and so be passed over or come behind
  have hklt : k < UInt64.size := Nat.lt_trans (Nat.lt_of_not_le hnot) r.toNat_lt
  have hval : (UInt64.ofNat k).toNat = k := UInt64.toNat_ofNat_of_lt' hklt
  have hkmem := (ofNat_mem_toCome_iff hklt).mpr ⟨hk, hkcandidate⟩
  rw [h, List.pairwise_append, List.pairwise_cons] at hascending
  rw [h, List.mem_append, List.mem_cons] at hkmem
  rcases hkmem with hpassed | hsame | hlater
  · have hle := UInt64.le_iff_toNat_le.mp (hskipped _ hpassed)
    omega
  · rw [← hsame, hval] at hnot
    exact hnot (Nat.le_refl k)
  · have hlt := UInt64.lt_iff_toNat_lt.mp (hascending.2.1.1 _ hlater)
    omega

/-- If there is such a prime among the words, the search finds the least one and leaves the stream
right behind it. -/
theorem Reachable.exists_findAbove_eq {m : Nat} {s : PrimeStream} (hs : Reachable m s)
    {bound : UInt64}
    (hexists : ∃ q : Nat,
      q.Prime ∧ bound.toNat < q ∧ s.candidate.toNat ≤ q ∧ q < UInt64.size) :
    ∃ r t, s.findAbove bound = (some r, t) ∧
      IsLeast {q : Nat | q.Prime ∧ bound.toNat < q ∧ s.candidate.toNat ≤ q} r.toNat ∧
      t.candidate.toNat = r.toNat + 1 ∧ t.tested.toNat = r.toNat - 1 := by
  obtain ⟨q, hq, hqbound, hqcandidate, hqlt⟩ := hexists
  rcases toCome_split s bound with hall | ⟨skipped, r, rest, hsplit, hskipped, hr⟩
  · have hval : (UInt64.ofNat q).toNat = q := UInt64.toNat_ofNat_of_lt' hqlt
    have hle := hall _ ((ofNat_mem_toCome_iff hqlt).mpr ⟨hq, hqcandidate⟩)
    rw [UInt64.le_iff_toNat_le, hval] at hle
    omega
  · obtain ⟨t, hfind, hcandidate, -⟩ := findAbove_of_split hsplit hskipped hr
    have haligned : Aligned t := by
      have hact := hs.aligned.act (.findAbove bound)
      rwa [act, hfind] at hact
    refine ⟨r, t, hfind, isLeast_of_split hsplit hskipped hr, hcandidate, ?_⟩
    rw [Aligned] at haligned
    omega

/-- Looking above a bound on a reachable stream finds the least prime above the bound that is not
below the candidate, if there is one among the words, and leaves the stream right behind it, so that
this prime at least has been taken.  A bound below the candidate makes it a plain search.  And
unless the bound is the largest word, to take primes while they are below the next bound leaves the
same stream, and the prime that was found is the one prime lost. -/
theorem findAbove_finds_what_is_lost {m : Nat} {s : PrimeStream} (hs : Reachable m s)
    (bound : UInt64) :
    ((∃ q : Nat, q.Prime ∧ bound.toNat < q ∧ s.candidate.toNat ≤ q ∧ q < UInt64.size) →
      ∃ r t, s.findAbove bound = (some r, t) ∧
        IsLeast {q : Nat | q.Prime ∧ bound.toNat < q ∧ s.candidate.toNat ≤ q} r.toNat ∧
        t.candidate.toNat = r.toNat + 1 ∧ t.tested.toNat = r.toNat - 1 ∧
        s.Obtainable r ∧ ¬ t.Obtainable r) ∧
      (bound < s.candidate → s.findAbove bound = s.next) ∧
      (bound.toNat < UInt64.size - 1 →
        (s.findAbove bound).2 = (s.takeWhileBelow (bound + 1)).2 ∧
        ∀ q, (s.findAbove bound).1 = some q ↔
          s.Obtainable q ∧ q ∉ (s.takeWhileBelow (bound + 1)).1 ∧
            ¬ (s.takeWhileBelow (bound + 1)).2.Obtainable q) := by
  refine ⟨fun hexists => ?_, findAbove_eq_next, fun hbound => ?_⟩
  · obtain ⟨r, t, hfind, hleast, hcandidate, htested⟩ := hs.exists_findAbove_eq hexists
    obtain ⟨hprime, -, hge⟩ := hleast.1
    refine ⟨r, t, hfind, hleast, hcandidate, htested, ?_, ?_⟩
    · exact obtainable_iff_prime.mpr ⟨hprime, UInt64.le_iff_toNat_le.mpr hge⟩
    · rw [obtainable_iff_prime, UInt64.le_iff_toNat_le, hcandidate]
      omega
  · have hsucc : bound.toNat + 1 < UInt64.size := by omega
    exact ⟨snd_findAbove_eq hsucc s, fun q => fst_findAbove_eq_some_iff hsucc⟩

/-- A stream from which the primes up to 7 have been taken finds 13 above 11, which is prime itself
and was still to come.  Taken while below 12, the primes to come are 11 alone, and 13 is lost. -/
theorem findAbove_eleven_finds_thirteen :
    Reachable 4 { candidate := 8, tested := 6 } ∧
      ∃ t, findAbove 11 { candidate := 8, tested := 6 } = (some 13, t) ∧
        t.candidate.toNat = 14 ∧ t.tested.toNat = 12 ∧
        (takeWhileBelow 12 { candidate := 8, tested := 6 }).2 = t ∧
        11 ∈ (takeWhileBelow 12 { candidate := 8, tested := 6 }).1 ∧ ¬ t.Obtainable 13 := by
  have hs : Reachable 4 { candidate := 8, tested := 6 } :=
    ⟨[.act (.take 4)], { entries := [4], focus := 0, focus_lt := by decide }, _,
      { streams := [{ candidate := 8, tested := 6 }], focus := 0, focus_lt := by decide }, 0,
      rfl, by cbv, rfl, rfl⟩
  obtain ⟨hfinds, -, hlost⟩ := findAbove_finds_what_is_lost hs 11
  obtain ⟨r, t, hfind, ⟨⟨hprime, hbound, hge⟩, hlower⟩, hcandidate, htested, -, hgone⟩ :=
    hfinds ⟨13, by decide, by decide, by decide, by decide⟩
  have hthirteen : r = 13 := by
    have hle : r.toNat ≤ 13 := hlower ⟨by decide, by decide, by decide⟩
    have hlt : 11 < r.toNat := hbound
    have htwelve : r.toNat ≠ 12 := by
      intro h
      rw [h] at hprime
      exact absurd hprime (by decide)
    apply UInt64.toNat_inj.mp
    show r.toNat = 13
    omega
  subst hthirteen
  obtain ⟨hsame, hiff⟩ := hlost (by decide)
  rw [hfind] at hsame hiff
  refine ⟨hs, t, hfind, hcandidate, htested, hsame.symm, ?_, hgone⟩
  -- 11 could be asked for before and cannot afterwards, and it is not the prime lost
  by_contra hnot
  have hbefore : Obtainable { candidate := 8, tested := 6 } 11 :=
    obtainable_iff_prime.mpr ⟨by decide, by decide⟩
  have hafter : ¬ (takeWhileBelow (11 + 1) { candidate := 8, tested := 6 }).2.Obtainable 11 := by
    rw [← hsame, obtainable_iff_prime, UInt64.le_iff_toNat_le, hcandidate]
    decide
  have heq : some (13 : UInt64) = some 11 := (hiff 11).mpr ⟨hbefore, hnot, hafter⟩
  exact absurd heq (by decide)

end PrimeListing.PrimeStream
