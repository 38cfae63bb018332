/-
The streams of a pool are independent.

What becomes of a stream, and what the actions on it bring forth, is what its
lineage alone brings forth in a pool of one stream.  Two runs cannot be told
apart by a stream that has had the same primes taken from it, and an action
may be left out of a run without any effect on the streams that do not come
from the one it was done to.

* `Alone` — a lineage run by itself.
* `Agree` — two streams, of one run or of two, that are the same.
* `streams_independent` — independence in all these forms.
-/
import PrimeListing.Proofs.Lineage
import PrimeListing.Proofs.Omission

namespace PrimeListing.PrimeStream

/-- A stream, and the reports of the actions on it, are what a lineage alone brings forth in a
pool of one stream. -/
def Alone (l : Lineage) (s : PrimeStream) (rs : List Pool.Report) : Prop :=
  ∃ earlier, earlier.length = l.inherited.length ∧
    Pool.start.run (l.history.map .act) = some (earlier ++ rs, .single s)

/-- Two streams cannot be told apart where the same primes have been taken before. -/
structure Agree (l l' : Lineage) (s s' : PrimeStream) (rs rs' : List Pool.Report) : Prop where
  stream_eq : consuming l.history = consuming l'.history → s = s'
  /-- The same action brings forth the same report. -/
  report_eq : ∀ a before after before' after',
    l.own = before ++ a :: after → l'.own = before' ++ a :: after' →
    consuming (l.inherited ++ before) = consuming (l'.inherited ++ before') →
    ∃ r, rs[before.length]? = some r ∧ rs'[before'.length]? = some r

theorem alone_stream (l : Lineage) : Alone l l.stream l.ownReports :=
  ⟨_, length_reports {} l.inherited, by
    rw [← l.reports_history]
    exact Pool.run_single {} l.history⟩

theorem afterActs_eq_of_consuming_eq {as bs : List Action} (h : consuming as = consuming bs)
    (s : PrimeStream) : s.afterActs as = s.afterActs bs := by
  rw [← afterActs_consuming s as, h, afterActs_consuming]

theorem agree_stream (l l' : Lineage) :
    Agree l l' l.stream l'.stream l.ownReports l'.ownReports where
  stream_eq := fun h => afterActs_eq_of_consuming_eq h {}
  report_eq := by
    intro a before after before' after' hown hown' hsame
    have hstream := afterActs_eq_of_consuming_eq hsame {}
    rw [afterActs_append, afterActs_append] at hstream
    rw [Lineage.ownReports, Lineage.ownReports, hown, hown', reports_split, reports_split,
      hstream]
    exact ⟨_, rfl, rfl⟩

/-- Steps that select only positions in the pool are carried out.  What becomes of a stream, and
what the actions on it bring forth, is what its lineage alone brings forth; the count in any
report is that of the lineage, as far as it goes by then, of the stream then in focus.  Any
action may be left out.  In two runs, whatever else is done in either, streams that have had the
same primes taken from them are the same, and the same action on them has the same report. -/
theorem streams_independent {steps : List Pool.Step}
    (hsteps : Pool.selectsWithin 1 steps = true) :
    ∃ b rs p, lineages.run lineages.start steps = some b ∧
      Pool.start.run steps = some (rs, p) ∧ p.focus = b.focus ∧
      p.streams.length = b.entries.length ∧
      (∀ k r, rs[k]? = some r → ∃ b' s rs',
        lineages.run lineages.start (steps.take (k + 1)) = some b' ∧
        Alone b'.focused s rs' ∧ r.tested = s.tested) ∧
      (∀ before a after, steps = before ++ .act a :: after → Dispensable before a after rs p) ∧
      ∀ i l, b.entries[i]? = some l → ∃ s, p.streams[i]? = some s ∧
        Alone l s (Pool.start.reportsOn i steps) ∧
        ∀ steps' b' rs' p', lineages.run lineages.start steps' = some b' →
          Pool.start.run steps' = some (rs', p') →
          ∀ j l' s', b'.entries[j]? = some l' → p'.streams[j]? = some s' →
            Agree l l' s s' (Pool.start.reportsOn i steps) (Pool.start.reportsOn j steps') := by
  obtain ⟨b, hb⟩ := lineages.exists_run_of_selectsWithin (b := lineages.start) hsteps
  obtain ⟨rs, p, hp, hfollows, hreports⟩ := eq_stream_of_lineages hb
  refine ⟨b, rs, p, hb, hp, hfollows.focus_eq.symm, hfollows.length_eq.symm, ?_, ?_, ?_⟩
  · intro k r hr
    -- the lineages as they are when the report is made
    obtain ⟨b', hb'⟩ := exists_run_take hb (k + 1)
    obtain ⟨rs', p', hp', hfollows', -⟩ := eq_stream_of_lineages hb'
    obtain ⟨rs'', p'', hp'', htested⟩ := Pool.tested_of_run_take hp hr
    cases hp'.symm.trans hp''
    refine ⟨b', _, _, hb', alone_stream b'.focused, ?_⟩
    rw [htested, hfollows'.focused]
  · rintro before a after rfl
    exact dispensable_of_run hp
  · intro i l hl
    refine ⟨l.stream, hfollows.stream_getElem? hl, ?_, ?_⟩
    · rw [hreports i l hl]
      exact alone_stream l
    · intro steps' b' rs' p' hb' hp' j l' s' hl' hs'
      obtain ⟨rs'', p'', hp'', hfollows', hreports'⟩ := eq_stream_of_lineages hb'
      cases hp'.symm.trans hp''
      cases hs'.symm.trans (hfollows'.stream_getElem? hl')
      rw [hreports i l hl, hreports' j l' hl']
      exact agree_stream l l'

/-- A stream, a copy of it and a fresh stream at work in turns. -/
def inTurns : List Pool.Step :=
  [.act .next, .act .tested, .copy, .act (.take 2), .select 0, .act (.findAbove 3), .fresh,
    .act .next, .select 1, .act .labelled, .act .next]

/-- What is done to the copy alone. -/
def undisturbed : List Pool.Step := [.act .next, .copy, .act (.take 2), .act .next]

/-- The copy and its last answer are the same whether or not the other streams are at work. -/
theorem streams_independent_of_copy :
    Pool.selectsWithin 1 inTurns = true ∧ Pool.selectsWithin 1 undisturbed = true ∧
      ∃ rs p rs' p', Pool.start.run inTurns = some (rs, p) ∧
        Pool.start.run undisturbed = some (rs', p') ∧ p.streams.length = 3 ∧
        p.streams[1]? = p'.streams[1]? ∧
        ∃ r, (Pool.start.reportsOn 1 inTurns)[2]? = some r ∧
          (Pool.start.reportsOn 1 undisturbed)[1]? = some r := by
  have hturns : Pool.selectsWithin 1 inTurns = true := by decide
  have halone : Pool.selectsWithin 1 undisturbed = true := by decide
  refine ⟨hturns, halone, ?_⟩
  obtain ⟨b, rs, p, hb, hp, -, hlength, -, -, hall⟩ := streams_independent hturns
  obtain ⟨b', rs', p', hb', hp', -, -, -, -, hall'⟩ := streams_independent halone
  refine ⟨rs, p, rs', p', hp, hp', ?_⟩
  cases hb
  cases hb'
  obtain ⟨s, hs, -, hagree⟩ := hall 1 _ rfl
  obtain ⟨s', hs', -⟩ := hall' 1 _ rfl
  have hsame := hagree _ _ _ _ rfl hp' 1 _ _ rfl hs'
  refine ⟨hlength, ?_, ?_⟩
  · rw [hs, hs', hsame.stream_eq rfl]
  · exact hsame.report_eq .next [.take 2, .labelled] [] [.take 2] [] rfl rfl rfl

end PrimeListing.PrimeStream
