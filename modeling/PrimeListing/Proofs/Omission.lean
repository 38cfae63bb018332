/-
Leaving an action out of a run.

An action changes the stream it is done to, and through it the copies that are
made of that stream later.  The account `traces` tells which streams these
are; all the others are as they were when the action is left out, and so are
the reports that are made while one of them is in focus.

* `holdsApart_keeps` — whatever is done later does not touch the streams that
  come from elsewhere.
* `report_eq_of_step` — nor the reports made while one of them is in focus.
* `dispensable_of_run` — any action of a run may be left out.
-/
import PrimeListing.Proofs.Account

namespace PrimeListing.PrimeStream

/-- A stream and where it comes from: the position it had at some moment, or that of the stream
it was copied from since.  One that was fresh since comes from none. -/
structure Trace where
  origin : Option Nat
  stream : PrimeStream

def traces : Account Trace where
  fresh := { origin := none, stream := {} }
  act a e := { e with stream := (e.stream.act a).2 }

/-- Every stream of a pool comes from its own position. -/
def Pool.traced (p : Pool) : Book Trace where
  entries := p.streams.mapIdx fun i s => { origin := some i, stream := s }
  focus := p.focus
  focus_lt := by simpa using p.focus_lt

/-- A trace tells what the stream is. -/
def Holds (e : Trace) (s : PrimeStream) : Prop := s = e.stream

/-- A trace tells what the stream is, unless it comes from position `f`. -/
def HoldsApart (f : Nat) (e : Trace) (s : PrimeStream) : Prop := e.origin ≠ some f → s = e.stream

theorem holds_keeps : traces.Keeps Holds where
  fresh := rfl
  act := by
    rintro e s a rfl
    rfl
  copy := id

theorem holdsApart_keeps (f : Nat) : traces.Keeps (HoldsApart f) where
  fresh := fun _ => rfl
  act := by
    intro e s a h hne
    rw [h hne]
    rfl
  copy := id

theorem holds_traced (q : Pool) : Follows Holds q.traced q where
  length_eq := List.length_mapIdx
  focus_eq := rfl
  related := by
    intro i hb hp
    simp only [Pool.traced, List.getElem_mapIdx]
    rfl

/-- Whatever is put in the place of the stream in focus, the others are as they were. -/
theorem holdsApart_traced (q : Pool) (s : PrimeStream) :
    Follows (HoldsApart q.focus) q.traced (q.replace s) where
  length_eq := by simp only [Pool.traced, Pool.replace, List.length_mapIdx, List.length_set]
  focus_eq := rfl
  related := by
    intro i hb hp hne
    simp only [Pool.traced, List.getElem_mapIdx] at hne ⊢
    have hi : q.focus ≠ i := fun h => hne (congrArg some h.symm)
    exact List.getElem_set_ne hi _

section

variable {f : Nat} {b c : Book Trace} {p p' q q' : Pool} {st : Pool.Step} {r r' : Pool.Report}

theorem report_ext (hreply : r.reply = r'.reply) (htested : r.tested = r'.tested) : r = r' := by
  cases r
  cases r'
  cases hreply
  cases htested
  rfl

theorem focused_eq_of_origin_ne (h : Follows Holds b q) (h' : Follows (HoldsApart f) b p)
    (hne : b.focused.origin ≠ some f) : p.focused = q.focused :=
  (h'.focused hne).trans h.focused.symm

/-- A step brings forth the same report in both pools, unless it leaves a stream in focus that
comes from `f`. -/
theorem report_eq_of_step (h : Follows Holds b q) (h' : Follows (HoldsApart f) b p)
    (hb : traces.step b st = some c) (hp : p.step st = some (r, p'))
    (hq : q.step st = some (r', q')) (hne : c.focused.origin ≠ some f) : r = r' := by
  have hlength : p.streams.length = q.streams.length := h'.length_eq.symm.trans h.length_eq
  have hfocused : p'.focused = q'.focused :=
    focused_eq_of_origin_ne (h.of_step holds_keeps hb hq)
      (h'.of_step (holdsApart_keeps f) hb hp) hne
  have htested : r.tested = r'.tested := by
    rw [Pool.tested_of_step hp, Pool.tested_of_step hq, hfocused]
  cases st with
  | act a =>
    -- the stream in focus is the same before the action as well
    cases hb
    rw [b.focused_replace] at hne
    have hbefore : p.focused = q.focused := focused_eq_of_origin_ne h h' hne
    rw [Pool.step_act] at hp hq
    cases hp
    cases hq
    rw [hbefore]
  | fresh =>
    cases hp
    cases hq
    exact report_ext (congrArg Pool.Reply.position hlength) htested
  | copy =>
    cases hp
    cases hq
    exact report_ext (congrArg Pool.Reply.position hlength) htested
  | select i =>
    simp only [Pool.step] at hp hq
    split at hp
    · split at hq
      · cases hp
        cases hq
        exact report_ext rfl htested
      · cases hq
    · cases hp

theorem report_eq_of_run (h : Follows Holds b q) (h' : Follows (HoldsApart f) b p)
    {mid rest : List Pool.Step} {rs rs' : List Pool.Report}
    (hp : p.run (mid ++ st :: rest) = some (rs, p'))
    (hq : q.run (mid ++ st :: rest) = some (rs', q')) :
    ∃ c, traces.run b (mid ++ [st]) = some c ∧
      (c.focused.origin ≠ some f → rs[mid.length]? = rs'[mid.length]?) := by
  obtain ⟨rs₁, rs₂, p₁, hp₁, hp₂, rfl⟩ := Pool.run_append_eq_some hp
  obtain ⟨rs₁', rs₂', q₁, hq₁, hq₂, rfl⟩ := Pool.run_append_eq_some hq
  obtain ⟨r, rs₃, p₂, hpst, -, rfl⟩ := Pool.run_cons_eq_some hp₂
  obtain ⟨r', rs₃', q₂, hqst, -, rfl⟩ := Pool.run_cons_eq_some hq₂
  -- one book follows both pools to the place where the report is made
  obtain ⟨b₁, hb₁, h₁⟩ := h.exists_book holds_keeps hq₁
  obtain ⟨_, hb₁', h₁'⟩ := h'.exists_book (holdsApart_keeps f) hp₁
  cases hb₁.symm.trans hb₁'
  obtain ⟨c, hc, -⟩ := exists_of_rel_right (h₁.step holds_keeps st) hqst
  refine ⟨c, ?_, ?_⟩
  · rw [Account.run_append, hb₁, Option.bind_some, Account.run, hc]
    rfl
  · intro hne
    have hr : (rs₁ ++ r :: rs₃)[mid.length]? = some r := by simp [← Pool.length_of_run hp₁]
    have hr' : (rs₁' ++ r' :: rs₃')[mid.length]? = some r' := by
      simp [← Pool.length_of_run hq₁]
    rw [hr, hr', report_eq_of_step h₁ h₁' hc hpst hqst hne]

end

/-- An action in a run may be left out.  Where it only looks at a stream its own report is all
that is missing.  In any case the streams that do not come from the one it was done to are as
they were, and so are the reports made while one of them is in focus. -/
def Dispensable (before : List Pool.Step) (a : Action) (after : List Pool.Step)
    (rs : List Pool.Report) (p : Pool) : Prop :=
  ∃ q c rs₁ r rs₂ rs₃ p₀, Pool.start.run before = some (rs₁, q) ∧
    traces.run q.traced after = some c ∧ rs = rs₁ ++ r :: rs₂ ∧
    Pool.start.run (before ++ after) = some (rs₁ ++ rs₃, p₀) ∧
    (a.consumes = false → rs₂ = rs₃ ∧ p = p₀) ∧
    Follows Holds c p₀ ∧ Follows (HoldsApart q.focus) c p ∧
    ∀ mid st rest, after = mid ++ st :: rest → ∃ c',
      traces.run q.traced (mid ++ [st]) = some c' ∧
      (c'.focused.origin ≠ some q.focus → rs₂[mid.length]? = rs₃[mid.length]?)

theorem dispensable_of_run {before after : List Pool.Step} {a : Action} {rs : List Pool.Report}
    {p : Pool} (h : Pool.start.run (before ++ .act a :: after) = some (rs, p)) :
    Dispensable before a after rs p := by
  obtain ⟨rs₁, rs', q, hbefore, hrest, rfl⟩ := Pool.run_append_eq_some h
  obtain ⟨r, rs₂, q', hstep, hafter, rfl⟩ := Pool.run_cons_eq_some hrest
  rw [Pool.step_act] at hstep
  cases hstep
  -- the rest of the run starts from two pools that differ in the stream in focus only
  have hwith := holdsApart_traced q (q.focused.act a).2
  have hwithout := holds_traced q
  obtain ⟨c, hc, hend⟩ := hwith.exists_book (holdsApart_keeps q.focus) hafter
  obtain ⟨rs₃, p₀, hafter₀, hend₀⟩ := hwithout.exists_run holds_keeps hc
  refine ⟨q, c, rs₁, _, rs₂, rs₃, p₀, hbefore, hc, rfl, Pool.run_append hbefore hafter₀, ?_,
    hend₀, hend, ?_⟩
  · intro ha
    rw [act_eq_self ha, q.replace_focused] at hafter
    cases hafter.symm.trans hafter₀
    exact ⟨rfl, rfl⟩
  · rintro mid st rest rfl
    exact report_eq_of_run hwithout hwith hafter hafter₀

end PrimeListing.PrimeStream
