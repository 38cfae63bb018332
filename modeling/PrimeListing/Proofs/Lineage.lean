/-
The lineages of the streams of a pool.

The lineage of a stream is its own history: the actions that took primes from
the streams it was copied from, each up to the copy, and then the actions on
the stream itself.  It determines the stream and the reports of the actions on
it, whatever was done to other streams in between.

* `afterActs_consuming` — actions that only look at a stream leave no trace
  in it.
* `lineages_keeps` — every kind of step keeps each stream the outcome of its
  lineage.
* `journal_of_run` — the reports of the actions on one stream are those of its
  own actions, one after the other.
* `eq_stream_of_lineages` — both together, for every run.
-/
import PrimeListing.Proofs.Account

namespace PrimeListing.PrimeStream

/-! ### Actions in a row on one stream -/

/-- The stream that a row of actions leaves. -/
def afterActs (s : PrimeStream) (as : List Action) : PrimeStream :=
  as.foldl (fun t a => (t.act a).2) s

theorem afterActs_append (s : PrimeStream) (as bs : List Action) :
    s.afterActs (as ++ bs) = (s.afterActs as).afterActs bs :=
  List.foldl_append

/-- The actions of a row that take primes. -/
def consuming (as : List Action) : List Action := as.filter Action.consumes

theorem afterActs_consuming (s : PrimeStream) (as : List Action) :
    s.afterActs (consuming as) = s.afterActs as := by
  induction as generalizing s with
  | nil => rfl
  | cons a as ih =>
    by_cases ha : a.consumes = true
    · rw [consuming, List.filter_cons_of_pos ha]
      exact ih (s.act a).2
    · rw [consuming, List.filter_cons_of_neg ha]
      -- the action is dropped from the row, and it has not moved the stream
      have hstay : (s.act a).2 = s := act_eq_self (Bool.eq_false_iff.mpr ha)
      have hrest : s.afterActs (a :: as) = (s.act a).2.afterActs as := rfl
      rw [hrest, hstay]
      exact ih s

/-- The reports of a row of actions. -/
def reports : PrimeStream → List Action → List Pool.Report
  | _, [] => []
  | s, a :: as => s.reportOf a :: (s.act a).2.reports as

theorem reports_append (s : PrimeStream) (as bs : List Action) :
    s.reports (as ++ bs) = s.reports as ++ (s.afterActs as).reports bs := by
  induction as generalizing s with
  | nil => rfl
  | cons a as ih => exact congrArg (s.reportOf a :: ·) (ih (s.act a).2)

theorem length_reports (s : PrimeStream) (as : List Action) :
    (s.reports as).length = as.length := by
  induction as generalizing s with
  | nil => rfl
  | cons a as ih => exact congrArg (· + 1) (ih (s.act a).2)

/-- The report of one action among others depends on the stream that those before it leave. -/
theorem reports_split (s : PrimeStream) (before after : List Action) (a : Action) :
    (s.reports (before ++ a :: after))[before.length]? =
      some ((s.afterActs before).reportOf a) := by
  have hlength := length_reports s before
  rw [reports_append, List.getElem?_append_right (by omega), hlength, Nat.sub_self]
  rfl

namespace Pool

/-- The pool of one stream. -/
def single (s : PrimeStream) : Pool where
  streams := [s]
  focus := 0
  focus_lt := Nat.zero_lt_one

theorem run_single (s : PrimeStream) (as : List Action) :
    (single s).run (as.map .act) = some (s.reports as, single (s.afterActs as)) := by
  induction as generalizing s with
  | nil => rfl
  | cons a as ih =>
    exact run_cons (step_act (single s) a) (ih (s.act a).2)

/-- Whether a step is an action on the stream at position `i`. -/
def actsOn (p : Pool) (i : Nat) : Step → Bool
  | .act _ => p.focus = i
  | .fresh | .copy | .select _ => false

/-- The reports of the actions on the stream at position `i`, along a run. -/
def reportsOn (p : Pool) (i : Nat) : List Step → List Report
  | [] => []
  | st :: rest =>
    match p.step st with
    | none => []
    | some (r, q) => (if p.actsOn i st then [r] else []) ++ q.reportsOn i rest

end Pool

/-- Whether every position selected is that of a stream added before, where `n` are there at
first. -/
def Pool.selectsWithin (n : Nat) : List Pool.Step → Bool
  | [] => true
  | .act _ :: rest => selectsWithin n rest
  | .fresh :: rest | .copy :: rest => selectsWithin (n + 1) rest
  | .select i :: rest => i < n && selectsWithin n rest

theorem Account.exists_run_of_selectsWithin {σ : Type} (acc : Account σ) {b : Book σ}
    {steps : List Pool.Step} (h : Pool.selectsWithin b.entries.length steps = true) :
    ∃ c, acc.run b steps = some c := by
  induction steps generalizing b with
  | nil => exact ⟨b, rfl⟩
  | cons st rest ih =>
    cases st with
    | act a => exact ih (by simpa [Pool.selectsWithin, Book.replace] using h)
    | fresh => exact ih (by simpa [Pool.selectsWithin, Book.push] using h)
    | copy => exact ih (by simpa [Pool.selectsWithin, Book.push] using h)
    | select i =>
      obtain ⟨hi, hrest⟩ := Bool.and_eq_true_iff.mp h
      rw [Account.run, Account.step, dif_pos (of_decide_eq_true hi)]
      exact ih hrest

/-! ### Lineages -/

/-- The history of one stream. -/
structure Lineage where
  /-- What took primes from the streams it descends from, each up to the copy. -/
  inherited : List Action
  own : List Action

namespace Lineage

def history (l : Lineage) : List Action := l.inherited ++ l.own

/-- The stream that a lineage leads to. -/
def stream (l : Lineage) : PrimeStream := ({} : PrimeStream).afterActs l.history

/-- The reports that the own actions of a lineage bring forth. -/
def ownReports (l : Lineage) : List Pool.Report :=
  (({} : PrimeStream).afterActs l.inherited).reports l.own

theorem reports_history (l : Lineage) :
    ({} : PrimeStream).reports l.history =
      ({} : PrimeStream).reports l.inherited ++ l.ownReports :=
  reports_append _ _ _

end Lineage

/-- The account of the lineage of each stream. -/
def lineages : Account Lineage where
  fresh := { inherited := [], own := [] }
  act a l := { l with own := l.own ++ [a] }
  copy l := { inherited := consuming l.history, own := [] }

theorem history_act (a : Action) (l : Lineage) :
    (lineages.act a l).history = l.history ++ [a] :=
  (List.append_assoc _ _ _).symm

theorem ownReports_act (a : Action) (l : Lineage) :
    (lineages.act a l).ownReports = l.ownReports ++ [l.stream.reportOf a] := by
  rw [Lineage.stream, Lineage.history, afterActs_append]
  exact reports_append _ _ _

/-- A stream is the outcome of a lineage. -/
def Lived (l : Lineage) (s : PrimeStream) : Prop := s = l.stream

theorem lineages_keeps : lineages.Keeps Lived where
  fresh := rfl
  act := by
    rintro l s a rfl
    have hact : (lineages.act a l).stream = l.stream.afterActs [a] := by
      rw [Lineage.stream, history_act, afterActs_append, Lineage.stream]
    exact hact.symm
  copy := by
    rintro l s rfl
    -- a copy has no actions of its own yet, and its stream was made by those that took primes
    have hcopy : (lineages.copy l).history = consuming l.history := List.append_nil _
    show l.stream = (lineages.copy l).stream
    rw [Lineage.stream, Lineage.stream, hcopy, afterActs_consuming]

/-- The reports of the own actions in the lineage at position `i`, none outside the book. -/
def journal (b : Book Lineage) (i : Nat) : List Pool.Report :=
  b.entries[i]?.elim [] Lineage.ownReports

theorem journal_push (b : Book Lineage) {l : Lineage} (hl : l.own = []) (i : Nat) :
    journal (b.push l) i = journal b i := by
  have hnone : l.ownReports = [] := by
    rw [Lineage.ownReports, hl]
    rfl
  rw [journal, journal, Book.push]
  rcases Nat.lt_trichotomy i b.entries.length with hlt | rfl | hgt
  · rw [List.getElem?_append_left hlt]
  · rw [List.getElem?_concat_length, List.getElem?_eq_none (Nat.le_refl _)]
    exact hnone
  · rw [List.getElem?_eq_none (Nat.le_of_lt hgt), List.getElem?_eq_none]
    simpa using Nat.succ_le_of_lt hgt

/-- A step adds its report to the journal of the stream it acts on, and to no other. -/
theorem journal_of_step {b c : Book Lineage} {p q : Pool} {st : Pool.Step} {r : Pool.Report}
    (hfollows : Follows Lived b p) (hb : lineages.step b st = some c)
    (hp : p.step st = some (r, q)) (i : Nat) :
    journal c i = journal b i ++ if p.actsOn i st then [r] else [] := by
  cases st with
  | act a =>
    cases hb
    rw [Pool.step_act] at hp
    cases hp
    have hactsOn : p.actsOn i (.act a) = decide (b.focus = i) := by
      rw [Pool.actsOn, hfollows.focus_eq]
    rw [hactsOn]
    by_cases hi : b.focus = i
    · subst hi
      have hafter : (b.replace (lineages.act a b.focused)).entries[b.focus]?
          = some (lineages.act a b.focused) :=
        List.getElem?_set_self b.focus_lt
      rw [journal, journal, b.entries_focus, hafter, decide_eq_true rfl, if_pos rfl]
      simp only [Option.elim_some]
      rw [ownReports_act, ← hfollows.focused]
    · have hother : (b.replace (lineages.act a b.focused)).entries[i]? = b.entries[i]? :=
        List.getElem?_set_ne hi
      rw [journal, journal, hother, decide_eq_false hi, if_neg Bool.false_ne_true,
        List.append_nil]
  | fresh =>
    cases hb
    rw [journal_push b rfl]
    exact (List.append_nil _).symm
  | copy =>
    cases hb
    rw [journal_push b rfl]
    exact (List.append_nil _).symm
  | select k =>
    simp only [Account.step] at hb
    split at hb
    · cases hb
      exact (List.append_nil _).symm
    · cases hb

theorem journal_of_run {b c : Book Lineage} {p q : Pool} {steps : List Pool.Step}
    {rs : List Pool.Report} (hfollows : Follows Lived b p)
    (hb : lineages.run b steps = some c) (hp : p.run steps = some (rs, q)) (i : Nat) :
    journal c i = journal b i ++ p.reportsOn i steps := by
  induction steps generalizing b p rs with
  | nil =>
    cases hb
    exact (List.append_nil _).symm
  | cons st rest ih =>
    obtain ⟨b', hb', hrest⟩ := Option.bind_eq_some_iff.mp hb
    obtain ⟨r, rs', p', hp', hrun, -⟩ := Pool.run_cons_eq_some hp
    have hreports : p.reportsOn i (st :: rest)
        = (if p.actsOn i st then [r] else []) ++ p'.reportsOn i rest := by
      rw [Pool.reportsOn, hp']
    have hfollows' := hfollows.of_step lineages_keeps hb' hp'
    rw [ih hfollows' hrest hrun, journal_of_step hfollows hb' hp', hreports, List.append_assoc]

/-! ### Lineages of a run -/

theorem Follows.stream_getElem? {b : Book Lineage} {p : Pool} {i : Nat} {l : Lineage}
    (h : Follows Lived b p) (hl : b.entries[i]? = some l) :
    p.streams[i]? = some l.stream := by
  obtain ⟨hi, rfl⟩ := List.getElem?_eq_some_iff.mp hl
  have hi' : i < p.streams.length := h.length_eq ▸ hi
  rw [List.getElem?_eq_getElem hi', h.related i hi hi']

theorem exists_run_take {steps : List Pool.Step} {b : Book Lineage}
    (hb : lineages.run lineages.start steps = some b) (k : Nat) :
    ∃ b', lineages.run lineages.start (steps.take k) = some b' := by
  rw [← List.take_append_drop k steps, Account.run_append] at hb
  obtain ⟨b', hb', -⟩ := Option.bind_eq_some_iff.mp hb
  exact ⟨b', hb'⟩

theorem eq_stream_of_lineages {steps : List Pool.Step} {b : Book Lineage}
    (hb : lineages.run lineages.start steps = some b) :
    ∃ rs p, Pool.start.run steps = some (rs, p) ∧ Follows Lived b p ∧
      ∀ i l, b.entries[i]? = some l → Pool.start.reportsOn i steps = l.ownReports := by
  obtain ⟨rs, p, hp, hfollows⟩ := (Follows.start lineages_keeps).exists_run lineages_keeps hb
  refine ⟨rs, p, hp, hfollows, ?_⟩
  intro i l hl
  have hjournal := journal_of_run (Follows.start lineages_keeps) hb hp i
  have hempty : journal lineages.start i = [] := by
    cases i with
    | zero => rfl
    | succ i => rfl
  rw [hempty, List.nil_append, journal, hl] at hjournal
  exact hjournal.symm

end PrimeListing.PrimeStream
