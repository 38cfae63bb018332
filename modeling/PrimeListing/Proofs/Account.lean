/-
Accounts of a pool.

An account keeps one entry for each stream of a pool and follows the steps of
the pool on the entries alone.  Where the entries and the streams are related
at the start, and each kind of step keeps single entries and streams related,
they are related after every run.

* `Follows.step` — one step keeps a book and a pool together, and both refuse
  the same steps.
* `Follows.run` — so does a run.
* `Follows.exists_run`, `Follows.exists_book` — steps that are kept account of
  are carried out, and the other way round.
* `Pool.forall_streams_of_run` — an invariant of single streams holds of every
  stream of a pool.
-/
import PrimeListing.PrimeStream.Pool

namespace PrimeListing.PrimeStream

/-- A way of keeping account: the entry for a fresh stream, the one after an action, and the
one for a copy. -/
structure Account (σ : Type) where
  fresh : σ
  act : Action → σ → σ
  copy : σ → σ := id

/-- Entries in the order of the streams, and the position in focus. -/
structure Book (σ : Type) where
  entries : List σ
  focus : Nat
  focus_lt : focus < entries.length

namespace Book

variable {σ : Type}

def focused (b : Book σ) : σ := b.entries.get ⟨b.focus, b.focus_lt⟩

def replace (b : Book σ) (x : σ) : Book σ where
  entries := b.entries.set b.focus x
  focus := b.focus
  focus_lt := by simpa using b.focus_lt

def push (b : Book σ) (x : σ) : Book σ where
  entries := b.entries ++ [x]
  focus := b.entries.length
  focus_lt := by simp

theorem entries_focus (b : Book σ) : b.entries[b.focus]? = some b.focused :=
  List.getElem?_eq_getElem b.focus_lt

theorem focused_replace (b : Book σ) (x : σ) : (b.replace x).focused = x :=
  List.getElem_set_self _

end Book

namespace Account

variable {σ : Type}

/-- The account of the pool of one fresh stream. -/
def start (acc : Account σ) : Book σ where
  entries := [acc.fresh]
  focus := 0
  focus_lt := Nat.zero_lt_one

/-- Keep account of one step; none where it selects a position outside the pool. -/
def step (acc : Account σ) (b : Book σ) : Pool.Step → Option (Book σ)
  | .act a => some (b.replace (acc.act a b.focused))
  | .fresh => some (b.push acc.fresh)
  | .copy => some (b.push (acc.copy b.focused))
  | .select i =>
    if h : i < b.entries.length then some { b with focus := i, focus_lt := h } else none

/-- Keep account of a sequence of steps; none where a step is refused. -/
def run (acc : Account σ) (b : Book σ) : List Pool.Step → Option (Book σ)
  | [] => some b
  | st :: rest => (acc.step b st).bind fun c => acc.run c rest

theorem run_append (acc : Account σ) (b : Book σ) (before rest : List Pool.Step) :
    acc.run b (before ++ rest) = (acc.run b before).bind fun c => acc.run c rest := by
  induction before generalizing b with
  | nil => rfl
  | cons st before ih =>
    simp only [List.cons_append, run]
    cases acc.step b st with
    | none => rfl
    | some c => exact ih c

end Account

/-! ### Runs of a pool -/

/-- The report of an action. -/
def reportOf (s : PrimeStream) (a : Action) : Pool.Report where
  reply := .answer (s.act a).1
  tested := (s.act a).2.tested

namespace Pool

theorem focused_replace (p : Pool) (s : PrimeStream) : (p.replace s).focused = s :=
  List.getElem_set_self _

theorem replace_focused (p : Pool) : p.replace p.focused = p := by
  have hset : p.streams.set p.focus p.focused = p.streams := List.set_getElem_self p.focus_lt
  cases p
  simp only [replace, hset]

/-- An action goes to the stream in focus, and its report is what the stream alone brings
forth. -/
theorem step_act (p : Pool) (a : Action) :
    p.step (.act a) = some (p.focused.reportOf a, p.replace (p.focused.act a).2) := by
  have hreport : (p.replace (p.focused.act a).2).report (.answer (p.focused.act a).1)
      = (p.focused.reportOf a, p.replace (p.focused.act a).2) := by
    rw [report, focused_replace]
    rfl
  exact congrArg some hreport

theorem tested_of_step {p q : Pool} {st : Step} {r : Report} (h : p.step st = some (r, q)) :
    r.tested = q.focused.tested := by
  cases st with
  | act a =>
    cases h
    rfl
  | fresh =>
    cases h
    rfl
  | copy =>
    cases h
    rfl
  | select i =>
    simp only [step] at h
    split at h
    · cases h
      rfl
    · cases h

/-- A run of at least one step is a step and the run of the rest. -/
theorem run_cons_eq_some {p q : Pool} {st : Step} {rest : List Step} {rs : List Report}
    (h : p.run (st :: rest) = some (rs, q)) :
    ∃ r rs' p', p.step st = some (r, p') ∧ p'.run rest = some (rs', q) ∧ rs = r :: rs' := by
  simp only [run, Option.bind_eq_bind, Option.bind_eq_some_iff, Option.pure_def,
    Option.some.injEq, Prod.mk.injEq, Prod.exists] at h
  obtain ⟨r, p', hstep, rs', q', hrun, rfl, rfl⟩ := h
  exact ⟨r, rs', p', hstep, hrun, rfl⟩

theorem run_cons {p q final : Pool} {st : Step} {rest : List Step} {r : Report}
    {rs : List Report} (hstep : p.step st = some (r, q)) (hrest : q.run rest = some (rs, final)) :
    p.run (st :: rest) = some (r :: rs, final) := by
  simp only [run, hstep, hrest, Option.bind_eq_bind, Option.bind_some, Option.pure_def]

theorem run_append {p q final : Pool} {before rest : List Step} {rs₁ rs₂ : List Report}
    (hbefore : p.run before = some (rs₁, q)) (hrest : q.run rest = some (rs₂, final)) :
    p.run (before ++ rest) = some (rs₁ ++ rs₂, final) := by
  induction before generalizing p rs₁ with
  | nil =>
    cases hbefore
    exact hrest
  | cons st before ih =>
    obtain ⟨r, rs, p', hstep, hrun, rfl⟩ := run_cons_eq_some hbefore
    exact run_cons hstep (ih hrun)

/-- A run may be split anywhere, and so may its reports. -/
theorem run_append_eq_some {p final : Pool} {before rest : List Step} {rs : List Report}
    (h : p.run (before ++ rest) = some (rs, final)) :
    ∃ rs₁ rs₂ q, p.run before = some (rs₁, q) ∧ q.run rest = some (rs₂, final) ∧
      rs = rs₁ ++ rs₂ := by
  induction before generalizing p rs with
  | nil => exact ⟨[], rs, p, rfl, h, rfl⟩
  | cons st before ih =>
    obtain ⟨r, rs', p', hstep, hrun, rfl⟩ := run_cons_eq_some h
    obtain ⟨rs₁, rs₂, q, hbefore, hrest, rfl⟩ := ih hrun
    exact ⟨r :: rs₁, rs₂, q, run_cons hstep hbefore, hrest, rfl⟩

theorem length_of_run {p q : Pool} {steps : List Step} {rs : List Report}
    (h : p.run steps = some (rs, q)) : rs.length = steps.length := by
  induction steps generalizing p rs with
  | nil =>
    cases h
    rfl
  | cons st rest ih =>
    obtain ⟨r, rs', p', -, hrun, rfl⟩ := run_cons_eq_some h
    rw [List.length_cons, List.length_cons, ih hrun]

/-- The last report holds the count of the stream in focus at the end. -/
theorem tested_of_getLast_run {p q : Pool} {steps : List Step} {rs : List Report} {r : Report}
    (h : p.run steps = some (rs, q)) (hlast : rs.getLast? = some r) :
    r.tested = q.focused.tested := by
  induction steps generalizing p rs with
  | nil =>
    cases h
    cases hlast
  | cons st rest ih =>
    obtain ⟨r', rs', p', hstep, hrun, rfl⟩ := run_cons_eq_some h
    cases rs' with
    | nil =>
      -- without further reports there were no further steps
      have hrest : rest = [] := List.length_eq_zero_iff.mp (length_of_run hrun).symm
      subst hrest
      cases hrun
      cases hlast
      exact tested_of_step hstep
    | cons r'' rs'' =>
      rw [List.getLast?_cons_cons] at hlast
      exact ih hrun hlast

/-- Each report holds the count of the stream that is in focus when it is made. -/
theorem tested_of_run_take {p final : Pool} {steps : List Step} {rs : List Report} {k : Nat}
    {r : Report} (h : p.run steps = some (rs, final)) (hr : rs[k]? = some r) :
    ∃ rs' q, p.run (steps.take (k + 1)) = some (rs', q) ∧ r.tested = q.focused.tested := by
  have hlength := length_of_run h
  rw [← List.take_append_drop (k + 1) steps] at h
  obtain ⟨rs₁, rs₂, q, hbefore, -, rfl⟩ := run_append_eq_some h
  refine ⟨rs₁, q, hbefore, tested_of_getLast_run hbefore ?_⟩
  obtain ⟨hk, -⟩ := List.getElem?_eq_some_iff.mp hr
  have hlength₁ : rs₁.length = k + 1 := by
    rw [length_of_run hbefore, List.length_take]
    omega
  rw [List.getElem?_append_left (by omega)] at hr
  rw [List.getLast?_eq_getElem?, hlength₁]
  exact hr

end Pool

/-! ### Books that follow a pool -/

/-- Related results with related continuations give related results. -/
theorem rel_bind {α β γ δ : Type} {r : α → β → Prop} {r' : γ → δ → Prop} {x : Option α}
    {y : Option β} {f : α → Option γ} {g : β → Option δ} (hxy : Option.Rel r x y)
    (hfg : ∀ a b, r a b → Option.Rel r' (f a) (g b)) :
    Option.Rel r' (x.bind f) (y.bind g) := by
  cases hxy with
  | some h => exact hfg _ _ h
  | none => exact .none

theorem exists_of_rel_left {α β : Type} {r : α → β → Prop} {x : Option α} {y : Option β} {a : α}
    (h : Option.Rel r x y) (hx : x = some a) : ∃ b, y = some b ∧ r a b := by
  subst hx
  cases h with
  | some hab => exact ⟨_, rfl, hab⟩

theorem exists_of_rel_right {α β : Type} {r : α → β → Prop} {x : Option α} {y : Option β} {b : β}
    (h : Option.Rel r x y) (hy : y = some b) : ∃ a, x = some a ∧ r a b := by
  subst hy
  cases h with
  | some hab => exact ⟨_, rfl, hab⟩

/-- Single entries and streams stay related, whatever is done to them. -/
structure Account.Keeps {σ : Type} (acc : Account σ) (R : σ → PrimeStream → Prop) : Prop where
  fresh : R acc.fresh {}
  act : ∀ {x s} (a : Action), R x s → R (acc.act a x) (s.act a).2
  copy : ∀ {x s}, R x s → R (acc.copy x) s

/-- Each entry of a book is related to the stream at its position. -/
structure Follows {σ : Type} (R : σ → PrimeStream → Prop) (b : Book σ) (p : Pool) : Prop where
  length_eq : b.entries.length = p.streams.length
  focus_eq : b.focus = p.focus
  related : ∀ i (hb : i < b.entries.length) (hp : i < p.streams.length),
    R b.entries[i] p.streams[i]

namespace Follows

variable {σ : Type} {R : σ → PrimeStream → Prop} {acc : Account σ} {b : Book σ} {p : Pool}

theorem start (hacc : acc.Keeps R) : Follows R acc.start Pool.start where
  length_eq := rfl
  focus_eq := rfl
  related := by
    intro i hb hp
    obtain rfl : i = 0 := Nat.lt_one_iff.mp hb
    exact hacc.fresh

theorem focused (h : Follows R b p) : R b.focused p.focused := by
  have hrelated := h.related b.focus b.focus_lt (h.focus_eq ▸ p.focus_lt)
  simpa only [Book.focused, Pool.focused, List.get_eq_getElem, h.focus_eq] using hrelated

theorem replace (h : Follows R b p) {x : σ} {s : PrimeStream} (hxs : R x s) :
    Follows R (b.replace x) (p.replace s) where
  length_eq := by
    simpa only [Book.replace, Pool.replace, List.length_set] using h.length_eq
  focus_eq := h.focus_eq
  related := by
    intro i hb hp
    simp only [Book.replace, Pool.replace, List.getElem_set, h.focus_eq]
    split
    · exact hxs
    · exact h.related i _ _

theorem push (h : Follows R b p) {x : σ} {s : PrimeStream} (hxs : R x s) :
    Follows R (b.push x) (p.push s) where
  length_eq := by
    simpa only [Book.push, Pool.push, List.length_append, List.length_singleton,
      Nat.add_right_cancel_iff] using h.length_eq
  focus_eq := h.length_eq
  related := by
    intro i hb hp
    simp only [Book.push, Pool.push, List.getElem_append, h.length_eq]
    split
    · exact h.related i _ _
    · simpa only [List.getElem_singleton] using hxs

/-- A step that the book keeps account of is carried out by the pool, and the other way
round. -/
theorem step (hacc : acc.Keeps R) (h : Follows R b p) (st : Pool.Step) :
    Option.Rel (fun c q => Follows R c q.2) (acc.step b st) (p.step st) := by
  cases st with
  | act a => exact .some (h.replace (hacc.act a h.focused))
  | fresh => exact .some (h.push hacc.fresh)
  | copy => exact .some (h.push (hacc.copy h.focused))
  | select i =>
    simp only [Account.step, Pool.step, h.length_eq]
    split
    · exact .some { length_eq := h.length_eq, focus_eq := rfl, related := h.related }
    · exact .none

theorem run (hacc : acc.Keeps R) (h : Follows R b p) (steps : List Pool.Step) :
    Option.Rel (fun c q => Follows R c q.2) (acc.run b steps) (p.run steps) := by
  induction steps generalizing b p with
  | nil => exact .some h
  | cons st rest ih =>
    simp only [Account.run, Pool.run]
    refine rel_bind (h.step hacc st) ?_
    rintro c ⟨r, q⟩ hfollows
    -- the pool puts the report in front, which leaves the pool at the end as it is
    have hreports : Option.Rel (fun c q => Follows R c q.2) ((acc.run c rest).bind some)
        ((q.run rest).bind fun x => some (r :: x.1, x.2)) :=
      rel_bind (ih hfollows) fun _ _ hend => .some hend
    rwa [Option.bind_fun_some] at hreports

theorem exists_run (hacc : acc.Keeps R) (h : Follows R b p) {steps : List Pool.Step} {c : Book σ}
    (hb : acc.run b steps = some c) : ∃ rs q, p.run steps = some (rs, q) ∧ Follows R c q := by
  obtain ⟨⟨rs, q⟩, hq, hfollows⟩ := exists_of_rel_left (h.run hacc steps) hb
  exact ⟨rs, q, hq, hfollows⟩

theorem exists_book (hacc : acc.Keeps R) (h : Follows R b p) {steps : List Pool.Step}
    {rs : List Pool.Report} {q : Pool} (hp : p.run steps = some (rs, q)) :
    ∃ c, acc.run b steps = some c ∧ Follows R c q := by
  obtain ⟨c, hc, hfollows⟩ := exists_of_rel_right (h.run hacc steps) hp
  exact ⟨c, hc, hfollows⟩

/-- Where a step is kept account of and carried out, the book follows the pool. -/
theorem of_step (hacc : acc.Keeps R) (h : Follows R b p) {st : Pool.Step} {c : Book σ}
    {r : Pool.Report} {q : Pool} (hb : acc.step b st = some c) (hp : p.step st = some (r, q)) :
    Follows R c q := by
  obtain ⟨_, hq, hfollows⟩ := exists_of_rel_left (h.step hacc st) hb
  cases hp.symm.trans hq
  exact hfollows

end Follows

/-- The account that notes nothing. -/
def Account.blank : Account Unit where
  fresh := ()
  act := fun _ _ => ()

/-- What holds of a fresh stream, and after every action, holds of each stream of a pool. -/
theorem Pool.forall_streams_of_run {R : PrimeStream → Prop} (hfresh : R {})
    (hact : ∀ s a, R s → R (s.act a).2) {steps : List Pool.Step} {rs : List Pool.Report}
    {p : Pool} (h : Pool.start.run steps = some (rs, p)) : ∀ s ∈ p.streams, R s := by
  have hkeeps : Account.blank.Keeps fun _ s => R s :=
    { fresh := hfresh, act := fun a hs => hact _ a hs, copy := fun hs => hs }
  obtain ⟨b, -, hfollows⟩ := (Follows.start hkeeps).exists_book hkeeps h
  intro s hs
  obtain ⟨i, hi, rfl⟩ := List.mem_iff_getElem.mp hs
  exact hfollows.related i (hfollows.length_eq ▸ hi) hi

end PrimeListing.PrimeStream
