/-
The command lines that list primes.

Of a line only this matters: how often the debug flag stands among the options,
and what is left beside it.  The line lists primes exactly if the flag stands
there once at most and the rest is nothing, or a single text that is read as a
count.  Every other line brings the help or the report of an error, and nothing
else.

* `Asks` — what a line asks for, told from its arguments without a scan.
* `Slot.Yields` — the count that a scan comes to with the values ahead of it.
  This is what carries the induction along the line: the place for the count
  may be free, taken by a text that was not read, or filled.
* `bind_finish_eq_ok_iff` — how a scan ends, from any state.
* `ofArgs_eq_ok_iff` — a line is carried out exactly if it asks for something.
* `lists_primes_iff_asks` — what the command puts out for every line.
-/
import PrimeListing.Proofs.Arguments
import PrimeListing.Proofs.TestedCandidates

namespace PrimeListing.Command

/-- The arguments behind the end of the options. -/
def valuePart (args : List String) : List String := (args.dropWhile (· ≠ "--")).tail

/-- The debug flags of a line. -/
def debugFlags (args : List String) : List String := (optionPart args).filter isDebugFlag

/-- What a line holds beside its debug flags and the end of the options. -/
def values (args : List String) : List String :=
  (optionPart args).filter (fun arg => !isDebugFlag arg) ++ valuePart args

/-- A line asks for the primes of a count, with the debug flag or without. -/
structure Asks (args : List String) (n : Count) (debug : Bool) : Prop where
  /-- The flag stands there once, or not at all. -/
  flags : (debugFlags args).length = debug.toNat
  /-- Beside it there is nothing, which asks for ten primes, or the text of the count. -/
  count : (values args = [] ∧ n = ⟨10⟩) ∨ ∃ text, values args = [text] ∧ Count.read text = .ok n

/-! ### The first argument of a line -/

theorem ne_end_of_isDebugFlag {arg : String} (h : isDebugFlag arg = true) : arg ≠ "--" := by
  rintro rfl
  exact absurd h (by decide)

theorem debugFlags_cons_end (args : List String) : debugFlags ("--" :: args) = [] := by
  simp [debugFlags, optionPart]

theorem values_cons_end (args : List String) : values ("--" :: args) = args := by
  simp [values, optionPart, valuePart]

theorem debugFlags_cons_flag {arg : String} (h : isDebugFlag arg = true) (args : List String) :
    debugFlags (arg :: args) = arg :: debugFlags args := by
  simp [debugFlags, optionPart, ne_end_of_isDebugFlag h, h]

theorem values_cons_flag {arg : String} (h : isDebugFlag arg = true) (args : List String) :
    values (arg :: args) = values args := by
  simp [values, optionPart, valuePart, ne_end_of_isDebugFlag h, h]

theorem debugFlags_cons_value {arg : String} (hend : arg ≠ "--") (hflag : ¬isDebugFlag arg = true)
    (args : List String) : debugFlags (arg :: args) = debugFlags args := by
  simp [debugFlags, optionPart, hend, hflag]

theorem values_cons_value {arg : String} (hend : arg ≠ "--") (hflag : ¬isDebugFlag arg = true)
    (args : List String) : values (arg :: args) = arg :: values args := by
  simp [values, optionPart, valuePart, hend, hflag]

/-! ### The place for the count and the values to come -/

/-- The count that a place comes to with further values: its own, that of the one value that is
given, or the one for no value at all. -/
def Slot.Yields (slot : Slot) (texts : List String) (n : Count) : Prop :=
  match slot, texts with
  | .free, [] => n = Count.standard
  | .free, [text] | .pending text, [] => Count.read text = .ok n
  | .filled m, [] => n = m
  | _, _ => False

theorem Slot.yields_cons {slot : Slot} {text : String} {texts : List String} {n : Count} :
    slot.Yields (text :: texts) n ↔ slot = .free ∧ (Slot.pending text).Yields texts n := by
  cases slot with
  | free => cases texts <;> simp [Slot.Yields]
  | pending _ | filled _ => simp [Slot.Yields]

theorem Slot.yields_pending {text : String} {texts : List String} {n : Count} :
    (Slot.pending text).Yields texts n ↔ texts = [] ∧ Count.read text = .ok n := by
  cases texts <;> simp [Slot.Yields]

theorem Slot.yields_free {texts : List String} {n : Count} :
    Slot.free.Yields texts n ↔
      (texts = [] ∧ n = ⟨10⟩) ∨ ∃ text, texts = [text] ∧ Count.read text = .ok n := by
  cases texts with
  | nil => simp [Slot.Yields, Count.standard]
  | cons text texts => simp [Slot.yields_cons, Slot.yields_pending]

namespace Scan

/-- Reading the count that was put aside changes nothing about what a scan comes to. -/
theorem settle_yields {s : Scan} {texts : List String} {n : Count} :
    s.slot.Yields texts n ↔ ∃ t, s.settle = .ok t ∧ t.slot.Yields texts n := by
  cases hslot : s.slot with
  | free => simp [settle, hslot]
  | filled m => simp [settle, hslot]
  | pending text =>
    cases hread : Count.read text with
    | error e => cases texts <;> simp [settle, hslot, hread, Slot.Yields]
    | ok m => cases texts <;> simp [settle, hslot, hread, Slot.Yields, eq_comm]

/-! ### How a scan ends -/

theorem finish_eq_ok_iff {s : Scan} {r : Request} :
    s.finish = .ok r ↔ s.debug = r.debug ∧ s.slot.Yields [] r.count := by
  obtain ⟨n, debug⟩ := r
  cases hslot : s.slot with
  | free => simp [finish, settle, hslot, Slot.Yields, Except.bind, eq_comm, and_comm]
  | filled m => simp [finish, settle, hslot, Slot.Yields, Except.bind, eq_comm, and_comm]
  | pending text =>
    rw [finish_pending hslot, Request.ofValue]
    cases hread : Count.read text with
    | error e => simp [Slot.Yields, hread]
    | ok m => simp [Slot.Yields, hread, and_comm]

theorem bind_finish_cons_eq_ok_iff {s : Scan} {arg : String} {args : List String} {r : Request} :
    (s.scan (arg :: args)).bind finish = .ok r ↔
      ∃ t, s.step arg = .ok t ∧ (t.scan args).bind finish = .ok r := by
  rw [bind_finish_cons]
  cases s.step arg with
  | error stop => simp [Except.bind]
  | ok t => simp [Except.bind]

/-- Once the options have ended, all that follows are values. -/
theorem bind_finish_of_optionsEnded {s : Scan} (hended : s.optionsEnded = true)
    {args : List String} {r : Request} :
    (s.scan args).bind finish = .ok r ↔ s.debug = r.debug ∧ s.slot.Yields args r.count := by
  induction args generalizing s with
  | nil => exact finish_eq_ok_iff
  | cons arg args ih =>
    have hnext : ({ s with slot := .pending arg } : Scan).optionsEnded = true := hended
    rw [bind_finish_cons_eq_ok_iff, step_of_optionsEnded hended, Slot.yields_cons]
    constructor
    · rintro ⟨t, hplace, hrest⟩
      obtain ⟨hfree, rfl⟩ := place_eq_ok_iff.mp hplace
      obtain ⟨hdebug, hyields⟩ := (ih hnext).mp hrest
      exact ⟨hdebug, hfree, hyields⟩
    · rintro ⟨hdebug, hfree, hyields⟩
      exact ⟨_, place_eq_ok_iff.mpr ⟨hfree, rfl⟩, (ih hnext).mpr ⟨hdebug, hyields⟩⟩

theorem bind_finish_cons_flag {s : Scan} (hopen : s.optionsEnded = false) {arg : String}
    (hflag : isDebugFlag arg = true) {args : List String} {r : Request} :
    (s.scan (arg :: args)).bind finish = .ok r ↔
      s.debug = false ∧ ∃ u, s.settle = .ok u ∧
        (({ u with debug := true } : Scan).scan args).bind finish = .ok r := by
  rw [bind_finish_cons_eq_ok_iff, step_of_isDebugFlag hopen hflag]
  constructor
  · rintro ⟨t, htake, hrest⟩
    obtain ⟨hoff, u, hsettle, rfl⟩ := takeDebug_eq_ok_iff.mp htake
    exact ⟨hoff, u, hsettle, hrest⟩
  · rintro ⟨hoff, u, hsettle, hrest⟩
    exact ⟨_, takeDebug_eq_ok_iff.mpr ⟨hoff, u, hsettle, rfl⟩, hrest⟩

theorem bind_finish_cons_value {s : Scan} (hopen : s.optionsEnded = false) {arg : String}
    (hend : arg ≠ "--") (hflag : ¬isDebugFlag arg = true) {args : List String} {r : Request} :
    (s.scan (arg :: args)).bind finish = .ok r ↔
      Argument.read true arg = .value arg ∧ s.slot = .free ∧
        (({ s with slot := .pending arg } : Scan).scan args).bind finish = .ok r := by
  rw [bind_finish_cons_eq_ok_iff]
  constructor
  · rintro ⟨t, hstep, hrest⟩
    rcases (step_eq_ok_iff hopen).mp hstep with ⟨h, -⟩ | ⟨h, -⟩ | ⟨hread, hfree, rfl⟩
    · exact absurd h hend
    · exact absurd h hflag
    · exact ⟨hread, hfree, hrest⟩
  · rintro ⟨hread, hfree, hrest⟩
    exact ⟨_, (step_eq_ok_iff hopen).mpr (.inr (.inr ⟨hread, hfree, rfl⟩)), hrest⟩

theorem bind_finish_cons_end {s : Scan} (hopen : s.optionsEnded = false) {args : List String}
    {r : Request} :
    (s.scan ("--" :: args)).bind finish = .ok r ↔
      s.debug = r.debug ∧ s.slot.Yields args r.count := by
  have hstep : s.step "--" = .ok { s with optionsEnded := true } :=
    (step_eq_ok_iff hopen).mpr (.inl ⟨rfl, rfl⟩)
  have hended : ({ s with optionsEnded := true } : Scan).optionsEnded = true := rfl
  rw [bind_finish_cons, hstep]
  exact bind_finish_of_optionsEnded hended

/-- While options may still come, a scan ends well if the debug flag is met once at most, counting
what was met before, and the values ahead make a count. -/
theorem bind_finish_eq_ok_iff {s : Scan} (hopen : s.optionsEnded = false) {args : List String}
    {r : Request} :
    (s.scan args).bind finish = .ok r ↔
      s.debug.toNat + (debugFlags args).length = r.debug.toNat ∧
        s.slot.Yields (values args) r.count := by
  have hsame : ∀ b c : Bool, b = c ↔ b.toNat = c.toNat := by decide
  induction args generalizing s with
  | nil =>
    have hnil : (s.scan []).bind finish = s.finish := rfl
    rw [hnil, finish_eq_ok_iff, hsame]
    rfl
  | cons arg args ih =>
    by_cases hend : arg = "--"
    · subst hend
      rw [bind_finish_cons_end hopen, debugFlags_cons_end, values_cons_end, List.length_nil,
        Nat.add_zero, hsame]
    by_cases hflag : isDebugFlag arg = true
    · have hnext : ∀ u, s.settle = .ok u →
          ((({ u with debug := true } : Scan).scan args).bind finish = .ok r ↔
            true.toNat + (debugFlags args).length = r.debug.toNat ∧
              u.slot.Yields (values args) r.count) := by
        intro u hsettle
        refine ih (s := { u with debug := true }) ?_
        rw [settle_eq_ok hsettle]
        exact hopen
      -- with this flag there is no room for an earlier one
      have hone : ∀ k, s.debug.toNat + (k + 1) = r.debug.toNat ↔
          s.debug = false ∧ true.toNat + k = r.debug.toNat := by
        intro k
        have hle := Bool.toNat_le r.debug
        cases s.debug
        · simp [Nat.add_comm]
        · simp only [Bool.toNat_true, Bool.true_eq_false, false_and, iff_false]
          omega
      rw [bind_finish_cons_flag hopen hflag, debugFlags_cons_flag hflag, values_cons_flag hflag,
        settle_yields, List.length_cons, hone]
      constructor
      · rintro ⟨hoff, u, hsettle, hrest⟩
        obtain ⟨hcount, hyields⟩ := (hnext u hsettle).mp hrest
        exact ⟨⟨hoff, hcount⟩, u, hsettle, hyields⟩
      · rintro ⟨⟨hoff, hcount⟩, u, hsettle, hyields⟩
        exact ⟨hoff, u, hsettle, (hnext u hsettle).mpr ⟨hcount, hyields⟩⟩
    · have hnext : (({ s with slot := .pending arg } : Scan).scan args).bind finish = .ok r ↔
          s.debug.toNat + (debugFlags args).length = r.debug.toNat ∧
            (Slot.pending arg).Yields (values args) r.count :=
        ih (s := { s with slot := .pending arg }) hopen
      rw [bind_finish_cons_value hopen hend hflag, debugFlags_cons_value hend hflag,
        values_cons_value hend hflag, Slot.yields_cons, hnext]
      constructor
      · rintro ⟨-, hfree, hcount, hyields⟩
        exact ⟨hcount, hfree, hyields⟩
      · rintro ⟨hcount, hfree, hyields⟩
        -- what is read as a count is taken for a value and not for an option
        have hread := Argument.read_of_count true (Slot.yields_pending.mp hyields).2
        exact ⟨hread, hfree, hcount, hyields⟩

end Scan

/-! ### What the command puts out -/

theorem Request.ofArgs_eq_ok_iff {args : List String} {r : Request} :
    Request.ofArgs args = .ok r ↔ Asks args r.count r.debug := by
  have hopen : ({} : Scan).optionsEnded = false := rfl
  have hnone : ({} : Scan).debug.toNat + (debugFlags args).length = (debugFlags args).length :=
    Nat.zero_add _
  rw [Request.ofArgs, Scan.bind_finish_eq_ok_iff hopen, hnone, Slot.yields_free]
  constructor
  · rintro ⟨hflags, hcount⟩
    exact ⟨hflags, hcount⟩
  · intro h
    exact ⟨h.flags, h.count⟩

theorem debugText_eq (n : Count) (ps : List UInt64) :
    debugText n ps =
      "Count(" ++ decimal n.val.toNat ++ ")\ntested " ++ decimal (testedFor ps).toNat
        ++ " candidates\n" := by
  have hopening : "Count(" = "Count" ++ "(" := rfl
  have hclosing : ")\ntested " = ")" ++ "\ntested " := rfl
  rw [hopening, hclosing]
  simp only [debugText, Count.labelled, Text.wrapped, Count.text, String.append_assoc]

theorem UsageError.exists_report_eq (e : UsageError) :
    ∃ body, e.report = "error: " ++ body ++ "For more information, try '--help'.\n" := by
  refine ⟨e.message ++ "\n\n" ++ paragraph "  tip: " e.tip? ++ paragraph "" e.usage?, ?_⟩
  simp only [report, paragraph, pointer, String.append_assoc]

theorem head?_toList_append {s : String} {c : Char} (h : s.toList.head? = some c) (t : String) :
    (s ++ t).toList.head? = some c := by
  rw [String.toList_append, List.head?_append, h, Option.some_or]

theorem head?_helpText : helpText.toList.head? = some 'P' := by
  unfold helpText
  repeat refine head?_toList_append ?_ _
  rfl

/-- The help is no list: it does not begin with a bracket. -/
theorem helpText_ne_listText (ps : List UInt64) : helpText ≠ listText ps ++ "\n" := by
  intro h
  have hhelp := head?_helpText
  have hlist : (listText ps ++ "\n").toList.head? = some '[' := by
    unfold listText Text.bracketed
    repeat refine head?_toList_append ?_ _
    rfl
  rw [h, hlist] at hhelp
  exact absurd hhelp (by decide)

/-- A list is put out for exactly the lines that ask for one.  It then shows the primes for the
count, in decimal notation between square brackets, and the account of the work stands beside it on
the error output if the debug flag is there.  Every other line brings the help alone or the report
of an error alone. -/
theorem lists_primes_iff_asks (args : List String) :
    (((Transcript.ofArgs args).code = 0 ∧
        ∃ ps : List UInt64, (Transcript.ofArgs args).stdout =
          "[" ++ ", ".intercalate (ps.map fun p => decimal p.toNat) ++ "]\n") ↔
      ∃ n debug, Asks args n debug) ∧
    (∀ n debug, Asks args n debug →
      ∃ c, (n.primes = [] → c = 0) ∧ (∀ p, n.primes.getLast? = some p → c + 1 = p.toNat) ∧
        Transcript.ofArgs args =
          { code := 0
            stdout := "[" ++ ", ".intercalate (n.primes.map fun p => decimal p.toNat) ++ "]\n"
            stderr :=
              if debug then
                "Count(" ++ decimal n.val.toNat ++ ")\ntested " ++ decimal c ++ " candidates\n"
              else "" }) ∧
    ((¬∃ n debug, Asks args n debug) →
      Transcript.ofArgs args = { code := 0, stdout := helpText, stderr := "" } ∨
      ∃ body, Transcript.ofArgs args =
        { code := 2
          stdout := ""
          stderr := "error: " ++ body ++ "For more information, try '--help'.\n" }) := by
  have hasks : ∀ n debug, Asks args n debug →
      Transcript.ofArgs args = Transcript.ofRequest { count := n, debug := debug } := by
    intro n debug h
    exact Transcript.ofArgs_of_request (Request.ofArgs_eq_ok_iff.mpr h)
  refine ⟨⟨?_, ?_⟩, ?_, ?_⟩
  · rintro ⟨hcode, ps, hlist⟩
    cases hargs : Request.ofArgs args with
    | ok r => exact ⟨r.count, r.debug, Request.ofArgs_eq_ok_iff.mp hargs⟩
    | error stop =>
      cases stop with
      | help =>
        rw [Transcript.ofArgs_of_help hargs, ← listText_newline] at hlist
        exact absurd hlist (helpText_ne_listText ps)
      | misuse e =>
        rw [Transcript.ofArgs_of_misuse hargs] at hcode
        have htwo : (2 : UInt32) ≠ 0 := by decide
        exact absurd hcode htwo
  · rintro ⟨n, debug, h⟩
    rw [hasks n debug h]
    exact ⟨rfl, n.primes, listText_newline n.primes⟩
  · intro n debug h
    obtain ⟨hempty, hlast⟩ := toNat_testedFor_primes n
    refine ⟨(testedFor n.primes).toNat, hempty, hlast, ?_⟩
    rw [hasks n debug h, Transcript.ofRequest, debugText_eq, listText_newline]
  · intro hnone
    cases hargs : Request.ofArgs args with
    | ok r => exact absurd ⟨r.count, r.debug, Request.ofArgs_eq_ok_iff.mp hargs⟩ hnone
    | error stop =>
      cases stop with
      | help => exact .inl (Transcript.ofArgs_of_help hargs)
      | misuse e =>
        obtain ⟨body, hreport⟩ := e.exists_report_eq
        refine .inr ⟨body, ?_⟩
        rw [Transcript.ofArgs_of_misuse hargs, hreport]

end PrimeListing.Command
