/-
The first problem on a command line is final.

A scan that meets a problem reads no further, so nothing that is added behind
the line makes a difference.  A scan that comes to the end of a line may still
fail there, but only because the count that was put aside cannot be read, and
with more values behind the line it would have met one too many before.  So the
runs that fail are final, all but those that refuse a count, and a run that
refuses a count is final exactly if the count was read on the way.

* `finish_eq_error`, `scan_eq_error_of_ofArgs` — what the end of a line can
  bring, and so what must have been met on the way.
* `UsageError.head?_message`, `refusesCount_ofArgs_iff` — the report tells whether
  a count was refused.
* `exists_surplus` — values enough behind a line are too many.
* `isFinal_iff` — a line is final exactly if its scan ends on the way.
* `first_problem_is_final` — the same, told from what is put out.
-/
import PrimeListing.Proofs.CommandLanguage
import PrimeListing.Proofs.RefusedCount

namespace PrimeListing.Command

/-! ### The end of a line -/

namespace Scan

/-- At the end of a line only the count that was put aside can still be refused. -/
theorem finish_eq_error {s : Scan} {stop : Stop} (h : s.finish = .error stop) :
    ∃ e, stop = .misuse (.invalidCount e) := by
  rcases hslot : s.slot with _ | text | n
  · rw [finish, settle, hslot] at h
    simp [Except.bind, hslot] at h
  · rw [finish_pending hslot, Request.ofValue] at h
    split at h
    · cases h
    · next e _ =>
      cases h
      exact ⟨e, rfl⟩
  · rw [finish, settle, hslot] at h
    simp [Except.bind, hslot] at h

/-- Any other problem was met on the way. -/
theorem scan_eq_error_of_ofArgs {args : List String} {stop : Stop}
    (h : Request.ofArgs args = .error stop) (hstop : ∀ e, stop ≠ .misuse (.invalidCount e)) :
    ({} : Scan).scan args = .error stop := by
  rw [Request.ofArgs] at h
  rcases hscan : ({} : Scan).scan args with stop' | s
  · rw [hscan] at h
    have hsame : (.error stop' : Except Stop Request) = .error stop := h
    cases hsame
    rfl
  · rw [hscan] at h
    obtain ⟨e, he⟩ := finish_eq_error h
    exact absurd he (hstop e)

/-- A scan that has ended reads nothing of what is added behind. -/
theorem scan_append_of_error {s : Scan} {args : List String} {stop : Stop}
    (h : s.scan args = .error stop) (more : List String) : s.scan (args ++ more) = .error stop := by
  rw [scan_append, h]
  rfl

/-! ### Too many values -/

theorem place_of_not_free {s : Scan} (h : s.slot.isFree = false) (text : String) :
    s.place text = .error (.misuse (.surplusValue text)) := by
  rw [place, h]
  rfl

/-- Once the options have ended, two values are one too many at least. -/
theorem exists_surplus_of_optionsEnded {s : Scan} (h : s.optionsEnded = true) (a b : String) :
    ∃ text, s.scan [a, b] = .error (.misuse (.surplusValue text)) := by
  have hcons : s.scan [a, b] = (s.place a).bind fun t => t.scan [b] := by
    rw [← step_of_optionsEnded h]
    rfl
  by_cases hfree : s.slot.isFree = true
  · have hfirst : s.place a = .ok { s with slot := .pending a } := by
      rw [place, if_pos hfree]
    have hsecond : ({ s with slot := .pending a } : Scan).scan [b]
        = (({ s with slot := .pending a } : Scan).place b).bind .ok := by
      rw [← step_of_optionsEnded (s := { s with slot := .pending a }) h]
      rfl
    refine ⟨b, ?_⟩
    rw [hcons, hfirst]
    show ({ s with slot := .pending a } : Scan).scan [b] = _
    rw [hsecond, place_of_not_free rfl]
    rfl
  · have hfull : s.slot.isFree = false := Bool.not_eq_true _ ▸ hfree
    refine ⟨a, ?_⟩
    rw [hcons, place_of_not_free hfull]
    rfl

/-- Behind the end of the options, which is a value itself where they have ended before, two values
are always too many. -/
theorem exists_surplus (s : Scan) (a b : String) :
    ∃ text, s.scan ["--", a, b] = .error (.misuse (.surplusValue text)) := by
  by_cases hended : s.optionsEnded = true
  · obtain ⟨text, htext⟩ := exists_surplus_of_optionsEnded hended "--" a
    exact ⟨text, scan_append_of_error htext [b]⟩
  · have hopen : s.optionsEnded = false := Bool.not_eq_true _ ▸ hended
    have hend : s.step "--" = .ok { s with optionsEnded := true } :=
      (step_eq_ok_iff hopen).mpr (.inl ⟨rfl, rfl⟩)
    have hcons : s.scan ["--", a, b] = (s.step "--").bind fun t => t.scan [a, b] := rfl
    rw [hcons, hend]
    exact exists_surplus_of_optionsEnded (s := { s with optionsEnded := true }) rfl a b

end Scan

/-! ### The problem as the report tells it -/

/-- The letter that a message begins with. -/
def UsageError.initial : UsageError → Char
  | .invalidCount _ => 'i'
  | .repeatedFlag _ => 't'
  | .surplusValue _ | .unknownLetter _ | .unknownName _ _ | .unwantedValue _ _ _ => 'u'

theorem UsageError.initial_eq_iff (e : UsageError) :
    e.initial = 'i' ↔ ∃ cause, e = .invalidCount cause := by
  cases e <;> simp [initial]

theorem head?_unexpectedArgument (arg : String) :
    (unexpectedArgument arg).toList.head? = some 'u' := by
  have hlead : "unexpected argument '".toList.head? = some 'u' := by decide
  unfold unexpectedArgument
  exact head?_toList_append (head?_toList_append hlead _) _

theorem UsageError.head?_message (e : UsageError) : e.message.toList.head? = some e.initial := by
  cases e with
  | invalidCount cause =>
    have hlead : "invalid value '".toList.head? = some 'i' := by decide
    unfold message
    exact head?_toList_append (head?_toList_append (head?_toList_append hlead _) _) _
  | surplusValue text => exact head?_unexpectedArgument _
  | unknownLetter letter => exact head?_unexpectedArgument _
  | unknownName name met => exact head?_unexpectedArgument _
  | repeatedFlag f =>
    have hlead : "the argument '".toList.head? = some 't' := by decide
    unfold message
    exact head?_toList_append (head?_toList_append hlead _) _
  | unwantedValue f text met =>
    have hlead : "unexpected value '".toList.head? = some 'u' := by decide
    unfold message
    exact head?_toList_append
      (head?_toList_append (head?_toList_append (head?_toList_append hlead _) _) _) _

/-- No report of another error looks like the refusal of a count. -/
theorem UsageError.eq_invalidCount_of_report {e : UsageError} {shown : String} {c : InvalidCount}
    (h : e.report = (refusalOf shown c).stderr) : ∃ cause, e = .invalidCount cause := by
  obtain ⟨rest, hreport⟩ : ∃ rest, e.report = "error: " ++ (e.message ++ rest) := by
    refine ⟨"\n\n" ++ (paragraph "  tip: " e.tip? ++ (paragraph "" e.usage? ++ pointer)), ?_⟩
    simp only [report, paragraph, String.append_assoc]
  obtain ⟨rest', hrefusal⟩ :
      ∃ rest', (refusalOf shown c).stderr = "error: " ++ ("invalid value '" ++ rest') := by
    refine ⟨shown ++ ("' for '[COUNT]': " ++ (c.message
      ++ "\n\nFor more information, try '--help'.\n")), ?_⟩
    simp only [refusalOf, ← String.append_assoc, String.reduceAppend]
  rw [hreport, hrefusal, String.append_right_inj] at h
  have hinitial : e.initial = 'i' := by
    have hlead : "invalid value '".toList.head? = some 'i' := by decide
    have hmessage := head?_toList_append e.head?_message rest
    rw [h, head?_toList_append hlead rest'] at hmessage
    exact (Option.some.inj hmessage).symm
  exact e.initial_eq_iff.mp hinitial

namespace Transcript

theorem code_eq_two_iff {args : List String} :
    (ofArgs args).code = 2 ↔ ∃ e, Request.ofArgs args = .error (.misuse e) := by
  constructor
  · intro h
    rcases hargs : Request.ofArgs args with (_ | e) | r
    · rw [ofArgs_of_help hargs] at h
      exact absurd h (by decide)
    · exact ⟨e, rfl⟩
    · rw [ofArgs_of_request hargs] at h
      have hzero : (0 : UInt32) = 2 := h
      exact absurd hzero (by decide)
  · rintro ⟨e, hargs⟩
    rw [ofArgs_of_misuse hargs]

/-- A run that refuses a count. -/
def RefusesCount (t : Transcript) : Prop := ∃ shown e, t = refusalOf shown e

theorem refusesCount_ofArgs_iff {args : List String} :
    (ofArgs args).RefusesCount ↔ ∃ e, Request.ofArgs args = .error (.misuse (.invalidCount e)) := by
  constructor
  · rintro ⟨shown, c, h⟩
    have hcode : (ofArgs args).code = 2 := by
      rw [h]
      rfl
    obtain ⟨e, hargs⟩ := code_eq_two_iff.mp hcode
    rw [ofArgs_of_misuse hargs] at h
    obtain ⟨cause, rfl⟩ := UsageError.eq_invalidCount_of_report (congrArg stderr h)
    exact ⟨cause, hargs⟩
  · rintro ⟨e, hargs⟩
    refine ⟨Text.visible e.input, e, ?_⟩
    rw [ofArgs_of_misuse hargs, report_eq_refusalOf]
    rfl

/-- Only a run that asks for help prints it: a list of primes begins with a bracket, and a report
leaves the standard output empty. -/
theorem stdout_eq_helpText_iff {args : List String} :
    (ofArgs args).stdout = helpText ↔ Request.ofArgs args = .error .help := by
  constructor
  · intro h
    rcases hargs : Request.ofArgs args with (_ | e) | r
    · rfl
    · rw [ofArgs_of_misuse hargs] at h
      have hhead := head?_helpText
      rw [← h] at hhead
      cases hhead
    · rw [ofArgs_of_request hargs] at h
      exact absurd h.symm (helpText_ne_listText _)
  · intro h
    rw [ofArgs_of_help h]

end Transcript

/-! ### Lines that are final -/

/-- Whatever is added behind a line, the same is put out. -/
def IsFinal (args : List String) : Prop :=
  ∀ more, Transcript.ofArgs (args ++ more) = Transcript.ofArgs args

theorem isFinal_of_scan {args : List String} {stop : Stop}
    (h : ({} : Scan).scan args = .error stop) : IsFinal args := by
  have hargs : ∀ more, Request.ofArgs (args ++ more) = .error stop := by
    intro more
    rw [Request.ofArgs, Scan.scan_append_of_error h]
    rfl
  intro more
  have hself := hargs []
  rw [List.append_nil] at hself
  rw [Transcript.ofArgs, Transcript.ofArgs, hargs more, hself]

/-- A line is final exactly if its scan ends on the way.  Otherwise it comes to a list, or to a
count that is refused, and more values behind it come to another report. -/
theorem isFinal_iff {args : List String} :
    IsFinal args ↔ ∃ stop, ({} : Scan).scan args = .error stop := by
  constructor
  · intro hfinal
    rcases hscan : ({} : Scan).scan args with stop | s
    · exact ⟨stop, rfl⟩
    · obtain ⟨text, hsurplus⟩ := s.exists_surplus "" ""
      have hmore : Request.ofArgs (args ++ ["--", "", ""])
          = .error (.misuse (.surplusValue text)) := by
        rw [Request.ofArgs_append hscan, hsurplus]
        rfl
      have hcode := Transcript.code_eq_two_iff.mpr ⟨_, hmore⟩
      have hother : ¬ (Transcript.ofArgs (args ++ ["--", "", ""])).RefusesCount := by
        rw [Transcript.refusesCount_ofArgs_iff, hmore]
        rintro ⟨e, he⟩
        cases he
      rw [hfinal] at hcode hother
      obtain ⟨e, he⟩ := Transcript.code_eq_two_iff.mp hcode
      have hend : s.finish = .error (.misuse e) := by
        rw [← he, Request.ofArgs, hscan]
        rfl
      obtain ⟨cause, hcause⟩ := Scan.finish_eq_error hend
      rw [hcause] at he
      exact absurd (Transcript.refusesCount_ofArgs_iff.mpr ⟨cause, he⟩) hother
  · rintro ⟨stop, hstop⟩
    exact isFinal_of_scan hstop

/-- A run that refuses a count is not final if the count was read at the end of the line only, as
here: with a second value it is the value that is refused. -/
example : ¬ IsFinal ["x"] := by
  rw [isFinal_iff]
  rintro ⟨stop, hstop⟩
  cases hstop

/-- The first problem on a line is final: behind a line that prints the help, or that fails without
refusing a count, any further arguments leave the exit code and both outputs as they are. -/
theorem first_problem_is_final {args : List String}
    (h : (Transcript.ofArgs args).stdout = helpText ∨
      (Transcript.ofArgs args).code = 2 ∧ ¬ (Transcript.ofArgs args).RefusesCount)
    (more : List String) : Transcript.ofArgs (args ++ more) = Transcript.ofArgs args := by
  have hscan : ∃ stop, ({} : Scan).scan args = .error stop := by
    rcases h with hhelp | ⟨hcode, hother⟩
    · have hargs := Transcript.stdout_eq_helpText_iff.mp hhelp
      exact ⟨.help, Scan.scan_eq_error_of_ofArgs hargs nofun⟩
    · obtain ⟨e, hargs⟩ := Transcript.code_eq_two_iff.mp hcode
      refine ⟨.misuse e, Scan.scan_eq_error_of_ofArgs hargs ?_⟩
      rintro cause heq
      rw [heq] at hargs
      exact hother (Transcript.refusesCount_ofArgs_iff.mpr ⟨cause, hargs⟩)
  exact isFinal_iff.mpr hscan more

/-- Help that is asked for in the middle of a cluster, and a second value ahead of which the first
one was never read. -/
theorem first_problem_is_final_ahead_of_more :
    ((Transcript.ofArgs ["5", "-dh"]).stdout = helpText ∧
        Transcript.ofArgs ["5", "-dh", "-1"] = Transcript.ofArgs ["5", "-dh"]) ∧
      ((Transcript.ofArgs ["x", "6"]).code = 2 ∧ ¬ (Transcript.ofArgs ["x", "6"]).RefusesCount ∧
        Transcript.ofArgs ["x", "6", "--help"] = Transcript.ofArgs ["x", "6"]) := by
  have hhelp : (Transcript.ofArgs ["5", "-dh"]).stdout = helpText :=
    Transcript.stdout_eq_helpText_iff.mpr (by decide)
  have hsurplus : Request.ofArgs ["x", "6"] = .error (.misuse (.surplusValue "6")) := by decide
  have hcode := Transcript.code_eq_two_iff.mpr ⟨_, hsurplus⟩
  have hother : ¬ (Transcript.ofArgs ["x", "6"]).RefusesCount := by
    rw [Transcript.refusesCount_ofArgs_iff, hsurplus]
    rintro ⟨e, he⟩
    cases he
  exact ⟨⟨hhelp, first_problem_is_final (.inl hhelp) ["-1"]⟩, hcode, hother,
    first_problem_is_final (.inr ⟨hcode, hother⟩) ["--help"]⟩

end PrimeListing.Command
