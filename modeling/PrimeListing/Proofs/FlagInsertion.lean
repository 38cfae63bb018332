/-
The debug flag is seen on the error output only.

Whatever stands on a line that does not hold the debug flag, to put the flag
anywhere ahead of the end of the options changes neither the exit code nor the
standard output.  It may change which error is reported: at the flag a count
that was put aside is read, and a problem behind the flag is then not met.

The proof compares a scan with a plain one, which knows no debug flag and reads
a count at once.  Two scans that look alike to the plain one come to the same
outcome, and a scan looks the same before and behind the flag, unless the flag
ends it.

* `PlainScan` — the plain scan.
* `Scan.plain_step` — one step of a scan, as the plain scan takes it.
* `Scan.outcome_eq_plain_outcome` — a whole line, by induction from the step.
* `PlainScan.outcome_of_unreadable` — behind a count that cannot be read no line
  ends well.
* `stdout_insert_debugFlag` — the two runs.
-/
import PrimeListing.Proofs.Arguments

namespace PrimeListing.Command

/-- Whether an argument holds the debug flag: by its name, or by its letter behind a single
hyphen. -/
def holdsDebug (arg : String) : Bool :=
  arg = "--debug" ||
    (arg.toList[0]? = some '-' && arg.toList[1]? ≠ some '-' && arg.toList.contains 'd')

theorem holdsDebug_of_isDebugFlag {arg : String} (h : isDebugFlag arg = true) :
    holdsDebug arg = true := by
  rw [isDebugFlag, Bool.or_eq_true, decide_eq_true_eq, decide_eq_true_eq] at h
  rcases h with rfl | rfl <;> rfl

/-! ### Outcomes -/

/-- What the exit code and the standard output show of a line. -/
inductive Outcome
  | listing (n : Count)
  | help
  | refusal
  deriving DecidableEq

namespace Outcome

def ofStop : Stop → Outcome
  | .help => .help
  | .misuse _ => .refusal

def ofResult : Except Stop Request → Outcome
  | .ok r => .listing r.count
  | .error stop => ofStop stop

def code : Outcome → UInt32
  | .listing _ | .help => 0
  | .refusal => 2

def stdout : Outcome → String
  | .listing n => listText n.primes ++ "\n"
  | .help => helpText
  | .refusal => ""

end Outcome

theorem Transcript.code_ofArgs (args : List String) :
    (Transcript.ofArgs args).code = (Outcome.ofResult (Request.ofArgs args)).code := by
  rw [Transcript.ofArgs]
  cases Request.ofArgs args with
  | ok r => rfl
  | error stop => cases stop <;> rfl

theorem Transcript.stdout_ofArgs (args : List String) :
    (Transcript.ofArgs args).stdout = (Outcome.ofResult (Request.ofArgs args)).stdout := by
  rw [Transcript.ofArgs]
  cases Request.ofArgs args with
  | ok r => rfl
  | error stop => cases stop <;> rfl

/-! ### The plain scan -/

/-- What stands in the place for the count, once it has been looked at. -/
inductive Content
  | nothing
  | count (n : Count)
  | unreadable
  deriving DecidableEq

namespace Content

def ofText (text : String) : Content :=
  match Count.read text with
  | .ok n => .count n
  | .error _ => .unreadable

/-- What a line comes to that ends here. -/
def atEnd : Content → Outcome
  | .nothing => .listing Count.standard
  | .count n => .listing n
  | .unreadable => .refusal

/-- What a line comes to that asks for help here. -/
def atHelp : Content → Outcome
  | .nothing | .count _ => .help
  | .unreadable => .refusal

end Content

def Slot.content : Slot → Content
  | .free => .nothing
  | .pending text => .ofText text
  | .filled n => .count n

/-- A scan that knows no debug flag and looks at a count as soon as it is met. -/
structure PlainScan where
  content : Content
  optionsEnded : Bool
  deriving DecidableEq

namespace PlainScan

def place (s : PlainScan) (text : String) : Except Outcome PlainScan :=
  if s.content = .nothing then .ok { s with content := .ofText text } else .error .refusal

def step (s : PlainScan) (arg : String) : Except Outcome PlainScan :=
  if s.optionsEnded then s.place arg
  else
    match Argument.read (s.content = .nothing) arg with
    | .endOfOptions => .ok { s with optionsEnded := true }
    | .long name none => .error (if name = Flag.help.name then s.content.atHelp else .refusal)
    | .long _ (some _) => .error .refusal
    | .cluster letters =>
      .error (if letters.head? = some Flag.help.letter then s.content.atHelp else .refusal)
    | .value text => s.place text

def outcome (s : PlainScan) : List String → Outcome
  | [] => s.content.atEnd
  | arg :: args =>
    match s.step arg with
    | .ok t => t.outcome args
    | .error o => o

theorem place_of_unreadable {s : PlainScan} (h : s.content = .unreadable) (text : String) :
    s.place text = .error .refusal := by
  rw [place, h]
  rfl

theorem step_of_unreadable {s : PlainScan} (h : s.content = .unreadable) (arg : String) :
    s.step arg = .ok { s with optionsEnded := true } ∨ s.step arg = .error .refusal := by
  have hhelp : s.content.atHelp = .refusal := by rw [h]; rfl
  unfold step
  split
  · exact .inr (place_of_unreadable h arg)
  · cases Argument.read (s.content = .nothing) arg with
    | endOfOptions => exact .inl rfl
    | long name value =>
      cases value with
      | none => simp only [hhelp, ite_self, or_true]
      | some text => exact .inr rfl
    | cluster letters => simp only [hhelp, ite_self, or_true]
    | value text => exact .inr (place_of_unreadable h text)

/-- Behind a count that cannot be read no line ends well. -/
theorem outcome_of_unreadable {s : PlainScan} (h : s.content = .unreadable) (args : List String) :
    s.outcome args = .refusal := by
  induction args generalizing s with
  | nil => rw [outcome, h]; rfl
  | cons arg args ih =>
    rw [outcome]
    rcases step_of_unreadable h arg with hstep | hstep
    · rw [hstep]
      exact ih h
    · rw [hstep]

end PlainScan

/-! ### A scan as the plain one sees it -/

namespace Scan

/-- What is left of a scan without its debug flag. -/
def plain (s : Scan) : PlainScan := { content := s.slot.content, optionsEnded := s.optionsEnded }

/-- What the plain scan sees of a step. -/
def plainResult : Except Stop Scan → Except Outcome PlainScan
  | .ok t => .ok t.plain
  | .error stop => .error (.ofStop stop)

/-- What a line comes to behind the arguments that were scanned. -/
def outcome (s : Scan) (args : List String) : Outcome :=
  .ofResult ((s.scan args).bind finish)

theorem outcome_cons (s : Scan) (arg : String) (args : List String) :
    s.outcome (arg :: args) =
      match s.step arg with
      | .ok t => t.outcome args
      | .error stop => .ofStop stop := by
  rw [outcome, bind_finish_cons]
  cases s.step arg with
  | ok t => rfl
  | error stop => rfl

/-- To read the count that was put aside shows the plain scan nothing new, and it fails where the
plain scan has found the count unreadable. -/
theorem settle_of_plain (s : Scan) :
    (s.plain.content = .unreadable ∧ ∃ e, s.settle = .error (.misuse e)) ∨
      (s.plain.content ≠ .unreadable ∧ ∃ t, s.settle = .ok t ∧ t.plain = s.plain) := by
  rcases s with ⟨debug, slot, optionsEnded⟩
  cases slot with
  | free => exact .inr ⟨nofun, _, rfl, rfl⟩
  | filled n => exact .inr ⟨nofun, _, rfl, rfl⟩
  | pending text =>
    cases hread : Count.read text with
    | ok n => simp [settle, plain, Slot.content, Content.ofText, hread]
    | error e => simp [settle, plain, Slot.content, Content.ofText, hread]

theorem ofResult_finish (s : Scan) : Outcome.ofResult s.finish = s.plain.content.atEnd := by
  rcases s with ⟨debug, slot, optionsEnded⟩
  cases slot with
  | free => rfl
  | filled n => rfl
  | pending text =>
    cases hread : Count.read text with
    | ok n =>
      simp [finish, settle, plain, Slot.content, Content.ofText, Content.atEnd, hread, Except.bind,
        Outcome.ofResult]
    | error e =>
      simp [finish, settle, plain, Slot.content, Content.ofText, Content.atEnd, hread, Except.bind,
        Outcome.ofResult, Outcome.ofStop]

theorem isFree_eq_plain (s : Scan) : s.slot.isFree = decide (s.plain.content = .nothing) := by
  rcases s with ⟨debug, slot, optionsEnded⟩
  cases slot with
  | free => rfl
  | filled n => rfl
  | pending text =>
    cases hread : Count.read text <;>
      simp [Slot.isFree, plain, Slot.content, Content.ofText, hread]

theorem plainResult_place (s : Scan) (text : String) :
    plainResult (s.place text) = s.plain.place text := by
  rw [place, PlainScan.place, isFree_eq_plain]
  by_cases hfree : s.plain.content = .nothing
  · simp only [hfree, decide_true, if_true]
    rfl
  · simp only [hfree, decide_false, Bool.false_eq_true, if_false]
    rfl

/-- Help is printed unless the count met before it cannot be read. -/
theorem plainResult_help (s : Scan) :
    plainResult (s.settle.bind fun t => t.takeFlag .help) = .error s.plain.content.atHelp := by
  rcases settle_of_plain s with ⟨hcontent, e, hsettle⟩ | ⟨hcontent, t, hsettle, -⟩
  · rw [hsettle, hcontent]
    rfl
  · rw [hsettle]
    cases h : s.plain.content with
    | unreadable => exact absurd h hcontent
    | nothing => rfl
    | count n => rfl

theorem plainResult_takeLong (s : Scan) {name : String} (hname : name ≠ "debug") :
    plainResult (s.takeLong name none) =
      .error (if name = Flag.help.name then s.plain.content.atHelp else .refusal) := by
  cases hflag : Flag.ofName? name with
  | none =>
    have hhelp : name ≠ Flag.help.name := by
      rintro rfl
      cases hflag
    simp only [takeLong, hflag, if_neg hhelp]
    rfl
  | some f =>
    have hfound := Flag.name_of_ofName? hflag
    cases f with
    | debug => exact absurd hfound.symm hname
    | help =>
      simp only [takeLong, hflag, if_pos hfound.symm]
      exact plainResult_help s

theorem plainResult_takeLong_value (s : Scan) (name text : String) :
    plainResult (s.takeLong name (some text)) = .error .refusal := by
  cases hflag : Flag.ofName? name <;> simp only [takeLong, hflag] <;> rfl

theorem plainResult_takeLetter (s : Scan) {c : Char} (hc : c ≠ 'd') :
    plainResult (s.takeLetter c) =
      .error (if c = Flag.help.letter then s.plain.content.atHelp else .refusal) := by
  rw [takeLetter]
  cases hflag : Flag.ofLetter? c with
  | none =>
    have hhelp : c ≠ Flag.help.letter := by
      rintro rfl
      cases hflag
    rw [if_neg hhelp]
    rfl
  | some f =>
    have hfound := Flag.letter_of_ofLetter? hflag
    cases f with
    | debug => exact absurd hfound.symm hc
    | help => rw [if_pos hfound.symm]; exact plainResult_help s

/-- A cluster without the letter of the debug flag ends a scan at its first letter. -/
theorem plainResult_cluster (s : Scan) {c : Char} (hc : c ≠ 'd') (more : List Char) :
    plainResult ((c :: more).foldlM takeLetter s) =
      .error (if (c :: more).head? = some Flag.help.letter then s.plain.content.atHelp
        else .refusal) := by
  have hletter := plainResult_takeLetter s hc
  simp only [List.foldlM_cons, List.head?_cons, Option.some.injEq]
  cases htake : s.takeLetter c with
  | ok t => rw [htake] at hletter; cases hletter
  | error stop => rw [htake] at hletter; exact hletter

/-! ### Lines without the debug flag -/

/-- No debug flag is to come: all that follows are values, or no option among them holds it. -/
def Quiet (s : Scan) (args : List String) : Prop :=
  s.optionsEnded = true ∨ ∀ arg ∈ optionPart args, holdsDebug arg = false

theorem Quiet.head {s : Scan} {arg : String} {args : List String} (h : s.Quiet (arg :: args)) :
    s.optionsEnded = true ∨ holdsDebug arg = false := by
  rcases h with hended | hargs
  · exact .inl hended
  by_cases hend : arg = "--"
  · subst hend
    exact .inr rfl
  · refine .inr (hargs arg ?_)
    rw [optionPart_cons hend]
    exact List.mem_cons_self

theorem Quiet.step {s t : Scan} {arg : String} {args : List String} (h : s.Quiet (arg :: args))
    (hstep : s.step arg = .ok t) : t.Quiet args := by
  cases hended : s.optionsEnded with
  | true =>
    rw [step_of_optionsEnded hended] at hstep
    obtain ⟨-, rfl⟩ := place_eq_ok_iff.mp hstep
    exact .inl hended
  | false =>
    by_cases hend : arg = "--"
    · subst hend
      have hnext := (step_eq_ok_iff hended).mpr (.inl ⟨rfl, rfl⟩)
      rw [hnext] at hstep
      cases hstep
      exact .inl rfl
    · rcases h with h | hargs
      · rw [hended] at h
        cases h
      · rw [optionPart_cons hend] at hargs
        exact .inr fun a ha => hargs a (List.mem_cons_of_mem arg ha)

/-- One step of a scan, as the plain scan takes it. -/
theorem plain_step {s : Scan} {arg : String}
    (h : s.optionsEnded = true ∨ holdsDebug arg = false) :
    plainResult (s.step arg) = s.plain.step arg := by
  cases hended : s.optionsEnded with
  | true =>
    have hplain : s.plain.optionsEnded = true := hended
    rw [step_of_optionsEnded hended, plainResult_place, PlainScan.step, if_pos hplain]
  | false =>
    have hplain : s.plain.optionsEnded ≠ true := by
      rw [plain, hended]
      exact Bool.false_ne_true
    have hdebug : holdsDebug arg = false := by
      rcases h with h | h
      · rw [hended] at h
        cases h
      · exact h
    have hwritten := Argument.written_read s.slot.isFree arg
    rw [step, hended, if_neg Bool.false_ne_true, PlainScan.step, if_neg hplain,
      ← isFree_eq_plain]
    cases hread : Argument.read s.slot.isFree arg with
    | endOfOptions => rfl
    | long name value =>
      cases value with
      | none =>
        have hname : name ≠ "debug" := by
          rintro rfl
          rw [hread] at hwritten
          subst hwritten
          cases hdebug
        exact plainResult_takeLong s hname
      | some text => exact plainResult_takeLong_value s name text
    | cluster letters =>
      obtain ⟨c, more, rfl, hhyphen⟩ := Argument.exists_of_read_cluster hread
      have hc : c ≠ 'd' := by
        rintro rfl
        rw [hread] at hwritten
        subst hwritten
        simp [holdsDebug, Argument.written] at hdebug
      exact plainResult_cluster s hc more
    | value text => exact plainResult_place s text

/-- The rest of a line comes to what the plain scan makes of it. -/
theorem outcome_eq_plain_outcome {s : Scan} {args : List String} (h : s.Quiet args) :
    s.outcome args = s.plain.outcome args := by
  induction args generalizing s with
  | nil => exact ofResult_finish s
  | cons arg args ih =>
    rw [outcome_cons, PlainScan.outcome, ← plain_step h.head]
    cases hstep : s.step arg with
    | ok t => exact ih (h.step hstep)
    | error stop => rfl

/-! ### The flag in its place -/

/-- Ahead of the flag the options have not ended, and the flag has not been met. -/
theorem open_of_scan {s t : Scan} (hopen : s.optionsEnded = false) (hoff : s.debug = false)
    {args : List String} (hend : "--" ∉ args) (hargs : ∀ arg ∈ args, holdsDebug arg = false)
    (hscan : s.scan args = .ok t) : t.optionsEnded = false ∧ t.debug = false := by
  induction args generalizing s with
  | nil =>
    cases hscan
    exact ⟨hopen, hoff⟩
  | cons arg args ih =>
    rw [List.mem_cons, not_or] at hend
    rw [List.forall_mem_cons] at hargs
    rw [scan, List.foldlM_cons] at hscan
    cases hstep : s.step arg with
    | error stop => rw [hstep] at hscan; cases hscan
    | ok u =>
      rw [hstep] at hscan
      have hrest : u.scan args = .ok t := hscan
      rcases (step_eq_ok_iff hopen).mp hstep with ⟨h, -⟩ | ⟨h, -⟩ | ⟨-, -, rfl⟩
      · exact absurd h.symm hend.1
      · rw [holdsDebug_of_isDebugFlag h] at hargs
        cases hargs.1
      · exact ih (s := { s with slot := .pending arg }) hopen hoff hend.2 hargs.2 hrest

theorem outcome_append (s : Scan) (args more : List String) :
    s.outcome (args ++ more) =
      match s.scan args with
      | .ok t => t.outcome more
      | .error stop => .ofStop stop := by
  rw [outcome, scan_append]
  cases s.scan args with
  | ok t => rfl
  | error stop => rfl

/-- At its place the flag changes nothing about the outcome: a count put aside is read there, and
if that fails the line would not have ended well anyhow. -/
theorem outcome_cons_debugFlag {s : Scan} (hopen : s.optionsEnded = false) (hoff : s.debug = false)
    {flag : String} (hflag : isDebugFlag flag = true) {args : List String} (h : s.Quiet args) :
    s.outcome (flag :: args) = s.outcome args := by
  rw [outcome_cons, step_of_isDebugFlag hopen hflag, outcome_eq_plain_outcome h]
  rcases settle_of_plain s with ⟨hcontent, e, hsettle⟩ | ⟨-, t, hsettle, hplain⟩
  · rw [PlainScan.outcome_of_unreadable hcontent, takeDebug, hsettle]
    rfl
  · have hended : t.optionsEnded = s.optionsEnded := congrArg PlainScan.optionsEnded hplain
    have hnext : ({ t with debug := true } : Scan).Quiet args := by
      rw [Quiet, hended]
      exact h
    have htake := takeDebug_eq_ok_iff.mpr ⟨hoff, t, hsettle, rfl⟩
    rw [htake, ← hplain]
    exact outcome_eq_plain_outcome hnext

end Scan

/-- To insert the debug flag among the options of a line that does not hold it leaves the exit code
and the standard output as they are. -/
theorem stdout_insert_debugFlag {before after : List String} {flag : String}
    (hflag : isDebugFlag flag = true) (hend : "--" ∉ before)
    (hargs : ∀ arg ∈ optionPart (before ++ after), holdsDebug arg = false) :
    (Transcript.ofArgs (before ++ flag :: after)).code
        = (Transcript.ofArgs (before ++ after)).code ∧
      (Transcript.ofArgs (before ++ flag :: after)).stdout
        = (Transcript.ofArgs (before ++ after)).stdout := by
  rw [optionPart_append hend] at hargs
  have houtcome :
      ({} : Scan).outcome (before ++ flag :: after) = ({} : Scan).outcome (before ++ after) := by
    rw [Scan.outcome_append, Scan.outcome_append]
    cases hscan : ({} : Scan).scan before with
    | error stop => rfl
    | ok t =>
      obtain ⟨hopen, hoff⟩ := Scan.open_of_scan rfl rfl hend
        (fun arg harg => hargs arg (List.mem_append_left _ harg)) hscan
      have hquiet : t.Quiet after :=
        .inr fun arg harg => hargs arg (List.mem_append_right before harg)
      exact Scan.outcome_cons_debugFlag hopen hoff hflag hquiet
  have hresult : ∀ args, Outcome.ofResult (Request.ofArgs args) = ({} : Scan).outcome args :=
    fun args => rfl
  simp only [Transcript.code_ofArgs, Transcript.stdout_ofArgs, hresult, houtcome, and_self]

/-- On a line with two values the flag between them changes which error is reported. -/
theorem stdout_insert_debugFlag_surplus :
    ((Transcript.ofArgs ["x", "-d", "6"]).code = (Transcript.ofArgs ["x", "6"]).code ∧
      (Transcript.ofArgs ["x", "-d", "6"]).stdout = (Transcript.ofArgs ["x", "6"]).stdout) ∧
    Request.ofArgs ["x", "-d", "6"] ≠ Request.ofArgs ["x", "6"] := by
  refine ⟨@stdout_insert_debugFlag ["x"] ["6"] "-d" ?_ ?_ ?_, by decide⟩
  · decide
  · decide
  · decide

end PrimeListing.Command
