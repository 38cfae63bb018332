/-
The report of a count that is refused.

A text that is no count brings the same report wherever it may stand as the
count of a line: behind the end of the options, or ahead of it if it does not
begin with a hyphen, with the debug flag or without.  The report shows the text
twice, first what is visible of it and then, inside the message of the error,
its quoted form.  Nothing else is put out, and no line that gives a count in
one of these ways is refused.

* `ofArgs_of_mem_linesOf` — all these lines ask for what is read from the text.
* `refused_count_reported` — the report, what its first copy of the text may
  lack, and the lists of a text that is a count.
* `raw_copy_is_visible_part` — the first copy may lack some of the text.
-/
import PrimeListing.Proofs.Arguments

namespace PrimeListing.Command

/-- The lines that give a text as the count, and beside it the debug flag at most. -/
def linesOf (text : String) : List (List String) :=
  [["--", text], ["-d", "--", text]] ++
    -- among the options a hyphen would make it one of them
    if text.toList.head? = some '-' then [] else [[text], ["-d", text], [text, "-d"]]

/-- How a line ends whose count is refused: what the report shows first, then the message of the
error. -/
def refusalOf (shown : String) (e : InvalidCount) : Transcript :=
  { code := 2
    stdout := ""
    stderr := "error: invalid value '" ++ shown ++ "' for '[COUNT]': " ++ e.message
      ++ "\n\nFor more information, try '--help'.\n" }

/-- A count ahead of the debug flag is read at the flag, and with the same result. -/
theorem Request.ofArgs_value_debug {text : String} (h : Argument.read true text = .value text) :
    ofArgs [text, "-d"] = ofValue true text := by
  have hlead : ({} : Scan).scan [text] = .ok { slot := .pending text } := by
    have hplace : ({} : Scan).step text = .ok { slot := .pending text } :=
      Scan.step_of_value rfl h
    rw [Scan.scan, List.foldlM_cons, hplace]
    rfl
  have hflag : ({ slot := .pending text } : Scan).step "-d"
      = ({ slot := .pending text } : Scan).takeDebug :=
    Scan.step_of_isDebugFlag rfl rfl
  have hargs : ofArgs [text, "-d"]
      = ({ slot := .pending text } : Scan).takeDebug.bind Scan.finish := by
    rw [← hflag]
    exact (ofArgs_append hlead).trans (Scan.bind_finish_cons _ _ _)
  rw [hargs]
  cases hread : Count.read text with
  | ok n =>
    simp only [Scan.takeDebug, Scan.settle, ofValue, hread]
    rfl
  | error e =>
    simp only [Scan.takeDebug, Scan.settle, ofValue, hread]
    rfl

theorem Request.ofArgs_of_mem_linesOf {text : String} {args : List String}
    (h : args ∈ linesOf text) : ∃ debug, ofArgs args = ofValue debug text := by
  rw [linesOf, List.mem_append] at h
  rcases h with h | h
  · rcases List.mem_pair.mp h with rfl | rfl
    · exact ⟨false, ofArgs_ended_value text⟩
    · exact ⟨true, ofArgs_debug_ended_value text⟩
  · split at h
    · cases h
    · next hhead =>
      have hread : Argument.read true text = .value text := Argument.read_eq_value_of_head hhead
      simp only [List.mem_cons, List.not_mem_nil, or_false] at h
      rcases h with rfl | rfl | rfl
      · exact ⟨false, ofArgs_value hread⟩
      · exact ⟨true, ofArgs_debug_value hread⟩
      · exact ⟨true, ofArgs_value_debug hread⟩

theorem linesOf_of_read {text : String} {n : Count} (h : Count.read text = .ok n) :
    linesOf text = [["--", text], ["-d", "--", text], [text], ["-d", text], [text, "-d"]] := by
  have hhead : text.toList.head? ≠ some '-' := by
    intro hhyphen
    rw [Count.read_of_hyphen hhyphen] at h
    cases h
  rw [linesOf, if_neg hhead]
  rfl

theorem report_eq_refusalOf (e : InvalidCount) :
    UsageError.report (.invalidCount e) = (refusalOf (Text.visible e.input) e).stderr := by
  have htail : "\n\nFor more information, try '--help'.\n" = "\n\n" ++ UsageError.pointer := by
    rw [UsageError.pointer]
    rfl
  rw [UsageError.report_invalidCount, UsageError.message_invalidCount, refusalOf, htail]
  simp only [← String.append_assoc, String.reduceAppend]

theorem Transcript.ofArgs_of_refused {text : String} {e : InvalidCount}
    (hread : Count.read text = .error e) {args : List String} (h : args ∈ linesOf text) :
    ofArgs args = refusalOf (Text.visible text) e := by
  obtain ⟨debug, hargs⟩ := Request.ofArgs_of_mem_linesOf h
  rw [Request.ofValue, hread] at hargs
  obtain ⟨-, rfl⟩ := Count.read_eq_error_iff.mp hread
  rw [ofArgs_of_misuse hargs, report_eq_refusalOf]
  rfl

/-- A text that is refused as a count is reported in the same way on every line that gives it.  The
first copy of the text in the report lacks at most some of its characters; it holds no control
character of ASCII but tabs, line feeds, form feeds and carriage returns, and it lacks nothing
exactly if the text itself holds no others.  No line that gives the text of a count is refused: each
prints the list for the count. -/
theorem refused_count_reported (text : String) :
    (∀ e, Count.read text = .error e →
      e = ⟨text⟩ ∧
        ∀ args ∈ linesOf text, Transcript.ofArgs args = refusalOf (Text.visible text) e) ∧
    List.Sublist (Text.visible text).toList text.toList ∧
    (∀ c ∈ (Text.visible text).toList,
      c.toNat < 0x20 ∨ c.toNat = 0x7f → c = '\t' ∨ c = '\n' ∨ c = '\x0c' ∨ c = '\r') ∧
    (Text.visible text = text ↔ ∀ c ∈ text.toList, Text.isShown c = true) ∧
    (∀ n, Count.read text = .ok n →
      ∀ args ∈ [["--", text], ["-d", "--", text], [text], ["-d", text], [text, "-d"]],
        (Transcript.ofArgs args).code = 0 ∧
          (Transcript.ofArgs args).stdout =
            "[" ++ ", ".intercalate (n.primes.map fun p => decimal p.toNat) ++ "]\n") := by
  refine ⟨fun e hread => ⟨?_, fun args h => ?_⟩, Text.visible_sublist text, fun c hc => ?_,
    Text.visible_eq_self_iff, fun n hread args h => ?_⟩
  · exact (Count.read_eq_error_iff.mp hread).2
  · exact Transcript.ofArgs_of_refused hread h
  · exact Text.isShown_iff.mp (Text.isShown_of_mem_visible hc)
  · rw [← linesOf_of_read hread] at h
    obtain ⟨debug, hargs⟩ := Request.ofArgs_of_mem_linesOf h
    rw [Request.ofValue, hread] at hargs
    rw [Transcript.ofArgs_of_request hargs, ← listText_newline]
    exact ⟨rfl, rfl⟩

/-- A sequence that colours the text is in the message but not in the first copy. -/
theorem raw_copy_is_visible_part :
    Count.read "\x1b[31m5" = .error ⟨"\x1b[31m5"⟩ ∧
      Transcript.ofArgs ["\x1b[31m5"] = refusalOf "5" ⟨"\x1b[31m5"⟩ ∧
      Transcript.ofArgs ["\x1b[31m5"] ≠ refusalOf "\x1b[31m5" ⟨"\x1b[31m5"⟩ := by
  have hread : Count.read "\x1b[31m5" = .error ⟨"\x1b[31m5"⟩ := by decide
  have hline : ["\x1b[31m5"] ∈ linesOf "\x1b[31m5" := by decide
  have hvisible : Text.visible "\x1b[31m5" = "5" := by decide
  have hrefusal := Transcript.ofArgs_of_refused hread hline
  rw [hvisible] at hrefusal
  refine ⟨hread, hrefusal, ?_⟩
  rw [hrefusal]
  intro h
  have hstderr := congrArg Transcript.stderr h
  simp only [refusalOf, String.append_left_inj, String.append_right_inj] at hstderr
  exact absurd hstderr (by decide)

end PrimeListing.Command
