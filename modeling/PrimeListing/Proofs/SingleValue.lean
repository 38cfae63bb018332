/-
Command lines with a single value.

A value is put aside as the count and read at the end of the line.  Where it
can be read the line asks for that count, and otherwise the report is that of
the count alone.

* `isNumeric_digits` — digits look like a number, so behind a hyphen they are
  a value and not a cluster of options.
* `finish_pending` — a line that ends with a count put aside asks for what is
  read from it.
* `ofArgs_append` — a line is taken in two parts.
* `ofArgs_value`, `ofArgs_debug_value` — the request of a value alone, and of
  one behind the debug flag.
* `ofArgs_ended_value`, `ofArgs_debug_ended_value` — the same behind the end of
  the options, where the value may be any text.
-/
import Mathlib.Data.List.TakeWhile
import PrimeListing.Command.Transcript
import PrimeListing.Proofs.Numeral

namespace PrimeListing.Command

/-! ### Decimal texts as arguments -/

namespace Argument

theorem isNumeric_digits {cs : List Char} (hne : cs ≠ []) (h : ∀ c ∈ cs, c.isDigit = true) :
    isNumeric cs = true := by
  cases cs with
  | nil => exact absurd rfl hne
  | cons c cs =>
    have hrest : cs.dropWhile Char.isDigit = [] :=
      List.dropWhile_eq_nil_iff.mpr fun d hd => h d (List.mem_cons_of_mem c hd)
    rw [isNumeric, hrest, h c List.mem_cons_self]
    rfl

/-- The text of a number is a value, whether or not one is expected. -/
theorem read_decimal (expectsValue : Bool) (n : Nat) :
    read expectsValue (decimal n) = .value (decimal n) := by
  refine read_eq_value_of_head ?_
  rw [toList_decimal]
  intro hhead
  have hmem : '-' ∈ Base.decimal.digits n := List.mem_of_mem_head? hhead
  exact absurd (Base.isDigit_digits n '-' hmem) (by decide)

theorem read_negative (n : Nat) : read true ("-" ++ decimal n) = .value ("-" ++ decimal n) := by
  have hdigits := Base.isDigit_digits n
  have hnumeric := isNumeric_digits (Base.decimal.digits_ne_nil n) hdigits
  rw [read, toList_hyphen_decimal]
  cases hd : Base.decimal.digits n with
  | nil => exact absurd hd (Base.decimal.digits_ne_nil n)
  | cons d more =>
    have hhyphen : d ≠ '-' := by
      rintro rfl
      exact absurd (hdigits '-' (hd ▸ List.mem_cons_self)) (by decide)
    rw [hd] at hnumeric
    simp only [ne_eq, not_true_eq_false, if_false, if_neg hhyphen, hnumeric, Bool.and_self,
      if_true]

end Argument

/-! ### Lines that end with a value -/

/-- What a line asks for that has come to its end with a text put aside as the count. -/
def Request.ofValue (debug : Bool) (text : String) : Except Stop Request :=
  match Count.read text with
  | .ok n => .ok { count := n, debug := debug }
  | .error e => .error (.misuse (.invalidCount e))

namespace Scan

theorem finish_pending {s : Scan} {text : String} (h : s.slot = .pending text) :
    s.finish = Request.ofValue s.debug text := by
  simp only [finish, settle, h, Request.ofValue]
  cases Count.read text with
  | ok n => rfl
  | error e => rfl

theorem place_of_free {s : Scan} (h : s.slot = .free) (text : String) :
    s.place text = .ok { s with slot := .pending text } := by
  rw [place, h]
  rfl

theorem step_of_value {s : Scan} {arg text : String} (hoptions : s.optionsEnded = false)
    (hread : Argument.read s.slot.isFree arg = .value text) : s.step arg = s.place text := by
  rw [step, hoptions, if_neg Bool.false_ne_true, hread]

/-- Where a value is still expected it is put aside, and read at the end of the line. -/
theorem finish_of_value {s : Scan} (hfree : s.slot = .free) (hoptions : s.optionsEnded = false)
    {text : String} (hread : Argument.read true text = .value text) :
    (s.scan [text]).bind finish = Request.ofValue s.debug text := by
  have hexpected : Argument.read s.slot.isFree text = .value text := by
    rw [hfree]
    exact hread
  have hstep : s.step text = .ok { s with slot := .pending text } := by
    rw [step_of_value hoptions hexpected, place_of_free hfree]
  rw [scan, List.foldlM_cons, hstep]
  exact finish_pending rfl

/-- Behind the end of the options any text is put aside, whatever it begins with. -/
theorem finish_of_ended_value {s : Scan} (hfree : s.slot = .free) (hended : s.optionsEnded = true)
    (text : String) : (s.scan [text]).bind finish = Request.ofValue s.debug text := by
  have hstep : s.step text = .ok { s with slot := .pending text } := by
    rw [step_of_optionsEnded hended, place_of_free hfree]
  rw [scan, List.foldlM_cons, hstep]
  exact finish_pending rfl

end Scan

namespace Request

/-- A line goes on from what was gathered from its first arguments. -/
theorem ofArgs_append {lead args : List String} {s : Scan} (h : ({} : Scan).scan lead = .ok s) :
    ofArgs (lead ++ args) = (s.scan args).bind Scan.finish := by
  rw [ofArgs, Scan.scan_append, h]
  rfl

theorem ofArgs_value {text : String} (h : Argument.read true text = .value text) :
    ofArgs [text] = ofValue false text :=
  Scan.finish_of_value rfl rfl h

theorem ofArgs_debug_value {text : String} (h : Argument.read true text = .value text) :
    ofArgs ["-d", text] = ofValue true text := by
  have hlead : ({} : Scan).scan ["-d"] = .ok { debug := true } := rfl
  exact (ofArgs_append hlead).trans (Scan.finish_of_value rfl rfl h)

theorem ofArgs_ended_value (text : String) : ofArgs ["--", text] = ofValue false text := by
  have hlead : ({} : Scan).scan ["--"] = .ok { optionsEnded := true } := rfl
  exact (ofArgs_append hlead).trans (Scan.finish_of_ended_value rfl rfl text)

theorem ofArgs_debug_ended_value (text : String) :
    ofArgs ["-d", "--", text] = ofValue true text := by
  have hlead : ({} : Scan).scan ["-d", "--"] = .ok { debug := true, optionsEnded := true } := rfl
  exact (ofArgs_append hlead).trans (Scan.finish_of_ended_value rfl rfl text)

end Request

end PrimeListing.Command
