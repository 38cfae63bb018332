/-
A signed number, its decimal text and the command line of that text.

All three make the same count of a number that is not negative, and list the
same primes for it.  A negative number is refused by all three with the same
error; on the command line its text is taken for a count and not for a
cluster of options.

* `read_negative` — the text of a negative number is refused.
* `read_signedDecimal` — a signed number and its text make the same count.
* `report_contains_message` — the report of a refused count holds the message
  of the error.
* `signed_text_agrees` — the three ways in come to the same.
-/
import PrimeListing.Proofs.Listing
import PrimeListing.Proofs.Reading
import PrimeListing.Proofs.SingleValue

namespace PrimeListing

namespace Count

open Text

theorem read_negative (n : Nat) : read ("-" ++ decimal n) = .error ⟨"-" ++ decimal n⟩ := by
  apply read_of_hyphen
  rw [toList_hyphen_decimal]
  rfl

theorem exists_val_eq_toInt {n : Int64} (h : 0 ≤ n) :
    ∃ c : Count, n.toInt = c.val.toNat := by
  refine ⟨⟨n.toUInt64⟩, ?_⟩
  have hnonneg : 0 ≤ n.toInt := Int64.le_iff_toInt_le.mp h
  rw [Int64.toNat_toUInt64_of_le h, ← Int64.toNat_toInt, Int.toNat_of_nonneg hnonneg]

theorem signedDecimal_eq_text {n : Int64} {c : Count} (h : n.toInt = c.val.toNat) :
    signedDecimal n.toInt = c.text := by
  rw [h, signedDecimal, if_neg (Int.not_lt.mpr (Int.natCast_nonneg _)), Int.natAbs_natCast, text]

theorem signedDecimal_of_neg {n : Int64} (h : n < 0) :
    signedDecimal n.toInt = "-" ++ decimal n.toInt.natAbs :=
  if_pos (Int64.lt_iff_toInt_lt.mp h)

theorem read_signedDecimal (n : Int64) : read (signedDecimal n.toInt) = ofInt64 n := by
  by_cases h : n < 0
  · rw [ofInt64, if_pos h, signedDecimal_of_neg h, read_negative]
  · obtain ⟨c, hc⟩ := exists_val_eq_toInt (Int64.not_lt.mp h)
    rw [signedDecimal_eq_text hc, read_text, ofInt64_eq_ok hc]

end Count

namespace Command

theorem Argument.read_signedDecimal (i : Int) :
    Argument.read true (signedDecimal i) = .value (signedDecimal i) := by
  rw [signedDecimal]
  split
  · exact Argument.read_negative _
  · exact Argument.read_decimal true _

theorem report_contains_message (e : InvalidCount) :
    ∃ lead tail, UsageError.report (.invalidCount e) = lead ++ e.message ++ tail := by
  have hregroup : ∀ a b c d f : String, a ++ (b ++ c) ++ d ++ f = a ++ b ++ c ++ (d ++ f) := by
    intro a b c d f
    simp only [String.append_assoc]
  refine ⟨"error: " ++ ("invalid value '" ++ Text.visible e.input ++ "' for '[COUNT]': "),
    "\n\n" ++ UsageError.pointer, ?_⟩
  rw [UsageError.report_invalidCount, UsageError.message_invalidCount]
  exact hregroup _ _ _ _ _

end Command

open Command

/-- On every signed number its text makes the same count, and the command line of that text does
what the list for the number asks for: it prints that list alone, in decimal notation between
square brackets, or it ends with code 2 and reports the very error. -/
theorem signed_text_agrees (n : Int64) :
    Count.read (signedDecimal n.toInt) = Count.ofInt64 n ∧
      (0 ≤ n → ∃ c ps, Count.ofInt64 n = .ok c ∧ n.toInt = c.val.toNat ∧ firstPrimes n = .ok ps ∧
        Transcript.ofArgs [signedDecimal n.toInt] =
          { code := 0
            stdout := "[" ++ ", ".intercalate (ps.map fun p => decimal p.toNat) ++ "]\n"
            stderr := "" }) ∧
      (n < 0 → ∃ e, e.input = signedDecimal n.toInt ∧ Count.ofInt64 n = .error e ∧
        firstPrimes n = .error e ∧
        Request.ofArgs [signedDecimal n.toInt] = .error (.misuse (.invalidCount e)) ∧
        ∃ lead tail, Transcript.ofArgs [signedDecimal n.toInt] =
          { code := 2, stdout := "", stderr := lead ++ e.message ++ tail }) := by
  have hread := Count.read_signedDecimal n
  -- the line is a value alone, so it asks for whatever its text is read as
  have hargs := Request.ofArgs_value (Argument.read_signedDecimal n.toInt)
  rw [Request.ofValue, hread] at hargs
  refine ⟨hread, ?_, ?_⟩
  · intro h
    obtain ⟨c, hc⟩ := Count.exists_val_eq_toInt h
    have hok := Count.ofInt64_eq_ok hc
    rw [hok] at hargs
    refine ⟨c, c.primes, hok, hc, firstPrimes_eq_ok hc, ?_⟩
    rw [Transcript.ofArgs_of_request hargs, ← listText_newline]
    rfl
  · intro h
    have herror : Count.ofInt64 n = .error ⟨signedDecimal n.toInt⟩ :=
      Count.ofInt64_eq_error_iff.mpr ⟨h, rfl⟩
    rw [herror] at hargs
    obtain ⟨lead, tail, hreport⟩ := report_contains_message ⟨signedDecimal n.toInt⟩
    refine ⟨⟨signedDecimal n.toInt⟩, rfl, herror, ?_, hargs, lead, tail, ?_⟩
    · rw [firstPrimes, herror]
    · rw [Transcript.ofArgs_of_misuse hargs, hreport]

end PrimeListing
