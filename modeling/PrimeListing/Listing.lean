/-
Lists of primes.

A count names the list of the first primes, which is taken from a fresh
stream.  An interval names the list of the primes in it, which is found by
testing each of its numbers.

* `mem_primesBetween` — the list for an interval holds its primes and nothing
  else.
* `primesBetween_of_lt` — an interval whose ends are the wrong way round is
  empty.
* `listText_newline` — the line that shows a list: its numbers in decimal
  notation between square brackets.
-/
import PrimeListing.Count.Basic
import PrimeListing.PrimeStream.Basic

namespace PrimeListing

/-- The first primes, as many as the count says. -/
def Count.primes (n : Count) : List UInt64 := (PrimeStream.take n.val.toNat {}).1

/-- The first `n` primes; a negative number is refused. -/
def firstPrimes (n : Int64) : Except InvalidCount (List UInt64) :=
  match Count.ofInt64 n with
  | .ok c => .ok c.primes
  | .error e => .error e

/-- The numbers from `lo` to `hi`, both included. -/
def interval (lo hi : UInt64) : List UInt64 :=
  (List.range' lo.toNat (hi.toNat + 1 - lo.toNat)).map UInt64.ofNat

/-- The primes from `lo` to `hi`, both included. -/
def primesBetween (lo hi : UInt64) : List UInt64 := (interval lo hi).filter isPrime

theorem mem_interval {k lo hi : UInt64} : k ∈ interval lo hi ↔ lo ≤ k ∧ k ≤ hi := by
  have hhi := hi.toNat_lt
  simp only [interval, List.mem_map, List.mem_range'_1, UInt64.le_iff_toNat_le]
  constructor
  · rintro ⟨m, hm, rfl⟩
    rw [UInt64.toNat_ofNat_of_lt' (by simp only [UInt64.size]; omega)]
    omega
  · intro hk
    exact ⟨k.toNat, by omega, UInt64.ofNat_toNat⟩

theorem mem_primesBetween {k lo hi : UInt64} :
    k ∈ primesBetween lo hi ↔ (lo ≤ k ∧ k ≤ hi) ∧ isPrime k = true := by
  rw [primesBetween, List.mem_filter, mem_interval]

theorem primesBetween_of_lt {lo hi : UInt64} (h : hi < lo) : primesBetween lo hi = [] := by
  rw [UInt64.lt_iff_toNat_lt] at h
  have hlength : hi.toNat + 1 - lo.toNat = 0 := by omega
  simp [primesBetween, interval, hlength]

/-- A list of primes in square brackets. -/
def listText (ps : List UInt64) : String := Text.bracketed (ps.map fun p => decimal p.toNat)

theorem listText_newline (ps : List UInt64) :
    listText ps ++ "\n" = "[" ++ ", ".intercalate (ps.map fun p => decimal p.toNat) ++ "]\n" := by
  have hclosing : "]\n" = "]" ++ "\n" := rfl
  rw [listText, Text.bracketed, hclosing, ← String.append_assoc]

/-! ### Summaries -/

/-- The differences of neighbours in an ascending list. -/
def gaps (ps : List UInt64) : List Nat := ps.zipWith (fun p q => q.toNat - p.toNat) ps.tail

/-- What a list of primes amounts to. -/
structure Summary where
  length : Nat
  last : Option UInt64
  sum : Nat
  /-- The largest difference of neighbours, where there are two primes at least. -/
  widestGap : Option Nat
  deriving DecidableEq

def Summary.ofList (ps : List UInt64) : Summary where
  length := ps.length
  last := ps.getLast?
  sum := ps.foldl (fun total p => total + p.toNat) 0
  widestGap := (gaps ps).max?

end PrimeListing
