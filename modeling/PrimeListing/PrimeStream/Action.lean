/-
What can be asked of a single stream of primes.

An action either consumes primes or only looks at the stream.  `act` carries
an action out and returns its answer with the stream as it stands afterwards.

* `act_eq_self` — an action that only looks leaves the stream as it was.
-/
import PrimeListing.PrimeStream.Basic

namespace PrimeListing.PrimeStream

/-- What is known beforehand about how many primes are to come. -/
structure LengthBounds where
  least : Nat
  /-- At most so many, where there is a limit. -/
  most : Option Nat
  deriving DecidableEq

/-- A stream promises nothing about the number of primes to come. -/
def lengthBounds (_s : PrimeStream) : LengthBounds := { least := 0, most := none }

/-- Of the next `n` primes there are at most `n`. -/
def takenLengthBounds (n : Nat) (_s : PrimeStream) : LengthBounds := { least := 0, most := some n }

/-- An action on one stream. -/
inductive Action
  | next
  /-- Skip `k` primes and ask for the one after them. -/
  | nth (k : Nat)
  | take (n : Nat)
  /-- Ask for the next primes while they are below `bound`. -/
  | takeWhileBelow (bound : UInt64)
  /-- Ask for the first of the following primes above `bound`. -/
  | findAbove (bound : UInt64)
  /-- Ask how many primes are to come. -/
  | lengthBounds
  /-- Ask how many primes taking `n` of them would give. -/
  | takenLengthBounds (n : Nat)
  | labelled
  | labelledBlock
  /-- Ask for nothing but the report of the tested candidates. -/
  | tested
  deriving DecidableEq

/-- Whether an action takes primes from the stream. -/
def Action.consumes : Action → Bool
  | .next | .nth _ | .take _ | .takeWhileBelow _ | .findAbove _ => true
  | .lengthBounds | .takenLengthBounds _ | .labelled | .labelledBlock | .tested => false

/-- The answer to an action. -/
inductive Answer
  /-- One prime, or none at the end of the stream. -/
  | prime (found : Option UInt64)
  | primes (found : List UInt64)
  | bounds (known : LengthBounds)
  | text (written : String)
  /-- Nothing beyond the report itself. -/
  | silence
  deriving DecidableEq

def act (s : PrimeStream) : Action → Answer × PrimeStream
  | .next => s.next.map .prime id
  | .nth k => (s.nth k).map .prime id
  | .take n => (s.take n).map .primes id
  | .takeWhileBelow bound => (s.takeWhileBelow bound).map .primes id
  | .findAbove bound => (s.findAbove bound).map .prime id
  | .lengthBounds => (.bounds s.lengthBounds, s)
  | .takenLengthBounds n => (.bounds (s.takenLengthBounds n), s)
  | .labelled => (.text s.labelled, s)
  | .labelledBlock => (.text s.labelledBlock, s)
  | .tested => (.silence, s)

theorem act_eq_self {s : PrimeStream} {a : Action} (h : a.consumes = false) :
    (s.act a).2 = s := by
  cases a with
  | next | nth | take | takeWhileBelow | findAbove => cases h
  | lengthBounds | takenLengthBounds | labelled | labelledBlock | tested => rfl

end PrimeListing.PrimeStream
