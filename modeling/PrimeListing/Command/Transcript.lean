/-
What the command puts out.

A transcript is the exit code and the text on both outputs.  A request that is
carried out puts the list of primes on the standard output and, with the debug
flag, an account of the work on the error output.  Help goes to the standard
output, and the report of a wrong command line to the error output alone.

* `ofArgs_of_help`, `ofArgs_of_misuse`, `ofArgs_of_request` — the transcript of
  a command line by the outcome of its scan.
-/
import PrimeListing.Command.Usage
import PrimeListing.Listing

namespace PrimeListing.Command

/-- All that a run of the command lets one see. -/
structure Transcript where
  code : UInt32
  stdout : String
  stderr : String
  deriving DecidableEq

/-- How many candidates were tested to find a list: all from 2 up to its last prime. -/
def testedFor (ps : List UInt64) : UInt64 :=
  match ps.getLast? with
  | none => 0
  | some p => p - 1

/-- The account of the work on a list. -/
def debugText (n : Count) (ps : List UInt64) : String :=
  n.labelled ++ "\ntested " ++ decimal (testedFor ps).toNat ++ " candidates\n"

namespace Transcript

/-- The transcript of a request that is carried out. -/
def ofRequest (r : Request) : Transcript :=
  let ps := r.count.primes
  { code := 0
    stdout := listText ps ++ "\n"
    stderr := if r.debug then debugText r.count ps else "" }

/-- The transcript of a scan that ended early. -/
def ofStop : Stop → Transcript
  | .help => { code := 0, stdout := helpText, stderr := "" }
  | .misuse e => { code := 2, stdout := "", stderr := e.report }

def ofArgs (args : List String) : Transcript :=
  match Request.ofArgs args with
  | .ok r => ofRequest r
  | .error stop => ofStop stop

theorem ofArgs_of_help {args : List String} (h : Request.ofArgs args = .error .help) :
    ofArgs args = { code := 0, stdout := helpText, stderr := "" } := by
  rw [ofArgs, h]
  rfl

theorem ofArgs_of_misuse {args : List String} {e : UsageError}
    (h : Request.ofArgs args = .error (.misuse e)) :
    ofArgs args = { code := 2, stdout := "", stderr := e.report } := by
  rw [ofArgs, h]
  rfl

theorem ofArgs_of_request {args : List String} {r : Request} (h : Request.ofArgs args = .ok r) :
    ofArgs args = ofRequest r := by
  rw [ofArgs, h]

end Transcript

end PrimeListing.Command
