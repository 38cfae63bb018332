/-
The command: print the first primes, as many as the argument says.
-/
import PrimeListing.Command.Transcript

/-- Carry out a command line and leave with its exit code. -/
def main (args : List String) : IO UInt32 := do
  let transcript := PrimeListing.Command.Transcript.ofArgs args
  IO.eprint transcript.stderr
  IO.print transcript.stdout
  return transcript.code
