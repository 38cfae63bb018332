/-
Scanning a command line.

The arguments are taken from left to right, and the first problem ends the
scan.  A count is put aside when it is met and read only when a known option
or the end is reached, so a problem in between comes first.  A long option that
cannot be taken is reported together with what was met before it.

* `scan_append` — a scan may be split anywhere: what comes later cannot change
  how an earlier argument was taken.
* `step_of_optionsEnded` — once the options have ended all is a value.
-/
import PrimeListing.Command.Argument
import PrimeListing.Count.Reading

namespace PrimeListing.Command

/-- What was met on a command line before an argument. -/
structure Met where
  debug : Bool
  /-- Whether a count was met, readable or not. -/
  count : Bool
  deriving DecidableEq

/-- What can be wrong with a command line. -/
inductive UsageError
  | invalidCount (cause : InvalidCount)
  | surplusValue (text : String)
  | unknownLetter (letter : Char)
  | unknownName (name : String) (met : Met)
  | repeatedFlag (flag : Flag)
  | unwantedValue (flag : Flag) (text : String) (met : Met)
  deriving DecidableEq

/-- Why a scan ends before the end of the line. -/
inductive Stop
  | help
  | misuse (error : UsageError)
  deriving DecidableEq

/-- The place for the count. -/
inductive Slot
  | free
  /-- A count has been met but not read. -/
  | pending (text : String)
  | filled (count : Count)
  deriving DecidableEq

/-- Whether a count may still come. -/
def Slot.isFree : Slot → Bool
  | .free => true
  | .pending _ | .filled _ => false

/-- What has been gathered from the arguments so far. -/
structure Scan where
  debug : Bool := false
  slot : Slot := .free
  optionsEnded : Bool := false
  deriving DecidableEq

/-- What a whole command line asks for. -/
structure Request where
  count : Count
  debug : Bool
  deriving DecidableEq

namespace Scan

def met (s : Scan) : Met := { debug := s.debug, count := !s.slot.isFree }

/-- Read the count that was put aside. -/
def settle (s : Scan) : Except Stop Scan :=
  match s.slot with
  | .free | .filled _ => .ok s
  | .pending text =>
    match Count.read text with
    | .ok n => .ok { s with slot := .filled n }
    | .error e => .error (.misuse (.invalidCount e))

/-- Put a value aside as the count. -/
def place (s : Scan) (text : String) : Except Stop Scan :=
  if s.slot.isFree then .ok { s with slot := .pending text }
  else .error (.misuse (.surplusValue text))

/-- Take a flag that stands without a value. -/
def takeFlag (s : Scan) : Flag → Except Stop Scan
  | .help => .error .help
  | .debug =>
    if s.debug then .error (.misuse (.repeatedFlag .debug)) else .ok { s with debug := true }

def takeLetter (s : Scan) (c : Char) : Except Stop Scan :=
  match Flag.ofLetter? c with
  | none => .error (.misuse (.unknownLetter c))
  | some f => s.settle.bind fun s => s.takeFlag f

def takeLong (s : Scan) (name : String) (value : Option String) : Except Stop Scan :=
  match Flag.ofName? name, value with
  | none, _ => .error (.misuse (.unknownName name s.met))
  | some f, some text => .error (.misuse (.unwantedValue f text s.met))
  | some f, none => s.settle.bind fun s => s.takeFlag f

def step (s : Scan) (arg : String) : Except Stop Scan :=
  if s.optionsEnded then s.place arg
  else
    match Argument.read s.slot.isFree arg with
    | .endOfOptions => .ok { s with optionsEnded := true }
    | .long name value => s.takeLong name value
    | .cluster letters => letters.foldlM takeLetter s
    | .value text => s.place text

def scan (s : Scan) (args : List String) : Except Stop Scan := args.foldlM step s

/-- What the line asks for, once all its arguments have been taken. -/
def finish (s : Scan) : Except Stop Request :=
  s.settle.bind fun s =>
    match s.slot with
    | .filled n => .ok { count := n, debug := s.debug }
    | .free | .pending _ => .ok { count := Count.standard, debug := s.debug }

theorem scan_append (s : Scan) (args more : List String) :
    s.scan (args ++ more) = (s.scan args).bind fun t => t.scan more := by
  unfold scan
  rw [List.foldlM_append]
  rfl

theorem step_of_optionsEnded {s : Scan} (h : s.optionsEnded = true) (arg : String) :
    s.step arg = s.place arg := by
  rw [step, if_pos h]

end Scan

/-- What a command line asks for, or why it is not carried out. -/
def Request.ofArgs (args : List String) : Except Stop Request :=
  (({} : Scan).scan args).bind Scan.finish

end PrimeListing.Command
