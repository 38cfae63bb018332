/-
The words of the command: help, tips and the report of a usage error.

A report is a message, perhaps a tip, perhaps a usage line, and a pointer to
the help.  Of an argument it shows the visible part.  An unknown long option
whose name is like that of a flag brings a tip about the flag; any other
unknown option brings the tip to write it as a value.  The usage line for a
long option that cannot be taken names what the line was already using.

* `report_invalidCount` — the report of a count that cannot be read is its
  message and the pointer alone.
-/
import PrimeListing.Command.Scan
import PrimeListing.Text.Similarity
import PrimeListing.Text.Visible

namespace PrimeListing.Command

/-! ### Tips -/

/-- How alike a name must be to that of a flag for a tip to mention the flag. -/
def similarEnough : Float := 0.7

/-- The flag whose name is most like the given one, if any is alike enough; of two the later. -/
def Flag.similar? (name : String) : Option Flag :=
  let likeness (f : Flag) := Text.similarity name.toList f.name.toList
  (all.filter fun f => similarEnough < likeness f).foldl
    (fun best f =>
      match best with
      | none => some f
      | some b => if likeness f < likeness b then some b else some f)
    none

/-- The tip to write an option as a value. -/
def valueTip (option : String) : String :=
  "to pass '" ++ Text.visible option ++ "' as a value, use '-- " ++ Text.visible option ++ "'"

/-- The tip that an option of another name exists. -/
def similarTip (f : Flag) : String := "a similar argument exists: '" ++ f.option ++ "'"

/-- The message for an argument that has no meaning. -/
def unexpectedArgument (arg : String) : String :=
  "unexpected argument '" ++ Text.visible arg ++ "' found"

/-! ### Usage lines -/

/-- A usage line with the given parts. -/
def usageLine (parts : List String) : String :=
  "Usage: first_primes " ++ " ".intercalate parts

/-- The usage line that names nothing in particular. -/
def generalUsage : String := usageLine ["[OPTIONS]", "[COUNT]"]

namespace Met

/-- Whether a flag was met; help is never met without ending the scan. -/
def has (met : Met) : Flag → Bool
  | .debug => met.debug
  | .help => false

/-- The part for the count: optional until it is met. -/
def countPart (met : Met) : String := if met.count then "<COUNT>" else "[COUNT]"

/-- The usage line for an unknown long option: it names what was met and the flag that may be
meant. -/
def usageOfUnknown (met : Met) (meant : Option Flag) : String :=
  let flags := Flag.all.filter fun f => met.has f || meant = some f
  if flags.isEmpty && !met.count then generalUsage
  else usageLine (flags.map Flag.option ++ [met.countPart])

/-- The usage line for a flag that is given a value.  Behind the debug flag it offers the count and
that flag as one choice. -/
def usageOfFlag (met : Met) (f : Flag) : String :=
  if met.debug then
    let choice := "<COUNT|" ++ Flag.debug.option ++ ">"
    usageLine (if f = .debug then [choice] else [f.option, choice])
  else usageLine [f.option, "[COUNT]"]

end Met

/-! ### Usage errors -/

namespace UsageError

def shortOption (letter : Char) : String := String.ofList ['-', letter]

def longOption (name : String) : String := "--" ++ name

def message : UsageError → String
  | .invalidCount e => "invalid value '" ++ Text.visible e.input ++ "' for '[COUNT]': " ++ e.message
  | .surplusValue text => unexpectedArgument text
  | .unknownLetter letter => unexpectedArgument (shortOption letter)
  | .unknownName name _ => unexpectedArgument (longOption name)
  | .repeatedFlag f => "the argument '" ++ f.option ++ "' cannot be used multiple times"
  | .unwantedValue f text _ =>
    "unexpected value '" ++ Text.visible text ++ "' for '" ++ f.option
      ++ "' found; no more were expected"

/-- What might be meant instead. -/
def tip? : UsageError → Option String
  | .unknownLetter letter => some (valueTip (shortOption letter))
  | .unknownName name _ =>
    match Flag.similar? name with
    | some f => some (similarTip f)
    | none => some (valueTip (longOption name))
  | .invalidCount _ | .surplusValue _ | .repeatedFlag _ | .unwantedValue _ _ _ => none

/-- How the command is used, where that helps. -/
def usage? : UsageError → Option String
  | .invalidCount _ => none
  | .surplusValue _ | .unknownLetter _ | .repeatedFlag _ => some generalUsage
  | .unknownName name met => some (met.usageOfUnknown (Flag.similar? name))
  | .unwantedValue f _ met => some (met.usageOfFlag f)

/-- A part of a report, with an empty line behind it; nothing where there is no such part. -/
def paragraph (lead : String) : Option String → String
  | none => ""
  | some part => lead ++ part ++ "\n\n"

/-- The pointer to the help. -/
def pointer : String := "For more information, try '--help'.\n"

/-- The whole report of a usage error. -/
def report (e : UsageError) : String :=
  paragraph "error: " (some e.message) ++ paragraph "  tip: " e.tip? ++ paragraph "" e.usage?
    ++ pointer

theorem message_invalidCount (e : InvalidCount) :
    message (.invalidCount e) =
      "invalid value '" ++ Text.visible e.input ++ "' for '[COUNT]': " ++ e.message :=
  rfl

theorem report_invalidCount (e : InvalidCount) :
    report (.invalidCount e) = "error: " ++ message (.invalidCount e) ++ "\n\n" ++ pointer := by
  simp only [report, paragraph, tip?, usage?, String.append_empty]

end UsageError

/-! ### Help -/

def helpText : String :=
  "Print the first COUNT prime numbers\n\n" ++ generalUsage ++ "\n\n"
    ++ "Arguments:\n"
    ++ "  [COUNT]  How many primes to print [default: " ++ Count.standard.text ++ "]\n\n"
    ++ "Options:\n  -d, --debug  Enable debug logging\n  -h, --help   Print help\n"

end PrimeListing.Command
