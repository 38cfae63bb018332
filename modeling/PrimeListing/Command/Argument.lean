/-
Command line arguments, one at a time.

An argument that begins with a hyphen is a long option, a cluster of short
ones or the end of the options.  A single hyphen is a value, and so is what
looks like a negative number, as long as a value is still expected.

* `read_eq_value_of_head` — what does not begin with a hyphen is a value.
-/
namespace PrimeListing.Command

/-- The options that take no value. -/
inductive Flag
  | debug
  | help
  deriving DecidableEq

namespace Flag

/-- All flags, in the order in which they are listed. -/
def all : List Flag := [.debug, .help]

def name : Flag → String
  | .debug => "debug"
  | .help => "help"

def option (f : Flag) : String := "--" ++ f.name

/-- The letter of a flag in a cluster of short options. -/
def letter : Flag → Char
  | .debug => 'd'
  | .help => 'h'

def ofLetter? (c : Char) : Option Flag := all.find? fun f => f.letter = c

def ofName? (s : String) : Option Flag := all.find? fun f => f.name = s

end Flag

/-- What one argument says. -/
inductive Argument
  /-- All further arguments are values. -/
  | endOfOptions
  /-- An option by its name, with the text behind an equals sign if there is one. -/
  | long (name : String) (value : Option String)
  /-- Options by their letters. -/
  | cluster (letters : List Char)
  | value (text : String)
  deriving DecidableEq

namespace Argument

/-- The text behind the fraction that may stand at the front. -/
def dropFraction : List Char → List Char
  | [] => []
  | c :: rest => if c = '.' then rest.dropWhile Char.isDigit else c :: rest

/-- Whether a text is empty or an exponent: a letter and digits. -/
def isExponent : List Char → Bool
  | [] => true
  | c :: rest => (c = 'e' || c = 'E') && !rest.isEmpty && rest.all Char.isDigit

/-- Whether a text looks like a number: digits, at most a fraction and an exponent. -/
def isNumeric : List Char → Bool
  | [] => false
  | c :: rest => c.isDigit && isExponent (dropFraction (rest.dropWhile Char.isDigit))

/-- The long option whose name, and value if any, is given. -/
def ofLong (cs : List Char) : Argument :=
  let name := String.ofList (cs.takeWhile (· ≠ '='))
  match cs.dropWhile (· ≠ '=') with
  | [] => .long name none
  | _ :: behind => .long name (some (String.ofList behind))

/-- Read an argument; the first parameter tells whether a value is still expected. -/
def read (expectsValue : Bool) (s : String) : Argument :=
  match s.toList with
  | [] => .value s
  | c :: rest =>
    if c ≠ '-' then .value s
    else
      match rest with
      -- a hyphen alone is a value
      | [] => .value s
      | d :: more =>
        if d = '-' then if more.isEmpty then .endOfOptions else ofLong more
        else if expectsValue && isNumeric rest then .value s
        else .cluster rest

/-- What does not begin with a hyphen is a value. -/
theorem read_eq_value_of_head {expectsValue : Bool} {s : String}
    (h : s.toList.head? ≠ some '-') : read expectsValue s = .value s := by
  unfold read
  split
  · rfl
  · next c rest hs =>
    rw [hs] at h
    have hc : c ≠ '-' := fun hc => h (by rw [hc]; rfl)
    rw [if_pos hc]

end Argument

end PrimeListing.Command
