/-
Labelled text: how a value with a name is written out.

A record is its label followed by its fields in braces, a wrapper its label
followed by one body in parentheses.  Each has a form on one line and a block
form, where every item stands on a line of its own, indented by four spaces
and closed by a comma.  A list is written in square brackets.
-/
namespace PrimeListing.Text

/-- A field of a record: its name and the text of its value. -/
def field (name value : String) : String := name ++ ": " ++ value

/-- A record on one line. -/
def record (label : String) (fields : List (String × String)) : String :=
  label ++ " \x7b " ++ ", ".intercalate (fields.map fun f => field f.1 f.2) ++ " \x7d"

/-- A line of a block form. -/
def blockLine (item : String) : String := "    " ++ item ++ ",\n"

/-- A record with each field on a line of its own. -/
def recordBlock (label : String) (fields : List (String × String)) : String :=
  label ++ " \x7b\n" ++ String.join (fields.map fun f => blockLine (field f.1 f.2)) ++ "\x7d"

/-- A label around a body, on one line. -/
def wrapped (label body : String) : String := label ++ "(" ++ body ++ ")"

/-- A label around a body that stands on a line of its own. -/
def wrappedBlock (label body : String) : String := label ++ "(\n" ++ blockLine body ++ ")"

/-- A list in square brackets. -/
def bracketed (items : List String) : String := "[" ++ ", ".intercalate items ++ "]"

end PrimeListing.Text
