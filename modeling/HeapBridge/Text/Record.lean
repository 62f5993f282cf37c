/-!
# Record text

The one-line form of a record in diagnostics: a name and its fields, or a name and its arguments.
-/
namespace HeapBridge.Text

/-- Writes a record with named fields. -/
def record (name : String) (fields : List (String × String)) : String :=
  name ++ " \x7b " ++ ", ".intercalate (fields.map fun f => f.1 ++ ": " ++ f.2) ++ " \x7d"

/-- Writes a name applied to arguments. -/
def applied (name : String) (args : List String) : String :=
  name ++ "(" ++ ", ".intercalate args ++ ")"

/-- Writes a list in brackets. -/
def bracketed (items : List String) : String := "[" ++ ", ".intercalate items ++ "]"

/-- Writes a truth value. -/
def bool (b : Bool) : String := if b then "true" else "false"

end HeapBridge.Text
