/-
# JSON values

The values that a configuration file can hold. Truth values are numbers, as
they are in comparisons; an object keeps its members in the order of their
first occurrence, each with its last value.

Key definitions: `Json`, `Json.Members.put`, `Json.isTrue`, `Json.typeName`.
-/
import DiagnosticWatch.Number.Basic

namespace DiagnosticWatch

/-- A JSON value. -/
inductive Json where
  | null
  | number (n : Number)
  | text (s : String)
  | list (items : List Json)
  | object (members : List (String × Json))
deriving Repr, Inhabited

namespace Json

/-- The members of an object. -/
abbrev Members := List (String × Json)

/-- Sets a member: in its place if the key is there, at the end if not. -/
def Members.put (members : Members) (key : String) (value : Json) : Members :=
  if members.any (·.1 = key) then members.map fun m => if m.1 = key then (key, value) else m
  else members ++ [(key, value)]

/-- The value of a member. -/
def Members.get? (members : Members) (key : String) : Option Json :=
  members.lookup key

/-- Sets the members of `upper`, one after the other. -/
def Members.overlay (members upper : Members) : Members :=
  upper.foldl (fun ms m => ms.put m.1 m.2) members

/-- Whether a value counts as true: null, zero and what is empty do not. -/
def isTrue : Json → Bool
  | .null => false
  | .number n => !n.isZero
  | .text s => s ≠ ""
  | .list items => !items.isEmpty
  | .object members => !members.isEmpty

/-- The name of the type of a value in messages. -/
def typeName : Json → String
  | .null => "NoneType"
  | .number (.truth _) => "bool"
  | .number (.int _) => "int"
  | .number (.float _) => "float"
  | .text _ => "str"
  | .list _ => "list"
  | .object _ => "dict"

end Json
end DiagnosticWatch
