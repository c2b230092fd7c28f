import ClarityDelta.Data.Decimal

/-!
# Values

The values that settings, records and reports are written in: null, booleans, numbers, texts,
lists, and objects with named fields.
-/

namespace ClarityDelta.Data

/-- A value. The fields of an object are in the order in which they were first written. -/
inductive Value where
  | null
  | bool (b : Bool)
  | integer (n : Int)
  | decimal (x : Decimal)
  | text (s : String)
  /-- A scalar that no field takes, such as a date or an infinite number. -/
  | other
  | list (items : List Value)
  | object (fields : List (String × Value))
  deriving Repr, Inhabited

/-- The named fields of an object. -/
abbrev Fields := List (String × Value)

namespace Fields

/-- The field with the given name. -/
def get? (fields : Fields) (name : String) : Option Value :=
  List.lookup name fields

/-- The fields after one is set: in its place when it was there, else at the end. -/
def set (name : String) (value : Value) : Fields → Fields
  | [] => [(name, value)]
  | (key, old) :: rest =>
    if key = name then (key, value) :: rest else (key, old) :: set name value rest

/-- Fields written one after another: a later one with the same name takes the earlier one's
place. -/
def ofList (fields : List (String × Value)) : Fields :=
  fields.foldl (fun result (name, value) => set name value result) []

end Fields

namespace Value

/-- A natural number as a value. -/
def natural (n : Nat) : Value :=
  .integer n

/-- A list of texts as a value. -/
def texts (items : List String) : Value :=
  .list (items.map .text)

/-- A value that may be absent, null standing for its absence. -/
def option (f : α → Value) : Option α → Value
  | none => .null
  | some a => f a

end Value

end ClarityDelta.Data
