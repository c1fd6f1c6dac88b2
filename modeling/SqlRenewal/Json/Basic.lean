import SqlRenewal.Text.Blank

/-!
# JSON values

Values without fractions. The fields of an object keep the order in which they
were given; arranging a value sorts the fields of all its objects by their keys.

Not every value can be written: integers have to fit into 64 bits, with or
without a sign, and lists and objects are nested to a limited depth.
-/
namespace SqlRenewal

/-- A JSON value whose numbers are integers. -/
inductive Json where
  | null
  | bool (value : Bool)
  | int (value : Int)
  | text (value : Text)
  | list (elements : List Json)
  | object (fields : List (Text × Json))
deriving Repr

namespace Json

/-- A text given as a string. -/
def string (value : String) : Json :=
  .text value.toList

/-- A natural number. -/
def nat (value : Nat) : Json :=
  .int value

/-- A value that may be missing. -/
def optional {α : Type} (encode : α → Json) : Option α → Json
  | none => .null
  | some value => encode value

/-- The field of that key, in an object. -/
def field? (key : String) : Json → Option Json
  | .object fields => (fields.find? fun entry => entry.1 == key.toList).map (·.2)
  | _ => none

/-- The smallest integer that is written. -/
def smallestInt : Int := -9223372036854775808

/-- The largest integer that is written. -/
def largestInt : Int := 18446744073709551615

/-- How many lists and objects may stand inside each other. -/
def depthLimit : Nat := 254

/-- Why a value cannot be written. -/
inductive Fault where
  | outOfRange
  | tooDeep
deriving DecidableEq, Repr

/-- The wording of a value that cannot be written. -/
def Fault.message : Fault → String
  | .outOfRange => "Integer exceeds 64-bit range"
  | .tooDeep => "Recursion limit reached"

mutual

/-- The first reason, from left to right, why a value cannot be written where
`room` more lists and objects may be opened. Empty ones need room too. -/
def fault? : Json → (room : Nat) → Option Fault
  | .null, _ => none
  | .bool _, _ => none
  | .int value, _ =>
    if smallestInt ≤ value ∧ value ≤ largestInt then none else some .outOfRange
  | .text _, _ => none
  | .list elements, room =>
    if room = 0 then some .tooDeep else firstFault? elements (room - 1)
  | .object fields, room =>
    if room = 0 then some .tooDeep else fieldsFault? fields (room - 1)

/-- The first reason why one of some values cannot be written. -/
def firstFault? : List Json → (room : Nat) → Option Fault
  | [], _ => none
  | element :: rest, room => (fault? element room).or (firstFault? rest room)

/-- The first reason why the value of one of some fields cannot be written. -/
def fieldsFault? : List (Text × Json) → (room : Nat) → Option Fault
  | [], _ => none
  | (_, value) :: rest, room => (fault? value room).or (fieldsFault? rest room)

end

/-- Fields in the order of their keys. -/
def sortFields (fields : List (Text × Json)) : List (Text × Json) :=
  fields.mergeSort fun first second => Text.ble first.1 second.1

mutual

/-- The value with the fields of every object sorted. -/
def arrange : Json → Json
  | .list elements => .list (arrangeAll elements)
  | .object fields => .object (sortFields (arrangeFields fields))
  | .null => .null
  | .bool value => .bool value
  | .int value => .int value
  | .text value => .text value

/-- Some values, each arranged. -/
def arrangeAll : List Json → List Json
  | [] => []
  | element :: rest => arrange element :: arrangeAll rest

/-- Some fields, their values arranged. -/
def arrangeFields : List (Text × Json) → List (Text × Json)
  | [] => []
  | (key, value) :: rest => (key, arrange value) :: arrangeFields rest

end

end Json

end SqlRenewal
