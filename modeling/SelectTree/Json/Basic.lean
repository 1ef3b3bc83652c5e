/-!
# JSON values

The values that parse trees are made of, that query trees are written as, and that the command
line reads and prints. An object keeps its fields as a list; the reader gives each key once.
-/

namespace SelectTree

/-- A JSON number, kept as it is written. -/
inductive Json.Number where
  /-- A number written without fraction and exponent. -/
  | int (value : Int)
  /-- Any other number: `digits · 10 ^ exponent`, negated if `negative`. A zero keeps its sign. -/
  | real (negative : Bool) (digits : Nat) (exponent : Int)
deriving DecidableEq

/-- A JSON value. -/
inductive Json where
  | null
  | bool (value : Bool)
  | number (value : Json.Number)
  | string (text : String)
  | array (items : List Json)
  | object (fields : List (String × Json))

namespace Json

/-- The fields of an object. -/
abbrev Fields := List (String × Json)

/-! ## Shapes -/

/-- The six shapes of a JSON value. -/
inductive Shape where
  | null
  | boolean
  | number
  | string
  | array
  | object
deriving DecidableEq

/-- The shape of a value. -/
def shape : Json → Shape
  | .null => .null
  | .bool _ => .boolean
  | .number _ => .number
  | .string _ => .string
  | .array _ => .array
  | .object _ => .object

/-- A shape in words, with its article. -/
def Shape.phrase : Shape → String
  | .null => "null"
  | .boolean => "a boolean"
  | .number => "a number"
  | .string => "a string"
  | .array => "an array"
  | .object => "an object"

/-! ## Reading parts -/

/-- Whether a value is `null`. -/
def isNull : Json → Bool
  | .null => true
  | _ => false

/-- The elements of an array; other values have none. -/
def elements : Json → List Json
  | .array items => items
  | _ => []

/-- The value under `key`, if the value is an object that has the key. -/
def get? (key : String) : Json → Option Json
  | .object fields => fields.lookup key
  | _ => none

/-- The number as a signed 64-bit integer, if it is written as an integer and fits. -/
def Number.toInt64? : Number → Option Int64
  | .int n =>
    if Int64.minValue.toInt ≤ n ∧ n ≤ Int64.maxValue.toInt then some (Int64.ofInt n) else none
  | .real .. => none

/-- A number that is written as a signed 64-bit integer. -/
def toInt64? : Json → Option Int64
  | .number n => n.toInt64?
  | _ => none

/-- A signed 64-bit integer as a value. -/
def ofInt64 (n : Int64) : Json :=
  .number (.int n.toInt)

/-- A natural number as a value. -/
def ofNat (n : Nat) : Json :=
  .number (.int n)

/-- An optional value, `null` standing for none. -/
def ofOption : Option Json → Json
  | none => .null
  | some v => v

/-! ## Setting fields -/

/-- Sets `key` to `value`: a key that is present keeps its place and takes the new value. -/
def Fields.insert (fields : Fields) (key : String) (value : Json) : Fields :=
  match fields with
  | [] => [(key, value)]
  | (k, v) :: rest => if k = key then (k, value) :: rest else (k, v) :: Fields.insert rest key value

end Json

end SelectTree
