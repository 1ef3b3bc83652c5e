import SelectTree.Json.Basic

/-!
# Configuration

What can be configured, and its JSON form: an object with `max_depth`, or an array with that one
value in it. What is left out has its default.
-/

namespace SelectTree

/-- What can be configured. -/
structure Config where
  /-- How deep a parse tree may nest. -/
  maxDepth : UInt64 := 256
deriving DecidableEq

namespace Config

/-- The configuration with the depth limit that a value gives, an integer below `2 ^ 64`. -/
def ofMaxDepth? : Json → Option Config
  | .number (.int n) =>
    if 0 ≤ n ∧ n < UInt64.size then some { maxDepth := UInt64.ofNat n.toNat } else none
  | _ => none

/-- Reads a configuration. Other keys of an object are passed over. -/
def ofJson? : Json → Option Config
  | .object fields =>
    match fields.lookup "max_depth" with
    | none => some {}
    | some value => ofMaxDepth? value
  | .array [] => some {}
  | .array [value] => ofMaxDepth? value
  | _ => none

/-- The JSON form of a configuration. -/
def toJson (config : Config) : Json :=
  .object [("max_depth", .ofNat config.maxDepth.toNat)]

end Config

end SelectTree
