import SelectTree.Json.Basic
import SelectTree.Query.Basic

/-!
# Notes

What is worth telling about a run besides its answer. A warning is always told, the other notes only
to those who ask for them.
-/

namespace SelectTree

/-- How urgent a note is. -/
inductive Level where
  | warning
  | detail
deriving DecidableEq

/-- A note taken on the way to an answer. -/
inductive Note where
  /-- How deep parse trees may nest. -/
  | nestingLimit (limit : UInt64)
  /-- How many bytes of input were read. -/
  | bytesRead (count : Nat)
  /-- A parse result holds more statements than are used. -/
  | extraStatements (count : Nat)
  /-- Which statement comes first; it may have no tag. -/
  | firstStatement (tag : Option String)
  /-- A statement is being lowered. -/
  | statement (tag : String)
  /-- An attribute had the wrong shape. -/
  | attributeShape (kind key : String) (found : Json.Shape)
  /-- An aggregate call was lowered. -/
  | aggregate (function : Query.AggregateFunction) (arguments : Nat)
  /-- A select was lowered. -/
  | select (projections joins orders : Nat)
deriving DecidableEq

namespace Note

/-- The level of a note: only unused statements are worth a warning. -/
def level : Note → Level
  | .extraStatements _ => .warning
  | _ => .detail

/-- A note in words. -/
def text : Note → String
  | .nestingLimit limit => "Nesting limit is " ++ toString limit
  | .bytesRead count => "Read " ++ toString count ++ " bytes of input"
  | .extraStatements count =>
    "Parse tree holds " ++ toString count ++ " statements; only the first is translated"
  | .firstStatement tag => "First statement is " ++ tag.getD "untagged"
  | .statement tag => "Translating " ++ tag ++ " statement"
  | .attributeShape kind key found => kind ++ "." ++ key ++ " is " ++ found.phrase
  | .aggregate function arguments =>
    "Aggregate " ++ function.keyword ++ " over " ++ toString arguments ++ " argument(s)"
  | .select projections joins orders =>
    "SELECT with " ++ toString projections ++ " projection(s), " ++ toString joins
      ++ " join(s), " ++ toString orders ++ " ordering(s)"

end Note

end SelectTree
