import SelectTree.Json.Number
import SelectTree.Text.Control

/-!
# Printing JSON

One printer for both forms of output; a layout says what stands between the parts of a value. The
compact form has no space at all, the indented form gives each element a line of its own, two
spaces deeper than the value around it. An empty array or object is printed without space in both.
-/

namespace SelectTree.Json

/-! ## Strings -/

/-- A character inside a string: quotes, backslashes and control characters are escaped, nothing
else is. -/
def escapeChar (c : Char) : List Char :=
  match c with
  | '"' => ['\\', '"']
  | '\\' => ['\\', '\\']
  | '\x08' => ['\\', 'b']
  | '\t' => ['\\', 't']
  | '\n' => ['\\', 'n']
  | '\x0c' => ['\\', 'f']
  | '\r' => ['\\', 'r']
  | c =>
    if c < ' ' then '\\' :: 'u' :: '0' :: '0' :: Text.hexPair c.toNat
    else [c]

/-- Writes the body of a string in front of `rest`. -/
def writeBody (rest : List Char) : List Char → List Char
  | [] => rest
  | c :: text => escapeChar c ++ writeBody rest text

/-- Writes a string with its quotes in front of `rest`. -/
def writeString (text : String) (rest : List Char) : List Char :=
  '"' :: writeBody ('"' :: rest) text.toList

/-! ## Values -/

/-- What stands between the parts of a printed value. -/
structure Layout where
  /-- Before an element, or before a closing bracket, at a depth. -/
  line : Nat → List Char
  /-- Between a key's colon and its value. -/
  gap : List Char

/-- No space at all. -/
def Layout.compact : Layout where
  line _ := []
  gap := []

/-- A line for each element, indented by two spaces a level. -/
def Layout.indented : Layout where
  line depth := '\n' :: List.replicate (2 * depth) ' '
  gap := [' ']

mutual

/-- Writes a value that stands at `depth` in front of `rest`. -/
def write (layout : Layout) (depth : Nat) (rest : List Char) : Json → List Char
  | .null => "null".toList ++ rest
  | .bool true => "true".toList ++ rest
  | .bool false => "false".toList ++ rest
  | .number n => n.chars ++ rest
  | .string s => writeString s rest
  | .array [] => '[' :: ']' :: rest
  | .array (item :: items) =>
    '[' :: layout.line (depth + 1) ++ item.write layout (depth + 1)
      (writeItems layout (depth + 1) (layout.line depth ++ ']' :: rest) items)
  | .object [] => '\x7b' :: '\x7d' :: rest
  | .object ((key, value) :: fields) =>
    '\x7b' :: layout.line (depth + 1) ++ writeString key (':' :: layout.gap
      ++ value.write layout (depth + 1)
        (writeFields layout (depth + 1) (layout.line depth ++ '\x7d' :: rest) fields))

/-- Writes the elements after the first, each behind a comma, in front of `rest`. -/
def writeItems (layout : Layout) (depth : Nat) (rest : List Char) : List Json → List Char
  | [] => rest
  | item :: items =>
    ',' :: layout.line depth ++ item.write layout depth (writeItems layout depth rest items)

/-- Writes the fields after the first, each behind a comma, in front of `rest`. -/
def writeFields (layout : Layout) (depth : Nat) (rest : List Char) :
    List (String × Json) → List Char
  | [] => rest
  | (key, value) :: fields =>
    ',' :: layout.line depth ++ writeString key (':' :: layout.gap
      ++ value.write layout depth (writeFields layout depth rest fields))

end

/-- The text of a value in a layout. -/
def print (layout : Layout) (value : Json) : String :=
  String.ofList (value.write layout 0 [])

end SelectTree.Json
