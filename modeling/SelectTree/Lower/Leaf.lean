import SelectTree.Lower.Context
import SelectTree.Text.Quoted

/-!
# Literals, columns and tables

The nodes that name things: strings, integers, the star, constants, columns, aliases, tables, and
targets of a select list.
-/

namespace SelectTree.Lower

open Query (Node Table)

/-- A string: quoted as an identifier or as a constant, or bare as an operator. -/
def string (attributes : NodeAttributes) (context : Context) : Lower Node := do
  let text ← attributes.text "str"
  match context.literal with
  | .operator => return .literal text
  | .constant => return .literal (Text.quoted '\x27' text)
  | .identifier => return .literal (Text.quoted '"' text)

/-- An integer. -/
def integer (attributes : NodeAttributes) : Lower Node := do
  return .integer (← attributes.int "ival")

/-- A constant: its value, with a string read as a constant. -/
def constant (attributes : NodeAttributes) : Lower Node := do
  (← attributes.node "val").node { literal := .constant }

/-- A column: the texts of its fields with points between them. -/
def column (attributes : NodeAttributes) : Lower Node := do
  let fields ← (← attributes.list "fields").mapM (plainText · {} .columnField)
  return .column (".".intercalate fields)

/-- An alias, as it is written. -/
def aliasText (attributes : NodeAttributes) : Lower Node := do
  return .literal (← attributes.text "aliasname")

/-- A table, with its schema and alias if it has them. -/
def table (attributes : NodeAttributes) : Lower Node := do
  let name ← attributes.text "relname"
  let schema ← attributes.text? "schemaname"
  match attributes.node? "alias" with
  | none => return .table { name, schema }
  | some child =>
    let aliasName ← plainText child {} .tableAlias
    return .table { name, schema, aliasName }

/-- A target of a select list, under its name if it has one. -/
def target (attributes : NodeAttributes) : Lower Node := do
  let value ← (← attributes.node "val").node {}
  match ← attributes.text? "name" with
  | none => return value
  | some name => return .as value name

end SelectTree.Lower
