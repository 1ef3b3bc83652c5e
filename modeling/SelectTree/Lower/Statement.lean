import SelectTree.Lower.Node
import SelectTree.Parse.Result

/-!
# Lowering statements

From a statement, from a parse result, and from SQL text with the help of a parser, to a select.
-/

namespace SelectTree.Lower

open Query (Select)
open Parse (Kind)

/-- Lowers a statement, which has to be a SELECT. -/
def statement (value : Json) : Lower Select := do
  let attributes ← Parse.readTag child value
  if Kind.ofTag? attributes.tag = some .selectStmt then
    note (.statement attributes.tag)
    descend 1 (select attributes)
  else fail (.unsupportedStatement attributes.tag)

/-- The first statement of a parse result. Statements after it are left out with a warning. -/
def firstStatement (result : Json) : Lower Json := do
  let statements ← Parse.statements result
  if 1 < statements.length then note (.extraStatements statements.length)
  match statements with
  | [] => fail .noStatements
  | first :: _ =>
    note (.firstStatement (Parse.peekTag? first))
    return first

/-- Lowers the first statement of a parse result. -/
def tree (result : Json) : Lower Select := do
  statement (← firstStatement result)

/-- A parser of SQL text: it answers with a parse result or with why there is none. -/
abbrev Parser := String → Except String Json

/-- Parses SQL text and lowers its first statement. -/
def parse (parser : Parser) (sql : String) : Lower Select :=
  match parser sql with
  | .error cause => fail (.parser cause)
  | .ok result => tree result

end SelectTree.Lower
