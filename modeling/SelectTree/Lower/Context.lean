import SelectTree.Lower.Basic
import SelectTree.Query.Build
import SelectTree.Query.Sources

/-!
# Contexts and child nodes

How a node is lowered can depend on where it stands: a string can be an identifier, an operator or a
constant, and a boolean expression inside another one is put in parentheses. A node chooses the
context of each of its children afresh.
-/

namespace SelectTree

open Query (Node Sources)

/-- What the string of a String node is. -/
inductive LiteralMode where
  | identifier
  | operator
  | constant
deriving DecidableEq

/-- Where a node stands. -/
structure Context where
  literal : LiteralMode := .identifier
  /-- Whether the node is an operand of a boolean expression. -/
  nested : Bool := false
deriving DecidableEq

/-- A child node, by what it lowers to: a query node in a context, or sources of a FROM clause. -/
structure Child where
  node : Context → Lower Node
  source : Lower Sources

/-- The attributes of a node that is being lowered. -/
abbrev NodeAttributes := Parse.Attributes Child

namespace Lower

/-- The plain text of a child. -/
def plainText (child : Child) (context : Context) (role : TextRole) : Lower String := do
  match (← child.node context).fragment? with
  | some text => return text
  | none => fail (.notPlainText role)

/-- All children, in order. -/
def each (children : List Child) (context : Context := {}) : Lower (List Node) :=
  children.mapM (·.node context)

/-- A child that may be absent. -/
def optional : Option Child → Lower (Option Node)
  | none => return none
  | some child => return some (← child.node {})

/-- The elements of a list attribute; an absent list is empty. -/
def eachOf (attributes : NodeAttributes) (key : String) : Lower (List Node) := do
  each ((← attributes.list? key).getD [])

/-- The first element of a list attribute, which may not be empty, as an operator's text. -/
def firstName (attributes : NodeAttributes) (key : String) (role : TextRole) : Lower String := do
  match ← attributes.list key with
  | [] => fail (attributes.blame key .empty)
  | name :: _ => plainText name { literal := .operator } role

end Lower

end SelectTree
