import SelectTree.Lower.Context
import SelectTree.Parse.Code

/-!
# Predicates

Operator expressions, boolean expressions and null tests.
-/

namespace SelectTree.Lower

open Query (Node)
open Parse (Coded ExprKind BoolOp NullTestKind)

/-- The comparison of two nodes by the operator that a node names. -/
def compareBy (attributes : NodeAttributes) (left right : Node) : Lower Node := do
  left.compareBy (← firstName attributes "name" .operatorName) right

/-- An operator expression: a comparison, a comparison with any element, or membership in a list.
Membership under the operator `<>` is negated. -/
def operation (attributes : NodeAttributes) : Lower Node := do
  let code ← attributes.code "kind"
  match Coded.ofCode? code with
  | none => fail (.unsupportedConstruct .expressionKind (toString code))
  | some ExprKind.op =>
    let left ← (← attributes.node "lexpr").node {}
    let right ← (← attributes.node "rexpr").node {}
    compareBy attributes left right
  | some ExprKind.opAny =>
    let left ← (← attributes.node "lexpr").node {}
    let right ← (← attributes.node "rexpr").node {}
    compareBy attributes left right.any
  | some ExprKind.inList =>
    let expr ← (← attributes.node "lexpr").node {}
    let list ← each (← attributes.list "rexpr")
    let token ← firstName attributes "name" .operatorName
    return .inList expr list (token = "<>")
  | some kind => fail (.unsupportedConstruct .expressionKind (Coded.label kind))

/-- A boolean operator applied to operands. -/
def connective (attributes : NodeAttributes) (op : BoolOp) (operands : List Node) :
    Lower Node :=
  match op, operands with
  | .and, [] => fail (attributes.blame "args" .empty)
  | .and, operands => return .and operands
  | .or, operands =>
    match Node.orChain? operands with
    | some chain => return chain
    | none => fail (attributes.blame "args" .empty)
  | .not, [operand] => return .not operand
  | .not, operands => fail (.negationArity operands.length)

/-- A boolean expression; inside another one it is put in parentheses. -/
def boolean (attributes : NodeAttributes) (context : Context) : Lower Node := do
  let code ← attributes.code "boolop"
  match Coded.ofCode? code with
  | none => fail (.unsupportedConstruct .booleanOperator (toString code))
  | some op =>
    let operands ← each (← attributes.list "args") { nested := true }
    let expr ← connective attributes op operands
    return if context.nested then .grouping expr else expr

/-- A null test. -/
def nullTest (attributes : NodeAttributes) : Lower Node := do
  let operand ← (← attributes.node "arg").node {}
  let code ← attributes.code "nulltesttype"
  match Coded.ofCode? code with
  | some NullTestKind.isNull => return operand.isNull
  | some NullTestKind.isNotNull => return operand.isNotNull
  | none => fail (.unsupportedConstruct .nullTest (toString code))

end SelectTree.Lower
