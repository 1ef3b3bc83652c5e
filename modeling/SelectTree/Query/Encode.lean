import SelectTree.Json.Basic
import SelectTree.Query.Sources

/-!
# The JSON form of query trees

A node is written as its constructor's name, alone if it holds nothing and otherwise as the only key
of an object. Records are objects with their fields in declaration order; a missing part is `null`.
-/

namespace SelectTree.Query

/-- An optional text, `null` standing for none. -/
def textOrNull : Option String → Json
  | none => .null
  | some text => .string text

/-- The JSON form of a table. -/
def Table.toJson (table : Table) : Json :=
  .object [("name", .string table.name), ("schema", textOrNull table.schema),
    ("alias", textOrNull table.aliasName)]

/-- The JSON form of the base tables of a select. -/
def tablesToJson : Option (List Table) → Json
  | none => .null
  | some tables => .array (tables.map Table.toJson)

mutual

/-- The JSON form of a node. -/
def Node.toJson : Node → Json
  | .table table => .object [("Table", table.toJson)]
  | .column text => .object [("Column", .string text)]
  | .literal text => .object [("SqlLiteral", .string text)]
  | .integer value => .object [("Integer", .ofInt64 value)]
  | .null => .string "Null"
  | .star => .string "Star"
  | .as expr aliasName =>
    .object [("As", .object [("expr", expr.toJson), ("alias", .string aliasName)])]
  | .comparison op left right =>
    .object [("Comparison",
      .object [("op", .string op.name), ("left", left.toJson), ("right", right.toJson)])]
  | .inList expr list negated =>
    .object [("In", .object [("expr", expr.toJson), ("list", .array (nodesToJson list)),
      ("negated", .bool negated)])]
  | .and operands => .object [("And", .array (nodesToJson operands))]
  | .or left right => .object [("Or", .array [left.toJson, right.toJson])]
  | .not operand => .object [("Not", operand.toJson)]
  | .grouping expr => .object [("Grouping", expr.toJson)]
  | .function name args =>
    .object [("NamedFunction",
      .object [("name", .string name), ("args", .array (nodesToJson args))])]
  | .aggregate function args distinct =>
    .object [("Aggregate", .object [("function", .string function.name),
      ("args", .array (nodesToJson args)), ("distinct", .bool distinct)])]
  | .order expr direction =>
    .object [("Order",
      .object [("expr", expr.toJson), ("direction", .string direction.name)])]
  | .select clauses => .object [("Select", clausesToJson clauses)]

/-- The JSON forms of nodes. -/
def nodesToJson : List Node → List Json
  | [] => []
  | node :: nodes => node.toJson :: nodesToJson nodes

/-- The JSON form of an optional node, `null` standing for none. -/
def nodeOrNull : Option Node → Json
  | none => .null
  | some node => node.toJson

/-- The JSON form of a join. -/
def joinToJson : Join Node → Json
  | ⟨kind, right, on⟩ =>
    .object [("kind", .string kind.name), ("right", right.toJson), ("on", nodeOrNull on)]

/-- The JSON forms of joins. -/
def joinsToJson : List (Join Node) → List Json
  | [] => []
  | join :: joins => joinToJson join :: joinsToJson joins

/-- The JSON form of a select. -/
def clausesToJson : Clauses Node → Json
  | ⟨source, projections, wheres, orders, joins, limit, offset⟩ =>
    .object [("source", tablesToJson source), ("projections", .array (nodesToJson projections)),
      ("wheres", .array (nodesToJson wheres)), ("orders", .array (nodesToJson orders)),
      ("joins", .array (joinsToJson joins)), ("limit", nodeOrNull limit),
      ("offset", nodeOrNull offset)]

end

/-- The JSON form of a select. -/
def Select.toJson (select : Select) : Json :=
  clausesToJson select

/-- The JSON form of a source. -/
def Source.toJson : Source → Json
  | .base table => .object [("Base", table.toJson)]
  | .joined join => .object [("Join", joinToJson join)]

end SelectTree.Query
