/-!
# Query trees

What a SELECT statement is lowered to: tables, expression nodes, and the clauses of a select. A
select can stand inside a node as a sub-select, so clauses and joins are stated over any type of
node and nodes hold clauses over themselves.
-/

namespace SelectTree.Query

/-! ## Tables -/

/-- A table of a FROM clause. -/
structure Table where
  name : String
  schema : Option String := none
  aliasName : Option String := none
deriving DecidableEq

/-- The name that the rest of a query refers to: the alias, or else the table's own name. -/
def Table.displayName (table : Table) : String :=
  table.aliasName.getD table.name

/-! ## Comparison operators -/

/-- The six comparison operators. -/
inductive ComparisonOp where
  | equality
  | notEqual
  | greaterThan
  | greaterThanOrEqual
  | lessThan
  | lessThanOrEqual
deriving DecidableEq

namespace ComparisonOp

/-- All comparison operators. -/
def all : List ComparisonOp :=
  [.equality, .notEqual, .greaterThan, .greaterThanOrEqual, .lessThan, .lessThanOrEqual]

/-- The name of an operator in a query tree. -/
def name : ComparisonOp → String
  | .equality => "Equality"
  | .notEqual => "NotEqual"
  | .greaterThan => "GreaterThan"
  | .greaterThanOrEqual => "GreaterThanOrEqual"
  | .lessThan => "LessThan"
  | .lessThanOrEqual => "LessThanOrEqual"

/-- The operator as it is written in SQL. -/
def token : ComparisonOp → String
  | .equality => "="
  | .notEqual => "<>"
  | .greaterThan => ">"
  | .greaterThanOrEqual => ">="
  | .lessThan => "<"
  | .lessThanOrEqual => "<="

/-- The operator written as `token`. -/
def ofToken? (token : String) : Option ComparisonOp :=
  all.find? (·.token = token)

end ComparisonOp

/-! ## Joins, orders, aggregates -/

/-- The kinds of join. -/
inductive JoinKind where
  | inner
  | outer
  | fullOuter
  | rightOuter
deriving DecidableEq

namespace JoinKind

/-- All kinds of join. -/
def all : List JoinKind :=
  [.inner, .outer, .fullOuter, .rightOuter]

/-- The name of a kind of join in a query tree. -/
def name : JoinKind → String
  | .inner => "Inner"
  | .outer => "Outer"
  | .fullOuter => "FullOuter"
  | .rightOuter => "RightOuter"

/-- The keywords of a join. -/
def keywords : JoinKind → String
  | .inner => "INNER JOIN"
  | .outer => "LEFT OUTER JOIN"
  | .fullOuter => "FULL OUTER JOIN"
  | .rightOuter => "RIGHT OUTER JOIN"

/-- The kind of join that has a name. -/
def ofName? (name : String) : Option JoinKind :=
  all.find? (·.name = name)

end JoinKind

/-- The directions of an ordering. -/
inductive Direction where
  | asc
  | desc
deriving DecidableEq

namespace Direction

/-- Both directions. -/
def all : List Direction :=
  [.asc, .desc]

/-- The name of a direction in a query tree. -/
def name : Direction → String
  | .asc => "Asc"
  | .desc => "Desc"

/-- The keyword of a direction. -/
def keyword : Direction → String
  | .asc => "ASC"
  | .desc => "DESC"

/-- The direction that has a name. -/
def ofName? (name : String) : Option Direction :=
  all.find? (·.name = name)

end Direction

/-- The aggregate functions. -/
inductive AggregateFunction where
  | sum
  | count
deriving DecidableEq

namespace AggregateFunction

/-- All aggregate functions. -/
def all : List AggregateFunction :=
  [.sum, .count]

/-- The name of an aggregate function in a query tree. -/
def name : AggregateFunction → String
  | .sum => "Sum"
  | .count => "Count"

/-- The name of an aggregate function as statements call it. -/
def callName : AggregateFunction → String
  | .sum => "sum"
  | .count => "count"

/-- The keyword of an aggregate function. -/
def keyword : AggregateFunction → String
  | .sum => "SUM"
  | .count => "COUNT"

/-- The aggregate function that statements call by `name`; case matters. -/
def ofCallName? (name : String) : Option AggregateFunction :=
  all.find? (·.callName = name)

end AggregateFunction

/-! ## Clauses and nodes -/

/-- A join: a table joined to whatever stands before it. -/
structure Join (ν : Type) where
  kind : JoinKind
  right : Table
  on : Option ν := none
deriving DecidableEq

/-- The clauses of a select. -/
structure Clauses (ν : Type) where
  source : Option (List Table) := none
  projections : List ν := []
  wheres : List ν := []
  orders : List ν := []
  joins : List (Join ν) := []
  limit : Option ν := none
  offset : Option ν := none
deriving DecidableEq

/-- A node of a query tree. -/
inductive Node where
  /-- A table. -/
  | table (table : Table)
  /-- A column, by its full text. -/
  | column (text : String)
  /-- A piece of SQL text that is taken as it is. -/
  | literal (text : String)
  /-- An integer constant. -/
  | integer (value : Int64)
  /-- The null value. -/
  | null
  /-- The star of `SELECT *`. -/
  | star
  /-- An expression with an alias. -/
  | as (expr : Node) (aliasName : String)
  /-- A comparison. -/
  | comparison (op : ComparisonOp) (left right : Node)
  /-- Membership in a list, or its negation. -/
  | inList (expr : Node) (list : List Node) (negated : Bool)
  /-- A conjunction of any number of operands. -/
  | and (operands : List Node)
  /-- A disjunction of two operands. -/
  | or (left right : Node)
  /-- A negation. -/
  | not (operand : Node)
  /-- An expression in parentheses. -/
  | grouping (expr : Node)
  /-- A call of a function by its name. -/
  | function (name : String) (args : List Node)
  /-- A call of an aggregate function. -/
  | aggregate (function : AggregateFunction) (args : List Node) (distinct : Bool)
  /-- An expression to order by. -/
  | order (expr : Node) (direction : Direction)
  /-- A sub-select. -/
  | select (clauses : Clauses Node)

/-- A select over nodes. -/
abbrev Select := Clauses Node

end SelectTree.Query
