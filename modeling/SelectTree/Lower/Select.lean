import SelectTree.Lower.Context
import SelectTree.Parse.Code

/-!
# Selects

The clauses of a SELECT statement. FROM items flatten into sources: a join follows the sources of
its left side and joins a single table to them.
-/

namespace SelectTree.Lower

open Query (Node Select Sources JoinKind)
open Parse (Coded JoinType SortDirection SubLinkKind)

/-! ## Joins -/

/-- The kind of join that a code stands for. -/
def joinKind (code : Int64) : Lower JoinKind :=
  match Coded.ofCode? code with
  | some JoinType.inner => return .inner
  | some JoinType.left => return .outer
  | some JoinType.full => return .fullOuter
  | some JoinType.right => return .rightOuter
  | some type => fail (.unsupportedConstruct .joinType (Coded.label type))
  | none => fail (.unsupportedConstruct .joinType (toString code))

/-- A join: the sources of its left side, then the table on its right side. -/
def join (attributes : NodeAttributes) : Lower Sources := do
  refuse (← attributes.flag "isNatural") (.unsupportedConstruct .join "NATURAL")
  refuse (attributes.contains "usingClause") (.unsupportedConstruct .join "USING")
  refuse (attributes.contains "alias") (.unsupportedConstruct .join "aliased join")
  let kind ← joinKind (← attributes.code "jointype")
  let left ← (← attributes.node "larg").source
  let right ← (← attributes.node "rarg").source
  match right.singleTable? with
  | none => fail (.unsupportedConstruct .join "join on the right-hand side")
  | some right =>
    let on ← optional (attributes.node? "quals")
    return left ++ [.joined { kind, right, on }]

/-! ## Orderings -/

/-- An ordering. Where nulls go cannot be chosen. -/
def ordering (attributes : NodeAttributes) : Lower Node := do
  let expr ← (← attributes.node "node").node {}
  let nulls ← attributes.code "sortby_nulls"
  refuse (nulls != 0) (.unsupportedConstruct .nullsOrdering (toString nulls))
  let code ← attributes.code "sortby_dir"
  match Coded.ofCode? code with
  | some SortDirection.default | some SortDirection.asc => return .order expr .asc
  | some SortDirection.desc => return .order expr .desc
  | some direction => fail (.unsupportedConstruct .sortDirection (Coded.label direction))
  | none => fail (.unsupportedConstruct .sortDirection (toString code))

/-! ## Selects -/

/-- The clauses that are refused, each with its keywords, in the order in which they are looked
for. -/
def refusedClauses : List (String × String) :=
  [("distinctClause", "DISTINCT"), ("intoClause", "INTO"), ("groupClause", "GROUP BY"),
    ("havingClause", "HAVING"), ("windowClause", "WINDOW"), ("valuesLists", "VALUES"),
    ("lockingClause", "FOR UPDATE"), ("withClause", "WITH")]

/-- Fails if a select has a clause that is refused, or is a set operation. -/
def refuseClauses (attributes : NodeAttributes) : Lower Unit := do
  match refusedClauses.find? (attributes.contains ·.1) with
  | some (_, keywords) => fail (.unsupportedConstruct .selectClause keywords)
  | none =>
    let operation ← attributes.code "op"
    refuse (operation != 0) (.unsupportedConstruct .setOperation (toString operation))

/-- The sources of a FROM clause. -/
def sources (attributes : NodeAttributes) : Lower Sources := do
  let items ← ((← attributes.list? "fromClause").getD []).mapM (·.source)
  return items.flatten

/-- A select, clause by clause. -/
def select (attributes : NodeAttributes) : Lower Select := do
  refuseClauses attributes
  let sources ← sources attributes
  let projections ← eachOf attributes "targetList"
  let filter ← optional (attributes.node? "whereClause")
  let orders ← eachOf attributes "sortClause"
  let limit ← optional (attributes.node? "limitCount")
  let offset ← optional (attributes.node? "limitOffset")
  note (.select projections.length sources.joins.length orders.length)
  return {
    source := sources.tables?
    projections
    wheres := filter.toList
    orders
    joins := sources.joins
    limit
    offset }

/-- How much deeper than its node a nested select stands. -/
def nestedWeight : Nat := 8

/-- A select inside another statement. -/
def nestedSelect (attributes : NodeAttributes) : Lower Node := do
  return .select (← descend nestedWeight (select attributes))

/-- A sub-link, which has to be a scalar sub-select. -/
def subLink (attributes : NodeAttributes) : Lower Node := do
  let code ← attributes.code "subLinkType"
  match Coded.ofCode? code with
  | some SubLinkKind.expr => (← attributes.node "subselect").node {}
  | _ => fail (.unsupportedSubquery code)

/-- A wrapped statement, in the context of its wrapper. -/
def wrapped (attributes : NodeAttributes) (context : Context) : Lower Node := do
  (← attributes.node "stmt").node context

end SelectTree.Lower
