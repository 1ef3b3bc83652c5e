import SelectTree.Query.Basic

/-!
# FROM sources

A FROM clause flattens to a list of sources: a base table starts an item, and a join follows the
sources it is joined to.
-/

namespace SelectTree.Query

/-- A source of a FROM clause. -/
inductive Source where
  /-- A table that starts an item. -/
  | base (table : Table)
  /-- A join onto the sources before it. -/
  | joined (join : Join Node)

/-- The sources of a FROM clause, in order. -/
abbrev Sources := List Source

namespace Source

/-- The table of a base source. -/
def table? : Source → Option Table
  | .base table => some table
  | .joined _ => none

/-- The join of a joined source. -/
def join? : Source → Option (Join Node)
  | .base _ => none
  | .joined join => some join

end Source

namespace Sources

/-- The table, if the sources are one base table and nothing else. -/
def singleTable? : Sources → Option Table
  | [.base table] => some table
  | _ => none

/-- The base tables in order, if there are any. -/
def tables? (sources : Sources) : Option (List Table) :=
  match sources.filterMap Source.table? with
  | [] => none
  | tables => some tables

/-- The joins in order. -/
def joins (sources : Sources) : List (Join Node) :=
  sources.filterMap Source.join?

end Sources

end SelectTree.Query
