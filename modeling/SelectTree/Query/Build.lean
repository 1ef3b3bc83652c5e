import SelectTree.Error
import SelectTree.Query.Basic

/-!
# Building query trees

Constructors of the nodes that have a shorter name, chains of disjunctions, and the steps by which a
select is put together clause by clause.
-/

namespace SelectTree.Query

namespace Node

/-! ## Comparisons -/

/-- `left = right`. -/
def eq (left right : Node) : Node :=
  .comparison .equality left right

/-- `left <> right`. -/
def notEq (left right : Node) : Node :=
  .comparison .notEqual left right

/-- `left > right`. -/
def gt (left right : Node) : Node :=
  .comparison .greaterThan left right

/-- `left < right`. -/
def lt (left right : Node) : Node :=
  .comparison .lessThan left right

/-- The comparison whose operator is written as `token`. -/
def compareBy (left : Node) (token : String) (right : Node) : Except Error Node :=
  match ComparisonOp.ofToken? token with
  | some op => .ok (.comparison op left right)
  | none => .error (.unsupportedOperator token)

/-- A test for null is an equality with null on the right. -/
def isNull (operand : Node) : Node :=
  operand.eq .null

/-- A test for non-null is an inequality with null on the right. -/
def isNotNull (operand : Node) : Node :=
  operand.notEq .null

/-- The operand of `op ANY`. -/
def any (operand : Node) : Node :=
  .function "ANY" [operand]

/-! ## Disjunctions -/

/-- The disjunction of all operands, nested to the right. No operands have none. -/
def orChain? : List Node → Option Node
  | [] => none
  | operand :: rest =>
    match orChain? rest with
    | none => some operand
    | some chain => some (.or operand chain)

theorem orChain?_eq_none_iff {operands : List Node} : orChain? operands = none ↔ operands = [] := by
  cases operands with
  | nil => simp [orChain?]
  | cons operand rest => cases h : orChain? rest <;> simp [orChain?, h]

/-- A chain is its only operand, or else its first operand and the chain of the others. -/
theorem orChain?_cons_eq_some_iff {operand chain : Node} {rest : List Node} :
    orChain? (operand :: rest) = some chain ↔
      (rest = [] ∧ chain = operand) ∨
        ∃ tail, orChain? rest = some tail ∧ chain = .or operand tail := by
  cases h : orChain? rest with
  | none => simp [orChain?, orChain?_eq_none_iff.mp h, eq_comm]
  | some tail =>
    have hrest : rest ≠ [] := fun hnil => by simp [hnil, orChain?] at h
    simp [orChain?, h, hrest, eq_comm]

/-! ## Plain text -/

/-- The plain text of a node: of literals, columns, integers and the star, and of nothing else. -/
def fragment? : Node → Option String
  | .literal text | .column text => some text
  | .integer value => some (toString value)
  | .star => some "*"
  | _ => none

end Node

/-! ## Selects -/

namespace Clauses

variable {ν : Type}

/-- Replaces the projections. -/
def project (clauses : Clauses ν) (projections : List ν) : Clauses ν :=
  { clauses with projections }

/-- Replaces the limit. -/
def setLimit (clauses : Clauses ν) (limit : Option ν) : Clauses ν :=
  { clauses with limit }

/-- Replaces the offset. -/
def setOffset (clauses : Clauses ν) (offset : Option ν) : Clauses ν :=
  { clauses with offset }

/-- Adds a condition. -/
def addWhere (clauses : Clauses ν) (condition : ν) : Clauses ν :=
  { clauses with wheres := clauses.wheres ++ [condition] }

/-- Adds an ordering after those that stand. -/
def addOrder (clauses : Clauses ν) (ordering : ν) : Clauses ν :=
  { clauses with orders := clauses.orders ++ [ordering] }

/-- Adds a join after those that stand. -/
def addJoin (clauses : Clauses ν) (join : Join ν) : Clauses ν :=
  { clauses with joins := clauses.joins ++ [join] }

end Clauses

/-- A step in building a select. -/
inductive Step where
  | project (projections : List Node)
  | limit (limit : Option Node)
  | offset (offset : Option Node)
  | where (condition : Node)
  | order (ordering : Node)
  | join (join : Join Node)

namespace Select

/-- Takes one step. -/
def apply (select : Select) : Step → Select
  | .project projections => select.project projections
  | .limit limit => select.setLimit limit
  | .offset offset => select.setOffset offset
  | .where condition => select.addWhere condition
  | .order ordering => select.addOrder ordering
  | .join join => select.addJoin join

/-- The select that a sequence of steps builds on a source. -/
def build (source : Option (List Table)) (steps : List Step) : Select :=
  steps.foldl apply { source }

/-- All conditions as one node: none, the only one, or the conjunction of all. -/
def filter? (select : Select) : Option Node :=
  match select.wheres with
  | [] => none
  | [only] => some only
  | all => some (.and all)

end Select

end SelectTree.Query
