/-!
# Node kinds

The vocabulary of tags in a parse tree. A parse tree may hold nodes of other kinds; those named
here are told apart from them, and the first seventeen can be lowered.
-/

namespace SelectTree.Parse

/-- The kind of a parse node. -/
inductive Kind where
  | string
  | integer
  | columnRef
  | resTarget
  | subLink
  | aliasClause
  | rangeVar
  | aExpr
  | aConst
  | joinExpr
  | funcCall
  | selectStmt
  | aStar
  | rawStmt
  | sortBy
  | nullTest
  | boolExpr
  | float
  | null
  | bitString
  | paramRef
  | typeCast
  | caseExpr
  | coalesceExpr
  | minMaxExpr
  | booleanTest
  | rowExpr
  | aArrayExpr
  | aIndirection
  | rangeSubselect
  | rangeFunction
  | withClause
  | commonTableExpr
  | insertStmt
  | updateStmt
  | deleteStmt
  | createStmt
  | dropStmt
  | alterTableStmt
  | truncateStmt
deriving DecidableEq

namespace Kind

/-- All kinds, those that can be lowered first. -/
def all : List Kind :=
  [.string, .integer, .columnRef, .resTarget, .subLink, .aliasClause, .rangeVar, .aExpr, .aConst,
    .joinExpr, .funcCall, .selectStmt, .aStar, .rawStmt, .sortBy, .nullTest, .boolExpr, .float,
    .null, .bitString, .paramRef, .typeCast, .caseExpr, .coalesceExpr, .minMaxExpr, .booleanTest,
    .rowExpr, .aArrayExpr, .aIndirection, .rangeSubselect, .rangeFunction, .withClause,
    .commonTableExpr, .insertStmt, .updateStmt, .deleteStmt, .createStmt, .dropStmt,
    .alterTableStmt, .truncateStmt]

/-- The tag of a kind. -/
def tag : Kind → String
  | .string => "String"
  | .integer => "Integer"
  | .columnRef => "ColumnRef"
  | .resTarget => "ResTarget"
  | .subLink => "SubLink"
  | .aliasClause => "Alias"
  | .rangeVar => "RangeVar"
  | .aExpr => "A_Expr"
  | .aConst => "A_Const"
  | .joinExpr => "JoinExpr"
  | .funcCall => "FuncCall"
  | .selectStmt => "SelectStmt"
  | .aStar => "A_Star"
  | .rawStmt => "RawStmt"
  | .sortBy => "SortBy"
  | .nullTest => "NullTest"
  | .boolExpr => "BoolExpr"
  | .float => "Float"
  | .null => "Null"
  | .bitString => "BitString"
  | .paramRef => "ParamRef"
  | .typeCast => "TypeCast"
  | .caseExpr => "CaseExpr"
  | .coalesceExpr => "CoalesceExpr"
  | .minMaxExpr => "MinMaxExpr"
  | .booleanTest => "BooleanTest"
  | .rowExpr => "RowExpr"
  | .aArrayExpr => "A_ArrayExpr"
  | .aIndirection => "A_Indirection"
  | .rangeSubselect => "RangeSubselect"
  | .rangeFunction => "RangeFunction"
  | .withClause => "WithClause"
  | .commonTableExpr => "CommonTableExpr"
  | .insertStmt => "InsertStmt"
  | .updateStmt => "UpdateStmt"
  | .deleteStmt => "DeleteStmt"
  | .createStmt => "CreateStmt"
  | .dropStmt => "DropStmt"
  | .alterTableStmt => "AlterTableStmt"
  | .truncateStmt => "TruncateStmt"

/-- The kind that has a tag. -/
def ofTag? (tag : String) : Option Kind :=
  all.find? (·.tag = tag)

theorem mem_all (kind : Kind) : kind ∈ all := by
  cases kind <;> decide

theorem ofTag?_tag (kind : Kind) : ofTag? kind.tag = some kind := by
  have h : ∀ kind ∈ all, ofTag? kind.tag = some kind := by decide +kernel
  exact h kind (mem_all kind)

/-- A tag names one kind at most. -/
theorem ofTag?_eq_some_iff {tag : String} {kind : Kind} :
    ofTag? tag = some kind ↔ kind.tag = tag := by
  refine ⟨fun h => ?_, fun h => h ▸ ofTag?_tag kind⟩
  simpa using List.find?_some h

/-- Whether nodes of a kind can be lowered. -/
def isSupported : Kind → Bool
  | .string | .integer | .columnRef | .resTarget | .subLink | .aliasClause | .rangeVar | .aExpr
  | .aConst | .joinExpr | .funcCall | .selectStmt | .aStar | .rawStmt | .sortBy | .nullTest
  | .boolExpr => true
  | _ => false

end Kind

end SelectTree.Parse
