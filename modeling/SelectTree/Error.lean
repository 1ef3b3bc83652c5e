import SelectTree.Json.Basic
import SelectTree.Parse.Kind

/-!
# Errors

Why a parse tree cannot be lowered. Each cause is a constructor; `Error.kind` sorts the causes into
the nine groups that callers tell apart, and `Error.message` words them.
-/

namespace SelectTree

/-- What is wrong with an attribute. -/
inductive Problem where
  | missing
  | empty
  | nonArray (found : Json.Shape)
  | nonString (found : Json.Shape)
  | nonInteger (found : Json.Shape)
  | nonBoolean (found : Json.Shape)
deriving DecidableEq

/-- A problem in words, as an attribute is described by them. -/
def Problem.phrase : Problem → String
  | .missing => "missing"
  | .empty => "an empty"
  | .nonArray _ => "a non-array"
  | .nonString _ => "a non-string"
  | .nonInteger _ => "a non-integer"
  | .nonBoolean _ => "a non-boolean"

/-- The shape that was found instead of the right one. -/
def Problem.found? : Problem → Option Json.Shape
  | .missing | .empty => none
  | .nonArray found | .nonString found | .nonInteger found | .nonBoolean found => some found

/-- The positions that a node can be out of place in. -/
inductive Position where
  | expression
  | fromClause
deriving DecidableEq

/-- A position in words. -/
def Position.phrase : Position → String
  | .expression => "an expression"
  | .fromClause => "a FROM clause"

/-- The parts of a node that have to be plain text. -/
inductive TextRole where
  | columnField
  | tableAlias
  | operatorName
  | functionName
deriving DecidableEq

/-- A role in words. -/
def TextRole.phrase : TextRole → String
  | .columnField => "ColumnRef field"
  | .tableAlias => "table alias"
  | .operatorName => "operator name"
  | .functionName => "function name"

/-- The constructs of SQL of which only some forms are supported. -/
inductive Construct where
  | expressionKind
  | booleanOperator
  | nullTest
  | windowFunction
  | aggregateFilter
  | orderedAggregate
  | nullsOrdering
  | sortDirection
  | selectClause
  | setOperation
  | join
  | joinType
deriving DecidableEq

/-- A construct in words. -/
def Construct.phrase : Construct → String
  | .expressionKind => "expression kind"
  | .booleanOperator => "boolean operator"
  | .nullTest => "null test"
  | .windowFunction => "window function"
  | .aggregateFilter => "aggregate FILTER clause"
  | .orderedAggregate => "ordered aggregate"
  | .nullsOrdering => "NULLS ordering"
  | .sortDirection => "sort direction"
  | .selectClause => "SELECT clause"
  | .setOperation => "set operation"
  | .join => "join"
  | .joinType => "join type"

/-- Why a parse tree cannot be lowered. -/
inductive Error where
  /-- A node is not an object. -/
  | untagged (found : Json.Shape)
  /-- A node is an object with a number of keys other than one. -/
  | tagCount (count : Nat)
  /-- The value under a node's tag is not an object. -/
  | attributesShape (tag : String) (found : Json.Shape)
  /-- A parse result is neither an array nor an object with `stmts`. -/
  | noStatementList
  /-- The `stmts` of a parse result are not an array. -/
  | statementsShape
  /-- A part that has to be plain text is not. -/
  | notPlainText (role : TextRole)
  /-- A negation has a number of operands other than one. -/
  | negationArity (count : Nat)
  /-- An attribute is missing, empty, or of the wrong shape. -/
  | invalidAttribute (kind key : String) (problem : Problem)
  /-- A node stands where its kind cannot. -/
  | misplaced (kind : Parse.Kind) (position : Position)
  /-- A parse result holds no statements. -/
  | noStatements
  /-- A tag is outside the vocabulary. -/
  | unknownKind (tag : String)
  /-- A node is of a kind that cannot be lowered. -/
  | unsupportedKind (kind : Parse.Kind)
  /-- An operator is none of the comparison operators. -/
  | unsupportedOperator (token : String)
  /-- A function is none of the aggregate functions. -/
  | unsupportedFunction (name : String)
  /-- A sub-link is of a type other than a scalar sub-select. -/
  | unsupportedSubquery (code : Int64)
  /-- A statement is not a SELECT. -/
  | unsupportedStatement (tag : String)
  /-- A construct has a form that is not supported. -/
  | unsupportedConstruct (construct : Construct) (detail : String)
  /-- The parse tree nests deeper than the limit. -/
  | depthExceeded (limit : UInt64)
  /-- The SQL text could not be parsed. -/
  | parser (cause : String)
deriving DecidableEq

/-- The groups of errors that callers tell apart. -/
inductive ErrorKind where
  | malformedNode
  | unsupportedNodeKind
  | unsupportedOperator
  | unsupportedFunction
  | unsupportedSubquery
  | unsupportedStatementKind
  | unsupportedConstruct
  | depthExceeded
  | parser
deriving DecidableEq

/-- The name of a group of errors. -/
def ErrorKind.name : ErrorKind → String
  | .malformedNode => "malformed_node"
  | .unsupportedNodeKind => "unsupported_node_kind"
  | .unsupportedOperator => "unsupported_operator"
  | .unsupportedFunction => "unsupported_function"
  | .unsupportedSubquery => "unsupported_subquery"
  | .unsupportedStatementKind => "unsupported_statement_kind"
  | .unsupportedConstruct => "unsupported_construct"
  | .depthExceeded => "depth_exceeded"
  | .parser => "parser"

namespace Error

/-- The group that an error belongs to. -/
def kind : Error → ErrorKind
  | .untagged _ | .tagCount _ | .attributesShape .. | .noStatementList | .statementsShape
  | .notPlainText _ | .negationArity _ | .invalidAttribute .. | .misplaced .. | .noStatements =>
    .malformedNode
  | .unknownKind _ | .unsupportedKind _ => .unsupportedNodeKind
  | .unsupportedOperator _ => .unsupportedOperator
  | .unsupportedFunction _ => .unsupportedFunction
  | .unsupportedSubquery _ => .unsupportedSubquery
  | .unsupportedStatement _ => .unsupportedStatementKind
  | .unsupportedConstruct .. => .unsupportedConstruct
  | .depthExceeded _ => .depthExceeded
  | .parser _ => .parser

/-- An error in words. -/
def message : Error → String
  | .untagged found => "malformed parse node: expected a tagged object, found " ++ found.phrase
  | .tagCount count =>
    "malformed parse node: expected exactly one tag, found " ++ toString count ++ " keys"
  | .attributesShape tag found =>
    "malformed parse node: attributes of " ++ tag ++ " must be an object, found " ++ found.phrase
  | .noStatementList => "malformed parse node: expected a statement list"
  | .statementsShape => "malformed parse node: `stmts` must be an array"
  | .notPlainText role =>
    "malformed parse node: " ++ role.phrase ++ " does not reduce to plain text"
  | .negationArity count =>
    "malformed parse node: NOT takes exactly one argument, found " ++ toString count
  | .invalidAttribute kind key problem =>
    kind ++ " node has " ++ problem.phrase ++ " attribute '" ++ key ++ "'"
  | .misplaced kind position => kind.tag ++ " node cannot appear in " ++ position.phrase
  | .noStatements => "parse tree contains no statements"
  | .unknownKind tag => "unknown node kind `" ++ tag ++ "`"
  | .unsupportedKind kind => "node kind `" ++ kind.tag ++ "` is not supported"
  | .unsupportedOperator token => "unsupported operator `" ++ token ++ "`"
  | .unsupportedFunction name => "unsupported function `" ++ name ++ "`"
  | .unsupportedSubquery code => "unsupported sub-link type " ++ toString code
  | .unsupportedStatement tag => "unsupported statement kind `" ++ tag ++ "`"
  | .unsupportedConstruct construct detail =>
    "unsupported " ++ construct.phrase ++ ": " ++ detail
  | .depthExceeded limit => "parse tree nesting exceeds the limit of " ++ toString limit
  | .parser cause => "parser error: " ++ cause

end Error

end SelectTree
