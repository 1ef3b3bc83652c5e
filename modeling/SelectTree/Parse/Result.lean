import SelectTree.Parse.Node

/-!
# Parse results

A parser answers with a list of statements, bare or as the `stmts` of an object. An entry of the
list is a statement, or wraps one: under `stmt`, or under the `stmt` of a `RawStmt`.
-/

namespace SelectTree.Parse

/-- The entries of a parse result. -/
def entries : Json → Except Error (List Json)
  | .array entries => .ok entries
  | .object fields =>
    match fields.lookup "stmts" with
    | some (.array entries) => .ok entries
    | some _ => .error .statementsShape
    | none => .error .noStatementList
  | _ => .error .noStatementList

/-- The statement that an entry holds. A `RawStmt` must hold one that is not `null`. -/
def unwrap (entry : Json) : Except Error Json :=
  match entry.get? "stmt" with
  | some statement => .ok statement
  | none =>
    match entry.get? "RawStmt" with
    | none => .ok entry
    | some raw =>
      match raw.get? "stmt" with
      | none | some .null => .error (.invalidAttribute Kind.rawStmt.tag "stmt" .missing)
      | some statement => .ok statement

/-- The statements of a parse result. One bad entry spoils them all. -/
def statements (result : Json) : Except Error (List Json) := do
  (← entries result).mapM unwrap

end SelectTree.Parse
