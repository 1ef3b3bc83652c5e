import SelectTree.Lower.Aggregate
import SelectTree.Lower.Leaf
import SelectTree.Lower.Predicate
import SelectTree.Lower.Select
import SelectTree.Parse.Fold

/-!
# Lowering a node

Which rule lowers which kind of node, and the lowering of a whole parse tree: a fold in which every
attribute stands for what it lowers to as a child. `node_tagged` and `source_tagged` unfold it to
the rules.
-/

namespace SelectTree.Lower

open Query (Node Sources)
open Parse (Kind tagFault)

/-! ## Rules -/

/-- Lowers a node of a known kind. A join has no place in an expression. -/
@[simp] def ofKind (kind : Kind) (attributes : NodeAttributes) (context : Context) : Lower Node :=
  match kind with
  | .string => string attributes context
  | .integer => integer attributes
  | .columnRef => column attributes
  | .resTarget => target attributes
  | .subLink => subLink attributes
  | .aliasClause => aliasText attributes
  | .rangeVar => table attributes
  | .aExpr => operation attributes
  | .aConst => constant attributes
  | .joinExpr => fail (.misplaced kind .expression)
  | .funcCall => aggregate attributes
  | .selectStmt => nestedSelect attributes
  | .aStar => return .star
  | .rawStmt => wrapped attributes context
  | .sortBy => ordering attributes
  | .nullTest => nullTest attributes
  | .boolExpr => boolean attributes context
  | kind => fail (.unsupportedKind kind)

/-- Lowers a tagged node. -/
def ofTag (attributes : NodeAttributes) (context : Context) : Lower Node :=
  match Kind.ofTag? attributes.tag with
  | none => fail (.unknownKind attributes.tag)
  | some kind => ofKind kind attributes context

/-- The sources of a tagged FROM item: a join, or a node that lowers to a table. -/
def sourceOfTag (attributes : NodeAttributes) : Lower Sources :=
  match Kind.ofTag? attributes.tag with
  | some .joinExpr => descend 1 (join attributes)
  | some kind => do
    match ← descend 1 (ofKind kind attributes {}) with
    | .table table => return [.base table]
    | _ => fail (.misplaced kind .fromClause)
  | none => descend 1 (fail (.unknownKind attributes.tag))

/-! ## Parse trees -/

/-- A tagged node as a child. -/
def taggedChild (attributes : NodeAttributes) : Child where
  node context := descend 1 (ofTag attributes context)
  source := sourceOfTag attributes

/-- A value that is no tagged node, as a child: it can only fail. -/
def untaggedChild (value : Json) : Child where
  node _ := descend 1 (fail (tagFault value))
  source := fail (tagFault value)

/-- A parse tree as a child. -/
def child : Json → Child :=
  Parse.fold taggedChild untaggedChild

/-- Lowers a parse tree to a query node. -/
def node (value : Json) (context : Context) : Lower Node :=
  (child value).node context

/-- Lowers a FROM item to its sources. -/
def source (value : Json) : Lower Sources :=
  (child value).source

/-! ## Unfolding -/

/-- A value is a tagged node, or a child that can only fail. -/
theorem tagged_or_untagged (value : Json) :
    (∃ tag fields, value = .object [(tag, .object fields)]) ∨
      child value = untaggedChild value := by
  by_cases h : ∃ tag fields, value = .object [(tag, .object fields)]
  · exact .inl h
  · exact .inr (Parse.fold_untagged fun tag fields heq => h ⟨tag, fields, heq⟩)

theorem child_tagged (tag : String) (fields : Json.Fields) :
    child (.object [(tag, .object fields)]) = taggedChild (.of child tag fields) :=
  Parse.fold_tagged tag fields

/-- A tagged node is lowered by the rule for its tag, its attributes read as children. -/
theorem node_tagged (tag : String) (fields : Json.Fields) (context : Context) :
    node (.object [(tag, .object fields)]) context =
      descend 1 (ofTag (.of child tag fields) context) := by
  rw [node, child_tagged]
  rfl

/-- Lowering a value starts with a step down. -/
theorem exists_descend_node (value : Json) (context : Context) :
    ∃ step, node value context = descend 1 step := by
  rcases tagged_or_untagged value with ⟨tag, fields, rfl⟩ | hchild
  · exact ⟨_, node_tagged tag fields context⟩
  · rw [node, hchild]
    exact ⟨_, rfl⟩

/-- A tagged FROM item is lowered by the rule for its tag, its attributes read as children. -/
theorem source_tagged (tag : String) (fields : Json.Fields) :
    source (.object [(tag, .object fields)]) = sourceOfTag (.of child tag fields) := by
  rw [source, child_tagged]
  rfl

end SelectTree.Lower
