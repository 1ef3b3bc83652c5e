import SelectTree.Proofs.Answer

/-!
# The rules of lowering

What a parse tree is lowered to, read as rules: `Rule` says for a node of each kind which query node
it becomes, in terms of what its children become, and `SourceRule` does the same for the items of a
FROM clause. That lowering follows these rules and no others is shown in `Rules.Exact`, so that
proofs about its results go by cases over the rules and never open a step of lowering.
-/

namespace SelectTree.Lower

open Parse (Attributes Coded HasCode HasFlag Kind present? raw tagged)
open Query (AggregateFunction ComparisonOp Direction Join JoinKind Node Select Source Sources Table)

/-! ## What children give -/

/-- A parse tree is lowered to a node in a context, if no limit stops it. -/
def Gives (context : Context) (value : Json) (result : Node) : Prop :=
  answer (node value context) = .ok result

/-- A parse tree is lowered to a node with a plain text. -/
def GivesText (context : Context) (value : Json) (text : String) : Prop :=
  ∃ result, Gives context value result ∧ result.fragment? = some text

/-- A FROM item is lowered to sources, if no limit stops it. -/
def GivesSources (value : Json) (sources : Sources) : Prop :=
  answer (source value) = .ok sources

section

variable (fields : Json.Fields) (key : String)

/-- The first part of the name under `key` has a plain text as an operator. -/
def GivesName (text : String) : Prop :=
  ∃ name rest, present? fields key = some (.array (name :: rest)) ∧
    GivesText { literal := .operator } name text

/-- The elements of the list under `key`, which may be absent, are lowered to `results`. -/
def GivesEach (results : List Node) : Prop :=
  ∃ values : Option (List Json), present? fields key = values.map .array ∧
    List.Forall₂ (Gives {}) (values.getD []) results

/-- The child under `key` is lowered to a node if it is there. -/
def GivesOptional (result : Option Node) : Prop :=
  Option.Rel (Gives {}) (present? fields key) result

end

lemma Gives.unique {context : Context} {value : Json} {result result' : Node}
    (h : Gives context value result) (h' : Gives context value result') : result = result' :=
  Except.ok.inj (h.symm.trans h')

section

variable {fields fields' : Json.Fields} {key : String}
  (hkey : present? fields key = present? fields' key)

include hkey

lemma GivesEach.unique {results results' : List Node} (h : GivesEach fields key results)
    (h' : GivesEach fields' key results') : results = results' := by
  obtain ⟨values, hvalues, hresults⟩ := h
  obtain ⟨values', hvalues', hresults'⟩ := h'
  have hmap : values.map Json.array = values'.map Json.array := by rw [← hvalues, hkey, hvalues']
  obtain rfl := Option.map_injective (fun _ _ => Json.array.inj) hmap
  have hunique : Relator.RightUnique (Gives {}) := fun _ _ _ h h' => h.unique h'
  exact List.right_unique_forall₂' hunique hresults hresults'

lemma GivesOptional.unique {result result' : Option Node} (h : GivesOptional fields key result)
    (h' : GivesOptional fields' key result') : result = result' := by
  rw [GivesOptional, hkey] at h
  rw [GivesOptional] at h'
  generalize present? fields' key = value? at h h'
  cases h with
  | none =>
    cases h'
    rfl
  | some h =>
    cases h' with
    | some h' => rw [h.unique h']

end

/-! ## Rules -/

/-- A string as it is written in each mode. -/
def render : LiteralMode → String → String
  | .operator, text => text
  | .constant, text => Text.quoted '\x27' text
  | .identifier, text => Text.quoted '"' text

/-- The directions of an ordering by their codes. -/
def directions : List (Int64 × Direction) :=
  [(0, .asc), (1, .asc), (2, .desc)]

/-- The kinds of join by their codes. -/
def joinKinds : List (Int64 × JoinKind) :=
  [(0, .inner), (1, .outer), (2, .fullOuter), (3, .rightOuter)]

/-- A call of an aggregate function over all rows of a group. -/
structure CallsAggregate (fields : Json.Fields) (function : AggregateFunction) : Prop where
  name : GivesName fields "funcname" function.callName
  window : present? fields "over" = none
  filter : present? fields "agg_filter" = none
  order : present? fields "agg_order" = none
  within : HasFlag fields "agg_within_group" false

/-- The arguments of a call: a star, or those in its list. -/
inductive GivesArguments (fields : Json.Fields) : List Node → Prop
  | star : HasFlag fields "agg_star" true → GivesArguments fields [.star]
  | list {args : List Node} :
    HasFlag fields "agg_star" false → GivesEach fields "args" args → GivesArguments fields args

/-- A select, clause by clause. -/
structure GivesSelect (fields : Json.Fields) (select : Select) : Prop where
  refused : ∀ clause ∈ refusedClauses, present? fields clause.1 = none
  operation : HasCode fields "op" 0
  fromClause : ∃ (items : Option (List Json)) (parts : List Sources),
    present? fields "fromClause" = items.map .array ∧
    List.Forall₂ GivesSources (items.getD []) parts ∧
    select.source = Sources.tables? parts.flatten ∧ select.joins = Sources.joins parts.flatten
  projections : GivesEach fields "targetList" select.projections
  wheres : ∃ filter, GivesOptional fields "whereClause" filter ∧ select.wheres = filter.toList
  orders : GivesEach fields "sortClause" select.orders
  limit : GivesOptional fields "limitCount" select.limit
  offset : GivesOptional fields "limitOffset" select.offset

/-- The nodes that are made of the children of a parse node, other than a boolean expression. -/
inductive Makes (context : Context) : Kind → Json.Fields → Node → Prop
  | string {fields : Json.Fields} {text : String} :
    present? fields "str" = some (.string text) →
    Makes context .string fields (.literal (render context.literal text))
  | integer {fields : Json.Fields} {value : Json} {number : Int64} :
    present? fields "ival" = some value → value.toInt64? = some number →
    Makes context .integer fields (.integer number)
  | star {fields : Json.Fields} : Makes context .aStar fields .star
  | aliasText {fields : Json.Fields} {text : String} :
    present? fields "aliasname" = some (.string text) →
    Makes context .aliasClause fields (.literal text)
  | column {fields : Json.Fields} {values : List Json} {texts : List String} :
    present? fields "fields" = some (.array values) → List.Forall₂ (GivesText {}) values texts →
    Makes context .columnRef fields (.column (".".intercalate texts))
  | table {fields : Json.Fields} {name : String} {schema aliasName : Option String} :
    present? fields "relname" = some (.string name) →
    present? fields "schemaname" = schema.map .string →
    Option.Rel (GivesText {}) (present? fields "alias") aliasName →
    Makes context .rangeVar fields (.table { name, schema, aliasName })
  | named {fields : Json.Fields} {value : Json} {result : Node} {name : String} :
    present? fields "val" = some value → Gives {} value result →
    present? fields "name" = some (.string name) →
    Makes context .resTarget fields (.as result name)
  | compare {fields : Json.Fields} {l r : Json} {left right : Node} {op : ComparisonOp} :
    HasCode fields "kind" 0 → present? fields "lexpr" = some l → Gives {} l left →
    present? fields "rexpr" = some r → Gives {} r right → GivesName fields "name" op.token →
    Makes context .aExpr fields (.comparison op left right)
  | compareAny {fields : Json.Fields} {l r : Json} {left right : Node} {op : ComparisonOp} :
    HasCode fields "kind" 1 → present? fields "lexpr" = some l → Gives {} l left →
    present? fields "rexpr" = some r → Gives {} r right → GivesName fields "name" op.token →
    Makes context .aExpr fields (.comparison op left right.any)
  | inList {fields : Json.Fields} {l : Json} {values : List Json} {expr : Node} {list : List Node}
      {token : String} :
    HasCode fields "kind" 7 → present? fields "lexpr" = some l → Gives {} l expr →
    present? fields "rexpr" = some (.array values) → List.Forall₂ (Gives {}) values list →
    GivesName fields "name" token → Makes context .aExpr fields (.inList expr list (token = "<>"))
  | isNull {fields : Json.Fields} {value : Json} {operand : Node} :
    present? fields "arg" = some value → Gives {} value operand → HasCode fields "nulltesttype" 0 →
    Makes context .nullTest fields operand.isNull
  | isNotNull {fields : Json.Fields} {value : Json} {operand : Node} :
    present? fields "arg" = some value → Gives {} value operand → HasCode fields "nulltesttype" 1 →
    Makes context .nullTest fields operand.isNotNull
  | aggregate {fields : Json.Fields} {function : AggregateFunction} {args : List Node}
      {distinct : Bool} :
    CallsAggregate fields function → GivesArguments fields args →
    HasFlag fields "agg_distinct" distinct →
    Makes context .funcCall fields (.aggregate function args distinct)
  | order {fields : Json.Fields} {value : Json} {expr : Node} {code : Int64}
      {direction : Direction} :
    present? fields "node" = some value → Gives {} value expr → HasCode fields "sortby_nulls" 0 →
    HasCode fields "sortby_dir" code → directions.lookup code = some direction →
    Makes context .sortBy fields (.order expr direction)
  | select {fields : Json.Fields} {select : Select} :
    GivesSelect fields select → Makes context .selectStmt fields (.select select)

/-- The operands of a boolean expression are lowered to `operands`, as parts of another one. -/
def GivesOperands (fields : Json.Fields) (operands : List Node) : Prop :=
  ∃ values, present? fields "args" = some (.array values) ∧
    List.Forall₂ (Gives { nested := true }) values operands

/-- A boolean expression without the parentheses around it. -/
inductive Connects (fields : Json.Fields) : Node → Prop
  | and {operands : List Node} : HasCode fields "boolop" 0 → GivesOperands fields operands →
    operands ≠ [] → Connects fields (.and operands)
  | or {operands : List Node} {chain : Node} : HasCode fields "boolop" 1 →
    GivesOperands fields operands → Node.orChain? operands = some chain → Connects fields chain
  | not {operand : Node} : HasCode fields "boolop" 2 → GivesOperands fields [operand] →
    Connects fields (.not operand)

/-- What a node of a kind is lowered to. A node can be made of its children, can stand for a single
child, or can be a boolean expression, which inside another one is put in parentheses. -/
inductive Rule (context : Context) : Kind → Json.Fields → Node → Prop
  | makes {kind : Kind} {fields : Json.Fields} {result : Node} :
    Makes context kind fields result → Rule context kind fields result
  | constant {fields : Json.Fields} {value : Json} {result : Node} :
    present? fields "val" = some value → Gives { literal := .constant } value result →
    Rule context .aConst fields result
  | wrapped {fields : Json.Fields} {value : Json} {result : Node} :
    present? fields "stmt" = some value → Gives context value result →
    Rule context .rawStmt fields result
  | target {fields : Json.Fields} {value : Json} {result : Node} :
    present? fields "val" = some value → Gives {} value result → present? fields "name" = none →
    Rule context .resTarget fields result
  | subLink {fields : Json.Fields} {value : Json} {result : Node} :
    HasCode fields "subLinkType" 4 → present? fields "subselect" = some value →
    Gives {} value result → Rule context .subLink fields result
  | boolean {fields : Json.Fields} {expr : Node} : Connects fields expr →
    Rule context .boolExpr fields (if context.nested then .grouping expr else expr)

/-- What an item of a FROM clause is lowered to: a table alone, or the sources on the left of a join
and then the join. -/
inductive SourceRule : Json → Sources → Prop
  | table {value : Json} {table : Table} :
    Gives {} value (.table table) → SourceRule value [.base table]
  | join {fields : Json.Fields} {left right : Json} {before : Sources} {code : Int64}
      {kind : JoinKind} {table : Table} {on : Option Node} :
    HasFlag fields "isNatural" false → present? fields "usingClause" = none →
    present? fields "alias" = none → HasCode fields "jointype" code →
    joinKinds.lookup code = some kind → present? fields "larg" = some left →
    GivesSources left before → present? fields "rarg" = some right →
    Gives {} right (.table table) → GivesOptional fields "quals" on →
    SourceRule (tagged .joinExpr fields) (before ++ [.joined { kind, right := table, on }])

end SelectTree.Lower
