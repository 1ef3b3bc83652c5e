import SelectTree.Command.Run
import SelectTree.Proofs.Json.ReadBack

/-!
# Printed selects

What the command line prints is enough to get the select back. `Select.ofJson?` decodes the JSON
form of query trees, by a rule for each constructor, and gives back every select that was encoded.
The text in turn is read back as the JSON form, since all of it is plain. So a text determines both
the select and the layout that it was printed in.
-/

namespace SelectTree

namespace Query

/-! ## Decoding -/

/-- The operator that has a name. -/
def ComparisonOp.ofName? (name : String) : Option ComparisonOp :=
  all.find? (·.name = name)

/-- The aggregate function that has a name in query trees. -/
def AggregateFunction.ofName? (name : String) : Option AggregateFunction :=
  all.find? (·.name = name)

/-- Decodes a text or `null`. -/
def optionalText? : Json → Option (Option String)
  | .null => some none
  | .string text => some (some text)
  | _ => none

/-- Decodes a table. -/
def Table.ofJson? : Json → Option Table
  | .object [("name", .string name), ("schema", schema), ("alias", aliasName)] => do
    return ⟨name, ← optionalText? schema, ← optionalText? aliasName⟩
  | _ => none

/-- Decodes the base tables of a select. -/
def tablesOfJson? : Json → Option (Option (List Table))
  | .null => some none
  | .array tables => (tables.mapM Table.ofJson?).map some
  | _ => none

/-- A value that may be `null`, given what it is decoded to otherwise. -/
def orNull? {α : Type} (value : Json) (decoded : Option α) : Option (Option α) :=
  if value.isNull then some none else decoded.map some

mutual

/-- Decodes a node: the name of its constructor first, then the parts that go with it. -/
def Node.ofJson? : Json → Option Node
  | .string "Null" => some .null
  | .string "Star" => some .star
  | .object [(name, value)] =>
    match name with
    | "Table" => (Table.ofJson? value).map .table
    | "Column" =>
      match value with
      | .string text => some (.column text)
      | _ => none
    | "SqlLiteral" =>
      match value with
      | .string text => some (.literal text)
      | _ => none
    | "Integer" => value.toInt64?.map .integer
    | "As" =>
      match value with
      | .object [("expr", expr), ("alias", .string aliasName)] =>
        (Node.ofJson? expr).map (.as · aliasName)
      | _ => none
    | "Comparison" =>
      match value with
      | .object [("op", .string op), ("left", left), ("right", right)] => do
        return .comparison (← ComparisonOp.ofName? op) (← Node.ofJson? left) (← Node.ofJson? right)
      | _ => none
    | "In" =>
      match value with
      | .object [("expr", expr), ("list", .array list), ("negated", .bool negated)] => do
        return .inList (← Node.ofJson? expr) (← nodesOfJson? list) negated
      | _ => none
    | "And" =>
      match value with
      | .array operands => (nodesOfJson? operands).map .and
      | _ => none
    | "Or" =>
      match value with
      | .array [left, right] => do return .or (← Node.ofJson? left) (← Node.ofJson? right)
      | _ => none
    | "Not" => (Node.ofJson? value).map .not
    | "Grouping" => (Node.ofJson? value).map .grouping
    | "NamedFunction" =>
      match value with
      | .object [("name", .string name), ("args", .array args)] =>
        (nodesOfJson? args).map (.function name)
      | _ => none
    | "Aggregate" =>
      match value with
      | .object [("function", .string function), ("args", .array args),
          ("distinct", .bool distinct)] => do
        return .aggregate (← AggregateFunction.ofName? function) (← nodesOfJson? args) distinct
      | _ => none
    | "Order" =>
      match value with
      | .object [("expr", expr), ("direction", .string direction)] => do
        return .order (← Node.ofJson? expr) (← Direction.ofName? direction)
      | _ => none
    | "Select" => (clausesOfJson? value).map .select
    | _ => none
  | _ => none
termination_by structural value => value

/-- Decodes nodes. -/
def nodesOfJson? : List Json → Option (List Node)
  | [] => some []
  | value :: values => do return (← Node.ofJson? value) :: (← nodesOfJson? values)
termination_by structural values => values

/-- Decodes a join. -/
def joinOfJson? : Json → Option (Join Node)
  | .object [("kind", .string kind), ("right", right), ("on", on)] => do
    return ⟨← JoinKind.ofName? kind, ← Table.ofJson? right, ← orNull? on (Node.ofJson? on)⟩
  | _ => none
termination_by structural value => value

/-- Decodes joins. -/
def joinsOfJson? : List Json → Option (List (Join Node))
  | [] => some []
  | value :: values => do return (← joinOfJson? value) :: (← joinsOfJson? values)
termination_by structural values => values

/-- Decodes the clauses of a select. -/
def clausesOfJson? : Json → Option (Clauses Node)
  | .object [("source", source), ("projections", .array projections), ("wheres", .array wheres),
      ("orders", .array orders), ("joins", .array joins), ("limit", limit),
      ("offset", offset)] => do
    return ⟨← tablesOfJson? source, ← nodesOfJson? projections, ← nodesOfJson? wheres,
      ← nodesOfJson? orders, ← joinsOfJson? joins, ← orNull? limit (Node.ofJson? limit),
      ← orNull? offset (Node.ofJson? offset)⟩
  | _ => none
termination_by structural value => value

end

/-- Decodes a select. -/
def Select.ofJson? (value : Json) : Option Select :=
  clausesOfJson? value

/-! ## Decoding what was encoded -/

@[simp] lemma ComparisonOp.ofName?_name (op : ComparisonOp) : ofName? op.name = some op := by
  cases op <;> rfl

@[simp] lemma AggregateFunction.ofName?_name (function : AggregateFunction) :
    ofName? function.name = some function := by
  cases function <;> rfl

@[simp] lemma JoinKind.ofName?_name (kind : JoinKind) : ofName? kind.name = some kind := by
  cases kind <;> rfl

@[simp] lemma Direction.ofName?_name (direction : Direction) :
    ofName? direction.name = some direction := by
  cases direction <;> rfl

@[simp] lemma Table.ofJson?_toJson (table : Table) : ofJson? table.toJson = some table := by
  obtain ⟨name, schema, aliasName⟩ := table
  cases schema <;> cases aliasName <;> rfl

@[simp] lemma tablesOfJson?_tablesToJson (tables : Option (List Table)) :
    tablesOfJson? (tablesToJson tables) = some tables := by
  cases tables with
  | none => rfl
  | some tables =>
    have htables : (tables.map Table.toJson).mapM Table.ofJson? = some tables := by
      induction tables with
      | nil => rfl
      | cons table tables ih => simp [ih]
    simp [tablesToJson, tablesOfJson?, htables]

lemma toInt64?_ofInt64 (n : Int64) : (Json.ofInt64 n).toInt64? = some n := by
  have hfits := And.intro (Int64.minValue_le_toInt n) (Int64.toInt_le n)
  rw [Json.ofInt64, Json.toInt64?, Json.Number.toInt64?, if_pos hfits, Int64.ofInt_toInt]

lemma Node.isNull_toJson (node : Node) : node.toJson.isNull = false := by
  cases node <;> rfl

mutual

theorem Node.ofJson?_toJson (node : Node) : Node.ofJson? node.toJson = some node := by
  cases node with
  | table => simp [Node.toJson, Node.ofJson?]
  | column | literal | null | star => rfl
  | integer value => simp [Node.toJson, Node.ofJson?, toInt64?_ofInt64]
  | as a | not a | grouping a | order a => simp [Node.toJson, Node.ofJson?, Node.ofJson?_toJson a]
  | comparison _ a b | or a b =>
    simp [Node.toJson, Node.ofJson?, Node.ofJson?_toJson a, Node.ofJson?_toJson b]
  | inList a as => simp [Node.toJson, Node.ofJson?, Node.ofJson?_toJson a, nodesOfJson?_toJson as]
  | and as | function _ as | aggregate _ as =>
    simp [Node.toJson, Node.ofJson?, nodesOfJson?_toJson as]
  | select a => simp [Node.toJson, Node.ofJson?, clausesOfJson?_toJson a]

theorem nodesOfJson?_toJson (nodes : List Node) :
    nodesOfJson? (nodesToJson nodes) = some nodes := by
  cases nodes with
  | nil => rfl
  | cons a as => simp [nodesToJson, nodesOfJson?, Node.ofJson?_toJson a, nodesOfJson?_toJson as]

theorem orNull?_toJson (node : Option Node) :
    orNull? (nodeOrNull node) (Node.ofJson? (nodeOrNull node)) = some node := by
  cases node with
  | none => rfl
  | some a => simp [nodeOrNull, orNull?, Node.isNull_toJson, Node.ofJson?_toJson a]

theorem joinOfJson?_toJson (join : Join Node) : joinOfJson? (joinToJson join) = some join := by
  obtain ⟨_, _, on⟩ := join
  simp [joinToJson, joinOfJson?, orNull?_toJson on]

theorem joinsOfJson?_toJson (joins : List (Join Node)) :
    joinsOfJson? (joinsToJson joins) = some joins := by
  cases joins with
  | nil => rfl
  | cons a as => simp [joinsToJson, joinsOfJson?, joinOfJson?_toJson a, joinsOfJson?_toJson as]

theorem clausesOfJson?_toJson (clauses : Clauses Node) :
    clausesOfJson? (clausesToJson clauses) = some clauses := by
  obtain ⟨_, p, w, o, j, l, f⟩ := clauses
  simp [clausesToJson, clausesOfJson?, nodesOfJson?_toJson p, nodesOfJson?_toJson w,
    nodesOfJson?_toJson o, joinsOfJson?_toJson j, orNull?_toJson l, orNull?_toJson f]

end

/-- A select is decoded from its JSON form. -/
theorem Select.ofJson?_toJson (select : Select) : Select.ofJson? select.toJson = some select :=
  clausesOfJson?_toJson select

/-! ## Plainness -/

open Json (Plain)

lemma plain_textOrNull (text : Option String) : Plain (textOrNull text) := by
  cases text with
  | none => exact .null
  | some text => exact .string text

lemma Table.plain_toJson (table : Table) : Plain table.toJson :=
  .object (by simp) (by simp [Plain.string, plain_textOrNull])

lemma plain_tablesToJson (tables : Option (List Table)) : Plain (tablesToJson tables) := by
  cases tables with
  | none => exact .null
  | some tables => exact .array (by simp [Table.plain_toJson])

lemma plain_ofInt64 (n : Int64) : Plain (.ofInt64 n) := by
  have hmax : Int64.maxValue.toInt < UInt64.size := by decide
  exact .int (Int64.minValue_le_toInt n) (Int.lt_of_le_of_lt (Int64.toInt_le n) hmax)

lemma plain_single (name : String) {value : Json} (h : Plain value) :
    Plain (.object [(name, value)]) :=
  .object (by simp) (by simpa using h)

mutual

theorem Node.plain_toJson (node : Node) : Plain node.toJson := by
  cases node with
  | table table => exact plain_single _ table.plain_toJson
  | column text | literal text => exact plain_single _ (.string text)
  | integer value => exact plain_single _ (plain_ofInt64 value)
  | null | star => exact .string _
  | as a | order a =>
    exact plain_single _ (.object (by simp) (by simp [Plain.string, Node.plain_toJson a]))
  | comparison _ a b =>
    exact plain_single _
      (.object (by simp) (by simp [Plain.string, Node.plain_toJson a, Node.plain_toJson b]))
  | inList a as =>
    exact plain_single _ (.object (by simp)
      (by simp [Plain.bool, Plain.array (plain_nodesToJson as), Node.plain_toJson a]))
  | and as => exact plain_single _ (.array (plain_nodesToJson as))
  | or a b => exact plain_single _ (.array (by simp [Node.plain_toJson a, Node.plain_toJson b]))
  | not a | grouping a => exact plain_single _ (Node.plain_toJson a)
  | function _ as =>
    exact plain_single _ (.object (by simp)
      (by simp [Plain.string, Plain.array (plain_nodesToJson as)]))
  | aggregate _ as =>
    exact plain_single _ (.object (by simp)
      (by simp [Plain.string, Plain.bool, Plain.array (plain_nodesToJson as)]))
  | select a => exact plain_single _ (plain_clausesToJson a)

theorem plain_nodesToJson (nodes : List Node) : ∀ value ∈ nodesToJson nodes, Plain value := by
  cases nodes with
  | nil => nofun
  | cons a as => exact List.forall_mem_cons.mpr ⟨Node.plain_toJson a, plain_nodesToJson as⟩

theorem plain_nodeOrNull (node : Option Node) : Plain (nodeOrNull node) := by
  cases node with
  | none => exact .null
  | some a => exact Node.plain_toJson a

theorem plain_joinToJson (join : Join Node) : Plain (joinToJson join) := by
  obtain ⟨_, right, on⟩ := join
  exact .object (by simp) (by simp [Plain.string, right.plain_toJson, plain_nodeOrNull on])

theorem plain_joinsToJson (joins : List (Join Node)) :
    ∀ value ∈ joinsToJson joins, Plain value := by
  cases joins with
  | nil => nofun
  | cons a as => exact List.forall_mem_cons.mpr ⟨plain_joinToJson a, plain_joinsToJson as⟩

theorem plain_clausesToJson (clauses : Clauses Node) : Plain (clausesToJson clauses) := by
  obtain ⟨source, p, w, o, j, l, f⟩ := clauses
  exact .object (by simp) (by simp [plain_tablesToJson source, Plain.array (plain_nodesToJson p),
    Plain.array (plain_nodesToJson w), Plain.array (plain_nodesToJson o),
    Plain.array (plain_joinsToJson j), plain_nodeOrNull l, plain_nodeOrNull f])

end

end Query

/-! ## Rendering -/

open Command (render)
open Json (NoControl)
open Query (Select)

lemma blank_layout (compact : Bool) :
    (if compact then Json.Layout.compact else Json.Layout.indented).Blank := by
  cases compact with
  | true => exact Json.Layout.blank_compact
  | false => exact Json.Layout.blank_indented

lemma read?_render (compact : Bool) (select : Select) :
    Json.read? none (render compact select) = some select.toJson :=
  Json.read?_print (blank_layout compact) (Query.plain_clausesToJson select)

/-- Each text is decoded to the select that it was printed for. -/
lemma ofJson?_of_read?_render (compact : Bool) (select : Select) :
    (Json.read? none (render compact select)).bind Select.ofJson? = some select := by
  rw [read?_render, Option.bind_some, Select.ofJson?_toJson]

lemma noControl_render (select : Select) : NoControl (render true select).toList := by
  rw [render, Json.print, String.toList_ofList]
  exact Json.noControl_write select.toJson 0 Json.noControl_nil

lemma lineFeed_mem_render (select : Select) : '\n' ∈ (render false select).toList := by
  rw [render, Json.print, String.toList_ofList]
  obtain ⟨_, _, _, _, _, _, _⟩ := select
  simp [Select.toJson, Query.clausesToJson, Json.write, Json.Layout.indented]

/-- The two layouts never print the same text: only one of them has line breaks. -/
lemma render_true_ne_render_false (select select' : Select) :
    render true select ≠ render false select' := by
  intro heq
  have hcontrol := noControl_render select
  rw [heq] at hcontrol
  exact absurd (hcontrol '\n' (lineFeed_mem_render select')) (by decide)

lemma render_eq_render_iff (compact compact' : Bool) (select select' : Select) :
    render compact select = render compact' select' ↔ compact = compact' ∧ select = select' := by
  constructor
  · intro heq
    have hdecoded := ofJson?_of_read?_render compact select
    rw [heq, ofJson?_of_read?_render compact' select'] at hdecoded
    refine ⟨?_, (Option.some.inj hdecoded).symm⟩
    cases compact <;> cases compact'
    · rfl
    · exact absurd heq.symm (render_true_ne_render_false _ _)
    · exact absurd heq (render_true_ne_render_false _ _)
    · rfl
  · rintro ⟨rfl, rfl⟩
    rfl

/-- **Printing loses nothing.** In both layouts the text of a select is read back as its JSON form,
and the select is decoded from that form. So a text is printed for one select and in one layout
only, and in the compact layout it is a single line, without any control characters. -/
theorem printed_select_determined (select : Select) :
    (∀ compact, Json.read? none (render compact select) = some select.toJson) ∧
    Select.ofJson? select.toJson = some select ∧
    (∀ compact compact' select', render compact select = render compact' select' ↔
      compact = compact' ∧ select = select') ∧
    NoControl (render true select).toList :=
  ⟨fun compact => read?_render compact select, Select.ofJson?_toJson select,
    fun compact compact' select' => render_eq_render_iff compact compact' select select',
    noControl_render select⟩

end SelectTree
