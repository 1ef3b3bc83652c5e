import SelectTree.Proofs.Grammar.Basic
import SelectTree.Proofs.Precedence
import SelectTree.Proofs.Rules.Session

/-!
# Nothing is lost or duplicated

Lowering takes every part of a statement exactly once. What there is to count are `Item`s: integers,
columns and tables with all that they say, and the nodes of some kinds. `Node.item?` tells which
item a query node is, and `Carries` which one a parse node is, each by itself alone.

Both trees are walked in full: `Node.all` lists the nodes of a query tree, in which the tables of a
FROM clause count as nodes, and `Parse.positions` the nodes of a parse tree that stand for a value,
and not for a part of a name. `same_inventory` says that every item is found as often in one as in
the other. It is proved rule by rule: `LoweredAll` pairs the parts of a parse node with the nodes
that they are lowered to, and a rule adds to these the item of its own node.
-/

namespace SelectTree.Query

/-! ## All nodes of a query tree -/

/-- A node in a clause is smaller than the clauses. -/
lemma Clauses.sizeOf_lt_of_mem_nodes {clauses : Clauses Node} {node : Node}
    (h : node ∈ clauses.nodes) : sizeOf node < sizeOf clauses := by
  obtain ⟨source, projections, wheres, orders, joins, limit, offset⟩ := clauses
  have hlist {nodes : List Node} (hmem : node ∈ nodes) : sizeOf node < sizeOf nodes :=
    List.sizeOf_lt_of_mem hmem
  have hoption {node? : Option Node} (hmem : node? = some node) : sizeOf node < sizeOf node? := by
    rw [hmem, Option.some.sizeOf_spec]
    omega
  simp only [Clauses.nodes, List.mem_append, List.mem_filterMap, Option.mem_toList] at h
  rw [Clauses.mk.sizeOf_spec]
  rcases h with ((((h | h) | h) | ⟨⟨kind, right, on⟩, hjoin, hon⟩) | h) | h
  · have hprojections := hlist h
    omega
  · have hwheres := hlist h
    omega
  · have horders := hlist h
    omega
  · have hjoins := List.sizeOf_lt_of_mem hjoin
    have hnode : sizeOf node < sizeOf on := hoption hon
    rw [Join.mk.sizeOf_spec] at hjoins
    omega
  · have hlimit := hoption h
    omega
  · have hoffset := hoption h
    omega

namespace Node

/-- A part is smaller than the node that it is a part of. -/
lemma sizeOf_lt_of_mem_parts {node part : Node} (h : part ∈ node.parts) :
    sizeOf part < sizeOf node := by
  have hlist {nodes : List Node} (hmem : part ∈ nodes) : sizeOf part < sizeOf nodes :=
    List.sizeOf_lt_of_mem hmem
  cases node with
  | table | column | literal | integer | null | star => cases h
  | as expr _ | grouping expr | order expr _ | not expr =>
    obtain rfl := List.mem_singleton.mp h
    simp +arith
  | comparison op left right | or left right =>
    rcases List.mem_pair.mp h with rfl | rfl <;> simp +arith
  | inList expr list negated =>
    rw [inList.sizeOf_spec]
    rcases List.mem_cons.mp h with rfl | h
    · omega
    · have hmem := hlist h
      omega
  | and args | function _ args | aggregate _ args _ =>
    have hmem : sizeOf part < sizeOf args := hlist h
    simp +arith only [and.sizeOf_spec, function.sizeOf_spec, aggregate.sizeOf_spec]
    omega
  | select clauses =>
    have hmem := Clauses.sizeOf_lt_of_mem_nodes h
    rw [select.sizeOf_spec]
    omega

/-- The tables of the FROM clause of a select: those of its source, and on the right of its
joins. -/
def tables : Node → List Table
  | .select clauses => clauses.source.getD [] ++ clauses.joins.map (·.right)
  | _ => []

/-- The nodes directly below a node. The tables of a FROM clause count as nodes. -/
def under (node : Node) : List Node :=
  node.tables.map .table ++ node.parts

/-- All nodes of a query tree, from its root down. -/
def all (node : Node) : List Node :=
  node :: (node.tables.map Node.table ++ node.parts.attach.flatMap fun part => all part.1)
termination_by node
decreasing_by exact sizeOf_lt_of_mem_parts part.2

lemma all_table (table : Table) : all (.table table) = [.table table] := by
  rw [all]
  rfl

lemma all_eq (node : Node) : node.all = node :: node.under.flatMap all := by
  have htables : (node.tables.map Node.table).flatMap all = node.tables.map .table := by
    simp only [List.flatMap_map, all_table]
    exact List.map_eq_flatMap.symm
  rw [all, List.flatMap_subtype (fun _ _ => rfl), List.unattach_attach, under, List.flatMap_append,
    htables]

end Node

/-! ## Items -/

/-- What is counted: integers, columns and tables with all that they say, and for the other kinds of
node that they are there. -/
inductive Item where
  | integer (value : Int64)
  | column (text : String)
  | table (value : Table)
  | comparison
  | membership
  | aggregate
  | named
  | ordering
  | select
deriving DecidableEq

/-- The item that a query node is. -/
def Node.item? : Node → Option Item
  | .integer value => some (.integer value)
  | .column text => some (.column text)
  | .table value => some (.table value)
  | .comparison .. => some .comparison
  | .inList .. => some .membership
  | .aggregate .. => some .aggregate
  | .as .. => some .named
  | .order .. => some .ordering
  | .select _ => some .select
  | .literal _ | .null | .star | .and _ | .or .. | .not _ | .grouping _ | .function .. => none

/-- How often an item is found in some query trees. -/
def tally (item : Item) (nodes : List Node) : Nat :=
  (nodes.flatMap Node.all).countP (·.item? = some item)

section

variable {item : Item}

lemma tally_append (nodes nodes' : List Node) :
    tally item (nodes ++ nodes') = tally item nodes + tally item nodes' := by
  rw [tally, List.flatMap_append, List.countP_append]
  rfl

lemma tally_cons (node : Node) (nodes : List Node) :
    tally item (node :: nodes) = tally item [node] + tally item nodes :=
  tally_append [node] nodes

/-- In a tree an item is found at the root and below it. -/
lemma tally_root (node : Node) :
    tally item [node] = (if node.item? = some item then 1 else 0) + tally item node.under := by
  rw [tally, List.flatMap_singleton, Node.all_eq, List.countP_cons, Nat.add_comm]
  simp only [decide_eq_true_eq]
  rfl

/-- A node that is no item holds what its parts hold. -/
lemma tally_bare {node : Node} (hitem : node.item? = none) (htables : node.tables = []) :
    tally item [node] = tally item node.parts := by
  rw [tally_root, hitem, if_neg nofun, Node.under, htables, List.map_nil, List.nil_append,
    Nat.zero_add]

lemma tally_orChain {operands : List Node} {chain : Node}
    (h : Node.orChain? operands = some chain) : tally item [chain] = tally item operands := by
  induction operands generalizing chain with
  | nil => cases h
  | cons operand rest ih =>
    rcases Node.orChain?_cons_eq_some_iff.mp h with ⟨rfl, rfl⟩ | ⟨tail, htail, rfl⟩
    · rfl
    · rw [tally_bare rfl rfl, tally_cons operand rest, ← ih htail]
      exact tally_cons operand [tail]

end

/-! ## The nodes of a FROM clause -/

/-- The nodes of a source: its table, and for a join its condition. -/
def Source.nodes : Source → List Node
  | .base table => [.table table]
  | .joined join => .table join.right :: join.on.toList

/-- A select holds the nodes of its sources in two places, the tables that start an item in one and
the joins in the other. -/
lemma tally_sources {item : Item} (sources : Sources) :
    tally item (sources.flatMap Source.nodes) =
      tally item (((Sources.tables? sources).getD [] ++ (Sources.joins sources).map (·.right)).map
          .table)
        + tally item ((Sources.joins sources).filterMap (·.on)) := by
  have htables : (Sources.tables? sources).getD [] = sources.filterMap Source.table? := by
    unfold Sources.tables?
    split
    · next h => rw [h]; rfl
    · rfl
  rw [htables, Sources.joins, List.map_append, tally_append]
  clear htables
  -- on the right are three lists of the same sources, each of which takes its share of the first
  induction sources with
  | nil => rfl
  | cons source sources ih =>
    rw [List.flatMap_cons, tally_append, ih]
    cases source with
    | base table =>
      rw [List.filterMap_cons_some (f := Source.table?) rfl, List.filterMap_cons_none rfl,
        List.map_cons, Source.nodes, tally_cons (.table table) (List.map _ _)]
      omega
    | joined join =>
      have hon (joins : List (Join Node)) :
          tally item ((join :: joins).filterMap (·.on)) =
            tally item join.on.toList + tally item (joins.filterMap (·.on)) := by
        rw [← tally_append]
        cases h : join.on <;> simp [h]
      rw [List.filterMap_cons_none rfl, List.filterMap_cons_some (f := Source.join?) rfl,
        List.map_cons, List.map_cons, Source.nodes, hon,
        tally_cons (.table join.right) (List.map _ _),
        tally_cons (.table join.right) (Option.toList _)]
      omega

end SelectTree.Query

namespace SelectTree.Parse

/-! ## All positions of a parse tree -/

/-- The children of a parse tree that stand for query nodes. -/
def partsOf : Json → List Json
  | .object [(tag, .object fields)] =>
    match Kind.ofTag? tag with
    | some kind => parts kind fields
    | none => []
  | _ => []

lemma partsOf_tagged (kind : Kind) (fields : Json.Fields) :
    partsOf (tagged kind fields) = parts kind fields := by
  simp only [partsOf, tagged, Kind.ofTag?_tag]

lemma sizeOf_lt_of_mem_parts {kind : Kind} {fields : Json.Fields} {part : Json}
    (h : part ∈ parts kind fields) (tag : String) :
    sizeOf part < sizeOf (Json.object [(tag, .object fields)]) := by
  have hchild : EachChild (sizeOf · < sizeOf (Json.object [(tag, .object fields)])) kind.tag
      fields := by
    refine ⟨fun hnode => ?_, fun hlist item hitem => ?_⟩
    · obtain ⟨field, hmem, rfl⟩ := exists_mem_of_present (Attributes.node_raw_eq_ok_iff.mp hnode)
      exact sizeOf_lt_of_mem_fields hmem tag
    · obtain ⟨field, hmem, heq⟩ := exists_mem_of_present (Attributes.list_raw_eq_ok_iff.mp hlist)
      have hitem : item ∈ field.2.elements := heq ▸ hitem
      exact Nat.lt_trans (sizeOf_lt_of_mem_elements hitem) (sizeOf_lt_of_mem_fields hmem tag)
  exact hchild.of_mem_parts h

lemma sizeOf_lt_of_mem_partsOf {value part : Json} (h : part ∈ partsOf value) :
    sizeOf part < sizeOf value := by
  unfold partsOf at h
  split at h
  · split at h
    · exact sizeOf_lt_of_mem_parts h _
    · cases h
  · cases h

/-- All nodes of a parse tree that stand for query nodes, from its root down. -/
def positions (value : Json) : List Json :=
  value :: (partsOf value).attach.flatMap fun part => positions part.1
termination_by value
decreasing_by exact sizeOf_lt_of_mem_partsOf part.2

lemma positions_eq (value : Json) :
    positions value = value :: (partsOf value).flatMap positions := by
  rw [positions, List.flatMap_subtype (fun _ _ => rfl), List.unattach_attach]

end SelectTree.Parse

namespace SelectTree.Lower

open Grammar (TextOf textExact textOf_unique)
open Parse (Attributes EachChild HasCode Kind parts positions present? raw tagged)
open Query (Item Node Select Source Sources tally)

/-! ## Items of a parse tree -/

/-- The item that a parse node of a kind carries. A comparison is an operator, one that is applied
to any element of a list, or a null test. -/
inductive Carries : Kind → Json.Fields → Item → Prop
  | integer {fields : Json.Fields} {value : Json} {number : Int64} :
    present? fields "ival" = some value → value.toInt64? = some number →
    Carries .integer fields (.integer number)
  | column {fields : Json.Fields} {text : String} :
    TextOf {} (tagged .columnRef fields) text → Carries .columnRef fields (.column text)
  | table {fields : Json.Fields} {name : String} {schema aliasName : Option String} :
    present? fields "relname" = some (.string name) →
    present? fields "schemaname" = schema.map .string →
    Option.Rel (TextOf {}) (present? fields "alias") aliasName →
    Carries .rangeVar fields (.table { name, schema, aliasName })
  | comparison {fields : Json.Fields} {code : Int64} :
    HasCode fields "kind" code → code ∈ ([0, 1] : List Int64) → Carries .aExpr fields .comparison
  | nullTest {fields : Json.Fields} : Carries .nullTest fields .comparison
  | membership {fields : Json.Fields} :
    HasCode fields "kind" 7 → Carries .aExpr fields .membership
  | aggregate {fields : Json.Fields} : Carries .funcCall fields .aggregate
  | named {fields : Json.Fields} {name : Json} :
    present? fields "name" = some name → Carries .resTarget fields .named
  | ordering {fields : Json.Fields} : Carries .sortBy fields .ordering
  | select {fields : Json.Fields} : Carries .selectStmt fields .select

/-- A parse tree whose root carries an item. -/
def IsItem (item : Item) (value : Json) : Prop :=
  ∃ kind fields, value = tagged kind fields ∧ Carries kind fields item

lemma isItem_tagged_iff {item : Item} {kind : Kind} {fields : Json.Fields} :
    IsItem item (tagged kind fields) ↔ Carries kind fields item := by
  constructor
  · rintro ⟨kind', fields', heq, h⟩
    obtain ⟨rfl, rfl⟩ := Parse.tagged_inj.mp heq
    exact h
  · intro h
    exact ⟨kind, fields, rfl, h⟩

open Classical in
/-- How often an item is found in some parse trees. -/
noncomputable def occurrences (item : Item) (values : List Json) : Nat :=
  (values.flatMap positions).countP (IsItem item)

section

variable {kind : Kind} {fields : Json.Fields} {item item' : Item}

lemma Carries.unique (h : Carries kind fields item) (h' : Carries kind fields item') :
    item = item' := by
  cases h with
  | integer hvalue hnumber =>
    cases h' with
    | integer hvalue' hnumber' =>
      rw [hvalue] at hvalue'
      cases hvalue'
      rw [Option.some.inj (hnumber.symm.trans hnumber')]
  | column htext =>
    cases h' with
    | column htext' => rw [textOf_unique _ _ _ _ htext htext']
  | table hname hschema halias =>
    cases h' with
    | table hname' hschema' halias' =>
      rw [hname] at hname'
      cases hname'
      have hmap := hschema.symm.trans hschema'
      obtain rfl := Option.map_injective (fun _ _ => Json.string.inj) hmap
      generalize present? fields "alias" = value? at halias halias'
      cases halias with
      | none =>
        cases halias'
        rfl
      | some htext =>
        cases halias' with
        | some htext' => rw [textOf_unique _ _ _ _ htext htext']
  | comparison hcode hmem =>
    cases h' with
    | comparison => rfl
    | membership hcode' =>
      rw [hcode.unique hcode'] at hmem
      exact absurd hmem (by decide)
  | membership hcode =>
    cases h' with
    | membership => rfl
    | comparison hcode' hmem =>
      rw [hcode'.unique hcode] at hmem
      exact absurd hmem (by decide)
  | _ =>
    cases h'
    rfl

lemma Carries.iff_some_eq (h : Carries kind fields item) :
    Carries kind fields item' ↔ some item = some item' := by
  rw [Option.some.injEq]
  constructor
  · intro h'
    exact h.unique h'
  · rintro rfl
    exact h

/-- A node that is made of its children is the item that its parse node carries. -/
lemma carries_iff_of_makes {context : Context} {result : Node}
    (h : Makes context kind fields result) :
    Carries kind fields item ↔ result.item? = some item := by
  cases h with
  | integer hvalue hnumber => exact (Carries.integer hvalue hnumber).iff_some_eq
  | @column _ values texts hfields htexts =>
    have hgives : Gives {} (tagged .columnRef fields) (.column (".".intercalate texts)) :=
      gives_tagged_iff.mpr (.makes (.column hfields htexts))
    exact (Carries.column ((textExact _ _ _ _ hgives).mp rfl)).iff_some_eq
  | @table _ name schema aliasName hname hschema halias =>
    have htext : Option.Rel (TextOf {}) (present? fields "alias") aliasName := by
      generalize present? fields "alias" = value? at halias
      cases halias with
      | none => exact .none
      | some h => exact .some ((textExact _).of_givesText h)
    exact (Carries.table hname hschema htext).iff_some_eq
  | named _ _ hname => exact (Carries.named hname).iff_some_eq
  | compare hcode => exact (Carries.comparison hcode (by decide)).iff_some_eq
  | compareAny hcode => exact (Carries.comparison hcode (by decide)).iff_some_eq
  | inList hcode => exact (Carries.membership hcode).iff_some_eq
  | isNull | isNotNull => exact Carries.nullTest.iff_some_eq
  | aggregate => exact Carries.aggregate.iff_some_eq
  | order => exact Carries.ordering.iff_some_eq
  | select => exact Carries.select.iff_some_eq
  | string | star | aliasText =>
    constructor
    · intro h
      cases h
    · intro h
      cases h

lemma occurrences_cons (value : Json) (values : List Json) :
    occurrences item (value :: values) = occurrences item [value] + occurrences item values := by
  rw [occurrences, List.flatMap_cons, List.countP_append, occurrences, List.flatMap_singleton]
  rfl

open Classical in
/-- In a parse tree an item is found at the root, and in the parts. -/
lemma occurrences_tagged (kind : Kind) (fields : Json.Fields) :
    occurrences item [tagged kind fields] =
      (if Carries kind fields item then 1 else 0) + occurrences item (parts kind fields) := by
  rw [occurrences, List.flatMap_singleton, Parse.positions_eq, List.countP_cons,
    Parse.partsOf_tagged, Nat.add_comm]
  simp only [decide_eq_true_eq, isItem_tagged_iff]
  rfl

end

/-! ## What the parts are lowered to -/

/-- Some parse trees and the nodes that they are lowered to, one after the other: each either as a
node, or as an item of a FROM clause. -/
inductive LoweredAll : List Json → List Node → Prop
  | nil : LoweredAll [] []
  | node {context : Context} {value : Json} {result : Node} {values : List Json}
      {nodes : List Node} :
    Gives context value result → LoweredAll values nodes →
    LoweredAll (value :: values) ([result] ++ nodes)
  | source {value : Json} {sources : Sources} {values : List Json} {nodes : List Node} :
    GivesSources value sources → LoweredAll values nodes →
    LoweredAll (value :: values) (sources.flatMap Source.nodes ++ nodes)

section

variable {context : Context} {kind : Kind} {tag key : String} {fields : Json.Fields} {value : Json}
  {result : Node}

lemma LoweredAll.append {values values' : List Json} {nodes nodes' : List Node}
    (h : LoweredAll values nodes) (h' : LoweredAll values' nodes') :
    LoweredAll (values ++ values') (nodes ++ nodes') := by
  induction h with
  | nil => exact h'
  | node hvalue _ ih => exact .node hvalue ih
  | source hvalue _ ih =>
    rw [List.append_assoc]
    exact .source hvalue ih

lemma loweredAll_of_forall₂ {values : List Json} {nodes : List Node}
    (h : List.Forall₂ (Gives context) values nodes) : LoweredAll values nodes := by
  induction h with
  | nil => exact .nil
  | cons hvalue _ ih => exact .node hvalue ih

lemma loweredAll_sources {values : List Json} {sources : List Sources}
    (h : List.Forall₂ GivesSources values sources) :
    LoweredAll values (sources.flatten.flatMap Source.nodes) := by
  induction h with
  | nil => exact .nil
  | cons hvalue _ ih =>
    rw [List.flatten_cons, List.flatMap_append]
    exact .source hvalue ih

lemma loweredAll_one (hvalue : present? fields key = some value) (h : Gives context value result) :
    LoweredAll ((raw tag fields).one key) [result] := by
  rw [Attributes.one_of_node (Attributes.node_raw_eq_ok_iff.mpr hvalue)]
  exact .node h .nil

lemma loweredAll_optional {result : Option Node} (h : GivesOptional fields key result) :
    LoweredAll ((raw tag fields).one key) result.toList := by
  rw [Attributes.one, Attributes.node?_raw]
  unfold GivesOptional at h
  generalize present? fields key = value? at h
  cases h with
  | none => exact .nil
  | some h => exact .node h .nil

lemma many_eq_getD {values : Option (List Json)} (h : present? fields key = values.map .array) :
    (raw tag fields).many key = values.getD [] := by
  rw [Attributes.many, Attributes.list?_raw_eq_ok_iff.mpr h]
  cases values <;> rfl

lemma loweredAll_each {results : List Node} (h : GivesEach fields key results) :
    LoweredAll ((raw tag fields).many key) results := by
  obtain ⟨values, hvalues, h⟩ := h
  rw [many_eq_getD hvalues]
  exact loweredAll_of_forall₂ h

/-- A query node is put together from the parts of a parse node: below its root an item is found as
often as in the nodes that the parts are lowered to. -/
def Assembled (kind : Kind) (fields : Json.Fields) (result : Node) : Prop :=
  ∃ nodes, LoweredAll (parts kind fields) nodes ∧ ∀ item, tally item result.under = tally item nodes

lemma assembled_of_tally {nodes : List Node} (h : LoweredAll (parts kind fields) nodes)
    (htables : result.tables = []) (hparts : ∀ item, tally item result.parts = tally item nodes) :
    Assembled kind fields result := by
  refine ⟨nodes, h, fun item => ?_⟩
  rw [Node.under, htables, List.map_nil, List.nil_append, hparts]

lemma assembled_of_parts (h : LoweredAll (parts kind fields) result.parts)
    (htables : result.tables = []) : Assembled kind fields result :=
  assembled_of_tally h htables fun _ => rfl

lemma assembled_of_nullTest {op : Query.ComparisonOp} {operand : Node}
    (hvalue : present? fields "arg" = some value) (h : Gives {} value operand) :
    Assembled .nullTest fields (.comparison op operand .null) := by
  refine assembled_of_tally (loweredAll_one hvalue h) rfl fun item => ?_
  have hnull : tally item [.null] = 0 := Query.tally_bare rfl rfl
  rw [Node.parts, Query.tally_cons, hnull, Nat.add_zero]

lemma assembled_of_arguments {function : Query.AggregateFunction} {args : List Node}
    {distinct : Bool} (h : GivesArguments fields args) :
    Assembled .funcCall fields (.aggregate function args distinct) := by
  cases h with
  | star hstar =>
    have hparts : LoweredAll (parts .funcCall fields) [] := by
      rw [parts, Attributes.flag_raw_eq_ok_iff.mpr hstar]
      exact .nil
    exact assembled_of_tally hparts rfl fun item => Query.tally_bare rfl rfl
  | list hstar hargs =>
    refine assembled_of_parts ?_ rfl
    rw [parts, Attributes.flag_raw_eq_ok_iff.mpr hstar]
    exact loweredAll_each hargs

lemma assembled_of_select {select : Select} (h : GivesSelect fields select) :
    Assembled .selectStmt fields (.select select) := by
  obtain ⟨items, sources, hitems, hsources, hsource, hjoins⟩ := h.fromClause
  obtain ⟨filter, hfilter, hwheres⟩ := h.wheres
  have hfrom : LoweredAll ((raw Kind.selectStmt.tag fields).many "fromClause")
      (sources.flatten.flatMap Source.nodes) := by
    rw [many_eq_getD hitems]
    exact loweredAll_sources hsources
  -- the parts in the order of the parse node; the select holds the tables of the FROM clause apart
  -- from its join conditions, which is why only the numbers agree
  refine ⟨_, ((((hfrom.append (loweredAll_each h.projections)).append
    (loweredAll_optional hfilter)).append (loweredAll_each h.orders)).append
    (loweredAll_optional h.limit)).append (loweredAll_optional h.offset), fun item => ?_⟩
  simp only [Node.under, Node.tables, Node.parts, Query.Clauses.nodes, Query.tally_append, hsource,
    hjoins, hwheres, Query.tally_sources]
  omega

lemma assembled_of_makes (h : Makes context kind fields result) : Assembled kind fields result := by
  cases h with
  | string | integer | star | aliasText | column | table => exact assembled_of_parts .nil rfl
  | named hvalue h => exact assembled_of_parts (loweredAll_one hvalue h) rfl
  | order hvalue h => exact assembled_of_parts (loweredAll_one hvalue h) rfl
  | compare hcode hl hleft hr hright =>
    refine assembled_of_parts ?_ rfl
    rw [Parse.parts_operation hcode (by decide)]
    exact (loweredAll_one hl hleft).append (loweredAll_one hr hright)
  | @compareAny _ l r left right op hcode hl hleft hr hright =>
    have hparts : LoweredAll (parts .aExpr fields) [left, right] := by
      rw [Parse.parts_operation hcode (by decide)]
      exact (loweredAll_one hl hleft).append (loweredAll_one hr hright)
    refine assembled_of_tally hparts rfl fun item => ?_
    have hany : tally item [right.any] = tally item [right] := Query.tally_bare rfl rfl
    rw [Node.parts, Query.tally_cons left [right.any], hany]
    exact (Query.tally_cons left [right]).symm
  | inList hcode hl hexpr hr hlist =>
    refine assembled_of_parts ?_ rfl
    rw [Parse.parts_inList hcode hl hr]
    exact .node hexpr (loweredAll_of_forall₂ hlist)
  | isNull hvalue h => exact assembled_of_nullTest hvalue h
  | isNotNull hvalue h => exact assembled_of_nullTest hvalue h
  | aggregate _ hargs => exact assembled_of_arguments hargs
  | select h => exact assembled_of_select h

open Classical in
/-- Some query nodes hold what a parse node carries itself, and what its parts are lowered to. -/
def Balanced (kind : Kind) (fields : Json.Fields) (results : List Node) : Prop :=
  ∃ nodes, LoweredAll (parts kind fields) nodes ∧ ∀ item,
    tally item results = (if Carries kind fields item then 1 else 0) + tally item nodes

lemma balanced_of_makes (h : Makes context kind fields result) :
    Balanced kind fields [result] := by
  obtain ⟨nodes, hnodes, htally⟩ := assembled_of_makes h
  refine ⟨nodes, hnodes, fun item => ?_⟩
  rw [Query.tally_root, htally]
  simp only [carries_iff_of_makes h]

/-- A node that carries nothing only passes on what its parts are lowered to. -/
lemma balanced_of_tally {results nodes : List Node} (hcarries : ∀ item, ¬ Carries kind fields item)
    (h : LoweredAll (parts kind fields) nodes)
    (htally : ∀ item, tally item results = tally item nodes) : Balanced kind fields results := by
  refine ⟨nodes, h, fun item => ?_⟩
  rw [if_neg (hcarries item), htally, Nat.zero_add]

lemma balanced_of_operands {operands : List Node} (h : GivesOperands fields operands)
    (htally : ∀ item, tally item [result] = tally item operands) :
    Balanced .boolExpr fields [result] := by
  obtain ⟨values, hvalues, hoperands⟩ := h
  refine balanced_of_tally (fun item hitem => by cases hitem) ?_ htally
  rw [Parse.parts_boolExpr hvalues]
  exact loweredAll_of_forall₂ hoperands

lemma balanced_of_connects {expr : Node} (h : Connects fields expr)
    (hresult : ∀ item, tally item [result] = tally item [expr]) :
    Balanced .boolExpr fields [result] := by
  cases h with
  | and _ hoperands _ =>
    exact balanced_of_operands hoperands fun item => (hresult item).trans (Query.tally_bare rfl rfl)
  | or _ hoperands hchain =>
    exact balanced_of_operands hoperands fun item =>
      (hresult item).trans (Query.tally_orChain hchain)
  | not _ hoperand =>
    exact balanced_of_operands hoperand fun item => (hresult item).trans (Query.tally_bare rfl rfl)

lemma balanced_of_rule (h : Rule context kind fields result) : Balanced kind fields [result] := by
  cases h with
  | makes h => exact balanced_of_makes h
  | constant hvalue h =>
    exact balanced_of_tally (fun item hitem => by cases hitem) (loweredAll_one hvalue h)
      fun _ => rfl
  | wrapped hvalue h =>
    exact balanced_of_tally (fun item hitem => by cases hitem) (loweredAll_one hvalue h)
      fun _ => rfl
  | subLink _ hvalue h =>
    exact balanced_of_tally (fun item hitem => by cases hitem) (loweredAll_one hvalue h)
      fun _ => rfl
  | target hvalue h hname =>
    refine balanced_of_tally (fun item hitem => ?_) (loweredAll_one hvalue h) fun _ => rfl
    cases hitem with
    | named hname' =>
      rw [hname] at hname'
      cases hname'
  | boolean h =>
    refine balanced_of_connects h fun item => ?_
    split
    · exact Query.tally_bare rfl rfl
    · rfl

lemma balanced_of_sourceRule {sources : Sources}
    (h : SourceRule (tagged kind fields) sources) :
    Balanced kind fields (sources.flatMap Source.nodes) := by
  generalize hvalue : tagged kind fields = value at h
  cases h with
  | table h =>
    subst hvalue
    exact balanced_of_rule (gives_tagged_iff.mp h)
  | join _ _ _ _ _ hleft hbefore hright htable hquals =>
    obtain ⟨rfl, rfl⟩ := Parse.tagged_inj.mp hvalue
    refine balanced_of_tally (fun item hitem => by cases hitem) ?_ fun item => rfl
    have hparts : parts .joinExpr fields = (raw Kind.joinExpr.tag fields).one "larg"
        ++ ((raw Kind.joinExpr.tag fields).one "rarg"
          ++ (raw Kind.joinExpr.tag fields).one "quals") :=
      List.append_assoc _ _ _
    rw [List.flatMap_append, List.flatMap_singleton, hparts,
      Attributes.one_of_node (Attributes.node_raw_eq_ok_iff.mpr hleft)]
    exact .source hbefore ((loweredAll_one hright htable).append (loweredAll_optional hquals))

end

/-! ## Whole trees -/

/-- What a parse tree is lowered to holds every item as often as the parse tree does. -/
structure Counted (value : Json) : Prop where
  node : ∀ {context result}, Gives context value result →
    ∀ item, tally item [result] = occurrences item [value]
  source : ∀ {sources}, GivesSources value sources →
    ∀ item, tally item (sources.flatMap Source.nodes) = occurrences item [value]

lemma LoweredAll.tally_eq {values : List Json} {nodes : List Node} (h : LoweredAll values nodes)
    (hvalues : ∀ value ∈ values, Counted value) (item : Item) :
    tally item nodes = occurrences item values := by
  induction h with
  | nil => rfl
  | node h _ ih =>
    obtain ⟨hvalue, hvalues⟩ := List.forall_mem_cons.mp hvalues
    rw [Query.tally_append, hvalue.node h, ih hvalues, ← occurrences_cons]
  | source h _ ih =>
    obtain ⟨hvalue, hvalues⟩ := List.forall_mem_cons.mp hvalues
    rw [Query.tally_append, hvalue.source h, ih hvalues, ← occurrences_cons]

lemma Balanced.tally_eq {kind : Kind} {fields : Json.Fields} {results : List Node}
    (h : Balanced kind fields results) (ih : EachChild Counted kind.tag fields) (item : Item) :
    tally item results = occurrences item [tagged kind fields] := by
  obtain ⟨nodes, hnodes, htally⟩ := h
  rw [htally, hnodes.tally_eq (fun value hvalue => ih.of_mem_parts hvalue), occurrences_tagged]

theorem counted (value : Json) : Counted value := by
  induction value using Parse.kind_induction with
  | node kind fields ih =>
    exact ⟨fun h => (balanced_of_rule (gives_tagged_iff.mp h)).tally_eq ih,
      fun h => (balanced_of_sourceRule (givesSources_iff.mp h)).tally_eq ih⟩
  | other value hvalue =>
    have hnode {context : Context} {result : Node} : ¬ Gives context value result := by
      intro h
      obtain ⟨kind, fields, heq⟩ := exists_tagged_of_gives h
      exact hvalue kind fields heq
    refine ⟨fun h => absurd h hnode, fun h => ?_⟩
    cases givesSources_iff.mp h with
    | table htable => exact absurd htable hnode
    | join => exact absurd rfl (hvalue _ _)

end SelectTree.Lower

namespace SelectTree

open Lower (occurrences)
open Parse (partsOf tagged)
open Query (Item Node Select tally)

/-- **Nothing is lost or duplicated.** In the select of a statement, however deep, every integer,
column and table and every comparison, membership test, aggregate call, name, ordering and nested
select is found as often as in the parts of the statement. -/
theorem same_inventory {session : Session} {value : Json} {select : Select}
    (h : (session.statement value).1.result = .ok select) (item : Item) :
    tally item (Node.select select).under = occurrences item (partsOf value) := by
  obtain ⟨hgives, _⟩ := gives_of_statement h
  obtain ⟨fields, rfl⟩ := exists_selectStmt_of_statement h
  obtain ⟨nodes, hnodes, htally⟩ :=
    Lower.assembled_of_select (Lower.givesSelect_of_gives hgives)
  rw [htally, Parse.partsOf_tagged]
  exact hnodes.tally_eq (fun value _ => Lower.counted value) item

/-- The statement `SELECT count(*) AS n, (SELECT 7) FROM t JOIN u ON x = 7 WHERE y IN (7, 8)`. -/
def stockedStatement : Json :=
  let constant (n : Nat) : Json :=
    tagged .aConst [("val", tagged .integer [("ival", .ofNat n)])]
  let operator (text : String) : Json := .array [tagged .string [("str", .string text)]]
  let target (value : Json) (rest : Json.Fields) : Json :=
    tagged .resTarget (("val", value) :: rest)
  tagged .selectStmt [
    ("targetList", .array [
      target (tagged .funcCall [("funcname", operator "count"), ("agg_star", .bool true)])
        [("name", .string "n")],
      target (tagged .subLink [("subLinkType", .ofNat 4),
        ("subselect", tagged .selectStmt [("targetList", .array [target (constant 7) []])])]) []]),
    ("fromClause", .array [tagged .joinExpr [
      ("larg", tagged .rangeVar [("relname", .string "t")]),
      ("rarg", tagged .rangeVar [("relname", .string "u")]),
      ("quals", tagged .aExpr [("kind", .ofNat 0), ("lexpr", columnTree "x"),
        ("rexpr", constant 7), ("name", operator "=")])]]),
    ("whereClause", tagged .aExpr [("kind", .ofNat 7), ("lexpr", columnTree "y"),
      ("rexpr", .array [constant 7, constant 8]), ("name", operator "=")])]

/-- The select that `stockedStatement` is lowered to. -/
def stockedSelect : Select where
  source := some [{ name := "t" }]
  projections := [.as (.aggregate .count [.star] false) "n",
    .select { projections := [.integer 7] }]
  wheres := [.inList (.column "\"y\"") [.integer 7, .integer 8] false]
  joins := [{
    kind := .inner
    right := { name := "u" }
    on := some (.eq (.column "\"x\"") (.integer 7)) }]

theorem same_inventory_stockedStatement :
    (Session.statement {} stockedStatement).1.result = .ok stockedSelect ∧
      tally (.integer 7) (Node.select stockedSelect).under = 3 ∧
      occurrences (.integer 7) (partsOf stockedStatement) = 3 := by
  have h : (Session.statement {} stockedStatement).1.result = .ok stockedSelect := rfl
  rw [← same_inventory h]
  have htally : tally (.integer 7) (Node.select stockedSelect).under = 3 := by
    simp [tally, Node.all_eq, stockedSelect, Node.under, Node.tables, Node.parts,
      Query.Clauses.nodes, Node.item?, Node.eq]
  exact ⟨h, htally, htally⟩

end SelectTree
