import Mathlib.Logic.Relation
import SelectTree.Proofs.Rules.Exact

/-!
# Where the nodes of a query tree come from

Lowering puts the query nodes of a parse tree together from those of its parts. `Query.Node.Occurs`
says that a node stands somewhere in a query tree, sub-selects and join conditions included, and
`Parse.Within` that a node stands somewhere in a parse tree, in a place where it becomes a query
node.

`built_of_occurs` is the main result: whatever occurs in the query tree of a parse tree was built by
the rule of a node within the parse tree. What holds of all that the rules build therefore holds
everywhere in the output.
-/

namespace SelectTree.Query

/-! ## Occurrences in query trees -/

/-- The nodes of all clauses of a select. -/
def Clauses.nodes {ν : Type} (clauses : Clauses ν) : List ν :=
  clauses.projections ++ clauses.wheres ++ clauses.orders ++ clauses.joins.filterMap (·.on)
    ++ clauses.limit.toList ++ clauses.offset.toList

namespace Node

/-- The nodes that a node is directly made of. -/
def parts : Node → List Node
  | .table _ | .column _ | .literal _ | .integer _ | .null | .star => []
  | .as expr _ | .grouping expr | .order expr _ => [expr]
  | .comparison _ left right | .or left right => [left, right]
  | .inList expr list _ => expr :: list
  | .and operands => operands
  | .not operand => [operand]
  | .function _ args | .aggregate _ args _ => args
  | .select clauses => clauses.nodes

/-- A node stands somewhere in a query tree. -/
def Occurs (node whole : Node) : Prop :=
  Relation.ReflTransGen (fun whole part => part ∈ whole.parts) whole node

lemma Occurs.refl (node : Node) : Occurs node node :=
  Relation.ReflTransGen.refl

lemma Occurs.of_part {node part whole : Node} (h : Occurs node part) (hpart : part ∈ whole.parts) :
    Occurs node whole :=
  Relation.ReflTransGen.head hpart h

lemma Occurs.trans {node part whole : Node} (h : Occurs node part) (hpart : Occurs part whole) :
    Occurs node whole :=
  Relation.ReflTransGen.trans hpart h

lemma Occurs.cases {node whole : Node} (h : Occurs node whole) :
    node = whole ∨ ∃ part ∈ whole.parts, Occurs node part :=
  (Relation.ReflTransGen.cases_head h).imp_left Eq.symm

lemma Occurs.eq_of_parts_nil {node whole : Node} (h : Occurs node whole)
    (hparts : whole.parts = []) : node = whole := by
  rcases h.cases with rfl | ⟨part, hpart, _⟩
  · rfl
  · rw [hparts] at hpart
    cases hpart

/-- In a chain of disjunctions occur what occurs in its operands, and the chains of the last of
them. -/
lemma occurs_orChain {operands : List Node} {chain node : Node}
    (hchain : orChain? operands = some chain) (h : Occurs node chain) :
    (∃ operand ∈ operands, Occurs node operand) ∨
      ∃ left rest right, left :: rest <:+ operands ∧ orChain? rest = some right ∧
        node = .or left right := by
  induction operands generalizing chain with
  | nil => cases hchain
  | cons operand rest ih =>
    rcases orChain?_cons_eq_some_iff.mp hchain with ⟨rfl, rfl⟩ | ⟨tail, htail, rfl⟩
    · exact .inl ⟨chain, List.mem_singleton_self chain, h⟩
    · rcases h.cases with rfl | ⟨part, hpart, hnode⟩
      · exact .inr ⟨operand, rest, tail, List.suffix_rfl, htail, rfl⟩
      · rcases List.mem_pair.mp hpart with rfl | rfl
        · exact .inl ⟨part, List.mem_cons_self, hnode⟩
        · rcases ih htail hnode with
            ⟨operand', hmem, h⟩ | ⟨left, rest', right, hsuffix, hright, rfl⟩
          · exact .inl ⟨operand', List.mem_cons_of_mem operand hmem, h⟩
          · exact .inr ⟨left, rest', right, hsuffix.trans (List.suffix_cons operand rest), hright,
              rfl⟩

end Node

end SelectTree.Query

namespace SelectTree.Parse

/-! ## Occurrences in parse trees -/

/-- The children of a node of a kind that stand for query nodes, and not for names. -/
def parts (kind : Kind) (fields : Json.Fields) : List Json :=
  match kind with
  | .columnRef | .rangeVar => []
  | .aExpr =>
    (raw kind.tag fields).one "lexpr"
      ++ if (raw kind.tag fields).isMembership then (raw kind.tag fields).many "rexpr"
        else (raw kind.tag fields).one "rexpr"
  | .funcCall =>
    match (raw kind.tag fields).flag "agg_star" with
    | .ok true => []
    | _ => (raw kind.tag fields).many "args"
  | _ => children kind (raw kind.tag fields)

/-- A parse tree stands somewhere in another one, in a place of a query node. -/
def Within (value node : Json) : Prop :=
  Relation.ReflTransGen
    (fun value child => ∃ kind fields, value = tagged kind fields ∧ child ∈ parts kind fields)
    value node

lemma Within.refl (value : Json) : Within value value :=
  Relation.ReflTransGen.refl

section

variable {kind : Kind} {tag key : String} {fields : Json.Fields} {value node : Json}

lemma Within.of_part (h : Within value node) (hvalue : value ∈ parts kind fields) :
    Within (tagged kind fields) node :=
  Relation.ReflTransGen.head ⟨kind, fields, rfl, hvalue⟩ h

/-! ### The parts of predicates -/

lemma parts_operation {code : Int64} (hcode : HasCode fields "kind" code)
    (hmem : code ∈ ([0, 1] : List Int64)) :
    parts .aExpr fields =
      (raw Kind.aExpr.tag fields).one "lexpr" ++ (raw Kind.aExpr.tag fields).one "rexpr" := by
  rw [parts, Attributes.isMembership_of_hasCode hcode]
  rcases List.mem_pair.mp hmem with rfl | rfl <;> rfl

lemma left_mem_parts {left : Json} (hleft : present? fields "lexpr" = some left) :
    left ∈ parts .aExpr fields :=
  List.mem_append_left _ (Attributes.mem_one_iff.mpr hleft)

lemma right_mem_parts {code : Int64} {right : Json} (hcode : HasCode fields "kind" code)
    (hmem : code ∈ ([0, 1] : List Int64)) (hright : present? fields "rexpr" = some right) :
    right ∈ parts .aExpr fields := by
  rw [parts_operation hcode hmem]
  exact List.mem_append_right _ (Attributes.mem_one_iff.mpr hright)

lemma parts_inList {left : Json} {values : List Json} (hcode : HasCode fields "kind" 7)
    (hleft : present? fields "lexpr" = some left)
    (hvalues : present? fields "rexpr" = some (.array values)) :
    parts .aExpr fields = left :: values := by
  rw [parts, Attributes.isMembership_of_hasCode hcode,
    Attributes.one_of_node (Attributes.node_raw_eq_ok_iff.mpr hleft),
    Attributes.many_of_list (Attributes.list_raw_eq_ok_iff.mpr hvalues)]
  rfl

lemma parts_constant (hvalue : present? fields "val" = some value) :
    parts .aConst fields = [value] :=
  Attributes.one_of_node (Attributes.node_raw_eq_ok_iff.mpr hvalue)

lemma parts_nullTest (hvalue : present? fields "arg" = some value) :
    parts .nullTest fields = [value] :=
  Attributes.one_of_node (Attributes.node_raw_eq_ok_iff.mpr hvalue)

lemma parts_boolExpr {values : List Json}
    (hvalues : present? fields "args" = some (.array values)) : parts .boolExpr fields = values :=
  Attributes.many_of_list (Attributes.list_raw_eq_ok_iff.mpr hvalues)

/-- A part is the value of an attribute, or an element of one. -/
lemma EachChild.of_mem_parts {motive : Json → Prop} (ih : EachChild motive kind.tag fields)
    (hvalue : value ∈ parts kind fields) : motive value := by
  have hone {key : String} (h : value ∈ (raw kind.tag fields).one key) : motive value :=
    ih.of_present (Attributes.mem_one_iff.mp h)
  have hmany {key : String} (h : value ∈ (raw kind.tag fields).many key) : motive value :=
    let ⟨_, hvalues, hmem⟩ := Attributes.mem_many_iff.mp h
    ih.of_mem hvalues hmem
  cases kind with
  | aExpr =>
    simp only [parts, List.mem_append] at hvalue
    split at hvalue
    · exact hvalue.elim hone hmany
    · exact hvalue.elim hone hone
  | funcCall =>
    simp only [parts] at hvalue
    split at hvalue
    · cases hvalue
    · exact hmany hvalue
  | _ =>
    simp only [parts, children, List.mem_append, List.not_mem_nil] at hvalue <;> grind

end

end SelectTree.Parse

namespace SelectTree.Lower

open Parse (Attributes EachChild HasCode Kind Within parts present? raw tagged)
open Query (Node Sources)
open Query.Node (Occurs)

/-! ## What the rules build -/

/-- A node that the rule of some node within a parse tree builds. Apart from what is made of the
children as a whole, these are the null of a null test, the star of a call, the right side of
`op ANY`, and the nodes of a boolean expression: its parentheses, and for a disjunction the chain of
each last part of its operands. -/
inductive Built (value : Json) : Node → Prop
  | made {context : Context} {kind : Kind} {fields : Json.Fields} {node : Node} :
    Within value (tagged kind fields) → Makes context kind fields node → Built value node
  | null : Built value .null
  | star : Built value .star
  | any {fields : Json.Fields} {r : Json} {right : Node} :
    Within value (tagged .aExpr fields) → HasCode fields "kind" 1 →
    present? fields "rexpr" = some r → Gives {} r right → Built value right.any
  | grouping {fields : Json.Fields} {expr : Node} :
    Within value (tagged .boolExpr fields) → Connects fields expr → Built value (.grouping expr)
  | and {fields : Json.Fields} {operands : List Node} :
    Within value (tagged .boolExpr fields) → HasCode fields "boolop" 0 →
    GivesOperands fields operands → operands ≠ [] → Built value (.and operands)
  | or {fields : Json.Fields} {operands rest : List Node} {left right : Node} :
    Within value (tagged .boolExpr fields) → HasCode fields "boolop" 1 →
    GivesOperands fields operands → left :: rest <:+ operands → Node.orChain? rest = some right →
    Built value (.or left right)
  | not {fields : Json.Fields} {operand : Node} :
    Within value (tagged .boolExpr fields) → HasCode fields "boolop" 2 →
    GivesOperands fields [operand] → Built value (.not operand)

lemma Built.of_part {kind : Kind} {fields : Json.Fields} {value : Json} {node : Node}
    (h : Built value node) (hvalue : value ∈ parts kind fields) :
    Built (tagged kind fields) node := by
  cases h with
  | made hwithin hmakes => exact .made (hwithin.of_part hvalue) hmakes
  | null => exact .null
  | star => exact .star
  | any hwithin hcode hr hright => exact .any (hwithin.of_part hvalue) hcode hr hright
  | grouping hwithin hexpr => exact .grouping (hwithin.of_part hvalue) hexpr
  | and hwithin hop hoperands hne => exact .and (hwithin.of_part hvalue) hop hoperands hne
  | or hwithin hop hoperands hsuffix hright =>
    exact .or (hwithin.of_part hvalue) hop hoperands hsuffix hright
  | not hwithin hop hoperand => exact .not (hwithin.of_part hvalue) hop hoperand

/-- Whatever occurs in the query nodes of a parse tree was built from nodes within it: in the node
that it is lowered to, and in the conditions of the joins that it is lowered to. -/
structure Accounted (value : Json) : Prop where
  node : ∀ {context result node}, Gives context value result → Occurs node result →
    Built value node
  condition : ∀ {sources join on node}, GivesSources value sources → join ∈ Sources.joins sources →
    join.on = some on → Occurs node on → Built value node

section

variable {kind : Kind} {fields : Json.Fields}

/-- A node that stems from the parts of a parse node: a part is lowered to it, or it is the
condition of a join that a part is lowered to. -/
inductive Stems (kind : Kind) (fields : Json.Fields) : Node → Prop
  | node {value : Json} {context : Context} {node : Node} :
    value ∈ parts kind fields → Gives context value node → Stems kind fields node
  | condition {value : Json} {sources : Sources} {join : Query.Join Node} {on : Node} :
    value ∈ parts kind fields → GivesSources value sources → join ∈ Sources.joins sources →
    join.on = some on → Stems kind fields on

lemma Stems.built {node part : Node} (hpart : Stems kind fields part)
    (ih : EachChild Accounted kind.tag fields) (h : Occurs node part) :
    Built (tagged kind fields) node := by
  cases hpart with
  | node hvalue hpart => exact ((ih.of_mem_parts hvalue).node hpart h).of_part hvalue
  | condition hvalue hsources hjoin hon =>
    exact ((ih.of_mem_parts hvalue).condition hsources hjoin hon h).of_part hvalue

lemma stems_of_forall₂ {context : Context} {values : List Json} {results : List Node}
    (hvalues : ∀ value ∈ values, value ∈ parts kind fields)
    (h : List.Forall₂ (Gives context) values results) :
    ∀ part ∈ results, Stems kind fields part := by
  intro part hpart
  obtain ⟨value, hvalue, hgives⟩ := exists_mem_left h hpart
  exact .node (hvalues value hvalue) hgives

lemma stems_of_givesEach {key : String} {results : List Node}
    (hkey : ∀ value ∈ (raw kind.tag fields).many key, value ∈ parts kind fields)
    (h : GivesEach fields key results) : ∀ part ∈ results, Stems kind fields part := by
  obtain ⟨values, hvalues, h⟩ := h
  exact stems_of_forall₂
    (fun value hvalue => hkey value (Attributes.mem_many_of_getD hvalues hvalue)) h

lemma stems_of_givesOptional {key : String} {result : Option Node}
    (hkey : ∀ value ∈ (raw kind.tag fields).one key, value ∈ parts kind fields)
    (h : GivesOptional fields key result) : ∀ part ∈ result, Stems kind fields part := by
  unfold GivesOptional at h
  cases hvalue : present? fields key with
  | none =>
    rw [hvalue] at h
    cases h
    rintro _ ⟨⟩
  | some value =>
    rw [hvalue] at h
    cases h with
    | some h =>
      rintro _ ⟨⟩
      exact .node (hkey value (Attributes.mem_one_iff.mpr hvalue)) h

/-- The conditions of all joins of a FROM clause stem from its items. -/
lemma stems_of_joins {values : List Json} {sources : List Sources}
    (hvalues : ∀ value ∈ values, value ∈ parts kind fields)
    (h : List.Forall₂ GivesSources values sources) {join : Query.Join Node} {on : Node}
    (hjoin : join ∈ Sources.joins sources.flatten) (hon : join.on = some on) :
    Stems kind fields on := by
  obtain ⟨source, hsource, hjoin⟩ := List.mem_filterMap.mp hjoin
  obtain ⟨part, hpart, hsource⟩ := List.mem_flatten.mp hsource
  obtain ⟨value, hvalue, hgives⟩ := exists_mem_left h hpart
  exact .condition (hvalues value hvalue) hgives
    (List.mem_filterMap.mpr ⟨source, hsource, hjoin⟩) hon

/-- All nodes in the clauses of a select stem from the parts of its parse node. -/
lemma stems_of_givesSelect {select : Query.Select} (h : GivesSelect fields select) :
    ∀ part ∈ select.nodes, Stems .selectStmt fields part := by
  obtain ⟨items, sources, hitems, hsources, _, hjoins⟩ := h.fromClause
  obtain ⟨filter, hfilter, hwheres⟩ := h.wheres
  have hfrom : ∀ value ∈ items.getD [], value ∈ parts .selectStmt fields := by
    intro value hvalue
    have hmany : value ∈ (raw Kind.selectStmt.tag fields).many "fromClause" :=
      Attributes.mem_many_of_getD hitems hvalue
    simp [parts, Parse.children, hmany]
  intro part hpart
  simp only [Query.Clauses.nodes, List.mem_append, List.mem_filterMap, Option.mem_toList,
    hwheres, hjoins] at hpart
  rcases hpart with ((((hpart | hpart) | hpart) | ⟨join, hjoin, hon⟩) | hpart) | hpart
  · refine stems_of_givesEach (fun value hvalue => ?_) h.projections part hpart
    simp [parts, Parse.children, hvalue]
  · refine stems_of_givesOptional (fun value hvalue => ?_) hfilter part hpart
    simp [parts, Parse.children, hvalue]
  · refine stems_of_givesEach (fun value hvalue => ?_) h.orders part hpart
    simp [parts, Parse.children, hvalue]
  · exact stems_of_joins hfrom hsources hjoin hon
  · refine stems_of_givesOptional (fun value hvalue => ?_) h.limit part hpart
    simp [parts, Parse.children, hvalue]
  · refine stems_of_givesOptional (fun value hvalue => ?_) h.offset part hpart
    simp [parts, Parse.children, hvalue]

/-- A part of what is made of a parse node: it stems from the parts of the parse node, or it is one
of the three nodes that the rules add, the null of a null test, the star of a call and the right
side of `op ANY`. -/
inductive MadePart (kind : Kind) (fields : Json.Fields) : Node → Prop
  | stems {part : Node} : Stems kind fields part → MadePart kind fields part
  | null : MadePart kind fields .null
  | star : MadePart kind fields .star
  | any {r : Json} {right : Node} : kind = .aExpr → HasCode fields "kind" 1 →
    present? fields "rexpr" = some r → Gives {} r right → MadePart kind fields right.any

lemma madePart_of_nullTest (hkind : kind = .nullTest) {value : Json} {operand part : Node}
    (harg : present? fields "arg" = some value) (hvalue : Gives {} value operand)
    (hpart : part ∈ [operand, .null]) : MadePart kind fields part := by
  subst hkind
  rcases List.mem_pair.mp hpart with rfl | rfl
  · have hmem : value ∈ parts .nullTest fields := by simp [Parse.parts_nullTest harg]
    exact .stems (.node hmem hvalue)
  · exact .null

lemma madePart_of_makes {context : Context} {result part : Node}
    (h : Makes context kind fields result) (hpart : part ∈ result.parts) :
    MadePart kind fields part := by
  cases h with
  | named hval hvalue hname =>
    obtain rfl := List.mem_singleton.mp hpart
    have hmem : _ ∈ parts .resTarget fields := Attributes.mem_one_iff.mpr hval
    exact .stems (.node hmem hvalue)
  | compare hcode hl hleft hr hright _ =>
    rcases List.mem_pair.mp hpart with rfl | rfl
    · exact .stems (.node (Parse.left_mem_parts hl) hleft)
    · exact .stems (.node (Parse.right_mem_parts hcode (by decide) hr) hright)
  | compareAny hcode hl hleft hr hright _ =>
    rcases List.mem_pair.mp hpart with rfl | rfl
    · exact .stems (.node (Parse.left_mem_parts hl) hleft)
    · exact .any rfl hcode hr hright
  | inList hcode hl hexpr hr hlist _ =>
    rcases List.mem_cons.mp hpart with rfl | hpart
    · exact .stems (.node (Parse.left_mem_parts hl) hexpr)
    · refine .stems (stems_of_forall₂ (fun value hvalue => ?_) hlist part hpart)
      rw [Parse.parts_inList hcode hl hr]
      exact List.mem_cons_of_mem _ hvalue
  | isNull harg hvalue _ => exact madePart_of_nullTest rfl harg hvalue hpart
  | isNotNull harg hvalue _ => exact madePart_of_nullTest rfl harg hvalue hpart
  | aggregate _ hargs _ =>
    cases hargs with
    | star =>
      obtain rfl := List.mem_singleton.mp hpart
      exact .star
    | list hstar hargs =>
      have hparts : parts .funcCall fields = (raw Kind.funcCall.tag fields).many "args" := by
        rw [parts, Attributes.flag_raw_eq_ok_iff.mpr hstar]
      exact .stems (stems_of_givesEach (fun _ => hparts ▸ id) hargs part hpart)
  | order hvalue hexpr _ _ _ =>
    obtain rfl := List.mem_singleton.mp hpart
    have hmem : _ ∈ parts .sortBy fields := Attributes.mem_one_iff.mpr hvalue
    exact .stems (.node hmem hexpr)
  | select hselect => exact .stems (stems_of_givesSelect hselect part hpart)
  | _ => cases hpart

/-- The operands of a boolean expression stem from its parts. -/
lemma stems_of_operand {operands : List Node} {operand : Node} (hkind : kind = .boolExpr)
    (hoperands : GivesOperands fields operands) (hoperand : operand ∈ operands) :
    Stems kind fields operand := by
  subst hkind
  obtain ⟨values, hvalues, hoperands⟩ := hoperands
  refine stems_of_forall₂ (fun value hvalue => ?_) hoperands operand hoperand
  rw [Parse.parts_boolExpr hvalues]
  exact hvalue

/-- The conditions of the joins of an item stem from its parts: from the left side, or from the
condition of the last join. -/
lemma stems_of_sourceRule {sources : Sources} {join : Query.Join Node} {on : Node}
    (h : SourceRule (tagged kind fields) sources) (hjoin : join ∈ Sources.joins sources)
    (hon : join.on = some on) : Stems kind fields on := by
  generalize hvalue : tagged kind fields = value at h
  cases h with
  | table => cases hjoin
  | join _ _ _ _ _ hleft hbefore _ _ hquals =>
    obtain ⟨rfl, rfl⟩ := Parse.tagged_inj.mp hvalue
    rw [Sources.joins, List.filterMap_append, List.mem_append] at hjoin
    rcases hjoin with hjoin | hjoin
    · refine .condition ?_ hbefore hjoin hon
      simp [parts, Parse.children, Attributes.mem_one_iff.mpr hleft]
    · obtain rfl := List.mem_singleton.mp hjoin
      refine stems_of_givesOptional (fun value hvalue => ?_) hquals on hon
      simp [parts, Parse.children, hvalue]

/-! ## Provenance -/

variable (ih : EachChild Accounted kind.tag fields)

include ih

lemma built_of_madePart {part node : Node} (hpart : MadePart kind fields part)
    (hnode : Occurs node part) : Built (tagged kind fields) node := by
  cases hpart with
  | stems hstems => exact hstems.built ih hnode
  | null =>
    obtain rfl := hnode.eq_of_parts_nil rfl
    exact .null
  | star =>
    obtain rfl := hnode.eq_of_parts_nil rfl
    exact .star
  | any hkind hcode hr hright =>
    subst hkind
    rcases hnode.cases with rfl | ⟨operand, hoperand, hinner⟩
    · exact .any (.refl _) hcode hr hright
    · obtain rfl := List.mem_singleton.mp hoperand
      have hmem := Parse.right_mem_parts hcode (by decide) hr
      exact (Stems.node hmem hright).built ih hinner

lemma built_of_connects {expr node : Node} (hkind : kind = .boolExpr) (h : Connects fields expr)
    (hnode : Occurs node expr) : Built (tagged kind fields) node := by
  cases h with
  | and hop hoperands hne =>
    rcases hnode.cases with rfl | ⟨operand, hoperand, hinner⟩
    · exact .and (hkind ▸ .refl _) hop hoperands hne
    · exact (stems_of_operand hkind hoperands hoperand).built ih hinner
  | or hop hoperands hchain =>
    rcases Query.Node.occurs_orChain hchain hnode with
      ⟨operand, hoperand, hinner⟩ | ⟨left, rest, right, hsuffix, hright, rfl⟩
    · exact (stems_of_operand hkind hoperands hoperand).built ih hinner
    · exact .or (hkind ▸ .refl _) hop hoperands hsuffix hright
  | not hop hoperand =>
    rcases hnode.cases with rfl | ⟨operand, hpart, hinner⟩
    · exact .not (hkind ▸ .refl _) hop hoperand
    · exact (stems_of_operand hkind hoperand hpart).built ih hinner

lemma built_of_rule {context : Context} {result node : Node} (h : Rule context kind fields result)
    (hnode : Occurs node result) : Built (tagged kind fields) node := by
  cases h with
  | makes h =>
    rcases hnode.cases with rfl | ⟨part, hpart, hinner⟩
    · exact .made (.refl _) h
    · exact built_of_madePart ih (madePart_of_makes h hpart) hinner
  | constant hval h =>
    have hmem : _ ∈ parts .aConst fields := Attributes.mem_one_iff.mpr hval
    exact (Stems.node hmem h).built ih hnode
  | wrapped hstmt h =>
    have hmem : _ ∈ parts .rawStmt fields := Attributes.mem_one_iff.mpr hstmt
    exact (Stems.node hmem h).built ih hnode
  | target hval h _ =>
    have hmem : _ ∈ parts .resTarget fields := Attributes.mem_one_iff.mpr hval
    exact (Stems.node hmem h).built ih hnode
  | subLink _ hselect h =>
    have hmem : _ ∈ parts .subLink fields := Attributes.mem_one_iff.mpr hselect
    exact (Stems.node hmem h).built ih hnode
  | @boolean _ expr h =>
    cases hnested : context.nested with
    | false =>
      rw [hnested] at hnode
      exact built_of_connects ih rfl h hnode
    | true =>
      rw [hnested] at hnode
      rcases hnode.cases with rfl | ⟨part, hpart, hinner⟩
      · exact .grouping (.refl _) h
      · obtain rfl : part = expr := List.mem_singleton.mp hpart
        exact built_of_connects ih rfl h hinner

end

theorem accounted (value : Json) : Accounted value := by
  induction value using Parse.kind_induction with
  | node kind fields ih =>
    exact ⟨fun h => built_of_rule ih (gives_tagged_iff.mp h),
      fun h hjoin hon => (stems_of_sourceRule (givesSources_iff.mp h) hjoin hon).built ih⟩
  | other value hvalue =>
    refine ⟨fun h => ?_, fun h hjoin => ?_⟩
    · obtain ⟨kind, fields, heq⟩ := exists_tagged_of_gives h
      exact absurd heq (hvalue kind fields)
    · cases givesSources_iff.mp h with
      | table => cases hjoin
      | join => exact absurd rfl (hvalue _ _)

/-- Whatever occurs in the query tree of a parse tree was built by the rule of a node within it. -/
theorem built_of_occurs {context : Context} {value : Json} {result node : Node}
    (h : Gives context value result) (hnode : Occurs node result) : Built value node :=
  (accounted value).node h hnode

end SelectTree.Lower
