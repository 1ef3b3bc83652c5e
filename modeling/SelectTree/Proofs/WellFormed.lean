import SelectTree.Proofs.Inventory
import SelectTree.Proofs.JoinSpine
import SelectTree.Proofs.StatementLayouts

/-!
# Well-formed query trees

The type of query trees allows more than lowering ever makes: an empty conjunction, a null as any
operand, a join without a table to join to. `WellFormed` is what a reader of query trees can rely
on, and `output_well_formed` shows it of everything that is lowered.

Most of it is about two kinds of node, null and calls by name, that have one place only, the right
side of a comparison. `free` shows by induction over the parse tree that nothing is lowered
to one of them as a whole, and `placed_of_built` that the rules put them on the right of a
comparison and nowhere else.
-/

namespace SelectTree.Query.Node

/-! ## Places of nodes -/

/-- Whether a node may stand anywhere in a query tree, unlike null and calls by name. -/
def isFree : Node → Bool
  | .null | .function _ _ => false
  | _ => true

/-- The operators of null tests. -/
def nullTestOps : List ComparisonOp :=
  [.equality, .notEqual]

/-- A part of a node stands where it may: anywhere if it is free, and else on the right of a
comparison, null under the operator of a null test and a call by name as the operand of `op ANY`. -/
inductive Placed : Node → Node → Prop
  | free {node part : Node} : part.isFree = true → Placed node part
  | null {op : ComparisonOp} {left : Node} :
    op ∈ nullTestOps → left.isFree = true → Placed (.comparison op left .null) .null
  | any {op : ComparisonOp} {left operand : Node} :
    left.isFree = true → Placed (.comparison op left operand.any) operand.any

lemma isFree_orChain {operands : List Node} {chain : Node}
    (h : ∀ operand ∈ operands, operand.isFree = true) (hchain : orChain? operands = some chain) :
    chain.isFree = true := by
  cases operands with
  | nil => cases hchain
  | cons operand rest =>
    rcases orChain?_cons_eq_some_iff.mp hchain with ⟨rfl, rfl⟩ | ⟨tail, _, rfl⟩
    · exact h chain (List.mem_singleton_self chain)
    · rfl

end SelectTree.Query.Node

namespace SelectTree.Lower

open Parse (EachChild HasCode Kind Within present? tagged)
open Query (ComparisonOp Node Select Sources)
open Query.Node (Occurs Placed)

/-! ## What is lowered is free -/

/-- A parse tree is lowered to a free node. -/
def Free (value : Json) : Prop :=
  ∀ context result, Gives context value result → result.isFree = true

section

variable {kind : Kind} {fields : Json.Fields}

/-- What is made of a node as a whole is free: null and calls by name are only ever parts of it. -/
lemma isFree_of_makes {context : Context} {result : Node} (h : Makes context kind fields result) :
    result.isFree = true := by
  cases h <;> rfl

variable (ih : EachChild Free Kind.boolExpr.tag fields)

include ih

lemma isFree_of_operands {operands : List Node} (h : GivesOperands fields operands) :
    ∀ operand ∈ operands, operand.isFree = true := by
  obtain ⟨values, hvalues, hoperands⟩ := h
  intro operand hoperand
  obtain ⟨value, hvalue, hgives⟩ := exists_mem_left hoperands hoperand
  exact ih.of_mem hvalues hvalue _ _ hgives

lemma isFree_of_connects {expr : Node} (h : Connects fields expr) : expr.isFree = true := by
  cases h with
  | and | not => rfl
  | or _ hoperands hchain => exact Node.isFree_orChain (isFree_of_operands ih hoperands) hchain

end

theorem free (value : Json) : Free value := by
  intro context result h
  induction value using Parse.kind_induction generalizing context result with
  | other value hvalue =>
    obtain ⟨kind, fields, heq⟩ := exists_tagged_of_gives h
    exact absurd heq (hvalue kind fields)
  | node kind fields ih =>
    cases gives_tagged_iff.mp h with
    | makes h => exact isFree_of_makes h
    | constant hvalue h => exact ih.of_present hvalue _ _ h
    | wrapped hvalue h => exact ih.of_present hvalue _ _ h
    | target hvalue h _ => exact ih.of_present hvalue _ _ h
    | subLink _ hvalue h => exact ih.of_present hvalue _ _ h
    | boolean hexpr =>
      split
      · rfl
      · exact isFree_of_connects ih hexpr

lemma free_of_forall₂ {context : Context} {values : List Json} {results : List Node}
    (h : List.Forall₂ (Gives context) values results) :
    ∀ result ∈ results, result.isFree = true := by
  intro result hresult
  obtain ⟨value, _, hgives⟩ := exists_mem_left h hresult
  exact free value context result hgives

/-- The condition of a join is what some node is lowered to. -/
lemma exists_gives_of_condition {value : Json} {sources : Sources} {join : Query.Join Node}
    {on : Node} (h : GivesSources value sources) (hjoin : join ∈ Sources.joins sources)
    (hon : join.on = some on) : ∃ quals, Gives {} quals on := by
  obtain ⟨item, rfl, hitem⟩ := source_flattens value h
  have hjoins : Sources.joins item.sources = item.joins := by
    rw [Sources.joins, Query.JoinedTable.sources, List.filterMap_cons_none rfl,
      Query.JoinedTable.filterMap_join?_joined]
  rw [hjoins] at hjoin
  obtain ⟨fields, _, hlowers⟩ := exists_mem_left hitem.joins hjoin
  have hquals := hlowers.on
  rw [hon] at hquals
  generalize (Parse.raw Kind.joinExpr.tag fields).node? "quals" = quals? at hquals
  cases hquals with
  | some hgives => exact ⟨_, hgives.1⟩

lemma free_of_stems {kind : Kind} {fields : Json.Fields} {part : Node}
    (h : Stems kind fields part) : part.isFree = true := by
  cases h with
  | node _ hgives => exact free _ _ _ hgives
  | condition _ hsources hjoin hon =>
    obtain ⟨quals, hgives⟩ := exists_gives_of_condition hsources hjoin hon
    exact free _ _ _ hgives

/-! ## Parts stand where they may -/

lemma placed_of_makes {context : Context} {kind : Kind} {fields : Json.Fields} {node part : Node}
    (h : Makes context kind fields node) (hpart : part ∈ node.parts) : Placed node part := by
  cases h with
  | named _ hvalue _ =>
    obtain rfl := List.mem_singleton.mp hpart
    exact .free (free _ _ _ hvalue)
  | compare _ _ hleft _ hright _ =>
    rcases List.mem_pair.mp hpart with rfl | rfl
    · exact .free (free _ _ _ hleft)
    · exact .free (free _ _ _ hright)
  | compareAny _ _ hleft _ _ _ =>
    rcases List.mem_pair.mp hpart with rfl | rfl
    · exact .free (free _ _ _ hleft)
    · exact .any (free _ _ _ hleft)
  | inList _ _ hexpr _ hlist _ =>
    rcases List.mem_cons.mp hpart with rfl | hpart
    · exact .free (free _ _ _ hexpr)
    · exact .free (free_of_forall₂ hlist part hpart)
  | isNull _ hvalue _ | isNotNull _ hvalue _ =>
    rcases List.mem_pair.mp hpart with rfl | rfl
    · exact .free (free _ _ _ hvalue)
    · exact .null (by decide) (free _ _ _ hvalue)
  | aggregate _ hargs _ =>
    cases hargs with
    | star =>
      obtain rfl := List.mem_singleton.mp hpart
      exact .free rfl
    | list _ hargs =>
      obtain ⟨values, _, hargs⟩ := hargs
      exact .free (free_of_forall₂ hargs part hpart)
  | order _ hexpr _ _ _ =>
    obtain rfl := List.mem_singleton.mp hpart
    exact .free (free _ _ _ hexpr)
  | select hselect => exact .free (free_of_stems (stems_of_givesSelect hselect part hpart))
  | _ => cases hpart

lemma eachFree (fields : Json.Fields) : EachChild Free Kind.boolExpr.tag fields :=
  ⟨fun _ => free _, fun _ value _ => free value⟩

lemma placed_of_built {value : Json} {node part : Node} (h : Built value node)
    (hpart : part ∈ node.parts) : Placed node part := by
  cases h with
  | made _ hmakes => exact placed_of_makes hmakes hpart
  | null | star => cases hpart
  | any _ _ _ hright =>
    obtain rfl := List.mem_singleton.mp hpart
    exact .free (free _ _ _ hright)
  | grouping _ hexpr =>
    obtain rfl := List.mem_singleton.mp hpart
    exact .free (isFree_of_connects (eachFree _) hexpr)
  | and _ _ hoperands _ => exact .free (isFree_of_operands (eachFree _) hoperands part hpart)
  | or _ _ hoperands hsuffix hright =>
    have hfree := isFree_of_operands (eachFree _) hoperands
    rcases List.mem_pair.mp hpart with rfl | rfl
    · exact .free (hfree part (hsuffix.subset List.mem_cons_self))
    · refine .free (Node.isFree_orChain (fun operand hmem => ?_) hright)
      exact hfree operand (hsuffix.subset (List.mem_cons_of_mem _ hmem))
  | not _ _ hoperand => exact .free (isFree_of_operands (eachFree _) hoperand part hpart)

/-- A comparison with null is a null test: what it tests is what the argument of a null test within
the parse tree is lowered to, and its operator says which test it is. -/
inductive TestsNull (value : Json) : ComparisonOp → Node → Prop
  | isNull {fields : Json.Fields} {arg : Json} {operand : Node} :
    Within value (tagged .nullTest fields) → present? fields "arg" = some arg →
    Gives {} arg operand → HasCode fields "nulltesttype" 0 → TestsNull value .equality operand
  | isNotNull {fields : Json.Fields} {arg : Json} {operand : Node} :
    Within value (tagged .nullTest fields) → present? fields "arg" = some arg →
    Gives {} arg operand → HasCode fields "nulltesttype" 1 → TestsNull value .notEqual operand

lemma testsNull_of_built {value : Json} {op : ComparisonOp} {left : Node}
    (h : Built value (.comparison op left .null)) : TestsNull value op left := by
  generalize hnode : Node.comparison op left .null = node at h
  cases h with
  | made hwithin hmakes =>
    cases hmakes with
    | isNull harg hoperand hcode =>
      cases hnode
      exact .isNull hwithin harg hoperand hcode
    | isNotNull harg hoperand hcode =>
      cases hnode
      exact .isNotNull hwithin harg hoperand hcode
    | compare _ _ _ _ hright _ =>
      cases hnode
      -- the right side of any other comparison is free
      cases free _ _ _ hright
    | _ => cases hnode
  | _ => cases hnode

/-! ## Selects -/

/-- A FROM item starts with a table. -/
lemma exists_base_mem {value : Json} {sources : Sources} (h : GivesSources value sources) :
    ∃ table, Query.Source.base table ∈ sources := by
  obtain ⟨item, rfl, _⟩ := source_flattens value h
  exact ⟨item.table, List.mem_cons_self⟩

/-- Where there is no table, there is no FROM item, and so no join. -/
lemma joins_eq_nil {values : List Json} {parts : List Sources}
    (h : List.Forall₂ GivesSources values parts) (hnone : Sources.tables? parts.flatten = none) :
    Sources.joins parts.flatten = [] := by
  have htables : parts.flatten.filterMap Query.Source.table? = [] := by
    unfold Sources.tables? at hnone
    split at hnone
    · assumption
    · cases hnone
  cases h with
  | nil => rfl
  | @cons _ first _ rest hfirst _ =>
    obtain ⟨table, hmem⟩ := exists_base_mem hfirst
    have hflat : .base table ∈ (first :: rest).flatten := List.mem_append_left rest.flatten hmem
    have habsent := List.filterMap_eq_nil_iff.mp htables _ hflat
    cases habsent

/-! ## The constant null -/

/-- A parse tree that is lowered, as a node or as an item of a FROM clause. -/
def IsLowered (value : Json) : Prop :=
  (∃ context result, Gives context value result) ∨ ∃ sources, GivesSources value sources

lemma LoweredAll.isLowered {values : List Json} {nodes : List Node} (h : LoweredAll values nodes) :
    ∀ value ∈ values, IsLowered value := by
  induction h with
  | nil => simp
  | node h _ ih => exact List.forall_mem_cons.mpr ⟨.inl ⟨_, _, h⟩, ih⟩
  | source h _ ih => exact List.forall_mem_cons.mpr ⟨.inr ⟨_, h⟩, ih⟩

/-- What stands in a parse tree that is lowered is lowered. -/
lemma IsLowered.of_within {value node : Json} (h : IsLowered value) (hnode : Within value node) :
    IsLowered node := by
  induction hnode with
  | refl => exact h
  | tail _ hpart ih =>
    obtain ⟨kind, fields, rfl, hpart⟩ := hpart
    have hbalanced : ∃ results, Balanced kind fields results := by
      rcases ih with ⟨context, result, hgives⟩ | ⟨sources, hgives⟩
      · exact ⟨_, balanced_of_rule (gives_tagged_iff.mp hgives)⟩
      · exact ⟨_, balanced_of_sourceRule (givesSources_iff.mp hgives)⟩
    obtain ⟨_, nodes, hnodes, _⟩ := hbalanced
    exact hnodes.isLowered _ hpart

/-- There is no rule for the constant null. -/
lemma not_isLowered_null (fields : Json.Fields) : ¬ IsLowered (tagged .null fields) := by
  have hnode {context : Context} {result : Node} :
      ¬ Gives context (tagged .null fields) result := by
    intro h
    cases gives_tagged_iff.mp h with
    | makes h => cases h
  rintro (⟨context, result, h⟩ | ⟨sources, h⟩)
  · exact hnode h
  · have hrule := givesSources_iff.mp h
    generalize hvalue : tagged .null fields = value at hrule
    cases hrule with
    | table htable => exact hnode (hvalue ▸ htable)
    | join => cases (Parse.tagged_inj.mp hvalue).1

end SelectTree.Lower

namespace SelectTree.Query

/-- The clauses of a select fit together: a FROM clause that is there has a table, joins have a
table to join to, and there is one condition at most. -/
structure Clauses.WellFormed {ν : Type} (clauses : Clauses ν) : Prop where
  source_ne_nil : clauses.source ≠ some []
  joins_of_none : clauses.source = none → clauses.joins = []
  wheres_length : clauses.wheres.length ≤ 1

end SelectTree.Query

namespace SelectTree

open Lower (Built GivesSelect TestsNull)
open Parse (Within tagged)
open Query (Node Select Sources)
open Query.Node (Occurs Placed)

/-! ## Well-formed output -/

lemma clauses_wellFormed {fields : Json.Fields} {select : Select} (h : GivesSelect fields select) :
    select.WellFormed := by
  obtain ⟨items, parts, _, hparts, hsource, hjoins⟩ := h.fromClause
  obtain ⟨filter, _, hwheres⟩ := h.wheres
  refine ⟨?_, fun hnone => ?_, ?_⟩
  · rw [hsource]
    unfold Sources.tables?
    split
    · simp
    · next hne => simpa using hne
  · rw [hjoins]
    exact Lower.joins_eq_nil hparts (hsource ▸ hnone)
  · rw [hwheres]
    cases filter <;> simp

/-- What can be relied on everywhere in the query tree that a parse tree is lowered to. -/
structure WellFormed (value : Json) (result : Node) : Prop where
  /-- A conjunction has operands. -/
  conjunctions : ∀ operands, Occurs (.and operands) result → operands ≠ []
  /-- Null stands on the right of an equality or an inequality and nowhere else. -/
  nulls : result ≠ .null ∧ ∀ node, Occurs node result → .null ∈ node.parts →
    ∃ op left, node = .comparison op left .null ∧ left ≠ .null ∧ op ∈ [.equality, .notEqual]
  /-- Such a comparison is a null test. -/
  null_tests : ∀ op left, Occurs (.comparison op left .null) result → TestsNull value op left
  /-- The constant null stands nowhere in the parse tree, so that nothing is compared with it. -/
  null_constants : ∀ fields, ¬ Within value (tagged .null fields)
  /-- A call by name is `ANY` of one operand. -/
  calls : ∀ name args, Occurs (.function name args) result → name = "ANY" ∧ args.length = 1
  /-- It stands on the right of a comparison and nowhere else. -/
  calls_placed : ∀ name args, result ≠ .function name args ∧
    ∀ node, Occurs node result → .function name args ∈ node.parts →
      ∃ op left, node = .comparison op left (.function name args) ∧ left ≠ .function name args
  /-- The clauses of a select fit together. -/
  selects : ∀ select, Occurs (.select select) result → select.WellFormed

lemma wellFormed_of_gives {context : Context} {value : Json} {result : Node}
    (h : Lower.Gives context value result) : WellFormed value result := by
  have hfree := Lower.free value context result h
  have hbuilt {node : Node} (hnode : Occurs node result) : Built value node :=
    Lower.built_of_occurs h hnode
  have hplaced {node part : Node} (hnode : Occurs node result) (hpart : part ∈ node.parts) :
      Placed node part :=
    Lower.placed_of_built (hbuilt hnode) hpart
  refine ⟨?_, ⟨?_, ?_⟩, ?_, ?_, ?_, fun name args => ⟨?_, ?_⟩, ?_⟩
  · intro operands hnode
    cases hbuilt hnode with
    | made _ hmakes => cases hmakes
    | and _ _ _ hne => exact hne
  · rintro rfl
    cases hfree
  · intro node hnode hpart
    cases hplaced hnode hpart with
    | free hnull => cases hnull
    | null hop hleft =>
      refine ⟨_, _, rfl, ?_, hop⟩
      rintro rfl
      cases hleft
  · exact fun op left hnode => Lower.testsNull_of_built (hbuilt hnode)
  · intro fields hnull
    have hlowered : Lower.IsLowered value := .inl ⟨context, result, h⟩
    exact Lower.not_isLowered_null fields (hlowered.of_within hnull)
  · intro name args hnode
    cases hbuilt hnode with
    | made _ hmakes => cases hmakes
    | any => exact ⟨rfl, rfl⟩
  · rintro rfl
    cases hfree
  · intro node hnode hpart
    cases hplaced hnode hpart with
    | free hcall => cases hcall
    | any hleft =>
      refine ⟨_, _, rfl, ?_⟩
      rintro rfl
      cases hleft
  · intro select hnode
    cases hbuilt hnode with
    | made _ hmakes =>
      cases hmakes with
      | select hselect => exact clauses_wellFormed hselect

/-- The select of a parse result is that of its first statement. -/
lemma statement_of_tree {session : Session} {parsed : Json} {select : Select}
    (h : (session.tree parsed).1.result = .ok select) :
    ∃ statement rest, Parse.statements parsed = .ok (statement :: rest) ∧
      (session.statement statement).1.result = .ok select := by
  rw [tree_result, Lower.bind_eq_ok_iff] at h
  obtain ⟨_ | ⟨statement, rest⟩, hheld, hfirst⟩ := h
  · cases hfirst
  · exact ⟨statement, rest, hheld, hfirst⟩

/-- **Every output is well formed.** Whatever a session lowers, as a node in any context, as a
statement or as a parse result, conjunctions are not empty, null and calls by name stand on the
right of comparisons only, and the clauses of every select fit together. A comparison with null in
the output is a null test, since what compares with the constant null is not lowered at all. -/
theorem output_well_formed (session : Session) (value : Json) :
    (∀ context result, (session.node value context).1.result = .ok result →
      WellFormed value result) ∧
    (∀ select, (session.statement value).1.result = .ok select →
      WellFormed value (.select select)) ∧
    ∀ select, (session.tree value).1.result = .ok select →
      ∃ statement rest, Parse.statements value = .ok (statement :: rest) ∧
        WellFormed statement (.select select) := by
  refine ⟨fun context result hresult => ?_, fun select hresult => ?_, fun select hresult => ?_⟩
  · exact wellFormed_of_gives (gives_of_node hresult).1
  · exact wellFormed_of_gives (gives_of_statement hresult).1
  · obtain ⟨statement, rest, hrest, hstatement⟩ := statement_of_tree hresult
    exact ⟨statement, rest, hrest, wellFormed_of_gives (gives_of_statement hstatement).1⟩

/-- The statement `SELECT FROM t WHERE x IS NULL AND y = ANY z`. -/
def filteredStatement : Json :=
  tagged .selectStmt [("fromClause", .array [tagged .rangeVar [("relname", .string "t")]]),
    ("whereClause", booleanTree 0 [
      tagged .nullTest [("arg", columnTree "x"), ("nulltesttype", .ofNat 0)],
      tagged .aExpr [("kind", .ofNat 1), ("lexpr", columnTree "y"), ("rexpr", columnTree "z"),
        ("name", .array [tagged .string [("str", .string "=")]])]])]

/-- The select that `filteredStatement` is lowered to. -/
def filteredSelect : Select where
  source := some [{ name := "t" }]
  wheres := [.and [.isNull (.column "\"x\""), .eq (.column "\"y\"") (.any (.column "\"z\""))]]

theorem output_well_formed_filteredStatement :
    (Session.tree {} (.array [filteredStatement])).1.result = .ok filteredSelect ∧
      ∃ statement rest,
        Parse.statements (.array [filteredStatement]) = .ok (statement :: rest) ∧
        WellFormed statement (.select filteredSelect) :=
  ⟨rfl, (output_well_formed {} (.array [filteredStatement])).2.2 filteredSelect rfl⟩

end SelectTree
