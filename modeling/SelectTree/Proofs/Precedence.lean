import SelectTree.Proofs.Occurrence
import SelectTree.Proofs.Rules.Session

/-!
# Precedence of boolean operands

A query tree is rendered without regard to precedence: only a grouping becomes parentheses. So an
operand of a conjunction, a disjunction or a negation may not itself be one of these, unless it goes
on a chain of disjunctions. `boolean_precedence_kept` shows this for everything that is lowered, and
with it which boolean expression each connective comes from.
-/

namespace SelectTree.Query.Node

/-! ## Connectives of a query tree -/

/-- Whether a node is a conjunction, a disjunction or a negation, without parentheses around it. -/
def isConnective : Node → Bool
  | .and _ | .or _ _ | .not _ => true
  | _ => false

/-- No operand of a node is a bare connective, but that a disjunction goes on with one on its
right. -/
def KeepsPrecedence : Node → Prop
  | .and operands => ∀ operand ∈ operands, operand.isConnective = false
  | .or left right =>
    left.isConnective = false ∧ (right.isConnective = true → ∃ next rest, right = .or next rest)
  | .not operand => operand.isConnective = false
  | _ => True

/-- The operands of a chain of disjunctions: what stands on the left all the way down its right
side, and then its end. -/
def disjuncts : Node → List Node
  | .or left right => left :: right.disjuncts
  | node@(.table _) | node@(.column _) | node@(.literal _) | node@(.integer _) | node@.null
  | node@.star | node@(.as _ _) | node@(.comparison _ _ _) | node@(.inList _ _ _) | node@(.and _)
  | node@(.not _) | node@(.grouping _) | node@(.function _ _) | node@(.aggregate _ _ _)
  | node@(.order _ _) | node@(.select _) => [node]

lemma disjuncts_of_plain {node : Node} (h : node.isConnective = false) :
    node.disjuncts = [node] := by
  cases node with
  | or => cases h
  | _ => rfl

/-- A chain of disjunctions has the operands that it was built from. -/
lemma disjuncts_orChain {operands : List Node} {chain : Node}
    (h : ∀ operand ∈ operands, operand.isConnective = false)
    (hchain : orChain? operands = some chain) : chain.disjuncts = operands := by
  induction operands generalizing chain with
  | nil => cases hchain
  | cons operand rest ih =>
    rw [List.forall_mem_cons] at h
    rcases orChain?_cons_eq_some_iff.mp hchain with ⟨rfl, rfl⟩ | ⟨tail, htail, rfl⟩
    · exact disjuncts_of_plain h.1
    · rw [disjuncts, ih h.2 htail]

end SelectTree.Query.Node

namespace SelectTree

open Lower (Built Connects Gives GivesOperands Makes)
open Parse (HasCode Kind Within parts present? tagged)
open Query (Node)
open Query.Node (Occurs)

/-! ## Boolean expressions and their operands -/

/-- A parse tree is a boolean expression. -/
def Parse.IsBoolean (value : Json) : Prop :=
  ∃ fields, value = tagged .boolExpr fields

/-- A boolean expression within a parse tree, by the code of its operator and its arguments. -/
structure BooleanWithin (value : Json) (fields : Json.Fields) (code : Int64) (args : List Json) :
    Prop where
  within : Within value (tagged .boolExpr fields)
  operator : HasCode fields "boolop" code
  args : present? fields "args" = some (.array args)

/-- Every argument of a boolean expression within a parse tree is one itself, or is lowered to no
connective. -/
def PlainArguments (value : Json) : Prop :=
  ∀ fields args, Within value (tagged .boolExpr fields) →
    present? fields "args" = some (.array args) → ∀ arg ∈ args, ¬ Parse.IsBoolean arg →
    ∀ operand, Gives { nested := true } arg operand → operand.isConnective = false

/-- An argument of a boolean expression and the operand that it is lowered to, which is no bare
connective: if the argument is a boolean expression it is in parentheses. -/
structure BooleanOperand (arg : Json) (operand : Node) : Prop where
  gives : Gives { nested := true } arg operand
  plain : operand.isConnective = false
  grouped : Parse.IsBoolean arg → ∃ expr, operand = .grouping expr

/-- A connective and the boolean expression within a parse tree that it comes from. A disjunction
stands for the last arguments of one, with an operand for each of them. -/
inductive Connected (value : Json) : Node → Prop
  | and {fields : Json.Fields} {args : List Json} {operands : List Node} :
    BooleanWithin value fields 0 args → List.Forall₂ BooleanOperand args operands →
    Connected value (.and operands)
  | or {fields : Json.Fields} {args : List Json} {operands : List Node} {left right : Node} :
    BooleanWithin value fields 1 args → List.Forall₂ BooleanOperand args operands →
    (Node.or left right).disjuncts <:+ operands → Connected value (.or left right)
  | not {fields : Json.Fields} {arg : Json} {operand : Node} :
    BooleanWithin value fields 2 [arg] → BooleanOperand arg operand → Connected value (.not operand)

/-- What a parse tree is lowered to keeps the precedence of its boolean expressions. -/
structure PrecedenceKept (value : Json) (result : Node) : Prop where
  /-- Nowhere is an operand a bare connective. -/
  nowhere_bare : ∀ node, Occurs node result → node.KeepsPrecedence
  /-- Every connective comes from a boolean expression. -/
  connected : ∀ node, Occurs node result → node.isConnective = true → Connected value node
  /-- A disjunction is lowered to a chain with an operand for each argument. -/
  chains : ∀ fields args, BooleanWithin value fields 1 args → ∀ context node,
    Gives context (tagged .boolExpr fields) node →
    ∃ chain : Node, node = (if context.nested then .grouping chain else chain) ∧
      List.Forall₂ BooleanOperand args chain.disjuncts

/-! ## Operands -/

section

variable {value : Json}

/-- Inside a boolean expression, another one is put in parentheses. -/
lemma exists_grouping {arg : Json} {operand : Node} (harg : Parse.IsBoolean arg)
    (h : Gives { nested := true } arg operand) : ∃ expr, operand = .grouping expr := by
  obtain ⟨fields, rfl⟩ := harg
  cases Lower.gives_tagged_iff.mp h with
  | makes h => cases h
  | boolean => exact ⟨_, rfl⟩

lemma PlainArguments.operands (h : PlainArguments value) {fields : Json.Fields}
    (hwithin : Within value (tagged .boolExpr fields)) {operands : List Node}
    (hoperands : GivesOperands fields operands) :
    ∃ args, present? fields "args" = some (.array args) ∧
      List.Forall₂ BooleanOperand args operands := by
  obtain ⟨args, hargs, hoperands⟩ := hoperands
  refine ⟨args, hargs, ?_⟩
  have hplain := h fields args hwithin hargs
  refine ((List.forall₂_and_left args operands).mpr ⟨hplain, hoperands⟩).imp ?_
  rintro arg operand ⟨hplain, hgives⟩
  refine ⟨hgives, ?_, fun hboolean => exists_grouping hboolean hgives⟩
  by_cases hboolean : Parse.IsBoolean arg
  · obtain ⟨expr, rfl⟩ := exists_grouping hboolean hgives
    rfl
  · exact hplain hboolean operand hgives

lemma plain_of_operands {args : List Json} {operands : List Node}
    (h : List.Forall₂ BooleanOperand args operands) :
    ∀ operand ∈ operands, operand.isConnective = false := by
  intro operand hoperand
  obtain ⟨_, _, harg⟩ := Lower.exists_mem_left h hoperand
  exact harg.plain

/-! ## Connectives -/

/-- Only boolean expressions make connectives. -/
lemma not_isConnective_of_makes {context : Context} {kind : Kind} {fields : Json.Fields}
    {node : Node} (h : Makes context kind fields node) : node.isConnective = false := by
  cases h <;> rfl

lemma connected_of_built (h : PlainArguments value) {node : Node} (hbuilt : Built value node)
    (hconnective : node.isConnective = true) : Connected value node := by
  cases hbuilt with
  | made _ hmakes =>
    rw [not_isConnective_of_makes hmakes] at hconnective
    cases hconnective
  | and hwithin hop hoperands _ =>
    obtain ⟨args, hargs, hoperands⟩ := h.operands hwithin hoperands
    exact .and ⟨hwithin, hop, hargs⟩ hoperands
  | or hwithin hop hoperands hsuffix hright =>
    obtain ⟨args, hargs, hoperands⟩ := h.operands hwithin hoperands
    have hplain := plain_of_operands hoperands
    refine .or ⟨hwithin, hop, hargs⟩ hoperands ?_
    rw [Node.disjuncts, Node.disjuncts_orChain (fun operand hmem => hplain operand ?_) hright]
    · exact hsuffix
    · exact hsuffix.subset (List.mem_cons_of_mem _ hmem)
  | not hwithin hop hoperand =>
    obtain ⟨args, hargs, hoperand⟩ := h.operands hwithin hoperand
    cases hoperand with
    | cons hoperand hnil =>
      cases hnil
      exact .not ⟨hwithin, hop, hargs⟩ hoperand
  | _ => cases hconnective

lemma Connected.keepsPrecedence {node : Node} (h : Connected value node) :
    node.KeepsPrecedence := by
  cases h with
  | and _ hoperands => exact plain_of_operands hoperands
  | not _ hoperand => exact hoperand.plain
  | @or _ _ _ left right _ hoperands hsuffix =>
    have hplain (operand : Node) (hmem : operand ∈ left :: right.disjuncts) :
        operand.isConnective = false :=
      plain_of_operands hoperands operand (hsuffix.subset hmem)
    refine ⟨hplain left List.mem_cons_self, fun hconnective => ?_⟩
    cases right with
    | or next rest => exact ⟨next, rest, rfl⟩
    | _ =>
      -- any other right side is the last operand of the chain
      rw [hplain _ (List.mem_cons_of_mem _ (List.mem_singleton_self _))] at hconnective
      cases hconnective

lemma keepsPrecedence_of_plain {node : Node} (h : node.isConnective = false) :
    node.KeepsPrecedence := by
  cases node with
  | and | or | not => cases h
  | _ => trivial

/-- A disjunction is lowered to the chain of its operands. -/
lemma exists_chain (h : PlainArguments value) {fields : Json.Fields} {args : List Json}
    (hboolean : BooleanWithin value fields 1 args) {context : Context} {node : Node}
    (hnode : Gives context (tagged .boolExpr fields) node) :
    ∃ chain : Node, node = (if context.nested then .grouping chain else chain) ∧
      List.Forall₂ BooleanOperand args chain.disjuncts := by
  cases Lower.gives_tagged_iff.mp hnode with
  | makes hmakes => cases hmakes
  | boolean hexpr =>
    refine ⟨_, rfl, ?_⟩
    cases hexpr with
    | and hop => cases hop.unique hboolean.operator
    | not hop => cases hop.unique hboolean.operator
    | or _ hoperands hchain =>
      obtain ⟨args', hargs, hoperands⟩ := h.operands hboolean.within hoperands
      rw [hboolean.args] at hargs
      cases hargs
      rw [Node.disjuncts_orChain (plain_of_operands hoperands) hchain]
      exact hoperands

lemma precedenceKept_of_gives (h : PlainArguments value) {context : Context} {result : Node}
    (hresult : Gives context value result) : PrecedenceKept value result := by
  have hconnected (node : Node) (hnode : Occurs node result) :
      node.isConnective = true → Connected value node :=
    connected_of_built h (Lower.built_of_occurs hresult hnode)
  refine ⟨fun node hnode => ?_, hconnected, fun fields args hboolean context node hnode =>
    exists_chain h hboolean hnode⟩
  cases hconnective : node.isConnective with
  | true => exact (hconnected node hnode hconnective).keepsPrecedence
  | false => exact keepsPrecedence_of_plain hconnective

end

/-! ## Filters -/

/-- Conditions built to any depth from columns, constants, comparisons, memberships, null tests and
boolean expressions. -/
inductive FilterTree : Json → Prop
  | column {fields : Json.Fields} : FilterTree (tagged .columnRef fields)
  | constant {fields inner : Json.Fields} {kind : Kind} :
    present? fields "val" = some (tagged kind inner) → kind ∈ [Kind.integer, .string] →
    FilterTree (tagged .aConst fields)
  | operation {fields : Json.Fields} {code : Int64} :
    HasCode fields "kind" code → code ∈ ([0, 1, 7] : List Int64) →
    (∀ part ∈ parts .aExpr fields, FilterTree part) → FilterTree (tagged .aExpr fields)
  | nullTest {fields : Json.Fields} :
    (∀ part ∈ parts .nullTest fields, FilterTree part) → FilterTree (tagged .nullTest fields)
  | boolean {fields : Json.Fields} :
    (∀ part ∈ parts .boolExpr fields, FilterTree part) → FilterTree (tagged .boolExpr fields)

section

variable {kind : Kind} {fields : Json.Fields} {value : Json}

lemma FilterTree.cases_tagged (h : FilterTree (tagged kind fields)) :
    kind = .columnRef ∨
      (kind = .aConst ∧ ∃ kind' inner, kind' ∈ [Kind.integer, .string] ∧
        present? fields "val" = some (tagged kind' inner)) ∨
      (kind ∈ [Kind.aExpr, .nullTest, .boolExpr] ∧
        ∀ part ∈ parts kind fields, FilterTree part) := by
  generalize hvalue : tagged kind fields = value at h
  cases h with
  | column =>
    obtain ⟨rfl, rfl⟩ := Parse.tagged_inj.mp hvalue
    exact .inl rfl
  | constant hval hkind =>
    obtain ⟨rfl, rfl⟩ := Parse.tagged_inj.mp hvalue
    exact .inr (.inl ⟨rfl, _, _, hkind, hval⟩)
  | operation _ _ hparts | nullTest hparts | boolean hparts =>
    obtain ⟨rfl, rfl⟩ := Parse.tagged_inj.mp hvalue
    exact .inr (.inr ⟨by decide, hparts⟩)

/-- What stands in a filter is a filter, or the value of a constant. -/
lemma FilterTree.of_within {node : Json} (h : FilterTree value) (hnode : Within value node) :
    FilterTree node ∨ ∃ kind inner, kind ∈ [Kind.integer, .string] ∧ node = tagged kind inner := by
  induction hnode with
  | refl => exact .inl h
  | tail _ hpart ih =>
    obtain ⟨kind, fields, rfl, hpart⟩ := hpart
    rcases ih with hfilter | ⟨kind', inner, hkind, heq⟩
    · rcases hfilter.cases_tagged with rfl | ⟨rfl, kind', inner, hkind, hval⟩ | ⟨_, hparts⟩
      · cases hpart
      · rw [Parse.parts_constant hval, List.mem_singleton] at hpart
        exact .inr ⟨kind', inner, hkind, hpart⟩
      · exact .inl (hparts _ hpart)
    · obtain ⟨rfl, rfl⟩ := Parse.tagged_inj.mp heq
      rcases List.mem_pair.mp hkind with rfl | rfl <;> cases hpart

lemma FilterTree.of_boolean_within (h : FilterTree value)
    (hboolean : Within value (tagged .boolExpr fields)) {args : List Json}
    (hargs : present? fields "args" = some (.array args)) : ∀ arg ∈ args, FilterTree arg := by
  rcases h.of_within hboolean with hfilter | ⟨kind, inner, hkind, heq⟩
  · rcases hfilter.cases_tagged with hkind | ⟨hkind, _⟩ | ⟨_, hparts⟩
    · cases hkind
    · cases hkind
    · rwa [Parse.parts_boolExpr hargs] at hparts
  · obtain ⟨rfl, _⟩ := Parse.tagged_inj.mp heq
    exact absurd hkind (by decide)

/-- Of filters, boolean expressions alone become connectives. -/
lemma FilterTree.plain (h : FilterTree value) (hnot : ¬ Parse.IsBoolean value) {context : Context}
    {result : Node} (hresult : Gives context value result) : result.isConnective = false := by
  obtain ⟨kind, fields, rfl⟩ := Lower.exists_tagged_of_gives hresult
  cases Lower.gives_tagged_iff.mp hresult with
  | makes hmakes => exact not_isConnective_of_makes hmakes
  | boolean => exact absurd ⟨fields, rfl⟩ hnot
  | constant hval hvalue =>
    rcases h.cases_tagged with hkind | ⟨_, kind, inner, hkind, hval'⟩ | ⟨hkind, _⟩
    · cases hkind
    · rw [hval] at hval'
      cases hval'
      rcases List.mem_pair.mp hkind with rfl | rfl
      · cases Lower.gives_tagged_iff.mp hvalue with
        | makes hmakes => exact not_isConnective_of_makes hmakes
      · cases Lower.gives_tagged_iff.mp hvalue with
        | makes hmakes => exact not_isConnective_of_makes hmakes
    · exact absurd hkind (by decide)
  | _ =>
    rcases h.cases_tagged with hkind | ⟨hkind, _⟩ | ⟨hkind, _⟩
    · cases hkind
    · cases hkind
    · exact absurd hkind (by decide)

lemma plainArguments_of_filterTree (h : FilterTree value) : PlainArguments value := by
  intro fields args hwithin hargs arg harg hnot operand hoperand
  exact (h.of_boolean_within hwithin hargs arg harg).plain hnot hoperand

end

/-! ## Precedence is kept -/

/-- **Boolean operands keep their precedence.** Whatever a session lowers, as a node in any context
or as a statement: if the arguments of its boolean expressions are boolean expressions or are
lowered to other than connectives, then nowhere in the output is an operand of a connective a bare
connective, but for the next link in a chain of disjunctions. -/
theorem boolean_precedence_kept (session : Session) (value : Json) (h : PlainArguments value) :
    (∀ context result, (session.node value context).1.result = .ok result →
      PrecedenceKept value result) ∧
    ∀ select, (session.statement value).1.result = .ok select →
      PrecedenceKept value (.select select) :=
  ⟨fun _ _ hresult => precedenceKept_of_gives h (gives_of_node hresult).1,
    fun _ hresult => precedenceKept_of_gives h (gives_of_statement hresult).1⟩

/-- The parse tree of a column. -/
def columnTree (name : String) : Json :=
  tagged .columnRef [("fields", .array [tagged .string [("str", .string name)]])]

/-- The parse tree of a boolean expression, by the code of its operator. -/
def booleanTree (code : Nat) (args : List Json) : Json :=
  tagged .boolExpr [("boolop", .ofNat code), ("args", .array args)]

lemma filterTree_columnTree (name : String) : FilterTree (columnTree name) :=
  .column

lemma filterTree_booleanTree {code : Nat} {args : List Json}
    (h : ∀ arg ∈ args, FilterTree arg) : FilterTree (booleanTree code args) :=
  .boolean (by rwa [Parse.parts_boolExpr rfl])

/-- The parse tree of `a OR b OR (c AND NOT a)`. -/
def mixedFilter : Json :=
  booleanTree 1 [columnTree "a", columnTree "b",
    booleanTree 0 [columnTree "c", booleanTree 2 [columnTree "a"]]]

lemma filterTree_mixedFilter : FilterTree mixedFilter := by
  have hnot : FilterTree (booleanTree 2 [columnTree "a"]) :=
    filterTree_booleanTree (by simp [filterTree_columnTree])
  have hand : FilterTree (booleanTree 0 [columnTree "c", booleanTree 2 [columnTree "a"]]) :=
    filterTree_booleanTree (by simp [filterTree_columnTree, hnot])
  exact filterTree_booleanTree (by simp [filterTree_columnTree, hand])

theorem boolean_precedence_kept_mixedFilter :
    PlainArguments mixedFilter ∧
      PrecedenceKept mixedFilter (.grouping (.or (.column "\"a\"") (.or (.column "\"b\"")
        (.grouping (.and [.column "\"c\"", .grouping (.not (.column "\"a\""))]))))) := by
  have hplain := plainArguments_of_filterTree filterTree_mixedFilter
  exact ⟨hplain, (boolean_precedence_kept {} mixedFilter hplain).1 { nested := true } _ rfl⟩

end SelectTree
