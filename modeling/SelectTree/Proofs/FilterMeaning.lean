import SelectTree.Proofs.Meaning

/-!
# Lowering keeps the meaning of filters

Lowering a filter and evaluating it are two walks over the same parse tree, one into query nodes and
one into values. `Agrees` says that two such walks end alike, and `agrees_of_spells` that these two
do, by induction over the parse tree with one case for each form of a filter.
-/

namespace SelectTree

open Lower (answer depthCeiling need)
open Parse (Attributes Kind EachChild Coded raw tagged)
open Query (ComparisonOp Node)

/-- A result and an optional value agree: neither is there, or both are and they are related. -/
inductive Agrees {α β : Type} (related : α → β → Prop) : Except Error α → Option β → Prop
  | good {a : α} {b : β} : related a b → Agrees related (.ok a) (some b)
  | bad {error : Error} : Agrees related (.error error) none

namespace Agrees

variable {α β γ δ : Type} {related : α → β → Prop} {related' : γ → δ → Prop}

lemma bind {result : Except Error α} {value : Option β} {next : α → Except Error γ}
    {next' : β → Option δ} (h : Agrees related result value)
    (hnext : ∀ a b, related a b → Agrees related' (next a) (next' b)) :
    Agrees related' (result >>= next) (value >>= next') := by
  cases h with
  | good hab => exact hnext _ _ hab
  | bad => exact bad

lemma map {result : Except Error α} {value : Option β} {f : α → γ} {related' : γ → β → Prop}
    (h : Agrees related result value) (hf : ∀ a b, related a b → related' (f a) b) :
    Agrees related' (result >>= fun a => .ok (f a)) value := by
  cases h with
  | good hab => exact good (hf _ _ hab)
  | bad => exact bad

end Agrees

variable {V : Type} (env : Environment V)

/-- A parse tree lowers, in every context, to a node with the value of the filter that it spells. -/
def Faithful (value : Json) (filter : Filter) : Prop :=
  ∀ context, Agrees (HasValue env) (answer (Lower.node value context)) (filter.meaning env)

variable {env}

lemma agrees_mapM {values : List Json} {filters : List Filter}
    (h : List.Forall₂ (Faithful env) values filters) (context : Context) :
    Agrees (List.Forall₂ (HasValue env))
      (values.mapM fun value => answer (Lower.node value context))
      (Filter.meanings env filters) := by
  induction h with
  | nil => exact .good .nil
  | cons hhead _ ih =>
    rw [List.mapM_cons, Filter.meanings]
    exact (hhead context).bind fun node x hx => ih.bind fun nodes xs hxs => .good (.cons hx hxs)

/-! ## Leaves -/

lemma answer_string (fields : Json.Fields) {text : String}
    (h : (raw Kind.string.tag fields).text "str" = .ok text) (context : Context) :
    answer (Lower.node (tagged .string fields) context) =
      .ok (.literal (match context.literal with
        | .operator => text
        | .constant => Text.quoted '\x27' text
        | .identifier => Text.quoted '"' text)) := by
  rw [Lower.answer_node, Lower.ofKind, Lower.string]
  simp only [Lower.liftM_eq, Attributes.text_of, Lower.answer_ofReading_bind, h, Lower.ok_bind]
  rcases context with ⟨_ | _ | _, _⟩ <;> rfl

/-- A part of a column's name lowers to its text. -/
lemma answer_part {value : Json} {part : Part} (h : PartSpells value part) :
    answer (Lower.plainText (Lower.child value) {} .columnField) = .ok part.text := by
  rw [Lower.answer_plainText]
  cases h with
  | name htext =>
    rw [answer_string _ htext]
    rfl
  | star =>
    rw [Lower.answer_node]
    rfl

lemma faithful_column {fields : Json.Fields} {values : List Json} {parts : List Part}
    (hlist : (raw Kind.columnRef.tag fields).list "fields" = .ok values)
    (hparts : List.Forall₂ PartSpells values parts) :
    Faithful env (tagged .columnRef fields) (.column parts) := by
  intro context
  have hmap : values.mapM
      (fun value => answer (Lower.plainText (Lower.child value) {} .columnField)) =
        .ok (parts.map Part.text) := by
    rw [Lower.mapM_eq_ok_iff, List.forall₂_map_right_iff]
    exact hparts.imp fun _ _ => answer_part
  rw [Lower.answer_node, Lower.ofKind, Lower.column, Filter.meaning]
  simp only [Lower.liftM_eq, Lower.answer_ofReading_bind, Attributes.list_of, Lower.map_bind,
    hlist, Lower.ok_bind]
  rw [Lower.answer_mapM_child_bind fun value => Lower.settled_plainText value {} .columnField, hmap]
  exact .good rfl

lemma answer_operator {fields : Json.Fields} {token : String} (h : NamesOperator fields token) :
    answer (Lower.firstName (.of Lower.child Kind.aExpr.tag fields) "name" .operatorName) =
      .ok token := by
  obtain ⟨name, rest, hlist, htext⟩ := h
  simp only [Lower.firstName, Lower.liftM_eq, Lower.answer_ofReading_bind, Attributes.list_of,
    Lower.map_bind, hlist, Lower.ok_bind, List.map_cons, Lower.answer_plainText]
  rw [answer_string _ htext]
  rfl

/-! ## Forms -/

lemma faithful_integer {fields inner : Json.Fields} {value : Int64}
    (hnode : (raw Kind.aConst.tag fields).node "val" = .ok (tagged .integer inner))
    (hint : (raw Kind.integer.tag inner).int "ival" = .ok value) :
    Faithful env (tagged .aConst fields) (.integer value) := by
  intro context
  rw [Lower.answer_node, Lower.ofKind, Lower.constant, Filter.meaning]
  simp only [Lower.liftM_eq, Lower.answer_ofReading_bind, Attributes.node_of, Lower.map_bind, hnode,
    Lower.ok_bind, Lower.node_child]
  rw [Lower.answer_node, Lower.ofKind, Lower.integer]
  simp only [Lower.liftM_eq, Lower.answer_ofReading_bind, Attributes.int_of, hint, Lower.ok_bind]
  exact .good rfl

lemma faithful_string {fields inner : Json.Fields} {text : String}
    (hnode : (raw Kind.aConst.tag fields).node "val" = .ok (tagged .string inner))
    (htext : (raw Kind.string.tag inner).text "str" = .ok text) :
    Faithful env (tagged .aConst fields) (.string text) := by
  intro context
  rw [Lower.answer_node, Lower.ofKind, Lower.constant, Filter.meaning]
  simp only [Lower.liftM_eq, Lower.answer_ofReading_bind, Attributes.node_of, Lower.map_bind, hnode,
    Lower.ok_bind, Lower.node_child]
  rw [answer_string _ htext]
  exact .good (hasValue_literal text)

/-- Lowering takes the operators for the comparisons that they are in SQL. -/
lemma ofToken?_eq_comparison? (token : String) :
    ComparisonOp.ofToken? token = Filter.comparison? token := by
  unfold Filter.comparison?
  split
  case h_7 heq hne hgt hge hlt hle =>
    refine List.find?_eq_none.mpr fun op _ htoken => ?_
    obtain rfl : op.token = token := of_decide_eq_true htoken
    cases op with
    | equality => exact heq rfl
    | notEqual => exact hne rfl
    | greaterThan => exact hgt rfl
    | greaterThanOrEqual => exact hge rfl
    | lessThan => exact hlt rfl
    | lessThanOrEqual => exact hle rfl
  all_goals rfl

/-- A comparison by the operator that a node names has the value that the operand on its right
makes of it. -/
lemma agrees_compareBy {fields : Json.Fields} {token : String} (hname : NamesOperator fields token)
    {left right : Node} {x : V} {operand : Operand V} {value : ComparisonOp → V}
    (hleft : HasValue env left x) (hright : right.operand env = some operand)
    (hvalue : ∀ op, env.compareWith op x operand = some (value op)) :
    Agrees (HasValue env)
      (answer (Lower.compareBy (.of Lower.child Kind.aExpr.tag fields) left right))
      (do return value (← Filter.comparison? token)) := by
  rw [Lower.compareBy, Lower.answer_firstName_bind, answer_operator hname, Lower.ok_bind,
    Lower.liftM_eq, Lower.answer_ofReading, Node.compareBy, ofToken?_eq_comparison?]
  cases Filter.comparison? token with
  | none => exact .bad
  | some op => exact .good (hasValue_comparison hleft hright (hvalue op))

section

variable {fields : Json.Fields} {l r : Json} {left right : Filter} {token : String}
  (hl : (raw Kind.aExpr.tag fields).node "lexpr" = .ok l) (ihl : Faithful env l left)
  (hr : (raw Kind.aExpr.tag fields).node "rexpr" = .ok r) (ihr : Faithful env r right)
  (hname : NamesOperator fields token)
include hl ihl hr ihr hname

lemma faithful_compare (hcode : (raw Kind.aExpr.tag fields).code "kind" = .ok 0) :
    Faithful env (tagged .aExpr fields) (.compare token left right) := by
  intro context
  have hform : (Coded.ofCode? 0 : Option Parse.ExprKind) = some .op := rfl
  rw [Lower.answer_node, Lower.ofKind, Lower.operation, Filter.meaning]
  simp only [Lower.liftM_eq, Attributes.code_of, Lower.answer_ofReading_bind, hcode, Lower.ok_bind,
    hform, Attributes.node_of, Lower.map_bind, hl, hr, Lower.node_child, Lower.answer_node_bind]
  refine (ihl {}).bind fun leftNode x hx => (ihr {}).bind fun rightNode y hy => ?_
  exact agrees_compareBy hname hx hy fun _ => rfl

lemma faithful_compareAny (hcode : (raw Kind.aExpr.tag fields).code "kind" = .ok 1) :
    Faithful env (tagged .aExpr fields) (.compareAny token left right) := by
  intro context
  have hform : (Coded.ofCode? 1 : Option Parse.ExprKind) = some .opAny := rfl
  rw [Lower.answer_node, Lower.ofKind, Lower.operation, Filter.meaning]
  simp only [Lower.liftM_eq, Attributes.code_of, Lower.answer_ofReading_bind, hcode, Lower.ok_bind,
    hform, Attributes.node_of, Lower.map_bind, hl, hr, Lower.node_child, Lower.answer_node_bind]
  refine (ihl {}).bind fun leftNode x hx => (ihr {}).bind fun rightNode y hy => ?_
  exact agrees_compareBy hname hx (operand_any hy) fun _ => rfl

end

lemma faithful_inList {fields : Json.Fields} {l : Json} {values : List Json} {negated : Bool}
    {expr : Filter} {list : List Filter}
    (hcode : (raw Kind.aExpr.tag fields).code "kind" = .ok 7)
    (hl : (raw Kind.aExpr.tag fields).node "lexpr" = .ok l) (ihl : Faithful env l expr)
    (hr : (raw Kind.aExpr.tag fields).list "rexpr" = .ok values)
    (ihr : List.Forall₂ (Faithful env) values list)
    (hname : NamesOperator fields (if negated then "<>" else "=")) :
    Faithful env (tagged .aExpr fields) (.inList negated expr list) := by
  intro context
  have hform : (Coded.ofCode? 7 : Option Parse.ExprKind) = some .inList := rfl
  have hnegated : decide ((if negated then "<>" else "=") = "<>") = negated := by
    cases negated <;> decide
  rw [Lower.answer_node, Lower.ofKind, Lower.operation, Filter.meaning]
  simp only [Lower.liftM_eq, Attributes.code_of, Lower.answer_ofReading_bind, hcode, Lower.ok_bind,
    hform, Attributes.node_of, Attributes.list_of, Lower.map_bind, hl, hr, Lower.node_child,
    Lower.answer_node_bind, Lower.answer_each_bind, Lower.answer_firstName_bind,
    answer_operator hname, Lower.answer_pure, hnegated]
  exact (ihl {}).bind fun node x hx => (agrees_mapM ihr {}).bind fun nodes xs hxs =>
    .good (hasValue_inList negated hx hxs)

lemma faithful_nullTest {fields : Json.Fields} {value : Json} {code : Int64} {operand : Filter}
    (hnode : (raw Kind.nullTest.tag fields).node "arg" = .ok value)
    (ih : Faithful env value operand)
    (hcode : (raw Kind.nullTest.tag fields).code "nulltesttype" = .ok code) :
    Faithful env (tagged .nullTest fields) (.nullTest code operand) := by
  intro context
  rw [Lower.answer_node, Lower.ofKind, Lower.nullTest, Filter.meaning]
  simp only [Lower.liftM_eq, Attributes.code_of, Lower.answer_ofReading_bind, hcode, Lower.ok_bind,
    Attributes.node_of, Lower.map_bind, hnode, Lower.node_child, Lower.answer_node_bind]
  refine (ih {}).bind fun node x hx => ?_
  have hnodup : (Coded.members : List Parse.NullTestKind).Nodup := by decide
  rcases hkind : (Coded.ofCode? code : Option Parse.NullTestKind) with _ | _ | _
  · rw [if_neg (Coded.ne_of_ofCode?_eq_none hkind rfl),
      if_neg (Coded.ne_of_ofCode?_eq_none hkind rfl)]
    exact .bad
  · obtain rfl : code = 0 := (Coded.ofCode?_eq_some_iff hnodup rfl).mp hkind
    exact .good (hasValue_isNull hx)
  · obtain rfl : code = 1 := (Coded.ofCode?_eq_some_iff hnodup rfl).mp hkind
    exact .good (hasValue_isNotNull hx)

/-! ## Boolean expressions -/

/-- Disjunctions nested to the right have the value of the operands taken from the left. -/
lemma exists_orChain {nodes : List Node} {xs : List V} {y : V}
    (h : List.Forall₂ (HasValue env) nodes xs) (hy : env.chain .or xs = some y) :
    ∃ chain, Node.orChain? nodes = some chain ∧ HasValue env chain y := by
  induction h generalizing y with
  | nil => cases hy
  | @cons node x rest xs hx hrest ih =>
    cases hrest with
    | nil =>
      cases hy
      exact ⟨node, rfl, hx⟩
    | @cons next z rest zs hz hrest =>
      -- the operands after the first have a value of their own, and so a chain
      have hzs : env.chain .or (z :: zs) = some (zs.foldl (env.lift .or) z) := rfl
      obtain ⟨chain, hchain, hvalue⟩ := ih hzs
      rw [env.chain_or_cons x hzs, Option.some.injEq] at hy
      subst hy
      exact ⟨.or node chain, by rw [Node.orChain?, hchain], hasValue_or hx hvalue⟩

/-- A boolean operator with an unknown code has no value. -/
lemma connective_eq_none {code : Int64} (h : (Coded.ofCode? code : Option Parse.BoolOp) = none)
    (xs : List V) : env.connective code xs = none := by
  rw [Environment.connective, if_neg (Coded.ne_of_ofCode?_eq_none h rfl),
    if_neg (Coded.ne_of_ofCode?_eq_none h rfl), if_neg (Coded.ne_of_ofCode?_eq_none h rfl)]

/-- A boolean operator is lowered exactly if it has a value on the values of its operands. -/
lemma agrees_connective (fields : Json.Fields) {code : Int64} {op : Parse.BoolOp}
    (hop : Coded.ofCode? code = some op) {nodes : List Node} {xs : List V}
    (h : List.Forall₂ (HasValue env) nodes xs) :
    Agrees (HasValue env)
      (answer (Lower.connective (.of Lower.child Kind.boolExpr.tag fields) op nodes))
      (env.connective code xs) := by
  have hnodup : (Coded.members : List Parse.BoolOp).Nodup := by decide
  cases op with
  | and =>
    obtain rfl : code = 0 := (Coded.ofCode?_eq_some_iff hnodup rfl).mp hop
    cases h with
    | nil => exact .bad
    | cons hx h => exact .good (hasValue_and (h.cons hx) rfl)
  | or =>
    obtain rfl : code = 1 := (Coded.ofCode?_eq_some_iff hnodup rfl).mp hop
    cases h with
    | nil => exact .bad
    | cons hx h =>
      obtain ⟨chain, hchain, hvalue⟩ := exists_orChain (h.cons hx) rfl
      rw [Lower.connective, hchain]
      exact .good hvalue
  | not =>
    obtain rfl : code = 2 := (Coded.ofCode?_eq_some_iff hnodup rfl).mp hop
    cases h with
    | nil => exact .bad
    | cons hx h =>
      cases h with
      | nil => exact .good (hasValue_not hx)
      | cons _ _ => exact .bad

lemma faithful_boolean {fields : Json.Fields} {values : List Json} {code : Int64}
    {operands : List Filter} (hcode : (raw Kind.boolExpr.tag fields).code "boolop" = .ok code)
    (hlist : (raw Kind.boolExpr.tag fields).list "args" = .ok values)
    (ih : List.Forall₂ (Faithful env) values operands) :
    Faithful env (tagged .boolExpr fields) (.boolean code operands) := by
  intro context
  rw [Lower.answer_node, Lower.ofKind, Lower.boolean, Filter.meaning]
  simp only [Lower.liftM_eq, Attributes.code_of, Lower.answer_ofReading_bind, hcode, Lower.ok_bind]
  cases hop : (Coded.ofCode? code : Option Parse.BoolOp) with
  | none =>
    simp only [connective_eq_none hop, Option.bind_eq_bind, Option.bind_fun_none]
    exact .bad
  | some op =>
    simp only [Lower.answer_ofReading_bind, Attributes.list_of, Lower.map_bind, hlist,
      Lower.ok_bind, Lower.answer_each_bind]
    refine (agrees_mapM ih { nested := true }).bind fun nodes xs hxs => ?_
    rw [Lower.answer_bind (Lower.needs_connective Kind.boolExpr.tag fields op nodes).settled]
    -- the parentheses of a nested expression have no bearing on its value
    refine (agrees_connective fields hop hxs).map fun node x hx => ?_
    split
    · exact hasValue_grouping hx
    · exact hx

/-! ## Filters -/

/-- Every parse tree that spells a filter lowers to a node with the filter's value, and fails to
lower exactly if the filter has none. -/
theorem agrees_of_spells (env : Environment V) (value : Json) :
    ∀ filter, Spells value filter → Faithful env value filter := by
  induction value using Parse.attribute_induction with
  | untagged value huntagged =>
    rintro _ (_ | _ | _ | _ | _ | _ | _ | _) <;> exact absurd rfl (huntagged _ _)
  | tagged tag fields ih =>
    intro filter h
    -- the elements of a list are children, so the induction hypothesis reaches them
    have each {key : String} {values : List Json} {filters : List Filter}
        (hlist : (raw tag fields).list key = .ok values)
        (hall : List.Forall₂ Spells values filters) :
        List.Forall₂ (Faithful env) values filters :=
      ((List.forall₂_and_left _ _).mpr ⟨ih.list hlist, hall⟩).imp fun _ _ h => h.1 _ h.2
    cases h with
    | column hlist hparts => exact faithful_column hlist hparts
    | integer hnode hint => exact faithful_integer hnode hint
    | string hnode htext => exact faithful_string hnode htext
    | compare hcode hl left hr right hname =>
      exact faithful_compare hl (ih.node hl _ left) hr (ih.node hr _ right) hname hcode
    | compareAny hcode hl left hr right hname =>
      exact faithful_compareAny hl (ih.node hl _ left) hr (ih.node hr _ right) hname hcode
    | inList hcode hl expr hr list hname =>
      exact faithful_inList hcode hl (ih.node hl _ expr) hr (each hr list) hname
    | nullTest hnode operand hcode => exact faithful_nullTest hnode (ih.node hnode _ operand) hcode
    | boolean hcode hlist operands => exact faithful_boolean hcode hlist (each hlist operands)

/-- **Lowering keeps the meaning of filters.** In every context and under every depth limit, a parse
tree that spells a filter is lowered exactly if the filter has a meaning and the limit leaves room,
and the node that it is lowered to means the same. -/
theorem lowering_preserves_meaning (env : Environment V) {value : Json} {filter : Filter}
    (h : Spells value filter) (context : Context) (limit : UInt64) :
    (∀ node, ((Session.fresh limit).node value context).1.result = .ok node →
      ∃ x, node.meaning env = some x ∧ filter.meaning env = some x) ∧
    ((∃ node, ((Session.fresh limit).node value context).1.result = .ok node) ↔
      (∃ x, filter.meaning env = some x) ∧ min (need value) depthCeiling ≤ limit.toNat) := by
  have hok (node : Node) : ((Session.fresh limit).node value context).1.result = .ok node ↔
      answer (Lower.node value context) = .ok node ∧ min (need value) depthCeiling ≤ limit.toNat :=
    result_fresh_eq_ok_iff ((Lower.budgeted value).node context)
  simp only [hok, Node.meaning_eq_some_iff]
  -- the limit stands apart, and what is left is how the answer and the meaning end
  generalize hanswer : answer (Lower.node value context) = result
  generalize hmeaning : filter.meaning env = meaning
  have hagrees : Agrees (HasValue env) result meaning :=
    hanswer ▸ hmeaning ▸ agrees_of_spells env value filter h context
  cases hagrees with
  | good hx =>
    refine ⟨?_, by simp⟩
    rintro node ⟨⟨⟩, _⟩
    exact ⟨_, hx, rfl⟩
  | bad => simp

/-- Values that are only truth values, with every column unknown. -/
def Environment.unknownColumns : Environment Truth where
  column _ := .unknown
  integer n := .ofBool (n != 0)
  text t := .ofBool (t != "")
  compare
    | .equality, x, y => if x = .unknown ∨ y = .unknown then .unknown else .ofBool (x = y)
    | _, _, _ => .unknown
  compareAny _ _ _ := .unknown
  isNull x := x = .unknown
  truth := id
  ofTruth := id
  truth_ofTruth _ := rfl

/-- The parse tree of `NOT (1 IN (0, a) OR a IS NULL)`. -/
def negatedDisjunction : Json :=
  let a := tagged .columnRef
    [("fields", .array [tagged .string [("str", .string "a")]])]
  let constant (n : Nat) := tagged .aConst [("val", tagged .integer [("ival", .ofNat n)])]
  tagged .boolExpr [
    ("boolop", .ofNat 2),
    ("args", .array [tagged .boolExpr [
      ("boolop", .ofNat 1),
      ("args", .array [
        tagged .aExpr [
          ("kind", .ofNat 7),
          ("name", .array [tagged .string [("str", .string "=")]]),
          ("lexpr", constant 1),
          ("rexpr", .array [constant 0, a])],
        tagged .nullTest [("arg", a), ("nulltesttype", .ofNat 0)]])]])]

lemma spells_negatedDisjunction : Spells negatedDisjunction (.boolean 2 [.boolean 1 [
    .inList false (.integer 1) [.integer 0, .column [.name "a"]],
    .nullTest 0 (.column [.name "a"])]]) := by
  have column : Spells (tagged .columnRef
      [("fields", .array [tagged .string [("str", .string "a")]])]) (.column [.name "a"]) :=
    .column rfl (.cons (.name rfl) .nil)
  refine .boolean rfl rfl (.cons (.boolean rfl rfl (.cons ?_ (.cons ?_ .nil))) .nil)
  · exact .inList rfl rfl (.integer rfl rfl) rfl (.cons (.integer rfl rfl) (.cons column .nil))
      ⟨_, _, rfl, rfl⟩
  · exact .nullTest rfl column rfl

theorem lowering_preserves_meaning_negatedDisjunction :
    ∃ node, ((Session.fresh 5).node negatedDisjunction {}).1.result = .ok node ∧
      node.meaning .unknownColumns = some .false := by
  obtain ⟨hsame, hlowered⟩ :=
    lowering_preserves_meaning .unknownColumns spells_negatedDisjunction {} 5
  obtain ⟨node, hnode⟩ := hlowered.mpr ⟨⟨.false, by decide⟩, by decide⟩
  obtain ⟨x, hx, hmeaning⟩ := hsame node hnode
  refine ⟨node, hnode, ?_⟩
  rw [hx, ← hmeaning]
  decide

end SelectTree
