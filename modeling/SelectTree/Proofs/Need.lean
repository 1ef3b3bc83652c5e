import Mathlib.Tactic.Lemma
import SelectTree.Proofs.Meter
import SelectTree.Session

/-!
# The depth budget

How deep lowering a parse tree goes is a matter of its shape alone: `need` counts it, one level for
each node and nine for a nested select, over the children that the rule of each kind lowers. The
main result is that a limit stops lowering exactly if it is below that number, and that it changes
nothing else.
-/

namespace SelectTree.Parse

variable {α β : Type}

namespace Attributes

/-- The child under `key`, if it is there. -/
def one (attributes : Attributes α) (key : String) : List α :=
  (attributes.node? key).toList

/-- The children in the list under `key`, if it is there. -/
def many (attributes : Attributes α) (key : String) : List α :=
  match attributes.list? key with
  | .ok (some items) => items
  | _ => []

/-- Whether an operator expression is an IN list, the code of which is 7. -/
def isMembership (attributes : Attributes α) : Bool :=
  (attributes.code "kind").toOption = some 7

end Attributes

/-- The children of a node of a kind that its rule lowers. Of an operator's or a function's name
only the first part counts, and the arguments of a call do not count if it has a star for them. -/
def children (kind : Kind) (attributes : Attributes α) : List α :=
  match kind with
  | .columnRef => attributes.many "fields"
  | .resTarget | .aConst => attributes.one "val"
  | .subLink => attributes.one "subselect"
  | .rangeVar => attributes.one "alias"
  | .aExpr =>
    attributes.one "lexpr"
      ++ (if attributes.isMembership then attributes.many "rexpr" else attributes.one "rexpr")
      ++ (attributes.many "name").take 1
  | .joinExpr => attributes.one "larg" ++ attributes.one "rarg" ++ attributes.one "quals"
  | .funcCall =>
    (attributes.many "funcname").take 1
      ++ (match attributes.flag "agg_star" with
        | .ok true => []
        | _ => attributes.many "args")
  | .selectStmt =>
    attributes.many "fromClause" ++ attributes.many "targetList" ++ attributes.one "whereClause"
      ++ attributes.many "sortClause" ++ attributes.one "limitCount"
      ++ attributes.one "limitOffset"
  | .rawStmt => attributes.one "stmt"
  | .sortBy => attributes.one "node"
  | .nullTest => attributes.one "arg"
  | .boolExpr => attributes.many "args"
  | _ => []

namespace Attributes

variable (f : Json → α) (tag : String) (fields : Json.Fields) (key : String)

lemma one_of : (Attributes.of f tag fields).one key = ((raw tag fields).one key).map f := by
  rw [one, one, node?_of]
  cases (raw tag fields).node? key <;> rfl

lemma many_of : (Attributes.of f tag fields).many key = ((raw tag fields).many key).map f := by
  rw [many, many, list?_of]
  rcases (raw tag fields).list? key with _ | _ | items <;> rfl

lemma isMembership_of :
    (Attributes.of f tag fields).isMembership = (raw tag fields).isMembership := by
  rw [isMembership, isMembership, code_of]

variable {tag fields key}

lemma one_of_node {value : Json} (h : (raw tag fields).node key = .ok value) :
    (raw tag fields).one key = [value] := by
  rw [one, node_eq_ok_iff.mp h]
  rfl

lemma many_of_list {values : List Json} (h : (raw tag fields).list key = .ok values) :
    (raw tag fields).many key = values := by
  rw [many, list_eq_ok_iff.mp h]

lemma mem_one_iff {value : Json} :
    value ∈ (raw tag fields).one key ↔ present? fields key = some value := by
  rw [one, node?_raw, Option.mem_toList]

lemma mem_many_iff {value : Json} : value ∈ (raw tag fields).many key ↔
    ∃ values, present? fields key = some (.array values) ∧ value ∈ values := by
  constructor
  · intro h
    unfold many at h
    split at h
    next values hvalues => exact ⟨values, list?_raw_eq_some_iff.mp hvalues, h⟩
    next => cases h
  · rintro ⟨values, hvalues, h⟩
    rw [many, list?_raw_eq_some_iff.mpr hvalues]
    exact h

lemma mem_many_of_getD {values : Option (List Json)} {value : Json}
    (hvalues : present? fields key = values.map .array) (hmem : value ∈ values.getD []) :
    value ∈ (raw tag fields).many key := by
  cases values with
  | none => cases hmem
  | some values => exact mem_many_iff.mpr ⟨values, hvalues, hmem⟩

lemma isMembership_of_hasCode {code : Int64} (h : HasCode fields "kind" code) :
    (raw tag fields).isMembership = decide (code = 7) := by
  rw [isMembership, code_raw_eq_ok_iff.mpr h, Except.toOption]
  exact decide_eq_decide.mpr (Option.some_inj)

end Attributes

/-- The children are picked by the attributes alone, whatever they stand for. -/
lemma children_of (f : Json → α) (kind : Kind) (tag : String) (fields : Json.Fields) :
    children kind (.of f tag fields) = (children kind (raw tag fields)).map f := by
  cases kind with
  | aExpr =>
    simp only [children, Attributes.one_of, Attributes.many_of, Attributes.isMembership_of,
      List.map_append, List.map_take]
    split <;> rfl
  | funcCall =>
    simp only [children, Attributes.many_of, Attributes.flag_of, List.map_append, List.map_take]
    split <;> rfl
  | _ => simp only [children, Attributes.one_of, Attributes.many_of, List.map_append, List.map_nil]

end SelectTree.Parse

namespace SelectTree.Lower

open Parse (Kind Attributes EachChild children raw)

/-! ## Levels of a parse tree -/

/-- The levels that a node of a kind takes up by itself. -/
def weight : Kind → Nat
  | .selectStmt => 9
  | _ => 1

/-- The levels of a tagged node: its own, and as many as its greediest child needs. -/
def needOf (needs : Attributes Nat) : Nat :=
  match Kind.ofTag? needs.tag with
  | none => 1
  | some kind => weight kind + greatest (children kind needs)

/-- The levels that it takes to lower a parse tree. -/
def need : Json → Nat :=
  Parse.fold needOf fun _ => 1

/-- The levels that the greediest of some parse trees needs. -/
def levels (values : List Json) : Nat :=
  greatest (values.map need)

@[simp] lemma levels_nil : levels [] = 0 := rfl

@[simp] lemma levels_cons (value : Json) (values : List Json) :
    levels (value :: values) = max (need value) (levels values) := rfl

@[simp] lemma levels_append (values values' : List Json) :
    levels (values ++ values') = max (levels values) (levels values') := by
  rw [levels, List.map_append, greatest_append]
  rfl

/-- The levels that the children of a node need. -/
def needBelow (kind : Kind) (tag : String) (fields : Json.Fields) : Nat :=
  levels (children kind (raw tag fields))

lemma need_tagged {tag : String} {kind : Kind} (h : Kind.ofTag? tag = some kind)
    (fields : Json.Fields) :
    need (.object [(tag, .object fields)]) = weight kind + needBelow kind tag fields := by
  rw [need, Parse.fold_tagged, needOf, Attributes.tag_of, h]
  dsimp only
  rw [Parse.children_of]
  rfl

/-! ## Steps on children -/

lemma notDepth_of_blames {α : Type} {attributes : Attributes α} {key : String} {error : Error}
    (h : attributes.Blames key error) : NotDepth error := by
  obtain ⟨problem, rfl⟩ := h
  intro limit heq
  cases heq

section

variable {α β : Type} {attributes : Attributes α} {key : String} {n : Nat}

lemma needs_code {next : Int64 → Lower β}
    (h : ∀ code, attributes.code key = .ok code → Needs (next code) n) :
    Needs (ofReading (attributes.code key) >>= next) n :=
  Needs.reading (fun _ he => notDepth_of_blames (Attributes.explains_of_code he).blames) h

lemma needs_flag {next : Bool → Lower β}
    (h : ∀ flag, attributes.flag key = .ok flag → Needs (next flag) n) :
    Needs (ofReading (attributes.flag key) >>= next) n :=
  Needs.reading (fun _ he => notDepth_of_blames (Attributes.explains_of_flag he).blames) h

lemma needs_text {next : String → Lower β} (h : ∀ text, Needs (next text) n) :
    Needs (ofReading (attributes.text key) >>= next) n :=
  Needs.reading (fun _ he => notDepth_of_blames (Attributes.explains_of_text he).blames)
    fun text _ => h text

lemma needs_text? {next : Option String → Lower β} (h : ∀ text, Needs (next text) n) :
    Needs (ofReading (attributes.text? key) >>= next) n :=
  Needs.reading (fun _ he => notDepth_of_blames (Attributes.explains_of_text? he).blames)
    fun text _ => h text

lemma needs_int {next : Int64 → Lower β} (h : ∀ value, Needs (next value) n) :
    Needs (ofReading (attributes.int key) >>= next) n :=
  Needs.reading (fun _ he => notDepth_of_blames (Attributes.explains_of_int he).blames)
    fun value _ => h value

end

lemma ofReading_map_bind {α β γ : Type} (f : α → β) (reading : Except Error α)
    (next : β → Lower γ) :
    ofReading (reading.map f) >>= next = ofReading reading >>= fun a => next (f a) := by
  cases reading <;> rfl

@[simp] lemma node_child (value : Json) (context : Context) :
    (child value).node context = node value context := rfl

@[simp] lemma source_child (value : Json) : (child value).source = source value := rfl

/-- A parse tree needs its levels as an expression, and as an item of a FROM clause. -/
structure Budgeted (value : Json) : Prop where
  node : ∀ context, Needs (node value context) (need value)
  source : Needs (source value) (need value)

lemma Budgeted.plainText {value : Json} (h : Budgeted value) (context : Context)
    (role : TextRole) : Needs (plainText (child value) context role) (need value) := by
  refine (h.node context).bind_pure fun result _ => ?_
  split
  · exact Needs.pure _
  · exact Needs.fail (by simp [NotDepth]) 0

section

variable {α : Type} {tag : String} {fields : Json.Fields} {n : Nat}
  (ih : EachChild Budgeted tag fields) (key : String) (context : Context)
include ih

/-- A child is lowered, and something else follows. -/
lemma needs_node_bind {next : Query.Node → Lower α} (hnext : ∀ result, Needs (next result) n) :
    Needs (ofReading ((Attributes.of child tag fields).node key) >>= fun c =>
      c.node context >>= next) (max (levels ((raw tag fields).one key)) n) := by
  rw [Attributes.node_of, ofReading_map_bind]
  refine Needs.reading (fun _ h => notDepth_of_blames (Attributes.explains_of_node h).blames) ?_
  intro value hvalue
  rw [Attributes.one_of_node hvalue, levels_cons, levels_nil, Nat.max_zero]
  exact ((ih.node hvalue).node context).bind fun result _ => hnext result

/-- A child is lowered, and nothing follows. -/
lemma needs_node :
    Needs (ofReading ((Attributes.of child tag fields).node key) >>= fun c => c.node context)
      (levels ((raw tag fields).one key)) := by
  have h := needs_node_bind ih key context fun result => Needs.pure result
  simpa only [bind_pure, Nat.max_zero] using h

/-- A FROM item under an attribute is lowered, and something else follows. -/
lemma needs_source_bind {next : Query.Sources → Lower α}
    (hnext : ∀ sources, Needs (next sources) n) :
    Needs (ofReading ((Attributes.of child tag fields).node key) >>= fun c =>
      c.source >>= next) (max (levels ((raw tag fields).one key)) n) := by
  rw [Attributes.node_of, ofReading_map_bind]
  refine Needs.reading (fun _ h => notDepth_of_blames (Attributes.explains_of_node h).blames) ?_
  intro value hvalue
  rw [Attributes.one_of_node hvalue, levels_cons, levels_nil, Nat.max_zero]
  exact (ih.node hvalue).source.bind fun sources _ => hnext sources

/-- A child that may be absent. -/
lemma needs_optional :
    Needs (optional ((Attributes.of child tag fields).node? key))
      (levels ((raw tag fields).one key)) := by
  rw [Attributes.node?_of, Attributes.one]
  cases hvalue : (raw tag fields).node? key with
  | none => exact Needs.pure none
  | some value =>
    rw [Option.toList_some, levels_cons, levels_nil, Nat.max_zero]
    have hbudget := ih.node (Attributes.node_eq_ok_iff.mpr hvalue)
    exact (hbudget.node {}).bind_pure fun result _ => Needs.pure (some result)

/-- Every element of a list, which has to be there, goes through the same step. -/
lemma needs_list_bind {f : Child → Lower α} {β : Type} {next : List α → Lower β}
    (hf : ∀ value, Budgeted value → Needs (f (child value)) (need value))
    (hnext : ∀ results, Needs (next results) n) :
    Needs (ofReading ((Attributes.of child tag fields).list key) >>= fun cs =>
      cs.mapM f >>= next) (max (levels ((raw tag fields).many key)) n) := by
  rw [Attributes.list_of, ofReading_map_bind]
  refine Needs.reading (fun _ h => notDepth_of_blames (Attributes.explains_of_list h).blames) ?_
  intro values hvalues
  rw [Attributes.many_of_list hvalues, List.mapM_map]
  refine Needs.bind (Needs.mapM fun value hvalue => ?_) fun results _ => hnext results
  exact hf value (ih.list hvalues value hvalue)

/-- Every element of a list, which may be absent, goes through the same step. -/
lemma needs_list?_bind {f : Child → Lower α} {β : Type} {next : List α → Lower β}
    (hf : ∀ value, Budgeted value → Needs (f (child value)) (need value))
    (hnext : ∀ results, Needs (next results) n) :
    Needs (ofReading ((Attributes.of child tag fields).list? key) >>= fun cs =>
      (cs.getD []).mapM f >>= next) (max (levels ((raw tag fields).many key)) n) := by
  rw [Attributes.list?_of, ofReading_map_bind]
  refine Needs.reading (fun _ h => notDepth_of_blames (Attributes.explains_of_list? h).blames) ?_
  intro values? hvalues
  rw [Attributes.many, hvalues]
  cases values? with
  | none => exact (Needs.pure []).bind fun results _ => hnext results
  | some values =>
    have heach := ih.list (Attributes.list_eq_ok_iff.mpr hvalues)
    rw [Option.map_some, Option.getD_some, List.mapM_map]
    refine Needs.bind (Needs.mapM fun value hvalue => ?_) fun results _ => hnext results
    exact hf value (heach value hvalue)

/-- The first part of a name. -/
lemma needs_firstName (role : TextRole) :
    Needs (firstName (.of child tag fields) key role)
      (levels (((raw tag fields).many key).take 1)) := by
  simp only [firstName, liftM_eq, Attributes.list_of, ofReading_map_bind]
  refine Needs.reading (fun _ h => notDepth_of_blames (Attributes.explains_of_list h).blames) ?_
  intro values hvalues
  rw [Attributes.many_of_list hvalues]
  cases values with
  | nil => exact Needs.fail (notDepth_of_blames ⟨_, rfl⟩) _
  | cons name rest =>
    rw [List.take_succ_cons, List.take_zero, levels_cons, levels_nil, Nat.max_zero]
    exact (ih.list hvalues name List.mem_cons_self).plainText _ role

/-- The children in a list that may be absent. -/
lemma needs_eachOf :
    Needs (eachOf (.of child tag fields) key) (levels ((raw tag fields).many key)) := by
  rw [← bind_pure (eachOf _ key)]
  simp only [eachOf, each, liftM_eq, bind_assoc]
  refine Needs.of_eq (needs_list?_bind ih key (fun value hvalue => hvalue.node {})
    fun results => Needs.pure results) (Nat.max_zero _)

end

/-! ## Rules -/

section

variable {tag : String} {fields : Json.Fields} (ih : EachChild Budgeted tag fields)

lemma needs_string (context : Context) :
    Needs (string (.of child tag fields) context) (needBelow .string tag fields) := by
  simp only [string, liftM_eq]
  refine needs_text fun text => ?_
  split <;> exact Needs.pure _

lemma needs_integer :
    Needs (integer (.of child tag fields)) (needBelow .integer tag fields) := by
  simp only [integer, liftM_eq]
  exact needs_int fun value => Needs.pure _

lemma needs_aliasText :
    Needs (aliasText (.of child tag fields)) (needBelow .aliasClause tag fields) := by
  simp only [aliasText, liftM_eq]
  exact needs_text fun text => Needs.pure _

include ih

lemma needs_constant :
    Needs (constant (.of child tag fields)) (needBelow .aConst tag fields) :=
  needs_node ih "val" { literal := .constant }

lemma needs_column :
    Needs (column (.of child tag fields)) (needBelow .columnRef tag fields) := by
  simp only [column, liftM_eq]
  exact Needs.of_eq (needs_list_bind ih "fields"
    (fun value hvalue => hvalue.plainText {} .columnField) fun texts => Needs.pure _)
    (Nat.max_zero _)

lemma needs_table :
    Needs (table (.of child tag fields)) (needBelow .rangeVar tag fields) := by
  simp only [table, liftM_eq, Attributes.node?_of]
  refine needs_text fun name => needs_text? fun schema => ?_
  rw [needBelow, Parse.children, Attributes.one]
  cases hvalue : (raw tag fields).node? "alias" with
  | none => exact Needs.pure _
  | some value =>
    have hbudget := ih.node (Attributes.node_eq_ok_iff.mpr hvalue)
    rw [Option.toList_some, levels_cons, levels_nil, Nat.max_zero]
    exact (hbudget.plainText {} .tableAlias).bind_pure fun aliasName _ => Needs.pure _

lemma needs_target :
    Needs (target (.of child tag fields)) (needBelow .resTarget tag fields) := by
  simp only [target, liftM_eq]
  refine Needs.of_eq (needs_node_bind ih "val" {} fun value => ?_) (Nat.max_zero _)
  refine needs_text? fun name => ?_
  split <;> exact Needs.pure _

lemma needs_compareBy (left right : Query.Node) :
    Needs (compareBy (.of child tag fields) left right)
      (levels (((raw tag fields).many "name").take 1)) := by
  simp only [compareBy, liftM_eq]
  refine (needs_firstName ih "name" .operatorName).bind_pure fun token _ => ?_
  refine Needs.of_metered (metered_ofReading fun error h => ?_)
  rw [Query.Node.compareBy] at h
  split at h <;> cases h
  simp [NotDepth]

lemma needs_operation :
    Needs (operation (.of child tag fields)) (needBelow .aExpr tag fields) := by
  simp only [operation, liftM_eq, Attributes.code_of]
  refine needs_code fun code hcode => ?_
  have hseven : Parse.Coded.ofCode? code = some Parse.ExprKind.inList ↔ code = 7 :=
    Parse.Coded.ofCode?_eq_some_iff (by decide) rfl
  simp only [needBelow, Parse.children,
    Attributes.isMembership_of_hasCode (Attributes.code_raw_eq_ok_iff.mp hcode),
    decide_eq_true_eq, ← hseven]
  generalize (Parse.Coded.ofCode? code : Option Parse.ExprKind) = form
  -- the forms that are refused fail before any child is lowered
  cases form with
  | none => exact Needs.fail (by simp [NotDepth]) _
  | some form =>
    cases form with
    | op =>
      refine Needs.of_eq (needs_node_bind ih "lexpr" {} fun left =>
        needs_node_bind ih "rexpr" {} fun right => needs_compareBy ih left right) ?_
      rw [if_neg (by decide)]
      simp only [levels_append, Nat.max_assoc]
    | opAny =>
      refine Needs.of_eq (needs_node_bind ih "lexpr" {} fun left =>
        needs_node_bind ih "rexpr" {} fun right => needs_compareBy ih left right.any) ?_
      rw [if_neg (by decide)]
      simp only [levels_append, Nat.max_assoc]
    | inList =>
      refine Needs.of_eq (needs_node_bind ih "lexpr" {} fun left =>
        needs_list_bind ih "rexpr" (fun value hvalue => hvalue.node {}) fun list =>
          (needs_firstName ih "name" .operatorName).bind_pure fun token _ => Needs.pure _) ?_
      rw [if_pos rfl]
      simp only [levels_append, Nat.max_assoc]
    | _ => exact Needs.fail (by simp [NotDepth]) _

omit ih in
lemma needs_connective (tag : String) (fields : Json.Fields) (op : Parse.BoolOp)
    (operands : List Query.Node) : Needs (connective (.of child tag fields) op operands) 0 := by
  unfold connective
  split
  · exact Needs.fail (by simp [NotDepth]) 0
  · exact Needs.pure _
  · split
    · exact Needs.pure _
    · exact Needs.fail (by simp [NotDepth]) 0
  · exact Needs.pure _
  · exact Needs.fail (by simp [NotDepth]) 0

lemma needs_boolean (context : Context) :
    Needs (boolean (.of child tag fields) context) (needBelow .boolExpr tag fields) := by
  simp only [boolean, each, liftM_eq]
  refine needs_code fun code _ => ?_
  split
  · exact Needs.fail (by simp [NotDepth]) _
  · refine Needs.of_eq (needs_list_bind ih "args"
      (fun value hvalue => hvalue.node { nested := true }) fun operands => ?_) (Nat.max_zero _)
    exact (needs_connective tag fields _ operands).bind_pure fun expr _ => Needs.pure _

lemma needs_nullTest :
    Needs (nullTest (.of child tag fields)) (needBelow .nullTest tag fields) := by
  simp only [nullTest, liftM_eq]
  refine Needs.of_eq (needs_node_bind ih "arg" {} fun operand => ?_) (Nat.max_zero _)
  refine needs_code fun code _ => ?_
  split
  · exact Needs.pure _
  · exact Needs.pure _
  · exact Needs.fail (by simp [NotDepth]) 0

lemma needs_aggregate :
    Needs (aggregate (.of child tag fields)) (needBelow .funcCall tag fields) := by
  have hstar : needBelow .funcCall tag fields =
      max (levels (((raw tag fields).many "funcname").take 1))
        (match (raw tag fields).flag "agg_star" with
          | .ok true => 0
          | _ => levels ((raw tag fields).many "args")) := by
    rw [needBelow, Parse.children, levels_append]
    split <;> rfl
  simp only [aggregate, liftM_eq, Attributes.flag_of]
  rw [hstar]
  refine (needs_firstName ih "funcname" .functionName).bind fun name _ => ?_
  split
  · exact Needs.fail (by simp [NotDepth]) _
  refine Needs.refuse (by simp [NotDepth]) fun _ => ?_
  refine Needs.refuse (by simp [NotDepth]) fun _ => ?_
  refine Needs.refuse (by simp [NotDepth]) fun _ => ?_
  refine needs_flag fun within _ => ?_
  refine Needs.refuse (by simp [NotDepth]) fun _ => ?_
  refine needs_flag fun star hflag => ?_
  -- with its arguments at hand, a call costs nothing more
  have hcall : ∀ function args, Needs (ofReading ((raw tag fields).flag "agg_distinct") >>= fun
      distinct => note (.aggregate function args.length) >>= fun _ =>
        pure (Query.Node.aggregate function args distinct)) 0 := by
    intro function args
    refine needs_flag fun distinct _ => ?_
    exact (Needs.note _).bind_pure fun _ _ => Needs.pure _
  rw [hflag]
  cases star with
  | true => exact (Needs.pure _).bind_pure fun args _ => hcall _ args
  | false => exact (needs_eachOf ih "args").bind_pure fun args _ => hcall _ args

omit ih in
lemma needs_joinKind (code : Int64) : Needs (joinKind code) 0 := by
  unfold joinKind
  split
  · exact Needs.pure _
  · exact Needs.pure _
  · exact Needs.pure _
  · exact Needs.pure _
  · exact Needs.fail (by simp [NotDepth]) 0
  · exact Needs.fail (by simp [NotDepth]) 0

lemma needs_join :
    Needs (join (.of child tag fields)) (needBelow .joinExpr tag fields) := by
  simp only [join, liftM_eq]
  refine needs_flag fun natural _ => ?_
  refine Needs.refuse (by simp [NotDepth]) fun _ => ?_
  refine Needs.refuse (by simp [NotDepth]) fun _ => ?_
  refine Needs.refuse (by simp [NotDepth]) fun _ => ?_
  refine needs_code fun code _ => ?_
  refine Needs.of_eq ((needs_joinKind code).bind fun kind _ =>
    needs_source_bind ih "larg" fun left =>
    needs_source_bind ih "rarg" (n := levels ((raw tag fields).one "quals")) fun right => ?_) ?_
  · split
    · exact Needs.fail (by simp [NotDepth]) _
    · exact (needs_optional ih "quals").bind_pure fun on _ => Needs.pure _
  · simp only [needBelow, Parse.children, levels_append, Nat.zero_max, Nat.max_assoc]

lemma needs_ordering :
    Needs (ordering (.of child tag fields)) (needBelow .sortBy tag fields) := by
  simp only [ordering, liftM_eq]
  refine Needs.of_eq (needs_node_bind ih "node" {} fun expr => ?_) (Nat.max_zero _)
  refine needs_code fun nulls _ => ?_
  refine Needs.refuse (by simp [NotDepth]) fun _ => ?_
  refine needs_code fun code _ => ?_
  split
  · exact Needs.pure _
  · exact Needs.pure _
  · exact Needs.pure _
  · exact Needs.fail (by simp [NotDepth]) 0
  · exact Needs.fail (by simp [NotDepth]) 0

lemma needs_sources :
    Needs (sources (.of child tag fields)) (levels ((raw tag fields).many "fromClause")) := by
  simp only [sources, liftM_eq]
  exact (needs_list?_bind ih "fromClause" (fun value hvalue => hvalue.source)
    fun items => Needs.pure items.flatten).of_eq (Nat.max_zero _)

omit ih in
lemma needs_refuseClauses (tag : String) (fields : Json.Fields) :
    Needs (refuseClauses (.of child tag fields)) 0 := by
  unfold refuseClauses
  split
  · exact Needs.fail (by simp [NotDepth]) 0
  · refine needs_code fun operation _ => ?_
    unfold refuse
    split
    · exact Needs.fail (by simp [NotDepth]) 0
    · exact Needs.pure ()

lemma needs_select :
    Needs (select (.of child tag fields)) (needBelow .selectStmt tag fields) := by
  simp only [select]
  refine Needs.of_eq ((needs_refuseClauses tag fields).bind fun _ _ =>
    (needs_sources ih).bind fun sources _ =>
    (needs_eachOf ih "targetList").bind fun projections _ =>
    (needs_optional ih "whereClause").bind fun filter _ =>
    (needs_eachOf ih "sortClause").bind fun orders _ =>
    (needs_optional ih "limitCount").bind fun limit _ =>
    (needs_optional ih "limitOffset").bind fun offset _ =>
    (Needs.note _).bind fun _ _ => Needs.pure _) ?_
  simp only [needBelow, Parse.children, levels_append, Nat.zero_max, Nat.max_zero, Nat.max_assoc]

lemma needs_nestedSelect :
    Needs (nestedSelect (.of child tag fields)) (8 + needBelow .selectStmt tag fields) :=
  ((needs_select ih).descend nestedWeight).bind_pure fun _ _ => Needs.pure _

lemma needs_subLink :
    Needs (subLink (.of child tag fields)) (needBelow .subLink tag fields) := by
  simp only [subLink, liftM_eq]
  refine needs_code fun code _ => ?_
  split
  · exact needs_node ih "subselect" {}
  · exact Needs.fail (by simp [NotDepth]) _

lemma needs_wrapped (context : Context) :
    Needs (wrapped (.of child tag fields) context) (needBelow .rawStmt tag fields) :=
  needs_node ih "stmt" context

/-- The rule of each kind needs the levels of the children that it lowers; a nested select also
takes up its own. -/
lemma needs_ofKind (kind : Kind) (context : Context) :
    Needs (ofKind kind (.of child tag fields) context)
      (weight kind - 1 + needBelow kind tag fields) := by
  cases kind with
  | string => exact (needs_string context).of_eq (Nat.zero_add _).symm
  | integer => exact needs_integer.of_eq (Nat.zero_add _).symm
  | columnRef => exact (needs_column ih).of_eq (Nat.zero_add _).symm
  | resTarget => exact (needs_target ih).of_eq (Nat.zero_add _).symm
  | subLink => exact (needs_subLink ih).of_eq (Nat.zero_add _).symm
  | aliasClause => exact needs_aliasText.of_eq (Nat.zero_add _).symm
  | rangeVar => exact (needs_table ih).of_eq (Nat.zero_add _).symm
  | aExpr => exact (needs_operation ih).of_eq (Nat.zero_add _).symm
  | aConst => exact (needs_constant ih).of_eq (Nat.zero_add _).symm
  | funcCall => exact (needs_aggregate ih).of_eq (Nat.zero_add _).symm
  | selectStmt => exact needs_nestedSelect ih
  | aStar => exact Needs.pure _
  | rawStmt => exact (needs_wrapped ih context).of_eq (Nat.zero_add _).symm
  | sortBy => exact (needs_ordering ih).of_eq (Nat.zero_add _).symm
  | nullTest => exact (needs_nullTest ih).of_eq (Nat.zero_add _).symm
  | boolExpr => exact (needs_boolean ih context).of_eq (Nat.zero_add _).symm
  | _ => exact Needs.fail (by simp [NotDepth]) _

lemma budgeted_tagged : Budgeted (.object [(tag, .object fields)]) := by
  cases hkind : Kind.ofTag? tag with
  | none =>
    -- an unknown tag fails one level down, whatever stands below it
    have hneed : need (.object [(tag, .object fields)]) = 1 + 0 := by
      rw [need, Parse.fold_tagged, needOf, Attributes.tag_of, hkind]
    have hfail : ∀ α, Needs (descend 1 (fail (.unknownKind tag) : Lower α)) (1 + 0) := fun α =>
      Needs.descend (Needs.fail (by simp [NotDepth]) 0) 1
    refine ⟨fun context => ?_, ?_⟩
    · rw [node_tagged, ofTag, Attributes.tag_of, hkind, hneed]
      exact hfail _
    · rw [source_tagged, sourceOfTag, Attributes.tag_of, hkind, hneed]
      exact hfail _
  | some kind =>
    have hrule : ∀ context, Needs (descend 1 (ofKind kind (.of child tag fields) context))
        (need (.object [(tag, .object fields)])) := by
      intro context
      refine ((needs_ofKind ih kind context).descend 1).of_eq ?_
      rw [need_tagged hkind]
      cases kind <;> simp only [weight] <;> omega
    refine ⟨fun context => ?_, ?_⟩
    · rw [node_tagged, ofTag, Attributes.tag_of, hkind]
      exact hrule context
    · rw [source_tagged, sourceOfTag, Attributes.tag_of, hkind]
      -- as a FROM item only a join has a rule of its own
      split
      · next heq =>
        cases heq
        rw [need_tagged hkind]
        exact (needs_join ih).descend 1
      · next heq =>
        cases heq
        refine (hrule {}).bind_pure fun result _ => ?_
        split
        · exact Needs.pure _
        · exact Needs.fail (by simp [NotDepth]) 0
      · next heq => cases heq

end

lemma notDepth_tagFault (value : Json) : NotDepth (Parse.tagFault value) := by
  unfold Parse.tagFault
  split <;> simp [NotDepth]

/-- Every parse tree needs exactly its levels. -/
theorem budgeted (value : Json) : Budgeted value := by
  induction value using Parse.attribute_induction with
  | untagged value h =>
    -- such a value fails at once, as a FROM item even before it takes a step down
    have hneed : need value = 1 + 0 := by
      rw [need, Parse.fold_untagged h]
    have hchild : child value = untaggedChild value := by
      rw [child, Parse.fold_untagged h]
    refine ⟨fun context => ?_, ?_⟩
    · rw [node, hchild, hneed]
      exact (Needs.fail (notDepth_tagFault value) 0).descend 1
    · rw [source, hchild]
      exact Needs.fail (notDepth_tagFault value) _
  | tagged tag fields ih => exact budgeted_tagged ih

/-- A statement takes up one level, not the nine of a select inside another one. -/
lemma needs_statement (value : Json) : Needs (statement value) (need value - 8) := by
  simp only [statement, liftM_eq]
  by_cases h : ∃ tag fields, value = .object [(tag, .object fields)]
  · obtain ⟨tag, fields, rfl⟩ := h
    refine Needs.reading (fun error he => by cases he) ?_
    rintro _ ⟨⟩
    rw [Attributes.tag_of]
    split
    · next hkind =>
      refine Needs.of_eq ((Needs.note _).bind fun _ _ =>
        (needs_select ⟨fun h => budgeted _, fun h value _ => budgeted value⟩).descend 1) ?_
      rw [need_tagged hkind, weight]
      omega
    · exact Needs.fail (by simp [NotDepth]) _
  · have hread : Parse.readTag child value = .error (Parse.tagFault value) := by
      unfold Parse.readTag
      split
      · exact absurd ⟨_, _, rfl⟩ h
      · rfl
    rw [hread]
    exact Needs.reading (fun error he => by cases he; exact notDepth_tagFault value)
      fun attributes ha => by cases ha

end SelectTree.Lower

namespace SelectTree

open Lower (Needs Fits depthCeiling need)

/-! ## The budget of a session -/

/-- A session that has not been used yet, under a depth limit. -/
def Session.fresh (limit : UInt64) : Session :=
  { config := { maxDepth := limit } }

/-- The greatest depth limit, `2 ^ 64 - 1`. -/
def greatestLimit : UInt64 :=
  UInt64.ofNat depthCeiling

/-- How answers depend on the depth limit when something needs `levels` levels. -/
structure ExactBudget {α : Type} (answers : UInt64 → Except Error α) (levels : Nat) : Prop where
  /-- A limit stops the answer and is reported, or it changes nothing. -/
  stopped_or_same : ∀ limit,
    answers limit = .error (.depthExceeded limit) ∨ answers limit = answers greatestLimit
  /-- The greatest limit stops nothing. -/
  greatest_never_stops : ∀ limit, answers greatestLimit ≠ .error (.depthExceeded limit)
  /-- A good answer is given by exactly the limits that leave room for it. -/
  ok_iff : (∃ a, answers greatestLimit = .ok a) →
    ∀ limit, (∃ a, answers limit = .ok a) ↔ min levels depthCeiling ≤ limit.toNat

/-- A fresh session gives a good result exactly if the answer is good and the limit leaves room. -/
lemma result_fresh_eq_ok_iff {α : Type} {step : Lower α} {levels : Nat} (h : Needs step levels)
    {limit : UInt64} {a : α} :
    ((Session.fresh limit).call step).1.result = .ok a ↔
      step.answer = .ok a ∧ min levels depthCeiling ≤ limit.toNat := by
  have h0 : Fits { maxDepth := limit } 0 0 := Nat.zero_le _
  have hok := h.result_eq_ok_iff h0 (a := a)
  rw [Fits, Nat.zero_add] at hok
  exact hok

/-- With the greatest limit, a fresh session gives the answer. -/
lemma result_greatest {α : Type} {step : Lower α} {levels : Nat} (h : Needs step levels) :
    ((Session.fresh greatestLimit).call step).1.result = step.answer := by
  obtain ⟨cost, hcost, _⟩ := h
  exact hcost.result_of_fits (Lower.fits_limitless 0 cost)

/-- A step that needs `levels` levels has exactly that budget in a fresh session. -/
lemma exactBudget_of_needs {α : Type} {step : Lower α} {levels : Nat} (h : Needs step levels) :
    ExactBudget (fun limit => ((Session.fresh limit).call step).1.result) levels := by
  have hgreatest := result_greatest h
  obtain ⟨cost, hcost, hlevels⟩ := h
  have hresult : ∀ limit, ((Session.fresh limit).call step).1.result =
      if Fits { maxDepth := limit } 0 cost then step.answer
      else .error (.depthExceeded limit) := by
    intro limit
    exact hcost.result_run { maxDepth := limit } 0 (Nat.zero_le _)
  -- a step that fails may cost less than `levels`, so the first two parts go by its own cost
  refine ⟨fun limit => ?_, fun limit heq => ?_, fun ⟨a, ha⟩ limit => ?_⟩
  · simp only [hresult limit, hgreatest]
    split
    · exact Or.inr rfl
    · exact Or.inl rfl
  · rw [hgreatest] at heq
    exact hcost.notDepth _ heq limit rfl
  · rw [hgreatest] at ha
    simp only [result_fresh_eq_ok_iff ⟨cost, hcost, hlevels⟩, ha]
    exact ⟨fun ⟨_, _, hroom⟩ => hroom, fun hroom => ⟨a, rfl, hroom⟩⟩

/-- **The depth budget is exact.** Whatever is lowered, a limit stops it and is reported, or changes
nothing; and what can be lowered at all is lowered by exactly the limits that are not below its
`need`. A statement of its own needs as much as when it is nested, less the eight levels that nesting
adds. -/
theorem depth_budget_exact (value : Json) (context : Context) :
    ExactBudget (fun limit => ((Session.fresh limit).node value context).1.result) (need value) ∧
      ExactBudget (fun limit => ((Session.fresh limit).statement value).1.result)
        (need value - 8) :=
  ⟨exactBudget_of_needs ((Lower.budgeted value).node context),
    exactBudget_of_needs (Lower.needs_statement value)⟩

end SelectTree
