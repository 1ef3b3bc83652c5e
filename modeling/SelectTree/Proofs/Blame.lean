import SelectTree.Proofs.Grammar.Exact

/-!
# Errors blame what is at fault

An error can arise in any rule, at any depth, and says something about the node that the rule was
applied to. `Faults` is what it says, read as a statement about that node alone, and `Inside` is
where the node can stand. `errors_truthful` shows that what is said is so: whatever lowering fails
with, there is a node inside the parse tree of which the error is true, unless the limit was
reached.

`Ends` keeps track of both ends of a step, its good results and its errors. It has one rule for each
way in which steps are put together, one lemma for each rule of lowering, and a single induction
over the parse tree in `honest`.
-/

namespace SelectTree

open Grammar (aggregateNames comparisonTokens)
open Parse (Attributes EachChild HasCode HasProblem Kind present? raw tagged)

/-! ## What errors say -/

/-- The kind of node whose part has to be plain text. -/
def TextRole.kind : TextRole → Kind
  | .columnField => .columnRef
  | .tableAlias => .rangeVar
  | .operatorName => .aExpr
  | .functionName => .funcCall

/-- The kind of node that a construct is found in. -/
def Construct.kind : Construct → Kind
  | .expressionKind => .aExpr
  | .booleanOperator => .boolExpr
  | .nullTest => .nullTest
  | .windowFunction | .aggregateFilter | .orderedAggregate => .funcCall
  | .nullsOrdering | .sortDirection => .sortBy
  | .selectClause | .setOperation => .selectStmt
  | .join | .joinType => .joinExpr

/-- The kinds that are out of place in a position, though they can be lowered elsewhere. -/
def Position.Excludes : Position → Kind → Prop
  | .expression, kind => kind = .joinExpr
  | .fromClause, kind => kind.isSupported = true ∧ kind ≠ .joinExpr ∧ kind ≠ .rangeVar

/-- What an error says about the node that it blames. The errors about statements and parse results
say nothing about a node, nor does the one about the limit. -/
def Faults (node : Json) : Error → Prop
  | .untagged found => node.shape = found ∧ found ≠ .object
  | .tagCount count => ∃ fields, node = .object fields ∧ fields.length = count ∧ count ≠ 1
  | .attributesShape tag found =>
    ∃ value, node = .object [(tag, value)] ∧ value.shape = found ∧ found ≠ .object
  | .notPlainText role => ∃ fields, node = tagged role.kind fields
  | .negationArity count => ∃ fields args, node = tagged .boolExpr fields ∧
    HasCode fields "boolop" 2 ∧ present? fields "args" = some (.array args) ∧
    args.length = count ∧ count ≠ 1
  | .invalidAttribute tag key problem =>
    ∃ fields, node = .object [(tag, .object fields)] ∧ HasProblem (present? fields key) problem
  | .misplaced kind position => (∃ fields, node = tagged kind fields) ∧ position.Excludes kind
  | .unknownKind tag =>
    (∃ fields, node = .object [(tag, .object fields)]) ∧ Kind.ofTag? tag = none
  | .unsupportedKind kind => (∃ fields, node = tagged kind fields) ∧ kind.isSupported = false
  | .unsupportedOperator token =>
    (∃ fields, node = tagged .aExpr fields) ∧ token ∉ comparisonTokens
  | .unsupportedFunction name => (∃ fields, node = tagged .funcCall fields) ∧ name ∉ aggregateNames
  | .unsupportedSubquery code =>
    ∃ fields, node = tagged .subLink fields ∧ HasCode fields "subLinkType" code ∧ code ≠ 4
  | .unsupportedConstruct construct _ => ∃ fields, node = tagged construct.kind fields
  | .noStatementList | .statementsShape | .noStatements | .unsupportedStatement _
  | .depthExceeded _ | .parser _ => False

/-- A value stands somewhere inside a parse tree: as the whole of it, or inside an attribute of its
root, or inside an element of such an attribute. -/
inductive Inside (inner : Json) : Json → Prop
  | here : Inside inner inner
  | child {tag key : String} {fields : Json.Fields} {value : Json} :
    present? fields key = some value → Inside inner value →
    Inside inner (.object [(tag, .object fields)])
  | item {tag key : String} {fields : Json.Fields} {values : List Json} {value : Json} :
    present? fields key = some (.array values) → value ∈ values → Inside inner value →
    Inside inner (.object [(tag, .object fields)])

/-- An error is true of a node inside a parse tree. -/
def Blamed (value : Json) (error : Error) : Prop :=
  ∃ node, Inside node value ∧ Faults node error

section

variable {tag key : String} {fields : Json.Fields} {value : Json} {error : Error}

lemma Faults.blamed (h : Faults value error) : Blamed value error :=
  ⟨value, .here, h⟩

lemma Blamed.of_child (hvalue : present? fields key = some value) (h : Blamed value error) :
    Blamed (.object [(tag, .object fields)]) error :=
  h.imp fun _ ⟨hinside, hfaults⟩ => ⟨.child hvalue hinside, hfaults⟩

lemma Blamed.of_item {values : List Json} (hvalues : present? fields key = some (.array values))
    (hmem : value ∈ values) (h : Blamed value error) :
    Blamed (.object [(tag, .object fields)]) error :=
  h.imp fun _ ⟨hinside, hfaults⟩ => ⟨.item hvalues hmem hinside, hfaults⟩

lemma blamed_of_explains {α : Type} {f : Json → α}
    (h : (Attributes.of f tag fields).Explains key error) :
    Blamed (.object [(tag, .object fields)]) error := by
  obtain ⟨problem, rfl, hproblem⟩ := h
  rw [Attributes.get?_of_present, Option.map_map] at hproblem
  have hvalue : (present? fields key).map ((·.value) ∘ Parse.Attribute.of f) =
      present? fields key := Option.map_id_apply
  rw [hvalue] at hproblem
  exact Faults.blamed ⟨fields, rfl, hproblem⟩

lemma faults_tagFault (h : ∀ tag fields, value ≠ .object [(tag, .object fields)]) :
    Faults value (Parse.tagFault value) := by
  unfold Parse.tagFault
  split
  · next tag value =>
    refine ⟨value, rfl, rfl, fun hshape => ?_⟩
    cases value <;> cases hshape
    exact h _ _ rfl
  · next fields hsingle =>
    refine ⟨fields, rfl, rfl, fun hlength => ?_⟩
    obtain ⟨⟨tag, value⟩, rfl⟩ := List.length_eq_one_iff.mp hlength
    exact hsingle tag value rfl
  · next hobject =>
    refine ⟨rfl, fun hshape => ?_⟩
    cases value <;> cases hshape
    exact hobject _ rfl

end

namespace Lower

variable {α β γ : Type}

/-! ## Both ends of a step -/

/-- What a step ends with: its good results are `good` and its errors are `bad`, unless it is
stopped by the limit. -/
structure Ends (step : Lower α) (good : α → Prop) (bad : Error → Prop) : Prop where
  ok : ∀ config depth a, (step.run config depth).result = .ok a → good a
  error : ∀ config depth error, (step.run config depth).result = .error error →
    error = .depthExceeded config.maxDepth ∨ bad error

namespace Ends

variable {step : Lower α} {next : α → Lower β} {good : α → Prop} {good' : β → Prop}
  {bad : Error → Prop}

protected lemma pure {a : α} (h : good a) : Ends (pure a) good bad := by
  refine ⟨fun _ _ _ heq => ?_, fun _ _ _ heq => ?_⟩
  · cases heq
    exact h
  · cases heq

protected lemma fail {error : Error} (h : bad error) : Ends (fail error) good bad := by
  refine ⟨fun _ _ _ heq => ?_, fun _ _ _ heq => ?_⟩
  · cases heq
  · cases heq
    exact .inr h

protected lemma bind (h : Ends step good bad) (hnext : ∀ a, good a → Ends (next a) good' bad) :
    Ends (step >>= next) good' bad := by
  constructor
  · intro config depth b hb
    rw [run_bind] at hb
    cases ha : (step.run config depth).result with
    | ok a =>
      rw [(Outcome.andThen_of_ok _ ha).1] at hb
      exact (hnext a (h.ok config depth a ha)).ok _ _ b hb
    | error error =>
      rw [(Outcome.andThen_of_error _ ha).1] at hb
      cases hb
  · intro config depth error he
    rw [run_bind] at he
    cases ha : (step.run config depth).result with
    | ok a =>
      rw [(Outcome.andThen_of_ok _ ha).1] at he
      exact (hnext a (h.ok config depth a ha)).error _ _ error he
    | error error' =>
      rw [(Outcome.andThen_of_error _ ha).1] at he
      cases he
      exact h.error config depth error ha

lemma imp {good' : α → Prop} {bad' : Error → Prop} (h : Ends step good bad)
    (hgood : ∀ a, good a → good' a) (hbad : ∀ error, bad error → bad' error) :
    Ends step good' bad' :=
  ⟨fun config depth a ha => hgood a (h.ok config depth a ha),
    fun config depth error he => (h.error config depth error he).imp_right (hbad error)⟩

protected lemma descend (h : Ends step good bad) (weight : Nat) :
    Ends (descend weight step) good bad := by
  constructor
  · intro config depth a ha
    unfold Lower.descend run at ha
    dsimp only at ha
    split at ha
    · cases ha
    · exact h.ok config _ a ha
  · intro config depth error he
    unfold Lower.descend run at he
    dsimp only at he
    split at he
    · cases he
      exact .inl rfl
    · exact h.error config _ error he

lemma reading {reading : Except Error α} (hbad : ∀ error, reading = .error error → bad error)
    (hnext : ∀ a, reading = .ok a → Ends (next a) good' bad) :
    Ends (ofReading reading >>= next) good' bad := by
  have hreading : Ends (ofReading reading) (fun a => reading = .ok a) bad := by
    cases reading with
    | ok a => exact Ends.pure rfl
    | error error =>
      refine ⟨fun _ _ _ heq => ?_, fun _ _ _ heq => ?_⟩
      · cases heq
      · cases heq
        exact .inr (hbad error rfl)
  exact hreading.bind hnext

lemma refuse {condition : Bool} {error : Error} {next : Unit → Lower β} (hbad : bad error)
    (hnext : Ends (next ()) good' bad) : Ends (refuse condition error >>= next) good' bad := by
  cases condition with
  | true => exact (Ends.fail hbad : Ends (fail error) (fun _ => True) bad).bind fun _ _ => hnext
  | false => exact (Ends.pure trivial : Ends (pure ()) (fun _ => True) bad).bind fun _ _ => hnext

lemma note {taken : Note} {next : Unit → Lower β} (hnext : Ends (next ()) good' bad) :
    Ends (note taken >>= next) good' bad := by
  have hnote : Ends (Lower.note taken) (fun _ => True) bad :=
    ⟨fun _ _ _ _ => trivial, fun _ _ _ heq => by cases heq⟩
  exact hnote.bind fun _ _ => hnext

/-- A step taken on each element of a list gives one result for each. -/
protected lemma mapM {f : γ → Lower α} {xs : List γ}
    (h : ∀ x ∈ xs, Ends (f x) (fun _ => True) bad) :
    Ends (xs.mapM f) (fun results => results.length = xs.length) bad := by
  induction xs with
  | nil => exact Ends.pure rfl
  | cons x xs ih =>
    rw [List.mapM_cons]
    refine (h x List.mem_cons_self).bind fun a _ => ?_
    refine (ih fun y hy => h y (List.mem_cons_of_mem x hy)).bind fun results hresults => ?_
    exact Ends.pure (by rw [List.length_cons, List.length_cons, hresults])

end Ends

/-! ## Steps on children -/

/-- A parse tree fails with errors that are `bad` and no others, as a node and as a FROM item. -/
structure Honest (bad : Error → Prop) (value : Json) : Prop where
  node : ∀ context, Ends (node value context) (fun _ => True) bad
  source : Ends (source value) (fun _ => True) bad

lemma Honest.imp {bad bad' : Error → Prop} {value : Json} (h : Honest bad value)
    (hbad : ∀ error, bad error → bad' error) : Honest bad' value :=
  ⟨fun context => (h.node context).imp (fun _ => id) hbad, h.source.imp (fun _ => id) hbad⟩

/-- An error is true of a node with the given attributes, or of one inside it. -/
abbrev BlamedAt (tag : String) (fields : Json.Fields) : Error → Prop :=
  Blamed (.object [(tag, .object fields)])

/-- What is true of a node inside a child is true of a node inside its parent. -/
lemma eachHonest {tag : String} {fields : Json.Fields}
    (h : EachChild (fun value => Honest (Blamed value) value) tag fields) :
    EachChild (Honest (BlamedAt tag fields)) tag fields := by
  constructor
  · intro key value hvalue
    exact (h.node hvalue).imp fun _ => Blamed.of_child (Attributes.node_raw_eq_ok_iff.mp hvalue)
  · intro key values hvalues value hmem
    refine (h.list hvalues value hmem).imp fun _ => ?_
    exact Blamed.of_item (Attributes.list_raw_eq_ok_iff.mp hvalues) hmem

lemma Honest.plainText {bad : Error → Prop} {value : Json} (h : Honest bad value)
    (context : Context) {role : TextRole} (hrole : bad (.notPlainText role)) :
    Ends (plainText (child value) context role) (fun _ => True) bad := by
  refine (h.node context).bind fun result _ => ?_
  split
  · exact Ends.pure trivial
  · exact Ends.fail hrole

section

variable {tag key : String} {fields : Json.Fields} {good : α → Prop}

/-- A reader fails only for a problem that the attribute has. -/
lemma ends_reading {f : Json → γ} {reading : Except Error β} {next : β → Lower α}
    (hreading : ∀ error, reading = .error error → (Attributes.of f tag fields).Explains key error)
    (hnext : ∀ b, reading = .ok b → Ends (next b) good (BlamedAt tag fields)) :
    Ends (ofReading reading >>= next) good (BlamedAt tag fields) :=
  Ends.reading (fun error herror => blamed_of_explains (hreading error herror)) hnext

variable (ih : EachChild (Honest (BlamedAt tag fields)) tag fields) (key)
include ih

/-- A child is lowered, and something else follows. -/
lemma ends_node_bind (context : Context) {next : Query.Node → Lower α}
    (hnext : ∀ result, Ends (next result) good (BlamedAt tag fields)) :
    Ends (ofReading ((Attributes.of child tag fields).node key) >>= fun c =>
      c.node context >>= next) good (BlamedAt tag fields) := by
  rw [Attributes.node_of, ofReading_map_bind]
  refine ends_reading (fun _ => Attributes.explains_of_node) fun value hvalue => ?_
  exact ((ih.node hvalue).node context).bind fun result _ => hnext result

/-- A child is lowered, and nothing follows. -/
lemma ends_node (context : Context) :
    Ends (ofReading ((Attributes.of child tag fields).node key) >>= fun c => c.node context)
      (fun _ => True) (BlamedAt tag fields) := by
  have h := ends_node_bind key ih context fun result =>
    (Ends.pure trivial : Ends (pure result) (fun _ => True) _)
  simpa only [bind_pure] using h

/-- A FROM item under an attribute is lowered, and something else follows. -/
lemma ends_source_bind {next : Query.Sources → Lower α}
    (hnext : ∀ sources, Ends (next sources) good (BlamedAt tag fields)) :
    Ends (ofReading ((Attributes.of child tag fields).node key) >>= fun c => c.source >>= next) good
      (BlamedAt tag fields) := by
  rw [Attributes.node_of, ofReading_map_bind]
  refine ends_reading (fun _ => Attributes.explains_of_node) fun value hvalue => ?_
  exact (ih.node hvalue).source.bind fun sources _ => hnext sources

/-- A child that may be absent. -/
lemma ends_optional :
    Ends (optional ((Attributes.of child tag fields).node? key)) (fun _ => True)
      (BlamedAt tag fields) := by
  rw [Attributes.node?_of, Attributes.node?_raw]
  cases hvalue : present? fields key with
  | none => exact Ends.pure trivial
  | some value => exact ((ih.of_present hvalue).node {}).bind fun _ _ => Ends.pure trivial

/-- Every element of a list, which has to be there, goes through the same step. -/
lemma ends_list_bind {f : Child → Lower γ} {next : List γ → Lower α}
    (hf : ∀ value, Honest (BlamedAt tag fields) value →
      Ends (f (child value)) (fun _ => True) (BlamedAt tag fields))
    (hnext : ∀ values results, present? fields key = some (.array values) →
      results.length = values.length → Ends (next results) good (BlamedAt tag fields)) :
    Ends (ofReading ((Attributes.of child tag fields).list key) >>= fun cs => cs.mapM f >>= next)
      good (BlamedAt tag fields) := by
  rw [Attributes.list_of, ofReading_map_bind]
  refine ends_reading (fun _ => Attributes.explains_of_list) fun values hvalues => ?_
  rw [List.mapM_map]
  refine (Ends.mapM fun value hmem => hf value (ih.list hvalues value hmem)).bind fun results => ?_
  exact hnext values results (Attributes.list_raw_eq_ok_iff.mp hvalues)

/-- Every element of a list, which may be absent, goes through the same step. -/
lemma ends_list?_bind {f : Child → Lower γ} {next : List γ → Lower α}
    (hf : ∀ value, Honest (BlamedAt tag fields) value →
      Ends (f (child value)) (fun _ => True) (BlamedAt tag fields))
    (hnext : ∀ results, Ends (next results) good (BlamedAt tag fields)) :
    Ends (ofReading ((Attributes.of child tag fields).list? key) >>= fun cs =>
      (cs.getD []).mapM f >>= next) good (BlamedAt tag fields) := by
  rw [Attributes.list?_of, ofReading_map_bind]
  refine ends_reading (fun _ => Attributes.explains_of_list?) fun values hvalues => ?_
  rw [getD_map_child, List.mapM_map]
  refine (Ends.mapM fun value hmem => hf value ?_).bind fun results _ => hnext results
  exact ih.of_mem_getD (Attributes.list?_raw_eq_ok_iff.mp hvalues) hmem

/-- The children in a list that may be absent. -/
lemma ends_eachOf :
    Ends (eachOf (.of child tag fields) key) (fun _ => True) (BlamedAt tag fields) := by
  rw [← bind_pure (eachOf _ key)]
  simp only [eachOf, each, liftM_eq, bind_assoc]
  exact ends_list?_bind key ih (fun value h => h.node {}) fun _ => Ends.pure trivial

/-- The first part of a name. -/
lemma ends_firstName {role : TextRole} (hrole : BlamedAt tag fields (.notPlainText role)) :
    Ends (firstName (.of child tag fields) key role) (fun _ => True) (BlamedAt tag fields) := by
  simp only [firstName, liftM_eq, Attributes.list_of, ofReading_map_bind]
  refine ends_reading (fun _ => Attributes.explains_of_list) fun values hvalues => ?_
  cases values with
  | nil =>
    have hempty := Attributes.list_raw_eq_ok_iff.mp hvalues
    exact Ends.fail (Faults.blamed ⟨fields, rfl, hempty⟩)
  | cons name rest => exact (ih.list hvalues name List.mem_cons_self).plainText _ hrole

end

/-! ## Rules -/

/-- The rule of a kind fails only with what is true of its node, or of one inside it. -/
def HonestRule (kind : Kind) (fields : Json.Fields) (rule : NodeAttributes → Lower α) : Prop :=
  Ends (rule (.of child kind.tag fields)) (fun _ => True) (BlamedAt kind.tag fields)

/-- The children of a node of a kind fail only with what is true of the node, or of one inside
it. -/
abbrev EachHonest (kind : Kind) (fields : Json.Fields) : Prop :=
  EachChild (Honest (BlamedAt kind.tag fields)) kind.tag fields

section

variable {fields : Json.Fields}

lemma honest_string (context : Context) :
    HonestRule .string fields fun attributes => string attributes context := by
  simp only [HonestRule, string, liftM_eq]
  refine ends_reading (fun _ => Attributes.explains_of_text) fun text _ => ?_
  split <;> exact Ends.pure trivial

lemma honest_integer : HonestRule .integer fields integer := by
  simp only [HonestRule, integer, liftM_eq]
  exact ends_reading (fun _ => Attributes.explains_of_int) fun _ _ => Ends.pure trivial

lemma honest_aliasText : HonestRule .aliasClause fields aliasText := by
  simp only [HonestRule, aliasText, liftM_eq]
  exact ends_reading (fun _ => Attributes.explains_of_text) fun _ _ => Ends.pure trivial

lemma honest_constant (ih : EachHonest .aConst fields) : HonestRule .aConst fields constant :=
  ends_node "val" ih { literal := .constant }

lemma honest_wrapped (ih : EachHonest .rawStmt fields) (context : Context) :
    HonestRule .rawStmt fields fun attributes => wrapped attributes context :=
  ends_node "stmt" ih context

lemma honest_column (ih : EachHonest .columnRef fields) : HonestRule .columnRef fields column := by
  have hrole : BlamedAt Kind.columnRef.tag fields (.notPlainText .columnField) :=
    Faults.blamed ⟨fields, rfl⟩
  simp only [HonestRule, column, liftM_eq]
  exact ends_list_bind "fields" ih (fun value h => h.plainText {} hrole) fun _ _ _ _ =>
    Ends.pure trivial

/-- A table never fails to be one. -/
lemma ends_table (ih : EachHonest .rangeVar fields) :
    Ends (table (.of child Kind.rangeVar.tag fields)) (fun result => ∃ table, result = .table table)
      (BlamedAt Kind.rangeVar.tag fields) := by
  have hrole : BlamedAt Kind.rangeVar.tag fields (.notPlainText .tableAlias) :=
    Faults.blamed ⟨fields, rfl⟩
  simp only [table, liftM_eq, Attributes.node?_of, Attributes.node?_raw]
  refine ends_reading (fun _ => Attributes.explains_of_text) fun name _ => ?_
  refine ends_reading (fun _ => Attributes.explains_of_text?) fun schema _ => ?_
  cases hvalue : present? fields "alias" with
  | none => exact Ends.pure ⟨_, rfl⟩
  | some value =>
    exact ((ih.of_present hvalue).plainText {} hrole).bind fun _ _ => Ends.pure ⟨_, rfl⟩

lemma honest_target (ih : EachHonest .resTarget fields) : HonestRule .resTarget fields target := by
  simp only [HonestRule, target, liftM_eq]
  refine ends_node_bind "val" ih {} fun value => ?_
  refine ends_reading (fun _ => Attributes.explains_of_text?) fun name _ => ?_
  split <;> exact Ends.pure trivial

lemma honest_compareBy (ih : EachHonest .aExpr fields) (left right : Query.Node) :
    HonestRule .aExpr fields fun attributes => compareBy attributes left right := by
  simp only [HonestRule, compareBy, liftM_eq]
  refine (ends_firstName "name" ih (Faults.blamed ⟨fields, rfl⟩)).bind fun token _ => ?_
  rw [← bind_pure (ofReading _)]
  refine Ends.reading (fun error herror => ?_) fun _ _ => Ends.pure trivial
  rw [Query.Node.compareBy] at herror
  split at herror
  · cases herror
  · next hnone =>
    cases herror
    refine Faults.blamed ⟨⟨fields, rfl⟩, fun hmem => ?_⟩
    obtain ⟨op, hop⟩ := Grammar.mem_comparisonTokens_iff.mp hmem
    rw [ofToken?_eq_some_iff.mpr hop] at hnone
    cases hnone

lemma honest_operation (ih : EachHonest .aExpr fields) : HonestRule .aExpr fields operation := by
  have hrole : BlamedAt Kind.aExpr.tag fields (.notPlainText .operatorName) :=
    Faults.blamed ⟨fields, rfl⟩
  simp only [HonestRule, operation, liftM_eq]
  refine ends_reading (fun _ => Attributes.explains_of_code) fun code _ => ?_
  split
  · exact Ends.fail (Faults.blamed ⟨fields, rfl⟩)
  · exact ends_node_bind "lexpr" ih {} fun left => ends_node_bind "rexpr" ih {} fun right =>
      honest_compareBy ih left right
  · exact ends_node_bind "lexpr" ih {} fun left => ends_node_bind "rexpr" ih {} fun right =>
      honest_compareBy ih left right.any
  · exact ends_node_bind "lexpr" ih {} fun expr =>
      ends_list_bind "rexpr" ih (fun value h => h.node {}) fun _ list _ _ =>
        (ends_firstName "name" ih hrole).bind fun _ _ => Ends.pure trivial
  · exact Ends.fail (Faults.blamed ⟨fields, rfl⟩)

/-- The number of operands is that of the arguments, so that the errors about it are true of
them. -/
lemma honest_connective {code : Int64} {op : Parse.BoolOp} {values : List Json}
    {operands : List Query.Node} (hcode : HasCode fields "boolop" code)
    (hop : Parse.Coded.ofCode? code = some op)
    (hvalues : present? fields "args" = some (.array values))
    (hlength : operands.length = values.length) :
    HonestRule .boolExpr fields fun attributes => connective attributes op operands := by
  have hempty (hnil : operands = []) : BlamedAt Kind.boolExpr.tag fields
      (.invalidAttribute Kind.boolExpr.tag "args" .empty) := by
    rw [hnil, List.length_nil] at hlength
    rw [List.length_eq_zero_iff.mp hlength.symm] at hvalues
    exact Faults.blamed ⟨fields, rfl, hvalues⟩
  simp only [HonestRule]
  unfold connective
  split
  · exact Ends.fail (hempty rfl)
  · exact Ends.pure trivial
  · split
    · exact Ends.pure trivial
    · next hnone => exact Ends.fail (hempty (Query.Node.orChain?_eq_none_iff.mp hnone))
  · exact Ends.pure trivial
  · next hmany =>
    have htwo : code = 2 := (Parse.Coded.ofCode?_eq_some_iff (by decide) rfl).mp hop
    refine Ends.fail (Faults.blamed
      ⟨fields, values, rfl, htwo ▸ hcode, hvalues, hlength.symm, fun hone => ?_⟩)
    obtain ⟨operand, rfl⟩ := List.length_eq_one_iff.mp hone
    exact hmany operand rfl

lemma honest_boolean (ih : EachHonest .boolExpr fields) (context : Context) :
    HonestRule .boolExpr fields fun attributes => boolean attributes context := by
  simp only [HonestRule, boolean, each, liftM_eq]
  refine ends_reading (fun _ => Attributes.explains_of_code) fun code hcode => ?_
  rw [Attributes.code_of, Attributes.code_raw_eq_ok_iff] at hcode
  split
  · exact Ends.fail (Faults.blamed ⟨fields, rfl⟩)
  · next op hop =>
    refine ends_list_bind "args" ih (fun value h => h.node { nested := true })
      fun values operands hvalues hlength => ?_
    exact (honest_connective hcode hop hvalues hlength).bind fun _ _ => Ends.pure trivial

lemma honest_nullTest (ih : EachHonest .nullTest fields) :
    HonestRule .nullTest fields nullTest := by
  simp only [HonestRule, nullTest, liftM_eq]
  refine ends_node_bind "arg" ih {} fun operand => ?_
  refine ends_reading (fun _ => Attributes.explains_of_code) fun code _ => ?_
  split
  · exact Ends.pure trivial
  · exact Ends.pure trivial
  · exact Ends.fail (Faults.blamed ⟨fields, rfl⟩)

lemma honest_aggregate (ih : EachHonest .funcCall fields) :
    HonestRule .funcCall fields aggregate := by
  -- whatever form of call is not supported, the node is a call
  have hcall (construct : Construct) (hkind : construct.kind = .funcCall) (detail : String) :
      BlamedAt Kind.funcCall.tag fields (.unsupportedConstruct construct detail) :=
    Faults.blamed ⟨fields, by rw [hkind]; rfl⟩
  simp only [HonestRule, aggregate, liftM_eq]
  refine (ends_firstName "funcname" ih (Faults.blamed ⟨fields, rfl⟩)).bind fun name _ => ?_
  split
  · next hnone =>
    refine Ends.fail (Faults.blamed ⟨⟨fields, rfl⟩, fun hmem => ?_⟩)
    obtain ⟨function, hfunction⟩ := Grammar.mem_aggregateNames_iff.mp hmem
    rw [ofCallName?_eq_some_iff.mpr hfunction] at hnone
    cases hnone
  refine Ends.refuse (hcall _ rfl _) (Ends.refuse (hcall _ rfl _) (Ends.refuse (hcall _ rfl _) ?_))
  refine ends_reading (fun _ => Attributes.explains_of_flag) fun within _ => ?_
  refine Ends.refuse (hcall _ rfl _) ?_
  refine ends_reading (fun _ => Attributes.explains_of_flag) fun star _ => ?_
  -- with its arguments at hand, a call can fail only for its last flag
  have hargs (function : Query.AggregateFunction) (args : List Query.Node) :
      Ends (ofReading ((Attributes.of child Kind.funcCall.tag fields).flag "agg_distinct") >>= fun
        distinct => note (.aggregate function args.length) >>= fun _ =>
          pure (Query.Node.aggregate function args distinct)) (fun _ => True)
        (BlamedAt Kind.funcCall.tag fields) :=
    ends_reading (fun _ => Attributes.explains_of_flag) fun _ _ => Ends.note (Ends.pure trivial)
  split
  · exact hargs _ [.star]
  · exact (ends_eachOf "args" ih).bind fun args _ => hargs _ args

lemma honest_ordering (ih : EachHonest .sortBy fields) : HonestRule .sortBy fields ordering := by
  simp only [HonestRule, ordering, liftM_eq]
  refine ends_node_bind "node" ih {} fun expr => ?_
  refine ends_reading (fun _ => Attributes.explains_of_code) fun nulls _ => ?_
  refine Ends.refuse (Faults.blamed ⟨fields, rfl⟩) ?_
  refine ends_reading (fun _ => Attributes.explains_of_code) fun code _ => ?_
  split
  · exact Ends.pure trivial
  · exact Ends.pure trivial
  · exact Ends.pure trivial
  · exact Ends.fail (Faults.blamed ⟨fields, rfl⟩)
  · exact Ends.fail (Faults.blamed ⟨fields, rfl⟩)

lemma honest_join (ih : EachHonest .joinExpr fields) : HonestRule .joinExpr fields join := by
  have hjoin (construct : Construct) (hkind : construct.kind = .joinExpr) (detail : String) :
      BlamedAt Kind.joinExpr.tag fields (.unsupportedConstruct construct detail) :=
    Faults.blamed ⟨fields, by rw [hkind]; rfl⟩
  have hkind (code : Int64) :
      Ends (joinKind code) (fun _ => True) (BlamedAt Kind.joinExpr.tag fields) := by
    unfold joinKind
    split
    · exact Ends.pure trivial
    · exact Ends.pure trivial
    · exact Ends.pure trivial
    · exact Ends.pure trivial
    · exact Ends.fail (hjoin _ rfl _)
    · exact Ends.fail (hjoin _ rfl _)
  simp only [HonestRule, join, liftM_eq]
  refine ends_reading (fun _ => Attributes.explains_of_flag) fun natural _ => ?_
  refine Ends.refuse (hjoin _ rfl _) (Ends.refuse (hjoin _ rfl _) (Ends.refuse (hjoin _ rfl _) ?_))
  refine ends_reading (fun _ => Attributes.explains_of_code) fun code _ => ?_
  refine (hkind code).bind fun kind _ => ?_
  refine ends_source_bind "larg" ih fun left => ends_source_bind "rarg" ih fun right => ?_
  split
  · exact Ends.fail (hjoin _ rfl _)
  · exact (ends_optional "quals" ih).bind fun _ _ => Ends.pure trivial

lemma honest_refuseClauses : HonestRule .selectStmt fields refuseClauses := by
  simp only [HonestRule, refuseClauses, liftM_eq]
  split
  · exact Ends.fail (Faults.blamed ⟨fields, rfl⟩)
  · refine ends_reading (fun _ => Attributes.explains_of_code) fun operation _ => ?_
    rw [← bind_pure (refuse _ _)]
    exact Ends.refuse (Faults.blamed ⟨fields, rfl⟩) (Ends.pure trivial)

lemma honest_sources (ih : EachHonest .selectStmt fields) :
    HonestRule .selectStmt fields sources := by
  simp only [HonestRule, sources, liftM_eq]
  exact ends_list?_bind "fromClause" ih (fun value h => h.source) fun _ => Ends.pure trivial

lemma honest_select (ih : EachHonest .selectStmt fields) :
    HonestRule .selectStmt fields select := by
  simp only [HonestRule, select]
  refine honest_refuseClauses.bind fun _ _ => (honest_sources ih).bind fun sources _ => ?_
  refine (ends_eachOf "targetList" ih).bind fun projections _ => ?_
  refine (ends_optional "whereClause" ih).bind fun filter _ => ?_
  refine (ends_eachOf "sortClause" ih).bind fun orders _ => ?_
  refine (ends_optional "limitCount" ih).bind fun limit _ => ?_
  refine (ends_optional "limitOffset" ih).bind fun offset _ => ?_
  exact Ends.note (Ends.pure trivial)

lemma honest_nestedSelect (ih : EachHonest .selectStmt fields) :
    HonestRule .selectStmt fields nestedSelect :=
  (Ends.descend (honest_select ih) nestedWeight).bind fun _ _ => Ends.pure trivial

lemma honest_subLink (ih : EachHonest .subLink fields) : HonestRule .subLink fields subLink := by
  simp only [HonestRule, subLink, liftM_eq]
  refine ends_reading (fun _ => Attributes.explains_of_code) fun code hcode => ?_
  rw [Attributes.code_of, Attributes.code_raw_eq_ok_iff] at hcode
  split
  · exact ends_node "subselect" ih {}
  · next hother =>
    refine Ends.fail (Faults.blamed ⟨fields, rfl, hcode, ?_⟩)
    rintro rfl
    exact hother rfl

/-- What a good result shows about the kind of its node: it can be lowered, it is no join, and if it
is a table, then so is the result. -/
def Suits (kind : Kind) (result : Query.Node) : Prop :=
  kind.isSupported = true ∧ kind ≠ .joinExpr ∧ (kind = .rangeVar → ∃ table, result = .table table)

lemma HonestRule.suits {kind : Kind} {rule : NodeAttributes → Lower Query.Node}
    (h : HonestRule kind fields rule) (hkind : ∀ result, Suits kind result) :
    Ends (rule (.of child kind.tag fields)) (Suits kind) (BlamedAt kind.tag fields) :=
  h.imp (fun result _ => hkind result) fun _ => id

lemma ends_ofKind (kind : Kind) (ih : EachHonest kind fields) (context : Context) :
    Ends (ofKind kind (.of child kind.tag fields) context) (Suits kind)
      (BlamedAt kind.tag fields) := by
  cases kind with
  | string => exact (honest_string context).suits fun _ => ⟨rfl, nofun, nofun⟩
  | integer => exact honest_integer.suits fun _ => ⟨rfl, nofun, nofun⟩
  | columnRef => exact (honest_column ih).suits fun _ => ⟨rfl, nofun, nofun⟩
  | resTarget => exact (honest_target ih).suits fun _ => ⟨rfl, nofun, nofun⟩
  | subLink => exact (honest_subLink ih).suits fun _ => ⟨rfl, nofun, nofun⟩
  | aliasClause => exact honest_aliasText.suits fun _ => ⟨rfl, nofun, nofun⟩
  | rangeVar => exact (ends_table ih).imp (fun _ h => ⟨rfl, nofun, fun _ => h⟩) fun _ => id
  | aExpr => exact (honest_operation ih).suits fun _ => ⟨rfl, nofun, nofun⟩
  | aConst => exact (honest_constant ih).suits fun _ => ⟨rfl, nofun, nofun⟩
  | joinExpr => exact Ends.fail (Faults.blamed ⟨⟨fields, rfl⟩, rfl⟩)
  | funcCall => exact (honest_aggregate ih).suits fun _ => ⟨rfl, nofun, nofun⟩
  | selectStmt => exact (honest_nestedSelect ih).suits fun _ => ⟨rfl, nofun, nofun⟩
  | aStar => exact Ends.pure ⟨rfl, nofun, nofun⟩
  | rawStmt => exact (honest_wrapped ih context).suits fun _ => ⟨rfl, nofun, nofun⟩
  | sortBy => exact (honest_ordering ih).suits fun _ => ⟨rfl, nofun, nofun⟩
  | nullTest => exact (honest_nullTest ih).suits fun _ => ⟨rfl, nofun, nofun⟩
  | boolExpr => exact (honest_boolean ih context).suits fun _ => ⟨rfl, nofun, nofun⟩
  | _ => exact Ends.fail (Faults.blamed ⟨⟨fields, rfl⟩, rfl⟩)

end

/-! ## Parse trees -/

lemma honest_tagged {tag : String} {fields : Json.Fields}
    (ih : EachChild (Honest (BlamedAt tag fields)) tag fields) :
    Honest (BlamedAt tag fields) (.object [(tag, .object fields)]) := by
  cases hkind : Kind.ofTag? tag with
  | none =>
    have hunknown : BlamedAt tag fields (.unknownKind tag) :=
      Faults.blamed ⟨⟨fields, rfl⟩, hkind⟩
    refine ⟨fun context => ?_, ?_⟩
    · rw [node_tagged, ofTag, Attributes.tag_of, hkind]
      exact (Ends.fail hunknown).descend 1
    · rw [source_tagged, sourceOfTag, Attributes.tag_of, hkind]
      exact (Ends.fail hunknown).descend 1
  | some kind =>
    obtain rfl := Kind.ofTag?_eq_some_iff.mp hkind
    refine ⟨fun context => ?_, ?_⟩
    · rw [node_tagged, ofTag, Attributes.tag_of, hkind]
      exact (Ends.descend (ends_ofKind kind ih context) 1).imp (fun _ _ => trivial) fun _ => id
    · rw [source_tagged, sourceOfTag, Attributes.tag_of, hkind]
      split
      · next heq =>
        cases heq
        exact Ends.descend (honest_join ih) 1
      · next heq =>
        cases heq
        refine (Ends.descend (ends_ofKind kind ih {}) 1).bind fun result hresult => ?_
        obtain ⟨hsupported, hjoin, htable⟩ := hresult
        split
        · exact Ends.pure trivial
        · next hother =>
          -- a node that is lowered to no table is of a kind that has no place here
          refine Ends.fail (Faults.blamed ⟨⟨fields, rfl⟩, hsupported, hjoin, fun hrange => ?_⟩)
          obtain ⟨table, rfl⟩ := htable hrange
          exact hother table rfl
      · next heq => cases heq

/-- Every parse tree fails only with what is true of a node inside it. -/
theorem honest (value : Json) : Honest (Blamed value) value := by
  induction value using Parse.attribute_induction with
  | untagged value h =>
    have hfault : Blamed value (Parse.tagFault value) := (faults_tagFault h).blamed
    have hchild : child value = untaggedChild value := by
      rw [child, Parse.fold_untagged h]
    refine ⟨fun context => ?_, ?_⟩
    · rw [node, hchild]
      exact (Ends.fail hfault).descend 1
    · rw [source, hchild]
      exact Ends.fail hfault
  | tagged tag fields ih => exact honest_tagged (eachHonest ih)

end Lower

/-- **Errors are truthful.** If lowering a parse tree fails, in any session and context, then it was
stopped by the limit of the session and reports that limit, or there is a node inside the parse tree
of which the error is true: an operator or a function that is none of the known ones, a kind that is
unknown, unsupported or out of place, an attribute with the problem that is named, and so on. -/
theorem errors_truthful (session : Session) (value : Json) (context : Context) (error : Error)
    (h : (session.node value context).1.result = .error error) :
    error = .depthExceeded session.config.maxDepth ∨
      ∃ node, Inside node value ∧ Faults node error :=
  ((Lower.honest value).node context).error session.config session.depth error h

/-- A select with a column in its FROM clause. -/
def columnSource : Json :=
  tagged .selectStmt [("fromClause", .array [tagged .columnRef [("fields", .array [])]])]

theorem errors_truthful_columnSource :
    (Session.node {} columnSource).1.result = .error (.misplaced .columnRef .fromClause) ∧
      ∃ node, Inside node columnSource ∧ Faults node (.misplaced .columnRef .fromClause) := by
  have hresult :
      (Session.node {} columnSource).1.result = .error (.misplaced .columnRef .fromClause) := rfl
  refine ⟨hresult, (errors_truthful {} columnSource {} _ hresult).resolve_left ?_⟩
  nofun

end SelectTree
