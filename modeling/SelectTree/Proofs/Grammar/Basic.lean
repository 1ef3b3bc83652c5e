import SelectTree.Proofs.Rules.Exact

/-!
# The grammar of what can be lowered

Which parse trees can be lowered at all is a matter of their shape alone. `Accepted` is a grammar
for them, with one rule for each kind of node, and `FromItem` is its part for the items of a FROM
clause. Some rules ask for more than an accepted child: a part of a name has to have a plain text,
which `TextOf` reads off the parse tree, and the right of a join has to be a table, which `IsTable`
tells.

`textExact` and `exists_table_iff` show that texts and tables are those of what a parse tree is
lowered to; that the grammar as a whole is exact is shown in `Grammar.Exact`.
-/

namespace SelectTree.Grammar

open Lower (Connects Gives GivesText Makes Rule gives_tagged_iff render)
open Parse (EachChild HasCode HasFlag Kind present? tagged)
open Query (Node)

/-! ## Texts and tables -/

/-- A node that stands for a single child of it, which is read in a context of its own. A
disjunction of one operand is such a node where it needs no parentheses. -/
inductive StandsFor (context : Context) : Kind → Json.Fields → Context → Json → Prop
  | constant {fields : Json.Fields} {value : Json} :
    present? fields "val" = some value →
    StandsFor context .aConst fields { literal := .constant } value
  | wrapped {fields : Json.Fields} {value : Json} :
    present? fields "stmt" = some value → StandsFor context .rawStmt fields context value
  | target {fields : Json.Fields} {value : Json} :
    present? fields "val" = some value → present? fields "name" = none →
    StandsFor context .resTarget fields {} value
  | subLink {fields : Json.Fields} {value : Json} :
    present? fields "subselect" = some value → StandsFor context .subLink fields {} value
  | disjunct {fields : Json.Fields} {value : Json} :
    context.nested = false → HasCode fields "boolop" 1 →
    present? fields "args" = some (.array [value]) →
    StandsFor context .boolExpr fields { nested := true } value

mutual

/-- The plain text of a parse tree in a context. -/
inductive TextOf : Context → Json → String → Prop
  | node {context : Context} {kind : Kind} {fields : Json.Fields} {text : String} :
    TextOfNode context kind fields text → TextOf context (tagged kind fields) text

/-- The plain text of a node of a kind: of a name, a number, a star or a column, or else of the
child that the node stands for. -/
inductive TextOfNode : Context → Kind → Json.Fields → String → Prop
  | string {context : Context} {fields : Json.Fields} {text : String} :
    present? fields "str" = some (.string text) →
    TextOfNode context .string fields (render context.literal text)
  | integer {context : Context} {fields : Json.Fields} {value : Json} {number : Int64} :
    present? fields "ival" = some value → value.toInt64? = some number →
    TextOfNode context .integer fields (toString number)
  | aliasText {context : Context} {fields : Json.Fields} {text : String} :
    present? fields "aliasname" = some (.string text) → TextOfNode context .aliasClause fields text
  | star {context : Context} {fields : Json.Fields} : TextOfNode context .aStar fields "*"
  | column {context : Context} {fields : Json.Fields} {values : List Json} {texts : List String} :
    present? fields "fields" = some (.array values) → List.Forall₂ (TextOf {}) values texts →
    TextOfNode context .columnRef fields (".".intercalate texts)
  | child {context context' : Context} {kind : Kind} {fields : Json.Fields} {value : Json}
      {text : String} :
    StandsFor context kind fields context' value → TextOf context' value text →
    TextOfNode context kind fields text

end

/-- A parse tree that is a table, or stands for one. -/
inductive IsTable : Context → Json → Prop
  | table {context : Context} {fields : Json.Fields} : IsTable context (tagged .rangeVar fields)
  | child {context context' : Context} {kind : Kind} {fields : Json.Fields} {value : Json} :
    StandsFor context kind fields context' value → IsTable context' value →
    IsTable context (tagged kind fields)

/-! ## The grammar -/

/-- The comparison operators as they are written. -/
def comparisonTokens : List String :=
  ["=", "<>", ">", ">=", "<", "<="]

/-- The aggregate functions as they are called. -/
def aggregateNames : List String :=
  ["sum", "count"]

/-- The clauses that a select may not have. -/
def excludedClauses : List String :=
  ["distinctClause", "intoClause", "groupClause", "havingClause", "windowClause", "valuesLists",
    "lockingClause", "withClause"]

mutual

/-- A parse tree of the grammar: a node of a kind, by the rule of the kind. -/
inductive Accepted : Json → Prop
  | node {kind : Kind} {fields : Json.Fields} :
    AcceptedNode kind fields → Accepted (tagged kind fields)

/-- A node of the grammar, by its kind. A kind without a rule has no nodes in the grammar. -/
inductive AcceptedNode : Kind → Json.Fields → Prop
  | string {fields : Json.Fields} {text : String} :
    present? fields "str" = some (.string text) → AcceptedNode .string fields
  | integer {fields : Json.Fields} {value : Json} {number : Int64} :
    present? fields "ival" = some value → value.toInt64? = some number →
    AcceptedNode .integer fields
  | aliasText {fields : Json.Fields} {text : String} :
    present? fields "aliasname" = some (.string text) → AcceptedNode .aliasClause fields
  | star {fields : Json.Fields} : AcceptedNode .aStar fields
  | column {fields : Json.Fields} {values : List Json} :
    present? fields "fields" = some (.array values) → (∀ value ∈ values, Accepted value) →
    (∀ value ∈ values, ∃ text, TextOf {} value text) → AcceptedNode .columnRef fields
  | table {fields : Json.Fields} {name : String} {schema : Option String} :
    present? fields "relname" = some (.string name) →
    present? fields "schemaname" = schema.map .string →
    (∀ value, present? fields "alias" = some value → Accepted value) →
    (∀ value, present? fields "alias" = some value → ∃ text, TextOf {} value text) →
    AcceptedNode .rangeVar fields
  | target {fields : Json.Fields} {value : Json} {name : Option String} :
    present? fields "val" = some value → Accepted value →
    present? fields "name" = name.map .string → AcceptedNode .resTarget fields
  | constant {fields : Json.Fields} {value : Json} :
    present? fields "val" = some value → Accepted value → AcceptedNode .aConst fields
  | wrapped {fields : Json.Fields} {value : Json} :
    present? fields "stmt" = some value → Accepted value → AcceptedNode .rawStmt fields
  | subLink {fields : Json.Fields} {value : Json} :
    HasCode fields "subLinkType" 4 → present? fields "subselect" = some value → Accepted value →
    AcceptedNode .subLink fields
  | nullTest {fields : Json.Fields} {value : Json} {code : Int64} :
    present? fields "arg" = some value → Accepted value → HasCode fields "nulltesttype" code →
    code ∈ ([0, 1] : List Int64) → AcceptedNode .nullTest fields
  | order {fields : Json.Fields} {value : Json} {code : Int64} :
    present? fields "node" = some value → Accepted value → HasCode fields "sortby_nulls" 0 →
    HasCode fields "sortby_dir" code → code ∈ ([0, 1, 2] : List Int64) →
    AcceptedNode .sortBy fields
  | andOr {fields : Json.Fields} {code : Int64} {values : List Json} :
    HasCode fields "boolop" code → code ∈ ([0, 1] : List Int64) →
    present? fields "args" = some (.array values) → values ≠ [] →
    (∀ value ∈ values, Accepted value) → AcceptedNode .boolExpr fields
  | not {fields : Json.Fields} {value : Json} :
    HasCode fields "boolop" 2 → present? fields "args" = some (.array [value]) → Accepted value →
    AcceptedNode .boolExpr fields
  | comparison {fields : Json.Fields} {code : Int64} {left right name : Json} {rest : List Json}
      {token : String} :
    HasCode fields "kind" code → code ∈ ([0, 1] : List Int64) →
    present? fields "lexpr" = some left → Accepted left →
    present? fields "rexpr" = some right → Accepted right →
    present? fields "name" = some (.array (name :: rest)) → Accepted name →
    TextOf { literal := .operator } name token → token ∈ comparisonTokens →
    AcceptedNode .aExpr fields
  | membership {fields : Json.Fields} {left name : Json} {values rest : List Json}
      {token : String} :
    HasCode fields "kind" 7 → present? fields "lexpr" = some left → Accepted left →
    present? fields "rexpr" = some (.array values) → (∀ value ∈ values, Accepted value) →
    present? fields "name" = some (.array (name :: rest)) → Accepted name →
    TextOf { literal := .operator } name token → AcceptedNode .aExpr fields
  | aggregate {fields : Json.Fields} {name : Json} {rest : List Json} {text : String}
      {star distinct : Bool} :
    present? fields "funcname" = some (.array (name :: rest)) → Accepted name →
    TextOf { literal := .operator } name text → text ∈ aggregateNames →
    present? fields "over" = none → present? fields "agg_filter" = none →
    present? fields "agg_order" = none → HasFlag fields "agg_within_group" false →
    HasFlag fields "agg_star" star → AcceptedList fields "args" star →
    HasFlag fields "agg_distinct" distinct → AcceptedNode .funcCall fields
  | select {fields : Json.Fields} {items : Option (List Json)} :
    (∀ key ∈ excludedClauses, present? fields key = none) → HasCode fields "op" 0 →
    present? fields "fromClause" = items.map .array → (∀ item ∈ items.getD [], FromItem item) →
    AcceptedList fields "targetList" false →
    (∀ value, present? fields "whereClause" = some value → Accepted value) →
    AcceptedList fields "sortClause" false →
    (∀ value, present? fields "limitCount" = some value → Accepted value) →
    (∀ value, present? fields "limitOffset" = some value → Accepted value) →
    AcceptedNode .selectStmt fields

/-- A list attribute that is absent or has elements of the grammar, unless it goes unread. -/
inductive AcceptedList : Json.Fields → String → Bool → Prop
  | unread {fields : Json.Fields} {key : String} : AcceptedList fields key true
  | list {fields : Json.Fields} {key : String} {values : Option (List Json)} :
    present? fields key = values.map .array → (∀ value ∈ values.getD [], Accepted value) →
    AcceptedList fields key false

/-- An item of a FROM clause: a table, or a join of an item and a table. -/
inductive FromItem : Json → Prop
  | table {value : Json} : Accepted value → IsTable {} value → FromItem value
  | join {fields : Json.Fields} {code : Int64} {left right : Json} :
    HasFlag fields "isNatural" false → present? fields "usingClause" = none →
    present? fields "alias" = none → HasCode fields "jointype" code →
    code ∈ ([0, 1, 2, 3] : List Int64) → present? fields "larg" = some left → FromItem left →
    present? fields "rarg" = some right → Accepted right → IsTable {} right →
    (∀ value, present? fields "quals" = some value → Accepted value) →
    FromItem (tagged .joinExpr fields)

end

/-! ## Nodes that stand for a child -/

section

variable {context context' : Context} {kind : Kind} {fields : Json.Fields} {value : Json}
  {result : Node} {text : String}

lemma StandsFor.unique {context'' : Context} {value' : Json}
    (h : StandsFor context kind fields context' value)
    (h' : StandsFor context kind fields context'' value') :
    context' = context'' ∧ value = value' := by
  cases h with
  | disjunct _ _ hargs =>
    cases h' with
    | disjunct _ _ hargs' =>
      rw [hargs] at hargs'
      cases hargs'
      exact ⟨rfl, rfl⟩
  | _ hvalue =>
    cases h' with
    | _ hvalue' =>
      rw [hvalue] at hvalue'
      cases hvalue'
      exact ⟨rfl, rfl⟩

lemma StandsFor.of_child {motive : Json → Prop} (h : StandsFor context kind fields context' value)
    (ih : EachChild motive kind.tag fields) : motive value := by
  cases h with
  | disjunct _ _ hargs => exact ih.of_mem hargs (List.mem_singleton_self value)
  | _ hvalue => exact ih.of_present hvalue

/-- A boolean expression that stands for no child is lowered to no text and no table. -/
lemma standsFor_or_of_connects {expr : Node} (h : Connects fields expr)
    (hnested : context.nested = false) :
    (∃ context' value, StandsFor context .boolExpr fields context' value ∧
        Gives context' value expr) ∨
      (∀ context' value, ¬ StandsFor context .boolExpr fields context' value) ∧
        expr.fragment? = none ∧ ∀ table, expr ≠ .table table := by
  have hcode {code : Int64} (hcode : HasCode fields "boolop" code) (hne : code ≠ 1)
      (context' : Context) (value : Json) :
      ¬ StandsFor context .boolExpr fields context' value := by
    intro h
    cases h with
    | disjunct _ hor _ => exact hne (hcode.unique hor)
  cases h with
  | and hop _ _ => exact .inr ⟨hcode hop (by decide), rfl, fun _ h => by cases h⟩
  | not hop _ => exact .inr ⟨hcode hop (by decide), rfl, fun _ h => by cases h⟩
  | or hop hoperands hchain =>
    obtain ⟨values, hargs, hvalues⟩ := hoperands
    cases hvalues with
    | nil => cases hchain
    | cons hfirst hrest =>
      rcases Node.orChain?_cons_eq_some_iff.mp hchain with ⟨rfl, rfl⟩ | ⟨tail, htail, rfl⟩
      · cases hrest
        exact .inl ⟨_, _, .disjunct hnested hop hargs, hfirst⟩
      · refine .inr ⟨fun context' value h => ?_, rfl, fun _ h => by cases h⟩
        cases h with
        | disjunct _ _ hargs' =>
          rw [hargs] at hargs'
          cases hargs'
          cases hrest
          cases htail

/-- A node either stands for a child and is lowered to what the child is lowered to, or it stands
for none and is made of its children. -/
lemma standsFor_or_of_rule (h : Rule context kind fields result) :
    (∃ context' value, StandsFor context kind fields context' value ∧
        Gives context' value result) ∨
      (∀ context' value, ¬ StandsFor context kind fields context' value) ∧
        (Makes context kind fields result ∨
          kind = .boolExpr ∧ result.fragment? = none ∧ ∀ table, result ≠ .table table) := by
  cases h with
  | makes h =>
    refine .inr ⟨fun context' value hstands => ?_, .inl h⟩
    cases hstands with
    | target _ hname =>
      cases h with
      | named _ _ hname' =>
        rw [hname] at hname'
        cases hname'
    | _ => cases h
  | constant hvalue h => exact .inl ⟨_, _, .constant hvalue, h⟩
  | wrapped hvalue h => exact .inl ⟨_, _, .wrapped hvalue, h⟩
  | target hvalue h hname => exact .inl ⟨_, _, .target hvalue hname, h⟩
  | subLink _ hvalue h => exact .inl ⟨_, _, .subLink hvalue, h⟩
  | boolean h =>
    cases hnested : context.nested with
    | true =>
      refine .inr ⟨fun context' value hstands => ?_, .inr ⟨rfl, rfl, fun _ h => by cases h⟩⟩
      cases hstands with
      | disjunct hflat _ _ =>
        rw [hnested] at hflat
        cases hflat
    | false =>
      rcases standsFor_or_of_connects h hnested with hstands | ⟨hno, hexpr⟩
      · exact .inl hstands
      · exact .inr ⟨hno, .inr ⟨rfl, hexpr⟩⟩

/-! ## Texts -/

lemma textOf_tagged_iff :
    TextOf context (tagged kind fields) text ↔ TextOfNode context kind fields text := by
  refine ⟨fun h => ?_, .node⟩
  generalize hvalue : tagged kind fields = value at h
  cases h with
  | node h =>
    obtain ⟨rfl, rfl⟩ := Parse.tagged_inj.mp hvalue
    exact h

lemma StandsFor.textOfNode_iff (h : StandsFor context kind fields context' value) :
    TextOfNode context kind fields text ↔ TextOf context' value text := by
  refine ⟨fun htext => ?_, .child h⟩
  cases htext with
  | child h' htext =>
    obtain ⟨rfl, rfl⟩ := h.unique h'
    exact htext
  | _ => cases h

/-- In a context a parse tree has one text at most. -/
theorem textOf_unique (value : Json) : ∀ context text text', TextOf context value text →
    TextOf context value text' → text = text' := by
  induction value using Parse.kind_induction with
  | other value hvalue =>
    intro context text text' h
    cases h with
    | node => exact absurd rfl (hvalue _ _)
  | node kind fields ih =>
    intro context text text' h h'
    rw [textOf_tagged_iff] at h h'
    cases h with
    | child hstands htext =>
      exact hstands.of_child ih _ _ _ htext (hstands.textOfNode_iff.mp h')
    | star =>
      cases h' with
      | star => rfl
      | child hstands => cases hstands
    | string hvalue =>
      cases h' with
      | string hvalue' =>
        rw [hvalue] at hvalue'
        cases hvalue'
        rfl
      | child hstands => cases hstands
    | aliasText hvalue =>
      cases h' with
      | aliasText hvalue' =>
        rw [hvalue] at hvalue'
        cases hvalue'
        rfl
      | child hstands => cases hstands
    | integer hvalue hnumber =>
      cases h' with
      | integer hvalue' hnumber' =>
        rw [hvalue] at hvalue'
        cases hvalue'
        rw [Option.some.inj (hnumber.symm.trans hnumber')]
      | child hstands => cases hstands
    | @column _ _ values texts hvalues htexts =>
      cases h' with
      | column hvalues' htexts' =>
        rw [hvalues] at hvalues'
        cases hvalues'
        have hunique : Relator.RightUnique fun value text =>
            value ∈ values ∧ TextOf {} value text :=
          fun value _ _ h h' => ih.of_mem hvalues h.1 _ _ _ h.2 h'.2
        rw [List.right_unique_forall₂' hunique
          ((List.forall₂_and_left _ _).mpr ⟨fun _ h => h, htexts⟩)
          ((List.forall₂_and_left _ _).mpr ⟨fun _ h => h, htexts'⟩)]
      | child hstands => cases hstands

lemma TextOfNode.some_eq_iff (h : TextOfNode context kind fields text) {text' : String} :
    some text = some text' ↔ TextOfNode context kind fields text' := by
  rw [Option.some.injEq]
  constructor
  · rintro rfl
    exact h
  · intro h'
    exact textOf_unique _ context text text' (.node h) (.node h')

/-- The text of what a parse tree is lowered to is its text by the grammar. -/
def TextExact (value : Json) : Prop :=
  ∀ context result text, Gives context value result →
    (result.fragment? = some text ↔ TextOf context value text)

lemma TextExact.of_givesText (h : TextExact value) (htext : GivesText context value text) :
    TextOf context value text := by
  obtain ⟨result, hresult, hfragment⟩ := htext
  exact (h context result text hresult).mp hfragment

lemma textOfNode_iff_of_makes (ih : EachChild TextExact kind.tag fields)
    (h : Makes context kind fields result)
    (hno : ∀ context' value, ¬ StandsFor context kind fields context' value) :
    result.fragment? = some text ↔ TextOfNode context kind fields text := by
  cases h with
  | string hstr => exact (TextOfNode.string hstr).some_eq_iff
  | integer hival hnumber => exact (TextOfNode.integer hival hnumber).some_eq_iff
  | aliasText halias => exact (TextOfNode.aliasText halias).some_eq_iff
  | star => exact TextOfNode.star.some_eq_iff
  | @column _ values texts hfields htexts =>
    have hexact (value : Json) (hvalue : value ∈ values) : TextExact value :=
      ih.of_mem hfields hvalue
    have htexts : List.Forall₂ (TextOf {}) values texts :=
      ((List.forall₂_and_left values texts).mpr ⟨hexact, htexts⟩).imp
        fun _ _ h => h.1.of_givesText h.2
    exact (TextOfNode.column hfields htexts).some_eq_iff
  | _ =>
    -- what is made of any other node has no text
    constructor
    · intro h
      cases h
    · intro h
      cases h with
      | child hstands _ => exact absurd hstands (hno _ _)

theorem textExact (value : Json) : TextExact value := by
  induction value using Parse.kind_induction with
  | other value hvalue =>
    intro context result text h
    obtain ⟨kind, fields, heq⟩ := Lower.exists_tagged_of_gives h
    exact absurd heq (hvalue kind fields)
  | node kind fields ih =>
    intro context result text h
    rw [textOf_tagged_iff]
    rcases standsFor_or_of_rule (gives_tagged_iff.mp h) with
      ⟨context', value, hstands, hvalue⟩ | ⟨hno, hmakes | ⟨rfl, hfragment, _⟩⟩
    · rw [hstands.textOfNode_iff]
      exact hstands.of_child ih context' result text hvalue
    · exact textOfNode_iff_of_makes ih hmakes hno
    · rw [hfragment]
      constructor
      · intro h
        cases h
      · intro h
        cases h with
        | child hstands _ => exact absurd hstands (hno _ _)

/-! ## Tables -/

lemma isTable_tagged_iff :
    IsTable context (tagged kind fields) ↔
      kind = .rangeVar ∨ ∃ context' value, StandsFor context kind fields context' value ∧
        IsTable context' value := by
  constructor
  · intro h
    generalize hvalue : tagged kind fields = value at h
    cases h with
    | table =>
      obtain ⟨rfl, rfl⟩ := Parse.tagged_inj.mp hvalue
      exact .inl rfl
    | child hstands h =>
      obtain ⟨rfl, rfl⟩ := Parse.tagged_inj.mp hvalue
      exact .inr ⟨_, _, hstands, h⟩
  · rintro (rfl | ⟨context', value, hstands, h⟩)
    · exact .table
    · exact .child hstands h

/-- A parse tree is lowered to a table exactly if it is one by the grammar. -/
theorem exists_table_iff (value : Json) : ∀ context result, Gives context value result →
    ((∃ table, result = .table table) ↔ IsTable context value) := by
  induction value using Parse.kind_induction with
  | other value hvalue =>
    intro context result h
    obtain ⟨kind, fields, heq⟩ := Lower.exists_tagged_of_gives h
    exact absurd heq (hvalue kind fields)
  | node kind fields ih =>
    intro context result h
    rw [isTable_tagged_iff]
    rcases standsFor_or_of_rule (gives_tagged_iff.mp h) with
      ⟨context', value, hstands, hvalue⟩ | ⟨hno, hmakes | ⟨rfl, _, htable⟩⟩
    · rw [hstands.of_child ih context' result hvalue]
      constructor
      · intro h
        exact .inr ⟨context', value, hstands, h⟩
      · rintro (rfl | ⟨_, _, hstands', h⟩)
        · cases hstands
        · obtain ⟨rfl, rfl⟩ := hstands.unique hstands'
          exact h
    · simp only [hno, false_and, exists_false, or_false]
      cases hmakes with
      | table => exact ⟨fun _ => rfl, fun _ => ⟨_, rfl⟩⟩
      | _ =>
        constructor
        · rintro ⟨_, ⟨⟩⟩
        · rintro ⟨⟩
    · simp [hno, htable]

end

end SelectTree.Grammar
