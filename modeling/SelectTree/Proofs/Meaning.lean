import Mathlib.Data.List.Forall2
import SelectTree.Proofs.Answer
import SelectTree.Proofs.Quoting

/-!
# The meaning of filters

What a filter means, on both sides of lowering, in three-valued logic over any domain of values:

* `Truth`, the three truth values with the strong connectives;
* `Environment`, what columns, constants and comparisons stand for;
* `Node.meaning`, the value of a query node;
* `Filter`, the syntax of filters, with `Filter.meaning`, and `Spells`, which parse trees are
  written for which filter.
-/

namespace SelectTree

open Query (ComparisonOp Node)

/-! ## Truth values -/

/-- The truth values of SQL. -/
inductive Truth where
  | false
  | unknown
  | true
deriving DecidableEq

namespace Truth

/-- A conjunction is false if one side is, and true if both are. -/
def and : Truth → Truth → Truth
  | .false, _ | _, .false => .false
  | .true, .true => .true
  | _, _ => .unknown

/-- A disjunction is true if one side is, and false if both are. -/
def or : Truth → Truth → Truth
  | .true, _ | _, .true => .true
  | .false, .false => .false
  | _, _ => .unknown

/-- A negation. -/
def not : Truth → Truth
  | .false => .true
  | .unknown => .unknown
  | .true => .false

/-- A truth value that is known. -/
def ofBool : Bool → Truth
  | .false => .false
  | .true => .true

lemma or_assoc (s t u : Truth) : (s.or t).or u = s.or (t.or u) := by
  cases s <;> cases t <;> cases u <;> rfl

end Truth

/-! ## Environments -/

/-- What the parts of a filter stand for, in a domain `V` of values. -/
structure Environment (V : Type) where
  /-- The value of a column, by the column's text. -/
  column : String → V
  /-- The value of an integer constant. -/
  integer : Int64 → V
  /-- The value of a string constant. -/
  text : String → V
  /-- What a comparison of two values gives. -/
  compare : ComparisonOp → V → V → V
  /-- What a comparison of a value with any element of another gives. -/
  compareAny : ComparisonOp → V → V → V
  /-- Whether a value is null. -/
  isNull : V → Bool
  /-- The truth value that a value counts as. -/
  truth : V → Truth
  /-- The value that stands for a truth value. -/
  ofTruth : Truth → V
  truth_ofTruth : ∀ t, truth (ofTruth t) = t

namespace Environment

variable {V : Type} (env : Environment V)

/-- A connective on values. -/
def lift (op : Truth → Truth → Truth) (x y : V) : V :=
  env.ofTruth (op (env.truth x) (env.truth y))

/-- A connective over all its operands, from the left. A single operand stands for itself; no
operands have no meaning. -/
def chain (op : Truth → Truth → Truth) : List V → Option V
  | [] => none
  | x :: rest => some (rest.foldl (env.lift op) x)

/-- The negation of exactly one operand. -/
def negation : List V → Option V
  | [x] => some (env.ofTruth (env.truth x).not)
  | _ => none

/-- A boolean operator over its operands, by its code: 0 is AND, 1 is OR and 2 is NOT. -/
def connective (code : Int64) (xs : List V) : Option V :=
  if code = 0 then env.chain .and xs
  else if code = 1 then env.chain .or xs
  else if code = 2 then env.negation xs
  else none

/-- Membership in a list: the disjunction of the equalities with its elements, or its negation. -/
def member (negated : Bool) (x : V) (list : List V) : V :=
  let found := list.foldr (fun y => (env.truth (env.compare .equality x y)).or) .false
  env.ofTruth (if negated then found.not else found)

/-- A null test, or its negation. -/
def nullTest (negated : Bool) (x : V) : V :=
  env.ofTruth (.ofBool (env.isNull x != negated))

/-- Disjunction from the left is disjunction from the right. -/
lemma chain_or_cons (x : V) {rest : List V} {y : V} (h : env.chain .or rest = some y) :
    env.chain .or (x :: rest) = some (env.lift .or x y) := by
  have assoc : ∀ x y z, env.lift .or (env.lift .or x y) z = env.lift .or x (env.lift .or y z) := by
    intro x y z
    simp only [lift, env.truth_ofTruth, Truth.or_assoc]
  cases rest with
  | nil => cases h
  | cons z rest =>
    simp only [chain, Option.some.injEq] at h ⊢
    subst h
    rw [List.foldl_cons]
    induction rest generalizing z with
    | nil => rfl
    | cons w rest ih =>
      rw [List.foldl_cons, List.foldl_cons, assoc]
      exact ih (env.lift .or z w)

end Environment

/-! ## Query nodes -/

/-- What can stand on the right of a comparison. -/
inductive Operand (V : Type) where
  /-- A value. -/
  | value (x : V)
  /-- The null of a null test. -/
  | null
  /-- Any element of a value. -/
  | anyOf (x : V)

/-- The value of an operand that is one. -/
def Operand.value? {V : Type} : Operand V → Option V
  | .value x => some x
  | _ => none

/-- What a comparison of a value with an operand gives. With null only equality and inequality have
a meaning: they are the null tests. -/
def Environment.compareWith {V : Type} (env : Environment V) (op : ComparisonOp) (x : V) :
    Operand V → Option V
  | .value y => some (env.compare op x y)
  | .anyOf y => some (env.compareAny op x y)
  | .null =>
    match op with
    | .equality => some (env.nullTest false x)
    | .notEqual => some (env.nullTest true x)
    | _ => none

namespace Query

variable {V : Type} (env : Environment V)

mutual

/-- What a node stands for as an operand. Parentheses change nothing, and the call of `ANY` marks
the right side of a comparison with any element. -/
@[simp] def Node.operand : Node → Option (Operand V)
  | .column text => some (.value (env.column text))
  | .integer value => some (.value (env.integer value))
  | .literal text => (Text.unquoted? '\x27' text).map fun inner => .value (env.text inner)
  | .null => some .null
  | .comparison op left right => do
    let x ← (← left.operand).value?
    return .value (← env.compareWith op x (← right.operand))
  | .inList expr list negated => do
    let x ← (← expr.operand).value?
    return .value (env.member negated x (← values list))
  | .and operands => do
    return .value (← env.chain .and (← values operands))
  | .or left right => do
    let x ← (← left.operand).value?
    let y ← (← right.operand).value?
    return .value (env.lift .or x y)
  | .not operand => do
    let x ← (← operand.operand).value?
    return .value (env.ofTruth (env.truth x).not)
  | .grouping expr => expr.operand
  | .function name args => do
    match name == "ANY", ← values args with
    | true, [x] => return .anyOf x
    | _, _ => none
  -- these are no part of a filter
  | .table _ | .star | .as _ _ | .aggregate _ _ _ | .order _ _ | .select _ => none

/-- The values of a list of nodes. -/
@[simp] def values : List Node → Option (List V)
  | [] => some []
  | node :: rest => do
    let x ← (← node.operand).value?
    return x :: (← values rest)

end

/-- The value of a node, if it is a filter or a part of one. -/
def Node.meaning (node : Node) : Option V := do
  (← node.operand env).value?

variable {env}

lemma Node.meaning_eq_some_iff {node : Node} {x : V} :
    node.meaning env = some x ↔ node.operand env = some (.value x) := by
  rw [Node.meaning]
  rcases node.operand env with _ | _ | _ | _ <;> simp [Operand.value?]

end Query

/-! ## Rules of evaluation -/

section

variable {V : Type} (env : Environment V)

/-- A node has a value. -/
def HasValue (node : Node) (x : V) : Prop :=
  node.operand env = some (.value x)

variable {env} {node left right : Node} {nodes : List Node} {x y : V} {xs : List V}

lemma values_eq_some (h : List.Forall₂ (HasValue env) nodes xs) :
    Query.values env nodes = some xs := by
  induction h with
  | nil => rfl
  | cons hx _ ih =>
    rw [HasValue] at hx
    rw [Query.values, hx, ih]
    rfl

lemma hasValue_literal (text : String) :
    HasValue env (.literal (Text.quoted '\x27' text)) (env.text text) := by
  rw [HasValue, Node.operand, Text.unquoted?_quoted]
  rfl

lemma hasValue_comparison {op : ComparisonOp} {operand : Operand V} (hleft : HasValue env left x)
    (hright : right.operand env = some operand) (hy : env.compareWith op x operand = some y) :
    HasValue env (.comparison op left right) y := by
  rw [HasValue] at hleft
  rw [HasValue, Node.operand, hleft, hright]
  change (env.compareWith op x operand >>= fun value => some (Operand.value value)) = _
  rw [hy]
  rfl

/-- The right side of a comparison with any element. -/
lemma operand_any (h : HasValue env node x) : node.any.operand env = some (.anyOf x) := by
  rw [HasValue] at h
  rw [Node.any, Node.operand, Query.values, Query.values, h]
  rfl

lemma hasValue_isNull (h : HasValue env node x) :
    HasValue env node.isNull (env.nullTest false x) :=
  hasValue_comparison h rfl rfl

lemma hasValue_isNotNull (h : HasValue env node x) :
    HasValue env node.isNotNull (env.nullTest true x) :=
  hasValue_comparison h rfl rfl

lemma hasValue_inList (negated : Bool) (h : HasValue env node x)
    (hlist : List.Forall₂ (HasValue env) nodes xs) :
    HasValue env (.inList node nodes negated) (env.member negated x xs) := by
  rw [HasValue] at h
  rw [HasValue, Node.operand, h, values_eq_some hlist]
  rfl

lemma hasValue_and (h : List.Forall₂ (HasValue env) nodes xs) (hx : env.chain .and xs = some x) :
    HasValue env (.and nodes) x := by
  rw [HasValue, Node.operand, values_eq_some h]
  change (env.chain .and xs >>= fun value => some (Operand.value value)) = _
  rw [hx]
  rfl

lemma hasValue_or (hleft : HasValue env left x) (hright : HasValue env right y) :
    HasValue env (.or left right) (env.lift .or x y) := by
  rw [HasValue] at hleft hright
  rw [HasValue, Node.operand, hleft, hright]
  rfl

lemma hasValue_not (h : HasValue env node x) :
    HasValue env (.not node) (env.ofTruth (env.truth x).not) := by
  rw [HasValue] at h
  rw [HasValue, Node.operand, h]
  rfl

/-- Parentheses change nothing. -/
lemma hasValue_grouping (h : HasValue env node x) : HasValue env (.grouping node) x := by
  rw [HasValue] at h
  rw [HasValue, Node.operand, h]

end

/-! ## Filters -/

/-- A part of the name of a column. -/
inductive Part where
  | name (text : String)
  | star

/-- A part as it stands in the text of a column. -/
def Part.text : Part → String
  | .name text => Text.quoted '"' text
  | .star => "*"

/-- A filter, or a part of one. Operators are kept as they are written, and a null test and a
boolean expression by their codes. -/
inductive Filter where
  | column (parts : List Part)
  | integer (value : Int64)
  | string (text : String)
  | compare (token : String) (left right : Filter)
  | compareAny (token : String) (left right : Filter)
  | inList (negated : Bool) (expr : Filter) (list : List Filter)
  | nullTest (code : Int64) (operand : Filter)
  | boolean (code : Int64) (operands : List Filter)

namespace Filter

/-- The comparison that an operator stands for in SQL. -/
def comparison? : String → Option ComparisonOp
  | "=" => some .equality
  | "<>" => some .notEqual
  | ">" => some .greaterThan
  | ">=" => some .greaterThanOrEqual
  | "<" => some .lessThan
  | "<=" => some .lessThanOrEqual
  | _ => none

variable {V : Type} (env : Environment V)

mutual

/-- The value of a filter. It has none if an operator is not a comparison, a code is unknown, or a
boolean operator has the wrong number of operands. The codes of a null test are 0 for IS NULL and 1
for IS NOT NULL. -/
@[simp] def meaning : Filter → Option V
  | .column parts => some (env.column (".".intercalate (parts.map Part.text)))
  | .integer value => some (env.integer value)
  | .string text => some (env.text text)
  | .compare token left right => do
    let x ← left.meaning
    let y ← right.meaning
    return env.compare (← comparison? token) x y
  | .compareAny token left right => do
    let x ← left.meaning
    let y ← right.meaning
    return env.compareAny (← comparison? token) x y
  | .inList negated expr list => do
    let x ← expr.meaning
    return env.member negated x (← meanings list)
  | .nullTest code operand => do
    let x ← operand.meaning
    if code = 0 then return env.nullTest false x
    else if code = 1 then return env.nullTest true x
    else none
  | .boolean code operands => do
    env.connective code (← meanings operands)

/-- The values of a list of filters. -/
@[simp] def meanings : List Filter → Option (List V)
  | [] => some []
  | filter :: rest => do
    let x ← filter.meaning
    return x :: (← meanings rest)

end

end Filter

/-! ## The parse trees of a filter -/

open Parse (Kind raw tagged)

/-- A parse tree is written for a part of a column's name. -/
inductive PartSpells : Json → Part → Prop
  | name {fields : Json.Fields} {text : String} :
    (raw Kind.string.tag fields).text "str" = .ok text →
    PartSpells (tagged .string fields) (.name text)
  | star {fields : Json.Fields} : PartSpells (tagged .aStar fields) .star

/-- The first part of the name of an operator expression is the string `token`. -/
def NamesOperator (fields : Json.Fields) (token : String) : Prop :=
  ∃ name rest, (raw Kind.aExpr.tag fields).list "name" = .ok (tagged .string name :: rest) ∧
    (raw Kind.string.tag name).text "str" = .ok token

/-- A parse tree is written for a filter: columns, constants, operator expressions of the kinds
plain (0), with any (1) and membership (7), null tests and boolean expressions, nested at will.
Other attributes may stand beside those that matter. -/
inductive Spells : Json → Filter → Prop
  | column {fields : Json.Fields} {values : List Json} {parts : List Part} :
    (raw Kind.columnRef.tag fields).list "fields" = .ok values →
    List.Forall₂ PartSpells values parts →
    Spells (tagged .columnRef fields) (.column parts)
  | integer {fields inner : Json.Fields} {value : Int64} :
    (raw Kind.aConst.tag fields).node "val" = .ok (tagged .integer inner) →
    (raw Kind.integer.tag inner).int "ival" = .ok value →
    Spells (tagged .aConst fields) (.integer value)
  | string {fields inner : Json.Fields} {text : String} :
    (raw Kind.aConst.tag fields).node "val" = .ok (tagged .string inner) →
    (raw Kind.string.tag inner).text "str" = .ok text →
    Spells (tagged .aConst fields) (.string text)
  | compare {fields : Json.Fields} {l r : Json} {token : String} {left right : Filter} :
    (raw Kind.aExpr.tag fields).code "kind" = .ok 0 →
    (raw Kind.aExpr.tag fields).node "lexpr" = .ok l → Spells l left →
    (raw Kind.aExpr.tag fields).node "rexpr" = .ok r → Spells r right →
    NamesOperator fields token →
    Spells (tagged .aExpr fields) (.compare token left right)
  | compareAny {fields : Json.Fields} {l r : Json} {token : String} {left right : Filter} :
    (raw Kind.aExpr.tag fields).code "kind" = .ok 1 →
    (raw Kind.aExpr.tag fields).node "lexpr" = .ok l → Spells l left →
    (raw Kind.aExpr.tag fields).node "rexpr" = .ok r → Spells r right →
    NamesOperator fields token →
    Spells (tagged .aExpr fields) (.compareAny token left right)
  | inList {fields : Json.Fields} {l : Json} {values : List Json} {negated : Bool} {expr : Filter}
      {list : List Filter} :
    (raw Kind.aExpr.tag fields).code "kind" = .ok 7 →
    (raw Kind.aExpr.tag fields).node "lexpr" = .ok l → Spells l expr →
    (raw Kind.aExpr.tag fields).list "rexpr" = .ok values → List.Forall₂ Spells values list →
    NamesOperator fields (if negated then "<>" else "=") →
    Spells (tagged .aExpr fields) (.inList negated expr list)
  | nullTest {fields : Json.Fields} {value : Json} {code : Int64} {operand : Filter} :
    (raw Kind.nullTest.tag fields).node "arg" = .ok value → Spells value operand →
    (raw Kind.nullTest.tag fields).code "nulltesttype" = .ok code →
    Spells (tagged .nullTest fields) (.nullTest code operand)
  | boolean {fields : Json.Fields} {values : List Json} {code : Int64} {operands : List Filter} :
    (raw Kind.boolExpr.tag fields).code "boolop" = .ok code →
    (raw Kind.boolExpr.tag fields).list "args" = .ok values →
    List.Forall₂ Spells values operands →
    Spells (tagged .boolExpr fields) (.boolean code operands)

end SelectTree
