import Mathlib.Data.List.Find
import SelectTree.Proofs.Answer

/-!
# What the rules read

A rule reads some attributes of a node and no others, and for some of them it has a default: a code
of zero, a flag that is off and an empty list of a clause might as well be absent. `reads` lists for
each kind what its rule reads, and `given?` picks out of the attributes of a node those that make a
difference.

`loweredAlike_tagged` is the main result: two nodes of one kind are lowered alike if what they are
given is alike. It rests on one lemma for each way of reading and one for each rule.
-/

namespace SelectTree.Json

/-- A value as it looks from outside, without its elements and fields. -/
def outline : Json → Json
  | .array _ => .array []
  | .object _ => .object []
  | value => value

/-- Values that look alike are the same, or both arrays, or both objects. -/
lemma outline_cases {value value' : Json} (h : value.outline = value'.outline) :
    value = value' ∨ (∃ items items', value = .array items ∧ value' = .array items') ∨
      ∃ fields fields', value = .object fields ∧ value' = .object fields' := by
  cases value <;> cases value' <;> simp_all [outline]

lemma isNull_congr {value value' : Json} (h : value.outline = value'.outline) :
    value.isNull = value'.isNull := by
  rcases outline_cases h with rfl | ⟨_, _, rfl, rfl⟩ | ⟨_, _, rfl, rfl⟩ <;> rfl

end SelectTree.Json

namespace SelectTree.Parse

/-! ## What the rules read -/

/-- How a rule reads an attribute, which decides on its default. -/
inductive Role where
  /-- As a node, a list, a text, an integer, or only for being there: it has no default. -/
  | plain
  /-- As a code: the default is zero. -/
  | code
  /-- As a flag: the default is off. -/
  | flag
  /-- As a list that may be absent: the default is the empty one. -/
  | list
deriving DecidableEq

/-- Whether a value is the default of an attribute. -/
def Role.isDefault : Role → Json → Bool
  | .plain, _ => false
  | .code, value => value.toInt64? = some 0
  | .flag, .bool on => !on
  | .list, .array items => items.isEmpty
  | _, _ => false

/-- The attributes that the rule of a kind reads. -/
def reads : Kind → List (String × Role)
  | .string => [("str", .plain)]
  | .integer => [("ival", .plain)]
  | .columnRef => [("fields", .plain)]
  | .resTarget => [("val", .plain), ("name", .plain)]
  | .subLink => [("subLinkType", .code), ("subselect", .plain)]
  | .aliasClause => [("aliasname", .plain)]
  | .rangeVar => [("relname", .plain), ("schemaname", .plain), ("alias", .plain)]
  | .aExpr => [("kind", .code), ("lexpr", .plain), ("rexpr", .plain), ("name", .plain)]
  | .aConst => [("val", .plain)]
  | .joinExpr =>
    [("isNatural", .flag), ("usingClause", .plain), ("alias", .plain), ("jointype", .code),
      ("larg", .plain), ("rarg", .plain), ("quals", .plain)]
  | .funcCall =>
    [("funcname", .plain), ("over", .plain), ("agg_filter", .plain), ("agg_order", .plain),
      ("agg_within_group", .flag), ("agg_star", .flag), ("args", .list), ("agg_distinct", .flag)]
  | .selectStmt =>
    [("distinctClause", .plain), ("intoClause", .plain), ("groupClause", .plain),
      ("havingClause", .plain), ("windowClause", .plain), ("valuesLists", .plain),
      ("lockingClause", .plain), ("withClause", .plain), ("op", .code), ("fromClause", .list),
      ("targetList", .list), ("whereClause", .plain), ("sortClause", .list),
      ("limitCount", .plain), ("limitOffset", .plain)]
  | .rawStmt => [("stmt", .plain)]
  | .sortBy => [("node", .plain), ("sortby_nulls", .code), ("sortby_dir", .code)]
  | .nullTest => [("arg", .plain), ("nulltesttype", .code)]
  | .boolExpr => [("boolop", .code), ("args", .plain)]
  | _ => []

/-- The value of an attribute that makes a difference to the rule of a kind: the rule reads it, and
it is there and not the default. -/
def given? (kind : Kind) (fields : Json.Fields) (key : String) : Option Json :=
  ((reads kind).lookup key).bind fun role => (present? fields key).filter (!role.isDefault ·)

lemma given?_eq_some_iff {kind : Kind} {fields : Json.Fields} {key : String} {value : Json} :
    given? kind fields key = some value ↔ ∃ role, (reads kind).lookup key = some role ∧
      present? fields key = some value ∧ role.isDefault value = false := by
  simp only [given?, Option.bind_eq_some_iff, Option.filter_eq_some_iff, Bool.not_eq_true']

/-- Whether a value is a default can be told from outside, but for whether a list is empty. -/
lemma Role.isDefault_congr (role : Role) {value value' : Json}
    (houtline : value.outline = value'.outline)
    (hlength : value.elements.length = value'.elements.length) :
    role.isDefault value = role.isDefault value' := by
  rcases Json.outline_cases houtline with rfl | ⟨items, items', rfl, rfl⟩ |
    ⟨fields, fields', rfl, rfl⟩
  · rfl
  · cases role with
    | list =>
      rw [Role.isDefault, Role.isDefault, Bool.eq_iff_iff, List.isEmpty_iff_length_eq_zero,
        List.isEmpty_iff_length_eq_zero]
      exact hlength ▸ Iff.rfl
    | _ => rfl
  · cases role <;> rfl

end SelectTree.Parse

namespace SelectTree.Lower

open Parse (Attributes Kind Role given? present? reads)

/-! ## Attributes that are read alike -/

/-- Two values that no rule tells apart as attributes: they look alike from outside, and they and
their elements are lowered alike. -/
structure Alike (value value' : Json) : Prop where
  outline : value.outline = value'.outline
  child : child value = child value'
  items : value.elements.map Lower.child = value'.elements.map Lower.child

lemma Alike.refl (value : Json) : Alike value value := ⟨rfl, rfl, rfl⟩

lemma rel_refl (value? : Option Json) : Option.Rel Alike value? value? := by
  cases value? with
  | none => exact .none
  | some value => exact .some (.refl value)

/-- Optional values that are alike are the same, or both arrays, or both objects. -/
lemma alike_cases {value? value?' : Option Json} (h : Option.Rel Alike value? value?') :
    value? = value?' ∨
      (∃ items items', value? = some (.array items) ∧ value?' = some (.array items') ∧
        Alike (.array items) (.array items')) ∨
      ∃ fields fields', value? = some (.object fields) ∧ value?' = some (.object fields') ∧
        Alike (.object fields) (.object fields') := by
  cases h with
  | none => exact .inl rfl
  | some h =>
    rcases Json.outline_cases h.outline with rfl | ⟨items, items', rfl, rfl⟩ |
      ⟨fields, fields', rfl, rfl⟩
    · exact .inl rfl
    · exact .inr (.inl ⟨items, items', rfl, rfl, h⟩)
    · exact .inr (.inr ⟨fields, fields', rfl, rfl, h⟩)

/-- A reading that sees of an array only what its elements are lowered to, and of an object only
that it is one, gives the same on values that are alike. -/
lemma read_congr {β : Type} {read : Option Json → β} {value? value?' : Option Json}
    (h : Option.Rel Alike value? value?')
    (harray : ∀ items items', items.map child = items'.map child →
      read (some (.array items)) = read (some (.array items')))
    (hobject : ∀ fields fields', read (some (.object fields)) = read (some (.object fields'))) :
    read value? = read value?' := by
  rcases alike_cases h with rfl | ⟨items, items', rfl, rfl, halike⟩ | ⟨fields, fields', rfl, rfl, _⟩
  · rfl
  · exact harray items items' halike.items
  · exact hobject fields fields'

/-- Two nodes of a kind have like attributes, apart from those that make no difference. -/
def Agree (kind : Kind) (fields fields' : Json.Fields) : Prop :=
  ∀ key, Option.Rel Alike (given? kind fields key) (given? kind fields' key)

lemma rel_filter {value? value?' : Option Json} {keep : Json → Bool}
    (h : Option.Rel Alike value? value?')
    (hkeep : ∀ value value', Alike value value' → keep value = keep value') :
    Option.Rel Alike (value?.filter keep) (value?'.filter keep) := by
  cases h with
  | none => exact .none
  | some h =>
    rw [Option.filter_some, Option.filter_some, hkeep _ _ h]
    split
    · exact .some h
    · exact .none

lemma agree_of_lookup {fields fields' : Json.Fields}
    (h : ∀ key, Option.Rel Alike (fields.lookup key) (fields'.lookup key)) (kind : Kind) :
    Agree kind fields fields' := by
  intro key
  rw [given?, given?]
  cases (reads kind).lookup key with
  | none => exact .none
  | some role =>
    refine rel_filter (rel_filter (h key) ?_) ?_
    · intro value value' halike
      rw [Json.isNull_congr halike.outline]
    · intro value value' halike
      have hlength : value.elements.length = value'.elements.length := by
        simpa using congrArg List.length halike.items
      rw [role.isDefault_congr halike.outline hlength]

section

variable {kind : Kind} {tag key : String} {fields fields' : Json.Fields}

/-- Every reader reads the same under a key. -/
structure ReadAlike (tag : String) (fields fields' : Json.Fields) (key : String) : Prop where
  contains : (Attributes.of child tag fields).contains key =
    (Attributes.of child tag fields').contains key
  node? : (Attributes.of child tag fields).node? key = (Attributes.of child tag fields').node? key
  list? : (Attributes.of child tag fields).list? key = (Attributes.of child tag fields').list? key
  text? : (Attributes.of child tag fields).text? key = (Attributes.of child tag fields').text? key
  int : (Attributes.of child tag fields).int key = (Attributes.of child tag fields').int key

lemma readAlike (h : Option.Rel Alike (present? fields key) (present? fields' key)) :
    ReadAlike tag fields fields' key := by
  have hget := Attributes.get?_of_present child tag fields key
  have hget' := Attributes.get?_of_present child tag fields' key
  rcases alike_cases h with heq | ⟨items, items', hv, hv', halike⟩ |
    ⟨inner, inner', hv, hv', halike⟩
  -- no reader looks into an array or an object but by what it and its elements are lowered to
  · rw [heq, ← hget'] at hget
    constructor <;>
      simp only [Attributes.contains, Attributes.node?, Attributes.list?, Attributes.text?,
        Attributes.int, hget] <;> rfl
  all_goals
    rw [hv] at hget
    rw [hv'] at hget'
    constructor <;>
      simp only [Attributes.contains, Attributes.node?, Attributes.list?, Attributes.text?,
        Attributes.int, hget, hget', Option.map_some, Parse.Attribute.of, halike.child,
        halike.items] <;> rfl

/-! ### Attributes with a default -/

/-- A code, as it is read of a value that is there and not zero. -/
def readCode (tag key : String) : Option Json → Except Error Int64
  | none => .ok 0
  | some value =>
    match value.toInt64? with
    | some code => .ok code
    | none => .error (.invalidAttribute tag key (.nonInteger value.shape))

lemma code_eq_readCode :
    (Attributes.of child tag fields).code key =
      readCode tag key ((present? fields key).filter (!Role.code.isDefault ·)) := by
  rw [Attributes.code, Attributes.contains, Attributes.int, Attributes.get?_of_present]
  cases present? fields key with
  | none => rfl
  | some value =>
    by_cases hzero : value.toInt64? = some 0
    · simp [Parse.Attribute.of, Role.isDefault, readCode, Option.filter_some, hzero]
    · simp only [Role.isDefault, readCode, Option.filter_some, hzero]
      cases value.toInt64? <;> rfl

/-- A flag, as it is read of a value that is there and not off. -/
def readFlag (tag key : String) : Option Json → Except Error Bool
  | none => .ok false
  | some (.bool on) => .ok on
  | some value => .error (.invalidAttribute tag key (.nonBoolean value.shape))

lemma flag_eq_readFlag :
    (Attributes.of child tag fields).flag key =
      readFlag tag key ((present? fields key).filter (!Role.flag.isDefault ·)) := by
  rw [Attributes.flag, Attributes.get?_of_present]
  cases present? fields key with
  | none => rfl
  | some value =>
    cases value with
    | bool on => cases on <;> rfl
    | _ => rfl

/-- A list that may be absent, as it is read of a value that is there and not empty. -/
def readList (tag key : String) : Option Json → Except Error (List Child)
  | none => .ok []
  | some (.array items) => .ok (items.map child)
  | some value => .error (.invalidAttribute tag key (.nonArray value.shape))

lemma list_eq_readList :
    ((Attributes.of child tag fields).list? key).map (·.getD []) =
      readList tag key ((present? fields key).filter (!Role.list.isDefault ·)) := by
  rw [Attributes.list?, Attributes.get?_of_present]
  cases present? fields key with
  | none => rfl
  | some value =>
    cases value with
    | array items => cases items <;> rfl
    | _ => rfl

/-! ### What agreeing attributes read -/

lemma ReadAlike.node (h : ReadAlike tag fields fields' key) :
    (Attributes.of child tag fields).node key = (Attributes.of child tag fields').node key := by
  rw [Attributes.node, Attributes.node, h.node?]
  rfl

lemma ReadAlike.list (h : ReadAlike tag fields fields' key) :
    (Attributes.of child tag fields).list key = (Attributes.of child tag fields').list key := by
  rw [Attributes.list, Attributes.list, h.list?]
  rfl

lemma ReadAlike.text (h : ReadAlike tag fields fields' key) :
    (Attributes.of child tag fields).text key = (Attributes.of child tag fields').text key := by
  rw [Attributes.text, Attributes.text, h.text?]
  rfl

lemma ReadAlike.firstName (h : ReadAlike tag fields fields' key) (role : TextRole) :
    firstName (.of child tag fields) key role = firstName (.of child tag fields') key role := by
  rw [Lower.firstName, Lower.firstName, h.list]
  rfl

variable (h : Agree kind fields fields')

include h

lemma Agree.rel {key : String} {role : Role} (hrole : (reads kind).lookup key = some role) :
    Option.Rel Alike ((present? fields key).filter (!role.isDefault ·))
      ((present? fields' key).filter (!role.isDefault ·)) := by
  have hgiven := h key
  rwa [given?, given?, hrole] at hgiven

lemma Agree.plain (key : String) (hrole : (reads kind).lookup key = some .plain) :
    ReadAlike tag fields fields' key := by
  have hall (value? : Option Json) : value?.filter (!Role.plain.isDefault ·) = value? := by
    cases value? <;> rfl
  have hrel := h.rel hrole
  rw [hall, hall] at hrel
  exact readAlike hrel

lemma Agree.code (key : String) (hrole : (reads kind).lookup key = some .code) :
    (Attributes.of child tag fields).code key = (Attributes.of child tag fields').code key := by
  rw [code_eq_readCode, code_eq_readCode]
  exact read_congr (h.rel hrole) (fun _ _ _ => rfl) fun _ _ => rfl

lemma Agree.flag (key : String) (hrole : (reads kind).lookup key = some .flag) :
    (Attributes.of child tag fields).flag key = (Attributes.of child tag fields').flag key := by
  rw [flag_eq_readFlag, flag_eq_readFlag]
  exact read_congr (h.rel hrole) (fun _ _ _ => rfl) fun _ _ => rfl

lemma Agree.list_bind {α : Type} (key : String) (hrole : (reads kind).lookup key = some .list)
    (next : List Child → Lower α) :
    (ofReading ((Attributes.of child tag fields).list? key) >>= fun items => next (items.getD [])) =
      ofReading ((Attributes.of child tag fields').list? key) >>= fun items =>
        next (items.getD []) := by
  have hread : readList tag key ((present? fields key).filter (!Role.list.isDefault ·)) =
      readList tag key ((present? fields' key).filter (!Role.list.isDefault ·)) :=
    read_congr (h.rel hrole) (fun _ _ => congrArg Except.ok) fun _ _ => rfl
  let getD (items : Option (List Child)) : List Child := items.getD []
  rw [← ofReading_map_bind getD _ next, ← ofReading_map_bind getD _ next, list_eq_readList,
    list_eq_readList, hread]

lemma Agree.eachOf (key : String) (hrole : (reads kind).lookup key = some .list) :
    eachOf (.of child tag fields) key = eachOf (.of child tag fields') key :=
  h.list_bind key hrole each

/-! ### Rules -/

lemma select_congr (hkind : kind = .selectStmt) :
    select (.of child tag fields) = select (.of child tag fields') := by
  subst hkind
  have hcontains : ∀ clause ∈ refusedClauses, (Attributes.of child tag fields).contains clause.1 =
      (Attributes.of child tag fields').contains clause.1 := by
    have hplain : ∀ clause ∈ refusedClauses, (reads .selectStmt).lookup clause.1 = some .plain := by
      decide +kernel
    exact fun clause hclause => (h.plain clause.1 (hplain clause hclause)).contains
  have hrefuse : refuseClauses (.of child tag fields) = refuseClauses (.of child tag fields') := by
    rw [refuseClauses, refuseClauses, List.find?_congr hcontains, h.code "op" rfl]
  have hsources : sources (.of child tag fields) = sources (.of child tag fields') :=
    h.list_bind "fromClause" rfl fun items => do
      let items ← items.mapM Child.source
      return items.flatten
  rw [select, select, hrefuse, hsources, h.eachOf "targetList" rfl,
    (h.plain "whereClause" rfl).node?, h.eachOf "sortClause" rfl, (h.plain "limitCount" rfl).node?,
    (h.plain "limitOffset" rfl).node?]

lemma join_congr (hkind : kind = .joinExpr) :
    join (.of child tag fields) = join (.of child tag fields') := by
  subst hkind
  rw [join, join, h.flag "isNatural" rfl, (h.plain "usingClause" rfl).contains,
    (h.plain "alias" rfl).contains, h.code "jointype" rfl, (h.plain "larg" rfl).node,
    (h.plain "rarg" rfl).node, (h.plain "quals" rfl).node?]

lemma ofKind_congr (context : Context) :
    ofKind kind (.of child tag fields) context = ofKind kind (.of child tag fields') context := by
  cases kind with
  | string => rw [ofKind, ofKind, string, string, (h.plain "str" rfl).text]
  | integer => rw [ofKind, ofKind, integer, integer, (h.plain "ival" rfl).int]
  | columnRef => rw [ofKind, ofKind, column, column, (h.plain "fields" rfl).list]
  | resTarget =>
    rw [ofKind, ofKind, target, target, (h.plain "val" rfl).node, (h.plain "name" rfl).text?]
  | subLink =>
    rw [ofKind, ofKind, subLink, subLink, h.code "subLinkType" rfl, (h.plain "subselect" rfl).node]
  | aliasClause => rw [ofKind, ofKind, aliasText, aliasText, (h.plain "aliasname" rfl).text]
  | rangeVar =>
    rw [ofKind, ofKind, table, table, (h.plain "relname" rfl).text,
      (h.plain "schemaname" rfl).text?, (h.plain "alias" rfl).node?]
  | aExpr =>
    simp only [ofKind, operation, compareBy, h.code "kind" rfl, (h.plain "lexpr" rfl).node,
      (h.plain "rexpr" rfl).node, (h.plain "rexpr" rfl).list, (h.plain "name" rfl).firstName]
  | aConst => rw [ofKind, ofKind, constant, constant, (h.plain "val" rfl).node]
  | funcCall =>
    rw [ofKind, ofKind, aggregate, aggregate, (h.plain "funcname" rfl).firstName,
      (h.plain "over" rfl).contains, (h.plain "agg_filter" rfl).contains,
      (h.plain "agg_order" rfl).contains, h.flag "agg_within_group" rfl, h.flag "agg_star" rfl,
      h.eachOf "args" rfl, h.flag "agg_distinct" rfl]
  | selectStmt => rw [ofKind, ofKind, nestedSelect, nestedSelect, select_congr h rfl]
  | rawStmt => rw [ofKind, ofKind, wrapped, wrapped, (h.plain "stmt" rfl).node]
  | sortBy =>
    rw [ofKind, ofKind, ordering, ordering, (h.plain "node" rfl).node, h.code "sortby_nulls" rfl,
      h.code "sortby_dir" rfl]
  | nullTest =>
    rw [ofKind, ofKind, nullTest, nullTest, (h.plain "arg" rfl).node, h.code "nulltesttype" rfl]
  | boolExpr =>
    rw [ofKind, ofKind, boolean, boolean, h.code "boolop" rfl, (h.plain "args" rfl).list]
    rfl
  | _ => rfl

end

/-! ## Nodes that are lowered alike -/

/-- Two parse trees are lowered alike, as children and as statements. -/
structure LoweredAlike (value value' : Json) : Prop where
  child : child value = child value'
  statement : statement value = statement value'

lemma LoweredAlike.refl (value : Json) : LoweredAlike value value := ⟨rfl, rfl⟩

lemma LoweredAlike.trans {value value' value'' : Json} (h : LoweredAlike value value')
    (h' : LoweredAlike value' value'') : LoweredAlike value value'' :=
  ⟨h.child.trans h'.child, h.statement.trans h'.statement⟩

lemma statement_tagged (tag : String) (fields : Json.Fields) :
    statement (.object [(tag, .object fields)]) =
      if Kind.ofTag? tag = some .selectStmt then do
        note (.statement tag)
        descend 1 (select (.of child tag fields))
      else fail (.unsupportedStatement tag) := by
  rw [statement, Parse.readTag]
  exact pure_bind _ _

lemma statement_untagged {value : Json}
    (h : ∀ tag fields, value ≠ .object [(tag, .object fields)]) :
    statement value = ofReading (.error (Parse.tagFault value)) := by
  have hread : Parse.readTag child value = .error (Parse.tagFault value) := by
    unfold Parse.readTag
    split
    · exact absurd rfl (h _ _)
    · rfl
  rw [statement, hread]
  rfl

/-- Nodes under one tag are lowered alike if they agree on the attributes that make a difference. -/
lemma loweredAlike_tagged {tag : String} {fields fields' : Json.Fields}
    (h : ∀ kind, Kind.ofTag? tag = some kind → Agree kind fields fields') :
    LoweredAlike (.object [(tag, .object fields)]) (.object [(tag, .object fields')]) := by
  have hof (context : Context) :
      ofTag (.of child tag fields) context = ofTag (.of child tag fields') context := by
    rw [ofTag, ofTag, Attributes.tag_of, Attributes.tag_of]
    cases hkind : Kind.ofTag? tag with
    | none => rfl
    | some kind => exact ofKind_congr (h kind hkind) context
  have hsource : sourceOfTag (.of child tag fields) = sourceOfTag (.of child tag fields') := by
    rw [sourceOfTag, sourceOfTag, Attributes.tag_of, Attributes.tag_of]
    split
    · next hkind => rw [join_congr (h _ hkind) rfl]
    · next kind _ hkind => rw [ofKind_congr (h kind hkind) {}]
    · rfl
  constructor
  · rw [child_tagged, child_tagged, taggedChild, taggedChild, hsource]
    simp only [hof]
  · rw [statement_tagged, statement_tagged]
    by_cases hkind : Kind.ofTag? tag = some .selectStmt
    · rw [if_pos hkind, if_pos hkind, select_congr (h _ hkind) rfl]
    · rw [if_neg hkind, if_neg hkind]

/-- Values that are no nodes are lowered alike if they fail alike. -/
lemma loweredAlike_untagged {value value' : Json}
    (hvalue : ∀ tag fields, value ≠ .object [(tag, .object fields)])
    (hvalue' : ∀ tag fields, value' ≠ .object [(tag, .object fields)])
    (hfault : Parse.tagFault value = Parse.tagFault value') : LoweredAlike value value' := by
  constructor
  · rw [child, Parse.fold_untagged hvalue, Parse.fold_untagged hvalue', untaggedChild,
      untaggedChild, hfault]
  · rw [statement_untagged hvalue, statement_untagged hvalue', hfault]

lemma tagFault_object {fields : Json.Fields} (h : fields.length ≠ 1) :
    Parse.tagFault (.object fields) = .tagCount fields.length := by
  match fields, h with
  | [], _ => rfl
  | [_], h => exact absurd rfl h
  | _ :: _ :: _, _ => rfl

/-- Objects with a number of keys other than one fail alike. -/
lemma loweredAlike_object {fields fields' : Json.Fields} (h : fields.length ≠ 1)
    (hlength : fields'.length = fields.length) :
    LoweredAlike (.object fields) (.object fields') := by
  have huntagged {fields : Json.Fields} (h : fields.length ≠ 1) (tag : String)
      (inner : Json.Fields) : Json.object fields ≠ .object [(tag, .object inner)] := by
    intro heq
    cases heq
    exact h rfl
  have h' : fields'.length ≠ 1 := hlength ▸ h
  refine loweredAlike_untagged (huntagged h) (huntagged h') ?_
  rw [tagFault_object h, tagFault_object h', hlength]

/-- An object whose only field is no object fails for the shape of the field. -/
lemma loweredAlike_single {value value' : Json} (tag : String)
    (houtline : value.outline = value'.outline) (hvalue : ∀ inner, value ≠ .object inner) :
    LoweredAlike (.object [(tag, value)]) (.object [(tag, value')]) := by
  rcases Json.outline_cases houtline with rfl | ⟨items, items', rfl, rfl⟩ | ⟨inner, _, rfl, _⟩
  · exact .refl _
  · exact loweredAlike_untagged nofun nofun rfl
  · exact absurd rfl (hvalue inner)

end SelectTree.Lower
