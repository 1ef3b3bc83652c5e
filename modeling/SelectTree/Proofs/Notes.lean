import SelectTree.Proofs.Reading
import SelectTree.Proofs.Rules.Exact
import SelectTree.Proofs.StatementLayouts

/-!
# Notes on one line

A note takes as many lines as its text has, so a text from the input could add lines of its own to
what is told. `Terse` says that a step takes no such note. Every step of lowering is terse, whatever
the parse tree holds: the notes name kinds, attributes and numbers. The only note that can take more
lines is the one on the first statement of a parse result, since it shows the tag as it was given:
`plain_or_firstStatement`.
-/

namespace SelectTree

/-! ## Texts -/

/-- A text without line breaks. -/
def OneLine (text : String) : Prop :=
  '\n' ∉ text.toList

instance (text : String) : Decidable (OneLine text) :=
  inferInstanceAs (Decidable ('\n' ∉ text.toList))

lemma oneLine_append {text text' : String} :
    OneLine (text ++ text') ↔ OneLine text ∧ OneLine text' := by
  unfold OneLine
  rw [String.toList_append, List.mem_append, not_or]

lemma oneLine_toString (n : Nat) : OneLine (toString n) := by
  intro h
  rw [Nat.toString_eq_repr, Nat.toList_repr] at h
  exact absurd (Nat.isDigit_of_mem_toDigits (by decide) (by decide) h) (by decide)

lemma oneLine_tag (kind : Parse.Kind) : OneLine kind.tag := by
  cases kind <;> decide

namespace Note

/-- The strings that a note shows have no line breaks. -/
def IsPlain : Note → Prop
  | .firstStatement tag => OneLine (tag.getD "untagged")
  | .statement tag => OneLine tag
  | .attributeShape kind key _ => OneLine kind ∧ OneLine key
  | _ => True

/-- What else a note is made of has no line breaks either. -/
lemma IsPlain.oneLine {note : Note} (h : note.IsPlain) : OneLine note.text := by
  unfold text
  cases note with
  | nestingLimit limit => exact oneLine_append.mpr ⟨by decide, oneLine_toString limit.toNat⟩
  | bytesRead count =>
    simp only [oneLine_append]
    exact ⟨⟨by decide, oneLine_toString count⟩, by decide⟩
  | extraStatements count =>
    simp only [oneLine_append]
    exact ⟨⟨by decide, oneLine_toString count⟩, by decide⟩
  | firstStatement tag => exact oneLine_append.mpr ⟨by decide, h⟩
  | statement tag =>
    simp only [oneLine_append]
    exact ⟨⟨by decide, h⟩, by decide⟩
  | attributeShape kind key found =>
    have hfound : OneLine found.phrase := by cases found <;> decide
    simp only [oneLine_append]
    exact ⟨⟨⟨⟨h.1, by decide⟩, h.2⟩, by decide⟩, hfound⟩
  | aggregate function arguments =>
    have hkeyword : OneLine function.keyword := by cases function <;> decide
    simp only [oneLine_append]
    exact ⟨⟨⟨⟨by decide, hkeyword⟩, by decide⟩, oneLine_toString arguments⟩, by decide⟩
  | select projections joins orders =>
    simp only [oneLine_append]
    exact ⟨⟨⟨⟨⟨⟨by decide, oneLine_toString projections⟩, by decide⟩, oneLine_toString joins⟩,
      by decide⟩, oneLine_toString orders⟩, by decide⟩

end Note

namespace Lower

open Parse (Attributes EachChild Kind raw)
open Query (Node)

variable {α β : Type}

/-! ## Terse steps -/

/-- Every note that a step takes is plain. -/
def Terse (step : Lower α) : Prop :=
  ∀ config depth, ∀ note ∈ (step.run config depth).notes, note.IsPlain

namespace Terse

@[grind ←] protected lemma pure (a : α) : Terse (pure a : Lower α) := by
  intro config depth note h
  cases h

@[grind ←] protected lemma fail (error : Error) : Terse (fail error : Lower α) := by
  intro config depth note h
  cases h

@[grind ←] protected lemma note {taken : Note} (h : taken.IsPlain) : Terse (note taken) := by
  intro config depth note hnote
  rw [List.mem_singleton.mp hnote]
  exact h

@[grind ←] protected lemma bind {step : Lower α} {next : α → Lower β} (h : Terse step)
    (hnext : ∀ a, Terse (next a)) : Terse (step >>= next) := by
  intro config depth note hnote
  rw [run_bind] at hnote
  have hstep := h config depth
  generalize step.run config depth = outcome at hstep hnote
  rcases outcome with ⟨_ | a, notes, depth'⟩
  · exact hstep note hnote
  · rcases List.mem_append.mp hnote with hnote | hnote
    · exact hstep note hnote
    · exact hnext a config depth' note hnote

@[grind ←] protected lemma descend {step : Lower α} (h : Terse step) (weight : Nat) :
    Terse (descend weight step) := by
  intro config depth note hnote
  unfold Lower.descend run at hnote
  dsimp only at hnote
  split at hnote
  · cases hnote
  · exact h config _ note hnote

@[grind ←] protected lemma refuse (condition : Bool) (error : Error) :
    Terse (refuse condition error) := by
  unfold Lower.refuse
  split
  · exact Terse.fail error
  · exact Terse.pure ()

@[grind ←] protected lemma mapM {γ : Type} {f : γ → Lower α} {xs : List γ}
    (h : ∀ x ∈ xs, Terse (f x)) : Terse (xs.mapM f) := by
  induction xs with
  | nil => exact Terse.pure []
  | cons x xs ih =>
    rw [List.mapM_cons]
    refine (h x List.mem_cons_self).bind fun a => ?_
    exact (ih fun y hy => h y (List.mem_cons_of_mem x hy)).bind fun as => Terse.pure (a :: as)

lemma reading_bind {reading : Except Error α} {next : α → Lower β} (h : Terse (ofReading reading))
    (hnext : ∀ a, reading = .ok a → Terse (next a)) : Terse (ofReading reading >>= next) := by
  cases reading with
  | ok a => exact hnext a rfl
  | error error => exact h

/-- An error that blames an attribute is told with the tag and the key. -/
lemma reading {γ : Type} {attributes : Attributes γ} {key : String} {reading : Except Error α}
    (htag : OneLine attributes.tag) (hkey : OneLine key)
    (h : ∀ error, reading = .error error → attributes.Blames key error) :
    Terse (ofReading reading) := by
  intro config depth note hnote
  cases reading with
  | ok a => cases hnote
  | error error =>
    obtain ⟨problem, rfl⟩ := h error rfl
    obtain ⟨found, _, rfl⟩ := List.mem_map.mp hnote
    exact ⟨htag, hkey⟩

end Terse

/-! ## Children -/

/-- A child takes terse steps, as a node and as a FROM item. -/
structure TerseChild (child : Child) : Prop where
  node : ∀ context, Terse (child.node context)
  source : Terse child.source

/-- The tag of a node has no line breaks, and its children are terse. -/
structure TerseBelow (tag : String) (fields : Json.Fields) : Prop where
  oneLine : OneLine tag
  children : EachChild (fun value => TerseChild (child value)) tag fields

attribute [grind ←] TerseChild.node TerseChild.source

section

variable {tag key : String} {fields : Json.Fields} (h : TerseBelow tag fields) (hkey : OneLine key)

include h hkey

@[grind ←] lemma terse_code : Terse (ofReading ((Attributes.of child tag fields).code key)) :=
  Terse.reading h.oneLine hkey fun _ herror => (Attributes.explains_of_code herror).blames

@[grind ←] lemma terse_flag : Terse (ofReading ((Attributes.of child tag fields).flag key)) :=
  Terse.reading h.oneLine hkey fun _ herror => (Attributes.explains_of_flag herror).blames

@[grind ←] lemma terse_int : Terse (ofReading ((Attributes.of child tag fields).int key)) :=
  Terse.reading h.oneLine hkey fun _ herror => (Attributes.explains_of_int herror).blames

@[grind ←] lemma terse_text : Terse (ofReading ((Attributes.of child tag fields).text key)) :=
  Terse.reading h.oneLine hkey fun _ herror => (Attributes.explains_of_text herror).blames

@[grind ←] lemma terse_text? : Terse (ofReading ((Attributes.of child tag fields).text? key)) :=
  Terse.reading h.oneLine hkey fun _ herror => (Attributes.explains_of_text? herror).blames

@[grind ←] lemma terse_node_bind {next : Child → Lower α}
    (hnext : ∀ child, TerseChild child → Terse (next child)) :
    Terse (ofReading ((Attributes.of child tag fields).node key) >>= next) := by
  have hreading : Terse (ofReading ((raw tag fields).node key)) :=
    Terse.reading h.oneLine hkey fun _ herror => (Attributes.explains_of_node herror).blames
  rw [Attributes.node_of, ofReading_map_bind]
  exact hreading.reading_bind fun value hvalue => hnext _ (h.children.node hvalue)

@[grind ←] lemma terse_list_bind {next : List Child → Lower α}
    (hnext : ∀ children, (∀ child ∈ children, TerseChild child) → Terse (next children)) :
    Terse (ofReading ((Attributes.of child tag fields).list key) >>= next) := by
  have hreading : Terse (ofReading ((raw tag fields).list key)) :=
    Terse.reading h.oneLine hkey fun _ herror => (Attributes.explains_of_list herror).blames
  rw [Attributes.list_of, ofReading_map_bind]
  refine hreading.reading_bind fun values hvalues => hnext _ fun c hc => ?_
  obtain ⟨value, hvalue, rfl⟩ := List.mem_map.mp hc
  exact h.children.list hvalues value hvalue

@[grind ←] lemma terse_list?_bind {next : Option (List Child) → Lower α}
    (hnext : ∀ children, (∀ child ∈ children.getD [], TerseChild child) → Terse (next children)) :
    Terse (ofReading ((Attributes.of child tag fields).list? key) >>= next) := by
  have hreading : Terse (ofReading ((raw tag fields).list? key)) :=
    Terse.reading h.oneLine hkey fun _ herror => (Attributes.explains_of_list? herror).blames
  rw [Attributes.list?_of, ofReading_map_bind]
  refine hreading.reading_bind fun values hvalues => hnext _ fun c hc => ?_
  rw [getD_map_child] at hc
  obtain ⟨value, hvalue, rfl⟩ := List.mem_map.mp hc
  exact h.children.of_mem_getD (Attributes.list?_raw_eq_ok_iff.mp hvalues) hvalue

omit hkey in
@[grind ←] lemma terse_optional :
    Terse (optional ((Attributes.of child tag fields).node? key)) := by
  rw [Attributes.node?_of, Attributes.node?_raw]
  cases hvalue : Parse.present? fields key with
  | none => exact Terse.pure none
  | some value => exact ((h.children.of_present hvalue).node {}).bind fun _ => Terse.pure _

end

@[grind ←] lemma terse_plainText {c : Child} (h : TerseChild c) (context : Context)
    (role : TextRole) : Terse (plainText c context role) := by
  unfold plainText
  grind

@[grind ←] lemma terse_each {children : List Child} (h : ∀ child ∈ children, TerseChild child)
    (context : Context) : Terse (each children context) := by
  unfold each
  grind

section

variable {tag : String} {fields : Json.Fields} (h : TerseBelow tag fields)
include h

@[grind ←] lemma terse_firstName {key : String} (hkey : OneLine key) (role : TextRole) :
    Terse (firstName (.of child tag fields) key role) := by
  simp only [firstName, liftM_eq]
  grind

@[grind ←] lemma terse_eachOf {key : String} (hkey : OneLine key) :
    Terse (eachOf (.of child tag fields) key) := by
  simp only [eachOf, liftM_eq]
  grind

/-! ## Rules -/

lemma terse_string (context : Context) : Terse (string (.of child tag fields) context) := by
  have hkey : OneLine "str" := by decide
  simp only [string, liftM_eq]
  grind

lemma terse_integer : Terse (integer (.of child tag fields)) := by
  have hkey : OneLine "ival" := by decide
  simp only [integer, liftM_eq]
  grind

lemma terse_constant : Terse (constant (.of child tag fields)) := by
  have hkey : OneLine "val" := by decide
  simp only [constant, liftM_eq]
  grind

lemma terse_column : Terse (column (.of child tag fields)) := by
  have hkey : OneLine "fields" := by decide
  simp only [column, liftM_eq]
  grind

lemma terse_aliasText : Terse (aliasText (.of child tag fields)) := by
  have hkey : OneLine "aliasname" := by decide
  simp only [aliasText, liftM_eq]
  grind

lemma terse_table : Terse (table (.of child tag fields)) := by
  have hkeys : OneLine "relname" ∧ OneLine "schemaname" := by decide
  simp only [table, liftM_eq, Attributes.node?_of, Attributes.node?_raw]
  cases hvalue : Parse.present? fields "alias" with
  | none => grind
  | some value =>
    have hchild := h.children.of_present hvalue
    grind

lemma terse_target : Terse (target (.of child tag fields)) := by
  have hkeys : OneLine "val" ∧ OneLine "name" := by decide
  simp only [target, liftM_eq]
  grind

/-- An operator that is not known is no fault of an attribute, and nothing is told about it. -/
@[grind ←] lemma terse_compareBy (left right : Node) :
    Terse (compareBy (.of child tag fields) left right) := by
  simp only [compareBy, liftM_eq]
  refine (terse_firstName h (by decide) _).bind fun token => ?_
  unfold Node.compareBy
  split
  · exact Terse.pure _
  · exact Terse.fail _

lemma terse_operation : Terse (operation (.of child tag fields)) := by
  have hkeys : OneLine "lexpr" ∧ OneLine "rexpr" ∧ OneLine "name" := by decide
  simp only [operation, liftM_eq]
  refine (terse_code h (by decide)).bind fun code => ?_
  split <;> grind

omit h in
@[grind ←] lemma terse_connective (op : Parse.BoolOp) (operands : List Node) :
    Terse (connective (.of child tag fields) op operands) := by
  unfold connective
  grind

lemma terse_boolean (context : Context) : Terse (boolean (.of child tag fields) context) := by
  have hkeys : OneLine "boolop" ∧ OneLine "args" := by decide
  simp only [boolean, liftM_eq]
  grind

lemma terse_nullTest : Terse (nullTest (.of child tag fields)) := by
  have hkeys : OneLine "arg" ∧ OneLine "nulltesttype" := by decide
  simp only [nullTest, liftM_eq]
  grind

lemma terse_aggregate : Terse (aggregate (.of child tag fields)) := by
  have hkeys : OneLine "agg_star" ∧ OneLine "args" ∧ OneLine "agg_distinct" := by decide
  simp only [aggregate, liftM_eq]
  refine (terse_firstName h (by decide) _).bind fun name => ?_
  split
  · exact Terse.fail _
  · refine (Terse.refuse _ _).bind fun _ => (Terse.refuse _ _).bind fun _ =>
      (Terse.refuse _ _).bind fun _ => (terse_flag h (by decide)).bind fun within =>
        (Terse.refuse within _).bind fun _ => ?_
    grind [Note.IsPlain]

lemma terse_ordering : Terse (ordering (.of child tag fields)) := by
  have hkeys : OneLine "node" ∧ OneLine "sortby_nulls" ∧ OneLine "sortby_dir" := by decide
  simp only [ordering, liftM_eq]
  grind

omit h in
@[grind ←] lemma terse_joinKind (code : Int64) : Terse (joinKind code) := by
  unfold joinKind
  grind

lemma terse_join : Terse (join (.of child tag fields)) := by
  have hkeys : OneLine "larg" ∧ OneLine "rarg" := by decide
  simp only [join, liftM_eq]
  refine (terse_flag h (by decide)).bind fun natural => (Terse.refuse natural _).bind fun _ =>
    (Terse.refuse _ _).bind fun _ => (Terse.refuse _ _).bind fun _ =>
      (terse_code h (by decide)).bind fun code => (terse_joinKind code).bind fun kind => ?_
  grind

@[grind ←] lemma terse_refuseClauses : Terse (refuseClauses (.of child tag fields)) := by
  have hkey : OneLine "op" := by decide
  simp only [refuseClauses, liftM_eq]
  grind

@[grind ←] lemma terse_sources : Terse (sources (.of child tag fields)) := by
  have hkey : OneLine "fromClause" := by decide
  simp only [sources, liftM_eq]
  grind

@[grind ←] lemma terse_select : Terse (select (.of child tag fields)) := by
  have hkeys : OneLine "targetList" ∧ OneLine "sortClause" := by decide
  simp only [select]
  refine (terse_refuseClauses h).bind fun _ => (terse_sources h).bind fun sources => ?_
  grind [Note.IsPlain]

lemma terse_subLink : Terse (subLink (.of child tag fields)) := by
  have hkeys : OneLine "subLinkType" ∧ OneLine "subselect" := by decide
  simp only [subLink, liftM_eq]
  grind

lemma terse_wrapped (context : Context) : Terse (wrapped (.of child tag fields) context) := by
  have hkey : OneLine "stmt" := by decide
  simp only [wrapped, liftM_eq]
  grind

lemma terse_ofKind (kind : Kind) (context : Context) :
    Terse (ofKind kind (.of child tag fields) context) := by
  cases kind with
  | string => exact terse_string h context
  | integer => exact terse_integer h
  | columnRef => exact terse_column h
  | resTarget => exact terse_target h
  | subLink => exact terse_subLink h
  | aliasClause => exact terse_aliasText h
  | rangeVar => exact terse_table h
  | aExpr => exact terse_operation h
  | aConst => exact terse_constant h
  | funcCall => exact terse_aggregate h
  | selectStmt => exact ((terse_select h).descend nestedWeight).bind fun _ => Terse.pure _
  | aStar => exact Terse.pure _
  | rawStmt => exact terse_wrapped h context
  | sortBy => exact terse_ordering h
  | nullTest => exact terse_nullTest h
  | boolExpr => exact terse_boolean h context
  | _ => exact Terse.fail _

end

/-! ## Parse trees -/

/-- A node of an unknown kind fails at once, so that the tags that are told are known. -/
lemma terseChild_tagged {tag : String} {fields : Json.Fields}
    (ih : EachChild (fun value => TerseChild (child value)) tag fields) :
    TerseChild (taggedChild (.of child tag fields)) := by
  have hbelow {kind : Kind} (hkind : Kind.ofTag? tag = some kind) : TerseBelow tag fields :=
    ⟨Kind.ofTag?_eq_some_iff.mp hkind ▸ oneLine_tag kind, ih⟩
  constructor
  · intro context
    refine Terse.descend ?_ 1
    unfold ofTag
    split
    · exact Terse.fail _
    · next kind hkind => exact terse_ofKind (hbelow hkind) kind context
  · show Terse (sourceOfTag (.of child tag fields))
    unfold sourceOfTag
    split
    · next hkind => exact (terse_join (hbelow hkind)).descend 1
    · next kind _ hkind =>
      refine ((terse_ofKind (hbelow hkind) kind {}).descend 1).bind fun result => ?_
      split
      · exact Terse.pure _
      · exact Terse.fail _
    · exact (Terse.fail _).descend 1

lemma terseChild (value : Json) : TerseChild (child value) := by
  induction value using Parse.attribute_induction with
  | untagged value h =>
    rw [child, Parse.fold_untagged h]
    exact ⟨fun _ => (Terse.fail _).descend 1, Terse.fail _⟩
  | tagged tag fields ih =>
    rw [child_tagged]
    exact terseChild_tagged ih

lemma errorNotes_tagFault (value : Json) : errorNotes (Parse.tagFault value) = [] := by
  unfold Parse.tagFault
  split <;> rfl

theorem terse_statement (value : Json) : Terse (statement value) := by
  by_cases hvalue : ∃ tag fields, value = .object [(tag, .object fields)]
  · obtain ⟨tag, fields, rfl⟩ := hvalue
    rw [statement_tagged]
    split
    · next hkind =>
      have htag : OneLine tag := Kind.ofTag?_eq_some_iff.mp hkind ▸ oneLine_tag .selectStmt
      have hbelow : TerseBelow tag fields :=
        ⟨htag, fun _ => terseChild _, fun _ _ _ => terseChild _⟩
      have hnote : Terse (note (.statement tag)) := Terse.note (show OneLine tag from htag)
      exact hnote.bind fun _ => (terse_select hbelow).descend 1
    · exact Terse.fail _
  · rw [statement_untagged fun tag fields heq => hvalue ⟨tag, fields, heq⟩]
    intro config depth note hnote
    rw [run_ofReading_error, errorNotes_tagFault] at hnote
    cases hnote

/-- Nothing is told about a parse result that cannot be read. -/
lemma errorNotes_statements {result : Json} {error : Error}
    (h : Parse.statements result = .error error) : errorNotes error = [] := by
  cases hentries : Parse.entries result with
  | error error' =>
    rw [Parse.statements, hentries] at h
    cases h
    unfold Parse.entries at hentries
    split at hentries
    · cases hentries
    · split at hentries <;> cases hentries <;> rfl
    · cases hentries
      rfl
  | ok list =>
    rw [Parse.statements, hentries] at h
    obtain ⟨_, rfl⟩ := Parse.mapM_unwrap_eq_error_iff.mp h
    rfl

/-- The notes on a parse result: that some statements are left out, if they are, then the tag of the
first statement, and then the notes on that statement. -/
lemma notes_tree {result first : Json} {rest : List Json}
    (h : Parse.statements result = .ok (first :: rest)) (config : Config) (depth : Nat) :
    ((tree result).run config depth).notes =
      (if 1 < (first :: rest).length then [.extraStatements (first :: rest).length] else [])
        ++ .firstStatement (Parse.peekTag? first)
          :: ((statement first).run config depth).notes := by
  rw [tree, firstStatement, liftM_eq, h]
  by_cases hlength : 1 < (first :: rest).length
  · simp only [run_bind, run_ofReading_ok, Outcome.andThen_ok, if_pos hlength, run_note, run_pure]
    rfl
  · simp only [run_bind, run_ofReading_ok, Outcome.andThen_ok, if_neg hlength, run_note, run_pure]
    rfl

lemma notes_tree_of_ne {result : Json}
    (h : ∀ first rest, Parse.statements result ≠ .ok (first :: rest)) (config : Config)
    (depth : Nat) : ((tree result).run config depth).notes = [] := by
  rw [tree, firstStatement, liftM_eq]
  rcases hread : Parse.statements result with error | (_ | ⟨first, rest⟩)
  · rw [run_bind, run_bind, run_ofReading_error, errorNotes_statements hread]
    rfl
  · rfl
  · exact absurd hread (h first rest)

/-- All notes on a parse result are plain, but for the one that shows the tag of its first
statement. -/
theorem plain_or_firstStatement {result : Json} {config : Config} {depth : Nat} {note : Note}
    (h : note ∈ ((tree result).run config depth).notes) :
    note.IsPlain ∨ ∃ first rest, Parse.statements result = .ok (first :: rest) ∧
      note = .firstStatement (Parse.peekTag? first) := by
  by_cases hread : ∃ first rest, Parse.statements result = .ok (first :: rest)
  · obtain ⟨first, rest, hread⟩ := hread
    rw [notes_tree hread, List.mem_append, List.mem_cons] at h
    rcases h with h | rfl | h
    · split at h
      · rw [List.mem_singleton.mp h]
        exact .inl trivial
      · cases h
    · exact .inr ⟨first, rest, hread, rfl⟩
    · exact .inl (terse_statement first config depth note h)
  · rw [notes_tree_of_ne fun first rest heq => hread ⟨first, rest, heq⟩] at h
    cases h

end Lower

end SelectTree
