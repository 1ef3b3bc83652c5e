import SelectTree.Proofs.JoinSpine
import SelectTree.Proofs.NestedSelect

/-!
# Contexts are not inherited

A node is lowered in a context, and chooses the contexts of its children afresh. The one node that
hands on its own context is a wrapped statement, so the context in which a tree is lowered gets no
further than its `core`, the node that is reached through wrapped statements.

`node_congr` compares two contexts: they make no difference if the core is no string, or the mode of
literals is the same in both, and if the core is no boolean expression, or both are nested or
neither is. `node_nested` says what the second difference is: the parentheses.
-/

namespace SelectTree.Parse

/-! ## Wrapped statements -/

/-- The core of a node, from the cores of its children. -/
def coreOf (attributes : Attributes Json) : Json :=
  match Kind.ofTag? attributes.tag, attributes.node? "stmt" with
  | some .rawStmt, some inner => inner
  | _, _ => .object [(attributes.tag, .object attributes.fields)]

/-- The node that is reached by following the statements of wrapped statements. -/
def core : Json → Json :=
  fold coreOf id

lemma core_rawStmt {fields : Json.Fields} {value : Json}
    (h : present? fields "stmt" = some value) : core (tagged .rawStmt fields) = core value := by
  rw [core, tagged, fold_tagged, coreOf, Attributes.tag_of, Kind.ofTag?_tag, Attributes.node?_of,
    Attributes.node?_raw, h]
  rfl

/-- What wraps no statement is its own core. -/
lemma core_eq_self {value : Json}
    (h : ∀ fields, value = tagged .rawStmt fields → present? fields "stmt" = none) :
    core value = value := by
  by_cases htagged : ∃ tag fields, value = .object [(tag, .object fields)]
  · obtain ⟨tag, fields, rfl⟩ := htagged
    rw [core, fold_tagged, coreOf, Attributes.tag_of, Attributes.fields_of, Attributes.node?_of,
      Attributes.node?_raw]
    split
    · next htag hstmt =>
      have hnone := h fields (by rw [tagged, Kind.ofTag?_eq_some_iff.mp htag])
      rw [hnone] at hstmt
      cases hstmt
    · rfl
  · exact fold_untagged fun tag fields heq => htagged ⟨tag, fields, heq⟩

/-- What holds of every value that wraps no statement, and of every wrapped statement if it holds of
the statement, holds of every value. -/
theorem core_induction {motive : Json → Prop}
    (self : ∀ value, (∀ fields, value = tagged .rawStmt fields → present? fields "stmt" = none) →
      motive value)
    (wrapped : ∀ fields inner, present? fields "stmt" = some inner → motive inner →
      motive (tagged .rawStmt fields))
    (value : Json) : motive value := by
  induction value using kind_induction with
  | other value h => exact self value fun fields heq => absurd heq (h _ fields)
  | node kind fields ih =>
    by_cases hinner : kind = .rawStmt ∧ ∃ inner, present? fields "stmt" = some inner
    · obtain ⟨rfl, inner, hstmt⟩ := hinner
      exact wrapped fields inner hstmt (ih.of_present hstmt)
    · refine self _ fun fields' heq => ?_
      obtain ⟨rfl, rfl⟩ := tagged_inj.mp heq
      by_contra hsome
      exact hinner ⟨rfl, Option.ne_none_iff_exists'.mp hsome⟩

end SelectTree.Parse

namespace SelectTree

open Parse (Attributes Kind core present? tagged)
open Query (Node)

namespace Lower

variable {α β : Type}

/-! ## Results in another form -/

@[simp] lemma map_fail (f : α → β) (error : Error) :
    f <$> (fail error : Lower α) = fail error := rfl

lemma map_descend (f : α → β) (weight : Nat) (step : Lower α) :
    f <$> descend weight step = descend weight (f <$> step) := by
  refine ext fun config depth => ?_
  show (descend weight step config depth).andThen _ = descend weight (f <$> step) config depth
  unfold descend
  dsimp only
  by_cases hlimit : config.maxDepth.toNat < min (depth + weight) depthCeiling
  · rw [if_pos hlimit, if_pos hlimit]
    rfl
  · rw [if_neg hlimit, if_neg hlimit]
    show _ = { (step.run config _).andThen _ with depth }
    rcases step.run config (min (depth + weight) depthCeiling) with ⟨_ | a, notes, deeper⟩ <;> rfl

lemma result_map (f : α → β) (step : Lower α) (config : Config) (depth : Nat) :
    ((f <$> step).run config depth).result = (step.run config depth).result.map f := by
  show ((step.run config depth).andThen _).result = _
  rcases step.run config depth with ⟨_ | a, notes, deeper⟩ <;> rfl

/-! ## Two contexts -/

section

variable {context context' : Context}

/-- Apart from a wrapped statement, a kind uses its context only as a string, for the mode of
literals, or as a boolean expression, for being nested. -/
lemma ofKind_congr_context {kind : Kind} (hwrapped : kind ≠ .rawStmt)
    (hliteral : kind = .string → context.literal = context'.literal)
    (hnested : kind = .boolExpr → context.nested = context'.nested) (attributes : NodeAttributes) :
    ofKind kind attributes context = ofKind kind attributes context' := by
  cases kind with
  | string => rw [ofKind, ofKind, string, string, hliteral rfl]
  | boolExpr => rw [ofKind, ofKind, boolean, boolean, hnested rfl]
  | rawStmt => exact absurd rfl hwrapped
  | _ => rfl

/-- A wrapped statement that holds none fails in every context. -/
lemma wrapped_absent {fields : Json.Fields} (h : present? fields "stmt" = none) (tag : String) :
    wrapped (.of child tag fields) context = wrapped (.of child tag fields) context' := by
  have hstmt : (Attributes.of child tag fields).node? "stmt" = none := by
    rw [Attributes.node?_of, Attributes.node?_raw, h]
    rfl
  rw [wrapped, wrapped, Attributes.node, hstmt]
  rfl

/-- Contexts make no difference, unless the core is a string and they differ in the mode of
literals, or it is a boolean expression and one of them is nested. -/
lemma node_congr (value : Json)
    (hliteral : (∃ fields, core value = tagged .string fields) → context.literal = context'.literal)
    (hnested : (∃ fields, core value = tagged .boolExpr fields) →
      context.nested = context'.nested) :
    node value context = node value context' := by
  induction value using Parse.core_induction with
  | wrapped fields inner hstmt ih =>
    rw [Parse.core_rawStmt hstmt] at hliteral hnested
    rw [node_rawStmt hstmt, node_rawStmt hstmt, ih hliteral hnested]
  | self value hself =>
    rw [Parse.core_eq_self hself] at hliteral hnested
    rcases tagged_or_untagged value with ⟨tag, fields, rfl⟩ | huntagged
    · rw [node_tagged, node_tagged, ofTag, ofTag, Attributes.tag_of]
      cases htag : Kind.ofTag? tag with
      | none => rfl
      | some kind =>
        obtain rfl := Kind.ofTag?_eq_some_iff.mp htag
        by_cases hkind : kind = .rawStmt
        · subst hkind
          exact congrArg (descend 1) (wrapped_absent (hself fields rfl) _)
        · refine congrArg (descend 1) (ofKind_congr_context hkind ?_ ?_ _)
          · rintro rfl
            exact hliteral ⟨fields, rfl⟩
          · rintro rfl
            exact hnested ⟨fields, rfl⟩
    · rw [node, node, huntagged]
      rfl

end

/-! ## Parentheses -/

/-- Inside another one, a boolean expression is what it is elsewhere, in parentheses. -/
lemma boolean_nested (attributes : NodeAttributes) (literal : LiteralMode) :
    boolean attributes { literal, nested := true } =
      Node.grouping <$> boolean attributes { literal, nested := false } := by
  simp only [boolean, map_eq_pure_bind, bind_assoc]
  refine bind_congr fun code => ?_
  split
  · rfl
  · simp

lemma node_nested {value : Json} (hcore : ∃ fields, core value = tagged .boolExpr fields)
    (literal : LiteralMode) :
    node value { literal, nested := true } =
      Node.grouping <$> node value { literal, nested := false } := by
  induction value using Parse.core_induction with
  | wrapped fields inner hstmt ih =>
    rw [Parse.core_rawStmt hstmt] at hcore
    rw [node_rawStmt hstmt, node_rawStmt hstmt, ih hcore, map_descend]
  | self value hself =>
    obtain ⟨fields, hvalue⟩ := hcore
    rw [Parse.core_eq_self hself] at hvalue
    rw [hvalue, tagged, node_tagged, node_tagged, ofTag, ofTag, Attributes.tag_of,
      Kind.ofTag?_tag, map_descend]
    simp only [ofKind, boolean_nested]

end Lower

/-- **Contexts are not inherited.** The context of a parse tree reaches no further than the node
inside its wrapped statements. Unless that node is a string, the mode of literals makes no
difference, to the answer or to the notes; unless it is a boolean expression, nesting makes none. A
boolean expression that is nested is put in parentheses, and fails as it does when it is not. -/
theorem contexts_not_inherited (session : Session) (value : Json) :
    ((¬ ∃ fields, core value = tagged .string fields) → ∀ literal literal' nested,
      session.node value { literal, nested } = session.node value { literal := literal', nested }) ∧
    ((¬ ∃ fields, core value = tagged .boolExpr fields) → ∀ literal,
      session.node value { literal, nested := true } =
        session.node value { literal, nested := false }) ∧
    ((∃ fields, core value = tagged .boolExpr fields) → ∀ literal,
      (∀ expr, (session.node value { literal, nested := true }).1.result = .ok (.grouping expr) ↔
        (session.node value { literal, nested := false }).1.result = .ok expr) ∧
      ∀ error, (session.node value { literal, nested := true }).1.result = .error error ↔
        (session.node value { literal, nested := false }).1.result = .error error) := by
  refine ⟨fun hcore literal literal' nested => ?_, fun hcore literal => ?_, fun hcore literal => ?_⟩
  · have hnode : Lower.node value { literal, nested } =
        Lower.node value { literal := literal', nested } :=
      Lower.node_congr value (fun hstring => absurd hstring hcore) fun _ => rfl
    exact congrArg session.call hnode
  · have hnode : Lower.node value { literal, nested := true } =
        Lower.node value { literal, nested := false } :=
      Lower.node_congr value (fun _ => rfl) fun hboolean => absurd hboolean hcore
    exact congrArg session.call hnode
  · have hresult : (session.node value { literal, nested := true }).1.result =
        (session.node value { literal, nested := false }).1.result.map Node.grouping := by
      simp only [Session.node, Session.call, Lower.node_nested hcore, Lower.result_map]
    rw [hresult]
    cases (session.node value { literal, nested := false }).1.result with
    | ok expr => simp [Except.map]
    | error error => simp [Except.map]

/-- The attributes of the negation of a constant. -/
def negatedConstant : Json.Fields :=
  [("boolop", .ofNat 2),
    ("args", .array [tagged .aConst [("val", tagged .string [("str", .string "x")])]])]

/-- A statement wrapped twice. -/
def wrappedTwice (statement : Json) : Json :=
  tagged .rawStmt [("stmt_len", .ofNat 3), ("stmt", tagged .rawStmt [("stmt", statement)])]

/-- The constant in a wrapped negation is quoted as one in every mode, and the negation is put in
parentheses; a wrapped string is the same nested or not. -/
theorem contexts_not_inherited_wrappedTwice :
    (core (wrappedTwice (tagged .boolExpr negatedConstant)) = tagged .boolExpr negatedConstant ∧
      (∀ literal literal' nested,
        Session.node {} (wrappedTwice (tagged .boolExpr negatedConstant)) { literal, nested } =
          Session.node {} (wrappedTwice (tagged .boolExpr negatedConstant))
            { literal := literal', nested }) ∧
      (Session.node {} (wrappedTwice (tagged .boolExpr negatedConstant))
        { nested := true }).1.result = .ok (.grouping (.not (.literal "'x'")))) ∧
    Session.node {} (wrappedTwice (tagged .string [("str", .string "x")])) { nested := true } =
      Session.node {} (wrappedTwice (tagged .string [("str", .string "x")])) := by
  have hboolean : core (wrappedTwice (tagged .boolExpr negatedConstant)) =
      tagged .boolExpr negatedConstant := rfl
  have hstring : core (wrappedTwice (tagged .string [("str", .string "x")])) =
      tagged .string [("str", .string "x")] := rfl
  obtain ⟨hmodes, -, hgrouping⟩ :=
    contexts_not_inherited {} (wrappedTwice (tagged .boolExpr negatedConstant))
  obtain ⟨-, hnested, -⟩ :=
    contexts_not_inherited {} (wrappedTwice (tagged .string [("str", .string "x")]))
  refine ⟨⟨hboolean, hmodes ?_, ?_⟩, hnested ?_ .identifier⟩
  · rintro ⟨fields, heq⟩
    rw [hboolean, Parse.tagged_inj] at heq
    exact absurd heq.1 (by decide)
  · exact ((hgrouping ⟨_, hboolean⟩ .identifier).1 _).mpr rfl
  · rintro ⟨fields, heq⟩
    rw [hstring, Parse.tagged_inj] at heq
    exact absurd heq.1 (by decide)

end SelectTree
