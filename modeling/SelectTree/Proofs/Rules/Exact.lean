import SelectTree.Proofs.Rules.Basic

/-!
# Lowering follows its rules

For each step of lowering, what it means that its answer is good. The steps are taken in the order
in which rules are put together: children, leaves, predicates, aggregates and orderings, selects,
and then nodes and FROM items as a whole. `gives_tagged_iff` and `givesSources_iff` are what later
proofs use.
-/

namespace SelectTree.Lower

open Parse (Attributes Coded HasCode HasFlag Kind present? raw tagged)
open Query (AggregateFunction ComparisonOp Direction JoinKind Node Select Sources Table)

/-! ## Steps on children -/

section

variable {tag : String} {fields : Json.Fields} {key : String}

lemma answer_plainText_eq_ok_iff {value : Json} {context : Context} {role : TextRole}
    {text : String} :
    answer (plainText (child value) context role) = .ok text ↔ GivesText context value text := by
  rw [answer_plainText, bind_eq_ok_iff]
  refine exists_congr fun result => and_congr_right fun _ => ?_
  cases result.fragment? <;> simp

lemma answer_firstName_eq_ok_iff {role : TextRole} {text : String} :
    answer (firstName (.of child tag fields) key role) = .ok text ↔ GivesName fields key text := by
  simp only [firstName, liftM_eq, answer_ofReading_bind, Attributes.list_of, map_bind,
    bind_eq_ok_iff, Attributes.list_raw_eq_ok_iff]
  constructor
  · rintro ⟨_ | ⟨name, rest⟩, hvalues, h⟩
    · cases h
    · exact ⟨name, rest, hvalues, answer_plainText_eq_ok_iff.mp h⟩
  · rintro ⟨name, rest, hvalues, htext⟩
    exact ⟨name :: rest, hvalues, answer_plainText_eq_ok_iff.mpr htext⟩

lemma answer_each_eq_ok_iff {values : List Json} {context : Context} {results : List Node} :
    answer (each (values.map child) context) = .ok results ↔
      List.Forall₂ (Gives context) values results := by
  rw [← bind_pure (each _ _), answer_each_bind]
  simp only [answer_pure, bind_eq_ok_iff, mapM_eq_ok_iff]
  exact ⟨fun ⟨_, h, heq⟩ => Except.ok.inj heq ▸ h, fun h => ⟨_, h, rfl⟩⟩

lemma getD_map_child (values : Option (List Json)) :
    (values.map (List.map child)).getD [] = (values.getD []).map child := by
  cases values <;> rfl

lemma answer_eachOf_eq_ok_iff {results : List Node} :
    answer (eachOf (.of child tag fields) key) = .ok results ↔ GivesEach fields key results := by
  simp only [eachOf, liftM_eq, answer_ofReading_bind, Attributes.list?_of, map_bind,
    bind_eq_ok_iff, Attributes.list?_raw_eq_ok_iff, getD_map_child, answer_each_eq_ok_iff]
  rfl

lemma answer_optional_eq_ok_iff {result : Option Node} :
    answer (optional ((Attributes.of child tag fields).node? key)) = .ok result ↔
      GivesOptional fields key result := by
  rw [Attributes.node?_of, Attributes.node?_raw]
  refine ⟨optional_rel, fun h => ?_⟩
  unfold GivesOptional at h
  generalize present? fields key = value? at h ⊢
  cases h with
  | none => rfl
  | some hresult =>
    rw [Gives] at hresult
    rw [Option.map_some, optional, node_child, answer_node_bind, hresult]
    rfl

end

/-! ## Leaves and targets -/

section

variable {tag : String} {fields : Json.Fields} {context : Context} {result : Node}

lemma answer_string_eq_ok_iff : answer (string (.of child tag fields) context) = .ok result ↔
    Rule context .string fields result := by
  simp only [string, liftM_eq, answer_ofReading_bind, Attributes.text_of, bind_eq_ok_iff,
    Attributes.text_raw_eq_ok_iff]
  constructor
  · rintro ⟨text, htext, h⟩
    have hresult : result = .literal (render context.literal text) := by
      rcases context with ⟨_ | _ | _, _⟩ <;> cases h <;> rfl
    exact hresult ▸ .makes (.string htext)
  · intro h
    cases h with
    | makes h =>
      cases h with
      | string htext =>
        refine ⟨_, htext, ?_⟩
        rcases context with ⟨_ | _ | _, _⟩ <;> rfl

lemma answer_integer_eq_ok_iff : answer (integer (.of child tag fields)) = .ok result ↔
    Rule context .integer fields result := by
  simp only [integer, liftM_eq, answer_ofReading_bind, Attributes.int_of, bind_eq_ok_iff,
    Attributes.int_raw_eq_ok_iff, answer_pure]
  constructor
  · rintro ⟨number, ⟨value, hvalue, hnumber⟩, ⟨⟩⟩
    exact .makes (.integer hvalue hnumber)
  · intro h
    cases h with
    | makes h =>
      cases h with
      | integer hvalue hnumber => exact ⟨_, ⟨_, hvalue, hnumber⟩, rfl⟩

lemma answer_aliasText_eq_ok_iff : answer (aliasText (.of child tag fields)) = .ok result ↔
    Rule context .aliasClause fields result := by
  simp only [aliasText, liftM_eq, answer_ofReading_bind, Attributes.text_of, bind_eq_ok_iff,
    Attributes.text_raw_eq_ok_iff, answer_pure]
  constructor
  · rintro ⟨text, htext, ⟨⟩⟩
    exact .makes (.aliasText htext)
  · intro h
    cases h with
    | makes h =>
      cases h with
      | aliasText htext => exact ⟨_, htext, rfl⟩

lemma answer_constant_eq_ok_iff : answer (constant (.of child tag fields)) = .ok result ↔
    Rule context .aConst fields result := by
  simp only [constant, liftM_eq, answer_ofReading_bind, Attributes.node_of, map_bind,
    bind_eq_ok_iff, Attributes.node_raw_eq_ok_iff, node_child]
  constructor
  · rintro ⟨value, hvalue, h⟩
    exact .constant hvalue h
  · intro h
    cases h with
    | makes h => cases h
    | constant hvalue h => exact ⟨_, hvalue, h⟩

lemma answer_wrapped_eq_ok_iff : answer (wrapped (.of child tag fields) context) = .ok result ↔
    Rule context .rawStmt fields result := by
  simp only [wrapped, liftM_eq, answer_ofReading_bind, Attributes.node_of, map_bind,
    bind_eq_ok_iff, Attributes.node_raw_eq_ok_iff, node_child]
  constructor
  · rintro ⟨value, hvalue, h⟩
    exact .wrapped hvalue h
  · intro h
    cases h with
    | makes h => cases h
    | wrapped hvalue h => exact ⟨_, hvalue, h⟩

lemma answer_subLink_eq_ok_iff : answer (subLink (.of child tag fields)) = .ok result ↔
    Rule context .subLink fields result := by
  have hkind {code : Int64} :
      (Coded.ofCode? code : Option Parse.SubLinkKind) = some .expr ↔ code = 4 :=
    Coded.ofCode?_eq_some_iff (by decide) rfl
  simp only [subLink, liftM_eq, answer_ofReading_bind, Attributes.code_of, bind_eq_ok_iff,
    Attributes.code_raw_eq_ok_iff]
  constructor
  · rintro ⟨code, hcode, h⟩
    split at h
    · next hexpr =>
      obtain rfl := hkind.mp hexpr
      simp only [answer_ofReading_bind, Attributes.node_of, map_bind, bind_eq_ok_iff,
        Attributes.node_raw_eq_ok_iff, node_child] at h
      obtain ⟨value, hvalue, h⟩ := h
      exact .subLink hcode hvalue h
    · cases h
  · intro h
    cases h with
    | makes h => cases h
    | subLink hcode hvalue h =>
      refine ⟨4, hcode, ?_⟩
      rw [hkind.mpr rfl]
      simp only [answer_ofReading_bind, Attributes.node_of, map_bind, bind_eq_ok_iff,
        Attributes.node_raw_eq_ok_iff, node_child]
      exact ⟨_, hvalue, h⟩

lemma answer_target_eq_ok_iff : answer (target (.of child tag fields)) = .ok result ↔
    Rule context .resTarget fields result := by
  simp only [target, liftM_eq, answer_ofReading_bind, Attributes.node_of, Attributes.text?_of,
    map_bind, bind_eq_ok_iff, Attributes.node_raw_eq_ok_iff, Attributes.text?_raw_eq_ok_iff,
    node_child, answer_node_bind]
  constructor
  · rintro ⟨value, hvalue, expr, hexpr, _ | name, hname, ⟨⟩⟩
    · exact .target hvalue hexpr hname
    · exact .makes (.named hvalue hexpr hname)
  · intro h
    cases h with
    | makes h =>
      cases h with
      | named hvalue hexpr hname => exact ⟨_, hvalue, _, hexpr, some _, hname, rfl⟩
    | target hvalue hexpr hname => exact ⟨_, hvalue, _, hexpr, none, hname, rfl⟩

lemma answer_column_eq_ok_iff : answer (column (.of child tag fields)) = .ok result ↔
    Rule context .columnRef fields result := by
  simp only [column, liftM_eq, answer_ofReading_bind, Attributes.list_of, map_bind,
    bind_eq_ok_iff, Attributes.list_raw_eq_ok_iff,
    answer_mapM_child_bind (f := (plainText · {} .columnField))
      fun value => settled_plainText value {} .columnField,
    mapM_eq_ok_iff, answer_plainText_eq_ok_iff, answer_pure]
  constructor
  · rintro ⟨values, hvalues, texts, htexts, ⟨⟩⟩
    exact .makes (.column hvalues htexts)
  · intro h
    cases h with
    | makes h =>
      cases h with
      | column hvalues htexts => exact ⟨_, hvalues, _, htexts, rfl⟩

lemma answer_table_eq_ok_iff : answer (table (.of child tag fields)) = .ok result ↔
    Rule context .rangeVar fields result := by
  simp only [table, liftM_eq, answer_ofReading_bind, Attributes.text_of, Attributes.text?_of,
    bind_eq_ok_iff, Attributes.text_raw_eq_ok_iff, Attributes.text?_raw_eq_ok_iff,
    Attributes.node?_of, Attributes.node?_raw]
  constructor
  · rintro ⟨name, hname, schema, hschema, h⟩
    cases halias : present? fields "alias" with
    | none =>
      rw [halias] at h
      cases h
      exact .makes (.table hname hschema (halias ▸ .none))
    | some value =>
      rw [halias] at h
      dsimp only [Option.map_some] at h
      rw [answer_bind (settled_plainText value {} .tableAlias), bind_eq_ok_iff] at h
      obtain ⟨text, htext, ⟨⟩⟩ := h
      exact .makes (.table hname hschema (halias ▸ .some (answer_plainText_eq_ok_iff.mp htext)))
  · intro h
    cases h with
    | makes h =>
      cases h with
      | table hname hschema halias =>
        refine ⟨_, hname, _, hschema, ?_⟩
        generalize present? fields "alias" = value? at halias ⊢
        cases halias with
        | none => rfl
        | @some value text htext =>
          dsimp only [Option.map_some]
          rw [answer_bind (settled_plainText value {} .tableAlias), bind_eq_ok_iff]
          exact ⟨text, answer_plainText_eq_ok_iff.mpr htext, rfl⟩

end

/-! ## Predicates -/

lemma ofToken?_eq_some_iff {token : String} {op : ComparisonOp} :
    ComparisonOp.ofToken? token = some op ↔ op.token = token := by
  refine ⟨fun h => by simpa using List.find?_some h, ?_⟩
  rintro rfl
  cases op <;> decide

section

variable {tag : String} {fields : Json.Fields} {context : Context} {result : Node}

lemma answer_compareBy_eq_ok_iff {left right : Node} :
    answer (compareBy (.of child tag fields) left right) = .ok result ↔
      ∃ op, GivesName fields "name" op.token ∧ result = .comparison op left right := by
  simp only [compareBy, liftM_eq, answer_firstName_bind, bind_eq_ok_iff,
    answer_firstName_eq_ok_iff, answer_ofReading, Node.compareBy]
  constructor
  · rintro ⟨token, htoken, h⟩
    split at h
    · next op hop =>
      cases h
      exact ⟨op, ofToken?_eq_some_iff.mp hop ▸ htoken, rfl⟩
    · cases h
  · rintro ⟨op, htoken, rfl⟩
    refine ⟨_, htoken, ?_⟩
    rw [ofToken?_eq_some_iff.mpr rfl]

/-- The comparison of two children, the right one perhaps marked. -/
lemma answer_comparison_eq_ok_iff (mark : Node → Node) :
    answer (do
      let left ← (← (Attributes.of child tag fields).node "lexpr").node {}
      let right ← (← (Attributes.of child tag fields).node "rexpr").node {}
      compareBy (.of child tag fields) left (mark right)) = .ok result ↔
      ∃ l left r right op, present? fields "lexpr" = some l ∧ Gives {} l left ∧
        present? fields "rexpr" = some r ∧ Gives {} r right ∧ GivesName fields "name" op.token ∧
        result = .comparison op left (mark right) := by
  simp only [liftM_eq, answer_ofReading_bind, Attributes.node_of, map_bind, bind_eq_ok_iff,
    Attributes.node_raw_eq_ok_iff, node_child, answer_node_bind, answer_compareBy_eq_ok_iff]
  constructor
  · rintro ⟨l, hl, left, hleft, r, hr, right, hright, op, hname, rfl⟩
    exact ⟨l, left, r, right, op, hl, hleft, hr, hright, hname, rfl⟩
  · rintro ⟨l, left, r, right, op, hl, hleft, hr, hright, hname, rfl⟩
    exact ⟨l, hl, left, hleft, r, hr, right, hright, op, hname, rfl⟩

/-- Membership of a child in a list of children. -/
lemma answer_membership_eq_ok_iff :
    answer (do
      let expr ← (← (Attributes.of child tag fields).node "lexpr").node {}
      let list ← each (← (Attributes.of child tag fields).list "rexpr")
      let token ← firstName (.of child tag fields) "name" .operatorName
      return Node.inList expr list (token = "<>")) = .ok result ↔
      ∃ l expr values list token, present? fields "lexpr" = some l ∧ Gives {} l expr ∧
        present? fields "rexpr" = some (.array values) ∧ List.Forall₂ (Gives {}) values list ∧
        GivesName fields "name" token ∧ result = .inList expr list (token = "<>") := by
  simp only [liftM_eq, answer_ofReading_bind, Attributes.node_of, Attributes.list_of, map_bind,
    bind_eq_ok_iff, Attributes.node_raw_eq_ok_iff, Attributes.list_raw_eq_ok_iff, node_child,
    answer_node_bind, answer_each_bind, mapM_eq_ok_iff, answer_firstName_bind,
    answer_firstName_eq_ok_iff, answer_pure]
  constructor
  · rintro ⟨l, hl, expr, hexpr, values, hvalues, list, hlist, token, htoken, ⟨⟩⟩
    exact ⟨l, expr, values, list, token, hl, hexpr, hvalues, hlist, htoken, rfl⟩
  · rintro ⟨l, expr, values, list, token, hl, hexpr, hvalues, hlist, htoken, rfl⟩
    exact ⟨l, hl, expr, hexpr, values, hvalues, list, hlist, token, htoken, rfl⟩

lemma answer_operation_eq_ok_iff : answer (operation (.of child tag fields)) = .ok result ↔
    Rule context .aExpr fields result := by
  have hnodup : (Coded.members : List Parse.ExprKind).Nodup := by decide
  have hop {code : Int64} : (Coded.ofCode? code : Option Parse.ExprKind) = some .op ↔ code = 0 :=
    Coded.ofCode?_eq_some_iff hnodup rfl
  have hany {code : Int64} :
      (Coded.ofCode? code : Option Parse.ExprKind) = some .opAny ↔ code = 1 :=
    Coded.ofCode?_eq_some_iff hnodup rfl
  have hin {code : Int64} :
      (Coded.ofCode? code : Option Parse.ExprKind) = some .inList ↔ code = 7 :=
    Coded.ofCode?_eq_some_iff hnodup rfl
  unfold operation
  rw [liftM_eq, answer_ofReading_bind, Attributes.code_of, bind_eq_ok_iff]
  simp only [Attributes.code_raw_eq_ok_iff]
  constructor
  · rintro ⟨code, hcode, h⟩
    split at h
    · cases h
    · next hkind =>
      obtain rfl := hop.mp hkind
      obtain ⟨l, left, r, right, op, hl, hleft, hr, hright, hname, rfl⟩ :=
        (answer_comparison_eq_ok_iff id).mp h
      exact .makes (.compare hcode hl hleft hr hright hname)
    · next hkind =>
      obtain rfl := hany.mp hkind
      obtain ⟨l, left, r, right, op, hl, hleft, hr, hright, hname, rfl⟩ :=
        (answer_comparison_eq_ok_iff Node.any).mp h
      exact .makes (.compareAny hcode hl hleft hr hright hname)
    · next hkind =>
      obtain rfl := hin.mp hkind
      obtain ⟨l, expr, values, list, token, hl, hexpr, hvalues, hlist, htoken, rfl⟩ :=
        answer_membership_eq_ok_iff.mp h
      exact .makes (.inList hcode hl hexpr hvalues hlist htoken)
    · cases h
  · intro h
    cases h with
    | makes h =>
      cases h with
      | compare hcode hl hleft hr hright hname =>
        refine ⟨0, hcode, ?_⟩
        rw [hop.mpr rfl]
        exact (answer_comparison_eq_ok_iff id).mpr
          ⟨_, _, _, _, _, hl, hleft, hr, hright, hname, rfl⟩
      | compareAny hcode hl hleft hr hright hname =>
        refine ⟨1, hcode, ?_⟩
        rw [hany.mpr rfl]
        exact (answer_comparison_eq_ok_iff Node.any).mpr
          ⟨_, _, _, _, _, hl, hleft, hr, hright, hname, rfl⟩
      | inList hcode hl hexpr hvalues hlist htoken =>
        refine ⟨7, hcode, ?_⟩
        rw [hin.mpr rfl]
        exact answer_membership_eq_ok_iff.mpr
          ⟨_, _, _, _, _, hl, hexpr, hvalues, hlist, htoken, rfl⟩

lemma answer_nullTest_eq_ok_iff : answer (nullTest (.of child tag fields)) = .ok result ↔
    Rule context .nullTest fields result := by
  have hnodup : (Coded.members : List Parse.NullTestKind).Nodup := by decide
  have hnull {code : Int64} :
      (Coded.ofCode? code : Option Parse.NullTestKind) = some .isNull ↔ code = 0 :=
    Coded.ofCode?_eq_some_iff hnodup rfl
  have hnotNull {code : Int64} :
      (Coded.ofCode? code : Option Parse.NullTestKind) = some .isNotNull ↔ code = 1 :=
    Coded.ofCode?_eq_some_iff hnodup rfl
  simp only [nullTest, liftM_eq, answer_ofReading_bind, Attributes.node_of, Attributes.code_of,
    map_bind, bind_eq_ok_iff, Attributes.node_raw_eq_ok_iff, Attributes.code_raw_eq_ok_iff,
    node_child, answer_node_bind]
  constructor
  · rintro ⟨value, hvalue, operand, hoperand, code, hcode, h⟩
    split at h <;> cases h
    · next hkind => exact .makes (.isNull hvalue hoperand (hnull.mp hkind ▸ hcode))
    · next hkind => exact .makes (.isNotNull hvalue hoperand (hnotNull.mp hkind ▸ hcode))
  · intro h
    cases h with
    | makes h =>
      cases h with
      | isNull hvalue hoperand hcode =>
        refine ⟨_, hvalue, _, hoperand, 0, hcode, ?_⟩
        rw [hnull.mpr rfl]
        rfl
      | isNotNull hvalue hoperand hcode =>
        refine ⟨_, hvalue, _, hoperand, 1, hcode, ?_⟩
        rw [hnotNull.mpr rfl]
        rfl

/-- A boolean operator is applied to its operands. -/
lemma answer_connective_eq_ok_iff {op : Parse.BoolOp} {operands : List Node} :
    answer (connective (.of child tag fields) op operands) = .ok result ↔
      (op = .and ∧ operands ≠ [] ∧ result = .and operands) ∨
      (op = .or ∧ Node.orChain? operands = some result) ∨
      (op = .not ∧ ∃ operand, operands = [operand] ∧ result = .not operand) := by
  cases op with
  | and => cases operands <;> simp [connective, eq_comm]
  | or => cases h : Node.orChain? operands <;> simp [connective, h]
  | not => rcases operands with _ | ⟨operand, _ | ⟨_, _⟩⟩ <;> simp [connective, eq_comm]

lemma connects_iff (tag : String) {expr : Node} : Connects fields expr ↔
    ∃ code op operands, HasCode fields "boolop" code ∧ Coded.ofCode? code = some op ∧
      GivesOperands fields operands ∧
      answer (connective (.of child tag fields) op operands) = .ok expr := by
  have hnodup : (Coded.members : List Parse.BoolOp).Nodup := by decide
  have hand {code : Int64} : (Coded.ofCode? code : Option Parse.BoolOp) = some .and ↔ code = 0 :=
    Coded.ofCode?_eq_some_iff hnodup rfl
  have hor {code : Int64} : (Coded.ofCode? code : Option Parse.BoolOp) = some .or ↔ code = 1 :=
    Coded.ofCode?_eq_some_iff hnodup rfl
  have hnot {code : Int64} : (Coded.ofCode? code : Option Parse.BoolOp) = some .not ↔ code = 2 :=
    Coded.ofCode?_eq_some_iff hnodup rfl
  simp only [answer_connective_eq_ok_iff]
  constructor
  · intro h
    cases h with
    | and hcode hoperands hne =>
      exact ⟨0, .and, _, hcode, rfl, hoperands, .inl ⟨rfl, hne, rfl⟩⟩
    | or hcode hoperands hchain =>
      exact ⟨1, .or, _, hcode, rfl, hoperands, .inr (.inl ⟨rfl, hchain⟩)⟩
    | not hcode hoperands =>
      exact ⟨2, .not, _, hcode, rfl, hoperands, .inr (.inr ⟨rfl, _, rfl, rfl⟩)⟩
  · rintro ⟨code, op, operands, hcode, hop, hoperands,
      ⟨rfl, hne, rfl⟩ | ⟨rfl, hchain⟩ | ⟨rfl, operand, rfl, rfl⟩⟩
    · exact .and (hand.mp hop ▸ hcode) hoperands hne
    · exact .or (hor.mp hop ▸ hcode) hoperands hchain
    · exact .not (hnot.mp hop ▸ hcode) hoperands

lemma answer_boolean_eq_ok_iff : answer (boolean (.of child tag fields) context) = .ok result ↔
    Rule context .boolExpr fields result := by
  have hrule : Rule context .boolExpr fields result ↔
      ∃ expr, Connects fields expr ∧ result = if context.nested then .grouping expr else expr := by
    constructor
    · intro h
      cases h with
      | makes h => cases h
      | boolean hexpr => exact ⟨_, hexpr, rfl⟩
    · rintro ⟨expr, hexpr, rfl⟩
      exact .boolean hexpr
  rw [hrule]
  simp only [boolean, liftM_eq, answer_ofReading_bind, Attributes.code_of, bind_eq_ok_iff,
    Attributes.code_raw_eq_ok_iff, connects_iff tag]
  constructor
  · rintro ⟨code, hcode, h⟩
    split at h
    · cases h
    · next op hop =>
      simp only [answer_ofReading_bind, Attributes.list_of, map_bind, bind_eq_ok_iff,
        Attributes.list_raw_eq_ok_iff, answer_each_bind, mapM_eq_ok_iff,
        answer_bind (needs_connective tag fields op _).settled, answer_pure] at h
      obtain ⟨values, hvalues, operands, hoperands, expr, hexpr, ⟨⟩⟩ := h
      exact ⟨expr, ⟨code, op, operands, hcode, hop, ⟨values, hvalues, hoperands⟩, hexpr⟩, rfl⟩
  · rintro ⟨expr, ⟨code, op, operands, hcode, hop, ⟨values, hvalues, hoperands⟩, hexpr⟩, rfl⟩
    refine ⟨code, hcode, ?_⟩
    rw [hop]
    simp only [answer_ofReading_bind, Attributes.list_of, map_bind, bind_eq_ok_iff,
      Attributes.list_raw_eq_ok_iff, answer_each_bind, mapM_eq_ok_iff,
      answer_bind (needs_connective tag fields op _).settled, answer_pure]
    exact ⟨values, hvalues, operands, hoperands, expr, hexpr, rfl⟩

end

/-! ## Aggregates and orderings -/

section

variable {tag : String} {fields : Json.Fields} {context : Context} {result : Node}

lemma ofCallName?_eq_some_iff {name : String} {function : AggregateFunction} :
    AggregateFunction.ofCallName? name = some function ↔ function.callName = name := by
  refine ⟨fun h => by simpa using List.find?_some h, ?_⟩
  rintro rfl
  cases function <;> decide

/-- A call of a known function, with a star for its arguments or with those in its list. -/
lemma answer_call_eq_ok_iff {function : AggregateFunction} :
    (∃ star, HasFlag fields "agg_star" star ∧
      answer (if star = true then do
          let args ← pure [Node.star]
          let distinct ← ofReading ((raw tag fields).flag "agg_distinct")
          note (.aggregate function args.length)
          pure (Node.aggregate function args distinct)
        else do
          let args ← eachOf (.of child tag fields) "args"
          let distinct ← ofReading ((raw tag fields).flag "agg_distinct")
          note (.aggregate function args.length)
          pure (Node.aggregate function args distinct)) = .ok result) ↔
      ∃ args distinct, GivesArguments fields args ∧ HasFlag fields "agg_distinct" distinct ∧
        result = .aggregate function args distinct := by
  have hsettled : Settled (eachOf (.of child tag fields) "args") :=
    (needs_eachOf (eachBudgeted tag fields) "args").settled
  rw [Bool.exists_bool]
  simp only [Bool.false_eq_true, if_false, if_true, answer_bind hsettled, pure_bind,
    bind_eq_ok_iff, answer_eachOf_eq_ok_iff, answer_ofReading_bind, Attributes.flag_raw_eq_ok_iff,
    answer_note_bind, answer_pure]
  constructor
  · rintro (⟨hstar, args, hargs, distinct, hdistinct, ⟨⟩⟩ | ⟨hstar, distinct, hdistinct, ⟨⟩⟩)
    · exact ⟨args, distinct, .list hstar hargs, hdistinct, rfl⟩
    · exact ⟨_, distinct, .star hstar, hdistinct, rfl⟩
  · rintro ⟨args, distinct, hstar | ⟨hstar, hargs⟩, hdistinct, rfl⟩
    · exact .inr ⟨hstar, distinct, hdistinct, rfl⟩
    · exact .inl ⟨hstar, args, hargs, distinct, hdistinct, rfl⟩

lemma answer_aggregate_eq_ok_iff : answer (aggregate (.of child tag fields)) = .ok result ↔
    Rule context .funcCall fields result := by
  have hrule : Rule context .funcCall fields result ↔ ∃ function, CallsAggregate fields function ∧
      ∃ args distinct, GivesArguments fields args ∧ HasFlag fields "agg_distinct" distinct ∧
        result = .aggregate function args distinct := by
    constructor
    · intro h
      cases h with
      | makes h =>
        cases h with
        | aggregate hfunction hargs hdistinct => exact ⟨_, hfunction, _, _, hargs, hdistinct, rfl⟩
    · rintro ⟨function, hfunction, args, distinct, hargs, hdistinct, rfl⟩
      exact .makes (.aggregate hfunction hargs hdistinct)
  rw [hrule]
  simp only [aggregate, answer_firstName_bind, bind_eq_ok_iff, answer_firstName_eq_ok_iff]
  constructor
  · rintro ⟨name, hname, h⟩
    split at h
    · cases h
    · next function hfunction =>
      simp only [liftM_eq, answer_refuse_bind_eq_ok_iff, answer_ofReading_bind,
        Attributes.contains_of, Attributes.contains_raw, Attributes.flag_of, bind_eq_ok_iff,
        Attributes.flag_raw_eq_ok_iff, Option.isSome_eq_false_iff, Option.isNone_iff_eq_none] at h
      obtain ⟨hover, hfilter, horder, _, hwithin, rfl, hcall⟩ := h
      exact ⟨function, ⟨ofCallName?_eq_some_iff.mp hfunction ▸ hname, hover, hfilter, horder,
        hwithin⟩, answer_call_eq_ok_iff.mp hcall⟩
  · rintro ⟨function, ⟨hname, hover, hfilter, horder, hwithin⟩, hcall⟩
    refine ⟨_, hname, ?_⟩
    rw [ofCallName?_eq_some_iff.mpr rfl]
    simp only [liftM_eq, answer_refuse_bind_eq_ok_iff, answer_ofReading_bind,
      Attributes.contains_of, Attributes.contains_raw, Attributes.flag_of, bind_eq_ok_iff,
      Attributes.flag_raw_eq_ok_iff, Option.isSome_eq_false_iff, Option.isNone_iff_eq_none]
    exact ⟨hover, hfilter, horder, false, hwithin, rfl, answer_call_eq_ok_iff.mpr hcall⟩

lemma mem_of_lookup {α : Type} {pairs : List (Int64 × α)} {code : Int64} {a : α}
    (h : pairs.lookup code = some a) : (code, a) ∈ pairs := by
  obtain ⟨before, after, rfl, _⟩ := List.lookup_eq_some_iff.mp h
  simp

lemma answer_ordering_eq_ok_iff : answer (ordering (.of child tag fields)) = .ok result ↔
    Rule context .sortBy fields result := by
  have hnodup : (Coded.members : List Parse.SortDirection).Nodup := by decide
  have hdefault {code : Int64} :
      (Coded.ofCode? code : Option Parse.SortDirection) = some .default ↔ code = 0 :=
    Coded.ofCode?_eq_some_iff hnodup rfl
  have hasc {code : Int64} :
      (Coded.ofCode? code : Option Parse.SortDirection) = some .asc ↔ code = 1 :=
    Coded.ofCode?_eq_some_iff hnodup rfl
  have hdesc {code : Int64} :
      (Coded.ofCode? code : Option Parse.SortDirection) = some .desc ↔ code = 2 :=
    Coded.ofCode?_eq_some_iff hnodup rfl
  simp only [ordering, liftM_eq, answer_ofReading_bind, Attributes.node_of, Attributes.code_of,
    map_bind, bind_eq_ok_iff, Attributes.node_raw_eq_ok_iff, Attributes.code_raw_eq_ok_iff,
    node_child, answer_node_bind, answer_refuse_bind_eq_ok_iff, bne_eq_false_iff_eq]
  constructor
  · rintro ⟨value, hvalue, expr, hexpr, _, hnulls, rfl, code, hcode, h⟩
    have hdirection : ∃ direction, directions.lookup code = some direction ∧
        result = .order expr direction := by
      split at h <;> cases h
      · next hkind => exact ⟨.asc, by rw [hdefault.mp hkind]; rfl, rfl⟩
      · next hkind => exact ⟨.asc, by rw [hasc.mp hkind]; rfl, rfl⟩
      · next hkind => exact ⟨.desc, by rw [hdesc.mp hkind]; rfl, rfl⟩
    obtain ⟨direction, hlookup, rfl⟩ := hdirection
    exact .makes (.order hvalue hexpr hnulls hcode hlookup)
  · intro h
    cases h with
    | makes h =>
      cases h with
      | order hvalue hexpr hnulls hcode hlookup =>
        refine ⟨_, hvalue, _, hexpr, 0, hnulls, rfl, _, hcode, ?_⟩
        have hmem := mem_of_lookup hlookup
        simp only [directions, List.mem_cons, Prod.mk.injEq, List.not_mem_nil, or_false] at hmem
        obtain ⟨rfl, rfl⟩ | ⟨rfl, rfl⟩ | ⟨rfl, rfl⟩ := hmem <;> rfl

end

/-! ## Selects -/

section

variable {tag : String} {fields : Json.Fields} {context : Context} {result : Node}

lemma answer_refuseClauses_eq_ok_iff {done : Unit} :
    answer (refuseClauses (.of child tag fields)) = .ok done ↔
      (∀ clause ∈ refusedClauses, present? fields clause.1 = none) ∧ HasCode fields "op" 0 := by
  have hrefuse {condition : Bool} {error : Error} :
      answer (refuse condition error) = .ok done ↔ condition = false := by
    cases condition <;> simp [refuse]
  have hfind : refusedClauses.find? ((Attributes.of child tag fields).contains ·.1) = none ↔
      ∀ clause ∈ refusedClauses, present? fields clause.1 = none := by
    simp only [List.find?_eq_none, Attributes.contains_of, Attributes.contains_raw,
      Option.not_isSome_iff_eq_none]
  rw [← hfind, refuseClauses]
  cases refusedClauses.find? ((Attributes.of child tag fields).contains ·.1) with
  | some clause => simp
  | none =>
    simp only [liftM_eq, answer_ofReading_bind, Attributes.code_of, bind_eq_ok_iff,
      Attributes.code_raw_eq_ok_iff, hrefuse, bne_eq_false_iff_eq, true_and]
    exact ⟨fun ⟨_, hcode, heq⟩ => heq ▸ hcode, fun hcode => ⟨0, hcode, rfl⟩⟩

lemma answer_sources_eq_ok_iff {sources : Sources} :
    answer (Lower.sources (.of child tag fields)) = .ok sources ↔
      ∃ (items : Option (List Json)) (parts : List Sources),
        present? fields "fromClause" = items.map .array ∧
        List.Forall₂ GivesSources (items.getD []) parts ∧ sources = parts.flatten := by
  simp only [Lower.sources, liftM_eq, answer_ofReading_bind, Attributes.list?_of, map_bind,
    bind_eq_ok_iff, Attributes.list?_raw_eq_ok_iff, getD_map_child,
    answer_mapM_child_bind (f := Child.source) fun value => settled_source value, mapM_eq_ok_iff,
    answer_pure, Except.ok.injEq]
  constructor
  · rintro ⟨items, hitems, parts, hparts, rfl⟩
    exact ⟨items, parts, hitems, hparts, rfl⟩
  · rintro ⟨items, parts, hitems, hparts, rfl⟩
    exact ⟨items, hitems, parts, hparts, rfl⟩

lemma answer_select_eq_ok_iff {select : Select} :
    answer (Lower.select (.of child tag fields)) = .ok select ↔ GivesSelect fields select := by
  have ih := eachBudgeted tag fields
  simp only [Lower.select, answer_bind (needs_refuseClauses _ fields).settled,
    answer_bind (needs_sources ih).settled, answer_bind (needs_eachOf ih _).settled,
    answer_bind (needs_optional ih _).settled, answer_note_bind, bind_eq_ok_iff, answer_pure,
    answer_refuseClauses_eq_ok_iff, answer_sources_eq_ok_iff, answer_eachOf_eq_ok_iff,
    answer_optional_eq_ok_iff, Except.ok.injEq]
  constructor
  · rintro ⟨_, ⟨hrefused, hoperation⟩, _, ⟨items, parts, hitems, hparts, rfl⟩, _, hprojections,
      filter, hfilter, _, horders, _, hlimit, _, hoffset, rfl⟩
    exact ⟨hrefused, hoperation, ⟨items, parts, hitems, hparts, rfl, rfl⟩, hprojections,
      ⟨filter, hfilter, rfl⟩, horders, hlimit, hoffset⟩
  · rintro ⟨hrefused, hoperation, ⟨items, parts, hitems, hparts, hsource, hjoins⟩, hprojections,
      ⟨filter, hfilter, hwheres⟩, horders, hlimit, hoffset⟩
    refine ⟨(), ⟨hrefused, hoperation⟩, _, ⟨items, parts, hitems, hparts, rfl⟩, _, hprojections,
      filter, hfilter, _, horders, _, hlimit, _, hoffset, ?_⟩
    rw [← hsource, ← hjoins, ← hwheres]

lemma answer_nestedSelect_eq_ok_iff : answer (nestedSelect (.of child tag fields)) = .ok result ↔
    Rule context .selectStmt fields result := by
  have hselect := needs_select (eachBudgeted tag fields)
  simp only [nestedSelect, answer_bind (hselect.descend nestedWeight).settled,
    hselect.answer_descend, bind_eq_ok_iff, answer_select_eq_ok_iff, answer_pure]
  constructor
  · rintro ⟨select, hselect, ⟨⟩⟩
    exact .makes (.select hselect)
  · intro h
    cases h with
    | makes h =>
      cases h with
      | select hselect => exact ⟨_, hselect, rfl⟩

end

/-! ## Nodes -/

/-- A node of a kind is lowered by the rule of its kind. -/
theorem gives_tagged_iff {kind : Kind} {fields : Json.Fields} {context : Context} {result : Node} :
    Gives context (tagged kind fields) result ↔ Rule context kind fields result := by
  rw [Gives, answer_node]
  cases kind with
  | string => exact answer_string_eq_ok_iff
  | integer => exact answer_integer_eq_ok_iff
  | columnRef => exact answer_column_eq_ok_iff
  | resTarget => exact answer_target_eq_ok_iff
  | subLink => exact answer_subLink_eq_ok_iff
  | aliasClause => exact answer_aliasText_eq_ok_iff
  | rangeVar => exact answer_table_eq_ok_iff
  | aExpr => exact answer_operation_eq_ok_iff
  | aConst => exact answer_constant_eq_ok_iff
  | funcCall => exact answer_aggregate_eq_ok_iff
  | selectStmt => exact answer_nestedSelect_eq_ok_iff
  | aStar =>
    constructor
    · intro h
      cases h
      exact .makes .star
    · intro h
      cases h with
      | makes h =>
        cases h
        rfl
  | rawStmt => exact answer_wrapped_eq_ok_iff
  | sortBy => exact answer_ordering_eq_ok_iff
  | nullTest => exact answer_nullTest_eq_ok_iff
  | boolExpr => exact answer_boolean_eq_ok_iff
  | _ =>
    -- a kind that cannot be lowered has no rule
    constructor
    · intro h
      cases h
    · intro h
      cases h with
      | makes h => cases h

/-- What is lowered is a node of a known kind. -/
lemma exists_tagged_of_gives {context : Context} {value : Json} {result : Node}
    (h : Gives context value result) : ∃ kind fields, value = tagged kind fields := by
  rcases tagged_or_untagged value with ⟨tag, fields, rfl⟩ | hchild
  · cases hkind : Kind.ofTag? tag with
    | some kind => exact ⟨kind, fields, by rw [tagged, Kind.ofTag?_eq_some_iff.mp hkind]⟩
    | none =>
      rw [Gives, node_tagged, ofTag, Attributes.tag_of, hkind] at h
      cases h
  · rw [Gives, node, hchild] at h
    cases h

/-! ## FROM items -/

/-- What has sources is a node of a known kind. -/
lemma exists_tagged_of_givesSources {value : Json} {sources : Sources}
    (h : GivesSources value sources) : ∃ kind fields, value = tagged kind fields := by
  rcases tagged_or_untagged value with ⟨tag, fields, rfl⟩ | hchild
  · cases hkind : Kind.ofTag? tag with
    | some kind => exact ⟨kind, fields, by rw [tagged, Kind.ofTag?_eq_some_iff.mp hkind]⟩
    | none =>
      rw [GivesSources, source_tagged, sourceOfTag, Attributes.tag_of, hkind] at h
      cases h
  · rw [GivesSources, source, hchild] at h
    cases h

/-- What is no join has sources exactly if it is lowered to a table, which is then the only one. -/
lemma givesSources_of_ne_join {kind : Kind} (hkind : kind ≠ .joinExpr) {fields : Json.Fields}
    {sources : Sources} : GivesSources (tagged kind fields) sources ↔
      ∃ table, Gives {} (tagged kind fields) (.table table) ∧ sources = [.base table] := by
  rw [GivesSources, answer_source hkind, bind_eq_ok_iff]
  constructor
  · rintro ⟨result, hresult, hsources⟩
    cases result with
    | table table =>
      cases hsources
      exact ⟨table, hresult, rfl⟩
    | _ => cases hsources
  · rintro ⟨table, htable, rfl⟩
    exact ⟨_, htable, rfl⟩

lemma lookup_of_joinKind {code : Int64} {kind : JoinKind}
    (h : answer (joinKind code) = .ok kind) : joinKinds.lookup code = some kind := by
  have hnodup : (Coded.members : List Parse.JoinType).Nodup := by decide
  have hcode {type : Parse.JoinType} (htype : Coded.ofCode? code = some type) {i : Nat} :=
    Coded.code_eq hnodup htype (i := i)
  -- the other four types, and codes of no type, are refused
  unfold joinKind at h
  split at h <;> cases h
  · next htype => rw [hcode htype (i := 0) rfl]; rfl
  · next htype => rw [hcode htype (i := 1) rfl]; rfl
  · next htype => rw [hcode htype (i := 2) rfl]; rfl
  · next htype => rw [hcode htype (i := 3) rfl]; rfl

lemma answer_joinKind_eq_ok_iff {code : Int64} {kind : JoinKind} :
    answer (joinKind code) = .ok kind ↔ joinKinds.lookup code = some kind := by
  refine ⟨lookup_of_joinKind, fun h => ?_⟩
  have hmem := mem_of_lookup h
  simp only [joinKinds, List.mem_cons, Prod.mk.injEq, List.not_mem_nil, or_false] at hmem
  obtain ⟨rfl, rfl⟩ | ⟨rfl, rfl⟩ | ⟨rfl, rfl⟩ | ⟨rfl, rfl⟩ := hmem <;> rfl

lemma singleTable?_eq_some_iff {sources : Sources} {table : Table} :
    sources.singleTable? = some table ↔ sources = [.base table] := by
  unfold Sources.singleTable?
  split <;> simp_all

/-- What follows the two sides of a join: the right one has to be a table alone. -/
lemma answer_joined_eq_ok_iff {tag : String} {fields : Json.Fields} {before right : Sources}
    {kind : JoinKind} {sources : Sources} :
    answer (match right.singleTable? with
      | none => fail (.unsupportedConstruct .join "join on the right-hand side")
      | some right => do
        let on ← optional ((Attributes.of child tag fields).node? "quals")
        return before ++ [.joined { kind, right, on }]) = .ok sources ↔
      ∃ table on, right = [.base table] ∧ GivesOptional fields "quals" on ∧
        sources = before ++ [.joined { kind, right := table, on }] := by
  have hsettled : Settled (optional ((Attributes.of child tag fields).node? "quals")) :=
    (needs_optional (eachBudgeted tag fields) "quals").settled
  cases hsingle : right.singleTable? with
  | none =>
    constructor
    · intro h
      cases h
    · rintro ⟨table, _, rfl, _⟩
      cases hsingle
  | some table =>
    obtain rfl := singleTable?_eq_some_iff.mp hsingle
    simp only [answer_bind hsettled, bind_eq_ok_iff, answer_optional_eq_ok_iff, answer_pure]
    constructor
    · rintro ⟨on, hon, ⟨⟩⟩
      exact ⟨table, on, rfl, hon, rfl⟩
    · rintro ⟨_, on, ⟨⟩, hon, rfl⟩
      exact ⟨on, hon, rfl⟩

/-- A join has the sources of its left side, and then itself; the right side is a table alone. -/
lemma givesSources_join {fields : Json.Fields} {sources : Sources} :
    GivesSources (tagged .joinExpr fields) sources ↔
      HasFlag fields "isNatural" false ∧ present? fields "usingClause" = none ∧
      present? fields "alias" = none ∧ ∃ code kind left before right table on,
        HasCode fields "jointype" code ∧ joinKinds.lookup code = some kind ∧
        present? fields "larg" = some left ∧ GivesSources left before ∧
        present? fields "rarg" = some right ∧ GivesSources right [.base table] ∧
        GivesOptional fields "quals" on ∧
        sources = before ++ [.joined { kind, right := table, on }] := by
  rw [GivesSources, answer_source_join, Lower.join]
  simp only [liftM_eq, answer_ofReading_bind, Attributes.flag_of, Attributes.contains_of,
    Attributes.contains_raw, Attributes.node_of, Attributes.code_of, map_bind,
    answer_refuse_bind_eq_ok_iff, source_child, answer_source_bind,
    answer_bind (needs_joinKind _).settled, bind_eq_ok_iff, Attributes.flag_raw_eq_ok_iff,
    Attributes.code_raw_eq_ok_iff, Attributes.node_raw_eq_ok_iff, Option.isSome_eq_false_iff,
    Option.isNone_iff_eq_none, answer_joinKind_eq_ok_iff]
  constructor
  · rintro ⟨_, hnatural, rfl, husing, halias, code, hcode, kind, hkind, left, hleft, before,
      hbefore, right, hright, _, hsources, h⟩
    obtain ⟨table, on, rfl, hon, rfl⟩ := answer_joined_eq_ok_iff.mp h
    exact ⟨hnatural, husing, halias, code, kind, left, before, right, table, on, hcode, hkind,
      hleft, hbefore, hright, hsources, hon, rfl⟩
  · rintro ⟨hnatural, husing, halias, code, kind, left, before, right, table, on, hcode, hkind,
      hleft, hbefore, hright, hsources, hon, rfl⟩
    exact ⟨false, hnatural, rfl, husing, halias, code, hcode, kind, hkind, left, hleft, before,
      hbefore, right, hright, _, hsources, answer_joined_eq_ok_iff.mpr ⟨_, _, rfl, hon, rfl⟩⟩

/-- What has a table alone for its sources is lowered to it. -/
lemma givesSources_single_iff {value : Json} {table : Table} :
    GivesSources value [.base table] ↔ Gives {} value (.table table) := by
  constructor
  · intro h
    obtain ⟨kind, fields, rfl⟩ := exists_tagged_of_givesSources h
    by_cases hkind : kind = .joinExpr
    · subst hkind
      obtain ⟨_, _, _, _, _, _, _, _, _, _, _, _, _, _, _, _, _, heq⟩ := givesSources_join.mp h
      -- the last source of a join is the join
      have hlast := congrArg List.getLast? heq
      simp at hlast
    · obtain ⟨_, htable, ⟨⟩⟩ := (givesSources_of_ne_join hkind).mp h
      exact htable
  · intro h
    obtain ⟨kind, fields, rfl⟩ := exists_tagged_of_gives h
    have hkind : kind ≠ .joinExpr := by
      rintro rfl
      cases gives_tagged_iff.mp h with
      | makes h => cases h
    exact (givesSources_of_ne_join hkind).mpr ⟨table, h, rfl⟩

/-- A FROM item is lowered by the rules for its sources. -/
theorem givesSources_iff {value : Json} {sources : Sources} :
    GivesSources value sources ↔ SourceRule value sources := by
  constructor
  · intro h
    obtain ⟨kind, fields, rfl⟩ := exists_tagged_of_givesSources h
    by_cases hkind : kind = .joinExpr
    · subst hkind
      obtain ⟨hnatural, husing, halias, _, _, _, _, _, _, _, hcode, hkind, hleft, hbefore, hright,
        hsources, hon, rfl⟩ := givesSources_join.mp h
      exact .join hnatural husing halias hcode hkind hleft hbefore hright
        (givesSources_single_iff.mp hsources) hon
    · obtain ⟨table, htable, rfl⟩ := (givesSources_of_ne_join hkind).mp h
      exact .table htable
  · intro h
    cases h with
    | table h => exact givesSources_single_iff.mpr h
    | join hnatural husing halias hcode hkind hleft hbefore hright htable hon =>
      exact givesSources_join.mpr ⟨hnatural, husing, halias, _, _, _, _, _, _, _, hcode, hkind,
        hleft, hbefore, hright, givesSources_single_iff.mpr htable, hon, rfl⟩

end SelectTree.Lower
