import SelectTree.Proofs.Grammar.Basic

/-!
# The grammar is exact

Every parse tree of the grammar is lowered, and no other: `acceptedNode_of_rule` goes from the rules
of lowering to those of the grammar, `exists_rule_of_acceptedNode` goes back, and both take the same
for the children of a node as given. `lowers_iff_accepted` states the outcome for a session whose
limit stops nothing.
-/

namespace SelectTree.Grammar

open Lower (Connects Gives GivesEach GivesName GivesOptional GivesSources GivesText Makes Rule
  gives_tagged_iff)
open Parse (EachChild HasCode Kind present? tagged)
open Query (AggregateFunction ComparisonOp Node)

/-! ## Words and codes -/

lemma accepted_tagged_iff {kind : Kind} {fields : Json.Fields} :
    Accepted (tagged kind fields) ↔ AcceptedNode kind fields := by
  refine ⟨fun h => ?_, .node⟩
  generalize hvalue : tagged kind fields = value at h
  cases h with
  | node h =>
    obtain ⟨rfl, rfl⟩ := Parse.tagged_inj.mp hvalue
    exact h

lemma mem_comparisonTokens_iff {token : String} :
    token ∈ comparisonTokens ↔ ∃ op : ComparisonOp, op.token = token := by
  have hall : comparisonTokens = ComparisonOp.all.map ComparisonOp.token := rfl
  have hmem (op : ComparisonOp) : op ∈ ComparisonOp.all := by cases op <;> decide
  simp [hall, hmem]

lemma mem_aggregateNames_iff {name : String} :
    name ∈ aggregateNames ↔ ∃ function : AggregateFunction, function.callName = name := by
  have hall : aggregateNames = AggregateFunction.all.map AggregateFunction.callName := rfl
  have hmem (function : AggregateFunction) : function ∈ AggregateFunction.all := by
    cases function <;> decide
  simp [hall, hmem]

lemma excludedClauses_iff {fields : Json.Fields} :
    (∀ key ∈ excludedClauses, present? fields key = none) ↔
      ∀ clause ∈ Lower.refusedClauses, present? fields clause.1 = none := by
  have hkeys : excludedClauses = Lower.refusedClauses.map Prod.fst := rfl
  simp [hkeys]

lemma exists_lookup_iff {α : Type} {pairs : List (Int64 × α)} {code : Int64} :
    (∃ a, pairs.lookup code = some a) ↔ code ∈ pairs.map Prod.fst := by
  rw [← Option.isSome_iff_exists, ← Option.ne_none_iff_isSome, Ne, List.lookup_eq_none_iff]
  simp

/-! ## Exactness -/

/-- A parse tree is lowered as a node, in any context, exactly if the grammar has it. -/
def NodeExact (value : Json) : Prop :=
  ∀ context, (∃ result, Gives context value result) ↔ Accepted value

/-- A parse tree is lowered exactly if the grammar has it, as a node and as an item of a FROM
clause. -/
structure Exact (value : Json) : Prop where
  node : NodeExact value
  source : (∃ sources, GivesSources value sources) ↔ FromItem value

section

variable {context : Context} {kind : Kind} {fields : Json.Fields} {key : String}

lemma NodeExact.givesText_iff {value : Json} (h : NodeExact value) {text : String} :
    GivesText context value text ↔ Accepted value ∧ TextOf context value text := by
  constructor
  · rintro ⟨result, hresult, hfragment⟩
    exact ⟨(h context).mp ⟨result, hresult⟩, (textExact value _ _ _ hresult).mp hfragment⟩
  · rintro ⟨haccepted, htext⟩
    obtain ⟨result, hresult⟩ := (h context).mpr haccepted
    exact ⟨result, hresult, (textExact value _ _ _ hresult).mpr htext⟩

lemma NodeExact.givesTable_iff {value : Json} (h : NodeExact value) :
    (∃ table, Gives context value (.table table)) ↔ Accepted value ∧ IsTable context value := by
  constructor
  · rintro ⟨table, htable⟩
    exact ⟨(h context).mp ⟨_, htable⟩, (exists_table_iff value _ _ htable).mp ⟨table, rfl⟩⟩
  · rintro ⟨haccepted, htable⟩
    obtain ⟨result, hresult⟩ := (h context).mpr haccepted
    obtain ⟨table, rfl⟩ := (exists_table_iff value _ _ hresult).mpr htable
    exact ⟨table, hresult⟩

lemma exists_forall₂_gives_iff {values : List Json} (h : ∀ value ∈ values, Exact value) :
    (∃ results, List.Forall₂ (Gives context) values results) ↔
      ∀ value ∈ values, Accepted value := by
  rw [Lower.exists_forall₂_iff]
  exact forall₂_congr fun value hvalue => (h value hvalue).node context

lemma exists_forall₂_givesText_iff {values : List Json} (h : ∀ value ∈ values, Exact value) :
    (∃ texts, List.Forall₂ (GivesText context) values texts) ↔
      (∀ value ∈ values, Accepted value) ∧ ∀ value ∈ values, ∃ text, TextOf context value text := by
  rw [Lower.exists_forall₂_iff, ← forall₂_and]
  refine forall₂_congr fun value hvalue => ?_
  simp only [(h value hvalue).node.givesText_iff, exists_and_left]

variable (ih : EachChild Exact kind.tag fields)

include ih

lemma exists_givesEach_iff :
    (∃ results, GivesEach fields key results) ↔ AcceptedList fields key false := by
  constructor
  · rintro ⟨results, values, hvalues, hresults⟩
    have hexact : ∀ value ∈ values.getD [], Exact value := fun _ => ih.of_mem_getD hvalues
    exact .list hvalues ((exists_forall₂_gives_iff hexact).mp ⟨results, hresults⟩)
  · intro h
    cases h with
    | list hvalues haccepted =>
      obtain ⟨results, hresults⟩ :=
        (exists_forall₂_gives_iff fun _ => ih.of_mem_getD hvalues).mpr haccepted
      exact ⟨results, _, hvalues, hresults⟩

lemma exists_givesOptional_iff :
    (∃ result, GivesOptional fields key result) ↔
      ∀ value, present? fields key = some value → Accepted value := by
  unfold GivesOptional
  cases hvalue : present? fields key with
  | none => exact ⟨fun _ => by simp, fun _ => ⟨none, .none⟩⟩
  | some value =>
    have hexact := (ih.of_present hvalue).node {}
    constructor
    · rintro ⟨_, ⟨⟩⟩ _ ⟨⟩
      exact hexact.mp ⟨_, ‹_›⟩
    · intro h
      obtain ⟨result, hresult⟩ := hexact.mpr (h value rfl)
      exact ⟨some result, .some hresult⟩

lemma givesName_iff {text : String} :
    GivesName fields key text ↔
      ∃ name rest, present? fields key = some (.array (name :: rest)) ∧ Accepted name ∧
        TextOf { literal := .operator } name text := by
  refine exists₂_congr fun name rest => and_congr_right fun hname => ?_
  exact (ih.of_mem hname List.mem_cons_self).node.givesText_iff

lemma exists_optionText_iff :
    (∃ text, Option.Rel (GivesText context) (present? fields key) text) ↔
      (∀ value, present? fields key = some value → Accepted value) ∧
        ∀ value, present? fields key = some value → ∃ text, TextOf context value text := by
  cases hvalue : present? fields key with
  | none => exact ⟨fun _ => by simp, fun _ => ⟨none, .none⟩⟩
  | some value =>
    have hexact : NodeExact value := (ih.of_present hvalue).node
    constructor
    · rintro ⟨_, ⟨⟩⟩
      obtain ⟨haccepted, htext⟩ := hexact.givesText_iff.mp ‹_›
      exact ⟨fun _ h => Option.some.inj h ▸ haccepted, fun _ h => Option.some.inj h ▸ ⟨_, htext⟩⟩
    · rintro ⟨haccepted, htext⟩
      obtain ⟨text, htext⟩ := htext value rfl
      exact ⟨some text, .some (hexact.givesText_iff.mpr ⟨haccepted value rfl, htext⟩)⟩

/-! ### From lowering to the grammar -/

lemma accepted_of_gives {value : Json} {result : Node} (hvalue : present? fields key = some value)
    (h : Gives context value result) : Accepted value :=
  ((ih.of_present hvalue).node context).mp ⟨result, h⟩

lemma accepted_of_forall₂_gives {values : List Json} {results : List Node}
    (hvalues : present? fields key = some (.array values))
    (h : List.Forall₂ (Gives context) values results) : ∀ value ∈ values, Accepted value :=
  (exists_forall₂_gives_iff fun _ => ih.of_mem hvalues).mp ⟨results, h⟩

lemma acceptedNode_of_compare {code : Int64} {left right : Json} {leftNode rightNode : Node}
    {op : ComparisonOp} (hkind : kind = .aExpr) (hcode : HasCode fields "kind" code)
    (hmem : code ∈ ([0, 1] : List Int64)) (hl : present? fields "lexpr" = some left)
    (hleft : Gives {} left leftNode) (hr : present? fields "rexpr" = some right)
    (hright : Gives {} right rightNode) (hname : GivesName fields "name" op.token) :
    AcceptedNode kind fields := by
  subst hkind
  obtain ⟨name, rest, hname, haccepted, htext⟩ := (givesName_iff ih).mp hname
  exact .comparison hcode hmem hl (accepted_of_gives ih hl hleft) hr
    (accepted_of_gives ih hr hright) hname haccepted htext
    (mem_comparisonTokens_iff.mpr ⟨op, rfl⟩)

lemma acceptedNode_of_select {select : Query.Select} (hkind : kind = .selectStmt)
    (h : Lower.GivesSelect fields select) : AcceptedNode kind fields := by
  subst hkind
  obtain ⟨items, parts, hitems, hparts, _⟩ := h.fromClause
  obtain ⟨filter, hfilter, _⟩ := h.wheres
  have hfrom : ∀ item ∈ items.getD [], FromItem item := fun item hitem =>
    (ih.of_mem_getD hitems hitem).source.mp (Lower.exists_forall₂_iff.mp ⟨parts, hparts⟩ item hitem)
  refine .select ?_ h.operation hitems hfrom ((exists_givesEach_iff ih).mp ⟨_, h.projections⟩)
    ((exists_givesOptional_iff ih).mp ⟨_, hfilter⟩) ((exists_givesEach_iff ih).mp ⟨_, h.orders⟩)
    ((exists_givesOptional_iff ih).mp ⟨_, h.limit⟩) ((exists_givesOptional_iff ih).mp ⟨_, h.offset⟩)
  exact excludedClauses_iff.mpr h.refused

lemma acceptedNode_of_makes {result : Node} (h : Makes context kind fields result) :
    AcceptedNode kind fields := by
  cases h with
  | string hstr => exact .string hstr
  | integer hival hnumber => exact .integer hival hnumber
  | star => exact .star
  | aliasText halias => exact .aliasText halias
  | column hfields htexts =>
    obtain ⟨haccepted, htext⟩ :=
      (exists_forall₂_givesText_iff fun _ => ih.of_mem hfields).mp ⟨_, htexts⟩
    exact .column hfields haccepted htext
  | table hname hschema halias =>
    obtain ⟨haccepted, htext⟩ := (exists_optionText_iff ih).mp ⟨_, halias⟩
    exact .table hname hschema haccepted htext
  | named hval hvalue hname =>
    have hname : present? fields "name" = (some _).map Json.string := hname
    exact .target hval (accepted_of_gives ih hval hvalue) hname
  | compare hcode hl hleft hr hright hname =>
    exact acceptedNode_of_compare ih rfl hcode (by decide) hl hleft hr hright hname
  | compareAny hcode hl hleft hr hright hname =>
    exact acceptedNode_of_compare ih rfl hcode (by decide) hl hleft hr hright hname
  | inList hcode hl hexpr hr hlist hname =>
    obtain ⟨name, rest, hname, haccepted, htext⟩ := (givesName_iff ih).mp hname
    exact .membership hcode hl (accepted_of_gives ih hl hexpr) hr
      (accepted_of_forall₂_gives ih hr hlist) hname haccepted htext
  | isNull harg hvalue hcode =>
    exact .nullTest harg (accepted_of_gives ih harg hvalue) hcode (by decide)
  | isNotNull harg hvalue hcode =>
    exact .nullTest harg (accepted_of_gives ih harg hvalue) hcode (by decide)
  | aggregate hcall hargs hdistinct =>
    obtain ⟨name, rest, hname, haccepted, htext⟩ := (givesName_iff ih).mp hcall.name
    have hmem {function : AggregateFunction} : function.callName ∈ aggregateNames :=
      mem_aggregateNames_iff.mpr ⟨function, rfl⟩
    cases hargs with
    | star hstar =>
      exact .aggregate hname haccepted htext hmem hcall.window hcall.filter hcall.order hcall.within
        hstar .unread hdistinct
    | list hstar hargs =>
      exact .aggregate hname haccepted htext hmem hcall.window hcall.filter hcall.order hcall.within
        hstar ((exists_givesEach_iff ih).mp ⟨_, hargs⟩) hdistinct
  | order hnode hvalue hnulls hdir hdirection =>
    exact .order hnode (accepted_of_gives ih hnode hvalue) hnulls hdir
      (exists_lookup_iff.mp ⟨_, hdirection⟩)
  | select hselect => exact acceptedNode_of_select ih rfl hselect

lemma acceptedNode_of_connects {expr : Node} (hkind : kind = .boolExpr)
    (h : Connects fields expr) : AcceptedNode kind fields := by
  subst hkind
  cases h with
  | and hop hoperands hne =>
    obtain ⟨values, hargs, hvalues⟩ := hoperands
    refine .andOr hop (by decide) hargs ?_ (accepted_of_forall₂_gives ih hargs hvalues)
    rintro rfl
    cases hvalues
    exact hne rfl
  | or hop hoperands hchain =>
    obtain ⟨values, hargs, hvalues⟩ := hoperands
    refine .andOr hop (by decide) hargs ?_ (accepted_of_forall₂_gives ih hargs hvalues)
    rintro rfl
    cases hvalues
    cases hchain
  | not hop hoperands =>
    obtain ⟨values, hargs, hvalues⟩ := hoperands
    obtain ⟨value, rfl⟩ := List.length_eq_one_iff.mp hvalues.length_eq
    exact .not hop hargs
      (accepted_of_forall₂_gives ih hargs hvalues value (List.mem_singleton_self value))

lemma acceptedNode_of_rule {result : Node} (h : Rule context kind fields result) :
    AcceptedNode kind fields := by
  cases h with
  | makes h => exact acceptedNode_of_makes ih h
  | constant hval h => exact .constant hval (accepted_of_gives ih hval h)
  | wrapped hstmt h => exact .wrapped hstmt (accepted_of_gives ih hstmt h)
  | target hval h hname =>
    have hname : present? fields "name" = none.map Json.string := hname
    exact .target hval (accepted_of_gives ih hval h) hname
  | subLink hcode hselect h => exact .subLink hcode hselect (accepted_of_gives ih hselect h)
  | boolean h => exact acceptedNode_of_connects ih rfl h

/-! ### From the grammar to lowering -/

lemma exists_gives_of_accepted {value : Json} (hvalue : present? fields key = some value)
    (h : Accepted value) (context : Context) : ∃ result, Gives context value result :=
  ((ih.of_present hvalue).node context).mpr h

lemma exists_forall₂_gives_of_accepted {values : List Json}
    (hvalues : present? fields key = some (.array values)) (h : ∀ value ∈ values, Accepted value)
    (context : Context) : ∃ results, List.Forall₂ (Gives context) values results :=
  (exists_forall₂_gives_iff fun _ => ih.of_mem hvalues).mpr h

lemma exists_connects_of_andOr {code : Int64} {values : List Json}
    (hop : HasCode fields "boolop" code) (hcode : code ∈ ([0, 1] : List Int64))
    (hargs : present? fields "args" = some (.array values)) (hne : values ≠ [])
    (h : ∀ value ∈ values, Accepted value) : ∃ expr, Connects fields expr := by
  obtain ⟨operands, hoperands⟩ := exists_forall₂_gives_of_accepted ih hargs h { nested := true }
  have hne : operands ≠ [] := by
    rintro rfl
    cases hoperands
    exact hne rfl
  rcases List.mem_pair.mp hcode with rfl | rfl
  · exact ⟨_, .and hop ⟨values, hargs, hoperands⟩ hne⟩
  · obtain ⟨chain, hchain⟩ : ∃ chain, Node.orChain? operands = some chain :=
      Option.ne_none_iff_exists'.mp (mt Node.orChain?_eq_none_iff.mp hne)
    exact ⟨chain, .or hop ⟨values, hargs, hoperands⟩ hchain⟩

lemma exists_makes_of_operation (hkind : kind = .aExpr) (h : AcceptedNode kind fields)
    (context : Context) : ∃ result, Makes context kind fields result := by
  subst hkind
  cases h with
  | comparison hcode hmem hl hleft hr hright hname haccepted htext htoken =>
    obtain ⟨op, rfl⟩ := mem_comparisonTokens_iff.mp htoken
    obtain ⟨left, hleft⟩ := exists_gives_of_accepted ih hl hleft {}
    obtain ⟨right, hright⟩ := exists_gives_of_accepted ih hr hright {}
    have hname := (givesName_iff ih).mpr ⟨_, _, hname, haccepted, htext⟩
    rcases List.mem_pair.mp hmem with rfl | rfl
    · exact ⟨_, .compare hcode hl hleft hr hright hname⟩
    · exact ⟨_, .compareAny hcode hl hleft hr hright hname⟩
  | membership hcode hl hleft hr hlist hname haccepted htext =>
    obtain ⟨expr, hexpr⟩ := exists_gives_of_accepted ih hl hleft {}
    obtain ⟨list, hlist⟩ := exists_forall₂_gives_of_accepted ih hr hlist {}
    have hname := (givesName_iff ih).mpr ⟨_, _, hname, haccepted, htext⟩
    exact ⟨_, .inList hcode hl hexpr hr hlist hname⟩

lemma exists_makes_of_call (hkind : kind = .funcCall) (h : AcceptedNode kind fields)
    (context : Context) : ∃ result, Makes context kind fields result := by
  subst hkind
  cases h with
  | aggregate hname haccepted htext hmem hwindow hfilter horder hwithin hstar hargs hdistinct =>
    obtain ⟨function, rfl⟩ := mem_aggregateNames_iff.mp hmem
    have hname := (givesName_iff ih).mpr ⟨_, _, hname, haccepted, htext⟩
    have hcall : Lower.CallsAggregate fields function := ⟨hname, hwindow, hfilter, horder, hwithin⟩
    cases hargs with
    | unread => exact ⟨_, .aggregate hcall (.star hstar) hdistinct⟩
    | list hvalues haccepted =>
      obtain ⟨args, hargs⟩ := (exists_givesEach_iff ih).mpr (.list hvalues haccepted)
      exact ⟨_, .aggregate hcall (.list hstar hargs) hdistinct⟩

lemma exists_givesSelect (hkind : kind = .selectStmt) (h : AcceptedNode kind fields) :
    ∃ select, Lower.GivesSelect fields select := by
  subst hkind
  cases h with
  | select hexcluded hop hitems hfrom htargets hwhere horders hlimit hoffset =>
    obtain ⟨parts, hparts⟩ := Lower.exists_forall₂_iff.mpr fun item hitem =>
      (ih.of_mem_getD hitems hitem).source.mpr (hfrom item hitem)
    obtain ⟨projections, hprojections⟩ := (exists_givesEach_iff ih).mpr htargets
    obtain ⟨filter, hfilter⟩ := (exists_givesOptional_iff ih).mpr hwhere
    obtain ⟨orders, horders⟩ := (exists_givesEach_iff ih).mpr horders
    obtain ⟨limit, hlimit⟩ := (exists_givesOptional_iff ih).mpr hlimit
    obtain ⟨offset, hoffset⟩ := (exists_givesOptional_iff ih).mpr hoffset
    let select : Query.Select :=
      { source := Query.Sources.tables? parts.flatten, projections, wheres := filter.toList, orders,
        joins := Query.Sources.joins parts.flatten, limit, offset }
    exact ⟨select, excludedClauses_iff.mp hexcluded, hop, ⟨_, parts, hitems, hparts, rfl, rfl⟩,
      hprojections, ⟨filter, hfilter, rfl⟩, horders, hlimit, hoffset⟩

lemma exists_rule_of_acceptedNode (h : AcceptedNode kind fields) (context : Context) :
    ∃ result, Rule context kind fields result := by
  have hnode := h
  cases h with
  | string hstr => exact ⟨_, .makes (.string hstr)⟩
  | integer hival hnumber => exact ⟨_, .makes (.integer hival hnumber)⟩
  | aliasText halias => exact ⟨_, .makes (.aliasText halias)⟩
  | star => exact ⟨_, .makes .star⟩
  | column hfields haccepted htext =>
    obtain ⟨texts, htexts⟩ :=
      (exists_forall₂_givesText_iff fun _ => ih.of_mem hfields).mpr ⟨haccepted, htext⟩
    exact ⟨_, .makes (.column hfields htexts)⟩
  | table hname hschema haccepted htext =>
    obtain ⟨aliasName, halias⟩ := (exists_optionText_iff ih).mpr ⟨haccepted, htext⟩
    exact ⟨_, .makes (.table hname hschema halias)⟩
  | @target _ value name hval haccepted hname =>
    obtain ⟨result, hresult⟩ := exists_gives_of_accepted ih hval haccepted {}
    cases name with
    | none => exact ⟨_, .target hval hresult hname⟩
    | some name => exact ⟨_, .makes (.named hval hresult hname)⟩
  | constant hval haccepted =>
    obtain ⟨result, hresult⟩ := exists_gives_of_accepted ih hval haccepted _
    exact ⟨_, .constant hval hresult⟩
  | wrapped hstmt haccepted =>
    obtain ⟨result, hresult⟩ := exists_gives_of_accepted ih hstmt haccepted context
    exact ⟨_, .wrapped hstmt hresult⟩
  | subLink hcode hselect haccepted =>
    obtain ⟨result, hresult⟩ := exists_gives_of_accepted ih hselect haccepted {}
    exact ⟨_, .subLink hcode hselect hresult⟩
  | nullTest harg haccepted hcode hmem =>
    obtain ⟨result, hresult⟩ := exists_gives_of_accepted ih harg haccepted {}
    rcases List.mem_pair.mp hmem with rfl | rfl
    · exact ⟨_, .makes (.isNull harg hresult hcode)⟩
    · exact ⟨_, .makes (.isNotNull harg hresult hcode)⟩
  | order hnode haccepted hnulls hdir hmem =>
    obtain ⟨result, hresult⟩ := exists_gives_of_accepted ih hnode haccepted {}
    obtain ⟨direction, hdirection⟩ : ∃ direction, Lower.directions.lookup _ = some direction :=
      exists_lookup_iff.mpr hmem
    exact ⟨_, .makes (.order hnode hresult hnulls hdir hdirection)⟩
  | andOr hop hcode hargs hne haccepted =>
    obtain ⟨expr, hexpr⟩ := exists_connects_of_andOr ih hop hcode hargs hne haccepted
    exact ⟨_, .boolean hexpr⟩
  | not hop hargs haccepted =>
    obtain ⟨operand, hoperand⟩ :=
      ((ih.of_mem hargs (List.mem_singleton_self _)).node { nested := true }).mpr haccepted
    exact ⟨_, .boolean (.not hop ⟨_, hargs, .cons hoperand .nil⟩)⟩
  | comparison | membership =>
    obtain ⟨result, hresult⟩ := exists_makes_of_operation ih rfl hnode context
    exact ⟨result, .makes hresult⟩
  | aggregate =>
    obtain ⟨result, hresult⟩ := exists_makes_of_call ih rfl hnode context
    exact ⟨result, .makes hresult⟩
  | select =>
    obtain ⟨select, hselect⟩ := exists_givesSelect ih rfl hnode
    exact ⟨_, .makes (.select hselect)⟩

lemma nodeExact_of_children : NodeExact (tagged kind fields) := by
  intro context
  simp only [gives_tagged_iff]
  constructor
  · rintro ⟨result, h⟩
    exact .node (acceptedNode_of_rule ih h)
  · intro h
    exact exists_rule_of_acceptedNode ih (accepted_tagged_iff.mp h) context

/-! ### FROM items -/

lemma exists_sources_iff (hnode : NodeExact (tagged kind fields)) :
    (∃ sources, GivesSources (tagged kind fields) sources) ↔ FromItem (tagged kind fields) := by
  simp only [Lower.givesSources_iff]
  constructor
  · rintro ⟨sources, h⟩
    generalize hvalue : tagged kind fields = value at h hnode
    cases h with
    | table h =>
      obtain ⟨haccepted, htable⟩ := hnode.givesTable_iff.mp ⟨_, h⟩
      exact .table haccepted htable
    | join hnatural husing halias hcode hkind hl hbefore hr htable hon =>
      obtain ⟨rfl, rfl⟩ := Parse.tagged_inj.mp hvalue
      obtain ⟨haccepted, htable⟩ := (ih.of_present hr).node.givesTable_iff.mp ⟨_, htable⟩
      exact .join hnatural husing halias hcode (exists_lookup_iff.mp ⟨_, hkind⟩) hl
        ((ih.of_present hl).source.mp ⟨_, hbefore⟩) hr haccepted htable
        ((exists_givesOptional_iff ih).mp ⟨_, hon⟩)
  · intro h
    generalize hvalue : tagged kind fields = value at h hnode
    cases h with
    | table haccepted htable =>
      obtain ⟨table, h⟩ := hnode.givesTable_iff.mpr ⟨haccepted, htable⟩
      exact ⟨_, .table h⟩
    | join hnatural husing halias hcode hmem hl hleft hr haccepted htable hon =>
      obtain ⟨rfl, rfl⟩ := Parse.tagged_inj.mp hvalue
      obtain ⟨kind, hkind⟩ : ∃ kind, Lower.joinKinds.lookup _ = some kind :=
        exists_lookup_iff.mpr hmem
      obtain ⟨before, hbefore⟩ := (ih.of_present hl).source.mpr hleft
      obtain ⟨table, htable⟩ := (ih.of_present hr).node.givesTable_iff.mpr ⟨haccepted, htable⟩
      obtain ⟨on, hon⟩ := (exists_givesOptional_iff ih).mpr hon
      exact ⟨_, .join hnatural husing halias hcode hkind hl hbefore hr htable hon⟩

end

lemma exists_tagged_of_accepted {value : Json} (h : Accepted value) :
    ∃ kind fields, value = tagged kind fields := by
  cases h with
  | node => exact ⟨_, _, rfl⟩

theorem lowersExactly (value : Json) : Exact value := by
  induction value using Parse.kind_induction with
  | node kind fields ih =>
    have hnode := nodeExact_of_children ih
    exact ⟨hnode, exists_sources_iff ih hnode⟩
  | other value hvalue =>
    -- neither side of either equivalence holds of a value that is no node
    have hgives {context : Context} {result : Node} : ¬ Gives context value result := fun h =>
      let ⟨kind, fields, heq⟩ := Lower.exists_tagged_of_gives h
      hvalue kind fields heq
    have haccepted : ¬ Accepted value := fun h =>
      let ⟨kind, fields, heq⟩ := exists_tagged_of_accepted h
      hvalue kind fields heq
    refine ⟨fun context => ?_, ?_⟩
    · simp [hgives, haccepted]
    · constructor
      · rintro ⟨sources, h⟩
        cases Lower.givesSources_iff.mp h with
        | table htable => exact absurd htable hgives
        | join => exact absurd rfl (hvalue _ _)
      · intro h
        cases h with
        | table h => exact absurd h haccepted
        | join => exact absurd rfl (hvalue _ _)

end SelectTree.Grammar

namespace SelectTree

/-- **Lowering accepts its grammar.** With the greatest depth limit, a parse tree is lowered in any
context exactly if the grammar derives it. -/
theorem lowers_iff_accepted (value : Json) (context : Context) :
    (∃ result, ((Session.fresh greatestLimit).node value context).1.result = .ok result) ↔
      Grammar.Accepted value := by
  have hresult := result_greatest ((Lower.budgeted value).node context)
  rw [Session.node, hresult]
  exact (Grammar.lowersExactly value).node context

end SelectTree
