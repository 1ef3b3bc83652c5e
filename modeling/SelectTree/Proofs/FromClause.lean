import SelectTree.Proofs.JoinSpine
import SelectTree.Proofs.Rules.Session

/-!
# FROM clauses

What becomes of the FROM clause of a select: `from_clause_exact` says which tables and joins the
select has, and `same_select_iff` which FROM clauses cannot be told apart by it.
-/

namespace SelectTree

open Parse (Attributes Kind raw tagged)
open Query (Select Sources)

/-- A session lowers a select, as a statement of its own or as a node. -/
def LowersSelect (session : Session) (fields : Json.Fields) (select : Select) : Prop :=
  (session.statement (tagged .selectStmt fields)).1.result = .ok select ∨
    ∃ context, (session.node (tagged .selectStmt fields) context).1.result = .ok (.select select)

namespace Lower

/-! ## Selects -/

/-- Selects whose attributes differ in the FROM clause only differ in their tables and joins
only. -/
lemma select_eq_of_from {fields fields' : Json.Fields}
    (hother : ∀ key, key ≠ "fromClause" → Parse.present? fields key = Parse.present? fields' key)
    {result result' : Select} (h : GivesSelect fields result) (h' : GivesSelect fields' result')
    (hsource : result.source = result'.source) (hjoins : result.joins = result'.joins) :
    result = result' := by
  obtain ⟨filter, hfilter, hwheres⟩ := h.wheres
  obtain ⟨filter', hfilter', hwheres'⟩ := h'.wheres
  have hfilters : filter = filter' := hfilter.unique (hother _ (by decide)) hfilter'
  have hprojections := h.projections.unique (hother _ (by decide)) h'.projections
  have horders := h.orders.unique (hother _ (by decide)) h'.orders
  have hlimit := h.limit.unique (hother _ (by decide)) h'.limit
  have hoffset := h.offset.unique (hother _ (by decide)) h'.offset
  cases result
  cases result'
  simp only [Query.Clauses.mk.injEq]
  exact ⟨hsource, hprojections, hwheres.trans (hfilters ▸ hwheres'.symm), horders, hjoins, hlimit,
    hoffset⟩

/-- A select that is lowered, as a statement or as a node, is lowered clause by clause, and the
limit leaves room for each item of its FROM clause. -/
lemma select_of_session {session : Session} {fields : Json.Fields} {result : Select}
    (h : LowersSelect session fields result) :
    GivesSelect fields result ∧ ∀ item ∈ (raw Kind.selectStmt.tag fields).many "fromClause",
      Fits session.config session.depth (need item) := by
  have hitem {item : Json} (hitem : item ∈ (raw Kind.selectStmt.tag fields).many "fromClause") :
      need item ≤ need (tagged .selectStmt fields) - 8 := by
    have hmem : item ∈ Parse.children .selectStmt (raw Kind.selectStmt.tag fields) := by
      simp only [Parse.children, List.mem_append]
      tauto
    have hle := need_of_mem hmem
    rw [weight] at hle
    omega
  rcases h with h | ⟨context, h⟩
  · obtain ⟨hgives, hfits⟩ := gives_of_statement h
    exact ⟨givesSelect_of_gives hgives, fun item hmem => hfits.mono (Nat.le_refl _) (hitem hmem)⟩
  · obtain ⟨hgives, hfits⟩ := gives_of_node h
    refine ⟨givesSelect_of_gives hgives, fun item hmem => hfits.mono (Nat.le_refl _) ?_⟩
    exact Nat.le_trans (hitem hmem) (Nat.sub_le _ _)

end Lower

open Lower (answer need Fits ItemLowers JoinLowers LowersWithin)
open Parse (IsJoin joinNodes spine)
open Query (Join JoinedTable Node)

/-! ## FROM clauses of a session -/

/-- A fresh session under `limit` lowers a node to `result`. -/
def LowersFresh (limit : UInt64) (value : Json) (result : Node) : Prop :=
  ((Session.fresh limit).node value).1.result = .ok result

lemma lowersFresh_of_lowersWithin {config : Config} {depth levels : Nat}
    (hfits : Fits config depth levels) {value : Json} {result : Node}
    (h : LowersWithin levels value result) : LowersFresh config.maxDepth value result := by
  refine (result_fresh_eq_ok_iff ((Lower.budgeted value).node {})).mpr ⟨h.1, ?_⟩
  have hroom : Fits config 0 (need value) := hfits.mono (Nat.zero_le depth) h.2
  rwa [Fits, Nat.zero_add] at hroom

/-- A join is lowered in a FROM clause only. -/
lemma not_isJoin_of_lowersFresh {limit : UInt64} {value : Json} {result : Node}
    (h : LowersFresh limit value result) : ¬ IsJoin value := by
  exact Lower.not_isJoin_of_gives (gives_of_node h).1

/-- The sources that a fresh session under `limit` gives a FROM item. -/
def sourcesFresh (limit : UInt64) (value : Json) : Except Error Sources :=
  ((Session.fresh limit).call (Lower.source value)).1.result

/-- A fresh session under `limit` lowers a FROM item to the sources of `item`, along its spine. -/
structure ItemLowersFresh (limit : UInt64) (value : Json) (item : JoinedTable) : Prop where
  sources : sourcesFresh limit value = .ok item.sources
  spine : ItemLowers (LowersFresh limit) value item

lemma exists_joinedTable {config : Config} {depth : Nat} {value : Json} {part : Sources}
    (hfits : Fits config depth (need value)) (h : answer (Lower.source value) = .ok part) :
    ∃ item : JoinedTable, part = item.sources ∧ ItemLowersFresh config.maxDepth value item := by
  obtain ⟨item, rfl, hitem⟩ := Lower.source_flattens value h
  refine ⟨item, rfl, ?_, hitem.imp (lowersFresh_of_lowersWithin hfits)⟩
  refine (result_fresh_eq_ok_iff (Lower.budgeted value).source).mpr ⟨h, ?_⟩
  have hroom : Fits config 0 (need value) := hfits.mono (Nat.zero_le depth) (Nat.le_refl _)
  rwa [Fits, Nat.zero_add] at hroom

lemma exists_joinedTables {config : Config} {depth : Nat} {values : List Json}
    {parts : List Sources}
    (h : List.Forall₂ (fun value part => answer (Lower.source value) = .ok part) values parts)
    (hfits : ∀ value ∈ values, Fits config depth (need value)) :
    ∃ items : List JoinedTable, parts = items.map JoinedTable.sources ∧
      List.Forall₂ (ItemLowersFresh config.maxDepth) values items := by
  induction h with
  | nil => exact ⟨[], rfl, .nil⟩
  | cons hpart _ ih =>
    obtain ⟨item, rfl, hitem⟩ := exists_joinedTable (hfits _ List.mem_cons_self) hpart
    obtain ⟨items, rfl, hitems⟩ := ih fun value hvalue =>
      hfits value (List.mem_cons_of_mem _ hvalue)
    exact ⟨item :: items, rfl, .cons hitem hitems⟩

/-- The tables and the joins of a select are those of the items of its FROM clause, in order. -/
lemma LowersSelect.exists_items {session : Session} {fields : Json.Fields} {select : Select}
    (h : LowersSelect session fields select) :
    ∃ values items, (raw Kind.selectStmt.tag fields).list? "fromClause" = .ok values ∧
      List.Forall₂ (ItemLowersFresh session.config.maxDepth) (values.getD []) items ∧
      select.source = (if items.isEmpty then none else some (items.map (·.table))) ∧
      select.joins = items.flatMap (·.joins) := by
  obtain ⟨hselect, hfits⟩ := Lower.select_of_session h
  obtain ⟨values, parts, hvalues, hparts, hsource, hjoins⟩ := hselect.fromClause
  rw [← Attributes.list?_raw_eq_ok_iff] at hvalues
  have hmany : (raw Kind.selectStmt.tag fields).many "fromClause" = values.getD [] := by
    rw [Attributes.many, hvalues]
    cases values <;> rfl
  rw [hmany] at hfits
  obtain ⟨items, rfl, hitems⟩ := exists_joinedTables hparts hfits
  rw [← List.flatMap_def] at hsource hjoins
  exact ⟨values, items, hvalues, hitems, hsource.trans (JoinedTable.tables?_flatMap items),
    hjoins.trans (JoinedTable.joins_flatMap items)⟩

/-- A select has exactly the tables and the joins of the FROM items `values`, in their order, with
every table and condition as `gives` lowers it. -/
structure FromExact (gives : Json → Node → Prop) (values : List Json) (select : Select) :
    Prop where
  /-- There is one table for each item, from the end of its spine. -/
  source : ∃ tables,
    List.Forall₂ (fun value table => gives (spine value).base (.table table)) values tables ∧
    select.source = if values.isEmpty then none else some tables
  /-- There is one join for each join of a spine. -/
  joins : List.Forall₂ (JoinLowers gives) (values.flatMap fun value => (spine value).joins)
    select.joins
  /-- The joins of the items, left and right, are those of their spines. -/
  joinNodes : values.flatMap joinNodes = values.flatMap fun value => (spine value).joins
  /-- No join has a join on its right. -/
  right : ∀ fields ∈ values.flatMap Parse.joinNodes, ∀ right,
    (raw Kind.joinExpr.tag fields).node "rarg" = .ok right → ¬ IsJoin right

lemma not_isJoin_of_joinLowers {limit : UInt64} {fields : Json.Fields} {join : Join Node}
    (h : JoinLowers (LowersFresh limit) fields join) (right : Json)
    (hright : (raw Kind.joinExpr.tag fields).node "rarg" = .ok right) : ¬ IsJoin right := by
  obtain ⟨value, hvalue, htable⟩ := h.right
  obtain rfl : value = right := Except.ok.inj (hvalue.symm.trans hright)
  exact not_isJoin_of_lowersFresh htable

lemma fromExact_of_items {limit : UInt64} {values : List Json} {items : List JoinedTable}
    {select : Select} (h : List.Forall₂ (ItemLowers (LowersFresh limit)) values items)
    (hsource : select.source = if items.isEmpty then none else some (items.map (·.table)))
    (hjoins : select.joins = items.flatMap (·.joins)) :
    FromExact (LowersFresh limit) values select := by
  have hspine : List.Forall₂ (JoinLowers (LowersFresh limit))
      (values.flatMap fun value => (spine value).joins) select.joins :=
    hjoins ▸ List.rel_flatMap h fun _ _ hitem => hitem.joins
  have hnodes : values.flatMap joinNodes = values.flatMap fun value => (spine value).joins :=
    List.flatMap_congr
      ((List.forall₂_and_left _ _).mp (h.imp fun _ _ hitem => ⟨hitem.joinNodes, hitem⟩)).1
  refine ⟨⟨items.map (·.table), ?_, ?_⟩, hspine, hnodes, ?_⟩
  · exact List.forall₂_map_right_iff.mpr (h.imp fun _ _ hitem => hitem.base)
  · rw [hsource]
    cases h <;> rfl
  · rw [hnodes]
    exact ((List.forall₂_and_left _ _).mp (hspine.imp fun _ _ hjoin =>
      ⟨not_isJoin_of_joinLowers hjoin, hjoin⟩)).1

/-- **FROM clauses are flattened exactly.** A select that is lowered, on its own or nested at any
depth, has the tables at the ends of the spines of its FROM items, and the joins of the spines in
order; so it has as many joins as its FROM clause has join nodes, and none of these has a join on
its right. -/
theorem from_clause_exact {session : Session} {fields : Json.Fields} {select : Select}
    (h : LowersSelect session fields select) :
    ∃ values, (raw Kind.selectStmt.tag fields).list? "fromClause" = .ok values ∧
      FromExact (LowersFresh session.config.maxDepth) (values.getD []) select ∧
      select.joins.length = ((values.getD []).flatMap joinNodes).length := by
  obtain ⟨values, items, hvalues, hitems, hsource, hjoins⟩ := h.exists_items
  have hexact : FromExact (LowersFresh session.config.maxDepth) (values.getD []) select :=
    fromExact_of_items (hitems.imp fun _ _ hitem => hitem.spine) hsource hjoins
  refine ⟨values, hvalues, hexact, ?_⟩
  rw [hexact.joinNodes, hexact.joins.length_eq]

/-- The parse tree of a table. -/
def tableNode (name : String) : Json :=
  tagged .rangeVar [("relname", .string name)]

/-- The parse tree of a join of a code, without a condition. -/
def joinNode (code : Nat) (left right : Json) : Json :=
  tagged .joinExpr [("jointype", .ofNat code), ("larg", left), ("rarg", right)]

/-- The items of `FROM a JOIN b LEFT JOIN c, d RIGHT JOIN e`. -/
def twoChains : List Json :=
  [joinNode 1 (joinNode 0 (tableNode "a") (tableNode "b")) (tableNode "c"),
    joinNode 3 (tableNode "d") (tableNode "e")]

theorem from_clause_exact_twoChains :
    ∃ select, LowersSelect { depth := 240 } [("fromClause", .array twoChains)] select ∧
      FromExact (LowersFresh 256) twoChains select ∧
      select.joins.length = (twoChains.flatMap joinNodes).length := by
  have h : LowersSelect { depth := 240 } [("fromClause", .array twoChains)] {
      source := some [{ name := "a" }, { name := "d" }]
      joins := [⟨.inner, { name := "b" }, none⟩, ⟨.outer, { name := "c" }, none⟩,
        ⟨.rightOuter, { name := "e" }, none⟩] } :=
    .inr ⟨{}, rfl⟩
  obtain ⟨values, hvalues, hexact, hlength⟩ := from_clause_exact h
  obtain rfl : some twoChains = values := Except.ok.inj hvalues
  exact ⟨_, h, hexact, hlength⟩

/-! ## Which joins belong to which item -/

lemma eq_of_joins_length_eq {items items' : List JoinedTable}
    (htables : items.map (·.table) = items'.map (·.table))
    (hjoins : items.flatMap (·.joins) = items'.flatMap (·.joins))
    (hlengths : items.map (·.joins.length) = items'.map (·.joins.length)) : items = items' := by
  induction items generalizing items' with
  | nil => exact (List.map_eq_nil_iff.mp htables.symm).symm
  | cons item items ih =>
    cases items' with
    | nil => cases htables
    | cons item' items' =>
      obtain ⟨htable, htables⟩ := List.cons.inj htables
      obtain ⟨hlength, hlengths⟩ := List.cons.inj hlengths
      -- lists of joins of the same length split at the same place
      rw [List.flatMap_cons, List.flatMap_cons] at hjoins
      obtain ⟨hhead, htail⟩ := List.append_inj hjoins hlength
      have hitem : item = item' := by
        cases item
        cases item'
        rw [JoinedTable.mk.injEq]
        exact ⟨htable, hhead⟩
      rw [hitem, ih htables htail hlengths]

/-- The FROM items of a select, by the sources that a fresh session gives each of them. -/
def FromItems (session : Session) (fields : Json.Fields) (items : List JoinedTable) : Prop :=
  ∃ values, (raw Kind.selectStmt.tag fields).list? "fromClause" = .ok values ∧
    (values.getD []).map (sourcesFresh session.config.maxDepth) =
      items.map fun item => .ok item.sources

lemma map_sourcesFresh {limit : UInt64} {values : List Json} {items : List JoinedTable}
    (h : List.Forall₂ (ItemLowersFresh limit) values items) :
    values.map (sourcesFresh limit) = items.map fun item => .ok item.sources := by
  induction h with
  | nil => rfl
  | cons hitem _ ih => rw [List.map_cons, List.map_cons, hitem.sources, ih]

/-- The tables of a select tell the tables of its items. -/
lemma source_eq_iff {items items' : List JoinedTable} :
    (if items.isEmpty then none else some (items.map (·.table))) =
        (if items'.isEmpty then none else some (items'.map (·.table))) ↔
      items.map (·.table) = items'.map (·.table) := by
  cases items <;> cases items' <;> simp

/-- The items of `FROM a RIGHT JOIN c, b`. -/
def joinOntoFirst : List Json :=
  [joinNode 3 (tableNode "a") (tableNode "c"), tableNode "b"]

/-- The items of `FROM a, b RIGHT JOIN c`. -/
def joinOntoLast : List Json :=
  [tableNode "a", joinNode 3 (tableNode "b") (tableNode "c")]

/-- The select with the tables `a` and `b` and a right join of `c`. -/
def rightJoined : Select where
  source := some [{ name := "a" }, { name := "b" }]
  joins := [⟨.rightOuter, { name := "c" }, none⟩]

lemma lowersSelect_joinOntoFirst :
    LowersSelect {} [("fromClause", .array joinOntoFirst)] rightJoined :=
  .inl rfl

lemma lowersSelect_joinOntoLast :
    LowersSelect {} [("fromClause", .array joinOntoLast)] rightJoined :=
  .inl rfl

/-- A select does not tell which item a join belongs to. -/
theorem moved_join_same_select :
    (LowersSelect {} [("fromClause", .array joinOntoFirst)] rightJoined ∧
      LowersSelect {} [("fromClause", .array joinOntoLast)] rightJoined) ∧
    joinOntoFirst.map (sourcesFresh 256) ≠ joinOntoLast.map (sourcesFresh 256) := by
  refine ⟨⟨lowersSelect_joinOntoFirst, lowersSelect_joinOntoLast⟩, fun h => ?_⟩
  -- the first items have two sources and one
  have hfirst := congrArg (Except.map List.length) (List.cons.inj h).1
  cases hfirst

/-- **A select keeps the tables and the joins of its FROM clause, and nothing else of it.** Selects
that differ in their FROM clauses only become the same exactly if the items have the same tables,
one by one, and the same joins, one after the other. The sources of the items are then the same
exactly if each item has as many joins as its counterpart. -/
theorem same_select_iff {session session' : Session} {fields fields' : Json.Fields}
    {select select' : Select}
    (hother : ∀ key, key ≠ "fromClause" → Parse.present? fields key = Parse.present? fields' key)
    (h : LowersSelect session fields select) (h' : LowersSelect session' fields' select') :
    ∃ items items', FromItems session fields items ∧ FromItems session' fields' items' ∧
      (select = select' ↔ items.map (·.table) = items'.map (·.table) ∧
        items.flatMap (·.joins) = items'.flatMap (·.joins)) ∧
      (select = select' → (items.map (·.sources) = items'.map (·.sources) ↔
        items.map (·.joins.length) = items'.map (·.joins.length))) := by
  obtain ⟨values, items, hvalues, hitems, hsource, hjoins⟩ := h.exists_items
  obtain ⟨values', items', hvalues', hitems', hsource', hjoins'⟩ := h'.exists_items
  have hsame : select = select' ↔ items.map (·.table) = items'.map (·.table) ∧
      items.flatMap (·.joins) = items'.flatMap (·.joins) := by
    rw [← source_eq_iff, ← hsource, ← hsource', ← hjoins, ← hjoins']
    constructor
    · rintro rfl
      exact ⟨rfl, rfl⟩
    · rintro ⟨hsources, hjoins⟩
      exact Lower.select_eq_of_from hother (Lower.select_of_session h).1
        (Lower.select_of_session h').1 hsources hjoins
  refine ⟨items, items', ⟨values, hvalues, map_sourcesFresh hitems⟩,
    ⟨values', hvalues', map_sourcesFresh hitems'⟩, hsame, fun heq => ?_⟩
  obtain ⟨htables, hjoins⟩ := hsame.mp heq
  constructor
  · intro hsources
    -- an item has one source more than it has joins
    have hlengths := congrArg (List.map fun sources => sources.length - 1) hsources
    simpa [JoinedTable.sources, Function.comp_def] using hlengths
  · intro hlengths
    rw [eq_of_joins_length_eq htables hjoins hlengths]

theorem same_select_iff_moved_join :
    ∃ items items', FromItems {} [("fromClause", .array joinOntoFirst)] items ∧
      FromItems {} [("fromClause", .array joinOntoLast)] items' ∧
      items.map (·.table) = items'.map (·.table) ∧
      items.flatMap (·.joins) = items'.flatMap (·.joins) := by
  have hother (key : String) (hkey : key ≠ "fromClause") :
      Parse.present? [("fromClause", .array joinOntoFirst)] key =
        Parse.present? [("fromClause", .array joinOntoLast)] key := by
    simp [Parse.present?, List.lookup_cons, beq_false_of_ne hkey]
  obtain ⟨items, items', hitems, hitems', hsame, _⟩ :=
    same_select_iff hother lowersSelect_joinOntoFirst lowersSelect_joinOntoLast
  exact ⟨items, items', hitems, hitems', hsame.mp rfl⟩

end SelectTree
