import SelectTree.Proofs.Rules.Exact

/-!
# Spines of FROM items

A FROM item is a tree of joins, and lowering makes a flat list of it. The tree is read here in two
ways that know nothing of lowering:

* `spine`, the item along its left arguments: the node at the end, and the joins on the way;
* `joinNodes`, all joins of the item, on either side.

`source_flattens` shows by induction over the tree that an item which can be lowered has all its
joins on the spine, and is lowered to the spine.
-/

namespace SelectTree.Parse

variable {α : Type}

/-! ## Spines -/

/-- The attributes as they are written. -/
def Attributes.fields (attributes : Attributes α) : Json.Fields :=
  attributes.entries.map fun (key, entry) => (key, entry.value)

@[simp] lemma Attributes.fields_of (f : Json → α) (tag : String) (fields : Json.Fields) :
    (Attributes.of f tag fields).fields = fields := by
  rw [Attributes.fields, Attributes.of, List.map_map]
  exact List.map_id fields

/-- A FROM item along its left arguments. -/
structure Spine where
  /-- The first node that is no join. -/
  base : Json
  /-- The attributes of the joins before it, the innermost join first. -/
  joins : List Json.Fields

/-- The spine of a node, from the spines of its children. -/
def spineOf (attributes : Attributes Spine) : Spine :=
  match Kind.ofTag? attributes.tag, attributes.node? "larg" with
  | some .joinExpr, some left => ⟨left.base, left.joins ++ [attributes.fields]⟩
  | _, _ => ⟨.object [(attributes.tag, .object attributes.fields)], []⟩

/-- The spine of a FROM item. -/
def spine : Json → Spine :=
  fold spineOf fun value => ⟨value, []⟩

/-- The joins of a node, from the joins of its children. -/
def joinNodesOf (attributes : Attributes (List Json.Fields)) : List Json.Fields :=
  match Kind.ofTag? attributes.tag with
  | some .joinExpr =>
    (attributes.one "larg" ++ attributes.one "rarg").flatten ++ [attributes.fields]
  | _ => []

/-- The attributes of all joins of a FROM item, left and right. Joins in a condition do not
count. -/
def joinNodes : Json → List Json.Fields :=
  fold joinNodesOf fun _ => []

lemma spine_join {fields : Json.Fields} {left : Json}
    (h : (raw Kind.joinExpr.tag fields).node "larg" = .ok left) :
    spine (tagged .joinExpr fields) = ⟨(spine left).base, (spine left).joins ++ [fields]⟩ := by
  rw [spine, tagged, fold_tagged, spineOf, Attributes.node?_of, Attributes.node_eq_ok_iff.mp h,
    Attributes.tag_of, Kind.ofTag?_tag, Attributes.fields_of]
  rfl

lemma joinNodes_join (fields : Json.Fields) :
    joinNodes (tagged .joinExpr fields) =
      ((raw Kind.joinExpr.tag fields).one "larg" ++
        (raw Kind.joinExpr.tag fields).one "rarg").flatMap joinNodes ++ [fields] := by
  rw [joinNodes, tagged, fold_tagged, joinNodesOf, Attributes.tag_of, Kind.ofTag?_tag]
  simp only [Attributes.one_of, Attributes.fields_of, ← List.map_append, List.flatMap_def]

/-- A node is a join. -/
def IsJoin (value : Json) : Prop :=
  ∃ fields, value = tagged .joinExpr fields

/-- What is no join is no tagged node at all, or one with another tag. -/
lemma not_isJoin_cases {value : Json} (h : ¬ IsJoin value) :
    (∀ tag fields, value ≠ .object [(tag, .object fields)]) ∨
      ∃ tag fields, value = .object [(tag, .object fields)] ∧ Kind.ofTag? tag ≠ some .joinExpr := by
  by_cases htagged : ∃ tag fields, value = .object [(tag, .object fields)]
  · obtain ⟨tag, fields, rfl⟩ := htagged
    refine Or.inr ⟨tag, fields, rfl, fun htag => h ⟨fields, ?_⟩⟩
    rw [tagged, Kind.ofTag?_eq_some_iff.mp htag]
  · exact Or.inl fun tag fields heq => htagged ⟨tag, fields, heq⟩

lemma spine_of_not_isJoin {value : Json} (h : ¬ IsJoin value) : spine value = ⟨value, []⟩ := by
  rcases not_isJoin_cases h with huntagged | ⟨tag, fields, rfl, htag⟩
  · exact fold_untagged huntagged
  · rw [spine, fold_tagged, spineOf]
    split
    · next heq _ => exact absurd heq htag
    · rw [Attributes.tag_of, Attributes.fields_of]

lemma joinNodes_of_not_isJoin {value : Json} (h : ¬ IsJoin value) : joinNodes value = [] := by
  rcases not_isJoin_cases h with huntagged | ⟨tag, fields, rfl, htag⟩
  · exact fold_untagged huntagged
  · rw [joinNodes, fold_tagged, joinNodesOf]
    split
    · next heq => exact absurd heq htag
    · rfl

end SelectTree.Parse

namespace SelectTree.Query

/-! ## Sources of an item -/

/-- A table with the joins onto it, the first join first. -/
structure JoinedTable where
  table : Table
  joins : List (Join Node)

namespace JoinedTable

/-- The sources of a FROM item: its table, then its joins. -/
def sources (item : JoinedTable) : Sources :=
  .base item.table :: item.joins.map .joined

lemma filterMap_table?_joined (joins : List (Join Node)) :
    (joins.map Source.joined).filterMap Source.table? = [] := by
  rw [List.filterMap_map]
  exact List.filterMap_eq_nil_iff.mpr fun _ _ => rfl

lemma filterMap_join?_joined (joins : List (Join Node)) :
    (joins.map Source.joined).filterMap Source.join? = joins := by
  rw [List.filterMap_map]
  exact List.filterMap_some

lemma tables?_flatMap (items : List JoinedTable) :
    Sources.tables? (items.flatMap sources) =
      if items.isEmpty then none else some (items.map table) := by
  have hmap : (items.flatMap sources).filterMap Source.table? = items.map table := by
    induction items with
    | nil => rfl
    | cons item items ih =>
      rw [List.flatMap_cons, List.filterMap_append, ih, sources, List.filterMap_cons,
        filterMap_table?_joined]
      rfl
  rw [Sources.tables?, hmap]
  cases items <;> rfl

lemma joins_flatMap (items : List JoinedTable) :
    Sources.joins (items.flatMap sources) = items.flatMap joins := by
  induction items with
  | nil => rfl
  | cons item items ih =>
    rw [Sources.joins] at ih ⊢
    rw [List.flatMap_cons, List.filterMap_append, ih, sources, List.filterMap_cons,
      filterMap_join?_joined]
    rfl

end JoinedTable

end SelectTree.Query

namespace SelectTree.Lower

open Parse (Attributes IsJoin Kind joinNodes raw spine tagged)
open Query (Join JoinedTable Node Table)

/-! ## Items -/

/-- What the attributes of a join are lowered to, by what single nodes are lowered to. -/
structure JoinLowers (gives : Json → Node → Prop) (fields : Json.Fields) (join : Join Node) :
    Prop where
  kind : ∃ code, (raw Kind.joinExpr.tag fields).code "jointype" = .ok code ∧
    joinKinds.lookup code = some join.kind
  right : ∃ value, (raw Kind.joinExpr.tag fields).node "rarg" = .ok value ∧
    gives value (.table join.right)
  on : Option.Rel gives ((raw Kind.joinExpr.tag fields).node? "quals") join.on

/-- A node needs as many levels as a child that it lowers, and its own weight. -/
lemma need_of_mem {kind : Kind} {fields : Json.Fields} {value : Json}
    (h : value ∈ Parse.children kind (raw kind.tag fields)) :
    weight kind + need value ≤ need (tagged kind fields) := by
  rw [tagged, need_tagged (Kind.ofTag?_tag kind), needBelow, levels]
  exact Nat.add_le_add_left (le_greatest (List.mem_map_of_mem h)) (weight kind)

/-- A node is lowered to `result`, and no more than `levels` levels are needed for it. -/
def LowersWithin (levels : Nat) (value : Json) (result : Node) : Prop :=
  answer (node value {}) = .ok result ∧ need value ≤ levels

lemma LowersWithin.mono {m n : Nat} (hmn : m ≤ n) {value : Json} {result : Node}
    (h : LowersWithin m value result) : LowersWithin n value result :=
  ⟨h.1, Nat.le_trans h.2 hmn⟩

lemma rel_imp {gives gives' : Json → Node → Prop}
    (himp : ∀ {value result}, gives value result → gives' value result) {value? : Option Json}
    {result? : Option Node} (h : Option.Rel gives value? result?) :
    Option.Rel gives' value? result? := by
  cases h with
  | none => exact .none
  | some h => exact .some (himp h)

lemma JoinLowers.imp {gives gives' : Json → Node → Prop}
    (himp : ∀ {value result}, gives value result → gives' value result) {fields : Json.Fields}
    {join : Join Node} (h : JoinLowers gives fields join) : JoinLowers gives' fields join where
  kind := h.kind
  right := h.right.imp fun _ => And.imp_right himp
  on := rel_imp himp h.on

/-- The parts of a join need no more levels than the join. -/
lemma need_le_join {fields : Json.Fields} {key : String} {value : Json}
    (hkey : key ∈ ["larg", "rarg", "quals"])
    (h : (raw Kind.joinExpr.tag fields).node? key = some value) :
    need value ≤ need (tagged .joinExpr fields) := by
  have hone : value ∈ (raw Kind.joinExpr.tag fields).one key := by
    rw [Attributes.one, h]
    exact List.mem_singleton_self value
  refine Nat.le_trans (Nat.le_add_left _ _) (need_of_mem ?_)
  simp only [List.mem_cons, List.not_mem_nil, or_false] at hkey
  simp only [Parse.children, List.mem_append]
  rcases hkey with rfl | rfl | rfl
  · exact Or.inl (Or.inl hone)
  · exact Or.inl (Or.inr hone)
  · exact Or.inr hone

lemma JoinLowers.within {fields : Json.Fields} {join : Join Node}
    (h : JoinLowers (fun value result => answer (node value {}) = .ok result) fields join) :
    JoinLowers (LowersWithin (need (tagged .joinExpr fields))) fields join := by
  obtain ⟨hkind, ⟨right, hright, htable⟩, hon⟩ := h
  refine ⟨hkind, ⟨right, hright, htable, ?_⟩, ?_⟩
  · exact need_le_join (by decide) (Attributes.node_eq_ok_iff.mp hright)
  · generalize hquals : (raw Kind.joinExpr.tag fields).node? "quals" = quals at hon ⊢
    generalize join.on = on at hon ⊢
    cases hon with
    | none => exact .none
    | some hresult => exact .some ⟨hresult, need_le_join (by decide) hquals⟩

/-- What a FROM item is lowered to: the table at the end of its spine, and the joins of its spine,
which are all the joins that it has. -/
structure ItemLowers (gives : Json → Node → Prop) (value : Json) (item : JoinedTable) : Prop where
  base : gives (spine value).base (.table item.table)
  joins : List.Forall₂ (JoinLowers gives) (spine value).joins item.joins
  joinNodes : joinNodes value = (spine value).joins

lemma ItemLowers.imp {gives gives' : Json → Node → Prop}
    (himp : ∀ {value result}, gives value result → gives' value result) {value : Json}
    {item : JoinedTable} (h : ItemLowers gives value item) : ItemLowers gives' value item where
  base := himp h.base
  joins := h.joins.imp fun _ _ => JoinLowers.imp himp
  joinNodes := h.joinNodes

lemma itemLowers_of_not_isJoin {gives : Json → Node → Prop} {value : Json}
    (hvalue : ¬ IsJoin value) {table : Table} (h : gives value (.table table)) :
    ItemLowers gives value ⟨table, []⟩ := by
  refine ⟨?_, ?_, ?_⟩ <;> rw [Parse.spine_of_not_isJoin hvalue]
  · exact h
  · exact .nil
  · exact Parse.joinNodes_of_not_isJoin hvalue

lemma ItemLowers.join {gives : Json → Node → Prop} {fields : Json.Fields} {left right : Json}
    (hleft : (raw Kind.joinExpr.tag fields).node "larg" = .ok left)
    (hright : (raw Kind.joinExpr.tag fields).node "rarg" = .ok right) (hnot : ¬ IsJoin right)
    {item : JoinedTable} (h : ItemLowers gives left item) {join : Join Node}
    (hjoin : JoinLowers gives fields join) :
    ItemLowers gives (tagged .joinExpr fields) ⟨item.table, item.joins ++ [join]⟩ := by
  refine ⟨?_, ?_, ?_⟩ <;> rw [Parse.spine_join hleft]
  · exact h.base
  · exact List.rel_append h.joins (.cons hjoin .nil)
  · rw [Parse.joinNodes_join, Attributes.one_of_node hleft, Attributes.one_of_node hright]
    simp [Parse.joinNodes_of_not_isJoin hnot, h.joinNodes]

/-- A join is not lowered as a node. -/
lemma not_isJoin_of_gives {context : Context} {value : Json} {result : Node}
    (h : Gives context value result) : ¬ IsJoin value := by
  rintro ⟨fields, rfl⟩
  cases gives_tagged_iff.mp h with
  | makes h => cases h

/-- **A FROM item is lowered to its spine.** Its sources are the table at the end of the spine and
then the joins of the spine, and it has no other joins. -/
theorem source_flattens (value : Json) : ∀ {sources}, GivesSources value sources →
    ∃ item : JoinedTable, sources = item.sources ∧
      ItemLowers (LowersWithin (need value)) value item := by
  -- the end of a spine
  have hbase {value : Json} {table : Table} (h : Gives {} value (.table table)) :
      ItemLowers (LowersWithin (need value)) value ⟨table, []⟩ :=
    itemLowers_of_not_isJoin (not_isJoin_of_gives h) ⟨h, Nat.le_refl _⟩
  induction value using Parse.kind_induction with
  | other value hvalue =>
    intro sources h
    cases givesSources_iff.mp h with
    | table htable => exact ⟨_, rfl, hbase htable⟩
    | join => exact absurd rfl (hvalue _ _)
  | node kind fields ih =>
    intro sources h
    replace h := givesSources_iff.mp h
    generalize hvalue : tagged kind fields = value at h
    cases h with
    | table htable => exact ⟨_, rfl, hbase htable⟩
    | @join _ _ _ _ _ kind table on _ _ _ hcode hkind hleft hbefore hright htable hon =>
      obtain ⟨rfl, rfl⟩ := Parse.tagged_inj.mp hvalue
      obtain ⟨item, rfl, hitem⟩ := ih.of_present hleft hbefore
      -- the right side is a table, so it adds no join, and the left side is known by induction
      have hlarg : (raw Kind.joinExpr.tag fields).node "larg" = .ok _ :=
        Attributes.node_raw_eq_ok_iff.mpr hleft
      have hrarg : (raw Kind.joinExpr.tag fields).node "rarg" = .ok _ :=
        Attributes.node_raw_eq_ok_iff.mpr hright
      have hbelow := need_le_join (by decide) (Attributes.node_eq_ok_iff.mp hlarg)
      refine ⟨⟨item.table, item.joins ++ [{ kind, right := table, on }]⟩,
        by simp [JoinedTable.sources], ?_⟩
      refine (hitem.imp (LowersWithin.mono hbelow)).join hlarg hrarg (not_isJoin_of_gives htable)
        (JoinLowers.within ⟨⟨_, Attributes.code_raw_eq_ok_iff.mpr hcode, hkind⟩,
          ⟨_, hrarg, htable⟩, ?_⟩)
      rw [Attributes.node?_raw]
      exact hon

end SelectTree.Lower
