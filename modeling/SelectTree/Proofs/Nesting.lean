import SelectTree.Proofs.Inventory
import SelectTree.Proofs.NestedSelect
import SelectTree.Proofs.RenderedTexts

/-!
# How deep query trees nest

The depth limit is about parse trees. What it says about the query trees that come out is a matter
of two numbers: `height`, the longest chain of nested nodes when a run of disjunctions counts as one
level, and `depth`, the same chain when every disjunction counts.

Both grow by one with each node, and a rule of lowering puts at most two nodes on top of each other,
but for a disjunction, which puts as many as it has operands. `Grows` states what the two numbers
have in common, and `bounded` draws the bound from it, by induction over the parse tree. So the
height is at most twice the limit, and only the operands of a disjunction can make the depth
greater.
-/

namespace SelectTree.Query.Node

open Lower (greatest greatest_cons greatest_nil le_greatest)

/-! ## Chains of nested nodes -/

/-- The nodes directly below a node, a run of disjunctions down the right side being one node with
all its operands. -/
def branches : Node → List Node
  | .or left right => left :: right.disjuncts
  | node => node.parts

/-- Whether a node is a disjunction. -/
def isOr : Node → Bool
  | .or _ _ => true
  | _ => false

lemma exists_of_isOr {node : Node} (h : node.isOr = true) :
    ∃ left right, node = .or left right := by
  cases node with
  | or left right => exact ⟨left, right, rfl⟩
  | _ => cases h

lemma branches_of_not_isOr {node : Node} (h : node.isOr = false) : node.branches = node.parts := by
  cases node with
  | or => cases h
  | _ => rfl

lemma disjuncts_of_not_isOr {node : Node} (h : node.isOr = false) : node.disjuncts = [node] := by
  cases node with
  | or => cases h
  | _ => rfl

lemma sizeOf_le_of_mem_disjuncts {node part : Node} (h : part ∈ node.disjuncts) :
    sizeOf part ≤ sizeOf node := by
  cases hor : node.isOr with
  | false =>
    rw [disjuncts_of_not_isOr hor] at h
    obtain rfl := List.mem_singleton.mp h
    exact Nat.le_refl _
  | true =>
    obtain ⟨left, right, rfl⟩ := exists_of_isOr hor
    rw [or.sizeOf_spec]
    rcases List.mem_cons.mp h with rfl | hright
    · omega
    · have hsize := sizeOf_le_of_mem_disjuncts hright
      omega
termination_by sizeOf node

lemma sizeOf_lt_of_mem_branches {node part : Node} (h : part ∈ node.branches) :
    sizeOf part < sizeOf node := by
  cases hor : node.isOr with
  | false =>
    rw [branches_of_not_isOr hor] at h
    exact sizeOf_lt_of_mem_parts h
  | true =>
    obtain ⟨left, right, rfl⟩ := exists_of_isOr hor
    rw [or.sizeOf_spec]
    rcases List.mem_cons.mp h with rfl | hright
    · omega
    · have hsize := sizeOf_le_of_mem_disjuncts hright
      omega

/-- The longest chain of nodes from a node down, each with the nodes `below` it. -/
def levelsBy (below : Node → List Node)
    (smaller : ∀ {node part : Node}, part ∈ below node → sizeOf part < sizeOf node)
    (node : Node) : Nat :=
  1 + greatest ((below node).attach.map fun part => levelsBy below smaller part.1)
termination_by node
decreasing_by exact smaller part.2

lemma levelsBy_eq (below : Node → List Node)
    (smaller : ∀ {node part : Node}, part ∈ below node → sizeOf part < sizeOf node)
    (node : Node) :
    levelsBy below smaller node = 1 + greatest ((below node).map (levelsBy below smaller)) := by
  rw [levelsBy, List.attach_map_val]

/-- The longest chain of nested nodes, where a run of disjunctions counts as one level. -/
def height : Node → Nat :=
  levelsBy branches sizeOf_lt_of_mem_branches

/-- The longest chain of nested nodes. -/
def depth : Node → Nat :=
  levelsBy parts sizeOf_lt_of_mem_parts

lemma height_eq (node : Node) : node.height = 1 + greatest (node.branches.map height) :=
  levelsBy_eq _ _ node

lemma depth_eq (node : Node) : node.depth = 1 + greatest (node.parts.map depth) :=
  levelsBy_eq _ _ node

/-! ## Parts and chains -/

/-- The operands of a run of disjunctions are lower than the run, and any other node is its own. -/
lemma greatest_disjuncts_le (node : Node) : greatest (node.disjuncts.map height) ≤ node.height := by
  cases hor : node.isOr with
  | false =>
    rw [disjuncts_of_not_isOr hor, List.map_singleton, greatest_cons, greatest_nil]
    omega
  | true =>
    obtain ⟨left, right, rfl⟩ := exists_of_isOr hor
    rw [height_eq]
    exact Nat.le_add_left _ _

lemma height_le_of_mem_parts {node part : Node} (h : part ∈ node.parts) :
    part.height ≤ node.height := by
  cases hor : node.isOr with
  | false =>
    have hpart : part.height ≤ greatest (node.branches.map height) := by
      rw [branches_of_not_isOr hor]
      exact le_greatest (List.mem_map_of_mem h)
    rw [height_eq node]
    omega
  | true =>
    obtain ⟨left, right, rfl⟩ := exists_of_isOr hor
    rw [height_eq (.or left right), branches, List.map_cons, greatest_cons]
    rcases List.mem_pair.mp h with rfl | rfl
    · omega
    · -- the run goes on in the right side, or ends there
      cases hright : part.isOr with
      | false =>
        rw [disjuncts_of_not_isOr hright, List.map_singleton, greatest_cons]
        omega
      | true =>
        obtain ⟨left', right', rfl⟩ := exists_of_isOr hright
        rw [height_eq (.or left' right')]
        exact Nat.add_le_add_left (Nat.le_max_right _ _) 1

lemma depth_le_of_mem_parts {node part : Node} (h : part ∈ node.parts) :
    part.depth ≤ node.depth := by
  have hpart : part.depth ≤ greatest (node.parts.map depth) := le_greatest (List.mem_map_of_mem h)
  rw [depth_eq node]
  omega

/-- A number that no part exceeds is not exceeded anywhere in a query tree. -/
lemma le_of_occurs {measure : Node → Nat}
    (hparts : ∀ node part : Node, part ∈ node.parts → measure part ≤ measure node)
    {node whole : Node} (h : Occurs node whole) : measure node ≤ measure whole := by
  induction h with
  | refl => exact Nat.le_refl _
  | tail _ hpart ih => exact Nat.le_trans (hparts _ _ hpart) ih

section

variable {operands : List Node} {chain : Node}

lemma greatest_disjuncts_orChain_le (h : orChain? operands = some chain) :
    greatest (chain.disjuncts.map height) ≤ greatest (operands.map height) := by
  induction operands generalizing chain with
  | nil => cases h
  | cons operand rest ih =>
    rw [List.map_cons, greatest_cons]
    rcases orChain?_cons_eq_some_iff.mp h with ⟨rfl, rfl⟩ | ⟨tail, htail, rfl⟩
    · exact Nat.le_trans (greatest_disjuncts_le chain) (Nat.le_max_left _ _)
    · have hrest := ih htail
      rw [disjuncts, List.map_cons, greatest_cons]
      omega

/-- However long a chain is, it is one level higher than its operands at most. -/
lemma height_orChain_le (h : orChain? operands = some chain) :
    chain.height ≤ 1 + greatest (operands.map height) := by
  cases hor : chain.isOr with
  | false =>
    have hle := greatest_disjuncts_orChain_le h
    rw [disjuncts_of_not_isOr hor, List.map_singleton, greatest_cons, greatest_nil] at hle
    omega
  | true =>
    have hle := greatest_disjuncts_orChain_le h
    obtain ⟨left, right, rfl⟩ := exists_of_isOr hor
    rw [height_eq]
    exact Nat.add_le_add_left hle 1

/-- A chain is as many levels deeper than its operands as it has disjunctions at most. -/
lemma depth_orChain_le (h : orChain? operands = some chain) :
    1 + chain.depth ≤ operands.length + greatest (operands.map depth) := by
  induction operands generalizing chain with
  | nil => cases h
  | cons operand rest ih =>
    rw [List.map_cons, greatest_cons, List.length_cons]
    rcases orChain?_cons_eq_some_iff.mp h with ⟨rfl, rfl⟩ | ⟨tail, htail, rfl⟩
    · rw [List.length_nil]
      omega
    · -- with two operands at least, the left one has room for the disjunction above it
      have hrest := ih htail
      have hlength : 0 < rest.length := by
        cases rest with
        | nil => cases htail
        | cons => exact Nat.succ_pos _
      rw [depth_eq, parts, List.map_cons, List.map_singleton, greatest_cons, greatest_cons,
        greatest_nil]
      omega

lemma length_le_depth_orChain (h : orChain? operands = some chain) :
    operands.length ≤ chain.depth := by
  induction operands generalizing chain with
  | nil => exact Nat.zero_le _
  | cons operand rest ih =>
    rw [List.length_cons, depth_eq]
    rcases orChain?_cons_eq_some_iff.mp h with ⟨rfl, rfl⟩ | ⟨tail, htail, rfl⟩
    · exact Nat.le_add_right 1 _
    · have hrest := ih htail
      rw [parts, List.map_cons, List.map_singleton, greatest_cons, greatest_cons]
      omega

end

end SelectTree.Query.Node

namespace SelectTree.Parse

variable {kind : Kind} {fields : Json.Fields} {value : Json}

/-- The children that stand for query nodes are among those that lowering takes a step down to. -/
lemma mem_children_of_mem_parts (h : value ∈ parts kind fields) :
    value ∈ children kind (raw kind.tag fields) := by
  cases kind with
  | columnRef => cases h
  | rangeVar => cases h
  | aExpr => exact List.mem_append_left _ h
  | funcCall => exact List.mem_append_right _ h
  | _ => exact h

/-- No disjunction in a parse tree has more than `most` operands. -/
def OrsAtMost (most : Nat) (value : Json) : Prop :=
  ∀ fields operands, Within value (tagged .boolExpr fields) → HasCode fields "boolop" 1 →
    present? fields "args" = some (.array operands) → operands.length ≤ most

end SelectTree.Parse

namespace SelectTree.Lower

open Parse (Attributes EachChild HasCode Kind OrsAtMost Within parts present? raw tagged)
open Query (Node Sources)

/-! ## Growth -/

lemma greatest_map_le {α : Type} {f : α → Nat} {xs : List α} {bound : Nat}
    (h : ∀ x ∈ xs, f x ≤ bound) : greatest (xs.map f) ≤ bound := by
  induction xs with
  | nil => exact Nat.zero_le _
  | cons x xs ih =>
    rw [List.map_cons, greatest_cons]
    exact Nat.max_le.mpr ⟨h x List.mem_cons_self, ih fun y hy => h y (List.mem_cons_of_mem x hy)⟩

/-- A measure of query trees that every node but a disjunction makes greater by one, and a whole
disjunction within a parse tree by less than `factor`. -/
structure Grows (measure : Node → Nat) (factor : Nat) (value : Json) : Prop where
  two_le : 2 ≤ factor
  node : ∀ node : Node, node.isOr = false → measure node = 1 + greatest (node.parts.map measure)
  chain : ∀ {fields operands chain}, Within value (tagged .boolExpr fields) →
    HasCode fields "boolop" 1 → GivesOperands fields operands →
    Node.orChain? operands = some chain →
    1 + measure chain ≤ factor + greatest (operands.map measure)

/-- What is lowered from a parse tree measures at most `factor` for each level that it needs: the
node that it is lowered to, and the conditions of the joins that it is lowered to. -/
structure Bounded (measure : Node → Nat) (factor : Nat) (value : Json) : Prop where
  node : ∀ {context result}, Gives context value result → measure result ≤ factor * need value
  condition : ∀ {sources join on}, GivesSources value sources → join ∈ Sources.joins sources →
    join.on = some on → measure on ≤ factor * need value

section

variable {measure : Node → Nat} {factor : Nat} {kind : Kind} {fields : Json.Fields}

lemma Grows.of_part {value : Json} (h : Grows measure factor (tagged kind fields))
    (hvalue : value ∈ parts kind fields) : Grows measure factor value where
  two_le := h.two_le
  node := h.node
  chain := fun hwithin => h.chain (hwithin.of_part hvalue)

lemma Grows.node_le {value : Json} (h : Grows measure factor value) {node : Node}
    (hor : node.isOr = false) {bound : Nat} (hparts : ∀ part ∈ node.parts, measure part ≤ bound) :
    measure node ≤ 1 + bound := by
  rw [h.node node hor]
  exact Nat.add_le_add_left (greatest_map_le hparts) 1

/-- A node leaves room for `factor` levels above what its children may measure. -/
lemma factor_add_le_mul_need (factor : Nat) (kind : Kind) (fields : Json.Fields) :
    factor + factor * needBelow kind kind.tag fields ≤ factor * need (tagged kind fields) := by
  have hweight : 1 ≤ weight kind := by cases kind <;> decide
  rw [tagged, need_tagged (Kind.ofTag?_tag kind), Nat.mul_add]
  exact Nat.add_le_add_right (Nat.le_mul_of_pos_right factor hweight) _

variable (hgrows : Grows measure factor (tagged kind fields))
  (ih : EachChild (fun value => Grows measure factor value → Bounded measure factor value)
    kind.tag fields)

include hgrows ih

lemma measure_le_of_stems {part : Node} (h : Stems kind fields part) :
    measure part ≤ factor * needBelow kind kind.tag fields := by
  have hneed {value : Json} (hvalue : value ∈ parts kind fields) :
      factor * need value ≤ factor * needBelow kind kind.tag fields :=
    Nat.mul_le_mul_left factor
      (le_greatest (List.mem_map_of_mem (Parse.mem_children_of_mem_parts hvalue)))
  cases h with
  | node hvalue hgives =>
    have hbounded := ih.of_mem_parts hvalue (hgrows.of_part hvalue)
    exact Nat.le_trans (hbounded.node hgives) (hneed hvalue)
  | condition hvalue hsources hjoin hon =>
    have hbounded := ih.of_mem_parts hvalue (hgrows.of_part hvalue)
    exact Nat.le_trans (hbounded.condition hsources hjoin hon) (hneed hvalue)

/-- A part that a rule adds is a single node, or one on top of a part that stems from below. -/
lemma measure_le_of_madePart {part : Node} (h : MadePart kind fields part) :
    measure part ≤ 1 + factor * needBelow kind kind.tag fields := by
  cases h with
  | stems hstems => exact Nat.le_add_left_of_le (measure_le_of_stems hgrows ih hstems)
  | null => exact hgrows.node_le rfl fun _ hpart => by cases hpart
  | star => exact hgrows.node_le rfl fun _ hpart => by cases hpart
  | any hkind hcode hr hright =>
    subst hkind
    refine hgrows.node_le rfl fun part hpart => ?_
    obtain rfl := List.mem_singleton.mp hpart
    exact measure_le_of_stems hgrows ih (.node (Parse.right_mem_parts hcode (by decide) hr) hright)

/-- A connective leaves room for the parentheses around it. -/
lemma measure_le_of_connects {expr : Node} (hkind : kind = .boolExpr)
    (h : Connects fields expr) :
    1 + measure expr ≤ factor + factor * needBelow kind kind.tag fields := by
  have htwo := hgrows.two_le
  have hoperand {operands : List Node} (hoperands : GivesOperands fields operands) :
      ∀ operand ∈ operands, measure operand ≤ factor * needBelow kind kind.tag fields :=
    fun operand hmem => measure_le_of_stems hgrows ih (stems_of_operand hkind hoperands hmem)
  cases h with
  | @and operands _ hoperands _ =>
    have hle : measure (.and operands) ≤ _ := hgrows.node_le rfl (hoperand hoperands)
    omega
  | @or operands _ hop hoperands hchain =>
    have hle := hgrows.chain (hkind ▸ .refl _) hop hoperands hchain
    have hgreatest := greatest_map_le (hoperand hoperands)
    omega
  | @not operand _ hoperands =>
    have hle : measure (.not operand) ≤ _ := hgrows.node_le rfl (hoperand hoperands)
    omega

lemma measure_le_of_rule {context : Context} {result : Node} (h : Rule context kind fields result) :
    measure result ≤ factor * need (tagged kind fields) := by
  have htwo := hgrows.two_le
  have hroom := factor_add_le_mul_need factor kind fields
  have hstems {part : Node} (hpart : Stems kind fields part) :
      measure part ≤ factor * need (tagged kind fields) := by
    have hle := measure_le_of_stems hgrows ih hpart
    omega
  cases h with
  | makes h =>
    -- two nodes at most: the one that is made, and one that the rule puts between it and a part
    have hor : result.isOr = false := by cases h <;> rfl
    have hle := hgrows.node_le hor fun part hpart =>
      measure_le_of_madePart hgrows ih (madePart_of_makes h hpart)
    omega
  | constant hval h => exact hstems (.node (Attributes.mem_one_iff.mpr hval) h)
  | wrapped hstmt h => exact hstems (.node (Attributes.mem_one_iff.mpr hstmt) h)
  | target hval h _ => exact hstems (.node (Attributes.mem_one_iff.mpr hval) h)
  | subLink _ hselect h => exact hstems (.node (Attributes.mem_one_iff.mpr hselect) h)
  | @boolean _ expr h =>
    have hle := measure_le_of_connects hgrows ih rfl h
    cases hnested : context.nested with
    | false =>
      show measure expr ≤ _
      omega
    | true =>
      -- the parentheses take the room that a connective leaves
      have hgrouping : measure (.grouping expr) ≤ 1 + measure expr :=
        hgrows.node_le rfl fun part hpart => Nat.le_of_eq (by rw [List.mem_singleton.mp hpart])
      show measure (.grouping expr) ≤ _
      omega

end

/-- What is lowered from a parse tree is bounded by the levels that the tree needs. -/
theorem bounded {measure : Node → Nat} {factor : Nat} (value : Json) :
    Grows measure factor value → Bounded measure factor value := by
  induction value using Parse.kind_induction with
  | node kind fields ih =>
    intro hgrows
    refine ⟨fun h => measure_le_of_rule hgrows ih (gives_tagged_iff.mp h), fun h hjoin hon => ?_⟩
    have hstems := stems_of_sourceRule (givesSources_iff.mp h) hjoin hon
    have hle := measure_le_of_stems hgrows ih hstems
    have hroom := factor_add_le_mul_need factor kind fields
    omega
  | other value hvalue =>
    refine fun _ => ⟨fun h => ?_, fun h => ?_⟩
    · obtain ⟨kind, fields, heq⟩ := exists_tagged_of_gives h
      exact absurd heq (hvalue kind fields)
    · obtain ⟨kind, fields, heq⟩ := exists_tagged_of_givesSources h
      exact absurd heq (hvalue kind fields)

/-! ## Height and depth -/

lemma grows_height (value : Json) : Grows Node.height 2 value where
  two_le := Nat.le_refl 2
  node := fun node hor => by rw [Node.height_eq, Node.branches_of_not_isOr hor]
  chain := fun _ _ _ hchain => by
    have hle := Node.height_orChain_le hchain
    omega

lemma grows_depth {most : Nat} {value : Json} (hmost : 2 ≤ most) (h : OrsAtMost most value) :
    Grows Node.depth most value where
  two_le := hmost
  node := fun node _ => Node.depth_eq node
  chain := fun hwithin hop ⟨values, hvalues, hoperands⟩ hchain => by
    have hlength := h _ values hwithin hop hvalues
    rw [hoperands.length_eq] at hlength
    have hle := Node.depth_orChain_le hchain
    omega

end SelectTree.Lower

namespace SelectTree

open Lower (Gives depthCeiling greatest_map_le need needBelow)
open Parse (Attributes Kind OrsAtMost tagged)
open Query (Node)
open Query.Node (Occurs)

/-- A node of a query tree is not deeper than `levels` levels of its parse tree allow: two nodes for
each of them, where only a disjunction may bring more, one for each of its operands. -/
structure Shallow (value : Json) (levels : Nat) (node : Node) : Prop where
  height_le : node.height ≤ 2 * levels
  depth_le : ∀ most, 2 ≤ most → OrsAtMost most value → node.depth ≤ most * levels

lemma Shallow.of_grows {value : Json} {levels : Nat} {part node : Node}
    (h : ∀ measure factor, Lower.Grows measure factor value → measure part ≤ factor * levels)
    (hnode : Occurs node part) : Shallow value levels node where
  height_le :=
    Nat.le_trans (Node.le_of_occurs (fun _ _ => Node.height_le_of_mem_parts) hnode)
      (h _ _ (Lower.grows_height value))
  depth_le := fun _ hmost hors =>
    Nat.le_trans (Node.le_of_occurs (fun _ _ => Node.depth_le_of_mem_parts) hnode)
      (h _ _ (Lower.grows_depth hmost hors))

/-! ## Wide disjunctions -/

/-- The parse node of the number zero. -/
def zeroConstant : Json :=
  tagged .integer [("ival", .ofNat 0)]

/-- The parse node of a disjunction of `n` zeros. -/
def wideOr (n : Nat) : Json :=
  tagged .boolExpr [("boolop", .ofNat 1), ("args", .array (List.replicate n zeroConstant))]

lemma gives_wideOr {n : Nat} {chain : Node}
    (h : Node.orChain? (List.replicate n (.integer 0)) = some chain) :
    Gives {} (wideOr n) chain := by
  have hzero : Gives { nested := true } zeroConstant (.integer 0) :=
    Lower.gives_tagged_iff.mpr (.makes (.integer rfl rfl))
  have hoperands : List.Forall₂ (Gives { nested := true }) (List.replicate n zeroConstant)
      (List.replicate n (.integer 0)) := by
    clear h
    induction n with
    | zero => exact .nil
    | succ n ih => exact .cons hzero ih
  exact Lower.gives_tagged_iff.mpr (.boolean (.or rfl ⟨_, rfl, hoperands⟩ h))

lemma need_wideOr_le (n : Nat) : need (wideOr n) ≤ 2 := by
  have hoperands : Lower.levels (List.replicate n zeroConstant) ≤ 1 := by
    refine greatest_map_le fun value hvalue => ?_
    rw [List.eq_of_mem_replicate hvalue]
    decide
  rw [wideOr, tagged, Lower.need_tagged (Kind.ofTag?_tag .boolExpr), needBelow, Parse.children,
    Attributes.many_of_list (Attributes.list_raw_eq_ok_iff.mpr rfl)]
  exact Nat.add_le_add_left hoperands 1

lemma orsAtMost_wideOr (n : Nat) : OrsAtMost n (wideOr n) := by
  intro fields operands hwithin _ hoperands
  rcases hwithin.cases_head with heq | ⟨child, ⟨kind, fields', heq, hchild⟩, hwithin⟩
  · -- the disjunction itself
    obtain ⟨_, rfl⟩ := Parse.tagged_inj.mp heq
    cases hoperands
    exact Nat.le_of_eq List.length_replicate
  · -- one of its operands, which has no disjunction in it
    obtain ⟨rfl, rfl⟩ := Parse.tagged_inj.mp heq
    rw [Parse.parts_boolExpr rfl] at hchild
    rw [List.eq_of_mem_replicate hchild] at hwithin
    rcases hwithin.cases_head with heq | ⟨child', ⟨kind, fields', heq, hchild'⟩, _⟩
    · cases (Parse.tagged_inj.mp heq).1
    · obtain ⟨rfl, rfl⟩ := Parse.tagged_inj.mp heq
      cases hchild'

/-- **The depth limit bounds the output, but for disjunctions.** Under a limit of `d` levels,
nothing in a query node is higher than `2 * d`, and nothing in a select than `2 * (d - 1)`. Only the
operands of disjunctions count beyond that: with at most `most` of them in each, nothing is deeper
than `most` times the levels, and already two levels allow a node as deep as that many operands. -/
theorem depth_limit_bounds_height (limit : UInt64) (hlimit : limit.toNat < depthCeiling) :
    (∀ value context result,
      ((Session.fresh limit).node value context).1.result = .ok result →
      ∀ node, Occurs node result → Shallow value limit.toNat node) ∧
    (∀ value select,
      ((Session.fresh limit).statement value).1.result = .ok select →
      ∀ part ∈ select.nodes, ∀ node, Occurs node part → Shallow value (limit.toNat - 1) node) ∧
    (2 ≤ limit.toNat → ∀ most, 1 ≤ most → ∃ value result, OrsAtMost most value ∧
      ((Session.fresh limit).node value {}).1.result = .ok result ∧ most ≤ result.depth) := by
  refine ⟨fun value context result h node hnode => ?_,
    fun value select h part hpart node hnode => ?_, fun htwo most hmost => ?_⟩
  · obtain ⟨hgives, hfits⟩ := gives_of_node h
    have hneed : need value ≤ limit.toNat := (fits_fresh_iff hlimit _).mp hfits
    refine .of_grows (fun measure factor hgrows => ?_) hnode
    exact Nat.le_trans ((Lower.bounded value hgrows).node hgives) (Nat.mul_le_mul_left factor hneed)
  · obtain ⟨hgives, hfits⟩ := gives_of_statement h
    obtain ⟨fields, rfl⟩ := exists_selectStmt_of_statement h
    have hneed : need (tagged .selectStmt fields) - 8 ≤ limit.toNat :=
      (fits_fresh_iff hlimit _).mp hfits
    rw [tagged, Lower.need_tagged (Kind.ofTag?_tag .selectStmt), Lower.weight] at hneed
    -- the statement itself takes one level, and its clauses have the others
    have hbelow : needBelow .selectStmt Kind.selectStmt.tag fields ≤ limit.toNat - 1 := by omega
    refine .of_grows (fun measure factor hgrows => ?_) hnode
    have hstems := Lower.stems_of_givesSelect (Lower.givesSelect_of_gives hgives) part hpart
    have hle := Lower.measure_le_of_stems hgrows
      ⟨fun _ => Lower.bounded _, fun _ _ _ => Lower.bounded _⟩ hstems
    exact Nat.le_trans hle (Nat.mul_le_mul_left factor hbelow)
  · cases hchain : Node.orChain? (List.replicate most (.integer 0)) with
    | none =>
      have hnil := Node.orChain?_eq_none_iff.mp hchain
      rw [List.replicate_eq_nil_iff] at hnil
      omega
    | some chain =>
      have hneed : need (wideOr most) ≤ limit.toNat := Nat.le_trans (need_wideOr_le most) htwo
      have hlength := Node.length_le_depth_orChain hchain
      rw [List.length_replicate] at hlength
      exact ⟨wideOr most, chain, orsAtMost_wideOr most,
        result_of_gives (gives_wideOr hchain) hneed, hlength⟩

/-- The disjunction of five zeros. -/
def fiveZeros : Node :=
  .or (.integer 0) (.or (.integer 0) (.or (.integer 0) (.or (.integer 0) (.integer 0))))

theorem depth_limit_bounds_height_fiveZeros :
    ((Session.fresh 2).node (wideOr 5) { nested := true }).1.result = .ok (.grouping fiveZeros) ∧
      (Node.grouping fiveZeros).height ≤ 2 * 2 ∧
      2 * 2 < (Node.grouping fiveZeros).depth ∧ (Node.grouping fiveZeros).depth ≤ 5 * 2 ∧
      ((Session.fresh 3).statement (tagged .selectStmt [("whereClause", wideOr 5)])).1.result =
        .ok { wheres := [fiveZeros] } ∧
      fiveZeros.height ≤ 2 * (3 - 1) := by
  have hgrouping :
      ((Session.fresh 2).node (wideOr 5) { nested := true }).1.result = .ok (.grouping fiveZeros) :=
    rfl
  have hselect : ((Session.fresh 3).statement
      (tagged .selectStmt [("whereClause", wideOr 5)])).1.result = .ok { wheres := [fiveZeros] } :=
    rfl
  obtain ⟨hnode, _⟩ := depth_limit_bounds_height 2 (by decide)
  obtain ⟨_, hstatement, _⟩ := depth_limit_bounds_height 3 (by decide)
  have hshallow := hnode _ _ _ hgrouping (.grouping fiveZeros) (.refl _)
  have hfilter := hstatement _ _ hselect fiveZeros List.mem_cons_self fiveZeros (.refl _)
  have hdepth : (Node.grouping fiveZeros).depth = 6 := by
    simp [fiveZeros, Node.depth_eq, Node.parts]
  exact ⟨hgrouping, hshallow.height_le, by omega,
    hshallow.depth_le 5 (by decide) (orsAtMost_wideOr 5), hselect, hfilter.height_le⟩

end SelectTree
