import SelectTree.Proofs.Precedence

/-!
# Operands of comparisons

A boolean expression is put in parentheses as an argument of another one, and nowhere else: each
node chooses the contexts of its children afresh, and a comparison, a membership or a null test
lowers its operands as it would lower them alone. So an operand of one of these can be a bare
connective, as in `(a OR b) IS NULL`. `compared_connectives_exact` says for filters exactly which
operands are.
-/

namespace SelectTree.Query.Node

/-- The operands of a comparison, a membership or `ANY`. -/
def compared : Node → List Node
  | .comparison _ left right => [left, right]
  | .inList expr list _ => expr :: list
  | .function name args => if name = "ANY" then args else []
  | _ => []

/-- No operand of a comparison in a query tree is a bare connective. -/
def ComparesPlain (whole : Node) : Prop :=
  ∀ node, Occurs node whole → ∀ operand ∈ node.compared, operand.isConnective = false

lemma mem_parts_of_mem_compared {node operand : Node} (h : operand ∈ node.compared) :
    operand ∈ node.parts := by
  cases node with
  | function name args =>
    rw [compared] at h
    split at h
    · exact h
    · cases h
  | comparison | inList => exact h
  | _ => cases h

/-- In a chain of disjunctions occurs each of its operands. -/
lemma occurs_of_mem_orChain {operands : List Node} {chain operand : Node}
    (hchain : orChain? operands = some chain) (hoperand : operand ∈ operands) :
    Occurs operand chain := by
  induction operands generalizing chain with
  | nil => cases hoperand
  | cons first rest ih =>
    rcases orChain?_cons_eq_some_iff.mp hchain with ⟨rfl, rfl⟩ | ⟨tail, htail, rfl⟩
    · obtain rfl := List.mem_singleton.mp hoperand
      exact .refl operand
    · rcases List.mem_cons.mp hoperand with rfl | hoperand
      · exact (Occurs.refl operand).of_part (List.mem_pair.mpr (.inl rfl))
      · exact (ih htail hoperand).of_part (List.mem_pair.mpr (.inr rfl))

lemma isConnective_orChain_iff {operands : List Node} {chain : Node}
    (h : ∀ operand ∈ operands, operand.isConnective = false)
    (hchain : orChain? operands = some chain) :
    chain.isConnective = true ↔ 2 ≤ operands.length := by
  cases operands with
  | nil => cases hchain
  | cons operand rest =>
    rcases orChain?_cons_eq_some_iff.mp hchain with ⟨rfl, rfl⟩ | ⟨tail, htail, rfl⟩
    · simp [h chain List.mem_cons_self]
    · cases rest with
      | nil => cases htail
      | cons => simp [isConnective]

end SelectTree.Query.Node

namespace SelectTree

open Lower (Built Connects Gives Makes)
open Parse (Attributes HasCode Kind Within parts present? tagged)
open Query (Node)
open Query.Node (Occurs)

/-- A parse tree stands within another one as an operand of a comparison, a membership or a null
test. -/
def ComparedWithin (value operand : Json) : Prop :=
  ∃ kind fields, kind ∈ [Kind.aExpr, .nullTest] ∧ Within value (tagged kind fields) ∧
    operand ∈ parts kind fields

/-- A boolean expression that is a connective where it stands alone: any but a disjunction of a
single operand. -/
def BareBoolean (value : Json) : Prop :=
  ∃ fields code args, value = tagged .boolExpr fields ∧ HasCode fields "boolop" code ∧
    present? fields "args" = some (.array args) ∧ (code = 1 → 2 ≤ args.length)

/-- Which operands of comparisons in the output for a parse tree are bare connectives. -/
structure ComparesExactly (value : Json) (result : Node) : Prop where
  /-- One that is a connective comes from a boolean expression that is compared. -/
  only : ∀ node, Occurs node result → ∀ operand ∈ node.compared, operand.isConnective = true →
    ∃ source, ComparedWithin value source ∧ BareBoolean source ∧ Gives {} source operand
  /-- Whatever is compared becomes an operand, and such boolean expressions become connectives. -/
  each : ∀ source, ComparedWithin value source →
    ∃ node, Occurs node result ∧ ∃ operand ∈ node.compared, Gives {} source operand ∧
      (operand.isConnective = true ↔ BareBoolean source)

variable {context : Context} {value : Json} {result : Node}

/-! ## Boolean expressions that stand alone -/

/-- A filter that stands alone is lowered to a connective exactly if it is a boolean expression of
more than a single disjunct. -/
lemma FilterTree.isConnective_iff (h : FilterTree value) (hresult : Gives {} value result) :
    result.isConnective = true ↔ BareBoolean value := by
  by_cases hboolean : Parse.IsBoolean value
  · obtain ⟨fields, rfl⟩ := hboolean
    have hplain := plainArguments_of_filterTree h
    cases Lower.gives_tagged_iff.mp hresult with
    | makes hmakes => cases hmakes
    | boolean hexpr =>
      cases hexpr with
      | and hop hoperands _ =>
        obtain ⟨args, hargs, _⟩ := hoperands
        refine ⟨fun _ => ⟨fields, 0, args, rfl, hop, hargs, fun h => ?_⟩, fun _ => rfl⟩
        exact absurd h (by decide)
      | not hop hoperands =>
        obtain ⟨args, hargs, _⟩ := hoperands
        refine ⟨fun _ => ⟨fields, 2, args, rfl, hop, hargs, fun h => ?_⟩, fun _ => rfl⟩
        exact absurd h (by decide)
      | or hop hoperands hchain =>
        obtain ⟨args, hargs, hoperands⟩ := hplain.operands (.refl _) hoperands
        refine (Node.isConnective_orChain_iff (plain_of_operands hoperands) hchain).trans ?_
        rw [← hoperands.length_eq]
        constructor
        · intro htwo
          exact ⟨fields, 1, args, rfl, hop, hargs, fun _ => htwo⟩
        · rintro ⟨fields', code, args', heq, hop', hargs', htwo⟩
          obtain ⟨_, rfl⟩ := Parse.tagged_inj.mp heq
          rw [hargs] at hargs'
          cases hargs'
          exact htwo (hop'.unique hop)
  · have hplain := h.plain hboolean hresult
    constructor
    · intro hconnective
      rw [hplain] at hconnective
      cases hconnective
    · rintro ⟨fields, _, _, rfl, _⟩
      exact absurd ⟨fields, rfl⟩ hboolean

/-! ## Where operands come from -/

lemma FilterTree.of_compared {operand : Json} (h : FilterTree value)
    (hoperand : ComparedWithin value operand) : FilterTree operand := by
  obtain ⟨kind, fields, hkind, hwithin, hpart⟩ := hoperand
  rcases h.of_within hwithin with hfilter | ⟨kind', inner, hkind', heq⟩
  · rcases hfilter.cases_tagged with rfl | ⟨rfl, _⟩ | ⟨_, hparts⟩
    · exact absurd hkind (by decide)
    · exact absurd hkind (by decide)
    · exact hparts operand hpart
  · obtain ⟨rfl, _⟩ := Parse.tagged_inj.mp heq
    rcases List.mem_pair.mp hkind' with rfl | rfl <;> exact absurd hkind (by decide)

/-- An operand of a comparison that is a connective comes from an operand of a comparison. -/
lemma exists_compared_of_built {node operand : Node} (h : Built value node)
    (hoperand : operand ∈ node.compared) (hconnective : operand.isConnective = true) :
    ∃ source, ComparedWithin value source ∧ Gives {} source operand := by
  have hcompared {kind : Kind} {fields : Json.Fields} {source : Json} :=
    fun (hkind : kind ∈ [Kind.aExpr, .nullTest]) (hwithin : Within value (tagged kind fields))
      (hpart : source ∈ parts kind fields) =>
    (⟨kind, fields, hkind, hwithin, hpart⟩ : ComparedWithin value source)
  cases h with
  | made hwithin hmakes =>
    cases hmakes with
    | compare hcode hl hleft hr hright _ =>
      rcases List.mem_pair.mp hoperand with rfl | rfl
      · exact ⟨_, hcompared (by decide) hwithin (Parse.left_mem_parts hl), hleft⟩
      · have hpart := Parse.right_mem_parts hcode (by decide) hr
        exact ⟨_, hcompared (by decide) hwithin hpart, hright⟩
    | compareAny _ hl hleft _ _ _ =>
      rcases List.mem_pair.mp hoperand with rfl | rfl
      · exact ⟨_, hcompared (by decide) hwithin (Parse.left_mem_parts hl), hleft⟩
      · cases hconnective
    | inList hcode hl hexpr hr hlist _ =>
      rcases List.mem_cons.mp hoperand with rfl | hoperand
      · exact ⟨_, hcompared (by decide) hwithin (Parse.left_mem_parts hl), hexpr⟩
      · obtain ⟨source, hsource, hgives⟩ := Lower.exists_mem_left hlist hoperand
        refine ⟨source, hcompared (by decide) hwithin ?_, hgives⟩
        rw [Parse.parts_inList hcode hl hr]
        exact List.mem_cons_of_mem _ hsource
    | isNull harg hvalue _ | isNotNull harg hvalue _ =>
      rcases List.mem_pair.mp hoperand with rfl | rfl
      · refine ⟨_, hcompared (by decide) hwithin ?_, hvalue⟩
        rw [Parse.parts_nullTest harg]
        exact List.mem_singleton_self _
      · cases hconnective
    | _ => cases hoperand
  | any hwithin hcode hr hright =>
    obtain rfl := List.mem_singleton.mp hoperand
    have hpart := Parse.right_mem_parts hcode (by decide) hr
    exact ⟨_, hcompared (by decide) hwithin hpart, hright⟩
  | _ => cases hoperand

/-! ## Where operands go -/

/-- An operand of a comparison becomes an operand of a comparison. -/
lemma exists_compared_of_gives {kind : Kind} {fields : Json.Fields} {source : Json}
    (hkind : kind ∈ [Kind.aExpr, .nullTest]) (hresult : Gives context (tagged kind fields) result)
    (hpart : source ∈ parts kind fields) :
    ∃ node operand, Occurs node result ∧ operand ∈ node.compared ∧ Gives {} source operand := by
  have hone {key : String} {value : Json} (hsource : present? fields key = some source)
      (hvalue : present? fields key = some value) : source = value :=
    Option.some.inj (hsource.symm.trans hvalue)
  cases Lower.gives_tagged_iff.mp hresult with
  | makes hmakes =>
    cases hmakes with
    | compare hcode hl hleft hr hright _ =>
      rw [Parse.parts_operation hcode (by decide), List.mem_append, Attributes.mem_one_iff,
        Attributes.mem_one_iff] at hpart
      rcases hpart with hpart | hpart
      · obtain rfl := hone hpart hl
        exact ⟨_, _, .refl _, List.mem_cons_self, hleft⟩
      · obtain rfl := hone hpart hr
        exact ⟨_, _, .refl _, List.mem_pair.mpr (.inr rfl), hright⟩
    | compareAny hcode hl hleft hr hright _ =>
      rw [Parse.parts_operation hcode (by decide), List.mem_append, Attributes.mem_one_iff,
        Attributes.mem_one_iff] at hpart
      rcases hpart with hpart | hpart
      · obtain rfl := hone hpart hl
        exact ⟨_, _, .refl _, List.mem_cons_self, hleft⟩
      · -- the right side is an operand of `ANY`, which is the operand of the comparison
        obtain rfl := hone hpart hr
        exact ⟨_, _, (Occurs.refl _).of_part (List.mem_pair.mpr (.inr rfl)), List.mem_cons_self,
          hright⟩
    | inList hcode hl hexpr hr hlist _ =>
      rw [Parse.parts_inList hcode hl hr, List.mem_cons] at hpart
      rcases hpart with rfl | hpart
      · exact ⟨_, _, .refl _, List.mem_cons_self, hexpr⟩
      · obtain ⟨operand, hoperand, hgives⟩ := Lower.exists_mem_right hlist hpart
        exact ⟨_, operand, .refl _, List.mem_cons_of_mem _ hoperand, hgives⟩
    | isNull harg hvalue _ | isNotNull harg hvalue _ =>
      rw [Parse.parts_nullTest harg, List.mem_singleton] at hpart
      obtain rfl := hpart
      exact ⟨_, _, .refl _, List.mem_cons_self, hvalue⟩
    | _ => exact absurd hkind (by decide)
  | _ => exact absurd hkind (by decide)

/-- An argument of a boolean expression becomes an operand of it. -/
lemma exists_occurs_of_connects {fields : Json.Fields} {arg : Json} {expr : Node}
    (h : Connects fields expr) (harg : arg ∈ parts .boolExpr fields) :
    ∃ operand, Gives { nested := true } arg operand ∧ Occurs operand expr := by
  have hoperand {operands : List Node} (hoperands : Lower.GivesOperands fields operands) :
      ∃ operand ∈ operands, Gives { nested := true } arg operand := by
    obtain ⟨args, hargs, hoperands⟩ := hoperands
    rw [Parse.parts_boolExpr hargs] at harg
    exact Lower.exists_mem_right hoperands harg
  cases h with
  | and _ hoperands _ =>
    obtain ⟨operand, hmem, hgives⟩ := hoperand hoperands
    exact ⟨operand, hgives, (Occurs.refl operand).of_part hmem⟩
  | or _ hoperands hchain =>
    obtain ⟨operand, hmem, hgives⟩ := hoperand hoperands
    exact ⟨operand, hgives, Node.occurs_of_mem_orChain hchain hmem⟩
  | not _ hoperands =>
    obtain ⟨operand, hmem, hgives⟩ := hoperand hoperands
    exact ⟨operand, hgives, (Occurs.refl operand).of_part hmem⟩

/-- What a part of a filter is lowered to occurs in what the filter is lowered to. -/
lemma FilterTree.exists_occurs_of_part {kind : Kind} {fields : Json.Fields} {part : Json}
    (h : FilterTree (tagged kind fields)) (hresult : Gives context (tagged kind fields) result)
    (hpart : part ∈ parts kind fields) :
    ∃ context' node, Gives context' part node ∧ Occurs node result := by
  rcases h.cases_tagged with rfl | ⟨rfl, _⟩ | ⟨hkind, _⟩
  · cases hpart
  · cases Lower.gives_tagged_iff.mp hresult with
    | makes hmakes => cases hmakes
    | constant hval hvalue =>
      rw [Parse.parts_constant hval, List.mem_singleton] at hpart
      exact ⟨_, result, hpart ▸ hvalue, .refl result⟩
  · by_cases hboolean : kind = .boolExpr
    · subst hboolean
      cases Lower.gives_tagged_iff.mp hresult with
      | makes hmakes => cases hmakes
      | boolean hexpr =>
        obtain ⟨operand, hgives, hoccurs⟩ := exists_occurs_of_connects hexpr hpart
        refine ⟨_, operand, hgives, ?_⟩
        split
        · exact hoccurs.of_part (List.mem_singleton_self _)
        · exact hoccurs
    · have hkind : kind ∈ [Kind.aExpr, .nullTest] := by
        simp only [List.mem_cons, List.not_mem_nil, or_false] at hkind ⊢
        tauto
      obtain ⟨node, operand, hnode, hoperand, hgives⟩ :=
        exists_compared_of_gives hkind hresult hpart
      exact ⟨_, operand, hgives, ((Occurs.refl operand).of_part
        (Node.mem_parts_of_mem_compared hoperand)).trans hnode⟩

lemma FilterTree.exists_occurs {part : Json} (h : FilterTree value)
    (hresult : Gives context value result) (hpart : Within value part) :
    ∃ context' node, Gives context' part node ∧ Occurs node result := by
  induction hpart with
  | refl => exact ⟨context, result, hresult, .refl result⟩
  | tail hwithin hstep ih =>
    obtain ⟨kind, fields, rfl, hstep⟩ := hstep
    obtain ⟨context', node, hnode, hoccurs⟩ := ih
    rcases h.of_within hwithin with hfilter | ⟨kind', inner, hkind, heq⟩
    · obtain ⟨context'', inner, hinner, hoccurs'⟩ := hfilter.exists_occurs_of_part hnode hstep
      exact ⟨context'', inner, hinner, hoccurs'.trans hoccurs⟩
    · obtain ⟨rfl, rfl⟩ := Parse.tagged_inj.mp heq
      rcases List.mem_pair.mp hkind with rfl | rfl <;> cases hstep

/-! ## The operands that are bare -/

/-- The parse tree of a test for null. -/
def nullTestTree (arg : Json) : Json :=
  tagged .nullTest [("arg", arg), ("nulltesttype", .ofNat 0)]

/-- The parse tree of `(a OR b) IS NULL`. -/
def testedDisjunction : Json :=
  nullTestTree (booleanTree 1 [columnTree "a", columnTree "b"])

lemma filterTree_testedDisjunction : FilterTree testedDisjunction := by
  refine .nullTest fun part hpart => ?_
  rw [Parse.parts_nullTest rfl, List.mem_singleton] at hpart
  subst hpart
  exact filterTree_booleanTree (by simp [filterTree_columnTree])

/-- A disjunction that is tested for null stands bare on the left of the comparison with null. -/
theorem tested_disjunction_bare :
    FilterTree testedDisjunction ∧
      (({} : Session).node testedDisjunction {}).1.result =
        .ok (.comparison .equality (.or (.column "\"a\"") (.column "\"b\"")) .null) ∧
      ¬ Node.ComparesPlain
        (.comparison .equality (.or (.column "\"a\"") (.column "\"b\"")) .null) := by
  refine ⟨filterTree_testedDisjunction, rfl, fun h => ?_⟩
  cases h _ (.refl _) _ List.mem_cons_self

/-- **Which operands of comparisons are bare connectives.** In the output for a filter, an operand
of a comparison, a membership or `ANY` is a bare conjunction, disjunction or negation only where the
operand was a boolean expression itself, of more than a single disjunct; and there it is. -/
theorem compared_connectives_exact (session : Session) (value : Json) (h : FilterTree value)
    (context : Context) (result : Node)
    (hresult : (session.node value context).1.result = .ok result) :
    ComparesExactly value result := by
  have hgives := (gives_of_node hresult).1
  refine ⟨fun node hnode operand hoperand hconnective => ?_, fun source hsource => ?_⟩
  · obtain ⟨source, hsource, hoperand⟩ :=
      exists_compared_of_built (Lower.built_of_occurs hgives hnode) hoperand hconnective
    have hbare := ((h.of_compared hsource).isConnective_iff hoperand).mp hconnective
    exact ⟨source, hsource, hbare, hoperand⟩
  · have hfilter := h.of_compared hsource
    obtain ⟨kind, fields, hkind, hwithin, hpart⟩ := hsource
    obtain ⟨context', whole, hwhole, hoccurs⟩ := h.exists_occurs hgives hwithin
    obtain ⟨node, operand, hnode, hoperand, hsource⟩ :=
      exists_compared_of_gives hkind hwhole hpart
    exact ⟨node, hnode.trans hoccurs, operand, hoperand, hsource, hfilter.isConnective_iff hsource⟩

/-- The parse tree of `c IN (NOT a, b)`, where `b` is a disjunction of one operand. -/
def listedNegation : Json :=
  tagged .aExpr [
    ("kind", .ofNat 7),
    ("name", .array [tagged .string [("str", .string "=")]]),
    ("lexpr", columnTree "c"),
    ("rexpr", .array [booleanTree 2 [columnTree "a"], booleanTree 1 [columnTree "b"]])]

lemma filterTree_listedNegation : FilterTree listedNegation := by
  have hboolean (code : Nat) (name : String) : FilterTree (booleanTree code [columnTree name]) :=
    filterTree_booleanTree (by simp [filterTree_columnTree])
  have hseven : (7 : Int64) ∈ ([0, 1, 7] : List Int64) := by decide
  refine .operation rfl hseven fun part hpart => ?_
  replace hpart : part ∈ [columnTree "c", booleanTree 2 [columnTree "a"],
    booleanTree 1 [columnTree "b"]] := hpart
  simp only [List.mem_cons, List.not_mem_nil, or_false] at hpart
  rcases hpart with rfl | rfl | rfl
  · exact filterTree_columnTree "c"
  · exact hboolean 2 "a"
  · exact hboolean 1 "b"

/-- The parse tree of `(a OR b) IS NULL AND c IN (NOT a, b)`. -/
def comparedFilter : Json :=
  booleanTree 0 [testedDisjunction, listedNegation]

lemma filterTree_comparedFilter : FilterTree comparedFilter :=
  filterTree_booleanTree (by simp [filterTree_testedDisjunction, filterTree_listedNegation])

theorem compared_connectives_exact_comparedFilter :
    FilterTree comparedFilter ∧
      ComparesExactly comparedFilter (.and [
        .comparison .equality (.or (.column "\"a\"") (.column "\"b\"")) .null,
        .inList (.column "\"c\"") [.not (.column "\"a\""), .column "\"b\""] false]) :=
  ⟨filterTree_comparedFilter,
    compared_connectives_exact {} comparedFilter filterTree_comparedFilter {} _ rfl⟩

end SelectTree
