import Mathlib.Data.List.Induction
import SelectTree.Proofs.Meaning

/-!
# Selects and the steps that build them

A step gives one clause of a select and leaves the others alone. Projections, limit and offset are
replaced, and conditions, orderings and joins are added at the end; so of a sequence of steps only
the arguments for each clause matter, not how the steps for different clauses are interleaved.
`gathered` is the select that these arguments make, and `build_eq_gathered` shows that it is the one
that the steps build. `select_determined_by_arguments` is the main result.
-/

namespace SelectTree.Query

/-! ## The arguments of steps -/

/-- The clauses that steps give. -/
inductive Clause where
  | projections
  | limit
  | offset
  | wheres
  | orders
  | joins
deriving DecidableEq

/-- What a step gives for a clause. -/
abbrev Clause.Argument : Clause → Type
  | .projections => List Node
  | .limit | .offset => Option Node
  | .wheres | .orders => Node
  | .joins => Join Node

/-- The argument of a step for a clause, if the step gives that clause. -/
def Step.argument? : (clause : Clause) → Step → Option clause.Argument
  | .projections, .project nodes => some nodes
  | .limit, .limit node => some node
  | .offset, .offset node => some node
  | .wheres, .where condition => some condition
  | .orders, .order ordering => some ordering
  | .joins, .join joined => some joined
  | _, _ => none

/-- The arguments of all steps for a clause, in order. -/
def arguments (clause : Clause) (steps : List Step) : List clause.Argument :=
  steps.filterMap (Step.argument? clause)

lemma arguments_concat (clause : Clause) (steps : List Step) (step : Step) :
    arguments clause (steps ++ [step]) =
      arguments clause steps ++ (step.argument? clause).toList := by
  rw [arguments, List.filterMap_append, ← arguments]
  cases h : step.argument? clause <;> simp [h]

lemma arguments_wheres_eq_nil_iff {steps : List Step} :
    arguments .wheres steps = [] ↔ ∀ condition, .where condition ∉ steps := by
  rw [arguments, List.filterMap_eq_nil_iff]
  constructor
  · intro h condition hmem
    cases h _ hmem
  · intro h step hmem
    cases step with
    | «where» condition => exact absurd hmem (h condition)
    | _ => rfl

namespace Select

/-- The select with the last projections, limit and offset that steps give, if any, and with all
conditions, orderings and joins. -/
def gathered (source : Option (List Table)) (steps : List Step) : Select where
  source := source
  projections := (arguments .projections steps).getLast?.getD []
  wheres := arguments .wheres steps
  orders := arguments .orders steps
  joins := arguments .joins steps
  limit := (arguments .limit steps).getLast?.getD none
  offset := (arguments .offset steps).getLast?.getD none

lemma apply_gathered (source : Option (List Table)) (steps : List Step) (step : Step) :
    (gathered source steps).apply step = gathered source (steps ++ [step]) := by
  cases step <;>
    simp [gathered, arguments_concat, Step.argument?, apply, Clauses.project, Clauses.setLimit,
      Clauses.setOffset, Clauses.addWhere, Clauses.addOrder, Clauses.addJoin]

lemma build_eq_gathered (source : Option (List Table)) (steps : List Step) :
    build source steps = gathered source steps := by
  induction steps using List.reverseRecOn with
  | nil => rfl
  | append_singleton steps step ih =>
    rw [build, List.foldl_concat, ← build, ih, apply_gathered]

/-- Steps with the same arguments for each clause build the same. -/
lemma build_congr (source : Option (List Table)) {steps others : List Step}
    (h : ∀ clause, arguments clause others = arguments clause steps) :
    build source others = build source steps := by
  simp only [build_eq_gathered, gathered, h]

lemma filter?_eq_none_iff {select : Select} : select.filter? = none ↔ select.wheres = [] := by
  unfold filter?
  split
  · next hnil => simp [hnil]
  · next only honly => simp [honly]
  · next conditions hne _ => simpa using hne

end Select

end SelectTree.Query

namespace SelectTree

open Query (Node Select Step Table arguments)
open Query.Select (gathered build)

/-! ## The truth of a filter -/

/-- The conjunction of any number of truth values. -/
def Truth.conjunction (values : List Truth) : Truth :=
  values.foldr .and .true

lemma Truth.conjunction_singleton (value : Truth) : conjunction [value] = value := by
  cases value <;> rfl

/-- A valuation of nodes reads conjunctions as what they are. Without operands they have no
meaning. -/
def ReadsConjunctions (truth : Node → Truth) : Prop :=
  ∀ operands, operands ≠ [] → truth (.and operands) = Truth.conjunction (operands.map truth)

/-- However many conditions a select has, its filter stands for all of them. -/
lemma truth_filter? {truth : Node → Truth} (h : ReadsConjunctions truth) {select : Select}
    {filter : Node} (hfilter : select.filter? = some filter) :
    truth filter = Truth.conjunction (select.wheres.map truth) := by
  unfold Select.filter? at hfilter
  split at hfilter
  · cases hfilter
  · next only honly =>
    cases hfilter
    rw [honly, List.map_singleton, Truth.conjunction_singleton]
  · next conditions hne _ =>
    cases hfilter
    exact h select.wheres hne

namespace Query

mutual

/-- The valuation that reads conjunctions, and takes from `plain` what all other nodes are. -/
def Node.truth (plain : Node → Truth) : Node → Truth
  | .and operands => Truth.conjunction (truths plain operands)
  | node@(.table _) | node@(.column _) | node@(.literal _) | node@(.integer _) | node@.null
  | node@.star | node@(.as _ _) | node@(.comparison _ _ _) | node@(.inList _ _ _)
  | node@(.or _ _) | node@(.not _) | node@(.grouping _) | node@(.function _ _)
  | node@(.aggregate _ _ _) | node@(.order _ _) | node@(.select _) => plain node

/-- The valuation of a list of nodes. -/
def truths (plain : Node → Truth) : List Node → List Truth
  | [] => []
  | node :: rest => node.truth plain :: truths plain rest

end

lemma truths_eq_map (plain : Node → Truth) (nodes : List Node) :
    truths plain nodes = nodes.map (Node.truth plain) := by
  induction nodes with
  | nil => rfl
  | cons node rest ih => rw [truths, ih, List.map_cons]

end Query

/-- Whatever the other nodes are, there is a valuation that reads conjunctions. -/
lemma readsConjunctions_truth (plain : Node → Truth) : ReadsConjunctions (Node.truth plain) := by
  intro operands _
  rw [Node.truth, Query.truths_eq_map]

/-! ## What steps build -/

/-- **A select is determined by the arguments of its steps for each clause.** Whatever the steps
are, the source stays; projections, limit and offset are the last given, if any are; conditions,
orderings and joins are all that were given, in order. So steps with the same arguments for each
clause build the same select, however they are interleaved. There is no filter exactly if no step
adds a condition, and otherwise the filter is true, false or unknown as the conjunction of all
conditions is, in every valuation of nodes that reads conjunctions. -/
theorem select_determined_by_arguments (source : Option (List Table)) (steps : List Step) :
    build source steps = gathered source steps ∧
    (∀ others, (∀ clause, arguments clause others = arguments clause steps) →
      build source others = build source steps) ∧
    ((build source steps).filter? = none ↔ ∀ condition, .where condition ∉ steps) ∧
    ∀ truth, ReadsConjunctions truth → ∀ filter, (build source steps).filter? = some filter →
      truth filter = Truth.conjunction ((arguments .wheres steps).map truth) := by
  have hbuild := Select.build_eq_gathered source steps
  refine ⟨hbuild, fun others => Select.build_congr source, ?_,
    fun truth hreads filter hfilter => ?_⟩
  · rw [Select.filter?_eq_none_iff, hbuild]
    exact Query.arguments_wheres_eq_nil_iff
  · rw [truth_filter? hreads hfilter, hbuild]
    rfl

/-- Steps for four clauses, in any order; projections and limit are given twice. -/
def interleavedSteps : List Step :=
  [.where (.and [.column "a", .column "b"]), .limit (some (.integer 5)), .project [.star],
    .order (.order (.column "a") .desc), .limit none, .where (.column "c"), .project [.column "a"]]

/-- The steps of `interleavedSteps`, clause by clause. -/
def sortedSteps : List Step :=
  [.project [.star], .project [.column "a"], .limit (some (.integer 5)), .limit none,
    .order (.order (.column "a") .desc), .where (.and [.column "a", .column "b"]),
    .where (.column "c")]

/-- The valuation in which column `b` is unknown and everything else is true. -/
def truthButB : Node → Truth :=
  Node.truth fun node => if node.fragment? = some "b" then .unknown else .true

theorem select_determined_by_arguments_interleavedSteps :
    build none interleavedSteps =
      { projections := [.column "a"],
        wheres := [.and [.column "a", .column "b"], .column "c"],
        orders := [.order (.column "a") .desc] } ∧
    build none sortedSteps = build none interleavedSteps ∧
    ∃ filter, (build none interleavedSteps).filter? = some filter ∧
      truthButB filter = .unknown := by
  obtain ⟨hbuild, hothers, hnone, htruth⟩ := select_determined_by_arguments none interleavedSteps
  have hsome : (build none interleavedSteps).filter? ≠ none := fun hfilter =>
    hnone.mp hfilter (.column "c") (by simp [interleavedSteps])
  obtain ⟨filter, hfilter⟩ := Option.ne_none_iff_exists'.mp hsome
  have hvalue := htruth truthButB (readsConjunctions_truth _) filter hfilter
  refine ⟨hbuild, hothers sortedSteps fun clause => ?_, filter, hfilter, hvalue.trans rfl⟩
  cases clause <;> rfl

end SelectTree
