import Mathlib.Algebra.GroupWithZero.Nat
import Mathlib.Tactic.Lemma
import SelectTree.Query.Build

/-!
# Chains of disjunctions

A chain nests its operands to the right, and an operand may be a disjunction of any shape itself. So
a chain alone does not tell how many operands it has, but with their number it gives them all back:
`walkRight` takes the steps down the right side.

Everything follows from `orChain?_append`: operands that are put in front of others nest around the
chain of those by a right fold. `or_chain_decodable` is the main result.
-/

namespace SelectTree.Query.Node

/-! ## Walking and counting -/

/-- The two sides of a disjunction. -/
def sides? : Node → Option (Node × Node)
  | .or left right => some (left, right)
  | _ => none

/-- Takes a number of steps down the right side of nested disjunctions: what stands on the left on
the way, and the node at the end. Every step needs a disjunction. -/
def walkRight : Nat → Node → Option (List Node × Node)
  | 0, node => some ([], node)
  | steps + 1, node => do
    let (left, right) ← node.sides?
    (right.walkRight steps).map fun (passed, last) => (left :: passed, last)

/-- The number of disjunctions at the top of a node: those that are reached from it through
disjunctions only. -/
def disjunctions : Node → Nat
  | .or left right => 1 + left.disjunctions + right.disjunctions
  | .table _ | .column _ | .literal _ | .integer _ | .null | .star | .as _ _ | .comparison _ _ _
  | .inList _ _ _ | .and _ | .not _ | .grouping _ | .function _ _ | .aggregate _ _ _ | .order _ _
  | .select _ => 0

lemma walkRight_foldr (before : List Node) (last : Node) :
    walkRight before.length (before.foldr .or last) = some (before, last) := by
  induction before with
  | nil => rfl
  | cons operand before ih =>
    simp only [List.length_cons, List.foldr_cons, walkRight, sides?, Option.bind_eq_bind,
      Option.bind_some, ih, Option.map_some]

lemma disjunctions_foldr (before : List Node) (last : Node) :
    (before.foldr .or last).disjunctions =
      before.length + ((before ++ [last]).map disjunctions).sum := by
  induction before with
  | nil => simp
  | cons operand before ih =>
    rw [List.foldr_cons, disjunctions, ih, List.cons_append, List.map_cons, List.sum_cons,
      List.length_cons]
    omega

/-! ## Chains as folds -/

section

variable {operands others : List Node} {chain : Node}

/-- Operands in front of others nest around the chain of those. -/
lemma orChain?_append (before : List Node) (h : orChain? operands = some chain) :
    orChain? (before ++ operands) = some (before.foldr .or chain) := by
  induction before with
  | nil => exact h
  | cons operand before ih => rw [List.cons_append, orChain?, ih, List.foldr_cons]

lemma orChain?_concat (before : List Node) (last : Node) :
    orChain? (before ++ [last]) = some (before.foldr .or last) :=
  orChain?_append before rfl

lemma orChain?_eq_foldr (hne : operands ≠ []) :
    orChain? operands = some (operands.dropLast.foldr .or (operands.getLast hne)) := by
  rw [← orChain?_concat, List.dropLast_concat_getLast]

/-- From the last operand on, a chain grows to the left. -/
lemma orChain?_reverse_cons (last : Node) (rest : List Node) :
    orChain? (last :: rest).reverse =
      some (rest.foldl (fun chain operand => .or operand chain) last) := by
  rw [List.reverse_cons, orChain?_concat, List.foldr_reverse]

/-- With the number of its operands, a chain gives them back. -/
lemma walkRight_of_orChain? (hne : operands ≠ []) (h : orChain? operands = some chain) :
    chain.walkRight (operands.length - 1) = some (operands.dropLast, operands.getLast hne) := by
  rw [orChain?_eq_foldr hne, Option.some.injEq] at h
  rw [← h, ← List.length_dropLast, walkRight_foldr]

lemma disjunctions_of_orChain? (hne : operands ≠ []) (h : orChain? operands = some chain) :
    chain.disjunctions = operands.length - 1 + (operands.map disjunctions).sum := by
  rw [orChain?_eq_foldr hne, Option.some.injEq] at h
  rw [← h, disjunctions_foldr, List.length_dropLast, List.dropLast_concat_getLast]

/-- As many operands have the same chain only if they are the same. -/
lemma eq_of_orChain?_eq (hlength : operands.length = others.length)
    (h : orChain? operands = orChain? others) : operands = others := by
  cases hchain : orChain? others with
  | none =>
    rw [orChain?_eq_none_iff.mp hchain, orChain?_eq_none_iff.mp (h.trans hchain)]
  | some chain =>
    have hne : operands ≠ [] := fun hnil => by simp [← h, hnil, orChain?] at hchain
    have hne' : others ≠ [] := fun hnil => by simp [hnil, orChain?] at hchain
    -- one walk down the chain finds both
    have hwalk := walkRight_of_orChain? hne (h.trans hchain)
    rw [hlength, walkRight_of_orChain? hne' hchain, Option.some.injEq, Prod.mk.injEq] at hwalk
    rw [← List.dropLast_concat_getLast hne, ← List.dropLast_concat_getLast hne', hwalk.1, hwalk.2]

end

end SelectTree.Query.Node

namespace SelectTree

open Query (Node)
open Query.Node (disjunctions orChain?)

/-- **A chain of disjunctions is nested to the right, complete, and can be taken apart.** Only no
operands have no chain, and a single operand is its own. Operands in front of others nest around the
chain of those, each on the left of what follows it; seen from its last operand, a chain grows to
the left. A walk down its right side, one step shorter than there are operands, passes all but the
last in order and ends at the last, and beside the disjunctions of its operands the chain has one
for each of these steps. As many operands have the same chain only if they are the same. -/
theorem or_chain_decodable :
    (∀ operands, orChain? operands = none ↔ operands = []) ∧
    (∀ operand, orChain? [operand] = some operand) ∧
    (∀ operands (hne : operands ≠ []), ∃ chain, orChain? operands = some chain ∧
      (∀ before, orChain? (before ++ operands) = some (before.foldr .or chain)) ∧
      chain.walkRight (operands.length - 1) = some (operands.dropLast, operands.getLast hne) ∧
      chain.disjunctions = operands.length - 1 + (operands.map disjunctions).sum) ∧
    (∀ last rest, orChain? (last :: rest).reverse =
      some (rest.foldl (fun chain operand => .or operand chain) last)) ∧
    ∀ operands others, operands.length = others.length → orChain? operands = orChain? others →
      operands = others := by
  refine ⟨fun _ => Node.orChain?_eq_none_iff, fun _ => rfl, fun operands hne => ?_,
    Node.orChain?_reverse_cons, fun _ _ => Node.eq_of_orChain?_eq⟩
  have hchain := Node.orChain?_eq_foldr hne
  exact ⟨_, hchain, fun before => Node.orChain?_append before hchain,
    Node.walkRight_of_orChain? hne hchain, Node.disjunctions_of_orChain? hne hchain⟩

/-- Three operands, the first and the last of which are disjunctions. -/
def nestedDisjuncts : List Node :=
  [.or (.column "a") (.column "b"), .column "c", .or (.column "d") (.column "e")]

theorem or_chain_decodable_nestedDisjuncts :
    (∃ chain, orChain? nestedDisjuncts = some chain ∧
      chain.walkRight 2 = some ([.or (.column "a") (.column "b"), .column "c"],
        .or (.column "d") (.column "e")) ∧
      chain.disjunctions = 4) ∧
    orChain? nestedDisjuncts ≠ orChain? nestedDisjuncts.reverse := by
  obtain ⟨chain, hchain, -, hwalk, hcount⟩ :=
    or_chain_decodable.2.2.1 nestedDisjuncts (List.cons_ne_nil _ _)
  refine ⟨⟨chain, hchain, hwalk, hcount⟩, fun hsame => ?_⟩
  have hreverse := or_chain_decodable.2.2.2.2 _ _ List.length_reverse.symm hsame
  simp [nestedDisjuncts] at hreverse

-- without their number the operands are lost: the last one may be a chain of more
example : orChain? (nestedDisjuncts.take 2 ++ [.column "d", .column "e"]) =
    orChain? nestedDisjuncts :=
  rfl

end SelectTree
