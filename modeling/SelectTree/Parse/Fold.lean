import SelectTree.Parse.Node

/-!
# Recursion over parse trees

`fold` computes something of a parse tree from the bottom up: of a tagged node from its attributes,
in which every value, and every element of an array, already stands for what was computed of it; of
any other value from the value alone. `fold_tagged` states this with `Attributes.of`, and
`tree_induction` is the induction that goes with it.
-/

namespace SelectTree.Parse

variable {α : Type}

mutual

/-- Computes something of a parse tree, by a rule for tagged nodes and one for other values. -/
def fold (tagged : Attributes α → α) (untagged : Json → α) : Json → α
  | .object [(tag, .object fields)] => tagged ⟨tag, foldFields tagged untagged fields⟩
  | value => untagged value

/-- The attributes of a node, with what is computed of their values. -/
def foldFields (tagged : Attributes α → α) (untagged : Json → α) :
    List (String × Json) → List (String × Attribute α)
  | [] => []
  | (key, value) :: rest =>
    (key, ⟨value, fold tagged untagged value, foldElements tagged untagged value⟩)
      :: foldFields tagged untagged rest

/-- What is computed of the elements of an array. -/
def foldElements (tagged : Attributes α → α) (untagged : Json → α) : Json → List α
  | .array items => foldItems tagged untagged items
  | _ => []

/-- What is computed of each value of a list. -/
def foldItems (tagged : Attributes α → α) (untagged : Json → α) : List Json → List α
  | [] => []
  | value :: rest => fold tagged untagged value :: foldItems tagged untagged rest

end

variable {tagged : Attributes α → α} {untagged : Json → α}

theorem foldItems_eq_map (items : List Json) :
    foldItems tagged untagged items = items.map (fold tagged untagged) := by
  induction items with
  | nil => rfl
  | cons value rest ih => rw [foldItems, ih]; rfl

theorem foldElements_eq_map (value : Json) :
    foldElements tagged untagged value = value.elements.map (fold tagged untagged) := by
  cases value with
  | array items => rw [foldElements, foldItems_eq_map]; rfl
  | _ => rfl

theorem foldFields_eq_map (fields : Json.Fields) :
    foldFields tagged untagged fields =
      fields.map fun (key, value) => (key, .of (fold tagged untagged) value) := by
  induction fields with
  | nil => rfl
  | cons field rest ih =>
    obtain ⟨key, value⟩ := field
    rw [foldFields, ih, foldElements_eq_map]
    rfl

/-- A tagged node folds by the rule for its attributes, their values standing for their folds. -/
theorem fold_tagged (tag : String) (fields : Json.Fields) :
    fold tagged untagged (.object [(tag, .object fields)]) =
      tagged (.of (fold tagged untagged) tag fields) := by
  rw [fold, foldFields_eq_map]
  rfl

/-- A value that is no tagged node folds by the other rule. -/
theorem fold_untagged {value : Json} (h : ∀ tag fields, value ≠ .object [(tag, .object fields)]) :
    fold tagged untagged value = untagged value := by
  unfold fold
  split
  · exact absurd rfl (h _ _)
  · rfl

/-! ## Induction -/

/-- An attribute's value is smaller than the node that has it. -/
theorem sizeOf_lt_of_mem_fields {fields : Json.Fields} {field : String × Json}
    (h : field ∈ fields) (tag : String) :
    sizeOf field.2 < sizeOf (Json.object [(tag, .object fields)]) := by
  have hfield := List.sizeOf_lt_of_mem h
  obtain ⟨key, value⟩ := field
  simp only [Prod.mk.sizeOf_spec] at hfield
  simp only [Json.object.sizeOf_spec, List.cons.sizeOf_spec, Prod.mk.sizeOf_spec]
  omega

/-- An element of an array is smaller than the array. -/
theorem sizeOf_lt_of_mem_elements {value item : Json} (h : item ∈ value.elements) :
    sizeOf item < sizeOf value := by
  cases value with
  | array items =>
    have hitem : sizeOf item < sizeOf items := List.sizeOf_lt_of_mem h
    simp only [Json.array.sizeOf_spec]
    omega
  | _ => simp [Json.elements] at h

/-- What holds of every value that is no tagged node, and of every tagged node if it holds of the
values of its attributes and of their elements, holds of every value. -/
theorem tree_induction {motive : Json → Prop}
    (untagged : ∀ value, (∀ tag fields, value ≠ .object [(tag, .object fields)]) → motive value)
    (tagged : ∀ tag fields,
      (∀ field ∈ fields, motive field.2 ∧ ∀ item ∈ field.2.elements, motive item) →
      motive (.object [(tag, .object fields)]))
    (value : Json) : motive value := by
  induction hn : sizeOf value using Nat.strongRecOn generalizing value with
  | ind n ih =>
    subst hn
    by_cases h : ∃ tag fields, value = .object [(tag, .object fields)]
    · obtain ⟨tag, fields, rfl⟩ := h
      refine tagged tag fields fun field hfield => ?_
      have hvalue := sizeOf_lt_of_mem_fields hfield tag
      refine ⟨ih _ hvalue _ rfl, fun item hitem => ?_⟩
      exact ih _ (Nat.lt_trans (sizeOf_lt_of_mem_elements hitem) hvalue) _ rfl
    · exact untagged value fun tag fields heq => h ⟨tag, fields, heq⟩

end SelectTree.Parse
