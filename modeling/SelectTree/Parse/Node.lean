import SelectTree.Error

/-!
# Parse nodes

A parse node is a JSON object with one key, its tag; the value under the tag is an object of
attributes. This file reads the tag and the attributes. An attribute that is `null` counts as
absent, and each reader fails with the node and attribute it blames.

Attributes are read together with what their values stand for: a type `α` for the value itself and
for each of its elements. Plain reading takes the JSON values themselves; lowering takes what the
child nodes lower to.
-/

namespace SelectTree.Parse

/-! ## Tags -/

/-- The only key of an object, if it has exactly one. -/
def peekTag? : Json → Option String
  | .object [(tag, _)] => some tag
  | _ => none

/-- What is wrong with a value that is no tagged object of attributes. -/
def tagFault : Json → Error
  | .object [(tag, value)] => .attributesShape tag value.shape
  | .object fields => .tagCount fields.length
  | value => .untagged value.shape

/-! ## Attributes -/

/-- An attribute: its value, what the value stands for, and what its elements stand for. -/
structure Attribute (α : Type) where
  value : Json
  self : α
  items : List α

/-- The attributes of a node. -/
structure Attributes (α : Type) where
  /-- The node's tag. -/
  tag : String
  /-- The attributes by their keys. -/
  entries : List (String × Attribute α)

/-- An attribute whose values stand for what `f` makes of them. -/
def Attribute.of {α : Type} (f : Json → α) (value : Json) : Attribute α :=
  ⟨value, f value, value.elements.map f⟩

/-- Attributes whose values stand for what `f` makes of them. -/
def Attributes.of {α : Type} (f : Json → α) (tag : String) (fields : Json.Fields) :
    Attributes α :=
  ⟨tag, fields.map fun (key, value) => (key, .of f value)⟩

/-- The attributes of a tagged node, their values standing for what `f` makes of them. -/
def readTag {α : Type} (f : Json → α) : Json → Except Error (Attributes α)
  | .object [(tag, .object fields)] => .ok (.of f tag fields)
  | value => .error (tagFault value)

namespace Attributes

variable {α : Type}

/-- The attribute under `key`, unless it is absent or `null`. -/
def get? (attributes : Attributes α) (key : String) : Option (Attribute α) :=
  (attributes.entries.lookup key).filter (!·.value.isNull)

theorem get?_of (f : Json → α) (tag : String) (fields : Json.Fields) (key : String) :
    (Attributes.of f tag fields).get? key =
      ((fields.lookup key).filter (!·.isNull)).map (.of f) := by
  have lookup_map : ∀ fields : Json.Fields,
      (Attributes.of f tag fields).entries.lookup key = (fields.lookup key).map (.of f) := by
    intro fields
    induction fields with
    | nil => rfl
    | cons field rest ih =>
      obtain ⟨k, value⟩ := field
      simp only [Attributes.of, List.map_cons, List.lookup_cons] at ih ⊢
      split
      · rfl
      · exact ih
  rw [get?, lookup_map]
  cases fields.lookup key with
  | none => rfl
  | some value => cases h : value.isNull <;> simp [Option.filter, Attribute.of, h]

/-- Whether the attribute is there and not `null`. -/
def contains (attributes : Attributes α) (key : String) : Bool :=
  (attributes.get? key).isSome

/-- The error that blames an attribute. -/
def blame (attributes : Attributes α) (key : String) (problem : Problem) : Error :=
  .invalidAttribute attributes.tag key problem

/-- Turns an attribute that must be there into an error if it is not. -/
def require {β : Type} (attributes : Attributes α) (key : String) :
    Option β → Except Error β
  | none => .error (attributes.blame key .missing)
  | some b => .ok b

/-- What the attribute stands for as a node, if it is there. -/
def node? (attributes : Attributes α) (key : String) : Option α :=
  (attributes.get? key).map (·.self)

/-- What the attribute stands for as a node. -/
def node (attributes : Attributes α) (key : String) : Except Error α :=
  attributes.require key (attributes.node? key)

/-- What the elements of an array attribute stand for, if it is there. -/
def list? (attributes : Attributes α) (key : String) : Except Error (Option (List α)) :=
  match attributes.get? key with
  | none => .ok none
  | some ⟨.array _, _, items⟩ => .ok (some items)
  | some ⟨value, _, _⟩ => .error (attributes.blame key (.nonArray value.shape))

/-- What the elements of an array attribute stand for. -/
def list (attributes : Attributes α) (key : String) : Except Error (List α) := do
  attributes.require key (← attributes.list? key)

/-- The text of a string attribute, if it is there. -/
def text? (attributes : Attributes α) (key : String) : Except Error (Option String) :=
  match attributes.get? key with
  | none => .ok none
  | some ⟨.string text, _, _⟩ => .ok (some text)
  | some ⟨value, _, _⟩ => .error (attributes.blame key (.nonString value.shape))

/-- The text of a string attribute. -/
def text (attributes : Attributes α) (key : String) : Except Error String := do
  attributes.require key (← attributes.text? key)

/-- The value of an integer attribute. -/
def int (attributes : Attributes α) (key : String) : Except Error Int64 :=
  match attributes.get? key with
  | none => .error (attributes.blame key .missing)
  | some ⟨value, _, _⟩ =>
    match value.toInt64? with
    | some n => .ok n
    | none => .error (attributes.blame key (.nonInteger value.shape))

/-- The code of an enumerated attribute; an absent one is zero. -/
def code (attributes : Attributes α) (key : String) : Except Error Int64 :=
  if attributes.contains key then attributes.int key else .ok 0

/-- The value of a flag; an absent one is off. -/
def flag (attributes : Attributes α) (key : String) : Except Error Bool :=
  match attributes.get? key with
  | none => .ok false
  | some ⟨.bool b, _, _⟩ => .ok b
  | some ⟨value, _, _⟩ => .error (attributes.blame key (.nonBoolean value.shape))

end Attributes

end SelectTree.Parse
