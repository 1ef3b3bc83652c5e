import Mathlib.Tactic.Lemma
import SelectTree.Parse.Fold

/-!
# Attributes as plain values

Lowering reads the attributes of a node together with what its children lower to. Here the same
attributes are read as plain JSON values, and every reader is shown to see nothing but them:

* `raw`, the attributes of a node as they are written;
* `node_of`, `list_of` and their kin: what a reader gives on `Attributes.of f` is what it gives on
  `raw`, with `f` applied to the children;
* `node_raw_eq_ok_iff`, `list_raw_eq_ok_iff` and their kin: what a reader gives on `raw`, in terms
  of `present?`;
* `attribute_induction`, the induction over a parse tree in terms of the readers.
-/

namespace SelectTree.Parse

variable {α : Type}

/-- The value under `key`, unless it is absent or `null`. -/
def present? (fields : Json.Fields) (key : String) : Option Json :=
  (fields.lookup key).filter (!·.isNull)

/-- The attributes of a node, each standing for itself. -/
def raw (tag : String) (fields : Json.Fields) : Attributes Json :=
  .of id tag fields

/-- The code under `key`; an absent one is zero. -/
def HasCode (fields : Json.Fields) (key : String) (code : Int64) : Prop :=
  match present? fields key with
  | none => code = 0
  | some value => value.toInt64? = some code

/-- The flag under `key`; an absent one is off. -/
def HasFlag (fields : Json.Fields) (key : String) (flag : Bool) : Prop :=
  match present? fields key with
  | none => flag = false
  | some value => value = .bool flag

section

variable {fields : Json.Fields} {key : String}

lemma HasCode.unique {code code' : Int64} (h : HasCode fields key code)
    (h' : HasCode fields key code') : code = code' := by
  unfold HasCode at h h'
  cases hvalue : present? fields key with
  | none =>
    rw [hvalue] at h h'
    exact h.trans h'.symm
  | some value =>
    rw [hvalue] at h h'
    exact Option.some.inj (h.symm.trans h')

end

namespace Attributes

variable (f : Json → α) (tag : String) (fields : Json.Fields) (key : String)

@[simp] lemma tag_of : (Attributes.of f tag fields).tag = tag := rfl

@[simp] lemma blame_of (problem : Problem) :
    (Attributes.of f tag fields).blame key problem = .invalidAttribute tag key problem := rfl

lemma get?_of_present :
    (Attributes.of f tag fields).get? key = (present? fields key).map (.of f) :=
  get?_of f tag fields key

/-! ## Readers -/

lemma node?_of :
    (Attributes.of f tag fields).node? key = ((raw tag fields).node? key).map f := by
  rw [node?, node?, raw, get?_of_present, get?_of_present]
  simp only [Option.map_map]
  rfl

lemma node_of :
    (Attributes.of f tag fields).node key = ((raw tag fields).node key).map f := by
  rw [node, node, node?_of]
  cases (raw tag fields).node? key <;> rfl

lemma list?_of :
    (Attributes.of f tag fields).list? key =
      ((raw tag fields).list? key).map (Option.map (List.map f)) := by
  rw [list?, list?, raw, get?_of_present, get?_of_present]
  rcases present? fields key with _ | value
  · rfl
  · cases value with
    | array items => simp [Attribute.of, Json.elements, Except.map]
    | _ => rfl

lemma list_of :
    (Attributes.of f tag fields).list key = ((raw tag fields).list key).map (List.map f) := by
  rw [list, list, list?_of]
  rcases (raw tag fields).list? key with _ | _ | items <;> rfl

lemma text?_of : (Attributes.of f tag fields).text? key = (raw tag fields).text? key := by
  rw [text?, text?, raw, get?_of_present, get?_of_present]
  rcases present? fields key with _ | value
  · rfl
  · cases value <;> rfl

lemma text_of : (Attributes.of f tag fields).text key = (raw tag fields).text key := by
  rw [text, text, text?_of]
  rfl

lemma int_of : (Attributes.of f tag fields).int key = (raw tag fields).int key := by
  rw [int, int, raw, get?_of_present, get?_of_present]
  rcases present? fields key with _ | value <;> rfl

lemma contains_of :
    (Attributes.of f tag fields).contains key = (raw tag fields).contains key := by
  rw [contains, contains, raw, get?_of_present, get?_of_present]
  simp only [Option.isSome_map]

lemma code_of : (Attributes.of f tag fields).code key = (raw tag fields).code key := by
  rw [code, code, contains_of, int_of]

lemma flag_of : (Attributes.of f tag fields).flag key = (raw tag fields).flag key := by
  rw [flag, flag, raw, get?_of_present, get?_of_present]
  rcases present? fields key with _ | value
  · rfl
  · cases value <;> rfl

/-! ## What a reader can give -/

variable {f tag fields key}

lemma node_eq_ok_iff {value : Json} :
    (raw tag fields).node key = .ok value ↔ (raw tag fields).node? key = some value := by
  rw [node]
  cases (raw tag fields).node? key <;> simp [require]

lemma list_eq_ok_iff {values : List Json} :
    (raw tag fields).list key = .ok values ↔ (raw tag fields).list? key = .ok (some values) := by
  rw [list]
  rcases (raw tag fields).list? key with _ | _ | _ <;> simp [require, bind, Except.bind]

lemma node?_raw : (raw tag fields).node? key = present? fields key := by
  rw [node?, raw, get?_of_present, Option.map_map]
  exact Option.map_id_apply

/-- A list attribute is an array that is there. -/
lemma list?_raw_eq_some_iff {values : List Json} :
    (raw tag fields).list? key = .ok (some values) ↔
      present? fields key = some (.array values) := by
  rw [list?, raw, get?_of_present]
  rcases present? fields key with _ | value
  · simp
  · cases value <;> simp [Attribute.of, Json.elements]

lemma get?_raw : (raw tag fields).get? key = (present? fields key).map (.of id) :=
  get?_of_present id tag fields key

lemma node_raw_eq_ok_iff {value : Json} :
    (raw tag fields).node key = .ok value ↔ present? fields key = some value := by
  rw [node_eq_ok_iff, node?_raw]

lemma list?_raw_eq_ok_iff {values : Option (List Json)} :
    (raw tag fields).list? key = .ok values ↔ present? fields key = values.map .array := by
  cases values with
  | some values => exact list?_raw_eq_some_iff
  | none =>
    rw [list?, get?_raw]
    rcases present? fields key with _ | value
    · simp
    · cases value <;> simp [Attribute.of]

lemma list_raw_eq_ok_iff {values : List Json} :
    (raw tag fields).list key = .ok values ↔ present? fields key = some (.array values) := by
  rw [list_eq_ok_iff, list?_raw_eq_some_iff]

lemma text?_raw_eq_ok_iff {text : Option String} :
    (raw tag fields).text? key = .ok text ↔ present? fields key = text.map .string := by
  rw [text?, get?_raw]
  rcases present? fields key with _ | value
  · cases text <;> simp
  · cases value <;> cases text <;> simp [Attribute.of]

lemma text_raw_eq_ok_iff {text : String} :
    (raw tag fields).text key = .ok text ↔ present? fields key = some (.string text) := by
  have htext : (raw tag fields).text key = .ok text ↔
      (raw tag fields).text? key = .ok (some text) := by
    rw [Attributes.text]
    rcases (raw tag fields).text? key with _ | _ | _ <;> simp [require, bind, Except.bind]
  rw [htext, text?_raw_eq_ok_iff, Option.map_some]

lemma int_raw_eq_ok_iff {number : Int64} :
    (raw tag fields).int key = .ok number ↔
      ∃ value, present? fields key = some value ∧ value.toInt64? = some number := by
  rw [int, get?_raw]
  rcases present? fields key with _ | value
  · simp
  · cases hvalue : value.toInt64? <;> simp [Attribute.of, hvalue]

lemma contains_raw : (raw tag fields).contains key = (present? fields key).isSome := by
  rw [contains, get?_raw, Option.isSome_map]

lemma code_raw_eq_ok_iff {code : Int64} :
    (raw tag fields).code key = .ok code ↔ HasCode fields key code := by
  rw [Attributes.code, contains_raw, HasCode]
  cases hvalue : present? fields key with
  | none => simp [eq_comm]
  | some value =>
    simp only [Option.isSome_some, if_true, int_raw_eq_ok_iff, hvalue]
    simp

lemma flag_raw_eq_ok_iff {flag : Bool} :
    (raw tag fields).flag key = .ok flag ↔ HasFlag fields key flag := by
  rw [Attributes.flag, get?_raw, HasFlag]
  rcases present? fields key with _ | value
  · simp [eq_comm]
  · cases value <;> simp [Attribute.of]

end Attributes

/-! ## Readings that fail -/

/-- The value under a key has a problem; there is none if the attribute is absent or `null`. -/
def HasProblem (value? : Option Json) : Problem → Prop
  | .missing => value? = none
  | .empty => value? = some (.array [])
  | .nonArray found => ∃ value, value? = some value ∧ value.shape = found ∧ found ≠ .array
  | .nonString found => ∃ value, value? = some value ∧ value.shape = found ∧ found ≠ .string
  | .nonInteger found => ∃ value, value? = some value ∧ value.shape = found ∧ value.toInt64? = none
  | .nonBoolean found => ∃ value, value? = some value ∧ value.shape = found ∧ found ≠ .boolean

namespace Attributes

variable {attributes : Attributes α} {key : String} {error : Error}

/-- The error blames the attribute under `key`. -/
def Blames (attributes : Attributes α) (key : String) (error : Error) : Prop :=
  ∃ problem, error = attributes.blame key problem

/-- The error blames the attribute under `key` for a problem that it has. -/
def Explains (attributes : Attributes α) (key : String) (error : Error) : Prop :=
  ∃ problem, error = attributes.blame key problem ∧
    HasProblem ((attributes.get? key).map (·.value)) problem

lemma Explains.blames (h : attributes.Explains key error) : attributes.Blames key error :=
  h.imp fun _ => And.left

lemma explains_missing (h : attributes.get? key = none) :
    attributes.Explains key (attributes.blame key .missing) :=
  ⟨.missing, rfl, by rw [h]; rfl⟩

lemma explains_of_node (h : attributes.node key = .error error) :
    attributes.Explains key error := by
  rw [node, node?] at h
  cases hget : attributes.get? key with
  | none =>
    rw [hget] at h
    cases h
    exact explains_missing hget
  | some given =>
    rw [hget] at h
    cases h

lemma explains_of_list? (h : attributes.list? key = .error error) :
    attributes.Explains key error := by
  rw [list?] at h
  rcases hget : attributes.get? key with _ | ⟨value, self, items⟩
  · rw [hget] at h
    cases h
  · rw [hget] at h
    cases value <;> cases h <;> exact ⟨_, rfl, _, by rw [hget]; rfl, rfl, nofun⟩

lemma explains_of_list (h : attributes.list key = .error error) :
    attributes.Explains key error := by
  rw [list] at h
  rcases hl : attributes.list? key with _ | _ | items <;>
    simp only [hl, bind, Except.bind, require] at h
  · cases h
    exact explains_of_list? hl
  · cases h
    refine explains_missing ?_
    rw [list?] at hl
    split at hl
    · assumption
    · cases hl
    · cases hl
  · cases h

lemma explains_of_text? (h : attributes.text? key = .error error) :
    attributes.Explains key error := by
  rw [text?] at h
  rcases hget : attributes.get? key with _ | ⟨value, self, items⟩
  · rw [hget] at h
    cases h
  · rw [hget] at h
    cases value <;> cases h <;> exact ⟨_, rfl, _, by rw [hget]; rfl, rfl, nofun⟩

lemma explains_of_text (h : attributes.text key = .error error) :
    attributes.Explains key error := by
  rw [text] at h
  rcases ht : attributes.text? key with _ | _ | text <;>
    simp only [ht, bind, Except.bind, require] at h
  · cases h
    exact explains_of_text? ht
  · cases h
    refine explains_missing ?_
    rw [text?] at ht
    split at ht
    · assumption
    · cases ht
    · cases ht
  · cases h

lemma explains_of_int (h : attributes.int key = .error error) :
    attributes.Explains key error := by
  rw [int] at h
  rcases hget : attributes.get? key with _ | ⟨value, self, items⟩
  · rw [hget] at h
    cases h
    exact explains_missing hget
  · rw [hget] at h
    cases hvalue : value.toInt64? with
    | some number => simp [hvalue] at h
    | none =>
      simp only [hvalue] at h
      cases h
      exact ⟨_, rfl, value, by rw [hget]; rfl, rfl, hvalue⟩

lemma explains_of_code (h : attributes.code key = .error error) :
    attributes.Explains key error := by
  rw [code] at h
  split at h
  · exact explains_of_int h
  · cases h

lemma explains_of_flag (h : attributes.flag key = .error error) :
    attributes.Explains key error := by
  rw [flag] at h
  rcases hget : attributes.get? key with _ | ⟨value, self, items⟩
  · rw [hget] at h
    cases h
  · rw [hget] at h
    cases value <;> cases h <;> exact ⟨_, rfl, _, by rw [hget]; rfl, rfl, nofun⟩

end Attributes

/-! ## Induction -/

/-- A property of every child of a node: of each attribute that is there, and of each element of
each list attribute. -/
structure EachChild (motive : Json → Prop) (tag : String) (fields : Json.Fields) : Prop where
  node : ∀ {key value}, (raw tag fields).node key = .ok value → motive value
  list : ∀ {key values}, (raw tag fields).list key = .ok values → ∀ value ∈ values, motive value

section

variable {motive : Json → Prop} {tag key : String} {fields : Json.Fields}

lemma EachChild.of_present (h : EachChild motive tag fields) {value : Json}
    (hvalue : present? fields key = some value) : motive value :=
  h.node (Attributes.node_raw_eq_ok_iff.mpr hvalue)

lemma EachChild.of_mem (h : EachChild motive tag fields) {values : List Json} {value : Json}
    (hvalues : present? fields key = some (.array values)) (hmem : value ∈ values) :
    motive value :=
  h.list (Attributes.list_raw_eq_ok_iff.mpr hvalues) value hmem

lemma EachChild.of_mem_getD (h : EachChild motive tag fields) {values : Option (List Json)}
    {value : Json} (hvalues : present? fields key = values.map .array)
    (hmem : value ∈ values.getD []) : motive value := by
  cases values with
  | none => cases hmem
  | some values => exact h.of_mem hvalues hmem

end

lemma exists_mem_of_present {fields : Json.Fields} {key : String} {value : Json}
    (h : present? fields key = some value) : ∃ field ∈ fields, field.2 = value := by
  obtain ⟨hlookup, _⟩ := Option.filter_eq_some_iff.mp h
  obtain ⟨before, after, rfl, _⟩ := List.lookup_eq_some_iff.mp hlookup
  exact ⟨(key, value), by simp, rfl⟩

/-- What holds of every value that is no tagged node, and of every tagged node if it holds of each
child, holds of every value. -/
theorem attribute_induction {motive : Json → Prop}
    (untagged : ∀ value, (∀ tag fields, value ≠ .object [(tag, .object fields)]) → motive value)
    (tagged : ∀ tag fields, EachChild motive tag fields → motive (.object [(tag, .object fields)]))
    (value : Json) : motive value := by
  refine tree_induction untagged (fun tag fields ih => tagged tag fields ⟨?_, ?_⟩) value
  · intro key value h
    rw [Attributes.node_eq_ok_iff, Attributes.node?_raw] at h
    obtain ⟨field, hmem, rfl⟩ := exists_mem_of_present h
    exact (ih field hmem).1
  · intro key values h value hvalue
    rw [Attributes.list_eq_ok_iff, Attributes.list?_raw_eq_some_iff] at h
    obtain ⟨field, hmem, heq⟩ := exists_mem_of_present h
    exact (ih field hmem).2 value (by rw [heq]; exact hvalue)

end SelectTree.Parse
