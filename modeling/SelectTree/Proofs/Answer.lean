import Mathlib.Data.List.Forall2
import SelectTree.Proofs.Need

/-!
# Answers as plain recursion

Without a limit, lowering is a plain recursive function into `Except Error`: notes and the depth
counter no longer show. `answer_node` and `answer_source` unfold it at a node of a known kind, and
the lemmas after them give what single steps answer in terms of the answers for the children.
-/

namespace SelectTree.Parse

/-- A node of a kind, with its attributes. -/
def tagged (kind : Kind) (fields : Json.Fields) : Json :=
  .object [(kind.tag, .object fields)]

/-- A node has one kind. -/
lemma tagged_inj {kind kind' : Kind} {fields fields' : Json.Fields} :
    tagged kind fields = tagged kind' fields' ↔ kind = kind' ∧ fields = fields' := by
  constructor
  · intro h
    injection h with h
    obtain ⟨htag, ⟨⟩⟩ : kind.tag = kind'.tag ∧ fields = fields' := by simpa using h
    refine ⟨?_, rfl⟩
    simpa [Kind.ofTag?_tag] using congrArg Kind.ofTag? htag
  · rintro ⟨rfl, rfl⟩
    rfl

/-- What holds of every value that is no node of a known kind, and of every such node if it holds of
each child, holds of every value. -/
theorem kind_induction {motive : Json → Prop}
    (other : ∀ value, (∀ kind fields, value ≠ tagged kind fields) → motive value)
    (node : ∀ kind fields, EachChild motive kind.tag fields → motive (tagged kind fields))
    (value : Json) : motive value := by
  induction value using attribute_induction with
  | untagged value h => exact other value fun kind fields => h kind.tag fields
  | tagged tag fields ih =>
    cases hkind : Kind.ofTag? tag with
    | some kind =>
      obtain rfl := Kind.ofTag?_eq_some_iff.mp hkind
      exact node kind fields ih
    | none =>
      refine other _ fun kind fields' h => ?_
      injection h with h
      obtain ⟨rfl, _⟩ : tag = kind.tag ∧ fields = fields' := by simpa using h
      rw [Kind.ofTag?_tag] at hkind
      cases hkind

end SelectTree.Parse

namespace SelectTree.Lower

open Parse (Kind Attributes EachChild raw tagged)
open Query (Node Sources Table)

variable {α β γ : Type}

/-! ## Results in sequence -/

@[simp] lemma ok_bind (a : α) (next : α → Except Error β) : (Except.ok a >>= next) = next a := rfl

@[simp] lemma error_bind (error : Error) (next : α → Except Error β) :
    (Except.error error >>= next) = .error error := rfl

@[simp] lemma map_bind (f : α → β) (result : Except Error α) (next : β → Except Error γ) :
    (result.map f >>= next) = result >>= fun a => next (f a) := by
  cases result <;> rfl

lemma bind_eq_ok_iff {result : Except Error α} {next : α → Except Error β} {b : β} :
    result >>= next = .ok b ↔ ∃ a, result = .ok a ∧ next a = .ok b := by
  cases result <;> simp

/-- A list of results is good exactly if each of them is. -/
lemma mapM_eq_ok_iff {f : α → Except Error β} {xs : List α} {ys : List β} :
    xs.mapM f = .ok ys ↔ List.Forall₂ (fun x y => f x = .ok y) xs ys := by
  induction xs generalizing ys with
  | nil =>
    rw [List.mapM_nil, List.forall₂_nil_left_iff]
    exact ⟨fun h => by cases h; rfl, fun h => by rw [h]; rfl⟩
  | cons x xs ih =>
    rw [List.mapM_cons, bind_eq_ok_iff, List.forall₂_cons_left_iff]
    simp only [bind_eq_ok_iff, ih]
    constructor
    · rintro ⟨y, hy, ys', hys', ⟨⟩⟩
      exact ⟨y, ys', hy, hys', rfl⟩
    · rintro ⟨y, ys', hy, hys', rfl⟩
      exact ⟨y, hy, ys', hys', rfl⟩

lemma exists_forall₂_iff {R : α → β → Prop} {xs : List α} :
    (∃ ys, List.Forall₂ R xs ys) ↔ ∀ x ∈ xs, ∃ y, R x y := by
  induction xs with
  | nil => simp
  | cons x xs ih =>
    simp only [List.forall₂_cons_left_iff, List.forall_mem_cons, ← ih]
    constructor
    · rintro ⟨_, y, ys, hy, hys, rfl⟩
      exact ⟨⟨y, hy⟩, ys, hys⟩
    · rintro ⟨⟨y, hy⟩, ys, hys⟩
      exact ⟨_, y, ys, hy, hys, rfl⟩

lemma exists_mem_left {R : α → β → Prop} {xs : List α} {ys : List β} (h : List.Forall₂ R xs ys)
    {y : β} (hy : y ∈ ys) : ∃ x ∈ xs, R x y := by
  induction h with
  | nil => cases hy
  | cons hfirst _ ih =>
    rcases List.mem_cons.mp hy with rfl | hy
    · exact ⟨_, List.mem_cons_self, hfirst⟩
    · obtain ⟨x, hx, hxy⟩ := ih hy
      exact ⟨x, List.mem_cons_of_mem _ hx, hxy⟩

lemma exists_mem_right {R : α → β → Prop} {xs : List α} {ys : List β} (h : List.Forall₂ R xs ys)
    {x : α} (hx : x ∈ xs) : ∃ y ∈ ys, R x y :=
  exists_mem_left h.flip hx

/-! ## Steps that are settled -/

lemma Settled.bind {step : Lower α} {next : α → Lower β} (h : Settled step)
    (hnext : ∀ a, Settled (next a)) : Settled (step >>= next) := by
  rw [Settled, run_bind]
  cases ha : (step.run limitless 0).result with
  | error error => rw [(Outcome.andThen_of_error _ ha).2, h]
  | ok a =>
    rw [(Outcome.andThen_of_ok _ ha).2, h]
    exact hnext a

lemma settled_mapM {f : γ → Lower α} (h : ∀ x, Settled (f x)) (xs : List γ) :
    Settled (xs.mapM f) := by
  induction xs with
  | nil => rfl
  | cons x xs ih =>
    rw [List.mapM_cons]
    exact (h x).bind fun y => ih.bind fun ys => rfl

lemma answer_mapM {f : γ → Lower α} (h : ∀ x, Settled (f x)) (xs : List γ) :
    answer (xs.mapM f) = xs.mapM fun x => answer (f x) := by
  induction xs with
  | nil => rfl
  | cons x xs ih =>
    rw [List.mapM_cons, List.mapM_cons, answer_bind (h x)]
    simp only [answer_bind (settled_mapM h xs), ih]
    rfl

lemma settled_node (value : Json) (context : Context) : Settled (node value context) :=
  ((budgeted value).node context).settled

lemma settled_source (value : Json) : Settled (source value) :=
  (budgeted value).source.settled

@[simp] lemma answer_ofReading_bind (reading : Except Error α) (next : α → Lower β) :
    answer (ofReading reading >>= next) = reading >>= fun a => answer (next a) := by
  cases reading <;> rfl

@[simp] lemma answer_node_bind (value : Json) (context : Context) (next : Node → Lower β) :
    answer (node value context >>= next) =
      answer (node value context) >>= fun result => answer (next result) :=
  answer_bind (settled_node value context) next

@[simp] lemma answer_source_bind (value : Json) (next : Sources → Lower β) :
    answer (source value >>= next) =
      answer (source value) >>= fun sources => answer (next sources) :=
  answer_bind (settled_source value) next

@[simp] lemma answer_refuse_bind (condition : Bool) (error : Error) (next : Unit → Lower β) :
    answer (refuse condition error >>= next) =
      if condition then .error error else answer (next ()) := by
  cases condition <;> rfl

lemma answer_refuse_bind_eq_ok_iff {condition : Bool} {error : Error} {next : Unit → Lower β}
    {b : β} :
    answer (refuse condition error >>= next) = .ok b ↔
      condition = false ∧ answer (next ()) = .ok b := by
  cases condition <;> simp

@[simp] lemma answer_note_bind (taken : Note) (next : Unit → Lower β) :
    answer (note taken >>= next) = answer (next ()) := rfl

/-! ## Nodes -/

lemma eachBudgeted (tag : String) (fields : Json.Fields) : EachChild Budgeted tag fields :=
  ⟨fun _ => budgeted _, fun _ value _ => budgeted value⟩

/-- A node answers what the rule of its kind answers. -/
theorem answer_node (kind : Kind) (fields : Json.Fields) (context : Context) :
    answer (node (tagged kind fields) context) =
      answer (ofKind kind (.of child kind.tag fields) context) := by
  rw [tagged, node_tagged, ofTag, Attributes.tag_of, Kind.ofTag?_tag]
  exact (needs_ofKind (eachBudgeted kind.tag fields) kind context).answer_descend 1

/-- A join answers what its rule answers. -/
theorem answer_source_join (fields : Json.Fields) :
    answer (source (tagged .joinExpr fields)) =
      answer (join (.of child Kind.joinExpr.tag fields)) := by
  rw [tagged, source_tagged, sourceOfTag, Attributes.tag_of, Kind.ofTag?_tag]
  exact (needs_join (eachBudgeted Kind.joinExpr.tag fields)).answer_descend 1

/-- Any other FROM item has to be a table as a node. -/
theorem answer_source {kind : Kind} (hkind : kind ≠ .joinExpr) (fields : Json.Fields) :
    answer (source (tagged kind fields)) =
      answer (node (tagged kind fields) {}) >>= fun
        | .table table => .ok [.base table]
        | _ => .error (.misplaced kind .fromClause) := by
  have hnode : descend 1 (ofKind kind (.of child kind.tag fields) {}) =
      node (tagged kind fields) {} := by
    rw [tagged, node_tagged, ofTag, Attributes.tag_of, Kind.ofTag?_tag]
  rw [tagged, source_tagged, sourceOfTag, Attributes.tag_of, Kind.ofTag?_tag]
  split
  · next heq =>
    cases heq
    exact absurd rfl hkind
  · next heq =>
    cases heq
    rw [hnode, answer_node_bind]
    congr 1
    funext result
    cases result <;> rfl
  · next heq => cases heq

/-! ## Steps on children -/

section

variable (tag : String) (fields : Json.Fields)

/-- A step taken on each child in turn answers what it answers on each. -/
lemma answer_mapM_child_bind {f : Child → Lower α} (h : ∀ value, Settled (f (child value)))
    (values : List Json) (next : List α → Lower β) :
    answer ((values.map child).mapM f >>= next) =
      values.mapM (fun value => answer (f (child value))) >>= fun results =>
        answer (next results) := by
  have hcomp : ∀ value, Settled ((f ∘ child) value) := h
  rw [List.mapM_map, answer_bind (settled_mapM hcomp values), answer_mapM hcomp]
  rfl

@[simp] lemma answer_each_bind (values : List Json) (context : Context)
    (next : List Node → Lower β) :
    answer (each (values.map child) context >>= next) =
      values.mapM (fun value => answer (node value context)) >>= fun results =>
        answer (next results) :=
  answer_mapM_child_bind (fun value => settled_node value context) values next

/-- A child that may be absent is lowered to a node exactly if it is there. -/
lemma optional_rel {value? : Option Json} {node? : Option Node}
    (h : answer (optional (value?.map child)) = .ok node?) :
    Option.Rel (fun value result => answer (node value {}) = .ok result) value? node? := by
  cases value? with
  | none =>
    cases h
    exact .none
  | some value =>
    rw [Option.map_some, optional, node_child, answer_node_bind, bind_eq_ok_iff] at h
    obtain ⟨result, hresult, ⟨⟩⟩ := h
    exact .some hresult

lemma settled_plainText (value : Json) (context : Context) (role : TextRole) :
    Settled (plainText (child value) context role) :=
  ((budgeted value).plainText context role).settled

/-- The plain text of a child is that of its node. -/
lemma answer_plainText (value : Json) (context : Context) (role : TextRole) :
    answer (plainText (child value) context role) =
      answer (node value context) >>= fun result =>
        match result.fragment? with
        | some text => .ok text
        | none => .error (.notPlainText role) := by
  rw [plainText, node_child, answer_node_bind]
  congr 1
  funext result
  cases result.fragment? <;> rfl

@[simp] lemma answer_firstName_bind (key : String) (role : TextRole) (next : String → Lower β) :
    answer (firstName (.of child tag fields) key role >>= next) =
      answer (firstName (.of child tag fields) key role) >>= fun text => answer (next text) := by
  obtain ⟨cost, h⟩ := (needs_firstName (eachBudgeted tag fields) key role).metered
  exact answer_bind h.settled next

end

end SelectTree.Lower
