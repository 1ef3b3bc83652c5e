import Mathlib.Logic.Relation
import SelectTree.Proofs.Reading

/-!
# Attributes that make no difference

Parsers differ in which attributes they print, and in which order. Neither matters: `trim` leaves
out of a parse tree, at every node, all attributes that its rule does not read and all that are null
or the default, and `Reorders` puts the fields of an object in another order. Both keep every
answer, good or bad, with its notes: `answers_depend_on_given`.
-/

namespace SelectTree.Parse

/-! ## Trimmed trees -/

/-- The attributes of a node of a kind that make a difference. -/
def elide (kind : Kind) (fields : Json.Fields) : Json.Fields :=
  fields.filter fun field => (given? kind fields field.1).isSome

/-- The kind of the nodes under a tag, if they can be lowered. -/
def loweredKind? (tag : String) : Option Kind :=
  (Kind.ofTag? tag).filter (·.isSupported)

mutual

/-- A parse tree without the attributes that make no difference, at every node in it that can be
lowered. -/
def trim : Json → Json
  | .object [(tag, .object fields)] =>
    match loweredKind? tag with
    | some kind => .object [(tag, .object (elide kind (trimFields fields)))]
    | none => .object [(tag, trim (.object fields))]
  | .object fields => .object (trimFields fields)
  | .array items => .array (trimItems items)
  | value => value

/-- The fields of an object, their values trimmed. -/
def trimFields : List (String × Json) → List (String × Json)
  | [] => []
  | (key, value) :: rest => (key, trim value) :: trimFields rest

/-- The values of a list, each trimmed. -/
def trimItems : List Json → List Json
  | [] => []
  | value :: rest => trim value :: trimItems rest

end

example :
    trim (tagged .aExpr [("kind", .ofNat 0), ("location", .ofNat 7), ("rexpr", .null),
      ("lexpr", tagged .integer [("ival", .ofNat 0), ("location", .ofNat 9)])]) =
    tagged .aExpr [("lexpr", tagged .integer [("ival", .ofNat 0)])] :=
  rfl

/-! ### Reading what is left -/

lemma trimFields_eq_map (fields : Json.Fields) :
    trimFields fields = fields.map fun field => (field.1, trim field.2) := by
  induction fields with
  | nil => rfl
  | cons field rest ih => rw [trimFields, ih, List.map_cons]

lemma trimItems_eq_map (items : List Json) : trimItems items = items.map trim := by
  induction items with
  | nil => rfl
  | cons value rest ih => rw [trimItems, ih, List.map_cons]

lemma trim_array (items : List Json) : trim (.array items) = .array (items.map trim) := by
  rw [trim, trimItems_eq_map]

lemma trim_node {tag : String} {kind : Kind} (h : loweredKind? tag = some kind)
    (fields : Json.Fields) :
    trim (.object [(tag, .object fields)]) =
      .object [(tag, .object (elide kind (trimFields fields)))] := by
  rw [trim, h]

lemma trim_object {fields : Json.Fields}
    (h : ∀ tag inner, fields = [(tag, .object inner)] → loweredKind? tag = none) :
    trim (.object fields) = .object (trimFields fields) := by
  by_cases htagged : ∃ tag inner, fields = [(tag, .object inner)]
  · obtain ⟨tag, inner, rfl⟩ := htagged
    rw [trim, h tag inner rfl, trimFields, trimFields]
  · rw [trim]
    exact fun tag inner heq => htagged ⟨tag, inner, heq⟩

lemma exists_trim_object (fields : Json.Fields) :
    ∃ fields', trim (.object fields) = .object fields' := by
  by_cases h : ∃ tag inner kind, fields = [(tag, .object inner)] ∧ loweredKind? tag = some kind
  · obtain ⟨tag, inner, kind, rfl, hkind⟩ := h
    exact ⟨_, trim_node hkind inner⟩
  · refine ⟨_, trim_object fun tag inner heq => ?_⟩
    exact Option.eq_none_iff_forall_ne_some.mpr fun kind hkind => h ⟨tag, inner, kind, heq, hkind⟩

lemma outline_trim (value : Json) : (trim value).outline = value.outline := by
  cases value with
  | array items => rw [trim_array, Json.outline, Json.outline]
  | object fields =>
    obtain ⟨fields', h⟩ := exists_trim_object fields
    rw [h, Json.outline, Json.outline]
  | _ => rfl

lemma elements_trim (value : Json) : (trim value).elements = value.elements.map trim := by
  cases value with
  | array items => rw [trim_array, Json.elements, Json.elements]
  | object fields =>
    obtain ⟨fields', h⟩ := exists_trim_object fields
    rw [h]
    rfl
  | _ => rfl

lemma lookup_trimFields (fields : Json.Fields) (key : String) :
    (trimFields fields).lookup key = (fields.lookup key).map trim := by
  induction fields with
  | nil => rfl
  | cons field rest ih =>
    rw [trimFields, List.lookup_cons, List.lookup_cons, ih]
    split <;> rfl

lemma present?_trimFields (fields : Json.Fields) (key : String) :
    present? (trimFields fields) key = (present? fields key).map trim := by
  have hnull (value : Json) : (trim value).isNull = value.isNull :=
    Json.isNull_congr (outline_trim value)
  rw [present?, present?, lookup_trimFields, Option.filter_map]
  simp only [Function.comp_def, hnull]

lemma given?_trimFields (kind : Kind) (fields : Json.Fields) (key : String) :
    given? kind (trimFields fields) key = (given? kind fields key).map trim := by
  have hdefault (role : Role) (value : Json) :
      role.isDefault (trim value) = role.isDefault value :=
    role.isDefault_congr (outline_trim value) (by rw [elements_trim, List.length_map])
  rw [given?, given?, present?_trimFields]
  cases (reads kind).lookup key with
  | none => rfl
  | some role =>
    simp only [Option.bind_some, Option.filter_map, Function.comp_def, hdefault]

lemma lookup_filter (keep : String → Bool) (fields : Json.Fields) (key : String) :
    (fields.filter fun field => keep field.1).lookup key =
      if keep key then fields.lookup key else none := by
  induction fields with
  | nil => simp
  | cons field rest ih =>
    rw [List.filter_cons, List.lookup_cons]
    by_cases hkey : key = field.1
    · subst hkey
      have hself : (field.1 == field.1) = true := beq_self_eq_true field.1
      by_cases hkeep : keep field.1 = true
      · rw [if_pos hkeep, if_pos hkeep, List.lookup_cons, hself]
      · rw [if_neg hkeep, if_neg hkeep, ih, if_neg hkeep]
    · have hne : (key == field.1) = false := beq_false_of_ne hkey
      rw [hne]
      by_cases hkeep : keep field.1 = true
      · rw [if_pos hkeep, List.lookup_cons, hne, ih]
      · rw [if_neg hkeep, ih]

/-- What is left under a key is the attribute there that makes a difference. -/
lemma lookup_elide (kind : Kind) (fields : Json.Fields) (key : String) :
    (elide kind fields).lookup key = given? kind fields key := by
  rw [elide, lookup_filter fun key => (given? kind fields key).isSome]
  cases hgiven : given? kind fields key with
  | none => rfl
  | some value =>
    obtain ⟨_, _, hvalue, _⟩ := given?_eq_some_iff.mp hgiven
    exact (Option.filter_eq_some_iff.mp hvalue).1

lemma given?_elide (kind : Kind) (fields : Json.Fields) (key : String) :
    given? kind (elide kind fields) key = given? kind fields key := by
  rw [given?, present?, lookup_elide]
  cases hgiven : given? kind fields key with
  | none => cases (reads kind).lookup key <;> rfl
  | some value =>
    obtain ⟨role, hrole, hvalue, hdefault⟩ := given?_eq_some_iff.mp hgiven
    have hnull : (!value.isNull) = true := (Option.filter_eq_some_iff.mp hvalue).2
    rw [hrole, Option.bind_some, Option.filter_some, if_pos hnull, Option.filter_some, hdefault]
    rfl

/-! ## Reordered trees -/

/-- One step of reordering: the fields of one object, somewhere in a value, are put in another
order. The keys of the object have to be distinct. -/
inductive Reorders : Json → Json → Prop
  | here {fields fields' : Json.Fields} :
    (fields.map Prod.fst).Nodup → fields.Perm fields' → Reorders (.object fields) (.object fields')
  | item {value value' : Json} (before after : List Json) :
    Reorders value value' →
    Reorders (.array (before ++ value :: after)) (.array (before ++ value' :: after))
  | field {value value' : Json} (before after : Json.Fields) (key : String) :
    Reorders value value' →
    Reorders (.object (before ++ (key, value) :: after))
      (.object (before ++ (key, value') :: after))

lemma lookup_perm {fields fields' : Json.Fields} (h : fields.Perm fields')
    (hkeys : (fields.map Prod.fst).Nodup) (key : String) :
    fields.lookup key = fields'.lookup key := by
  induction h with
  | nil => rfl
  | cons field _ ih =>
    rw [List.lookup_cons, List.lookup_cons, ih (List.nodup_cons.mp hkeys).2]
  | swap field field' rest =>
    have hne : field'.1 ≠ field.1 := by
      intro heq
      simp [heq] at hkeys
    rw [List.lookup_cons, List.lookup_cons, List.lookup_cons, List.lookup_cons]
    by_cases hkey : key = field.1
    · subst hkey
      have hother : (field.1 == field'.1) = false := beq_false_of_ne hne.symm
      rw [hother]
    · have hother : (key == field.1) = false := beq_false_of_ne hkey
      rw [hother]
  | trans h₁ _ ih₁ ih₂ =>
    exact (ih₁ hkeys).trans (ih₂ ((h₁.map Prod.fst).nodup hkeys))

end SelectTree.Parse

namespace SelectTree.Lower

open Parse (Kind Reorders elide given? reads trim trimFields)

/-! ## Trimming -/

lemma agree_trim (kind : Kind) (fields : Json.Fields)
    (ih : ∀ field ∈ fields, LoweredAlike field.2 (trim field.2) ∧
      ∀ item ∈ field.2.elements, LoweredAlike item (trim item)) :
    Agree kind fields (elide kind (trimFields fields)) := by
  intro key
  rw [Parse.given?_elide, Parse.given?_trimFields]
  cases hgiven : given? kind fields key with
  | none => exact .none
  | some value =>
    obtain ⟨_, _, hvalue, _⟩ := Parse.given?_eq_some_iff.mp hgiven
    obtain ⟨field, hfield, rfl⟩ := Parse.exists_mem_of_present hvalue
    obtain ⟨hself, hitems⟩ := ih field hfield
    refine .some ⟨(Parse.outline_trim _).symm, hself.child, ?_⟩
    rw [Parse.elements_trim, List.map_map]
    exact List.map_congr_left fun item hitem => (hitems item hitem).child

/-- Nodes that cannot be lowered are given nothing. -/
lemma agree_of_not_supported {kind : Kind} (h : kind.isSupported = false)
    (fields fields' : Json.Fields) : Agree kind fields fields' := by
  have hreads : reads kind = [] := by
    cases kind <;> first | rfl | cases h
  intro key
  rw [given?, given?, hreads]
  exact .none

lemma loweredAlike_trim_tagged {tag : String} {fields : Json.Fields}
    (ih : ∀ field ∈ fields, LoweredAlike field.2 (trim field.2) ∧
      ∀ item ∈ field.2.elements, LoweredAlike item (trim item)) :
    LoweredAlike (.object [(tag, .object fields)]) (trim (.object [(tag, .object fields)])) := by
  cases hlowered : Parse.loweredKind? tag with
  | some kind =>
    have hkind : Kind.ofTag? tag = some kind := (Option.filter_eq_some_iff.mp hlowered).1
    rw [Parse.trim_node hlowered]
    refine loweredAlike_tagged fun kind' hkind' => ?_
    obtain rfl : kind = kind' := Option.some.inj (hkind.symm.trans hkind')
    exact agree_trim kind fields ih
  | none =>
    -- of a node that cannot be lowered only the tag is read, whatever became of the rest
    obtain ⟨fields', hfields⟩ := Parse.exists_trim_object fields
    rw [Parse.trim_object fun _ _ heq => ?_, Parse.trimFields, Parse.trimFields, hfields]
    · refine loweredAlike_tagged fun kind hkind => agree_of_not_supported ?_ fields fields'
      rw [Parse.loweredKind?, hkind, Option.filter_some] at hlowered
      simpa using hlowered
    · cases heq
      exact hlowered

lemma loweredAlike_trim_untagged {value : Json}
    (h : ∀ tag fields, value ≠ .object [(tag, .object fields)]) :
    LoweredAlike value (trim value) := by
  cases value with
  | array items =>
    rw [Parse.trim_array]
    exact loweredAlike_untagged nofun nofun rfl
  | object fields =>
    rw [Parse.trim_object fun tag inner heq => absurd (congrArg Json.object heq) (h tag inner)]
    by_cases hlength : fields.length = 1
    · obtain ⟨⟨tag, value⟩, rfl⟩ := List.length_eq_one_iff.mp hlength
      refine loweredAlike_single tag (Parse.outline_trim value).symm fun inner heq => ?_
      exact h tag inner (by rw [heq])
    · exact loweredAlike_object hlength (by rw [Parse.trimFields_eq_map, List.length_map])
  | _ => exact .refl _

/-- A parse tree is lowered as it is without the attributes that make no difference. -/
theorem loweredAlike_trim (value : Json) : LoweredAlike value (trim value) := by
  induction value using Parse.tree_induction with
  | untagged value h => exact loweredAlike_trim_untagged h
  | tagged tag fields ih => exact loweredAlike_trim_tagged ih

/-! ## Reordering -/

/-- Two values that no rule tells apart, neither as attributes nor as the attributes of a node. -/
structure Interchangeable (value value' : Json) : Prop where
  lowered : LoweredAlike value value'
  outline : value.outline = value'.outline
  items : value.elements.map child = value'.elements.map child
  fields : ∀ key, Option.Rel Alike (value.get? key) (value'.get? key)

lemma Interchangeable.alike {value value' : Json} (h : Interchangeable value value') :
    Alike value value' :=
  ⟨h.outline, h.lowered.child, h.items⟩

lemma interchangeable_perm {fields fields' : Json.Fields} (hkeys : (fields.map Prod.fst).Nodup)
    (h : fields.Perm fields') : Interchangeable (.object fields) (.object fields') := by
  refine ⟨?_, rfl, rfl, fun key => ?_⟩
  · by_cases hlength : fields.length = 1
    · obtain ⟨field, rfl⟩ := List.length_eq_one_iff.mp hlength
      rw [List.singleton_perm.mp h]
      exact .refl _
    · exact loweredAlike_object hlength h.length_eq.symm
  · rw [Json.get?, Json.get?, Parse.lookup_perm h hkeys]
    exact rel_refl _

lemma interchangeable_item {value value' : Json} (h : Interchangeable value value')
    (before after : List Json) :
    Interchangeable (.array (before ++ value :: after)) (.array (before ++ value' :: after)) := by
  refine ⟨loweredAlike_untagged nofun nofun rfl, rfl, ?_, fun key => .none⟩
  simp only [Json.elements, List.map_append, List.map_cons, h.lowered.child]

lemma interchangeable_field {value value' : Json} (h : Interchangeable value value')
    (before after : Json.Fields) (key : String) :
    Interchangeable (.object (before ++ (key, value) :: after))
      (.object (before ++ (key, value') :: after)) := by
  refine ⟨?_, rfl, rfl, fun key' => ?_⟩
  · by_cases hlength : (before ++ (key, value) :: after).length = 1
    · have hnil : before = [] ∧ after = [] := by
        rw [List.length_append, List.length_cons] at hlength
        exact ⟨List.length_eq_zero_iff.mp (by omega), List.length_eq_zero_iff.mp (by omega)⟩
      obtain ⟨rfl, rfl⟩ := hnil
      -- with an object under its only key the value is a node, and its attributes were reordered
      by_cases hobject : ∃ inner, value = .object inner
      · obtain ⟨inner, rfl⟩ := hobject
        rcases Json.outline_cases h.outline with rfl | ⟨_, _, heq, _⟩ | ⟨_, inner', _, rfl⟩
        · exact .refl _
        · cases heq
        · exact loweredAlike_tagged fun kind _ => agree_of_lookup h.fields kind
      · exact loweredAlike_single key h.outline fun inner heq => hobject ⟨inner, heq⟩
    · exact loweredAlike_object hlength (by simp)
  · rw [Json.get?, Json.get?, List.lookup_append, List.lookup_append, List.lookup_cons,
      List.lookup_cons]
    cases before.lookup key' with
    | some found => exact .some (.refl found)
    | none =>
      rw [Option.none_or, Option.none_or]
      split
      · exact .some h.alike
      · exact rel_refl _

lemma interchangeable_of_reorders {value value' : Json} (h : Reorders value value') :
    Interchangeable value value' := by
  induction h with
  | here hkeys hperm => exact interchangeable_perm hkeys hperm
  | item before after _ ih => exact interchangeable_item ih before after
  | field before after key _ ih => exact interchangeable_field ih before after key

/-- However the fields of the objects in a parse tree are reordered, it is lowered as before. -/
theorem loweredAlike_of_reorders {value value' : Json}
    (h : Relation.ReflTransGen Reorders value value') : LoweredAlike value value' := by
  induction h with
  | refl => exact .refl value
  | tail _ hstep ih => exact ih.trans (interchangeable_of_reorders hstep).lowered

end SelectTree.Lower

namespace SelectTree

open Lower (LoweredAlike)
open Parse (Kind Reorders given? tagged trim)

/-- Two parse trees get the same answers: the same results, the same notes and the same counter, as
nodes in every context and as statements, from every session. -/
def SameAnswers (value value' : Json) : Prop :=
  ∀ session : Session, (∀ context, session.node value context = session.node value' context) ∧
    session.statement value = session.statement value'

lemma sameAnswers_of_loweredAlike {value value' : Json} (h : LoweredAlike value value') :
    SameAnswers value value' := by
  intro session
  refine ⟨fun context => ?_, ?_⟩
  · rw [Session.node, Session.node, Lower.node, Lower.node, h.child]
  · rw [Session.statement, Session.statement, h.statement]

/-- A node that can be lowered keeps, under each key, the attribute that makes a difference. -/
lemma exists_trim_tagged {kind : Kind} (h : kind.isSupported = true) (fields : Json.Fields) :
    ∃ fields', trim (tagged kind fields) = tagged kind fields' ∧
      ∀ key, fields'.lookup key = (given? kind fields key).map trim := by
  have hkind : Parse.loweredKind? kind.tag = some kind := by
    rw [Parse.loweredKind?, Kind.ofTag?_tag, Option.filter_some, if_pos h]
  refine ⟨_, Parse.trim_node hkind fields, fun key => ?_⟩
  rw [Parse.lookup_elide, Parse.given?_trimFields]

/-- **Answers depend only on the attributes that make a difference.** A parse tree gets the same
answers when it is trimmed: when at every node that can be lowered there are left only those
attributes that its rule reads and that are neither null nor the default. It also gets the same
answers however the fields of its objects are reordered. -/
theorem answers_depend_on_given (value : Json) :
    SameAnswers value (trim value) ∧
      (∀ kind fields, kind.isSupported = true → value = tagged kind fields →
        ∃ fields', trim value = tagged kind fields' ∧
          ∀ key, fields'.lookup key = (given? kind fields key).map trim) ∧
      ∀ value', Relation.ReflTransGen Reorders value value' → SameAnswers value value' := by
  refine ⟨sameAnswers_of_loweredAlike (Lower.loweredAlike_trim value), ?_, fun value' h => ?_⟩
  · rintro kind fields hkind rfl
    exact exists_trim_tagged hkind fields
  · exact sameAnswers_of_loweredAlike (Lower.loweredAlike_of_reorders h)

/-- A descending ordering by the star, with a position that its rule does not read. -/
def starOrdering : Json :=
  tagged .sortBy [("node", tagged .aStar []), ("location", .ofNat 7), ("sortby_dir", .ofNat 2)]

/-- The same ordering, with its fields in another order. -/
def shuffledOrdering : Json :=
  tagged .sortBy [("location", .ofNat 7), ("node", tagged .aStar []), ("sortby_dir", .ofNat 2)]

theorem answers_depend_on_given_starOrdering :
    (∃ fields, trim starOrdering = tagged .sortBy fields ∧ fields.lookup "location" = none) ∧
      Relation.ReflTransGen Reorders starOrdering shuffledOrdering ∧
      SameAnswers starOrdering shuffledOrdering ∧
      (Session.node {} starOrdering).1.result = .ok (.order .star .desc) := by
  have h : Relation.ReflTransGen Reorders starOrdering shuffledOrdering :=
    .single (.field [] [] "SortBy" (.here (by decide) (.swap _ _ _)))
  obtain ⟨_, htrim, hshuffled⟩ := answers_depend_on_given starOrdering
  obtain ⟨fields, hfields, hlookup⟩ := htrim _ _ rfl rfl
  exact ⟨⟨fields, hfields, hlookup "location"⟩, h, hshuffled _ h, rfl⟩

end SelectTree
