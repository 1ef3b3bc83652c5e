import SelectTree.Query.Basic

/-!
# Equality of query trees

Two query trees can be compared: `Node.same` walks both at once, and holds exactly of equal trees.
-/

namespace SelectTree.Query

mutual

/-- Whether two nodes are the same tree. -/
def Node.same : Node → Node → Bool
  | .table a, node => match node with | .table b => a = b | _ => false
  | .column a, node => match node with | .column b => a = b | _ => false
  | .literal a, node => match node with | .literal b => a = b | _ => false
  | .integer a, node => match node with | .integer b => a = b | _ => false
  | .null, node => match node with | .null => true | _ => false
  | .star, node => match node with | .star => true | _ => false
  | .as a s, node => match node with | .as b t => a.same b && s = t | _ => false
  | .comparison o a b, node =>
    match node with | .comparison p c d => o = p && a.same c && b.same d | _ => false
  | .inList a as m, node =>
    match node with | .inList b bs n => a.same b && sameNodes as bs && m = n | _ => false
  | .and as, node => match node with | .and bs => sameNodes as bs | _ => false
  | .or a b, node => match node with | .or c d => a.same c && b.same d | _ => false
  | .not a, node => match node with | .not b => a.same b | _ => false
  | .grouping a, node => match node with | .grouping b => a.same b | _ => false
  | .function f as, node =>
    match node with | .function g bs => f = g && sameNodes as bs | _ => false
  | .aggregate f as m, node =>
    match node with | .aggregate g bs n => f = g && sameNodes as bs && m = n | _ => false
  | .order a d, node => match node with | .order b e => a.same b && d = e | _ => false
  | .select a, node => match node with | .select b => sameClauses a b | _ => false
termination_by structural a => a

/-- Whether two lists hold the same nodes in the same order. -/
def sameNodes : List Node → List Node → Bool
  | [], [] => true
  | a :: as, b :: bs => a.same b && sameNodes as bs
  | _, _ => false
termination_by structural a => a

/-- Whether two optional nodes are the same. -/
def sameOption : Option Node → Option Node → Bool
  | none, none => true
  | some a, some b => a.same b
  | _, _ => false
termination_by structural a => a

/-- Whether two joins are the same. -/
def sameJoin : Join Node → Join Node → Bool
  | ⟨k, r, a⟩, ⟨l, s, b⟩ => k = l && r = s && sameOption a b
termination_by structural a => a

/-- Whether two lists hold the same joins in the same order. -/
def sameJoins : List (Join Node) → List (Join Node) → Bool
  | [], [] => true
  | a :: as, b :: bs => sameJoin a b && sameJoins as bs
  | _, _ => false
termination_by structural a => a

/-- Whether two selects have the same clauses. -/
def sameClauses : Clauses Node → Clauses Node → Bool
  | ⟨s, p, w, o, j, l, f⟩, ⟨s', p', w', o', j', l', f'⟩ =>
    s = s' && sameNodes p p' && sameNodes w w' && sameNodes o o' && sameJoins j j'
      && sameOption l l' && sameOption f f'
termination_by structural a => a

end

/-! ## Equal trees are the same -/

mutual

theorem Node.same_self (a : Node) : a.same a = true := by
  cases a with
  | as a _ | not a | grouping a | order a _ => simp [Node.same, Node.same_self a]
  | comparison _ a b | or a b => simp [Node.same, Node.same_self a, Node.same_self b]
  | inList a as _ => simp [Node.same, Node.same_self a, sameNodes_self as]
  | and as | function _ as | aggregate _ as _ => simp [Node.same, sameNodes_self as]
  | select a => simp [Node.same, sameClauses_self a]
  | _ => simp [Node.same]

theorem sameNodes_self (as : List Node) : sameNodes as as = true := by
  cases as with
  | nil => rfl
  | cons a as => simp [sameNodes, Node.same_self a, sameNodes_self as]

theorem sameOption_self (a : Option Node) : sameOption a a = true := by
  cases a with
  | none => rfl
  | some a => simp [sameOption, Node.same_self a]

theorem sameJoin_self (a : Join Node) : sameJoin a a = true := by
  obtain ⟨_, _, on⟩ := a
  simp [sameJoin, sameOption_self on]

theorem sameJoins_self (as : List (Join Node)) : sameJoins as as = true := by
  cases as with
  | nil => rfl
  | cons a as => simp [sameJoins, sameJoin_self a, sameJoins_self as]

theorem sameClauses_self (a : Clauses Node) : sameClauses a a = true := by
  obtain ⟨_, p, w, o, j, l, f⟩ := a
  simp [sameClauses, sameNodes_self p, sameNodes_self w, sameNodes_self o, sameJoins_self j,
    sameOption_self l, sameOption_self f]

end

/-! ## The same trees are equal -/

mutual

theorem Node.eq_of_same (a b : Node) (h : a.same b = true) : a = b := by
  -- Each case keeps the node that has the same constructor, then compares the parts.
  cases a with
  | table | column | literal | integer =>
    unfold Node.same at h
    split at h
    · rw [of_decide_eq_true h]
    · contradiction
  | null | star =>
    unfold Node.same at h
    split at h
    · rfl
    · contradiction
  | as a =>
    unfold Node.same at h
    split at h
    · simp only [Bool.and_eq_true, decide_eq_true_eq] at h
      rw [Node.eq_of_same a _ h.1, h.2]
    · contradiction
  | comparison _ a b =>
    unfold Node.same at h
    split at h
    · simp only [Bool.and_eq_true, decide_eq_true_eq] at h
      rw [h.1.1, Node.eq_of_same a _ h.1.2, Node.eq_of_same b _ h.2]
    · contradiction
  | inList a as =>
    unfold Node.same at h
    split at h
    · simp only [Bool.and_eq_true, decide_eq_true_eq] at h
      rw [Node.eq_of_same a _ h.1.1, eq_of_sameNodes as _ h.1.2, h.2]
    · contradiction
  | and as =>
    unfold Node.same at h
    split at h
    · rw [eq_of_sameNodes as _ h]
    · contradiction
  | or a b =>
    unfold Node.same at h
    split at h
    · simp only [Bool.and_eq_true] at h
      rw [Node.eq_of_same a _ h.1, Node.eq_of_same b _ h.2]
    · contradiction
  | not a | grouping a =>
    unfold Node.same at h
    split at h
    · rw [Node.eq_of_same a _ h]
    · contradiction
  | function _ as =>
    unfold Node.same at h
    split at h
    · simp only [Bool.and_eq_true, decide_eq_true_eq] at h
      rw [h.1, eq_of_sameNodes as _ h.2]
    · contradiction
  | aggregate _ as =>
    unfold Node.same at h
    split at h
    · simp only [Bool.and_eq_true, decide_eq_true_eq] at h
      rw [h.1.1, eq_of_sameNodes as _ h.1.2, h.2]
    · contradiction
  | order a =>
    unfold Node.same at h
    split at h
    · simp only [Bool.and_eq_true, decide_eq_true_eq] at h
      rw [Node.eq_of_same a _ h.1, h.2]
    · contradiction
  | select a =>
    unfold Node.same at h
    split at h
    · rw [eq_of_sameClauses a _ h]
    · contradiction
termination_by structural a

theorem eq_of_sameNodes (as bs : List Node) (h : sameNodes as bs = true) : as = bs := by
  match as, bs with
  | [], [] => rfl
  | a :: as, b :: bs =>
    simp only [sameNodes, Bool.and_eq_true] at h
    rw [Node.eq_of_same a b h.1, eq_of_sameNodes as bs h.2]
  | [], _ :: _ | _ :: _, [] => simp [sameNodes] at h
termination_by structural as

theorem eq_of_sameOption (a b : Option Node) (h : sameOption a b = true) : a = b := by
  match a, b with
  | none, none => rfl
  | some a, some b =>
    rw [sameOption] at h
    rw [Node.eq_of_same a b h]
  | none, some _ | some _, none => simp [sameOption] at h
termination_by structural a

theorem eq_of_sameJoin (a b : Join Node) (h : sameJoin a b = true) : a = b := by
  obtain ⟨_, _, on⟩ := a
  obtain ⟨_, _, on'⟩ := b
  simp only [sameJoin, Bool.and_eq_true, decide_eq_true_eq] at h
  rw [h.1.1, h.1.2, eq_of_sameOption on on' h.2]
termination_by structural a

theorem eq_of_sameJoins (as bs : List (Join Node)) (h : sameJoins as bs = true) : as = bs := by
  match as, bs with
  | [], [] => rfl
  | a :: as, b :: bs =>
    simp only [sameJoins, Bool.and_eq_true] at h
    rw [eq_of_sameJoin a b h.1, eq_of_sameJoins as bs h.2]
  | [], _ :: _ | _ :: _, [] => simp [sameJoins] at h
termination_by structural as

theorem eq_of_sameClauses (a b : Clauses Node) (h : sameClauses a b = true) : a = b := by
  obtain ⟨_, p, w, o, j, l, f⟩ := a
  obtain ⟨_, p', w', o', j', l', f'⟩ := b
  simp only [sameClauses, Bool.and_eq_true, decide_eq_true_eq] at h
  obtain ⟨⟨⟨⟨⟨⟨hs, hp⟩, hw⟩, ho⟩, hj⟩, hl⟩, hf⟩ := h
  rw [hs, eq_of_sameNodes p p' hp, eq_of_sameNodes w w' hw, eq_of_sameNodes o o' ho,
    eq_of_sameJoins j j' hj, eq_of_sameOption l l' hl, eq_of_sameOption f f' hf]
termination_by structural a

end

/-- Two nodes are the same exactly when they are equal. -/
theorem Node.same_iff {a b : Node} : a.same b = true ↔ a = b :=
  ⟨Node.eq_of_same a b, fun h => h ▸ Node.same_self a⟩

instance : DecidableEq Node := fun _ _ =>
  decidable_of_iff _ Node.same_iff

end SelectTree.Query
