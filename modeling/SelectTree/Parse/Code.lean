/-!
# Enumerated attributes

Some attributes of parse nodes are integer codes. Each enumeration lists its members in the order of
their codes, from zero on, and names each by the parser's own label.
-/

namespace SelectTree.Parse

/-- An enumeration whose members are coded by their position. -/
class Coded (α : Type) where
  /-- The members in the order of their codes. -/
  members : List α
  /-- The parser's label of a member. -/
  label : α → String

/-- The member that has a code. -/
def Coded.ofCode? {α : Type} [Coded α] (code : Int64) : Option α :=
  if code < 0 then none else (Coded.members : List α)[code.toInt.toNat]?

/-- A member of an enumeration has no code but its position. -/
theorem Coded.code_eq {α : Type} [Coded α] (hnodup : (Coded.members : List α).Nodup) {code : Int64}
    {member : α} (h : Coded.ofCode? code = some member) {i : Nat}
    (hi : (Coded.members : List α)[i]? = some member) : code = Int64.ofInt i := by
  rw [Coded.ofCode?] at h
  split at h
  · cases h
  · next hcode =>
    have hnonneg : 0 ≤ code.toInt := by
      rw [Int64.lt_iff_toInt_lt] at hcode
      simpa using hcode
    have hlt : i < (Coded.members : List α).length := (List.getElem?_eq_some_iff.mp hi).1
    have heq : i = code.toInt.toNat := (List.getElem?_inj hlt hnodup).mp (hi.trans h.symm)
    rw [heq, Int.toNat_of_nonneg hnonneg, Int64.ofInt_toInt]

/-- A code stands for one member of an enumeration at most. -/
theorem Coded.ofCode?_eq_some_iff {α : Type} [Coded α] (hnodup : (Coded.members : List α).Nodup)
    {code number : Int64} {member : α} (hnumber : Coded.ofCode? number = some member) :
    Coded.ofCode? code = some member ↔ code = number := by
  refine ⟨fun hcode => ?_, fun heq => heq ▸ hnumber⟩
  have hmember : (Coded.members : List α)[number.toInt.toNat]? = some member := by
    rw [Coded.ofCode?] at hnumber
    split at hnumber
    · cases hnumber
    · exact hnumber
  rw [Coded.code_eq hnodup hcode hmember, ← Coded.code_eq hnodup hnumber hmember]

/-- A code that stands for no member is the code of none. -/
theorem Coded.ne_of_ofCode?_eq_none {α : Type} [Coded α] {code number : Int64} {member : α}
    (h : (Coded.ofCode? code : Option α) = none) (hnumber : Coded.ofCode? number = some member) :
    code ≠ number := by
  rintro rfl
  rw [h] at hnumber
  cases hnumber

/-- The kinds of operator expressions. -/
inductive ExprKind where
  | op
  | opAny
  | opAll
  | distinct
  | notDistinct
  | nullIf
  | of
  | inList
  | like
  | ilike
  | similar
  | between
  | notBetween
  | betweenSym
  | notBetweenSym
  | paren
deriving DecidableEq

instance : Coded ExprKind where
  members :=
    [.op, .opAny, .opAll, .distinct, .notDistinct, .nullIf, .of, .inList, .like, .ilike, .similar,
      .between, .notBetween, .betweenSym, .notBetweenSym, .paren]
  label
    | .op => "AEXPR_OP"
    | .opAny => "AEXPR_OP_ANY"
    | .opAll => "AEXPR_OP_ALL"
    | .distinct => "AEXPR_DISTINCT"
    | .notDistinct => "AEXPR_NOT_DISTINCT"
    | .nullIf => "AEXPR_NULLIF"
    | .of => "AEXPR_OF"
    | .inList => "AEXPR_IN"
    | .like => "AEXPR_LIKE"
    | .ilike => "AEXPR_ILIKE"
    | .similar => "AEXPR_SIMILAR"
    | .between => "AEXPR_BETWEEN"
    | .notBetween => "AEXPR_NOT_BETWEEN"
    | .betweenSym => "AEXPR_BETWEEN_SYM"
    | .notBetweenSym => "AEXPR_NOT_BETWEEN_SYM"
    | .paren => "AEXPR_PAREN"

/-- The kinds of boolean operators. -/
inductive BoolOp where
  | and
  | or
  | not
deriving DecidableEq

instance : Coded BoolOp where
  members :=
    [.and, .or, .not]
  label
    | .and => "AND_EXPR"
    | .or => "OR_EXPR"
    | .not => "NOT_EXPR"

/-- The kinds of joins. -/
inductive JoinType where
  | inner
  | left
  | full
  | right
  | semi
  | anti
  | uniqueOuter
  | uniqueInner
deriving DecidableEq

instance : Coded JoinType where
  members :=
    [.inner, .left, .full, .right, .semi, .anti, .uniqueOuter, .uniqueInner]
  label
    | .inner => "JOIN_INNER"
    | .left => "JOIN_LEFT"
    | .full => "JOIN_FULL"
    | .right => "JOIN_RIGHT"
    | .semi => "JOIN_SEMI"
    | .anti => "JOIN_ANTI"
    | .uniqueOuter => "JOIN_UNIQUE_OUTER"
    | .uniqueInner => "JOIN_UNIQUE_INNER"

/-- The kinds of sort directions. -/
inductive SortDirection where
  | default
  | asc
  | desc
  | using
deriving DecidableEq

instance : Coded SortDirection where
  members :=
    [.default, .asc, .desc, .using]
  label
    | .default => "SORTBY_DEFAULT"
    | .asc => "SORTBY_ASC"
    | .desc => "SORTBY_DESC"
    | .using => "SORTBY_USING"

/-- The kinds of null tests. -/
inductive NullTestKind where
  | isNull
  | isNotNull
deriving DecidableEq

instance : Coded NullTestKind where
  members :=
    [.isNull, .isNotNull]
  label
    | .isNull => "IS_NULL"
    | .isNotNull => "IS_NOT_NULL"

/-- The kinds of sub-links. -/
inductive SubLinkKind where
  | exists
  | all
  | any
  | rowCompare
  | expr
  | multiExpr
  | array
  | cte
deriving DecidableEq

instance : Coded SubLinkKind where
  members :=
    [.exists, .all, .any, .rowCompare, .expr, .multiExpr, .array, .cte]
  label
    | .exists => "EXISTS_SUBLINK"
    | .all => "ALL_SUBLINK"
    | .any => "ANY_SUBLINK"
    | .rowCompare => "ROWCOMPARE_SUBLINK"
    | .expr => "EXPR_SUBLINK"
    | .multiExpr => "MULTIEXPR_SUBLINK"
    | .array => "ARRAY_SUBLINK"
    | .cte => "CTE_SUBLINK"

end SelectTree.Parse
