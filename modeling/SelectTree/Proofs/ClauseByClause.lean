import SelectTree.Proofs.Reading
import SelectTree.Proofs.Rules.Session

/-!
# Selects clause by clause

The clauses of a select are lowered one after another. No clause leaves a mark on the next, neither
on the depth counter nor on its context, so a select is put together from what each clause gives
when it stands alone; and when several of them fail, the first one is reported.

`Composed` says this of any answers about the single clauses, and
`select_composed_of_clauses` shows it of lowering. Its two steps are that the steps of a select
can be told apart (`select_eq`, `result_select`), and that a select with one clause is lowered as
this clause alone (`result_only`).
-/

namespace SelectTree

open Lower (Fits Needs child)
open Parse (Attributes HasCode Kind present? tagged)
open Query (Select)

/-! ## Clauses -/

/-- The clauses of a select that are lowered. -/
inductive Clause where
  | sources
  | targets
  | filter
  | orders
  | limit
  | offset
deriving DecidableEq

namespace Clause

/-- The clauses in the order in which they are lowered. -/
def all : List Clause :=
  [.sources, .targets, .filter, .orders, .limit, .offset]

/-- The attribute that holds a clause. -/
def key : Clause → String
  | .sources => "fromClause"
  | .targets => "targetList"
  | .filter => "whereClause"
  | .orders => "sortClause"
  | .limit => "limitCount"
  | .offset => "limitOffset"

lemma key_injective {clause clause' : Clause} (h : clause.key = clause'.key) :
    clause = clause' := by
  cases clause <;> cases clause' <;> revert h <;> decide

/-- The select that takes each of its clauses from another select. -/
def assemble (parts : Clause → Select) : Select where
  source := (parts .sources).source
  projections := (parts .targets).projections
  wheres := (parts .filter).wheres
  orders := (parts .orders).orders
  joins := (parts .sources).joins
  limit := (parts .limit).limit
  offset := (parts .offset).offset

/-- The select that has one clause of another select. -/
def alone (clause : Clause) (select : Select) : Select :=
  assemble (Function.update (fun _ => {}) clause select)

end Clause

/-- The attribute under a key, and no other. -/
def Parse.only (fields : Json.Fields) (key : String) : Json.Fields :=
  ((fields.lookup key).map fun value => (key, value)).toList

/-- The clauses that a select must not have, each with its keywords. The first of them that it has
is the one that is named. -/
def unsupportedClauses : List (String × String) :=
  [("distinctClause", "DISTINCT"), ("intoClause", "INTO"), ("groupClause", "GROUP BY"),
    ("havingClause", "HAVING"), ("windowClause", "WINDOW"), ("valuesLists", "VALUES"),
    ("lockingClause", "FOR UPDATE"), ("withClause", "WITH")]

/-- The result of a select with some attributes, given what each of its clauses gives alone. A
clause that is refused comes before a set operation, and both come before the other clauses, of
which the first that fails gives the error. -/
inductive Composed (fields : Json.Fields) (alone : Clause → Except Error Select) :
    Except Error Select → Prop
  | refused {clause : String × String} :
    unsupportedClauses.find? (fun clause => (present? fields clause.1).isSome) = some clause →
    Composed fields alone (.error (.unsupportedConstruct .selectClause clause.2))
  | malformed {value : Json} :
    (∀ clause ∈ unsupportedClauses, present? fields clause.1 = none) →
    present? fields "op" = some value → value.toInt64? = none →
    Composed fields alone (.error (.invalidAttribute "SelectStmt" "op" (.nonInteger value.shape)))
  | operation {code : Int64} :
    (∀ clause ∈ unsupportedClauses, present? fields clause.1 = none) →
    HasCode fields "op" code → code ≠ 0 →
    Composed fields alone (.error (.unsupportedConstruct .setOperation (toString code)))
  | failed {clause : Clause} {error : Error} :
    (∀ clause ∈ unsupportedClauses, present? fields clause.1 = none) → HasCode fields "op" 0 →
    Clause.all.find? (fun clause => !(alone clause).isOk) = some clause →
    alone clause = .error error → Composed fields alone (.error error)
  | select {parts : Clause → Select} :
    (∀ clause ∈ unsupportedClauses, present? fields clause.1 = none) → HasCode fields "op" 0 →
    (∀ clause, alone clause = .ok (parts clause)) →
    Composed fields alone (.ok (Clause.assemble parts))

/-! ## Clauses in order -/

namespace Lower

variable {α β : Type} {result : Except Error α}

lemma isOk_eq_true_iff : result.isOk = true ↔ ∃ a, result = .ok a := by
  cases result <;> simp [Except.isOk, Except.toBool]

lemma isOk_eq_false_iff : result.isOk = false ↔ ∃ error, result = .error error := by
  cases result <;> simp [Except.isOk, Except.toBool]

@[simp] lemma isOk_map (f : α → β) : (result.map f).isOk = result.isOk := by
  cases result <;> rfl

end Lower

namespace Clause

/-- Takes a step for each clause in order, and puts together what they give. -/
def inOrder {m : Type → Type} [Monad m] (step : Clause → m Select) : m Select := do
  let sources ← step .sources
  let targets ← step .targets
  let filter ← step .filter
  let orders ← step .orders
  let limit ← step .limit
  let offset ← step .offset
  return assemble fun
    | .sources => sources
    | .targets => targets
    | .filter => filter
    | .orders => orders
    | .limit => limit
    | .offset => offset

section

variable {results : Clause → Except Error Select}

lemma inOrder_of_ok {parts : Clause → Select} (h : ∀ clause, results clause = .ok (parts clause)) :
    inOrder results = .ok (assemble parts) := by
  simp only [inOrder, h]
  rfl

/-- If all clauses but one are empty, the select has this clause alone. -/
lemma inOrder_of_others {clause : Clause} (h : ∀ other, other ≠ clause → results other = .ok {}) :
    inOrder results = (results clause).map clause.alone := by
  cases clause <;>
    simp only [inOrder, h, ne_eq, reduceCtorEq, not_false_eq_true, Lower.ok_bind] <;>
    cases results _ <;> rfl

/-- The first clause that fails gives the error. -/
lemma inOrder_of_error {clause : Clause}
    (h : all.find? (fun clause => !(results clause).isOk) = some clause) :
    inOrder results = results clause := by
  have hok (clause : Clause) : (results clause).isOk = true ↔
      ∃ part, results clause = .ok part := Lower.isOk_eq_true_iff
  have herror (clause : Clause) : (results clause).isOk = false ↔
      ∃ error, results clause = .error error := Lower.isOk_eq_false_iff
  simp only [all, List.find?_cons_eq_some, List.find?_nil, Bool.not_eq_true',
    Bool.not_eq_false'] at h
  rcases h with ⟨h, rfl⟩ | ⟨hsources, ⟨h, rfl⟩ | ⟨htargets, ⟨h, rfl⟩ | ⟨hfilter, ⟨h, rfl⟩ |
    ⟨horders, ⟨h, rfl⟩ | ⟨hlimit, ⟨h, rfl⟩ | ⟨_, h⟩⟩⟩⟩⟩⟩
  all_goals grind [inOrder, Lower.ok_bind, Lower.error_bind]

end

end Clause

namespace Lower

open Clause (inOrder)

/-! ## The steps of a select -/

section

variable {α β : Type}

/-- What follows a step starts where the step started. -/
lemma Needs.result_bind {step : Lower α} {n : Nat} (h : Needs step n) {config : Config}
    {depth : Nat} (h0 : Fits config depth 0) (next : α → Lower β) :
    ((step >>= next).run config depth).result =
      (step.run config depth).result >>= fun a => ((next a).run config depth).result := by
  obtain ⟨cost, hcost⟩ := h.metered
  have hdepth := hcost.depth_run config depth h0
  rw [run_bind]
  cases hresult : (step.run config depth).result with
  | error error => exact (Outcome.andThen_of_error _ hresult).1
  | ok a =>
    rw [(Outcome.andThen_of_ok _ hresult).1, hdepth]
    rfl

end

/-- Lowers one clause of a select. -/
def clause (attributes : NodeAttributes) : Clause → Lower Select
  | .sources => do
    let sources ← sources attributes
    return { source := sources.tables?, joins := sources.joins }
  | .targets => do
    let projections ← eachOf attributes "targetList"
    return { projections }
  | .filter => do
    let filter ← optional (attributes.node? "whereClause")
    return { wheres := filter.toList }
  | .orders => do
    let orders ← eachOf attributes "sortClause"
    return { orders }
  | .limit => do
    let limit ← optional (attributes.node? "limitCount")
    return { limit }
  | .offset => do
    let offset ← optional (attributes.node? "limitOffset")
    return { offset }

/-- A select is lowered clause by clause, after those that are refused. -/
lemma select_eq (attributes : NodeAttributes) :
    select attributes = do
      refuseClauses attributes
      let select ← inOrder (clause attributes)
      note (.select select.projections.length select.joins.length select.orders.length)
      return select := by
  simp only [select, inOrder, Clause.assemble, clause, bind_assoc, pure_bind]

section

variable {tag : String} {fields : Json.Fields}

lemma exists_needs_clause (part : Clause) :
    ∃ levels, Needs (clause (.of child tag fields) part) levels := by
  have ih := eachBudgeted tag fields
  cases part with
  | sources => exact ⟨_, (needs_sources ih).bind_pure fun _ _ => Needs.pure _⟩
  | targets => exact ⟨_, (needs_eachOf ih "targetList").bind_pure fun _ _ => Needs.pure _⟩
  | filter => exact ⟨_, (needs_optional ih "whereClause").bind_pure fun _ _ => Needs.pure _⟩
  | orders => exact ⟨_, (needs_eachOf ih "sortClause").bind_pure fun _ _ => Needs.pure _⟩
  | limit => exact ⟨_, (needs_optional ih "limitCount").bind_pure fun _ _ => Needs.pure _⟩
  | offset => exact ⟨_, (needs_optional ih "limitOffset").bind_pure fun _ _ => Needs.pure _⟩

/-- The result of one clause of a select. -/
def clauseResult (config : Config) (depth : Nat) (attributes : NodeAttributes) (part : Clause) :
    Except Error Select :=
  ((clause attributes part).run config depth).result

lemma result_select {config : Config} {depth : Nat} (h0 : Fits config depth 0) :
    ((select (.of child tag fields)).run config depth).result =
      ((refuseClauses (.of child tag fields)).run config depth).result >>= fun _ =>
        inOrder (clauseResult config depth (.of child tag fields)) := by
  have hclause (part : Clause) (next : Select → Lower Select) :
      ((clause (.of child tag fields) part >>= next).run config depth).result =
        clauseResult config depth (.of child tag fields) part >>= fun select =>
          ((next select).run config depth).result := by
    obtain ⟨levels, hneeds⟩ := exists_needs_clause part
    exact hneeds.result_bind h0 next
  rw [select_eq, (needs_refuseClauses tag fields).result_bind h0]
  simp only [inOrder, bind_assoc, hclause, pure_bind]
  rfl

/-! ## A clause alone -/

/-- A clause depends on its own attribute alone. -/
lemma clause_congr {fields fields' : Json.Fields} {part : Clause}
    (h : present? fields part.key = present? fields' part.key) :
    clause (.of child tag fields) part = clause (.of child tag fields') part := by
  have hread : ReadAlike tag fields fields' part.key := readAlike (h ▸ rel_refl _)
  cases part <;> rw [Clause.key] at hread
  case sources => rw [clause, clause, sources, sources, hread.list?]
  case targets => rw [clause, clause, eachOf, eachOf, hread.list?]
  case filter => rw [clause, clause, hread.node?]
  case orders => rw [clause, clause, eachOf, eachOf, hread.list?]
  case limit => rw [clause, clause, hread.node?]
  case offset => rw [clause, clause, hread.node?]

/-- A clause that is absent is empty. -/
lemma clause_nil (part : Clause) : clause (.of child tag []) part = pure {} := by
  cases part <;> rfl

lemma present?_only (fields : Json.Fields) (key key' : String) :
    present? (Parse.only fields key) key' = if key' = key then present? fields key else none := by
  unfold present? Parse.only
  cases hlookup : fields.lookup key with
  | none => split <;> rfl
  | some value =>
    by_cases hkey : key' = key
    · rw [if_pos hkey, hkey]
      simp
    · have hne : (key' == key) = false := by simpa using hkey
      rw [if_neg hkey]
      simp [List.lookup_cons, hne]

/-- Refusing clauses costs nothing, so no limit stops it. -/
lemma result_refuseClauses (attributes : NodeAttributes) (config : Config) (depth : Nat) :
    ((refuseClauses attributes).run config depth).result = answer (refuseClauses attributes) := by
  unfold refuseClauses
  split
  · rfl
  · rw [liftM_eq]
    cases attributes.code "op" with
    | error error => rfl
    | ok code =>
      show ((refuse (code != 0) _).run config depth).result = answer (refuse (code != 0) _)
      cases code != 0 <;> rfl

/-- Alone, no clause is refused. -/
lemma answer_refuseClauses_only (part : Clause) :
    answer (refuseClauses (.of child tag (Parse.only fields part.key))) = .ok () := by
  have hkeys : ∀ clause ∈ refusedClauses, clause.1 ≠ part.key := by
    cases part <;> decide
  have hop : "op" ≠ part.key := by
    cases part <;> decide
  refine answer_refuseClauses_eq_ok_iff.mpr ⟨fun clause hclause => ?_, ?_⟩
  · rw [present?_only, if_neg (hkeys clause hclause)]
  · rw [HasCode, present?_only, if_neg hop]

/-- A select with one clause gives what this clause gives. -/
lemma result_only {config : Config} {depth : Nat} (h0 : Fits config depth 0) (part : Clause) :
    ((select (.of child tag (Parse.only fields part.key))).run config depth).result =
      (clauseResult config depth (.of child tag fields) part).map part.alone := by
  have hpart : present? (Parse.only fields part.key) part.key = present? fields part.key := by
    rw [present?_only, if_pos rfl]
  have hself : clauseResult config depth (.of child tag (Parse.only fields part.key)) part =
      clauseResult config depth (.of child tag fields) part := by
    rw [clauseResult, clauseResult, clause_congr hpart]
  have hother (other : Clause) (hne : other ≠ part) :
      clauseResult config depth (.of child tag (Parse.only fields part.key)) other = .ok {} := by
    have habsent : present? (Parse.only fields part.key) other.key = present? [] other.key := by
      rw [present?_only, if_neg fun hkey => hne (Clause.key_injective hkey)]
      rfl
    rw [clauseResult, clause_congr habsent, clause_nil]
    rfl
  rw [result_select h0, result_refuseClauses, answer_refuseClauses_only, ok_bind,
    Clause.inOrder_of_others hother, hself]

end

/-! ## Clauses that are refused -/

/-- Lowering refuses exactly the clauses that are not supported. -/
lemma refusedClauses_eq : refusedClauses = unsupportedClauses := rfl

section

variable {fields : Json.Fields} {alone : Clause → Except Error Select}

lemma code_eq_readCode_present (tag key : String) :
    (Attributes.of child tag fields).code key = readCode tag key (present? fields key) := by
  rw [Attributes.code, Attributes.contains, Attributes.int, Attributes.get?_of_present]
  cases present? fields key <;> rfl

/-- What is refused is refused for a clause, or else for the set operation. -/
lemma composed_of_refused {error : Error}
    (h : answer (refuseClauses (.of child Kind.selectStmt.tag fields)) = .error error) :
    Composed fields alone (.error error) := by
  have hcontains : (fun clause : String × String =>
      (Attributes.of child Kind.selectStmt.tag fields).contains clause.1) =
        fun clause => (present? fields clause.1).isSome := by
    funext clause
    rw [Attributes.contains_of, Attributes.contains_raw]
  rw [refuseClauses, refusedClauses_eq, hcontains, liftM_eq, code_eq_readCode_present] at h
  cases hfind : unsupportedClauses.find? (fun clause => (present? fields clause.1).isSome) with
  | some clause =>
    rw [hfind] at h
    cases h
    exact .refused hfind
  | none =>
    have hnone : ∀ clause ∈ unsupportedClauses, present? fields clause.1 = none := by
      simpa using hfind
    rw [hfind] at h
    dsimp only at h
    rw [answer_ofReading_bind] at h
    cases hop : present? fields "op" with
    | none =>
      rw [hop] at h
      cases h
    | some value =>
      cases hcode : value.toInt64? with
      | none =>
        simp only [hop, readCode, hcode, error_bind] at h
        cases h
        exact .malformed hnone hop hcode
      | some code =>
        simp only [hop, readCode, hcode, ok_bind] at h
        have hhas : HasCode fields "op" code := by rw [HasCode, hop]; exact hcode
        by_cases hzero : code = 0
        · subst hzero
          cases h
        · rw [bne_iff_ne.mpr hzero] at h
          cases h
          exact .operation hnone hhas hzero

end

/-- A limit of at least one lets a statement come to its clauses. -/
lemma result_statement_select {limit : UInt64} (hlimit : 1 ≤ limit) (fields : Json.Fields) :
    ((Session.fresh limit).statement (tagged .selectStmt fields)).1.result =
      ((select (.of child Kind.selectStmt.tag fields)).run { maxDepth := limit } 1).result := by
  have hroom : ¬ limit.toNat < min (0 + 1) depthCeiling := by
    rw [Nat.not_lt]
    exact Nat.le_trans (Nat.min_le_left _ _) (UInt64.le_iff_toNat_le.mp hlimit)
  rw [Session.statement, statement_select]
  show ((descend 1 (select _)).run { maxDepth := limit } 0).result = _
  unfold descend run
  dsimp only
  rw [if_neg hroom]
  rfl

end Lower

/-- **A select is lowered clause by clause.** Under a limit of at least one, a select with some
attributes has the result that its clauses have when each is the only one: it is refused for the
first clause that is not supported, or else for its set operation; or else the first clause that
fails alone gives the error; or else every clause is what it is alone. -/
theorem select_composed_of_clauses (fields : Json.Fields) (limit : UInt64) (hlimit : 1 ≤ limit) :
    Composed fields
      (fun clause =>
        ((Session.fresh limit).statement
          (tagged .selectStmt (Parse.only fields clause.key))).1.result)
      ((Session.fresh limit).statement (tagged .selectStmt fields)).1.result := by
  have h0 : Fits { maxDepth := limit } 1 0 :=
    Nat.le_trans (Nat.min_le_left _ _) (UInt64.le_iff_toNat_le.mp hlimit)
  simp only [Lower.result_statement_select hlimit, Lower.result_only h0]
  rw [Lower.result_select h0, Lower.result_refuseClauses]
  generalize Lower.clauseResult { maxDepth := limit } 1 (.of child Kind.selectStmt.tag fields) =
    results
  cases hrefuse : Lower.answer (Lower.refuseClauses (.of child Kind.selectStmt.tag fields)) with
  | error error => exact Lower.composed_of_refused hrefuse
  | ok done =>
    obtain ⟨hnone, hop⟩ := Lower.answer_refuseClauses_eq_ok_iff.mp hrefuse
    rw [Lower.refusedClauses_eq] at hnone
    rw [Lower.ok_bind]
    cases hfirst : Clause.all.find? fun clause => !(results clause).isOk with
    | some clause =>
      obtain ⟨error, herror⟩ : ∃ error, results clause = .error error := by
        have hfails := List.find?_some hfirst
        rwa [Bool.not_eq_true', Lower.isOk_eq_false_iff] at hfails
      have halone : (results clause).map clause.alone = .error error := by
        rw [herror]
        rfl
      rw [Clause.inOrder_of_error hfirst, herror]
      exact .failed hnone hop (by simpa using hfirst) halone
    | none =>
      have hparts (clause : Clause) : ∃ part, results clause = .ok part := by
        have hmem : clause ∈ Clause.all := by cases clause <;> decide
        have hok := List.find?_eq_none.mp hfirst clause hmem
        rwa [Bool.not_eq_true', Bool.not_eq_false, Lower.isOk_eq_true_iff] at hok
      choose parts hparts using hparts
      rw [Clause.inOrder_of_ok hparts]
      -- a select made of clauses that stand alone has these clauses
      show Composed fields _ (.ok (Clause.assemble fun clause => clause.alone (parts clause)))
      refine .select hnone hop fun clause => ?_
      rw [hparts]
      rfl

/-- The attributes of a select from a table, with a filter that is no expression and a limit that is
no node. -/
def twoFaults : Json.Fields :=
  [("limitCount", .bool true), ("whereClause", tagged .joinExpr []), ("op", .ofNat 0),
    ("fromClause", .array [tagged .rangeVar [("relname", .string "t")]])]

/-- The same attributes after a WITH and a GROUP BY clause. -/
def refusedTwice : Json.Fields :=
  ("withClause", .object []) :: ("groupClause", .array []) :: twoFaults

/-- GROUP BY is reported before WITH and both faults, and the filter before the limit. Without any
of them, the table is what it is alone. -/
theorem select_composed_of_clauses_twoFaults :
    (1 : UInt64) ≤ 2 ∧
    Composed refusedTwice
      (fun clause =>
        ((Session.fresh 2).statement
          (tagged .selectStmt (Parse.only refusedTwice clause.key))).1.result)
      (.error (.unsupportedConstruct .selectClause "GROUP BY")) ∧
    Composed twoFaults
      (fun clause =>
        ((Session.fresh 2).statement
          (tagged .selectStmt (Parse.only twoFaults clause.key))).1.result)
      (.error (.misplaced .joinExpr .expression)) ∧
    Composed (twoFaults.drop 2)
      (fun clause =>
        ((Session.fresh 2).statement
          (tagged .selectStmt (Parse.only (twoFaults.drop 2) clause.key))).1.result)
      (.ok { source := some [{ name := "t" }] }) :=
  ⟨by decide, select_composed_of_clauses refusedTwice 2 (by decide),
    select_composed_of_clauses twoFaults 2 (by decide),
    select_composed_of_clauses (twoFaults.drop 2) 2 (by decide)⟩

end SelectTree
