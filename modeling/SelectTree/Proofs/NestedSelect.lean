import SelectTree.Proofs.Rules.Session

/-!
# Nested selects

A select inside another statement is lowered as it would be on its own. The two ways into a select
charge the depth counter differently, nine levels for a nested select and one for a statement, but
what a step answers depends only on the room that the limit leaves it: `sameButLimit_of_metered`.
So `nested_select_as_alone` holds for every select, whether it is lowered or not.
-/

namespace SelectTree

open Lower (Metered NotDepth answer depthCeiling nestedWeight node)
open Parse (Attributes HasCode Kind present? tagged)
open Query (Node Select)

variable {α β : Type}

/-- The results of two runs under two limits that are the same, but that a run which is stopped
reports its own limit. -/
inductive SameButLimit (limit limit' : UInt64) : Except Error α → Except Error α → Prop
  | ok (a : α) : SameButLimit limit limit' (.ok a) (.ok a)
  | error {error : Error} : NotDepth error → SameButLimit limit limit' (.error error) (.error error)
  | stopped : SameButLimit limit limit' (.error (.depthExceeded limit))
      (.error (.depthExceeded limit'))

/-! ## The room that a limit leaves -/

/-- Below the ceiling of the counter, a limit leaves room for exactly as many levels as it has. -/
lemma fits_fresh_iff {limit : UInt64} (hlimit : limit.toNat < depthCeiling) (cost : Nat) :
    Lower.Fits { maxDepth := limit } 0 cost ↔ cost ≤ limit.toNat := by
  rw [Lower.Fits, Nat.zero_add]
  have hceiling : min cost depthCeiling ≤ limit.toNat ↔ cost ≤ limit.toNat := by omega
  exact hceiling

/-- What a step answers depends only on the room that the limit leaves it: two steps with the same
answer, whose limits are as far above their costs, have the same result. -/
lemma sameButLimit_of_metered {step : Lower α} {step' : Lower β} {f : α → β} {cost cost' : Nat}
    {limit limit' : UInt64} (h : Metered step cost) (h' : Metered step' cost')
    (hanswer : answer step' = (answer step).map f)
    (hroom : cost' + limit.toNat = cost + limit'.toNat) (hlimit : limit.toNat < depthCeiling)
    (hlimit' : limit'.toNat < depthCeiling) :
    SameButLimit limit limit' (((Session.fresh limit).call step).1.result.map f)
      ((Session.fresh limit').call step').1.result := by
  have hfits := fits_fresh_iff hlimit cost
  have hfits' := fits_fresh_iff hlimit' cost'
  by_cases hcost : cost ≤ limit.toNat
  · have hcost' : cost' ≤ limit'.toNat := by omega
    have hresult : ((Session.fresh limit).call step).1.result = answer step :=
      h.result_of_fits (hfits.mpr hcost)
    have hresult' : ((Session.fresh limit').call step').1.result = answer step' :=
      h'.result_of_fits (hfits'.mpr hcost')
    rw [hresult, hresult', hanswer]
    cases ha : answer step with
    | ok a => exact .ok (f a)
    | error error => exact .error (h.notDepth error ha)
  · have hcost' : ¬ cost' ≤ limit'.toNat := by omega
    have hresult : ((Session.fresh limit).call step).1.result = .error (.depthExceeded limit) :=
      h.result_of_not_fits (Nat.zero_le _) (mt hfits.mp hcost)
    have hresult' : ((Session.fresh limit').call step').1.result =
        .error (.depthExceeded limit') :=
      h'.result_of_not_fits (Nat.zero_le _) (mt hfits'.mp hcost')
    rw [hresult, hresult']
    exact .stopped

namespace Lower

/-! ## The ways into a select -/

/-- A last step that only puts a result into another form costs nothing. -/
lemma Metered.map {step : Lower α} {cost : Nat} (h : Metered step cost) (f : α → β) :
    Metered (step >>= fun a => pure (f a)) cost ∧
      answer (step >>= fun a => pure (f a)) = (answer step).map f := by
  cases ha : answer step with
  | ok a =>
    have hbind : Metered (step >>= fun a => pure (f a)) (max cost 0) :=
      h.bind_ok ha (metered_pure (f a))
    rw [Nat.max_zero] at hbind
    exact ⟨hbind, h.answer_bind_of_ok ha _⟩
  | error error => exact ⟨h.bind_error ha _, h.answer_bind_of_error ha _⟩

/-- A select costs as much as its clauses and one level as a statement, and nine levels as a
node. -/
lemma exists_metered_select (fields : Json.Fields) : ∃ cost,
    Metered (statement (tagged .selectStmt fields)) (1 + cost) ∧
      ∀ context, Metered (node (tagged .selectStmt fields) context) (nestedWeight + (1 + cost)) ∧
        answer (node (tagged .selectStmt fields) context) =
          (answer (statement (tagged .selectStmt fields))).map .select := by
  obtain ⟨cost, hselect⟩ := (needs_select (eachBudgeted Kind.selectStmt.tag fields)).metered
  obtain ⟨halone, hstatement⟩ := hselect.descend 1
  obtain ⟨hbelow, hnested⟩ := hselect.descend nestedWeight
  obtain ⟨hmetered, hmap⟩ := hnested.map Node.select
  refine ⟨cost, ?_, fun context => ?_⟩
  · rw [statement_select]
    have hbind : Metered (note (.statement Kind.selectStmt.tag) >>= fun _ =>
        descend 1 (select (.of child Kind.selectStmt.tag fields))) (max 0 (1 + cost)) :=
      (metered_note (.statement Kind.selectStmt.tag)).bind_ok rfl hstatement
    rwa [Nat.zero_max] at hbind
  · have hnode : node (tagged .selectStmt fields) context =
        descend 1 (nestedSelect (.of child Kind.selectStmt.tag fields)) := by
      rw [tagged, node_tagged, ofTag, Attributes.tag_of, Kind.ofTag?_tag]
      rfl
    obtain ⟨hanswer, hdescend⟩ := hmetered.descend 1
    rw [hnode, statement_select, answer_note_bind, halone, nestedSelect]
    refine ⟨?_, hanswer.trans (hmap.trans (by rw [hbelow]))⟩
    rwa [Nat.add_left_comm] at hdescend

/-- A scalar sub-link is lowered as what it holds, one level deeper. -/
lemma node_subLink {outer : Json.Fields} {value : Json} (hcode : HasCode outer "subLinkType" 4)
    (hvalue : present? outer "subselect" = some value) (context : Context) :
    node (tagged .subLink outer) context = descend 1 (node value {}) := by
  rw [tagged, node_tagged, ofTag, Attributes.tag_of, Kind.ofTag?_tag]
  simp only [ofKind, subLink, liftM_eq, Attributes.code_of, Attributes.node_of,
    Attributes.code_raw_eq_ok_iff.mpr hcode, Attributes.node_raw_eq_ok_iff.mpr hvalue]
  rfl

/-- A wrapped statement is lowered as what it holds, one level deeper. -/
lemma node_rawStmt {outer : Json.Fields} {value : Json}
    (hvalue : present? outer "stmt" = some value) (context : Context) :
    node (tagged .rawStmt outer) context = descend 1 (node value context) := by
  rw [tagged, node_tagged, ofTag, Attributes.tag_of, Kind.ofTag?_tag]
  simp only [ofKind, wrapped, liftM_eq, Attributes.node_of,
    Attributes.node_raw_eq_ok_iff.mpr hvalue]
  rfl

end Lower

/-! ## A nested select and the same select alone -/

/-- A node under a limit has the result that a select has as a statement under another limit, but
for the limits that they report. -/
def AsAlone (fields : Json.Fields) (limit : UInt64) (value : Json) (context : Context)
    (limit' : UInt64) : Prop :=
  SameButLimit limit limit'
    (((Session.fresh limit).statement (tagged .selectStmt fields)).1.result.map Node.select)
    ((Session.fresh limit').node value context).1.result

/-- **A nested select is lowered as it would be alone.** A select as a node, under a limit greater
by the weight of nesting, and a scalar sub-link or a wrapped statement that holds it, under a limit
greater by one more, have the result that the select has as a statement: the same select, or the
same error, but that each reports its own limit if it is stopped. -/
theorem nested_select_as_alone (fields : Json.Fields) (context : Context) (limit : UInt64)
    (hlimit : limit.toNat + 9 < depthCeiling) :
    AsAlone fields limit (tagged .selectStmt fields) context (limit + 8) ∧
      (∀ outer, HasCode outer "subLinkType" 4 →
        present? outer "subselect" = some (tagged .selectStmt fields) →
        AsAlone fields limit (tagged .subLink outer) context (limit + 9)) ∧
      ∀ outer, present? outer "stmt" = some (tagged .selectStmt fields) →
        AsAlone fields limit (tagged .rawStmt outer) context (limit + 9) := by
  obtain ⟨cost, hstatement, hnode⟩ := Lower.exists_metered_select fields
  -- neither of the greater limits reaches the ceiling, so that adding does not wrap around
  have hadd (shift : UInt64) (hshift : shift.toNat ≤ 9) :
      (limit + shift).toNat = limit.toNat + shift.toNat := by
    have hsize : depthCeiling < UInt64.size := by decide
    rw [UInt64.toNat_add]
    exact Nat.mod_eq_of_lt (Nat.lt_trans (by omega) hsize)
  have height : (limit + 8).toNat = limit.toNat + 8 := hadd 8 (by decide)
  have hnine : (limit + 9).toNat = limit.toNat + 9 := hadd 9 (by decide)
  have hwrapped (inner : Context) (value : Json)
      (hvalue : node value context = Lower.descend 1 (node (tagged .selectStmt fields) inner)) :
      AsAlone fields limit value context (limit + 9) := by
    obtain ⟨hmetered, hanswer⟩ := hnode inner
    obtain ⟨hdescend, hmetered⟩ := hmetered.descend 1
    rw [← hvalue] at hdescend hmetered
    rw [nestedWeight] at hmetered
    exact sameButLimit_of_metered hstatement hmetered (hdescend.trans hanswer) (by omega)
      (by omega) (by omega)
  refine ⟨?_, fun outer hcode hselect => ?_, fun outer hselect => ?_⟩
  · obtain ⟨hmetered, hanswer⟩ := hnode context
    rw [nestedWeight] at hmetered
    exact sameButLimit_of_metered hstatement hmetered hanswer (by omega) (by omega) (by omega)
  · exact hwrapped {} _ (Lower.node_subLink hcode hselect context)
  · exact hwrapped context _ (Lower.node_rawStmt hselect context)

/-- The attributes of `SELECT x FROM t`. -/
def plainSelect : Json.Fields :=
  [("targetList", .array [tagged .resTarget [("val", tagged .columnRef
      [("fields", .array [tagged .string [("str", .string "x")]])])]]),
    ("fromClause", .array [tagged .rangeVar [("relname", .string "t")]])]

/-- The attributes of a scalar sub-link that holds `plainSelect`. -/
def plainSubLink : Json.Fields :=
  [("subLinkType", .ofNat 4), ("subselect", tagged .selectStmt plainSelect)]

/-- As a statement the select needs four levels; three stop it, nested as well as alone. -/
theorem nested_select_as_alone_plainSelect :
    (HasCode plainSubLink "subLinkType" 4 ∧
      AsAlone plainSelect 4 (tagged .subLink plainSubLink) {} 13 ∧
      AsAlone plainSelect 3 (tagged .subLink plainSubLink) {} 12) ∧
    ((Session.fresh 12).node (tagged .subLink plainSubLink)).1.result =
      .error (.depthExceeded 12) := by
  have hcode : HasCode plainSubLink "subLinkType" 4 := rfl
  refine ⟨⟨hcode, ?_, ?_⟩, rfl⟩
  · exact (nested_select_as_alone plainSelect {} 4 (by decide)).2.1 plainSubLink hcode rfl
  · exact (nested_select_as_alone plainSelect {} 3 (by decide)).2.1 plainSubLink hcode rfl

end SelectTree
