import SelectTree.Proofs.Rules.Exact

/-!
# What sessions lower

Whatever a session lowers, under any limit and from wherever its counter stands, it lowers by the
rules: a node to what `Gives` says, and a statement to the select that it is as a node. The limit
then leaves room for what it lowered.
-/

namespace SelectTree

open Lower (Fits Gives GivesSelect need)
open Parse (Attributes Kind tagged)
open Query (Node Select)

/-! ## Steps down -/

namespace Lower

/-- A step down that succeeds started within the limit. -/
lemma fits_of_descend {α : Type} {weight : Nat} {step : Lower α} {config : Config} {depth : Nat}
    {a : α} (h : ((descend weight step).run config depth).result = .ok a) :
    Fits config depth 0 := by
  unfold descend run at h
  dsimp only at h
  split at h
  · cases h
  · rw [Fits]
    omega

lemma statement_select (fields : Json.Fields) :
    statement (tagged .selectStmt fields) =
      note (.statement Kind.selectStmt.tag) >>= fun _ =>
        descend 1 (select (.of child Kind.selectStmt.tag fields)) := by
  rw [statement, tagged, Parse.readTag, liftM_eq]
  refine ext fun config depth => ?_
  rw [run_bind, run_ofReading_ok, Outcome.andThen_ok, Attributes.tag_of, if_pos (Kind.ofTag?_tag _)]
  rfl

lemma givesSelect_of_gives {context : Context} {fields : Json.Fields} {select : Select}
    (h : Gives context (tagged .selectStmt fields) (.select select)) :
    GivesSelect fields select := by
  cases gives_tagged_iff.mp h with
  | makes h =>
    cases h with
    | select h => exact h

end Lower

/-! ## Answers of a session -/

variable {session : Session} {value : Json}

lemma gives_of_node {context : Context} {result : Node}
    (h : (session.node value context).1.result = .ok result) :
    Gives context value result ∧ Fits session.config session.depth (need value) := by
  have h0 : Fits session.config session.depth 0 := by
    obtain ⟨step, hstep⟩ := Lower.exists_descend_node value context
    rw [Session.node, Session.call, hstep] at h
    exact Lower.fits_of_descend h
  exact (((Lower.budgeted value).node context).result_eq_ok_iff h0).mp h

/-- Only a select is lowered as a statement. -/
lemma exists_selectStmt_of_statement {select : Select}
    (h : (session.statement value).1.result = .ok select) :
    ∃ fields, value = tagged .selectStmt fields := by
  rw [Session.statement, Session.call, Lower.statement, Lower.liftM_eq, Lower.run_bind] at h
  unfold Parse.readTag at h
  split at h
  · next tag fields =>
    rw [Lower.run_ofReading_ok, Outcome.andThen_ok, Attributes.tag_of] at h
    split at h
    · next htag => exact ⟨fields, by rw [tagged, Kind.ofTag?_eq_some_iff.mp htag]⟩
    · cases h
  · cases h

lemma gives_of_statement {select : Select}
    (h : (session.statement value).1.result = .ok select) :
    Gives {} value (.select select) ∧
      Fits session.config session.depth (need value - 8) := by
  obtain ⟨fields, rfl⟩ := exists_selectStmt_of_statement h
  have hneeds := Lower.needs_select (Lower.eachBudgeted Kind.selectStmt.tag fields)
  have h0 : Fits session.config session.depth 0 := by
    rw [Session.statement, Session.call, Lower.statement_select] at h
    exact Lower.fits_of_descend h
  obtain ⟨hanswer, hfits⟩ := ((Lower.needs_statement _).result_eq_ok_iff h0).mp h
  rw [Lower.statement_select, Lower.answer_note_bind, hneeds.answer_descend,
    Lower.answer_select_eq_ok_iff] at hanswer
  exact ⟨Lower.gives_tagged_iff.mpr (.makes (.select hanswer)), hfits⟩

end SelectTree
