import SelectTree.Proofs.Meter
import SelectTree.Session

/-!
# Sessions can be used again

A session hands its depth counter from call to call, so a call could leave a mark on those after it.
`Steady` is what rules this out: a step ends at the depth that it started from, also when it fails.
Every step that a session takes is steady, a call leaves the session as it was, and by induction
over the calls each reply is that of a session which has not been used yet.
-/

namespace SelectTree

open Query (Node Select)

namespace Lower

variable {α β : Type}

/-! ## Steady steps -/

/-- A step ends at the depth that it started from, whether it succeeds or fails. -/
def Steady (step : Lower α) : Prop :=
  ∀ config depth, (step.run config depth).depth = depth

namespace Steady

protected lemma pure (a : α) : Steady (pure a : Lower α) :=
  fun _ _ => rfl

protected lemma fail (error : Error) : Steady (fail error : Lower α) :=
  fun _ _ => rfl

protected lemma note (taken : Note) : Steady (note taken) :=
  fun _ _ => rfl

lemma reading (reading : Except Error α) : Steady (ofReading reading) := by
  intro config depth
  cases reading <;> rfl

/-- The step may do what it likes below: the counter is put back after it. -/
protected lemma descend (weight : Nat) (step : Lower α) : Steady (descend weight step) :=
  depth_descend weight step

protected lemma bind {step : Lower α} {next : α → Lower β} (h : Steady step)
    (hnext : ∀ a, Steady (next a)) : Steady (step >>= next) := by
  intro config depth
  rw [run_bind]
  cases hresult : (step.run config depth).result with
  | error error => rw [(Outcome.andThen_of_error _ hresult).2, h config depth]
  | ok a =>
    rw [(Outcome.andThen_of_ok _ hresult).2, h config depth]
    exact hnext a config depth

end Steady

/-! ## The steps of a session -/

lemma steady_node (value : Json) (context : Context) : Steady (node value context) := by
  obtain ⟨step, hstep⟩ := exists_descend_node value context
  rw [hstep]
  exact Steady.descend 1 step

lemma steady_statement (value : Json) : Steady (statement value) := by
  refine (Steady.reading _).bind fun attributes => ?_
  split
  · exact (Steady.note _).bind fun _ => Steady.descend 1 _
  · exact Steady.fail _

lemma steady_firstStatement (result : Json) : Steady (firstStatement result) := by
  refine (Steady.reading _).bind fun statements => ?_
  cases statements with
  | nil => exact Steady.fail _
  | cons first rest =>
    have hfirst : Steady (note (.firstStatement (Parse.peekTag? first)) >>= fun _ => pure first) :=
      (Steady.note _).bind fun _ => Steady.pure first
    dsimp only
    split
    · exact (Steady.note _).bind fun _ => hfirst
    · exact hfirst

lemma steady_tree (result : Json) : Steady (tree result) :=
  (steady_firstStatement result).bind steady_statement

lemma steady_parse (parser : Parser) (sql : String) : Steady (parse parser sql) := by
  unfold parse
  split
  · exact Steady.fail _
  · exact steady_tree _

end Lower

/-! ## Calls -/

/-- A call of a session. -/
inductive Call where
  | parse (parser : Lower.Parser) (sql : String)
  | tree (result : Json)
  | statement (value : Json)
  | node (value : Json) (context : Context)

/-- The reply to a call: the answer about a select, or about a node. -/
inductive Reply where
  | select (answer : Answer Select)
  | node (answer : Answer Node)

namespace Session

/-- Serves a call: the reply, and the session after it. -/
def serve (session : Session) : Call → Reply × Session
  | .parse parser sql => (session.parse parser sql).map .select id
  | .tree result => (session.tree result).map .select id
  | .statement value => (session.statement value).map .select id
  | .node value context => (session.node value context).map .node id

/-- Serves calls one after another: each reply, with the session as it stands after it. -/
def serveAll : Session → List Call → List (Reply × Session)
  | _, [] => []
  | session, call :: rest => session.serve call :: serveAll (session.serve call).2 rest

/-- A steady step leaves the session as it was, wherever its counter stands. -/
lemma call_of_steady {α : Type} {step : Lower α} (h : step.Steady) (session : Session) :
    (session.call step).2 = session := by
  simp only [call, h session.config session.depth]

/-- A call leaves the session as it was. -/
lemma serve_session (session : Session) (call : Call) : (session.serve call).2 = session := by
  cases call with
  | parse parser sql => exact call_of_steady (Lower.steady_parse parser sql) session
  | tree result => exact call_of_steady (Lower.steady_tree result) session
  | statement value => exact call_of_steady (Lower.steady_statement value) session
  | node value context => exact call_of_steady (Lower.steady_node value context) session

/-- After any calls each reply is the one that the session would have given at first. -/
lemma serveAll_eq_map (session : Session) (calls : List Call) :
    session.serveAll calls = calls.map fun call => ((session.serve call).1, session) := by
  induction calls with
  | nil => rfl
  | cons call rest ih =>
    have hcall : session.serve call = ((session.serve call).1, session) :=
      Prod.ext rfl (serve_session session call)
    rw [serveAll, serve_session, ih, List.map_cons, ← hcall]

end Session

/-- **Replies do not depend on history.** Whatever calls a session has served, and however they
ended, its counter stands at zero, its configuration is the one it started with, and the reply to a
call is the reply of a session that has not been used yet. -/
theorem replies_independent_of_history (config : Config) (calls : List Call) :
    Session.serveAll { config } calls =
      calls.map fun call => ((Session.serve { config } call).1, { config, depth := 0 }) :=
  Session.serveAll_eq_map { config } calls

end SelectTree
