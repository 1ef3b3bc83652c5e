import SelectTree.Lower.Statement

/-!
# Sessions

A session lowers one parse tree after another under one configuration. It keeps the depth counter
between calls; each call answers with its result and the notes taken, and gives the session back.
-/

namespace SelectTree

open Query (Node Select)

/-- A session: its configuration, and where its depth counter stands. -/
structure Session where
  config : Config := {}
  depth : Nat := 0
deriving DecidableEq

/-- The answer to a call: its result, and the notes taken. -/
structure Answer (α : Type) where
  result : Except Error α
  notes : List Note

namespace Session

variable {α : Type}

/-- Runs a step of lowering from where the counter stands. -/
def call (session : Session) (step : Lower α) : Answer α × Session :=
  let outcome := step.run session.config session.depth
  (⟨outcome.result, outcome.notes⟩, { session with depth := outcome.depth })

/-- Lowers a parse node in a context. -/
def node (session : Session) (value : Json) (context : Context := {}) :
    Answer Node × Session :=
  session.call (Lower.node value context)

/-- Lowers a statement. -/
def statement (session : Session) (value : Json) : Answer Select × Session :=
  session.call (Lower.statement value)

/-- Lowers the first statement of a parse result. -/
def tree (session : Session) (result : Json) : Answer Select × Session :=
  session.call (Lower.tree result)

/-- Parses SQL text and lowers its first statement. -/
def parse (session : Session) (parser : Lower.Parser) (sql : String) :
    Answer Select × Session :=
  session.call (Lower.parse parser sql)

end Session

end SelectTree
