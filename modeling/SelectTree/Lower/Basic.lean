import SelectTree.Config
import SelectTree.Note
import SelectTree.Parse.Node

/-!
# Lowering with a depth counter

Lowering walks down a parse tree. A counter tells how deep it stands: a step into a node adds the
node's weight to the counter, fails if the counter passes the configured limit, and puts the counter
back when it is done, also after a failure. Notes are taken on the way and are kept when a step
fails.
-/

namespace SelectTree

/-- What a computation ends with: its result, the notes taken, and the depth it ends at. -/
structure Outcome (α : Type) where
  result : Except Error α
  notes : List Note
  depth : Nat

namespace Outcome

variable {α β γ : Type}

/-- Goes on from the depth of a good outcome; a failure ends the computation where it stands. -/
def andThen (outcome : Outcome α) (next : α → Nat → Outcome β) : Outcome β :=
  match outcome with
  | ⟨.ok a, notes, depth⟩ =>
    ⟨(next a depth).result, notes ++ (next a depth).notes, (next a depth).depth⟩
  | ⟨.error error, notes, depth⟩ => ⟨.error error, notes, depth⟩

@[simp] theorem andThen_ok (a : α) (notes : List Note) (depth : Nat)
    (next : α → Nat → Outcome β) :
    (⟨.ok a, notes, depth⟩ : Outcome α).andThen next =
      ⟨(next a depth).result, notes ++ (next a depth).notes, (next a depth).depth⟩ := rfl

@[simp] theorem andThen_error (error : Error) (notes : List Note) (depth : Nat)
    (next : α → Nat → Outcome β) :
    (⟨.error error, notes, depth⟩ : Outcome α).andThen next = ⟨.error error, notes, depth⟩ := rfl

theorem andThen_assoc (outcome : Outcome α) (next : α → Nat → Outcome β)
    (last : β → Nat → Outcome γ) :
    (outcome.andThen next).andThen last =
      outcome.andThen fun a depth => (next a depth).andThen last := by
  rcases outcome with ⟨_ | a, notes, depth⟩
  · rfl
  · simp only [andThen_ok]
    rcases next a depth with ⟨_ | b, notes', depth'⟩
    · rfl
    · simp

end Outcome

/-- A computation of lowering: under a configuration, from a depth, to an outcome. -/
def Lower (α : Type) := Config → Nat → Outcome α

namespace Lower

variable {α β : Type}

/-- Runs a computation. -/
def run (step : Lower α) (config : Config) (depth : Nat) : Outcome α :=
  step config depth

instance : Monad Lower where
  pure a := fun _ depth => ⟨.ok a, [], depth⟩
  bind step next := fun config depth =>
    (step.run config depth).andThen fun a depth => (next a).run config depth

/-- Fails. -/
def fail (error : Error) : Lower α :=
  fun _ depth => ⟨.error error, [], depth⟩

/-- Fails if the condition holds. -/
def refuse (condition : Bool) (error : Error) : Lower Unit :=
  if condition then fail error else pure ()

/-- Takes a note. -/
def note (note : Note) : Lower Unit :=
  fun _ depth => ⟨.ok (), [note], depth⟩

/-- The notes that go with an error: an attribute of the wrong shape is told in detail. -/
def errorNotes : Error → List Note
  | .invalidAttribute kind key problem =>
    problem.found?.toList.map (.attributeShape kind key ·)
  | _ => []

/-- A reading of attributes as a step of lowering. -/
def ofReading (reading : Except Error α) : Lower α := fun _ depth =>
  match reading with
  | .ok a => ⟨.ok a, [], depth⟩
  | .error error => ⟨.error error, errorNotes error, depth⟩

instance : MonadLift (Except Error) Lower where
  monadLift := ofReading

/-- The greatest depth that the counter can show, `2 ^ 64 - 1`. -/
def depthCeiling : Nat := UInt64.size - 1

/-- Takes a step that goes `weight` levels deeper. -/
def descend (weight : Nat) (step : Lower α) : Lower α := fun config depth =>
  let deeper := min (depth + weight) depthCeiling
  if config.maxDepth.toNat < deeper then
    ⟨.error (.depthExceeded config.maxDepth), [], depth⟩
  else
    { step.run config deeper with depth }

/-! ## Laws -/

@[simp] theorem run_pure (a : α) (config : Config) (depth : Nat) :
    (pure a : Lower α).run config depth = ⟨.ok a, [], depth⟩ := rfl

@[simp] theorem run_bind (step : Lower α) (next : α → Lower β) (config : Config) (depth : Nat) :
    (step >>= next).run config depth =
      (step.run config depth).andThen fun a depth => (next a).run config depth := rfl

@[simp] theorem run_fail (error : Error) (config : Config) (depth : Nat) :
    (fail error : Lower α).run config depth = ⟨.error error, [], depth⟩ := rfl

@[simp] theorem run_note (taken : Note) (config : Config) (depth : Nat) :
    (note taken).run config depth = ⟨.ok (), [taken], depth⟩ := rfl

@[simp] theorem liftM_eq (reading : Except Error α) :
    (liftM reading : Lower α) = ofReading reading := rfl

@[simp] theorem run_ofReading_ok (a : α) (config : Config) (depth : Nat) :
    (ofReading (.ok a)).run config depth = ⟨.ok a, [], depth⟩ := rfl

@[simp] theorem run_ofReading_error (error : Error) (config : Config) (depth : Nat) :
    (ofReading (.error error : Except Error α)).run config depth =
      ⟨.error error, errorNotes error, depth⟩ := rfl

/-- A step down leaves the counter where it was, whatever the step does. -/
@[simp] theorem depth_descend (weight : Nat) (step : Lower α) (config : Config) (depth : Nat) :
    ((descend weight step).run config depth).depth = depth := by
  unfold descend run
  dsimp only
  split <;> rfl

/-- Two computations are equal if they run alike. -/
theorem ext {step step' : Lower α}
    (h : ∀ config depth, step.run config depth = step'.run config depth) : step = step' :=
  funext fun config => funext fun depth => h config depth

instance : LawfulMonad Lower := LawfulMonad.mk'
  Lower
  (fun step => by
    refine ext fun config depth => ?_
    change (step.run config depth).andThen _ = _
    rcases step.run config depth with ⟨_ | a, notes, depth⟩
    · rfl
    · change Outcome.mk (.ok a) (notes ++ []) depth = _
      rw [List.append_nil])
  (fun _ _ => rfl)
  (fun step next last => by
    refine ext fun config depth => ?_
    exact Outcome.andThen_assoc _ _ _)

end Lower

end SelectTree
