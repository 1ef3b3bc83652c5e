import SelectTree.Note
import SelectTree.Text.Control
import SelectTree.Text.Lines

/-!
# The log

The notes of a run as lines. A note opens with its level. Control characters in it are made
visible; if it has line breaks it takes several lines, none of them indented.
-/

namespace SelectTree.Command

/-- The word for a level. -/
def levelName : Level → String
  | .warning => "WARN"
  | .detail => "DEBUG"

/-- The lines of a note. -/
def noteLines (note : Note) : List String :=
  let text := (levelName note.level ++ " " ++ note.text).toList
  (Text.lines (Text.visible text)).map fun line => String.ofList (Text.trimStart line)

/-- The log of a run: all notes if it is verbose, or else the warnings alone. -/
def logLines (verbose : Bool) (notes : List Note) : List String :=
  (notes.filter fun note => verbose || note.level = .warning).flatMap noteLines

end SelectTree.Command
