import SelectTree.Command.Log
import SelectTree.Command.Options
import SelectTree.Json.Printer
import SelectTree.Json.Reader
import SelectTree.Query.Encode
import SelectTree.Session

/-!
# Running the command line

A run reads JSON text, lowers what it holds, and prints the select as JSON. What is read is given as
a value, so that a run is a function of its arguments, environment and input. The help pages are
given as well; what is said about a misuse is left to the program.
-/

namespace SelectTree.Command

open Query (Select)

/-- How a run ends. -/
inductive Ending where
  /-- The output is printed: a select, the version, or a help page. -/
  | success (output : String) (log : List String)
  /-- The run failed. -/
  | failure (message : String) (log : List String)
  /-- The command line was a misuse; nothing was read and no message belongs to it. -/
  | misuse
deriving DecidableEq

namespace Ending

/-- The exit code of the program. -/
def exitCode : Ending → UInt32
  | .success .. => 0
  | .failure .. => 1
  | .misuse => 2

/-- What is printed on standard output. -/
def output : Ending → String
  | .success output _ => output
  | _ => ""

/-- The message of a failure. -/
def message? : Ending → Option String
  | .failure message _ => some message
  | _ => none

/-- The lines of the log. -/
def log : Ending → List String
  | .success _ log | .failure _ log => log
  | .misuse => []

end Ending

/-- How many arrays and objects of an input text may be open at once. -/
def nestingLimit : Nat := 127

/-- What the version option prints. -/
def version : String := "to-arel 0.1.0\n"

/-- The text of a select. -/
def render (compact : Bool) (select : Select) : String :=
  select.toJson.print (if compact then .compact else .indented)

/-- The message of an error: its kind and its wording. -/
def errorMessage (error : Error) : String :=
  error.kind.name ++ ": " ++ error.message

/-- Lowers what the input of a task holds. -/
def Task.lower : Task → Json → Lower Select
  | .result => Lower.tree
  | .statement => Lower.statement

/-- Runs a task on an input text, with the notes taken. -/
def lowerText (options : Options) (text : String) : Except String Select × List Note :=
  let notes := [.nestingLimit options.config.maxDepth, .bytesRead text.utf8ByteSize]
  match Json.read? nestingLimit text with
  | none => (.error "input is not valid JSON", notes)
  | some value =>
    let (answer, _) := Session.call { config := options.config } (options.task.lower value)
    (answer.result.mapError errorMessage, notes ++ answer.notes)

/-- Runs a task on its input, which is absent if it could not be read, with the notes taken. -/
def Options.lower (options : Options) (input : Option String) : Except String Select × List Note :=
  match input with
  | none =>
    (.error ("failed to read " ++ options.file.getD "stdin"),
      [.nestingLimit options.config.maxDepth])
  | some text => lowerText options text

/-- Runs a task on its input, and prints how it ends. -/
def Options.run (options : Options) (input : Option String) : Ending :=
  match options.lower input with
  | (.ok select, notes) =>
    .success (render options.compact select ++ "\n") (logLines options.verbose notes)
  | (.error message, notes) => .failure message (logLines options.verbose notes)

/-- The input of a run: its file if it has one, or else the standard input. Either is absent if it
cannot be read. -/
def Options.input (options : Options) (stdin : Option String) (files : String → Option String) :
    Option String :=
  match options.file with
  | none => stdin
  | some file => files file

/-- Runs a command line. `stdin` is the standard input, if it can be read, `files` are the files
that can be read, and `pages` the help pages. -/
def run (arguments : List String) (environment : Option String) (stdin : Option String)
    (files : String → Option String) (pages : Topic → String := fun _ => "") : Ending :=
  match parse? arguments environment with
  | none => .misuse
  | some .version => .success version []
  | some (.help topic) => .success (pages topic) []
  | some (.run options) => options.run (options.input stdin files)

end SelectTree.Command
