import SelectTree.Config

/-!
# Command line options

The command line is a list of arguments: options, then a command, then the options and the file of
that command. Arguments are taken from left to right. Asking for the version or for a help page ends
the reading at once; an argument that has no place makes the whole command line a misuse.
-/

namespace SelectTree.Command

/-- What the input of a run is. -/
inductive Task where
  /-- A parse result, of which the first statement is lowered. -/
  | result
  /-- A single statement. -/
  | statement
deriving DecidableEq

/-- The task that a command names. -/
def Task.ofName? : String → Option Task
  | "translate" => some .result
  | "statement" => some .statement
  | _ => none

/-- What a help page is about. -/
inductive Topic where
  /-- The program as a whole. -/
  | program
  /-- The command for a task. -/
  | command (task : Task)
  /-- The command that shows help pages. -/
  | help
deriving DecidableEq

/-- The help page that the arguments of the help command name. -/
def Topic.ofNames? : List String → Option Topic
  | [] => some .program
  | ["help"] => some .help
  | [name] => (Task.ofName? name).map .command
  | _ => none

/-- The options before the command. -/
structure Globals where
  maxDepth : Option UInt64 := none
  verbose : Bool := false
  compact : Bool := false
deriving DecidableEq

/-- The options and the file after the command. -/
structure Locals where
  compact : Bool := false
  file : Option String := none
deriving DecidableEq

/-- What the arguments ask for. -/
inductive Request where
  | version
  | help (topic : Topic)
  | run (globals : Globals) (task : Task) (locals : Locals)
deriving DecidableEq

/-! ## Numbers -/

/-- A number in an argument: digits, with a plus in front if one likes, below `2 ^ 64`. -/
def number? (text : String) : Option UInt64 :=
  let digits := match text.toList with
    | '+' :: rest => rest
    | all => all
  if digits.isEmpty || !digits.all Char.isDigit then none
  else
    let n := Nat.ofDigitChars 10 digits 0
    if n < UInt64.size then some (UInt64.ofNat n) else none

/-! ## After the command -/

namespace Locals

/-- What has been read: options and a file, or that help is asked for. -/
inductive Progress where
  | options (locals : Locals)
  | help

/-- Takes a file. There may be one, and its name may not be empty. -/
def setFile? (locals : Locals) (file : String) : Option Locals :=
  if file.isEmpty || locals.file.isSome then none else some { locals with file := some file }

/-- Reads arguments of which none is an option. -/
def readFiles? (locals : Locals) : List String → Option Locals
  | [] => some locals
  | file :: rest => (locals.setFile? file).bind (readFiles? · rest)

/-- Whether an argument after a command asks for help: spelled out, or by the first letter of a
cluster. -/
def asksForHelp (argument : String) : Bool :=
  argument = "--help" || "-h".toList.isPrefixOf argument.toList

/-- Reads the arguments after a command. A lone dash is a file, two end the options. -/
def read? (locals : Locals) : List String → Option Progress
  | [] => some (.options locals)
  | argument :: rest =>
    if argument = "--" then (locals.readFiles? rest).map .options
    else if argument = "--compact" then
      if locals.compact then none else read? { locals with compact := true } rest
    else if asksForHelp argument then some .help
    else if argument.startsWith "-" && argument ≠ "-" then none
    else (locals.setFile? argument).bind (read? · rest)

end Locals

/-- What is asked for by the command of a task and the arguments after it. -/
def Request.ofCommand (globals : Globals) (task : Task) : Locals.Progress → Request
  | .options locals => .run globals task locals
  | .help => .help (.command task)

/-! ## Before the command -/

namespace Globals

/-- What has been read so far: options, or that the version or help is asked for. -/
inductive Progress where
  | options (globals : Globals)
  | version
  | help

/-- Takes the depth limit. It may be given once. -/
def setMaxDepth? (globals : Globals) (text : String) : Option Globals :=
  if globals.maxDepth.isSome then none
  else (number? text).map fun n => { globals with maxDepth := some n }

/-- Takes the verbosity flag. It may be given once. -/
def setVerbose? (globals : Globals) : Option Globals :=
  if globals.verbose then none else some { globals with verbose := true }

/-- Takes the flag for compact output. It may be given once. -/
def setCompact? (globals : Globals) : Option Globals :=
  if globals.compact then none else some { globals with compact := true }

/-- Reads a cluster of one-letter options. -/
def readLetters? (globals : Globals) : List Char → Option Progress
  | [] => some (.options globals)
  | 'v' :: rest => globals.setVerbose?.bind (readLetters? · rest)
  | 'V' :: _ => some .version
  | 'h' :: _ => some .help
  | _ => none

/-- The value that is attached to the option for the depth limit. -/
def attachedMaxDepth? (argument : String) : Option String :=
  let start := "--max-depth=".toList
  if start.isPrefixOf argument.toList then
    some (String.ofList (argument.toList.drop start.length))
  else none

/-- Reads an option that stands in one argument. -/
def readOption? (globals : Globals) (argument : String) : Option Progress :=
  match argument with
  | "--version" => some .version
  | "--help" => some .help
  | "--verbose" => globals.setVerbose?.map .options
  | "--compact" => globals.setCompact?.map .options
  | _ =>
    match attachedMaxDepth? argument, argument.toList with
    | some text, _ => (globals.setMaxDepth? text).map .options
    | none, '-' :: '-' :: _ => none
    | none, '-' :: letter :: letters => globals.readLetters? (letter :: letters)
    | none, _ => none

/-- Reads a whole command line, after the options read so far. -/
def read? (globals : Globals) : List String → Option Request
  | [] => none
  | "--max-depth" :: rest =>
    match rest with
    | [] => none
    | text :: rest => (globals.setMaxDepth? text).bind (read? · rest)
  | "help" :: names => (Topic.ofNames? names).map .help
  | argument :: rest =>
    match Task.ofName? argument with
    | some task => (Locals.read? {} rest).map (.ofCommand globals task)
    | none =>
      match globals.readOption? argument with
      | some (.options globals) => globals.read? rest
      | some .version => some .version
      | some .help => some (.help .program)
      | none => none

end Globals

/-! ## Runs -/

/-- What a run is to do. -/
structure Options where
  config : Config
  verbose : Bool
  compact : Bool
  task : Task
  /-- The file to read; standard input if there is none. -/
  file : Option String
deriving DecidableEq

/-- The depth limit: the option's, or else the environment's, or else the default. A value of the
environment that is no number is a misuse, unless the option is given. -/
def maxDepth? (option : Option UInt64) (environment : Option String) : Option UInt64 :=
  match option, environment with
  | some n, _ => some n
  | none, some text => number? text
  | none, none => some ({} : Config).maxDepth

/-- What the program is to do. -/
inductive Invocation where
  | version
  | help (topic : Topic)
  | run (options : Options)
deriving DecidableEq

/-- What a command line asks for; none if it is a misuse. The environment may give a depth
limit. -/
def parse? (arguments : List String) (environment : Option String) : Option Invocation :=
  match Globals.read? {} arguments with
  | none => none
  | some .version => some .version
  | some (.help topic) => some (.help topic)
  | some (.run globals task locals) =>
    (maxDepth? globals.maxDepth environment).map fun maxDepth => .run {
      config := { maxDepth }
      verbose := globals.verbose
      compact := globals.compact || locals.compact
      task
      file := locals.file }

end SelectTree.Command
