import SelectTree.Command.Run

/-!
# The program

Reads the arguments, the environment and the input, and prints how the run ends: output on standard
output, the log and messages on standard error.
-/

namespace SelectTree.Command

/-- The options of every command, as its help page lists them. -/
def commandOptions : String :=
  "Options:\n" ++
  "      --compact  Print the result on a single line\n" ++
  "  -h, --help     Print help\n"

/-- The help pages. -/
def page : Topic → String
  | .program =>
    "Command-line translator from PostgreSQL parse trees to Arel-style query trees\n\n" ++
    "Usage: to-arel [OPTIONS] <COMMAND>\n\n" ++
    "Commands:\n" ++
    "  translate  Translate the first statement of a parser result\n" ++
    "  statement  Translate a single SELECT statement node\n" ++
    "  help       Print this message or the help of the given subcommand(s)\n\n" ++
    "Options:\n" ++
    "      --max-depth <MAX_DEPTH>  Maximum parse-tree nesting depth\n" ++
    "      --compact                Print the result on a single line\n" ++
    "  -v, --verbose                Enable verbose output\n" ++
    "  -h, --help                   Print help\n" ++
    "  -V, --version                Print version\n"
  | .command .result =>
    "Translate the first statement of a parser result\n\n" ++
    "Usage: to-arel translate [OPTIONS] [FILE]\n\n" ++
    "Arguments:\n  [FILE]  JSON parse tree (stdin if not specified)\n\n" ++ commandOptions
  | .command .statement =>
    "Translate a single SELECT statement node\n\n" ++
    "Usage: to-arel statement [OPTIONS] [FILE]\n\n" ++
    "Arguments:\n  [FILE]  JSON statement node (stdin if not specified)\n\n" ++ commandOptions
  | .help =>
    "Print this message or the help of the given subcommand(s)\n\n" ++
    "Usage: to-arel help [COMMAND]...\n\n" ++
    "Arguments:\n  [COMMAND]...  Print help for the subcommand(s)\n"

/-- Reads the file of a run, or standard input; none if it cannot be read. -/
def readInput (file : Option String) : IO (Option String) := do
  try
    match file with
    | none => return some (← (← IO.getStdin).readToEnd)
    | some path => return some (← IO.FS.readFile path)
  catch _ => return none

/-- Prints how a run ends, and gives its exit code. -/
def report (ending : Ending) : IO UInt32 := do
  ending.log.forM IO.eprintln
  IO.print ending.output
  ending.message?.forM fun message => IO.eprintln ("Error: " ++ message)
  if ending = .misuse then IO.eprintln "Usage: to-arel [OPTIONS] <COMMAND>"
  return ending.exitCode

end SelectTree.Command

open SelectTree.Command in
/-- Runs the command line of the program. -/
def main (arguments : List String) : IO UInt32 := do
  match parse? arguments (← IO.getEnv "TO_AREL_MAX_DEPTH") with
  | none => report .misuse
  | some .version => report (.success version [])
  | some (.help topic) => report (.success (page topic) [])
  | some (.run options) => report (options.run (← readInput options.file))
