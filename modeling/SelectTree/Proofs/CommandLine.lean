import SelectTree.Command.Run
import SelectTree.Proofs.Log

/-!
# The command line

What the program shows is what a session answers. `Launch` is all that a run depends on and `Shows`
says how a result is shown; both commands show the same of a statement, on its own or in a parse
result.

A verbosity flag changes the log and nothing else. The reader of the options never looks at the
verbosity but to refuse a second flag, so that `read?_withVerbose` holds for every command line that
has no flag of its own; the rest of a run takes the same notes and tells more of them. What is said
about a misuse is no part of this: the command lines that count are those that are `accepted`.
-/

namespace SelectTree.Command

open Parse (Holds IsBare Lists)
open Query (Select)

/-! ## Verbosity -/

/-- Whether an argument before the command asks for all notes: spelled out, or by a letter in a
cluster of one-letter options. -/
def asksForNotes (argument : String) : Bool :=
  match argument.toList with
  | '-' :: '-' :: _ => argument = "--verbose"
  | '-' :: letters => letters.contains 'v'
  | _ => false

/-- Whether a command line has a verbosity flag. Behind the command no argument is one. -/
def hasVerbosityFlag (arguments : List String) : Bool :=
  (arguments.takeWhile fun argument => (Task.ofName? argument).isNone).any asksForNotes

lemma hasVerbosityFlag_cons_eq_false_iff {argument : String} (h : Task.ofName? argument = none)
    {rest : List String} : hasVerbosityFlag (argument :: rest) = false ↔
      asksForNotes argument = false ∧ hasVerbosityFlag rest = false := by
  unfold hasVerbosityFlag
  rw [List.takeWhile_cons, h, ← Bool.or_eq_false_iff]
  rfl

/-- A command is no number. -/
lemma ofName?_eq_none_of_number {text : String} {n : UInt64} (h : number? text = some n) :
    Task.ofName? text = none := by
  have htranslate : number? "translate" = none := by decide
  have hstatement : number? "statement" = none := by decide
  unfold Task.ofName?
  split
  · rw [htranslate] at h
    cases h
  · rw [hstatement] at h
    cases h
  · rfl

/-- The same options, but for the verbosity. -/
def Globals.withVerbose (verbose : Bool) (globals : Globals) : Globals :=
  { globals with verbose }

/-- The same progress, but for the verbosity. -/
def Globals.Progress.withVerbose (verbose : Bool) : Progress → Progress
  | .options globals => .options (globals.withVerbose verbose)
  | .version => .version
  | .help => .help

/-- The same request, but for the verbosity. -/
def Request.withVerbose (verbose : Bool) : Request → Request
  | .version => .version
  | .help topic => .help topic
  | .run globals task locals => .run (globals.withVerbose verbose) task locals

/-- The same invocation, but for the verbosity. -/
def Invocation.withVerbose (verbose : Bool) : Invocation → Invocation
  | .version => .version
  | .help topic => .help topic
  | .run options => .run { options with verbose }

namespace Globals

variable (verbose : Bool) (globals : Globals)

lemma setMaxDepth?_withVerbose (text : String) :
    (globals.withVerbose verbose).setMaxDepth? text =
      (globals.setMaxDepth? text).map (withVerbose verbose) := by
  unfold setMaxDepth?
  show (if globals.maxDepth.isSome then none else _) = _
  split
  · rfl
  · rw [Option.map_map]
    rfl

lemma setCompact?_withVerbose :
    (globals.withVerbose verbose).setCompact? = globals.setCompact?.map (withVerbose verbose) := by
  unfold setCompact?
  show (if globals.compact then none else _) = _
  split <;> rfl

lemma readLetters?_withVerbose {letters : List Char} (h : letters.contains 'v' = false) :
    (globals.withVerbose verbose).readLetters? letters =
      (globals.readLetters? letters).map (.withVerbose verbose) := by
  unfold readLetters?
  split
  · rfl
  · cases h
  · rfl
  · rfl
  · rfl

lemma readOption?_withVerbose {argument : String} (h : asksForNotes argument = false) :
    (globals.withVerbose verbose).readOption? argument =
      (globals.readOption? argument).map (.withVerbose verbose) := by
  unfold readOption?
  split
  · rfl
  · rfl
  · cases h
  · rw [setCompact?_withVerbose, Option.map_map, Option.map_map]
    rfl
  · split
    · rw [setMaxDepth?_withVerbose, Option.map_map, Option.map_map]
      rfl
    · rfl
    · -- the letters of a cluster: its first one is no dash, so the flag would be among them
      next letter letters hletter _ hargument =>
      refine readLetters?_withVerbose verbose globals ?_
      unfold asksForNotes at h
      rw [hargument] at h
      split at h
      · next heq =>
        cases heq
        exact absurd rfl hletter
      · next heq =>
        cases heq
        exact h
      · next hdash => exact absurd rfl (hdash _)
    · rfl

lemma read?_command {argument : String} {task : Task} (htask : Task.ofName? argument = some task)
    (rest : List String) :
    globals.read? (argument :: rest) =
      (Locals.read? {} rest).map (.ofCommand globals task) := by
  rw [read?]
  · simp only [htask]
  · rintro rfl
    cases htask
  · rintro rfl
    cases htask

/-- Reads the arguments behind an option. -/
def readOn? (rest : List String) : Progress → Option Request
  | .options globals => globals.read? rest
  | .version => some .version
  | .help => some (.help .program)

/-- An argument that is read on its own: no command, and no option with a value behind it. -/
structure StandsAlone (argument : String) : Prop where
  ne_maxDepth : argument ≠ "--max-depth"
  ne_help : argument ≠ "help"
  no_task : Task.ofName? argument = none

lemma read?_option {argument : String} (halone : StandsAlone argument) (rest : List String) :
    globals.read? (argument :: rest) = (globals.readOption? argument).bind (readOn? rest) := by
  rw [read?]
  · simp only [halone.no_task]
    rcases globals.readOption? argument with _ | _ | _ | _ <;> rfl
  · exact halone.ne_maxDepth
  · exact halone.ne_help

/-- An argument that stands alone is read alike if the arguments behind it are. -/
lemma read?_option_withVerbose {argument : String} (halone : StandsAlone argument)
    (h : asksForNotes argument = false) {rest : List String}
    (hrest : ∀ next, globals.readOption? argument = some (.options next) →
      (next.withVerbose verbose).read? rest = (next.read? rest).map (.withVerbose verbose)) :
    (globals.withVerbose verbose).read? (argument :: rest) =
      (globals.read? (argument :: rest)).map (.withVerbose verbose) := by
  rw [read?_option _ halone, read?_option _ halone, readOption?_withVerbose verbose globals h]
  rcases hread : globals.readOption? argument with _ | next | _ | _
  · rfl
  · exact hrest next hread
  · rfl
  · rfl

/-- Without a verbosity flag, the arguments are read alike whether the details are told or not. -/
lemma read?_withVerbose (arguments : List String) (h : hasVerbosityFlag arguments = false) :
    (globals.withVerbose verbose).read? arguments =
      (globals.read? arguments).map (.withVerbose verbose) := by
  induction globals, arguments using Globals.read?.induct with
  | case1 globals => rfl
  | case2 globals => rfl
  | case3 globals text rest ih =>
    rw [read?, read?, setMaxDepth?_withVerbose]
    cases hset : globals.setMaxDepth? text with
    | none => rfl
    | some next =>
      -- the value of the option is no command, so the flags behind it count
      have htext : Task.ofName? text = none := by
        unfold setMaxDepth? at hset
        split at hset
        · cases hset
        · obtain ⟨n, hn, _⟩ := Option.map_eq_some_iff.mp hset
          exact ofName?_eq_none_of_number hn
      obtain ⟨_, h⟩ := (hasVerbosityFlag_cons_eq_false_iff (by decide)).mp h
      obtain ⟨_, hrest⟩ := (hasVerbosityFlag_cons_eq_false_iff htext).mp h
      exact ih next hrest
  | case4 globals names =>
    rw [read?, read?, Option.map_map]
    rfl
  | case5 globals argument rest _ _ task htask =>
    rw [read?_command _ htask, read?_command _ htask, Option.map_map]
    rcases Locals.read? {} rest with _ | _ | _ <;> rfl
  | case6 globals argument rest hdepth hhelp htask next hread ih =>
    obtain ⟨hargument, hrest⟩ := (hasVerbosityFlag_cons_eq_false_iff htask).mp h
    refine read?_option_withVerbose verbose globals ⟨hdepth, hhelp, htask⟩ hargument ?_
    intro next' hnext
    rw [hread] at hnext
    cases hnext
    exact ih hrest
  | case7 globals argument rest hdepth hhelp htask hread
  | case8 globals argument rest hdepth hhelp htask hread
  | case9 globals argument rest hdepth hhelp htask hread =>
    obtain ⟨hargument, _⟩ := (hasVerbosityFlag_cons_eq_false_iff htask).mp h
    refine read?_option_withVerbose verbose globals ⟨hdepth, hhelp, htask⟩ hargument ?_
    intro next hnext
    rw [hread] at hnext
    cases hnext

end Globals

lemma parse?_eq_map {arguments arguments' : List String} {verbose : Bool}
    (h : Globals.read? {} arguments' = (Globals.read? {} arguments).map (.withVerbose verbose))
    (environment : Option String) :
    parse? arguments' environment = (parse? arguments environment).map (.withVerbose verbose) := by
  unfold parse?
  rw [h]
  rcases Globals.read? {} arguments with _ | _ | topic | ⟨globals, task, locals⟩
  · rfl
  · rfl
  · rfl
  · show (maxDepth? globals.maxDepth environment).map _ = _
    rw [Option.map_map]
    rfl

section

variable {arguments : List String} (h : hasVerbosityFlag arguments = false)
  (environment : Option String)

include h

/-- Without a verbosity flag the details are not told. -/
lemma parse?_quiet :
    parse? arguments environment = (parse? arguments environment).map (.withVerbose false) :=
  parse?_eq_map (Globals.read?_withVerbose false {} arguments h) environment

/-- A verbosity flag in front asks for the details, and for nothing else. -/
lemma parse?_verbose :
    parse? ("-v" :: arguments) environment =
      (parse? arguments environment).map (.withVerbose true) := by
  refine parse?_eq_map ?_ environment
  rw [Globals.read?_option {} ⟨by decide, by decide, rfl⟩]
  exact Globals.read?_withVerbose true {} arguments h

end

/-! ## Runs -/

/-- A start of the program: its arguments, the depth limit in the environment, the standard input if
it can be read, the files that can be read, and the help pages. -/
structure Launch where
  arguments : List String
  environment : Option String := none
  stdin : Option String := some ""
  files : String → Option String := fun _ => none
  pages : Topic → String := fun _ => ""

namespace Launch

/-- How the program ends. -/
def run (launch : Launch) : Ending :=
  Command.run launch.arguments launch.environment launch.stdin launch.files launch.pages

/-- Whether the command line is accepted: it is no misuse, but asks for a run, for the version or
for a help page. -/
def accepted (launch : Launch) : Bool :=
  (parse? launch.arguments launch.environment).isSome

/-- The same start with a verbosity flag in front of the arguments. -/
def verbose (launch : Launch) : Launch :=
  { launch with arguments := "-v" :: launch.arguments }

/-- The command line is accepted for a task under a depth limit, and the input is the text of a
value. -/
def Runs (launch : Launch) (task : Task) (limit : UInt64) (compact : Bool) (value : Json) : Prop :=
  ∃ options text, parse? launch.arguments launch.environment = some (.run options) ∧
    options.task = task ∧ options.config.maxDepth = limit ∧ options.compact = compact ∧
    options.input launch.stdin launch.files = some text ∧
    Json.read? nestingLimit text = some value

/-- The notes that are taken, told or not. -/
def notes (launch : Launch) : List Note :=
  match parse? launch.arguments launch.environment with
  | some (.run options) => (options.lower (options.input launch.stdin launch.files)).2
  | _ => []

/-- The first statement of the parse result that is the input has a tag. -/
def FirstTag (launch : Launch) (tag : String) : Prop :=
  ∃ limit compact result first rest, launch.Runs .result limit compact result ∧
    Parse.statements result = .ok (first :: rest) ∧ Parse.peekTag? first = some tag

end Launch

/-- Two runs end alike, apart from their logs. -/
structure EndsAlike (ending ending' : Ending) : Prop where
  exitCode : ending.exitCode = ending'.exitCode
  output : ending.output = ending'.output
  message : ending.message? = ending'.message?

/-- A run shows a result: it prints the select and a line break, or it fails with the kind and the
wording of the error. -/
structure Shows (compact : Bool) (result : Except Error Select) (ending : Ending) : Prop where
  succeeds : ending.exitCode = 0 ↔ ∃ select, result = .ok select
  ok : ∀ select, result = .ok select →
    ending.output = render compact select ++ "\n" ∧ ending.message? = none
  error : ∀ error, result = .error error → ending.exitCode = 1 ∧ ending.output = "" ∧
    ending.message? = some (error.kind.name ++ ": " ++ error.message)

lemma Shows.endsAlike {compact : Bool} {result : Except Error Select} {ending ending' : Ending}
    (h : Shows compact result ending) (h' : Shows compact result ending') :
    EndsAlike ending ending' := by
  cases hresult : result with
  | ok select =>
    obtain ⟨houtput, hmessage⟩ := h.ok select hresult
    obtain ⟨houtput', hmessage'⟩ := h'.ok select hresult
    have hzero := h.succeeds.mpr ⟨select, hresult⟩
    have hzero' := h'.succeeds.mpr ⟨select, hresult⟩
    exact ⟨hzero.trans hzero'.symm, houtput.trans houtput'.symm, hmessage.trans hmessage'.symm⟩
  | error error =>
    obtain ⟨hcode, houtput, hmessage⟩ := h.error error hresult
    obtain ⟨hcode', houtput', hmessage'⟩ := h'.error error hresult
    exact ⟨hcode.trans hcode'.symm, houtput.trans houtput'.symm, hmessage.trans hmessage'.symm⟩

/-- The notes on an input: the limit and the size first, then those of lowering. -/
lemma lower_of_read? {options : Options} {text : String} {value : Json}
    (h : Json.read? nestingLimit text = some value) :
    options.lower (some text) =
      (((Session.call { config := options.config } (options.task.lower value)).1.result).mapError
          errorMessage,
        [.nestingLimit options.config.maxDepth, .bytesRead text.utf8ByteSize] ++
          (Session.call { config := options.config } (options.task.lower value)).1.notes) := by
  rw [Options.lower, lowerText, h]

lemma shows_of_read? {options : Options} {text : String} {value : Json}
    (h : Json.read? nestingLimit text = some value) :
    Shows options.compact
      (Session.call { config := options.config } (options.task.lower value)).1.result
      (options.run (some text)) := by
  rw [Options.run, lower_of_read? h]
  cases (Session.call { config := options.config } (options.task.lower value)).1.result with
  | ok select =>
    refine ⟨⟨fun _ => ⟨select, rfl⟩, fun _ => rfl⟩, fun select' h => ?_, fun error h => ?_⟩
    · cases h
      exact ⟨rfl, rfl⟩
    · cases h
  | error error =>
    refine ⟨⟨fun h => ?_, fun h => ?_⟩, fun select h => ?_, fun error' h => ?_⟩
    · cases h
    · obtain ⟨select, h⟩ := h
      cases h
    · cases h
    · cases h
      exact ⟨rfl, rfl, rfl⟩

namespace Launch

lemma run_of_parse? {launch : Launch} {options : Options}
    (h : parse? launch.arguments launch.environment = some (.run options)) :
    launch.run = options.run (options.input launch.stdin launch.files) := by
  rw [run, Command.run, h]

lemma Runs.shows {launch : Launch} {task : Task} {limit : UInt64} {compact : Bool} {value : Json}
    (h : launch.Runs task limit compact value) :
    Shows compact ((Session.fresh limit).call (task.lower value)).1.result launch.run := by
  obtain ⟨options, text, hparse, rfl, rfl, rfl, hinput, hread⟩ := h
  rw [run_of_parse? hparse, hinput]
  exact shows_of_read? hread

end Launch

/-! ## Logs -/

/-- What is told of the notes changes nothing else. -/
lemma run_withVerbose (options : Options) (verbose : Bool) (input : Option String) :
    EndsAlike (Options.run { options with verbose } input) (options.run input) ∧
      (Options.run { options with verbose } input).log =
        logLines verbose (options.lower input).2 := by
  have hlower : Options.lower { options with verbose } input = options.lower input := by
    cases input <;> rfl
  unfold Options.run
  rw [hlower]
  rcases options.lower input with ⟨_ | select, notes⟩
  · exact ⟨⟨rfl, rfl, rfl⟩, rfl⟩
  · exact ⟨⟨rfl, rfl, rfl⟩, rfl⟩

/-- What is told of a task is plain, but for the tag of the first statement. -/
lemma plain_or_first {task : Task} {value : Json} {session : Session} {note : Note}
    (h : note ∈ (session.call (task.lower value)).1.notes) :
    note.IsPlain ∨ ∃ first rest tag, task = .result ∧
      Parse.statements value = .ok (first :: rest) ∧ Parse.peekTag? first = some tag ∧
      note = .firstStatement (some tag) := by
  cases task with
  | statement => exact .inl (Lower.terse_statement value _ _ note h)
  | result =>
    rcases Lower.plain_or_firstStatement h with hplain | ⟨first, rest, hstatements, rfl⟩
    · exact .inl hplain
    · cases htag : Parse.peekTag? first with
      | none => exact .inl (by decide : OneLine "untagged")
      | some tag => exact .inr ⟨first, rest, tag, rfl, hstatements, htag, rfl⟩

namespace Launch

/-- The log of a start without a verbosity flag is that of the warnings, and with one in front it is
that of all notes. -/
lemma run_verbose {launch : Launch} (haccepted : launch.accepted = true)
    (h : hasVerbosityFlag launch.arguments = false) :
    EndsAlike launch.verbose.run launch.run ∧
      launch.verbose.run.log = logLines true launch.notes ∧
      launch.run.log = logLines false launch.notes := by
  have hverbose := parse?_verbose h launch.environment
  have hquiet := parse?_quiet h launch.environment
  unfold accepted at haccepted
  unfold run Command.run notes verbose
  rw [hverbose]
  rcases hparse : parse? launch.arguments launch.environment with _ | _ | topic | options
  · rw [hparse] at haccepted
    cases haccepted
  · exact ⟨⟨rfl, rfl, rfl⟩, rfl, rfl⟩
  · exact ⟨⟨rfl, rfl, rfl⟩, rfl, rfl⟩
  · -- the options as they are read already ask for no details
    have hoptions : options = { options with verbose := false } := by
      rw [hparse] at hquiet
      injection hquiet with hquiet
      injection hquiet
    obtain ⟨halike, htold⟩ :=
      run_withVerbose options true (options.input launch.stdin launch.files)
    obtain ⟨_, hkept⟩ := run_withVerbose options false (options.input launch.stdin launch.files)
    rw [← hoptions] at hkept
    exact ⟨halike, htold, hkept⟩

/-- All notes are plain, but for the one on the tag of the first statement. -/
lemma plain_or_firstTag {launch : Launch} {note : Note} (h : note ∈ launch.notes) :
    note.IsPlain ∨ ∃ tag, launch.FirstTag tag ∧ note = .firstStatement (some tag) := by
  unfold notes at h
  split at h
  · next options hparse =>
    cases hinput : options.input launch.stdin launch.files with
    | none =>
      rw [hinput] at h
      rw [List.mem_singleton.mp h]
      exact .inl trivial
    | some text =>
      rw [hinput] at h
      cases hread : Json.read? nestingLimit text with
      | none =>
        rw [Options.lower, lowerText, hread] at h
        rcases List.mem_pair.mp h with rfl | rfl <;> exact .inl trivial
      | some value =>
        rw [lower_of_read? hread, List.mem_append, List.mem_pair] at h
        rcases h with (rfl | rfl) | h
        · exact .inl trivial
        · exact .inl trivial
        · refine (plain_or_first h).imp_right ?_
          rintro ⟨first, rest, tag, htask, hstatements, htag, rfl⟩
          have hruns : launch.Runs .result options.config.maxDepth options.compact value :=
            ⟨options, text, hparse, htask, rfl, rfl, hinput, hread⟩
          exact ⟨tag, ⟨_, _, value, first, rest, hruns, hstatements, htag⟩, rfl⟩
  · cases h

lemma FirstTag.mem_notes {launch : Launch} {tag : String} (h : launch.FirstTag tag) :
    .firstStatement (some tag) ∈ launch.notes := by
  obtain ⟨_, _, result, first, rest, ⟨options, text, hparse, htask, _, _, hinput, hread⟩,
    hstatements, htag⟩ := h
  unfold notes
  rw [hparse]
  dsimp only
  rw [hinput, lower_of_read? hread, htask]
  refine List.mem_append_right _ ?_
  show _ ∈ ((Lower.tree result).run options.config 0).notes
  rw [Lower.notes_tree hstatements, htag]
  exact List.mem_append_right _ List.mem_cons_self

/-- The only detail that can be taken for a warning is the one on the tag of the first statement. -/
lemma forall_unmistakable_iff (launch : Launch) :
    (∀ note ∈ launch.notes, note.level = .detail → Unmistakable note) ↔
      ∀ tag, launch.FirstTag tag → Unmistakable (.firstStatement (some tag)) := by
  constructor
  · intro h tag htag
    exact h _ htag.mem_notes rfl
  · intro h note hnote hlevel
    rcases plain_or_firstTag hnote with hplain | ⟨tag, htag, rfl⟩
    · exact unmistakable_of_plain hlevel hplain
    · exact h tag htag

end Launch

end SelectTree.Command

namespace SelectTree

open Command (EndsAlike Launch Shows Unmistakable hasVerbosityFlag logLines opensWith)
open Parse (Holds IsBare Lists tagged)

/-- A start whose input is a parse result with a line break in the tag of its first statement. -/
def brokenTag : Launch where
  arguments := ["translate"]
  stdin := some "[\x7b\"x\\nWARN y\":\x7b\x7d\x7d]"

/-- The details are told as they are, so that a line of one can look like a warning that is not in
the log of the warnings. -/
theorem detail_told_like_warning :
    brokenTag.accepted = true ∧ hasVerbosityFlag brokenTag.arguments = false ∧
      brokenTag.run.log = [] ∧
      brokenTag.verbose.run.log.filter (opensWith .warning) = ["WARN y"] := by
  decide +kernel

/-- **The commands agree with the sessions.** A statement ends alike whether it is given on its own
or as the only one of a parse result, in any layout: with the select or the error that a session
answers under the same limit. A verbosity flag in front of a command line that is accepted and has
none changes the log alone, whatever the input: instead of the warnings all notes are told. The
warnings are then the lines that open like one, unless a detail has such a line; and only the detail
on the tag of the first statement can, if that tag has a line break in it. -/
theorem commands_agree_with_sessions :
    (∀ statement entry result, IsBare statement → Holds statement entry → Lists [entry] result →
      ∀ (limit : UInt64) (compact : Bool) (launch launch' : Launch),
        launch.Runs .statement limit compact statement →
        launch'.Runs .result limit compact result →
        EndsAlike launch.run launch'.run ∧
          Shows compact ((Session.fresh limit).statement statement).1.result launch.run) ∧
    ∀ launch : Launch, launch.accepted = true → hasVerbosityFlag launch.arguments = false →
      EndsAlike launch.verbose.run launch.run ∧
      launch.verbose.run.log = logLines true launch.notes ∧
      launch.run.log = logLines false launch.notes ∧
      (launch.run.log = launch.verbose.run.log.filter (opensWith .warning) ↔
        ∀ tag, launch.FirstTag tag → Unmistakable (.firstStatement (some tag))) ∧
      ∀ tag, OneLine tag → Unmistakable (.firstStatement (some tag)) := by
  constructor
  · intro statement entry result hbare hholds hlists limit compact launch launch' hruns hruns'
    have hstatements : Parse.statements result = .ok [statement] :=
      Parse.statements_of_holds hlists (List.forall_mem_singleton.mpr hbare) (.cons hholds .nil)
    have htree : ((Session.fresh limit).tree result).1.result =
        ((Session.fresh limit).statement statement).1.result := by
      rw [tree_result, hstatements, Lower.ok_bind]
      rfl
    have hshows : Shows compact ((Session.fresh limit).statement statement).1.result launch.run :=
      hruns.shows
    have hshows' : Shows compact ((Session.fresh limit).statement statement).1.result launch'.run :=
      htree ▸ hruns'.shows
    exact ⟨hshows.endsAlike hshows', hshows⟩
  · intro launch haccepted hflag
    obtain ⟨halike, htold, hkept⟩ := Launch.run_verbose haccepted hflag
    refine ⟨halike, htold, hkept, ?_, fun tag htag => ?_⟩
    · rw [htold, hkept, Command.log_eq_warningLines_iff, Launch.forall_unmistakable_iff]
    · exact Command.unmistakable_of_plain rfl htag

/-- The statement `SELECT *`. -/
def starStatement : Json :=
  tagged .selectStmt [("targetList", .array [tagged .aStar []])]

/-- A parse result that holds `starStatement` alone. -/
def starResult : Json :=
  .object [("stmts", .array [.object [("RawStmt", .object [("stmt", starStatement)])]])]

/-- A start with `starStatement` as its standard input. -/
def starAlone : Launch where
  arguments := ["--compact", "--max-depth", "9", "statement"]
  stdin := some (starStatement.print .compact)

/-- A start with `starResult` in a file. -/
def starListed : Launch where
  arguments := ["translate", "--compact", "result.json"]
  environment := some "9"
  files := fun file => if file = "result.json" then some (starResult.print .compact) else none

/-- A start whose standard input cannot be read. -/
def closedInput : Launch where
  arguments := ["translate"]
  stdin := none

theorem commands_agree_with_sessions_starStatement :
    starAlone.run.exitCode = 0 ∧ EndsAlike starAlone.run starListed.run ∧
      EndsAlike starListed.verbose.run starListed.run ∧
      closedInput.verbose.run.message? = some "failed to read stdin" ∧
      ∃ tag, brokenTag.FirstTag tag ∧ ¬ Unmistakable (.firstStatement (some tag)) := by
  obtain ⟨hcommands, hverbose⟩ := commands_agree_with_sessions
  have hbare : IsBare starStatement := ⟨by simp [starStatement, tagged], rfl, rfl⟩
  have halone : starAlone.Runs .statement 9 true starStatement :=
    ⟨⟨{ maxDepth := 9 }, false, true, .statement, none⟩, starStatement.print .compact,
      rfl, rfl, rfl, rfl, rfl, rfl⟩
  have hlisted : starListed.Runs .result 9 true starResult :=
    ⟨⟨{ maxDepth := 9 }, false, true, .result, some "result.json"⟩, starResult.print .compact,
      by decide +kernel, rfl, rfl, rfl, rfl, rfl⟩
  obtain ⟨halike, hshows⟩ := hcommands starStatement _ starResult hbare (.rawStmt rfl rfl rfl)
    (.object rfl) 9 true starAlone starListed halone hlisted
  obtain ⟨hsame, _⟩ := hverbose starListed (by decide +kernel) (by decide)
  obtain ⟨hclosed, _⟩ := hverbose closedInput (by decide) (by decide)
  obtain ⟨_, _, _, hlines, _⟩ := hverbose brokenTag (by decide) (by decide)
  refine ⟨hshows.succeeds.mpr ⟨{ projections := [.star] }, rfl⟩, halike, hsame,
    hclosed.message.trans rfl, ?_⟩
  have hbroken : ¬ ∀ tag, brokenTag.FirstTag tag → Unmistakable (.firstStatement (some tag)) :=
    fun hall => absurd (hlines.mpr hall) (by decide +kernel)
  simpa only [not_forall, exists_prop] using hbroken

end SelectTree
