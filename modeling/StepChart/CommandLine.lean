import StepChart.Run.Plan

/-!
# The command line

Arguments are files, flags and options with a value. Values wait until the next argument shows that
they are complete, and are checked then; so of two mistakes the one that shows first is reported.
-/

namespace StepChart

namespace CommandLine

/-- The options that have a value. -/
inductive Choice where
  | config | framework | extension
deriving Repr, DecidableEq, Inhabited

/-- What a value belongs to. -/
inductive Slot where
  | files
  | choice (owner : Choice)
deriving Repr, DecidableEq, Inhabited

/-- The flags, which have no value. -/
inductive Flag where
  | console | verbose | help | version
deriving Repr, DecidableEq, Inhabited

/-- Why the arguments do not lead to a run. -/
inductive Halt where
  | helpAsked
  | versionAsked
  | noFiles
  | unknown (argument : String)
  | missingValue (choice : Choice)
  | emptyPath (slot : Slot)
  /-- An option that is not counted is given twice. -/
  | repeated (name : String)
  /-- A flag is given a value. -/
  | unexpectedValue (flag : Flag)
deriving Repr, DecidableEq, Inhabited

/-- What the arguments say. -/
structure Arguments where
  request : Request := {}
  /-- How often more logging was asked for. -/
  verbose : Nat := 0
deriving Repr, DecidableEq, Inhabited

/-- What was read so far, and the values that wait. -/
structure Progress where
  arguments : Arguments := {}
  waiting : Option (Slot × List String) := none
  /-- All that follows are files. -/
  onlyFiles : Bool := false
deriving Repr, DecidableEq, Inhabited

/-- The name of an option. -/
def Choice.name : Choice → String
  | .config => "config"
  | .framework => "framework"
  | .extension => "extension"

/-- The option of a name. -/
def Choice.ofName? : String → Option Choice
  | "config" => some .config
  | "framework" => some .framework
  | "extension" => some .extension
  | _ => none

/-- The flag of a name. -/
def Flag.ofName? : String → Option Flag
  | "console" => some .console
  | "verbose" => some .verbose
  | "help" => some .help
  | "version" => some .version
  | _ => none

/-- The flag of a letter. -/
def Flag.ofLetter? : Char → Option Flag
  | 'c' => some .console
  | 'v' => some .verbose
  | 'h' => some .help
  | 'V' => some .version
  | _ => none

/-! ## Values -/

/-- The value an option has so far. -/
def Choice.value? (request : Request) : Choice → Option String
  | .config => request.config
  | .framework => request.framework
  | .extension => request.extension

/-- Gives an option a value. -/
def Choice.set (request : Request) (value : String) : Choice → Request
  | .config => { request with config := some value }
  | .framework => { request with framework := some value }
  | .extension => { request with extension := some value }

/-- Gives an option its only value. The path of a settings file is not empty. -/
def assign (arguments : Arguments) (choice : Choice) (value : String) : Except Halt Arguments :=
  if (choice.value? arguments.request).isSome then .error (.repeated choice.name)
  else if choice = .config ∧ value.isEmpty then .error (.emptyPath (.choice choice))
  else .ok { arguments with request := choice.set arguments.request value }

/-- Checks the values that wait. -/
def settle (progress : Progress) : Except Halt Progress :=
  match progress.waiting with
  | none => .ok progress
  | some (.files, values) =>
    if values.any (·.isEmpty) then .error (.emptyPath .files)
    else
      let request := progress.arguments.request
      let request := { request with files := request.files ++ values }
      .ok { progress with arguments := { progress.arguments with request }, waiting := none }
  | some (.choice choice, []) => .error (.missingValue choice)
  | some (.choice choice, value :: _) => do
    let arguments ← assign progress.arguments choice value
    return { progress with arguments, waiting := none }

/-! ## Arguments -/

/-- The largest count of a flag. -/
def largestCount : Nat := 255

/-- Carries out a flag. -/
def raise (flag : Flag) (progress : Progress) : Except Halt Progress := do
  let progress ← settle progress
  let arguments := progress.arguments
  match flag with
  | .help => .error .helpAsked
  | .version => .error .versionAsked
  | .verbose =>
    let verbose := min (arguments.verbose + 1) largestCount
    return { progress with arguments := { arguments with verbose } }
  | .console =>
    if arguments.request.console then .error (.repeated "console")
    else
      let request := { arguments.request with console := true }
      return { progress with arguments := { arguments with request } }

/-- Reads letters that stand for flags. -/
def letters : List Char → Progress → Except Halt Progress
  | [], progress => .ok progress
  | c :: rest, progress =>
    match Flag.ofLetter? c with
    | none => .error (.unknown (String.ofList ['-', c]))
    | some flag =>
      match raise flag progress with
      | .error halt => .error halt
      | .ok progress => letters rest progress

/-- Reads a name that two dashes stand before, with the value after an equals sign if there is one.
-/
def named (name : String) (value : Option String) (progress : Progress) : Except Halt Progress :=
  match Flag.ofName? name, Choice.ofName? name with
  | some flag, _ => if value.isSome then .error (.unexpectedValue flag) else raise flag progress
  | none, some choice => do
    let progress ← settle progress
    match value with
    | some value =>
      let arguments ← assign progress.arguments choice value
      return { progress with arguments }
    | none => return { progress with waiting := some (.choice choice, []) }
  | none, none => .error (.unknown ("--" ++ name))

/-- Reads a value. It belongs to the option before it, if that waits for one, or else it is a file.
-/
def valued (value : String) (progress : Progress) : Except Halt Progress :=
  match progress.waiting, progress.onlyFiles with
  | some (.choice choice, []), false => .ok { progress with waiting := some (.choice choice, [value]) }
  | some (.files, values), _ => .ok { progress with waiting := some (.files, values ++ [value]) }
  | _, _ => do
    let progress ← settle progress
    return { progress with waiting := some (.files, [value]) }

/-- Reads an argument. -/
def read (progress : Progress) (argument : String) : Except Halt Progress :=
  if progress.onlyFiles then valued argument progress
  else
    match argument.toList with
    | ['-', '-'] => .ok { progress with onlyFiles := true }
    | '-' :: '-' :: rest =>
      named (String.ofList (rest.takeWhile (· != '='))) ((Text.afterFirst? '=' rest).map String.ofList) progress
    | '-' :: c :: rest => letters (c :: rest) progress
    | _ => valued argument progress

/-- Reads the arguments after the name of the program. `fallback` is the settings file of the
environment, which counts if the arguments name none. -/
def parse (fallback : Option String) (arguments : List String) : Except Halt Arguments := do
  let progress ← arguments.foldlM read {}
  let progress ← settle progress
  let arguments := progress.arguments
  let arguments ← match arguments.request.config, fallback with
    | none, some path => assign arguments .config path
    | _, _ => pure arguments
  if arguments.request.files.isEmpty then .error .noFiles else return arguments

/-! ## Messages -/

/-- What the program is called and which version it is. -/
def versionText : String := "stepmap 0.3.1\n"

/-- How the program is used. -/
def helpText : String :=
  "State diagrams from Go state machine step functions\n\n"
    ++ "Usage: stepmap [OPTIONS] <FILES>...\n\n"
    ++ "Arguments:\n"
    ++ "  <FILES>...  Go source files to analyze, processed in order\n\n"
    ++ "Options:\n"
    ++ "  -c, --console                Print the diagram to stdout instead of writing diagram files\n"
    ++ "      --config <CONFIG>        Configuration file (defaults to the nearest .stepmap.toml)\n"
    ++ "      --framework <FRAMEWORK>  Import path of the state machine framework\n"
    ++ "      --extension <EXTENSION>  Extension of written diagram files\n"
    ++ "  -v, --verbose...             Increase logging verbosity (-v, -vv, -vvv)\n"
    ++ "  -h, --help                   Print help\n"
    ++ "  -V, --version                Print version\n"

/-- The name of a flag. -/
def Flag.name : Flag → String
  | .console => "console"
  | .verbose => "verbose"
  | .help => "help"
  | .version => "version"

/-- How messages speak of what a value belongs to. -/
def Slot.description : Slot → String
  | .files => "<FILES>..."
  | .choice owner => "--" ++ owner.name

/-- What the user is told. -/
def Halt.message : Halt → String
  | .helpAsked => helpText
  | .versionAsked => versionText
  | .noFiles => "error: the following required arguments were not provided:\n  <FILES>...\n"
  | .unknown argument => "error: unexpected argument '" ++ argument ++ "' found\n"
  | .missingValue choice => "error: a value is required for '--" ++ choice.name ++ "' but none was supplied\n"
  | .emptyPath slot => "error: a value is required for '" ++ slot.description ++ "' but none was supplied\n"
  | .repeated name => "error: the argument '--" ++ name ++ "' cannot be used multiple times\n"
  | .unexpectedValue flag => "error: unexpected value for '--" ++ flag.name ++ "' found; no more were expected\n"

/-- The user asked for the message and made no mistake. -/
def Halt.isAnswer : Halt → Bool
  | .helpAsked | .versionAsked => true
  | _ => false

/-! ## Logging -/

/-- How much is logged. -/
inductive Level where
  | warnings | news | details | everything
deriving Repr, DecidableEq, Inhabited

/-- The level that so many flags ask for. -/
def Level.ofCount : Nat → Level
  | 0 => .warnings
  | 1 => .news
  | 2 => .details
  | _ => .everything

end CommandLine

end StepChart
