import LockExplorer.Exploration
import LockExplorer.Scenario.File

/-!
# The command line

The program explores a scenario file, or the canonical scenario when none is named, and prints the
log. Options limit the exploration, add a summary, or print the scenario instead of exploring it.
Arguments are taken from left to right; help and version act where they are met. `Options` are the
parsed `Args`, `load` goes by its own name, and `respond` is what `main` prints and returns.
-/

namespace LockExplorer

namespace CommandLine

inductive Argument where
  /-- All further arguments are paths. -/
  | endOfOptions
  | path (name : String)
  | help
  | version
  | summary
  | dump
  /-- The limit option, with a value if one is attached. -/
  | limit (attached : Option String)
  | unknown
deriving DecidableEq

def Argument.ofLong (name : List Char) (attached : Option String) : Argument :=
  if name = "max-permutations".toList then .limit attached
  else if attached.isSome then .unknown
  else if name = "summary".toList then .summary
  else if name = "dump-scenario".toList then .dump
  else if name = "help".toList then .help
  else if name = "version".toList then .version
  else .unknown

/-- The meaning of an argument while options are still possible. A single dash is a path. Of options
by letter only the first matters, because both of them act at once. -/
def Argument.of (argument : String) : Argument :=
  match argument.toList with
  | ['-', '-'] => .endOfOptions
  | '-' :: '-' :: long =>
      let name := long.takeWhile (· != '=')
      match long.dropWhile (· != '=') with
      | _ :: value => .ofLong name (some (String.ofList value))
      | [] => .ofLong name none
  | '-' :: 'h' :: _ => .help
  | '-' :: 'V' :: _ => .version
  | '-' :: _ :: _ => .unknown
  | _ => .path argument

/-- A limit: decimal digits, with a plus sign in front at most, that fit sixty-four bits. -/
def limit? (value : String) : Option UInt64 :=
  let digits := match value.toList with
    | '+' :: rest => rest
    | digits => digits
  match digits with
  | [] => none
  | _ =>
      match Toml.digitsValue? 10 0 digits with
      | some number => if number < UInt64.size then some (UInt64.ofNat number) else none
      | none => none

structure Options where
  path : Option String := none
  limit : Option UInt64 := none
  summary : Bool := false
  dump : Bool := false
deriving DecidableEq

inductive Request where
  | explore (options : Options)
  | help
  | version
  /-- The arguments make no sense. -/
  | misuse
deriving DecidableEq

/-- Names the scenario file, once and not by the empty name. -/
def Options.withPath? (options : Options) (name : String) : Option Options :=
  if options.path.isSome || name.isEmpty then none else some { options with path := some name }

def Options.withLimit? (options : Options) (value : String) : Option Options :=
  if options.limit.isSome then none
  else (limit? value).map fun limit => { options with limit := some limit }

def readPaths (options : Options) : List String → Request
  | [] => .explore options
  | argument :: later =>
      match options.withPath? argument with
      | some options => readPaths options later
      | none => .misuse

/-- Reads the arguments. Every option is given at most once, and the value of the limit is attached
to it or is the next argument, which then does not begin with a dash. -/
def read (options : Options) : List String → Request
  | [] => .explore options
  | argument :: later =>
      match Argument.of argument with
      | .endOfOptions => readPaths options later
      | .path name =>
          match options.withPath? name with
          | some options => read options later
          | none => .misuse
      | .help => .help
      | .version => .version
      | .summary => if options.summary then .misuse else read { options with summary := true } later
      | .dump => if options.dump then .misuse else read { options with dump := true } later
      | .limit (some value) =>
          match options.withLimit? value with
          | some options => read options later
          | none => .misuse
      | .limit none =>
          match later with
          | [] => .misuse
          | value :: later =>
              if value.toList.head? = some '-' then .misuse
              else
                match options.withLimit? value with
                | some options => read options later
                | none => .misuse
      | .unknown => .misuse

def Request.of (arguments : List String) : Request :=
  read {} arguments

/-! ## Answers -/

structure Response where
  code : UInt32
  output : String
  errors : String
deriving DecidableEq

def Response.success (output : String) : Response :=
  ⟨0, output, ""⟩

def Response.failure (message : String) : Response :=
  ⟨1, "", "lockcheck: " ++ message ++ "\n"⟩

def usage : String :=
  "Usage: lockcheck [OPTIONS] [SCENARIO]\n"

def helpText : String :=
  "Exhaustive thread-ordering explorer with lock tracking and deadlock detection\n\n" ++ usage ++
    "\nArguments:\n" ++
    "  [SCENARIO]  Scenario file (TOML). Runs the built-in two-thread scenario if omitted\n" ++
    "\nOptions:\n" ++
    "      --max-permutations <MAX_PERMUTATIONS>\n" ++
    "          Stop after this many orderings (overrides the scenario file)\n" ++
    "      --summary\n" ++
    "          Print a one-line summary after the log\n" ++
    "      --dump-scenario\n" ++
    "          Print the effective scenario as TOML and exit\n" ++
    "  -h, --help\n" ++
    "          Print help\n" ++
    "  -V, --version\n" ++
    "          Print version\n"

def versionText : String :=
  "lockcheck 0.1.0\n"

def summaryText (exploration : Exploration) : String :=
  "explored " ++ toString exploration.explored ++ " permutation(s), " ++
    toString exploration.deadlocks.size ++ " deadlock report(s), " ++
    toString exploration.simulation.ledger.size ++ " lock(s) still held\n"

/-- The scenario to explore, under the limit of the command line if it gives one. Files are read
through the given function. -/
def load (content : String → Except FileError ByteArray) (options : Options) :
    Except Scenario.LoadError Scenario :=
  match options.path with
  | some name =>
      (Scenario.ofFile (content name)).map fun scenario => scenario.withLimit options.limit
  | none => .ok (Scenario.canonical.withLimit options.limit)

def perform (content : String → Except FileError ByteArray) (options : Options) : Response :=
  match load content options with
  | .error reason => .failure reason.message
  | .ok scenario =>
      if options.dump then
        match scenario.toText with
        | .ok text => .success text
        | .error reason => .failure reason.message
      else
        let exploration := LockExplorer.explore scenario.threads scenario.limit
        let log := exploration.simulation.log.text
        .success (if options.summary then log ++ summaryText exploration else log)

def answer (content : String → Except FileError ByteArray) : Request → Response
  | .explore options => perform content options
  | .help => .success helpText
  | .version => .success versionText
  | .misuse => ⟨2, "", usage⟩

def respond (content : String → Except FileError ByteArray) (arguments : List String) : Response :=
  answer content (Request.of arguments)

end CommandLine

end LockExplorer
