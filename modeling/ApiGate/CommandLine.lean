import ApiGate.Output

/-!
# The command line

Options may stand before or after the command and mixed with its arguments. An option has a long
name, and most have a letter; letters may be bundled, and a value may be attached or be the next
argument. The verbose flag and the configuration may be given on either side of the command, and on
the side of the command they count for more. No option may be given twice on one side.

Arguments are read from left to right, and the `State` between two of them says what has been
given. An argument that cannot be right ends the reading, and so do requests for help and for the
version.
-/

namespace ApiGate

inductive Command where
  | check (facts : String) (format : Format)
  | listRules
  | init (force : Bool)
  deriving DecidableEq, Repr

/-- What the program is called for. -/
structure Invocation where
  /-- Whether every step is told. -/
  verbose : Bool
  config : Option String
  command : Command
  deriving DecidableEq, Repr

namespace CommandLine

/-- Why there is nothing to do. -/
inductive Stop where
  | usage
  | help
  | version
  deriving DecidableEq, Repr

inductive Flag where
  | verbose
  | config
  | format
  | force
  | help
  | version
  deriving DecidableEq, Repr

/-- Where options stand: before any command, or after one. -/
inductive Side where
  | program
  | check
  | listRules
  | init
  deriving DecidableEq, Repr

def Side.ofName? : String → Option Side
  | "check" => some .check
  | "list-rules" => some .listRules
  | "init" => some .init
  | _ => none

def Flag.allowed (side : Side) : Flag → Bool
  | .verbose | .config | .help => true
  | .version => side = .program
  | .format => side = .check
  | .force => side = .init

def Flag.hasValue : Flag → Bool
  | .config | .format => true
  | _ => false

def Flag.ofName? (side : Side) (name : String) : Option Flag :=
  (match name with
    | "verbose" => some Flag.verbose
    | "config" => some .config
    | "format" => some .format
    | "force" => some .force
    | "help" => some .help
    | "version" => some .version
    | _ => none).filter (·.allowed side)

def Flag.ofLetter? (side : Side) (letter : Char) : Option Flag :=
  (match letter with
    | 'v' => some Flag.verbose
    | 'c' => some .config
    | 'f' => some .format
    | 'h' => some .help
    | 'V' => some .version
    | _ => none).filter (·.allowed side)

/-- The options that may stand on either side. -/
structure Shared where
  /-- Whether every step is told. -/
  verbose : Bool
  config : Option String
  deriving DecidableEq, Repr

/-- What has been given so far. -/
structure State where
  /-- Where the next option stands. -/
  side : Side
  /-- The options given before the command. -/
  before : Shared
  /-- The options given on the side at hand. -/
  shared : Shared
  format : Option Format
  /-- Whether an existing configuration may be overwritten. -/
  force : Bool
  facts : Option String
  /-- The option whose value comes next. -/
  awaiting : Option Flag
  /-- Whether no more options follow. -/
  operandsOnly : Bool
  deriving DecidableEq, Repr

def Shared.none : Shared := ⟨false, Option.none⟩

def State.start : State :=
  ⟨.program, .none, .none, none, false, none, none, false⟩

namespace State

def enter (s : State) (side : Side) : State :=
  { s with side := side, before := s.shared, shared := .none }

/-- Takes an option without a value. -/
def switch (s : State) : Flag → Except Stop State
  | .verbose =>
    if s.shared.verbose then .error .usage
    else .ok { s with shared := { s.shared with verbose := true } }
  | .force => if s.force then .error .usage else .ok { s with force := true }
  | .help => .error .help
  | .version => .error .version
  | _ => .error .usage

/-- Takes the value of an option. -/
def take (s : State) (flag : Flag) (value : String) : Except Stop State :=
  match flag with
  | .config =>
    if value = "" ∨ s.shared.config.isSome then .error .usage
    else .ok { s with shared := { s.shared with config := some value }, awaiting := none }
  | .format =>
    match Format.ofName? value, s.format with
    | some format, none => .ok { s with format := some format, awaiting := none }
    | _, _ => .error .usage
  | _ => .error .usage

/-- Takes an argument that is no option. -/
def operand (s : State) (arg : String) : Except Stop State :=
  if s.side = .check ∧ s.facts = none ∧ arg ≠ "" then .ok { s with facts := some arg }
  else .error .usage

/-- Takes an option by its long name, with the value that is attached to it. -/
def long (s : State) (name : String) (value : Option String) : Except Stop State :=
  match Flag.ofName? s.side name with
  | none => .error .usage
  | some flag =>
    match flag.hasValue, value with
    | true, some value => s.take flag value
    | true, none => .ok { s with awaiting := some flag }
    | false, some _ => .error .usage
    | false, none => s.switch flag

/-- Takes options by their letters, the last of which may have a value attached. -/
def letters (s : State) : List Char → Except Stop State
  | [] => .ok s
  | c :: rest =>
    match Flag.ofLetter? s.side c with
    | none => .error .usage
    | some flag =>
      if flag.hasValue then
        match rest with
        | [] => .ok { s with awaiting := some flag }
        -- an equals sign does not belong to the value
        | '=' :: value => s.take flag (String.ofList value)
        | value => s.take flag (String.ofList value)
      else (s.switch flag).bind fun s => s.letters rest

/-- Takes an argument where options may stand. An option whose value is still to come cannot be
followed by another. -/
def argument (s : State) (arg : String) : Except Stop State :=
  match arg.toList with
  -- what follows is no option, whatever it looks like
  | ['-', '-'] => .ok { s with operandsOnly := true }
  | '-' :: '-' :: rest =>
    if s.awaiting.isSome then .error .usage
    else if rest.contains '=' then
      s.long (String.ofList (rest.takeWhile (· ≠ '=')))
        (some (String.ofList ((rest.dropWhile (· ≠ '=')).drop 1)))
    else s.long (String.ofList rest) none
  | '-' :: c :: rest => if s.awaiting.isSome then .error .usage else s.letters (c :: rest)
  -- a single hyphen comes here too
  | _ =>
    match s.awaiting with
    | some flag => s.take flag arg
    | none => s.operand arg

def step (s : State) (arg : String) : Except Stop State :=
  if s.operandsOnly then
    if s.awaiting.isSome then .error .usage else s.operand arg
  else
    match s.side, s.awaiting, Side.ofName? arg with
    | .program, none, some side => .ok (s.enter side)
    | _, _, _ => s.argument arg

/-- What the arguments call for, once there are no more. -/
def finish (s : State) : Except Stop Invocation :=
  if s.awaiting.isSome then .error .usage
  else
    let invocation (command : Command) : Invocation :=
      ⟨s.before.verbose || s.shared.verbose, s.shared.config.or s.before.config, command⟩
    match s.side, s.facts with
    | .check, some facts => .ok (invocation (.check facts (s.format.getD .text)))
    | .listRules, _ => .ok (invocation .listRules)
    | .init, _ => .ok (invocation (.init s.force))
    | _, _ => .error .usage

end State

def isTopic (name : String) : Bool := (Side.ofName? name).isSome || name = "help"

/-- Takes arguments up to the end. In place of a command, `help` asks for help, about one command
at most. -/
def parseFrom (s : State) : List String → Except Stop Invocation
  | [] => s.finish
  | arg :: rest =>
    if s.side = .program ∧ s.awaiting = none ∧ s.operandsOnly = false ∧ arg = "help" then
      match rest with
      | [] => .error .help
      | [topic] => .error (if isTopic topic then .help else .usage)
      | _ => .error .usage
    else (s.step arg).bind fun s => parseFrom s rest

def parse (args : List String) : Except Stop Invocation := parseFrom .start args

def versionText : String := "jdeps-guard 0.2.0\n"

def helpText : String :=
  String.join
    ["Usage: jdeps-guard [OPTIONS] <COMMAND>\n",
     "\n",
     "Commands:\n",
     "  check <FACTS>  Judge internal dependencies and fail on forbidden ones\n",
     "  list-rules     List the configured rules\n",
     "  init           Initialize configuration file\n",
     "  help           Print this message\n",
     "\n",
     "Options:\n",
     "  -v, --verbose          Enable verbose output\n",
     "  -c, --config <CONFIG>  Path to configuration file\n",
     "  -f, --format <FORMAT>  Output format of check: text, json or compact\n",
     "      --force            Let init overwrite an existing configuration\n",
     "  -h, --help             Print help\n",
     "  -V, --version          Print version\n"]

end CommandLine

end ApiGate
