import ApiGate.CommandLine
import ApiGate.Facts
import ApiGate.FileTree

/-!
# The program

A run of the program is a function of its arguments and its `Environment`. What comes of it is an
`Outcome`: an exit code, a text, what is told on the way, an error if there is one, and the files
afterwards.

* The configuration is the one asked for, or else the first that is a file: two in the project, one
  for all projects. Only if none is a file do the defaults apply. A configuration that is chosen and
  does not load ends the run; no other is tried.
* `check` loads the configuration before it reads the facts, and exits with 1 if they do not load,
  or if there is a dependency that fails the build.
* `init` writes a configuration unless there is one.
-/

namespace ApiGate

/-- What a run of the program depends on besides its arguments. -/
structure Environment where
  files : FileTree
  /-- The directory with the configuration for all projects, if it is set. -/
  configDir : Option String
  /-- The directory of the user, if there is one. -/
  home : Option String
  /-- The text on standard input, unless its bytes are none. -/
  input : Option String

inductive Failure where
  /-- The configuration at a path cannot be read, or is none. -/
  | badConfig (path : String)
  /-- The rules of the configuration at a path, or of the defaults, do not load. -/
  | badRules (path : Option String) (e : LoadError)
  | unreadableInput
  | unreadableFacts (path : String)
  /-- The facts are not what a facts file holds. -/
  | badFacts (path : String)
  /-- There is a configuration. -/
  | configExists
  /-- There is a directory in place of the configuration. -/
  | configIsDirectory
  deriving DecidableEq

/-- The path of the configuration of a project. -/
def Config.projectFile : String := "jdeps-guard.toml"

def Failure.message : Failure → String
  | .badConfig path => "Failed to load config: " ++ path
  | .badRules path _ => "Invalid rules in " ++ path.getD "<defaults>"
  | .unreadableInput => "Failed to read facts from stdin"
  | .unreadableFacts path => "Failed to read facts file: " ++ path
  | .badFacts path => "Failed to parse facts file: " ++ path
  | .configExists =>
    "Configuration file already exists at " ++ Config.projectFile ++ ". Use --force to overwrite."
  | .configIsDirectory => "Is a directory (os error 21)"

/-- Why a run did not do what it was called for. -/
inductive ProgramError where
  | usage
  /-- The run ended early. -/
  | failed (f : Failure)
  deriving DecidableEq

/-- What comes of a run. -/
structure Outcome where
  exit : Nat
  output : String
  /-- What is told on the way. -/
  events : List Event
  error : Option ProgramError
  files : FileTree

def joinPath (directory name : String) : String :=
  if directory = "" then name
  else if directory.toList.getLast? = some '/' then directory ++ name
  else directory ++ "/" ++ name

/-- Where the configuration comes from. -/
inductive ConfigSource where
  /-- It was asked for. -/
  | explicit (path : String)
  | project (path : String)
  /-- It is the one for all projects. -/
  | common (path : String)
  /-- There is none. -/
  | defaults
  deriving DecidableEq, Repr

namespace ConfigSource

def path? : ConfigSource → Option String
  | .explicit path | .project path | .common path => some path
  | .defaults => none

/-- The configurations of a project, the first one first. -/
def projectPaths : List String :=
  [joinPath "." Config.projectFile, joinPath "." ("." ++ Config.projectFile)]

/-- The configuration for all projects. -/
def commonPath? (env : Environment) : Option String :=
  (env.configDir.or (env.home.map (joinPath · ".jdeps-guard"))).map (joinPath · "config.toml")

def resolve (env : Environment) (asked : Option String) : ConfigSource :=
  match asked with
  | some path => .explicit path
  | none =>
    match projectPaths.find? env.files.isFile with
    | some path => .project path
    | none =>
      match (commonPath? env).filter env.files.isFile with
      | some path => .common path
      | none => .defaults

/-- The configuration at a source; the error is that there is none. -/
def read (files : FileTree) (source : ConfigSource) : Except Failure Config :=
  match source.path? with
  | none => .ok Config.empty
  | some path =>
    match (files.text? path).bind Config.parse? with
    | some config => .ok config
    | none => .error (.badConfig path)

def load (files : FileTree) (source : ConfigSource) : Except Failure RuleSet := do
  let config ← source.read files
  config.load.mapError (.badRules source.path?)

def choiceEvents : ConfigSource → List Event
  | .project path => [.projectConfigFound path]
  | .common path => [.globalConfigFound path, .usingGlobalConfig path]
  | .defaults => [.noConfig]
  | .explicit _ => []

/-- What is told of the choice of a source and of the loading of its rules. -/
def events (files : FileTree) (source : ConfigSource) : List Event :=
  source.choiceEvents
    ++ match source.read files with
      | .ok config => config.events
      | .error _ => []

end ConfigSource

namespace Facts

/-- Whether a path stands for standard input: a hyphen, up to dots and slashes after it. -/
def isInput (path : String) : Bool :=
  match path.toList.splitOn '/' with
  | ['-'] :: rest => rest.all fun step => step = [] || step = ['.']
  | _ => false

def readText (env : Environment) (path : String) : Except Failure String :=
  if isInput path then
    match env.input with
    | some text => .ok text
    | none => .error .unreadableInput
  else
    match env.files.text? path with
    | some text => .ok text
    | none => .error (.unreadableFacts path)

def read (env : Environment) (path : String) : Except Failure (List (String × List String)) := do
  let text ← readText env path
  match decode? text with
  | some facts => .ok facts
  | none => .error (.badFacts path)

end Facts

namespace Program

def failure (env : Environment) (events : List Event) (f : Failure) : Outcome :=
  ⟨1, "", events, some (.failed f), env.files⟩

/-- Judges the usages in a facts file. -/
def check (env : Environment) (source : ConfigSource) (path : String) (format : Format) :
    Outcome :=
  let loading := source.events env.files
  match source.load env.files with
  | .error f => failure env loading f
  | .ok rules =>
    -- from here on the rules are in order, and the facts may still not be
    match Facts.read env path with
    | .error f => failure env loading f
    | .ok facts =>
      let usages := Facts.usages facts
      let findings := rules.findings usages
      { exit := if findings.hasFailures then 1 else 0
        output := findings.write rules.defaultSeverity format
        events := loading ++ Facts.events facts
          ++ .judging usages.length rules.rules.length rules.defaultSeverity :: rules.events usages
        error := none
        files := env.files }

def listRules (env : Environment) (source : ConfigSource) : Outcome :=
  let loading := source.events env.files
  match source.load env.files with
  | .error f => failure env loading f
  | .ok rules => ⟨0, rules.table source.path?, loading, none, env.files⟩

def createdText : String :=
  "Created " ++ Config.projectFile ++ "\n\nNext steps:\n  1. Edit " ++ Config.projectFile
    ++ " to configure rules\n  2. Run: jdeps-guard check <facts.json>\n"

/-- Writes a configuration to start with. -/
def init (env : Environment) (force : Bool) : Outcome :=
  match env.files.find? Config.projectFile, force with
  -- anything that is there counts as a configuration
  | some _, false => failure env [] .configExists
  | some .directory, true => failure env [] .configIsDirectory
  | _, _ =>
    ⟨0, createdText, [], none,
      env.files.set [Config.projectFile] (some (.file (some Config.template)))⟩

/-- Does what the program is called for, and tells everything. -/
def perform (env : Environment) (invocation : Invocation) : Outcome :=
  let source := ConfigSource.resolve env invocation.config
  match invocation.command with
  | .check facts format => check env source facts format
  | .listRules => listRules env source
  | .init force => init env force

/-- The paths at which a run looks. -/
def paths (env : Environment) (invocation : Invocation) : List String :=
  match invocation.command with
  | .init _ => [Config.projectFile]
  | .listRules => configPaths
  | .check facts _ => configPaths ++ [facts]
where
  configPaths : List String :=
    invocation.config.toList ++ ConfigSource.projectPaths ++ (ConfigSource.commonPath? env).toList

def isTold (verbose : Bool) (e : Event) : Bool := verbose || e.level ≠ .debug

def run (env : Environment) (args : List String) : Outcome :=
  match CommandLine.parse args with
  | .error .usage => ⟨2, "", [], some .usage, env.files⟩
  | .error .help => ⟨0, CommandLine.helpText, [], none, env.files⟩
  | .error .version => ⟨0, CommandLine.versionText, [], none, env.files⟩
  | .ok invocation =>
    let outcome := perform env invocation
    { outcome with events := outcome.events.filter (isTold invocation.verbose) }

end Program

end ApiGate
