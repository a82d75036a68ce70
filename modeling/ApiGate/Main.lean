import ApiGate.Program

/-!
# Running the program

Looks at the paths that the arguments make the program look at, runs the program on what is there,
and does what comes of it. Nothing is decided here.
-/

namespace ApiGate.Main

def readEntry (path : String) : IO (Option Entry) := do
  try
    return some (Entry.ofBytes (← IO.FS.readBinFile path))
  catch
    | .noFileOrDirectory .. => return none
    | .inappropriateType .. => return some .directory
    | _ => return some (.file none)

/-- Everything on standard input, if it is text. -/
def readInput : IO (Option String) := do
  let stdin ← IO.getStdin
  let mut bytes := ByteArray.empty
  repeat
    let more ← stdin.read 4096
    if more.isEmpty then break
    bytes := bytes ++ more
  return String.fromUTF8? bytes

/-- The environment of a run, as far as it matters for what the program is called for. -/
def readEnvironment (invocation : Invocation) : IO Environment := do
  let bare : Environment :=
    { files := FileTree.ofEntries []
      configDir := ← IO.getEnv "JDEPS_GUARD_CONFIG_DIR"
      home := ← IO.getEnv "HOME"
      input := none }
  let entries ← (Program.paths bare invocation).filterMapM fun path => do
    return (← readEntry path).map fun entry => (path, entry)
  let input ← match invocation.command with
    | .check facts _ => if Facts.isInput facts then readInput else pure none
    | _ => pure none
  return { bare with files := FileTree.ofEntries entries, input := input }

/-- Writes the configuration of the project if the run has changed it. -/
def writeConfig (before after : FileTree) : IO Unit := do
  match after.find? Config.projectFile with
  | some (.file (some text)) =>
    if before.find? Config.projectFile ≠ some (.file (some text)) then
      IO.FS.writeFile Config.projectFile text
  | _ => return

end ApiGate.Main

open ApiGate in
def main (args : List String) : IO UInt32 := do
  let env ← match CommandLine.parse args with
    | .ok invocation => Main.readEnvironment invocation
    | .error _ => pure ⟨FileTree.ofEntries [], none, none, none⟩
  let outcome := Program.run env args
  for event in outcome.events do
    IO.eprintln event.logLine
  Main.writeConfig env.files outcome.files
  IO.print outcome.output
  match outcome.error with
  | some .usage => IO.eprint CommandLine.helpText
  | some (.failed f) => IO.eprintln ("Error: " ++ f.message)
  | none => pure ()
  return UInt32.ofNat outcome.exit
