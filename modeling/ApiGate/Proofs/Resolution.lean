import ApiGate.Proofs.Guarantees
import ApiGate.Proofs.Paths
import ApiGate.Proofs.Verdict
import Mathlib.Data.List.Find

/-!
# Where the configuration comes from

The sources of a configuration stand in a ranking, and a run uses the first that is taken: the path
that was asked for always is, a path of the project or of all projects is if there is a file, and
the defaults are if nothing else is. That choice is final. If what was chosen does not load, the run
ends with an error that names it, and no source further down is looked at.

So a file further down in the ranking has no influence, be it there or not and whatever its text,
unless it is the chosen file or the facts under another path. This compares two runs, and there are
two ways in which the file could make them differ:

* It could change the choice. But what ranks above it and is taken only if it is a file is a path of
  the project, and the goals of these two paths are no other source's (`ranking_pairwise`).
* It could change what is read. A run reads the chosen configuration and the facts, so the files
  matter only through the texts at these two paths (`run_of_text?`).
-/

namespace ApiGate

namespace ConfigSource

/-- The directory with the configuration for all projects: the one that is set, whatever it is, and
else one in the directory of the user. -/
def commonDirectory? (env : Environment) : Option String :=
  match env.configDir with
  | some directory => some directory
  | none => env.home.map fun home => joinPath home ".jdeps-guard"

/-- Where a configuration may come from. What counts more stands before what counts less. -/
def ranking (env : Environment) (asked : Option String) : List ConfigSource :=
  asked.toList.map .explicit
    ++ [.project "./jdeps-guard.toml", .project "./.jdeps-guard.toml"]
    ++ (commonDirectory? env).toList.map (.common <| joinPath · "config.toml")
    ++ [.defaults]

/-- Whether a source is taken if it is its turn. What was asked for is, also if it is not there. -/
def isTaken (files : FileTree) : ConfigSource → Bool
  | .project path | .common path => files.isFile path
  | .explicit _ | .defaults => true

/-- A source is the first in the ranking that is taken. -/
def IsFirst (source : ConfigSource) (env : Environment) (asked : Option String) : Prop :=
  ∃ before after, ranking env asked = before ++ source :: after ∧
    source.isTaken env.files = true ∧ ∀ other ∈ before, other.isTaken env.files = false

/-- A source counts more than another. -/
def Outranks (source : ConfigSource) (env : Environment) (asked : Option String)
    (lower : ConfigSource) : Prop :=
  ∃ before after, ranking env asked = before ++ source :: after ∧ lower ∈ after

theorem projectPaths_eq : projectPaths = ["./jdeps-guard.toml", "./.jdeps-guard.toml"] := by
  decide +kernel

theorem commonPath?_eq (env : Environment) :
    commonPath? env = (commonDirectory? env).map (joinPath · "config.toml") := by
  unfold commonPath? commonDirectory?
  cases env.configDir with
  | some directory => rfl
  | none => rfl

/-- Choosing a source is looking for the first in the ranking that is taken. -/
theorem find?_ranking (env : Environment) (asked : Option String) :
    (ranking env asked).find? (isTaken env.files) = some (resolve env asked) := by
  cases asked with
  | some path => rfl
  | none =>
    unfold resolve ranking
    rw [projectPaths_eq, commonPath?_eq]
    cases hplain : env.files.isFile "./jdeps-guard.toml" with
    | true => simp [isTaken, hplain]
    | false =>
      cases hdotted : env.files.isFile "./.jdeps-guard.toml" with
      | true => simp [isTaken, hplain, hdotted]
      | false =>
        cases commonDirectory? env with
        | none => simp [isTaken, hplain, hdotted]
        | some directory =>
          cases hcommon : env.files.isFile (joinPath directory "config.toml") with
          | true => simp [isTaken, hplain, hdotted, hcommon, Option.filter]
          | false => simp [isTaken, hplain, hdotted, hcommon, Option.filter]

theorem resolve_isFirst (env : Environment) (asked : Option String) :
    (resolve env asked).IsFirst env asked := by
  obtain ⟨htaken, before, after, hsplit, hbefore⟩ :=
    List.find?_eq_some_iff_append.1 (find?_ranking env asked)
  refine ⟨before, after, hsplit, htaken, fun other hother => ?_⟩
  rw [← Bool.not_eq_true']
  exact hbefore other hother

/-- Without a path there are no rules, and everything is to fail. -/
theorem gives_defaults (files : FileTree) : defaults.Gives files .fail [] :=
  ⟨Config.empty, .empty rfl, rfl, ⟨[], [], rfl, rfl, rfl⟩, List.Pairwise.nil⟩

/-! ### A choice that does not load -/

theorem load_of_unread {source : ConfigSource} {files : FileTree} {path : String}
    (hpath : source.path? = some path) (h : (files.text? path).bind Config.parse? = none) :
    source.load files = .error (.badConfig path) := by
  have hread : source.read files = .error (.badConfig path) := by
    unfold read
    simp only [hpath, h]
  unfold load
  rw [hread]
  rfl

theorem load_of_unsound {source : ConfigSource} {files : FileTree} {path : String} {config : Config}
    (hpath : source.path? = some path)
    (h : (files.text? path).bind Config.parse? = some config) (hnot : ¬config.Loadable) :
    ∃ e, source.load files = .error (.badRules (some path) e) := by
  have hread : source.read files = .ok config := read_eq_ok_iff.2 (holds_of_bind hpath h)
  cases hload : config.load with
  | ok set => exact absurd (Config.exists_load_iff_loadable.1 ⟨set, hload⟩) hnot
  | error e =>
    refine ⟨e, ?_⟩
    unfold load
    rw [hread, ← hpath]
    show config.load.mapError (Failure.badRules source.path?) = _
    rw [hload]
    rfl

/-! ### What a source further down cannot change -/

/-- If `lower` is at a path, then whether `source` is taken does not depend on what is at the goal
of that path: it always is, or it is a path of the project and ends elsewhere. -/
def Apart (source lower : ConfigSource) : Prop :=
  ∀ path, lower.path? = some path →
    (∃ own, source = .explicit own) ∨
      ∃ own, source = .project own ∧ (∀ here ∈ Location.way own, here = []) ∧
        Location.goal own ≠ Location.goal path

theorem apart_explicit (own : String) (lower : ConfigSource) : Apart (.explicit own) lower :=
  fun _ _ => Or.inl ⟨own, rfl⟩

theorem apart_defaults (source : ConfigSource) : Apart source .defaults :=
  fun _ hpath => (Option.some_ne_none _ hpath.symm).elim

/-- The configuration for all projects has a name that no configuration of a project has. -/
theorem apart_common {own : String} (hway : ∀ here ∈ Location.way own, here = [])
    (hgoal : (Location.goal own).getLast? ≠ some "config.toml") (directory : String) :
    Apart (.project own) (.common (joinPath directory "config.toml")) := by
  intro path hpath
  cases hpath
  refine Or.inr ⟨own, rfl, hway, fun heq => hgoal ?_⟩
  rw [heq]
  exact Location.getLast?_goal_joinPath directory (by decide +kernel) fun _ => rfl

/-- Whatever ranks above a source is apart from it. -/
theorem ranking_pairwise (env : Environment) (asked : Option String) :
    (ranking env asked).Pairwise Apart := by
  have hplain : ∀ here ∈ Location.way "./jdeps-guard.toml", here = [] := by decide +kernel
  have hdotted : ∀ here ∈ Location.way "./.jdeps-guard.toml", here = [] := by decide +kernel
  have hprojects : Apart (.project "./jdeps-guard.toml") (.project "./.jdeps-guard.toml") := by
    intro path hpath
    cases hpath
    exact Or.inr ⟨_, rfl, hplain, by decide +kernel⟩
  have hcommon := apart_common hplain (by decide +kernel)
  have hcommon' := apart_common hdotted (by decide +kernel)
  unfold ranking
  cases asked with
  | none =>
    cases commonDirectory? env with
    | none => simp [apart_defaults, hprojects]
    | some directory => simp [apart_defaults, hprojects, hcommon, hcommon']
  | some own =>
    cases commonDirectory? env with
    | none => simp [apart_explicit, apart_defaults, hprojects]
    | some directory => simp [apart_explicit, apart_defaults, hprojects, hcommon, hcommon']

theorem isTaken_of_changes {source lower : ConfigSource} (hapart : Apart source lower)
    {path : String} (hpath : lower.path? = some path) {spared : List String}
    {files files' : FileTree} (h : files.Changes (Location.goal path) spared files') :
    source.isTaken files' = source.isTaken files := by
  rcases hapart path hpath with ⟨own, rfl⟩ | ⟨own, rfl, hway, hgoal⟩
  · rfl
  · exact (h.alikeAlong hgoal (Or.inr hway)).isFile

/-- A change further down leaves the choice as it is. -/
theorem resolve_of_changes {env : Environment} {asked : Option String} {lower : ConfigSource}
    (hlower : (resolve env asked).Outranks env asked lower) {path : String}
    (hpath : lower.path? = some path) {spared : List String} {files' : FileTree}
    (h : env.files.Changes (Location.goal path) spared files') :
    resolve { env with files := files' } asked = resolve env asked := by
  obtain ⟨before, after, hsplit, hmem⟩ := hlower
  have hapart := ranking_pairwise env asked
  rw [hsplit, List.pairwise_append, List.pairwise_cons] at hapart
  obtain ⟨_, ⟨hsource, _⟩, hbefore⟩ := hapart
  have hfind := find?_ranking env asked
  -- the chosen source is taken in both trees, and nothing before it is taken in only one of them
  have htaken : (resolve env asked).isTaken env.files = true := List.find?_some hfind
  have htaken' := (isTaken_of_changes (hsource lower hmem) hpath h).trans htaken
  have hsame : before.find? (isTaken files') = before.find? (isTaken env.files) :=
    List.find?_congr fun other hother =>
      isTaken_of_changes (hbefore other hother lower (List.mem_cons_of_mem _ hmem)) hpath h
  refine Option.some.inj ?_
  calc some (resolve { env with files := files' } asked)
      = (ranking env asked).find? (isTaken files') :=
        (find?_ranking { env with files := files' } asked).symm
    _ = (ranking env asked).find? (isTaken env.files) := by
        rw [hsplit, List.find?_append, List.find?_append, hsame,
          List.find?_cons_of_pos htaken', List.find?_cons_of_pos htaken]
    _ = some (resolve env asked) := hfind

variable {source : ConfigSource} {files files' : FileTree}

theorem read_of_text?
    (h : ∀ path, source.path? = some path → files'.text? path = files.text? path) :
    source.read files' = source.read files := by
  unfold read
  cases hpath : source.path? with
  | none => rfl
  | some path => simp only [h path hpath]

theorem load_of_read (h : source.read files' = source.read files) :
    source.load files' = source.load files := by
  unfold load
  rw [h]

theorem events_of_read (h : source.read files' = source.read files) :
    source.events files' = source.events files := by
  unfold events
  rw [h]

end ConfigSource

theorem Facts.read_of_text? {env : Environment} {path : String} {files' : FileTree}
    (h : isInput path = false → files'.text? path = env.files.text? path) :
    read { env with files := files' } path = read env path := by
  unfold read readText
  cases hinput : isInput path with
  | true => rfl
  | false => simp only [h hinput]

namespace Program

/-- The files that a run reads when its configuration has been chosen. -/
def filesRead (source : ConfigSource) : Command → List String
  | .check facts _ =>
    source.path?.toList ++ if Facts.isInput facts then [] else [facts]
  | _ => source.path?.toList

theorem check_of_text? {env : Environment} {source : ConfigSource} {path : String}
    {format : Format} {files' : FileTree}
    (h : ∀ own ∈ filesRead source (.check path format), files'.text? own = env.files.text? own) :
    check { env with files := files' } source path format =
      { check env source path format with files := files' } := by
  have hread : source.read files' = source.read env.files := by
    refine ConfigSource.read_of_text? fun own hown => h own ?_
    exact List.mem_append_left _ (Option.mem_toList.2 hown)
  have hfacts : Facts.read { env with files := files' } path = Facts.read env path := by
    refine Facts.read_of_text? fun hinput => h path ?_
    refine List.mem_append_right _ ?_
    rw [hinput]
    exact List.mem_singleton_self path
  unfold check
  simp only [ConfigSource.load_of_read hread, ConfigSource.events_of_read hread, hfacts]
  cases source.load env.files with
  | error f => rfl
  | ok set =>
    cases Facts.read env path with
    | error f => rfl
    | ok facts => rfl

theorem listRules_of_text? {env : Environment} {source : ConfigSource} {files' : FileTree}
    (h : ∀ own ∈ filesRead source .listRules, files'.text? own = env.files.text? own) :
    listRules { env with files := files' } source =
      { listRules env source with files := files' } := by
  have hread : source.read files' = source.read env.files :=
    ConfigSource.read_of_text? fun own hown => h own (Option.mem_toList.2 hown)
  unfold listRules
  simp only [ConfigSource.load_of_read hread, ConfigSource.events_of_read hread]
  cases source.load env.files with
  | error f => rfl
  | ok set => rfl

/-- A run for which the same source is chosen, and the same texts are at the paths that it reads,
differs in nothing but the files. -/
theorem run_of_text? {env : Environment} {args : List String} {invocation : Invocation}
    (h : CommandLine.parse args = .ok invocation)
    (hcommand : ∀ force, invocation.command ≠ .init force) {files' : FileTree}
    (hresolve : ConfigSource.resolve { env with files := files' } invocation.config =
      ConfigSource.resolve env invocation.config)
    (htext : ∀ own ∈ filesRead (ConfigSource.resolve env invocation.config) invocation.command,
      files'.text? own = env.files.text? own) :
    run { env with files := files' } args = { run env args with files := files' } := by
  have hperform : perform { env with files := files' } invocation =
      { perform env invocation with files := files' } := by
    unfold perform
    rw [hresolve]
    cases hc : invocation.command with
    | check path format => exact check_of_text? (hc ▸ htext)
    | listRules => exact listRules_of_text? (hc ▸ htext)
    | init force => exact absurd hc (hcommand force)
  unfold run
  rw [h]
  simp only [hperform]

/-- A run ends early, with an error that says `message` and nothing written. -/
structure Fails (outcome : Outcome) (message : String) : Prop where
  exit : outcome.exit = 1
  output : outcome.output = ""
  error : ∃ f, outcome.error = some (.failed f) ∧ f.message = message

/-- What is to be said of a run that is called for a check or for the rules, if its configuration
comes from `source`. -/
structure RunsOn (env : Environment) (args : List String) (invocation : Invocation)
    (source : ConfigSource) : Prop where
  /-- The source is the first in the ranking that is taken. -/
  first : source.IsFirst env invocation.config
  /-- Without a path there are no rules, and everything is to fail. -/
  defaults : source.path? = none → source.Gives env.files .fail []
  /-- The facts are judged by what the source gives. -/
  checks (path : String) (format : Format) : invocation.command = .check path format →
    Verdict env source path (run env args)
  /-- The rules that are listed are those that the source gives. -/
  lists (default : Severity) (rules : List Rule) (index : Index) :
    invocation.command = .listRules → source.Gives env.files default rules →
      (run env args).exit = 0 ∧ (run env args).error = none ∧
        (run env args).output = (RuleSet.mk rules index default).table source.path?
  /-- If the file at its path cannot be read or is no configuration, the run fails. -/
  unread (path : String) : source.path? = some path →
    (env.files.text? path).bind Config.parse? = none →
      Fails (run env args) ("Failed to load config: " ++ path)
  /-- If there is a configuration, but with a piece that cannot be read or with a conflict, the run
  fails. -/
  unsound (path : String) (config : Config) : source.path? = some path →
    (env.files.text? path).bind Config.parse? = some config → ¬config.Loadable →
      Fails (run env args) ("Invalid rules in " ++ path)
  /-- A file at the path of a source that counts less has no influence, unless it is read: with the
  file added, removed or changed, the run differs in nothing but the files. -/
  shadows (lower : ConfigSource) (path : String) (files' : FileTree) :
    source.Outranks env invocation.config lower → lower.path? = some path →
      (∀ own ∈ filesRead source invocation.command, Location.goal own ≠ Location.goal path) →
        env.files.Changes (Location.goal path) (filesRead source invocation.command) files' →
          run { env with files := files' } args = { run env args with files := files' }

/-- A run whose configuration does not load ends at once, with the error of loading it. -/
theorem run_fails {env : Environment} {args : List String} {invocation : Invocation}
    (h : CommandLine.parse args = .ok invocation)
    (hcommand : ∀ force, invocation.command ≠ .init force) {f : Failure}
    (hload : (ConfigSource.resolve env invocation.config).load env.files = .error f) :
    Fails (run env args) f.message := by
  have hperform : perform env invocation =
      failure env ((ConfigSource.resolve env invocation.config).events env.files) f := by
    unfold perform
    cases hc : invocation.command with
    | check path format => simp only [check, hload]
    | listRules => simp only [listRules, hload]
    | init force => exact absurd hc (hcommand force)
  unfold run
  rw [h]
  simp only [hperform]
  exact ⟨rfl, rfl, f, rfl, rfl⟩

/-- A run that is called for the rules writes those of the chosen source. -/
theorem run_listRules {env : Environment} {args : List String} {invocation : Invocation}
    (h : CommandLine.parse args = .ok invocation) (hcommand : invocation.command = .listRules)
    {set : RuleSet}
    (hload : (ConfigSource.resolve env invocation.config).load env.files = .ok set) :
    (run env args).exit = 0 ∧ (run env args).error = none ∧
      (run env args).output = set.table (ConfigSource.resolve env invocation.config).path? := by
  have hperform : perform env invocation =
      listRules env (ConfigSource.resolve env invocation.config) := by
    unfold perform
    rw [hcommand]
  unfold run
  rw [h]
  simp only [hperform, listRules, hload, and_self]

/--
**The configuration that counts most decides, and it decides alone.**

Every run that is called for a check or for the rules uses the first source in the ranking that is
taken. If that source does not load, the run fails and names it; and what is at the paths of the
sources that count less makes no difference to what the run gives, writes, reports and tells.
-/
theorem run_resolves (env : Environment) {args : List String} {invocation : Invocation}
    (h : CommandLine.parse args = .ok invocation)
    (hcommand : ∀ force, invocation.command ≠ .init force) :
    RunsOn env args invocation (ConfigSource.resolve env invocation.config) where
  first := ConfigSource.resolve_isFirst env invocation.config
  defaults hnone := by
    cases hsource : ConfigSource.resolve env invocation.config with
    | defaults => exact ConfigSource.gives_defaults env.files
    | explicit path | project path | common path =>
      rw [hsource] at hnone
      cases hnone
  checks path format hcheck := by
    have hparse : CommandLine.parse args =
        .ok ⟨invocation.verbose, invocation.config, .check path format⟩ := by
      rw [h, ← hcheck]
    obtain ⟨told, hrun⟩ := run_check env hparse
    obtain ⟨passes, fails, error, silent⟩ :=
      verdict_check env (ConfigSource.resolve env invocation.config) path format
    rw [hrun]
    exact ⟨passes, fails, error, silent⟩
  lists default rules index hlist hgives := by
    obtain ⟨index', hload⟩ := ConfigSource.gives_iff.1 hgives
    obtain ⟨hexit, herror, houtput⟩ := run_listRules h hlist hload
    -- the index is not written
    exact ⟨hexit, herror, houtput⟩
  unread path hpath hnone := run_fails h hcommand (ConfigSource.load_of_unread hpath hnone)
  unsound path config hpath hparse hnot := by
    obtain ⟨e, hload⟩ := ConfigSource.load_of_unsound hpath hparse hnot
    exact run_fails h hcommand hload
  shadows lower path files' hlower hpath hgoals hchanges := by
    have hresolve := ConfigSource.resolve_of_changes hlower hpath hchanges
    refine run_of_text? h hcommand hresolve fun own hown => ?_
    exact (hchanges.alikeAlong (hgoals own hown) (Or.inl hown)).text?

/-- A project with this text as its configuration, and with the directory it runs in as the one for
all projects. There is no other configuration. -/
def projectWith (text : String) : Environment :=
  ⟨FileTree.ofEntries [("jdeps-guard.toml", .file (some text))], some "", none,
    some "\x7b\"a\": [\"b\"]\x7d"⟩

/-- The project with a configuration for all projects under which no check fails. The configuration
of the project itself is none. -/
def laxlyCovered : FileTree :=
  (projectWith "rules").files.set ["config.toml"]
    (some (.file (some "default-severity = \"IGNORE\"")))

/-- A configuration that is none, one with a rule that is none, and one with two rules for one pair:
each of them ends the run. A lax configuration for all projects does not help. -/
theorem run_resolves_broken :
    CommandLine.parse ["check", "-"] = .ok ⟨false, none, .check "-" .text⟩ ∧
      (∀ force, Command.check "-" .text ≠ .init force) ∧
      Fails (run (projectWith "rules") ["check", "-"])
        "Failed to load config: ./jdeps-guard.toml" ∧
      Fails (run (projectWith "arrow-rules = [\"a -> b: LOUD\"]") ["check", "-"])
        "Invalid rules in ./jdeps-guard.toml" ∧
      Fails (run (projectWith "arrow-rules = [\"a -> b: WARN\", \"a -> b: INFORM\"]")
        ["check", "-"]) "Invalid rules in ./jdeps-guard.toml" ∧
      run { projectWith "rules" with files := laxlyCovered } ["check", "-"] =
        { run (projectWith "rules") ["check", "-"] with files := laxlyCovered } := by
  have hparse : CommandLine.parse ["check", "-"] = .ok ⟨false, none, .check "-" .text⟩ := by rfl
  have hcommand : ∀ force, Command.check "-" .text ≠ .init force := fun force h => by cases h
  have hruns : ∀ text,
      ConfigSource.resolve (projectWith text) none = .project "./jdeps-guard.toml" →
        RunsOn (projectWith text) ["check", "-"] ⟨false, none, .check "-" .text⟩
          (.project "./jdeps-guard.toml") :=
    fun text hresolve => hresolve ▸ run_resolves (projectWith text) hparse hcommand
  have hloud : ¬Config.Loadable ⟨none, [], .list ["a -> b: LOUD"]⟩ :=
    Config.not_loadable_of_load (e := .badRule (.arrowRule 0) (.unknownSeverity " LOUD")) (by rfl)
  have hclash : ¬Config.Loadable ⟨none, [], .list ["a -> b: WARN", "a -> b: INFORM"]⟩ := by
    refine Config.not_loadable_of_load (e := .conflict
      ⟨⟨⟨"a", ?_⟩, ⟨"b", ?_⟩, .warn⟩, ⟨⟨"a", ?_⟩, ⟨"b", ?_⟩, .inform⟩⟩) ?_
    all_goals rfl
  have hranking : ConfigSource.Outranks (.project "./jdeps-guard.toml") (projectWith "rules") none
      (.common "config.toml") :=
    ⟨[], [.project "./.jdeps-guard.toml", .common "config.toml", .defaults], by decide +kernel,
      by decide +kernel⟩
  have hnone := hruns "rules" (by decide +kernel)
  refine ⟨hparse, hcommand, hnone.unread _ rfl (by decide +kernel), ?_, ?_, ?_⟩
  · exact (hruns _ (by decide +kernel)).unsound _ _ rfl (by decide +kernel) hloud
  · exact (hruns _ (by decide +kernel)).unsound _ _ rfl (by decide +kernel) hclash
  · refine hnone.shadows _ "config.toml" laxlyCovered hranking rfl (by decide +kernel) ?_
    have hgoal : Location.goal "config.toml" = ["config.toml"] := by decide +kernel
    rw [hgoal]
    exact FileTree.changes_set (by decide +kernel) (by decide +kernel) _

end Program

end ApiGate
