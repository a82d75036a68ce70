import ApiGate.Proofs.Resolution

/-!
# What calls leave behind

The files of a project outlive a call of the program, so one call finds what the calls before it
have left. The program writes a single file, the configuration of the project, and only if it is
called for `init`. It does so with care: a directory in place of the file is never replaced, and a
file only on request. Whatever it writes is the template.

* One call either leaves all files as they are, or it is an `init` that puts the template in place
  where nothing forbids it (`Call.files_cases`).
* So after any number of calls the files are those of the start, but that the template may be in
  place, and then it has been put there by an `init` among the calls (`FileTree.after_cases`).
* The template is a configuration without rules under which everything is to fail. A check that
  finds it chooses it before anything else, and passes iff the facts list nothing
  (`Program.check_template`).
-/

namespace ApiGate

/-! ## What the template says -/

namespace Config

/-- Where the configuration of a project is. -/
def place : Location := [projectFile]

theorem place_ne_nil : place ≠ [] := List.cons_ne_nil _ _

/-- The configuration to start with, as an entry. -/
def templateFile : Entry := .file (some template)

theorem toList_template :
    template.toList = templateLines.flatMap fun line => line.toList ++ ['\n'] := by
  unfold template
  rw [String.toList_join, List.flatMap_map]
  simp

/-- The template sets the default severity and opens an empty list of arrow rules. All rules in it
are commented out. -/
theorem parse?_template : parse? template = some ⟨some "FAIL", [], .list []⟩ := by
  unfold parse? Toml.parse?
  -- evaluating the text itself would join its lines character by character
  rw [toList_template]
  decide +kernel

end Config

namespace ConfigSource

variable {files : FileTree}

/-- What a source gives is the only thing it gives. -/
theorem Gives.unique {source : ConfigSource} {default default' : Severity}
    {rules rules' : List Rule} (h : source.Gives files default rules)
    (h' : source.Gives files default' rules') : default = default' ∧ rules = rules' := by
  obtain ⟨index, hload⟩ := gives_iff.1 h
  obtain ⟨index', hload'⟩ := gives_iff.1 h'
  cases hload.symm.trans hload'
  exact ⟨rfl, rfl⟩

/-- A file in the place of a project's configuration is found along every path that leads there and
goes through no other directory. -/
theorem find?_of_place {path : String} (hway : ∀ here ∈ Location.way path, here = [])
    (hgoal : Location.goal path = Config.place) {text : Option String}
    (h : files.lookup Config.place = some (.file text)) : files.find? path = some (.file text) := by
  rw [FileTree.find?_eq_file_iff, hgoal, FileTree.file?_eq_some_iff]
  refine ⟨fun here hhere => ?_, Config.place_ne_nil, h⟩
  simp [hway here hhere]

theorem find?_of_templateFile (h : files.lookup Config.place = some Config.templateFile) :
    files.find? "./jdeps-guard.toml" = some (.file (some Config.template)) :=
  find?_of_place (by decide +kernel) (by decide +kernel) h

/-- With the template in place, nothing else is looked at for a configuration. -/
theorem resolve_of_templateFile {env : Environment}
    (h : env.files.lookup Config.place = some Config.templateFile) :
    resolve env none = .project "./jdeps-guard.toml" := by
  have htaken : env.files.isFile "./jdeps-guard.toml" = true :=
    FileTree.isFile_eq_true_iff.2 ⟨_, find?_of_templateFile h⟩
  unfold resolve
  rw [projectPaths_eq, List.find?_cons_of_pos htaken]

/-- The template has no rules, and everything is to fail under it. -/
theorem gives_of_templateFile (h : files.lookup Config.place = some Config.templateFile) :
    (project "./jdeps-guard.toml").Gives files .fail [] := by
  have htext : files.text? "./jdeps-guard.toml" = some Config.template :=
    FileTree.text?_eq_some_iff.2 (find?_of_templateFile h)
  refine ⟨⟨some "FAIL", [], .list []⟩, .written rfl htext Config.parse?_template, ?_,
    ⟨[], [], rfl, rfl, rfl⟩, List.Pairwise.nil⟩
  decide +kernel

end ConfigSource

/-- Without rules, everything resolves to the default. -/
theorem resolves_nil (default : Severity) (q x : String) : Resolves [] default q x default :=
  Or.inr ⟨fun _ hr => absurd hr List.not_mem_nil, rfl⟩

namespace Program

/-- **Under the template a check passes iff the facts load and list nothing.** -/
theorem check_template {env : Environment}
    (h : env.files.lookup Config.place = some Config.templateFile) (path : String)
    (format : Format) :
    (check env (.project "./jdeps-guard.toml") path format).exit = 0 ↔
      ∃ facts, Facts.FoundAt env path facts ∧ ∀ t d, ¬Facts.Lists facts t d := by
  have hgives := ConfigSource.gives_of_templateFile h
  rw [(verdict_check env (.project "./jdeps-guard.toml") path format).passes]
  constructor
  · intro hpass
    obtain ⟨default, rules, facts, hgives', hfacts, hnone⟩ := hpass
    obtain ⟨rfl, rfl⟩ := hgives.unique hgives'
    exact ⟨facts, hfacts, fun t d hlists => hnone t d hlists (resolves_nil .fail t d)⟩
  · intro hfacts
    obtain ⟨facts, hfound, hnone⟩ := hfacts
    exact ⟨.fail, [], facts, hgives, hfound, fun t d hlists _ => hnone t d hlists⟩

end Program

/-! ## One call -/

/-- What a call of the program brings along, besides the files it finds. -/
structure Call where
  args : List String
  /-- The directory with the configuration for all projects, if it is set. -/
  configDir : Option String
  /-- The directory of the user, if there is one. -/
  home : Option String
  /-- The text on standard input, unless its bytes are none. -/
  input : Option String

namespace Call

def on (call : Call) (files : FileTree) : Environment :=
  ⟨files, call.configDir, call.home, call.input⟩

/-- What comes of a call that finds these files. -/
def outcome (call : Call) (files : FileTree) : Outcome :=
  Program.run (call.on files) call.args

/-- The call is for `init`, with or without leave to overwrite. -/
def Inits (call : Call) (force : Bool) : Prop :=
  ∃ verbose config, CommandLine.parse call.args = .ok ⟨verbose, config, .init force⟩

end Call

namespace FileTree

/-- Nothing is in the way of a configuration to start with: there is no entry in its place, or there
is a file that may be overwritten. -/
def Admits (files : FileTree) (force : Bool) : Prop :=
  files.lookup Config.place = none ∨
    force = true ∧ ∃ text, files.lookup Config.place = some (.file text)

/-- The files with the configuration to start with. -/
def withTemplate (files : FileTree) : FileTree :=
  files.set Config.place (some Config.templateFile)

theorem find?_projectFile (files : FileTree) :
    files.find? Config.projectFile = files.lookup Config.place := by
  have hpath : Location.ofPath Config.projectFile = ([], Config.place) := by decide +kernel
  have hway : ∀ here ∈ (Location.trail [] Config.place).dropLast, here = [] := by decide +kernel
  have hwalk : files.walk [] Config.place = some Config.place := by
    rw [walk_eq_some_iff]
    refine ⟨fun here hhere => ?_, by decide +kernel⟩
    simp [hway here hhere]
  unfold find?
  simp only [hpath, hwalk, Option.bind_some]
  exact if_neg Config.place_ne_nil

@[simp] theorem lookup_withTemplate (files : FileTree) :
    files.withTemplate.lookup Config.place = some Config.templateFile := by
  simp [withTemplate]

theorem withTemplate_withTemplate (files : FileTree) :
    files.withTemplate.withTemplate = files.withTemplate := by
  simp only [withTemplate, set, FileTree.mk.injEq]
  funext other
  split
  · rfl
  · rfl

/-- What is there is in the way, unless it is a file that may be overwritten. -/
theorem not_admits_of_ne_none {files : FileTree} (h : files.lookup Config.place ≠ none) :
    ¬files.Admits false := by
  intro hadmits
  rcases hadmits with hnone | ⟨hforce, _⟩
  · exact h hnone
  · cases hforce

theorem not_admits_of_directory {files : FileTree} {force : Bool}
    (h : files.lookup Config.place = some .directory) : ¬files.Admits force := by
  intro hadmits
  rcases hadmits with hnone | ⟨_, text, htext⟩
  · rw [h] at hnone
    cases hnone
  · rw [h] at htext
    cases htext

end FileTree

namespace Program

variable {env : Environment} {force : Bool}

/-! ### What is done for each command -/

theorem init_of_admits (h : env.files.Admits force) :
    init env force = ⟨0, createdText, [], none, env.files.withTemplate⟩ := by
  unfold init
  rw [FileTree.find?_projectFile]
  rcases h with hnone | ⟨hforce, text, htext⟩
  · rw [hnone]
    rfl
  · rw [htext, hforce]
    rfl

theorem init_of_not_admits (h : ¬env.files.Admits force) :
    ∃ f, init env force = failure env [] f := by
  unfold init
  rw [FileTree.find?_projectFile]
  cases hentry : env.files.lookup Config.place with
  | none => exact absurd (Or.inl hentry) h
  | some entry =>
    cases force with
    | false => exact ⟨.configExists, rfl⟩
    | true =>
      cases entry with
      | directory => exact ⟨.configIsDirectory, rfl⟩
      | file text => exact absurd (Or.inr ⟨rfl, text, hentry⟩) h

/-- A run that is called for `init` is the `init`, which tells nothing. -/
theorem run_init {args : List String} {verbose : Bool} {config : Option String}
    (h : CommandLine.parse args = .ok ⟨verbose, config, .init force⟩) :
    run env args = init env force := by
  unfold run
  rw [h]
  simp only [perform]
  by_cases hadmits : env.files.Admits force
  · rw [init_of_admits hadmits]
    rfl
  · obtain ⟨f, hf⟩ := init_of_not_admits hadmits
    rw [hf]
    rfl

theorem files_check (env : Environment) (source : ConfigSource) (path : String) (format : Format) :
    (check env source path format).files = env.files := by
  unfold check
  cases source.load env.files with
  | error f => rfl
  | ok set =>
    cases Facts.read env path with
    | error f => rfl
    | ok facts => rfl

theorem files_listRules (env : Environment) (source : ConfigSource) :
    (listRules env source).files = env.files := by
  unfold listRules
  cases source.load env.files with
  | error f => rfl
  | ok set => rfl

/-- A run that is called for anything but `init` leaves all files as they are. -/
theorem files_run {args : List String}
    (h : ∀ verbose config force, CommandLine.parse args ≠ .ok ⟨verbose, config, .init force⟩) :
    (run env args).files = env.files := by
  unfold run
  cases hparse : CommandLine.parse args with
  | error stop => cases stop <;> rfl
  | ok invocation =>
    obtain ⟨verbose, config, command⟩ := invocation
    cases command with
    | check path format => exact files_check env _ path format
    | listRules => exact files_listRules env _
    | init force => exact absurd hparse (h verbose config force)

end Program

namespace Call

variable {call : Call} {files : FileTree} {force : Bool}

theorem outcome_of_admits (h : call.Inits force) (hadmits : files.Admits force) :
    call.outcome files = ⟨0, Program.createdText, [], none, files.withTemplate⟩ := by
  obtain ⟨verbose, config, hparse⟩ := h
  exact (Program.run_init hparse).trans (Program.init_of_admits hadmits)

theorem outcome_of_not_admits (h : call.Inits force) (hadmits : ¬files.Admits force) :
    ∃ f, call.outcome files = Program.failure (call.on files) [] f := by
  obtain ⟨verbose, config, hparse⟩ := h
  have hfound : ¬(call.on files).files.Admits force := hadmits
  obtain ⟨f, hf⟩ := Program.init_of_not_admits hfound
  exact ⟨f, (Program.run_init hparse).trans hf⟩

theorem exit_eq_zero_iff (h : call.Inits force) :
    (call.outcome files).exit = 0 ↔ files.Admits force := by
  constructor
  · intro hexit
    by_contra hadmits
    obtain ⟨f, hf⟩ := outcome_of_not_admits h hadmits
    rw [hf] at hexit
    cases hexit
  · intro hadmits
    rw [outcome_of_admits h hadmits]

/-- **What one call can do to the files.** -/
theorem files_cases (call : Call) (files : FileTree) :
    (call.outcome files).files = files ∨
      ∃ force, call.Inits force ∧ files.Admits force ∧
        (call.outcome files).files = files.withTemplate := by
  by_cases hinit : ∃ force, call.Inits force
  · obtain ⟨force, hforce⟩ := hinit
    by_cases hadmits : files.Admits force
    · refine Or.inr ⟨force, hforce, hadmits, ?_⟩
      rw [outcome_of_admits hforce hadmits]
    · obtain ⟨f, hf⟩ := outcome_of_not_admits hforce hadmits
      rw [hf]
      exact Or.inl rfl
  · refine Or.inl (Program.files_run fun verbose config force hparse => hinit ?_)
    exact ⟨force, verbose, config, hparse⟩

/-- What is to be said of a call that finds these files. -/
structure Careful (call : Call) (files : FileTree) : Prop where
  /-- Only an `init` changes the entry in place of the configuration, or any other entry. -/
  changes : (call.outcome files).files ≠ files → ∃ force, call.Inits force
  /-- Without leave to overwrite, an `init` that finds a file or a directory in place of the
  configuration changes nothing and reports an error. -/
  refuses : call.Inits false → files.lookup Config.place ≠ none →
    (call.outcome files).files = files ∧ (call.outcome files).exit = 1 ∧
      (call.outcome files).error ≠ none
  /-- An `init` succeeds iff nothing is in its way. -/
  succeeds (force : Bool) : call.Inits force →
    ((call.outcome files).exit = 0 ↔ files.Admits force)
  /-- After an `init` that succeeds the configuration is the template, and all else is as it was. -/
  writes (force : Bool) : call.Inits force → (call.outcome files).exit = 0 →
    (call.outcome files).files.lookup Config.place = some (.file (some Config.template)) ∧
      ∀ other, other ≠ Config.place →
        (call.outcome files).files.lookup other = files.lookup other
  /-- A check that comes next and is not told where its configuration is uses that file. It passes
  iff its facts load and list nothing, and exits with 1 if it does not pass. -/
  checks (force : Bool) (next : Call) (verbose : Bool) (path : String) (format : Format) :
    call.Inits force → (call.outcome files).exit = 0 →
      CommandLine.parse next.args = .ok ⟨verbose, none, .check path format⟩ →
        (∃ own, ConfigSource.resolve (next.on (call.outcome files).files) none = .project own ∧
          Location.goal own = Config.place) ∧
        ((next.outcome (call.outcome files).files).exit = 0 ↔
          ∃ facts, Facts.FoundAt (next.on (call.outcome files).files) path facts ∧
            ∀ t d, ¬Facts.Lists facts t d) ∧
        ((next.outcome (call.outcome files).files).exit ≠ 0 →
          (next.outcome (call.outcome files).files).exit = 1)

/-- A check that finds the template uses it. -/
theorem check_of_templateFile {next : Call}
    (h : files.lookup Config.place = some Config.templateFile) {verbose : Bool} {path : String}
    {format : Format}
    (hparse : CommandLine.parse next.args = .ok ⟨verbose, none, .check path format⟩) :
    (∃ own, ConfigSource.resolve (next.on files) none = .project own ∧
      Location.goal own = Config.place) ∧
    ((next.outcome files).exit = 0 ↔
      ∃ facts, Facts.FoundAt (next.on files) path facts ∧ ∀ t d, ¬Facts.Lists facts t d) ∧
    ((next.outcome files).exit ≠ 0 → (next.outcome files).exit = 1) := by
  have hresolve : ConfigSource.resolve (next.on files) none = .project "./jdeps-guard.toml" :=
    ConfigSource.resolve_of_templateFile h
  obtain ⟨told, hrun⟩ := Program.run_check (next.on files) hparse
  rw [hresolve] at hrun
  refine ⟨⟨_, hresolve, by decide +kernel⟩, ?_⟩
  unfold outcome
  rw [hrun]
  exact ⟨Program.check_template h path format, (Program.verdict_check _ _ path format).fails⟩

theorem careful (call : Call) (files : FileTree) : call.Careful files where
  changes hchanged := by
    rcases call.files_cases files with hsame | ⟨force, hforce, _⟩
    · exact absurd hsame hchanged
    · exact ⟨force, hforce⟩
  refuses hinit hthere := by
    obtain ⟨f, hf⟩ := outcome_of_not_admits hinit (FileTree.not_admits_of_ne_none hthere)
    rw [hf]
    exact ⟨rfl, rfl, Option.some_ne_none _⟩
  succeeds force hinit := exit_eq_zero_iff hinit
  writes force hinit hexit := by
    rw [outcome_of_admits hinit ((exit_eq_zero_iff hinit).1 hexit)]
    refine ⟨files.lookup_withTemplate, fun other hother => ?_⟩
    exact if_neg hother
  checks force next verbose path format hinit hexit hparse := by
    refine check_of_templateFile ?_ hparse
    rw [outcome_of_admits hinit ((exit_eq_zero_iff hinit).1 hexit)]
    exact files.lookup_withTemplate

end Call

/-! ## Any number of calls -/

namespace FileTree

/-- The files that calls leave behind, each of which finds what the one before it has left. -/
def after (files : FileTree) (calls : List Call) : FileTree :=
  calls.foldl (fun files call => (call.outcome files).files) files

@[simp] theorem after_cons (files : FileTree) (call : Call) (calls : List Call) :
    files.after (call :: calls) = (call.outcome files).files.after calls := rfl

/-- **What any number of calls can do to the files.** -/
theorem after_cases (files : FileTree) (calls : List Call) :
    files.after calls = files ∨
      files.after calls = files.withTemplate ∧
        ∃ call ∈ calls, ∃ force, call.Inits force ∧ files.Admits force := by
  induction calls generalizing files with
  | nil => exact Or.inl rfl
  | cons call rest ih =>
    rw [after_cons]
    rcases call.files_cases files with hsame | ⟨force, hforce, hadmits, hwritten⟩
    · rw [hsame]
      rcases ih files with hrest | ⟨hrest, other, hother, hinit⟩
      · exact Or.inl hrest
      · exact Or.inr ⟨hrest, other, List.mem_cons_of_mem call hother, hinit⟩
    · -- once the template is in place, it can only be written again
      refine Or.inr ⟨?_, call, List.mem_cons_self, force, hforce, hadmits⟩
      rw [hwritten]
      rcases ih files.withTemplate with hrest | ⟨hrest, _⟩
      · exact hrest
      · rw [hrest, withTemplate_withTemplate]

/-- What is to be said of calls, the first of which finds these files. -/
structure Guarded (files : FileTree) (calls : List Call) : Prop where
  /-- Each call is careful with the files that the calls before it have left. -/
  careful (before : List Call) (call : Call) (later : List Call) :
    calls = before ++ call :: later → call.Careful (files.after before)
  /-- What is there at the start in place of the configuration is there at the end, and all other
  entries too, unless a call was an `init` with leave to overwrite. -/
  survives : files.lookup Config.place ≠ none → (∀ call ∈ calls, ¬call.Inits true) →
    files.after calls = files
  /-- A directory stays there whatever the calls are for. -/
  directory : files.lookup Config.place = some .directory → files.after calls = files

/--
**No call destroys a configuration.**

In every sequence of calls, with any arguments and from any files, only an `init` changes the
configuration. It does not touch one that is there unless it has leave to, it leaves the template if
it succeeds, and a check that follows uses the template and passes iff there is nothing to judge.
-/
theorem guarded_by_calls (files : FileTree) (calls : List Call) : files.Guarded calls where
  careful before call _ _ := call.careful (files.after before)
  survives hthere hnone := by
    rcases files.after_cases calls with hsame | ⟨_, call, hcall, force, hforce, hadmits⟩
    · exact hsame
    · -- what is there admits only an `init` with leave to overwrite
      cases force with
      | false => exact absurd hadmits (not_admits_of_ne_none hthere)
      | true => exact absurd hforce (hnone call hcall)
  directory hdirectory := by
    rcases files.after_cases calls with hsame | ⟨_, _, _, _, _, hadmits⟩
    · exact hsame
    · exact absurd hadmits (not_admits_of_directory hdirectory)

/-- A call for `init` that may not overwrite anything. -/
def initCall : Call := ⟨["init"], none, none, none⟩

/-- A call for a check of the facts in a text. -/
def checkCall (text : String) : Call := ⟨["check", "-"], none, none, some text⟩

/-- Where there is nothing, a configuration is made. Then it is there: it is not made again, and a
check goes by it. Facts that list nothing pass, and facts that list a use do not. -/
theorem guarded_by_calls_fresh :
    (initCall.outcome ⟨fun _ => none⟩).exit = 0 ∧
      (initCall.outcome (initCall.outcome ⟨fun _ => none⟩).files).exit = 1 ∧
      ((checkCall "\x7b\x7d").outcome (initCall.outcome ⟨fun _ => none⟩).files).exit = 0 ∧
      ((checkCall "\x7b\"a\": [\"b\"]\x7d").outcome
        (initCall.outcome ⟨fun _ => none⟩).files).exit = 1 := by
  have hguarded := guarded_by_calls ⟨fun _ => none⟩ [initCall, initCall]
  have hfirst := hguarded.careful [] initCall [initCall] rfl
  have hsecond := hguarded.careful [initCall] initCall [] rfl
  have hinit : initCall.Inits false := ⟨false, none, by rfl⟩
  have hmade : (initCall.outcome ⟨fun _ => none⟩).exit = 0 :=
    (hfirst.succeeds false hinit).2 (Or.inl rfl)
  have hthere : (initCall.outcome ⟨fun _ => none⟩).files.lookup Config.place ≠ none :=
    (hfirst.writes false hinit hmade).1 ▸ Option.some_ne_none _
  have hcheck := fun text =>
    hfirst.checks false (checkCall text) false "-" .text hinit hmade (by rfl)
  refine ⟨hmade, (hsecond.refuses hinit hthere).2.1, ?_, ?_⟩
  · refine (hcheck _).2.1.2 ⟨[], Facts.foundAt_hyphen rfl (by rfl), fun t d hlists => ?_⟩
    obtain ⟨list, hlist, _⟩ := hlists.listed
    cases hlist
  · refine (hcheck _).2.2 fun hpass => ?_
    obtain ⟨facts, hfound, hnone⟩ := (hcheck _).2.1.1 hpass
    -- the facts that are found are those that list the use
    obtain rfl := hfound.unique (Facts.foundAt_hyphen rfl (by decide +kernel :
      Facts.decode? "\x7b\"a\": [\"b\"]\x7d" = some [("a", ["b"])]))
    exact hnone "a" "b" ⟨⟨["b"], by decide, by decide⟩, by decide, by decide⟩

end FileTree

end ApiGate
