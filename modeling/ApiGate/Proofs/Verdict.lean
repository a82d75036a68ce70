import ApiGate.Proofs.Loading
import ApiGate.Proofs.Partition

/-!
# The verdict of a check

A check passes iff configuration and facts load and no use that the facts list resolves to `fail`.
What loads is said without loading it: `ConfigSource.Gives` for the rules, `Facts.FoundAt` for the
facts. Between the facts and the exit code stand the sifting of blank names, the ledger, the findings
and the judge, and each of them could let something through or hold something up. None does:

* the pairs that reach the judge are those that the facts list and that have no blank name;
* the judge gives a pair the severity that the configuration says (`RuleSet.judgeOr_eq_iff`);
* a failed violation is there iff there is a pair to put into it
  (`Findings.hasFailures_ofUsages_iff`).

The form of the output and the telling of every step have no part in it.
-/

namespace ApiGate

namespace Facts

/-- Facts list that the type `t` depends on `d`, and neither name is blank. -/
structure Lists (facts : List (String × List String)) (t d : String) : Prop where
  listed : ∃ list, (t, list) ∈ facts ∧ d ∈ list
  type : Text.isBlankText t = false
  dependency : Text.isBlankText d = false

@[simp] theorem mem_named {list : List String} {d : String} :
    d ∈ named list ↔ d ∈ list ∧ Text.isBlankText d = false := by
  unfold named
  rw [List.mem_filter, Bool.not_eq_true']

theorem usage?_eq_some_iff {t : String} {list : List String} {u : Usage} :
    usage? t list = some u ↔
      Text.isBlankText t = false ∧ named list ≠ [] ∧ Usage.ofList t (named list) = u := by
  unfold usage?
  by_cases h : Text.isBlankText t = true ∨ named list = []
  · rw [if_pos h]
    rcases h with h | h
    · simp [h]
    · simp [h]
  · rw [if_neg h, Option.some.injEq]
    rw [not_or, Bool.not_eq_true] at h
    simp [h.1, h.2]

/-- The pairs that go on to be judged are those that are listed. -/
theorem mem_pairs_usages {facts : List (String × List String)} {t d : String} :
    (t, d) ∈ Usage.pairs (usages facts) ↔ Lists facts t d := by
  rw [Usage.mem_pairs]
  unfold usages
  simp only [List.mem_filterMap, Prod.exists, usage?_eq_some_iff]
  constructor
  · intro h
    obtain ⟨u, ⟨t', list, hlist, ht, _, rfl⟩, htype, hd⟩ := h
    -- a usage has the name of its list
    obtain rfl : t' = t := by simpa using htype
    have hnamed : d ∈ list ∧ Text.isBlankText d = false := by simpa using hd
    exact ⟨⟨list, hlist, hnamed.1⟩, ht, hnamed.2⟩
  · intro h
    obtain ⟨list, hlist, hmem⟩ := h.listed
    have hnamed : d ∈ named list := mem_named.2 ⟨hmem, h.dependency⟩
    refine ⟨Usage.ofList t (named list), ⟨t, list, hlist, h.type, ?_, rfl⟩, ?_⟩
    · exact List.ne_nil_of_mem hnamed
    · simpa using hnamed

end Facts

namespace RuleSet

theorem hasFailures_findings_iff {config : Config} {set : RuleSet} (h : config.load = .ok set)
    (facts : List (String × List String)) :
    (set.findings (Facts.usages facts)).hasFailures = true ↔
      ∃ t d, Facts.Lists facts t d ∧ Resolves set.rules set.defaultSeverity t d .fail := by
  unfold findings
  rw [Findings.hasFailures_ofUsages_iff]
  simp only [Facts.mem_pairs_usages, judgeOr_eq_iff h]

end RuleSet

namespace Program

/-- What is to be said of the outcome of a check, for the configuration at `source` and the facts
that `path` leads to. -/
structure Verdict (env : Environment) (source : ConfigSource) (path : String) (outcome : Outcome) :
    Prop where
  /-- The exit code is 0 iff all loads and nothing that is listed is to fail the build. -/
  passes : outcome.exit = 0 ↔
    ∃ default rules facts, source.Gives env.files default rules ∧
      Facts.FoundAt env path facts ∧
      ∀ t d, Facts.Lists facts t d → ¬Resolves rules default t d .fail
  /-- Otherwise it is 1. -/
  fails : outcome.exit ≠ 0 → outcome.exit = 1
  /-- There is an error iff the configuration or the facts do not load. -/
  error : outcome.error ≠ none ↔
    (¬∃ default rules, source.Gives env.files default rules) ∨
      ¬∃ facts, Facts.FoundAt env path facts
  /-- With an error, nothing is written. -/
  silent : outcome.error ≠ none → outcome.output = ""

/-- An early end is right if something does not load. -/
theorem verdict_failure {env : Environment} {source : ConfigSource} {path : String}
    (h : (¬∃ default rules, source.Gives env.files default rules) ∨
      ¬∃ facts, Facts.FoundAt env path facts)
    (events : List Event) (f : Failure) : Verdict env source path (failure env events f) where
  passes := by
    constructor
    · intro hexit
      cases hexit
    · intro hloads
      obtain ⟨default, rules, facts, hgives, hfacts, _⟩ := hloads
      rcases h with h | h
      · exact absurd ⟨default, rules, hgives⟩ h
      · exact absurd ⟨facts, hfacts⟩ h
  fails := fun _ => rfl
  error := ⟨fun _ => h, fun _ => Option.some_ne_none _⟩
  silent := fun _ => rfl

/-- With all loaded, the exit code is right if it tells whether something fails the build. -/
theorem verdict_judged {env : Environment} {source : ConfigSource} {path : String} {set : RuleSet}
    {facts : List (String × List String)} (hload : source.load env.files = .ok set)
    (hfacts : Facts.FoundAt env path facts) {outcome : Outcome}
    (hexit : outcome.exit = if (set.findings (Facts.usages facts)).hasFailures then 1 else 0)
    (herror : outcome.error = none) : Verdict env source path outcome := by
  obtain ⟨config, hholds, hconfig⟩ := ConfigSource.load_eq_ok.1 hload
  have hgives : source.Gives env.files set.defaultSeverity set.rules :=
    ⟨config, hholds, Config.says_of_load hconfig⟩
  have hfailures := RuleSet.hasFailures_findings_iff hconfig facts
  refine ⟨?_, ?_, ?_, fun h => absurd herror h⟩
  · constructor
    · intro hzero
      refine ⟨set.defaultSeverity, set.rules, facts, hgives, hfacts, fun t d hlists hfail => ?_⟩
      rw [hexit, if_pos (hfailures.2 ⟨t, d, hlists, hfail⟩)] at hzero
      cases hzero
    · intro hloads
      obtain ⟨default, rules, facts', hgives', hfacts', hnone⟩ := hloads
      -- what loads is what has been loaded
      obtain ⟨index, hload'⟩ := ConfigSource.gives_iff.1 hgives'
      cases hload.symm.trans hload'
      obtain rfl := hfacts.unique hfacts'
      rw [hexit, if_neg]
      intro hfail
      obtain ⟨t, d, hlists, hresolves⟩ := hfailures.1 hfail
      exact hnone t d hlists hresolves
  · intro hne
    rw [hexit] at hne ⊢
    split at hne
    · rename_i h
      rw [if_pos h]
    · exact absurd rfl hne
  · constructor
    · intro h
      exact absurd herror h
    · intro h
      rcases h with h | h
      · exact absurd ⟨set.defaultSeverity, set.rules, hgives⟩ h
      · exact absurd ⟨facts, hfacts⟩ h

theorem verdict_check (env : Environment) (source : ConfigSource) (path : String)
    (format : Format) : Verdict env source path (check env source path format) := by
  unfold check
  cases hload : source.load env.files with
  | error f =>
    -- the facts are not even looked at
    refine verdict_failure (Or.inl ?_) _ f
    simp [ConfigSource.gives_iff, hload]
  | ok set =>
    cases hfacts : Facts.read env path with
    | error f =>
      refine verdict_failure (Or.inr ?_) _ f
      simp [← Facts.read_eq_ok_iff, hfacts]
    | ok facts => exact verdict_judged hload (Facts.read_eq_ok_iff.1 hfacts) rfl rfl

theorem check_format (env : Environment) (source : ConfigSource) (path : String)
    (format format' : Format) :
    (check env source path format).exit = (check env source path format').exit ∧
      (check env source path format).error = (check env source path format').error := by
  unfold check
  cases source.load env.files with
  | error f => exact ⟨rfl, rfl⟩
  | ok set =>
    cases Facts.read env path with
    | error f => exact ⟨rfl, rfl⟩
    | ok facts => exact ⟨rfl, rfl⟩

/-- A run that is called for a check is the check, of whose events some are not told. -/
theorem run_check (env : Environment) {args : List String} {verbose : Bool}
    {config : Option String} {path : String} {format : Format}
    (h : CommandLine.parse args = .ok ⟨verbose, config, .check path format⟩) :
    ∃ told, run env args =
      { check env (ConfigSource.resolve env config) path format with events := told } := by
  unfold run
  rw [h]
  exact ⟨_, rfl⟩

/--
**A check passes iff nothing that the facts list is to fail the build.**

The configuration and the facts have to load for that; if one of them does not, the run reports it
and writes nothing else. Another form of the output, and the telling of every step, change neither
the exit code nor the error.
-/
theorem run_verdict (env : Environment) {args : List String} {verbose : Bool}
    {config : Option String} {path : String} {format : Format}
    (h : CommandLine.parse args = .ok ⟨verbose, config, .check path format⟩) :
    Verdict env (ConfigSource.resolve env config) path (run env args) ∧
      ∀ args' verbose' format',
        CommandLine.parse args' = .ok ⟨verbose', config, .check path format'⟩ →
        (run env args').exit = (run env args).exit ∧
          (run env args').error = (run env args).error := by
  obtain ⟨told, hrun⟩ := run_check env h
  obtain ⟨passes, fails, error, silent⟩ :=
    verdict_check env (ConfigSource.resolve env config) path format
  constructor
  · rw [hrun]
    exact ⟨passes, fails, error, silent⟩
  · intro args' verbose' format' h'
    obtain ⟨told', hrun'⟩ := run_check env h'
    rw [hrun, hrun']
    exact check_format env (ConfigSource.resolve env config) path format' format

/-- Nothing but facts on standard input: no file, and no directory for configurations. -/
def bareEnvironment : Environment :=
  ⟨FileTree.ofEntries [], none, none, some "\x7b\"a\": [\"b\"]\x7d"⟩

/-- A project with a facts file and with two rules. The one for the outer package fails the build,
and the more specific one warns. -/
def ruledProject : Environment :=
  ⟨FileTree.ofEntries [
    ("jdeps-guard.toml", .file (some
      "arrow-rules = [\"pkg -> jdk.Gate: FAIL\", \"pkg.sub -> jdk.Gate: WARN\"]")),
    ("facts.json", .file (some "\x7b\"pkg.sub.C\": [\"jdk.Gate\"]\x7d"))], none, none, none⟩

/-- The two rules, and the tree for their dependency. -/
def ruledSet : RuleSet :=
  ⟨[⟨⟨"pkg", by decide +kernel⟩, ⟨"jdk.Gate", by decide +kernel⟩, .fail⟩,
      ⟨⟨"pkg.sub", by decide +kernel⟩, ⟨"jdk.Gate", by decide +kernel⟩, .warn⟩],
    ⟨[("jdk.Gate", ⟨none, .cons "pkg" (some .fail) (.cons "sub" (some .warn) .nil .nil) .nil⟩)],
      2⟩, .fail⟩

theorem load_ruled : Config.load
    ⟨none, [], .list ["pkg -> jdk.Gate: FAIL", "pkg.sub -> jdk.Gate: WARN"]⟩ = .ok ruledSet :=
  Config.load_eq_ok.2
    ⟨eq_ok_of_toOption (by decide +kernel), eq_ok_of_toOption (by decide +kernel)⟩

theorem gives_ruled : (ConfigSource.project "./jdeps-guard.toml").Gives ruledProject.files .fail
    ruledSet.rules :=
  ⟨_, ConfigSource.holds_of_bind rfl (by decide +kernel), Config.says_of_load load_ruled⟩

theorem foundAt_ruled :
    Facts.FoundAt ruledProject "facts.json" [("pkg.sub.C", ["jdk.Gate"])] := by
  have hfile : ruledProject.files.text? "facts.json" =
      some "\x7b\"pkg.sub.C\": [\"jdk.Gate\"]\x7d" := by
    decide +kernel
  have hnamed : ¬Facts.IsHyphen "facts.json" := by
    rw [← Facts.isInput_iff]
    decide +kernel
  exact ⟨_, Or.inr ⟨hnamed, hfile⟩, by decide +kernel⟩

/-- Without a configuration a use fails the build. With one, the most specific rule decides. -/
theorem run_verdict_decided :
    CommandLine.parse ["check", "-"] = .ok ⟨false, none, .check "-" .text⟩ ∧
      CommandLine.parse ["-v", "check", "-fjson", "-"] = .ok ⟨true, none, .check "-" .json⟩ ∧
      CommandLine.parse ["check", "facts.json"] = .ok ⟨false, none, .check "facts.json" .text⟩ ∧
      Verdict bareEnvironment .defaults "-" (run bareEnvironment ["check", "-"]) ∧
      (run bareEnvironment ["-v", "check", "-fjson", "-"]).exit = 1 ∧
      Verdict ruledProject (.project "./jdeps-guard.toml") "facts.json"
        (run ruledProject ["check", "facts.json"]) ∧
      (run ruledProject ["check", "facts.json"]).exit = 0 := by
  have hplain : CommandLine.parse ["check", "-"] = .ok ⟨false, none, .check "-" .text⟩ := by rfl
  have hjson : CommandLine.parse ["-v", "check", "-fjson", "-"] =
      .ok ⟨true, none, .check "-" .json⟩ := by rfl
  have hfile : CommandLine.parse ["check", "facts.json"] =
      .ok ⟨false, none, .check "facts.json" .text⟩ := by rfl
  have hdefaults : ConfigSource.resolve bareEnvironment none = .defaults := by decide +kernel
  have hproject : ConfigSource.resolve ruledProject none = .project "./jdeps-guard.toml" := by
    decide +kernel
  have hexit : (run bareEnvironment ["check", "-"]).exit = 1 := by decide +kernel
  obtain ⟨hbare, hsame⟩ := run_verdict bareEnvironment hplain
  obtain ⟨hruled, _⟩ := run_verdict ruledProject hfile
  rw [hdefaults] at hbare
  rw [hproject] at hruled
  refine ⟨hplain, hjson, hfile, hbare, (hsame _ _ _ hjson).1.trans hexit, hruled, ?_⟩
  refine hruled.passes.2 ⟨_, _, _, gives_ruled, foundAt_ruled, fun t d hlists hfail => ?_⟩
  obtain ⟨list, hlist, hd⟩ := hlists.listed
  cases List.mem_singleton.1 hlist
  cases List.mem_singleton.1 hd
  -- the one use that is listed is judged by the rule for its own package
  have hwarn : ruledSet.index.judge.judgeOr "pkg.sub.C" "jdk.Gate" .fail = .warn := by
    decide +kernel
  exact absurd (hwarn.symm.trans ((RuleSet.judgeOr_eq_iff load_ruled).2 hfail)) (by decide)

end Program

end ApiGate
