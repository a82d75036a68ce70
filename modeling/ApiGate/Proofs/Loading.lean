import ApiGate.Proofs.Judging
import ApiGate.Proofs.Reading

/-!
# What a configuration says

Loading takes a configuration through several steps, any of which may fail, and what comes of it is
a rule set with an index that nobody reads rules off. `Config.Says` is what the configuration says
without any of this: which rules, and which severity for what they leave open. A configuration loads
iff it says something (`load_iff_says`), and the judge of its rule set follows what it says.

The configuration in turn is at a source, and is read before it is loaded. `ConfigSource.Gives` puts
the two together: the source holds a configuration, and the configuration says something.
-/

namespace ApiGate

namespace Config

/-- The severity of what no rule covers: the configured one, and `fail` if none is configured. There
is none if the configured text names none. -/
def default? (config : Config) : Option Severity :=
  match config.defaultSeverity with
  | some text => Severity.ofText? text
  | none => some .fail

/-- A configuration says that these are the rules, and that what they leave open has the severity
`default`. -/
structure Says (config : Config) (default : Severity) (rules : List Rule) : Prop where
  severity : config.default? = some default
  /-- The entries are rules and the lines are arrow rules. There are no others. -/
  parts : ∃ entries arrows, loadEntries 0 config.dependencyRules = .ok entries ∧
    loadArrows 0 config.arrowRules.lines = .ok arrows ∧ rules = entries ++ arrows
  consistent : Consistent rules

@[simp] theorem severityAt_eq_ok {place : Place} {text : String} {s : Severity} :
    severityAt place text = .ok s ↔ Severity.ofText? text = some s := by
  unfold severityAt
  cases Severity.ofText? text with
  | none => simp
  | some t => simp

@[simp] theorem loadDefault_eq_ok {config : Config} {s : Severity} :
    config.loadDefault = .ok s ↔ config.default? = some s := by
  unfold loadDefault default?
  cases config.defaultSeverity with
  | some text => exact severityAt_eq_ok
  | none => simp [Findings.standardSeverity]

theorem loadRules_eq_ok {config : Config} {default : Severity} {rules : List Rule} :
    config.loadRules = .ok (default, rules) ↔
      config.default? = some default ∧
        ∃ entries arrows, loadEntries 0 config.dependencyRules = .ok entries ∧
          loadArrows 0 config.arrowRules.lines = .ok arrows ∧ rules = entries ++ arrows := by
  simp [loadRules, @eq_comm _ rules]

theorem load_eq_ok {config : Config} {set : RuleSet} :
    config.load = .ok set ↔
      config.loadRules = .ok (set.defaultSeverity, set.rules) ∧
        Index.ofRules set.rules = .ok set.index := by
  obtain ⟨rules, index, default⟩ := set
  simp [load]

/-- Loading sees no more of a configuration than its default severity, its entries and the rules in
its lines. -/
theorem load_congr {config config' : Config}
    (hdefault : config.defaultSeverity = config'.defaultSeverity)
    (hentries : config.dependencyRules = config'.dependencyRules)
    (harrows : loadArrows 0 config.arrowRules.lines = loadArrows 0 config'.arrowRules.lines) :
    config.load = config'.load := by
  unfold load loadRules loadDefault
  rw [hdefault, hentries, harrows]

theorem says_of_load {config : Config} {set : RuleSet} (h : config.load = .ok set) :
    config.Says set.defaultSeverity set.rules := by
  obtain ⟨hrules, hindex⟩ := load_eq_ok.1 h
  obtain ⟨hdefault, hparts⟩ := loadRules_eq_ok.1 hrules
  exact ⟨hdefault, hparts, (Index.holds_of_ofRules hindex).2⟩

/-- A configuration loads iff it says something. -/
theorem load_iff_says {config : Config} {default : Severity} {rules : List Rule} :
    (∃ index, config.load = .ok ⟨rules, index, default⟩) ↔ config.Says default rules := by
  constructor
  · intro h
    obtain ⟨index, hload⟩ := h
    exact says_of_load hload
  · intro h
    obtain ⟨index, hindex⟩ := Index.exists_ofRules_iff.2 h.consistent
    exact ⟨index, load_eq_ok.2 ⟨loadRules_eq_ok.2 ⟨h.severity, h.parts⟩, hindex⟩⟩

end Config

/-- **The judge of a rule set gives each use the severity its configuration says.** -/
theorem RuleSet.judgeOr_eq_iff {config : Config} {set : RuleSet} (h : config.load = .ok set)
    {q x : String} {s : Severity} :
    set.index.judge.judgeOr q x set.defaultSeverity = s ↔
      Resolves set.rules set.defaultSeverity q x s := by
  obtain ⟨_, hindex⟩ := Config.load_eq_ok.1 h
  obtain ⟨hholds, hcons⟩ := Index.holds_of_ofRules hindex
  exact (hholds.follows hcons).judgeOr_eq_iff hcons

namespace ConfigSource

/-- At a source there is a configuration, and it says that these are the rules and that this is the
severity of what they leave open. -/
def Gives (source : ConfigSource) (files : FileTree) (default : Severity) (rules : List Rule) :
    Prop :=
  ∃ config, source.Holds files config ∧ config.Says default rules

theorem load_eq_ok {source : ConfigSource} {files : FileTree} {set : RuleSet} :
    source.load files = .ok set ↔
      ∃ config, source.Holds files config ∧ config.load = .ok set := by
  simp [load, read_eq_ok_iff]

theorem gives_iff {source : ConfigSource} {files : FileTree} {default : Severity}
    {rules : List Rule} :
    source.Gives files default rules ↔
      ∃ index, source.load files = .ok ⟨rules, index, default⟩ := by
  unfold Gives
  simp only [load_eq_ok, ← Config.load_iff_says]
  constructor
  · intro h
    obtain ⟨config, hholds, index, hload⟩ := h
    exact ⟨index, config, hholds, hload⟩
  · intro h
    obtain ⟨index, config, hholds, hload⟩ := h
    exact ⟨config, hholds, index, hload⟩

end ConfigSource

end ApiGate
