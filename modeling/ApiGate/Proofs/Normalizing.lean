import ApiGate.Proofs.Canonical
import ApiGate.Proofs.Guarantees

/-!
# Normal arrow rules

One rule can be written as an arrow rule in many ways, and one arrow rule may stand for several
rules. `ArrowRules.normal` writes the same rules in one way only: as a list with the canonical text
of each, in order. A configuration takes no notice of this (`Config.load_normal`).

What there is to be shown is that reading undoes writing, for all lines together. The canonical
texts of any rules are read as these rules with bare names, one by one (`reads_texts`). Rules that
were read have bare names already (`bare_of_mem`), so nothing changes, and nothing changes a second
time. Number and order of the rules matter as well, because a conflict names the first rule that
repeats a pair.
-/

namespace ApiGate

namespace Rule

/-- The rules that a text stands for. One that is no arrow rule stands for none. -/
def ofArrow (text : String) : List Rule := (parseArrow text).toOption.getD []

theorem ofArrow_eq {text : String} {rules : List Rule} (h : parseArrow text = .ok rules) :
    ofArrow text = rules := by
  rw [ofArrow, h]
  rfl

/-- Rules that were read have bare names. -/
theorem bare_of_mem {text : String} {rules : List Rule} (h : parseArrow text = .ok rules)
    {r : Rule} (hr : r ∈ rules) : r.bare = r := by
  have hback := parseArrow_text_of_mem h hr
  rw [parseArrow_text] at hback
  exact List.singleton_inj.1 (Except.ok.inj hback)

/-- All lines are arrow rules, and these are the rules of each. -/
def Reads (lines : List String) (parsed : List (List Rule)) : Prop :=
  List.Forall₂ (fun line rules => parseArrow line = .ok rules) lines parsed

variable {lines : List String} {parsed : List (List Rule)}

theorem Reads.flatMap_ofArrow (h : Reads lines parsed) :
    lines.flatMap ofArrow = parsed.flatten := by
  induction h with
  | nil => rfl
  | cons hline _ ih => rw [List.flatMap_cons, List.flatten_cons, ofArrow_eq hline, ih]

theorem Reads.bare_eq_self (h : Reads lines parsed) {r : Rule} (hr : r ∈ parsed.flatten) :
    r.bare = r := by
  obtain ⟨rules, hrules, hr⟩ := List.mem_flatten.1 hr
  obtain ⟨line, hline⟩ := exists_forall₂_iff.1 ⟨lines, List.Forall₂.flip h⟩ rules hrules
  exact bare_of_mem hline hr

/-- The canonical texts of rules are arrow rules, each for the one rule with bare names. -/
theorem reads_texts (rules : List Rule) :
    Reads (rules.map Rule.text) (rules.map fun r => [r.bare]) := by
  induction rules with
  | nil => exact .nil
  | cons r rules ih => exact .cons r.parseArrow_text ih

end Rule

namespace Config

theorem loadArrows_of_reads {index : Nat} {lines : List String} {parsed : List (List Rule)}
    (h : Rule.Reads lines parsed) : loadArrows index lines = .ok parsed.flatten := by
  induction h generalizing index with
  | nil => rfl
  | cons hline _ ih =>
    rw [loadArrows, hline, ih]
    rfl

end Config

/-! ## Normal configurations -/

/-- The rules that arrow rules stand for, in order. -/
def ArrowRules.rules (arrows : ArrowRules) : List Rule := arrows.lines.flatMap Rule.ofArrow

/-- The same rules, each by itself in its canonical text. -/
def ArrowRules.normal (arrows : ArrowRules) : ArrowRules := .list (arrows.rules.map Rule.text)

/-- The configuration with normal arrow rules. -/
def Config.normal (config : Config) : Config :=
  { config with arrowRules := config.arrowRules.normal }

theorem ArrowRules.normal_eq {arrows : ArrowRules} {parsed : List (List Rule)}
    (h : Rule.Reads arrows.lines parsed) :
    arrows.normal = .list (parsed.flatten.map Rule.text) := by
  rw [normal, rules, h.flatMap_ofArrow]

/-- The rules of normal arrow rules are read one by one, and they are the same rules. -/
theorem Rule.Reads.normal {arrows : ArrowRules} {parsed : List (List Rule)}
    (h : Rule.Reads arrows.lines parsed) :
    ∃ singles, Rule.Reads arrows.normal.lines singles ∧ singles.flatten = parsed.flatten := by
  refine ⟨parsed.flatten.map fun r => [r.bare], ?_, ?_⟩
  · rw [ArrowRules.normal_eq h]
    exact reads_texts parsed.flatten
  · calc (parsed.flatten.map fun r => [r.bare]).flatten
        = parsed.flatten.map Rule.bare := by rw [← List.flatMap_def, ← List.map_eq_flatMap]
      _ = parsed.flatten.map fun r => r := List.map_congr_left fun r hr => h.bare_eq_self hr
      _ = parsed.flatten := List.map_id' _

namespace Config

/-- **Normal arrow rules change nothing.** If all arrow rules are accepted, the normal ones are the
canonical texts of their rules, one for each rule and in order. The configuration loads with them as
it does without, to one rule set or with one error, and the normal arrow rules of normal ones are
the same texts. -/
theorem load_normal {config : Config}
    (h : ∀ line ∈ config.arrowRules.lines, ∃ rules, Rule.parseArrow line = .ok rules) :
    (∃ parsed, Rule.Reads config.arrowRules.lines parsed ∧
        config.normal = { config with arrowRules := .list (parsed.flatten.map Rule.text) }) ∧
      config.normal.load = config.load ∧ config.normal.normal = config.normal := by
  obtain ⟨parsed, hparsed⟩ := exists_forall₂_iff.2 h
  obtain ⟨singles, hsingles, hsame⟩ := Rule.Reads.normal hparsed
  have hnormal := ArrowRules.normal_eq hparsed
  refine ⟨⟨parsed, hparsed, ?_⟩, load_congr rfl rfl ?_, ?_⟩
  · rw [normal, hnormal]
  · rw [loadArrows_of_reads hparsed, ← hsame]
    exact loadArrows_of_reads hsingles
  · have hagain : config.arrowRules.normal.normal = config.arrowRules.normal := by
      rw [ArrowRules.normal_eq hsingles, hsame, hnormal]
    exact congrArg (fun arrows => { config with arrowRules := arrows }) hagain

/-- Arrow rules of which none is normal. -/
def spacedConfig : Config :=
  ⟨none, [⟨some "app", some "jdk.Proxy", "warn"⟩],
    .block "\n app.ui -> jdk.Cleaner ,\tjdk.Proxy : Ignore \r\n(app->jdk.Cleaner:WARN)\n"⟩

theorem load_normal_spaced :
    spacedConfig.normal.arrowRules.lines =
        ["(app.ui -> jdk.Cleaner: IGNORE)", "(app.ui -> jdk.Proxy: IGNORE)",
          "(app -> jdk.Cleaner: WARN)"] ∧
      spacedConfig.normal.load = spacedConfig.load ∧
      spacedConfig.normal.normal = spacedConfig.normal := by
  have hread : ∃ parsed, Rule.Reads spacedConfig.arrowRules.lines parsed :=
    ⟨[_, _], .cons rfl (.cons rfl .nil)⟩
  obtain ⟨_, hload, hagain⟩ := load_normal (exists_forall₂_iff.1 hread)
  exact ⟨by rfl, hload, hagain⟩

end Config

end ApiGate
