import ApiGate.Proofs.ArrowGrammar
import ApiGate.Proofs.Loading
import Mathlib.Data.List.Forall2

/-!
# What a loaded configuration guarantees

A rule set keeps a list of rules and, beside it, an index that was made on another way: the list is
put together of entries and of arrow rules that may stand for several rules each, while the index
takes one rule after another into its trees. `RuleSet.Represents` says that neither has lost
anything and that the two have stayed together.

* The list is what the configuration lists: a rule for each entry, and for each arrow rule those of
  its reading, in order.
* The index counts as many rules, and answers as a judge that scans the list.

The other way round, a configuration loads if each of its pieces can be read by itself and no two of
the rules that come of it are about one pair (`Config.Loadable`). No other condition is hidden in
the order of the steps.
-/

namespace ApiGate

open Text

/-- Every member of a list is related to something iff the list is related to a list, place by
place. -/
theorem exists_forall₂_iff {α β : Type} {R : α → β → Prop} {l : List α} :
    (∃ bs, List.Forall₂ R l bs) ↔ ∀ a ∈ l, ∃ b, R a b := by
  induction l with
  | nil => exact ⟨fun _ a ha => absurd ha List.not_mem_nil, fun _ => ⟨[], .nil⟩⟩
  | cons a l ih =>
    rw [List.forall_mem_cons, ← ih]
    refine ⟨fun h => ?_, fun h => ?_⟩
    · obtain ⟨bs, hbs⟩ := h
      obtain ⟨b, rest, hb, hrest, _⟩ := List.forall₂_cons_left_iff.1 hbs
      exact ⟨⟨b, hb⟩, rest, hrest⟩
    · obtain ⟨⟨b, hb⟩, rest, hrest⟩ := h
      exact ⟨b :: rest, .cons hb hrest⟩

/-! ## Entries -/

/-- A name is never empty, so an absent text, which counts as an empty one, gives none. -/
theorem Name.text_eq_getD_iff {n : Name} {text : Option String} :
    n.text = text.getD "" ↔ text = some n.text := by
  cases text with
  | some text => exact ⟨fun h => congrArg some h.symm, fun h => (Option.some.inj h).symm⟩
  | none =>
    refine ⟨fun h => ?_, fun h => nomatch h⟩
    obtain ⟨c, cs, hcs, _⟩ := n.exists_first
    rw [h] at hcs
    cases hcs

/-- An entry writes a rule field by field. -/
structure RuleEntry.Writes (e : RuleEntry) (r : Rule) : Prop where
  dependent : e.dependent = some r.dependent.text
  dependency : e.dependency = some r.dependency.text
  severity : Severity.ofText? e.severity = some r.severity

/-- An entry writes a rule if it gives two names and its severity is one. -/
theorem RuleEntry.exists_writes_iff {e : RuleEntry} :
    (∃ r, e.Writes r) ↔ ∃ d x s, e.dependent = some d ∧ Name.defect? d = none ∧
      e.dependency = some x ∧ Name.defect? x = none ∧ Severity.ofText? e.severity = some s := by
  refine ⟨fun h => ?_, fun h => ?_⟩
  · obtain ⟨r, hd, hx, hs⟩ := h
    exact ⟨_, _, _, hd, r.dependent.sound, hx, r.dependency.sound, hs⟩
  · obtain ⟨d, x, s, hd, hdsound, hx, hxsound, hs⟩ := h
    exact ⟨⟨⟨d, hdsound⟩, ⟨x, hxsound⟩, s⟩, hd, hx, hs⟩

namespace Config

theorem loadEntry_eq_ok_iff {index : Nat} {e : RuleEntry} {r : Rule} :
    loadEntry index e = .ok r ↔ e.Writes r := by
  have hmade : loadEntry index e = .ok r ↔ Severity.ofText? e.severity = some r.severity ∧
      e.dependent = some r.dependent.text ∧ e.dependency = some r.dependency.text := by
    simp [loadEntry, Rule.ofOptional, Name.text_eq_getD_iff]
  rw [hmade]
  exact ⟨fun ⟨hs, hd, hx⟩ => ⟨hd, hx, hs⟩, fun h => ⟨h.severity, h.dependent, h.dependency⟩⟩

theorem loadEntries_eq_ok_iff {index : Nat} {entries : List RuleEntry} {rules : List Rule} :
    loadEntries index entries = .ok rules ↔ List.Forall₂ RuleEntry.Writes entries rules := by
  induction entries generalizing index rules with
  | nil => simp [loadEntries, eq_comm]
  | cons e entries ih =>
    simp [loadEntries, loadEntry_eq_ok_iff, List.forall₂_cons_left_iff, ih, @eq_comm _ rules]

/-! ## Arrow rules -/

/-- Each line has a reading, and the rules of the lines follow one another. -/
theorem loadArrows_eq_ok_iff {index : Nat} {lines : List String} {rules : List Rule} :
    loadArrows index lines = .ok rules ↔ ∃ readings : List Rule.Reading,
      List.Forall₂ (fun line r => Spaced r.tokens line.toList) lines readings ∧
        rules = readings.flatMap (·.rules) := by
  induction lines generalizing index rules with
  | nil =>
    simp only [List.forall₂_nil_left_iff, loadArrows, Except.ok.injEq, exists_eq_left,
      List.flatMap_nil]
    exact eq_comm
  | cons line lines ih =>
    have hlines : loadArrows index (line :: lines) = .ok rules ↔
        ∃ own, Rule.parseArrow line = .ok own ∧
          ∃ others, loadArrows (index + 1) lines = .ok others ∧ own ++ others = rules := by
      simp [loadArrows]
    rw [hlines]
    refine ⟨fun h => ?_, fun h => ?_⟩
    · obtain ⟨own, hown, others, hothers, rfl⟩ := h
      obtain ⟨r, hr, rfl⟩ := Rule.Reading.exists_spaced_of_parseArrow hown
      obtain ⟨readings, hreadings, rfl⟩ := ih.1 hothers
      exact ⟨r :: readings, .cons hr hreadings, List.flatMap_cons.symm⟩
    · obtain ⟨readings, hreadings, rfl⟩ := h
      obtain ⟨r, rest, hr, hrest, rfl⟩ := List.forall₂_cons_left_iff.1 hreadings
      exact ⟨r.rules, Rule.Reading.parseArrow_of_spaced hr, _, ih.2 ⟨rest, hrest, rfl⟩,
        List.flatMap_cons.symm⟩

/-! ## The rules of a configuration -/

/-- A configuration lists rules: one for each entry, then for each arrow rule one for each
dependency, all in order. -/
def Lists (config : Config) (rules : List Rule) : Prop :=
  ∃ (entries : List Rule) (readings : List Rule.Reading),
    List.Forall₂ RuleEntry.Writes config.dependencyRules entries ∧
      List.Forall₂ (fun line r => Spaced r.tokens line.toList) config.arrowRules.lines readings ∧
        rules = entries ++ readings.flatMap (·.rules)

theorem lists_iff {config : Config} {rules : List Rule} :
    config.Lists rules ↔ ∃ entries arrows, loadEntries 0 config.dependencyRules = .ok entries ∧
      loadArrows 0 config.arrowRules.lines = .ok arrows ∧ rules = entries ++ arrows := by
  unfold Lists
  simp only [loadEntries_eq_ok_iff, loadArrows_eq_ok_iff]
  refine ⟨fun h => ?_, fun h => ?_⟩
  · obtain ⟨entries, readings, hentries, hreadings, hrules⟩ := h
    exact ⟨entries, _, hentries, ⟨readings, hreadings, rfl⟩, hrules⟩
  · obtain ⟨entries, _, hentries, ⟨readings, hreadings, rfl⟩, hrules⟩ := h
    exact ⟨entries, readings, hentries, hreadings, hrules⟩

/-- A configuration lists its rules in one way only. -/
theorem Lists.unique {config : Config} {rules rules' : List Rule} (h : config.Lists rules)
    (h' : config.Lists rules') : rules = rules' := by
  obtain ⟨entries, arrows, hentries, harrows, rfl⟩ := lists_iff.1 h
  obtain ⟨entries', arrows', hentries', harrows', rfl⟩ := lists_iff.1 h'
  cases hentries.symm.trans hentries'
  cases harrows.symm.trans harrows'
  rfl

/-- What a configuration says, said without loading any part of it. -/
theorem says_iff_lists {config : Config} {default : Severity} {rules : List Rule} :
    config.Says default rules ↔
      config.default? = some default ∧ config.Lists rules ∧ Consistent rules := by
  rw [lists_iff]
  exact ⟨fun h => ⟨h.severity, h.parts, h.consistent⟩, fun ⟨hs, hparts, hc⟩ => ⟨hs, hparts, hc⟩⟩

/-- Every piece of a configuration can be read, and no two of its rules are about one pair. -/
structure Loadable (config : Config) : Prop where
  /-- The severity of what no rule covers is one, if it is given. -/
  default (text : String) : config.defaultSeverity = some text →
    ∃ s, Severity.ofText? text = some s
  /-- Every entry has two names and a severity. -/
  entries (e : RuleEntry) : e ∈ config.dependencyRules →
    ∃ d x s, e.dependent = some d ∧ Name.defect? d = none ∧
      e.dependency = some x ∧ Name.defect? x = none ∧ Severity.ofText? e.severity = some s
  /-- Every arrow rule is accepted. -/
  arrows (line : String) : line ∈ config.arrowRules.lines →
    ∃ rules, Rule.parseArrow line = .ok rules
  /-- The rules that it lists are consistent. -/
  distinct (rules : List Rule) : config.Lists rules → Consistent rules

theorem exists_default?_iff {config : Config} :
    (∃ s, config.default? = some s) ↔ ∀ text, config.defaultSeverity = some text →
      ∃ s, Severity.ofText? text = some s := by
  unfold default?
  cases config.defaultSeverity with
  | none => simp
  | some text => simp

theorem exists_reading_iff {line : String} :
    (∃ r : Rule.Reading, Spaced r.tokens line.toList) ↔
      ∃ rules, Rule.parseArrow line = .ok rules := by
  refine ⟨fun ⟨r, hr⟩ => ⟨r.rules, Rule.Reading.parseArrow_of_spaced hr⟩, fun ⟨rules, h⟩ => ?_⟩
  obtain ⟨r, hr, _⟩ := Rule.Reading.exists_spaced_of_parseArrow h
  exact ⟨r, hr⟩

/-- A configuration lists rules iff each of its entries and arrow rules can be read. -/
theorem exists_lists_iff {config : Config} :
    (∃ rules, config.Lists rules) ↔
      (∀ e ∈ config.dependencyRules, ∃ r, e.Writes r) ∧
        ∀ line ∈ config.arrowRules.lines, ∃ rules, Rule.parseArrow line = .ok rules := by
  simp only [← exists_reading_iff, ← exists_forall₂_iff]
  refine ⟨fun h => ?_, fun h => ?_⟩
  · obtain ⟨_, entries, readings, hentries, hreadings, _⟩ := h
    exact ⟨⟨entries, hentries⟩, readings, hreadings⟩
  · obtain ⟨⟨entries, hentries⟩, readings, hreadings⟩ := h
    exact ⟨_, entries, readings, hentries, hreadings, rfl⟩

theorem exists_says_iff_loadable {config : Config} :
    (∃ default rules, config.Says default rules) ↔ config.Loadable := by
  simp only [says_iff_lists]
  refine ⟨fun h => ?_, fun h => ?_⟩
  · obtain ⟨default, rules, hdefault, hrules, hcons⟩ := h
    obtain ⟨hentries, harrows⟩ := exists_lists_iff.1 ⟨rules, hrules⟩
    exact ⟨exists_default?_iff.1 ⟨default, hdefault⟩,
      fun e he => RuleEntry.exists_writes_iff.1 (hentries e he), harrows,
      fun rules' hrules' => hrules.unique hrules' ▸ hcons⟩
  · obtain ⟨default, hdefault⟩ := exists_default?_iff.2 h.default
    obtain ⟨rules, hrules⟩ := exists_lists_iff.2
      ⟨fun e he => RuleEntry.exists_writes_iff.2 (h.entries e he), h.arrows⟩
    exact ⟨default, rules, hdefault, hrules, h.distinct rules hrules⟩

/-- **A configuration loads iff every piece of it can be read and no two rules are about one pair.** -/
theorem exists_load_iff_loadable {config : Config} :
    (∃ set, config.load = .ok set) ↔ config.Loadable := by
  simp only [← exists_says_iff_loadable, ← load_iff_says]
  refine ⟨fun ⟨set, h⟩ => ⟨_, _, set.index, h⟩, fun ⟨_, _, index, h⟩ => ⟨_, h⟩⟩

theorem not_loadable_of_load {config : Config} {e : LoadError} (h : config.load = .error e) :
    ¬config.Loadable := by
  rw [← exists_load_iff_loadable, h]
  exact fun ⟨_, hset⟩ => nomatch hset

end Config

/-- A rule set is all that a configuration says, and its judge goes with its rules. -/
structure RuleSet.Represents (set : RuleSet) (config : Config) : Prop where
  /-- The rules are those that the configuration lists. -/
  listed : config.Lists set.rules
  /-- Their names are names. -/
  names (r : Rule) : r ∈ set.rules →
    Name.defect? r.dependent.text = none ∧ Name.defect? r.dependency.text = none
  /-- No two of them are about one pair. -/
  consistent : Consistent set.rules
  /-- The index has counted them. -/
  count : set.index.ruleCount = set.rules.length
  /-- What they leave open has the configured severity, or `fail` if none is configured. -/
  default : config.default? = some set.defaultSeverity
  /-- A judge that scans them can be made, and the index answers as it does. -/
  judge : ∃ scan, Scan.ofRules set.rules = .ok scan ∧
    ∀ q x, set.index.judge q x = scan.judge q x

/-- **What a loaded configuration guarantees.** The rule set represents the configuration; and a
configuration loads exactly if every piece of it can be read and no two rules are about one pair. -/
theorem Config.load_represents (config : Config) :
    (∀ set, config.load = .ok set → set.Represents config) ∧
      ((∃ set, config.load = .ok set) ↔ config.Loadable) := by
  refine ⟨fun set h => ?_, ?_⟩
  · obtain ⟨hdefault, hlisted, hcons⟩ := says_iff_lists.1 (says_of_load h)
    obtain ⟨hholds, _⟩ := Index.holds_of_ofRules (load_eq_ok.1 h).2
    exact {
      listed := hlisted
      names := fun r _ => ⟨r.dependent.sound, r.dependency.sound⟩
      consistent := hcons
      count := hholds.count
      default := hdefault
      judge := ⟨⟨set.rules⟩, Scan.ofRules_eq_ok_iff.2 ⟨hcons, rfl⟩,
        (hholds.follows hcons).eq (Scan.follows set.rules) hcons⟩ }
  · exact exists_load_iff_loadable

/-- One rule field by field, and a block of arrow rules with a blank line between two others. -/
def mixedConfig : Config :=
  ⟨some "inform", [⟨some "net.bar", some "jdk.Unsafe", "warn"⟩],
    .block "\nnet -> jdk.Unsafe, jdk.Signal: IGNORE\r\n  \n(org -> jdk.Signal: fail)"⟩

/-- The same rules with the arrow rules in a list. -/
def listedConfig : Config :=
  ⟨some "inform", [⟨some "net.bar", some "jdk.Unsafe", "warn"⟩],
    .list ["net -> jdk.Unsafe, jdk.Signal: IGNORE", "(org -> jdk.Signal: fail)"]⟩

/-- The four rules, and the trees for their two dependencies. -/
def mixedSet : RuleSet :=
  ⟨[⟨⟨"net.bar", by decide +kernel⟩, ⟨"jdk.Unsafe", by decide +kernel⟩, .warn⟩,
      ⟨⟨"net", by decide +kernel⟩, ⟨"jdk.Unsafe", by decide +kernel⟩, .ignore⟩,
      ⟨⟨"net", by decide +kernel⟩, ⟨"jdk.Signal", by decide +kernel⟩, .ignore⟩,
      ⟨⟨"org", by decide +kernel⟩, ⟨"jdk.Signal", by decide +kernel⟩, .fail⟩],
    ⟨[("jdk.Unsafe", ⟨none, .cons "net" (some .ignore) (.cons "bar" (some .warn) .nil .nil) .nil⟩),
      ("jdk.Signal", ⟨none, .cons "net" (some .ignore) .nil (.cons "org" (some .fail) .nil .nil)⟩)],
      4⟩, .inform⟩

theorem Config.load_represents_mixed :
    mixedConfig.load = .ok mixedSet ∧ mixedSet.Represents mixedConfig ∧ mixedConfig.Loadable ∧
      listedConfig.load = .ok mixedSet ∧ mixedSet.Represents listedConfig ∧
      listedConfig.Loadable := by
  have hmixed : mixedConfig.load = .ok mixedSet :=
    load_eq_ok.2 ⟨eq_ok_of_toOption (by decide +kernel), eq_ok_of_toOption (by decide +kernel)⟩
  -- the lines of the block are the entries of the list
  have hlisted : listedConfig.load = .ok mixedSet := by
    rw [← hmixed]
    exact load_congr rfl rfl (congrArg (loadArrows 0) (by decide +kernel))
  have hlaw := load_represents mixedConfig
  have hlaw' := load_represents listedConfig
  exact ⟨hmixed, hlaw.1 mixedSet hmixed, hlaw.2.1 ⟨mixedSet, hmixed⟩,
    hlisted, hlaw'.1 mixedSet hlisted, hlaw'.2.1 ⟨mixedSet, hlisted⟩⟩

end ApiGate
