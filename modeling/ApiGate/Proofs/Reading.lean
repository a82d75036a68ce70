import ApiGate.Program
import ApiGate.Proofs.Making
import ApiGate.Proofs.Separators

/-!
# What a run reads

A run reads a configuration and facts, and both are texts before they are anything else. Which text
it is, and what is to be in it, is said here without the steps of reading, and reading succeeds with
just that.

* `ConfigSource.Holds`: a configuration is in the file at the path of its source. A source without a
  path has the empty configuration, and no file is looked at.
* `Facts.FoundAt`: facts are in the file at their path, unless the path is a hyphen. Then they are
  on standard input, and a file of that name is not looked at. A hyphen stays one with slashes and
  dots after it (`Facts.IsHyphen`).
-/

namespace ApiGate

namespace ConfigSource

/-- At a source there is a configuration. -/
inductive Holds (source : ConfigSource) (files : FileTree) : Config → Prop where
  /-- Without a path it is the empty one. -/
  | empty (path : source.path? = none) : Holds source files Config.empty
  /-- At a path it is what the text of the file there says. -/
  | written {own text : String} {config : Config} (path : source.path? = some own)
      (file : files.text? own = some text) (parsed : Config.parse? text = some config) :
      Holds source files config

variable {source : ConfigSource} {files : FileTree} {config : Config}

theorem holds_of_bind {own : String} (hpath : source.path? = some own)
    (h : (files.text? own).bind Config.parse? = some config) : source.Holds files config := by
  obtain ⟨text, hfile, hparsed⟩ := Option.bind_eq_some_iff.1 h
  exact .written hpath hfile hparsed

/-- **Reading a source is finding its configuration.** -/
theorem read_eq_ok_iff : source.read files = .ok config ↔ source.Holds files config := by
  unfold read
  constructor
  · intro h
    cases hpath : source.path? with
    | none =>
      simp only [hpath, Except.ok.injEq] at h
      exact h ▸ .empty hpath
    | some own =>
      cases hparse : (files.text? own).bind Config.parse? with
      | none => simp [hpath, hparse] at h
      | some config' =>
        simp only [hpath, hparse, Except.ok.injEq] at h
        exact h ▸ holds_of_bind hpath hparse
  · intro h
    cases h with
    | empty hpath => simp only [hpath]
    | written hpath hfile hparsed => simp only [hpath, hfile, Option.bind_some, hparsed]

end ConfigSource

namespace Facts

/-- A path is a hyphen, up to slashes and dots after it. -/
def IsHyphen (path : String) : Prop :=
  ∃ steps : List (List Char), (∀ step ∈ steps, step = [] ∨ step = ['.']) ∧
    path.toList = '-' :: steps.flatMap ('/' :: ·)

@[simp] theorem isInput_iff {path : String} : isInput path = true ↔ IsHyphen path := by
  have hjoin : ∀ steps : List (List Char),
      '-' :: steps.flatMap ('/' :: ·) = ['/'].intercalate (['-'] :: steps) := by
    intro steps
    rw [Text.intercalate_cons]
    rfl
  unfold isInput IsHyphen
  simp only [hjoin]
  constructor
  · intro h
    split at h
    · rename_i steps hsteps
      refine ⟨steps, by simpa using h, ?_⟩
      rw [← hsteps, List.intercalate_splitOn]
    · cases h
  · intro h
    obtain ⟨steps, hsteps, hpath⟩ := h
    -- no step holds a slash, so cutting finds the steps again
    have hslash : ∀ step ∈ ['-'] :: steps, '/' ∉ step := by
      rw [List.forall_mem_cons]
      refine ⟨by decide, fun step hstep => ?_⟩
      rcases hsteps step hstep with rfl | rfl <;> decide
    rw [hpath, List.splitOn_intercalate '/' hslash (List.cons_ne_nil _ _)]
    simpa using hsteps

/-- A path leads to a text: the one on standard input if the path is a hyphen, and that of the file
there if it is none. -/
def TextAt (env : Environment) (path text : String) : Prop :=
  (IsHyphen path ∧ env.input = some text) ∨ (¬IsHyphen path ∧ env.files.text? path = some text)

theorem readText_eq_ok_iff {env : Environment} {path text : String} :
    readText env path = .ok text ↔ TextAt env path text := by
  unfold readText TextAt
  by_cases hhyphen : IsHyphen path
  · rw [if_pos (isInput_iff.2 hhyphen)]
    cases env.input <;> simp [hhyphen]
  · rw [if_neg (mt isInput_iff.1 hhyphen)]
    cases env.files.text? path <;> simp [hhyphen]

/-- A path leads to facts: there is a text, and these are the facts in it. -/
def FoundAt (env : Environment) (path : String) (facts : List (String × List String)) : Prop :=
  ∃ text, TextAt env path text ∧ decode? text = some facts

/-- **Reading facts is finding them at their path.** -/
theorem read_eq_ok_iff {env : Environment} {path : String}
    {facts : List (String × List String)} :
    read env path = .ok facts ↔ FoundAt env path facts := by
  unfold read FoundAt
  rw [bind_eq_ok]
  simp only [readText_eq_ok_iff]
  refine exists_congr fun text => and_congr_right fun _ => ?_
  cases decode? text <;> simp

theorem foundAt_hyphen {env : Environment} {text : String} {facts : List (String × List String)}
    (hinput : env.input = some text) (hfacts : decode? text = some facts) :
    FoundAt env "-" facts :=
  ⟨text, Or.inl ⟨⟨[], by simp, rfl⟩, hinput⟩, hfacts⟩

/-- A path leads to one list of facts at most. -/
theorem FoundAt.unique {env : Environment} {path : String}
    {facts facts' : List (String × List String)} (h : FoundAt env path facts)
    (h' : FoundAt env path facts') : facts = facts' :=
  Except.ok.inj ((read_eq_ok_iff.2 h).symm.trans (read_eq_ok_iff.2 h'))

end Facts

end ApiGate
