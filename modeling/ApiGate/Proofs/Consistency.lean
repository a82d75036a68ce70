import ApiGate.Judge.Scan

/-!
# Consistent rules

Rules are consistent if no two of them are about the same pair of dependent and dependency, be their
severities equal or not. Consistent rules give a pair one severity at most, wherever in the list its
rule stands; `severityIn?` looks it up.

The search for a clash goes from left to right and looks at the rules before. It finds none exactly
if the rules are consistent.
-/

namespace ApiGate

namespace Rule

@[simp, grind =] theorem samePair_iff {r s : Rule} :
    r.samePair s = true ↔
      r.dependent.text = s.dependent.text ∧ r.dependency.text = s.dependency.text := by
  simp [samePair]

theorem samePair_symm {r s : Rule} (h : r.samePair s = true) : s.samePair r = true := by
  grind

theorem samePair_trans {r s t : Rule} (h : r.samePair s = true) (h' : s.samePair t = true) :
    r.samePair t = true := by
  grind

/-- A rule is known by its pair and its severity. -/
theorem eq_of_samePair {r s : Rule} (h : r.samePair s = true) (hs : r.severity = s.severity) :
    r = s := by
  obtain ⟨hd, hx⟩ := samePair_iff.1 h
  obtain ⟨rd, rx, rs⟩ := r
  obtain ⟨sd, sx, ss⟩ := s
  simp only at hd hx hs
  rw [Name.ext_text hd, Name.ext_text hx, hs]

/-- The severity of the first rule for a pair. -/
def severityIn? (rules : List Rule) (d x : String) : Option Severity :=
  (rules.find? fun r => r.dependent.text = d ∧ r.dependency.text = x).map (·.severity)

theorem severityIn?_append (rules more : List Rule) (d x : String) :
    severityIn? (rules ++ more) d x = (severityIn? rules d x).or (severityIn? more d x) := by
  unfold severityIn?
  rw [List.find?_append]
  cases rules.find? fun r => r.dependent.text = d ∧ r.dependency.text = x <;> rfl

theorem severityIn?_singleton (r : Rule) (d x : String) :
    severityIn? [r] d x =
      if d = r.dependent.text ∧ x = r.dependency.text then some r.severity else none := by
  unfold severityIn?
  rw [List.find?_singleton]
  by_cases h : r.dependent.text = d ∧ r.dependency.text = x
  · simp [h]
  · have h' : ¬(d = r.dependent.text ∧ x = r.dependency.text) :=
      fun he => h ⟨he.1.symm, he.2.symm⟩
    simp [h, h']

theorem severityIn?_eq_none_iff {rules : List Rule} {d x : String} :
    severityIn? rules d x = none ↔
      ∀ r ∈ rules, ¬(r.dependent.text = d ∧ r.dependency.text = x) := by
  unfold severityIn?
  rw [Option.map_eq_none_iff, List.find?_eq_none]
  simp only [decide_eq_true_eq]

/-- The first rule for the pair of `r` is what the search for a clash finds. -/
theorem severityIn?_eq_find? (rules : List Rule) (r : Rule) :
    severityIn? rules r.dependent.text r.dependency.text =
      (rules.find? (samePair · r)).map (·.severity) := by
  unfold severityIn?
  congr 2
  funext s
  rw [Bool.eq_iff_iff, decide_eq_true_eq, samePair_iff]

end Rule

/-- No two rules are about the same pair. -/
def Consistent (rules : List Rule) : Prop :=
  rules.Pairwise fun r s => ¬r.samePair s = true

namespace Consistent

theorem eq_of_samePair {rules : List Rule} (h : Consistent rules) {r s : Rule} (hr : r ∈ rules)
    (hs : s ∈ rules) (hpair : r.samePair s = true) : r = s := by
  induction rules with
  | nil => cases hr
  | cons t rest ih =>
    obtain ⟨hfirst, hrest⟩ := List.pairwise_cons.1 h
    have hsymm : s.samePair r = true := Rule.samePair_symm hpair
    rcases List.mem_cons.1 hr with hrt | hr'
    · rcases List.mem_cons.1 hs with hst | hs'
      · rw [hrt, hst]
      · -- no rule of the rest has the pair of the first
        exact absurd hpair (hrt ▸ hfirst s hs')
    · rcases List.mem_cons.1 hs with hst | hs'
      · exact absurd hsymm (hst ▸ hfirst r hr')
      · exact ih hrest hr' hs'

theorem severityIn?_eq_some_iff {rules : List Rule} (h : Consistent rules) {d x : String}
    {v : Severity} :
    Rule.severityIn? rules d x = some v ↔
      ∃ r ∈ rules, r.dependent.text = d ∧ r.dependency.text = x ∧ r.severity = v := by
  constructor
  · intro hv
    unfold Rule.severityIn? at hv
    obtain ⟨r, hr, hrv⟩ := Option.map_eq_some_iff.1 hv
    have hpair := List.find?_some hr
    rw [decide_eq_true_eq] at hpair
    exact ⟨r, List.mem_of_find?_eq_some hr, hpair.1, hpair.2, hrv⟩
  · intro hrule
    obtain ⟨r, hr, rfl, rfl, rfl⟩ := hrule
    rw [Rule.severityIn?_eq_find?]
    cases hf : rules.find? (Rule.samePair · r) with
    | none =>
      have hself := List.find?_eq_none.1 hf r hr
      simp at hself
    | some s =>
      have hs : s.samePair r = true := by simpa using List.find?_some hf
      rw [h.eq_of_samePair (List.mem_of_find?_eq_some hf) hr hs]
      rfl

end Consistent

namespace Scan

/-- The search for a clash among `rest` after `earlier` finds none exactly if no rule of `rest`
repeats a pair, be it from `earlier` or from `rest` itself. -/
theorem clash?_eq_none_iff {earlier rest : List Rule} :
    clash? earlier rest = none ↔
      (∀ r ∈ rest, ∀ e ∈ earlier, ¬e.samePair r = true) ∧ Consistent rest := by
  induction rest generalizing earlier with
  | nil => simp [clash?, Consistent]
  | cons r rest ih =>
    simp only [clash?]
    cases hf : earlier.find? (Rule.samePair · r) with
    | some e =>
      have he : e.samePair r = true := by simpa using List.find?_some hf
      simp only [reduceCtorEq, false_iff]
      intro h
      exact h.1 r List.mem_cons_self e (List.mem_of_find?_eq_some hf) he
    | none =>
      -- the search goes on with `r` among the earlier rules
      have hr : ∀ e ∈ earlier, ¬e.samePair r = true := List.find?_eq_none.1 hf
      simp only [ih, Consistent, List.pairwise_cons]
      constructor
      · intro h
        obtain ⟨hrest, hcons⟩ := h
        refine ⟨?_, fun s hs => hrest s hs r (List.mem_append_right _ (List.mem_singleton.2 rfl)),
          hcons⟩
        intro s hs
        rcases List.mem_cons.1 hs with rfl | hs
        · exact hr
        · exact fun e he => hrest s hs e (List.mem_append_left _ he)
      · intro h
        obtain ⟨hall, hfirst, hcons⟩ := h
        refine ⟨?_, hcons⟩
        intro s hs e he
        rcases List.mem_append.1 he with he | he
        · exact hall s (List.mem_cons_of_mem r hs) e he
        · rw [List.mem_singleton.1 he]
          exact hfirst s hs

theorem ofRules_eq_ok_iff {rules : List Rule} {scan : Scan} :
    ofRules rules = .ok scan ↔ Consistent rules ∧ scan.rules = rules := by
  have hnone : clash? [] rules = none ↔ Consistent rules := by
    rw [clash?_eq_none_iff]
    simp
  unfold ofRules
  cases hc : clash? [] rules with
  | some c => simp [← hnone, hc]
  | none =>
    obtain ⟨kept⟩ := scan
    simp [hnone.1 hc, eq_comm]

end Scan

end ApiGate
