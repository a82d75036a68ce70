import ApiGate.Rule

/-!
# Making rules of texts

A rule is made in steps that may fail, and the steps are put together by `do`. A result means that
each step has one, and an error is that of the first step that has none. The lemmas `_eq_ok` and
`_eq_error` say so for each way to put steps together. They are for `simp`, so that a block comes
apart into its steps at once.

With them, making a rule of two texts and a severity is no more than finding these in the rule, and
the same for a rule for each of a list of dependencies. Not making one is finding a defect, first in
the dependent.
-/

namespace ApiGate

section Except

variable {ε δ α β : Type}

@[simp] theorem pure_eq_ok {a b : α} : (pure a : Except ε α) = .ok b ↔ a = b := by
  simp [pure, Except.pure]

@[simp] theorem bind_eq_ok {x : Except ε α} {f : α → Except ε β} {b : β} :
    (x >>= f) = .ok b ↔ ∃ a, x = .ok a ∧ f a = .ok b := by
  cases x with
  | error e => simp [bind, Except.bind]
  | ok a => simp [bind, Except.bind]

@[simp] theorem mapError_error (e : ε) (f : ε → δ) :
    (Except.error e : Except ε α).mapError f = .error (f e) := rfl

@[simp] theorem mapError_ok (a : α) (f : ε → δ) :
    (Except.ok a : Except ε α).mapError f = .ok a := rfl

@[simp] theorem mapError_eq_ok {x : Except ε α} {f : ε → δ} {a : α} :
    x.mapError f = .ok a ↔ x = .ok a := by
  cases x with
  | error e => simp
  | ok b => simp

@[simp] theorem map_eq_ok {x : Except ε α} {f : α → β} {b : β} :
    x.map f = .ok b ↔ ∃ a, x = .ok a ∧ f a = b := by
  cases x with
  | error e => simp [Except.map]
  | ok a => simp [Except.map]

/-- Where only the last step of a block may fail, `do` is the map of the functor. -/
@[simp] theorem fmap_eq_ok {x : Except ε α} {f : α → β} {b : β} :
    f <$> x = .ok b ↔ ∃ a, x = .ok a ∧ f a = b :=
  map_eq_ok

@[simp] theorem bind_eq_error {x : Except ε α} {f : α → Except ε β} {e : ε} :
    (x >>= f) = .error e ↔ x = .error e ∨ ∃ a, x = .ok a ∧ f a = .error e := by
  cases x with
  | error e => simp [bind, Except.bind]
  | ok a => simp [bind, Except.bind]

@[simp] theorem mapError_eq_error {x : Except ε α} {f : ε → δ} {d : δ} :
    x.mapError f = .error d ↔ ∃ e, x = .error e ∧ f e = d := by
  cases x with
  | error e => simp
  | ok a => simp

@[simp] theorem fmap_eq_error {x : Except ε α} {f : α → β} {e : ε} :
    f <$> x = .error e ↔ x = .error e := by
  cases x with
  | error e => simp [Functor.map, Except.map]
  | ok a => simp [Functor.map, Except.map]

/-- A result as an `Option` can be compared, so that it is decided whether there is this one. -/
theorem eq_ok_of_toOption {x : Except ε α} {a : α} (h : x.toOption = some a) : x = .ok a := by
  cases x with
  | error e => cases h
  | ok b => exact congrArg Except.ok (Option.some.inj h)

theorem map_map {γ : Type} (x : Except ε α) (f : α → β) (g : β → γ) :
    (x.map f).map g = x.map fun a => g (f a) := by
  cases x with
  | error e => rfl
  | ok a => rfl

end Except

theorem eq_ofList_iff {text : String} {cs : List Char} :
    text = String.ofList cs ↔ text.toList = cs := by
  rw [← String.toList_inj, String.toList_ofList]

namespace Rule

@[simp] theorem ofTexts_eq_ok_iff {d x : String} {s : Severity} {r : Rule} :
    ofTexts d x s = .ok r ↔ r.dependent.text = d ∧ r.dependency.text = x ∧ r.severity = s := by
  have hmade : ofTexts d x s = .ok r ↔
      ∃ dependent : Name, d = dependent.text ∧ ∃ dependency : Name, x = dependency.text ∧
        ⟨dependent, dependency, s⟩ = r := by
    simp [ofTexts]
  rw [hmade]
  constructor
  · intro h
    obtain ⟨_, rfl, _, rfl, rfl⟩ := h
    exact ⟨rfl, rfl, rfl⟩
  · intro h
    obtain ⟨rfl, rfl, rfl⟩ := h
    exact ⟨r.dependent, rfl, r.dependency, rfl, rfl⟩

/-- The dependency is only looked at if the dependent is a name. -/
theorem ofTexts_eq_error_iff {d x : String} {s : Severity} {e : RuleError} :
    ofTexts d x s = .error e ↔
      (∃ f, Name.defect? d = some f ∧ e = .badName ⟨describe d x s, .dependent, d, f⟩) ∨
        (Name.defect? d = none ∧
          ∃ f, Name.defect? x = some f ∧ e = .badName ⟨describe d x s, .dependency, x, f⟩) := by
  have hside : ∀ role text, (Name.ofText (describe d x s) role text).mapError .badName = .error e ↔
      ∃ f, Name.defect? text = some f ∧ e = .badName ⟨describe d x s, role, text, f⟩ := by
    intro role text
    simp only [mapError_eq_error, Name.ofText_eq_error_iff]
    refine ⟨fun h => ?_, fun h => ?_⟩
    · obtain ⟨_, ⟨f, hf, rfl⟩, rfl⟩ := h
      exact ⟨f, hf, rfl⟩
    · obtain ⟨f, hf, rfl⟩ := h
      exact ⟨_, ⟨f, hf, rfl⟩, rfl⟩
  have hsteps : ofTexts d x s = .error e ↔
      (Name.ofText (describe d x s) .dependent d).mapError .badName = .error e ∨
        ∃ n : Name, d = n.text ∧
          (Name.ofText (describe d x s) .dependency x).mapError .badName = .error e := by
    simp [ofTexts]
  rw [hsteps, hside, hside]
  -- a text without a defect is that of a name
  refine or_congr_right ⟨fun h => ?_, fun h => ?_⟩
  · obtain ⟨n, rfl, hx⟩ := h
    exact ⟨n.sound, hx⟩
  · obtain ⟨hd, hx⟩ := h
    exact ⟨⟨d, hd⟩, rfl, hx⟩

/-- One dependent and severity, and a dependency for each rule, in their order. -/
theorem mapM_ofTexts_eq_ok_iff {d : List Char} {xs : List (List Char)} {s : Severity}
    {rules : List Rule} :
    (xs.mapM fun x => ofTexts (String.ofList d) (String.ofList x) s) = .ok rules ↔
      rules.map (·.dependency.text.toList) = xs ∧
        ∀ r ∈ rules, r.dependent.text.toList = d ∧ r.severity = s := by
  induction xs generalizing rules with
  | nil =>
    cases rules with
    | nil => simp
    | cons r rest => simp
  | cons x xs ih =>
    cases rules with
    | nil => simp
    | cons r rest => simp [ih, eq_ofList_iff, and_assoc, and_left_comm]

end Rule

end ApiGate
