import ApiGate.Judge.Index

/-!
# What a forest says of a path

A forest is read in two ways. `Forest.severity?` is the severity of one path and of no other: it is
what inserting a name writes, and what decides whether a name can still be inserted.
`Forest.deepest` is what a query asks for. This module says each operation through `severity?`:

* inserting at a path that has a severity fails with that severity (`insert_of_taken`);
* inserting at any other path succeeds, and changes what the forest says of that path and of no
  other (`insert_of_free`): places made on the way have no severity;
* a walk ends with the severity of the longest beginning of its path that has one, and with none
  only if no beginning has one (`deepest_eq_some_iff`, `deepest_eq_none_iff`).

The walk stops at the first part that is missing. This loses nothing, as nothing below a missing
part has a severity.
-/

namespace ApiGate.Forest

/-- The severity of the name with exactly these parts. -/
def severity? : Forest → List String → Option Severity
  | _, [] => none
  | .nil, _ :: _ => none
  | .cons q s below rest, p :: ps =>
    if p = q then if ps = [] then s else below.severity? ps
    else rest.severity? (p :: ps)

@[simp] theorem severity?_nil_path (f : Forest) : f.severity? [] = none := by cases f <;> rfl

@[simp] theorem severity?_nil (ps : List String) : Forest.nil.severity? ps = none := by
  cases ps <;> rfl

section Cons

variable {p q : String} {s : Option Severity} {below rest : Forest} {ps : List String}

@[simp] theorem severity?_here : (Forest.cons q s below rest).severity? [q] = s := by
  simp [severity?]

@[simp] theorem severity?_below (h : ps ≠ []) :
    (Forest.cons q s below rest).severity? (q :: ps) = below.severity? ps := by
  simp [severity?, h]

@[simp] theorem severity?_beside (h : p ≠ q) :
    (Forest.cons q s below rest).severity? (p :: ps) = rest.severity? (p :: ps) := by
  simp [severity?, h]

end Cons

/-- Seen from the place for `q`, a path ends before it, at it, below it, or beside it. -/
theorem place_cases (q : String) (ps : List String) :
    ps = [] ∨ ps = [q] ∨ (∃ under, under ≠ [] ∧ ps = q :: under) ∨
      ∃ p others, p ≠ q ∧ ps = p :: others := by
  cases ps with
  | nil => exact Or.inl rfl
  | cons p others =>
    by_cases hp : p = q
    · subst hp
      by_cases hnil : others = []
      · exact Or.inr (Or.inl (by rw [hnil]))
      · exact Or.inr (Or.inr (Or.inl ⟨others, hnil, rfl⟩))
    · exact Or.inr (Or.inr (Or.inr ⟨p, others, hp, rfl⟩))

theorem severity?_hollow (q : String) (ps : List String) :
    (Forest.cons q none .nil .nil).severity? ps = none := by
  rcases place_cases q ps with hps | hps | ⟨under, hnil, hps⟩ | ⟨p, others, hp, hps⟩
  · simp [hps]
  · simp [hps]
  · simp [hps, hnil]
  · simp [hps, hp]

theorem ne_nil_of_severity? {f : Forest} {ps : List String} {v : Severity}
    (h : f.severity? ps = some v) : ps ≠ [] := by
  intro hnil
  simp [hnil] at h

/-! ## Inserting -/

theorem insert_below {v : Severity} {q : String} {s : Option Severity} {below rest : Forest}
    {ps : List String} (h : ps ≠ []) :
    (Forest.cons q s below rest).insert v (q :: ps) =
      (below.insert v ps).map fun f => .cons q s f rest := by
  cases ps with
  | nil => exact absurd rfl h
  | cons p ps => simp [insert]

/-- `g` gives the path `ps` the severity `v`, and any other path what `f` gives it. -/
def Sets (f g : Forest) (ps : List String) (v : Severity) : Prop :=
  ∀ qs, g.severity? qs = if qs = ps then some v else f.severity? qs

namespace Sets

variable {v : Severity} {q : String} {s : Option Severity} {f g : Forest} {ps : List String}

theorem here (q : String) (s : Option Severity) (f g : Forest) (v : Severity) :
    Sets (.cons q s f g) (.cons q (some v) f g) [q] v := by
  intro qs
  rcases place_cases q qs with hqs | hqs | ⟨under, hnil, hqs⟩ | ⟨p, others, hp, hqs⟩
  · simp [hqs]
  · simp [hqs]
  · simp [hqs, hnil]
  · simp [hqs, hp]

theorem below (h : Sets f g ps v) (hps : ps ≠ []) (q : String) (s : Option Severity)
    (rest : Forest) : Sets (.cons q s f rest) (.cons q s g rest) (q :: ps) v := by
  intro qs
  rcases place_cases q qs with hqs | hqs | ⟨under, hnil, hqs⟩ | ⟨p, others, hp, hqs⟩
  · simp [hqs]
  · simp [hqs, hps.symm]
  · simp [hqs, hnil, h under]
  · simp [hqs, hp]

theorem beside {p : String} (h : Sets f g (p :: ps) v) (hpq : p ≠ q) (s : Option Severity)
    (under : Forest) : Sets (.cons q s under f) (.cons q s under g) (p :: ps) v := by
  intro qs
  rcases place_cases q qs with hqs | hqs | ⟨under, hnil, hqs⟩ | ⟨r, others, hr, hqs⟩
  · simp [hqs]
  · simp [hqs, hpq.symm]
  · simp [hqs, hnil, hpq.symm]
  · simp [hqs, hr, h (r :: others)]

/-- Places made on the way have no severity. -/
theorem chain (hps : ps ≠ []) (v : Severity) : Sets .nil (Forest.chain v ps) ps v := by
  induction ps with
  | nil => exact absurd rfl hps
  | cons p ps ih =>
    -- a place without a severity and with nothing below it is as good as none
    have hmade : Sets (.cons p none .nil .nil) (Forest.chain v (p :: ps)) (p :: ps) v := by
      cases ps with
      | nil => exact here p none .nil .nil v
      | cons p' ps => exact (ih (List.cons_ne_nil p' ps)).below (List.cons_ne_nil p' ps) p none .nil
    intro qs
    rw [hmade qs, severity?_hollow, severity?_nil]

end Sets

/-- **A name that has a severity cannot be given another.** -/
theorem insert_of_taken {v old : Severity} {f : Forest} {ps : List String}
    (h : f.severity? ps = some old) : f.insert v ps = .error old := by
  induction f generalizing ps with
  | nil => simp at h
  | cons q s below rest ihb ihr =>
    rcases place_cases q ps with hps | hps | ⟨under, hnil, hps⟩ | ⟨p, others, hp, hps⟩
    · exact absurd hps (ne_nil_of_severity? h)
    · have hs : s = some old := by simpa [hps] using h
      simp [hps, insert, hs]
    · have hbelow : below.severity? under = some old := by simpa [hps, hnil] using h
      rw [hps, insert_below hnil, ihb hbelow]
      rfl
    · have hrest : rest.severity? (p :: others) = some old := by simpa [hps, hp] using h
      simp [hps, insert, hp, ihr hrest, Except.map]

/-- **A name that has no severity can be given one, and no other name is affected.** -/
theorem insert_of_free {v : Severity} {f : Forest} {ps : List String} (hps : ps ≠ [])
    (h : f.severity? ps = none) : ∃ g, f.insert v ps = .ok g ∧ Sets f g ps v := by
  induction f generalizing ps with
  | nil =>
    cases ps with
    | nil => exact absurd rfl hps
    | cons p ps => exact ⟨chain v (p :: ps), rfl, Sets.chain hps v⟩
  | cons q s below rest ihb ihr =>
    rcases place_cases q ps with hps' | hps' | ⟨under, hnil, hps'⟩ | ⟨p, others, hp, hps'⟩
    · exact absurd hps' hps
    · subst hps'
      have hs : s = none := by simpa using h
      exact ⟨.cons q (some v) below rest, by simp [insert, hs], Sets.here q s below rest v⟩
    · subst hps'
      obtain ⟨g, hg, hsets⟩ := ihb hnil (by simpa [hnil] using h)
      exact ⟨.cons q s g rest, by rw [insert_below hnil, hg]; rfl, hsets.below hnil q s rest⟩
    · subst hps'
      obtain ⟨g, hg, hsets⟩ := ihr hps (by simpa [hp] using h)
      exact ⟨.cons q s below g, by simp [insert, hp, hg, Except.map], hsets.beside hp s below⟩

/-! ## Walking -/

/-- A walk along `ps` ends with `v`, the severity of `path`: no longer beginning of `ps` has one. -/
structure Reaches (f : Forest) (ps path : List String) (v : Severity) : Prop where
  begins : path <+: ps
  severity : f.severity? path = some v
  /-- No beginning of the walk that has a severity is longer. -/
  longest : ∀ other, other <+: ps → f.severity? other ≠ none → other.length ≤ path.length

/-- A walk has one end at most. -/
theorem Reaches.unique {f : Forest} {ps path path' : List String} {v w : Severity}
    (h : Reaches f ps path v) (h' : Reaches f ps path' w) : v = w := by
  have hle : path.length ≤ path'.length := h'.longest path h.begins (by simp [h.severity])
  have hge : path'.length ≤ path.length := h.longest path' h'.begins (by simp [h'.severity])
  have hpre : path <+: path' := List.prefix_of_prefix_length_le h.begins h'.begins hle
  have heq : path = path' := hpre.eq_of_length (Nat.le_antisymm hle hge)
  have hvw : some v = some w := by rw [← h.severity, heq, h'.severity]
  exact Option.some.inj hvw

/-- What is met below counts for more than what is met before. -/
theorem deepest_or (f : Forest) (ps : List String) (best : Option Severity) :
    f.deepest ps best = (f.deepest ps none).or best := by
  induction f generalizing ps best with
  | nil => cases ps <;> rfl
  | cons q s below rest ihb ihr =>
    cases ps with
    | nil => rfl
    | cons p ps =>
      simp only [deepest]
      split
      · rw [ihb ps (s.or best), ihb ps (s.or none), Option.or_none, Option.or_assoc]
      · exact ihr (p :: ps) best

section Cons

variable {p q : String} {s : Option Severity} {below rest : Forest} {ps : List String}

@[simp] theorem deepest_here :
    (Forest.cons p s below rest).deepest (p :: ps) none = (below.deepest ps none).or s := by
  simp only [deepest, if_true, Option.or_none]
  exact deepest_or below ps s

@[simp] theorem deepest_beside (h : p ≠ q) :
    (Forest.cons q s below rest).deepest (p :: ps) none = rest.deepest (p :: ps) none := by
  simp only [deepest, if_neg h]

/-- A walk that ends below a part ends there also when it starts at the part. -/
theorem Reaches.of_below {path : List String} {v : Severity} (h : Reaches below ps path v) :
    Reaches (.cons p s below rest) (p :: ps) (p :: path) v where
  begins := (List.prefix_cons_inj p).2 h.begins
  severity := by simp [ne_nil_of_severity? h.severity, h.severity]
  longest := by
    intro other hother hsome
    rcases List.prefix_cons_iff.1 hother with rfl | ⟨o, rfl, ho⟩
    · exact Nat.zero_le _
    · by_cases hnil : o = []
      · simp [hnil]
      · exact Nat.succ_le_succ (h.longest o ho (by simpa [hnil] using hsome))

/-- With nothing below on the way, only the part itself can have a severity. -/
theorem severity?_eq_none_of_below (h : ∀ o, o <+: ps → below.severity? o = none) {o : List String}
    (ho : o <+: ps) (hnil : o ≠ []) : (Forest.cons p s below rest).severity? (p :: o) = none := by
  simp [hnil, h o ho]

/-- With nothing below on the way, a walk ends at the part, if that has a severity. -/
theorem reaches_here {v : Severity} (h : ∀ o, o <+: ps → below.severity? o = none) :
    Reaches (.cons p (some v) below rest) (p :: ps) [p] v where
  begins := ⟨ps, rfl⟩
  severity := severity?_here
  longest := by
    intro other hother hsome
    rcases List.prefix_cons_iff.1 hother with rfl | ⟨o, rfl, ho⟩
    · exact Nat.zero_le _
    · by_cases hnil : o = []
      · simp [hnil]
      · exact absurd (severity?_eq_none_of_below h ho hnil) hsome

/-- A place for another part says nothing of what begins the walk. -/
theorem severity?_beside_of_begins (h : p ≠ q) {o : List String} (ho : o <+: p :: ps) :
    (Forest.cons q s below rest).severity? o = rest.severity? o := by
  rcases List.prefix_cons_iff.1 ho with rfl | ⟨o, rfl, _⟩
  · simp
  · simp [h]

theorem Reaches.of_beside {path : List String} {v : Severity} (hpq : p ≠ q)
    (h : Reaches rest (p :: ps) path v) : Reaches (.cons q s below rest) (p :: ps) path v where
  begins := h.begins
  severity := by rw [severity?_beside_of_begins hpq h.begins, h.severity]
  longest := by
    intro other hother hsome
    rw [severity?_beside_of_begins hpq hother] at hsome
    exact h.longest other hother hsome

end Cons

/-- The one induction on walks; what they end with and when they end with nothing follow from it. -/
theorem deepest_spec (f : Forest) (ps : List String) :
    match f.deepest ps none with
    | some v => ∃ path, Reaches f ps path v
    | none => ∀ path, path <+: ps → f.severity? path = none := by
  induction f generalizing ps with
  | nil =>
    cases ps with
    | nil => exact fun path _ => severity?_nil path
    | cons p ps => exact fun path _ => severity?_nil path
  | cons q s below rest ihb ihr =>
    cases ps with
    | nil =>
      intro path hpath
      simp [List.prefix_nil.1 hpath]
    | cons p ps =>
      by_cases hp : p = q
      · -- the part is here, so what is below counts first
        subst hp
        rw [deepest_here]
        have hbelow := ihb ps
        cases hd : below.deepest ps none with
        | some v =>
          rw [hd] at hbelow
          obtain ⟨path, hpath⟩ := hbelow
          exact ⟨p :: path, hpath.of_below⟩
        | none =>
          rw [hd] at hbelow
          cases s with
          | some v => exact ⟨[p], reaches_here hbelow⟩
          | none =>
            intro path hpath
            rcases List.prefix_cons_iff.1 hpath with rfl | ⟨o, rfl, ho⟩
            · simp
            · by_cases hnil : o = []
              · simp [hnil]
              · exact severity?_eq_none_of_below hbelow ho hnil
      · -- the part is further on, or missing
        rw [deepest_beside hp]
        have hrest := ihr (p :: ps)
        cases hd : rest.deepest (p :: ps) none with
        | some v =>
          rw [hd] at hrest
          obtain ⟨path, hpath⟩ := hrest
          exact ⟨path, hpath.of_beside hp⟩
        | none =>
          rw [hd] at hrest
          intro path hpath
          rw [severity?_beside_of_begins hp hpath]
          exact hrest path hpath

theorem deepest_eq_none_iff {f : Forest} {ps : List String} :
    f.deepest ps none = none ↔ ∀ path, path <+: ps → f.severity? path = none := by
  have hspec := deepest_spec f ps
  constructor
  · intro h
    rw [h] at hspec
    exact hspec
  · intro h
    cases hd : f.deepest ps none with
    | none => rfl
    | some v =>
      rw [hd] at hspec
      obtain ⟨path, hpath⟩ := hspec
      have hsev := hpath.severity
      rw [h path hpath.begins] at hsev
      cases hsev

/-- **A walk ends with the severity of the longest beginning that has one.** -/
theorem deepest_eq_some_iff {f : Forest} {ps : List String} {v : Severity} :
    f.deepest ps none = some v ↔ ∃ path, Reaches f ps path v := by
  have hspec := deepest_spec f ps
  constructor
  · intro h
    rw [h] at hspec
    exact hspec
  · intro h
    obtain ⟨path, hpath⟩ := h
    cases hd : f.deepest ps none with
    | none =>
      have hsev := hpath.severity
      rw [deepest_eq_none_iff.1 hd path hpath.begins] at hsev
      cases hsev
    | some w =>
      rw [hd] at hspec
      obtain ⟨path', hpath'⟩ := hspec
      rw [hpath'.unique hpath]

end ApiGate.Forest
